import Mathlib.Data.List.Nodup
import PageShell.Command.Interpreter
import PageShell.Proofs.Command.Spacing

/-!
# Which command a line runs

A registry has each name once, so looking a name up is the same as having a
command of that name (`Registry.resolve?_eq_some_iff`), and the order in which
the commands were registered plays no part. With that, a line is interpreted
in one of three ways, told apart by its words alone: it has none, the first of
them names no command, or it names one. The words are those of the line as it
was typed; that the blanks at its ends are taken off first makes no difference
to them.
-/

namespace PageShell.Registry

variable (registry : Registry)

theorem resolve?_eq_none_iff {name : String} :
    registry.resolve? name = none ↔
      ∀ command ∈ registry.commands, command.name ≠ name := by
  simp [resolve?]

theorem mem_of_resolve? {name : String} {command : Command}
    (h : registry.resolve? name = some command) :
    command ∈ registry.commands ∧ command.name = name := by
  have hname := List.find?_some h
  exact ⟨List.mem_of_find?_eq_some h, of_decide_eq_true hname⟩

theorem resolve?_eq_some_iff {name : String} {command : Command} :
    registry.resolve? name = some command ↔
      command ∈ registry.commands ∧ command.name = name := by
  constructor
  · exact registry.mem_of_resolve?
  · rintro ⟨hmem, rfl⟩
    cases hfound : registry.resolve? command.name with
    | none =>
        have habsent := registry.resolve?_eq_none_iff.mp hfound
        exact absurd rfl (habsent command hmem)
    | some other =>
        obtain ⟨hother, hname⟩ := registry.mem_of_resolve? hfound
        rw [List.inj_on_of_nodup_map registry.distinct hother hmem hname]

/-! ## The three ways -/

section

variable {line : String} {name : Token} {arguments : List Token}

theorem interpretAt_of_blank (h : Token.IsGap line.toList)
    (cursor : List String) :
    registry.interpretAt line cursor = .error .emptyInput := by
  unfold interpretAt
  rw [Token.split_eq_nil_iff.mpr h]

theorem interpretAt_of_unknown (hline : Token.split line = name :: arguments)
    (habsent : ∀ command ∈ registry.commands, command.name ≠ name.value)
    (cursor : List String) :
    registry.interpretAt line cursor = .ok (unknownCommand name.raw) := by
  unfold interpretAt
  rw [hline]
  simp only [registry.resolve?_eq_none_iff.mpr habsent]

theorem interpretAt_of_mem {command : Command}
    (hline : Token.split line = name :: arguments)
    (hmem : command ∈ registry.commands) (hname : command.name = name.value)
    (cursor : List String) :
    registry.interpretAt line cursor =
      .ok (command.handler.run (arguments.map (·.value)) cursor) := by
  unfold interpretAt
  rw [hline]
  simp only [registry.resolve?_eq_some_iff.mpr ⟨hmem, hname⟩]

end

/-! ## Lines of the same words -/

theorem interpretAt_congr {line line' : String}
    (h : Token.words line = Token.words line') (cursor : List String) :
    registry.interpretAt line cursor = registry.interpretAt line' cursor := by
  unfold Token.words at h
  unfold interpretAt
  cases hline : Token.split line with
  | nil =>
      rw [hline] at h
      rw [List.map_eq_nil_iff.mp h.symm]
  | cons name arguments =>
      rw [hline] at h
      obtain ⟨name', arguments', hline', hname, hrest⟩ :=
        List.map_eq_cons_iff.mp h.symm
      obtain ⟨hvalue, hraw⟩ := Prod.mk.inj hname
      have harguments : arguments'.map (·.value) =
          arguments.map (·.value) := by
        have hvalues := congrArg (List.map Prod.fst) hrest
        rwa [List.map_map, List.map_map] at hvalues
      rw [hline']
      simp only [hvalue, hraw, harguments]

theorem interpretAt_trim (line : String) (cursor : List String) :
    registry.interpretAt (String.ofList (Text.trim line.toList)) cursor =
      registry.interpretAt line cursor :=
  registry.interpretAt_congr (Token.words_trim line) cursor

end PageShell.Registry
