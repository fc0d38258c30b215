import Mathlib.Data.List.DropRight
import PageShell.Command.Builtin
import PageShell.Proofs.Command.Dispatch

/-!
# What can be typed

A blank gets into a word only through a group, and a group has no escapes: it
ends at the first quote of its kind. So the part of a value up to its last
blank comes from inside one group and lacks the quote that made it. That is
the only limit. A value that keeps to it is spelled by a group around this
part with the rest attached behind, where quotes mean nothing any more:

    say "hi" now"   is spelled   'say "hi" 'now"

A spelling of this kind opens with a quote that it closes itself, so whatever
is typed after it cannot change how it is read, and words spelled this way can
be put one after the other. This is why a group, if an empty one, stands even
in front of a word without blanks: `'tis` is a word of its own at the end of a
line, and the start of a group if a later word has an apostrophe.
-/

namespace PageShell

namespace Token

/-- A text up to and including its last blank. -/
def upToLastBlank (cs : List Char) : List Char :=
  cs.rdropWhile (!Text.isBlank ·)

/-- What comes after the last blank of a text. -/
def afterLastBlank (cs : List Char) : List Char :=
  cs.rtakeWhile (!Text.isBlank ·)

/-- There is a kind of quote that does not occur before a blank. -/
def IsSpellable (s : String) : Prop :=
  '"' ∉ upToLastBlank s.toList ∨ '\'' ∉ upToLastBlank s.toList

instance (s : String) : Decidable (IsSpellable s) :=
  inferInstanceAs (Decidable (_ ∨ _))

theorem upToLastBlank_append_afterLastBlank (cs : List Char) :
    upToLastBlank cs ++ afterLastBlank cs = cs := by
  rw [upToLastBlank, afterLastBlank, List.rdropWhile, List.rtakeWhile,
    ← List.reverse_append, List.takeWhile_append_dropWhile,
    List.reverse_reverse]

theorem isSolid_afterLastBlank (cs : List Char) :
    IsSolid (afterLastBlank cs) := by
  intro c hc
  simpa using List.mem_rtakeWhile_imp hc

theorem upToLastBlank_of_isSolid {cs : List Char} (h : IsSolid cs) :
    upToLastBlank cs = [] := by
  rw [upToLastBlank, List.rdropWhile_eq_nil_iff]
  intro c hc
  simp [h c hc]

/-- Nothing of a solid end is in front of the last blank. -/
theorem upToLastBlank_append_subset {cs tail : List Char}
    (htail : IsSolid tail) : upToLastBlank (cs ++ tail) ⊆ cs := by
  have hall : ∀ c ∈ tail.reverse, (!Text.isBlank c) = true := by
    intro c hc
    simp [htail c (List.mem_reverse.mp hc)]
  have hdrop : upToLastBlank (cs ++ tail) = upToLastBlank cs := by
    simp only [upToLastBlank, List.rdropWhile, List.reverse_append,
      List.dropWhile_append_of_pos hall]
  rw [hdrop]
  exact (List.rdropWhile_prefix _ cs).subset

/-! ## Values of words -/

theorem isSpellable_of_isQuote {q : Char} {s : String}
    (hq : isQuote q = true) (h : q ∉ upToLastBlank s.toList) :
    IsSpellable s := by
  simp only [isQuote, Bool.or_eq_true, beq_iff_eq] at hq
  rcases hq with rfl | rfl
  · exact .inl h
  · exact .inr h

theorem IsWord.isSpellable {after value raw : List Char}
    (h : IsWord after value raw) : IsSpellable (String.ofList value) := by
  cases h with
  | bare hsolid _ =>
      left
      rw [String.toList_ofList, upToLastBlank_of_isSolid hsolid]
      exact List.not_mem_nil
  | grouped hq hbody htail =>
      refine isSpellable_of_isQuote hq fun hmem => hbody ?_
      rw [String.toList_ofList] at hmem
      exact upToLastBlank_append_subset htail hmem

theorem Splits.isSpellable {position : Nat} {isFirst : Bool} {cs : List Char}
    {tokens : List Token} (h : Splits position isFirst cs tokens) :
    ∀ t ∈ tokens, IsSpellable t.value := by
  induction h with
  | done _ => exact fun t ht => by cases ht
  | word _ _ hword _ ih =>
      exact List.forall_mem_cons.mpr ⟨hword.isSpellable, ih⟩

/-! ## Spelling a value -/

/-- A quote that the value lacks up to its last blank, if there is one. -/
def quoteFor (cs : List Char) : Char :=
  if '"' ∈ upToLastBlank cs then '\'' else '"'

/-- A group up to the last blank, and the rest of the value attached to it. -/
def spelled (cs : List Char) : List Char :=
  quoteFor cs :: upToLastBlank cs ++ quoteFor cs :: afterLastBlank cs

/-- A line of the spelled values. -/
def lineOf (values : List String) : List Char :=
  values.flatMap fun s => ' ' :: spelled s.toList

theorem isQuote_quoteFor (cs : List Char) : isQuote (quoteFor cs) = true := by
  unfold quoteFor
  split <;> rfl

theorem quoteFor_not_mem {s : String} (h : IsSpellable s) :
    quoteFor s.toList ∉ upToLastBlank s.toList := by
  unfold quoteFor
  split
  · next hmem => exact h.resolve_left (fun hnot => hnot hmem)
  · next hnot => exact hnot

theorem isWord_spelled {s : String} (h : IsSpellable s) (after : List Char) :
    IsWord after s.toList (spelled s.toList) := by
  have hword : IsWord after
      (upToLastBlank s.toList ++ afterLastBlank s.toList)
      (spelled s.toList) :=
    .grouped (isQuote_quoteFor s.toList) (quoteFor_not_mem h)
      (isSolid_afterLastBlank s.toList)
  rwa [upToLastBlank_append_afterLastBlank] at hword

/-- A spelled value is read back whatever comes after it, so a whole line of
them is. -/
theorem exists_splits_lineOf {values : List String}
    (h : ∀ s ∈ values, IsSpellable s) (position : Nat) (isFirst : Bool) :
    ∃ tokens, Splits position isFirst (lineOf values) tokens ∧
      tokens.map (·.value) = values := by
  induction values generalizing position isFirst with
  | nil => exact ⟨[], .done (fun c hc => by cases hc), rfl⟩
  | cons s values ih =>
      obtain ⟨hs, hvalues⟩ := List.forall_mem_cons.mp h
      have hgap : IsGap [' '] := List.forall_mem_singleton.mpr (by decide)
      obtain ⟨tokens, hsplits, htokens⟩ := ih hvalues
        (position + Text.width [' '] + Text.width (spelled s.toList)) false
      refine ⟨_, .word hgap (fun _ => List.cons_ne_nil _ _)
        (isWord_spelled hs (lineOf values)) hsplits, ?_⟩
      rw [List.map_cons, htokens, String.ofList_toList]

theorem exists_line_iff (values : List String) :
    (∃ line, (split line).map (·.value) = values) ↔
      ∀ s ∈ values, IsSpellable s := by
  constructor
  · rintro ⟨line, rfl⟩ s hs
    obtain ⟨t, ht, rfl⟩ := List.mem_map.mp hs
    exact (splits_scan 0 true line.toList fun h => by cases h).isSpellable t ht
  · intro h
    obtain ⟨tokens, hsplits, htokens⟩ := exists_splits_lineOf h 0 true
    refine ⟨String.ofList (lineOf values), ?_⟩
    rw [split, String.toList_ofList, ← hsplits.eq_scan, htokens]

end Token

/-! ## Running a command on arguments -/

theorem IsTypable.isSpellable {name : String} (h : IsTypable name) :
    Token.IsSpellable name := by
  left
  rw [Token.upToLastBlank_of_isSolid h.2]
  exact List.not_mem_nil

namespace Registry

theorem exists_line_runs (registry : Registry) {command : Command}
    (hmem : command ∈ registry.commands) {arguments : List String}
    (h : ∀ s ∈ arguments, Token.IsSpellable s) :
    ∃ line, ∀ cursor, registry.interpretAt line cursor =
      .ok (command.handler.run arguments cursor) := by
  have hname := (registry.typable command hmem).isSpellable
  obtain ⟨line, hline⟩ :=
    (Token.exists_line_iff (command.name :: arguments)).mpr
      (List.forall_mem_cons.mpr ⟨hname, h⟩)
  obtain ⟨name, tokens, hsplit, hvalue, hrest⟩ := List.map_eq_cons_iff.mp hline
  refine ⟨line, fun cursor => ?_⟩
  rw [registry.interpretAt_of_mem hsplit hmem hvalue.symm, hrest]

/-- A list of values is what some line divides into exactly if each of them
lacks one of the two quotes up to its last blank. So every command can be run,
at any cursor, on every such list of arguments. -/
theorem typed_iff_spellable :
    (∀ values : List String,
      (∃ line, (Token.split line).map (·.value) = values) ↔
        ∀ s ∈ values, Token.IsSpellable s) ∧
    ∀ (registry : Registry), ∀ command ∈ registry.commands,
      ∀ arguments : List String, (∀ s ∈ arguments, Token.IsSpellable s) →
        ∃ line, ∀ cursor, registry.interpretAt line cursor =
          .ok (command.handler.run arguments cursor) :=
  ⟨Token.exists_line_iff, fun registry _ hmem _ h =>
    registry.exists_line_runs hmem h⟩

/-- Both kinds of quotes and blanks in the arguments of `echo`, and an argument
that no line has. -/
theorem both_quotes_typed :
    Builtin.echo.toCommand ∈ builtin.commands ∧
    (∀ s ∈ ["", "\"it's\"", "don't \"go"], Token.IsSpellable s) ∧
    (∃ line, ∀ cursor, builtin.interpretAt line cursor =
      .ok { output := .text " \"it's\" don't \"go" }) ∧
    ¬∃ line, (Token.split line).map (·.value) = ["\"don't \"go"] := by
  have hmem : Builtin.echo.toCommand ∈ builtin.commands :=
    List.mem_map_of_mem List.mem_cons_self
  have harguments : ∀ s ∈ ["", "\"it's\"", "don't \"go"],
      Token.IsSpellable s := by decide +kernel
  refine ⟨hmem, harguments,
    typed_iff_spellable.2 builtin _ hmem _ harguments, ?_⟩
  rw [typed_iff_spellable.1]
  decide +kernel

end Registry

end PageShell
