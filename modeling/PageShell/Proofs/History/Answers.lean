import PageShell.Proofs.Command.Dispatch
import PageShell.Proofs.History.Replay

/-!
# What each line adds to a history

`Registry.Answers` lists what can become of a line, a case for each: it has no
words, its first word names no command, or it names one, which only answers,
or answers and moves. It speaks of the line as it was typed and of the table
of commands, and says nothing of how a line is trimmed, a name is looked up or
a state is put together. `Registry.answers_iff` is the whole of the argument:
at every cursor exactly one answer and one next cursor are in the relation,
and they are the ones that a step computes.

A run then adds what the relation says, entry by entry, to a history that
stays as it was. The two steps are told apart nowhere in it.
-/

namespace PageShell

namespace Registry

/-- What a line typed at a cursor is answered, and the cursor after it. An
unknown command is named as it was written, quotes included, although names
are looked up without them. -/
inductive Answers (registry : Registry) (cursor : List String)
    (input : String) : List Node → (next : List String) → Prop where
  | blank : (∀ c ∈ input.toList, Text.isBlank c = true) →
      Answers registry cursor input [.text "Empty command"] cursor
  | unknown {name : Token} {arguments : List Token} :
      Token.split input = name :: arguments →
      (∀ command ∈ registry.commands, command.name ≠ name.value) →
      Answers registry cursor input
        [.text ("Unknown command: " ++ name.raw)] cursor
  | rendered {name : Token} {arguments : List Token} {command : Command}
      {run : List String → Output} :
      Token.split input = name :: arguments →
      command ∈ registry.commands → command.name = name.value →
      command.handler = .render run →
      Answers registry cursor input
        (run (arguments.map (·.value))).nodes cursor
  | stayed {name : Token} {arguments : List Token} {command : Command}
      {run : List String → List String → CommandResult} :
      Token.split input = name :: arguments →
      command ∈ registry.commands → command.name = name.value →
      command.handler = .navigate run →
      (run (arguments.map (·.value)) cursor).cursor = none →
      Answers registry cursor input
        (run (arguments.map (·.value)) cursor).output.nodes cursor
  | moved {name : Token} {arguments : List Token} {command : Command}
      {run : List String → List String → CommandResult}
      {next : List String} :
      Token.split input = name :: arguments →
      command ∈ registry.commands → command.name = name.value →
      command.handler = .navigate run →
      (run (arguments.map (·.value)) cursor).cursor = some next →
      Answers registry cursor input
        (run (arguments.map (·.value)) cursor).output.nodes next

variable (registry : Registry) {cursor : List String} {input : String}

/-! ## One line -/

theorem answer_of_error {e : InterpretError}
    (h : registry.interpretAt input cursor = .error e) :
    registry.answer cursor input = ([.text e.message], none) := by
  rw [answer, interpretAt_trim, h]

theorem answer_of_ok {result : CommandResult}
    (h : registry.interpretAt input cursor = .ok result) :
    registry.answer cursor input = (result.output.nodes, result.cursor) := by
  rw [answer, interpretAt_trim, h]

/-- A line is answered as one of the cases says. -/
theorem answers_answer :
    registry.Answers cursor input (registry.answer cursor input).1
      (registry.cursorAfter cursor input) := by
  unfold cursorAfter
  cases hline : Token.split input with
  | nil =>
      have hblank := Token.split_eq_nil_iff.mp hline
      rw [registry.answer_of_error (registry.interpretAt_of_blank hblank _)]
      exact .blank hblank
  | cons name arguments =>
      cases hfound : registry.resolve? name.value with
      | none =>
          have habsent := registry.resolve?_eq_none_iff.mp hfound
          rw [registry.answer_of_ok
            (registry.interpretAt_of_unknown hline habsent _)]
          exact .unknown hline habsent
      | some command =>
          obtain ⟨hmem, hname⟩ := registry.mem_of_resolve? hfound
          rw [registry.answer_of_ok
            (registry.interpretAt_of_mem hline hmem hname _)]
          cases hhandler : command.handler with
          | render run => exact .rendered hline hmem hname hhandler
          | navigate run =>
              simp only [Handler.run]
              cases hcursor :
                  (run (arguments.map (·.value)) cursor).cursor with
              | none => exact .stayed hline hmem hname hhandler hcursor
              | some next => exact .moved hline hmem hname hhandler hcursor

/-- And as no other case. -/
theorem Answers.answer_eq {output : List Node} {next : List String}
    (h : registry.Answers cursor input output next) :
    (registry.answer cursor input).1 = output ∧
      registry.cursorAfter cursor input = next := by
  unfold cursorAfter
  cases h with
  | blank hblank =>
      rw [registry.answer_of_error (registry.interpretAt_of_blank hblank _)]
      exact ⟨rfl, rfl⟩
  | unknown hline habsent =>
      rw [registry.answer_of_ok
        (registry.interpretAt_of_unknown hline habsent _)]
      exact ⟨rfl, rfl⟩
  | rendered hline hmem hname hhandler =>
      rw [registry.answer_of_ok
        (registry.interpretAt_of_mem hline hmem hname _), hhandler]
      exact ⟨rfl, rfl⟩
  | stayed hline hmem hname hhandler hcursor =>
      rw [registry.answer_of_ok
        (registry.interpretAt_of_mem hline hmem hname _), hhandler]
      simp only [Handler.run, hcursor, Option.getD_none, and_self]
  | moved hline hmem hname hhandler hcursor =>
      rw [registry.answer_of_ok
        (registry.interpretAt_of_mem hline hmem hname _), hhandler]
      simp only [Handler.run, hcursor, Option.getD_some, and_self]

theorem answers_iff {output : List Node} {next : List String} :
    registry.Answers cursor input output next ↔
      output = (registry.answer cursor input).1 ∧
        next = registry.cursorAfter cursor input := by
  constructor
  · intro h
    obtain ⟨houtput, hnext⟩ := h.answer_eq
    exact ⟨houtput.symm, hnext.symm⟩
  · rintro ⟨rfl, rfl⟩
    exact registry.answers_answer

variable {registry}

/-- What holds of texts and of all that the commands answer holds of all that
a line is answered. -/
theorem Answers.forall_output {p : Node → Prop}
    (htext : ∀ content, p (.text content))
    (hcommands : ∀ command ∈ registry.commands, ∀ arguments cursor,
      ∀ node ∈ (command.handler.run arguments cursor).output.nodes, p node)
    {output : List Node} {next : List String}
    (h : registry.Answers cursor input output next) :
    ∀ node ∈ output, p node := by
  have hhandler {command : Command} {handler : Handler}
      (hmem : command ∈ registry.commands)
      (heq : command.handler = handler) (arguments : List String) :
      ∀ node ∈ (handler.run arguments cursor).output.nodes, p node :=
    heq ▸ hcommands command hmem arguments cursor
  cases h with
  | blank => exact List.forall_mem_singleton.mpr (htext _)
  | unknown => exact List.forall_mem_singleton.mpr (htext _)
  | rendered _ hmem _ heq => exact hhandler hmem heq _
  | stayed _ hmem _ heq => exact hhandler hmem heq _
  | moved _ hmem _ heq => exact hhandler hmem heq _

variable (registry)

/-! ## A run -/

theorem length_entries (cursor : List String) (turns : List Turn) :
    (registry.entries cursor turns).length = turns.length := by
  have h := registry.map_input_entries cursor turns
  simpa using congrArg List.length h

theorem map_id_entries (cursor : List String) (turns : List Turn) :
    (registry.entries cursor turns).map (·.id) = turns.map Turn.id := by
  induction turns generalizing cursor with
  | nil => rfl
  | cons t turns ih => rw [entries, List.map_cons, List.map_cons, ih]

theorem cursorAfterAll_take_succ {inputs : List String} {i : Nat}
    (hi : i < inputs.length) (cursor : List String) :
    registry.cursorAfterAll cursor (inputs.take (i + 1)) =
      registry.cursorAfter (registry.cursorAfterAll cursor (inputs.take i))
        inputs[i] := by
  unfold cursorAfterAll
  rw [List.take_succ_eq_append_getElem hi, List.foldl_append]
  rfl

theorem output_getElem_entries {turns : List Turn} {i : Nat}
    (hi : i < (registry.entries cursor turns).length) :
    ((registry.entries cursor turns)[i]).output =
      (registry.answer (registry.entries cursor turns)[i].cursor
        (registry.entries cursor turns)[i].input).1 := by
  induction turns generalizing cursor i with
  | nil => cases hi
  | cons t turns ih =>
      cases i with
      | zero => rfl
      | succ i => exact ih (Nat.lt_of_succ_lt_succ hi)

/-- And of all that a run records. -/
theorem forall_output_entries {p : Node → Prop}
    (htext : ∀ content, p (.text content))
    (hcommands : ∀ command ∈ registry.commands, ∀ arguments cursor,
      ∀ node ∈ (command.handler.run arguments cursor).output.nodes, p node)
    (cursor : List String) (turns : List Turn) :
    ∀ e ∈ registry.entries cursor turns, ∀ node ∈ e.output, p node := by
  induction turns generalizing cursor with
  | nil => exact fun e he => by cases he
  | cons t turns ih =>
      exact List.forall_mem_cons.mpr
        ⟨registry.answers_answer.forall_output htext hcommands, ih _⟩

/-- A run leaves the history as it is and adds one entry for each line, in
order: the identifier that was drawn for it, the line as typed, the cursor
before it, which the lines before it lead to, and of all answers just the one
that the line has there; the cursor after it is the one that the lines up to
it lead to. Another run of the same lines, with other steps and identifiers,
leads to the same state but for the identifiers of the entries added. -/
theorem each_line_adds_its_answer (s : State) (turns : List Turn) :
    ∃ added : List Entry,
      (registry.runAll s turns).history = s.history ++ added ∧
      added.map (·.id) = turns.map Turn.id ∧
      added.map (·.input) = turns.map Turn.input ∧
      (∀ (i : Nat) (hi : i < added.length),
        added[i].cursor = (registry.runAll s (turns.take i)).cursor ∧
          ∀ output next,
            registry.Answers added[i].cursor added[i].input output next ↔
              output = added[i].output ∧
                next = (registry.runAll s (turns.take (i + 1))).cursor) ∧
      ∀ turns' : List Turn, turns'.map Turn.input = turns.map Turn.input →
        State.SameBut s.history.length (registry.runAll s turns)
          (registry.runAll s turns') := by
  refine ⟨registry.entries s.cursor turns, by rw [runAll_eq],
    registry.map_id_entries s.cursor turns,
    registry.map_input_entries s.cursor turns, ?_,
    fun turns' h => registry.runAll_sameBut h.symm⟩
  intro i hi
  have hcursor := registry.cursor_getElem_entries hi
  have hinput : i < (turns.map Turn.input).length := by
    rwa [List.length_map, ← registry.length_entries s.cursor turns]
  have hline : ((registry.entries s.cursor turns)[i]).input =
      (turns.map Turn.input)[i] := by
    simp only [← registry.map_input_entries s.cursor turns,
      List.getElem_map]
  refine ⟨by simp only [runAll_eq, List.map_take, hcursor],
    fun output next => ?_⟩
  rw [registry.answers_iff, ← registry.output_getElem_entries hi]
  simp only [runAll_eq, List.map_take, hcursor, hline,
    registry.cursorAfterAll_take_succ hinput]

/-- A line that moves, a blank one, and one whose first word is not the name
that its quotes seem to make of it. -/
theorem quoted_word_is_unknown :
    ∃ added : List Entry, ∃ h : 2 < added.length,
      (descending.runAll (State.fresh ["home"])
          [.run (.ofNat 0) " cd docs", .advance (.ofNat 1) "\t",
            .run (.ofNat 2) "\"cd\"x y"]).history = added ∧
      added[2].cursor = ["home", "docs"] ∧
      added[1].output = [.text "Empty command"] ∧
      added[2].output = [.text "Unknown command: \"cd\"x"] ∧
      State.SameBut 0
        (descending.runAll (State.fresh ["home"])
          [.run (.ofNat 0) " cd docs", .advance (.ofNat 1) "\t",
            .run (.ofNat 2) "\"cd\"x y"])
        (descending.runAll (State.fresh ["home"])
          [.advance (.ofNat 5) " cd docs", .advance (.ofNat 6) "\t",
            .advance (.ofNat 7) "\"cd\"x y"]) := by
  obtain ⟨added, hadded, -, hinput, hanswers, hsame⟩ :=
    descending.each_line_adds_its_answer (State.fresh ["home"])
      [.run (.ofNat 0) " cd docs", .advance (.ofNat 1) "\t",
        .run (.ofNat 2) "\"cd\"x y"]
  have hlen : added.length = 3 := by simpa using congrArg List.length hinput
  have hinputs (i : Nat) (hi : i < added.length) :
      some added[i].input = [" cd docs", "\t", "\"cd\"x y"][i]? := by
    have hat := congrArg (fun inputs => inputs[i]?) hinput
    simpa [Turn.input, hi] using hat
  obtain ⟨hcursor, -⟩ := hanswers 2 (by omega)
  obtain ⟨-, hblank⟩ := hanswers 1 (by omega)
  obtain ⟨-, hunknown⟩ := hanswers 2 (by omega)
  refine ⟨added, by omega, hadded, hcursor.trans (by decide +kernel), ?_, ?_,
    hsame _ rfl⟩
  · have h := ((hblank _ _).mp (.blank ?_)).1
    · exact h.symm
    · intro c hc
      rw [Option.some.inj (hinputs 1 (by omega))] at hc
      rw [List.mem_singleton.mp (show c ∈ ['\t'] from hc)]
      decide
  · have hwords : Token.split added[2].input =
        [⟨"cdx", "\"cd\"x", 0⟩, ⟨"y", "y", 6⟩] := by
      rw [Option.some.inj (hinputs 2 (by omega))]
      decide +kernel
    exact ((hunknown _ _).mp (.unknown hwords (by decide))).1.symm

end Registry

end PageShell
