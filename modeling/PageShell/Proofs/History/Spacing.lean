import Mathlib.Data.List.Forall2
import PageShell.Proofs.History.Answers

/-!
# How a line is spaced is only recorded

A history keeps each line as it was typed, blanks included, and nothing else
that a shell does can tell two spacings of a line apart. An answer is found
from the words of the line (`Registry.answer_congr`), which other gaps do not
change; the cursor after the line is part of the answer; and a later line sees
of an earlier one the cursor alone. So in a run whose lines are spaced in
another way every entry differs in its line, and in nothing else.
-/

namespace PageShell

/-- The entry of the same line, typed in another way. -/
def Entry.retyped (e : Entry) (input : String) : Entry := { e with input }

/-- The same turn, by either step, with a line of the same words. -/
def Turn.Respaces (t t' : Turn) : Prop :=
  t'.id = t.id ∧ Token.words t'.input = Token.words t.input

namespace Registry

/-- What is recorded of an interpreted line: the trees of its output and the
cursor it moves to, or the message of the error. -/
def recorded : Except InterpretError CommandResult →
    List Node × Option (List String)
  | .ok result => (result.output.nodes, result.cursor)
  | .error e => ([.text e.message], none)

variable (registry : Registry)

/-! ## One line -/

/-- A line is answered as it would be with the blanks at its ends. -/
theorem answer_eq_recorded (cursor : List String) (input : String) :
    registry.answer cursor input =
      recorded (registry.interpretAt input cursor) := by
  cases h : registry.interpretAt input cursor with
  | ok result => exact registry.answer_of_ok h
  | error e => exact registry.answer_of_error h

theorem answer_congr {input input' : String}
    (h : Token.words input' = Token.words input) (cursor : List String) :
    registry.answer cursor input' = registry.answer cursor input := by
  rw [answer_eq_recorded, answer_eq_recorded, registry.interpretAt_congr h]

theorem cursorAfter_congr {input input' : String}
    (h : Token.words input' = Token.words input) (cursor : List String) :
    registry.cursorAfter cursor input' = registry.cursorAfter cursor input := by
  rw [cursorAfter, cursorAfter, registry.answer_congr h]

/-! ## A run -/

theorem cursorAfterAll_respaced {turns turns' : List Turn}
    (h : List.Forall₂ Turn.Respaces turns turns') (cursor : List String) :
    registry.cursorAfterAll cursor (turns'.map Turn.input) =
      registry.cursorAfterAll cursor (turns.map Turn.input) := by
  induction h generalizing cursor with
  | nil => rfl
  | @cons t t' ts ts' hturn _ ih =>
      show registry.cursorAfterAll (registry.cursorAfter cursor t'.input) _ =
        registry.cursorAfterAll (registry.cursorAfter cursor t.input) _
      rw [registry.cursorAfter_congr hturn.2, ih]

theorem entries_respaced {turns turns' : List Turn}
    (h : List.Forall₂ Turn.Respaces turns turns') (cursor : List String) :
    registry.entries cursor turns' =
      List.zipWith Entry.retyped (registry.entries cursor turns)
        (turns'.map Turn.input) := by
  induction h generalizing cursor with
  | nil => rfl
  | @cons t t' ts ts' hturn _ ih =>
      obtain ⟨hid, hwords⟩ := hturn
      rw [entries, entries, List.map_cons, List.zipWith_cons_cons, ih,
        registry.cursorAfter_congr hwords, registry.answer_congr hwords, hid]
      rfl

/-- The lines that have the words of a line are those that keep its words as
they are written and change the gaps between and around them, and all of them
are interpreted alike, at any cursor. The blanks at the ends of a line are
such gaps: a line is interpreted like what is left without them, and it is
answered as it is interpreted. So a run of lines that are spaced in another
way, whichever of the two steps it uses, adds the same entries with the lines
as they were typed then, and ends at the same cursor. -/
theorem spacing_changes_only_the_input :
    (∀ line line' : String,
      Token.Spaced true (Token.raws line) line'.toList ↔
        Token.words line' = Token.words line) ∧
    (∀ line line' : String,
      Token.Spaced true (Token.raws line) line'.toList → ∀ cursor,
        registry.interpretAt line' cursor =
          registry.interpretAt line cursor) ∧
    (∀ line cursor,
      registry.interpretAt (String.ofList (Text.trim line.toList)) cursor =
          registry.interpretAt line cursor ∧
        registry.answer cursor line =
          recorded (registry.interpretAt line cursor)) ∧
    (∀ front line back : String, Token.IsGap front.toList →
      Token.IsGap back.toList →
        Token.words (front ++ (line ++ back)) = Token.words line) ∧
    ∀ (s : State) (turns turns' : List Turn),
      List.Forall₂ Turn.Respaces turns turns' →
      ∃ added, (registry.runAll s turns).history = s.history ++ added ∧
        (registry.runAll s turns').history = s.history ++
          List.zipWith Entry.retyped added (turns'.map Turn.input) ∧
        (registry.runAll s turns').cursor =
          (registry.runAll s turns).cursor := by
  refine ⟨fun _ _ => Token.spaced_iff_words_eq, fun line line' h cursor => ?_,
    fun line cursor => ⟨registry.interpretAt_trim line cursor,
      registry.answer_eq_recorded cursor line⟩,
    fun _ line _ hfront hback => Token.words_gap_append_gap hfront hback line,
    fun s turns turns' h => ?_⟩
  · exact registry.interpretAt_congr (Token.spaced_iff_words_eq.mp h) cursor
  · refine ⟨registry.entries s.cursor turns, ?_, ?_, ?_⟩
    · rw [runAll_eq]
    · rw [runAll_eq, registry.entries_respaced h]
    · rw [runAll_eq, runAll_eq, registry.cursorAfterAll_respaced h]

/-- A group with blanks in it in front of a quote that opens nothing: with
other gaps it is the same move, to a directory whose blanks stay. -/
theorem stray_quote_respaced :
    Token.Spaced true (Token.raws "cd 'a  b'c \"d")
        "\tcd  'a  b'c\n\"d ".toList ∧
      descending.interpretAt "\tcd  'a  b'c\n\"d " [] =
        .ok { output := .text "moved", cursor := some ["a  bc", "\"d"] } ∧
      Token.words ("\n" ++ ("it's" ++ " ")) = [("it's", "it's")] ∧
      ∃ added,
        (descending.runAll (State.fresh [])
            [.run (.ofNat 0) "cd 'a  b'c \"d",
              .run (.ofNat 1) "it's"]).history = added ∧
          (descending.runAll (State.fresh [])
            [.advance (.ofNat 0) "\tcd  'a  b'c\n\"d ",
              .run (.ofNat 1) "\nit's "]).history =
            List.zipWith Entry.retyped added
              ["\tcd  'a  b'c\n\"d ", "\nit's "] ∧
          (descending.runAll (State.fresh [])
            [.advance (.ofNat 0) "\tcd  'a  b'c\n\"d ",
              .run (.ofNat 1) "\nit's "]).cursor = ["a  bc", "\"d"] := by
  obtain ⟨hspaced, hsame, -, hends, hruns⟩ :=
    descending.spacing_changes_only_the_input
  have hwords : Token.words "\tcd  'a  b'c\n\"d " =
      Token.words "cd 'a  b'c \"d" := by decide +kernel
  have hfirst := (hspaced _ _).mpr hwords
  have hgaps : Token.IsGap "\n".toList ∧ Token.IsGap " ".toList :=
    ⟨List.forall_mem_singleton.mpr (by decide),
      List.forall_mem_singleton.mpr (by decide)⟩
  have hsecond := hends "\n" "it's" " " hgaps.1 hgaps.2
  refine ⟨hfirst, ?_, hsecond.trans (by decide +kernel), ?_⟩
  · rw [hsame _ _ hfirst]
    decide +kernel
  · obtain ⟨added, hadded, hretyped, hcursor⟩ := hruns (State.fresh [])
      [.run (.ofNat 0) "cd 'a  b'c \"d", .run (.ofNat 1) "it's"]
      [.advance (.ofNat 0) "\tcd  'a  b'c\n\"d ",
        .run (.ofNat 1) "\nit's "]
      (.cons ⟨rfl, hwords⟩ (.cons ⟨rfl, hsecond⟩ .nil))
    exact ⟨added, hadded, hretyped, hcursor.trans (by decide +kernel)⟩

end Registry

end PageShell
