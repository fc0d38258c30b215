import PageShell.Proofs.Content.Fits
import PageShell.Proofs.History.Answers
import PageShell.Proofs.History.RoundTrip

/-!
# A session goes on from what was stored

Storing a state is invisible to a session if what is read back is the state
that was written, and whether it is depends on the documents in its history
alone. A history grows by answers and is never changed, so it is enough that
the answers fit: those of the commands are what the commands put together,
and whatever else a line is answered is one text. That is the step lemma, and
it says nothing of cursors, lines or identifiers, which may be anything.

`handleAll` runs a session in which the state is stored and read again
between any two lines. It fails where a text is not read, and the main result
is that it never does and that it comes to what the lines come to alone.
-/

namespace PageShell

/-- What happens to a session: a line is typed, or the state is written and
what was written is read in its place. -/
inductive Event where
  | typed (turn : Turn)
  | reloaded

def Event.turn? : Event → Option Turn
  | .typed turn => some turn
  | .reloaded => none

/-- The documents in the history fit. -/
def State.Fits (depth : Nat) (s : State) : Prop :=
  ∀ e ∈ s.history, ∀ node ∈ e.output, node.Fits depth

theorem State.fits_fresh (depth : Nat) (cursor : List String) :
    (State.fresh cursor).Fits depth :=
  fun _ he => absurd he List.not_mem_nil

theorem Node.Fits.isLegible {depth levels : Nat} {node : Node}
    (h : node.Fits depth) (hlevels : 2 * depth + 1 ≤ levels) :
    node.IsLegible levels := by
  obtain ⟨hdepth, hnumbers⟩ := h
  have hnesting := node.nesting_toJson.2
  exact ⟨.of_whole hnumbers, fun x hx => (hnumbers x hx).isFinite, by omega⟩

/-- A document is four levels deep in a state, and each level of the document
takes two. -/
theorem State.Fits.ofText_toText {depth : Nat} {s : State}
    (h : s.Fits depth) (hdepth : 2 * depth + 5 ≤ Json.nestingLimit) :
    State.ofText s.toText = .ok s :=
  State.ofText_toText fun e he node hnode =>
    (h e he node hnode).isLegible (by omega)

namespace Registry

variable (registry : Registry)

def handle (s : State) : Event → Except ReadError State
  | .typed turn => .ok (registry.turn s turn)
  | .reloaded => State.ofText s.toText

/-- The state after some events, if every text is read. -/
def handleAll (s : State) (events : List Event) : Except ReadError State :=
  events.foldlM registry.handle s

/-- Whatever the commands answer fits. -/
def AnswersFit (depth : Nat) : Prop :=
  ∀ command ∈ registry.commands, ∀ arguments cursor,
    ∀ node ∈ (command.handler.run arguments cursor).output.nodes,
      node.Fits depth

variable {registry} {depth : Nat}

/-! ## One line -/

theorem AnswersFit.turn (h : registry.AnswersFit depth) {s : State}
    (hs : s.Fits depth) (t : Turn) : (registry.turn s t).Fits depth := by
  rw [turn_eq]
  intro e he
  rcases List.mem_append.mp he with he | he
  · exact hs e he
  · rw [List.mem_singleton.mp he]
    exact registry.answers_answer.forall_output Node.fits_text h

/-! ## A session -/

theorem AnswersFit.runAll (h : registry.AnswersFit depth) {s : State}
    (hs : s.Fits depth) (turns : List Turn) :
    (registry.runAll s turns).Fits depth := by
  induction turns generalizing s with
  | nil => exact hs
  | cons t turns ih => exact ih (h.turn hs t)

theorem AnswersFit.handleAll_eq (h : registry.AnswersFit depth)
    (hdepth : 2 * depth + 5 ≤ Json.nestingLimit) {s : State}
    (hs : s.Fits depth) (events : List Event) :
    registry.handleAll s events =
      .ok (registry.runAll s (events.filterMap Event.turn?)) := by
  induction events generalizing s with
  | nil => rfl
  | cons event events ih =>
      rw [handleAll, List.foldlM_cons]
      cases event with
      | typed t => exact ih (h.turn hs t)
      | reloaded =>
          rw [handle, hs.ofText_toText hdepth]
          exact ih hs

theorem builtin_answersFit : builtin.AnswersFit 7 := by
  intro command hmem arguments cursor
  obtain ⟨b, -, rfl⟩ := List.mem_map.mp hmem
  exact fun node hnode => (b.isContent_answer arguments node hnode).fits

/-- Whatever is typed into the site's shell, from whichever cursor, the state
is read back from its text as it is. So a session that is stored and restored
between its lines, as often as one likes, never fails and comes to the state
that its lines alone lead to, and to the same entries and cursor as the same
lines with other identifiers. -/
theorem stored_session_goes_on (cursor : List String) :
    (∀ turns : List Turn,
      State.ofText (builtin.runAll (State.fresh cursor) turns).toText =
        .ok (builtin.runAll (State.fresh cursor) turns)) ∧
    ∀ events : List Event,
      builtin.handleAll (State.fresh cursor) events =
        .ok (builtin.runAll (State.fresh cursor)
          (events.filterMap Event.turn?)) ∧
      ∀ turns : List Turn,
        turns.map Turn.input =
          (events.filterMap Event.turn?).map Turn.input →
        State.SameBut 0
          (builtin.runAll (State.fresh cursor)
            (events.filterMap Event.turn?))
          (builtin.runAll (State.fresh cursor) turns) := by
  have hfresh := State.fits_fresh 7 cursor
  refine ⟨fun turns => ?_, fun events => ⟨?_, fun turns hinput => ?_⟩⟩
  · exact (builtin_answersFit.runAll hfresh turns).ofText_toText (by decide)
  · exact builtin_answersFit.handleAll_eq (by decide) hfresh events
  · exact builtin.runAll_sameBut hinput.symm

/-- A line with a quote and a control character in it, saved twice on the way
to the next. -/
theorem stored_news_goes_on :
    ∃ s, builtin.handleAll (State.fresh ["home", "\""])
        [.typed (.run (.ofNat 0) "echo '\"' \x1b\n"), .reloaded, .reloaded,
          .typed (.advance (.ofNat 1) "news"), .reloaded] = .ok s ∧
      State.SameBut 0 s (builtin.runAll (State.fresh ["home", "\""])
        [.run (.ofNat 7) "echo '\"' \x1b\n", .run (.ofNat 8) "news"]) := by
  obtain ⟨-, hevents⟩ := stored_session_goes_on ["home", "\""]
  obtain ⟨hhandled, hsame⟩ := hevents
    [.typed (.run (.ofNat 0) "echo '\"' \x1b\n"), .reloaded, .reloaded,
      .typed (.advance (.ofNat 1) "news"), .reloaded]
  exact ⟨_, hhandled, hsame _ rfl⟩

end Registry

end PageShell
