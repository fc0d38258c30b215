import PageShell.History.State

/-!
# A history replays itself

What a line answers is found from its text and from the cursor it is typed
at. The history is written and never read: both steps, `run` and `advance`,
compute the new entry and the new cursor from the old cursor alone, and only
then put the entry behind those there are. So the contents of the entries a
run adds are a function of the cursor it starts from and of the lines,
`transcript`, and the cursor it ends at is another one, `cursorAfterAll`.

That is why a history replays. An entry keeps the cursor before its step,
also of a step that moves, and the line as it was typed, so a state with no
history at all can be set to that cursor and go through the recorded lines
again. What comes out agrees with the record in everything but identifiers,
which are drawn anew; they are arguments here, and no two runs compared below
need to draw the same ones.
-/

namespace PageShell

/-- What an entry records, its identifier aside. -/
structure Entry.Content where
  cursor : List String
  input : String
  output : List Node
deriving DecidableEq

def Entry.content (e : Entry) : Entry.Content := ⟨e.cursor, e.input, e.output⟩

/-- One line typed into a state, by either of the two steps, with the
identifier that its entry is given. -/
inductive Turn where
  | run (id : EntryId) (input : String)
  | advance (id : EntryId) (input : String)

namespace Turn

def id : Turn → EntryId
  | .run id _ | .advance id _ => id

def input : Turn → String
  | .run _ input | .advance _ input => input

end Turn

/-- States that are the same but for the identifiers of the entries after the
first `kept`. -/
def State.SameBut (kept : Nat) (s t : State) : Prop :=
  s.cursor = t.cursor ∧ s.history.take kept = t.history.take kept ∧
    s.history.map Entry.content = t.history.map Entry.content

namespace Registry

variable (registry : Registry)

def turn (state : State) : Turn → State
  | .run id input => registry.run id state input
  | .advance id input => registry.advance id state input

/-- The state after some lines, typed one after the other. -/
def runAll (state : State) (turns : List Turn) : State :=
  turns.foldl registry.turn state

/-! ## What a run records

The functions below never see a history. `runAll_eq` says that a run is no
more than they are: the old history, then `entries`, at `cursorAfterAll`. -/

/-- The cursor after a line. -/
def cursorAfter (cursor : List String) (input : String) : List String :=
  (registry.answer cursor input).2.getD cursor

def cursorAfterAll (cursor : List String) (inputs : List String) :
    List String :=
  inputs.foldl registry.cursorAfter cursor

/-- What lines record when the first of them is typed at `cursor`. -/
def transcript : (cursor inputs : List String) → List Entry.Content
  | _, [] => []
  | cursor, input :: inputs =>
    ⟨cursor, input, (registry.answer cursor input).1⟩ ::
      transcript (registry.cursorAfter cursor input) inputs

/-- The entries that some turns add when the first is taken at `cursor`. -/
def entries : (cursor : List String) → List Turn → List Entry
  | _, [] => []
  | cursor, t :: ts =>
    ⟨t.id, cursor, t.input, (registry.answer cursor t.input).1⟩ ::
      entries (registry.cursorAfter cursor t.input) ts

theorem turn_eq (s : State) (t : Turn) :
    registry.turn s t =
      ⟨registry.cursorAfter s.cursor t.input,
        s.history ++ [⟨t.id, s.cursor, t.input,
          (registry.answer s.cursor t.input).1⟩]⟩ := by
  cases t with
  | run id input => rfl
  | advance id input => rw [turn, advance_eq_run]; rfl

theorem runAll_cons (s : State) (t : Turn) (ts : List Turn) :
    registry.runAll s (t :: ts) = registry.runAll (registry.turn s t) ts :=
  rfl

theorem runAll_eq (s : State) (ts : List Turn) :
    registry.runAll s ts =
      ⟨registry.cursorAfterAll s.cursor (ts.map Turn.input),
        s.history ++ registry.entries s.cursor ts⟩ := by
  induction ts generalizing s with
  | nil => simp [runAll, cursorAfterAll, entries]
  | cons t ts ih =>
      rw [runAll_cons, ih, turn_eq]
      simp [cursorAfterAll, entries]

theorem content_entries (cursor : List String) (ts : List Turn) :
    (registry.entries cursor ts).map Entry.content =
      registry.transcript cursor (ts.map Turn.input) := by
  induction ts generalizing cursor with
  | nil => rfl
  | cons t ts ih =>
      simp only [entries, transcript, List.map_cons, ih]
      rfl

theorem map_input_transcript (cursor inputs : List String) :
    (registry.transcript cursor inputs).map Entry.Content.input = inputs := by
  induction inputs generalizing cursor with
  | nil => rfl
  | cons input inputs ih => simp only [transcript, List.map_cons, ih]

theorem map_input_entries (cursor : List String) (ts : List Turn) :
    (registry.entries cursor ts).map (·.input) = ts.map Turn.input := by
  have h := registry.map_input_transcript cursor (ts.map Turn.input)
  rw [← content_entries, List.map_map] at h
  exact h

/-- The record of the later lines is the record of those lines alone, typed
at the cursor that the earlier ones lead to. -/
theorem drop_transcript (cursor inputs : List String) (i : Nat) :
    (registry.transcript cursor inputs).drop i =
      registry.transcript (registry.cursorAfterAll cursor (inputs.take i))
        (inputs.drop i) := by
  induction inputs generalizing cursor i with
  | nil => simp [transcript]
  | cons input inputs ih =>
      cases i with
      | zero => rfl
      | succ i => exact ih (registry.cursorAfter cursor input) i

theorem cursorAfterAll_drop (cursor inputs : List String) (i : Nat) :
    registry.cursorAfterAll (registry.cursorAfterAll cursor (inputs.take i))
      (inputs.drop i) = registry.cursorAfterAll cursor inputs := by
  unfold cursorAfterAll
  rw [← List.foldl_append, List.take_append_drop]

/-- An entry keeps the cursor before its step: the one that the lines before
it lead to. -/
theorem cursor_getElem_entries {cursor : List String} {ts : List Turn}
    {i : Nat} (h : i < (registry.entries cursor ts).length) :
    ((registry.entries cursor ts)[i]).cursor =
      registry.cursorAfterAll cursor ((ts.map Turn.input).take i) := by
  have hd := registry.drop_transcript cursor (ts.map Turn.input) i
  rw [← content_entries, ← List.map_drop, List.drop_eq_getElem_cons h] at hd
  cases hrest : (ts.map Turn.input).drop i with
  | nil => rw [hrest] at hd; cases hd
  | cons input inputs =>
      rw [hrest] at hd
      exact congrArg Entry.Content.cursor (List.cons.inj hd).1

/-- Runs of the same lines from the same cursor record the same, whatever
history they start from and whichever step and identifiers they use. -/
theorem runAll_agree {s s' : State} {ts ts' : List Turn}
    (hcursor : s.cursor = s'.cursor)
    (hinput : ts.map Turn.input = ts'.map Turn.input) :
    (registry.entries s.cursor ts).map Entry.content =
        (registry.entries s'.cursor ts').map Entry.content ∧
      (registry.runAll s ts).cursor = (registry.runAll s' ts').cursor := by
  simp only [content_entries, runAll_eq, hcursor, hinput, and_self]

theorem runAll_sameBut {s : State} {ts ts' : List Turn}
    (hinput : ts.map Turn.input = ts'.map Turn.input) :
    State.SameBut s.history.length (registry.runAll s ts)
      (registry.runAll s ts') := by
  obtain ⟨hcontent, hcursor⟩ := registry.runAll_agree (s := s) rfl hinput
  refine ⟨hcursor, ?_, ?_⟩
  · simp only [runAll_eq, List.take_left]
  · simp only [runAll_eq, List.map_append, hcontent]

/-! ## Replay -/

/-- A run adds one entry for each line, and each of these entries is a place
to start over: the recorded lines from there on, typed at the recorded cursor
into a state with no history, record the same again and end at the same
cursor. And a run from any other history at the same cursor records the same
as this one. -/
theorem replay_from_entry (s : State) (turns : List Turn) :
    ∃ added : List Entry,
      (registry.runAll s turns).history = s.history ++ added ∧
      added.map (·.input) = turns.map Turn.input ∧
      (∀ (i : Nat) (hi : i < added.length) (again : List Turn),
        again.map Turn.input = (added.drop i).map (·.input) →
        (registry.runAll (State.fresh added[i].cursor) again).history.map
            Entry.content = (added.drop i).map Entry.content ∧
          (registry.runAll (State.fresh added[i].cursor) again).cursor =
            (registry.runAll s turns).cursor) ∧
      (∀ (other : State) (again : List Turn), other.cursor = s.cursor →
        again.map Turn.input = turns.map Turn.input →
        ∃ added' : List Entry,
          (registry.runAll other again).history = other.history ++ added' ∧
          added'.map Entry.content = added.map Entry.content ∧
          (registry.runAll other again).cursor =
            (registry.runAll s turns).cursor) := by
  refine ⟨registry.entries s.cursor turns, by rw [runAll_eq],
    registry.map_input_entries s.cursor turns, ?_, ?_⟩
  · intro i hi again hagain
    rw [List.map_drop, map_input_entries] at hagain
    have hcursor := registry.cursor_getElem_entries hi
    simp only [runAll_eq, State.fresh, List.nil_append, List.map_drop,
      content_entries]
    rw [hagain, hcursor, drop_transcript, cursorAfterAll_drop]
    exact ⟨rfl, rfl⟩
  · intro other again hcursor hagain
    obtain ⟨hcontent, hlast⟩ := registry.runAll_agree hcursor hagain
    exact ⟨registry.entries other.cursor again, by rw [runAll_eq], hcontent,
      hlast⟩

/-- A table of one command, which goes down by its arguments. -/
def descending : Registry where
  commands := [⟨⟨"cd", ""⟩, .navigate fun arguments cursor =>
    { output := .text "moved", cursor := some (cursor ++ arguments) }⟩]
  typable := by decide
  distinct := by decide

/-- The second of two moves, replayed: it was typed at the cursor to which
the first one led. -/
theorem replay_second_move :
    ∃ added : List Entry, ∃ h : 1 < added.length,
      added[1].cursor = ["home", "docs"] ∧
      ["cd 'a b'"] = (added.drop 1).map (·.input) ∧
      (descending.runAll (State.fresh added[1].cursor)
          [.advance (.ofNat 7) "cd 'a b'"]).history.map Entry.content =
        (added.drop 1).map Entry.content ∧
      (descending.runAll (State.fresh added[1].cursor)
          [.advance (.ofNat 7) "cd 'a b'"]).cursor =
        ["home", "docs", "a b"] := by
  obtain ⟨added, hadded, hinput, hreplay, -⟩ :=
    descending.replay_from_entry (State.fresh ["home"])
      [.run (.ofNat 0) " cd  docs", .advance (.ofNat 1) "cd 'a b'"]
  have hlen : added.length = 2 := by simpa using congrArg List.length hinput
  have hrest : ["cd 'a b'"] = (added.drop 1).map (·.input) := by
    rw [List.map_drop, hinput]; rfl
  obtain ⟨hsame, hcursor⟩ :=
    hreplay 1 (by omega) [.advance (.ofNat 7) "cd 'a b'"] hrest
  refine ⟨added, by omega, ?_, hrest, hsame, ?_⟩
  · have hfirst : (descending.runAll (State.fresh ["home"])
        [.run (.ofNat 0) " cd  docs",
          .advance (.ofNat 1) "cd 'a b'"]).history.map (·.cursor) =
        [["home"], ["home", "docs"]] := by decide +kernel
    rw [hadded] at hfirst
    have hsecond := congrArg (fun cursors => cursors[1]?) hfirst
    simpa [State.fresh, hlen] using hsecond
  · rw [hcursor]
    decide +kernel

end Registry

end PageShell
