import PageShell.Command.Interpreter
import PageShell.History.EntryId

/-!
# The state of a shell

A state is a cursor and a history, and every line that is typed adds exactly one
entry to the history, also a line that cannot be interpreted. An entry holds all
that a rerun needs: the line as typed and the cursor it was typed at. The
identifier of a new entry is an argument, so the transition is a function of
what it is given.

`run` makes the successor of a snapshot that stays in use; `advance` carries on
a state in place. They are the same step.
-/

namespace PageShell

/-- One line that was typed, and what was answered. -/
structure Entry where
  id : EntryId
  /-- The cursor when the line was typed. -/
  cursor : List String
  /-- The line exactly as typed. -/
  input : String
  output : List Node
deriving DecidableEq

/-- The state of a shell: its cursor and the lines typed so far, in order. -/
structure State where
  cursor : List String
  history : List Entry
deriving DecidableEq

/-- The cursor as an absolute path; the root is `/`. -/
def cursorPath (cursor : List String) : String := "/" ++ "/".intercalate cursor

namespace State

/-- The state with no history at the given cursor. -/
def fresh (cursor : List String) : State := ⟨cursor, []⟩

def path (state : State) : String := cursorPath state.cursor

def ids (state : State) : List EntryId := state.history.map (·.id)

end State

namespace Registry

/-- What a line answers at a cursor: its output, and the new cursor if it moves.
Blanks at the ends of the line do not count, and a line that cannot be
interpreted answers why. -/
def answer (registry : Registry) (cursor : List String) (input : String) :
    List Node × Option (List String) :=
  match registry.interpretAt
    (String.ofList (Text.trim input.toList)) cursor with
  | .ok result => (result.output.nodes, result.cursor)
  | .error e => ([.text e.message], none)

/-- The entry of a line, and the new cursor if it moves. -/
def record (registry : Registry) (id : EntryId) (cursor : List String)
    (input : String) : Entry × Option (List String) :=
  let (output, next) := registry.answer cursor input
  ({ id, cursor, input, output }, next)

/-- The successor of a snapshot: one more entry, at the new cursor if the line
moved. -/
def run (registry : Registry) (id : EntryId) (state : State) (input : String) :
    State :=
  let (entry, next) := registry.record id state.cursor input
  { cursor := next.getD state.cursor, history := state.history ++ [entry] }

/-- The same step for a state that is not needed any more: first the entry is
added, then the cursor moves. -/
def advance (registry : Registry) (id : EntryId) (state : State)
    (input : String) : State :=
  let (entry, next) := registry.record id state.cursor input
  let state := { state with history := state.history ++ [entry] }
  match next with
  | some cursor => { state with cursor }
  | none => state

theorem advance_eq_run (registry : Registry) (id : EntryId) (state : State)
    (input : String) :
    registry.advance id state input = registry.run id state input := by
  unfold advance run
  rcases registry.record id state.cursor input with ⟨entry, _ | _⟩ <;> rfl

end Registry

end PageShell
