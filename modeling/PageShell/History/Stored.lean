import PageShell.Document.Stored
import PageShell.History.State

/-!
# Stored states

The JSON form of a state has the members `cwd` and `history`, and that of an
entry `id`, `cwd`, `input` and `output`. Both can also be read from an array
that lists the members in this order. A state is read in the order of its text,
and the first thing wrong is what is reported, be it the notation or the shape;
only a document inside it is read to its end before it is judged. Unknown
members are passed over, and a repeated one is refused as soon as its name is
read.
-/

namespace PageShell

/-! ## Writing -/

def textsToJson (texts : List String) : Json := .array (texts.map .string)

def Entry.toJson (entry : Entry) : Json :=
  .object [("id", .string entry.id.toText), ("cwd", textsToJson entry.cursor),
    ("input", .string entry.input),
    ("output", .array (entry.output.map Node.toJson))]

def State.toJson (state : State) : Json :=
  .object [("cwd", textsToJson state.cursor),
    ("history", .array (state.history.map Entry.toJson))]

def State.toText (state : State) : String := state.toJson.toText

/-! ## Reading -/

def readTexts (bound depth : Nat) : Reader (List String) :=
  Json.readArray bound depth fun _ => Json.readText "a string"

def EntryId.read : Reader EntryId := fun cs => do
  match Json.readText "an entry id" cs with
  | .error (.shape _) => .error (.shape .malformedId)
  | .error e => .error e
  | .ok (s, r) =>
    match EntryId.ofText? s with
    | some id => .ok (id, r)
    | none => .error (.shape .malformedId)

/-- The value of a member that has to be there. -/
def required {α : Type} (name : String) : Option α → Except ReadError α
  | some value => .ok value
  | none => .error (.shape (.missingField name))

/-- Reads the value of a member that must not have been read before. -/
def readOnce {α : Type} (name : String) (seen : Option α) (value : Reader α) :
    Reader α :=
  fun cs => do
    if seen.isSome then
      .error (.shape (.duplicateField name))
    else
      let r ← Json.readColon cs
      value r

/-- Passes over the value of an unknown member. -/
def skipMember (bound : Nat) (cs : List Char) :
    Except ReadError (List Char) := do
  let r ← Json.readColon cs
  Json.skipValue bound bound r

/-- Reads one of the parts that an array lists in order; `length` parts came
before it. -/
def readPart {α : Type} (needed : String) (length : Nat) (value : Reader α) :
    Reader α :=
  fun cs => do
    let (more, r) ← Json.nextItem (length == 0) cs
    if more then value r else .error (.shape (.wrongLength length needed))

/-- Reads a record: an object through `members`, or an array of its parts
through `parts`, with one level less to go. -/
def readRecord {α : Type} (depth : Nat) (name : String)
    (members parts : (depth : Nat) → Reader α) : Reader α := fun cs =>
  match Json.skipSpace cs, depth with
  | '[' :: _, 0 | '{' :: _, 0 => .error .malformed
  | '{' :: r, depth + 1 => members depth r
  | '[' :: r, depth + 1 => do
    let (x, r) ← parts depth r
    let r ← Json.closeArray r
    .ok (x, r)
  | _, _ => Json.refuse name cs

namespace Entry

/-- The members of an entry that have been read so far. -/
structure Draft where
  id : Option EntryId := none
  cursor : Option (List String) := none
  input : Option String := none
  output : Option (List Node) := none

def Draft.finish (draft : Draft) : Except ReadError Entry := do
  let id ← required "id" draft.id
  let cursor ← required "cwd" draft.cursor
  let input ← required "input" draft.input
  let output ← required "output" draft.output
  .ok { id, cursor, input, output }

def readOutput (bound depth : Nat) : Reader (List Node) :=
  Json.readArray bound depth fun depth => Node.read bound depth

/-- Reads the value of one member of an entry. -/
def readMember (bound depth : Nat) (key : String) (draft : Draft) :
    Reader Draft := fun cs => do
  if key = "id" then
    let (id, r) ← readOnce key draft.id EntryId.read cs
    .ok ({ draft with id := some id }, r)
  else if key = "cwd" then
    let (cursor, r) ← readOnce key draft.cursor (readTexts bound depth) cs
    .ok ({ draft with cursor := some cursor }, r)
  else if key = "input" then
    let (input, r) ← readOnce key draft.input (Json.readText "a string") cs
    .ok ({ draft with input := some input }, r)
  else if key = "output" then
    let (output, r) ← readOnce key draft.output (readOutput bound depth) cs
    .ok ({ draft with output := some output }, r)
  else
    let r ← skipMember bound cs
    .ok (draft, r)

def read (bound depth : Nat) : Reader Entry :=
  readRecord depth "struct HistoryEntry"
    (fun depth cs => do
      let (draft, r) ←
        Json.readMembers Json.readKey (readMember bound depth) bound true {} cs
      let entry ← draft.finish
      .ok (entry, r))
    (fun depth cs => do
      let needed := "struct HistoryEntry with 4 elements"
      let (id, r) ← readPart needed 0 EntryId.read cs
      let (cursor, r) ← readPart needed 1 (readTexts bound depth) r
      let (input, r) ← readPart needed 2 (Json.readText "a string") r
      let (output, r) ← readPart needed 3 (readOutput bound depth) r
      .ok ({ id, cursor, input, output }, r))

def readHistory (bound depth : Nat) : Reader (List Entry) :=
  Json.readArray bound depth fun depth => read bound depth

/-- The history stored in a text. -/
def historyOfText (text : String) : Except ReadError (List Entry) :=
  Json.readAll (fun bound => readHistory bound Json.nestingLimit) text

end Entry

namespace State

/-- The members of a state that have been read so far. -/
structure Draft where
  cursor : Option (List String) := none
  history : Option (List Entry) := none

def Draft.finish (draft : Draft) : Except ReadError State := do
  let cursor ← required "cwd" draft.cursor
  let history ← required "history" draft.history
  .ok { cursor, history }

/-- Reads the value of one member of a state. -/
def readMember (bound depth : Nat) (key : String) (draft : Draft) :
    Reader Draft := fun cs => do
  if key = "cwd" then
    let (cursor, r) ← readOnce key draft.cursor (readTexts bound depth) cs
    .ok ({ draft with cursor := some cursor }, r)
  else if key = "history" then
    let (history, r) ←
      readOnce key draft.history (Entry.readHistory bound depth) cs
    .ok ({ draft with history := some history }, r)
  else
    let r ← skipMember bound cs
    .ok (draft, r)

def read (bound depth : Nat) : Reader State :=
  readRecord depth "struct ShellState"
    (fun depth cs => do
      let (draft, r) ←
        Json.readMembers Json.readKey (readMember bound depth) bound true {} cs
      let state ← draft.finish
      .ok (state, r))
    (fun depth cs => do
      let needed := "struct ShellState with 2 elements"
      let (cursor, r) ← readPart needed 0 (readTexts bound depth) cs
      let (history, r) ← readPart needed 1 (Entry.readHistory bound depth) r
      .ok ({ cursor, history }, r))

/-- The state stored in a text. -/
def ofText (text : String) : Except ReadError State :=
  Json.readAll (fun bound => read bound Json.nestingLimit) text

end State

end PageShell
