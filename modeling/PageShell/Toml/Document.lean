import PageShell.Toml.Lexeme

/-!
# TOML documents

A document is a sequence of lines, each of which is blank, gives a key a value,
or opens a table. The table that is open is kept apart from the document and put
into it when the next one opens, so a table stands in the document where its own
header does; a table that was only mentioned before moves there. Arrays and
inline tables nest less than `nestingLimit` deep, and keys have fewer parts than
that.
-/

namespace PageShell.Toml

/-- Arrays and inline tables nest less deep than this, and keys have fewer
parts. -/
def nestingLimit : Nat := 80

/-! ## Keys -/

/-- The characters of a key without quotes. -/
def isKeyChar (c : Char) : Bool := c.isAlphanum || c == '_' || c == '-'

/-- Reads one part of a key. -/
def readKeyPart (bound : Nat) : Scanner String
  | '"' :: r => do
    let (s, r) ← readBasic bound r
    some (String.ofList s, r)
  | '\'' :: r => do
    let (s, r) ← readLiteral r
    some (String.ofList s, r)
  | cs =>
    let body := cs.takeWhile isKeyChar
    if body = [] then none else some (String.ofList body, cs.drop body.length)

/-- Reads the parts of a key; blanks may stand around each. -/
def readKeyParts (whole : Nat) : (bound : Nat) → Scanner (List String)
  | 0, _ => none
  | bound + 1, cs => do
    let (part, r) ← readKeyPart whole (skipBlanks cs)
    match skipBlanks r with
    | '.' :: r =>
      let (parts, r) ← readKeyParts whole bound r
      some (part :: parts, r)
    | r => some ([part], r)

/-- Reads a key: the parts before its last, and the last. -/
def readKey (bound : Nat) (cs : List Char) :
    Option ((List String × String) × List Char) := do
  let (parts, r) ← readKeyParts bound bound cs
  if parts.length < nestingLimit then
    match parts.getLast? with
    | some key => some ((parts.dropLast, key), r)
    | none => none
  else
    none

/-! ## Values -/

/-- Reads the items of an array up to its closing bracket. -/
def readItems (whole : Nat) (value : Scanner Toml) :
    (bound : Nat) → Scanner (List Toml)
  | 0, _ => none
  | bound + 1, cs => do
    let r ← skipFiller whole cs
    match r with
    | ']' :: r => some ([], r)
    | _ =>
      let (x, r) ← value r
      let r ← skipFiller whole r
      match r with
      | ',' :: r =>
        let (xs, r) ← readItems whole value bound r
        some (x :: xs, r)
      | ']' :: r => some ([x], r)
      | _ => none

/-- Reads the entries of an inline table up to its closing brace. Unlike an
array it does not end with a comma. -/
def readEntries (whole : Nat) (value : Scanner Toml) :
    (bound : Nat) → Table → Scanner Table
  | 0, _, _ => none
  | bound + 1, t, cs => do
    let ((path, key), r) ← readKey whole cs
    let r ← readChar '=' r
    let (x, r) ← value (skipBlanks r)
    let t ← t.define path key x
    match skipBlanks r with
    | ',' :: r => readEntries whole value bound t r
    | '}' :: r => some (t, r)
    | _ => none

/-- Reads a value, given how to go on after an opening bracket and an opening
brace. -/
def readValueWith (bound : Nat) (array table : Scanner Toml) :
    Scanner Toml := fun cs =>
  match cs with
  | '[' :: r => array r
  | '{' :: r => table r
  | '"' :: _ | '\'' :: _ => do
    let (s, r) ← readString bound cs
    some (.string (String.ofList s), r)
  | 't' :: 'r' :: 'u' :: 'e' :: r => some (.boolean true, r)
  | 'f' :: 'a' :: 'l' :: 's' :: 'e' :: r => some (.boolean false, r)
  | 'i' :: _ | 'n' :: _ => readSpecialFloat false cs
  | _ => (readDateTime cs).or ((readFloat cs).or (readInteger cs))

/-- Reads a value in which arrays and inline tables nest at most `depth`
deep. -/
def readValue (bound : Nat) : (depth : Nat) → Scanner Toml
  | 0 => readValueWith bound (fun _ => none) (fun _ => none)
  | depth + 1 =>
    readValueWith bound
      (fun cs => do
        let (items, r) ← readItems bound (readValue bound depth) bound cs
        some (.array items, r))
      (fun cs =>
        match skipBlanks cs with
        | '}' :: r => some (.table .inline [], r)
        | _ => do
          let (t, r) ← readEntries bound (readValue bound depth) bound
            { origin := .inline } cs
          some (t.toValue, r))

/-! ## Documents -/

/-- A document being read: what has been put together, and the table that is
open. -/
structure Draft where
  document : Table := { origin := .header }
  opened : Table := { origin := .header }
  /-- The path of the open table and its last part; none for the document
  itself. -/
  place : Option (List String × String) := none
  /-- Whether the open table is the next of an array of tables. -/
  isItem : Bool := false

namespace Draft

/-- The document with the open table put into it. -/
def close (draft : Draft) : Option Table :=
  match draft.place with
  | none => some draft.opened
  | some (path, key) =>
    draft.document.modify false (fun t =>
      if draft.isItem then
        match t.get? key with
        | some (.tables items) =>
          some (t.replace key (.tables (items ++ [draft.opened.entries])))
        | _ => none
      else
        some (t.push key draft.opened.toValue)) path

/-- Gives a key of the open table a value. -/
def define (draft : Draft) (path : List String) (key : String)
    (value : Toml) : Option Draft := do
  let opened ← draft.opened.define path key value
  some { draft with opened }

/-- Opens the table of a header. It may have been mentioned before, but not
opened. -/
def openTable (draft : Draft) (path : List String) (key : String) :
    Option Draft := do
  let document ← draft.close
  let (entries, document) ← document.visit false (fun t =>
    match t.get? key with
    | none => some ([], t)
    | some (.table .mentioned entries) => some (entries, t.erase key)
    | some _ => none) path
  some {
    document, opened := { origin := .header, entries }
    place := some (path, key) }

/-- Opens the next table of an array of tables. -/
def openItem (draft : Draft) (path : List String) (key : String) :
    Option Draft := do
  let document ← draft.close
  let document ← document.modify false (fun t =>
    match t.get? key with
    | none => some (t.push key (.tables []))
    | some (.tables _) => some t
    | some _ => none) path
  some { document, place := some (path, key), isItem := true }

end Draft

/-- Reads one line of a document, its end included. -/
def readLine (bound : Nat) (draft : Draft) (cs : List Char) :
    Option (Draft × List Char) :=
  match cs with
  | '#' :: _ => do
    let r ← readLineEnd (skipComment cs)
    some (draft, r)
  | '\n' :: _ | '\r' :: _ => do
    let r ← readNewline cs
    some (draft, r)
  | '[' :: '[' :: r => do
    let ((path, key), r) ← readKey bound r
    let r ← readChar ']' r
    let r ← readChar ']' r
    let r ← readTrailing r
    let draft ← draft.openItem path key
    some (draft, r)
  | '[' :: r => do
    let ((path, key), r) ← readKey bound r
    let r ← readChar ']' r
    let r ← readTrailing r
    let draft ← draft.openTable path key
    some (draft, r)
  | _ => do
    let ((path, key), r) ← readKey bound cs
    let r ← readChar '=' r
    let (value, r) ← readValue bound (nestingLimit - 1) (skipBlanks r)
    let r ← readTrailing r
    let draft ← draft.define path key value
    some (draft, r)

/-- Reads the lines of a document. -/
def readLines (whole : Nat) : (bound : Nat) → Draft → List Char → Option Draft
  | 0, _, _ => none
  | bound + 1, draft, cs =>
    match skipBlanks cs with
    | [] => some draft
    | cs => do
      let (draft, r) ← readLine whole draft cs
      readLines whole bound draft r

/-- A document may start with a byte order mark, which does not count. -/
def dropByteOrderMark : List Char → List Char
  | '\uFEFF' :: r => r
  | cs => cs

/-- The entries of the table that a document describes. -/
def ofText? (text : String) : Option (List (String × Toml)) := do
  let cs := dropByteOrderMark text.toList
  let bound := cs.length + 1
  let draft ← readLines bound bound {} cs
  let table ← draft.close
  some table.entries

end PageShell.Toml
