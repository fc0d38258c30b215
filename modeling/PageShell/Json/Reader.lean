import PageShell.Json.Basic
import PageShell.Json.Lexeme

/-!
# Reading JSON

The readers of arrays and objects are written over the reader of their items, so
one pair of them serves whole values (`readValue`), values that are passed over
(`skipValue`) and the typed readers of stored states, which report a wrong shape
at the place where they meet it.

Two numbers keep them total. Values nest at most `nestingLimit` deep; a bracket
that opens one level more is refused where it stands, before anything inside it
is looked at. And no array or object has more parts than its text has
characters: `bound` is that length, handed down from the whole text, so running
out of it never happens (`bound` is passed on unchanged and needs no counting of
what is left).
-/

namespace PageShell.Json

/-- Arrays and objects nest at most this deep. -/
def nestingLimit : Nat := 127

/-! ## Arrays -/

/-- Looks for the next item of an array: `true` with the text at the item, or
`false` with the text after the closing bracket. -/
def nextItem (isFirst : Bool) (cs : List Char) :
    Except ReadError (Bool × List Char) :=
  match skipSpace cs with
  | [] => .error .endOfText
  | ']' :: r => .ok (false, r)
  | ',' :: r =>
    if isFirst then .ok (true, ',' :: r)
    else
      match skipSpace r with
      | [] => .error .endOfText
      | ']' :: _ => .error .malformed
      | r => .ok (true, r)
  | r => if isFirst then .ok (true, r) else .error .malformed

/-- Reads the items of an array up to its closing bracket. -/
def readItems {α : Type} (item : Reader α) :
    (bound : Nat) → (isFirst : Bool) → Reader (List α)
  | 0, _, _ => .error .malformed
  | bound + 1, isFirst, cs => do
    let (more, r) ← nextItem isFirst cs
    if more then
      let (x, r) ← item r
      let (xs, r) ← readItems item bound false r
      .ok (x :: xs, r)
    else
      .ok ([], r)

/-- Reads the closing bracket of an array all of whose items have been read. -/
def closeArray (cs : List Char) : Except ReadError (List Char) :=
  match skipSpace cs with
  | [] => .error .endOfText
  | ']' :: r => .ok r
  | _ => .error .malformed

/-! ## Objects -/

/-- Looks for the next key of an object: `true` with the text after the opening
quote of the key, or `false` with the text after the closing brace. -/
def nextKey (isFirst : Bool) (cs : List Char) :
    Except ReadError (Bool × List Char) :=
  match skipSpace cs with
  | [] => .error .endOfText
  | '}' :: r => .ok (false, r)
  | '"' :: r => if isFirst then .ok (true, r) else .error .malformed
  | ',' :: r =>
    if isFirst then .error .malformed
    else
      match skipSpace r with
      | [] => .error .endOfText
      | '"' :: r => .ok (true, r)
      | _ => .error .malformed
  | _ => .error .malformed

/-- Reads the colon between a key and its value. -/
def readColon (cs : List Char) : Except ReadError (List Char) :=
  match skipSpace cs with
  | [] => .error .endOfText
  | ':' :: r => .ok r
  | _ => .error .malformed

/-- Reads the members of an object up to its closing brace. `key` reads a key
after its opening quote, and `member` takes up the key and reads on from the
colon. -/
def readMembers {κ σ : Type} (key : Reader κ) (member : κ → σ → Reader σ) :
    (bound : Nat) → (isFirst : Bool) → σ → Reader σ
  | 0, _, _, _ => .error .malformed
  | bound + 1, isFirst, s, cs => do
    let (more, r) ← nextKey isFirst cs
    if more then
      let (k, r) ← key r
      let (s, r) ← member k s r
      readMembers key member bound false s r
    else
      .ok (s, r)

def readKey : Reader String := fun cs => do
  let (s, r) ← readString cs
  .ok (String.ofList s, r)

/-! ## Values -/

/-- Reads a value, given how to go on after an opening bracket and an opening
brace. -/
def readValueWith (array : Reader Json) (object : Reader Json) :
    Reader Json := fun cs =>
  match skipSpace cs with
  | [] => .error .endOfText
  | '[' :: r => array r
  | '{' :: r => object r
  | '"' :: r => do
    let (s, r) ← readString r
    .ok (.string (String.ofList s), r)
  | '-' :: r => do
    let (numeral, r) ← readNumeral true r
    .ok (.number numeral, r)
  | 'n' :: r => do
    let r ← readWord "ull".toList r
    .ok (.null, r)
  | 't' :: r => do
    let r ← readWord "rue".toList r
    .ok (.bool true, r)
  | 'f' :: r => do
    let r ← readWord "alse".toList r
    .ok (.bool false, r)
  | c :: r =>
    if c.isDigit then do
      let (numeral, r) ← readNumeral false (c :: r)
      .ok (.number numeral, r)
    else
      .error .malformed

/-- Refuses to go deeper. -/
def tooDeep : Reader Json := fun _ => .error .malformed

/-- Reads a value in which arrays and objects nest at most `depth` deep. -/
def readValue (bound : Nat) : (depth : Nat) → Reader Json
  | 0 => readValueWith tooDeep tooDeep
  | depth + 1 =>
    readValueWith
      (fun cs => do
        let (items, r) ← readItems (readValue bound depth) bound true cs
        .ok (.array items, r))
      (fun cs => do
        let (members, r) ← readMembers readKey
          (fun k ms cs => do
            let r ← readColon cs
            let (j, r) ← readValue bound depth r
            .ok ((k, j) :: ms, r))
          bound true [] cs
        .ok (.object members.reverse, r))

/-- Passes over a value. Only its grammar counts: neither its nesting nor the
range of its numerals nor the pairing of surrogates in its strings is looked
at. -/
def skipValue (bound : Nat) :
    (depth : Nat) → List Char → Except ReadError (List Char)
  | 0, _ => .error .malformed
  | depth + 1, cs =>
    let item : Reader Unit := fun cs => do
      let r ← skipValue bound depth cs
      .ok ((), r)
    match skipSpace cs with
    | [] => .error .endOfText
    | '[' :: r => do
      let (_, r) ← readItems item bound true r
      .ok r
    | '{' :: r => do
      let (_, r) ← readMembers
        (fun cs => do
          let r ← skipString cs
          .ok ((), r))
        (fun _ _ cs => do
          let r ← readColon cs
          item r)
        bound true () r
      .ok r
    | '"' :: r => skipString r
    | '-' :: r => skipNumeral r
    | 'n' :: r => readWord "ull".toList r
    | 't' :: r => readWord "rue".toList r
    | 'f' :: r => readWord "alse".toList r
    | c :: r => if c.isDigit then skipNumeral (c :: r) else .error .malformed

/-! ## Whole texts -/

/-- Reads a whole text: nothing but blanks may follow what `reader` reads. The
reader is given the bound that the text sets. -/
def readAll {α : Type} (reader : (bound : Nat) → Reader α) (text : String) :
    Except ReadError α := do
  let cs := text.toList
  let (x, r) ← reader (cs.length + 1) cs
  match skipSpace r with
  | [] => .ok x
  | _ => .error .malformed

/-- The value written by a text. -/
def ofText (text : String) : Except ReadError Json :=
  readAll (fun bound => readValue bound nestingLimit) text

/-! ## Typed readers -/

/-- Reads the value at hand only to say that something else is needed there. The
insides of an array or object are not looked at, but a scalar has to be well
formed. -/
def refuse {α : Type} (needed : String) (cs : List Char) :
    Except ReadError (α × List Char) := do
  let (found, _) ← readValueWith (fun r => .ok (.array [], r))
    (fun r => .ok (.object [], r)) cs
  .error (.shape (.wrongType found.found needed))

def readText (needed : String) : Reader String := fun cs =>
  match skipSpace cs with
  | '"' :: r => readKey r
  | _ => refuse needed cs

/-- Reads an array of values of one kind. -/
def readArray {α : Type} (bound depth : Nat) (item : (depth : Nat) → Reader α) :
    Reader (List α) := fun cs =>
  match skipSpace cs, depth with
  | '[' :: _, 0 => .error .malformed
  | '[' :: r, depth + 1 => readItems (item depth) bound true r
  | _, _ => refuse "a sequence" cs

end PageShell.Json
