import PageShell.Json.Basic

/-!
# Writing JSON

Two forms of one value: the compact form has no blanks at all, the indented form
puts every item and member on a line of its own, two spaces deeper than its
container, and a space after each colon. An empty array or object is closed at
once in both. A number that JSON cannot write, one that is not finite, becomes
`null`.

A value is always written in front of a text that goes on after it, which is how
a reader finds it: with that text left over.
-/

namespace PageShell.Json

def hexDigit (n : Nat) : Char := Nat.digitChar n

/-- The written form of one character of a string. -/
def encodeChar (c : Char) : List Char :=
  match c with
  | '"' => ['\\', '"']
  | '\\' => ['\\', '\\']
  | '\x08' => ['\\', 'b']
  | '\x0c' => ['\\', 'f']
  | '\n' => ['\\', 'n']
  | '\r' => ['\\', 'r']
  | '\t' => ['\\', 't']
  | _ =>
    if c.toNat < 0x20 then
      ['\\', 'u', '0', '0', hexDigit (c.toNat / 16), hexDigit (c.toNat % 16)]
    else
      [c]

def encodeString (s : String) : List Char :=
  '"' :: s.toList.flatMap encodeChar ++ ['"']

/-- The written form of a numeral. -/
def encodeNumeral : Numeral → List Char
  | .natural n => Number.digitsOf n
  | .negative n => '-' :: Number.digitsOf n
  | .real x => if x.isFinite then Number.stored.text x else "null".toList

/-- The written form of a value that has no parts. -/
def encodeName : Bool → List Char
  | true => "true".toList
  | false => "false".toList

/-! ## The compact form -/

mutual

/-- The compact form of a value, in front of `rest`. -/
def compact : Json → (rest : List Char) → List Char
  | .null, rest => "null".toList ++ rest
  | .bool value, rest => encodeName value ++ rest
  | .number numeral, rest => encodeNumeral numeral ++ rest
  | .string value, rest => encodeString value ++ rest
  | .array items, rest => '[' :: compactItems items rest
  | .object members, rest => '{' :: compactMembers members rest
termination_by structural j => j

/-- The items of an array without a comma before the first, and the closing
bracket. -/
def compactItems : List Json → (rest : List Char) → List Char
  | [], rest => ']' :: rest
  | j :: js, rest => j.compact (compactMoreItems js rest)
termination_by structural js => js

/-- Further items of an array, each after a comma, and the closing bracket. -/
def compactMoreItems : List Json → (rest : List Char) → List Char
  | [], rest => ']' :: rest
  | j :: js, rest => ',' :: j.compact (compactMoreItems js rest)
termination_by structural js => js

/-- The members of an object without a comma before the first, and the closing
brace. -/
def compactMembers : List (String × Json) → (rest : List Char) → List Char
  | [], rest => '}' :: rest
  | (k, j) :: ms, rest =>
    encodeString k ++ ':' :: j.compact (compactMoreMembers ms rest)
termination_by structural ms => ms

/-- Further members of an object, each after a comma, and the closing brace. -/
def compactMoreMembers : List (String × Json) → (rest : List Char) → List Char
  | [], rest => '}' :: rest
  | (k, j) :: ms, rest =>
    ',' :: (encodeString k ++ ':' :: j.compact (compactMoreMembers ms rest))
termination_by structural ms => ms

end

/-! ## The indented form -/

/-- The start of a line at the given depth. -/
def newLine (depth : Nat) : List Char :=
  '\n' :: List.replicate (2 * depth) ' '

mutual

/-- The indented form of a value that stands at the given depth, in front of
`rest`. -/
def indented (depth : Nat) : Json → (rest : List Char) → List Char
  | .null, rest => "null".toList ++ rest
  | .bool value, rest => encodeName value ++ rest
  | .number numeral, rest => encodeNumeral numeral ++ rest
  | .string value, rest => encodeString value ++ rest
  | .array [], rest => '[' :: ']' :: rest
  | .array (j :: js), rest =>
    '[' :: (newLine (depth + 1) ++
      j.indented (depth + 1) (indentedMoreItems depth js rest))
  | .object [], rest => '{' :: '}' :: rest
  | .object ((k, j) :: ms), rest =>
    '{' :: (newLine (depth + 1) ++ (encodeString k ++ ':' :: ' ' ::
      j.indented (depth + 1) (indentedMoreMembers depth ms rest)))
termination_by structural j => j

/-- Further items of an array that stands at the given depth, and its closing
bracket. -/
def indentedMoreItems (depth : Nat) : List Json → (rest : List Char) → List Char
  | [], rest => newLine depth ++ ']' :: rest
  | j :: js, rest =>
    ',' :: (newLine (depth + 1) ++
      j.indented (depth + 1) (indentedMoreItems depth js rest))
termination_by structural js => js

/-- Further members of an object that stands at the given depth, and its closing
brace. -/
def indentedMoreMembers (depth : Nat) :
    List (String × Json) → (rest : List Char) → List Char
  | [], rest => newLine depth ++ '}' :: rest
  | (k, j) :: ms, rest =>
    ',' :: (newLine (depth + 1) ++ (encodeString k ++ ':' :: ' ' ::
      j.indented (depth + 1) (indentedMoreMembers depth ms rest)))
termination_by structural ms => ms

end

def toText (j : Json) : String := String.ofList (j.compact [])

def toIndentedText (j : Json) : String := String.ofList (j.indented 0 [])

example :
    toText (.object [("a", .array [.null, .bool true]), ("b", .array [])]) =
      "\x7b\"a\":[null,true],\"b\":[]\x7d" := by decide +kernel

end PageShell.Json
