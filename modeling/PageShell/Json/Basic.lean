import PageShell.Json.Numeral

/-!
# JSON values

A JSON value as it stands in a text: the members of an object are in order and
may repeat, and a numeral remembers whether it was written as an integer. What a
repeated member means is for the reader of the value to say.
-/

namespace PageShell

inductive Json where
  | null
  | bool (value : Bool)
  | number (numeral : Numeral)
  | string (value : String)
  | array (items : List Json)
  | object (members : List (String × Json))

namespace Json

instance : Inhabited Json := ⟨.null⟩

mutual

/-- How deep arrays and objects nest in the value. -/
def nesting : Json → Nat
  | .array items => nestingItems items + 1
  | .object members => nestingMembers members + 1
  | .null | .bool _ | .number _ | .string _ => 0
termination_by structural j => j

def nestingItems : List Json → Nat
  | [] => 0
  | j :: js => max j.nesting (nestingItems js)
termination_by structural js => js

def nestingMembers : List (String × Json) → Nat
  | [] => 0
  | (_, j) :: js => max j.nesting (nestingMembers js)
termination_by structural js => js

end

/-- The value as it is named in a complaint. -/
def found : Json → Found
  | .null => .null
  | .bool value => .boolean value
  | .number numeral => numeral.found
  | .string value => .text value
  | .array _ => .sequence
  | .object _ => .map

end Json

end PageShell
