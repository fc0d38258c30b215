import PageShell.Document.Node
import PageShell.Json.Reader
import PageShell.Json.Writer

/-!
# Stored documents

The JSON form of a document. A text leaf is an object with the one member
`text`; an element has `name`, `attrs` and, if there are any, `children`.
Nothing tells the two apart but their members, so reading is strict where they
could be confused: an object whose only member is `text` is a leaf, and any
other object is an element if it has a `name`, whatever else it holds. A leaf
and an element can also be read from an array that lists their parts in order,
which is never written.

An attribute that is `null` is unset, and of several members with one name in
`attrs` the last decides. Elsewhere a repeated member is refused.
-/

namespace PageShell

/-! ## Writing -/

/-- The JSON form of an attribute; a number JSON cannot write is `null`. -/
def AttrValue.toJson : AttrValue → Json
  | .text value => .string value
  | .number value => if value.isFinite then .number (.real value) else .null

/-- The JSON form of the attributes, in their order. -/
def Attributes.toJson (attrs : Attributes) : Json :=
  .object (attrs.entries.map fun (key, value) => (key, value.toJson))

namespace Node

mutual

/-- The JSON form of a tree. -/
def toJson : Node → Json
  | .text content => .object [("text", .string content)]
  | .element name attributes [] =>
    .object [("name", .string name), ("attrs", attributes.toJson)]
  | .element name attributes (child :: children) =>
    .object [("name", .string name), ("attrs", attributes.toJson),
      ("children", .array (child.toJson :: listToJson children))]
termination_by structural node => node

def listToJson : List Node → List Json
  | [] => []
  | node :: nodes => node.toJson :: listToJson nodes
termination_by structural nodes => nodes

end

@[simp] theorem listToJson_eq_map (nodes : List Node) :
    listToJson nodes = nodes.map toJson := by
  induction nodes with
  | nil => rfl
  | cons node nodes ih => simp [listToJson, ih]

def toText (node : Node) : String := node.toJson.toText

def toIndentedText (node : Node) : String := node.toJson.toIndentedText

end Node

def Output.toJson : Output → Json
  | .single node => node.toJson
  | .sequence nodes => .array (nodes.map Node.toJson)

def Output.toText (output : Output) : String := output.toJson.toText

/-! ## Reading -/

/-- Reads the members of `attrs` one after the other. -/
def Attributes.ofMembers? :
    Attributes → List (String × Json) → Option Attributes
  | attrs, [] => some attrs
  | attrs, (key, .string value) :: ms =>
    ofMembers? (attrs.set key (.text value)) ms
  | attrs, (key, .number n) :: ms =>
    ofMembers? (attrs.set key (.number n.toNumber)) ms
  | attrs, (key, .null) :: ms => ofMembers? (attrs.erase key) ms
  | _, _ => none

/-- Reads attributes from their JSON form. -/
def Attributes.ofJson? : Json → Option Attributes
  | .object members => ofMembers? .empty members
  | _ => none

/-- The members of an element that have been read so far. -/
structure Element.Draft where
  name : Option String := none
  attributes : Option Attributes := none
  children : Option (List Node) := none

/-- The element of a draft, if its name is there. -/
def Element.Draft.toNode? (draft : Element.Draft) : Option Node :=
  draft.name.map fun name =>
    .element name (draft.attributes.getD .empty) (draft.children.getD [])

namespace Node

mutual

/-- Reads a tree from its JSON form. -/
def ofJson? : Json → Option Node
  | .object [("text", .string content)] => some (.text content)
  | .object members => (ofMembers? {} members).bind Element.Draft.toNode?
  | .array [.string content] => some (.text content)
  | .array [.string name, attrs] =>
    (Attributes.ofJson? attrs).map fun attrs => .element name attrs []
  | .array [.string name, attrs, children] =>
    match Attributes.ofJson? attrs, childrenOfJson? children with
    | some attrs, some children => some (.element name attrs children)
    | _, _ => none
  | _ => none
termination_by structural j => j

/-- Reads the children of an element from their JSON form. -/
def childrenOfJson? : Json → Option (List Node)
  | .array items => listOfJson? items
  | _ => none
termination_by structural j => j

/-- Reads some trees; each of them has to be one. -/
def listOfJson? : List Json → Option (List Node)
  | [] => some []
  | j :: js =>
    match ofJson? j, listOfJson? js with
    | some node, some nodes => some (node :: nodes)
    | _, _ => none
termination_by structural js => js

/-- Reads the members of an element; unknown ones are passed over and repeated
ones refused. -/
def ofMembers? : Element.Draft → List (String × Json) → Option Element.Draft
  | draft, [] => some draft
  | draft, (key, j) :: ms =>
    if key = "name" then
      match draft.name, j with
      | none, .string name => ofMembers? { draft with name := some name } ms
      | _, _ => none
    else if key = "attrs" then
      match draft.attributes, Attributes.ofJson? j with
      | none, some attrs =>
        ofMembers? { draft with attributes := some attrs } ms
      | _, _ => none
    else if key = "children" then
      match draft.children, childrenOfJson? j with
      | none, some children =>
        ofMembers? { draft with children := some children } ms
      | _, _ => none
    else
      ofMembers? draft ms
termination_by structural _ ms => ms

end

/-- Reads a tree from a text in which at most `depth` more levels may open. -/
def read (bound depth : Nat) : Reader Node := fun cs => do
  let (j, r) ← Json.readValue bound depth cs
  match ofJson? j with
  | some node => .ok (node, r)
  | none => .error (.shape (.noAlternative "Node"))

/-- The tree stored in a text. -/
def ofText (text : String) : Except ReadError Node :=
  Json.readAll (fun bound => read bound Json.nestingLimit) text

end Node

/-- Reads an answer from its JSON form: a tree if it is one, and otherwise a
sequence of trees. -/
def Output.ofJson? (j : Json) : Option Output :=
  match Node.ofJson? j with
  | some node => some (.single node)
  | none => (Node.childrenOfJson? j).map .sequence

/-- The answer stored in a text. -/
def Output.ofText (text : String) : Except ReadError Output :=
  Json.readAll (fun bound cs => do
    let (j, r) ← Json.readValue bound Json.nestingLimit cs
    match Output.ofJson? j with
    | some output => .ok (output, r)
    | none => .error (.shape (.noAlternative "Value"))) text

end PageShell
