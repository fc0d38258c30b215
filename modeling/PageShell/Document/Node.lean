import PageShell.Document.Attributes

/-!
# Document trees

What a command answers is a document: a tree of text leaves and named elements
with attributes and children. The names mean nothing here; they are given a
meaning where a document is presented. `Element` is an element taken out of its
tree, the form in which elements are built and looked into.
-/

namespace PageShell

/-- A document tree. -/
inductive Node where
  | text (content : String)
  | element (name : String) (attributes : Attributes) (children : List Node)

namespace Node

mutual

def decEq : (a b : Node) → Decidable (a = b)
  | .text s, .text t =>
    if h : s = t then .isTrue (by rw [h]) else .isFalse (by simp [h])
  | .text _, .element .. => .isFalse (by simp)
  | .element .., .text _ => .isFalse (by simp)
  | .element n a c, .element m b d =>
    if h : n = m ∧ a = b then
      match decEqList c d with
      | .isTrue h' => .isTrue (by simp [h, h'])
      | .isFalse h' => .isFalse (by simp [h'])
    else
      .isFalse (by
        simp only [element.injEq]
        exact fun h' => h ⟨h'.1, h'.2.1⟩)
termination_by structural a => a

def decEqList : (a b : List Node) → Decidable (a = b)
  | [], [] => .isTrue rfl
  | [], _ :: _ => .isFalse (by simp)
  | _ :: _, [] => .isFalse (by simp)
  | a :: as, b :: bs =>
    match decEq a b, decEqList as bs with
    | .isTrue h, .isTrue h' => .isTrue (by simp [h, h'])
    | .isFalse h, _ => .isFalse (by simp [h])
    | _, .isFalse h => .isFalse (by simp [h])
termination_by structural a => a

end

instance : DecidableEq Node := decEq

def text? : Node → Option String
  | .text content => some content
  | .element .. => none

end Node

/-- An element: a name, attributes and children in display order. -/
structure Element where
  name : String
  attributes : Attributes := .empty
  children : List Node := []
deriving DecidableEq

namespace Element

/-- The element with no attributes and no children. -/
def named (name : String) : Element := { name }

/-- The element as a tree. -/
def toNode (e : Element) : Node := .element e.name e.attributes e.children

def set (e : Element) (key : String) (value : AttrValue) : Element :=
  { e with attributes := e.attributes.set key value }

/-- Sets an attribute if there is a value for it. -/
def set? (e : Element) (key : String) : Option AttrValue → Element
  | some value => e.set key value
  | none => e

def setText (e : Element) (key value : String) : Element :=
  e.set key (.text value)

def setNat (e : Element) (key : String) (value : Nat) : Element :=
  e.set key (.number (Number.ofNat value))

/-- Adds children after those there are. -/
def append (e : Element) (children : List Node) : Element :=
  { e with children := e.children ++ children }

def push (e : Element) (child : Node) : Element := e.append [child]

def get? (e : Element) (key : String) : Option AttrValue :=
  e.attributes.get? key

def text? (e : Element) (key : String) : Option String :=
  (e.get? key).bind AttrValue.text?

def number? (e : Element) (key : String) : Option Number :=
  (e.get? key).bind AttrValue.number?

/-- The text of the children that are text leaves; the texts inside nested
elements are not part of it. -/
def textContent (e : Element) : String :=
  String.join (e.children.filterMap Node.text?)

end Element

/-- The element at the root of a tree that is not a text leaf. -/
def Node.element? : Node → Option Element
  | .text _ => none
  | .element name attributes children => some { name, attributes, children }

/-- What a command answers: one tree, or several in display order. -/
inductive Output where
  | single (node : Node)
  | sequence (nodes : List Node)
deriving DecidableEq

namespace Output

/-- The trees of an answer, in display order. -/
def nodes : Output → List Node
  | .single node => [node]
  | .sequence nodes => nodes

def text (content : String) : Output := .single (.text content)

end Output

end PageShell
