import PageShell.View.Primitive

/-!
# The view of a document

A document is shown by presenting its nodes one by one and putting the views of
the children into the primitive of their parent. Nothing of a node gets into its
view but through its presentation, so data can only end up in texts and in the
few attributes that carry data.
-/

namespace PageShell

/-- The view of a presentation, given the views of the nodes inside it. -/
def Presentation.view (p : Presentation) (children : List View) : View :=
  match p with
  | .plain content => .element "span" [("class", "shell-text")] [.text content]
  | .vstack gap _ => Primitive.stack gap none children
  | .hstack gap _ => Primitive.cluster gap none children
  | .grid gap base wide template _ =>
    Primitive.grid gap base wide template none children
  | .card _ => Primitive.card none children
  | .heading level _ => Primitive.heading level none children
  | .text tone size weight _ => Primitive.text tone size weight none children
  | .image source alt width height rounded =>
    Primitive.image source alt width height rounded none
  | .link href icon _ => Primitive.link href icon none children
  | .command line nodes =>
    Primitive.commandButton line none
      (if nodes = [] then [.text line] else children)
  | .list _ =>
    Primitive.list none (children.map fun child => Primitive.listItem [child])
  | .fallback dump => .element "pre" [("class", "shell-fallback")] [.text dump]

namespace Node

mutual

/-- The view of a document. The children are looked at only if the presentation
shows them. -/
def view : Node → View
  | .text content => (Presentation.plain content).view []
  | .element name attributes children =>
    let p := Element.present { name, attributes, children }
    p.view (if p.children.isEmpty then [] else viewList children)
termination_by structural node => node

def viewList : List Node → List View
  | [] => []
  | node :: nodes => node.view :: viewList nodes
termination_by structural nodes => nodes

end

@[simp] theorem viewList_eq_map (nodes : List Node) :
    viewList nodes = nodes.map view := by
  induction nodes with
  | nil => rfl
  | cons node nodes ih => simp [viewList, ih]

end Node

/-- The view of a presentation with the nodes inside it. -/
def Presentation.render (p : Presentation) : View :=
  p.view (p.children.map Node.view)

/-- A presentation shows all children of its element or none. -/
theorem Element.children_present (e : Element) :
    e.present.children = e.children ∨ e.present.children = [] := by
  unfold Element.present
  split
  case h_8 => split <;> simp [Element.fallback, Presentation.children]
  all_goals simp [Element.fallback, Presentation.children]

/-- The view of a document is that of what it means. -/
theorem Node.view_eq_render (node : Node) :
    node.view = node.present.render := by
  cases node with
  | text content => rfl
  | element name attributes children =>
    simp only [Node.view, Node.present, Presentation.render, viewList_eq_map]
    rcases Element.children_present { name, attributes, children } with h | h
    · rw [h]
      cases children <;> rfl
    · simp [h]

end PageShell
