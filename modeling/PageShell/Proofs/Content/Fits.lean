import PageShell.Proofs.Content.Grammar
import PageShell.Proofs.Document.Levels

/-!
# The content fits where it is stored

Each element of content adds one level and at most a few small whole numbers.
So a bound on how deep the elements are in each other is a bound on how the
content is nested in its stored form, and the numbers in it are what the
content was put together with.
-/

namespace PageShell

namespace Node

/-- A tree with at most so many levels and no other numbers than small whole
ones. -/
def Fits (depth : Nat) (node : Node) : Prop :=
  node.levels ≤ depth ∧ ∀ x ∈ node.numbers, x.IsSmallWhole

variable {depth : Nat}

theorem fits_text (content : String) : (Node.text content).Fits depth :=
  ⟨Nat.zero_le _, fun x hx => by cases hx⟩

theorem levelsList_le {nodes : List Node}
    (h : ∀ node ∈ nodes, node.Fits depth) : levelsList nodes ≤ depth := by
  induction nodes with
  | nil => exact Nat.zero_le _
  | cons node nodes ih =>
      obtain ⟨hnode, hnodes⟩ := List.forall_mem_cons.mp h
      exact Nat.max_le.mpr ⟨hnode.1, ih hnodes⟩

theorem isSmallWhole_of_mem_numbersList {nodes : List Node}
    (h : ∀ node ∈ nodes, node.Fits depth) :
    ∀ x ∈ numbersList nodes, x.IsSmallWhole := by
  induction nodes with
  | nil => exact fun x hx => by cases hx
  | cons node nodes ih =>
      obtain ⟨hnode, hnodes⟩ := List.forall_mem_cons.mp h
      intro x hx
      rcases List.mem_append.mp hx with hx | hx
      · exact hnode.2 x hx
      · exact ih hnodes x hx

theorem fits_element {e : Element}
    (hattrs : ∀ x ∈ e.attributes.numbers, x.IsSmallWhole)
    (hchildren : ∀ child ∈ e.children, child.Fits depth) :
    e.toNode.Fits (depth + 1) := by
  refine ⟨Nat.succ_le_succ (levelsList_le hchildren), fun x hx => ?_⟩
  rcases List.mem_append.mp hx with hx | hx
  · exact hattrs x hx
  · exact isSmallWhole_of_mem_numbersList hchildren x hx

/-- Content fits as deep as its elements are in each other. -/
theorem IsContent.fits {node : Node} (h : node.IsContent depth) :
    node.Fits depth := by
  induction h with
  | text content => exact fits_text content
  | element _ hattrs _ ih =>
      refine fits_element (fun x hx => ?_) ih
      obtain ⟨a, ha, hvalue⟩ := List.mem_filterMap.mp hx
      exact (hattrs a ha).2 x hvalue

end Node

end PageShell
