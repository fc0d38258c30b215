import PageShell.Proofs.Document.Attributes
import PageShell.Proofs.Presentation.Readings
import PageShell.Proofs.View.Leaves

/-!
# What is not understood does not show

A document can be pruned: every attribute goes that is not read where it
stands, or whose value means nothing there. What is shown as it is stored
is left alone, with all that is in it, because there every attribute shows. A
pruned document has the same view.

The reason is one fact about one attribute. Each is read by a function that
may find nothing, and pruning drops exactly the values in which it finds
nothing, so the function cannot tell (`Element.bind_get?_pruned`). From that
an element and its pruned form have the same presentation, around children
that are pruned themselves; the rest carries this through the tree.

That nothing is left to prune is said of the result without the function that
prunes (`Node.IsPruned`), and a second pruning finds nothing because of it.
-/

namespace PageShell

namespace Presentation

/-- Whether the stored form is shown. -/
def isFallback : Presentation → Bool
  | .fallback _ => true
  | _ => false

/-- The presentation with each of the nodes inside it changed. -/
def mapChildren (change : Node → Node) : Presentation → Presentation
  | .vstack gap children => .vstack gap (children.map change)
  | .hstack gap children => .hstack gap (children.map change)
  | .grid gap base wide template children =>
    .grid gap base wide template (children.map change)
  | .card children => .card (children.map change)
  | .heading level children => .heading level (children.map change)
  | .text tone size weight children =>
    .text tone size weight (children.map change)
  | .link href icon children => .link href icon (children.map change)
  | .command line children => .command line (children.map change)
  | .list items => .list (items.map change)
  | .plain content => .plain content
  | .image source alt width height rounded =>
    .image source alt width height rounded
  | .fallback dump => .fallback dump

theorem children_mapChildren (change : Node → Node) (p : Presentation) :
    (p.mapChildren change).children = p.children.map change := by
  cases p <;> rfl

/-- The nodes inside show in no other way than through their views. -/
theorem view_mapChildren (change : Node → Node) (p : Presentation)
    (views : List View) : (p.mapChildren change).view views = p.view views := by
  cases p with
  | command line children => cases children <;> rfl
  | _ => rfl

end Presentation

/-! ## Pruning -/

/-- The attributes that are read from the elements of a name and have a value
that means something there. -/
def Attributes.understood (attrs : Attributes) (name : String) : Attributes :=
  attrs.filter fun key value =>
    (Element.reading? name key).any (Reading.admits · value)

namespace Node

mutual

/-- The document without the attributes that are not understood. -/
def pruned : Node → Node
  | .text content => .text content
  | .element name attributes children =>
    if (Element.present { name, attributes, children }).isFallback then
      .element name attributes children
    else
      .element name (attributes.understood name) (prunedList children)
termination_by structural node => node

def prunedList : List Node → List Node
  | [] => []
  | node :: nodes => node.pruned :: prunedList nodes
termination_by structural nodes => nodes

end

theorem prunedList_eq_map (nodes : List Node) :
    prunedList nodes = nodes.map pruned := by
  induction nodes with
  | nil => rfl
  | cons node nodes ih => rw [prunedList, ih, List.map_cons]

theorem text?_pruned (node : Node) : node.pruned.text? = node.text? := by
  cases node with
  | text content => rfl
  | element name attributes children =>
      rw [pruned]
      split <;> rfl

end Node

namespace Element

/-- An element that is not shown as its stored form, pruned. -/
def pruned (e : Element) : Element where
  name := e.name
  attributes := e.attributes.understood e.name
  children := e.children.map Node.pruned

theorem pruned_toNode (e : Element) :
    e.toNode.pruned =
      if e.present.isFallback then e.toNode else e.pruned.toNode := by
  rw [toNode, Node.pruned, Node.prunedList_eq_map]
  rfl

section

variable {e : Element} {key : String}

theorem get?_pruned (e : Element) (key : String) :
    e.pruned.get? key = (e.get? key).filter (recognises e.name key) := by
  show (e.attributes.understood e.name).get? key = _
  rw [Attributes.understood, Attributes.get?_filter]
  congr 1
  funext value
  exact (recognises_eq_reading e.name key value).symm

/-- What a function finds in an attribute it finds in the pruned element, if
the values that it understands are those that are recognised. -/
theorem bind_get?_pruned {α : Type} {read : AttrValue → Option α}
    (h : ∀ value, recognises e.name key value = (read value).isSome) :
    (e.pruned.get? key).bind read = (e.get? key).bind read := by
  rw [get?_pruned]
  cases e.get? key with
  | none => rfl
  | some value =>
      rw [Option.filter_some, h]
      cases hread : read value with
      | none => exact hread.symm
      | some a => rfl

theorem gap_pruned
    (h : ∀ value, recognises e.name "gap" value =
      (value.toUInt32?.bind Gap.ofStep?).isSome) :
    e.pruned.gap = e.gap := by
  unfold gap natural?
  rw [Option.bind_assoc, Option.bind_assoc, bind_get?_pruned h]

theorem columns?_pruned
    (h : ∀ value, recognises e.name key value =
      (value.toUInt32?.bind Columns.ofCount?).isSome) :
    e.pruned.columns? key = e.columns? key := by
  unfold columns? natural?
  rw [Option.bind_assoc, Option.bind_assoc, bind_get?_pruned h]

theorem headingLevel_pruned
    (h : ∀ value, recognises e.name "level" value =
      value.toUInt32?.isSome) :
    e.pruned.headingLevel = e.headingLevel := by
  unfold headingLevel natural?
  rw [bind_get?_pruned h]

theorem dimension_pruned
    (h : ∀ value, recognises e.name key value =
      (value.toUInt32?.filter (0 < ·)).isSome) :
    e.pruned.dimension key = e.dimension key := by
  have hfilter : ∀ found : Option AttrValue,
      (found.bind AttrValue.toUInt32?).filter (0 < ·) =
        found.bind fun value => value.toUInt32?.filter (0 < ·) := by
    intro found
    cases found <;> rfl
  unfold dimension natural?
  rw [hfilter, hfilter, bind_get?_pruned h]

theorem text?_pruned
    (h : ∀ value, recognises e.name key value = value.text?.isSome) :
    e.pruned.text? key = e.text? key :=
  bind_get?_pruned h

theorem word_pruned {α : Type} {ofWord? : String → Option α}
    (h : ∀ value, recognises e.name key value =
      (value.text?.bind ofWord?).isSome) :
    (e.pruned.text? key).bind ofWord? = (e.text? key).bind ofWord? := by
  unfold text?
  rw [Option.bind_assoc, Option.bind_assoc, bind_get?_pruned h]

/-- A flag is found by asking for the value it has when it is set. -/
theorem isSet_pruned
    (h : ∀ value, recognises e.name key value = value.isSet) :
    e.pruned.isSet key = e.isSet key := by
  have hset : ∀ e : Element,
      e.isSet key = (e.get? key).any AttrValue.isSet := by
    intro e
    rw [isSet]
    rcases e.get? key with _ | _ | _ <;> rfl
  rw [hset, hset, get?_pruned]
  cases e.get? key with
  | none => rfl
  | some value =>
      rw [Option.filter_some, h]
      cases hvalue : value.isSet with
      | false => exact hvalue.symm
      | true => rfl

theorem textContent_pruned (e : Element) :
    e.pruned.textContent = e.textContent := by
  rw [textContent, textContent]
  show String.join ((e.children.map Node.pruned).filterMap Node.text?) = _
  rw [List.filterMap_map]
  congr 2
  funext child
  exact child.text?_pruned

end

/-- A pruned element means what the element meant. -/
theorem present_pruned {e : Element} (h : e.present.isFallback = false) :
    e.pruned.present = e.present.mapChildren Node.pruned := by
  have hpruned : e.pruned.name = e.name := rfl
  unfold present at h ⊢
  rw [hpruned]
  split at h
  case h_1 hname | h_2 hname =>
      rw [gap_pruned fun value => by rw [hname]; rfl]
      rfl
  case h_3 hname =>
      rw [gap_pruned fun value => by rw [hname]; rfl,
        columns?_pruned fun value => by rw [hname]; rfl,
        columns?_pruned fun value => by rw [hname]; rfl,
        word_pruned fun value => by rw [hname]; rfl]
      rfl
  case h_4 | h_10 => rfl
  case h_5 hname =>
      rw [headingLevel_pruned fun value => by rw [hname]; rfl]
      rfl
  case h_6 hname =>
      rw [word_pruned fun value => by rw [hname]; rfl,
        word_pruned fun value => by rw [hname]; rfl,
        word_pruned fun value => by rw [hname]; rfl]
      rfl
  case h_7 hname =>
      rw [text?_pruned fun value => by rw [hname]; rfl,
        text?_pruned fun value => by rw [hname]; rfl,
        dimension_pruned fun value => by rw [hname]; rfl,
        dimension_pruned fun value => by rw [hname]; rfl,
        isSet_pruned fun value => by rw [hname]; rfl]
      rfl
  case h_8 hname =>
      rw [text?_pruned fun value => by rw [hname]; rfl,
        word_pruned fun value => by rw [hname]; rfl]
      cases hhref : e.text? "href" with
      | none =>
          rw [hhref] at h
          cases h
      | some href => rfl
  case h_9 hname =>
      rw [text?_pruned fun value => by rw [hname]; rfl,
        textContent_pruned]
      rfl
  case h_11 => cases h

end Element

namespace Node

theorem view_pruned (node : Node) : node.pruned.view = node.view := by
  induction node using Node.induct with
  | text content => rfl
  | element name attributes children ih =>
      let e : Element := { name, attributes, children }
      show e.toNode.pruned.view = e.toNode.view
      rw [Element.pruned_toNode]
      split
      · rfl
      · next h =>
          have hpresent := Element.present_pruned (eq_false_of_ne_true h)
          rw [view_eq_render, view_eq_render]
          show e.pruned.present.render = e.present.render
          rw [hpresent, Presentation.render, Presentation.render,
            Presentation.view_mapChildren, Presentation.children_mapChildren,
            List.map_map]
          congr 1
          apply List.map_congr_left
          intro child hchild
          -- A presentation shows all children of its element or none of them.
          rcases e.children_present with heq | heq
          · rw [heq] at hchild
            exact ih child hchild
          · rw [heq] at hchild
            cases hchild

/-! ## Nothing is left to prune -/

/-- Every attribute is understood where it stands, but in what is shown as it
is stored. -/
inductive IsPruned : Node → Prop where
  | text (content : String) : IsPruned (.text content)
  | stored {e : Element} : e.present.isFallback = true → IsPruned e.toNode
  | element {e : Element} :
      (∀ a ∈ e.attributes.entries, ∃ reading,
        Element.reading? e.name a.1 = some reading ∧
          reading.admits a.2 = true) →
      (∀ child ∈ e.children, IsPruned child) → IsPruned e.toNode

theorem isPruned_pruned (node : Node) : node.pruned.IsPruned := by
  induction node using Node.induct with
  | text content => exact .text content
  | element name attributes children ih =>
      let e : Element := { name, attributes, children }
      show e.toNode.pruned.IsPruned
      rw [Element.pruned_toNode]
      split
      · next h => exact .stored h
      · apply IsPruned.element
        · intro a ha
          exact (Option.any_eq_true _ _).mp (List.mem_filter.mp ha).2
        · intro child hchild
          obtain ⟨child, hmem, rfl⟩ := List.mem_map.mp hchild
          exact ih child hmem

theorem pruned_of_isPruned {node : Node} (h : node.IsPruned) :
    node.pruned = node := by
  induction h with
  | text content => rfl
  | stored h => rw [Element.pruned_toNode, if_pos h]
  | @element e hattrs _ ih =>
      have hunderstood :
          e.attributes.understood e.name = e.attributes := by
        apply Attributes.filter_eq_self
        intro a ha
        exact (Option.any_eq_true _ _).mpr (hattrs a ha)
      have hchildren : e.children.map pruned = e.children :=
        (List.map_congr_left ih).trans (List.map_id _)
      have hself : e.pruned = e := by
        rw [Element.pruned, hunderstood, hchildren]
      rw [Element.pruned_toNode, hself, ite_self]

/-- A document without the attributes that are not understood has the same
view. Nothing is left to prune in it, so a second pruning changes nothing. -/
theorem unrecognised_attributes_do_not_show (node : Node) :
    node.pruned.view = node.view ∧ node.pruned.pruned = node.pruned ∧
      node.pruned.IsPruned :=
  ⟨node.view_pruned, pruned_of_isPruned node.isPruned_pruned,
    node.isPruned_pruned⟩

end Node

end PageShell
