import Mathlib.Data.List.Forall2
import PageShell.View.Terminal

/-!
# The texts of a view

What a document says is told without its view: by the name of an element,
either the texts of its children come one after the other, or one of a few
other texts stands for them (`Element.leaves`). The view is made in two steps,
from an element to a presentation and from that to page elements, and each
step has a lemma of its own: `Presentation.texts_view` for what a primitive
does with the views it is given, `Element.leaves_present` for which
presentation an element has. The induction over the document joins them.

Both sides are lists of texts, leaf by leaf, so that nothing can move from one
leaf into the next. A history is shown the same way, entry by entry.
-/

namespace PageShell

/-- To show something of all documents, show it of texts, and of elements
whose children have it. -/
@[elab_as_elim]
theorem Node.induct {motive : Node → Prop}
    (text : ∀ content, motive (.text content))
    (element : ∀ name attributes children,
      (∀ child ∈ children, motive child) →
        motive (.element name attributes children)) :
    ∀ node, motive node
  | .text content => text content
  | .element name attributes children =>
      element name attributes children fun child _ =>
        Node.induct text element child
termination_by node => node
decreasing_by
  next hchild =>
    have hlt := List.sizeOf_lt_of_mem hchild
    simp only [Node.element.sizeOf_spec]
    omega

/-! ## What a document says -/

/-- The texts that an element shows, given those of its children. -/
def Element.leaves (e : Element) (inner : List String) : List String :=
  match e.name with
  | "VStack" | "HStack" | "Grid" | "Card" | "Heading" | "Text" | "List" =>
    inner
  | "Image" => []
  | "Link" =>
    match e.text? "href" with
    | some _ =>
      (((e.text? "icon").bind Icon.ofToken?).map Icon.glyph).toList ++ inner
    | none => [e.toNode.toIndentedText]
  | "Cmd" => if e.children = [] then [(e.text? "cmd").getD ""] else inner
  | _ => [e.toNode.toIndentedText]

namespace Node

mutual

/-- The texts that a document shows, in order. -/
def leaves : Node → List String
  | .text content => [content]
  | .element name attributes children =>
    Element.leaves { name, attributes, children } (leavesList children)
termination_by structural node => node

def leavesList : List Node → List String
  | [] => []
  | node :: nodes => node.leaves ++ leavesList nodes
termination_by structural nodes => nodes

end

theorem leavesList_eq_flatMap (nodes : List Node) :
    leavesList nodes = nodes.flatMap leaves := by
  induction nodes with
  | nil => rfl
  | cons node nodes ih => rw [leavesList, ih, List.flatMap_cons]

end Node

/-! ## From presentations to views -/

namespace View

@[simp] theorem texts_text (content : String) :
    (View.text content).texts = [content] := rfl

theorem textsOf_eq_flatMap (views : List View) :
    textsOf views = views.flatMap texts := by
  induction views with
  | nil => rfl
  | cons view views ih => rw [textsOf, ih, List.flatMap_cons]

@[simp] theorem texts_element (tag : String)
    (attributes : List (String × String)) (children : List View) :
    (element tag attributes children).texts = children.flatMap texts :=
  textsOf_eq_flatMap children

end View

namespace Presentation

/-- The texts that a presentation shows, given those inside it. -/
def leaves (p : Presentation) (inner : List String) : List String :=
  match p with
  | .vstack .. | .hstack .. | .grid .. | .card _ | .heading .. | .text ..
  | .list _ => inner
  | .plain content => [content]
  | .image .. => []
  | .link _ icon _ => (icon.map Icon.glyph).toList ++ inner
  | .command line nodes => if nodes = [] then [line] else inner
  | .fallback dump => [dump]

theorem texts_view (p : Presentation) (views : List View) :
    (p.view views).texts = p.leaves (views.flatMap View.texts) := by
  cases p with
  | plain | fallback | image => rfl
  | vstack | hstack | grid | card | heading | text =>
      exact View.texts_element _ _ _
  | link _ icon _ =>
      simp only [view, Primitive.link, View.texts_element, leaves]
      cases icon with
      | none => rfl
      | some icon => simp
  | command line nodes =>
      simp only [view, Primitive.commandButton, View.texts_element, leaves]
      split <;> rfl
  | list _ =>
      simp only [view, Primitive.list, View.texts_element, leaves,
        List.flatMap_map, Primitive.listItem, List.flatMap_singleton]

end Presentation

/-! ## From documents to presentations -/

namespace Element

theorem textContent_of_childless {e : Element} (h : e.children = []) :
    e.textContent = "" := by
  rw [textContent, h]
  rfl

/-- What an element shows is what its presentation shows. An element whose
children the presentation leaves out shows nothing of them either. -/
theorem leaves_present (e : Element) (shown : List Node → List String) :
    e.present.leaves (shown e.present.children) =
      e.leaves (shown e.children) := by
  unfold present Element.leaves
  split
  case h_7 h => rw [h]; rfl
  case h_8 h =>
      rw [h]
      cases e.text? "href" with
      | none => rfl
      | some href => rfl
  case h_9 h =>
      rw [h]
      by_cases hchildren : e.children = []
      · simp only [Presentation.leaves, hchildren, if_pos,
          textContent_of_childless hchildren]
      · simp only [Presentation.leaves, if_neg hchildren,
          Presentation.children]
  case h_11 => simp [fallback, Presentation.leaves, *]
  all_goals
    rename_i h
    rw [h]
    rfl

end Element

theorem Node.texts_view (node : Node) : node.view.texts = node.leaves := by
  induction node using Node.induct with
  | text content => rfl
  | element name attributes children ih =>
      have hinner : (children.flatMap fun child => child.view.texts) =
          leavesList children := by
        rw [leavesList_eq_flatMap]
        exact List.flatMap_congr ih
      rw [view_eq_render, present, Presentation.render,
        Presentation.texts_view, List.flatMap_map,
        Element.leaves_present _ fun nodes =>
          nodes.flatMap fun node => node.view.texts,
        hinner, leaves]

/-! ## The transcript -/

namespace Entry

/-- The texts of an entry: the marker, the line as it was typed, and what was
answered. -/
def leaves (entry : Entry) : List String :=
  "$" :: entry.input :: entry.output.flatMap Node.leaves

/-- An entry is shown in three parts: the line, the answer with one view for
each document, and a rule without text. -/
def IsShownBy (entry : Entry) (views : List View) : Prop :=
  ∃ line marks rule,
    views = [line, .element "div" marks (entry.output.map Node.view), rule] ∧
    line.texts = ["$", entry.input] ∧ rule.texts = []

theorem isShownBy_view (entry : Entry) : entry.IsShownBy entry.view :=
  ⟨_, _, _, rfl, rfl, rfl⟩

theorem IsShownBy.texts {entry : Entry} {views : List View}
    (h : entry.IsShownBy views) :
    views.flatMap View.texts = entry.leaves := by
  obtain ⟨line, marks, rule, rfl, hline, hrule⟩ := h
  simp only [List.flatMap_cons, List.flatMap_nil, View.texts_element,
    List.flatMap_map, hline, hrule, Node.texts_view, leaves,
    List.append_nil, List.cons_append, List.nil_append]

end Entry

theorem View.texts_of_isShownBy {entries : List Entry}
    {rows : List (List View)}
    (h : List.Forall₂ Entry.IsShownBy entries rows) :
    rows.flatten.flatMap View.texts = entries.flatMap Entry.leaves := by
  induction h with
  | nil => rfl
  | cons hentry _ ih =>
      rw [List.flatten_cons, List.flatMap_append, List.flatMap_cons,
        hentry.texts, ih]

/-- The texts of a view are those that the document shows, leaf by leaf and in
order, and a list puts each of its children into an item of its own. The
transcript of a terminal has three parts for each entry of the history, in
order, and no text besides that of the entries. -/
theorem shown_leaf_by_leaf :
    (∀ node : Node, node.view.texts = node.leaves) ∧
    (∀ attributes children, ∃ marks itemMarks,
      (Node.element "List" attributes children).view =
        .element "ul" marks (children.map fun child =>
          .element "li" itemMarks [child.view])) ∧
    ∀ (config : Config) (state : State),
      ∃ marks transcriptMarks rows below,
        state.terminal config = .element "div" marks
          (.element "div" transcriptMarks rows.flatten :: below) ∧
        ("data-ui-kind", "terminal-transcript") ∈ transcriptMarks ∧
        List.Forall₂ Entry.IsShownBy state.history rows ∧
        (View.element "div" transcriptMarks rows.flatten).texts =
          state.history.flatMap Entry.leaves := by
  refine ⟨Node.texts_view, fun attributes children => ?_,
    fun config state => ?_⟩
  · refine ⟨Primitive.marks "ui-list" "list" none,
      Primitive.marks "ui-list-item" "list-item" none, ?_⟩
    rw [Node.view_eq_render, Presentation.render]
    exact congrArg (View.element "ul" _) List.map_map
  · have hrows : List.Forall₂ Entry.IsShownBy state.history
        (state.history.map Entry.view) := by
      rw [List.forall₂_map_right_iff]
      exact List.forall₂_same.mpr fun entry _ => entry.isShownBy_view
    have hterminal : ∃ marks transcriptMarks below,
        state.terminal config = .element "div" marks
          (.element "div" transcriptMarks
            (state.history.flatMap Entry.view) :: below) ∧
        ("data-ui-kind", "terminal-transcript") ∈ transcriptMarks :=
      ⟨_, _, _, rfl, .tail _ (.tail _ (.head _))⟩
    obtain ⟨marks, transcriptMarks, below, hterminal, hkind⟩ := hterminal
    rw [List.flatMap_def] at hterminal
    refine ⟨marks, transcriptMarks, state.history.map Entry.view, below,
      hterminal, hkind, hrows, ?_⟩
    rw [View.texts_element, View.texts_of_isShownBy hrows]

end PageShell
