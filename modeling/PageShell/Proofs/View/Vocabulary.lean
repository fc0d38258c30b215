import PageShell.Proofs.Number.Conversion
import PageShell.Proofs.View.Leaves

/-!
# What a document can put into a view

The primitives choose among tokens, and a document chooses among the
presentations. So every tag of a view, every attribute and nearly every value
comes from the fixed vocabulary below, whatever the document holds: a number
only gets into a level or a size, in the range of either, and a text of the
document only into the texts of the view and into the four attributes that
carry data, on the one tag that each of them belongs to.

The argument has no induction but the one over the document. What a primitive
makes of its arguments is sober for all of them, sizes of an image apart
(`Presentation.isSober_view`), and the sizes that an element presents are in
range (`Element.inRange_present`).
-/

namespace PageShell

namespace View

/-! ## The vocabulary -/

def tags : List String :=
  ["div", "article", "span", "img", "ul", "li", "a", "button", "pre"]

def classes : List String :=
  ["ui-stack", "ui-cluster", "ui-grid", "ui-card", "ui-text", "ui-heading",
    "ui-image", "ui-list", "ui-list-item", "ui-link", "ui-link-icon",
    "ui-command-button", "shell-text", "shell-fallback"]

def kinds : List String :=
  ["stack", "cluster", "grid", "card", "text", "heading", "image", "list",
    "list-item", "link", "command-button"]

/-- The attributes that an element with the tag may have, with their values.
Only the last four hold a text of the document. -/
inductive IsAllowed (tag : String) : (name value : String) → Prop where
  | className {value : String} : value ∈ classes →
      IsAllowed tag "class" value
  | primitive : IsAllowed tag "data-ui-primitive" "true"
  | kind {value : String} : value ∈ kinds → IsAllowed tag "data-ui-kind" value
  | gap (gap : Gap) : IsAllowed tag "data-ui-gap" gap.token
  | columns (columns : Columns) :
      IsAllowed tag "data-ui-columns" columns.token
  | wideColumns (columns : Columns) :
      IsAllowed tag "data-ui-md-columns" columns.token
  | template (template : Template) :
      IsAllowed tag "data-ui-md-template" template.token
  | tone (tone : Tone) : IsAllowed tag "data-ui-tone" tone.token
  | size (size : TextSize) : IsAllowed tag "data-ui-size" size.token
  | weight (weight : Weight) : IsAllowed tag "data-ui-weight" weight.token
  | icon (icon : Icon) : IsAllowed tag "data-ui-icon" icon.token
  | rounded (rounded : Bool) :
      IsAllowed tag "data-ui-rounded" (if rounded then "true" else "false")
  | level {n : Nat} : 1 ≤ n → n ≤ 6 →
      IsAllowed tag "data-ui-level" (Primitive.decimal n)
  | ariaLevel {n : Nat} : 1 ≤ n → n ≤ 6 →
      IsAllowed tag "aria-level" (Primitive.decimal n)
  | role : IsAllowed tag "role" "heading"
  | ariaHidden : IsAllowed tag "aria-hidden" "true"
  | target : tag = "a" → IsAllowed tag "target" "_blank"
  | rel : tag = "a" → IsAllowed tag "rel" "noopener noreferrer"
  | type : tag = "button" → IsAllowed tag "type" "button"
  | width {n : Nat} : tag = "img" → 1 ≤ n → n ≤ 4294967295 →
      IsAllowed tag "width" (Primitive.decimal n)
  | height {n : Nat} : tag = "img" → 1 ≤ n → n ≤ 4294967295 →
      IsAllowed tag "height" (Primitive.decimal n)
  | source (source : String) : tag = "img" → IsAllowed tag "src" source
  | alt (alt : String) : tag = "img" → IsAllowed tag "alt" alt
  | href (href : String) : tag = "a" → IsAllowed tag "href" href
  | title (command : String) : tag = "button" →
      IsAllowed tag "title" ("Run `" ++ command ++ "`")

/-- An element of the vocabulary: each attribute is allowed and there once,
and its two levels, if it has any, are the same. -/
structure IsSoberElement (tag : String) (attributes : List (String × String)) :
    Prop where
  tag_mem : tag ∈ tags
  allowed : ∀ a ∈ attributes, IsAllowed tag a.1 a.2
  names_nodup : (attributes.map (·.1)).Nodup
  same_level : ∀ level,
    ("data-ui-level", level) ∈ attributes ↔ ("aria-level", level) ∈ attributes

/-- The order of the attributes does not matter. -/
theorem IsSoberElement.perm {tag : String} {as bs : List (String × String)}
    (h : IsSoberElement tag as) (hperm : as.Perm bs) :
    IsSoberElement tag bs where
  tag_mem := h.tag_mem
  allowed a ha := h.allowed a (hperm.mem_iff.mpr ha)
  names_nodup := (hperm.map _).nodup_iff.mp h.names_nodup
  same_level level := by
    rw [← hperm.mem_iff, ← hperm.mem_iff]
    exact h.same_level level

mutual

/-- The elements of a tree, each with its tag and its attributes. -/
def elements : View → List (String × List (String × String))
  | .text _ => []
  | .element tag attributes children =>
    (tag, attributes) :: elementsOf children
termination_by structural view => view

def elementsOf : List View → List (String × List (String × String))
  | [] => []
  | view :: views => view.elements ++ elementsOf views
termination_by structural views => views

end

theorem elementsOf_eq_flatMap (views : List View) :
    elementsOf views = views.flatMap elements := by
  induction views with
  | nil => rfl
  | cons view views ih => rw [elementsOf, ih, List.flatMap_cons]

/-- A tree of such elements. -/
def IsSober (view : View) : Prop :=
  ∀ e ∈ view.elements, IsSoberElement e.1 e.2

theorem isSober_text (content : String) : (View.text content).IsSober :=
  fun _ he => by cases he

theorem isSober_element {tag : String} {attributes : List (String × String)}
    {children : List View} (h : IsSoberElement tag attributes)
    (hchildren : ∀ child ∈ children, child.IsSober) :
    (element tag attributes children).IsSober := by
  intro e he
  rw [elements, elementsOf_eq_flatMap] at he
  rcases List.mem_cons.mp he with rfl | he
  · exact h
  · obtain ⟨child, hchild, he⟩ := List.mem_flatMap.mp he
    exact hchildren child hchild e he

end View

/-! ## The primitives -/

namespace Primitive

open View

section

variable {tag base kind name : String}

theorem className_none (base : String) : className base none = base := rfl

theorem isAllowed_marks (hbase : base ∈ classes) (hkind : kind ∈ kinds) :
    ∀ a ∈ marks base kind none, IsAllowed tag a.1 a.2 := by
  rw [marks, className_none]
  exact List.forall_mem_cons.mpr ⟨.className hbase,
    List.forall_mem_cons.mpr ⟨.primitive,
      List.forall_mem_singleton.mpr (.kind hkind)⟩⟩

theorem isAllowed_optional {α : Type} {token : α → String}
    (h : ∀ x, IsAllowed tag name (token x)) (x : Option α) :
    ∀ a ∈ optional name (x.map token), IsAllowed tag a.1 a.2 := by
  cases x with
  | none => exact fun a ha => by cases ha
  | some x => exact List.forall_mem_singleton.mpr (h x)

/-- The names of the marks, and of the two levels that only a heading has. -/
def commonNames : List String :=
  ["class", "data-ui-primitive", "data-ui-kind", "data-ui-level", "aria-level"]

theorem isSoberElement_marks {own : List (String × String)}
    (htag : tag ∈ tags) (hbase : base ∈ classes) (hkind : kind ∈ kinds)
    (hown : ∀ a ∈ own, IsAllowed tag a.1 a.2)
    (hnames : (commonNames ++ own.map (·.1)).Nodup) :
    IsSoberElement tag (marks base kind none ++ own) := by
  obtain ⟨-, hnodup, hdisjoint⟩ := List.nodup_append.mp hnames
  have habsent : ∀ name ∈ commonNames, ∀ value, (name, value) ∉ own :=
    fun name hname value hmem =>
      hdisjoint name hname name (List.mem_map_of_mem hmem) rfl
  have hmarks : (marks base kind none).map (·.1) ⊆ commonNames := by
    simp [marks, commonNames]
  refine ⟨htag, List.forall_mem_append.mpr
    ⟨isAllowed_marks hbase hkind, hown⟩, ?_, fun level => ?_⟩
  · rw [List.map_append, List.nodup_append]
    exact ⟨by simp [marks], hnodup,
      fun name hname => hdisjoint name (hmarks hname)⟩
  · simp [marks, habsent "data-ui-level" (by decide) level,
      habsent "aria-level" (by decide) level]

theorem isSoberElement_bare (htag : tag ∈ tags) (hbase : base ∈ classes)
    (hkind : kind ∈ kinds) : IsSoberElement tag (marks base kind none) := by
  rw [← List.append_nil (marks base kind none)]
  exact isSoberElement_marks htag hbase hkind (fun a ha => by cases ha)
    (by decide)

end

section

variable {children : List View} (h : ∀ child ∈ children, child.IsSober)

include h

theorem isSober_stack (gap : Gap) : (stack gap none children).IsSober :=
  isSober_element (isSoberElement_marks (by decide) (by decide) (by decide)
    (List.forall_mem_singleton.mpr (.gap gap)) (by simp [commonNames])) h

theorem isSober_cluster (gap : Gap) : (cluster gap none children).IsSober :=
  isSober_element (isSoberElement_marks (by decide) (by decide) (by decide)
    (List.forall_mem_singleton.mpr (.gap gap)) (by simp [commonNames])) h

theorem isSober_grid (gap : Gap) (columns : Columns) (wide : Option Columns)
    (template : Option Template) :
    (grid gap columns wide template none children).IsSober := by
  refine isSober_element ?_ h
  rw [List.append_assoc, List.append_assoc]
  refine isSoberElement_marks (by decide) (by decide) (by decide) ?_ ?_
  · simp only [List.forall_mem_append]
    exact ⟨List.forall_mem_cons.mpr ⟨.gap gap,
        List.forall_mem_singleton.mpr (.columns columns)⟩,
      isAllowed_optional .wideColumns wide,
      isAllowed_optional .template template⟩
  · cases wide <;> cases template <;> simp [commonNames, optional]

theorem isSober_card : (card none children).IsSober :=
  isSober_element
    (isSoberElement_bare (by decide) (by decide) (by decide)) h

theorem isSober_text (tone : Tone) (size : TextSize) (weight : Weight) :
    (text tone size weight none children).IsSober := by
  refine isSober_element (isSoberElement_marks (by decide) (by decide)
    (by decide) ?_ (by simp [commonNames])) h
  exact List.forall_mem_cons.mpr ⟨.tone tone, List.forall_mem_cons.mpr
    ⟨.size size, List.forall_mem_singleton.mpr (.weight weight)⟩⟩

/-- Any level at all is brought into range. -/
theorem isSober_heading (level : Nat) :
    (heading level none children).IsSober := by
  have hlow : 1 ≤ Presentation.clampLevel level := Nat.le_max_left _ _
  have hhigh : Presentation.clampLevel level ≤ 6 := by
    unfold Presentation.clampLevel
    omega
  refine isSober_element ⟨by decide, ?_, ?_, fun l => ?_⟩ h
  · refine List.forall_mem_append.mpr
      ⟨isAllowed_marks (by decide) (by decide), ?_⟩
    exact List.forall_mem_cons.mpr ⟨.level hlow hhigh,
      List.forall_mem_cons.mpr ⟨.role,
        List.forall_mem_singleton.mpr (.ariaLevel hlow hhigh)⟩⟩
  · simp [marks]
  · simp [marks]

theorem isSober_list : (list none children).IsSober :=
  isSober_element
    (isSoberElement_bare (by decide) (by decide) (by decide)) h

theorem isSober_listItem : (listItem children).IsSober :=
  isSober_element
    (isSoberElement_bare (by decide) (by decide) (by decide)) h

theorem isSober_link (href : String) (icon : Option Icon) :
    (link href icon none children).IsSober := by
  refine isSober_element ?_ (List.forall_mem_append.mpr ⟨?_, h⟩)
  · rw [List.append_assoc]
    refine isSoberElement_marks (by decide) (by decide) (by decide) ?_ ?_
    · refine List.forall_mem_append.mpr
        ⟨isAllowed_optional .icon icon, ?_⟩
      exact List.forall_mem_cons.mpr ⟨.href href rfl,
        List.forall_mem_cons.mpr ⟨.target rfl,
          List.forall_mem_singleton.mpr (.rel rfl)⟩⟩
    · cases icon <;> simp [commonNames, optional]
  · cases icon with
    | none => exact fun child hchild => by cases hchild
    | some icon =>
        refine List.forall_mem_singleton.mpr (isSober_element
          ⟨by decide, ?_, by decide, by simp⟩
          (List.forall_mem_singleton.mpr (View.isSober_text icon.glyph)))
        exact List.forall_mem_cons.mpr ⟨.className (by decide),
          List.forall_mem_singleton.mpr .ariaHidden⟩

theorem isSober_commandButton (command : String) :
    (commandButton command none children).IsSober := by
  have hmarks : IsSoberElement "button"
      (marks "ui-command-button" "command-button" none ++
        [("type", "button"), ("title", "Run `" ++ command ++ "`")]) := by
    refine isSoberElement_marks (by decide) (by decide) (by decide) ?_
      (by simp [commonNames])
    exact List.forall_mem_cons.mpr ⟨.type rfl,
      List.forall_mem_singleton.mpr (.title command rfl)⟩
  exact isSober_element (hmarks.perm List.perm_middle) h

end

theorem isSober_image (source alt : String) {width height : Nat}
    (rounded : Bool) (hwidth : 1 ≤ width ∧ width ≤ 4294967295)
    (hheight : 1 ≤ height ∧ height ≤ 4294967295) :
    (image source alt width height rounded none).IsSober := by
  refine isSober_element (isSoberElement_marks (by decide) (by decide)
    (by decide) ?_ (by simp [commonNames]))
    (fun child hchild => by cases hchild)
  exact List.forall_mem_cons.mpr ⟨.rounded rounded, List.forall_mem_cons.mpr
    ⟨.source source rfl, List.forall_mem_cons.mpr ⟨.alt alt rfl,
      List.forall_mem_cons.mpr ⟨.width rfl hwidth.1 hwidth.2,
        List.forall_mem_singleton.mpr (.height rfl hheight.1 hheight.2)⟩⟩⟩⟩

end Primitive

/-! ## Sizes -/

namespace Element

theorem natural?_le {e : Element} {key : String} {n : Nat}
    (h : e.natural? key = some n) : n ≤ Number.maxUInt32 := by
  obtain ⟨value, -, hvalue⟩ := Option.bind_eq_some_iff.mp h
  obtain ⟨x, -, hx⟩ := Option.bind_eq_some_iff.mp hvalue
  exact (Number.toUInt32?_eq_some_iff.mp hx).2

theorem dimension_range (e : Element) (key : String) :
    1 ≤ e.dimension key ∧ e.dimension key ≤ 4294967295 := by
  unfold dimension
  cases hfound : (e.natural? key).filter (0 < ·) with
  | none => exact ⟨by decide, by decide⟩
  | some n =>
      obtain ⟨hn, hpos⟩ := Option.filter_eq_some_iff.mp hfound
      exact ⟨of_decide_eq_true hpos, natural?_le hn⟩

end Element

namespace Presentation

/-- The sizes of an image are in range. -/
def InRange : Presentation → Prop
  | .image _ _ width height _ =>
    (1 ≤ width ∧ width ≤ 4294967295) ∧ 1 ≤ height ∧ height ≤ 4294967295
  | _ => True

theorem isSober_view {p : Presentation} (hp : p.InRange) {views : List View}
    (h : ∀ view ∈ views, view.IsSober) : (p.view views).IsSober := by
  cases p with
  | plain content | fallback content =>
      refine View.isSober_element ⟨by decide, ?_, by decide, by simp⟩
        (List.forall_mem_singleton.mpr (View.isSober_text content))
      exact List.forall_mem_singleton.mpr (.className (by decide))
  | vstack gap => exact Primitive.isSober_stack h gap
  | hstack gap => exact Primitive.isSober_cluster h gap
  | grid gap base wide template =>
      exact Primitive.isSober_grid h gap base wide template
  | card => exact Primitive.isSober_card h
  | heading level => exact Primitive.isSober_heading h level
  | text tone size weight => exact Primitive.isSober_text h tone size weight
  | image source alt _ _ rounded =>
      exact Primitive.isSober_image source alt rounded hp.1 hp.2
  | link href icon => exact Primitive.isSober_link h href icon
  | command line nodes =>
      refine Primitive.isSober_commandButton ?_ line
      split
      · exact List.forall_mem_singleton.mpr (View.isSober_text line)
      · exact h
  | list =>
      refine Primitive.isSober_list fun item hitem => ?_
      obtain ⟨view, hview, rfl⟩ := List.mem_map.mp hitem
      exact Primitive.isSober_listItem
        (List.forall_mem_singleton.mpr (h view hview))

end Presentation

theorem Element.inRange_present (e : Element) : e.present.InRange := by
  unfold present
  split
  case h_7 => exact ⟨e.dimension_range "width", e.dimension_range "height"⟩
  case h_8 => split <;> exact trivial
  all_goals exact trivial

/-- Every element in the view of a document has a tag of the vocabulary, and
only attributes that the tag may have, each with a value that it may have. -/
theorem view_stays_in_vocabulary (node : Node) :
    ∀ e ∈ node.view.elements, View.IsSoberElement e.1 e.2 := by
  induction node using Node.induct with
  | text content =>
      have hrange : (Presentation.plain content).InRange := trivial
      exact Presentation.isSober_view hrange (List.forall_mem_nil _)
  | element name attributes children ih =>
      rw [Node.view_eq_render, Node.present, Presentation.render]
      refine Presentation.isSober_view (Element.inRange_present _)
        fun view hview => ?_
      obtain ⟨child, hchild, rfl⟩ := List.mem_map.mp hview
      -- A presentation shows all children of its element or none of them.
      rcases Element.children_present { name, attributes, children } with
        heq | heq
      · rw [heq] at hchild
        exact ih child hchild
      · rw [heq] at hchild
        cases hchild

/-- A heading far above the levels, around an image that would like to have a
class, a width that is no number and no height. -/
def intrusive : Node :=
  ((Element.named "Heading").setNat "level" 4000000000 |>.push
    ((Element.named "Image").setText "src" "\"><b>" |>.setText "class" "x"
      |>.set "width" (.number .notANumber) |>.setNat "height" 0).toNode).toNode

/-- What the image is shown with. -/
def tamed : List (String × String) :=
  [("class", "ui-image"), ("data-ui-primitive", "true"),
    ("data-ui-kind", "image"), ("data-ui-rounded", "false"),
    ("src", "\"><b>"), ("alt", ""), ("width", "128"), ("height", "128")]

theorem intrusive_is_tamed :
    ("img", tamed) ∈ intrusive.view.elements ∧
      View.IsSoberElement "img" tamed := by
  have hmem : ("img", tamed) ∈ intrusive.view.elements := by decide +kernel
  exact ⟨hmem, view_stays_in_vocabulary intrusive _ hmem⟩

end PageShell
