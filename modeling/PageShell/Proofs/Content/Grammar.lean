import PageShell.Command.Builtin
import PageShell.Proofs.Number.Whole
import PageShell.Proofs.Presentation.Recognised

/-!
# What the content is made of

The documents that the commands answer are made of texts and of elements that
a page knows, with attributes that it recognises, and every number in them is
a small whole one. `Node.IsContent` says so, with a bound on how deep the
elements are in each other. There is one lemma for each way to put an element
together and one for each kind of element, and from there on a document is
content because its parts are. None of them asks what is written in it, how
many publications there are, or which commands are listed.

What follows from being content is another matter, and is shown by induction
over `Node.IsContent`, without looking at any document again.
-/

namespace PageShell

/-! ## Trees -/

/-- An element's attributes are recognised, and their numbers small. -/
def Attributes.IsContentOf (name : String) (attrs : Attributes) : Prop :=
  ∀ a ∈ attrs.entries, Element.recognises name a.1 a.2 = true ∧
    ∀ x, a.2.number? = some x → x.IsSmallWhole

/-- Texts and known elements, these at most so deep in each other. -/
inductive Node.IsContent : (depth : Nat) → Node → Prop where
  | text {depth : Nat} (content : String) : IsContent depth (.text content)
  | element {depth : Nat} {e : Element} : e.IsKnown →
      e.attributes.IsContentOf e.name →
      (∀ child ∈ e.children, IsContent depth child) →
      IsContent (depth + 1) e.toNode

/-- An element of a name that is put together: what it has so far is
content. -/
structure Element.IsDraft (name : String) (depth : Nat) (e : Element) :
    Prop where
  name_eq : e.name = name
  attributes : e.attributes.IsContentOf name
  children : ∀ child ∈ e.children, child.IsContent depth

variable {depth : Nat} {name : String}

namespace Element

variable {e : Element} {children : List Node}

theorem isDraft_named (name : String) : (named name).IsDraft name depth :=
  ⟨rfl, fun _ ha => absurd ha List.not_mem_nil,
    fun _ hchild => absurd hchild List.not_mem_nil⟩

namespace IsDraft

theorem set (h : e.IsDraft name depth) {key : String} {value : AttrValue}
    (hvalue : recognises name key value = true)
    (hsmall : ∀ x, value.number? = some x → x.IsSmallWhole) :
    (e.set key value).IsDraft name depth := by
  refine ⟨h.name_eq, fun a ha => ?_, h.children⟩
  rcases Attributes.mem_insertSorted ha with rfl | ha
  · exact ⟨hvalue, hsmall⟩
  · exact h.attributes a ha

theorem setText (h : e.IsDraft name depth) {key value : String}
    (hvalue : recognises name key (.text value) = true) :
    (e.setText key value).IsDraft name depth :=
  h.set hvalue fun _ hx => by cases hx

theorem setNat (h : e.IsDraft name depth) {key : String} {n : Nat}
    (hn : recognises name key (.number (.ofNat n)) = true ∧
      n ≤ Number.maxUInt32) : (e.setNat key n).IsDraft name depth := by
  refine h.set hn.1 fun x hx => ?_
  cases hx
  exact Number.isSmallWhole_ofNat hn.2

theorem append (h : e.IsDraft name depth)
    (hchildren : ∀ child ∈ children, child.IsContent depth) :
    (e.append children).IsDraft name depth :=
  ⟨h.name_eq, h.attributes, List.forall_mem_append.mpr ⟨h.children, hchildren⟩⟩

theorem push (h : e.IsDraft name depth) {child : Node}
    (hchild : child.IsContent depth) : (e.push child).IsDraft name depth :=
  h.append (List.forall_mem_singleton.mpr hchild)

theorem toNode (h : e.IsDraft name depth)
    (hname : name ∈ vocabulary ∧ name ≠ "Link") :
    e.toNode.IsContent (depth + 1) := by
  obtain ⟨rfl, hattrs, hchildren⟩ := h
  exact .element ⟨hname.1, fun heq => absurd heq hname.2⟩ hattrs hchildren

end IsDraft

end Element

/-! ## The elements of the page -/

namespace Markup

open Element (isDraft_named recognises)

variable {children : List Node}

theorem isContent_vstack {gap : Nat}
    (hgap : recognises "VStack" "gap" (.number (.ofNat gap)) = true ∧
      gap ≤ Number.maxUInt32)
    (h : ∀ child ∈ children, child.IsContent depth) :
    (vstack gap children).IsContent (depth + 1) :=
  (((isDraft_named _).setNat hgap).append h).toNode (by decide)

theorem isContent_hstack {gap : Nat}
    (hgap : recognises "HStack" "gap" (.number (.ofNat gap)) = true ∧
      gap ≤ Number.maxUInt32)
    (h : ∀ child ∈ children, child.IsContent depth) :
    (hstack gap children).IsContent (depth + 1) :=
  (((isDraft_named _).setNat hgap).append h).toNode (by decide)

theorem isContent_card (h : ∀ child ∈ children, child.IsContent depth) :
    (card children).IsContent (depth + 1) :=
  ((isDraft_named _).append h).toNode (by decide)

theorem isContent_list (h : ∀ child ∈ children, child.IsContent depth) :
    (list children).IsContent (depth + 1) :=
  ((isDraft_named _).append h).toNode (by decide)

theorem isDraft_text (content : String) :
    (text content).IsDraft "Text" depth :=
  (isDraft_named _).push (.text content)

theorem isContent_heading {level : Nat}
    (hlevel : recognises "Heading" "level" (.number (.ofNat level)) = true ∧
      level ≤ Number.maxUInt32) (content : String) :
    (heading level content).IsContent (depth + 1) :=
  (((isDraft_named _).setNat hlevel).push (.text content)).toNode (by decide)

theorem isContent_link {icon : String}
    (hicon : recognises "Link" "icon" (.text icon) = true)
    (href label : String) : (link href icon label).IsContent (depth + 1) := by
  have hdraft : (((Element.named "Link").setText "href" href).setText "icon"
      icon |>.push (.text label)).IsDraft "Link" depth :=
    (((isDraft_named _).setText rfl).setText hicon).push (.text label)
  refine .element ⟨List.mem_of_elem_eq_true rfl, fun _ => ?_⟩
    hdraft.attributes hdraft.children
  simp [Element.text?, Element.get?, Element.push, Element.append,
    Element.setText, Element.set, AttrValue.text?]

theorem isContent_commandButton (command : String) :
    (commandButton command).IsContent (depth + 1) :=
  (((isDraft_named _).setText rfl).push (.text command)).toNode (by decide)

end Markup

/-! ## What the commands answer -/

open Element (isDraft_named recognises)

theorem isContent_helpListing (summaries : List CommandSummary) :
    (helpListing summaries).IsContent (depth + 4) := by
  refine Markup.isContent_vstack (by decide +kernel)
    (List.forall_mem_cons.mpr
      ⟨(Markup.isDraft_text _).toNode (by decide),
        List.forall_mem_singleton.mpr
          (Markup.isContent_list fun item hitem => ?_)⟩)
  obtain ⟨summary, -, rfl⟩ := List.mem_map.mp hitem
  refine Markup.isContent_hstack (by decide +kernel)
    (List.forall_mem_cons.mpr ⟨Markup.isContent_commandButton _,
      List.forall_mem_singleton.mpr ?_⟩)
  exact ((Markup.isDraft_text _).setText (by rfl)).toNode (by decide)

theorem Profile.isContent_portrait : portrait.IsContent (depth + 1) :=
  ((((((isDraft_named _).setText (by rfl)).setText (by rfl)).setNat
    (by decide +kernel)).setNat (by decide +kernel)).setNat
      (by decide +kernel)).toNode (by decide)

theorem Profile.isContent_about : about.IsContent (depth + 2) := by
  refine Markup.isContent_vstack (by decide +kernel)
    (List.forall_mem_cons.mpr ⟨?_, List.forall_mem_cons.mpr
      ⟨?_, List.forall_mem_singleton.mpr ?_⟩⟩)
  · exact (((Markup.isDraft_text _).setText (by rfl)).setText
      (by rfl)).toNode (by decide)
  · exact ((Markup.isDraft_text _).setText (by rfl)).toNode (by decide)
  · exact ((Markup.isDraft_text _).setText (by rfl)).toNode (by decide)

theorem Profile.isContent_profileCard :
    profileCard.IsContent (depth + 4) := by
  refine Markup.isContent_card (List.forall_mem_singleton.mpr ?_)
  have hparts : ∀ child ∈ [portrait, about], child.IsContent (depth + 2) :=
    List.forall_mem_cons.mpr
      ⟨isContent_portrait, List.forall_mem_singleton.mpr isContent_about⟩
  exact ((((isDraft_named _).setNat (by decide +kernel)).setNat
    (by decide +kernel)).setText (by rfl) |>.append hparts).toNode
      (by decide)

namespace News

theorem Publication.isContent_toNode {publication : Publication}
    (h : ∀ link ∈ publication.links,
      recognises "Link" "icon" (.text link.icon) = true) :
    publication.toNode.IsContent (depth + 3) := by
  refine Markup.isContent_vstack (by decide +kernel)
    (List.forall_mem_cons.mpr
      ⟨(Markup.isDraft_text _).toNode (by decide),
        List.forall_mem_singleton.mpr (Markup.isContent_hstack
          (by decide +kernel) fun item hitem => ?_)⟩)
  obtain ⟨link, hlink, rfl⟩ := List.mem_map.mp hitem
  exact Markup.isContent_link (h link hlink) _ _

/-- The icons are data too, and have to be among those that there are. -/
theorem recognises_icon : ∀ publication ∈ publications,
    ∀ link ∈ publication.links,
      recognises "Link" "icon" (.text link.icon) = true := by
  decide +kernel

theorem isContent_publicationsSection (title : String) (limit : Nat) :
    (publicationsSection title limit).IsContent (depth + 5) := by
  refine Markup.isContent_vstack (by decide +kernel)
    (List.forall_mem_cons.mpr
      ⟨Markup.isContent_heading (by decide +kernel) _,
        List.forall_mem_singleton.mpr (Markup.isContent_vstack
          (by decide +kernel) fun item hitem => ?_)⟩)
  obtain ⟨publication, hmem, rfl⟩ := List.mem_map.mp hitem
  exact Publication.isContent_toNode
    (recognises_icon publication (List.mem_of_mem_take hmem))

theorem isContent_honorsSection (title : String) (limit : Nat) :
    (honorsSection title limit).IsContent (depth + 2) := by
  refine Markup.isContent_vstack (by decide +kernel)
    (List.forall_mem_cons.mpr
      ⟨Markup.isContent_heading (by decide +kernel) _,
        List.forall_mem_singleton.mpr
          (Markup.isContent_list fun item hitem => ?_)⟩)
  obtain ⟨honor, -, rfl⟩ := List.mem_map.mp hitem
  exact .text honor

theorem isContent_newsCard : newsCard.IsContent (depth + 7) := by
  refine Markup.isContent_card (List.forall_mem_singleton.mpr ?_)
  have hsections : ∀ child ∈
      [publicationsSection "Recent publications" recentPublications,
        honorsSection "Recent honors" recentHonors],
      child.IsContent (depth + 5) :=
    List.forall_mem_cons.mpr ⟨isContent_publicationsSection _ _,
      List.forall_mem_singleton.mpr (isContent_honorsSection _ _)⟩
  exact ((((isDraft_named _).setNat (by decide +kernel)).setNat
    (by decide +kernel)).setNat (by decide +kernel)
      |>.append hsections).toNode (by decide)

theorem isContent_researchCard : researchCard.IsContent (depth + 6) :=
  Markup.isContent_card (List.forall_mem_singleton.mpr
    (isContent_publicationsSection _ _))

theorem isContent_honorsCard : honorsCard.IsContent (depth + 3) :=
  Markup.isContent_card (List.forall_mem_singleton.mpr
    (isContent_honorsSection _ _))

end News

/-- Whatever the arguments are, a command answers content. -/
theorem Builtin.isContent_answer (builtin : Builtin)
    (arguments : List String) :
    ∀ node ∈ (builtin.answer arguments).nodes, node.IsContent 7 := by
  cases builtin with
  | echo => exact List.forall_mem_singleton.mpr (.text _)
  | help => exact List.forall_mem_singleton.mpr (isContent_helpListing _)
  | fetch =>
      exact List.forall_mem_singleton.mpr Profile.isContent_profileCard
  | news => exact List.forall_mem_singleton.mpr News.isContent_newsCard
  | research =>
      exact List.forall_mem_singleton.mpr News.isContent_researchCard
  | honors => exact List.forall_mem_singleton.mpr News.isContent_honorsCard

end PageShell
