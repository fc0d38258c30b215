import Mathlib.Data.List.Forall2
import PageShell.Proofs.Document.Attributes
import PageShell.Proofs.Document.RoundTrip

/-!
# Which JSON values are documents

The two kinds of trees have overlapping JSON forms, an object or an array
each, and the reader tries the leaf first. `Json.Denotes` says what is left
when all is tried, without any order: a leaf is an object with nothing but one
text, or an array of nothing but one string; an element is any object with one
name, whatever else it holds, as long as `attrs` and `children` are not
repeated and are what they should be, or an array that lists these parts. No
value is both, since a leaf has no name and a list of parts has two or three
items.

Of the members of an object only three keys count, each on its own, although
they are read in one pass. That is the one lemma with an induction over
members (`Node.ofMembers?_eq_some_iff`): a pass fills three slots, and what it
does to a slot depends on the values of its key alone.
-/

namespace PageShell

namespace Json

/-- A leaf: an object whose only member is its text, or an array of nothing
but its text. -/
inductive IsLeaf : Json → String → Prop where
  | object (content : String) :
      IsLeaf (.object [("text", .string content)]) content
  | array (content : String) : IsLeaf (.array [.string content]) content

/-- The parts of an element: its name, the members of its attributes and the
values of its children. An object has one name and each of the other two at
most once; an array lists the parts, the children being optional. A part that
is left out is empty. -/
inductive HasParts :
    Json → String → List (String × Json) → List Json → Prop where
  | object {members : List (String × Json)} {name : String}
      {attrs : List (String × Json)} {children : List Json} :
      valuesOf "name" members = [.string name] →
      (valuesOf "attrs" members = [] ∧ attrs = [] ∨
        valuesOf "attrs" members = [.object attrs]) →
      (valuesOf "children" members = [] ∧ children = [] ∨
        valuesOf "children" members = [.array children]) →
      HasParts (.object members) name attrs children
  | pair (name : String) (attrs : List (String × Json)) :
      HasParts (.array [.string name, .object attrs]) name attrs []
  | triple (name : String) (attrs : List (String × Json))
      (children : List Json) :
      HasParts (.array [.string name, .object attrs, .array children])
        name attrs children

/-- The tree that a value stands for. -/
inductive Denotes : Json → Node → Prop where
  | leaf {j : Json} {content : String} :
      j.IsLeaf content → Denotes j (.text content)
  | element {j : Json} {name : String} {members : List (String × Json)}
      {items : List Json} {attributes : Attributes} {children : List Node} :
      j.HasParts name members items → attributes.SetBy members →
      List.Forall₂ Denotes items children →
      Denotes j (.element name attributes children)

def text? : Json → Option String
  | .string content => some content
  | _ => none

theorem text?_eq_some_iff {j : Json} {content : String} :
    j.text? = some content ↔ j = .string content := by
  cases j <;> simp [text?]

end Json

/-! ## The three slots of an element -/

/-- Reads the values of a key into a slot that holds one at most. -/
def Element.fill {α : Type} (read : Json → Option α) :
    Option α → List Json → Option (Option α)
  | slot, [] => some slot
  | slot, j :: js =>
    match slot, read j with
    | none, some x => fill read (some x) js
    | _, _ => none

theorem Element.fill_none_eq_some_iff {α : Type} {read : Json → Option α}
    {js : List Json} {slot : Option α} :
    fill read none js = some slot ↔
      js = [] ∧ slot = none ∨ ∃ j x, js = [j] ∧ read j = some x ∧
        slot = some x := by
  cases js with
  | nil => simp [fill, eq_comm]
  | cons j js =>
      cases hread : read j with
      | none => simp [fill, hread]
      | some x => cases js <;> simp [fill, hread, eq_comm]

/-- A slot for an optional part, filled and then read with a default: there
is no value and the part is empty, or there is one and it has the form of the
part. -/
theorem Element.fill_optional_iff {α β : Type} {read : Json → Option α}
    {form : List β → Json} {made : List β → α → Prop}
    (hread : ∀ j x, read j = some x ↔ ∃ part, j = form part ∧ made part x)
    {default : α} (hdefault : ∀ x, made [] x ↔ x = default)
    {js : List Json} {x : α} :
    (∃ slot, fill read none js = some slot ∧ slot.getD default = x) ↔
      ∃ part, (js = [] ∧ part = [] ∨ js = [form part]) ∧ made part x := by
  constructor
  · rintro ⟨slot, hfill, rfl⟩
    rcases fill_none_eq_some_iff.mp hfill with
      ⟨rfl, rfl⟩ | ⟨j, y, rfl, hy, rfl⟩
    · exact ⟨[], .inl ⟨rfl, rfl⟩, (hdefault _).mpr rfl⟩
    · obtain ⟨part, rfl, hmade⟩ := (hread j y).mp hy
      exact ⟨part, .inr rfl, hmade⟩
  · rintro ⟨part, ⟨rfl, rfl⟩ | rfl, hmade⟩
    · exact ⟨none, rfl, ((hdefault x).mp hmade).symm⟩
    · have hx : read (form part) = some x :=
        (hread _ x).mpr ⟨part, rfl, hmade⟩
      exact ⟨some x, fill_none_eq_some_iff.mpr (.inr ⟨_, x, rfl, hx, rfl⟩),
        rfl⟩

theorem Element.fill_text_iff {js : List Json} {name : String} :
    fill Json.text? none js = some (some name) ↔ js = [.string name] := by
  rw [fill_none_eq_some_iff]
  constructor
  · rintro (⟨-, hnone⟩ | ⟨j, x, rfl, hx, hname⟩)
    · cases hnone
    · cases hname
      rw [Json.text?_eq_some_iff.mp hx]
  · rintro rfl
    exact .inr ⟨_, name, rfl, rfl, rfl⟩

theorem Element.Draft.toNode?_eq_some_iff {draft : Element.Draft}
    {name : String} {attributes : Attributes} {children : List Node} :
    draft.toNode? = some (.element name attributes children) ↔
      draft.name = some name ∧ draft.attributes.getD .empty = attributes ∧
        draft.children.getD [] = children := by
  simp [toNode?]

theorem Attributes.setBy_nil_iff {attrs : Attributes} :
    attrs.SetBy [] ↔ attrs = .empty := by
  rw [← ofMembers?_eq_some_iff, ofMembers?, Option.some.injEq, eq_comm]

theorem Attributes.ofJson?_eq_some_iff (j : Json) (attrs : Attributes) :
    ofJson? j = some attrs ↔
      ∃ members, j = .object members ∧ attrs.SetBy members := by
  cases j with
  | object members => simp [ofJson?, ofMembers?_eq_some_iff]
  | null | bool _ | number _ | string _ | array _ => simp [ofJson?]

namespace Node

open Json (valuesOf)

theorem ofMembers?_eq_some_iff {draft result : Element.Draft}
    {ms : List (String × Json)} :
    ofMembers? draft ms = some result ↔
      Element.fill Json.text? draft.name (valuesOf "name" ms) =
        some result.name ∧
      Element.fill Attributes.ofJson? draft.attributes
        (valuesOf "attrs" ms) = some result.attributes ∧
      Element.fill childrenOfJson? draft.children
        (valuesOf "children" ms) = some result.children := by
  induction ms generalizing draft with
  | nil =>
      cases draft
      cases result
      simp [ofMembers?, Json.valuesOf_nil, Element.fill]
  | cons m ms ih =>
      obtain ⟨key, j⟩ := m
      rw [ofMembers?.eq_def]
      simp only [Json.valuesOf_cons]
      by_cases hname : key = "name"
      · subst hname
        simp only [String.reduceEq, if_true, if_false, Element.fill]
        cases draft.name with
        | some name => simp
        | none => cases j <;> simp [Json.text?, ih]
      by_cases hattrs : key = "attrs"
      · subst hattrs
        simp only [String.reduceEq, if_true, if_false, Element.fill]
        cases draft.attributes with
        | some attributes => simp
        | none => cases Attributes.ofJson? j <;> simp [ih]
      by_cases hchildren : key = "children"
      · subst hchildren
        simp only [String.reduceEq, if_true, if_false, Element.fill]
        cases draft.children with
        | some children => simp
        | none => cases childrenOfJson? j <;> simp [ih]
      · rw [if_neg hname, if_neg hattrs, if_neg hchildren, if_neg hname,
          if_neg hattrs, if_neg hchildren]
        exact ih

theorem childrenOfJson?_eq_some_iff (j : Json) (children : List Node) :
    childrenOfJson? j = some children ↔
      ∃ items, j = .array items ∧ listOfJson? items = some children := by
  cases j with
  | array items => simp [childrenOfJson?]
  | null | bool _ | number _ | string _ | object _ => simp [childrenOfJson?]

theorem fill_attributes_iff {js : List Json} {attributes : Attributes} :
    (∃ slot, Element.fill Attributes.ofJson? none js = some slot ∧
        slot.getD .empty = attributes) ↔
      ∃ attrs, (js = [] ∧ attrs = [] ∨ js = [.object attrs]) ∧
        attributes.SetBy attrs :=
  Element.fill_optional_iff Attributes.ofJson?_eq_some_iff
    fun _ => Attributes.setBy_nil_iff

theorem fill_children_iff {js : List Json} {children : List Node} :
    (∃ slot, Element.fill childrenOfJson? none js = some slot ∧
        slot.getD [] = children) ↔
      ∃ items, (js = [] ∧ items = [] ∨ js = [.array items]) ∧
        listOfJson? items = some children :=
  Element.fill_optional_iff childrenOfJson?_eq_some_iff
    fun x => by simp only [listOfJson?, Option.some.injEq, eq_comm]

/-! ## One level of a tree -/

theorem ofJson?_eq_leaf_iff {j : Json} {content : String} :
    ofJson? j = some (.text content) ↔ j.IsLeaf content := by
  constructor
  · intro h
    rw [ofJson?.eq_def] at h
    split at h
    · cases h
      exact .object content
    · -- What the members of an object make is an element.
      obtain ⟨draft, -, hdraft⟩ := Option.bind_eq_some_iff.mp h
      simp [Element.Draft.toNode?] at hdraft
    · cases h
      exact .array content
    · simp at h
    · split at h <;> simp at h
    · cases h
  · rintro (_ | _) <;> rfl

variable {name : String} {attributes : Attributes} {children : List Node}

theorem ofMembers?_eq_element_iff {members : List (String × Json)} :
    (ofMembers? {} members).bind Element.Draft.toNode? =
        some (.element name attributes children) ↔
      ∃ attrs items, (Json.object members).HasParts name attrs items ∧
        attributes.SetBy attrs ∧ listOfJson? items = some children := by
  constructor
  · intro h
    obtain ⟨draft, hdraft, hnode⟩ := Option.bind_eq_some_iff.mp h
    obtain ⟨hname, hattrs, hchildren⟩ := ofMembers?_eq_some_iff.mp hdraft
    obtain ⟨hname', hattrs', hchildren'⟩ :=
      Element.Draft.toNode?_eq_some_iff.mp hnode
    rw [hname'] at hname
    obtain ⟨attrs, hattrs, hset⟩ :=
      fill_attributes_iff.mp ⟨_, hattrs, hattrs'⟩
    obtain ⟨items, hitems, hread⟩ :=
      fill_children_iff.mp ⟨_, hchildren, hchildren'⟩
    exact ⟨attrs, items,
      .object (Element.fill_text_iff.mp hname) hattrs hitems, hset, hread⟩
  · rintro ⟨attrs, items, hparts, hset, hread⟩
    cases hparts with
    | object hname hattrs hitems =>
        obtain ⟨slot, hslot, hattrs'⟩ :=
          fill_attributes_iff.mpr ⟨attrs, hattrs, hset⟩
        obtain ⟨slot', hslot', hchildren'⟩ :=
          fill_children_iff.mpr ⟨items, hitems, hread⟩
        have hdraft : ofMembers? {} members = some ⟨some name, slot, slot'⟩ :=
          ofMembers?_eq_some_iff.mpr
            ⟨Element.fill_text_iff.mpr hname, hslot, hslot'⟩
        rw [hdraft]
        exact Element.Draft.toNode?_eq_some_iff.mpr
          ⟨rfl, hattrs', hchildren'⟩

/-- What an element is made of, its children being read in their turn. -/
theorem ofJson?_eq_element_iff {j : Json} :
    ofJson? j = some (.element name attributes children) ↔
      ∃ members items, j.HasParts name members items ∧
        attributes.SetBy members ∧ listOfJson? items = some children := by
  constructor
  · intro h
    rw [ofJson?.eq_def] at h
    split at h
    · cases h
    · exact ofMembers?_eq_element_iff.mp h
    · cases h
    · next name' j =>
        obtain ⟨attrs, hattrs, hnode⟩ := Option.map_eq_some_iff.mp h
        cases hnode
        obtain ⟨members, rfl, hset⟩ :=
          (Attributes.ofJson?_eq_some_iff j _).mp hattrs
        exact ⟨members, [], .pair _ members, hset, rfl⟩
    · next name' j j' =>
        split at h
        · next attrs nodes hattrs hchildren =>
            cases h
            obtain ⟨members, rfl, hset⟩ :=
              (Attributes.ofJson?_eq_some_iff j _).mp hattrs
            obtain ⟨items, rfl, hread⟩ :=
              (childrenOfJson?_eq_some_iff j' _).mp hchildren
            exact ⟨members, items, .triple _ members items, hset, hread⟩
        · cases h
    · cases h
  · rintro ⟨members, items, hparts, hset, hread⟩
    have hattrs (members : List (String × Json))
        (h : attributes.SetBy members) :
        Attributes.ofJson? (.object members) = some attributes :=
      (Attributes.ofJson?_eq_some_iff _ _).mpr ⟨members, rfl, h⟩
    cases hparts with
    | object hname hattrs' hitems =>
        rw [ofJson?_object]
        · exact ofMembers?_eq_element_iff.mpr
            ⟨members, items, .object hname hattrs' hitems, hset, hread⟩
        · -- A leaf has no name.
          rintro content rfl
          cases hname
    | pair _ members =>
        cases hread
        rw [ofJson?, hattrs members hset]
        rfl
    | triple _ members items =>
        have hchildren : childrenOfJson? (.array items) = some children :=
          (childrenOfJson?_eq_some_iff _ _).mpr ⟨items, rfl, hread⟩
        simp only [ofJson?, hattrs members hset, hchildren]

theorem listOfJson?_cons_iff {j : Json} {js : List Json} {node : Node}
    {nodes : List Node} :
    listOfJson? (j :: js) = some (node :: nodes) ↔
      ofJson? j = some node ∧ listOfJson? js = some nodes := by
  rw [listOfJson?]
  cases ofJson? j <;> cases listOfJson? js <;> simp

/-! ## Whole trees -/

mutual

/-- Reading accepts what stands for a tree, and makes that tree of it. -/
theorem ofJson?_eq_some_iff (j : Json) (node : Node) :
    ofJson? j = some node ↔ j.Denotes node := by
  cases node with
  | text content =>
      rw [ofJson?_eq_leaf_iff]
      constructor
      · exact fun h => .leaf h
      · rintro ⟨h⟩
        exact h
  | element name attributes children =>
      rw [ofJson?_eq_element_iff]
      constructor
      · rintro ⟨members, items, hparts, hset, hread⟩
        exact .element hparts hset
          ((listOfJson?_eq_some_iff items children).mp hread)
      · rintro (_ | ⟨hparts, hset, hall⟩)
        exact ⟨_, _, hparts, hset,
          (listOfJson?_eq_some_iff _ children).mpr hall⟩
termination_by structural node

theorem listOfJson?_eq_some_iff (items : List Json) (nodes : List Node) :
    listOfJson? items = some nodes ↔
      List.Forall₂ Json.Denotes items nodes := by
  cases nodes with
  | nil =>
      rw [List.forall₂_nil_right_iff]
      cases items with
      | nil => simp only [listOfJson?]
      | cons j js =>
          rw [listOfJson?]
          split <;> simp
  | cons node nodes =>
      cases items with
      | nil => simp [listOfJson?]
      | cons j js =>
          rw [listOfJson?_cons_iff, List.forall₂_cons,
            ofJson?_eq_some_iff j node, listOfJson?_eq_some_iff js nodes]
termination_by structural nodes

end

/-- A text that holds a value holds the tree it stands for, or none. -/
theorem ofText_of_json {text : String} {j : Json}
    (h : Json.ofText text = .ok j) :
    ofText text = orComplain "Node" (ofJson? j) := by
  obtain ⟨r, hread, hskip⟩ := Json.readAll_eq_ok.mp h
  rw [ofText, Json.readAll]
  simp only [read, hread, bind, Except.bind]
  cases ofJson? j with
  | none => rfl
  | some node => simp only [hskip, orComplain]

theorem exists_forall₂_denotes_iff {items : List Json} :
    (∃ children, List.Forall₂ Json.Denotes items children) ↔
      ∀ j ∈ items, ∃ node, j.Denotes node := by
  induction items with
  | nil => simp
  | cons j items ih => simp [List.forall₂_cons_left_iff, ← ih]

/-- A JSON value is read as a tree exactly if it stands for one. It is a leaf
if it is nothing but a text, and an element if it has the parts of one, its
attributes being texts, numbers or `null` and its children trees in their
turn; the attributes are those that the last members with their names set,
and the children are in order. From a text that holds any other value no tree
is read. -/
theorem read_exactly_what_denotes (j : Json) :
    (∀ content, ofJson? j = some (.text content) ↔ j.IsLeaf content) ∧
    (∀ name attributes children,
      ofJson? j = some (.element name attributes children) ↔
        ∃ members items, j.HasParts name members items ∧
          attributes.SetBy members ∧
          List.Forall₂ Json.Denotes items children) ∧
    ((∃ name attributes children,
      ofJson? j = some (.element name attributes children)) ↔
        ∃ name members items, j.HasParts name members items ∧
          (∀ m ∈ members, ∃ value, m.2.Sets value) ∧
          ∀ i ∈ items, ∃ node, i.Denotes node) ∧
    (∀ node, ofJson? j = some node ↔ j.Denotes node) ∧
    ∀ text, Json.ofText text = .ok j →
      (∀ node, ofText text = .ok node ↔ j.Denotes node) ∧
      ((∀ node, ¬ j.Denotes node) →
        ofText text = .error (.shape (.noAlternative "Node"))) := by
  have helement (name : String) (attributes : Attributes)
      (children : List Node) :
      ofJson? j = some (.element name attributes children) ↔
        ∃ members items, j.HasParts name members items ∧
          attributes.SetBy members ∧
          List.Forall₂ Json.Denotes items children := by
    simp only [ofJson?_eq_element_iff, listOfJson?_eq_some_iff]
  refine ⟨fun content => ofJson?_eq_leaf_iff, helement, ?_,
    ofJson?_eq_some_iff j, fun text htext => ?_⟩
  · simp only [helement]
    constructor
    · rintro ⟨name, attributes, children, members, items, hparts, hset, hall⟩
      exact ⟨name, members, items, hparts, hset.each,
        exists_forall₂_denotes_iff.mp ⟨children, hall⟩⟩
    · rintro ⟨name, members, items, hparts, heach, hitems⟩
      obtain ⟨attributes, hread⟩ :=
        (Attributes.exists_ofMembers?_iff .empty).mpr heach
      obtain ⟨children, hall⟩ := exists_forall₂_denotes_iff.mpr hitems
      exact ⟨name, attributes, children, members, items, hparts,
        Attributes.ofMembers?_eq_some_iff.mp hread, hall⟩
  · rw [ofText_of_json htext]
    simp only [← ofJson?_eq_some_iff]
    cases ofJson? j with
    | none => simp [orComplain]
    | some node => simp [orComplain]

end Node

/-- An element whose parts are out of order and not alone, with children in
the form of arrays. -/
def Json.shuffled : Json :=
  .object [
    ("children", .array [
      .array [.string "a"],
      .array [.string "Image", .object [
        ("alt", .string "b"), ("width", .number (.natural 8)),
        ("alt", .null)]]]),
    ("text", .string "c"),
    ("name", .string "VStack")]

theorem Node.shuffled_is_read :
    Json.ofText Json.shuffled.toText = .ok Json.shuffled ∧
      ofText Json.shuffled.toText = .ok (.element "VStack" .empty
        [.text "a", .element "Image"
          ⟨[("width", .number (Number.ofNat 8))], by decide⟩ []]) := by
  have htext : Json.ofText Json.shuffled.toText = .ok Json.shuffled := by
    rw [Json.ofText_toText, if_pos (by decide)]
    intro m hm
    have hmem : m ∈ [Numeral.natural 8] := hm
    rw [List.mem_singleton.mp hmem]
    exact Json.isLegible_natural (by decide)
  obtain ⟨-, -, -, hread, htree⟩ := read_exactly_what_denotes Json.shuffled
  exact ⟨htext, ((htree _ htext).1 _).mpr
    ((hread _).mp (by decide +kernel))⟩

end PageShell
