import PageShell.Proofs.Document.Levels

/-!
# A text among other members

An object with a `text` and something else is no leaf, so it is read for the
members of an element, and there `text` is a key like any other that means
nothing. It follows that it is read just as it would be without its text: not
at all if what is left has no name, and as an element if it has one. The text
is gone then, without a complaint.

Where such an object is refused, so is everything it stands in: a tree is
read only if all of its children are (`Json.Within.exists_node`).
-/

namespace PageShell

namespace Json

theorem valuesOf_filter_ne {key dropped : String} (h : key ≠ dropped)
    (members : List (String × Json)) :
    valuesOf key (members.filter fun m => m.1 ≠ dropped) =
      valuesOf key members := by
  induction members with
  | nil => rfl
  | cons m members ih =>
      obtain ⟨k, j⟩ := m
      rw [List.filter_cons, valuesOf_cons, ← ih]
      by_cases hk : k = dropped
      · subst hk
        rw [if_neg (by simp), if_neg (Ne.symm h)]
      · rw [if_pos (by simpa using hk), valuesOf_cons]

/-! ## At any depth -/

/-- The values that would be read for children. -/
inductive Holds : Json → List Json → Prop where
  | object {members : List (String × Json)} {items : List Json} :
      ("children", .array items) ∈ members → Holds (.object members) items
  | triple (name attrs : Json) (items : List Json) :
      Holds (.array [name, attrs, .array items]) items

/-- A value is in another: it is that value, or in one of its children. -/
inductive Within (j : Json) : Json → Prop where
  | here : Within j j
  | child {whole i : Json} {items : List Json} :
      whole.Holds items → i ∈ items → Within j i → Within j whole

theorem HasParts.items_eq {j : Json} {name : String}
    {members : List (String × Json)} {items items' : List Json}
    (h : j.HasParts name members items) (hitems : j.Holds items') :
    items' = items := by
  cases hitems with
  | object hmem =>
      cases h with
      | object _ _ hchildren =>
          have hvalue := mem_valuesOf_iff.mpr hmem
          rcases hchildren with ⟨hnone, -⟩ | hone
          · rw [hnone] at hvalue
            cases hvalue
          · rw [hone] at hvalue
            cases List.mem_singleton.mp hvalue
            rfl
  | triple =>
      cases h
      rfl

theorem IsLeaf.not_holds {j : Json} {content : String} {items : List Json}
    (h : j.IsLeaf content) (hitems : j.Holds items) : False := by
  cases h with
  | object =>
      cases hitems with
      | object hmem => simp at hmem
  | array => cases hitems

/-- What is in a value that is read is read itself. -/
theorem Within.exists_node {j whole : Json} (h : j.Within whole)
    {node : Node} (hread : Node.ofJson? whole = some node) :
    ∃ node', Node.ofJson? j = some node' := by
  induction h generalizing node with
  | here => exact ⟨node, hread⟩
  | child hholds hmem _ ih =>
      cases node with
      | text content =>
          exact ((Node.ofJson?_eq_leaf_iff.mp hread).not_holds hholds).elim
      | element name attributes children =>
          obtain ⟨members, items, hparts, -, hitems⟩ :=
            Node.ofJson?_eq_element_iff.mp hread
          rw [hparts.items_eq hholds] at hmem
          obtain ⟨child, hchild⟩ := Node.exists_forall₂_denotes_iff.mp
            ⟨children, (Node.listOfJson?_eq_some_iff _ _).mp hitems⟩ _ hmem
          exact ih ((Node.ofJson?_eq_some_iff _ _).mpr hchild)

end Json

namespace Node

open Json (valuesOf)

/-! ## Other members -/

theorem ofMembers?_congr {ms ms' : List (String × Json)}
    (hname : valuesOf "name" ms = valuesOf "name" ms')
    (hattrs : valuesOf "attrs" ms = valuesOf "attrs" ms')
    (hchildren : valuesOf "children" ms = valuesOf "children" ms')
    (draft : Element.Draft) : ofMembers? draft ms = ofMembers? draft ms' := by
  refine Option.ext fun result => ?_
  rw [ofMembers?_eq_some_iff, ofMembers?_eq_some_iff, hname, hattrs,
    hchildren]

variable {members : List (String × Json)}

theorem not_leaf_of_other (hother : ∃ m ∈ members, m.1 ≠ "text")
    (content : String) : members ≠ [("text", .string content)] := by
  rintro rfl
  obtain ⟨m, hm, hne⟩ := hother
  rw [List.mem_singleton.mp hm] at hne
  exact hne rfl

theorem ofJson?_without_text (hother : ∃ m ∈ members, m.1 ≠ "text") :
    ofJson? (.object members) =
      ofJson? (.object (members.filter fun m => m.1 ≠ "text")) := by
  have hrest (key : String) (h : key ≠ "text") :=
    (Json.valuesOf_filter_ne h members).symm
  rw [ofJson?_object (not_leaf_of_other hother), ofJson?_object,
    ofMembers?_congr (hrest "name" (by decide)) (hrest "attrs" (by decide))
      (hrest "children" (by decide))]
  -- Without its text an object is no leaf either.
  intro content heq
  have hmem : ("text", Json.string content) ∈
      members.filter fun m => m.1 ≠ "text" := heq ▸ List.mem_singleton_self _
  simp at hmem

/-- An object with another member than a text is never read as a leaf. It is
read as what it is without its text: as an element if that is one, and not at
all if it is not, which is always so without a name. Whatever it stands in, at
any depth, is refused with it. -/
theorem text_among_members_is_passed_over
    (hother : ∃ m ∈ members, m.1 ≠ "text") :
    (∀ content, ofJson? (.object members) ≠ some (.text content)) ∧
      ofJson? (.object members) =
        ofJson? (.object (members.filter fun m => m.1 ≠ "text")) ∧
      ((∀ name, valuesOf "name" members ≠ [.string name]) →
        ofJson? (.object members) = none) ∧
      ∀ whole, (Json.object members).Within whole →
        ofJson? (.object members) = none →
        ofJson? whole = none ∧
          ∀ text, Json.ofText text = .ok whole →
            ofText text = .error (.shape (.noAlternative "Node")) := by
  have hleaf (content : String) :
      ofJson? (.object members) ≠ some (.text content) := by
    intro hread
    cases ofJson?_eq_leaf_iff.mp hread with
    | object => exact not_leaf_of_other hother content rfl
  refine ⟨hleaf, ofJson?_without_text hother, fun hname => ?_,
    fun whole hwithin hnone => ?_⟩
  · cases hread : ofJson? (.object members) with
    | none => rfl
    | some node =>
        cases node with
        | text content => exact absurd hread (hleaf content)
        | element name attributes children =>
            obtain ⟨_, _, hparts, -⟩ := ofJson?_eq_element_iff.mp hread
            cases hparts with
            | object hvalue => exact absurd hvalue (hname name)
  · have hwhole : ofJson? whole = none := by
      cases hread : ofJson? whole with
      | none => rfl
      | some node =>
          obtain ⟨node', hnode⟩ := hwithin.exists_node hread
          rw [hnone] at hnode
          cases hnode
    exact ⟨hwhole, fun text htext => by
      rw [ofText_of_json htext, hwhole]
      rfl⟩

/-- A text with attributes, in a list of parts in an object. -/
def captioned : Json :=
  .object [("name", .string "A"), ("children", .array
    [.array [.string "B", .object [], .array
      [.object [("text", .string "a"), ("attrs", .object [])]]]])]

theorem captioned_is_refused :
    Json.ofText captioned.toText = .ok captioned ∧
      ofText captioned.toText =
        .error (.shape (.noAlternative "Node")) := by
  have hother : ∃ m ∈ [("text", Json.string "a"), ("attrs", .object [])],
      m.1 ≠ "text" := ⟨("attrs", .object []), .tail _ (.head _), by decide⟩
  obtain ⟨-, -, hnone, hwithin⟩ := text_among_members_is_passed_over hother
  have hdeep : (Json.object [("text", .string "a"),
      ("attrs", .object [])]).Within captioned :=
    .child (.object (.tail _ (.head _))) List.mem_cons_self
      (.child (.triple _ _ _) List.mem_cons_self .here)
  have htext : Json.ofText captioned.toText = .ok captioned := by
    rw [Json.ofText_toText (fun _ hm => by cases hm), if_pos (by decide)]
  exact ⟨htext, (hwithin _ hdeep (hnone fun name h => by cases h)).2 _ htext⟩

/-- A text with a name. -/
def titled : Json :=
  .object [("text", .string "a"), ("name", .string "N")]

theorem titled_is_element :
    Json.ofText titled.toText = .ok titled ∧
      ofText titled.toText = .ok (.element "N" .empty []) := by
  have htext : Json.ofText titled.toText = .ok titled := by
    rw [Json.ofText_toText (fun _ hm => by cases hm), if_pos (by decide)]
  exact ⟨htext, by rw [ofText_of_json htext]; rfl⟩

end Node

end PageShell
