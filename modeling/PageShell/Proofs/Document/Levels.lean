import PageShell.Proofs.Document.Grammar
import PageShell.Proofs.Json.Nesting

/-!
# Storing again what was read

What is written for a tree is not what it was read from: arrays become
objects, what is not part of the tree is gone, and the attributes are there
although they may have been left out. Only the last can make the text harder
to read, since it alone can add a bracket.

How many levels the text has is decided by the levels of the tree, up to one:
an element takes its own braces and the brackets of its children
(`nesting_toJson`). The form that was read had these two for every element
but the innermost, which may have been without attributes and children; so it
had all that is written, save one level at most (`Json.Denotes.levels_le`).
That one level counts where the form that was read went as deep as the reader
goes. There a tree can be read that is not read again once it is stored.
-/

namespace PageShell

namespace Json

/-! ## Parts of a value -/

/-- The items of an array and the values of an object. -/
def parts : Json → List Json
  | .array items => items
  | .object members => members.map (·.2)
  | .null | .bool _ | .number _ | .string _ => []

theorem nesting_lt_of_mem_parts {i j : Json} (h : i ∈ j.parts) :
    i.nesting < j.nesting := by
  cases j with
  | array items =>
      exact Nat.lt_succ_of_le (nestingItems_le_iff.mp (Nat.le_refl _) i h)
  | object members =>
      obtain ⟨m, hm, rfl⟩ := List.mem_map.mp h
      exact Nat.lt_succ_of_le
        (nestingMembers_le_iff.mp (Nat.le_refl _) m hm)
  | null | bool _ | number _ | string _ => cases h

theorem mem_numeralsItems_iff {n : Numeral} {items : List Json} :
    n ∈ numeralsItems items ↔ ∃ j ∈ items, n ∈ j.numerals := by
  induction items with
  | nil => simp [numeralsItems]
  | cons j items ih =>
      simp [numeralsItems, ih]

theorem mem_numeralsMembers_iff {n : Numeral}
    {members : List (String × Json)} :
    n ∈ numeralsMembers members ↔ ∃ m ∈ members, n ∈ m.2.numerals := by
  induction members with
  | nil => simp [numeralsMembers]
  | cons m members ih =>
      simp [numeralsMembers, ih]

theorem mem_numerals_of_mem_parts {i j : Json} {n : Numeral}
    (h : i ∈ j.parts) (hn : n ∈ i.numerals) : n ∈ j.numerals := by
  cases j with
  | array items => exact mem_numeralsItems_iff.mpr ⟨i, h, hn⟩
  | object members =>
      obtain ⟨m, hm, rfl⟩ := List.mem_map.mp h
      exact mem_numeralsMembers_iff.mpr ⟨m, hm, hn⟩
  | null | bool _ | number _ | string _ => cases h

theorem mem_valuesOf_iff {key : String} {j : Json}
    {members : List (String × Json)} :
    j ∈ valuesOf key members ↔ (key, j) ∈ members := by
  simp only [valuesOf, List.mem_filterMap]
  constructor
  · rintro ⟨⟨k, i⟩, hm, hj⟩
    split at hj
    · next hk =>
        cases hj
        exact (show k = key from hk) ▸ hm
    · cases hj
  · exact fun h => ⟨(key, j), h, if_pos rfl⟩

theorem mem_parts_of_valuesOf {key : String} {i : Json}
    {members : List (String × Json)} (h : valuesOf key members = [i]) :
    i ∈ (Json.object members).parts :=
  List.mem_map.mpr ⟨(key, i),
    mem_valuesOf_iff.mp (h ▸ List.mem_singleton_self i), rfl⟩

namespace HasParts

variable {j : Json} {name : String} {members : List (String × Json)}
  {items : List Json}

theorem nesting_pos (h : j.HasParts name members items) : 0 < j.nesting := by
  cases h <;> exact Nat.succ_pos _

theorem object_mem_parts (h : j.HasParts name members items) :
    members = [] ∨ Json.object members ∈ j.parts := by
  cases h with
  | object _ hattrs _ =>
      exact hattrs.imp (·.2) mem_parts_of_valuesOf
  | pair => exact .inr (by simp [parts])
  | triple => exact .inr (by simp [parts])

theorem array_mem_parts (h : j.HasParts name members items) :
    items = [] ∨ Json.array items ∈ j.parts := by
  cases h with
  | object _ _ hchildren =>
      exact hchildren.imp (·.2) mem_parts_of_valuesOf
  | pair => exact .inl rfl
  | triple => exact .inr (by simp [parts])

end HasParts

end Json

/-! ## Levels of a tree -/

namespace Node

mutual

/-- How deep the elements of a tree nest. -/
def levels : Node → Nat
  | .text _ => 0
  | .element _ _ children => levelsList children + 1
termination_by structural node => node

def levelsList : List Node → Nat
  | [] => 0
  | node :: nodes => max node.levels (levelsList nodes)
termination_by structural nodes => nodes

end

end Node

theorem AttrValue.nesting_toJson (value : AttrValue) :
    value.toJson.nesting = 0 := by
  cases value with
  | text content => rfl
  | number x =>
      rw [toJson]
      split <;> rfl

theorem Attributes.nesting_toJson (attrs : Attributes) :
    attrs.toJson.nesting = 1 := by
  rw [toJson, Json.nesting,
    Nat.le_zero.mp (Json.nestingMembers_le_iff.mpr fun m hm => ?_)]
  obtain ⟨e, -, rfl⟩ := List.mem_map.mp hm
  exact Nat.le_of_eq e.2.nesting_toJson

namespace Node

mutual

theorem nesting_toJson (node : Node) :
    2 * node.levels ≤ node.toJson.nesting ∧
      node.toJson.nesting ≤ 2 * node.levels + 1 := by
  cases node with
  | text content => exact ⟨Nat.zero_le _, Nat.le_refl _⟩
  | element name attributes children =>
      have hattrs := attributes.nesting_toJson
      have hchildren := nestingItems_listToJson children
      cases children with
      | nil =>
          simp only [toJson, Json.nesting, Json.nestingMembers, hattrs,
            levels, levelsList]
          omega
      | cons child children =>
          rw [listToJson] at hchildren
          simp only [toJson, Json.nesting, Json.nestingMembers, hattrs,
            levels]
          omega
termination_by structural node

theorem nestingItems_listToJson (nodes : List Node) :
    2 * levelsList nodes ≤ Json.nestingItems (listToJson nodes) ∧
      Json.nestingItems (listToJson nodes) ≤ 2 * levelsList nodes + 1 := by
  cases nodes with
  | nil => exact ⟨Nat.le_refl _, Nat.zero_le _⟩
  | cons node nodes =>
      have hnode := nesting_toJson node
      have hnodes := nestingItems_listToJson nodes
      rw [listToJson, Json.nestingItems, levelsList]
      omega
termination_by structural nodes

end

/-- What is written for a tree is in reach of the reader as far as the levels
of the tree are: the limit is odd. -/
theorem nesting_toJson_le_iff (node : Node) :
    node.toJson.nesting ≤ Json.nestingLimit ↔
      2 * node.levels ≤ Json.nestingLimit := by
  have h := node.nesting_toJson
  have hlimit : Json.nestingLimit = 127 := rfl
  omega

end Node

/-! ## What a tree was read from -/

namespace Json

mutual

theorem Denotes.levels_le (node : Node) {j : Json} (h : j.Denotes node) :
    2 * node.levels ≤ j.nesting + 1 := by
  cases node with
  | text content => exact Nat.zero_le _
  | element name attributes children =>
      cases h with
      | element hparts _ hall =>
          have hpos := hparts.nesting_pos
          have hitems := levelsList_le children hall
          rw [Node.levels]
          rcases hparts.array_mem_parts with rfl | hmem
          · cases hall
            rw [Node.levelsList]
            omega
          · have hlt := nesting_lt_of_mem_parts hmem
            rw [nesting] at hlt
            omega
termination_by structural node

theorem levelsList_le (nodes : List Node) {items : List Json}
    (h : List.Forall₂ Denotes items nodes) :
    2 * Node.levelsList nodes ≤ nestingItems items + 1 := by
  cases nodes with
  | nil => exact Nat.zero_le _
  | cons node nodes =>
      cases h with
      | cons hj hall =>
          have hnode := Denotes.levels_le node hj
          have hnodes := levelsList_le nodes hall
          rw [Node.levelsList, nestingItems]
          omega
termination_by structural nodes

end

end Json

theorem Attributes.get?_of_mem {attrs : Attributes} {key : String}
    {value : AttrValue} (h : (key, value) ∈ attrs.entries) :
    attrs.get? key = some value := by
  obtain ⟨entries, hsorted⟩ := attrs
  show entries.lookup key = some value
  induction entries with
  | nil => cases h
  | cons e entries ih =>
      obtain ⟨hfirst, hrest⟩ := List.pairwise_cons.mp hsorted
      rcases List.mem_cons.mp h with rfl | hmem
      · exact List.lookup_cons_self
      · have hne : (key == e.1) = false := by
          refine beq_eq_false_iff_ne.mpr fun heq => ?_
          exact Std.lt_irrefl (heq ▸ hfirst _ hmem)
        rw [List.lookup_cons, hne]
        exact ih hrest hmem

theorem Json.Sets.mem_of_last {js : List Json} {value : AttrValue}
    (h : (js.getLastD .null).Sets (some value)) :
    js.getLastD .null ∈ js := by
  rw [List.getLastD_eq_getLast?] at h ⊢
  cases hlast : js.getLast? with
  | none =>
      rw [hlast] at h
      cases h
  | some j => exact List.mem_of_getLast? hlast

theorem Attributes.SetBy.exists_numeral {members : List (String × Json)}
    {attrs : Attributes} (h : attrs.SetBy members) {x : Number}
    (hx : x ∈ attrs.numbers) :
    ∃ n ∈ (Json.object members).numerals, n.toNumber = x := by
  obtain ⟨⟨key, value⟩, hmem, hvalue⟩ := List.mem_filterMap.mp hx
  have hlast := h.last key
  rw [Attributes.get?_of_mem hmem] at hlast
  cases value with
  | text content => cases hvalue
  | number y =>
      cases hvalue
      have hset := Json.mem_valuesOf_iff.mp hlast.mem_of_last
      generalize (Json.valuesOf key members).getLastD .null = j at hlast hset
      cases hlast with
      | number n =>
          exact ⟨n, Json.mem_numeralsMembers_iff.mpr
            ⟨_, hset, List.mem_cons_self⟩, rfl⟩

namespace Json

mutual

/-- A tree has no other numbers than the value that it stands for. -/
theorem Denotes.exists_numeral (node : Node) {j : Json}
    (h : j.Denotes node) :
    ∀ x ∈ node.numbers, ∃ n ∈ j.numerals, n.toNumber = x := by
  cases node with
  | text content => exact fun x hx => by cases hx
  | element name attributes children =>
      cases h with
      | element hparts hset hall =>
          intro x hx
          rcases List.mem_append.mp hx with hx | hx
          · obtain ⟨n, hn, hvalue⟩ := hset.exists_numeral hx
            rcases hparts.object_mem_parts with rfl | hmem
            · cases hn
            · exact ⟨n, mem_numerals_of_mem_parts hmem hn, hvalue⟩
          · obtain ⟨n, hn, hvalue⟩ := exists_numeral_items children hall x hx
            rcases hparts.array_mem_parts with rfl | hmem
            · cases hn
            · exact ⟨n, mem_numerals_of_mem_parts hmem hn, hvalue⟩
termination_by structural node

theorem exists_numeral_items (nodes : List Node) {items : List Json}
    (h : List.Forall₂ Denotes items nodes) :
    ∀ x ∈ Node.numbersList nodes,
      ∃ n ∈ numeralsItems items, n.toNumber = x := by
  cases nodes with
  | nil => exact fun x hx => by cases hx
  | cons node nodes =>
      cases h with
      | cons hj hall =>
          intro x hx
          rcases List.mem_append.mp hx with hx | hx
          · obtain ⟨n, hn, hvalue⟩ := Denotes.exists_numeral node hj x hx
            exact ⟨n, List.mem_append_left _ hn, hvalue⟩
          · obtain ⟨n, hn, hvalue⟩ := exists_numeral_items nodes hall x hx
            exact ⟨n, List.mem_append_right _ hn, hvalue⟩
termination_by structural nodes

end

end Json

/-! ## Texts -/

theorem Number.IsSmallWhole.isFinite {x : Number} (h : x.IsSmallWhole) :
    x.isFinite = true :=
  (isWhole_iff.mp h.1).1

theorem LegibleNumbers.of_whole {xs : List Number}
    (h : ∀ x ∈ xs, x.IsSmallWhole) : LegibleNumbers xs :=
  fun x hx _ hwhole => absurd (h x hx) hwhole

namespace Node

theorem exists_json_of_ofText {text : String} {node : Node}
    (h : ofText text = .ok node) :
    ∃ j, Json.ofText text = .ok j ∧ j.Denotes node := by
  obtain ⟨r, hread, hskip⟩ := Json.readAll_eq_ok.mp h
  obtain ⟨⟨j, r'⟩, hj, hread⟩ := Json.exists_of_bind_eq_ok hread
  simp only at hread
  split at hread
  · next hnode =>
      cases hread
      exact ⟨j, Json.readAll_eq_ok.mpr ⟨r, hj, hskip⟩,
        (ofJson?_eq_some_iff j _).mp hnode⟩
  · cases hread

/-- A tree of small whole numbers is read back from its text as far as its
levels are in reach. -/
theorem ofText_toText_of_whole {node : Node}
    (h : ∀ x ∈ node.numbers, x.IsSmallWhole) :
    ofText node.toText =
      if 2 * node.levels ≤ Json.nestingLimit then .ok node
      else .error .malformed := by
  rw [ofText_toText (.of_whole h),
    node.finitePart_eq_self fun x hx => (h x hx).isFinite]
  simp only [nesting_toJson_le_iff]

end Node

/-! ## Under many elements -/

/-- A value under so many elements. -/
def Json.under (j : Json) : Nat → Json
  | 0 => j
  | n + 1 => .object [("name", .string "N"), ("children", .array [j.under n])]

/-- A tree under so many elements. -/
def Node.under (node : Node) : Nat → Node
  | 0 => node
  | n + 1 => .element "N" .empty [node.under n]

theorem Node.ofJson?_under {j : Json} {node : Node}
    (h : ofJson? j = some node) (n : Nat) :
    ofJson? (j.under n) = some (node.under n) := by
  induction n with
  | zero => exact h
  | succ n ih =>
      have hchildren : childrenOfJson? (.array [j.under n]) =
          some [node.under n] := by
        rw [childrenOfJson?, listOfJson?, ih]
        rfl
      rw [Json.under, ofJson?_object (by simp)]
      simp only [ofMembers?, hchildren, String.reduceEq, if_true, if_false]
      rfl

theorem Json.numerals_under (j : Json) (n : Nat) :
    (j.under n).numerals = j.numerals := by
  induction n with
  | zero => rfl
  | succ n ih => simp [under, numerals, numeralsMembers, numeralsItems, ih]

theorem Json.nesting_under (j : Json) (n : Nat) :
    (j.under n).nesting = j.nesting + 2 * n := by
  induction n with
  | zero => rfl
  | succ n ih =>
      simp only [under, nesting, nestingMembers, nestingItems, ih]
      omega

theorem Node.levels_under (node : Node) (n : Nat) :
    (node.under n).levels = node.levels + n := by
  induction n with
  | zero => rfl
  | succ n ih =>
      simp only [under, levels, levelsList, ih]
      omega

theorem Node.numbers_under (node : Node) (n : Nat) :
    (node.under n).numbers = node.numbers := by
  induction n with
  | zero => rfl
  | succ n ih =>
      simp [under, numbers, numbersList, ih, Attributes.numbers,
        Attributes.empty]

theorem Node.ofText_under {j : Json} {node : Node}
    (h : ofJson? j = some node) (hj : ∀ m ∈ j.numerals, m.IsLegible)
    {n : Nat} (hn : j.nesting + 2 * n ≤ Json.nestingLimit) :
    Json.ofText (j.under n).toText = .ok (j.under n) ∧
      ofText (j.under n).toText = .ok (node.under n) := by
  have htext : Json.ofText (j.under n).toText = .ok (j.under n) := by
    rw [Json.ofText_toText (j.numerals_under n ▸ hj), j.nesting_under,
      if_pos hn]
  exact ⟨htext, by rw [ofText_of_json htext, ofJson?_under h]; rfl⟩

/-! ## Stored again -/

/-- What was read from a text without other numbers than small whole ones can
be stored again and read as it was, exactly if its levels are in reach of the
reader in the form that is written. They always are if the text nests less
deep than the reader goes, and not always if it nests just as deep. -/
theorem Node.read_is_stored_again {text : String} {node : Node}
    (h : ofText text = .ok node) :
    ∃ j, Json.ofText text = .ok j ∧ j.nesting ≤ Json.nestingLimit ∧
      2 * node.levels ≤ j.nesting + 1 ∧
      (∀ x ∈ node.numbers, ∃ n ∈ j.numerals, n.toNumber = x) ∧
      ((∀ n ∈ j.numerals,
          n.toNumber.isWhole = true ∧ n.toNumber.wholePart < 2147483648) →
        ofText node.toText =
          (if 2 * node.levels ≤ Json.nestingLimit then .ok node
            else .error .malformed) ∧
        (j.nesting < Json.nestingLimit → ofText node.toText = .ok node)) := by
  obtain ⟨j, htext, hdenotes⟩ := exists_json_of_ofText h
  have hlevels := Json.Denotes.levels_le node hdenotes
  have hnumbers := Json.Denotes.exists_numeral node hdenotes
  refine ⟨j, htext, Json.nesting_le_of_ofText htext, hlevels, hnumbers,
    fun hwhole => ?_⟩
  have hstored := ofText_toText_of_whole fun x (hx : x ∈ node.numbers) => by
    obtain ⟨n, hn, rfl⟩ := hnumbers x hx
    obtain ⟨hn, hlt⟩ := hwhole n hn
    exact ⟨hn, Nat.le_trans (Nat.le_of_lt hlt) (by decide)⟩
  refine ⟨hstored, fun hless => ?_⟩
  rw [hstored, if_pos (by omega)]

/-- An element in the form of an array, with an attribute that is unset. -/
def Json.listed : Json :=
  .array [.string "M",
    .object [("w", .number (.natural 7)), ("x", .null)]]

def Node.listed : Node :=
  .element "M" ⟨[("w", .number (Number.ofNat 7))], by decide⟩ []

/-- One level above the last, with a change of form on the way. -/
theorem Node.listed_is_stored_again :
    ofText (Json.listed.under 62).toText = .ok (Node.listed.under 62) ∧
      (Json.listed.under 62).nesting = 126 ∧
      ofText (Node.listed.under 62).toText = .ok (Node.listed.under 62) := by
  have hnumerals : (Json.listed.under 62).numerals = [.natural 7] :=
    Json.listed.numerals_under 62
  have hlegible : ∀ m ∈ Json.listed.numerals, m.IsLegible := by
    intro m hm
    rw [List.mem_singleton.mp (show m ∈ [Numeral.natural 7] from hm)]
    exact Json.isLegible_natural (by decide)
  have hnesting := Json.listed.nesting_under 62
  obtain ⟨htext, hread⟩ := Node.ofText_under
    (show ofJson? Json.listed = some Node.listed by decide +kernel)
    hlegible (n := 62) (by decide)
  obtain ⟨j, hj, -, -, -, hstored⟩ := Node.read_is_stored_again hread
  cases htext.symm.trans hj
  refine ⟨hread, hnesting, (hstored fun n hn => ?_).2 ?_⟩
  · rw [hnumerals] at hn
    rw [List.mem_singleton.mp hn]
    decide +kernel
  · rw [hnesting]
    decide

/-- At the last level an element may have no attributes when it is read, and
its attributes are one level too many when it is stored. -/
theorem deepest_is_not_stored_again :
    Json.ofText ((Json.object [("name", .string "N")]).under 63).toText =
        .ok ((Json.object [("name", .string "N")]).under 63) ∧
      ((Json.object [("name", .string "N")]).under 63).numerals = [] ∧
      Node.ofText ((Json.object [("name", .string "N")]).under 63).toText =
        .ok ((Node.element "N" .empty []).under 63) ∧
      Node.ofText ((Node.element "N" .empty []).under 63).toText =
        .error .malformed := by
  have hbare : Node.ofJson? (.object [("name", .string "N")]) =
      some (.element "N" .empty []) := rfl
  obtain ⟨htext, hread⟩ := Node.ofText_under hbare (fun _ hm => by cases hm)
    (n := 63) (by decide)
  have hnumbers := (Node.element "N" .empty []).numbers_under 63
  refine ⟨htext, Json.numerals_under _ 63, hread, ?_⟩
  rw [Node.ofText_toText_of_whole fun x hx => ?_, Node.levels_under]
  · rfl
  · rw [hnumbers] at hx
    cases hx

end PageShell
