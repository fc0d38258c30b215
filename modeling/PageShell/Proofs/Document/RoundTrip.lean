import PageShell.Proofs.Document.Attributes
import PageShell.Proofs.Json.RoundTrip

/-!
# A stored document is read back

The JSON form of a tree is an object, and its members say what it is: one
member `text`, or `name` and `attrs` before anything else. So the reader takes
each form for what it was, and the array of a sequence, whose items are
objects, for neither a leaf nor an element.

What is lost on the way are the attributes whose number JSON can not write.
They are written as `null` and read as unset, and `finitePart` is the tree
without them. The attributes are in order and their names are distinct, so
reading them one after the other puts each behind those there are.

That much is about values. Their texts are read back as far as the numbers
are (`LegibleNumbers`) and as deep as the reader goes.
-/

namespace PageShell

/-- The finite numbers that are no whole numbers of 32 bits are legible. The
whole ones always are. -/
def LegibleNumbers (xs : List Number) : Prop :=
  ∀ x ∈ xs, x.isFinite = true → ¬ x.IsSmallWhole →
    (Numeral.real x).IsLegible

theorem LegibleNumbers.isLegible {xs : List Number} (h : LegibleNumbers xs)
    {x : Number} (hmem : x ∈ xs) (hx : x.isFinite = true) :
    (Numeral.real x).IsLegible := by
  by_cases hwhole : x.IsSmallWhole
  · exact Json.isLegible_whole hwhole
  · exact h x hmem hx hwhole

/-! ## What of a document is stored -/

/-- Whether the value is kept: a text, or a number neither infinite nor
undefined. -/
def AttrValue.isKept : AttrValue → Bool
  | .text _ => true
  | .number x => !(x.isNaN || x.isInfinite)

def Attributes.numbers (attrs : Attributes) : List Number :=
  attrs.entries.filterMap fun e => e.2.number?

def Attributes.finitePart (attrs : Attributes) : Attributes :=
  attrs.filter fun _ value => value.isKept

namespace Node

mutual

/-- The numbers in a tree. -/
def numbers : Node → List Number
  | .text _ => []
  | .element _ attributes children =>
    attributes.numbers ++ numbersList children
termination_by structural node => node

def numbersList : List Node → List Number
  | [] => []
  | node :: nodes => node.numbers ++ numbersList nodes
termination_by structural nodes => nodes

end

mutual

/-- The tree without the attributes whose number is undefined or infinite. -/
def finitePart : Node → Node
  | .text content => .text content
  | .element name attributes children =>
    .element name attributes.finitePart (finitePartList children)
termination_by structural node => node

def finitePartList : List Node → List Node
  | [] => []
  | node :: nodes => node.finitePart :: finitePartList nodes
termination_by structural nodes => nodes

end

theorem finitePartList_eq_map (nodes : List Node) :
    finitePartList nodes = nodes.map finitePart := by
  induction nodes with
  | nil => rfl
  | cons node nodes ih => rw [finitePartList, ih, List.map_cons]

end Node

def Output.numbers (output : Output) : List Number :=
  Node.numbersList output.nodes

def Output.finitePart : Output → Output
  | .single node => .single node.finitePart
  | .sequence nodes => .sequence (nodes.map Node.finitePart)

/-! ## Attributes -/

namespace Attributes

theorem insertSorted_last {key : String} {value : AttrValue}
    {l : List (String × AttrValue)} (h : ∀ e ∈ l, e.1 < key) :
    insertSorted key value l = l ++ [(key, value)] := by
  induction l with
  | nil => rfl
  | cons e l ih =>
      have hlt : e.1 < key := h e List.mem_cons_self
      have hrest := ih fun e' h' => h e' (List.mem_cons_of_mem e h')
      rw [insertSorted, if_neg (Std.not_lt.mpr (Std.le_of_lt hlt)),
        if_neg (fun heq => Std.lt_irrefl (heq ▸ hlt)), hrest,
        List.cons_append]

theorem entries_erase_absent {attrs : Attributes} {key : String}
    (h : ∀ e ∈ attrs.entries, e.1 < key) :
    (attrs.erase key).entries = attrs.entries := by
  refine List.filter_eq_self.mpr fun e he => decide_eq_true ?_
  intro heq
  exact Std.lt_irrefl (heq ▸ h e he)

/-- The attributes after one member. -/
def next (attrs : Attributes) (key : String) (value : AttrValue) :
    Attributes :=
  if value.isKept then attrs.set key value else attrs.erase key

theorem ofMembers?_cons_toJson (attrs : Attributes) (key : String)
    (value : AttrValue) (ms : List (String × Json)) :
    ofMembers? attrs ((key, value.toJson) :: ms) =
      ofMembers? (attrs.next key value) ms := by
  cases value with
  | text content => rfl
  | number x =>
      have hkept : (AttrValue.number x).isKept = x.isFinite :=
        x.isFinite_eq.symm
      rw [AttrValue.toJson, next, hkept]
      cases x.isFinite <;> rfl

theorem entries_next {attrs : Attributes} {key : String} (value : AttrValue)
    (h : ∀ e ∈ attrs.entries, e.1 < key) :
    (attrs.next key value).entries =
      attrs.entries ++ if value.isKept then [(key, value)] else [] := by
  unfold next
  split
  · exact insertSorted_last h
  · rw [List.append_nil]
    exact entries_erase_absent h

/-- Attributes that come in order are read one behind the other. -/
theorem ofMembers?_map_toJson {l : List (String × AttrValue)}
    (hl : l.Pairwise fun a b => a.1 < b.1) (attrs : Attributes)
    (hattrs : ∀ a ∈ attrs.entries, ∀ e ∈ l, a.1 < e.1) :
    ∃ result, ofMembers? attrs (l.map fun (k, v) => (k, v.toJson)) =
        some result ∧
      result.entries = attrs.entries ++ l.filter fun e => e.2.isKept := by
  induction l generalizing attrs with
  | nil => exact ⟨attrs, rfl, (List.append_nil _).symm⟩
  | cons e l ih =>
      obtain ⟨key, value⟩ := e
      obtain ⟨hkey, hl⟩ := List.pairwise_cons.mp hl
      have hlast : ∀ a ∈ attrs.entries, a.1 < key := fun a ha =>
        hattrs a ha (key, value) List.mem_cons_self
      have hentries := entries_next value hlast
      have hnext : ∀ a ∈ (attrs.next key value).entries, ∀ e ∈ l,
          a.1 < e.1 := by
        intro a ha e he
        rw [hentries] at ha
        rcases List.mem_append.mp ha with ha | ha
        · exact String.lt_trans (hlast a ha) (hkey e he)
        · split at ha
          · rw [List.mem_singleton.mp ha]
            exact hkey e he
          · cases ha
      obtain ⟨result, hread, hresult⟩ := ih hl (attrs.next key value) hnext
      refine ⟨result, (ofMembers?_cons_toJson attrs key value _).trans hread,
        ?_⟩
      rw [hresult, hentries, List.filter_cons, List.append_assoc]
      simp only
      split <;> rfl

theorem ofJson?_toJson (attrs : Attributes) :
    ofJson? attrs.toJson = some attrs.finitePart := by
  obtain ⟨result, hread, hentries⟩ :=
    ofMembers?_map_toJson attrs.sorted .empty fun _ h => by cases h
  rw [toJson, ofJson?, hread]
  cases result
  cases hentries
  rfl

end Attributes

/-! ## Trees -/

namespace Node

/-- Every object but a leaf is read for the members of an element. -/
theorem ofJson?_object {members : List (String × Json)}
    (h : ∀ content, members ≠ [("text", .string content)]) :
    ofJson? (.object members) =
      (ofMembers? {} members).bind Element.Draft.toNode? := by
  rw [ofJson?]
  rintro content rfl
  exact h content rfl

mutual

theorem ofJson?_toJson (node : Node) :
    ofJson? node.toJson = some node.finitePart := by
  cases node with
  | text content => rfl
  | element name attributes children =>
      have hattrs := Attributes.ofJson?_toJson attributes
      cases children with
      | nil =>
          rw [toJson, ofJson?_object (by simp)]
          simp only [ofMembers?, hattrs, String.reduceEq, if_true, if_false]
          rfl
      | cons child children =>
          have hchildren : childrenOfJson?
              (.array (child.toJson :: listToJson children)) =
                some (finitePartList (child :: children)) :=
            listOfJson?_listToJson (child :: children)
          rw [toJson, ofJson?_object (by simp)]
          simp only [ofMembers?, hattrs, hchildren, String.reduceEq, if_true,
            if_false]
          rfl
termination_by structural node

theorem listOfJson?_listToJson (nodes : List Node) :
    listOfJson? (listToJson nodes) = some (finitePartList nodes) := by
  cases nodes with
  | nil => rfl
  | cons node nodes =>
      rw [listToJson, listOfJson?, ofJson?_toJson node,
        listOfJson?_listToJson nodes]
      rfl
termination_by structural nodes

end

/-- A sequence of trees is not a tree. -/
theorem ofJson?_array (nodes : List Node) :
    ofJson? (.array (nodes.map toJson)) = none := by
  cases nodes with
  | nil => rfl
  | cons node nodes =>
      rw [List.map_cons]
      cases node with
      | text content => rfl
      | element name attributes children => cases children <;> rfl

end Node

theorem Output.ofJson?_toJson (output : Output) :
    ofJson? output.toJson = some output.finitePart := by
  cases output with
  | single node =>
      rw [toJson, ofJson?, Node.ofJson?_toJson]
      rfl
  | sequence nodes =>
      have hnodes : Node.childrenOfJson? (.array (nodes.map Node.toJson)) =
          some (nodes.map Node.finitePart) := by
        rw [Node.childrenOfJson?, ← Node.listToJson_eq_map,
          Node.listOfJson?_listToJson, Node.finitePartList_eq_map]
      rw [toJson, ofJson?, Node.ofJson?_array]
      simp only [hnodes]
      rfl

/-! ## Nothing is lost of finite numbers -/

theorem Attributes.finitePart_eq_self {attrs : Attributes}
    (h : ∀ x ∈ attrs.numbers, x.isFinite = true) :
    attrs.finitePart = attrs := by
  refine filter_eq_self fun e he => ?_
  obtain ⟨key, value⟩ := e
  cases value with
  | text content => rfl
  | number x =>
      have hx : x.isFinite = true :=
        h x (List.mem_filterMap.mpr ⟨(key, .number x), he, rfl⟩)
      exact x.isFinite_eq.symm.trans hx

namespace Node

mutual

theorem finitePart_eq_self (node : Node)
    (h : ∀ x ∈ node.numbers, x.isFinite = true) :
    node.finitePart = node := by
  cases node with
  | text content => rfl
  | element name attributes children =>
      rw [finitePart,
        Attributes.finitePart_eq_self fun x hx =>
          h x (List.mem_append_left _ hx),
        finitePartList_eq_self children fun x hx =>
          h x (List.mem_append_right _ hx)]
termination_by structural node

theorem finitePartList_eq_self (nodes : List Node)
    (h : ∀ x ∈ numbersList nodes, x.isFinite = true) :
    finitePartList nodes = nodes := by
  cases nodes with
  | nil => rfl
  | cons node nodes =>
      rw [finitePartList,
        finitePart_eq_self node fun x hx => h x (List.mem_append_left _ hx),
        finitePartList_eq_self nodes fun x hx =>
          h x (List.mem_append_right _ hx)]
termination_by structural nodes

end

theorem text?_finitePart (node : Node) :
    node.finitePart.text? = node.text? := by
  cases node <;> rfl

end Node

theorem Output.finitePart_eq_self {output : Output}
    (h : ∀ x ∈ output.numbers, x.isFinite = true) :
    output.finitePart = output := by
  cases output with
  | single node =>
      rw [finitePart, node.finitePart_eq_self fun x hx =>
        h x (List.mem_append_left _ hx)]
  | sequence nodes =>
      rw [finitePart, ← Node.finitePartList_eq_map,
        Node.finitePartList_eq_self nodes h]

/-! ## The numerals of the stored form -/

/-- The numerals that the numbers are stored as. -/
def storedNumerals (xs : List Number) : List Numeral :=
  (xs.filter Number.isFinite).map .real

theorem storedNumerals_append (xs ys : List Number) :
    storedNumerals (xs ++ ys) = storedNumerals xs ++ storedNumerals ys := by
  rw [storedNumerals, List.filter_append, List.map_append]
  rfl

theorem LegibleNumbers.storedNumerals {xs : List Number}
    (h : LegibleNumbers xs) :
    ∀ m ∈ storedNumerals xs, m.IsLegible := by
  intro m hm
  obtain ⟨x, hx, rfl⟩ := List.mem_map.mp hm
  obtain ⟨hmem, hfinite⟩ := List.mem_filter.mp hx
  exact h.isLegible hmem hfinite

theorem AttrValue.numerals_toJson (value : AttrValue) :
    value.toJson.numerals = storedNumerals value.number?.toList := by
  cases value with
  | text content => rfl
  | number x =>
      rw [toJson]
      cases hx : x.isFinite <;>
        simp [storedNumerals, number?, hx, Json.numerals]

theorem Attributes.numerals_toJson (attrs : Attributes) :
    attrs.toJson.numerals = storedNumerals attrs.numbers := by
  rw [toJson, Json.numerals, numbers]
  induction attrs.entries with
  | nil => rfl
  | cons e l ih =>
      obtain ⟨key, value⟩ := e
      have hcons : (((key, value) :: l).filterMap fun e => e.2.number?) =
          value.number?.toList ++ l.filterMap fun e => e.2.number? := by
        cases value <;> rfl
      rw [hcons, storedNumerals_append, ← ih, ← value.numerals_toJson]
      rfl

namespace Node

theorem numerals_toJson_element (name : String) (attributes : Attributes)
    (children : List Node) :
    (element name attributes children).toJson.numerals =
      attributes.toJson.numerals ++
        Json.numeralsItems (listToJson children) := by
  cases children <;>
    simp [toJson, listToJson, Json.numerals, Json.numeralsMembers,
      Json.numeralsItems]

mutual

theorem numerals_toJson (node : Node) :
    node.toJson.numerals = storedNumerals node.numbers := by
  cases node with
  | text content => rfl
  | element name attributes children =>
      rw [numerals_toJson_element, attributes.numerals_toJson,
        numeralsItems_listToJson children, numbers, storedNumerals_append]
termination_by structural node

theorem numeralsItems_listToJson (nodes : List Node) :
    Json.numeralsItems (listToJson nodes) =
      storedNumerals (numbersList nodes) := by
  cases nodes with
  | nil => rfl
  | cons node nodes =>
      rw [listToJson, Json.numeralsItems, numerals_toJson node,
        numeralsItems_listToJson nodes, numbersList, storedNumerals_append]
termination_by structural nodes

end

end Node

theorem Output.numerals_toJson (output : Output) :
    output.toJson.numerals = storedNumerals output.numbers := by
  cases output with
  | single node =>
      rw [toJson, node.numerals_toJson, numbers, nodes, Node.numbersList,
        Node.numbersList, List.append_nil]
  | sequence nodes =>
      rw [toJson, ← Node.listToJson_eq_map]
      exact Node.numeralsItems_listToJson nodes

/-! ## Texts -/

/-- What was made of a value, or the complaint that it is not of the kind. -/
def orComplain {α : Type} (kind : String) : Option α → Except ReadError α
  | some x => .ok x
  | none => .error (.shape (.noAlternative kind))

theorem Node.ofText_written {node : Node} (layout : Json.Layout)
    (h : LegibleNumbers node.numbers) :
    ofText (String.ofList (layout.written 0 node.toJson [])) =
      if node.toJson.nesting ≤ Json.nestingLimit then .ok node.finitePart
      else .error .malformed := by
  rw [ofText, Json.readAll_written layout
    (fun j => orComplain "Node" (ofJson? j)) (fun bound cs => ?_)
    (numerals_toJson node ▸ h.storedNumerals) 0]
  · simp only [ofJson?_toJson, orComplain]
  · rw [read]
    cases Json.readValue bound Json.nestingLimit cs with
    | error e => rfl
    | ok p =>
        simp only [bind, Except.bind]
        cases ofJson? p.1 <;> rfl

theorem Node.ofText_toText {node : Node} (h : LegibleNumbers node.numbers) :
    ofText node.toText =
      if node.toJson.nesting ≤ Json.nestingLimit then .ok node.finitePart
      else .error .malformed := by
  rw [toText, Json.toText, Json.Layout.compact_eq _ 0]
  exact ofText_written .flat h

theorem Node.ofText_toIndentedText {node : Node}
    (h : LegibleNumbers node.numbers) :
    ofText node.toIndentedText =
      if node.toJson.nesting ≤ Json.nestingLimit then .ok node.finitePart
      else .error .malformed := by
  rw [toIndentedText, Json.toIndentedText, Json.Layout.indented_eq]
  exact ofText_written .tiered h

theorem Output.ofText_toText {output : Output}
    (h : LegibleNumbers output.numbers) :
    ofText output.toText =
      if output.toJson.nesting ≤ Json.nestingLimit then .ok output.finitePart
      else .error .malformed := by
  rw [toText, Json.toText, Json.Layout.compact_eq _ 0, ofText,
    Json.readAll_written .flat (fun j => orComplain "Value" (ofJson? j))
      (fun bound cs => ?_) (numerals_toJson output ▸ h.storedNumerals) 0]
  · simp only [ofJson?_toJson, orComplain]
  · cases Json.readValue bound Json.nestingLimit cs with
    | error e => rfl
    | ok p =>
        simp only [bind, Except.bind]
        cases ofJson? p.1 <;> rfl

/-- What is read under a condition is read exactly under it. -/
theorem ok_iff_of_eq_ite {α : Type} {read : Except ReadError α} {x : α}
    {e : ReadError} {p : Prop} [Decidable p]
    (h : read = if p then .ok x else .error e) :
    ((∃ y, read = .ok y) ↔ p) ∧ ∀ y, read = .ok y → y = x := by
  by_cases hp : p
  · rw [h, if_pos hp]
    exact ⟨⟨fun _ => hp, fun _ => ⟨x, rfl⟩⟩, fun y hy => by cases hy; rfl⟩
  · rw [h, if_neg hp]
    refine ⟨⟨fun hread => ?_, fun hp' => absurd hp' hp⟩,
      fun y hy => by cases hy⟩
    obtain ⟨y, hy⟩ := hread
    cases hy

/-- A tree and the sequence of only that tree are written apart. -/
theorem Output.toText_single_ne (node : Node) :
    (single node).toText ≠ (sequence [node]).toText := by
  intro h
  have hchars : node.toJson.compact [] =
      (Json.array [node.toJson]).compact [] := String.ofList_injective h
  cases node with
  | text content => cases hchars
  | element name attributes children => cases children <;> cases hchars

/-- A document written as compact JSON is read back exactly if its JSON form
nests no deeper than the reader goes, and then without the attributes whose
number is undefined or infinite, and otherwise the same. -/
theorem stored_document_reads_back :
    (∀ node : Node, LegibleNumbers node.numbers →
      ((∃ m, Node.ofText node.toText = .ok m) ↔
        node.toJson.nesting ≤ Json.nestingLimit) ∧
      ∀ m, Node.ofText node.toText = .ok m →
        m = node.finitePart ∧ m.text? = node.text? ∧
          ((∀ x ∈ node.numbers, x.isFinite = true) → m = node)) ∧
    (∀ output : Output, LegibleNumbers output.numbers →
      ((∃ o, Output.ofText output.toText = .ok o) ↔
        output.toJson.nesting ≤ Json.nestingLimit) ∧
      ∀ o, Output.ofText output.toText = .ok o →
        o = output.finitePart ∧
          ((∀ x ∈ output.numbers, x.isFinite = true) → o = output)) ∧
    ∀ node : Node,
      (Output.single node).toText ≠ (Output.sequence [node]).toText ∧
      (LegibleNumbers node.numbers →
        ∀ a b, Output.ofText (Output.single node).toText = .ok a →
          Output.ofText (Output.sequence [node]).toText = .ok b → a ≠ b) := by
  refine ⟨fun node h => ?_, fun output h => ?_, fun node =>
    ⟨Output.toText_single_ne node, fun h a b ha hb => ?_⟩⟩
  · obtain ⟨hread, hresult⟩ := ok_iff_of_eq_ite (Node.ofText_toText h)
    refine ⟨hread, fun m hm => ?_⟩
    rw [hresult m hm]
    exact ⟨rfl, node.text?_finitePart, node.finitePart_eq_self⟩
  · obtain ⟨hread, hresult⟩ := ok_iff_of_eq_ite (Output.ofText_toText h)
    refine ⟨hread, fun o ho => ?_⟩
    rw [hresult o ho]
    exact ⟨rfl, Output.finitePart_eq_self⟩
  · have hsingle : LegibleNumbers (Output.single node).numbers := by
      show LegibleNumbers (node.numbers ++ [])
      rwa [List.append_nil]
    have hsequence : LegibleNumbers (Output.sequence [node]).numbers :=
      hsingle
    rw [(ok_iff_of_eq_ite (Output.ofText_toText hsingle)).2 a ha,
      (ok_iff_of_eq_ite (Output.ofText_toText hsequence)).2 b hb]
    exact fun h => by cases h

/-- A half, which is no whole number, is legible. -/
theorem isLegible_half :
    (Numeral.real (Number.ofDecimal false 5 (-1))).IsLegible := by
  have htext : Json.encodeNumeral (.real (Number.ofDecimal false 5 (-1))) =
      [] ++ Number.digitsOf 0 ++ ['.', '5'] := by decide +kernel
  have hvalue : Numeral.Literal.value? ⟨false, [0], some [5], none⟩ =
      some (.real (Number.ofDecimal false 5 (-1))) := by decide +kernel
  have hliteral : Json.readLiteral .endOfText false
      (Number.digitsOf 0 ++ ['.', '5']) =
        .ok (⟨false, [0], some [5], none⟩, []) := rfl
  refine Json.isLegible_of_readNumeral false htext ?_
  rw [Json.readNumeral, hliteral]
  simp only [bind, Except.bind, hvalue]

/-- A tree with a whole number, a half and a number that is none. -/
def Node.mixed : Node :=
  .element "VStack"
    ⟨[("gap", .number (Number.ofNat 8)),
      ("ratio", .number (Number.ofDecimal false 5 (-1))),
      ("share", .number Number.notANumber)], by decide⟩
    [.text "\"a\"", .element "Divider" .empty []]

theorem mixed_reads_back :
    LegibleNumbers Node.mixed.numbers ∧
      Node.ofText Node.mixed.toText = .ok (.element "VStack"
        ⟨[("gap", .number (Number.ofNat 8)),
          ("ratio", .number (Number.ofDecimal false 5 (-1)))], by decide⟩
        [.text "\"a\"", .element "Divider" .empty []]) := by
  have hnumbers : LegibleNumbers Node.mixed.numbers := by
    intro x hx hfinite hwhole
    have hmem : x ∈ [Number.ofNat 8, Number.ofDecimal false 5 (-1),
      Number.notANumber] := hx
    simp only [List.mem_cons, List.not_mem_nil, or_false] at hmem
    rcases hmem with rfl | rfl | rfl
    · exact absurd (Number.isSmallWhole_ofNat (by decide)) hwhole
    · exact isLegible_half
    · exact absurd hfinite (by decide +kernel)
  obtain ⟨hread, hresult⟩ :=
    stored_document_reads_back.1 Node.mixed hnumbers
  obtain ⟨m, hm⟩ := hread.mpr (by decide +kernel)
  refine ⟨hnumbers, hm.trans ?_⟩
  rw [(hresult m hm).1]
  exact congrArg Except.ok (by decide +kernel)

end PageShell
