import PageShell.Proofs.Json.Layout
import PageShell.Proofs.Json.Numeral

/-!
# A written value is read back

Reading and writing meet one part of a value at a time. In front of every
part stand blanks and perhaps a comma, and one lemma for each kind of
container says that its reader finds the part behind them
(`nextItem_before`, `nextKey_before`) or the end (`nextItem_closing`,
`nextKey_closing`). The parts themselves are an induction over the value.

The statement of the induction has both outcomes in it: a value is read back
if it nests no deeper than the reader goes, and otherwise the text is
refused, wherever in it the bracket too many stands. The reader's bound is
longer than the text, and each part takes a character of the text at least
for the comma or bracket before it, so the bound does not run out.
-/

namespace PageShell.Json

mutual

/-- The numerals of a value, in order. -/
def numerals : Json → List Numeral
  | .number numeral => [numeral]
  | .array items => numeralsItems items
  | .object members => numeralsMembers members
  | .null | .bool _ | .string _ => []
termination_by structural j => j

def numeralsItems : List Json → List Numeral
  | [] => []
  | j :: js => j.numerals ++ numeralsItems js
termination_by structural js => js

def numeralsMembers : List (String × Json) → List Numeral
  | [] => []
  | (_, j) :: ms => j.numerals ++ numeralsMembers ms
termination_by structural ms => ms

end

/-! ## Between the parts -/

theorem skipSpace_append {bs : List Char} (h : ∀ c ∈ bs, isSpace c = true)
    (cs : List Char) : skipSpace (bs ++ cs) = skipSpace cs :=
  List.dropWhile_append_of_pos h

theorem readValueWith_append (array object : Reader Json) {bs : List Char}
    (h : ∀ c ∈ bs, isSpace c = true) (cs : List Char) :
    readValueWith array object (bs ++ cs) =
      readValueWith array object cs := by
  rw [readValueWith, readValueWith, skipSpace_append h]

theorem readValue_append (bound depth : Nat) {bs : List Char}
    (h : ∀ c ∈ bs, isSpace c = true) (cs : List Char) :
    readValue bound depth (bs ++ cs) = readValue bound depth cs := by
  obtain ⟨array, object, hvalue⟩ := readValue_eq_readValueWith bound depth
  rw [hvalue]
  exact readValueWith_append array object h cs

/-- The text starts like a value. -/
def StartsValue (cs : List Char) : Prop :=
  ∃ c r, cs = c :: r ∧ isSpace c = false ∧ c ≠ ']' ∧ c ≠ ','

theorem nextItem_true {cs : List Char} (h : StartsValue cs) :
    nextItem true cs = .ok (true, cs) := by
  obtain ⟨c, r, rfl, hc, hclose, hcomma⟩ := h
  rw [nextItem, skipSpace_cons hc]
  split
  · next h => cases h
  · next h => cases h; exact absurd rfl hclose
  · next h => cases h; exact absurd rfl hcomma
  · rfl

theorem nextItem_comma {cs bs : List Char} (h : StartsValue cs)
    (hbs : ∀ c ∈ bs, isSpace c = true) :
    nextItem false (',' :: (bs ++ cs)) = .ok (true, cs) := by
  obtain ⟨c, r, rfl, hc, hclose, -⟩ := h
  rw [nextItem, skipSpace_cons (by decide)]
  simp only [Bool.false_eq_true, if_false]
  rw [skipSpace_append hbs, skipSpace_cons hc]
  split
  · next h => cases h
  · next h => cases h; exact absurd rfl hclose
  · rfl

theorem nextKey_comma {bs : List Char} (hbs : ∀ c ∈ bs, isSpace c = true)
    (r : List Char) :
    nextKey false (',' :: (bs ++ '"' :: r)) = .ok (true, r) := by
  rw [nextKey, skipSpace_cons (by decide)]
  simp only [Bool.false_eq_true, if_false]
  rw [skipSpace_append hbs, skipSpace_cons (by decide)]
  rfl

section

variable (layout : Layout) (level : Nat) (isFirst : Bool)

theorem nextItem_before {cs : List Char} (h : StartsValue cs) :
    nextItem isFirst (layout.before level isFirst ++ cs) =
      .ok (true, cs) := by
  have hline := layout.line_blank (level + 1)
  cases isFirst with
  | true =>
      show nextItem true (layout.line (level + 1) ++ cs) = _
      rw [nextItem, skipSpace_append hline, ← nextItem]
      exact nextItem_true h
  | false => exact nextItem_comma h hline

theorem nextItem_closing (r : List Char) :
    nextItem isFirst (layout.closing level isFirst ++ ']' :: r) =
      .ok (false, r) := by
  rw [nextItem, skipSpace_append (layout.closing_blank level isFirst),
    skipSpace_cons (by decide)]
  rfl

theorem nextKey_before (r : List Char) :
    nextKey isFirst (layout.before level isFirst ++ '"' :: r) =
      .ok (true, r) := by
  have hline := layout.line_blank (level + 1)
  cases isFirst with
  | true =>
      show nextKey true (layout.line (level + 1) ++ '"' :: r) = _
      rw [nextKey, skipSpace_append hline, skipSpace_cons (by decide)]
      rfl
  | false => exact nextKey_comma hline r

theorem nextKey_closing (r : List Char) :
    nextKey isFirst (layout.closing level isFirst ++ '}' :: r) =
      .ok (false, r) := by
  rw [nextKey, skipSpace_append (layout.closing_blank level isFirst),
    skipSpace_cons (by decide)]
  rfl

end

/-! ## The start and the end of a written value -/

theorem startsValue_written (layout : Layout) {j : Json}
    (hj : ∀ m ∈ j.numerals, m.IsLegible) (level : Nat)
    (rest : List Char) : StartsValue (layout.written level j rest) := by
  cases j with
  | null => exact ⟨'n', _, rfl, by decide⟩
  | bool value =>
      cases value with
      | false => exact ⟨'f', _, rfl, by decide⟩
      | true => exact ⟨'t', _, rfl, by decide⟩
  | number m =>
      have hm : m.IsLegible := hj m List.mem_cons_self
      rw [Layout.written]
      rcases readNumeral_of_isLegible hm with
        ⟨r, hr, -⟩ | ⟨c, r, hr, hc, -⟩
      · rw [hr]
        exact ⟨'-', _, rfl, by decide⟩
      · rw [hr]
        refine ⟨c, _, rfl, isSpace_of_isDigit hc, ?_, ?_⟩ <;>
          (rintro rfl; cases hc)
  | string value => exact ⟨'"', _, rfl, by decide⟩
  | array items => exact ⟨'[', _, rfl, by decide⟩
  | object members => exact ⟨'{', _, rfl, by decide⟩

/-- Blanks end a numeral, and so does what comes after them. -/
theorem EndsNumeral.append {bs cs : List Char} (h : EndsNumeral cs)
    (hbs : ∀ c ∈ bs, isSpace c = true) : EndsNumeral (bs ++ cs) := by
  cases bs with
  | nil => exact h
  | cons c bs =>
      refine endsNumeral_cons ?_ (bs ++ cs)
      have hc := hbs c List.mem_cons_self
      simp only [isSpace, Bool.or_eq_true, beq_iff_eq] at hc
      rcases hc with ((rfl | rfl) | rfl) | rfl <;> rfl

theorem endsNumeral_writtenItems (layout : Layout) (level : Nat)
    (js : List Json) (rest : List Char) :
    EndsNumeral (layout.writtenItems level false js rest) := by
  cases js with
  | nil =>
      exact (endsNumeral_cons rfl rest).append (layout.line_blank level)
  | cons j js => exact endsNumeral_cons rfl _

theorem endsNumeral_writtenMembers (layout : Layout) (level : Nat)
    (ms : List (String × Json)) (rest : List Char) :
    EndsNumeral (layout.writtenMembers level false ms rest) := by
  cases ms with
  | nil =>
      exact (endsNumeral_cons rfl rest).append (layout.line_blank level)
  | cons m ms => exact endsNumeral_cons rfl _

/-! ## One part more

A reader of the parts, whichever it is, is handed each part right behind the
comma, and a part with all that comes after it is shorter than what began
with the comma. -/

theorem encodeString_append (rest : List Char) (s : String) :
    encodeString s ++ rest =
      '"' :: (s.toList.flatMap encodeChar ++ '"' :: rest) := by
  simp only [encodeString, List.cons_append, List.append_assoc,
    List.nil_append]

section

variable (layout : Layout) (level : Nat) (isFirst : Bool) (j : Json)
  (rest : List Char)

theorem Layout.length_before :
    1 ≤ (layout.before level isFirst).length + isFirst.toNat := by
  cases isFirst <;> simp [before]

theorem Layout.length_item (js : List Json) :
    (layout.writtenItems level false js rest).length ≤
        (layout.written (level + 1) j
          (layout.writtenItems level false js rest)).length ∧
      (layout.written (level + 1) j
          (layout.writtenItems level false js rest)).length <
        (layout.writtenItems level isFirst (j :: js) rest).length +
          isFirst.toNat := by
  have hbefore := layout.length_before level isFirst
  refine ⟨(layout.suffix_written j (level + 1) _).length_le, ?_⟩
  rw [writtenItems, List.length_append]
  omega

theorem Layout.length_member (k : String) (ms : List (String × Json)) :
    (layout.writtenMembers level false ms rest).length ≤
        (layout.written (level + 1) j
          (layout.writtenMembers level false ms rest)).length ∧
      (layout.written (level + 1) j
          (layout.writtenMembers level false ms rest)).length <
        (layout.writtenMembers level isFirst ((k, j) :: ms) rest).length +
          isFirst.toNat := by
  refine ⟨(layout.suffix_written j (level + 1) _).length_le, ?_⟩
  rw [writtenMembers, List.length_append, List.length_append,
    List.length_cons, List.length_append]
  omega

end

section

variable {α : Type} (item : Reader α) (layout : Layout) (level fuel : Nat)
  (isFirst : Bool)

theorem readItems_closing (rest : List Char) :
    readItems item (fuel + 1) isFirst
        (layout.closing level isFirst ++ ']' :: rest) = .ok ([], rest) := by
  rw [readItems, nextItem_closing]
  rfl

theorem readItems_before {cs : List Char} (h : StartsValue cs) :
    readItems item (fuel + 1) isFirst (layout.before level isFirst ++ cs) =
      item cs >>= fun p => (readItems item fuel false p.2).map
        fun q => (p.1 :: q.1, q.2) := by
  rw [readItems, nextItem_before layout level isFirst h]
  simp only [bind, Except.bind, if_true]
  cases item cs with
  | error e => rfl
  | ok p =>
      simp only
      cases readItems item fuel false p.2 <;> rfl

variable {σ : Type} (member : String → σ → Reader σ) (s : σ)

theorem readMembers_closing (rest : List Char) :
    readMembers readKey member (fuel + 1) isFirst s
        (layout.closing level isFirst ++ '}' :: rest) = .ok (s, rest) := by
  rw [readMembers, nextKey_closing]
  rfl

theorem readMembers_before (k : String) (cs : List Char) :
    readMembers readKey member (fuel + 1) isFirst s
        (layout.before level isFirst ++ (encodeString k ++ cs)) =
      member k s cs >>= fun p =>
        readMembers readKey member fuel false p.1 p.2 := by
  rw [encodeString_append, readMembers, nextKey_before]
  simp only [bind, Except.bind, if_true, readKey_encodeString]

end

/-! ## One part of a value -/

section

variable (bound depth : Nat) (cs rest : List Char)

theorem readValue_array :
    readValue bound (depth + 1) ('[' :: cs) =
      (readItems (readValue bound depth) bound true cs).map
        fun p => (.array p.1, p.2) := by
  have hread : readValue bound (depth + 1) ('[' :: cs) =
      readItems (readValue bound depth) bound true cs >>= fun p =>
        .ok (.array p.1, p.2) := rfl
  rw [hread]
  cases readItems (readValue bound depth) bound true cs <;> rfl

/-- Reads the rest of a member after its key. -/
def member (bound depth : Nat) (k : String) (ms : List (String × Json)) :
    Reader (List (String × Json)) := fun cs => do
  let r ← readColon cs
  let (j, r) ← readValue bound depth r
  .ok ((k, j) :: ms, r)

theorem member_colon {gap : List Char}
    (hgap : ∀ c ∈ gap, isSpace c = true) (k : String)
    (ms : List (String × Json)) :
    member bound depth k ms (':' :: (gap ++ cs)) =
      (readValue bound depth cs).map fun p => ((k, p.1) :: ms, p.2) := by
  rw [member, readColon, skipSpace_cons (by decide)]
  simp only [bind, Except.bind, readValue_append bound depth hgap]
  cases readValue bound depth cs <;> rfl

theorem readValue_object :
    readValue bound (depth + 1) ('{' :: cs) =
      (readMembers readKey (member bound depth) bound true [] cs).map
        fun p => (.object p.1.reverse, p.2) := by
  have hread : readValue bound (depth + 1) ('{' :: cs) =
      readMembers readKey (member bound depth) bound true [] cs >>= fun p =>
        .ok (.object p.1.reverse, p.2) := rfl
  rw [hread]
  cases readMembers readKey (member bound depth) bound true [] cs <;> rfl

theorem readValue_atom {j : Json} (hj : j.nesting = 0)
    (h : ∀ array object, readValueWith array object cs = .ok (j, rest)) :
    readValue bound depth cs =
      if j.nesting ≤ depth then .ok (j, rest) else .error .malformed := by
  obtain ⟨array, object, hvalue⟩ := readValue_eq_readValueWith bound depth
  rw [hvalue, h array object, if_pos (by omega)]

theorem readValueWith_encodeString (array object : Reader Json)
    (s : String) :
    readValueWith array object (encodeString s ++ rest) =
      .ok (.string s, rest) := by
  rw [encodeString_append, readValueWith, skipSpace_cons (by decide)]
  simp only [readString_flatMap, bind, Except.bind, String.ofList_toList]

end

/-! ## The whole value -/

section

variable (layout : Layout) {bound : Nat}

mutual

theorem readValue_written (j : Json) (hj : ∀ m ∈ j.numerals, m.IsLegible)
    (depth level : Nat) {rest : List Char} (hrest : EndsNumeral rest)
    (hbound : (layout.written level j rest).length < bound) :
    readValue bound depth (layout.written level j rest) =
      if j.nesting ≤ depth then .ok (j, rest) else .error .malformed := by
  cases j with
  | null => exact readValue_atom bound depth _ rest rfl fun _ _ => rfl
  | bool value =>
      refine readValue_atom bound depth _ rest rfl fun _ _ => ?_
      cases value <;> rfl
  | number m =>
      have hm : m.IsLegible := hj m List.mem_cons_self
      exact readValue_atom bound depth _ rest rfl fun array object =>
        readValueWith_encodeNumeral hm array object hrest
  | string value =>
      exact readValue_atom bound depth _ rest rfl fun array object =>
        readValueWith_encodeString rest array object value
  | array items =>
      rw [Layout.written] at hbound ⊢
      cases depth with
      | zero => exact (if_neg (by rw [nesting]; omega)).symm
      | succ depth =>
          rw [readValue_array, readItems_written items hj depth level true
            rest (by simpa using hbound) (Nat.le_refl bound)]
          simp only [nesting, Nat.add_le_add_iff_right]
          split <;> rfl
  | object members =>
      rw [Layout.written] at hbound ⊢
      cases depth with
      | zero => exact (if_neg (by rw [nesting]; omega)).symm
      | succ depth =>
          rw [readValue_object, readMembers_written members hj depth level
            true rest [] (by simpa using hbound) (Nat.le_refl bound)]
          simp only [nesting, Nat.add_le_add_iff_right]
          split
          · simp only [Except.map, List.append_nil, List.reverse_reverse]
          · rfl
termination_by structural j

theorem readItems_written (js : List Json)
    (hjs : ∀ m ∈ numeralsItems js, m.IsLegible) (depth level : Nat)
    (isFirst : Bool) (rest : List Char) {fuel : Nat}
    (hfuel : (layout.writtenItems level isFirst js rest).length +
      isFirst.toNat < fuel) (hbound : fuel ≤ bound) :
    readItems (readValue bound depth) fuel isFirst
        (layout.writtenItems level isFirst js rest) =
      if nestingItems js ≤ depth then .ok (js, rest)
      else .error .malformed := by
  obtain ⟨fuel, rfl⟩ : ∃ n, fuel = n + 1 := ⟨fuel - 1, by omega⟩
  cases js with
  | nil =>
      rw [Layout.writtenItems, readItems_closing,
        if_pos (by rw [nestingItems]; omega)]
  | cons j js =>
      have hj : ∀ m ∈ j.numerals, m.IsLegible := fun m h =>
        hjs m (List.mem_append_left _ h)
      have hjs' : ∀ m ∈ numeralsItems js, m.IsLegible := fun m h =>
        hjs m (List.mem_append_right _ h)
      obtain ⟨hless, hvalue⟩ := layout.length_item level isFirst j rest js
      rw [Layout.writtenItems,
        readItems_before _ _ _ _ _ (startsValue_written layout hj _ _),
        readValue_written j hj depth (level + 1)
          (endsNumeral_writtenItems layout level js rest) (by omega)]
      simp only [nestingItems, Nat.max_le]
      by_cases hdeep : j.nesting ≤ depth
      · rw [if_pos hdeep]
        simp only [bind, Except.bind, hdeep, true_and]
        rw [readItems_written js hjs' depth level false rest
          (by simp only [Bool.toNat_false]; omega) (by omega)]
        by_cases hdeep' : nestingItems js ≤ depth
        · rw [if_pos hdeep', if_pos hdeep']
          rfl
        · rw [if_neg hdeep', if_neg hdeep']
          rfl
      · rw [if_neg hdeep, if_neg (fun h => hdeep h.1)]
        rfl
termination_by structural js

theorem readMembers_written (ms : List (String × Json))
    (hms : ∀ m ∈ numeralsMembers ms, m.IsLegible) (depth level : Nat)
    (isFirst : Bool) (rest : List Char) (done : List (String × Json))
    {fuel : Nat}
    (hfuel : (layout.writtenMembers level isFirst ms rest).length +
      isFirst.toNat < fuel) (hbound : fuel ≤ bound) :
    readMembers readKey (member bound depth) fuel isFirst done
        (layout.writtenMembers level isFirst ms rest) =
      if nestingMembers ms ≤ depth then .ok (ms.reverse ++ done, rest)
      else .error .malformed := by
  obtain ⟨fuel, rfl⟩ : ∃ n, fuel = n + 1 := ⟨fuel - 1, by omega⟩
  cases ms with
  | nil =>
      rw [Layout.writtenMembers, readMembers_closing,
        if_pos (by rw [nestingMembers]; omega)]
      rfl
  | cons m ms =>
      obtain ⟨k, j⟩ := m
      have hj : ∀ m ∈ j.numerals, m.IsLegible := fun m h =>
        hms m (List.mem_append_left _ h)
      have hms' : ∀ m ∈ numeralsMembers ms, m.IsLegible := fun m h =>
        hms m (List.mem_append_right _ h)
      obtain ⟨hless, hvalue⟩ := layout.length_member level isFirst j rest k ms
      rw [Layout.writtenMembers, readMembers_before,
        member_colon bound depth _ layout.gap_blank,
        readValue_written j hj depth (level + 1)
          (endsNumeral_writtenMembers layout level ms rest) (by omega)]
      simp only [nestingMembers, Nat.max_le]
      by_cases hdeep : j.nesting ≤ depth
      · rw [if_pos hdeep]
        simp only [hdeep, true_and, Except.map, bind, Except.bind]
        rw [readMembers_written ms hms' depth level false rest
          ((k, j) :: done) (by simp only [Bool.toNat_false]; omega)
          (by omega)]
        simp only [List.reverse_cons, List.append_assoc, List.cons_append,
          List.nil_append]
      · rw [if_neg hdeep, if_neg (fun h => hdeep h.1)]
        rfl
termination_by structural ms

end

/-- A reader that makes something of a whole value makes it of what was
written, if that does not nest too deep. -/
theorem readAll_written {α : Type} (make : Json → Except ReadError α)
    {reader : (bound : Nat) → Reader α}
    (hreader : ∀ bound cs, reader bound cs =
      readValue bound nestingLimit cs >>= fun p =>
        (make p.1).map fun x => (x, p.2))
    {j : Json} (hj : ∀ m ∈ j.numerals, m.IsLegible) (level : Nat) :
    readAll reader (String.ofList (layout.written level j [])) =
      if j.nesting ≤ nestingLimit then make j else .error .malformed := by
  have hvalue := readValue_written layout j hj nestingLimit level
    endsNumeral_nil (Nat.lt_succ_self _)
  rw [readAll, String.toList_ofList]
  simp only [hreader, hvalue, bind, Except.bind]
  by_cases hdeep : j.nesting ≤ nestingLimit
  · rw [if_pos hdeep, if_pos hdeep]
    simp only
    cases make j <;> rfl
  · rw [if_neg hdeep, if_neg hdeep]

end

/-- The compact text of a value. -/
theorem ofText_toText {j : Json} (hj : ∀ m ∈ j.numerals, m.IsLegible) :
    ofText j.toText =
      if j.nesting ≤ nestingLimit then .ok j else .error .malformed := by
  rw [toText, Layout.compact_eq j 0, ofText]
  refine readAll_written Layout.flat .ok (fun bound cs => ?_) hj 0
  cases readValue bound nestingLimit cs <;> rfl

/-- The indented text of a value. -/
theorem ofText_toIndentedText {j : Json}
    (hj : ∀ m ∈ j.numerals, m.IsLegible) :
    ofText j.toIndentedText =
      if j.nesting ≤ nestingLimit then .ok j else .error .malformed := by
  rw [toIndentedText, Layout.indented_eq j 0, ofText]
  refine readAll_written Layout.tiered .ok (fun bound cs => ?_) hj 0
  cases readValue bound nestingLimit cs <;> rfl

end PageShell.Json
