import PageShell.Json.Reader
import PageShell.Proofs.Json.Lexeme
import PageShell.Proofs.Number.Whole

/-!
# Legible numerals

A numeral is legible if its text reads back as it. Whether it is, is asked of
the text alone; `readValueWith_encodeNumeral` carries the answer into every
place where a numeral is written.

Natural numbers are legible as far as they go. Of the real numbers the whole
ones of 32 bits are: the text is the decimal digits and `.0`, the reader makes
ten times the number of it and divides by ten, and neither step rounds.
-/

namespace PageShell

/-- The text of the numeral reads back as the numeral. -/
def Numeral.IsLegible (m : Numeral) : Prop :=
  Json.ofText (String.ofList (Json.encodeNumeral m)) = .ok (.number m)

namespace Json

open Number (digitsOf stored)

/-! ## The characters of a numeral -/

/-- A character that numerals are written with, `null` among them. -/
def isNumericChar (c : Char) : Bool :=
  c.isAlphanum || c == '-' || c == '+' || c == '.'

/-- There are only such characters in the text. -/
def Numeric (cs : List Char) : Prop := ∀ c ∈ cs, isNumericChar c = true

theorem numeric_nil : Numeric [] := fun _ h => by cases h

theorem Numeric.cons {c : Char} {cs : List Char}
    (hc : isNumericChar c = true) (h : Numeric cs) : Numeric (c :: cs) :=
  List.forall_mem_cons.mpr ⟨hc, h⟩

theorem Numeric.append {as bs : List Char} (ha : Numeric as)
    (hb : Numeric bs) : Numeric (as ++ bs) :=
  List.forall_mem_append.mpr ⟨ha, hb⟩

theorem Numeric.take {cs : List Char} (h : Numeric cs) (n : Nat) :
    Numeric (cs.take n) := fun c hc => h c (List.mem_of_mem_take hc)

theorem Numeric.drop {cs : List Char} (h : Numeric cs) (n : Nat) :
    Numeric (cs.drop n) := fun c hc => h c (List.mem_of_mem_drop hc)

theorem isDigit_of_mem_digitsOf {n : Nat} {c : Char}
    (hc : c ∈ digitsOf n) : c.isDigit = true :=
  Nat.isDigit_of_mem_toDigits (by decide) (by decide) hc

theorem isNumericChar_of_isDigit {c : Char} (hc : c.isDigit = true) :
    isNumericChar c = true := by
  rw [isNumericChar, Char.isAlphanum, hc, Bool.or_true]
  rfl

theorem numeric_digitsOf (n : Nat) : Numeric (digitsOf n) :=
  fun _ hc => isNumericChar_of_isDigit (isDigit_of_mem_digitsOf hc)

theorem numeric_zeros (n : Nat) : Numeric (Number.zeros n) := by
  intro c hc
  rw [List.eq_of_mem_replicate hc]
  rfl

theorem Numeric.positionalText {digits : List Char} (h : Numeric digits)
    (keepsFraction : Bool) (k : Int) :
    Numeric (Number.positionalText keepsFraction digits k) := by
  unfold Number.positionalText
  split
  · refine (h.append (numeric_zeros _)).append ?_
    split
    · exact .cons rfl (.cons rfl numeric_nil)
    · exact numeric_nil
  · simp only
    split
    · exact (h.take _).append (.cons rfl (h.drop _))
    · exact .cons rfl (.cons rfl ((numeric_zeros _).append h))

theorem Numeric.exponentText {digits : List Char} (h : Numeric digits)
    (e : Int) : Numeric (Number.exponentText digits e) := by
  unfold Number.exponentText
  refine ((h.take 1).append ?_).append
    (.cons rfl (.cons ?_ (numeric_digitsOf _)))
  · split
    · exact numeric_nil
    · exact .cons rfl (h.drop 1)
  · split <;> rfl

theorem numeric_finiteText (format : Number.Format) (x : Number) :
    Numeric (format.finiteText x) := by
  unfold Number.Format.finiteText
  simp only
  split
  · exact (numeric_digitsOf _).positionalText _ _
  · split
    · exact (numeric_digitsOf _).positionalText _ _
    · exact (numeric_digitsOf _).exponentText _

theorem numeric_text (format : Number.Format) (x : Number) :
    Numeric (format.text x) := by
  have hsize : Numeric (if x.isInfinite then "inf".toList else
      format.finiteText x) := by
    split
    · show Numeric ['i', 'n', 'f']
      exact .cons rfl (.cons rfl (.cons rfl numeric_nil))
    · exact numeric_finiteText format x
  unfold Number.Format.text
  simp only
  split
  · show Numeric ['N', 'a', 'N']
    exact .cons rfl (.cons rfl (.cons rfl numeric_nil))
  · split
    · exact .cons rfl hsize
    · exact hsize

theorem numeric_encodeNumeral (m : Numeral) : Numeric (encodeNumeral m) := by
  cases m with
  | natural n => exact numeric_digitsOf n
  | negative n => exact .cons rfl (numeric_digitsOf n)
  | real x =>
      show Numeric (if x.isFinite then stored.text x else "null".toList)
      split
      · exact numeric_text stored x
      · show Numeric ['n', 'u', 'l', 'l']
        exact .cons rfl (.cons rfl (.cons rfl (.cons rfl numeric_nil)))

/-! ## No blanks in a numeral -/

/-- There is no blank in the text. -/
def Solid (cs : List Char) : Prop := ∀ c ∈ cs, isSpace c = false

theorem skipSpace_cons {c : Char} (hc : isSpace c = false)
    (cs : List Char) : skipSpace (c :: cs) = c :: cs := by
  rw [skipSpace, List.dropWhile_cons, hc]
  rfl

theorem Solid.skipSpace {cs : List Char} (h : Solid cs) :
    skipSpace cs = cs := by
  cases cs with
  | nil => rfl
  | cons c cs => exact skipSpace_cons (h c List.mem_cons_self) cs

theorem isSpace_of_isNumericChar {c : Char} (hc : isNumericChar c = true) :
    isSpace c = false := by
  rw [Bool.eq_false_iff]
  intro hspace
  simp only [isSpace, Bool.or_eq_true, beq_iff_eq] at hspace
  rcases hspace with ((rfl | rfl) | rfl) | rfl <;> cases hc

theorem isSpace_of_isDigit {c : Char} (hc : c.isDigit = true) :
    isSpace c = false :=
  isSpace_of_isNumericChar (isNumericChar_of_isDigit hc)

theorem solid_encodeNumeral (m : Numeral) : Solid (encodeNumeral m) :=
  fun c hc => isSpace_of_isNumericChar (numeric_encodeNumeral m c hc)

/-! ## The text of a numeral in its place -/

section

variable {array object : Reader Json} {cs s : List Char} {m : Numeral}

theorem readValueWith_minus (h : skipSpace cs = '-' :: s) :
    readValueWith array object cs =
      (readNumeral true s).map fun p => (.number p.1, p.2) := by
  rw [readValueWith, h]
  simp only
  cases readNumeral true s <;> rfl

theorem readValueWith_digit {c : Char} (hc : c.isDigit = true)
    (h : skipSpace cs = c :: s) :
    readValueWith array object cs =
      (readNumeral false (c :: s)).map fun p => (.number p.1, p.2) := by
  rw [readValueWith, h]
  split
  case h_9 h' =>
    cases h'
    rw [if_pos hc]
    cases readNumeral false (c :: s) <;> rfl
  case h_1 h' => cases h'
  all_goals
    next h' => cases h'; cases hc

/-- Where a numeral is read, there are no more than two ways to read it. -/
theorem readNumeral_of_readValueWith
    (harray : ∀ r, array r ≠ .ok (.number m, s))
    (hobject : ∀ r, object r ≠ .ok (.number m, s))
    (h : readValueWith array object cs = .ok (.number m, s)) :
    (∃ r, skipSpace cs = '-' :: r ∧ readNumeral true r = .ok (m, s)) ∨
      ∃ c r, skipSpace cs = c :: r ∧ c.isDigit = true ∧
        readNumeral false (c :: r) = .ok (m, s) := by
  unfold readValueWith at h
  split at h
  · cases h
  · exact absurd h (harray _)
  · exact absurd h (hobject _)
  · next r _ => cases hr : readString r <;> rw [hr] at h <;> cases h
  · next r hskip =>
      cases hr : readNumeral true r with
      | error e => rw [hr] at h; cases h
      | ok p =>
          rw [hr] at h
          cases h
          exact .inl ⟨r, hskip, hr⟩
  · next r _ =>
      cases hr : readWord "ull".toList r <;> rw [hr] at h <;> cases h
  · next r _ =>
      cases hr : readWord "rue".toList r <;> rw [hr] at h <;> cases h
  · next r _ =>
      cases hr : readWord "alse".toList r <;> rw [hr] at h <;> cases h
  · next c r _ _ _ _ _ _ _ hskip =>
      split at h
      · next hc =>
          cases hr : readNumeral false (c :: r) with
          | error e => rw [hr] at h; cases h
          | ok p =>
              rw [hr] at h
              cases h
              exact .inr ⟨c, r, hskip, hc, hr⟩
      · cases h

theorem readNumeral_of_readValue {bound depth : Nat}
    (h : readValue bound depth cs = .ok (.number m, s)) :
    (∃ r, skipSpace cs = '-' :: r ∧ readNumeral true r = .ok (m, s)) ∨
      ∃ c r, skipSpace cs = c :: r ∧ c.isDigit = true ∧
        readNumeral false (c :: r) = .ok (m, s) := by
  cases depth with
  | zero =>
      exact readNumeral_of_readValueWith (fun _ h => by cases h)
        (fun _ h => by cases h) h
  | succ depth =>
      refine readNumeral_of_readValueWith (fun r h => ?_) (fun r h => ?_) h
      · cases hr : readItems (readValue bound depth) bound true r <;>
          rw [hr] at h <;> cases h
      · revert h
        generalize readMembers _ _ bound true [] r = read
        cases read <;> intro h <;> cases h

end

theorem readAll_eq_ok {α : Type} {reader : (bound : Nat) → Reader α}
    {text : String} {x : α} :
    readAll reader text = .ok x ↔
      ∃ r, reader (text.toList.length + 1) text.toList = .ok (x, r) ∧
        skipSpace r = [] := by
  unfold readAll
  simp only
  cases hread : reader (text.toList.length + 1) text.toList with
  | error e =>
      constructor
      · exact fun h => by cases h
      · rintro ⟨r, h, -⟩
        cases h
  | ok p =>
      obtain ⟨y, r⟩ := p
      simp only [bind, Except.bind]
      constructor
      · intro h
        split at h
        · next hskip => cases h; exact ⟨r, rfl, hskip⟩
        · cases h
      · rintro ⟨r', h, hskip⟩
        cases h
        rw [hskip]

/-- How the text of a legible numeral is read. -/
theorem readNumeral_of_isLegible {m : Numeral} (hm : m.IsLegible) :
    (∃ r, encodeNumeral m = '-' :: r ∧ readNumeral true r = .ok (m, [])) ∨
      ∃ c r, encodeNumeral m = c :: r ∧ c.isDigit = true ∧
        readNumeral false (c :: r) = .ok (m, []) := by
  obtain ⟨s, hread, hskip⟩ := readAll_eq_ok.mp hm
  rw [String.toList_ofList] at hread
  have hsolid := solid_encodeNumeral m
  have hnil : s <:+ encodeNumeral m → s = [] := fun hsuffix => by
    have : Solid s := fun c hc => hsolid c (hsuffix.mem hc)
    rw [← this.skipSpace, hskip]
  rcases readNumeral_of_readValue hread with
    ⟨r, hr, hnumeral⟩ | ⟨c, r, hr, hc, hnumeral⟩
  · rw [hsolid.skipSpace] at hr
    have hsuffix := (local_readNumeral true r m s hnumeral).1
    rw [hnil (hr ▸ hsuffix.trans (List.suffix_cons '-' r))] at hnumeral
    exact .inl ⟨r, hr, hnumeral⟩
  · rw [hsolid.skipSpace] at hr
    have hsuffix := (local_readNumeral false (c :: r) m s hnumeral).1
    rw [hnil (hr ▸ hsuffix)] at hnumeral
    exact .inr ⟨c, r, hr, hc, hnumeral⟩

/-- A legible numeral is read wherever it is written. -/
theorem readValueWith_encodeNumeral {m : Numeral} (hm : m.IsLegible)
    (array object : Reader Json) {rest : List Char}
    (hrest : EndsNumeral rest) :
    readValueWith array object (encodeNumeral m ++ rest) =
      .ok (.number m, rest) := by
  rcases readNumeral_of_isLegible hm with
    ⟨r, hr, hnumeral⟩ | ⟨c, r, hr, hc, hnumeral⟩
  · have happend := (local_readNumeral true r m [] hnumeral).2 rest hrest
    rw [hr, readValueWith_minus (s := r ++ rest) rfl, happend]
    rfl
  · have happend :=
      (local_readNumeral false (c :: r) m [] hnumeral).2 rest hrest
    have hspace : skipSpace (c :: r ++ rest) = c :: (r ++ rest) :=
      skipSpace_cons (isSpace_of_isDigit hc) _
    rw [hr, readValueWith_digit hc hspace, ← List.cons_append, happend]
    rfl

/-! ## Digits -/

/-- The value of a decimal digit. -/
def digitValue (c : Char) : Nat := c.toNat - '0'.toNat

theorem readDigits_append {cs r : List Char}
    (hcs : ∀ c ∈ cs, c.isDigit = true) (hr : readDigits r = ([], r)) :
    readDigits (cs ++ r) = (cs.map digitValue, r) := by
  induction cs with
  | nil => exact hr
  | cons c cs ih =>
      have hc : c.isDigit = true := hcs c List.mem_cons_self
      have hrest := ih fun c' h => hcs c' (List.mem_cons_of_mem c h)
      simp only [List.cons_append, readDigits, digit?, hc, if_true, hrest,
        List.map_cons, digitValue]

theorem ofDigits_digitsOf (n : Nat) :
    ofDigits ((digitsOf n).map digitValue) = n := by
  have hcore := Nat.ofDigitChars_ten_toDigits (n := n)
  rw [Nat.ofDigitChars_eq_foldl] at hcore
  rw [ofDigits, List.foldl_map]
  simp only [digitValue, Nat.mul_comm _ 10]
  exact hcore

/-- Only the digits of zero start with one. -/
theorem digitsOf_eq_zero_cons {n : Nat} {cs : List Char}
    (h : digitsOf n = '0' :: cs) : cs = [] := by
  induction n using Nat.strongRecOn generalizing cs with
  | ind n ih =>
      unfold digitsOf at h
      rw [Nat.toDigits_eq_if (by decide)] at h
      split at h
      · exact (List.cons.inj h).2.symm
      · next hge =>
          cases hhead : Nat.toDigits 10 (n / 10) with
          | nil => exact absurd hhead Nat.toDigits_ne_nil
          | cons c cs' =>
              rw [hhead] at h
              cases h
              have hnil : cs' = [] := ih (n / 10) (by omega) hhead
              have hzero := Nat.ofDigitChars_ten_toDigits (n := n / 10)
              rw [hhead, hnil] at hzero
              have : n / 10 = 0 := hzero.symm
              omega

theorem eq_zero_of_digitValue {c : Char} (hc : c.isDigit = true)
    (h : digitValue c = 0) : c = '0' := by
  rw [Char.isDigit_iff_toNat] at hc
  have hle : c.toNat - '0'.toNat = 0 := h
  exact Char.toNat_inj.mp (by omega)

theorem readWhole_digitsOf (stop : ReadError) (n : Nat) {r : List Char}
    (hr : readDigits r = ([], r)) :
    readWhole stop (digitsOf n ++ r) =
      .ok ((digitsOf n).map digitValue, r) := by
  have hne : (digitsOf n).map digitValue ≠ [] := fun h =>
    Nat.toDigits_ne_nil (List.map_eq_nil_iff.mp h)
  have hsome : readSomeDigits stop (digitsOf n ++ r) =
      .ok ((digitsOf n).map digitValue, r) :=
    readSomeDigits_eq_ok.mpr
      ⟨readDigits_append (fun _ => isDigit_of_mem_digitsOf) hr, hne⟩
  rw [readWhole, hsome]
  simp only [bind, Except.bind]
  split
  · next d ds hds =>
      obtain ⟨c, cs, hcs, hc, htail⟩ := List.map_eq_cons_iff.mp hds
      have hzero : c = '0' := eq_zero_of_digitValue
        (isDigit_of_mem_digitsOf (hcs ▸ List.mem_cons_self)) hc
      subst hzero
      rw [digitsOf_eq_zero_cons hcs] at htail
      cases htail
  · rfl

theorem le_foldl_digits (ds : List Nat) (n : Nat) :
    n ≤ ds.foldl (fun n d => n * 10 + d) n := by
  induction ds generalizing n with
  | nil => exact Nat.le_refl n
  | cons d ds ih =>
      have := ih (n * 10 + d)
      rw [List.foldl_cons]
      omega

theorem absorb_eq {ds : List Nat} {n : Nat}
    (h : ds.foldl (fun n d => n * 10 + d) n < Numeral.naturalLimit) :
    Numeral.absorb n ds = (ds.foldl (fun n d => n * 10 + d) n, []) := by
  induction ds generalizing n with
  | nil => rfl
  | cons d ds ih =>
      rw [List.foldl_cons] at h
      have hlt := Nat.lt_of_le_of_lt (le_foldl_digits ds _) h
      rw [Numeral.absorb, if_pos hlt, ih h, List.foldl_cons]

theorem absorb_digitsOf {n : Nat} (hn : n < Numeral.naturalLimit) :
    Numeral.absorb 0 ((digitsOf n).map digitValue) = (n, []) := by
  have hvalue := ofDigits_digitsOf n
  rw [ofDigits] at hvalue
  rw [absorb_eq (by rw [hvalue]; exact hn), hvalue]

/-! ## Integers and whole numbers -/

theorem readValue_eq_readValueWith (bound depth : Nat) :
    ∃ array object, readValue bound depth = readValueWith array object := by
  cases depth <;> exact ⟨_, _, rfl⟩

theorem isLegible_of_readNumeral (isNegative : Bool) {m : Numeral} {n : Nat}
    {r : List Char}
    (htext : encodeNumeral m =
      (if isNegative then ['-'] else []) ++ digitsOf n ++ r)
    (hread : readNumeral isNegative (digitsOf n ++ r) = .ok (m, [])) :
    m.IsLegible := by
  refine readAll_eq_ok.mpr ⟨[], ?_, rfl⟩
  obtain ⟨array, object, hvalue⟩ := readValue_eq_readValueWith
    ((String.ofList (encodeNumeral m)).toList.length + 1) nestingLimit
  rw [hvalue, String.toList_ofList, htext]
  cases isNegative with
  | true =>
      exact (readValueWith_minus (s := digitsOf n ++ r) rfl).trans
        (by rw [hread]; rfl)
  | false =>
      cases hdigits : digitsOf n with
      | nil => exact absurd hdigits Nat.toDigits_ne_nil
      | cons c cs =>
          have hc : c.isDigit = true :=
            isDigit_of_mem_digitsOf (hdigits ▸ List.mem_cons_self)
          have hspace : skipSpace (c :: cs ++ r) = c :: (cs ++ r) :=
            skipSpace_cons (isSpace_of_isDigit hc) _
          rw [hdigits] at hread
          exact (readValueWith_digit hc hspace).trans
            (by rw [← List.cons_append, hread]; rfl)

theorem readNumeral_digitsOf (isNegative : Bool) {n : Nat}
    (hn : n < Numeral.naturalLimit) :
    readNumeral isNegative (digitsOf n ++ []) =
      .ok (Numeral.ofDigits isNegative n, []) := by
  have hliteral : readLiteral .endOfText isNegative (digitsOf n ++ []) =
      .ok (⟨isNegative, (digitsOf n).map digitValue, none, none⟩, []) := by
    rw [readLiteral, readWhole_digitsOf _ n rfl]
    rfl
  rw [readNumeral, hliteral]
  simp only [bind, Except.bind, Numeral.Literal.value?, absorb_digitsOf hn]

theorem isLegible_natural {n : Nat} (hn : n < Numeral.naturalLimit) :
    (Numeral.natural n).IsLegible :=
  isLegible_of_readNumeral false (n := n)
    (List.append_nil _).symm (readNumeral_digitsOf false hn)

theorem scale_tenth {n : Nat} (hn : n * 10 < Number.exactLimit) :
    Numeral.scale (n * 10) (-1) = some (Number.ofNat n) := by
  unfold Numeral.scale
  simp only
  rw [if_pos (by decide), Numeral.shrink, if_pos (by decide)]
  exact congrArg some (Number.div_powerOfTen_one hn)

theorem readNumeral_whole (isNegative : Bool) {n : Nat}
    (hn : n * 10 < Number.exactLimit) :
    readNumeral isNegative (digitsOf n ++ ['.', '0']) =
      .ok (.real ((Number.ofNat n).withSign isNegative), []) := by
  have hlimit : Number.exactLimit < Numeral.naturalLimit := by decide
  have hliteral :
      readLiteral .endOfText isNegative (digitsOf n ++ ['.', '0']) =
        .ok (⟨isNegative, (digitsOf n).map digitValue, some [0], none⟩,
          []) := by
    rw [readLiteral, readWhole_digitsOf _ n rfl]
    rfl
  have htenth : Numeral.absorb n [0] = (n * 10, []) := by
    rw [Numeral.absorb, if_pos (by omega)]
    rfl
  have hvalue : Numeral.Literal.value?
      ⟨isNegative, (digitsOf n).map digitValue, some [0], none⟩ =
        some (.real ((Number.ofNat n).withSign isNegative)) := by
    simp only [Numeral.Literal.value?, absorb_digitsOf (n := n) (by omega),
      Option.getD_some, Option.getD_none, htenth]
    have hplaces : (([] : List Nat).length : Int) -
        (([0] : List Nat).length - ([] : List Nat).length : Int) + 0 = -1 := by
      decide
    rw [hplaces, scale_tenth hn]
    cases isNegative <;> rfl
  rw [readNumeral, hliteral]
  simp only [bind, Except.bind, hvalue]

/-- Whole numbers of 32 bits are legible. -/
theorem isLegible_whole {x : Number} (hx : x.IsSmallWhole) :
    (Numeral.real x).IsLegible := by
  have hlimit : Number.maxUInt32 * 10 < Number.exactLimit := by decide
  have hle : x.wholePart ≤ Number.maxUInt32 := hx.2
  have hfinite : x.isFinite = true := (Number.isWhole_iff.mp hx.1).1
  have htext : encodeNumeral (.real x) =
      (if x.negative then ['-'] else []) ++ digitsOf x.wholePart ++
        ['.', '0'] := by
    rw [encodeNumeral, if_pos hfinite, Number.stored_text_whole hx]
  have hread := readNumeral_whole x.negative (n := x.wholePart) (by omega)
  rw [← Number.eq_withSign_ofNat hx.1] at hread
  exact isLegible_of_readNumeral x.negative htext hread

end Json

end PageShell
