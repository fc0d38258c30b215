import PageShell.Proofs.Json.Numeral
import PageShell.Proofs.Toml.Kept

/-!
# The integers of a document

An integer of a document has 64 bits, because there is one place where the
reader makes one, and that place looks at the range (`integer?`). What has to
be followed is where values go from there, and only as far as the entries at
the top of the document: a visit to a table further down leaves a table in
its place, and a table is no integer.

In the other direction every integer that is not negative and in range can be
given to a key. The line that does it is `key = digits`, and the work is in
what the digits are not: the reader of a value looks for a date, a time and a
floating-point number before it looks for an integer, and each of them asks
for a character that is no digit.
-/

namespace PageShell.Toml

/-- An integer is in the range of 64 bits; all other values are. -/
def Bounded : Toml → Prop
  | .integer i => -(integerLimit : Int) ≤ i ∧ i < integerLimit
  | _ => True

/-! ## The readers of values -/

section

variable {value : Toml} {cs r : List Char}

theorem bounded_of_integer? {isNegative : Bool} {n : Nat}
    (h : integer? isNegative n = some value) : value.Bounded := by
  unfold integer? at h
  split at h
  · split at h
    · cases h
      exact ⟨by omega, by unfold integerLimit; omega⟩
    · cases h
  · split at h
    · cases h
      exact ⟨by unfold integerLimit; omega, by omega⟩
    · cases h

theorem bounded_of_readInteger (h : readInteger cs = some (value, r)) :
    value.Bounded := by
  have hbased {base : Nat} {ds : Option (List Nat × List Char)}
      (h : (ds.bind fun p => (integer? false (ofDigits base p.1)).bind
        fun value => some (value, p.2)) = some (value, r)) :
      value.Bounded := by
    obtain ⟨_, -, h⟩ := Option.bind_eq_some_iff.mp h
    obtain ⟨_, hinteger, h⟩ := Option.bind_eq_some_iff.mp h
    cases h
    exact bounded_of_integer? hinteger
  unfold readInteger at h
  split at h
  case h_4 =>
      obtain ⟨_, -, h⟩ := Option.bind_eq_some_iff.mp h
      obtain ⟨_, hinteger, h⟩ := Option.bind_eq_some_iff.mp h
      cases h
      exact bounded_of_integer? hinteger
  all_goals exact hbased h

theorem bounded_of_readSpecialFloat {isNegative : Bool}
    (h : readSpecialFloat isNegative cs = some (value, r)) :
    value.Bounded := by
  unfold readSpecialFloat at h
  split at h
  · cases h
    trivial
  · cases h
    trivial
  · cases h

theorem bounded_of_float? {isNegative : Bool} {whole fraction : List Nat}
    {exponent : Int}
    (h : float? isNegative whole fraction exponent = some value) :
    value.Bounded := by
  unfold float? at h
  simp only at h
  split at h
  · cases h
  · cases h
    trivial

theorem bounded_of_readFloat (h : readFloat cs = some (value, r)) :
    value.Bounded := by
  unfold readFloat at h
  simp only at h
  split at h
  · next hspecial =>
      cases h
      exact bounded_of_readSpecialFloat hspecial
  · obtain ⟨_, -, h⟩ := Option.bind_eq_some_iff.mp h
    split at h
    · obtain ⟨_, -, h⟩ := Option.bind_eq_some_iff.mp h
      split at h
      case h_3 =>
          obtain ⟨_, hfloat, h⟩ := Option.bind_eq_some_iff.mp h
          cases h
          exact bounded_of_float? hfloat
      all_goals
        obtain ⟨_, -, h⟩ := Option.bind_eq_some_iff.mp h
        obtain ⟨_, hfloat, h⟩ := Option.bind_eq_some_iff.mp h
        cases h
        exact bounded_of_float? hfloat
    · obtain ⟨_, -, h⟩ := Option.bind_eq_some_iff.mp h
      obtain ⟨_, hfloat, h⟩ := Option.bind_eq_some_iff.mp h
      cases h
      exact bounded_of_float? hfloat

theorem bounded_of_readDateTime (h : readDateTime cs = some (value, r)) :
    value.Bounded := by
  have hdate : value = .dateTime := by
    unfold readDateTime at h
    split at h
    · split at h
      · split at h
        · obtain ⟨_, -, h⟩ := Option.bind_eq_some_iff.mp h
          cases h
          rfl
        · cases h
          rfl
      · cases h
        rfl
    · cases h
      rfl
    · obtain ⟨_, -, h⟩ := Option.bind_eq_some_iff.mp h
      cases h
      rfl
  rw [hdate]
  trivial

theorem bounded_of_readValueWith {bound : Nat} {array table : Scanner Toml}
    (harray : ∀ {cs value r}, array cs = some (value, r) → value.Bounded)
    (htable : ∀ {cs value r}, table cs = some (value, r) → value.Bounded)
    (h : readValueWith bound array table cs = some (value, r)) :
    value.Bounded := by
  unfold readValueWith at h
  split at h
  case h_1 => exact harray h
  case h_2 => exact htable h
  case h_3 | h_4 =>
      obtain ⟨_, -, h⟩ := Option.bind_eq_some_iff.mp h
      cases h
      trivial
  case h_5 | h_6 =>
      cases h
      trivial
  case h_7 | h_8 => exact bounded_of_readSpecialFloat h
  case h_9 =>
      rcases Option.or_eq_some_iff.mp h with h | ⟨-, h⟩
      · exact bounded_of_readDateTime h
      · rcases Option.or_eq_some_iff.mp h with h | ⟨-, h⟩
        · exact bounded_of_readFloat h
        · exact bounded_of_readInteger h

theorem bounded_of_readValue {bound depth : Nat}
    (h : readValue bound depth cs = some (value, r)) : value.Bounded := by
  cases depth with
  | zero =>
      exact bounded_of_readValueWith (fun h => by cases h)
        (fun h => by cases h) h
  | succ depth =>
      refine bounded_of_readValueWith ?_ ?_ h
      · intro cs value r h
        obtain ⟨_, -, h⟩ := Option.bind_eq_some_iff.mp h
        cases h
        trivial
      · intro cs value r h
        split at h
        · cases h
          trivial
        · obtain ⟨_, -, h⟩ := Option.bind_eq_some_iff.mp h
          cases h
          trivial

end

/-! ## The entries of a document -/

namespace Table

/-- The integers among the values of the table are in range. -/
def Bounded (t : Table) : Prop := ∀ e ∈ t.entries, e.2.Bounded

theorem kept_bounded : Kept Bounded Toml.Bounded where
  empty _ he := by cases he
  push ht _ hvalue := by
    intro e he
    rcases List.mem_append.mp he with he | he
    · exact ht e he
    · rw [List.mem_singleton.mp he]
      exact hvalue
  replace ht hvalue := by
    intro e he
    obtain ⟨e', he', rfl⟩ := List.mem_map.mp he
    split
    · exact hvalue
    · exact ht e' he'
  erase ht e he := ht e (List.mem_filter.mp he).1
  read := bounded_of_readValue
  table := trivial
  tables := trivial

end Table

/-- The integers at the top of a document that is read have 64 bits. -/
theorem bounded_of_ofText? {source : String}
    {entries : List (String × Toml)} (h : ofText? source = some entries) :
    ∀ e ∈ entries, e.2.Bounded := by
  obtain ⟨t, ht, rfl⟩ := Table.kept_bounded.exists_of_ofText? h
  exact ht

/-! ## Digits -/

section

open Number (digitsOf)
open Json (digitValue isDigit_of_mem_digitsOf)

variable {cs r : List Char} {n : Nat}

theorem mem_of_readPlaces {count value m : Nat} {c : Char}
    (h : readPlaces count value cs = some (m, r)) (hc : c ∈ r) : c ∈ cs := by
  induction count generalizing value cs with
  | zero =>
      cases h
      exact hc
  | succ count ih =>
      cases cs with
      | nil => cases h
      | cons c' cs =>
          obtain ⟨_, -, h⟩ := Option.bind_eq_some_iff.mp h
          exact List.mem_cons_of_mem c' (ih h)

theorem mem_of_readChar {c : Char} (h : readChar c cs = some r) : c ∈ cs := by
  cases cs with
  | nil => cases h
  | cons c' cs =>
      rw [readChar] at h
      split at h
      · next heq =>
          rw [heq]
          exact List.mem_cons_self
      · cases h

/-- A date has a hyphen behind its year, and a time has a colon behind its
hour. -/
theorem mem_of_readDateTime {value : Toml}
    (h : readDateTime cs = some (value, r)) : '-' ∈ cs ∨ ':' ∈ cs := by
  cases hdate : readDate cs with
  | some _ =>
      obtain ⟨⟨_, r'⟩, hplaces, hdate⟩ := Option.bind_eq_some_iff.mp hdate
      obtain ⟨_, hchar, -⟩ := Option.bind_eq_some_iff.mp hdate
      exact .inl (mem_of_readPlaces hplaces (mem_of_readChar hchar))
  | none =>
      rw [readDateTime, hdate] at h
      obtain ⟨_, htime, -⟩ := Option.bind_eq_some_iff.mp h
      obtain ⟨⟨_, r'⟩, hpart, htime⟩ := Option.bind_eq_some_iff.mp htime
      obtain ⟨_, hchar, -⟩ := Option.bind_eq_some_iff.mp htime
      obtain ⟨⟨_, r''⟩, hplaces, hpart⟩ := Option.bind_eq_some_iff.mp hpart
      simp only at hpart
      split at hpart
      · cases hpart
        exact .inr (mem_of_readPlaces hplaces (mem_of_readChar hchar))
      · cases hpart

/-- Two characters are told apart by a class that has only one of them. -/
theorem ne_of_class {p : Char → Bool} {c c' : Char} (hc : p c = true)
    (hc' : p c' = false) : c ≠ c' := by
  intro h
  rw [h, hc'] at hc
  cases hc

theorem readMoreDigits_eq (hcs : ∀ c ∈ cs, c.isDigit = true) :
    readMoreDigits Json.digit? cs = some (cs.map digitValue, []) := by
  induction cs with
  | nil => rfl
  | cons c cs ih =>
      have hc : c.isDigit = true := hcs c List.mem_cons_self
      have hrest := ih fun c' h => hcs c' (List.mem_cons_of_mem c h)
      have hne : c ≠ '_' := ne_of_class hc rfl
      rw [readMoreDigits.eq_def]
      split
      · next h => cases h
      · next h => exact absurd (List.cons.inj h).1 hne
      · next h => exact absurd (List.cons.inj h).1 hne
      · next h =>
          cases h
          rw [Json.digit?, if_pos hc]
          simp only [hrest]
          rfl

theorem exists_digitsOf_eq_cons (n : Nat) :
    ∃ c cs, digitsOf n = c :: cs ∧ c.isDigit = true ∧
      ∀ c' ∈ cs, c'.isDigit = true := by
  cases hdigits : digitsOf n with
  | nil => exact absurd hdigits Nat.toDigits_ne_nil
  | cons c cs =>
      have hall : ∀ c' ∈ c :: cs, c'.isDigit = true := fun c' h =>
        isDigit_of_mem_digitsOf (hdigits ▸ h)
      exact ⟨c, cs, rfl, List.forall_mem_cons.mp hall⟩

theorem readWhole_digitsOf (n : Nat) :
    readWhole (digitsOf n) = some ((digitsOf n).map digitValue, []) := by
  obtain ⟨c, cs, hdigits, hc, hcs⟩ := exists_digitsOf_eq_cons n
  rw [hdigits, readWhole.eq_def]
  split
  · next h =>
      cases h
      rw [Json.digitsOf_eq_zero_cons hdigits]
      rfl
  · rw [readDigits, Json.digit?, if_pos hc]
    simp only [readMoreDigits_eq hcs]
    rfl

theorem readSign_of_isDigit {c : Char} (hc : c.isDigit = true) :
    Json.readSign (c :: cs) = (false, c :: cs) := by
  rw [Json.readSign.eq_def]
  split
  · next h => exact absurd (List.cons.inj h).1 (ne_of_class hc rfl)
  · next h => exact absurd (List.cons.inj h).1 (ne_of_class hc rfl)
  · rfl

theorem readFloat_digitsOf (n : Nat) : readFloat (digitsOf n) = none := by
  obtain ⟨c, cs, hdigits, hc, -⟩ := exists_digitsOf_eq_cons n
  have hspecial : readSpecialFloat false (c :: cs) = none := by
    rw [readSpecialFloat.eq_def]
    split
    · next h => exact absurd (List.cons.inj h).1 (ne_of_class hc rfl)
    · next h => exact absurd (List.cons.inj h).1 (ne_of_class hc rfl)
    · rfl
  have hwhole := readWhole_digitsOf n
  rw [hdigits] at hwhole ⊢
  rw [readFloat, readSign_of_isDigit hc]
  simp only [hspecial, hwhole]
  rfl

theorem readInteger_digitsOf (hn : n < integerLimit) :
    readInteger (digitsOf n) = some (.integer n, []) := by
  obtain ⟨c, cs, hdigits, hc, hcs⟩ := exists_digitsOf_eq_cons n
  have hwhole := readWhole_digitsOf n
  have hvalue : ofDigits 10 ((digitsOf n).map digitValue) = n :=
    Json.ofDigits_digitsOf n
  have hbase {x : Char} (hx : x.isDigit = false) {cs' : List Char} :
      c :: cs ≠ '0' :: x :: cs' := by
    intro h
    have hmem : x ∈ cs := by
      rw [(List.cons.inj h).2]
      exact List.mem_cons_self
    exact ne_of_class (hcs x hmem) hx rfl
  rw [hdigits] at hwhole hvalue ⊢
  rw [readInteger.eq_def]
  split
  · next h => exact absurd h (hbase rfl)
  · next h => exact absurd h (hbase rfl)
  · next h => exact absurd h (hbase rfl)
  · rw [readSign_of_isDigit hc]
    simp only [hwhole, Option.bind_eq_bind, Option.bind_some, hvalue,
      integer?, if_pos hn]
    rfl

/-- Digits are read as the integer that they write. -/
theorem readValue_digitsOf (bound depth : Nat) (hn : n < integerLimit) :
    readValue bound depth (digitsOf n) = some (.integer n, []) := by
  have hdate : readDateTime (digitsOf n) = none := by
    rw [Option.eq_none_iff_forall_not_mem]
    rintro ⟨value, r⟩ h
    rcases mem_of_readDateTime h with h | h
    · exact ne_of_class (p := Char.isDigit) (isDigit_of_mem_digitsOf h) rfl rfl
    · exact ne_of_class (p := Char.isDigit) (isDigit_of_mem_digitsOf h) rfl rfl
  have hvalue (array table : Scanner Toml) :
      readValueWith bound array table (digitsOf n) =
        some (.integer n, []) := by
    obtain ⟨c, cs, hdigits, hc, -⟩ := exists_digitsOf_eq_cons n
    have hnot {c' : Char} (hc' : c'.isDigit = false) {cs' : List Char} :
        digitsOf n ≠ c' :: cs' := by
      intro h
      rw [hdigits] at h
      exact ne_of_class hc hc' (List.cons.inj h).1
    rw [readValueWith.eq_def]
    split
    case h_9 =>
        rw [hdate, readFloat_digitsOf, readInteger_digitsOf hn]
        rfl
    all_goals
      next h => exact absurd h (hnot rfl)
  cases depth with
  | zero => exact hvalue _ _
  | succ depth => exact hvalue _ _

end

/-! ## One line -/

section

open Number (digitsOf)

variable {key : List Char} {n : Nat}

/-- The line that gives a key an integer. -/
def integerLine (key : List Char) (n : Nat) : List Char :=
  key ++ " = ".toList ++ digitsOf n

theorem isBlank_of_isKeyChar {c : Char} (hc : isKeyChar c = true) :
    isBlank c = false := by
  rw [isBlank, Bool.or_eq_false_iff, beq_eq_false_iff_ne,
    beq_eq_false_iff_ne]
  exact ⟨ne_of_class hc (by decide), ne_of_class hc (by decide)⟩

theorem skipBlanks_cons {c : Char} (hc : isKeyChar c = true)
    (cs : List Char) : skipBlanks (c :: cs) = c :: cs :=
  List.dropWhile_cons_of_neg
    (by rw [isBlank_of_isKeyChar hc]; exact Bool.false_ne_true)

/-- A digit is a character of keys, as a key may be a number. -/
theorem isKeyChar_of_isDigit {c : Char} (hc : c.isDigit = true) :
    isKeyChar c = true := by
  rw [isKeyChar, Char.isAlphanum, hc, Bool.or_true]
  rfl

/-- A key without quotes is read up to the equals sign. -/
theorem readKey_bare (hne : key ≠ []) (hkey : ∀ c ∈ key, isKeyChar c = true)
    (bound : Nat) (r : List Char) :
    readKey (bound + 1) (key ++ ' ' :: '=' :: r) =
      some (([], String.ofList key), '=' :: r) := by
  obtain ⟨c, cs, rfl⟩ := List.exists_cons_of_ne_nil hne
  have hc : isKeyChar c = true := hkey c List.mem_cons_self
  have htake : ((c :: cs) ++ ' ' :: '=' :: r).takeWhile isKeyChar =
      c :: cs := by
    rw [List.takeWhile_append_of_pos hkey,
      List.takeWhile_cons_of_neg (by decide), List.append_nil]
  have hpart : readKeyPart (bound + 1) ((c :: cs) ++ ' ' :: '=' :: r) =
      some (String.ofList (c :: cs), ' ' :: '=' :: r) := by
    rw [readKeyPart.eq_def]
    split
    · next h =>
        exact absurd (List.cons.inj h).1 (ne_of_class hc (by decide))
    · next h =>
        exact absurd (List.cons.inj h).1 (ne_of_class hc (by decide))
    · simp only [htake]
      rw [if_neg (List.cons_ne_nil c cs), List.drop_left]
  have hskip : skipBlanks ((c :: cs) ++ ' ' :: '=' :: r) =
      (c :: cs) ++ ' ' :: '=' :: r := by
    exact skipBlanks_cons hc _
  have hparts : readKeyParts (bound + 1) (bound + 1)
      ((c :: cs) ++ ' ' :: '=' :: r) =
      some ([String.ofList (c :: cs)], '=' :: r) := by
    rw [readKeyParts, hskip, hpart]
    rfl
  rw [readKey, hparts]
  rfl

theorem readLine_integerLine (hne : key ≠ [])
    (hkey : ∀ c ∈ key, isKeyChar c = true) (hn : n < integerLimit)
    (bound : Nat) :
    readLine (bound + 1) {} (integerLine key n) =
      some ({ opened := ⟨.header, [(String.ofList key, .integer n)]⟩ },
        []) := by
  have hline : integerLine key n = key ++ ' ' :: '=' :: ' ' :: digitsOf n :=
    List.append_assoc key _ _
  have hnot {c' : Char} (hc' : isKeyChar c' = false) {cs' : List Char} :
      integerLine key n ≠ c' :: cs' := by
    obtain ⟨c, cs, hcons⟩ := List.exists_cons_of_ne_nil hne
    have hc : isKeyChar c = true := hkey c (hcons ▸ List.mem_cons_self)
    rw [hline, hcons]
    exact fun h => ne_of_class hc hc' (List.cons.inj h).1
  have hskip : skipBlanks (' ' :: digitsOf n) = digitsOf n := by
    obtain ⟨c, cs, hdigits, hc, -⟩ := exists_digitsOf_eq_cons n
    rw [skipBlanks, List.dropWhile_cons_of_pos rfl, hdigits]
    exact skipBlanks_cons (isKeyChar_of_isDigit hc) cs
  rw [readLine.eq_def]
  split
  case h_6 =>
      have hread : readChar '=' ('=' :: ' ' :: digitsOf n) =
          some (' ' :: digitsOf n) := rfl
      rw [hline, readKey_bare hne hkey]
      simp only [Option.bind_eq_bind, Option.bind_some, hread, hskip,
        readValue_digitsOf _ _ hn]
      rfl
  all_goals
    next h => exact absurd h (hnot (by decide))

/-- A document of one line that gives a key an integer. -/
theorem ofText?_integerLine (hne : key ≠ [])
    (hkey : ∀ c ∈ key, isKeyChar c = true) (hn : n < integerLimit) :
    ofText? (String.ofList (integerLine key n)) =
      some [(String.ofList key, .integer n)] := by
  obtain ⟨c, cs, hcons⟩ := List.exists_cons_of_ne_nil hne
  have hc : isKeyChar c = true := hkey c (hcons ▸ List.mem_cons_self)
  have hfirst :
      integerLine key n = c :: (cs ++ " = ".toList ++ digitsOf n) := by
    rw [integerLine, hcons]
    rfl
  have hmark : dropByteOrderMark (integerLine key n) = integerLine key n := by
    rw [hfirst, dropByteOrderMark.eq_def]
    split
    · next h =>
        exact absurd (List.cons.inj h).1 (ne_of_class hc (by decide))
    · rfl
  have hskip : skipBlanks (integerLine key n) = integerLine key n := by
    rw [hfirst]
    exact skipBlanks_cons hc _
  have hlines (whole bound : Nat) :
      readLines (whole + 1) (bound + 2) {} (integerLine key n) =
        some { opened := ⟨.header, [(String.ofList key, .integer n)]⟩ } := by
    rw [readLines, hskip]
    split
    · next h => rw [hfirst] at h; cases h
    · rw [readLine_integerLine hne hkey hn]
      rfl
  have hlength : ∃ bound, (integerLine key n).length = bound + 1 := by
    rw [hfirst]
    exact ⟨_, rfl⟩
  obtain ⟨bound, hbound⟩ := hlength
  rw [ofText?, String.toList_ofList, hmark]
  simp only [hbound, hlines]
  rfl

end

end PageShell.Toml
