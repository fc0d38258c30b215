import PageShell.Json.Reader
import PageShell.Json.Writer

/-!
# Lexemes in front of a rest

A string is written character by character, and each written character is
read as one: `readString_encodeChar` is that step, and a whole string is an
induction over it.

A numeral has no end mark. Its reader stops at the first character that can
not belong to it, so it reads the same in front of any rest that does not go
on like a numeral (`EndsNumeral`): a comma, a bracket, a blank or the end of
the text. That is a property of each of its parts (`Local`), and it passes
from the parts to the sequence of them.
-/

namespace PageShell.Json

/-! ## Strings -/

theorem hexDigit?_hexDigit {d : Nat} (hd : d < 16) :
    hexDigit? (hexDigit d) = some d := by
  have hall : ∀ d : Fin 16, hexDigit? (hexDigit d.val) = some d.val := by
    decide
  exact hall ⟨d, hd⟩

theorem readString_escape {r r' : List Char} {c : Char}
    (h : readEscape r = .ok (c, r')) :
    readString ('\\' :: r) =
      (readString r').map fun p => (c :: p.1, p.2) := by
  rw [readString]
  split
  · next e he => rw [h] at he; cases he
  · next c' r'' he =>
      rw [h] at he
      cases he
      cases readString r' <;> rfl

theorem readString_plain {c : Char} (hquote : c ≠ '"') (hback : c ≠ '\\')
    (hc : ¬ c.toNat < 0x20) (r : List Char) :
    readString (c :: r) = (readString r).map fun p => (c :: p.1, p.2) := by
  rw [readString]
  · rw [if_neg hc]
    cases readString r <;> rfl
  · exact hquote
  · exact hback

/-- A control character, by its number. -/
theorem readEscape_control {c : Char} (hc : c.toNat < 0x20) (r : List Char) :
    readEscape ('u' :: '0' :: '0' :: hexDigit (c.toNat / 16) ::
      hexDigit (c.toNat % 16) :: r) = .ok (c, r) := by
  have hzero : hexDigit? '0' = some 0 := by decide
  have hhigh := hexDigit?_hexDigit (d := c.toNat / 16) (by omega)
  have hlow := hexDigit?_hexDigit (d := c.toNat % 16) (by omega)
  have hvalue : ((0 * 16 + 0) * 16 + c.toNat / 16) * 16 + c.toNat % 16 =
      c.toNat := by omega
  have hquad : readHexQuad ('0' :: '0' :: hexDigit (c.toNat / 16) ::
      hexDigit (c.toNat % 16) :: r) = .ok (c.toNat, r) := by
    simp only [readHexQuad, hzero, hhigh, hlow, hvalue]
  have hnotLow : isLowSurrogate c.toNat = false := by
    simp only [isLowSurrogate, Bool.and_eq_false_iff, decide_eq_false_iff_not]
    omega
  have hnotHigh : isHighSurrogate c.toNat = false := by
    simp only [isHighSurrogate, Bool.and_eq_false_iff,
      decide_eq_false_iff_not]
    omega
  rw [readEscape, hquad]
  simp only [bind, Except.bind, hnotLow, hnotHigh, Bool.false_eq_true,
    if_false, Char.ofNat_toNat]

theorem readString_encodeChar (c : Char) (r : List Char) :
    readString (encodeChar c ++ r) =
      (readString r).map fun p => (c :: p.1, p.2) := by
  unfold encodeChar
  split
  case h_8 hquote hback _ _ _ _ _ =>
    split
    · next hc => exact readString_escape (readEscape_control hc r)
    · next hc => exact readString_plain hquote hback hc r
  all_goals exact readString_escape rfl

theorem readString_flatMap (cs r : List Char) :
    readString (cs.flatMap encodeChar ++ '"' :: r) = .ok (cs, r) := by
  induction cs with
  | nil => rw [List.flatMap_nil, List.nil_append, readString]
  | cons c cs ih =>
      rw [List.flatMap_cons, List.append_assoc, readString_encodeChar, ih]
      rfl

theorem readKey_encodeString (s : String) (r : List Char) :
    readKey (s.toList.flatMap encodeChar ++ '"' :: r) = .ok (s, r) := by
  rw [readKey, readString_flatMap]
  simp only [bind, Except.bind, String.ofList_toList]

/-! ## Numerals in front of a rest -/

/-- The characters that a numeral can go on with. -/
def isNumeralChar (c : Char) : Bool :=
  c.isDigit || c == '.' || c == 'e' || c == 'E' || c == '+' || c == '-'

/-- What comes after a numeral does not go on with it. -/
def EndsNumeral (r : List Char) : Prop :=
  ∀ c s, r = c :: s → isNumeralChar c = false

theorem endsNumeral_nil : EndsNumeral [] := fun _ _ h => by cases h

theorem endsNumeral_cons {c : Char} (hc : isNumeralChar c = false)
    (r : List Char) : EndsNumeral (c :: r) := fun _ _ h => by
  cases h
  exact hc

/-- If a numeral can go on with `c`, a text that does not start with it does
not do so in front of a rest either. -/
theorem EndsNumeral.append_ne_cons {r cs : List Char} {c : Char}
    (hr : EndsNumeral r) (hc : isNumeralChar c = true)
    (hcs : ∀ s, cs = c :: s → False) (s : List Char) : cs ++ r ≠ c :: s := by
  intro h
  cases cs with
  | nil => rw [hr c s h] at hc; cases hc
  | cons c' cs => cases h; exact hcs cs rfl

/-- The reader leaves a rest of its text, and what it reads is the same if
the text goes on with something that no numeral goes on with. -/
def Local {α : Type} (reader : Reader α) : Prop :=
  ∀ (cs : List Char) (x : α) (s : List Char), reader cs = .ok (x, s) →
    s <:+ cs ∧ ∀ r, EndsNumeral r → reader (cs ++ r) = .ok (x, s ++ r)

theorem Local.bind {α β : Type} {reader : Reader α}
    {f : α × List Char → Except ReadError (β × List Char)}
    (hx : Local reader) (hf : ∀ x, Local fun cs => f (x, cs)) :
    Local fun cs => reader cs >>= f := by
  intro cs y t h
  cases hread : reader cs with
  | error e => simp only [hread] at h; cases h
  | ok p =>
      obtain ⟨x, s⟩ := p
      simp only [hread] at h
      obtain ⟨hsuffix, happend⟩ := hx cs x s hread
      obtain ⟨hsuffix', happend'⟩ := hf x s y t h
      refine ⟨hsuffix'.trans hsuffix, fun r hr => ?_⟩
      simp only [happend r hr]
      exact happend' r hr

theorem Local.pure {α : Type} (x : α) : Local fun cs => .ok (x, cs) := by
  intro cs y s h
  cases h
  exact ⟨List.suffix_rfl, fun _ _ => rfl⟩

theorem local_error {α : Type} (e : ReadError) :
    Local fun _ : List Char => (.error e : Except ReadError (α × List Char)) :=
  fun _ _ _ h => by cases h

theorem readDigits_local {cs s : List Char} {ds : List Nat}
    (h : readDigits cs = (ds, s)) :
    s <:+ cs ∧ ∀ r, EndsNumeral r → readDigits (cs ++ r) = (ds, s ++ r) := by
  induction cs generalizing ds s with
  | nil =>
      cases h
      refine ⟨List.suffix_rfl, fun r hr => ?_⟩
      cases r with
      | nil => rfl
      | cons c r =>
          have hc := hr c r rfl
          have hdigit : c.isDigit = false := by
            simp only [isNumeralChar, Bool.or_eq_false_iff] at hc
            exact hc.1.1.1.1.1
          simp only [List.nil_append, readDigits, digit?, hdigit,
            Bool.false_eq_true, if_false]
  | cons c cs ih =>
      cases hc : digit? c with
      | none =>
          simp only [readDigits, hc] at h
          cases h
          refine ⟨List.suffix_rfl, fun r _ => ?_⟩
          simp only [List.cons_append, readDigits, hc]
      | some d =>
          simp only [readDigits, hc] at h
          cases h
          obtain ⟨hsuffix, happend⟩ := ih rfl
          refine ⟨hsuffix.trans (List.suffix_cons c cs), fun r hr => ?_⟩
          simp only [List.cons_append, readDigits, hc, happend r hr]

theorem readSomeDigits_eq_ok {stop : ReadError} {cs s : List Char}
    {ds : List Nat} :
    readSomeDigits stop cs = .ok (ds, s) ↔
      readDigits cs = (ds, s) ∧ ds ≠ [] := by
  unfold readSomeDigits
  split
  · constructor
    · exact fun h => by cases h
    · rintro ⟨h, hne⟩
      cases h
      exact absurd rfl hne
  · next hds =>
      rw [hds]
      constructor
      · exact fun h => by cases h
      · rintro ⟨h, hne⟩
        cases h
        exact absurd rfl hne
  · next hsome _ hds =>
      rw [hds]
      constructor
      · intro h
        cases h
        exact ⟨rfl, hsome⟩
      · rintro ⟨h, -⟩
        cases h
        rfl

theorem local_readSomeDigits (stop : ReadError) :
    Local (readSomeDigits stop) := by
  intro cs ds s h
  obtain ⟨hread, hne⟩ := readSomeDigits_eq_ok.mp h
  obtain ⟨hsuffix, happend⟩ := readDigits_local hread
  exact ⟨hsuffix, fun r hr => readSomeDigits_eq_ok.mpr ⟨happend r hr, hne⟩⟩

theorem local_readWhole (stop : ReadError) : Local (readWhole stop) := by
  unfold readWhole
  refine Local.bind (local_readSomeDigits stop) fun ds => ?_
  simp only
  split
  · exact local_error _
  · exact Local.pure _

theorem local_readFraction (stop : ReadError) :
    Local (readFraction stop) := by
  intro cs x s h
  unfold readFraction at h
  split at h
  · next cs =>
      obtain ⟨hsuffix, happend⟩ := Local.bind (local_readSomeDigits stop)
        (fun ds => Local.pure (some ds)) cs x s h
      exact ⟨hsuffix.trans (List.suffix_cons '.' cs), happend⟩
  · next hpoint =>
      cases h
      refine ⟨List.suffix_rfl, fun r hr => ?_⟩
      unfold readFraction
      split
      · next s hs => exact absurd hs (hr.append_ne_cons rfl hpoint s)
      · rfl

theorem local_readSign : Local fun cs => .ok (readSign cs) := by
  intro cs minus s h
  cases hsign : readSign cs with
  | mk minus' s' =>
      simp only [hsign] at h
      cases h
      unfold readSign at hsign
      split at hsign
      · cases hsign
        exact ⟨List.suffix_cons '-' _, fun _ _ => rfl⟩
      · cases hsign
        exact ⟨List.suffix_cons '+' _, fun _ _ => rfl⟩
      · next hminus hplus =>
          cases hsign
          refine ⟨List.suffix_rfl, fun r hr => ?_⟩
          simp only [readSign]
          split
          · next s hs => exact absurd hs (hr.append_ne_cons rfl hminus s)
          · next s hs => exact absurd hs (hr.append_ne_cons rfl hplus s)
          · rfl

theorem local_readExponent (stop : ReadError) :
    Local (readExponent stop) := by
  have hdigits : ∀ minus : Bool, Local fun cs =>
      readSomeDigits stop cs >>= fun q =>
        .ok (some (if minus then -(ofDigits q.1 : Int) else ofDigits q.1),
          q.2) := fun minus =>
    Local.bind (local_readSomeDigits stop) fun ds =>
      Local.pure (some (if minus then -(ofDigits ds : Int) else ofDigits ds))
  have hpower : Local fun cs => .ok (readSign cs) >>= fun p =>
      readSomeDigits stop p.2 >>= fun q =>
        .ok (some (if p.1 then -(ofDigits q.1 : Int) else ofDigits q.1),
          q.2) := Local.bind local_readSign hdigits
  intro cs x s h
  unfold readExponent at h
  split at h
  · next cs =>
      obtain ⟨hsuffix, happend⟩ := hpower cs x s h
      exact ⟨hsuffix.trans (List.suffix_cons 'e' cs), happend⟩
  · next cs =>
      obtain ⟨hsuffix, happend⟩ := hpower cs x s h
      exact ⟨hsuffix.trans (List.suffix_cons 'E' cs), happend⟩
  · next hlower hupper =>
      cases h
      refine ⟨List.suffix_rfl, fun r hr => ?_⟩
      unfold readExponent
      split
      · next s hs => exact absurd hs (hr.append_ne_cons rfl hlower s)
      · next s hs => exact absurd hs (hr.append_ne_cons rfl hupper s)
      · rfl

theorem local_readLiteral (stop : ReadError) (isNegative : Bool) :
    Local (readLiteral stop isNegative) :=
  Local.bind (local_readWhole stop) fun whole =>
    Local.bind (local_readFraction stop) fun fraction =>
      Local.bind (local_readExponent stop) fun exponent =>
        Local.pure (Numeral.Literal.mk isNegative whole fraction exponent)

theorem local_readNumeral (isNegative : Bool) :
    Local (readNumeral isNegative) := by
  unfold readNumeral
  refine Local.bind (local_readLiteral _ isNegative) fun literal => ?_
  simp only
  split
  · exact Local.pure _
  · exact local_error _

end PageShell.Json
