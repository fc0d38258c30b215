import PageShell.Proofs.Json.Layout
import PageShell.Proofs.Json.Numeral

/-!
# Blanks outside strings

The indented form of a value is the compact form with blanks put between the
parts, so taking them out again gives the compact form. The blanks in a string
have to stay, so it has to be known where strings end, and that takes no more
than one character at a time: a quote opens a string and the next quote closes
it, but for a character behind a backslash, which counts for nothing
(`Place.next`).

A text that is left as it is, and leads from one place to another whatever
comes behind it, is one that is kept (`Keeps`). Strings are, because each
character of a string is written so that it leads back into the string
(`keeps_encodeChar`), and numerals are, having neither blanks nor quotes. The
rest is an induction over the value, for any layout.
-/

namespace PageShell.Json

/-- Where in a text a character stands. -/
inductive Place where
  | outside
  /-- In a string. -/
  | inside
  /-- In a string, behind a backslash. -/
  | escaped
deriving DecidableEq

/-- The place behind a character. -/
def Place.next : Place → Char → Place
  | .outside, c => if c = '"' then .inside else .outside
  | .inside, c =>
    if c = '"' then .outside else if c = '\\' then .escaped else .inside
  | .escaped, _ => .inside

/-- The text without the blanks outside its strings, if it starts at the given
place. -/
def unspaced (place : Place) : List Char → List Char
  | [] => []
  | c :: cs =>
    if place = .outside ∧ isSpace c = true then unspaced place cs
    else c :: unspaced (place.next c) cs

/-- The text without the blanks outside its strings. -/
def withoutBlanks (text : String) : String :=
  String.ofList (unspaced .outside text.toList)

theorem unspaced_cons {place : Place} {c : Char}
    (h : ¬(place = .outside ∧ isSpace c = true)) (cs : List Char) :
    unspaced place (c :: cs) = c :: unspaced (place.next c) cs := by
  rw [unspaced, if_neg h]

theorem unspaced_blank {bs : List Char} (h : ∀ c ∈ bs, isSpace c = true)
    (cs : List Char) :
    unspaced .outside (bs ++ cs) = unspaced .outside cs := by
  induction bs with
  | nil => rfl
  | cons c bs ih =>
      have hc := h c List.mem_cons_self
      rw [List.cons_append, unspaced, if_pos ⟨rfl, hc⟩]
      exact ih fun c' hc' => h c' (List.mem_cons_of_mem c hc')

/-! ## What is kept -/

/-- The text is left as it is and leads from one place to the other. -/
def Keeps (place place' : Place) (cs : List Char) : Prop :=
  ∀ rest, unspaced place (cs ++ rest) = cs ++ unspaced place' rest

theorem keeps_nil (place : Place) : Keeps place place [] := fun _ => rfl

theorem Keeps.cons {place place' : Place} {c : Char} {cs : List Char}
    (hc : ¬(place = .outside ∧ isSpace c = true))
    (h : Keeps (place.next c) place' cs) : Keeps place place' (c :: cs) := by
  intro rest
  rw [List.cons_append, unspaced_cons hc, h rest]
  rfl

theorem Keeps.append {p q r : Place} {as bs : List Char} (ha : Keeps p q as)
    (hb : Keeps q r bs) : Keeps p r (as ++ bs) := by
  intro rest
  rw [List.append_assoc, ha, hb, List.append_assoc]

/-! ## Strings -/

/-- In a string, only quotes and backslashes lead anywhere. -/
theorem Keeps.cons_inside {place : Place} {c : Char} {cs : List Char}
    (hquote : c ≠ '"') (hback : c ≠ '\\') (h : Keeps .inside place cs) :
    Keeps .inside place (c :: cs) := by
  refine .cons (fun hout => by cases hout.1) ?_
  rw [Place.next, if_neg hquote, if_neg hback]
  exact h

theorem hexDigit_ne {d : Nat} (hd : d < 16) :
    hexDigit d ≠ '"' ∧ hexDigit d ≠ '\\' := by
  have hall : ∀ d : Fin 16, hexDigit d.val ≠ '"' ∧ hexDigit d.val ≠ '\\' := by
    decide
  exact hall ⟨d, hd⟩

theorem keeps_encodeChar (c : Char) :
    Keeps .inside .inside (encodeChar c) := by
  unfold encodeChar
  split
  case h_8 hquote hback _ _ _ _ _ =>
    split
    · next hc =>
        obtain ⟨hhigh, hhigh'⟩ := hexDigit_ne (d := c.toNat / 16) (by omega)
        obtain ⟨hlow, hlow'⟩ := hexDigit_ne (d := c.toNat % 16) (by omega)
        have hdigits : Keeps .inside .inside
            [hexDigit (c.toNat / 16), hexDigit (c.toNat % 16)] :=
          .cons_inside hhigh hhigh' (.cons_inside hlow hlow' (keeps_nil _))
        exact fun rest => congrArg ('\\' :: 'u' :: '0' :: '0' :: ·)
          (hdigits rest)
    · exact .cons_inside hquote hback (keeps_nil _)
  -- The escapes by one letter.
  all_goals exact fun rest => rfl

theorem keeps_flatMap (cs : List Char) :
    Keeps .inside .inside (cs.flatMap encodeChar) := by
  induction cs with
  | nil => exact keeps_nil _
  | cons c cs ih =>
      rw [List.flatMap_cons]
      exact (keeps_encodeChar c).append ih

theorem keeps_encodeString (s : String) :
    Keeps .outside .outside (encodeString s) := by
  have hopening : Keeps .outside .inside ['"'] := fun _ => rfl
  have hclosing : Keeps .inside .outside ['"'] := fun _ => rfl
  exact (hopening.append (keeps_flatMap s.toList)).append hclosing

/-! ## Values without parts -/

theorem Numeric.keeps {cs : List Char} (h : Numeric cs) :
    Keeps .outside .outside cs := by
  induction cs with
  | nil => exact keeps_nil _
  | cons c cs ih =>
      have hc := h c List.mem_cons_self
      have hquote : c ≠ '"' := by
        rintro rfl
        cases hc
      refine .cons (fun hout => ?_) ?_
      · rw [isSpace_of_isNumericChar hc] at hout
        cases hout.2
      · rw [Place.next, if_neg hquote]
        exact ih fun c' hc' => h c' (List.mem_cons_of_mem c hc')

theorem keeps_encodeName (value : Bool) :
    Keeps .outside .outside (encodeName value) := by
  cases value <;> exact fun rest => rfl

/-! ## Values -/

namespace Layout

variable (layout : Layout) (depth : Nat) (isFirst : Bool)

theorem unspaced_before (cs : List Char) :
    unspaced .outside (layout.before depth isFirst ++ cs) =
      flat.before depth isFirst ++ unspaced .outside cs := by
  have hline := unspaced_blank (layout.line_blank (depth + 1)) cs
  cases isFirst with
  | true => exact hline
  | false => exact congrArg (',' :: ·) hline

/-- What closes a container is no blank and no quote. -/
theorem unspaced_closing {c : Char} (hspace : isSpace c = false)
    (hquote : c ≠ '"') (rest : List Char) :
    unspaced .outside (layout.closing depth isFirst ++ c :: rest) =
      flat.closing depth isFirst ++ c :: unspaced .outside rest := by
  have hflat : flat.closing depth isFirst = [] := by
    cases isFirst <;> rfl
  have hc : ¬(Place.outside = .outside ∧ isSpace c = true) := by
    rw [hspace]
    exact fun h => by cases h.2
  rw [unspaced_blank (layout.closing_blank depth isFirst), unspaced_cons hc,
    Place.next, if_neg hquote, hflat]
  rfl

mutual

theorem unspaced_written (j : Json) (depth : Nat) (rest : List Char) :
    unspaced .outside (layout.written depth j rest) =
      flat.written depth j (unspaced .outside rest) := by
  cases j with
  | null => rfl
  | bool value => exact keeps_encodeName value rest
  | number m => exact (numeric_encodeNumeral m).keeps rest
  | string value => exact keeps_encodeString value rest
  | array items =>
      rw [written, written,
        ← unspaced_writtenItems items depth true rest]
      rfl
  | object members =>
      rw [written, written,
        ← unspaced_writtenMembers members depth true rest]
      rfl
termination_by structural j

theorem unspaced_writtenItems (js : List Json) (depth : Nat) (isFirst : Bool)
    (rest : List Char) :
    unspaced .outside (layout.writtenItems depth isFirst js rest) =
      flat.writtenItems depth isFirst js (unspaced .outside rest) := by
  cases js with
  | nil => exact layout.unspaced_closing depth isFirst rfl (by decide) rest
  | cons j js =>
      rw [writtenItems, writtenItems, unspaced_before,
        unspaced_written j (depth + 1), unspaced_writtenItems js depth false]
termination_by structural js

theorem unspaced_writtenMembers (ms : List (String × Json)) (depth : Nat)
    (isFirst : Bool) (rest : List Char) :
    unspaced .outside (layout.writtenMembers depth isFirst ms rest) =
      flat.writtenMembers depth isFirst ms (unspaced .outside rest) := by
  cases ms with
  | nil => exact layout.unspaced_closing depth isFirst rfl (by decide) rest
  | cons m ms =>
      obtain ⟨k, j⟩ := m
      have hcolon : ∀ cs, unspaced .outside (':' :: (layout.gap ++ cs)) =
          ':' :: unspaced .outside cs := fun cs =>
        congrArg (':' :: ·) (unspaced_blank layout.gap_blank cs)
      rw [writtenMembers, writtenMembers, unspaced_before,
        keeps_encodeString k, hcolon, unspaced_written j (depth + 1),
        unspaced_writtenMembers ms depth false]
      rfl
termination_by structural ms

end

end Layout

/-- The indented text of a value without its blanks is the compact text. -/
theorem withoutBlanks_toIndentedText (j : Json) :
    withoutBlanks j.toIndentedText = j.toText := by
  rw [withoutBlanks, toIndentedText, toText, String.toList_ofList,
    Layout.indented_eq, Layout.unspaced_written, Layout.compact_eq j 0]
  rfl

-- The blanks of a string stay, also behind a quote that does not close it.
example : withoutBlanks "[ \"a \\\" b\" ]" = "[\"a \\\" b\"]" := by
  decide +kernel

end PageShell.Json
