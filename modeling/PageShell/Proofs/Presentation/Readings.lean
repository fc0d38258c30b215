import PageShell.Proofs.Number.Conversion
import PageShell.Proofs.Presentation.Recognised

/-!
# How attributes are read

`Element.recognises` asks the functions that give a value its meaning whether
they find one. Here the same table is written without them: an attribute is
read in one of five ways (`Reading`), most of which come down to a list of
numbers or of words, and `Reading.admits` looks only at the value. Nothing here
mentions gaps, tones or icons, so a number or a word that is on a list and not
in a vocabulary, or the reverse, would be found where the two tables are
compared (`recognises_eq_reading`).

The numbers of a scale are told by their exact value. Being small they are
all numbers of 32 bits, so the range of those is no further condition.
-/

namespace PageShell

/-- A way to read an attribute. -/
inductive Reading where
  /-- One of a few whole numbers. -/
  | step (scale : List Nat)
  /-- A whole number of 32 bits, from the least one up. -/
  | whole (least : Nat)
  /-- One of a few words. -/
  | word (words : List String)
  | anyText
  /-- A flag, which means something if it is set. -/
  | flag

/-- Whether a value means something when it is read in this way. -/
def Reading.admits : Reading → AttrValue → Bool
  | .step scale, .number x =>
    x.isWhole && (!x.negative || x.isZero) && scale.contains x.wholePart
  | .whole least, .number x => x.toUInt32?.any (least ≤ ·)
  | .word words, .text s => words.contains s
  | .anyText, .text _ => true
  | .flag, .number x => !x.isZero
  | .flag, .text s => s == "true"
  | _, _ => false

namespace Element

/-- How an attribute is read from the elements of a name, if it is. -/
def reading? (name key : String) : Option Reading :=
  match name, key with
  | "VStack", "gap" | "HStack", "gap" | "Grid", "gap" =>
    some (.step [0, 1, 2, 3, 4, 6, 8])
  | "Grid", "base" | "Grid", "md" => some (.step [1, 2, 3, 4])
  | "Grid", "mdTemplate" => some (.word ["auto_1fr", "1fr_auto"])
  | "Heading", "level" => some (.whole 0)
  | "Text", "variant" => some (.word ["default", "muted", "accent"])
  | "Text", "size" => some (.word ["xs", "sm", "base", "lg", "xl", "2xl"])
  | "Text", "weight" => some (.word ["normal", "medium", "semibold", "bold"])
  | "Image", "src" | "Image", "alt" => some .anyText
  | "Image", "width" | "Image", "height" => some (.whole 1)
  | "Image", "rounded" => some .flag
  | "Link", "href" => some .anyText
  | "Link", "icon" => some (.word ["paper", "github", "video", "link"])
  | "Cmd", "cmd" => some .anyText
  | _, _ => none

end Element

/-! ## The vocabularies as lists -/

theorem Gap.isSome_ofStep? (n : Nat) :
    (ofStep? n).isSome = [0, 1, 2, 3, 4, 6, 8].contains n := by
  unfold ofStep?
  split
  case h_8 => simp_all
  all_goals rfl

theorem Columns.isSome_ofCount? (n : Nat) :
    (ofCount? n).isSome = [1, 2, 3, 4].contains n := by
  unfold ofCount?
  split
  case h_5 => simp_all
  all_goals rfl

theorem Template.isSome_ofToken? (s : String) :
    (ofToken? s).isSome = ["auto_1fr", "1fr_auto"].contains s := by
  unfold ofToken?
  split
  case h_3 => simp_all
  all_goals rfl

theorem Tone.isSome_ofVariant? (s : String) :
    (ofVariant? s).isSome = ["default", "muted", "accent"].contains s := by
  unfold ofVariant?
  split
  case h_4 => simp_all
  all_goals rfl

theorem TextSize.isSome_ofToken? (s : String) :
    (ofToken? s).isSome =
      ["xs", "sm", "base", "lg", "xl", "2xl"].contains s := by
  unfold ofToken?
  split
  case h_7 => simp_all
  all_goals rfl

theorem Weight.isSome_ofToken? (s : String) :
    (ofToken? s).isSome =
      ["normal", "medium", "semibold", "bold"].contains s := by
  unfold ofToken?
  split
  case h_5 => simp_all
  all_goals rfl

theorem Icon.isSome_ofToken? (s : String) :
    (ofToken? s).isSome = ["paper", "github", "video", "link"].contains s := by
  unfold ofToken?
  split
  case h_5 => simp_all
  all_goals rfl

/-! ## Values -/

namespace AttrValue

variable {α : Type}

/-- A scale that is a list of small numbers is read by their values. -/
theorem isSome_bind_toUInt32? {ofNumber? : Nat → Option α} {scale : List Nat}
    (hscale : ∀ n, (ofNumber? n).isSome = scale.contains n)
    (hsmall : ∀ n ∈ scale, n ≤ Number.maxUInt32) (value : AttrValue) :
    (value.toUInt32?.bind ofNumber?).isSome =
      (Reading.step scale).admits value := by
  cases value with
  | text s => rfl
  | number x =>
      show (x.toUInt32?.bind ofNumber?).isSome =
        (x.isWhole && (!x.negative || x.isZero) && scale.contains x.wholePart)
      rw [Number.toUInt32?_eq]
      split
      · next h =>
          rw [Bool.and_eq_true] at h
          rw [h.1, Option.bind_some, hscale, Bool.true_and]
      · next h =>
          rw [Option.bind_none, Option.isSome_none]
          by_cases hmem : x.wholePart ∈ scale
          · -- The number is small, so it is something else that it fails.
            have hle := hsmall _ hmem
            rw [Bool.and_eq_true, decide_eq_true hle] at h
            rw [Bool.eq_false_iff.mpr fun hx => h ⟨hx, rfl⟩, Bool.false_and]
          · rw [List.contains_eq_mem, decide_eq_false hmem, Bool.and_false]

theorem isSome_bind_text? {ofWord? : String → Option α} {words : List String}
    (hwords : ∀ s, (ofWord? s).isSome = words.contains s)
    (value : AttrValue) :
    (value.text?.bind ofWord?).isSome = (Reading.word words).admits value := by
  cases value with
  | text s => exact hwords s
  | number x => rfl

theorem isSome_text? (value : AttrValue) :
    value.text?.isSome = Reading.anyText.admits value := by
  cases value <;> rfl

theorem isSome_toUInt32? (value : AttrValue) :
    value.toUInt32?.isSome = (Reading.whole 0).admits value := by
  cases value with
  | text s => rfl
  | number x =>
      show x.toUInt32?.isSome = x.toUInt32?.any (0 ≤ ·)
      cases x.toUInt32? with
      | none => rfl
      | some n => exact (decide_eq_true (Nat.zero_le n)).symm

theorem isSome_filter_toUInt32? (value : AttrValue) :
    (value.toUInt32?.filter (0 < ·)).isSome =
      (Reading.whole 1).admits value := by
  cases value with
  | text s => rfl
  | number x =>
      show (x.toUInt32?.filter (0 < ·)).isSome = x.toUInt32?.any (1 ≤ ·)
      cases x.toUInt32? with
      | none => rfl
      | some n => exact Option.isSome_filter

theorem isSet_eq_admits (value : AttrValue) :
    value.isSet = Reading.flag.admits value := by
  cases value <;> rfl

end AttrValue

/-! ## The two tables -/

/-- A value is understood by the element that has the attribute exactly if the
attribute is read there in a way that admits it. -/
theorem Element.recognises_eq_reading (name key : String) (value : AttrValue) :
    recognises name key value =
      (reading? name key).any (Reading.admits · value) := by
  unfold recognises
  split
  case h_1 | h_2 | h_3 =>
      exact value.isSome_bind_toUInt32? Gap.isSome_ofStep? (by decide)
  case h_4 | h_5 =>
      exact value.isSome_bind_toUInt32? Columns.isSome_ofCount? (by decide)
  case h_6 => exact value.isSome_bind_text? Template.isSome_ofToken?
  case h_7 => exact value.isSome_toUInt32?
  case h_8 => exact value.isSome_bind_text? Tone.isSome_ofVariant?
  case h_9 => exact value.isSome_bind_text? TextSize.isSome_ofToken?
  case h_10 => exact value.isSome_bind_text? Weight.isSome_ofToken?
  case h_11 | h_12 | h_16 | h_18 => exact value.isSome_text?
  case h_13 | h_14 => exact value.isSome_filter_toUInt32?
  case h_15 => exact value.isSet_eq_admits
  case h_17 => exact value.isSome_bind_text? Icon.isSome_ofToken?
  case h_19 =>
      unfold reading?
      split
      all_goals simp_all

end PageShell
