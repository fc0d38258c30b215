import PageShell.Presentation.Basic

/-!
# Which elements and attributes are understood

`Element.present` answers every element: a name it does not know is shown as
it is stored, and an attribute it does not know, or whose value means nothing
to it, is passed over in silence or replaced by a default. What it knows is
written down here as data: `vocabulary` has the names and `recognises` the
attributes that are read from an element of a name, with the values that are
understood. Two results say that these are the ones: an element is presented
as something exactly if it is known (`present_ne_fallback_iff`), and a
recognised attribute is found in what the element is presented as, with the
meaning that its value has (`shows_of_recognises`). `Presentation.Shows` lists
what can be found in a presentation, without a word about names of elements,
defaults or the order in which anything is read.
-/

namespace PageShell

/-! ## What is understood -/

/-- A flag that is set: a number other than zero, or the text `true`. -/
def AttrValue.isSet : AttrValue → Bool
  | .number x => !x.isZero
  | .text s => s == "true"

namespace Element

/-- The names of the elements that there are. -/
def vocabulary : List String :=
  ["VStack", "HStack", "Grid", "Card", "Heading", "Text", "Image", "Link",
    "Cmd", "List"]

/-- An element of the vocabulary; a link has to have a target. -/
def IsKnown (e : Element) : Prop :=
  e.name ∈ vocabulary ∧ (e.name = "Link" → (e.text? "href").isSome = true)

/-- Whether an attribute is one that is read from elements of this name, and
its value one that means something there. -/
def recognises (name key : String) (value : AttrValue) : Bool :=
  match name, key with
  | "VStack", "gap" | "HStack", "gap" | "Grid", "gap" =>
    (value.toUInt32?.bind Gap.ofStep?).isSome
  | "Grid", "base" | "Grid", "md" =>
    (value.toUInt32?.bind Columns.ofCount?).isSome
  | "Grid", "mdTemplate" => (value.text?.bind Template.ofToken?).isSome
  | "Heading", "level" => value.toUInt32?.isSome
  | "Text", "variant" => (value.text?.bind Tone.ofVariant?).isSome
  | "Text", "size" => (value.text?.bind TextSize.ofToken?).isSome
  | "Text", "weight" => (value.text?.bind Weight.ofToken?).isSome
  | "Image", "src" | "Image", "alt" => value.text?.isSome
  | "Image", "width" | "Image", "height" =>
    (value.toUInt32?.filter (0 < ·)).isSome
  | "Image", "rounded" => value.isSet
  | "Link", "href" => value.text?.isSome
  | "Link", "icon" => (value.text?.bind Icon.ofToken?).isSome
  | "Cmd", "cmd" => value.text?.isSome
  | _, _ => false

end Element

/-- The presentation has, under the name of an attribute, what the value of
the attribute names. A level is the one of the six nearest to the number. -/
def Presentation.Shows (p : Presentation) (key : String)
    (value : AttrValue) : Prop :=
  match p, key with
  | .vstack gap _, "gap" | .hstack gap _, "gap" | .grid gap _ _ _ _, "gap" =>
    value.toUInt32?.bind Gap.ofStep? = some gap
  | .grid _ base _ _ _, "base" =>
    value.toUInt32?.bind Columns.ofCount? = some base
  | .grid _ _ wide _ _, "md" =>
    value.toUInt32?.bind Columns.ofCount? = wide ∧ wide.isSome = true
  | .grid _ _ _ template _, "mdTemplate" =>
    value.text?.bind Template.ofToken? = template ∧ template.isSome = true
  | .heading level _, "level" =>
    value.toUInt32?.map (fun n => max 1 (min n 6)) = some level
  | .text tone _ _ _, "variant" =>
    value.text?.bind Tone.ofVariant? = some tone
  | .text _ size _ _, "size" =>
    value.text?.bind TextSize.ofToken? = some size
  | .text _ _ weight _, "weight" =>
    value.text?.bind Weight.ofToken? = some weight
  | .image source _ _ _ _, "src" => value.text? = some source
  | .image _ alt _ _ _, "alt" => value.text? = some alt
  | .image _ _ width _ _, "width" =>
    value.toUInt32? = some width ∧ 0 < width
  | .image _ _ _ height _, "height" =>
    value.toUInt32? = some height ∧ 0 < height
  | .image _ _ _ _ rounded, "rounded" =>
    value.isSet = true ∧ rounded = true
  | .link href _ _, "href" => value.text? = some href
  | .link _ icon _, "icon" =>
    value.text?.bind Icon.ofToken? = icon ∧ icon.isSome = true
  | .command line _, "cmd" => value.text? = some line
  | _, _ => False

namespace Element

/-! ## Known elements -/

/-- An element is presented as something, and not as its stored form, exactly
if it is known. -/
theorem present_ne_fallback_iff (e : Element) :
    (∀ dump, e.present ≠ .fallback dump) ↔ e.IsKnown := by
  unfold present IsKnown
  split
  case h_8 h =>
      rw [h]
      cases e.text? "href" with
      | none =>
          refine iff_of_false (fun hnot => hnot _ rfl) fun hknown => ?_
          cases hknown.2 rfl
      | some href =>
          refine iff_of_true (fun dump heq => by cases heq) ⟨?_, fun _ => rfl⟩
          decide
  case h_11 =>
      refine iff_of_false (fun hnot => hnot _ rfl) fun hknown => ?_
      have hmem := hknown.1
      simp_all [vocabulary]
  all_goals
    next h =>
      rw [h]
      exact iff_of_true (fun dump heq => by cases heq)
        ⟨by decide, fun hlink => absurd hlink (by decide)⟩

/-! ## Recognised attributes -/

variable {e : Element} {key : String} {value : AttrValue}

theorem natural?_of_get? (h : e.get? key = some value) :
    e.natural? key = value.toUInt32? := by
  rw [natural?, h]
  rfl

theorem text?_of_get? (h : e.get? key = some value) :
    e.text? key = value.text? := by
  rw [text?, h]
  rfl

theorem isSet_of_get? (h : e.get? key = some value) :
    e.isSet key = value.isSet := by
  rw [isSet, h]
  cases value <;> rfl

/-- What is understood is not replaced by a default. -/
theorem eq_some_getD {α : Type} {x : Option α} (h : x.isSome = true)
    (standard : α) : x = some (x.getD standard) := by
  cases x with
  | none => cases h
  | some a => rfl

theorem columns?_of_get? (h : e.get? key = some value) :
    e.columns? key = value.toUInt32?.bind Columns.ofCount? := by
  rw [columns?, natural?_of_get? h]

theorem gap_of_get? (hget : e.get? "gap" = some value)
    (h : (value.toUInt32?.bind Gap.ofStep?).isSome = true) :
    value.toUInt32?.bind Gap.ofStep? = some e.gap := by
  rw [gap, natural?_of_get? hget]
  exact eq_some_getD h _

theorem dimension_of_get? (hget : e.get? key = some value)
    (h : (value.toUInt32?.filter (0 < ·)).isSome = true) :
    value.toUInt32? = some (e.dimension key) ∧ 0 < e.dimension key := by
  have hsome := eq_some_getD h Presentation.standardImageSize
  rw [← natural?_of_get? hget] at hsome ⊢
  obtain ⟨hvalue, hpos⟩ := Option.filter_eq_some_iff.mp hsome
  exact ⟨hvalue, of_decide_eq_true hpos⟩

/-- A recognised attribute of a known element is found in what the element is
presented as. -/
theorem shows_of_recognises (hknown : e.IsKnown)
    (hget : e.get? key = some value)
    (h : recognises e.name key value = true) :
    e.present.Shows key value := by
  unfold recognises at h
  unfold present
  split at h
  -- The cases are in the order of `recognises`.
  case h_1 hname | h_2 hname | h_3 hname =>
      rw [hname]
      exact gap_of_get? hget h
  case h_4 hname =>
      rw [hname, columns?_of_get? hget]
      exact eq_some_getD h _
  case h_5 hname =>
      rw [hname, columns?_of_get? hget]
      exact ⟨rfl, h⟩
  case h_6 hname =>
      rw [hname, text?_of_get? hget]
      exact ⟨rfl, h⟩
  case h_7 hname =>
      rw [hname, headingLevel, natural?_of_get? hget]
      exact eq_some_getD (by rwa [Option.isSome_map]) _
  case h_8 hname | h_9 hname | h_10 hname | h_11 hname | h_12 hname
      | h_18 hname =>
      rw [hname, text?_of_get? hget]
      exact eq_some_getD h _
  case h_13 hname | h_14 hname =>
      rw [hname]
      exact dimension_of_get? hget h
  case h_15 hname =>
      rw [hname, isSet_of_get? hget]
      exact ⟨h, h⟩
  case h_16 hname =>
      obtain ⟨href, hhref⟩ := Option.isSome_iff_exists.mp h
      rw [hname, text?_of_get? hget, hhref]
      exact hhref
  case h_17 hname =>
      obtain ⟨href, hhref⟩ := Option.isSome_iff_exists.mp (hknown.2 hname)
      rw [hname, hhref, text?_of_get? hget]
      exact ⟨rfl, h⟩
  case h_19 => cases h

end Element

end PageShell
