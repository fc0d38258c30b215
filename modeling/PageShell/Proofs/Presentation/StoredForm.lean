import PageShell.Proofs.Document.RoundTrip
import PageShell.Proofs.Json.Blanks
import PageShell.Proofs.Presentation.Recognised

/-!
# What is shown as it is stored

An element outside the vocabulary, or a link that leads nowhere, is shown as
its own stored form, indented. Nothing of it is lost that way. The indented
form is written by a second writer, but both writers are one writer in two
layouts, and each of the two things to be said holds of any layout: what was
written is read back as what it was (`Node.ofText_written`), and without its
blanks it is the compact form (`Json.withoutBlanks_toIndentedText`).
-/

namespace PageShell

namespace Element

theorem text?_eq_none_iff {e : Element} {key : String} :
    e.text? key = none ↔
      e.get? key = none ∨ ∃ x, e.get? key = some (.number x) := by
  rw [text?]
  cases e.get? key with
  | none => exact iff_of_true rfl (.inl rfl)
  | some value =>
      cases value with
      | text s => exact iff_of_false (Option.some_ne_none s) (by simp)
      | number x => exact iff_of_true rfl (.inr ⟨x, rfl⟩)

/-- An element that is not known is outside the vocabulary, or a link whose
target is missing or a number. -/
theorem not_isKnown_iff {e : Element} :
    ¬e.IsKnown ↔ e.name ∉ vocabulary ∨ e.name = "Link" ∧
      (e.get? "href" = none ∨ ∃ x, e.get? "href" = some (.number x)) := by
  rw [← text?_eq_none_iff, IsKnown, Classical.not_and_iff_not_or_not,
    Classical.not_imp, Bool.not_eq_true, Option.isSome_eq_false_iff,
    Option.isNone_iff_eq_none]

theorem exists_present_eq_fallback_iff {e : Element} :
    (∃ dump, e.present = .fallback dump) ↔ ¬e.IsKnown := by
  rw [← present_ne_fallback_iff, Classical.not_forall]
  simp only [ne_eq, Classical.not_not]

theorem dump_of_present {e : Element} {dump : String}
    (h : e.present = .fallback dump) : dump = e.toNode.toIndentedText := by
  unfold present at h
  split at h
  case h_8 =>
      cases hhref : e.text? "href" with
      | some href =>
          rw [hhref] at h
          cases h
      | none =>
          rw [hhref] at h
          cases h
          rfl
  case h_11 =>
      cases h
      rfl
  all_goals cases h

end Element

/-- A document is shown as its stored form exactly if it is an element outside
the vocabulary, or a link whose target is missing or a number. The form that is
shown is read back as the document, if its numbers are finite and it nests no
deeper than the reader goes, and without the blanks outside strings it is the
compact form. -/
theorem Node.stored_form_is_faithful (node : Node) :
    ((∃ dump, node.present = .fallback dump) ↔
      ∃ e : Element, node = e.toNode ∧
        (e.name ∉ Element.vocabulary ∨ e.name = "Link" ∧
          (e.get? "href" = none ∨
            ∃ x, e.get? "href" = some (.number x)))) ∧
    ∀ dump, node.present = .fallback dump →
      (LegibleNumbers node.numbers →
        (∀ x ∈ node.numbers, x.isFinite = true) →
        node.toJson.nesting ≤ Json.nestingLimit →
        ofText dump = .ok node) ∧
      Json.withoutBlanks dump = node.toText := by
  cases node with
  | text content =>
      refine ⟨iff_of_false ?_ ?_, ?_⟩
      · rintro ⟨dump, h⟩
        cases h
      · rintro ⟨e, h, -⟩
        cases h
      · intro dump h
        cases h
  | element name attributes children =>
      let e : Element := { name, attributes, children }
      constructor
      · have hfallback := e.exists_present_eq_fallback_iff
        rw [Element.not_isKnown_iff] at hfallback
        refine hfallback.trans ⟨fun h => ⟨e, rfl, h⟩, ?_⟩
        rintro ⟨e', heq, h⟩
        cases heq
        exact h
      · intro dump h
        have hdump : dump = e.toNode.toIndentedText :=
          Element.dump_of_present h
        rw [hdump]
        constructor
        · intro hlegible hfinite hnesting
          have hread := ofText_toIndentedText hlegible
          rw [if_pos hnesting, finitePart_eq_self _ hfinite] at hread
          exact hread
        · exact Json.withoutBlanks_toIndentedText e.toNode.toJson

/-- A link without a target, whose texts are full of what a stored form is
made of. -/
def Node.dangling : Node :=
  .element "Link"
    ⟨[("href", .number (Number.ofNat 8)),
      ("note", .text "\x7b \"a\": [ 1,\n\t\\ ] \x7d"),
      ("ratio", .number (Number.ofDecimal false 5 (-1)))], by decide⟩
    [.text " \" ", .element "Divider" .empty []]

theorem Node.dangling_is_faithful :
    LegibleNumbers dangling.numbers ∧
      (∀ x ∈ dangling.numbers, x.isFinite = true) ∧
      dangling.toJson.nesting ≤ Json.nestingLimit ∧
      ∃ dump, dangling.present = .fallback dump ∧
        ofText dump = .ok dangling ∧
        Json.withoutBlanks dump = dangling.toText := by
  have hlegible : LegibleNumbers dangling.numbers := by
    intro x hx hfinite hwhole
    have hmem : x ∈ [Number.ofNat 8, Number.ofDecimal false 5 (-1)] := hx
    simp only [List.mem_cons, List.not_mem_nil, or_false] at hmem
    rcases hmem with rfl | rfl
    · exact absurd (Number.isSmallWhole_ofNat (by decide)) hwhole
    · exact isLegible_half
  have hfinite : ∀ x ∈ dangling.numbers, x.isFinite = true := by
    decide +kernel
  have hnesting : dangling.toJson.nesting ≤ Json.nestingLimit := by
    decide +kernel
  obtain ⟨hiff, hfaithful⟩ := stored_form_is_faithful dangling
  obtain ⟨dump, hdump⟩ := hiff.mpr ⟨⟨_, _, _⟩, rfl,
    .inr ⟨rfl, .inr ⟨Number.ofNat 8, rfl⟩⟩⟩
  obtain ⟨hread, hcompact⟩ := hfaithful dump hdump
  exact ⟨hlegible, hfinite, hnesting, dump, hdump,
    hread hlegible hfinite hnesting, hcompact⟩

end PageShell
