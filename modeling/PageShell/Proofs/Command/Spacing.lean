import PageShell.Proofs.Command.Grammar

/-!
# The spacing of a line

The words of a line do not depend on the gaps around them. `Spaced` puts words
together again, as they were written and with any gaps that keep them apart,
and `Splits.respaced` says that the result divides into the same words. The
only thing in the way is the search for a closing quote, which goes through
all the rest of the line, gaps included. But a gap holds no quote, and what is
not in a gap is in a word, so the search meets the same quotes whatever the
gaps are, and a group is neither opened nor lost.

In particular a typed line loses the blanks at its ends before it is divided,
and that changes nothing about its words.

The place of a word is the one thing that interpreting a line never asks for.
`Token.words` leaves it out.
-/

namespace PageShell

namespace Token

/-- The words of a line, each with its value and as written. -/
def words (line : String) : List (String × String) :=
  (split line).map fun t => (t.value, t.raw)

/-- The words of a line as they are written. -/
def raws (line : String) : List (List Char) :=
  (split line).map (·.raw.toList)

/-- A text of words as they are written, with gaps around them: between two
words there is one, in front of the first and after the last there may be. -/
inductive Spaced : (isFirst : Bool) → (raws : List (List Char)) →
    List Char → Prop where
  | done {isFirst : Bool} {gap : List Char} : IsGap gap → Spaced isFirst [] gap
  | word {isFirst : Bool} {gap raw rest : List Char}
      {raws : List (List Char)} : IsGap gap → (isFirst = false → gap ≠ []) →
      Spaced false raws rest →
      Spaced isFirst (raw :: raws) (gap ++ raw ++ rest)

theorem IsGap.append {as bs : List Char} (ha : IsGap as) (hb : IsGap bs) :
    IsGap (as ++ bs) := List.forall_mem_append.mpr ⟨ha, hb⟩

/-! ## Other gaps -/

/-- What is not a blank comes from a word. -/
theorem Spaced.mem {isFirst : Bool} {raws : List (List Char)}
    {cs : List Char} (h : Spaced isFirst raws cs) {c : Char} (hc : c ∈ cs)
    (hblank : Text.isBlank c = false) : ∃ raw ∈ raws, c ∈ raw := by
  have hgap : ∀ {gap : List Char}, IsGap gap → c ∉ gap := by
    intro gap h hmem
    rw [h c hmem] at hblank
    cases hblank
  induction h with
  | done h => exact absurd hc (hgap h)
  | @word _ _ raw _ raws h _ _ ih =>
      rcases List.mem_append.mp hc with hc | hc
      · rcases List.mem_append.mp hc with hc | hc
        · exact absurd hc (hgap h)
        · exact ⟨raw, List.mem_cons_self, hc⟩
      · obtain ⟨raw', hraw', hc⟩ := ih hc
        exact ⟨raw', List.mem_cons_of_mem raw hraw', hc⟩

theorem Splits.mem_of_mem_raw {position : Nat} {isFirst : Bool}
    {cs : List Char} {tokens : List Token}
    (h : Splits position isFirst cs tokens) {c : Char} {raw : List Char}
    (hraw : raw ∈ tokens.map (·.raw.toList)) (hc : c ∈ raw) : c ∈ cs := by
  induction h with
  | done _ => cases hraw
  | word _ _ _ _ ih =>
      rw [List.map_cons, List.mem_cons, String.toList_ofList] at hraw
      rcases hraw with rfl | hraw
      · exact List.mem_append_left _ (List.mem_append_right _ hc)
      · exact List.mem_append_right _ (ih hraw)

/-- A word stays one if no quote is added to what comes after it. -/
theorem IsWord.of_quotes {after after' value raw : List Char}
    (h : IsWord after value raw)
    (hquotes : ∀ q, isQuote q = true → q ∈ after' → q ∈ after) :
    IsWord after' value raw := by
  cases h with
  | bare hsolid hquote =>
      refine .bare hsolid fun hq hmem => hquote hq ?_
      rcases List.mem_append.mp hmem with hmem | hmem
      · exact List.mem_append_left _ hmem
      · exact List.mem_append_right _ (hquotes _ hq hmem)
  | grouped hq hbody htail => exact .grouped hq hbody htail

/-- The words of a text, with other gaps around them, are divided as they
were. -/
theorem Splits.respaced {position : Nat} {isFirst isFirst' : Bool}
    {cs cs' : List Char} {tokens : List Token}
    (h : Splits position isFirst cs tokens)
    (h' : Spaced isFirst' (tokens.map (·.raw.toList)) cs') (position' : Nat) :
    ∃ tokens', Splits position' isFirst' cs' tokens' ∧
      tokens'.map (fun t => (t.value, t.raw)) =
        tokens.map fun t => (t.value, t.raw) := by
  induction h generalizing isFirst' cs' position' with
  | done _ =>
      cases h' with
      | done hgap => exact ⟨[], .done hgap, rfl⟩
  | @word _ _ _ value raw rest tokens _ _ hword hrest ih =>
      rw [List.map_cons, String.toList_ofList] at h'
      cases h' with
      | @word _ gap _ rest' _ hgap hne hspaced =>
          obtain ⟨tokens', hsplits, hwords⟩ := ih hspaced
            (position' + Text.width gap + Text.width raw)
          have hquotes : ∀ q, isQuote q = true → q ∈ rest' → q ∈ rest := by
            intro q hq hmem
            obtain ⟨raw', hraw', hmem⟩ :=
              hspaced.mem hmem (isBlank_of_isQuote hq)
            exact hrest.mem_of_mem_raw hraw' hmem
          refine ⟨_ :: tokens',
            .word hgap hne (hword.of_quotes hquotes) hsplits, ?_⟩
          rw [List.map_cons, List.map_cons, hwords]

/-! ## The same gaps, and more of them at the ends -/

theorem Splits.spaced {position : Nat} {isFirst : Bool} {cs : List Char}
    {tokens : List Token} (h : Splits position isFirst cs tokens) :
    Spaced isFirst (tokens.map (·.raw.toList)) cs := by
  induction h with
  | done h => exact .done h
  | word h hne _ _ ih =>
      rw [List.map_cons, String.toList_ofList]
      exact .word h hne ih

theorem Spaced.append_gap {isFirst : Bool} {raws : List (List Char)}
    {cs gap : List Char} (h : Spaced isFirst raws cs) (hgap : IsGap gap) :
    Spaced isFirst raws (cs ++ gap) := by
  induction h with
  | done h => exact .done (h.append hgap)
  | word h hne _ ih =>
      rw [List.append_assoc]
      exact .word h hne ih

theorem Spaced.gap_append {raws : List (List Char)} {cs gap : List Char}
    (hgap : IsGap gap) (h : Spaced true raws cs) :
    Spaced true raws (gap ++ cs) := by
  cases h with
  | done h => exact .done (hgap.append h)
  | word h _ hrest =>
      rw [← List.append_assoc, ← List.append_assoc]
      exact .word (hgap.append h) (fun h => by cases h) hrest

/-! ## The whole line -/

theorem splits_split (line : String) :
    Splits 0 true line.toList (split line) :=
  splits_scan 0 true line.toList fun h => by cases h

theorem spaced_raws (line : String) :
    Spaced true (raws line) line.toList :=
  (splits_split line).spaced

/-- Two lines have the same words exactly if one is the other with other
gaps. -/
theorem spaced_iff_words_eq {line line' : String} :
    Spaced true (raws line) line'.toList ↔ words line' = words line := by
  constructor
  · intro h
    obtain ⟨tokens, hsplits, hwords⟩ := (splits_split line).respaced h 0
    rw [hsplits.eq_scan] at hwords
    exact hwords
  · intro h
    have hraws : raws line' = raws line := by
      have hmap := congrArg (List.map fun w => w.2.toList) h
      rwa [words, words, List.map_map, List.map_map] at hmap
    rw [← hraws]
    exact spaced_raws line'

/-- A text is what is left of it between the blanks at its ends. -/
theorem exists_trim (cs : List Char) : ∃ front back, IsGap front ∧
    IsGap back ∧ cs = front ++ (Text.trim cs ++ back) := by
  refine ⟨cs.takeWhile Text.isBlank,
    ((Text.trimFront cs).reverse.takeWhile Text.isBlank).reverse,
    fun c hc => List.mem_takeWhile_imp hc,
    fun c hc => List.mem_takeWhile_imp (List.mem_reverse.mp hc), ?_⟩
  have hback : Text.trim cs ++
      ((Text.trimFront cs).reverse.takeWhile Text.isBlank).reverse =
        Text.trimFront cs := by
    rw [Text.trim, Text.trimEnd, ← List.reverse_append,
      List.takeWhile_append_dropWhile, List.reverse_reverse]
  rw [hback, Text.trimFront, List.takeWhile_append_dropWhile]

theorem words_gap_append_gap {front back : String} (hfront : IsGap front.toList)
    (hback : IsGap back.toList) (line : String) :
    words (front ++ (line ++ back)) = words line := by
  rw [← spaced_iff_words_eq, String.toList_append, String.toList_append]
  exact ((spaced_raws line).append_gap hback).gap_append hfront

theorem words_trim (line : String) :
    words (String.ofList (Text.trim line.toList)) = words line := by
  obtain ⟨front, back, hfront, hback, hline⟩ := exists_trim line.toList
  rw [← String.toList_ofList (l := front)] at hfront
  rw [← String.toList_ofList (l := back)] at hback
  have hwords := words_gap_append_gap hfront hback
    (String.ofList (Text.trim line.toList))
  rwa [← String.ofList_append, ← String.ofList_append, ← hline,
    String.ofList_toList, eq_comm] at hwords

theorem split_eq_nil_iff {line : String} :
    split line = [] ↔ IsGap line.toList := by
  constructor
  · intro h
    have hsplits := splits_split line
    rw [h] at hsplits
    generalize line.toList = cs at hsplits
    cases hsplits with
    | done hgap => exact hgap
  · exact fun h => scan_gap h

end Token

end PageShell
