import Mathlib.Data.List.TakeWhile
import PageShell.Command.Token

/-!
# The grammar of a command line

`Token.scan` finds words by looking ahead: a quote at the start of a word is
searched for in all the rest of the line, far beyond the end of the word
itself. The grammar here says what a division of a line into words is without
saying how one is found. `IsWord` has the two forms of a word, in front of the
part of the line that comes after it; `Splits` puts words and gaps together
until the line is used up.

A line has exactly one division. That `scan` finds one is an induction along
`scan`; that there is no other is an induction over the division, in which
each gap has to be the blanks that `scan` passes over, because a word does not
start with a blank, and each word has to be the one that `scan` reads, because
what comes after a word is a gap or nothing.
-/

namespace PageShell.Token

/-- Blanks, or nothing. -/
def IsGap (cs : List Char) : Prop := ∀ c ∈ cs, Text.isBlank c = true

def IsSolid (cs : List Char) : Prop := ∀ c ∈ cs, Text.isBlank c = false

/-- The forms of a word, given the part of the line that comes after it: its
value and the word as written. -/
inductive IsWord (after : List Char) : (value raw : List Char) → Prop where
  /-- A word that stands for itself. If it starts with a quote, the line has
  no other one like it after that. -/
  | bare {c : Char} {cs : List Char} : IsSolid (c :: cs) →
      (isQuote c = true → c ∉ cs ++ after) → IsWord after (c :: cs) (c :: cs)
  /-- A group between two quotes and what is attached to it. -/
  | grouped {q : Char} {body tail : List Char} : isQuote q = true →
      q ∉ body → IsSolid tail →
      IsWord after (body ++ tail) (q :: body ++ q :: tail)

/-- The tokens divide a text that starts at the given position: a gap stands
before each word and after the last one, and only the gap before the first
word of the line and the one after its last word may be empty. -/
inductive Splits : (position : Nat) → (isFirst : Bool) → List Char →
    List Token → Prop where
  | done {position : Nat} {isFirst : Bool} {gap : List Char} : IsGap gap →
      Splits position isFirst gap []
  | word {position : Nat} {isFirst : Bool} {gap value raw rest : List Char}
      {tokens : List Token} : IsGap gap → (isFirst = false → gap ≠ []) →
      IsWord rest value raw →
      Splits (position + Text.width gap + Text.width raw) false rest tokens →
      Splits position isFirst (gap ++ raw ++ rest)
        (⟨String.ofList value, String.ofList raw, position + Text.width gap⟩ ::
          tokens)

/-! ## Where a word ends -/

/-- Nothing, or a text that starts with a blank: what can come after a word. -/
def EndsWord (cs : List Char) : Prop :=
  ∀ c rest, cs = c :: rest → Text.isBlank c = true

theorem untilBlank_append {cs after : List Char} (hcs : IsSolid cs)
    (hafter : EndsWord after) : untilBlank (cs ++ after) = cs := by
  have hall : ∀ c ∈ cs, (!Text.isBlank c) = true :=
    fun c hc => by rw [hcs c hc]; rfl
  rw [untilBlank, List.takeWhile_append_of_pos hall]
  cases after with
  | nil => rw [List.takeWhile_nil, List.append_nil]
  | cons c rest =>
      have hc := hafter c rest rfl
      rw [List.takeWhile_cons_of_neg (by simp [hc]), List.append_nil]

theorem isSolid_untilBlank (cs : List Char) : IsSolid (untilBlank cs) := by
  intro c hc
  have := List.mem_takeWhile_imp hc
  simpa using this

/-- The characters from the first blank on. -/
theorem exists_after_untilBlank (cs : List Char) :
    ∃ after, cs = untilBlank cs ++ after ∧ EndsWord after := by
  refine ⟨cs.dropWhile (!Text.isBlank ·), List.takeWhile_append_dropWhile.symm,
    ?_⟩
  intro c rest hrest
  have hhead := List.head?_dropWhile_not (!Text.isBlank ·) cs
  rw [hrest] at hhead
  simpa using hhead

theorem takeWhile_ne_append {q : Char} {body rest : List Char}
    (hq : q ∉ body) : (body ++ q :: rest).takeWhile (· ≠ q) = body := by
  rw [List.takeWhile_append_of_pos, List.takeWhile_cons_of_neg (by simp),
    List.append_nil]
  intro c hc
  simpa using fun h : c = q => hq (h ▸ hc)

/-- A text with a quote in it, cut at the first one. -/
theorem exists_cut_at {q : Char} {cs : List Char} (hq : q ∈ cs) :
    ∃ body rest, cs = body ++ q :: rest ∧ q ∉ body := by
  induction cs with
  | nil => cases hq
  | cons c cs ih =>
      by_cases hc : c = q
      · exact ⟨[], cs, by rw [hc]; rfl, by simp⟩
      · have hcs : q ∈ cs :=
          (List.mem_cons.mp hq).resolve_left (fun h => hc h.symm)
        obtain ⟨body, rest, rfl, hbody⟩ := ih hcs
        exact ⟨c :: body, rest, rfl, by
          simpa using ⟨fun h => hc h.symm, hbody⟩⟩

/-! ## The word at the front -/

theorem isBlank_of_isQuote {q : Char} (hq : isQuote q = true) :
    Text.isBlank q = false := by
  simp only [isQuote, Bool.or_eq_true, beq_iff_eq] at hq
  rcases hq with rfl | rfl <;> decide

/-- What `word` reads after the quote of a group. -/
theorem word_group {q : Char} {body rest : List Char}
    (hq : isQuote q = true) (hbody : q ∉ body) :
    word q (body ++ q :: rest) =
      (body ++ untilBlank rest, q :: body ++ q :: untilBlank rest) := by
  have hcontains : (body ++ q :: rest).contains q = true := by simp
  have hdrop : (body ++ q :: rest).drop (body.length + 1) = rest := by
    rw [← List.drop_drop, List.drop_left]
    rfl
  unfold word
  rw [hq, hcontains, Bool.and_self, if_pos rfl]
  simp only [takeWhile_ne_append hbody, hdrop]

theorem word_bare {c : Char} {rest : List Char}
    (hc : isQuote c = true → c ∉ rest) :
    word c rest = (c :: untilBlank rest, c :: untilBlank rest) := by
  unfold word
  rw [if_neg]
  simpa using hc

/-- Each form of a word, with nothing attached to it, is the word that `word`
reads. -/
theorem word_of_isWord {value raw after : List Char}
    (hword : IsWord after value raw) (hafter : EndsWord after) :
    ∃ c cs, raw = c :: cs ∧ Text.isBlank c = false ∧
      word c (cs ++ after) = (value, raw) := by
  cases hword with
  | @bare c cs hsolid hquote =>
      refine ⟨c, cs, rfl, hsolid c List.mem_cons_self, ?_⟩
      have hcs : IsSolid cs := fun d hd => hsolid d (List.mem_cons_of_mem c hd)
      rw [word_bare hquote, untilBlank_append hcs hafter]
  | @grouped q body tail hq hbody htail =>
      refine ⟨q, body ++ q :: tail, rfl, isBlank_of_isQuote hq, ?_⟩
      rw [List.append_assoc, List.cons_append, word_group hq hbody,
        untilBlank_append htail hafter]

/-- And `word` reads a word of one of the forms, up to a blank or the end. -/
theorem isWord_word {c : Char} (hc : Text.isBlank c = false)
    (rest : List Char) :
    ∃ after, c :: rest = (word c rest).2 ++ after ∧
      IsWord after (word c rest).1 (word c rest).2 ∧ EndsWord after := by
  by_cases hgroup : isQuote c = true ∧ c ∈ rest
  · obtain ⟨hq, hmem⟩ := hgroup
    obtain ⟨body, rest, rfl, hbody⟩ := exists_cut_at hmem
    obtain ⟨after, hafter, hends⟩ := exists_after_untilBlank rest
    refine ⟨after, ?_, ?_, hends⟩
    · rw [word_group hq hbody]
      simp only [List.cons_append, List.append_assoc, ← hafter]
    · rw [word_group hq hbody]
      exact .grouped hq hbody (isSolid_untilBlank rest)
  · have hquote : isQuote c = true → c ∉ rest := fun hq hmem =>
      hgroup ⟨hq, hmem⟩
    obtain ⟨after, hafter, hends⟩ := exists_after_untilBlank rest
    refine ⟨after, ?_, ?_, hends⟩
    · rw [word_bare hquote]
      simp only [List.cons_append, ← hafter]
    · rw [word_bare hquote]
      refine .bare ?_ (fun hq => by rw [← hafter]; exact hquote hq)
      intro d hd
      rcases List.mem_cons.mp hd with rfl | hd
      · exact hc
      · exact isSolid_untilBlank rest d hd

/-! ## The whole line -/

theorem scan_gap {position : Nat} {gap : List Char} (hgap : IsGap gap) :
    scan position gap = [] := by
  have hnil : gap.dropWhile Text.isBlank = [] :=
    List.dropWhile_eq_nil_iff.mpr hgap
  rw [scan]
  split
  · rfl
  · next c rest h => rw [hnil] at h; cases h

/-- One round of `scan`: the gap, the word, and the text after them. -/
theorem scan_word {position : Nat} {gap value raw after : List Char}
    (hgap : IsGap gap) (hword : IsWord after value raw)
    (hafter : EndsWord after) :
    scan position (gap ++ raw ++ after) =
      ⟨String.ofList value, String.ofList raw, position + Text.width gap⟩ ::
        scan (position + Text.width gap + Text.width raw) after := by
  obtain ⟨c, cs, rfl, hc, hread⟩ := word_of_isWord hword hafter
  have hblanks : (gap ++ (c :: cs) ++ after).takeWhile Text.isBlank = gap := by
    rw [List.append_assoc, List.takeWhile_append_of_pos hgap, List.cons_append,
      List.takeWhile_cons_of_neg (by simp [hc]), List.append_nil]
  have hrest : (gap ++ (c :: cs) ++ after).dropWhile Text.isBlank =
      c :: (cs ++ after) := by
    rw [List.append_assoc, List.dropWhile_append_of_pos hgap, List.cons_append,
      List.dropWhile_cons_of_neg (by simp [hc])]
  rw [scan]
  split
  · next h => rw [hrest] at h; cases h
  · next c' rest' h =>
      rw [hrest] at h
      cases h
      simp only [hread, hblanks]
      rw [← List.cons_append, List.drop_left]

/-- After a word the rest of the line can only be divided if the word is at
an end. -/
theorem Splits.endsWord {position : Nat} {cs : List Char}
    {tokens : List Token} (h : Splits position false cs tokens) :
    EndsWord cs := by
  intro c rest hcs
  cases h with
  | done hgap => exact hgap c (by rw [hcs]; exact List.mem_cons_self)
  | @word _ _ gap value raw after _ hgap hne _ _ =>
      cases gap with
      | nil => exact absurd rfl (hne rfl)
      | cons b gap =>
          cases hcs
          exact hgap c List.mem_cons_self

theorem Splits.eq_scan {position : Nat} {isFirst : Bool} {cs : List Char}
    {tokens : List Token} (h : Splits position isFirst cs tokens) :
    tokens = scan position cs := by
  induction h with
  | done hgap => rw [scan_gap hgap]
  | word hgap _ hword hrest ih => rw [scan_word hgap hword hrest.endsWord, ih]

theorem splits_scan (position : Nat) (isFirst : Bool) (cs : List Char)
    (hfirst : isFirst = false → EndsWord cs) :
    Splits position isFirst cs (scan position cs) := by
  induction hn : cs.length using Nat.strongRecOn generalizing position
    isFirst cs with
  | ind n ih =>
      have hgap : IsGap (cs.takeWhile Text.isBlank) :=
        fun c hc => List.mem_takeWhile_imp hc
      have hcs := List.takeWhile_append_dropWhile (p := Text.isBlank) (l := cs)
      cases hrest : cs.dropWhile Text.isBlank with
      | nil =>
          rw [hrest, List.append_nil] at hcs
          rw [hcs] at hgap
          rw [scan_gap hgap]
          exact .done hgap
      | cons c rest =>
          have hc : Text.isBlank c = false := by
            have hhead := List.head?_dropWhile_not Text.isBlank cs
            rw [hrest] at hhead
            simpa using hhead
          obtain ⟨after, hafter, hword, hends⟩ := isWord_word hc rest
          rw [hrest, hafter, ← List.append_assoc] at hcs
          have hlen : after.length < n := by
            have hraw := List.length_pos_iff.mpr (word_raw_ne_nil c rest)
            rw [← hn, ← hcs]
            simp only [List.length_append]
            omega
          rw [← hcs, scan_word hgap hword hends]
          refine .word hgap (fun hf hnil => ?_) hword
            (ih after.length hlen _ false after (fun _ => hends) rfl)
          -- Without a gap the text would start with the word itself.
          rw [hnil, List.nil_append, ← hafter] at hcs
          have hblank := hfirst hf c rest hcs.symm
          rw [hc] at hblank
          cases hblank

/-- Every line has one division into words and gaps and no other, and it is
the one that `split` finds. -/
theorem splits_iff_eq_split (line : String) (tokens : List Token) :
    Splits 0 true line.toList tokens ↔ tokens = split line := by
  constructor
  · exact fun h => h.eq_scan
  · rintro rfl
    exact splits_scan 0 true line.toList (fun h => by cases h)

end PageShell.Token
