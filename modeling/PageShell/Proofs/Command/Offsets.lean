import PageShell.Proofs.Command.Grammar

/-!
# Words found by byte positions

A line is bytes to whoever splits it in place: a round starts at the position
where the last word ended, adds the distance to the next character that is not
blank, reads a word from there, looks behind its first quote, and cuts the
word out. Every one of these cuts is at a position that was computed, as a sum
of widths, and a text can only be cut between its characters; here a cut
anywhere else is refused, and the round with it (`Text.slice?`).

None is refused, because each position is the width of a part of the line
that ends with a character (`Text.isBoundary_iff`): the line is taken apart
into what is before the round, the gap, the word and what comes after, and
each sum is the width of the first few of these. With the parts named, a round
is computed (`pass?_word`), and it ends further on than it began since a word
is not empty.

So the rounds are as many as the words of the one division of the line, and
yield its words: the induction is over that division. They are put together by
a relation without a bound (`Runs`), so that an end to them is a fact about
the line and not about the way they are written down.
-/

namespace PageShell

namespace Text

/-! ## Cutting a text -/

/-- Whether a text can be cut at a byte position: one of its characters starts
there, or the text ends there. -/
def IsBoundary (text : String) (p : Nat) : Prop :=
  String.Pos.Raw.IsValid text ⟨p⟩

instance (text : String) (p : Nat) : Decidable (IsBoundary text p) :=
  inferInstanceAs (Decidable (String.Pos.Raw.IsValid text ⟨p⟩))

/-- The text between two byte positions, refused unless it can be cut at both
and they are in order. -/
def slice? (text : String) (start stop : Nat) : Option String :=
  if h : start ≤ stop ∧ IsBoundary text start ∧ IsBoundary text stop then
    some (String.extract (⟨⟨start⟩, h.2.1⟩ : text.Pos) ⟨⟨stop⟩, h.2.2⟩)
  else none

example : slice? "aéb" 1 3 = some "é" ∧ slice? "aéb" 2 4 = none := by
  decide +kernel

/-- The characters from a byte position on. -/
def suffix? (text : String) (start : Nat) : Option (List Char) :=
  (slice? text start text.utf8ByteSize).map String.toList

/-- The boundaries of a text are the widths of its prefixes. -/
theorem isBoundary_iff {text : String} {p : Nat} :
    IsBoundary text p ↔
      ∃ before after, text.toList = before ++ after ∧ p = width before := by
  rw [IsBoundary, String.Pos.Raw.isValid_iff_exists_append]
  constructor
  · rintro ⟨before, after, rfl, hp⟩
    refine ⟨before.toList, after.toList, String.toList_append, ?_⟩
    rw [← utf8ByteSize_eq_width]
    exact congrArg String.Pos.Raw.byteIdx hp
  · rintro ⟨before, after, htext, rfl⟩
    refine ⟨.ofList before, .ofList after, ?_, ?_⟩
    · rw [← String.ofList_append, ← htext, String.ofList_toList]
    · rw [← utf8ByteSize_ofList]
      rfl

theorem IsBoundary.le {text : String} {p : Nat} (h : IsBoundary text p) :
    p ≤ text.utf8ByteSize :=
  h.le_utf8ByteSize

/-- A slice is the bytes between two boundaries. -/
theorem slice?_eq_some_iff {text part : String} {start stop : Nat} :
    slice? text start stop = some part ↔
      (start ≤ stop ∧ IsBoundary text start ∧ IsBoundary text stop) ∧
        part.toByteArray = text.toByteArray.extract start stop := by
  rw [slice?]
  split
  · next hcut =>
      rw [Option.some_inj, ← String.toByteArray_inj,
        String.toByteArray_extract, eq_comm]
      exact (and_iff_right hcut).symm
  · next hcut => exact iff_of_false (fun h => by cases h) fun h => hcut h.1

variable {text : String} {before part after : List Char}

theorem extract_eq (htext : text.toList = before ++ part ++ after) :
    (String.ofList part).toByteArray =
      text.toByteArray.extract (width before) (width before + width part) := by
  have hwidth : ∀ cs, width cs = (String.ofList cs).toByteArray.size :=
    fun cs => (utf8ByteSize_ofList cs).symm
  have hbytes : text.toByteArray = (String.ofList before).toByteArray ++
      ((String.ofList part).toByteArray ++
        (String.ofList after).toByteArray) := by
    rw [← String.toByteArray_append, ← String.toByteArray_append,
      ← String.ofList_append, ← String.ofList_append, ← List.append_assoc,
      ← htext, String.ofList_toList]
  rw [hbytes, hwidth, hwidth]
  symm
  calc ByteArray.extract _ _ _
      = ((String.ofList part).toByteArray ++
          (String.ofList after).toByteArray).extract 0
            (String.ofList part).toByteArray.size :=
        ByteArray.extract_append_size_add (i := 0)
    _ = (String.ofList part).toByteArray :=
        ByteArray.extract_append_eq_left rfl

/-- A text that is taken apart can be cut where its parts meet. -/
theorem slice?_eq_some (htext : text.toList = before ++ part ++ after) :
    slice? text (width before) (width before + width part) =
      some (.ofList part) := by
  refine slice?_eq_some_iff.mpr
    ⟨⟨Nat.le_add_right _ _, isBoundary_iff.mpr ?_, isBoundary_iff.mpr ?_⟩,
      extract_eq htext⟩
  · exact ⟨before, part ++ after, by rw [htext, List.append_assoc], rfl⟩
  · exact ⟨before ++ part, after, htext, (width_append before part).symm⟩

theorem suffix?_eq_some (htext : text.toList = before ++ after) :
    suffix? text (width before) = some after := by
  have hsize : text.utf8ByteSize = width before + width after := by
    rw [utf8ByteSize_eq_width, htext, width_append]
  rw [suffix?, hsize, slice?_eq_some (htext.trans (List.append_nil _).symm),
    Option.map_some, String.toList_ofList]

end Text

namespace Token

open Text (IsBoundary slice? suffix? width)

/-! ## A round -/

/-- Whether the character at a position opens a group: it can, and there is
another one like it behind it. -/
def opensGroup? (line : String) (position : Nat) (c : Char) : Option Bool :=
  if isQuote c then
    (suffix? line (position + c.utf8Size)).map (·.contains c)
  else some false

/-- Reads on in a word that starts at `start`, with the next character at an
offset from there: its value, and the position after it. The quote is the one
that closes the group that is open. -/
def readFrom? (line : String) (start : Nat) : (offset : Nat) →
    (quote : Option Char) → (value : List Char) → List Char →
    Option (List Char × Nat)
  | _, _, value, [] => some (value, line.utf8ByteSize)
  | offset, some quote, value, c :: cs =>
    if c = quote then readFrom? line start (offset + c.utf8Size) none value cs
    else
      readFrom? line start (offset + c.utf8Size) (some quote) (value ++ [c]) cs
  | offset, none, value, c :: cs =>
    if Text.isBlank c then some (value, start + offset)
    else
      match if offset = 0 then opensGroup? line (start + offset) c
        else some false with
      | none => none
      | some true =>
        readFrom? line start (offset + c.utf8Size) (some c) value cs
      | some false =>
        readFrom? line start (offset + c.utf8Size) none (value ++ [c]) cs

/-- Reads the word that starts at a position. -/
def readToken? (line : String) (start : Nat) : Option (List Char × Nat) :=
  (suffix? line start).bind (readFrom? line start 0 none [])

/-- The offset of the first character that is not blank, if there is one. -/
def findSolid? (offset : Nat) : List Char → Option Nat
  | [] => none
  | c :: cs =>
    if Text.isBlank c then findSolid? (offset + c.utf8Size) cs
    else some offset

/-- What a round comes to: there is no other word, or a word and the position
that the next round starts at. -/
inductive Pass where
  | done
  | word (t : Token) (next : Nat)
deriving DecidableEq

/-- The round that starts at a position. -/
def pass? (line : String) (index : Nat) : Option Pass := do
  let cs ← suffix? line index
  match findSolid? 0 cs with
  | none => return .done
  | some offset =>
    let start := index + offset
    let (value, stop) ← readToken? line start
    let raw ← slice? line start stop
    return .word ⟨String.ofList value, raw, start⟩ stop

/-- The rounds from a position on find these words and come to an end. -/
inductive Runs (line : String) : (index : Nat) → List Token → Prop where
  | done {index : Nat} : pass? line index = some .done → Runs line index []
  | word {index next : Nat} {t : Token} {tokens : List Token} :
      pass? line index = some (.word t next) → Runs line next tokens →
      Runs line index (t :: tokens)

/-- The positions that a round starts at. -/
inductive Reached (line : String) : (index : Nat) → Prop where
  | first : Reached line 0
  | next {index next : Nat} {t : Token} : Reached line index →
      pass? line index = some (.word t next) → Reached line next

/-- A token stands between two boundaries of the line and has all the bytes
between them; and behind its first character, from where a quote is looked
for, is another boundary. -/
structure Occupies (line : String) (t : Token) : Prop where
  start : IsBoundary line t.start
  behindFirst : ∀ c ∈ t.raw.toList.head?, IsBoundary line (t.start + c.utf8Size)
  stop : IsBoundary line t.stop
  bytes : t.raw.toByteArray = line.toByteArray.extract t.start t.stop

/-! ## The parts of a round -/

variable {line : String} {before : List Char}

theorem findSolid?_gap {offset : Nat} {gap : List Char} (hgap : IsGap gap)
    (cs : List Char) :
    findSolid? offset (gap ++ cs) = findSolid? (offset + width gap) cs := by
  induction gap generalizing offset with
  | nil => rfl
  | cons c gap ih =>
      rw [List.cons_append, findSolid?, if_pos (hgap c List.mem_cons_self),
        ih fun d hd => hgap d (List.mem_cons_of_mem c hd), width,
        Nat.add_assoc]

theorem opensGroup?_eq {c : Char} {cs : List Char}
    (hline : line.toList = before ++ c :: cs) :
    opensGroup? line (width before) c =
      some (isQuote c && cs.contains c) := by
  rw [opensGroup?]
  split
  · next hquote =>
      have hcut : line.toList = (before ++ [c]) ++ cs := by
        rw [hline, List.append_cons]
      have hsuffix := Text.suffix?_eq_some hcut
      rw [Text.width_append] at hsuffix
      rw [hquote, Bool.true_and]
      exact congrArg _ hsuffix
  · next hquote =>
      rw [Bool.eq_false_iff.mpr hquote, Bool.false_and]

theorem readFrom?_group {start offset : Nat} {q : Char} {body : List Char}
    (hbody : q ∉ body) (value rest : List Char) :
    readFrom? line start offset (some q) value (body ++ q :: rest) =
      readFrom? line start (offset + width (body ++ [q])) none (value ++ body)
        rest := by
  induction body generalizing offset value with
  | nil =>
      rw [List.nil_append, readFrom?, if_pos rfl, List.append_nil]
      rfl
  | cons c body ih =>
      have hc : c ≠ q := fun h => hbody (h ▸ List.mem_cons_self)
      rw [List.cons_append, readFrom?, if_neg hc,
        ih fun h => hbody (List.mem_cons_of_mem c h), List.cons_append, width,
        Nat.add_assoc, List.append_assoc, List.singleton_append]

/-- After its first character, and outside of its group, a word goes on to the
next blank or to the end of the line. -/
theorem readFrom?_tail {start offset : Nat} {cs after : List Char}
    (hoffset : 0 < offset) (hcs : IsSolid cs) (hafter : EndsWord after)
    (hend : line.utf8ByteSize = start + offset + width (cs ++ after))
    (value : List Char) :
    readFrom? line start offset none value (cs ++ after) =
      some (value ++ cs, start + offset + width cs) := by
  induction cs generalizing offset value with
  | nil =>
      rw [List.nil_append, List.append_nil]
      cases after with
      | nil => rw [readFrom?, hend]; rfl
      | cons c after => rw [readFrom?, if_pos (hafter c after rfl)]; rfl
  | cons c cs ih =>
      have hc : ¬ Text.isBlank c = true := by
        simp [hcs c List.mem_cons_self]
      rw [List.cons_append, width] at hend
      -- Away from the start a quote opens nothing, and nothing is cut.
      rw [List.cons_append, readFrom?, if_neg hc, if_neg (by omega)]
      dsimp only
      rw [ih (by omega) (fun d hd => hcs d (List.mem_cons_of_mem c hd))
        (by omega), width, List.append_assoc, List.singleton_append]
      congr 2
      omega

theorem readToken?_eq {value raw after : List Char}
    (hline : line.toList = before ++ raw ++ after)
    (hword : IsWord after value raw) (hafter : EndsWord after) :
    readToken? line (width before) =
      some (value, width before + width raw) := by
  have hsize : line.utf8ByteSize =
      width before + width raw + width after := by
    rw [Text.utf8ByteSize_eq_width, hline, Text.width_append,
      Text.width_append]
  rw [List.append_assoc] at hline
  rw [readToken?, Text.suffix?_eq_some hline, Option.bind_some]
  cases hword with
  | @bare c cs hsolid hquote =>
      have hc : ¬ Text.isBlank c = true := by
        simp [hsolid c List.mem_cons_self]
      have hopens : (isQuote c && (cs ++ after).contains c) = false := by
        simpa using hquote
      have hread : readFrom? line (width before) c.utf8Size none [c]
          (cs ++ after) =
            some ([c] ++ cs, width before + c.utf8Size + width cs) :=
        readFrom?_tail c.utf8Size_pos
          (fun d hd => hsolid d (List.mem_cons_of_mem c hd)) hafter
          (by rw [hsize, width, Text.width_append]; omega) [c]
      rw [List.cons_append] at hline
      rw [List.cons_append, readFrom?, if_neg hc, if_pos rfl, Nat.add_zero,
        opensGroup?_eq hline, hopens]
      simp only [Nat.zero_add, List.nil_append]
      rw [hread, width, Nat.add_assoc]
      rfl
  | @grouped q body tail hquote hbody htail =>
      have hq : ¬ Text.isBlank q = true := by
        simp [isBlank_of_isQuote hquote]
      have hraw : q :: body ++ q :: tail ++ after =
          q :: (body ++ q :: (tail ++ after)) := by simp
      have hopens :
          (isQuote q && (body ++ q :: (tail ++ after)).contains q) = true := by
        simp [hquote]
      have hwidth : width (q :: body ++ q :: tail) =
          q.utf8Size + width (body ++ [q]) + width tail := by
        rw [List.append_cons, Text.width_append, List.cons_append, width]
      have hread : readFrom? line (width before)
          (q.utf8Size + width (body ++ [q])) none body (tail ++ after) =
            some (body ++ tail, width before +
              (q.utf8Size + width (body ++ [q])) + width tail) :=
        readFrom?_tail (Nat.add_pos_left q.utf8Size_pos _) htail hafter
          (by rw [hsize, hwidth, Text.width_append tail]; omega) body
      rw [hraw] at hline ⊢
      rw [readFrom?, if_neg hq, if_pos rfl, Nat.add_zero,
        opensGroup?_eq hline, hopens]
      simp only [Nat.zero_add]
      rw [readFrom?_group hbody, List.nil_append, hread, hwidth, Nat.add_assoc,
        Nat.add_assoc]

/-- The round in front of a word. -/
theorem pass?_word {gap value raw after : List Char} (hgap : IsGap gap)
    (hline : line.toList = before ++ gap ++ raw ++ after)
    (hword : IsWord after value raw) (hafter : EndsWord after) :
    pass? line (width before) =
      some (.word ⟨String.ofList value, String.ofList raw,
          width before + width gap⟩
        (width before + width gap + width raw)) := by
  obtain ⟨c, cs, rfl, hc, -⟩ := word_of_isWord hword hafter
  have hfind : findSolid? 0 (gap ++ (c :: cs ++ after)) =
      some (width gap) := by
    rw [findSolid?_gap hgap, Nat.zero_add, List.cons_append, findSolid?,
      if_neg (by simp [hc])]
  have hread := readToken?_eq hline hword hafter
  have hslice := Text.slice?_eq_some hline
  rw [Text.width_append] at hread hslice
  rw [List.append_assoc, List.append_assoc] at hline
  rw [pass?, Text.suffix?_eq_some hline]
  simp only [Option.bind_eq_bind, Option.bind_some, hfind, hread, hslice]
  rfl

/-- The round behind the last word. -/
theorem pass?_gap {gap : List Char} (hgap : IsGap gap)
    (hline : line.toList = before ++ gap) :
    pass? line (width before) = some .done := by
  have hfind : findSolid? 0 gap = none := by
    rw [← List.append_nil gap, findSolid?_gap hgap, findSolid?]
  rw [pass?, Text.suffix?_eq_some hline]
  simp only [Option.bind_eq_bind, Option.bind_some, hfind]
  rfl

/-! ## All rounds -/

/-- The rounds find the words of a division of the line. -/
theorem Splits.runs {isFirst : Bool} {position : Nat} {cs : List Char}
    {tokens : List Token} (h : Splits position isFirst cs tokens)
    (hline : line.toList = before ++ cs) (hposition : position = width before) :
    Runs line position tokens := by
  induction h generalizing before with
  | done hgap =>
      subst hposition
      exact .done (pass?_gap hgap hline)
  | @word position _ gap value raw rest _ hgap _ hword hrest ih =>
      subst hposition
      have hline' : line.toList = before ++ gap ++ raw ++ rest := by
        rw [hline, List.append_assoc before, List.append_assoc before]
      refine .word (pass?_word hgap hline' hword hrest.endsWord)
        (ih hline' ?_)
      rw [Text.width_append, Text.width_append]

theorem Runs.of_done {index : Nat} {tokens : List Token}
    (hpass : pass? line index = some .done) (h : Runs line index tokens) :
    tokens = [] := by
  cases h with
  | done => rfl
  | word hpass' => rw [hpass] at hpass'; cases hpass'

theorem Runs.of_word {index next : Nat} {t : Token} {tokens : List Token}
    (hpass : pass? line index = some (.word t next))
    (h : Runs line index tokens) :
    ∃ tokens', tokens = t :: tokens' ∧ Runs line next tokens' := by
  cases h with
  | done hpass' => rw [hpass] at hpass'; cases hpass'
  | word hpass' hruns =>
      rw [hpass] at hpass'
      cases hpass'
      exact ⟨_, rfl, hruns⟩

theorem Runs.unique {index : Nat} {tokens tokens' : List Token}
    (h : Runs line index tokens) (h' : Runs line index tokens') :
    tokens' = tokens := by
  induction h generalizing tokens' with
  | done hpass => exact h'.of_done hpass
  | word hpass _ ih =>
      obtain ⟨rest, rfl, hrest⟩ := h'.of_word hpass
      rw [ih hrest]

/-- What is found from a position that is reached is what is left of the words
of the line. -/
theorem Reached.runs {index : Nat} {tokens : List Token}
    (hruns : Runs line 0 tokens) (h : Reached line index) :
    ∃ tokens', Runs line index tokens' ∧ tokens' ⊆ tokens := by
  induction h with
  | first => exact ⟨tokens, hruns, List.Subset.refl tokens⟩
  | next _ hpass ih =>
      obtain ⟨tokens', hruns', hsubset⟩ := ih
      obtain ⟨rest, rfl, hrest⟩ := hruns'.of_word hpass
      exact ⟨rest, hrest, (List.cons_subset.mp hsubset).2⟩

/-- A round that starts at a boundary is not refused, and if there is a word
it ends behind the word. -/
theorem exists_pass? {index : Nat} (hindex : IsBoundary line index) :
    pass? line index = some .done ∨
      ∃ t, pass? line index = some (.word t t.stop) ∧
        index ≤ t.start ∧ t.start < t.stop ∧ Occupies line t := by
  obtain ⟨before, cs, hline, rfl⟩ := Text.isBoundary_iff.mp hindex
  -- Any rest of a line has a division, also one that starts inside a word.
  have hsplits := splits_scan (width before) true cs fun h => by cases h
  generalize scan (width before) cs = tokens at hsplits
  cases hsplits with
  | done hgap => exact .inl (pass?_gap hgap hline)
  | @word _ _ gap value raw rest tokens hgap _ hword hrest =>
      rw [← List.append_assoc, ← List.append_assoc] at hline
      have hpass := pass?_word hgap hline hword hrest.endsWord
      have hslice := Text.slice?_eq_some hline
      rw [Text.width_append] at hslice
      obtain ⟨c, others, rfl, -, -⟩ := word_of_isWord hword hrest.endsWord
      have hpos := Text.width_cons_pos c others
      rw [← Text.utf8ByteSize_ofList (c :: others)] at hpass hslice hpos
      obtain ⟨⟨-, hstart, hstop⟩, hbytes⟩ :=
        Text.slice?_eq_some_iff.mp hslice
      refine .inr ⟨_, hpass, Nat.le_add_right _ _,
        Nat.lt_add_of_pos_right hpos, hstart, ?_, hstop, hbytes⟩
      intro first hfirst
      rw [String.toList_ofList] at hfirst
      cases hfirst
      refine Text.isBoundary_iff.mpr
        ⟨before ++ gap ++ [c], others ++ rest, ?_, ?_⟩
      · rw [hline]
        simp
      · rw [Text.width_append, Text.width_append]
        rfl

theorem Reached.isBoundary {index : Nat} (h : Reached line index) :
    IsBoundary line index := by
  induction h with
  | first => exact Text.isBoundary_iff.mpr ⟨[], line.toList, rfl, rfl⟩
  | next _ hpass ih =>
      rcases exists_pass? ih with hdone | ⟨t, hpass', -, -, hoccupies⟩
      · rw [hdone] at hpass
        cases hpass
      · rw [hpass'] at hpass
        cases hpass
        exact hoccupies.stop

/-- The rounds over a line come to an end, with the words of the line and with
nothing else. Each starts at a boundary and none is refused, so all cuts are
at boundaries; and a round that finds a word ends behind it, which is further
on than where the round began and no further than the end of the line, and the
word is all the bytes between its two ends. -/
theorem rounds_stay_on_boundaries (line : String) :
    Runs line 0 (split line) ∧
    (∀ tokens, Runs line 0 tokens → tokens = split line) ∧
    ∀ index, Reached line index →
      IsBoundary line index ∧
      (pass? line index = some .done ∨
        ∃ t ∈ split line, pass? line index = some (.word t t.stop) ∧
          index ≤ t.start ∧ t.start < t.stop ∧
          t.stop ≤ line.utf8ByteSize ∧ Occupies line t) := by
  have hwhole : line.toList = [] ++ line.toList := rfl
  have hruns : Runs line 0 (split line) :=
    ((splits_iff_eq_split line _).mpr rfl).runs hwhole rfl
  refine ⟨hruns, fun tokens h => hruns.unique h, fun index hreached =>
    ⟨hreached.isBoundary, ?_⟩⟩
  rcases exists_pass? hreached.isBoundary with
    hdone | ⟨t, hpass, hindex, hlt, hoccupies⟩
  · exact .inl hdone
  · refine .inr ⟨t, ?_, hpass, hindex, hlt, hoccupies.stop.le, hoccupies⟩
    obtain ⟨tokens, hruns', hsubset⟩ := hreached.runs hruns
    obtain ⟨rest, rfl, -⟩ := hruns'.of_word hpass
    exact hsubset List.mem_cons_self

/-- A line with a wide blank between its two words, of which the first is one
wide character and the second begins with a quote in front of another. -/
theorem wide_line_is_cut_at_boundaries :
    Runs "é\u3000'ü x'" 0 (split "é\u3000'ü x'") ∧
    Reached "é\u3000'ü x'" 2 ∧
    ∃ t ∈ split "é\u3000'ü x'",
      pass? "é\u3000'ü x'" 2 = some (.word t t.stop) ∧ t.start = 5 ∧
      t.stop = 11 ∧ Occupies "é\u3000'ü x'" t ∧
      IsBoundary "é\u3000'ü x'" 6 := by
  obtain ⟨hruns, -, hreached⟩ := rounds_stay_on_boundaries "é\u3000'ü x'"
  have hfirst : pass? "é\u3000'ü x'" 0 = some (.word ⟨"é", "é", 0⟩ 2) := by
    decide +kernel
  have hsecond : pass? "é\u3000'ü x'" 2 =
      some (.word ⟨"ü x", "'ü x'", 5⟩ 11) := by
    decide +kernel
  refine ⟨hruns, .next .first hfirst, ?_⟩
  obtain ⟨-, hdone | ⟨t, ht, hpass, -, -, -, hoccupies⟩⟩ :=
    hreached 2 (.next .first hfirst)
  · rw [hsecond] at hdone
    cases hdone
  · refine ⟨t, ht, hpass, ?_⟩
    rw [hsecond] at hpass
    cases hpass
    exact ⟨rfl, rfl, hoccupies,
      hoccupies.behindFirst '\'' (by decide +kernel)⟩

end Token

end PageShell
