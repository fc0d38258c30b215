import PageShell.Json.Writer
import PageShell.Proofs.Json.Lexeme

/-!
# One writer for both forms

The compact and the indented form of a value differ in nothing but blanks:
where the one has none, the other starts a line or sets a value off from its
key. A `Layout` is that difference, and `Layout.written` writes a value in
any of them. What holds of every layout, that the text is read back above
all, holds of both forms.

First and further items are written alike here, told apart by a flag, as they
are told apart where they are read.
-/

namespace PageShell.Json

/-- The blanks between the parts of a value. -/
structure Layout where
  /-- The start of a line at a depth. -/
  line : Nat → List Char
  /-- What stands between a colon and the value after it. -/
  gap : List Char
  line_blank : ∀ depth, ∀ c ∈ line depth, isSpace c = true
  gap_blank : ∀ c ∈ gap, isSpace c = true

namespace Layout

/-- No blanks at all. -/
def flat : Layout where
  line _ := []
  gap := []
  line_blank _ _ h := by cases h
  gap_blank _ h := by cases h

/-- A line for every part, two blanks further in than its container. -/
def tiered : Layout where
  line := newLine
  gap := [' ']
  line_blank depth c h := by
    rcases List.mem_cons.mp h with rfl | h
    · rfl
    · rw [List.eq_of_mem_replicate h]
      rfl
  gap_blank c h := by
    rw [List.mem_singleton.mp h]
    rfl

/-- What stands before a part of a container at the given depth. -/
def before (layout : Layout) (depth : Nat) (isFirst : Bool) : List Char :=
  (if isFirst then [] else [',']) ++ layout.line (depth + 1)

/-- What stands before the bracket that closes a container; an empty one is
closed at once. -/
def closing (layout : Layout) (depth : Nat) (isFirst : Bool) : List Char :=
  if isFirst then [] else layout.line depth

theorem closing_blank (layout : Layout) (depth : Nat) (isFirst : Bool) :
    ∀ c ∈ layout.closing depth isFirst, isSpace c = true := by
  cases isFirst with
  | true => exact fun c h => by cases h
  | false => exact layout.line_blank depth

mutual

/-- The value at the given depth, in front of `rest`. -/
def written (layout : Layout) (depth : Nat) :
    Json → (rest : List Char) → List Char
  | .null, rest => "null".toList ++ rest
  | .bool value, rest => encodeName value ++ rest
  | .number numeral, rest => encodeNumeral numeral ++ rest
  | .string value, rest => encodeString value ++ rest
  | .array items, rest => '[' :: layout.writtenItems depth true items rest
  | .object members, rest =>
    '{' :: layout.writtenMembers depth true members rest
termination_by structural j => j

/-- Items of an array at the given depth, and its closing bracket. -/
def writtenItems (layout : Layout) (depth : Nat) (isFirst : Bool) :
    List Json → (rest : List Char) → List Char
  | [], rest => layout.closing depth isFirst ++ ']' :: rest
  | j :: js, rest =>
    layout.before depth isFirst ++
      layout.written (depth + 1) j (layout.writtenItems depth false js rest)
termination_by structural js => js

/-- Members of an object at the given depth, and its closing brace. -/
def writtenMembers (layout : Layout) (depth : Nat) (isFirst : Bool) :
    List (String × Json) → (rest : List Char) → List Char
  | [], rest => layout.closing depth isFirst ++ '}' :: rest
  | (k, j) :: ms, rest =>
    layout.before depth isFirst ++ (encodeString k ++ ':' :: (layout.gap ++
      layout.written (depth + 1) j
        (layout.writtenMembers depth false ms rest)))
termination_by structural ms => ms

end

/-! ## The two forms -/

mutual

theorem compact_eq (j : Json) (depth : Nat) (rest : List Char) :
    compact j rest = flat.written depth j rest := by
  cases j with
  | array items =>
      rw [compact, written, compactItems_eq items depth]
  | object members =>
      rw [compact, written, compactMembers_eq members depth]
  | _ => rfl
termination_by structural j

theorem compactItems_eq (js : List Json) (depth : Nat) (rest : List Char) :
    compactItems js rest = flat.writtenItems depth true js rest := by
  cases js with
  | nil => rfl
  | cons j js =>
      rw [compactItems, compactMoreItems_eq js depth,
        compact_eq j (depth + 1)]
      rfl
termination_by structural js

theorem compactMoreItems_eq (js : List Json) (depth : Nat)
    (rest : List Char) :
    compactMoreItems js rest = flat.writtenItems depth false js rest := by
  cases js with
  | nil => rfl
  | cons j js =>
      rw [compactMoreItems, compactMoreItems_eq js depth,
        compact_eq j (depth + 1)]
      rfl
termination_by structural js

theorem compactMembers_eq (ms : List (String × Json)) (depth : Nat)
    (rest : List Char) :
    compactMembers ms rest = flat.writtenMembers depth true ms rest := by
  cases ms with
  | nil => rfl
  | cons m ms =>
      obtain ⟨k, j⟩ := m
      rw [compactMembers, compactMoreMembers_eq ms depth,
        compact_eq j (depth + 1)]
      rfl
termination_by structural ms

theorem compactMoreMembers_eq (ms : List (String × Json)) (depth : Nat)
    (rest : List Char) :
    compactMoreMembers ms rest =
      flat.writtenMembers depth false ms rest := by
  cases ms with
  | nil => rfl
  | cons m ms =>
      obtain ⟨k, j⟩ := m
      rw [compactMoreMembers, compactMoreMembers_eq ms depth,
        compact_eq j (depth + 1)]
      rfl
termination_by structural ms

end

mutual

theorem indented_eq (j : Json) (depth : Nat) (rest : List Char) :
    indented depth j rest = tiered.written depth j rest := by
  cases j with
  | array items =>
      cases items with
      | nil => rfl
      | cons j js =>
          rw [indented, indentedMoreItems_eq js depth,
            indented_eq j (depth + 1)]
          rfl
  | object members =>
      cases members with
      | nil => rfl
      | cons m ms =>
          obtain ⟨k, j⟩ := m
          rw [indented, indentedMoreMembers_eq ms depth,
            indented_eq j (depth + 1)]
          rfl
  | _ => rfl
termination_by structural j

theorem indentedMoreItems_eq (js : List Json) (depth : Nat)
    (rest : List Char) :
    indentedMoreItems depth js rest =
      tiered.writtenItems depth false js rest := by
  cases js with
  | nil => rfl
  | cons j js =>
      rw [indentedMoreItems, indentedMoreItems_eq js depth,
        indented_eq j (depth + 1)]
      rfl
termination_by structural js

theorem indentedMoreMembers_eq (ms : List (String × Json)) (depth : Nat)
    (rest : List Char) :
    indentedMoreMembers depth ms rest =
      tiered.writtenMembers depth false ms rest := by
  cases ms with
  | nil => rfl
  | cons m ms =>
      obtain ⟨k, j⟩ := m
      rw [indentedMoreMembers, indentedMoreMembers_eq ms depth,
        indented_eq j (depth + 1)]
      rfl
termination_by structural ms

end

/-! ## The rest is left -/

variable (layout : Layout)

mutual

theorem suffix_written (j : Json) (depth : Nat) (rest : List Char) :
    rest <:+ layout.written depth j rest := by
  cases j with
  | array items =>
      exact (suffix_writtenItems items depth true rest).trans
        (List.suffix_cons '[' _)
  | object members =>
      exact (suffix_writtenMembers members depth true rest).trans
        (List.suffix_cons '{' _)
  | _ => exact List.suffix_append _ rest
termination_by structural j

theorem suffix_writtenItems (js : List Json) (depth : Nat) (isFirst : Bool)
    (rest : List Char) :
    rest <:+ layout.writtenItems depth isFirst js rest := by
  cases js with
  | nil =>
      exact (List.suffix_cons ']' rest).trans
        (List.suffix_append (layout.closing depth isFirst) _)
  | cons j js =>
      exact ((suffix_writtenItems js depth false rest).trans
        (suffix_written j (depth + 1) _)).trans
        (List.suffix_append (layout.before depth isFirst) _)
termination_by structural js

theorem suffix_writtenMembers (ms : List (String × Json)) (depth : Nat)
    (isFirst : Bool) (rest : List Char) :
    rest <:+ layout.writtenMembers depth isFirst ms rest := by
  cases ms with
  | nil =>
      exact (List.suffix_cons '}' rest).trans
        (List.suffix_append (layout.closing depth isFirst) _)
  | cons m ms =>
      obtain ⟨k, j⟩ := m
      have hvalue := (suffix_writtenMembers ms depth false rest).trans
        (suffix_written j (depth + 1) _)
      have hmember := (hvalue.trans (List.suffix_append layout.gap _)).trans
        (List.suffix_cons ':' _)
      exact (hmember.trans (List.suffix_append (encodeString k) _)).trans
        (List.suffix_append (layout.before depth isFirst) _)
termination_by structural ms

end

end Layout

end PageShell.Json
