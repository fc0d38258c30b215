/-!
# Identifiers of history entries

An identifier is thirty-two hexadecimal digits. It is written in five groups
with hyphens between them, in lower case, and read from that form, from the bare
digits, from the groups in braces or after `urn:uuid:`, in either case.
Identifiers only tell entries apart: where one comes from does not matter, so a
session is given a source to draw them from, and `EntryId.unused` is one that
needs no luck.
-/

namespace PageShell

/-- The identifier of a history entry. -/
structure EntryId where
  digits : List (Fin 16)
  length_digits : digits.length = 32
deriving DecidableEq

namespace EntryId

def digit? (c : Char) : Option (Fin 16) :=
  if c.isDigit then some (Fin.ofNat 16 (c.toNat - '0'.toNat))
  else if 'a' ≤ c ∧ c ≤ 'f' then some (Fin.ofNat 16 (c.toNat - 'a'.toNat + 10))
  else if 'A' ≤ c ∧ c ≤ 'F' then some (Fin.ofNat 16 (c.toNat - 'A'.toNat + 10))
  else none

/-- The lower-case character of a hexadecimal digit. -/
def digitChar (d : Fin 16) : Char := Nat.digitChar d.val

/-- The identifier with the given digits, if there are thirty-two. -/
def ofDigits? (digits : List (Fin 16)) : Option EntryId :=
  if h : digits.length = 32 then some ⟨digits, h⟩ else none

/-- Reads bare digits. -/
def ofBare? (cs : List Char) : Option EntryId :=
  (cs.mapM digit?).bind ofDigits?

/-- The places of the hyphens in the written form. -/
def hyphenPlaces : List Nat := [8, 13, 18, 23]

/-- Reads digits in five groups. -/
def ofGrouped? (cs : List Char) : Option EntryId :=
  if cs.length = 36 ∧ hyphenPlaces.all fun i => cs[i]? = some '-' then
    let g := fun (start size : Nat) => (cs.drop start).take size
    ofBare? (g 0 8 ++ g 9 4 ++ g 14 4 ++ g 19 4 ++ g 24 12)
  else
    none

/-- Reads an identifier in any of its forms. -/
def ofText? (s : String) : Option EntryId :=
  let cs := s.toList
  if cs.length = 32 then ofBare? cs
  else if cs.length = 36 then ofGrouped? cs
  else if cs.length = 38 then
    if cs.head? = some '{' ∧ cs.getLast? = some '}' then
      ofGrouped? (cs.drop 1).dropLast
    else none
  else if (cs.take 9).map Char.toLower = "urn:uuid:".toList then
    ofGrouped? (cs.drop 9)
  else none

/-- The identifier in its written form. -/
def toText (id : EntryId) : String :=
  let g := fun (start size : Nat) =>
    ((id.digits.drop start).take size).map digitChar
  String.ofList
    (g 0 8 ++ '-' :: g 8 4 ++ '-' :: g 12 4 ++ '-' :: g 16 4 ++ '-' :: g 20 12)

/-- The digits of a number below `16^n`, the greatest place first. -/
def digitsOfNat : (n : Nat) → Nat → List (Fin 16)
  | 0, _ => []
  | n + 1, k => digitsOfNat n (k / 16) ++ [Fin.ofNat 16 k]

theorem length_digitsOfNat (n k : Nat) : (digitsOfNat n k).length = n := by
  induction n generalizing k with
  | zero => rfl
  | succ n ih => simp [digitsOfNat, ih]

/-- The identifier that writes a number. -/
def ofNat (k : Nat) : EntryId := ⟨digitsOfNat 32 k, length_digitsOfNat 32 k⟩

/-- An identifier that is not among those taken. The search starts at their
number, where it ends at once if they were all drawn this way. -/
def unused (taken : List EntryId) : EntryId :=
  let isFree := fun i => !taken.contains (ofNat (taken.length + i))
  ofNat (taken.length + ((List.range (taken.length + 1)).find? isFree).getD 0)

end EntryId

end PageShell
