import PageShell.Number.Conversion
import PageShell.Number.Format

/-!
# Attributes of an element

An attribute is a text or a number under a name. The attributes of an element
are kept sorted by name and have each name once, and both facts are part of the
type, so two elements with the same attributes are equal however they were put
together, and there is one order to write them in. Names compare by code points,
which is also the order of their bytes.
-/

namespace PageShell

inductive AttrValue where
  | text (value : String)
  | number (value : Number)
deriving DecidableEq

namespace AttrValue

def text? : AttrValue → Option String
  | .text value => some value
  | .number _ => none

def number? : AttrValue → Option Number
  | .number value => some value
  | .text _ => none

/-- The value for a whole number of 32 bits. -/
def ofUInt32 (n : UInt32) : AttrValue := .number (Number.ofNat n.toNat)

/-- The value for an integer of 32 bits. -/
def ofInt32 (i : Int32) : AttrValue := .number (Number.ofInt i.toInt)

/-- The value as a 32-bit whole number, when it is one. -/
def toUInt32? (value : AttrValue) : Option Nat :=
  value.number?.bind Number.toUInt32?

/-- The value as shown to a reader. -/
def display : AttrValue → String
  | .text value => value
  | .number value => String.ofList value.displayText

end AttrValue

/-- The attributes of an element, sorted by name. -/
structure Attributes where
  entries : List (String × AttrValue)
  sorted : entries.Pairwise (fun a b => a.1 < b.1)
deriving DecidableEq

namespace Attributes

def empty : Attributes := ⟨[], .nil⟩

def get? (attrs : Attributes) (key : String) : Option AttrValue :=
  attrs.entries.lookup key

/-- Puts an attribute into a sorted list, in place of one with the same name. -/
def insertSorted (key : String) (value : AttrValue) :
    List (String × AttrValue) → List (String × AttrValue)
  | [] => [(key, value)]
  | (k, v) :: rest =>
    if key < k then (key, value) :: (k, v) :: rest
    else if key = k then (key, value) :: rest
    else (k, v) :: insertSorted key value rest

theorem mem_insertSorted {key : String} {value : AttrValue}
    {l : List (String × AttrValue)} {e : String × AttrValue}
    (h : e ∈ insertSorted key value l) : e = (key, value) ∨ e ∈ l := by
  induction l with
  | nil => simpa [insertSorted] using h
  | cons a rest ih =>
    obtain ⟨k, v⟩ := a
    simp only [insertSorted] at h
    split at h
    · simpa using h
    · split at h
      · simp only [List.mem_cons] at h ⊢
        exact h.imp id .inr
      · simp only [List.mem_cons] at h ⊢
        rcases h with h | h
        · exact .inr (.inl h)
        · exact (ih h).imp id .inr

theorem insertSorted_sorted {key : String} {value : AttrValue}
    {l : List (String × AttrValue)} (h : l.Pairwise (fun a b => a.1 < b.1)) :
    (insertSorted key value l).Pairwise (fun a b => a.1 < b.1) := by
  induction l with
  | nil => simp [insertSorted]
  | cons a rest ih =>
    obtain ⟨k, v⟩ := a
    obtain ⟨hk, hrest⟩ := List.pairwise_cons.mp h
    simp only [insertSorted]
    split
    · next hlt =>
      refine List.pairwise_cons.mpr ⟨fun e he => ?_, h⟩
      rcases List.mem_cons.mp he with rfl | he
      · exact hlt
      · exact String.lt_trans hlt (hk e he)
    · split
      · next heq =>
        subst heq
        exact List.pairwise_cons.mpr ⟨hk, hrest⟩
      · next hnlt hne =>
        refine List.pairwise_cons.mpr ⟨fun e he => ?_, ih hrest⟩
        rcases mem_insertSorted he with rfl | he
        · exact Std.lt_of_le_of_ne (Std.not_lt.mp hnlt) (Ne.symm hne)
        · exact hk e he

/-- The attributes with one set. -/
def set (attrs : Attributes) (key : String) (value : AttrValue) : Attributes :=
  ⟨insertSorted key value attrs.entries, insertSorted_sorted attrs.sorted⟩

/-- The attributes without the named one. -/
def erase (attrs : Attributes) (key : String) : Attributes :=
  ⟨attrs.entries.filter (fun e => e.1 ≠ key), attrs.sorted.filter _⟩

/-- The attributes that satisfy a condition. -/
def filter (attrs : Attributes) (keep : String → AttrValue → Bool) :
    Attributes :=
  ⟨attrs.entries.filter (fun e => keep e.1 e.2), attrs.sorted.filter _⟩

theorem lookup_insertSorted (key k : String) (value : AttrValue)
    (l : List (String × AttrValue)) :
    (insertSorted key value l).lookup k =
      if k = key then some value else l.lookup k := by
  induction l with
  | nil =>
    simp only [insertSorted, List.lookup_cons, List.lookup_nil]
    split <;> simp_all
  | cons a rest ih =>
    obtain ⟨k', v⟩ := a
    simp only [insertSorted]
    split
    · simp only [List.lookup_cons]
      split <;> simp_all
    · split
      · next heq =>
        subst heq
        simp only [List.lookup_cons]
        split <;> simp_all
      · next hne =>
        by_cases hk : k = k'
        · subst hk
          simp [Ne.symm hne]
        · have hb : (k == k') = false := by simpa using hk
          simp [List.lookup_cons, hb, ih]

/-- Setting an attribute changes that attribute and no other. -/
@[simp] theorem get?_set (attrs : Attributes) (key k : String)
    (value : AttrValue) :
    (attrs.set key value).get? k =
      if k = key then some value else attrs.get? k :=
  lookup_insertSorted key k value attrs.entries

theorem lookup_filter_ne (key k : String) (l : List (String × AttrValue)) :
    (l.filter (fun e => e.1 ≠ key)).lookup k =
      if k = key then none else l.lookup k := by
  induction l with
  | nil => simp
  | cons a rest ih =>
    obtain ⟨k', v⟩ := a
    by_cases hk' : k' = key
    · subst hk'
      by_cases hk : k = k'
      · subst hk; simpa using ih
      · have hb : (k == k') = false := by simpa using hk
        simpa [List.lookup_cons, hb, hk] using ih
    · by_cases hk : k = k'
      · subst hk; simp [hk']
      · have hb : (k == k') = false := by simpa using hk
        simpa [List.lookup_cons, hb, hk'] using ih

/-- Erasing an attribute unsets that attribute and changes no other. -/
@[simp] theorem get?_erase (attrs : Attributes) (key k : String) :
    (attrs.erase key).get? k = if k = key then none else attrs.get? k :=
  lookup_filter_ne key k attrs.entries

end Attributes

end PageShell
