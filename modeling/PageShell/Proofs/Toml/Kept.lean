import PageShell.Toml.Document

/-!
# What the reading of a document keeps

The table of a document is put together by few operations: an entry is pushed
behind those there are, the value of one is replaced, or one is erased. A
property of tables that each of them keeps (`Kept`) is kept by a line, and so
it holds of the document that is read (`Kept.exists_of_ofText?`). Two things
may be used by the operations and are promised here: an entry is pushed only
under a key that is not there, and a value that is put in was read, or is a
table, or an array of tables.

The promise about keys needs an argument in one place. A line that gives a
key a value and a header that mentions a table on its way both look whether
the key is there. An open table is put back without looking; but its place
was cleared when its header was read, and while the table is open nothing
else is written to the document. So the reader keeps, besides the property,
that a table which was opened at the top of the document is absent from it
until it is put back.

Only the entries at the top are followed. A visit to a table further down
leaves a table in its place, whatever it does at the end, and no recursion is
needed for that.
-/

namespace PageShell.Toml

namespace Table

variable {t t' : Table} {key : String} {value : Toml}

theorem get?_erase : (t.erase key).get? key = none := by
  rw [get?, List.lookup_eq_none_iff]
  intro e he
  have hne := (List.mem_filter.mp he).2
  simpa using fun h : key = e.1 => of_decide_eq_true hne h.symm

/-- The operations that put a table together keep `P` as long as `V` holds of
the values they put in, which it does of the values that are read. -/
structure Kept (P : Table → Prop) (V : Toml → Prop) : Prop where
  empty : P { origin := .header }
  push : ∀ {t key value}, P t → get? t key = none → V value →
    P (t.push key value)
  replace : ∀ {t key value}, P t → V value → P (t.replace key value)
  erase : ∀ {t key}, P t → P (t.erase key)
  read : ∀ {bound depth cs value r},
    readValue bound depth cs = some (value, r) → V value
  table : ∀ {origin entries}, V (.table origin entries)
  tables : ∀ {items}, V (.tables items)

namespace Kept

variable {P : Table → Prop} {V : Toml → Prop} {isDotted : Bool}
  {path : List String}

/-- What a change at the top has to keep, a visit keeps. -/
theorem visit (hP : Kept P V) {α : Type} {a : α}
    {change : Table → Option (α × Table)} (ht : P t)
    (hchange : path = [] → ∀ a t', change t = some (a, t') → P t')
    (h : t.visit isDotted change path = some (a, t')) : P t' := by
  cases path with
  | nil => exact hchange rfl a t' h
  | cons key path =>
      rw [Table.visit] at h
      split at h
      · next hkey =>
          obtain ⟨inner, -, h⟩ := Option.bind_eq_some_iff.mp h
          cases h
          exact hP.push ht hkey hP.table
      · split at h
        · cases h
        · obtain ⟨inner, -, h⟩ := Option.bind_eq_some_iff.mp h
          cases h
          exact hP.replace ht hP.table
      · split at h
        · cases h
        · obtain ⟨inner, -, h⟩ := Option.bind_eq_some_iff.mp h
          cases h
          exact hP.replace ht hP.tables
      · cases h

theorem modify (hP : Kept P V) {change : Table → Option Table} (ht : P t)
    (hchange : path = [] → ∀ t', change t = some t' → P t')
    (h : t.modify isDotted change path = some t') : P t' := by
  obtain ⟨⟨u, t₁⟩, hvisit, rfl⟩ := Option.map_eq_some_iff.mp h
  refine hP.visit ht ?_ hvisit
  intro hpath u t' h
  obtain ⟨t₂, ht₂, heq⟩ := Option.map_eq_some_iff.mp h
  cases heq
  exact hchange hpath _ ht₂

theorem define (hP : Kept P V) (ht : P t) (hvalue : V value)
    (h : t.define path key value = some t') : P t' := by
  refine hP.modify ht ?_ h
  intro _ t' h
  split at h
  · cases h
  · split at h
    · cases h
    · next hkey =>
        cases h
        exact hP.push ht (Option.not_isSome_iff_eq_none.mp hkey) hvalue

end Kept

end Table

/-! ## Lines -/

namespace Draft

/-- What the reader keeps of the table at the top of the document. While no
table is open, the open table is the document. -/
structure Holds (P : Table → Prop) (draft : Draft) : Prop where
  document : P draft.document
  opened : draft.place = none → P draft.opened
  /-- The open table has no entry yet where it is to be put. -/
  absent : ∀ key, draft.place = some ([], key) → draft.isItem = false →
    draft.document.get? key = none

variable {P : Table → Prop} {V : Toml → Prop} {draft draft' : Draft}
  {path : List String} {key : String} {value : Toml}

theorem Holds.start (hP : Table.Kept P V) : ({} : Draft).Holds P where
  document := hP.empty
  opened _ := hP.empty
  absent _ h := by cases h

theorem Holds.close (hP : Table.Kept P V) (hd : draft.Holds P) {t : Table}
    (h : draft.close = some t) : P t := by
  unfold Draft.close at h
  split at h
  · next hplace =>
      cases h
      exact hd.opened hplace
  · next path key hplace =>
      refine hP.modify hd.document ?_ h
      intro hpath t' h
      split at h
      · split at h
        · cases h
          exact hP.replace hd.document hP.tables
        · cases h
      · next hitem =>
          cases h
          rw [hpath] at hplace
          exact hP.push hd.document
            (hd.absent key hplace (Bool.not_eq_true _ ▸ hitem)) hP.table

theorem Holds.define (hP : Table.Kept P V) (hd : draft.Holds P)
    (hvalue : V value) (h : draft.define path key value = some draft') :
    draft'.Holds P := by
  obtain ⟨opened, hopened, h⟩ := Option.bind_eq_some_iff.mp h
  cases h
  exact { hd with
    opened := fun hplace => hP.define (hd.opened hplace) hvalue hopened }

theorem Holds.openTable (hP : Table.Kept P V) (hd : draft.Holds P)
    (h : draft.openTable path key = some draft') : draft'.Holds P := by
  obtain ⟨t, hclose, h⟩ := Option.bind_eq_some_iff.mp h
  obtain ⟨⟨entries, t'⟩, hvisit, h⟩ := Option.bind_eq_some_iff.mp h
  cases h
  have ht := hd.close hP hclose
  refine ⟨hP.visit ht ?_ hvisit, fun h => absurd h (by simp), ?_⟩
  · intro _ entries t' h
    split at h
    · cases h
      exact ht
    · cases h
      exact hP.erase ht
    · cases h
  · intro key' hplace _
    cases hplace
    simp only [Table.visit] at hvisit
    split at hvisit
    · next hkey =>
        cases hvisit
        exact hkey
    · cases hvisit
      exact Table.get?_erase
    · cases hvisit

theorem Holds.openItem (hP : Table.Kept P V) (hd : draft.Holds P)
    (h : draft.openItem path key = some draft') : draft'.Holds P := by
  obtain ⟨t, hclose, h⟩ := Option.bind_eq_some_iff.mp h
  obtain ⟨t', hmodify, h⟩ := Option.bind_eq_some_iff.mp h
  cases h
  have ht := hd.close hP hclose
  refine ⟨hP.modify ht ?_ hmodify, fun h => absurd h (by simp),
    fun _ _ h => absurd h (by simp)⟩
  intro _ t' h
  split at h
  · next hkey =>
      cases h
      exact hP.push ht hkey hP.tables
  · cases h
    exact ht
  · cases h

end Draft

/-- All that a line can do to a draft. -/
theorem readLine_cases {bound : Nat} {draft draft' : Draft}
    {cs r : List Char} (h : readLine bound draft cs = some (draft', r)) :
    draft' = draft ∨
      ∃ path key, draft.openItem path key = some draft' ∨
        draft.openTable path key = some draft' ∨
        ∃ value text rest,
          readValue bound (nestingLimit - 1) text = some (value, rest) ∧
          draft.define path key value = some draft' := by
  unfold readLine at h
  split at h
  case h_1 | h_2 | h_3 =>
      obtain ⟨_, -, h⟩ := Option.bind_eq_some_iff.mp h
      cases h
      exact .inl rfl
  case h_4 =>
      obtain ⟨⟨⟨path, key⟩, _⟩, -, h⟩ := Option.bind_eq_some_iff.mp h
      obtain ⟨_, -, h⟩ := Option.bind_eq_some_iff.mp h
      obtain ⟨_, -, h⟩ := Option.bind_eq_some_iff.mp h
      obtain ⟨_, -, h⟩ := Option.bind_eq_some_iff.mp h
      obtain ⟨_, hopen, h⟩ := Option.bind_eq_some_iff.mp h
      cases h
      exact .inr ⟨path, key, .inl hopen⟩
  case h_5 =>
      obtain ⟨⟨⟨path, key⟩, _⟩, -, h⟩ := Option.bind_eq_some_iff.mp h
      obtain ⟨_, -, h⟩ := Option.bind_eq_some_iff.mp h
      obtain ⟨_, -, h⟩ := Option.bind_eq_some_iff.mp h
      obtain ⟨_, hopen, h⟩ := Option.bind_eq_some_iff.mp h
      cases h
      exact .inr ⟨path, key, .inr (.inl hopen)⟩
  case h_6 =>
      obtain ⟨⟨⟨path, key⟩, _⟩, -, h⟩ := Option.bind_eq_some_iff.mp h
      obtain ⟨_, -, h⟩ := Option.bind_eq_some_iff.mp h
      obtain ⟨⟨value, _⟩, hvalue, h⟩ := Option.bind_eq_some_iff.mp h
      obtain ⟨_, -, h⟩ := Option.bind_eq_some_iff.mp h
      obtain ⟨_, hdefine, h⟩ := Option.bind_eq_some_iff.mp h
      cases h
      exact .inr ⟨path, key, .inr (.inr ⟨value, _, _, hvalue, hdefine⟩)⟩

namespace Draft

variable {P : Table → Prop} {V : Toml → Prop} {draft draft' : Draft}

theorem Holds.readLine (hP : Table.Kept P V) {bound : Nat} {cs r : List Char}
    (hd : draft.Holds P) (h : readLine bound draft cs = some (draft', r)) :
    draft'.Holds P := by
  rcases readLine_cases h with
    rfl | ⟨path, key, h | h | ⟨value, _, _, hvalue, h⟩⟩
  · exact hd
  · exact hd.openItem hP h
  · exact hd.openTable hP h
  · exact hd.define hP (hP.read hvalue) h

theorem Holds.readLines (hP : Table.Kept P V) {whole : Nat} :
    ∀ (bound : Nat) {draft draft' : Draft} {cs : List Char},
      draft.Holds P → readLines whole bound draft cs = some draft' →
      draft'.Holds P := by
  intro bound
  induction bound with
  | zero =>
      intro draft draft' cs _ h
      cases h
  | succ bound ih =>
      intro draft draft' cs hd h
      rw [Toml.readLines] at h
      split at h
      · cases h
        exact hd
      · obtain ⟨⟨next, r⟩, hline, h⟩ := Option.bind_eq_some_iff.mp h
        exact ih (hd.readLine hP hline) h

end Draft

/-- What is kept holds of the table of a document that is read. -/
theorem Table.Kept.exists_of_ofText? {P : Table → Prop} {V : Toml → Prop}
    (hP : Table.Kept P V) {source : String} {entries : List (String × Toml)}
    (h : ofText? source = some entries) : ∃ t, P t ∧ t.entries = entries := by
  obtain ⟨draft, hlines, h⟩ := Option.bind_eq_some_iff.mp h
  obtain ⟨t, hclose, h⟩ := Option.bind_eq_some_iff.mp h
  cases h
  exact ⟨t, ((Draft.Holds.start hP).readLines hP _ hlines).close hP hclose,
    rfl⟩

end PageShell.Toml
