import Mathlib.Data.List.Nodup
import PageShell.Proofs.Toml.Kept

/-!
# A document has no key twice

Replacing and erasing leave the keys as they are or fewer, so all that is
needed is that an entry is pushed only under a key that is not there, and
this is part of what the reading of a document promises (`Table.Kept`).
-/

namespace PageShell.Toml

namespace Table

def keys (t : Table) : List String := t.entries.map (·.1)

/-- No key of the table is there twice. -/
def Distinct (t : Table) : Prop := t.keys.Nodup

variable {t : Table} {key : String} {value : Toml}

theorem get?_eq_none_iff : t.get? key = none ↔ key ∉ t.keys := by
  rw [get?, List.lookup_eq_none_iff, keys, List.mem_map]
  simp only [bne_iff_ne, not_exists, not_and]
  exact forall₂_congr fun _ _ => ne_comm

theorem keys_push : (t.push key value).keys = t.keys ++ [key] :=
  List.map_append

theorem keys_replace : (t.replace key value).keys = t.keys := by
  rw [keys, replace, List.map_map, keys]
  apply List.map_congr_left
  intro e _
  rw [Function.comp_apply]
  split
  · next h => exact h.symm
  · rfl

theorem keys_erase : (t.erase key).keys = t.keys.filter (· ≠ key) := by
  rw [keys, erase, keys, List.filter_map]
  rfl

theorem kept_distinct : Kept Distinct fun _ => True where
  empty := List.nodup_nil
  push ht hkey _ := by
    rw [Distinct, keys_push, ← List.concat_eq_append]
    exact List.Nodup.concat (get?_eq_none_iff.mp hkey) ht
  replace ht _ := by
    rw [Distinct, keys_replace]
    exact ht
  erase ht := by
    rw [Distinct, keys_erase]
    exact List.Nodup.filter _ ht
  read _ := trivial
  table := trivial
  tables := trivial

end Table

/-- A document that is read has each of its keys once. -/
theorem nodup_keys_of_ofText? {source : String}
    {entries : List (String × Toml)} (h : ofText? source = some entries) :
    (entries.map (·.1)).Nodup := by
  obtain ⟨t, ht, rfl⟩ := Table.kept_distinct.exists_of_ofText? h
  exact ht

end PageShell.Toml
