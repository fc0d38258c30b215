import PageShell.Proofs.Json.RoundTrip

/-!
# Typed readers

The reader of a state does not read a value first and then look at it. It
goes along the text, and each member of a record has a reader of its own, so
what is known of whole values does not apply. `Reads` is what is needed of
any such reader: it finds the written form of a value, whatever comes after,
and makes of it what it should. A reader of items that does makes a reader of
arrays that does, and readers of members make a reader of records.

A record is read by filling a draft. `Fills` follows a draft from one member
to the next and says nothing of the text, so each record states its own
members once, and `readMembers_of_fills` has all there is to say about
commas, keys and the bound that is counted down.
-/

namespace PageShell.Json

open Layout (flat)

/-- The reader finds the written form of a value, in front of anything that
can come after it, and makes something of it. -/
structure Reads {α : Type} (bound : Nat) (reader : Reader α) (j : Json)
    (x : α) : Prop where
  starts : ∀ level rest, StartsValue (flat.written level j rest)
  reads : ∀ {level rest}, EndsNumeral rest →
    (flat.written level j rest).length < bound →
    reader (flat.written level j rest) = .ok (x, rest)

/-- The members take a draft to another, each read behind its colon. -/
inductive Fills {σ : Type} (bound : Nat) (member : String → σ → Reader σ) :
    σ → List (String × Json) → σ → Prop where
  | nil (s : σ) : Fills bound member s [] s
  | cons {key : String} {j : Json} {ms : List (String × Json)} {s t u : σ} :
      (∀ {level rest}, EndsNumeral rest →
        (flat.written level j rest).length < bound →
        member key s (':' :: flat.written level j rest) = .ok (t, rest)) →
      Fills bound member t ms u → Fills bound member s ((key, j) :: ms) u

variable {α : Type} {bound : Nat}

/-! ## Texts -/

theorem Reads.text (needed s : String) :
    Reads bound (readText needed) (.string s) s where
  starts _ _ := ⟨'"', _, rfl, by decide⟩
  reads {level rest} _ _ := by
    rw [Layout.written, encodeString_append, readText,
      skipSpace_cons (by decide)]
    exact readKey_encodeString s rest

/-! ## Arrays -/

theorem readItems_of_reads {item : Reader α} {form : α → Json} {xs : List α}
    (h : ∀ x ∈ xs, Reads bound item (form x) x) {level : Nat}
    {isFirst : Bool} {rest : List Char} {fuel : Nat}
    (hfuel : (flat.writtenItems level isFirst (xs.map form) rest).length +
      isFirst.toNat < fuel) (hbound : fuel ≤ bound) :
    readItems item fuel isFirst
        (flat.writtenItems level isFirst (xs.map form) rest) =
      .ok (xs, rest) := by
  induction xs generalizing isFirst fuel with
  | nil =>
      obtain ⟨fuel, rfl⟩ : ∃ n, fuel = n + 1 := ⟨fuel - 1, by omega⟩
      exact readItems_closing item flat level fuel isFirst rest
  | cons x xs ih =>
      obtain ⟨fuel, rfl⟩ : ∃ n, fuel = n + 1 := ⟨fuel - 1, by omega⟩
      obtain ⟨hx, hxs⟩ := List.forall_mem_cons.mp h
      rw [List.map_cons] at hfuel ⊢
      obtain ⟨hless, hvalue⟩ :=
        flat.length_item level isFirst (form x) rest (xs.map form)
      have hrest := endsNumeral_writtenItems flat level (xs.map form) rest
      rw [Layout.writtenItems, readItems_before _ _ _ _ _ (hx.starts _ _),
        hx.reads hrest (by omega)]
      simp only [bind, Except.bind]
      rw [ih hxs (by simp only [Bool.toNat_false]; omega) (by omega)]
      rfl

theorem Reads.array {item : Nat → Reader α} {depth : Nat} {form : α → Json}
    {xs : List α} (h : ∀ x ∈ xs, Reads bound (item depth) (form x) x) :
    Reads bound (readArray bound (depth + 1) item) (.array (xs.map form))
      xs where
  starts _ _ := ⟨'[', _, rfl, by decide⟩
  reads {level rest} _ hbound := by
    rw [Layout.written] at hbound ⊢
    exact readItems_of_reads h (by simpa using hbound) (Nat.le_refl bound)

/-! ## Records -/

theorem readMembers_of_fills {σ : Type} {member : String → σ → Reader σ}
    {s t : σ} {ms : List (String × Json)} (h : Fills bound member s ms t)
    {level : Nat} {isFirst : Bool} {rest : List Char} {fuel : Nat}
    (hfuel : (flat.writtenMembers level isFirst ms rest).length +
      isFirst.toNat < fuel) (hbound : fuel ≤ bound) :
    readMembers readKey member fuel isFirst s
        (flat.writtenMembers level isFirst ms rest) = .ok (t, rest) := by
  induction h generalizing isFirst fuel with
  | nil s =>
      obtain ⟨fuel, rfl⟩ : ∃ n, fuel = n + 1 := ⟨fuel - 1, by omega⟩
      exact readMembers_closing flat level fuel isFirst member s rest
  | @cons key j ms s t u hmember _ ih =>
      obtain ⟨fuel, rfl⟩ : ∃ n, fuel = n + 1 := ⟨fuel - 1, by omega⟩
      obtain ⟨hless, hvalue⟩ := flat.length_member level isFirst j rest key ms
      have hrest := endsNumeral_writtenMembers flat level ms rest
      have hj : member key s (':' :: (flat.gap ++ flat.written (level + 1) j
          (flat.writtenMembers level false ms rest))) =
            .ok (t, flat.writtenMembers level false ms rest) :=
        hmember hrest (by omega)
      rw [Layout.writtenMembers, readMembers_before, hj]
      exact ih (by simp only [Bool.toNat_false]; omega) (by omega)

/-! ## Whole texts -/

theorem Reads.readAll {reader : (bound : Nat) → Reader α} {j : Json} {x : α}
    (h : Reads (j.toText.toList.length + 1)
      (reader (j.toText.toList.length + 1)) j x) :
    readAll reader j.toText = .ok x := by
  have htext : j.toText.toList = flat.written 0 j [] := by
    rw [toText, String.toList_ofList, Layout.compact_eq j 0]
  refine readAll_eq_ok.mpr ⟨[], ?_, rfl⟩
  rw [htext] at h ⊢
  exact h.reads endsNumeral_nil (Nat.lt_succ_self _)

end PageShell.Json
