import PageShell.Json.Reader

/-!
# What is read nests no deeper than the reader goes

The reader of values is handed the number of levels that may still open, and
hands one less to the reader of its parts. So the bound is an induction on
that number. The readers of arrays and objects are written over the reader of
their parts, and what holds of every part that is read holds of all of them:
`readItems_all` says so of items, and `readMembers_keeps` of whatever the
members are gathered in.
-/

namespace PageShell.Json

theorem exists_of_bind_eq_ok {ε α β : Type} {x : Except ε α}
    {f : α → Except ε β} {b : β} (h : x >>= f = .ok b) :
    ∃ a, x = .ok a ∧ f a = .ok b := by
  cases x with
  | error e => cases h
  | ok a => exact ⟨a, rfl, h⟩

/-! ## Parts -/

theorem readItems_all {α : Type} {item : Reader α} {p : α → Prop}
    (hitem : ∀ cs x r, item cs = .ok (x, r) → p x) {fuel : Nat}
    {isFirst : Bool} {cs r : List Char} {xs : List α}
    (h : readItems item fuel isFirst cs = .ok (xs, r)) : ∀ x ∈ xs, p x := by
  induction fuel generalizing isFirst cs xs r with
  | zero => cases h
  | succ fuel ih =>
      rw [readItems] at h
      obtain ⟨⟨more, r'⟩, -, h⟩ := exists_of_bind_eq_ok h
      cases more with
      | false =>
          cases h
          exact fun x hx => absurd hx List.not_mem_nil
      | true =>
          obtain ⟨⟨x, r₁⟩, hx, h⟩ := exists_of_bind_eq_ok h
          obtain ⟨⟨xs', r₂⟩, hxs, h⟩ := exists_of_bind_eq_ok h
          cases h
          exact List.forall_mem_cons.mpr ⟨hitem _ _ _ hx, ih hxs⟩

theorem readMembers_keeps {κ σ : Type} {key : Reader κ}
    {member : κ → σ → Reader σ} {p : σ → Prop}
    (hmember : ∀ k s cs s' r, p s → member k s cs = .ok (s', r) → p s')
    {fuel : Nat} {isFirst : Bool} {s s' : σ} {cs r : List Char} (hs : p s)
    (h : readMembers key member fuel isFirst s cs = .ok (s', r)) : p s' := by
  induction fuel generalizing isFirst s cs with
  | zero => cases h
  | succ fuel ih =>
      rw [readMembers] at h
      obtain ⟨⟨more, r'⟩, -, h⟩ := exists_of_bind_eq_ok h
      cases more with
      | false =>
          cases h
          exact hs
      | true =>
          obtain ⟨⟨k, r₁⟩, -, h⟩ := exists_of_bind_eq_ok h
          obtain ⟨⟨t, r₂⟩, ht, h⟩ := exists_of_bind_eq_ok h
          exact ih (hmember _ _ _ _ _ hs ht) h

/-! ## Values -/

theorem nestingItems_le_iff {js : List Json} {n : Nat} :
    nestingItems js ≤ n ↔ ∀ j ∈ js, j.nesting ≤ n := by
  induction js with
  | nil => simp [nestingItems]
  | cons j js ih =>
      rw [nestingItems, Nat.max_le, List.forall_mem_cons, ih]

theorem nestingMembers_le_iff {ms : List (String × Json)} {n : Nat} :
    nestingMembers ms ≤ n ↔ ∀ m ∈ ms, m.2.nesting ≤ n := by
  induction ms with
  | nil => simp [nestingMembers]
  | cons m ms ih =>
      rw [nestingMembers, Nat.max_le, List.forall_mem_cons, ih]

/-- A value that is read is one that an opening bracket or brace leads to, or
has no parts. -/
theorem readValueWith_eq_ok {array object : Reader Json} {j : Json}
    {cs r : List Char} (h : readValueWith array object cs = .ok (j, r)) :
    (∃ s, array s = .ok (j, r)) ∨ (∃ s, object s = .ok (j, r)) ∨
      j.nesting = 0 := by
  unfold readValueWith at h
  split at h
  case h_1 => cases h
  case h_2 => exact .inl ⟨_, h⟩
  case h_3 => exact .inr (.inl ⟨_, h⟩)
  case h_9 =>
    split at h
    · obtain ⟨p, -, h⟩ := exists_of_bind_eq_ok h
      cases h
      exact .inr (.inr rfl)
    · cases h
  -- A string, a numeral or a name: nothing opens.
  all_goals
    obtain ⟨p, -, h⟩ := exists_of_bind_eq_ok h
    cases h
    exact .inr (.inr rfl)

theorem nesting_le_of_readValue {bound depth : Nat} {j : Json}
    {cs r : List Char} (h : readValue bound depth cs = .ok (j, r)) :
    j.nesting ≤ depth := by
  induction depth generalizing j cs r with
  | zero =>
      rcases readValueWith_eq_ok h with ⟨s, hs⟩ | ⟨s, hs⟩ | hzero
      · cases hs
      · cases hs
      · exact Nat.le_of_eq hzero
  | succ depth ih =>
      rw [readValue] at h
      rcases readValueWith_eq_ok h with ⟨s, hs⟩ | ⟨s, hs⟩ | hzero
      · obtain ⟨⟨items, r'⟩, hitems, hs⟩ := exists_of_bind_eq_ok hs
        cases hs
        have hall := readItems_all (p := fun j => j.nesting ≤ depth)
          (fun _ _ _ hj => ih hj) hitems
        exact Nat.succ_le_succ (nestingItems_le_iff.mpr hall)
      · obtain ⟨⟨members, r'⟩, hmembers, hs⟩ := exists_of_bind_eq_ok hs
        cases hs
        have hall := readMembers_keeps
          (p := fun ms : List (String × Json) =>
            ∀ m ∈ ms, m.2.nesting ≤ depth)
          (fun k ms cs ms' r hms hmember => by
            obtain ⟨r₁, -, hmember⟩ := exists_of_bind_eq_ok hmember
            obtain ⟨⟨j, r₂⟩, hj, hmember⟩ := exists_of_bind_eq_ok hmember
            cases hmember
            exact List.forall_mem_cons.mpr ⟨ih hj, hms⟩)
          (fun _ hm => absurd hm List.not_mem_nil) hmembers
        have hreverse : ∀ m ∈ members.reverse, m.2.nesting ≤ depth :=
          fun m hm => hall m (List.mem_reverse.mp hm)
        exact Nat.succ_le_succ (nestingMembers_le_iff.mpr hreverse)
      · rw [hzero]
        exact Nat.zero_le _

theorem nesting_le_of_ofText {text : String} {j : Json}
    (h : ofText text = .ok j) : j.nesting ≤ nestingLimit := by
  unfold ofText readAll at h
  obtain ⟨⟨j', r⟩, hread, h⟩ := exists_of_bind_eq_ok h
  simp only at h
  split at h
  · cases h
    exact nesting_le_of_readValue hread
  · cases h

end PageShell.Json
