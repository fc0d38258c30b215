import PageShell.Document.Stored

/-!
# Attributes are what their look-ups are

Attributes are kept as a sorted list, but nothing asks for the list: two
collections that answer every name alike are equal (`Attributes.ext_get?`),
since the first entry of either must be found in the other, and can only be
found at its front.

So what reading the members of `attrs` comes to can be said of one name at a
time. Each member sets its name, to a text, to a number or, being `null`, to
nothing at all; the last member with a name decides, and a name without
members is one that `null` was said of. Any other value refuses the whole.
-/

namespace PageShell

namespace Json

/-- The values of the members with a key, in their order. -/
def valuesOf (key : String) (members : List (String × Json)) : List Json :=
  members.filterMap fun m => if m.1 = key then some m.2 else none

/-- What the value of an attribute sets it to. -/
inductive Sets : Json → Option AttrValue → Prop where
  | text (content : String) : Sets (.string content) (some (.text content))
  | number (n : Numeral) : Sets (.number n) (some (.number n.toNumber))
  | nothing : Sets .null none

theorem valuesOf_nil (key : String) : valuesOf key [] = [] := rfl

theorem valuesOf_cons (key k : String) (j : Json)
    (ms : List (String × Json)) :
    valuesOf key ((k, j) :: ms) =
      if k = key then j :: valuesOf key ms else valuesOf key ms := by
  rw [valuesOf, List.filterMap_cons]
  by_cases hk : k = key
  · simp only [hk, if_true]
    rfl
  · simp only [hk, if_false]
    rfl

theorem Sets.unique {j : Json} {v w : Option AttrValue} (hv : j.Sets v)
    (hw : j.Sets w) : v = w := by
  cases hv <;> cases hw <;> rfl

end Json

namespace Attributes

/-! ## Equal look-ups -/

theorem lookup_eq_none_of_lt {key : String} {l : List (String × AttrValue)}
    (h : ∀ e ∈ l, key < e.1) : l.lookup key = none := by
  induction l with
  | nil => rfl
  | cons e l ih =>
      have hlt : key < e.1 := h e List.mem_cons_self
      have hne : (key == e.1) = false := by
        rw [beq_eq_false_iff_ne]
        intro heq
        exact Std.lt_irrefl (heq ▸ hlt)
      rw [List.lookup_cons, hne]
      exact ih fun e' he' => h e' (List.mem_cons_of_mem e he')

/-- The first name of one list is not before all names of the other. -/
theorem not_lt_first {key : String} {value : AttrValue}
    {l l' : List (String × AttrValue)}
    (h : ∀ k, ((key, value) :: l).lookup k = l'.lookup k)
    (hlt : ∀ e ∈ l', key < e.1) : False := by
  have hkey := h key
  rw [List.lookup_cons_self, lookup_eq_none_of_lt hlt] at hkey
  cases hkey

theorem eq_of_lookup_eq {l l' : List (String × AttrValue)}
    (hl : l.Pairwise fun a b => a.1 < b.1)
    (hl' : l'.Pairwise fun a b => a.1 < b.1)
    (h : ∀ k, l.lookup k = l'.lookup k) : l = l' := by
  induction l generalizing l' with
  | nil =>
      cases l' with
      | nil => rfl
      | cons e' l' =>
          exact (not_lt_first (fun k => (h k).symm)
            fun e he => by cases he).elim
  | cons e l ih =>
      obtain ⟨key, value⟩ := e
      cases l' with
      | nil => exact (not_lt_first h fun e he => by cases he).elim
      | cons e' l' =>
          obtain ⟨key', value'⟩ := e'
          obtain ⟨hkey, htail⟩ := List.pairwise_cons.mp hl
          obtain ⟨hkey', htail'⟩ := List.pairwise_cons.mp hl'
          have hfirst : key = key' := by
            rcases Std.lt_trichotomy key key' with hlt | heq | hgt
            · refine (not_lt_first h fun e he => ?_).elim
              rcases List.mem_cons.mp he with rfl | he
              · exact hlt
              · exact String.lt_trans hlt (hkey' e he)
            · exact heq
            · refine (not_lt_first (fun k => (h k).symm)
                fun e he => ?_).elim
              rcases List.mem_cons.mp he with rfl | he
              · exact hgt
              · exact String.lt_trans hgt (hkey e he)
          subst hfirst
          have hvalue := h key
          rw [List.lookup_cons_self, List.lookup_cons_self] at hvalue
          cases hvalue
          congr 1
          refine ih htail htail' fun k => ?_
          by_cases hk : k = key
          · rw [hk, lookup_eq_none_of_lt hkey, lookup_eq_none_of_lt hkey']
          · have hne : (k == key) = false := beq_eq_false_iff_ne.mpr hk
            have hrest := h k
            rwa [List.lookup_cons, List.lookup_cons, hne] at hrest

/-- Attributes that answer every name alike are equal. -/
theorem ext_get? {attrs attrs' : Attributes}
    (h : ∀ key, attrs.get? key = attrs'.get? key) : attrs = attrs' := by
  have hentries := eq_of_lookup_eq attrs.sorted attrs'.sorted h
  cases attrs
  cases attrs'
  cases hentries
  rfl

/-! ## Some of the attributes -/

theorem lookup_filter {keep : String → AttrValue → Bool}
    {l : List (String × AttrValue)} (hl : l.Pairwise fun a b => a.1 < b.1)
    (key : String) :
    (l.filter fun e => keep e.1 e.2).lookup key =
      (l.lookup key).filter (keep key) := by
  induction l with
  | nil => rfl
  | cons e l ih =>
      obtain ⟨k, value⟩ := e
      obtain ⟨hk, hl⟩ := List.pairwise_cons.mp hl
      rw [List.filter_cons]
      by_cases hkey : key = k
      · -- A name is there once, so none is left of it behind its entry.
        subst hkey
        have hnone : (l.filter fun e => keep e.1 e.2).lookup key = none :=
          lookup_eq_none_of_lt fun e he => hk e (List.mem_filter.mp he).1
        rw [List.lookup_cons_self, Option.filter_some]
        split
        · exact List.lookup_cons_self
        · exact hnone
      · have hne : (key == k) = false := beq_eq_false_iff_ne.mpr hkey
        rw [List.lookup_cons, hne, ← ih hl]
        split
        · rw [List.lookup_cons, hne]
        · rfl

theorem get?_filter (attrs : Attributes) (keep : String → AttrValue → Bool)
    (key : String) :
    (attrs.filter keep).get? key = (attrs.get? key).filter (keep key) :=
  lookup_filter attrs.sorted key

theorem filter_eq_self {attrs : Attributes}
    {keep : String → AttrValue → Bool}
    (h : ∀ e ∈ attrs.entries, keep e.1 e.2 = true) :
    attrs.filter keep = attrs := by
  have hentries : attrs.entries.filter (fun e => keep e.1 e.2) =
      attrs.entries := List.filter_eq_self.mpr h
  cases attrs
  simp only [filter, Attributes.mk.injEq]
  exact hentries

/-! ## Members read one after the other -/

/-- The attributes that some members set: the value of each member sets its
name, and the last with a name decides. -/
structure SetBy (members : List (String × Json)) (attrs : Attributes) :
    Prop where
  each : ∀ m ∈ members, ∃ value, m.2.Sets value
  last : ∀ key,
    ((Json.valuesOf key members).getLastD .null).Sets (attrs.get? key)

/-- The attributes with one set, or unset. -/
def put (attrs : Attributes) (key : String) :
    Option AttrValue → Attributes
  | some value => attrs.set key value
  | none => attrs.erase key

theorem get?_put (attrs : Attributes) (key k : String)
    (value : Option AttrValue) :
    (attrs.put key value).get? k =
      if k = key then value else attrs.get? k := by
  cases value with
  | some value => exact get?_set attrs key k value
  | none => exact get?_erase attrs key k

theorem ofMembers?_cons {j : Json} {value : Option AttrValue}
    (h : j.Sets value) (attrs : Attributes) (key : String)
    (ms : List (String × Json)) :
    ofMembers? attrs ((key, j) :: ms) =
      ofMembers? (attrs.put key value) ms := by
  cases h <;> rfl

theorem sets_of_ofMembers? {attrs result : Attributes} {key : String}
    {j : Json} {ms : List (String × Json)}
    (h : ofMembers? attrs ((key, j) :: ms) = some result) :
    ∃ value, j.Sets value := by
  cases j with
  | null => exact ⟨_, .nothing⟩
  | string content => exact ⟨_, .text content⟩
  | number n => exact ⟨_, .number n⟩
  | bool value => cases h
  | array items => cases h
  | object members => cases h

theorem ofMembers?_sets {attrs result : Attributes}
    {ms : List (String × Json)} (h : ofMembers? attrs ms = some result)
    (key : String) {j : Json} (hj : j.Sets (attrs.get? key)) :
    ((Json.valuesOf key ms).getLastD j).Sets (result.get? key) := by
  induction ms generalizing attrs j with
  | nil =>
      cases h
      exact hj
  | cons m ms ih =>
      obtain ⟨k, i⟩ := m
      obtain ⟨value, hi⟩ := sets_of_ofMembers? h
      rw [ofMembers?_cons hi] at h
      have hget := get?_put attrs k key value
      rw [Json.valuesOf_cons]
      by_cases hk : k = key
      · rw [if_pos hk, List.getLastD_cons]
        rw [if_pos hk.symm] at hget
        rw [← hget] at hi
        exact ih h hi
      · rw [if_neg hk]
        rw [if_neg (Ne.symm hk)] at hget
        rw [← hget] at hj
        exact ih h hj

theorem exists_ofMembers?_iff (attrs : Attributes)
    {ms : List (String × Json)} :
    (∃ result, ofMembers? attrs ms = some result) ↔
      ∀ m ∈ ms, ∃ value, m.2.Sets value := by
  induction ms generalizing attrs with
  | nil =>
      exact ⟨fun _ m hm => absurd hm List.not_mem_nil, fun _ => ⟨attrs, rfl⟩⟩
  | cons m ms ih =>
      obtain ⟨key, j⟩ := m
      constructor
      · rintro ⟨result, h⟩
        obtain ⟨value, hj⟩ := sets_of_ofMembers? h
        rw [ofMembers?_cons hj] at h
        exact List.forall_mem_cons.mpr ⟨⟨value, hj⟩, (ih _).mp ⟨result, h⟩⟩
      · intro h
        obtain ⟨⟨value, hj⟩, hms⟩ := List.forall_mem_cons.mp h
        rw [ofMembers?_cons hj]
        exact (ih _).mpr hms

/-- The members of `attrs` are read exactly to the attributes they set. -/
theorem ofMembers?_eq_some_iff {members : List (String × Json)}
    {attrs : Attributes} :
    ofMembers? .empty members = some attrs ↔ attrs.SetBy members := by
  constructor
  · intro h
    exact ⟨(exists_ofMembers?_iff _).mp ⟨attrs, h⟩,
      fun key => ofMembers?_sets h key .nothing⟩
  · intro h
    obtain ⟨result, hresult⟩ :=
      (exists_ofMembers?_iff .empty).mpr h.each
    rw [hresult, ext_get? fun key =>
      (ofMembers?_sets hresult key .nothing).unique (h.last key)]

end Attributes

end PageShell
