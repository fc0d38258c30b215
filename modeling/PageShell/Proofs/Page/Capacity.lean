import PageShell.Proofs.Page.Startup
import PageShell.Proofs.Toml.Integers

/-!
# Which configurations can be started

A capacity is looked at twice. The check of the ranges refuses zero and
nothing else; the mailbox refuses `capacityLimit` and more. Between the two
lies what an integer of a document can still be: it has 64 bits, so it goes on
for as long again above the limit. Every one of these capacities is accepted
(`accepted_capacity_iff`) and then cannot be started
(`starts_exactly_below_limit`).

A text that is refused is replaced by the default configuration, which can be
started. So the texts a page cannot be mounted from are exactly the accepted
ones with such a capacity, and they would be mounted if they were refused.
-/

namespace PageShell

theorem Session.start?_eq_none_iff (registry : Registry) (initial : State)
    (capacity : Nat) :
    Session.start? registry initial capacity = none ↔
      Mailbox.capacityLimit ≤ capacity := by
  unfold Session.start?
  split
  · next hlt => exact iff_of_false (Option.some_ne_none _) (by omega)
  · next hge => exact iff_of_true rfl (by omega)

theorem Host.mount?_eq_none_iff (config : Config) (history : List Entry) :
    Host.mount? config history = none ↔
      Mailbox.capacityLimit ≤ config.queueCapacity := by
  rw [← Session.start?_eq_none_iff .builtin
    { cursor := config.initialCursor, history } config.queueCapacity]
  exact Option.bind_eq_none_iff.trans
    ⟨fun h => Option.eq_none_iff_forall_ne_some.mpr fun s hs =>
      Option.some_ne_none _ (h s hs), fun h s hs => by rw [h] at hs; cases hs⟩

namespace Config

/-- A session can be started with the configuration, whatever its commands,
and takes a first line, whatever it is. -/
def Starts (config : Config) : Prop :=
  ∀ registry : Registry, ∃ s, Session.start? registry config.initialState
      config.queueCapacity = some s ∧
    s.worker = .unstarted config.initialState ∧
    ∀ input, ∃ s', s.submit 0 input = .ok s'

variable {source : String} {config : Config} {n : Nat}

theorem starts_iff :
    config.Starts ↔ config.queueCapacity < Mailbox.capacityLimit := by
  constructor
  · intro h
    obtain ⟨s, hs, -⟩ := h .builtin
    by_contra hge
    rw [(Session.start?_eq_none_iff _ _ _).mpr (Nat.not_lt.mp hge)] at hs
    cases hs
  · intro hlt registry
    refine ⟨_, if_pos hlt, rfl, fun input => ?_⟩
    have hfilled := Session.filled_run registry config.initialState
      config.queueCapacity []
    exact (hfilled.submit_iff input).2.mpr (Nat.zero_le _)

/-! ## The capacities that are accepted -/

theorem capacity_lt_of_ofText (h : ofText source = .ok config) :
    config.queueCapacity < Toml.integerLimit := by
  obtain ⟨entries, hread⟩ := exists_read_of_ofText h
  have hgives := ((ofText_eq_ok_iff hread).mp h).1.queueCapacity
  by_cases hkey : "queue_capacity" ∈ entries.map (·.1)
  · obtain ⟨⟨_, value⟩, hmem, rfl⟩ := List.mem_map.mp hkey
    have hbounded := Toml.bounded_of_ofText? hread _ hmem
    have hvalue : value = .integer config.queueCapacity :=
      hgives.given value hmem
    rw [hvalue] at hbounded
    have := hbounded.2
    omega
  · rw [hgives.leftOut hkey]
    decide

/-- The text that gives the capacity and nothing else. -/
def capacitySource (n : Nat) : String :=
  String.ofList (Toml.integerLine "queue_capacity".toList n)

example : capacitySource 4611686018427387903 =
    "queue_capacity = 4611686018427387903" := by
  decide +kernel

theorem ofText_capacitySource (hpos : 1 ≤ n) (hn : n < Toml.integerLimit) :
    ofText (capacitySource n) = .ok { queueCapacity := n } := by
  have hread : Toml.ofText? (capacitySource n) =
      some [(String.ofList "queue_capacity".toList, .integer n)] :=
    Toml.ofText?_integerLine (by decide) (List.all_eq_true.mp (by decide)) hn
  rw [String.ofList_toList] at hread
  have hset : ({} : Config).set "queue_capacity" (.integer n) =
      .ok { queueCapacity := n } := by
    have hnatural := natural_eq_ok_iff.mpr (rfl : Toml.IsNatural (.integer n) n)
    simp only [set, hnatural]
    rfl
  exact (ofText_eq_ok_iff hread).mpr ⟨describes_of_set hset, hpos,
    fun _ h => absurd h List.not_mem_nil⟩

/-- The accepted capacities are those from one to the greatest integer. -/
theorem accepted_capacity_iff :
    (∃ source config, ofText source = .ok config ∧
        config.queueCapacity = n) ↔
      1 ≤ n ∧ n < Toml.integerLimit := by
  constructor
  · rintro ⟨source, config, h, rfl⟩
    exact ⟨(inRange_of_ofText h).capacity, capacity_lt_of_ofText h⟩
  · rintro ⟨hpos, hn⟩
    exact ⟨capacitySource n, _, ofText_capacitySource hpos hn, rfl⟩

/-! ## Starting -/

theorem exists_mount?_iff (history : List Entry) :
    (∃ mounted, Host.mount? config history = some mounted) ↔
      config.Starts := by
  rw [← Option.ne_none_iff_exists', ne_eq, Host.mount?_eq_none_iff,
    starts_iff, Nat.not_le]

theorem mount?_load_eq_none_iff (source : String) (history : List Entry) :
    Host.mount? (load source).1 history = none ↔
      ∃ config, ofText source = .ok config ∧
        Mailbox.capacityLimit ≤ config.queueCapacity := by
  rw [Host.mount?_eq_none_iff]
  constructor
  · intro hle
    by_cases hok : ∃ config, ofText source = .ok config
    · obtain ⟨config, hok⟩ := hok
      rw [load_of_ok hok] at hle
      exact ⟨config, hok, hle⟩
    · rw [load_of_not_ok (not_exists.mp hok)] at hle
      exact absurd hle (by decide)
  · rintro ⟨config, hok, hle⟩
    rw [load_of_ok hok]
    exact hle

/-- A session of an accepted configuration can be started exactly if its
capacity is below the limit of the mailbox, and a page can be mounted with it
exactly if a session can be started, also with a history. The texts no page
can be mounted from are the accepted ones with a capacity that is not below
the limit; and there are such texts, since the accepted capacities are those
from one to the greatest integer of a document. -/
theorem starts_exactly_below_limit (source : String) (history : List Entry) :
    (∀ config, ofText source = .ok config →
      (config.Starts ↔ config.queueCapacity < Mailbox.capacityLimit) ∧
      ((∃ mounted, Host.mount? config history = some mounted) ↔
        config.Starts)) ∧
    (Host.mount? (load source).1 history = none ↔
      ∃ config, ofText source = .ok config ∧
        Mailbox.capacityLimit ≤ config.queueCapacity) ∧
    ∀ n, (∃ source config, ofText source = .ok config ∧
        config.queueCapacity = n) ↔
      1 ≤ n ∧ n < Toml.integerLimit :=
  ⟨fun _ _ => ⟨starts_iff, exists_mount?_iff history⟩,
    mount?_load_eq_none_iff source history, fun _ => accepted_capacity_iff⟩

/-- The greatest capacity that starts. -/
theorem greatest_capacity_starts :
    ofText (capacitySource 4611686018427387902) =
        .ok { queueCapacity := 4611686018427387902 } ∧
      Starts { queueCapacity := 4611686018427387902 } ∧
      ∃ mounted, Host.mount? { queueCapacity := 4611686018427387902 } [] =
        some mounted := by
  have hok : ofText (capacitySource 4611686018427387902) =
      .ok { queueCapacity := 4611686018427387902 } :=
    ofText_capacitySource (by decide) (by decide)
  obtain ⟨hiff, hmount⟩ := (starts_exactly_below_limit _ []).1 _ hok
  have hstarts : Starts { queueCapacity := 4611686018427387902 } :=
    hiff.mpr (by decide)
  exact ⟨hok, hstarts, hmount.mpr hstarts⟩

/-- The next one is accepted as well, and does not start. -/
theorem accepted_need_not_start :
    ofText (capacitySource 4611686018427387903) =
        .ok { queueCapacity := 4611686018427387903 } ∧
      ¬Starts { queueCapacity := 4611686018427387903 } ∧
      Host.mount? { queueCapacity := 4611686018427387903 } [] = none ∧
      ¬∀ (source : String) (config : Config), ofText source = .ok config →
        config.Starts := by
  have hok : ofText (capacitySource 4611686018427387903) =
      .ok { queueCapacity := 4611686018427387903 } :=
    ofText_capacitySource (by decide) (by decide)
  have hnot : ¬Starts { queueCapacity := 4611686018427387903 } :=
    fun h => absurd (starts_iff.mp h) (by decide)
  exact ⟨hok, hnot, (Host.mount?_eq_none_iff _ []).mpr (by decide),
    fun hall => hnot (hall _ _ hok)⟩

end Config

end PageShell
