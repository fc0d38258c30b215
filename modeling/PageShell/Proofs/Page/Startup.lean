import PageShell.Page.Host
import PageShell.Proofs.Config.Accepted
import PageShell.Proofs.Session.Parking

/-!
# How many startup lines fit

The startup lines are submitted one after the other, by one sender and before
the worker is polled. Nothing wakes that sender, so what becomes of a line
depends on its place alone: as long as no more than the capacity wait, a line
is taken, and the one that exceeds the capacity is taken and parks the sender
(`Mailbox.Balanced.parked_iff_of_alone`). Hence the first `capacity + 1` lines
are taken and the others are dropped, each with a note in the log.

The two numbers are given by two keys of the configuration, and the check of
its ranges looks at each value alone. It refuses a capacity of none, so two
lines always fit; it accepts any number of lines.
-/

namespace PageShell

namespace Mailbox

/-- A sender that is alone is parked exactly while more than the capacity
wait. -/
theorem Balanced.parked_iff_of_alone {m : Mailbox} (hm : m.Balanced)
    (hleft : m.left = [true]) :
    m.sender 0 = .parked ↔ m.capacity < m.queue.length := by
  have hl : m.isLeft 0 = true := by
    rw [isLeft_eq, hleft]
    rfl
  have hlen : m.senders.length = 1 := by
    have hlen := congrArg List.length hleft
    rwa [left, List.length_map] at hlen
  refine ⟨hm.capacity_lt, fun hlt => (hm.parked_iff hl).mpr ?_⟩
  have hpos : 0 < m.waiting.length := by
    have hexcess := hm.excess
    omega
  obtain ⟨h, hmem⟩ := List.exists_mem_of_length_pos hpos
  have hzero : h = 0 := by
    have hknown := hm.parks.known h hmem
    omega
  rwa [hzero] at hmem

end Mailbox

theorem Registry.Publishes.leads_last {registry : Registry} {s : State}
    {inputs : List String} {published : List State}
    (h : registry.Publishes s inputs published) :
    registry.Leads s inputs (published.getLastD s) := by
  induction h with
  | nil => exact Leads.nil
  | cons s id _ ih =>
      rw [List.getLastD_cons]
      exact Leads.cons ih

namespace Session

/-! ## One sender -/

/-- The worker is there, and one sender, which is the first. -/
structure Alone (capacity : Nat) (s : Session) : Prop where
  orderly : s.Orderly capacity
  left_eq : s.mailbox.left = [true]
  here : s.worker ≠ .gone

namespace Alone

variable {capacity : Nat} {s s' : Session} {input : String}

theorem isLeft (hs : s.Alone capacity) : s.mailbox.isLeft 0 = true := by
  rw [Mailbox.isLeft_eq, hs.left_eq]
  rfl

theorem exists_state (hs : s.Alone capacity) :
    ∃ state, s.worker.state? = some state :=
  Option.ne_none_iff_exists'.mp fun hnone =>
    hs.here (Worker.state?_eq_none_iff.mp hnone)

/-- What becomes of a line depends on how many wait. -/
theorem submit_iff (hs : s.Alone capacity) (input : String) :
    (s.submit 0 input = .error .queueFull ↔
        capacity < s.mailbox.queue.length) ∧
      ((∃ s', s.submit 0 input = .ok s') ↔
        s.mailbox.queue.length ≤ capacity) := by
  obtain ⟨-, hfull, hok⟩ := hs.orderly.submit_iff hs.isLeft input
  have hparked := (hs.orderly.live hs.here).2.parked_iff_of_alone hs.left_eq
  rw [hs.orderly.capacity_eq] at hparked
  rw [hfull, hok, and_iff_right hs.here, and_iff_right hs.here, ne_eq, hparked]
  omega

theorem submit (hs : s.Alone capacity) (hok : s.submit 0 input = .ok s') :
    s'.Alone capacity := by
  have horderly := hs.orderly.submit hok
  obtain ⟨m, hm, rfl⟩ := submit_ok hok
  obtain ⟨-, -, -, hleft⟩ := Mailbox.submit_ok hm
  exact ⟨horderly, hleft.trans hs.left_eq, hs.here⟩

/-- A poll runs what waits, and waits for more. -/
theorem poll (hs : s.Alone capacity) (ids : IdSource) {state : State}
    (hstate : s.worker.state? = some state) :
    ∃ m published, drain s.registry ids s.mailbox state = (m, published) ∧
      s.poll ids =
        ({ s with mailbox := m, worker := .running (published.getLastD state) },
          .pending, published) ∧
      (s.poll ids).1.Alone capacity := by
  obtain ⟨m, published, hdrain, hpolled⟩ := poll_here ids hstate
  obtain ⟨-, -, hleft, -⟩ := drain_spec s.registry ids s.mailbox state
  rw [hdrain, hs.left_eq] at hleft
  have hsenders : m.hasSenders = true := by
    rw [Mailbox.hasSenders_eq, hleft]
    rfl
  rcases hpolled with ⟨-, hpoll⟩ | ⟨hnone, -⟩
  · refine ⟨m, published, hdrain, hpoll, (hs.orderly.poll ids).1, ?_, ?_⟩
    · rw [hpoll]
      exact hleft
    · rw [hpoll]
      exact fun hgone => by cases hgone
  · rw [hsenders] at hnone
    cases hnone

end Alone

/-! ## One sender, before the first poll -/

/-- The one sender has submitted some lines, and those that fit wait. -/
structure Run.Filled (initial : State) (capacity : Nat)
    (inputs : List String) (r : Run) : Prop where
  orderly : r.session.Orderly capacity
  left_eq : r.session.mailbox.left = [true]
  worker_eq : r.session.worker = .unstarted initial
  queue_eq : r.session.mailbox.queue = inputs.take (capacity + 1)
  accepted_eq : r.accepted = inputs.take (capacity + 1)

namespace Run.Filled

variable {initial : State} {capacity : Nat} {inputs : List String} {r : Run}

theorem start (registry : Registry) (initial : State) (capacity : Nat) :
    Filled initial capacity []
      { session := ⟨registry, { capacity }, .unstarted initial⟩ } :=
  ⟨.start registry initial capacity, rfl, rfl, rfl, rfl⟩

theorem alone (hr : r.Filled initial capacity inputs) :
    r.session.Alone capacity := by
  refine ⟨hr.orderly, hr.left_eq, fun hgone => ?_⟩
  rw [hr.worker_eq] at hgone
  cases hgone

/-- What becomes of one more line. -/
theorem submit_iff (hr : r.Filled initial capacity inputs) (input : String) :
    (r.session.submit 0 input = .error .queueFull ↔
        capacity < inputs.length) ∧
      ((∃ s, r.session.submit 0 input = .ok s) ↔
        inputs.length ≤ capacity) := by
  obtain ⟨hfull, hok⟩ := hr.alone.submit_iff input
  rw [hfull, hok, hr.queue_eq, List.length_take]
  omega

theorem step (hr : r.Filled initial capacity inputs) (input : String) :
    (r.step (.submit 0 input)).Filled initial capacity
      (inputs ++ [input]) := by
  obtain ⟨hfull, hok⟩ := hr.submit_iff input
  rcases Nat.lt_or_ge capacity inputs.length with hlt | hge
  · have htake : (inputs ++ [input]).take (capacity + 1) =
        inputs.take (capacity + 1) := List.take_append_of_le_length hlt
    rw [step_submit_error (hfull.mpr hlt)]
    exact ⟨hr.orderly, hr.left_eq, hr.worker_eq,
      hr.queue_eq.trans htake.symm, hr.accepted_eq.trans htake.symm⟩
  · obtain ⟨s, hs⟩ := hok.mpr hge
    obtain ⟨m, hm, rfl⟩ := submit_ok hs
    obtain ⟨-, -, hqueue, hleft⟩ := Mailbox.submit_ok hm
    have htake : inputs.take (capacity + 1) = inputs :=
      List.take_of_length_le (by omega)
    have htake' : (inputs ++ [input]).take (capacity + 1) =
        inputs ++ [input] := by
      refine List.take_of_length_le ?_
      rw [List.length_append, List.length_singleton]
      omega
    rw [step_submit_ok hr.alone.isLeft hs]
    refine ⟨hr.orderly.submit hs, hleft.trans hr.left_eq, hr.worker_eq,
      ?_, ?_⟩
    · rw [htake', hqueue, hr.queue_eq, htake]
    · rw [htake', hr.accepted_eq, htake]

theorem steps (hr : r.Filled initial capacity inputs) (more : List String) :
    ((more.map (Step.submit 0)).foldl Run.step r).Filled initial capacity
      (inputs ++ more) := by
  induction more generalizing r inputs with
  | nil =>
      rw [List.append_nil]
      exact hr
  | cons input more ih =>
      have hmore := ih (hr.step input)
      rwa [List.append_assoc] at hmore

/-- A poll runs the lines that fit, and waits for more. -/
theorem poll (hr : r.Filled initial capacity inputs) (ids : IdSource) :
    ∃ m published, r.session.poll ids =
        ({ r.session with
            mailbox := m
            worker := .running (published.getLastD initial) },
          .pending, published) ∧
      r.session.registry.Leads initial (inputs.take (capacity + 1))
        (published.getLastD initial) := by
  have hstate : r.session.worker.state? = some initial := by
    rw [hr.worker_eq]
    rfl
  obtain ⟨m, published, hdrain, hpoll, -⟩ := hr.alone.poll ids hstate
  obtain ⟨-, -, -, hpublished⟩ :=
    drain_spec r.session.registry ids r.session.mailbox initial
  rw [hdrain, hr.queue_eq] at hpublished
  exact ⟨m, published, hpoll, hpublished.leads_last⟩

end Run.Filled

theorem filled_run (registry : Registry) (initial : State) (capacity : Nat)
    (inputs : List String) :
    (Run.of ⟨registry, { capacity }, .unstarted initial⟩
      (inputs.map (Step.submit 0))).Filled initial capacity inputs :=
  (Run.Filled.start registry initial capacity).steps inputs

end Session

namespace Host

open Session (Run Step)

/-! ## The host -/

theorem run_ok {host : Host} {input : String} {s : Session}
    (hok : host.session.submit 0 input = .ok s) :
    host.run input = ({ host with session := s }, []) := by
  rw [run, hok]

theorem run_error {host : Host} {input : String} {e : SessionError}
    (hrefused : host.session.submit 0 input = .error e) :
    host.run input = (host, [.inputDropped e]) := by
  rw [run, hrefused]

/-- The lines a host submits before the worker is polled are a run of one
sender; each line that does not fit is noted. -/
theorem runAll_eq_of_filled {initial : State} {capacity : Nat}
    {inputs : List String} {r : Run} (hr : r.Filled initial capacity inputs)
    (config : Config) (shown : Option State) (more : List String) :
    runAll ⟨config, r.session, shown⟩ more =
      (⟨config, ((more.map (Step.submit 0)).foldl Run.step r).session, shown⟩,
        (more.drop (capacity + 1 - inputs.length)).map fun _ =>
          .inputDropped .queueFull) := by
  induction more generalizing r inputs with
  | nil => rw [runAll, List.drop_nil]; rfl
  | cons input more ih =>
      have hmore := ih (hr.step input)
      rw [List.length_append, List.length_singleton] at hmore
      obtain ⟨hfull, hok⟩ := hr.submit_iff input
      rw [runAll, List.map_cons, List.foldl_cons]
      rcases Nat.lt_or_ge capacity inputs.length with hlt | hge
      · have hrefused := hfull.mpr hlt
        rw [Run.step_submit_error hrefused] at hmore ⊢
        rw [run_error hrefused]
        have hzero : capacity + 1 - inputs.length = 0 := by omega
        have hzero' : capacity + 1 - (inputs.length + 1) = 0 := by omega
        rw [hzero'] at hmore
        rw [hzero]
        simp only [hmore]
        rfl
      · obtain ⟨s, hs⟩ := hok.mpr hge
        rw [Run.step_submit_ok hr.alone.isLeft hs] at hmore ⊢
        rw [run_ok hs]
        have hsucc : capacity + 1 - inputs.length =
            capacity + 1 - (inputs.length + 1) + 1 := by omega
        rw [hsucc, List.drop_succ_cons]
        simp only [hmore]
        rfl

/-- A host that is mounted with no history has submitted the startup lines,
and noted those that do not fit. -/
theorem mount?_without_history {config : Config}
    (hcapacity : config.queueCapacity < Mailbox.capacityLimit) :
    mount? config [] = some
      (⟨config,
        (Run.of ⟨.builtin, { capacity := config.queueCapacity },
            .unstarted config.initialState⟩
          (config.startup.map (Step.submit 0))).session,
        some config.initialState⟩,
        (config.startup.drop (config.queueCapacity + 1)).map fun _ =>
          .inputDropped .queueFull) := by
  have hall := runAll_eq_of_filled
    (.start .builtin config.initialState config.queueCapacity) config
    (some config.initialState) config.startup
  show (Session.start? Registry.builtin config.initialState
    config.queueCapacity).bind _ = _
  rw [Session.start?, if_pos hcapacity, Option.bind_some]
  exact congrArg some hall

/-- Once the worker is polled, the host shows what the lines that fit have
made of the state. -/
theorem settle_of_filled {initial : State} {capacity : Nat}
    {inputs : List String} {r : Run} (hr : r.Filled initial capacity inputs)
    (config : Config) (ids : IdSource) :
    ∃ state, (settle ⟨config, r.session, some initial⟩ ids).1.shown =
        some state ∧
      r.session.registry.Leads initial (inputs.take (capacity + 1)) state := by
  obtain ⟨m, published, hpoll, hleads⟩ := hr.poll ids
  refine ⟨_, ?_, hleads⟩
  rw [settle, hpoll, List.getLastD_eq_getLast?]

end Host

namespace Config

open Session (Run Step)

/-! ## The startup lines -/

/-- The startup lines of a configuration, submitted by the one sender of its
session before the first poll, are taken as far as the capacity and one more;
the others are refused because the queue is full. The poll runs those that
were taken, in order, and nothing else, so all of the startup lines are run
exactly if there are no more than that. Two are never too many. A host that is
mounted with no history does the same: it notes each line that it drops, and
then shows a history of those that were taken. -/
theorem startup_runs_as_far_as_it_fits {source : String} {config : Config}
    (hconfig : ofText source = .ok config)
    (hcapacity : config.queueCapacity < Mailbox.capacityLimit)
    (registry : Registry) :
    ∃ s, Session.start? registry config.initialState config.queueCapacity =
        some s ∧
      let taken := config.startup.take (config.queueCapacity + 1)
      let r := Run.of s (config.startup.map (Step.submit 0))
      r.accepted = taken ∧
      (∀ (k : Nat) (hk : k < config.startup.length),
        let r := Run.of s ((config.startup.take k).map (Step.submit 0))
        ((∃ s', r.session.submit 0 config.startup[k] = .ok s') ↔
          k ≤ config.queueCapacity) ∧
        (r.session.submit 0 config.startup[k] = .error .queueFull ↔
          config.queueCapacity < k)) ∧
      (∀ ids : IdSource, ∃ state,
        (r.step (.poll ids)).session.worker = .running state ∧
          state.history.map (·.input) = taken) ∧
      (taken = config.startup ↔
        config.startup.length ≤ config.queueCapacity + 1) ∧
      (config.startup.length ≤ 2 → taken = config.startup) ∧
      ∃ host : Host,
        Host.mount? config [] = some (host,
          (config.startup.drop (config.queueCapacity + 1)).map fun _ =>
            .inputDropped .queueFull) ∧
        ∀ ids : IdSource, ∃ state, (host.settle ids).1.shown = some state ∧
          state.history.map (·.input) = taken := by
  refine ⟨⟨registry, { capacity := config.queueCapacity },
    .unstarted config.initialState⟩, by
    rw [Session.start?, if_pos hcapacity], ?_⟩
  intro taken r
  have hr : r.Filled config.initialState config.queueCapacity config.startup :=
    Session.filled_run registry config.initialState config.queueCapacity _
  have hall : taken = config.startup ↔
      config.startup.length ≤ config.queueCapacity + 1 :=
    ⟨fun h => by rw [← h]; exact List.length_take_le _ _,
      List.take_of_length_le⟩
  refine ⟨hr.accepted_eq, fun k hk => ?_, fun ids => ?_, hall, fun htwo => ?_,
    ?_⟩
  · intro r'
    have hr' : r'.Filled config.initialState config.queueCapacity
        (config.startup.take k) :=
      Session.filled_run registry config.initialState config.queueCapacity _
    obtain ⟨hfull, hok⟩ := hr'.submit_iff config.startup[k]
    rw [List.length_take, Nat.min_eq_left (Nat.le_of_lt hk)] at hfull hok
    exact ⟨hok, hfull⟩
  · obtain ⟨m, published, hpoll, hleads⟩ := hr.poll ids
    rw [Run.step_poll, Session.Run.session_poll, hpoll]
    exact ⟨_, rfl, hleads.inputs_eq⟩
  · -- The check of the ranges leaves room for one line besides the last.
    have hpos := (inRange_of_ofText hconfig).capacity
    exact hall.mpr (by omega)
  · refine ⟨_, Host.mount?_without_history hcapacity, fun ids => ?_⟩
    obtain ⟨state, hshown, hleads⟩ :=
      Host.settle_of_filled (Session.filled_run .builtin config.initialState
        config.queueCapacity config.startup) config ids
    exact ⟨state, hshown, hleads.inputs_eq⟩

/-- A configuration with more startup lines than fit. -/
def crowdedSource : String :=
  "startup = [\"echo a\", \"echo b\", \"echo c\"]\nqueue_capacity = 1\n"

def crowded : Config where
  startup := ["echo a", "echo b", "echo c"]
  queueCapacity := 1

theorem ofText_crowdedSource : ofText crowdedSource = .ok crowded :=
  ofText_of_load (by decide +kernel)

/-- Of three lines at a capacity of one the third is dropped. -/
theorem third_line_does_not_fit :
    ofText crowdedSource = .ok crowded ∧
      crowded.queueCapacity < Mailbox.capacityLimit ∧
      ∃ s, Session.start? .builtin crowded.initialState
          crowded.queueCapacity = some s ∧
        let r₂ := Run.of s ((crowded.startup.take 2).map (Step.submit 0))
        let r := Run.of s (crowded.startup.map (Step.submit 0))
        r.accepted = ["echo a", "echo b"] ∧
        r₂.session.submit 0 "echo c" = .error .queueFull ∧
        (∃ state,
          (r.step (.poll EntryId.unused)).session.worker = .running state ∧
            state.history.map (·.input) = ["echo a", "echo b"]) ∧
        ∃ host, Host.mount? crowded [] =
            some (host, [.inputDropped .queueFull]) ∧
          ∃ state, (host.settle EntryId.unused).1.shown = some state ∧
            state.history.map (·.input) = ["echo a", "echo b"] := by
  have hcapacity : crowded.queueCapacity < Mailbox.capacityLimit := by decide
  obtain ⟨s, hs, haccepted, hlines, hpoll, -, -, host, hmount, hshown⟩ :=
    startup_runs_as_far_as_it_fits ofText_crowdedSource hcapacity .builtin
  have htwo : 2 < crowded.startup.length := by decide
  exact ⟨ofText_crowdedSource, hcapacity, s, hs, haccepted,
    (hlines 2 htwo).2.mpr (by decide), hpoll EntryId.unused, host, hmount,
    hshown EntryId.unused⟩

/-- Not every configuration that is read can have all its startup lines
taken. -/
theorem startup_can_exceed_queue :
    ¬ ∀ (source : String) (config : Config), ofText source = .ok config →
      config.queueCapacity < Mailbox.capacityLimit →
        ∀ s, Session.start? .builtin config.initialState
            config.queueCapacity = some s →
          let r := Run.of s (config.startup.map (Step.submit 0))
          r.accepted = config.startup ∧
            ∀ ids : IdSource, ∃ state,
              (r.step (.poll ids)).session.worker = .running state ∧
                state.history.map (·.input) = config.startup := by
  intro hall
  have haccepted :=
    (hall crowdedSource crowded ofText_crowdedSource (by decide) _ rfl).1
  revert haccepted
  decide +kernel

end Config

end PageShell
