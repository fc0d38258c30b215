import PageShell.Command.Builtin
import PageShell.Proofs.History.Replay
import PageShell.Proofs.Session.Run

/-!
# Every input is run once, in order

Whatever the senders, the polls and the end of the worker do to each other,
what is published is decided by the accepted inputs and their order alone.
The argument is one invariant, `Delivers`. The accepted inputs split into
those that are done and those that wait; the published states are what the
done ones make of the initial state, one after the other (`Publishes`); and
the state in the hands of the worker is the last of them. A submission puts
its input at the end of the second part, a poll moves the whole second part
over to the first, and when the worker goes the mailbox closes behind it, so
nothing is ever added to a part that nobody will empty.

Identifiers of new entries differ between two runs of the same inputs, and
are the only thing that does.
-/

namespace PageShell

namespace Registry

variable (registry : Registry)

/-- The state is what the lines make of the initial one, with some
identifiers for the new entries. -/
def Leads (initial : State) (inputs : List String) (s : State) : Prop :=
  ∃ turns : List Turn, turns.map Turn.input = inputs ∧
    s = registry.runAll initial turns

/-- Carries a state on by some lines, with identifiers from a source. -/
def advanceAll (ids : IdSource) (s : State) (inputs : List String) : State :=
  inputs.foldl (fun s input => registry.advance (ids s.ids) s input) s

/-- The states that follow a state, one for each line. -/
inductive Publishes : State → List String → List State → Prop where
  | nil (s : State) : Publishes s [] []
  | cons (s : State) (id : EntryId) {input : String} {inputs : List String}
      {published : List State} :
      Publishes (registry.advance id s input) inputs published →
      Publishes s (input :: inputs)
        (registry.advance id s input :: published)

variable {registry} {initial s t : State} {inputs : List String}

theorem Leads.nil : registry.Leads s [] s := ⟨[], rfl, rfl⟩

theorem Leads.cons {id : EntryId} {input : String}
    (h : registry.Leads (registry.advance id s input) inputs t) :
    registry.Leads s (input :: inputs) t := by
  obtain ⟨turns, rfl, rfl⟩ := h
  exact ⟨.advance id input :: turns, rfl, rfl⟩

theorem leads_advanceAll (ids : IdSource) (s : State) (inputs : List String) :
    registry.Leads s inputs (registry.advanceAll ids s inputs) := by
  induction inputs generalizing s with
  | nil => exact Leads.nil
  | cons input inputs ih => exact Leads.cons (ih _)

theorem Leads.sameBut (hs : registry.Leads initial inputs s)
    (ht : registry.Leads initial inputs t) :
    State.SameBut initial.history.length s t := by
  obtain ⟨turns, hturns, rfl⟩ := hs
  obtain ⟨turns', hturns', rfl⟩ := ht
  exact registry.runAll_sameBut (hturns.trans hturns'.symm)

theorem Leads.inputs_eq (hs : registry.Leads initial inputs s) :
    (s.history.drop initial.history.length).map (·.input) = inputs := by
  obtain ⟨turns, rfl, rfl⟩ := hs
  rw [runAll_eq, List.drop_left, map_input_entries]

theorem Publishes.length_eq {published : List State}
    (h : registry.Publishes s inputs published) :
    published.length = inputs.length := by
  induction h with
  | nil => rfl
  | cons s id _ ih => simp only [List.length_cons, ih]

theorem Publishes.append {inputs' : List String}
    {published published' : List State}
    (h : registry.Publishes s inputs published)
    (h' : registry.Publishes (published.getLastD s) inputs' published') :
    registry.Publishes s (inputs ++ inputs') (published ++ published') := by
  induction h with
  | nil => exact h'
  | cons s id _ ih =>
      rw [List.getLastD_cons] at h'
      exact .cons s id (ih h')

/-- The published states in the words of a fold: the state at place `k` is
what the first `k + 1` lines make of the initial one. -/
theorem Publishes.leads {published : List State}
    (h : registry.Publishes s inputs published) {k : Nat}
    (hk : k < published.length) :
    registry.Leads s (inputs.take (k + 1)) published[k] := by
  induction h generalizing k with
  | nil => exact absurd hk (Nat.not_lt_zero k)
  | cons s id _ ih =>
      cases k with
      | zero => exact Leads.cons Leads.nil
      | succ k => exact Leads.cons (ih (Nat.lt_of_succ_lt_succ hk))

end Registry

namespace Session

/-- A poll takes all that waits, publishes a state for each input it takes,
and leaves the senders and the door of the mailbox as they were. -/
theorem drain_spec (registry : Registry) (ids : IdSource) (m : Mailbox)
    (state : State) :
    (drain registry ids m state).1.queue = [] ∧
      (drain registry ids m state).1.isOpen = m.isOpen ∧
      (drain registry ids m state).1.left = m.left ∧
      registry.Publishes state m.queue (drain registry ids m state).2 := by
  fun_induction drain registry ids m state with
  | case1 m state hnone =>
      have hempty := Mailbox.receive_eq_none hnone
      rw [hempty]
      exact ⟨rfl, rfl, rfl, .nil state⟩
  | case2 m state input m' hsome hlt state' m'' published hdrain ih =>
      obtain ⟨hqueue, hopen, hleft, hpublished⟩ := ih
      obtain ⟨hopen', hleft'⟩ := Mailbox.receive_ok hsome
      rw [hdrain] at hqueue hopen hleft hpublished
      rw [Mailbox.queue_receive hsome]
      exact ⟨hqueue, hopen.trans hopen', hleft.trans hleft',
        .cons state _ hpublished⟩

theorem submit_ok {s s' : Session} {h : Nat} {input : String}
    (hok : s.submit h input = .ok s') :
    ∃ m, s.mailbox.submit h input = .ok m ∧ s' = { s with mailbox := m } := by
  unfold submit at hok
  cases hm : s.mailbox.submit h input with
  | error e => rw [hm] at hok; cases hok
  | ok m =>
      rw [hm] at hok
      cases hok
      exact ⟨m, rfl, rfl⟩

/-- A poll of a worker that is not there. -/
theorem poll_gone {s : Session} (ids : IdSource)
    (h : s.worker.state? = none) : s.poll ids = (s, .gone, []) := by
  unfold poll
  cases hw : s.worker with
  | gone => rfl
  | unstarted state => rw [hw] at h; cases h
  | running state => rw [hw] at h; cases h

/-- A poll of a worker that is there: it goes on waiting, or it is done. -/
theorem poll_here {s : Session} {state : State} (ids : IdSource)
    (h : s.worker.state? = some state) :
    ∃ m published, drain s.registry ids s.mailbox state = (m, published) ∧
      (m.hasSenders = true ∧ s.poll ids =
          ({ s with
              mailbox := m, worker := .running (published.getLastD state) },
            .pending, published) ∨
        m.hasSenders = false ∧ s.poll ids =
          ({ s with mailbox := m.close, worker := .gone },
            .done (published.getLastD state), published)) := by
  refine ⟨_, _, rfl, ?_⟩
  have hpoll : s.poll ids =
      let d := drain s.registry ids s.mailbox state
      if d.1.hasSenders then
        ({ s with mailbox := d.1, worker := .running (d.2.getLastD state) },
          .pending, d.2)
      else
        ({ s with mailbox := d.1.close, worker := .gone },
          .done (d.2.getLastD state), d.2) := by
    unfold poll
    cases hw : s.worker with
    | gone => rw [hw] at h; cases h
    | unstarted state' | running state' =>
        rw [hw] at h
        cases h
        simp only [List.getLastD_eq_getLast?]
  rw [hpoll]
  cases hleft : (drain s.registry ids s.mailbox state).1.hasSenders with
  | true => exact .inl ⟨rfl, by simp only [hleft, if_true]⟩
  | false =>
      exact .inr ⟨rfl, by simp only [hleft, Bool.false_eq_true, if_false]⟩

/-! ## The invariant -/

/-- The accepted inputs are those that are done and those that wait; the
published states are the work of the former. -/
structure Run.Delivers (registry : Registry) (initial : State)
    (done : List String) (r : Run) : Prop where
  registry_eq : r.session.registry = registry
  publishes : registry.Publishes initial done r.published
  done_prefix : done <+: r.accepted
  live : ∀ state, r.session.worker.state? = some state →
    state = r.published.getLastD initial ∧
      r.accepted = done ++ r.session.mailbox.queue ∧ r.returned = none
  closed : r.session.worker.state? = none → r.session.mailbox.isOpen = false
  finished : ∀ state, r.returned = some state →
    r.session.mailbox.hasSenders = false ∧ r.accepted = done ∧
      state = r.published.getLastD initial

variable {registry : Registry} {initial : State} {done : List String}

theorem delivers_submit {r : Run} {h : Nat} {input : String}
    (hr : r.Delivers registry initial done) :
    (r.submit h input).Delivers registry initial done := by
  unfold Run.submit
  cases hs : r.session.submit h input with
  | error e => exact hr
  | ok session =>
      obtain ⟨m, hm, rfl⟩ := submit_ok hs
      obtain ⟨hopen, hopen', hqueue, hleft⟩ := Mailbox.submit_ok hm
      -- The mailbox is open, so the worker is there and nothing has returned.
      have hhere : r.session.worker.state? ≠ none := fun hgone => by
        rw [hr.closed hgone] at hopen
        cases hopen
      obtain ⟨state, hstate⟩ := Option.ne_none_iff_exists'.mp hhere
      obtain ⟨hlast, hwait, hnone⟩ := hr.live state hstate
      constructor
      · exact hr.registry_eq
      · exact hr.publishes
      · exact hr.done_prefix.trans (List.prefix_append _ _)
      · intro state' hstate'
        rw [hstate] at hstate'
        cases hstate'
        refine ⟨hlast, ?_, hnone⟩
        simp only [hqueue, hwait, List.append_assoc]
      · exact fun hgone => absurd hgone hhere
      · intro state' hreturned
        rw [hnone] at hreturned
        cases hreturned

theorem delivers_poll {r : Run} (ids : IdSource)
    (hr : r.Delivers registry initial done) :
    ∃ done', (r.poll ids).Delivers registry initial done' := by
  cases hstate : r.session.worker.state? with
  | none =>
      refine ⟨done, ?_⟩
      rw [Run.poll, poll_gone ids hstate]
      simpa using hr
  | some state =>
      obtain ⟨m, published, hdrain, hpolled⟩ := poll_here ids hstate
      obtain ⟨hqueue, hopen, hleft, hpublished⟩ :=
        drain_spec r.session.registry ids r.session.mailbox state
      rw [hdrain] at hqueue hopen hleft hpublished
      obtain ⟨hlast, hwait, hnone⟩ := hr.live state hstate
      rw [hlast, hr.registry_eq] at hpublished
      have hall := hr.publishes.append hpublished
      rw [← hwait] at hall
      have hlast' : published.getLastD state =
          (r.published ++ published).getLastD initial := by
        rw [hlast]
        cases hp : published.getLast? <;>
          simp [List.getLast?_append, hp]
      refine ⟨r.accepted, ?_⟩
      rcases hpolled with ⟨-, hpoll⟩ | ⟨hsenders, hpoll⟩
      · rw [Run.poll, hpoll]
        constructor
        · exact hr.registry_eq
        · exact hall
        · exact List.prefix_rfl
        · intro state' hstate'
          cases hstate'
          exact ⟨hlast', by rw [hqueue, List.append_nil], hnone⟩
        · exact fun hgone => by cases hgone
        · intro state' hreturned
          rw [hnone] at hreturned
          cases hreturned
      · rw [Run.poll, hpoll]
        constructor
        · exact hr.registry_eq
        · exact hall
        · exact List.prefix_rfl
        · exact fun state' hstate' => by cases hstate'
        · exact fun _ => rfl
        · intro state' hreturned
          cases hreturned
          refine ⟨?_, rfl, hlast'⟩
          rw [Mailbox.hasSenders_eq] at hsenders ⊢
          rwa [Mailbox.left_close]

/-- Every step that can be taken keeps the invariant; only a poll moves
inputs from those that wait to those that are done. -/
theorem delivers_step {r : Run} {step : Step}
    (hr : r.Delivers registry initial done) (hcan : r.session.CanTake step) :
    ∃ done', (r.step step).Delivers registry initial done' := by
  unfold Run.step
  rw [if_pos hcan]
  cases step with
  | submit h input => exact ⟨done, delivers_submit hr⟩
  | isOpen h => exact ⟨done, hr⟩
  | poll ids => exact delivers_poll ids hr
  | clone h =>
      refine ⟨done, hr.registry_eq, hr.publishes, hr.done_prefix, hr.live,
        hr.closed, ?_⟩
      -- A sender that can be copied is left, so no poll has come to its end.
      intro state hreturned
      have hleft := Mailbox.hasSenders_of_isLeft (hcan h rfl)
      rw [(hr.finished state hreturned).1] at hleft
      cases hleft
  | drop h =>
      refine ⟨done, hr.registry_eq, hr.publishes, hr.done_prefix, hr.live,
        hr.closed, ?_⟩
      intro state hreturned
      obtain ⟨hsenders, hrest⟩ := hr.finished state hreturned
      exact ⟨Mailbox.hasSenders_drop hsenders, hrest⟩
  | dropWorker =>
      refine ⟨done, hr.registry_eq, hr.publishes, hr.done_prefix,
        (fun state hstate => by cases hstate), fun _ => rfl, ?_⟩
      intro state hreturned
      obtain ⟨hsenders, hrest⟩ := hr.finished state hreturned
      refine ⟨?_, hrest⟩
      rw [Mailbox.hasSenders_eq] at hsenders
      rwa [dropWorker, Mailbox.hasSenders_eq, Mailbox.left_close]

theorem delivers_run (registry : Registry) (initial : State) (capacity : Nat)
    (steps : List Step) :
    ∃ done, (Run.of ⟨registry, { capacity }, .unstarted initial⟩
      steps).Delivers registry initial done := by
  refine Run.of_induction (p := fun r => ∃ done, r.Delivers registry initial
    done) ?_ (fun r step ⟨done, hr⟩ hcan => delivers_step hr hcan) steps
  refine ⟨[], rfl, .nil initial, List.prefix_rfl, ?_, ?_, ?_⟩
  · intro state hstate
    cases hstate
    exact ⟨rfl, rfl, rfl⟩
  · exact fun hgone => by cases hgone
  · exact fun state hreturned => by cases hreturned

theorem Run.Delivers.leads {r : Run}
    (hr : r.Delivers registry initial done) {k : Nat}
    (hk : k < r.published.length) :
    registry.Leads initial (r.accepted.take (k + 1)) r.published[k] := by
  obtain ⟨later, hlater⟩ := hr.done_prefix
  have hlen := hr.publishes.length_eq
  rw [← hlater, List.take_append_of_le_length (by omega)]
  exact hr.publishes.leads hk

/-! ## What a run publishes -/

/-- A session of any capacity that a mailbox can have runs every accepted
input once, in the order of acceptance, whatever the steps of its users and
their order. The state at place `k` of those published is what the first
`k + 1` accepted inputs make of the initial state, and its new entries are
those inputs and no other. While the worker is there, the accepted inputs
are those published and then those that wait; once a poll has answered a
state, every sender is given up, every accepted input is published, and the
state is the last one published. So two runs with the same accepted inputs
publish the same, wherever their polls fall. -/
theorem every_input_once_in_order (registry : Registry) (initial : State)
    {capacity : Nat} (hcapacity : capacity < Mailbox.capacityLimit) :
    ∃ s, start? registry initial capacity = some s ∧
      ∀ steps : List Step,
        let r := Run.of s steps
        (∀ (k : Nat) (hk : k < r.published.length),
          (∀ ids : IdSource,
            State.SameBut initial.history.length r.published[k]
              (registry.advanceAll ids initial (r.accepted.take (k + 1)))) ∧
          (r.published[k].history.drop initial.history.length).map
            (·.input) = r.accepted.take (k + 1)) ∧
        r.published.length ≤ r.accepted.length ∧
        (r.session.worker ≠ .gone →
          r.accepted = r.accepted.take r.published.length ++
            r.session.mailbox.queue) ∧
        (∀ final, r.returned = some final →
          r.session.mailbox.hasSenders = false ∧
          r.published.length = r.accepted.length ∧
          final = r.published.getLastD initial) ∧
        (∀ steps' : List Step,
          let r' := Run.of s steps'
          ∀ (k : Nat) (hk : k < r.published.length)
            (hk' : k < r'.published.length),
            r.accepted.take (k + 1) = r'.accepted.take (k + 1) →
            State.SameBut initial.history.length r.published[k]
              r'.published[k]) := by
  refine ⟨⟨registry, { capacity }, .unstarted initial⟩, by
    rw [start?, if_pos hcapacity], fun steps => ?_⟩
  intro r
  obtain ⟨done, hr⟩ : ∃ done, r.Delivers registry initial done :=
    delivers_run registry initial capacity steps
  have hlen := hr.publishes.length_eq
  refine ⟨fun k hk => ⟨fun ids => ?_, (hr.leads hk).inputs_eq⟩, ?_, ?_, ?_,
    fun steps' => ?_⟩
  · exact (hr.leads hk).sameBut (Registry.leads_advanceAll ids _ _)
  · rw [hlen]
    exact hr.done_prefix.length_le
  · intro hhere
    cases hworker : r.session.worker with
    | gone => exact absurd hworker hhere
    | unstarted state | running state =>
        obtain ⟨-, hwait, -⟩ := hr.live state (by rw [hworker]; rfl)
        rw [hwait, hlen, List.take_left]
  · intro final hreturned
    obtain ⟨hsenders, hall, hlast⟩ := hr.finished final hreturned
    exact ⟨hsenders, by rw [hlen, hall], hlast⟩
  · intro r' k hk hk' hsame
    obtain ⟨done', hr'⟩ : ∃ done', r'.Delivers registry initial done' :=
      delivers_run registry initial capacity steps'
    have hfirst := hr.leads hk
    rw [hsame] at hfirst
    exact hfirst.sameBut (hr'.leads hk')

/-- Two senders of a mailbox without room to share: each has one input of its
own taken, and the second input of the first is in no state. -/
theorem two_senders_without_room :
    0 < Mailbox.capacityLimit ∧
      ∃ s, start? .builtin (.fresh []) 0 = some s ∧
        let r := Run.of s [.submit 0 "echo a", .submit 0 "echo b", .clone 0,
          .submit 1 " fetch", .poll EntryId.unused, .drop 0, .drop 1,
          .poll EntryId.unused]
        r.accepted = ["echo a", " fetch"] ∧
          (∃ h : 1 < r.published.length,
            r.published[1].history.map (·.input) = ["echo a", " fetch"]) ∧
          r.returned.isSome = true ∧ r.session.mailbox.hasSenders = false := by
  have hzero : 0 < Mailbox.capacityLimit := by decide
  obtain ⟨s, hs, hrun⟩ :=
    every_input_once_in_order .builtin (.fresh []) hzero
  refine ⟨by decide, s, hs, ?_⟩
  intro r
  obtain ⟨hsnapshots, -, -, hfinal, -⟩ := hrun [.submit 0 "echo a",
    .submit 0 "echo b", .clone 0, .submit 1 " fetch", .poll EntryId.unused,
    .drop 0, .drop 1, .poll EntryId.unused]
  cases hs
  have haccepted : r.accepted = ["echo a", " fetch"] := by decide +kernel
  have hlen : 1 < r.published.length := by decide +kernel
  have hreturned : r.returned.isSome = true := by decide +kernel
  obtain ⟨final, hsome⟩ := Option.isSome_iff_exists.mp hreturned
  refine ⟨haccepted, ⟨hlen, ?_⟩, hreturned, (hfinal final hsome).1⟩
  exact (hsnapshots 1 hlen).2.trans (by rw [haccepted]; rfl)

end Session

end PageShell
