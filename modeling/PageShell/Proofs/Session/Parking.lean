import Mathlib.Data.List.GetD
import PageShell.Proofs.Session.Delivery

/-!
# As many senders are parked as the queue exceeds its capacity

Two counts are kept apart in a mailbox: how many inputs wait, and which
senders are to be woken. They are in balance because each is moved by the same
two events. An input that exceeds the capacity parks its sender, and each
input that is taken wakes one, dropped or not, so the list of those to be
woken is as long as the excess, always (`Mailbox.Balanced`).

The rest of the invariant ties the list to the senders (`Parks`), and every
operation but a copy changes the state of one sender at most. A sender that
submits is awake, so it is not in the list when it joins it, and a place is
taken at most once; a copy of a sender has a place that no list can hold yet.
So a sender that is left is parked exactly while it is in the list, which is
the only way for a submission to an open mailbox to be refused.

When the worker goes the mailbox is closed, and nothing opens it again.
-/

namespace PageShell

/-- A list of senders to be woken, each at one place of the list: of the
senders that are left it holds those that are parked. -/
structure Parks (senders : List Sender) (waiting : List Nat) : Prop where
  nodup : waiting.Nodup
  known : ∀ h ∈ waiting, h < senders.length
  parked_iff : ∀ h, (senders.getD h .dropped).isLeft = true →
    (senders.getD h .dropped = .parked ↔ h ∈ waiting)

namespace Parks

variable {senders : List Sender} {waiting waiting' : List Nat} {h : Nat}

theorem lt_of_isLeft (hl : (senders.getD h .dropped).isLeft = true) :
    h < senders.length := by
  refine Nat.lt_of_not_le fun hge => ?_
  rw [List.getD_eq_default _ _ hge] at hl
  cases hl

theorem getD_set (senders : List Sender) (h k : Nat) (s : Sender) :
    (senders.set h s).getD k .dropped =
      if h = k ∧ h < senders.length then s else senders.getD k .dropped := by
  simp only [List.getD_eq_getElem?_getD, List.getElem?_set]
  by_cases hk : h = k
  · subst hk
    by_cases hlt : h < senders.length <;> simp [hlt]
  · simp [hk]

/-- Another state of one sender, which may join the list or leave it. -/
theorem set (hp : Parks senders waiting) {s : Sender}
    (hnodup : waiting'.Nodup) (hlt : ∀ k ∈ waiting', k < senders.length)
    (hother : ∀ k, k ≠ h → (k ∈ waiting' ↔ k ∈ waiting))
    (hself : s.isLeft = true → (s = .parked ↔ h ∈ waiting')) :
    Parks (senders.set h s) waiting' := by
  refine ⟨hnodup, fun k hk => ?_, fun k hk => ?_⟩
  · rw [List.length_set]
    exact hlt k hk
  · rw [getD_set] at hk ⊢
    by_cases heq : h = k
    · subst heq
      by_cases hh : h < senders.length
      · rw [if_pos ⟨rfl, hh⟩] at hk ⊢
        exact hself hk
      · rw [if_neg fun hand => hh hand.2] at hk
        exact absurd (lt_of_isLeft hk) hh
    · rw [if_neg fun hand => heq hand.1] at hk ⊢
      rw [hother k (Ne.symm heq)]
      exact hp.parked_iff k hk

/-- A sender that is awake is parked, and joins the list at its end. -/
theorem park (hp : Parks senders waiting)
    (hawake : senders.getD h .dropped = .awake) :
    Parks (senders.set h .parked) (waiting ++ [h]) := by
  have hl : (senders.getD h .dropped).isLeft = true := by rw [hawake]; rfl
  have hnot : h ∉ waiting := by
    intro hmem
    have hparked := (hp.parked_iff h hl).mpr hmem
    rw [hawake] at hparked
    cases hparked
  refine hp.set ?_ ?_ ?_ fun _ => iff_of_true rfl (by simp)
  · refine List.nodup_append.mpr
      ⟨hp.nodup, List.pairwise_singleton _ h, fun a ha b hb => ?_⟩
    rw [List.mem_singleton.mp hb]
    rintro rfl
    exact hnot ha
  · intro k hk
    rcases List.mem_append.mp hk with hk | hk
    · exact hp.known k hk
    · rw [List.mem_singleton.mp hk]
      exact lt_of_isLeft hl
  · intro k hk
    simp [hk]

/-- The sender that is woken leaves the list, where it was once. -/
theorem wake (hp : Parks senders (h :: waiting)) :
    Parks (senders.set h (senders.getD h .dropped).woken) waiting := by
  obtain ⟨hnot, hnodup⟩ := List.nodup_cons.mp hp.nodup
  refine hp.set hnodup (fun k hk => hp.known k (List.mem_cons_of_mem h hk))
    (fun k hk => by simp [hk]) fun _ => iff_of_false ?_ hnot
  cases senders.getD h .dropped <;> decide

theorem drop (hp : Parks senders waiting) (h : Nat) :
    Parks (senders.set h .dropped) waiting :=
  hp.set hp.nodup hp.known (fun k _ => Iff.rfl) fun hl => by cases hl

theorem clone (hp : Parks senders waiting) :
    Parks (senders ++ [.awake]) waiting := by
  refine ⟨hp.nodup, fun k hk => ?_, fun k hk => ?_⟩
  · rw [List.length_append]
    exact Nat.lt_add_right _ (hp.known k hk)
  · rcases Nat.lt_or_ge k senders.length with hlt | hge
    · rw [List.getD_append _ _ _ _ hlt] at hk ⊢
      exact hp.parked_iff k hk
    · -- The place of the copy, which no list can hold yet.
      refine iff_of_false ?_ fun hmem =>
        absurd (hp.known k hmem) (Nat.not_lt.mpr hge)
      rw [List.getD_append_right _ _ _ _ hge]
      cases k - senders.length with
      | zero => exact fun hparked => by cases hparked
      | succ n => exact fun hparked => by cases hparked

end Parks

namespace Mailbox

/-- The list of those to be woken is as long as the excess, and of the
senders that are left it holds those that are parked. -/
structure Balanced (m : Mailbox) : Prop where
  excess : m.waiting.length = m.queue.length - m.capacity
  parks : Parks m.senders m.waiting

variable {m m' : Mailbox} {h : Nat} {input : String}

theorem isLeft_iff : m.isLeft h = true ↔
    m.sender h = .awake ∨ m.sender h = .parked := by
  rw [isLeft]
  cases m.sender h <;> decide

/-! ## What a submission answers -/

/-- All that a submission can do when it is taken: its sender was awake, and
is parked by it if the queue was full already. -/
theorem submit_cases (hok : m.submit h input = .ok m') :
    m.isOpen = true ∧ m.sender h = .awake ∧
      (m.queue.length < m.capacity ∧
          m' = { m with queue := m.queue ++ [input] } ∨
        m.capacity ≤ m.queue.length ∧
          m' = { m with
            queue := m.queue ++ [input]
            waiting := m.waiting ++ [h]
            senders := m.senders.set h .parked }) := by
  unfold submit at hok
  split at hok
  · cases hok
  · next hopen =>
      refine ⟨by simpa using hopen, ?_⟩
      split at hok
      · cases hok
      · cases hok
      · next hawake =>
          refine ⟨hawake, ?_⟩
          simp only [List.length_append, List.length_singleton] at hok
          split at hok
          · next hroom =>
              cases hok
              exact .inl ⟨hroom, rfl⟩
          · next hfull =>
              cases hok
              exact .inr ⟨by omega, rfl⟩

theorem submit_closed (hopen : m.isOpen = false) :
    m.submit h input = .error .closed := by
  simp [submit, hopen]

theorem submit_parked (hopen : m.isOpen = true) (hs : m.sender h = .parked) :
    m.submit h input = .error .queueFull := by
  simp [submit, hopen, hs]

theorem submit_awake (hopen : m.isOpen = true) (hs : m.sender h = .awake) :
    ∃ m', m.submit h input = .ok m' := by
  simp only [submit, hopen, hs, Bool.not_true, Bool.false_eq_true, if_false]
  split
  · exact ⟨_, rfl⟩
  · exact ⟨_, rfl⟩

theorem capacity_receive (hok : m.receive = some (input, m')) :
    m'.capacity = m.capacity := by
  unfold receive at hok
  split at hok
  · cases hok
  · cases hok
    unfold wake
    split <;> rfl

/-! ## The balance is kept -/

namespace Balanced

theorem start (capacity : Nat) : Balanced { capacity } := by
  refine ⟨(Nat.zero_sub capacity).symm, List.nodup_nil,
    fun h hmem => absurd hmem List.not_mem_nil, fun h hl => ?_⟩
  have hzero : h = 0 := Nat.lt_one_iff.mp (Parks.lt_of_isLeft hl)
  subst hzero
  exact iff_of_false (fun hparked => by cases hparked) List.not_mem_nil

theorem submit (hm : m.Balanced) (hok : m.submit h input = .ok m') :
    m'.Balanced := by
  have hexcess := hm.excess
  obtain ⟨-, hawake, ⟨hroom, rfl⟩ | ⟨hfull, rfl⟩⟩ := submit_cases hok
  · refine ⟨?_, hm.parks⟩
    simp only [List.length_append, List.length_singleton]
    omega
  · refine ⟨?_, hm.parks.park hawake⟩
    simp only [List.length_append, List.length_singleton]
    omega

theorem clone (hm : m.Balanced) : m.clone.1.Balanced :=
  ⟨hm.excess, hm.parks.clone⟩

theorem drop (hm : m.Balanced) (h : Nat) : (m.drop h).Balanced :=
  ⟨hm.excess, hm.parks.drop h⟩

theorem receive (hm : m.Balanced) (hok : m.receive = some (input, m')) :
    m'.Balanced := by
  have hexcess := hm.excess
  have hparks := hm.parks
  unfold Mailbox.receive at hok
  split at hok
  · cases hok
  · next queue hqueue =>
      cases hok
      rw [hqueue, List.length_cons] at hexcess
      unfold wake
      split
      · next hnil =>
          have hnil : m.waiting = [] := hnil
          refine ⟨?_, hparks⟩
          show m.waiting.length = queue.length - m.capacity
          rw [hnil, List.length_nil] at hexcess ⊢
          omega
      · next h waiting hcons =>
          have hcons : m.waiting = h :: waiting := hcons
          rw [hcons] at hexcess hparks
          refine ⟨?_, hparks.wake⟩
          show waiting.length = queue.length - m.capacity
          rw [List.length_cons] at hexcess
          omega

/-- Of the senders that are left, the parked ones are those in the list. -/
theorem parked_iff (hm : m.Balanced) (hl : m.isLeft h = true) :
    m.sender h = .parked ↔ h ∈ m.waiting :=
  hm.parks.parked_iff h hl

/-- A sender is parked only while the queue exceeds its capacity. -/
theorem capacity_lt (hm : m.Balanced) (hs : m.sender h = .parked) :
    m.capacity < m.queue.length := by
  have hmem := (hm.parked_iff (isLeft_iff.mpr (.inr hs))).mp hs
  have hpos := List.length_pos_of_mem hmem
  have hexcess := hm.excess
  omega

/-- Nobody is parked while nothing waits. -/
theorem not_parked (hm : m.Balanced) (hempty : m.queue = []) :
    m.sender h ≠ .parked := by
  intro hs
  have hlt := hm.capacity_lt hs
  rw [hempty] at hlt
  exact Nat.not_lt_zero _ hlt

end Balanced

end Mailbox

theorem Worker.state?_eq_none_iff {w : Worker} :
    w.state? = none ↔ w = .gone := by
  cases w <;> simp [Worker.state?]

namespace Session

/-! ## Sessions

A session is in order while its worker is there and its mailbox is open and
balanced, and once its worker is gone and its mailbox closed. -/

/-- What every step of a run keeps of the session. -/
structure Orderly (capacity : Nat) (s : Session) : Prop where
  capacity_eq : s.mailbox.capacity = capacity
  live : s.worker ≠ .gone → s.mailbox.isOpen = true ∧ s.mailbox.Balanced
  closed : s.worker = .gone → s.mailbox.isOpen = false

variable {s s' : Session} {h : Nat} {input : String} {capacity : Nat}

/-- What each input taken keeps of a mailbox, a poll keeps. -/
theorem drain_keeps {p : Mailbox → Prop}
    (keep : ∀ m m' input, p m → m.receive = some (input, m') → p m')
    (registry : Registry) (ids : IdSource) {m : Mailbox} (hm : p m)
    (state : State) : p (drain registry ids m state).1 := by
  fun_induction drain registry ids m state with
  | case1 m state hnone => exact hm
  | case2 m state input m' hsome hlt state' m'' published hdrain ih =>
      rw [hdrain] at ih
      exact ih (keep m m' input hm hsome)

theorem submit_eq_error_iff {e : SessionError} :
    s.submit h input = .error e ↔ s.mailbox.submit h input = .error e := by
  unfold submit
  cases s.mailbox.submit h input with
  | error e' => exact Iff.of_eq (by simp [bind, Except.bind])
  | ok m => exact Iff.of_eq (by simp [bind, Except.bind])

theorem submit_of_mailbox {m : Mailbox}
    (hm : s.mailbox.submit h input = .ok m) :
    s.submit h input = .ok { s with mailbox := m } := by
  rw [submit, hm]
  rfl

theorem exists_submit_eq_ok_iff :
    (∃ s', s.submit h input = .ok s') ↔
      ∃ m, s.mailbox.submit h input = .ok m := by
  constructor
  · rintro ⟨s', hok⟩
    obtain ⟨m, hm, -⟩ := submit_ok hok
    exact ⟨m, hm⟩
  · rintro ⟨m, hm⟩
    exact ⟨_, submit_of_mailbox hm⟩

namespace Orderly

theorem start (registry : Registry) (initial : State) (capacity : Nat) :
    Orderly capacity ⟨registry, { capacity }, .unstarted initial⟩ :=
  ⟨rfl, fun _ => ⟨rfl, .start capacity⟩, fun hgone => by cases hgone⟩

theorem submit (hs : s.Orderly capacity) (hok : s.submit h input = .ok s') :
    s'.Orderly capacity := by
  obtain ⟨m, hm, rfl⟩ := submit_ok hok
  obtain ⟨hopen, hopen', -, -⟩ := Mailbox.submit_ok hm
  have hcapacity : m.capacity = capacity := by
    rw [← hs.capacity_eq]
    obtain ⟨-, -, ⟨-, rfl⟩ | ⟨-, rfl⟩⟩ := Mailbox.submit_cases hm <;> rfl
  refine ⟨hcapacity, fun hhere => ⟨hopen', (hs.live hhere).2.submit hm⟩,
    fun hgone => ?_⟩
  rw [hs.closed hgone] at hopen
  cases hopen

theorem clone (hs : s.Orderly capacity) : s.clone.1.Orderly capacity :=
  ⟨hs.capacity_eq,
    fun hhere => ⟨(hs.live hhere).1, (hs.live hhere).2.clone⟩, hs.closed⟩

theorem drop (hs : s.Orderly capacity) (h : Nat) :
    (s.drop h).Orderly capacity :=
  ⟨hs.capacity_eq,
    fun hhere => ⟨(hs.live hhere).1, (hs.live hhere).2.drop h⟩, hs.closed⟩

theorem dropWorker (hs : s.Orderly capacity) :
    s.dropWorker.Orderly capacity :=
  ⟨hs.capacity_eq, fun hhere => absurd rfl hhere, fun _ => rfl⟩

/-- A poll keeps the balance, and leaves nothing in the queue. -/
theorem poll (hs : s.Orderly capacity) (ids : IdSource) :
    (s.poll ids).1.Orderly capacity ∧
      ((s.poll ids).1.worker ≠ .gone →
        (s.poll ids).1.mailbox.queue = []) := by
  cases hstate : s.worker.state? with
  | none =>
      rw [poll_gone ids hstate]
      exact ⟨hs, fun hhere =>
        absurd (Worker.state?_eq_none_iff.mp hstate) hhere⟩
  | some state =>
      have hhere : s.worker ≠ .gone := fun hgone => by
        rw [hgone] at hstate
        cases hstate
      obtain ⟨hopen, hbalanced⟩ := hs.live hhere
      obtain ⟨m, published, hdrain, hpolled⟩ := poll_here ids hstate
      obtain ⟨hcapacity, hopen', hbalanced'⟩ : m.capacity = capacity ∧
          m.isOpen = true ∧ m.Balanced := by
        have hkept := drain_keeps
          (p := fun m => m.capacity = capacity ∧ m.isOpen = true ∧ m.Balanced)
          (fun m m' input hm hok =>
            ⟨(Mailbox.capacity_receive hok).trans hm.1,
              (Mailbox.receive_ok hok).1.trans hm.2.1, hm.2.2.receive hok⟩)
          s.registry ids ⟨hs.capacity_eq, hopen, hbalanced⟩ state
        rwa [hdrain] at hkept
      have hqueue := (drain_spec s.registry ids s.mailbox state).1
      rw [hdrain] at hqueue
      rcases hpolled with ⟨-, hpoll⟩ | ⟨-, hpoll⟩
      · rw [hpoll]
        exact ⟨⟨hcapacity, fun _ => ⟨hopen', hbalanced'⟩,
          fun hgone => by cases hgone⟩, fun _ => hqueue⟩
      · rw [hpoll]
        exact ⟨⟨hcapacity, fun hhere => absurd rfl hhere, fun _ => rfl⟩,
          fun hhere => absurd rfl hhere⟩

/-- What a submission answers, from a sender that is left. -/
theorem submit_iff (hs : s.Orderly capacity)
    (hl : s.mailbox.isLeft h = true) (input : String) :
    (s.submit h input = .error .closed ↔ s.worker = .gone) ∧
      (s.submit h input = .error .queueFull ↔
        s.worker ≠ .gone ∧ s.mailbox.sender h = .parked) ∧
      ((∃ s', s.submit h input = .ok s') ↔
        s.worker ≠ .gone ∧ s.mailbox.sender h ≠ .parked) := by
  rw [submit_eq_error_iff, submit_eq_error_iff, exists_submit_eq_ok_iff]
  by_cases hgone : s.worker = .gone
  · rw [Mailbox.submit_closed (hs.closed hgone)]
    simp [hgone]
  · have hopen := (hs.live hgone).1
    rcases Mailbox.isLeft_iff.mp hl with hawake | hparked
    · obtain ⟨m, hm⟩ := Mailbox.submit_awake hopen hawake
      rw [hm, hawake]
      simp [hgone]
    · rw [Mailbox.submit_parked hopen hparked]
      simp [hgone, hparked]

theorem isOpen_iff (hs : s.Orderly capacity) :
    s.isOpen = true ↔ s.worker ≠ .gone := by
  constructor
  · intro hopen hgone
    rw [isOpen, hs.closed hgone] at hopen
    cases hopen
  · exact fun hhere => (hs.live hhere).1

end Orderly

/-! ## Runs -/

theorem Run.session_poll (r : Run) (ids : IdSource) :
    (r.poll ids).session = (r.session.poll ids).1 := by
  unfold Run.poll
  rcases r.session.poll ids with ⟨session, _ | _ | _, published⟩ <;> rfl

/-- What each operation keeps of a session, a step keeps. -/
theorem step_keeps {p : Session → Prop}
    (submit : ∀ s s' h input, p s → s.submit h input = .ok s' → p s')
    (clone : ∀ s, p s → p s.clone.1)
    (drop : ∀ s h, p s → p (s.drop h))
    (poll : ∀ s ids, p s → p (s.poll ids).1)
    (dropWorker : ∀ s, p s → p s.dropWorker)
    {r : Run} (hr : p r.session) (step : Step) :
    p (r.step step).session := by
  unfold Run.step
  split
  · cases step with
    | submit h input =>
        show p (r.submit h input).session
        unfold Run.submit
        cases hsubmit : r.session.submit h input with
        | error e => exact hr
        | ok session => exact submit _ _ h input hr hsubmit
    | clone h => exact clone _ hr
    | drop h => exact drop _ h hr
    | isOpen h => exact hr
    | poll ids =>
        show p (r.poll ids).session
        rw [Run.session_poll]
        exact poll _ ids hr
    | dropWorker => exact dropWorker _ hr
  · exact hr

theorem orderly_step {r : Run} (hr : r.session.Orderly capacity)
    (step : Step) : (r.step step).session.Orderly capacity :=
  step_keeps (fun _ _ _ _ hs hok => hs.submit hok) (fun _ hs => hs.clone)
    (fun _ h hs => hs.drop h) (fun _ ids hs => (hs.poll ids).1)
    (fun _ hs => hs.dropWorker) hr step

theorem orderly_run (registry : Registry) (initial : State) (capacity : Nat)
    (steps : List Step) :
    (Run.of ⟨registry, { capacity }, .unstarted initial⟩
      steps).session.Orderly capacity :=
  Run.of_induction (p := fun r => r.session.Orderly capacity)
    (.start registry initial capacity)
    (fun _ step hr _ => orderly_step hr step) steps

/-- A worker that is gone stays away. -/
theorem gone_step {r : Run} (hr : r.session.worker = .gone) (step : Step) :
    (r.step step).session.worker = .gone := by
  refine step_keeps (p := fun s => s.worker = .gone) ?submit (fun _ hs => hs)
    (fun _ _ hs => hs) ?poll (fun _ _ => rfl) hr step
  case submit =>
      intro s s' h input hs hok
      obtain ⟨m, -, rfl⟩ := submit_ok hok
      exact hs
  case poll =>
      intro s ids hs
      rw [poll_gone ids (Worker.state?_eq_none_iff.mpr hs)]
      exact hs

theorem gone_run {s : Session} {steps : List Step}
    (hgone : (Run.of s steps).session.worker = .gone) (steps' : List Step) :
    (Run.of s (steps ++ steps')).session.worker = .gone := by
  rw [Run.of_append]
  exact Run.foldl_induction (p := fun r => r.session.worker = .gone) hgone
    (fun _ step hr _ => gone_step hr step) steps'

/-! ## Who is refused -/

/-- After every run of a session whose worker is there, as many senders stand
in the list of those to be woken as the queue exceeds its capacity, each of
them once, and of the senders that are left those stand in it that are
parked. So a sender is refused because the mailbox is closed exactly if the
worker is gone, and because the queue is full exactly if it is parked itself,
which it is only while more than the capacity wait; and then nothing changes.
The mailbox is open exactly while the worker is there, and once closed it
stays so. A poll that leaves the worker waiting leaves nothing in the queue,
and no sender that is refused. -/
theorem refused_exactly_while_parked (registry : Registry) (initial : State)
    {capacity : Nat} (hcapacity : capacity < Mailbox.capacityLimit) :
    ∃ s, start? registry initial capacity = some s ∧
      ∀ steps : List Step,
        let r := Run.of s steps
        let m := r.session.mailbox
        (r.session.worker ≠ .gone →
          m.waiting.length = m.queue.length - capacity ∧ m.waiting.Nodup ∧
            ∀ h, m.isLeft h = true →
              (m.sender h = .parked ↔ h ∈ m.waiting)) ∧
        (∀ h input, m.isLeft h = true →
          (r.session.submit h input = .error .closed ↔
            r.session.worker = .gone) ∧
          (r.session.submit h input = .error .queueFull ↔
            r.session.worker ≠ .gone ∧ m.sender h = .parked) ∧
          ((∃ s', r.session.submit h input = .ok s') ↔
            r.session.worker ≠ .gone ∧ m.sender h ≠ .parked) ∧
          (r.session.submit h input = .error .queueFull →
            capacity < m.queue.length) ∧
          ∀ e, r.session.submit h input = .error e →
            r.step (.submit h input) = r) ∧
        (r.session.isOpen = true ↔ r.session.worker ≠ .gone) ∧
        (r.session.worker = .gone → ∀ steps' : List Step,
          let r' := Run.of s (steps ++ steps')
          r'.session.isOpen = false ∧
            ∀ h input, r'.session.mailbox.isLeft h = true →
              r'.session.submit h input = .error .closed) ∧
        ∀ ids : IdSource,
          let r' := r.step (.poll ids)
          r'.session.worker ≠ .gone →
            r'.session.mailbox.queue = [] ∧
              ∀ h input, r'.session.mailbox.isLeft h = true →
                ∃ s', r'.session.submit h input = .ok s' := by
  refine ⟨⟨registry, { capacity }, .unstarted initial⟩, by
    rw [start?, if_pos hcapacity], fun steps => ?_⟩
  intro r m
  have hr : r.session.Orderly capacity :=
    orderly_run registry initial capacity steps
  refine ⟨fun hhere => ?_, fun h input hl => ?_, hr.isOpen_iff,
    fun hgone steps' => ?_, fun ids => ?_⟩
  · have hbalanced := (hr.live hhere).2
    refine ⟨?_, hbalanced.parks.nodup, fun h hl => hbalanced.parked_iff hl⟩
    rw [← hr.capacity_eq]
    exact hbalanced.excess
  · obtain ⟨hclosed, hfull, hok⟩ := hr.submit_iff hl input
    refine ⟨hclosed, hfull, hok, fun hrefused => ?_,
      fun e hrefused => Run.step_submit_error hrefused⟩
    obtain ⟨hhere, hparked⟩ := hfull.mp hrefused
    rw [← hr.capacity_eq]
    exact (hr.live hhere).2.capacity_lt hparked
  · intro r'
    have hr' : r'.session.Orderly capacity :=
      orderly_run registry initial capacity (steps ++ steps')
    have hgone' : r'.session.worker = .gone := gone_run hgone steps'
    exact ⟨hr'.closed hgone',
      fun h input hl => (hr'.submit_iff hl input).1.mpr hgone'⟩
  · intro r' hhere
    have hr' : r'.session.Orderly capacity := orderly_step hr _
    have hqueue : r'.session.mailbox.queue = [] := by
      have hpoll : r' = r.poll ids := r.step_poll ids
      rw [hpoll, Run.session_poll] at hhere ⊢
      exact (hr.poll ids).2 hhere
    exact ⟨hqueue, fun h input hl => (hr'.submit_iff hl input).2.2.mpr
      ⟨hhere, (hr'.live hhere).2.not_parked hqueue⟩⟩

/-- Two senders of a mailbox with room for one: each is parked by an input
beyond it, the first is dropped and keeps its place in the list, and the
second is refused until the next poll. -/
theorem second_sender_waits_for_poll :
    1 < Mailbox.capacityLimit ∧
      ∃ s, start? .builtin (.fresh []) 1 = some s ∧
        let r := Run.of s [.submit 0 "echo a", .submit 0 "echo b", .clone 0,
          .submit 1 "echo c", .drop 0]
        r.session.mailbox.waiting = [0, 1] ∧
          r.session.mailbox.waiting.length =
            r.session.mailbox.queue.length - 1 ∧
          r.session.submit 1 "help" = .error .queueFull ∧
          r.step (.submit 1 "help") = r ∧
          ∃ s', (r.step (.poll EntryId.unused)).session.submit 1 "help" =
            .ok s' := by
  have hone : 1 < Mailbox.capacityLimit := by decide
  obtain ⟨s, hs, hrun⟩ :=
    refused_exactly_while_parked .builtin (.fresh []) hone
  refine ⟨hone, s, hs, ?_⟩
  intro r
  obtain ⟨hparked, hsubmit, -, -, hpoll⟩ := hrun [.submit 0 "echo a",
    .submit 0 "echo b", .clone 0, .submit 1 "echo c", .drop 0]
  cases hs
  have hhere : r.session.worker ≠ .gone := by decide +kernel
  have hleft : r.session.mailbox.isLeft 1 = true := by decide +kernel
  have hsender : r.session.mailbox.sender 1 = .parked := by decide +kernel
  obtain ⟨-, hfull, -, -, hsame⟩ := hsubmit 1 "help" hleft
  have hrefused := hfull.mpr ⟨hhere, hsender⟩
  refine ⟨by decide +kernel, (hparked hhere).1, hrefused,
    hsame _ hrefused, ?_⟩
  exact (hpoll EntryId.unused (by decide +kernel)).2 1 "help"
    (by decide +kernel)

end Session

end PageShell
