import PageShell.Session.Basic

/-!
# Runs of a session

Those who hold senders, the one who polls the worker and the one who may take
it away act in no fixed order. A run is any finite sequence of their steps,
and a `Run` is the session after it together with what can be seen from
outside on the way: the inputs whose submission was answered with ok, the
states that were published, and the state that a poll answered when the
worker was done. None of the three is read by a step; they only grow.

A sender that was given up cannot be used, so a step that names one, or a
sender there has never been, is no step at all and changes nothing. Each poll
draws identifiers from a source of its own, and since a source is told which
are taken, the identifiers drawn in a run can be any whatsoever.

The lemmas say what each operation does to the three things an invariant is
made of: the queue, whether the mailbox is open, and which senders are left.
-/

namespace PageShell

/-- Whether the sender was not given up. -/
def Sender.isLeft (s : Sender) : Bool := s ≠ .dropped

def Mailbox.isLeft (m : Mailbox) (h : Nat) : Bool := (m.sender h).isLeft

/-- The state that the worker holds, while it is there. -/
def Worker.state? : Worker → Option State
  | .unstarted state | .running state => some state
  | .gone => none

namespace Session

/-- What can be done with a session. -/
inductive Step where
  | submit (sender : Nat) (input : String)
  | clone (sender : Nat)
  | drop (sender : Nat)
  | isOpen (sender : Nat)
  | poll (ids : IdSource)
  | dropWorker

/-- The sender that a step is taken with. -/
def Step.sender? : Step → Option Nat
  | .submit h _ | .clone h | .drop h | .isOpen h => some h
  | .poll _ | .dropWorker => none

/-- Whether a step can be taken: the sender it names is left. -/
def CanTake (s : Session) (step : Step) : Prop :=
  ∀ h, step.sender? = some h → s.mailbox.isLeft h = true

theorem canTake_of_isLeft {s : Session} {step : Step} {h : Nat}
    (hs : step.sender? = some h) (hl : s.mailbox.isLeft h = true) :
    s.CanTake step := by
  intro k hk
  rw [hs] at hk
  cases hk
  exact hl

instance (s : Session) (step : Step) : Decidable (s.CanTake step) :=
  match hs : step.sender? with
  | none => .isTrue fun h hh => by rw [hs] at hh; cases hh
  | some h =>
    if hl : s.mailbox.isLeft h = true then
      .isTrue (canTake_of_isLeft hs hl)
    else
      .isFalse fun hall => hl (hall h hs)

/-- A session after some steps, and what was seen of it. -/
structure Run where
  session : Session
  /-- The inputs whose submission was answered with ok, in that order. -/
  accepted : List String := []
  /-- The published states, in order. -/
  published : List State := []
  /-- What a poll answered when the worker was done. -/
  returned : Option State := none

namespace Run

def submit (r : Run) (h : Nat) (input : String) : Run :=
  match r.session.submit h input with
  | .ok session => { r with session, accepted := r.accepted ++ [input] }
  | .error _ => r

def poll (r : Run) (ids : IdSource) : Run :=
  match r.session.poll ids with
  | (session, .done state, published) =>
    { r with
      session
      published := r.published ++ published
      returned := some state }
  | (session, _, published) =>
    { r with session, published := r.published ++ published }

def step (r : Run) (step : Step) : Run :=
  if r.session.CanTake step then
    match step with
    | .submit h input => r.submit h input
    | .clone _ => { r with session := r.session.clone.1 }
    | .drop h => { r with session := r.session.drop h }
    | .isOpen _ => r
    | .poll ids => r.poll ids
    | .dropWorker => { r with session := r.session.dropWorker }
  else
    r

theorem step_submit_ok {r : Run} {h : Nat} {input : String} {s : Session}
    (hl : r.session.mailbox.isLeft h = true)
    (hok : r.session.submit h input = .ok s) :
    r.step (.submit h input) =
      { r with session := s, accepted := r.accepted ++ [input] } := by
  refine (if_pos (canTake_of_isLeft rfl hl)).trans ?_
  show r.submit h input = _
  rw [submit, hok]

/-- A submission that is refused changes nothing. -/
theorem step_submit_error {r : Run} {h : Nat} {input : String}
    {e : SessionError} (hrefused : r.session.submit h input = .error e) :
    r.step (.submit h input) = r := by
  unfold step
  split
  · show r.submit h input = r
    rw [submit, hrefused]
  · rfl

theorem step_poll (r : Run) (ids : IdSource) :
    r.step (.poll ids) = r.poll ids :=
  if_pos fun h hh => by cases hh

/-- The run of some steps from a session. -/
def of (s : Session) (steps : List Step) : Run :=
  steps.foldl step { session := s }

/-- What holds of a run and is kept by every step that can be taken holds
however the run goes on. -/
theorem foldl_induction {p : Run → Prop} {r : Run} (start : p r)
    (keep : ∀ r step, p r → r.session.CanTake step → p (r.step step))
    (steps : List Step) : p (steps.foldl step r) := by
  induction steps generalizing r with
  | nil => exact start
  | cons st steps ih =>
      refine ih ?_
      by_cases hcan : r.session.CanTake st
      · exact keep r st start hcan
      · unfold step
        rw [if_neg hcan]
        exact start

/-- What holds at first and is kept by every step that can be taken holds
after every run. -/
theorem of_induction {p : Run → Prop} {s : Session}
    (start : p { session := s })
    (keep : ∀ r step, p r → r.session.CanTake step → p (r.step step))
    (steps : List Step) : p (of s steps) :=
  foldl_induction start keep steps

theorem of_append (s : Session) (steps steps' : List Step) :
    of s (steps ++ steps') = steps'.foldl step (of s steps) :=
  List.foldl_append

end Run

end Session

/-! ## The mailbox

Waking and parking pass between `awake` and `parked` only, so they leave the
list `left` alone; `hasSenders` is read off it. -/

@[simp] theorem Sender.isLeft_woken (s : Sender) :
    s.woken.isLeft = s.isLeft := by
  cases s <;> rfl

namespace Mailbox

/-- For each sender there has ever been, whether it is left. -/
def left (m : Mailbox) : List Bool := m.senders.map Sender.isLeft

theorem hasSenders_eq (m : Mailbox) : m.hasSenders = m.left.any id := by
  simp only [hasSenders, left, List.any_map]
  rfl

theorem isLeft_eq (m : Mailbox) (h : Nat) :
    m.isLeft h = m.left.getD h false := by
  simp only [isLeft, sender, left, List.getD_eq_getElem?_getD,
    List.getElem?_map]
  cases m.senders[h]? <;> rfl

theorem hasSenders_of_isLeft {m : Mailbox} {h : Nat}
    (hl : m.isLeft h = true) : m.hasSenders = true := by
  rw [isLeft_eq, List.getD_eq_getElem?_getD] at hl
  rw [hasSenders_eq, List.any_eq_true]
  cases hb : m.left[h]? with
  | none => rw [hb] at hl; cases hl
  | some b =>
      rw [hb] at hl
      exact ⟨b, List.mem_of_getElem? hb, hl⟩

/-- Another state of a sender, left as before, changes nothing here. -/
theorem map_isLeft_set {senders : List Sender} {h : Nat} {s : Sender}
    (hs : s.isLeft = (senders.getD h .dropped).isLeft) :
    (senders.set h s).map Sender.isLeft = senders.map Sender.isLeft := by
  rw [List.map_set]
  rcases Nat.lt_or_ge h senders.length with hlt | hge
  · rw [List.getD_eq_getElem?_getD, List.getElem?_eq_getElem hlt] at hs
    have hlen : h < (senders.map Sender.isLeft).length := by
      rwa [List.length_map]
    have hget : (senders.map Sender.isLeft)[h] = s.isLeft := by
      rw [List.getElem_map, hs]
      rfl
    rw [← hget, List.set_getElem_self]
  · rw [List.set_eq_of_length_le (by rwa [List.length_map])]

@[simp] theorem left_wake (m : Mailbox) : m.wake.left = m.left := by
  unfold wake
  split
  · rfl
  · exact map_isLeft_set (by rw [Sender.isLeft_woken]; rfl)

@[simp] theorem isOpen_wake (m : Mailbox) : m.wake.isOpen = m.isOpen := by
  unfold wake
  split <;> rfl

@[simp] theorem left_close (m : Mailbox) : m.close.left = m.left := by
  simp [left, close, Function.comp_def]

theorem receive_eq_none {m : Mailbox} (h : m.receive = none) :
    m.queue = [] := by
  unfold receive at h
  split at h
  · assumption
  · cases h

theorem receive_ok {m m' : Mailbox} {input : String}
    (h : m.receive = some (input, m')) :
    m'.isOpen = m.isOpen ∧ m'.left = m.left := by
  unfold receive at h
  split at h
  · cases h
  · simp only [Option.some.injEq, Prod.mk.injEq] at h
    rw [← h.2, isOpen_wake, left_wake]
    exact ⟨rfl, rfl⟩

/-- A submission that is taken: the mailbox is open, and the input joins the
end of the queue. Whether its sender is parked for it is not said here. -/
theorem submit_ok {m m' : Mailbox} {h : Nat} {input : String}
    (hok : m.submit h input = .ok m') :
    m.isOpen = true ∧ m'.isOpen = true ∧ m'.queue = m.queue ++ [input] ∧
      m'.left = m.left := by
  unfold submit at hok
  split at hok
  · cases hok
  · next hopen =>
      have hopen : m.isOpen = true := by simpa using hopen
      split at hok
      · cases hok
      · cases hok
      · next hawake =>
          simp only at hok
          split at hok
          · cases hok
            exact ⟨hopen, hopen, rfl, rfl⟩
          · cases hok
            refine ⟨hopen, hopen, rfl, map_isLeft_set ?_⟩
            rw [← Mailbox.sender, hawake]
            rfl

theorem hasSenders_drop {m : Mailbox} {h : Nat} (hm : m.hasSenders = false) :
    (m.drop h).hasSenders = false := by
  simp only [hasSenders, drop, List.any_eq_false] at hm ⊢
  intro s hs
  rcases List.mem_or_eq_of_mem_set hs with hs | rfl
  · exact hm s hs
  · decide

end Mailbox

end PageShell
