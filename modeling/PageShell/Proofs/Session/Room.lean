import Mathlib.Data.List.Perm.Subperm
import PageShell.Proofs.Session.Parking

/-!
# How much can wait

Every sender has room for one input beyond the capacity, so it is tempting to
bound the queue by the capacity and the most senders that were ever there at
once. That bound fails. The room of a sender that is given up is not given
back until the worker takes an input, while its copy comes with room of its
own; so copies that are made, used and given up in turn lengthen the queue by
one each, without end, and never more than two senders are there at once.

What does bound the queue counts the copies. Look at the last time nothing
waited: nobody was to be woken then, and whoever waits to be woken now was
there at that time or has been copied since (`Mailbox.Since`). Each of them is
in the list once, and the list is as long as the queue exceeds its capacity.
-/

namespace PageShell

namespace Mailbox

variable {m₀ m m' : Mailbox} {h : Nat} {input : String}

/-- How many senders are left. -/
def leftCount (m : Mailbox) : Nat := m.left.count true

theorem length_left (m : Mailbox) : m.left.length = m.senders.length := by
  rw [left, List.length_map]

theorem left_clone (m : Mailbox) : m.clone.1.left = m.left ++ [true] := by
  show (m.senders ++ [Sender.awake]).map Sender.isLeft = _
  rw [List.map_append]
  rfl

theorem left_drop (m : Mailbox) (h : Nat) :
    (m.drop h).left = m.left.set h false := by
  show (m.senders.set h .dropped).map Sender.isLeft = _
  rw [List.map_set]
  rfl

theorem waiting_receive (hok : m.receive = some (input, m')) :
    m'.waiting = m.waiting.tail := by
  unfold receive at hok
  split at hok
  · cases hok
  · cases hok
    unfold wake
    split
    · next hnil =>
        have hnil : m.waiting = [] := hnil
        rw [hnil]
        rfl
    · next hcons =>
        have hcons : m.waiting = _ :: _ := hcons
        rw [hcons]
        rfl

/-! ## Who can wait -/

/-- The senders that can act from now on: those that are left, and those that
are yet to be made. -/
def MayAct (m : Mailbox) (h : Nat) : Prop :=
  m.isLeft h = true ∨ m.left.length ≤ h

/-- What can become of a mailbox in which nobody waits to be woken. -/
structure Since (m₀ m : Mailbox) : Prop where
  length_le : m₀.left.length ≤ m.left.length
  left : ∀ h, m.isLeft h = true → m₀.MayAct h
  waiting : ∀ h ∈ m.waiting, m₀.MayAct h

namespace Since

theorem refl (hm : m.waiting = []) : Since m m := by
  refine ⟨Nat.le_refl _, fun h hl => .inl hl, fun h hmem => ?_⟩
  rw [hm] at hmem
  cases hmem

/-- The senders stay, and whoever joins the list may act. -/
theorem of_left_eq (hm : Since m₀ m) (hleft : m'.left = m.left)
    (hwaiting : ∀ h ∈ m'.waiting, m₀.MayAct h) : Since m₀ m' := by
  refine ⟨?_, fun h hl => hm.left h ?_, hwaiting⟩
  · rw [hleft]
    exact hm.length_le
  · rwa [isLeft_eq, ← hleft, ← isLeft_eq]

theorem submit (hm : Since m₀ m) (hok : m.submit h input = .ok m') :
    Since m₀ m' := by
  refine hm.of_left_eq (submit_ok hok).2.2.2 fun k hk => ?_
  obtain ⟨-, hawake, ⟨-, rfl⟩ | ⟨-, rfl⟩⟩ := submit_cases hok
  · exact hm.waiting k hk
  · rcases List.mem_append.mp hk with hk | hk
    · exact hm.waiting k hk
    · rw [List.mem_singleton.mp hk]
      exact hm.left h (isLeft_iff.mpr (.inl hawake))

theorem receive (hm : Since m₀ m) (hok : m.receive = some (input, m')) :
    Since m₀ m' := by
  refine hm.of_left_eq (receive_ok hok).2 fun k hk => ?_
  rw [waiting_receive hok] at hk
  exact hm.waiting k (List.mem_of_mem_tail hk)

theorem close (hm : Since m₀ m) : Since m₀ m.close :=
  hm.of_left_eq (left_close m) fun _ hk => absurd hk List.not_mem_nil

theorem drop (hm : Since m₀ m) (h : Nat) : Since m₀ (m.drop h) := by
  refine ⟨?_, fun k hk => hm.left k ?_, hm.waiting⟩
  · rw [left_drop, List.length_set]
    exact hm.length_le
  · by_cases heq : h = k
    · subst heq
      rw [isLeft, sender, Mailbox.drop, Parks.getD_set] at hk
      split at hk
      · cases hk
      · exact hk
    · rwa [isLeft, sender, Mailbox.drop, Parks.getD_set,
        if_neg fun hand => heq hand.1] at hk

theorem clone (hm : Since m₀ m) : Since m₀ m.clone.1 := by
  have hle := hm.length_le
  refine ⟨?_, fun k hk => ?_, hm.waiting⟩
  · rw [left_clone, List.length_append]
    omega
  · rcases Nat.lt_or_ge k m.left.length with hlt | hge
    · refine hm.left k ?_
      rw [isLeft_eq, left_clone, List.getD_append _ _ _ _ hlt] at hk
      rwa [isLeft_eq]
    · exact .inr (Nat.le_trans hle hge)

end Since

theorem length_filter_isLeft (m : Mailbox) :
    ((List.range m.left.length).filter m.isLeft).length = m.leftCount := by
  have hleft : (List.range m.left.length).map m.isLeft = m.left := by
    refine List.ext_getElem (by simp) fun k _ hk => ?_
    rw [List.getElem_map, List.getElem_range, isLeft_eq,
      List.getD_eq_getElem _ _ hk]
  have hcount := congrArg (List.count true) hleft
  rw [List.count_eq_countP, List.countP_map,
    List.countP_eq_length_filter] at hcount
  rw [leftCount, ← hcount]
  congr 2
  funext h
  simp

/-- Those who wait to be woken are no more than the senders there were and
the copies made since. -/
theorem Since.length_waiting_le (hm : Since m₀ m)
    (hp : Parks m.senders m.waiting) :
    m.waiting.length ≤
      m₀.leftCount + (m.senders.length - m₀.senders.length) := by
  rw [← length_left, ← length_left]
  have hsubset : m.waiting ⊆
      (List.range m₀.left.length).filter m₀.isLeft ++
        List.range' m₀.left.length (m.left.length - m₀.left.length) := by
    intro h hmem
    have hlt := hp.known h hmem
    rw [← length_left] at hlt
    have hle := hm.length_le
    rw [List.mem_append, List.mem_filter, List.mem_range, List.mem_range'_1]
    rcases hm.waiting h hmem with hl | hge
    · refine .inl ⟨?_, hl⟩
      rw [length_left]
      exact Parks.lt_of_isLeft hl
    · exact .inr ⟨hge, by omega⟩
  have hlen := (List.subperm_of_subset hp.nodup hsubset).length_le
  rwa [List.length_append, length_filter_isLeft, List.length_range'] at hlen

/-- A copy of a sender has an input taken, whatever waits already. -/
theorem submit_clone (hopen : m.isOpen = true) (input : String) :
    ∃ m', m.clone.1.submit m.left.length input = .ok m' ∧ m'.isOpen = true ∧
      m'.queue = m.queue ++ [input] ∧ m'.left = m.left ++ [true] := by
  have hawake : m.clone.1.sender m.left.length = .awake := by
    show (m.senders ++ [Sender.awake]).getD _ _ = _
    rw [length_left, List.getD_append_right _ _ _ _ (Nat.le_refl _),
      Nat.sub_self]
    rfl
  obtain ⟨m', hm⟩ : ∃ m', m.clone.1.submit m.left.length input = .ok m' :=
    submit_awake hopen hawake
  obtain ⟨-, hopen', hqueue, hleft⟩ := submit_ok hm
  exact ⟨m', hm, hopen', hqueue, hleft.trans (left_clone m)⟩

end Mailbox

namespace Session

open Mailbox (Since)

variable {m₀ : Mailbox}

/-- What each input taken keeps of a mailbox, and closing it, a poll keeps. -/
theorem poll_keeps {p : Mailbox → Prop}
    (receive : ∀ m m' input, p m → m.receive = some (input, m') → p m')
    (close : ∀ m, p m → p m.close) {s : Session} (hs : p s.mailbox)
    (ids : IdSource) : p (s.poll ids).1.mailbox := by
  cases hstate : s.worker.state? with
  | none =>
      rw [poll_gone ids hstate]
      exact hs
  | some state =>
      obtain ⟨m, published, hdrain, hpolled⟩ := poll_here ids hstate
      have hm := drain_keeps receive s.registry ids hs state
      rw [hdrain] at hm
      rcases hpolled with ⟨-, hpoll⟩ | ⟨-, hpoll⟩
      · rw [hpoll]
        exact hm
      · rw [hpoll]
        exact close m hm

theorem since_step {r : Run} (hr : Since m₀ r.session.mailbox) (step : Step) :
    Since m₀ (r.step step).session.mailbox := by
  refine step_keeps (p := fun s => Since m₀ s.mailbox) ?submit
    (fun _ hs => hs.clone) (fun _ h hs => hs.drop h) ?poll
    (fun _ hs => hs.close) hr step
  case submit =>
      intro s s' h input hs hok
      obtain ⟨m, hm, rfl⟩ := submit_ok hok
      exact hs.submit hm
  case poll =>
      intro s ids hs
      exact poll_keeps (fun _ _ _ hm hok => hm.receive hok)
        (fun _ hm => hm.close) hs ids

theorem since_run {s : Session} {before : List Step}
    (hwaiting : (Run.of s before).session.mailbox.waiting = [])
    (after : List Step) :
    Since (Run.of s before).session.mailbox
      (Run.of s (before ++ after)).session.mailbox := by
  rw [Run.of_append]
  exact Run.foldl_induction (p := fun r => Since _ r.session.mailbox)
    (.refl hwaiting) (fun _ step hr _ => since_step hr step) after

/-! ## Copies in turn -/

/-- The most senders that are left at once while some steps are taken. -/
def Run.peak (r : Run) : List Step → Nat
  | [] => r.session.mailbox.leftCount
  | step :: steps => max r.session.mailbox.leftCount ((r.step step).peak steps)

theorem Run.peak_append (r : Run) (steps steps' : List Step) :
    r.peak (steps ++ steps') =
      max (r.peak steps) ((steps.foldl Run.step r).peak steps') := by
  induction steps generalizing r with
  | nil =>
      rw [List.nil_append, peak]
      cases steps' with
      | nil => exact (Nat.max_self _).symm
      | cons step steps' => rw [List.foldl_nil, peak]; omega
  | cons step steps ih =>
      rw [List.cons_append, peak, peak, ih, List.foldl_cons, Nat.max_assoc]

/-- A copy of the first sender, at the given place, is made, used once and
given up. -/
def turn (h : Nat) : List Step := [.clone 0, .submit h "help", .drop h]

def turns : Nat → List Step
  | 0 => []
  | n + 1 => turns n ++ turn (n + 1)

/-- After some turns the first sender alone is left, and an input of each
turn waits. -/
structure Run.Turned (r : Run) (n : Nat) : Prop where
  isOpen : r.session.mailbox.isOpen = true
  left : r.session.mailbox.left = true :: List.replicate n false
  length_queue : r.session.mailbox.queue.length = n
  here : r.session.worker ≠ .gone

theorem Run.Turned.leftCount {r : Run} {n : Nat} (hr : r.Turned n) :
    r.session.mailbox.leftCount = 1 := by
  rw [Mailbox.leftCount, hr.left, List.count_cons_self, List.count_replicate]
  rfl

/-- The three steps of one more turn. The first sender is left throughout,
and the copy until it is given up. -/
theorem Run.Turned.steps {r : Run} {n : Nat} (hr : r.Turned n) :
    ∃ r₁ r₂ r₃ : Run,
      r.step (.clone 0) = r₁ ∧ r₁.session.mailbox.leftCount = 2 ∧
      r₁.step (.submit (n + 1) "help") = r₂ ∧
      r₂.session.mailbox.leftCount = 2 ∧
      r₂.step (.drop (n + 1)) = r₃ ∧ r₃.Turned (n + 1) := by
  have hlen : r.session.mailbox.left.length = n + 1 := by
    rw [hr.left, List.length_cons, List.length_replicate]
  -- Who is left once the copy is made, which its submission does not change.
  have hboth : r.session.mailbox.left ++ [true] =
      true :: (List.replicate n false ++ [true]) := by
    rw [hr.left, List.cons_append]
  have hcount : (r.session.mailbox.left ++ [true]).count true = 2 := by
    rw [hboth]
    simp [List.count_replicate]
  have hcopy : (r.session.mailbox.left ++ [true]).getD (n + 1) false =
      true := by
    rw [← hlen, List.getD_append_right _ _ _ _ (Nat.le_refl _), Nat.sub_self]
    rfl
  obtain ⟨m, hm, hopen, hqueue, hleft⟩ :=
    Mailbox.submit_clone hr.isOpen "help"
  rw [hlen] at hm
  have hleft' := Mailbox.left_clone r.session.mailbox
  refine ⟨_, _, _, if_pos (canTake_of_isLeft rfl ?_), ?_,
    step_submit_ok ?_ (submit_of_mailbox hm), ?_,
    if_pos (canTake_of_isLeft rfl ?_), hopen, ?_, ?_, hr.here⟩
  · rw [Mailbox.isLeft_eq, hr.left]
    rfl
  · exact (congrArg (List.count true) hleft').trans hcount
  · rw [Mailbox.isLeft_eq]
    exact (congrArg (·.getD (n + 1) false) hleft').trans hcopy
  · exact (congrArg (List.count true) hleft).trans hcount
  · rw [Mailbox.isLeft_eq]
    exact (congrArg (·.getD (n + 1) false) hleft).trans hcopy
  · show (m.drop (n + 1)).left = true :: List.replicate (n + 1) false
    rw [Mailbox.left_drop, hleft, hboth]
    simp [List.replicate_succ']
  · show m.queue.length = n + 1
    rw [hqueue, List.length_append, hr.length_queue, List.length_singleton]

/-- One more turn. In the middle of it two senders are left. -/
theorem Run.Turned.turn {r : Run} {n : Nat} (hr : r.Turned n) :
    ((turn (n + 1)).foldl Run.step r).Turned (n + 1) ∧
      r.peak (Session.turn (n + 1)) ≤ 2 := by
  obtain ⟨r₁, r₂, r₃, hclone, hcount₁, hsubmit, hcount₂, hdrop, hr₃⟩ :=
    hr.steps
  constructor
  · rw [Session.turn, List.foldl_cons, hclone, List.foldl_cons, hsubmit,
      List.foldl_cons, hdrop, List.foldl_nil]
    exact hr₃
  · rw [Session.turn, peak, hclone, peak, hsubmit, peak, hdrop, peak,
      hr.leftCount, hcount₁, hcount₂, hr₃.leftCount]
    decide

theorem turned_turns (registry : Registry) (initial : State)
    (capacity n : Nat) :
    let s : Session := ⟨registry, { capacity }, .unstarted initial⟩
    (Run.of s (turns n)).Turned n ∧
      Run.peak { session := s } (turns n) ≤ 2 := by
  intro s
  induction n with
  | zero =>
      exact ⟨⟨rfl, rfl, rfl, fun hgone => by cases hgone⟩,
        Nat.le_succ 1⟩
  | succ n ih =>
      obtain ⟨hturned, hpeak⟩ := ih
      obtain ⟨hturned', hpeak'⟩ := hturned.turn
      rw [turns, Run.of_append, Run.peak_append]
      exact ⟨hturned', Nat.max_le.mpr ⟨hpeak, hpeak'⟩⟩

/-! ## The bound -/

/-- Since the last time that nothing waited, each sender that was left then,
and each copy made since, has had room for one input beyond the capacity; no
more than that waits while the worker is there. No bound in terms of the
senders that are there at once would do: with two of them at most, any number
of inputs can be made to wait. -/
theorem every_copy_has_room (registry : Registry) (initial : State)
    {capacity : Nat} (hcapacity : capacity < Mailbox.capacityLimit) :
    ∃ s, start? registry initial capacity = some s ∧
      (∀ before after : List Step,
        let m₀ := (Run.of s before).session.mailbox
        let r := Run.of s (before ++ after)
        m₀.queue = [] → r.session.worker ≠ .gone →
          r.session.mailbox.queue.length ≤ capacity + m₀.leftCount +
            (r.session.mailbox.senders.length - m₀.senders.length)) ∧
      ∀ n, ∃ steps : List Step,
        let r := Run.of s steps
        Run.peak { session := s } steps ≤ 2 ∧ r.session.worker ≠ .gone ∧
          r.session.mailbox.queue.length = n := by
  refine ⟨⟨registry, { capacity }, .unstarted initial⟩, by
    rw [start?, if_pos hcapacity], fun before after => ?_, fun n => ?_⟩
  · intro m₀ r hempty hhere
    have hr₀ : (Run.of _ before).session.Orderly capacity :=
      orderly_run registry initial capacity before
    have hr : r.session.Orderly capacity :=
      orderly_run registry initial capacity (before ++ after)
    have hbalanced := (hr.live hhere).2
    have hexcess := hbalanced.excess
    rw [hr.capacity_eq] at hexcess
    -- Nobody is to be woken while nothing waits.
    have hwaiting : m₀.waiting = [] := by
      have hhere₀ : (Run.of _ before).session.worker ≠ .gone :=
        fun hgone => hhere (gone_run hgone after)
      have hexcess₀ := (hr₀.live hhere₀).2.excess
      rw [hempty, List.length_nil, Nat.zero_sub] at hexcess₀
      exact List.length_eq_zero_iff.mp hexcess₀
    have hle := (since_run hwaiting after).length_waiting_le hbalanced.parks
    change r.session.mailbox.waiting.length ≤ m₀.leftCount +
      (r.session.mailbox.senders.length - m₀.senders.length) at hle
    omega
  · obtain ⟨hturned, hpeak⟩ := turned_turns registry initial capacity n
    exact ⟨turns n, hpeak, hturned.here, hturned.length_queue⟩

/-- After a poll two senders are left and one copy is made: each of the three
has one input taken beyond a capacity of none, and the bound is met. Yet two
senders can make five inputs wait. -/
theorem room_of_two_and_a_copy :
    0 < Mailbox.capacityLimit ∧
      ∃ s, start? .builtin (.fresh []) 0 = some s ∧
        let before : List Step := [.submit 0 "echo a", .clone 0,
          .poll EntryId.unused]
        let after : List Step := [.submit 0 "echo b", .submit 1 "echo c",
          .clone 1, .submit 2 "echo d"]
        let m₀ := (Run.of s before).session.mailbox
        let r := Run.of s (before ++ after)
        m₀.queue = [] ∧ r.session.worker ≠ .gone ∧
          r.session.mailbox.queue = ["echo b", "echo c", "echo d"] ∧
          r.session.mailbox.queue.length ≤ 0 + m₀.leftCount +
            (r.session.mailbox.senders.length - m₀.senders.length) ∧
          0 + m₀.leftCount +
            (r.session.mailbox.senders.length - m₀.senders.length) = 3 ∧
          ∃ steps : List Step, Run.peak { session := s } steps ≤ 2 ∧
            (Run.of s steps).session.mailbox.queue.length = 5 := by
  have hzero : 0 < Mailbox.capacityLimit := by decide
  obtain ⟨s, hs, hbound, hany⟩ :=
    every_copy_has_room .builtin (.fresh []) hzero
  refine ⟨hzero, s, hs, ?_⟩
  intro before after m₀ r
  have hle := hbound before after
  obtain ⟨steps, hpeak, -, hlen⟩ := hany 5
  cases hs
  have hempty : m₀.queue = [] := by decide +kernel
  have hhere : r.session.worker ≠ .gone := by decide +kernel
  exact ⟨hempty, hhere, by decide +kernel, hle hempty hhere,
    by decide +kernel, steps, hpeak, hlen⟩

/-- The senders that were ever left at once do not bound what waits: with two
of them at most, three inputs wait beyond a capacity of none. -/
theorem queue_outgrows_peak :
    ¬ ∀ (registry : Registry) (initial : State) (capacity : Nat),
      capacity < Mailbox.capacityLimit →
        ∀ s, start? registry initial capacity = some s →
          ∀ steps : List Step, (Run.of s steps).session.worker ≠ .gone →
            (Run.of s steps).session.mailbox.queue.length ≤
              capacity + Run.peak { session := s } steps := by
  intro hbound
  have hle := hbound .builtin (.fresh []) 0 (by decide) _ rfl
    [.clone 0, .submit 1 "echo a", .drop 1,
      .clone 0, .submit 2 "echo b", .drop 2, .clone 0, .submit 3 "echo c"]
    (by decide +kernel)
  revert hle
  decide +kernel

end Session

end PageShell
