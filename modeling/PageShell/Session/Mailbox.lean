/-!
# A bounded mailbox with many senders

Inputs wait in one queue, oldest first, for the one who receives them. The
mailbox is bounded, but not by refusing the input that would exceed its
capacity: that input is still taken, and its sender is parked. A parked sender
is refused until the receiver wakes it, and the receiver wakes one sender with
each input it takes, in the order in which they were parked. So every sender has
room for one input of its own beyond the shared capacity.

A sender that is given up leaves its place among the parked ones behind, and the
wake that comes to it is spent. A copy of a sender starts out awake. When the
receiver goes away the mailbox is closed for good, and nobody is parked in a
closed mailbox.
-/

namespace PageShell

/-- What a sender may do. -/
inductive Sender where
  | awake
  | parked
  | dropped
deriving DecidableEq

/-- A parked sender that is woken; any other stays as it is. -/
def Sender.woken : Sender → Sender
  | .awake | .parked => .awake
  | .dropped => .dropped

/-- Why an input is not taken. -/
inductive SessionError where
  | queueFull
  | closed
deriving DecidableEq

def SessionError.message : SessionError → String
  | .queueFull => "shell input queue is full"
  | .closed => "shell session is closed"

structure Mailbox where
  capacity : Nat
  /-- Whether the receiver is there. -/
  isOpen : Bool := true
  /-- The inputs that wait, oldest first. -/
  queue : List String := []
  /-- The senders to be woken, in order. -/
  waiting : List Nat := []
  /-- All senders there have ever been; a sender is known by its place. -/
  senders : List Sender := [.awake]
deriving DecidableEq

namespace Mailbox

/-- The capacity from which on a mailbox cannot be made: `2^62 - 1`. -/
def capacityLimit : Nat := 4611686018427387903

/-- The sender at a place; there is none beyond those there have been. -/
def sender (m : Mailbox) (h : Nat) : Sender := m.senders.getD h .dropped

/-- Whether any sender is left. -/
def hasSenders (m : Mailbox) : Bool := m.senders.any (· ≠ .dropped)

/-- Puts an input into the queue, and parks the sender if more than the capacity
are waiting. -/
def submit (m : Mailbox) (h : Nat) (input : String) :
    Except SessionError Mailbox :=
  if !m.isOpen then .error .closed
  else
    match m.sender h with
    | .dropped => .error .closed
    | .parked => .error .queueFull
    | .awake =>
      let queue := m.queue ++ [input]
      if queue.length ≤ m.capacity then .ok { m with queue }
      else
        .ok { m with
          queue, waiting := m.waiting ++ [h]
          senders := m.senders.set h .parked }

/-- Adds a copy of a sender; answers the place of the new one. -/
def clone (m : Mailbox) : Mailbox × Nat :=
  ({ m with senders := m.senders ++ [.awake] }, m.senders.length)

def drop (m : Mailbox) (h : Nat) : Mailbox :=
  { m with senders := m.senders.set h .dropped }

/-- Wakes the sender that has been parked longest. -/
def wake (m : Mailbox) : Mailbox :=
  match m.waiting with
  | [] => m
  | h :: waiting =>
    { m with waiting, senders := m.senders.set h (m.sender h).woken }

/-- Takes the oldest input, and wakes a sender. -/
def receive (m : Mailbox) : Option (String × Mailbox) :=
  match m.queue with
  | [] => none
  | input :: queue => some (input, { m with queue }.wake)

def close (m : Mailbox) : Mailbox :=
  { m with
    isOpen := false
    queue := []
    waiting := []
    senders := m.senders.map Sender.woken }

@[simp] theorem queue_wake (m : Mailbox) : m.wake.queue = m.queue := by
  unfold wake
  split <;> rfl

theorem queue_receive {m m' : Mailbox} {input : String}
    (h : m.receive = some (input, m')) : m.queue = input :: m'.queue := by
  unfold receive at h
  split at h
  · cases h
  · next queue heq =>
    simp only [Option.some.injEq, Prod.mk.injEq] at h
    rw [heq, ← h.1, ← h.2]
    simp

end Mailbox

end PageShell
