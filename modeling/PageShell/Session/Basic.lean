import PageShell.History.State
import PageShell.Session.Mailbox

/-!
# Sessions

A session is a mailbox and the one worker that empties it. The worker owns the
state: it takes the inputs one at a time, carries the state on by each of them
and publishes the result, so no two inputs are ever run from the same state. It
runs when it is polled, and a poll takes all that waits. Once every sender is
given up and the queue is empty the worker is done; it then says how long the
history became.

Identifiers of new entries come from a source, a function that is told which are
taken.
-/

namespace PageShell

/-- Finds an identifier for a new entry, given those that are taken. -/
abbrev IdSource := List EntryId → EntryId

inductive Worker where
  /-- Not polled yet. -/
  | unstarted (state : State)
  | running (state : State)
  /-- Done, or taken away. -/
  | gone
deriving DecidableEq

/-- A session: its command table, its mailbox and its worker. -/
structure Session where
  registry : Registry
  mailbox : Mailbox
  worker : Worker

/-- What a poll comes to. -/
inductive Polled where
  /-- The worker waits for more inputs. -/
  | pending
  /-- The worker is done, with the given state. -/
  | done (state : State)
  /-- There is no worker any more. -/
  | gone
deriving DecidableEq

/-- What a session says in the log. -/
inductive Note where
  /-- The worker is done; the history has this many entries. -/
  | sessionClosed (entries : Nat)
  /-- An input was not taken. -/
  | inputDropped (cause : SessionError)
  /-- A state was published when the view was gone. -/
  | snapshotDropped
deriving DecidableEq

def Note.message : Note → String
  | .sessionClosed entries =>
    "shell session closed after " ++ String.ofList (Nat.toDigits 10 entries) ++
      " entries"
  | .inputDropped cause => "shell input dropped: " ++ cause.message
  | .snapshotDropped => "shell view disposed; dropping snapshot"

/-- What is said in the log when a poll comes to its end. -/
def Polled.notes : Polled → List Note
  | .done state => [.sessionClosed state.history.length]
  | .pending | .gone => []

namespace Session

/-- A session with one sender, whose worker starts from the given state. A
mailbox of too great a capacity cannot be made. -/
def start? (registry : Registry) (initial : State) (capacity : Nat) :
    Option Session :=
  if capacity < Mailbox.capacityLimit then
    some { registry, mailbox := { capacity }, worker := .unstarted initial }
  else
    none

/-- What is said when a session cannot be started. -/
def tooLargeMessage : String := "requested buffer size too large"

def submit (s : Session) (h : Nat) (input : String) :
    Except SessionError Session := do
  let mailbox ← s.mailbox.submit h input
  .ok { s with mailbox }

def isOpen (s : Session) : Bool := s.mailbox.isOpen

def clone (s : Session) : Session × Nat :=
  let (mailbox, h) := s.mailbox.clone
  ({ s with mailbox }, h)

def drop (s : Session) (h : Nat) : Session :=
  { s with mailbox := s.mailbox.drop h }

/-- Takes the worker away, with all that it has not run. -/
def dropWorker (s : Session) : Session :=
  { s with mailbox := s.mailbox.close, worker := .gone }

/-- Runs the inputs that wait, one after the other; answers the mailbox that is
left and the states in the order in which they are published. -/
def drain (registry : Registry) (ids : IdSource) (m : Mailbox) (state : State) :
    Mailbox × List State :=
  match h : m.receive with
  | none => (m, [])
  | some (input, m') =>
    have : m'.queue.length < m.queue.length := by
      rw [Mailbox.queue_receive h]
      simp
    let state := registry.advance (ids state.ids) state input
    let (m, published) := drain registry ids m' state
    (m, state :: published)
termination_by m.queue.length

/-- Polls the worker: it runs all that waits, and is done if no sender is
left. -/
def poll (s : Session) (ids : IdSource) : Session × Polled × List State :=
  match s.worker with
  | .gone => (s, .gone, [])
  | .unstarted state | .running state =>
    let (mailbox, published) := drain s.registry ids s.mailbox state
    let state := published.getLast?.getD state
    if mailbox.hasSenders then
      ({ s with mailbox, worker := .running state }, .pending, published)
    else
      ({ s with mailbox := mailbox.close, worker := .gone }, .done state,
        published)

end Session

end PageShell
