import PageShell.Command.Builtin
import PageShell.Config
import PageShell.Session.Basic

/-!
# The host of a shell on a page

The host owns a session over the site's commands and shows its latest state. It
is mounted with a history, which may be one of an earlier session; if there is
none, the startup lines of the configuration are submitted first. Lines are
submitted through the host's one sender, and what cannot be submitted is dropped
with a note in the log.

When the page is left the host is disposed of: its sender is given up and
nothing is shown any more, but the inputs that wait are still run before the
worker ends.
-/

namespace PageShell

structure Host where
  config : Config
  session : Session
  /-- The state that is shown, until the host is disposed of. -/
  shown : Option State

namespace Host

/-- The configuration that comes with the page. -/
def embeddedSource : String :=
  String.join <| List.map (· ++ "\n") [
    "# Prompt identity and the commands a fresh session runs on mount.",
    "user = \"world\"",
    "host = \"jaylee.xyz\"",
    "initial_cwd = []",
    "startup = [\"fetch\", \"news\", \"help\"]",
    "queue_capacity = 16"]

/-- Submits a line. -/
def run (host : Host) (input : String) : Host × List Note :=
  match host.session.submit 0 input with
  | .ok session => ({ host with session }, [])
  | .error cause => (host, [.inputDropped cause])

/-- Submits lines one after the other. -/
def runAll (host : Host) : List String → Host × List Note
  | [] => (host, [])
  | input :: inputs =>
    let (host, notes) := host.run input
    let (host, more) := host.runAll inputs
    (host, notes ++ more)

/-- Mounts a host with a configuration and a history; there is none if the
session cannot be started. -/
def mount? (config : Config) (history : List Entry) :
    Option (Host × List Note) := do
  let initial : State := { cursor := config.initialCursor, history }
  let session ← Session.start? Registry.builtin initial config.queueCapacity
  let host : Host := { config, session, shown := some initial }
  some (if history = [] then host.runAll config.startup else (host, []))

/-- Lets the worker run what waits. -/
def settle (host : Host) (ids : IdSource) : Host × List Note :=
  let (session, polled, published) := host.session.poll ids
  match host.shown with
  | some state =>
    ({ host with session, shown := some (published.getLast?.getD state) },
      polled.notes)
  | none =>
    ({ host with session },
      published.map (fun _ => .snapshotDropped) ++ polled.notes)

/-- Disposes of the host. -/
def dispose (host : Host) : Host :=
  { host with session := host.session.drop 0, shown := none }

end Host

/-- What is said when the shell is used where none is mounted. -/
def noHostMessage : String := "ShellContext not provided"

end PageShell
