import PageShell.Document.Node
import PageShell.Text.Blank

/-!
# The command table

A registry lists the commands of a shell in the order in which they were
registered. A name can be looked up only if it can be typed as one word and
belongs to one command, so the type holds registries of that kind only: every
name is typable, and no two commands share one. Registering a command checks
both, the form of the name first.
-/

namespace PageShell

/-- The name and the one-line description of a command. -/
structure CommandSummary where
  name : String
  description : String
deriving DecidableEq

/-- What a command answers: its output and, if it moves the shell, the new
cursor. -/
structure CommandResult where
  output : Output
  cursor : Option (List String) := none
deriving DecidableEq

/-- What runs when a command is typed. -/
inductive Handler where
  /-- Answers from the arguments alone. -/
  | render (run : (arguments : List String) → Output)
  /-- Answers from the arguments and the cursor, and may move the cursor. -/
  | navigate (run : (arguments cursor : List String) → CommandResult)

def Handler.run (handler : Handler) (arguments cursor : List String) :
    CommandResult :=
  match handler with
  | .render run => { output := run arguments }
  | .navigate run => run arguments cursor

/-- A command: its summary and its handler. -/
structure Command extends CommandSummary where
  handler : Handler

/-- A name that can be typed as one word: not empty, and without blanks. -/
def IsTypable (name : String) : Prop :=
  name ≠ "" ∧ ∀ c ∈ name.toList, Text.isBlank c = false

instance (name : String) : Decidable (IsTypable name) :=
  decidable_of_iff (name ≠ "" ∧ name.toList.all (!Text.isBlank ·))
    (by simp [IsTypable])

/-- The commands of a shell, in the order of their registration. -/
structure Registry where
  commands : List Command
  typable : ∀ command ∈ commands, IsTypable command.name
  distinct : (commands.map (·.name)).Nodup

/-- Why a command cannot be registered. -/
inductive RegistryError where
  | duplicateCommand (name : String)
  | invalidName (name : String)
deriving DecidableEq

def RegistryError.message : RegistryError → String
  | .duplicateCommand name => "command `" ++ name ++ "` is already registered"
  | .invalidName name => "invalid command name `" ++ name ++ "`"

namespace Registry

def empty : Registry := ⟨[], by simp, by simp⟩

/-- The names, in the order of registration. -/
def names (registry : Registry) : List String := registry.commands.map (·.name)

def size (registry : Registry) : Nat := registry.commands.length

def isEmpty (registry : Registry) : Bool := registry.commands.isEmpty

/-- The command with the given name; upper and lower case differ. -/
def resolve? (registry : Registry) (name : String) : Option Command :=
  registry.commands.find? (·.name = name)

/-- Adds a command after those there are. -/
def register (registry : Registry) (command : Command) :
    Except RegistryError Registry :=
  if typable : IsTypable command.name then
    if taken : command.name ∈ registry.names then
      .error (.duplicateCommand command.name)
    else
      .ok {
        commands := registry.commands ++ [command]
        typable := by
          intro c hc
          rcases List.mem_append.mp hc with hc | hc
          · exact registry.typable c hc
          · rw [List.mem_singleton.mp hc]
            exact typable
        distinct := by
          rw [List.map_append, List.nodup_append]
          refine ⟨registry.distinct, by simp, ?_⟩
          intro a ha b hb heq
          rw [List.map_singleton, List.mem_singleton] at hb
          subst heq hb
          exact taken ha }
  else
    .error (.invalidName command.name)

/-- Adds commands one after the other, up to the first that is refused. -/
def registerAll (registry : Registry) :
    List Command → Except RegistryError Registry
  | [] => .ok registry
  | command :: commands => do
    let registry ← registry.register command
    registry.registerAll commands

/-- The summaries of the commands, in the order of registration. -/
def summaries (registry : Registry) : List CommandSummary :=
  registry.commands.map (·.toCommandSummary)

end Registry

end PageShell
