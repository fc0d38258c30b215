import PageShell.Command.Registry
import PageShell.Command.Token

/-!
# Interpreting a line

The first word of a line names a command and the others are its arguments. Words
are looked up by their value, so a name may be typed in quotes; a word that
names no command is answered, not refused, with its text as typed. Only a line
without words is an error.
-/

namespace PageShell

/-- Why a line cannot be interpreted. -/
inductive InterpretError where
  /-- The line has no words. -/
  | emptyInput
deriving DecidableEq

def InterpretError.message : InterpretError → String
  | .emptyInput => "Empty command"

namespace Registry

/-- What the text about an unknown command starts with. -/
def unknownCommandStart : String := "Unknown command: "

/-- The answer to a word that names no command. -/
def unknownCommand (raw : String) : CommandResult :=
  { output := .text (unknownCommandStart ++ raw) }

/-- Interprets a line at a cursor. -/
def interpretAt (registry : Registry) (line : String) (cursor : List String) :
    Except InterpretError CommandResult :=
  match Token.split line with
  | [] => .error .emptyInput
  | name :: arguments =>
    match registry.resolve? name.value with
    | none => .ok (unknownCommand name.raw)
    | some command => .ok (command.handler.run (arguments.map (·.value)) cursor)

/-- Interprets a line at the root. -/
def interpret (registry : Registry) (line : String) :
    Except InterpretError Output :=
  (registry.interpretAt line []).map (·.output)

end Registry

end PageShell
