import PageShell.Command.Registry
import PageShell.Content.News
import PageShell.Content.Profile

/-!
# The commands of the site

Six commands, none of which moves the cursor. What `help` lists are their
summaries, so the summaries are given on their own and the handlers after them.
-/

namespace PageShell

/-- The listing of commands that `help` answers: each is a button that runs it,
beside its description. -/
def helpListing (summaries : List CommandSummary) : Node :=
  Markup.vstack 2 [
    (Markup.text "Available commands:").toNode,
    Markup.list (summaries.map fun summary =>
      Markup.hstack 2 [
        Markup.commandButton summary.name,
        ((Markup.text summary.description).setText "variant" "muted").toNode])]

/-- The listing of a registry's commands. -/
def Registry.helpListing (registry : Registry) : Node :=
  PageShell.helpListing registry.summaries

/-- The commands of the site. -/
inductive Builtin where
  | echo
  | help
  | fetch
  | news
  | research
  | honors
deriving DecidableEq

namespace Builtin

/-- The commands in the order in which they are registered. -/
def all : List Builtin := [.echo, .help, .fetch, .news, .research, .honors]

def summary : Builtin → CommandSummary
  | .echo => ⟨"echo", "Echo arguments"⟩
  | .help => ⟨"help", "Show available commands"⟩
  | .fetch => ⟨"fetch", "Display Jay Lee's information"⟩
  | .news => ⟨"news", "Show recent news"⟩
  | .research => ⟨"research", "List publications"⟩
  | .honors => ⟨"honors", "List honors and awards"⟩

/-- What a command answers to its arguments. -/
def answer (builtin : Builtin) (arguments : List String) : Output :=
  match builtin with
  | .echo => .text (" ".intercalate arguments)
  | .help => .single (PageShell.helpListing (all.map summary))
  | .fetch => .single Profile.profileCard
  | .news => .single News.newsCard
  | .research => .single News.researchCard
  | .honors => .single News.honorsCard

def toCommand (builtin : Builtin) : Command :=
  { toCommandSummary := builtin.summary, handler := .render builtin.answer }

end Builtin

/-- The registry of the site's commands. -/
def Registry.builtin : Registry where
  commands := Builtin.all.map Builtin.toCommand
  typable := by
    intro command h
    obtain ⟨builtin, _, rfl⟩ := List.mem_map.mp h
    cases builtin <;> decide +kernel
  distinct := by
    decide +kernel

end PageShell
