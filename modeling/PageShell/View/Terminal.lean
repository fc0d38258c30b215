import PageShell.Config
import PageShell.View.Render

/-!
# The terminal

The terminal shows a state: for each entry of the history the line as typed,
what was answered and a rule, and below them the prompt with the line to type
on.
-/

namespace PageShell

def Entry.view (entry : Entry) : List View :=
  [ Primitive.terminalLine none .muted
      [.element "span"
          [("class", "shell-history-marker"), ("aria-hidden", "true")]
          [.text "$"],
        .element "span" [("class", "shell-history-input")] [.text entry.input]],
    .element "div" [("class", "shell-history-output")]
      (entry.output.map Node.view),
    Primitive.separator none ]

/-- The line to type on. -/
def inputLine (label : String) : View :=
  .element "form" [("class", "shell-input-line")]
    [.element "input"
      [("class", "shell-input"), ("type", "text"), ("aria-label", label),
        ("autocomplete", "off"), ("spellcheck", "false"), ("autofocus", "")]
      []]

/-- The terminal of a shell with the given configuration in the given state. -/
def State.terminal (config : Config) (state : State) : View :=
  Primitive.terminalSurface none (some "Terminal")
    [ Primitive.terminalTranscript none (state.history.flatMap Entry.view),
      Primitive.terminalPrompt config.identity state.path none
        [inputLine (config.promptLabel state.cursor)],
      .element "div" [("class", "shell-end")] [] ]

end PageShell
