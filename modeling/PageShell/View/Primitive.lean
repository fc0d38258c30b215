import PageShell.Number.Format
import PageShell.Presentation.Basic
import PageShell.View.Tree

/-!
# The primitives of the page

Every element of the page that has a style comes from one of these functions.
Their class names and `data-ui-` attributes are what the stylesheet sees; a
caller chooses among the tokens of the style vocabulary, and may add class names
of its own for the layout.
-/

namespace PageShell.Primitive

/-- The class of a primitive, followed by those the layout adds, as they are. -/
def className (base : String) : (layout : Option String) → String
  | none => base
  | some layout => if layout = "" then base else base ++ " " ++ layout

/-- The attributes that all primitives have. -/
def marks (base kind : String) (layout : Option String) :
    List (String × String) :=
  [("class", className base layout), ("data-ui-primitive", "true"),
    ("data-ui-kind", kind)]

/-- An attribute, if there is a value for it. -/
def optional (name : String) (value : Option String) : List (String × String) :=
  (value.map fun value => (name, value)).toList

def decimal (n : Nat) : String := String.ofList (Number.digitsOf n)

/-! ## Layout -/

def stack (gap : Gap) (layout : Option String) (children : List View) : View :=
  .element "div"
    (marks "ui-stack" "stack" layout ++ [("data-ui-gap", gap.token)])
    children

def cluster (gap : Gap) (layout : Option String) (children : List View) :
    View :=
  .element "div"
    (marks "ui-cluster" "cluster" layout ++ [("data-ui-gap", gap.token)])
    children

def grid (gap : Gap) (columns : Columns) (wide : Option Columns)
    (template : Option Template) (layout : Option String)
    (children : List View) : View :=
  .element "div"
    (marks "ui-grid" "grid" layout ++
      [("data-ui-gap", gap.token), ("data-ui-columns", columns.token)] ++
      optional "data-ui-md-columns" (wide.map Columns.token) ++
      optional "data-ui-md-template" (template.map Template.token))
    children

/-! ## Content -/

def card (layout : Option String) (children : List View) : View :=
  .element "article" (marks "ui-card" "card" layout) children

def text (tone : Tone) (size : TextSize) (weight : Weight)
    (layout : Option String) (children : List View) : View :=
  .element "span"
    (marks "ui-text" "text" layout ++
      [("data-ui-tone", tone.token), ("data-ui-size", size.token),
        ("data-ui-weight", weight.token)])
    children

/-- A heading; its level is brought into range. -/
def heading (level : Nat) (layout : Option String) (children : List View) :
    View :=
  let level := decimal (Presentation.clampLevel level)
  .element "div"
    (marks "ui-heading" "heading" layout ++
      [("data-ui-level", level), ("role", "heading"), ("aria-level", level)])
    children

def image (source alt : String) (width height : Nat) (rounded : Bool)
    (layout : Option String) : View :=
  .element "img"
    (marks "ui-image" "image" layout ++
      [("data-ui-rounded", if rounded then "true" else "false"),
        ("src", source), ("alt", alt), ("width", decimal width),
        ("height", decimal height)])
    []

def list (layout : Option String) (children : List View) : View :=
  .element "ul" (marks "ui-list" "list" layout) children

def listItem (children : List View) : View :=
  .element "li" (marks "ui-list-item" "list-item" none) children

/-! ## Controls -/

/-- A link that opens in a new tab. -/
def link (href : String) (icon : Option Icon) (layout : Option String)
    (children : List View) : View :=
  .element "a"
    (marks "ui-link" "link" layout ++
      optional "data-ui-icon" (icon.map Icon.token) ++
      [("href", href), ("target", "_blank"), ("rel", "noopener noreferrer")])
    ((icon.map fun icon =>
        View.element "span" [("class", "ui-link-icon"), ("aria-hidden", "true")]
          [.text icon.glyph]).toList ++
      children)

/-- A button that runs a command. -/
def commandButton (command : String) (layout : Option String)
    (children : List View) : View :=
  .element "button"
    ([("type", "button")] ++
      marks "ui-command-button" "command-button" layout ++
      [("title", "Run `" ++ command ++ "`")])
    children

/-! ## Terminal -/

def terminalSurface (layout label : Option String) (children : List View) :
    View :=
  .element "div"
    (marks "ui-terminal-surface" "terminal-surface" layout ++
      [("role", "log"), ("aria-live", "polite")] ++ optional "aria-label" label)
    children

def terminalTranscript (layout : Option String) (children : List View) : View :=
  .element "div" (marks "ui-terminal-transcript" "terminal-transcript" layout)
    children

def terminalLine (layout : Option String) (tone : Tone)
    (children : List View) : View :=
  .element "div"
    (marks "ui-terminal-line" "terminal-line" layout ++
      [("data-ui-tone", tone.token)])
    children

/-- The row of the prompt: who and where, the cursor, the marker, and then the
children. The text of the cursor changes while the row is shown, so it is never
without a character to change. -/
def terminalPrompt (identity cursor : String) (layout : Option String)
    (children : List View) : View :=
  .element "div" (marks "ui-terminal-prompt" "terminal-prompt" layout)
    ([.element "span" [("class", "ui-terminal-prompt-identity")]
        [.text identity],
      .element "span" [("class", "ui-terminal-prompt-cwd")]
        [.text (if cursor = "" then " " else cursor)],
      .element "span"
        [("class", "ui-terminal-prompt-marker"), ("aria-hidden", "true")]
        [.text "$"]] ++
      children)

def separator (layout : Option String) : View :=
  .element "div"
    (marks "ui-separator" "separator" layout ++
      [("role", "separator"), ("aria-hidden", "true")])
    []

end PageShell.Primitive
