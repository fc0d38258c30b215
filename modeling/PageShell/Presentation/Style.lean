/-!
# The vocabulary of styles

Everything about the look of a page is chosen from a few small sets: how far
apart things are, how many columns a grid has, the tone, size and weight of
text, the icon of a link. Each set is a type; a document names its members by
numbers or words, and the stylesheet by tokens.
-/

namespace PageShell

/-- The space between the parts of a layout. -/
inductive Gap where
  | none | xs | sm | md | lg | xl | xxl
deriving DecidableEq

namespace Gap

/-- The gap of a step on the spacing scale. -/
def ofStep? : Nat → Option Gap
  | 0 => some .none
  | 1 => some .xs
  | 2 => some .sm
  | 3 => some .md
  | 4 => some .lg
  | 6 => some .xl
  | 8 => some .xxl
  | _ => Option.none

def token : Gap → String
  | .none => "none"
  | .xs => "xs"
  | .sm => "sm"
  | .md => "md"
  | .lg => "lg"
  | .xl => "xl"
  | .xxl => "2xl"

/-- The smallest gap that is one. -/
def standard : Gap := .xs

end Gap

inductive Tone where
  | primary | muted | accent
deriving DecidableEq

namespace Tone

/-- The tone of a text variant. -/
def ofVariant? : String → Option Tone
  | "default" => some .primary
  | "muted" => some .muted
  | "accent" => some .accent
  | _ => none

def token : Tone → String
  | .primary => "primary"
  | .muted => "muted"
  | .accent => "accent"

def standard : Tone := .primary

end Tone

inductive TextSize where
  | xs | sm | base | lg | xl | xxl
deriving DecidableEq

namespace TextSize

def ofToken? : String → Option TextSize
  | "xs" => some .xs
  | "sm" => some .sm
  | "base" => some .base
  | "lg" => some .lg
  | "xl" => some .xl
  | "2xl" => some .xxl
  | _ => none

def token : TextSize → String
  | .xs => "xs"
  | .sm => "sm"
  | .base => "base"
  | .lg => "lg"
  | .xl => "xl"
  | .xxl => "2xl"

def standard : TextSize := .base

end TextSize

inductive Weight where
  | normal | medium | semibold | bold
deriving DecidableEq

namespace Weight

def ofToken? : String → Option Weight
  | "normal" => some .normal
  | "medium" => some .medium
  | "semibold" => some .semibold
  | "bold" => some .bold
  | _ => none

def token : Weight → String
  | .normal => "normal"
  | .medium => "medium"
  | .semibold => "semibold"
  | .bold => "bold"

def standard : Weight := .normal

end Weight

inductive Columns where
  | one | two | three | four
deriving DecidableEq

namespace Columns

def ofCount? : Nat → Option Columns
  | 1 => some .one
  | 2 => some .two
  | 3 => some .three
  | 4 => some .four
  | _ => none

def token : Columns → String
  | .one => "1"
  | .two => "2"
  | .three => "3"
  | .four => "4"

def standard : Columns := .one

end Columns

/-- A grid of two columns, one of them as wide as its content. -/
inductive Template where
  | autoFirst | autoLast
deriving DecidableEq

namespace Template

def ofToken? : String → Option Template
  | "auto_1fr" => some .autoFirst
  | "1fr_auto" => some .autoLast
  | _ => none

def token : Template → String
  | .autoFirst => "auto-1fr"
  | .autoLast => "1fr-auto"

end Template

/-- The icon in front of a link. -/
inductive Icon where
  | paper | github | video | link
deriving DecidableEq

namespace Icon

def ofToken? : String → Option Icon
  | "paper" => some .paper
  | "github" => some .github
  | "video" => some .video
  | "link" => some .link
  | _ => none

def token : Icon → String
  | .paper => "paper"
  | .github => "github"
  | .video => "video"
  | .link => "link"

/-- The character that shows the icon. -/
def glyph : Icon → String
  | .paper => "📄"
  | .github => "⌥"
  | .video => "▶"
  | .link => "↗"

end Icon

end PageShell
