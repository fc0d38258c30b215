import PageShell.Content.Markup

/-!
# The profile card

Who the site is about: a portrait beside a name, a tagline and a summary.
-/

namespace PageShell.Profile

def name : String := "Jay Lee"

def tagline : String :=
  "M.S. student in Computer Science | Programming Languages"

def summary : String :=
  "Applying programming language theory, static analysis, and program " ++
  "synthesis to build ergonomic, reliable tools for real-world programmers."

def portraitSource : String := "/profile.jpg"

/-- Width and height of the portrait. -/
def portraitSize : Nat := 160

def portrait : Node :=
  ((Element.named "Image").setText "src" portraitSource
    |>.setText "alt" (name ++ "'s profile image")
    |>.setNat "width" portraitSize
    |>.setNat "height" portraitSize
    |>.setNat "rounded" 1).toNode

def about : Node :=
  Markup.vstack 1 [
    ((Markup.text name).setText "size" "xl"
      |>.setText "weight" "semibold").toNode,
    ((Markup.text tagline).setText "variant" "muted").toNode,
    ((Markup.text summary).setText "size" "sm").toNode]

/-- The portrait beside the text, on one card. -/
def profileCard : Node :=
  Markup.card [
    ((Element.named "Grid").setNat "gap" 4
      |>.setNat "base" 1
      |>.setText "mdTemplate" "auto_1fr"
      |>.append [portrait, about]).toNode]

end PageShell.Profile
