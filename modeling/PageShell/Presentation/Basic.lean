import PageShell.Document.Stored
import PageShell.Presentation.Style

/-!
# What a document means

The names and attributes of a document get their meaning here: `Node.present`
reads an element as one of a closed set of presentations. It is generous with
attributes, which fall back to a default when they are missing or not
understood, and strict with names: an element outside the vocabulary, or a link
without a target, is shown as the stored form of itself.
-/

namespace PageShell

/-- One element, or a text, understood. -/
inductive Presentation where
  | plain (text : String)
  | vstack (gap : Gap) (children : List Node)
  | hstack (gap : Gap) (children : List Node)
  /-- `wide` and `template` apply where there is room for more columns. -/
  | grid (gap : Gap) (base : Columns) (wide : Option Columns)
      (template : Option Template) (children : List Node)
  | card (children : List Node)
  | heading (level : Nat) (children : List Node)
  | text (tone : Tone) (size : TextSize) (weight : Weight)
      (children : List Node)
  | image (source alt : String) (width height : Nat) (rounded : Bool)
  | link (href : String) (icon : Option Icon) (children : List Node)
  /-- A button; without children it is labelled with its command. -/
  | command (command : String) (children : List Node)
  | list (items : List Node)
  /-- Anything else, as its indented stored form. -/
  | fallback (dump : String)
deriving DecidableEq

namespace Presentation

/-- The level of a heading that does not give one. -/
def standardLevel : Nat := 2

/-- Width and height of an image that does not give them, in pixels. -/
def standardImageSize : Nat := 128

/-- A heading level brought into the range from one to six. -/
def clampLevel (level : Nat) : Nat := max 1 (min level 6)

/-- The nodes inside the presentation. -/
def children : Presentation → List Node
  | .vstack _ children | .hstack _ children | .grid _ _ _ _ children
  | .card children | .heading _ children | .text _ _ _ children
  | .link _ _ children | .command _ children | .list children => children
  | .plain _ | .image .. | .fallback _ => []

end Presentation

namespace Element

/-- A whole number below `2^32` under a key. -/
def natural? (e : Element) (key : String) : Option Nat :=
  (e.get? key).bind AttrValue.toUInt32?

def gap (e : Element) : Gap :=
  ((e.natural? "gap").bind Gap.ofStep?).getD Gap.standard

def columns? (e : Element) (key : String) : Option Columns :=
  (e.natural? key).bind Columns.ofCount?

def headingLevel (e : Element) : Nat :=
  ((e.natural? "level").map Presentation.clampLevel).getD
    Presentation.standardLevel

/-- Width or height of an image; zero counts as not given. -/
def dimension (e : Element) (key : String) : Nat :=
  ((e.natural? key).filter (0 < ·)).getD Presentation.standardImageSize

/-- Whether a flag is set: to a number other than zero, or to the text
`true`. -/
def isSet (e : Element) (key : String) : Bool :=
  match e.get? key with
  | some (.number x) => !x.isZero
  | some (.text s) => s == "true"
  | none => false

/-- The element shown as its stored form. -/
def fallback (e : Element) : Presentation := .fallback e.toNode.toIndentedText

/-- What an element means. -/
def present (e : Element) : Presentation :=
  match e.name with
  | "VStack" => .vstack e.gap e.children
  | "HStack" => .hstack e.gap e.children
  | "Grid" =>
    .grid e.gap ((e.columns? "base").getD Columns.standard) (e.columns? "md")
      ((e.text? "mdTemplate").bind Template.ofToken?) e.children
  | "Card" => .card e.children
  | "Heading" => .heading e.headingLevel e.children
  | "Text" =>
    .text (((e.text? "variant").bind Tone.ofVariant?).getD Tone.standard)
      (((e.text? "size").bind TextSize.ofToken?).getD TextSize.standard)
      (((e.text? "weight").bind Weight.ofToken?).getD Weight.standard)
      e.children
  | "Image" =>
    .image ((e.text? "src").getD "") ((e.text? "alt").getD "")
      (e.dimension "width") (e.dimension "height") (e.isSet "rounded")
  | "Link" =>
    match e.text? "href" with
    | some href => .link href ((e.text? "icon").bind Icon.ofToken?) e.children
    | none => e.fallback
  | "Cmd" => .command ((e.text? "cmd").getD e.textContent) e.children
  | "List" => .list e.children
  | _ => e.fallback

end Element

/-- What a document means at its root. -/
def Node.present : Node → Presentation
  | .text content => .plain content
  | .element name attributes children =>
    Element.present { name, attributes, children }

end PageShell
