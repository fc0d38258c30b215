import PageShell.Document.Node

/-!
# The elements that content is made of

One constructor for each element of the page's vocabulary that the content uses,
with the attributes that the page reads from it. Content written with these is
presented as meant; nothing else ties the two vocabularies together.
-/

namespace PageShell.Markup

def vstack (gap : Nat) (children : List Node) : Node :=
  ((Element.named "VStack").setNat "gap" gap |>.append children).toNode

def hstack (gap : Nat) (children : List Node) : Node :=
  ((Element.named "HStack").setNat "gap" gap |>.append children).toNode

def card (children : List Node) : Node :=
  ((Element.named "Card").append children).toNode

/-- A run of text, still to be styled. -/
def text (content : String) : Element :=
  (Element.named "Text").push (.text content)

/-- A heading. -/
def heading (level : Nat) (content : String) : Node :=
  ((Element.named "Heading").setNat "level" level
    |>.push (.text content)).toNode

/-- A link to another site. -/
def link (href icon label : String) : Node :=
  ((Element.named "Link").setText "href" href |>.setText "icon" icon
    |>.push (.text label)).toNode

/-- A button that runs the command it is labelled with. -/
def commandButton (command : String) : Node :=
  ((Element.named "Cmd").setText "cmd" command |>.push (.text command)).toNode

def list (items : List Node) : Node :=
  ((Element.named "List").append items).toNode

end PageShell.Markup
