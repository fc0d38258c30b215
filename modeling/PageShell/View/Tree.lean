/-!
# Trees of page elements

What is shown on a page is a tree of elements with attributes, and texts.
Attributes are names with values, in no order that matters; one without a value
has the empty text for it. In a view that is compared, neighbouring texts are
one text and empty texts are gone.
-/

namespace PageShell

/-- A tree of page elements. -/
inductive View where
  | text (content : String)
  | element (tag : String) (attributes : List (String × String))
      (children : List View)

namespace View

mutual

/-- The texts of a tree, in order. -/
def texts : View → List String
  | .text content => [content]
  | .element _ _ children => textsOf children
termination_by structural view => view

def textsOf : List View → List String
  | [] => []
  | view :: views => view.texts ++ textsOf views
termination_by structural views => views

end

/-- Puts a tree in front of others, joining it with the first if both are
texts. -/
def prepend : View → List View → List View
  | .text s, .text t :: views => .text (s ++ t) :: views
  | .text s, views => if s = "" then views else .text s :: views
  | view, views => view :: views

mutual

/-- The tree with neighbouring texts joined and without empty ones. -/
def joined : View → View
  | .text content => .text content
  | .element tag attributes children =>
    .element tag attributes (joinedList children)
termination_by structural view => view

/-- Some trees with neighbouring texts joined and without empty ones. -/
def joinedList : List View → List View
  | [] => []
  | view :: views => prepend view.joined (joinedList views)
termination_by structural views => views

end

end View

end PageShell
