import PageShell.Page.Host
import PageShell.View.Terminal

/-!
# The site

The page of the site: its title and description, and a terminal as its only
content.
-/

namespace PageShell.Site

def title : String := "Jay Lee"

def description : String := "A personal site you browse from a shell prompt."

def head : List View :=
  [ .element "title" [] [.text title],
    .element "meta" [("name", "description"), ("content", description)] [] ]

/-- The page around the terminal. -/
def body (terminal : View) : View :=
  .element "main" [("class", "site-root")] [terminal]

end PageShell.Site
