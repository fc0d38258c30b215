import PageShell.Content.Markup

/-!
# Publications and honors

Two lists of data and the cards that show them: the news puts the latest of both
side by side, and each list has a card of its own that shows all of it.
-/

namespace PageShell.News

/-- A link that belongs to a publication. -/
structure PublicationLink where
  label : String
  icon : String
  href : String

/-- A publication and where to find it. -/
structure Publication where
  headline : String
  links : List PublicationLink

/-- All publications, the latest first. -/
def publications : List Publication := [
  { headline :=
      "OOPSLA 2025 — React‑tRace: A Semantics for Understanding React Hooks " ++
      "(Accepted)"
    links := [
      ⟨"paper", "paper", "https://doi.org/10.48550/arXiv.2507.05234"⟩,
      ⟨"github", "github", "https://github.com/Zeta611/react-trace"⟩,
      ⟨"event", "link", "https://2025.splashcon.org/details/OOPSLA/54/"⟩,
      ⟨"live", "link", "https://react-trace.vercel.app/"⟩] },
  { headline :=
      "UIST 2025 Posters — ReDemon UI: Reactive Synthesis by Demonstration " ++
      "for Web UI (Accepted)"
    links := [
      ⟨"paper", "paper", "https://doi.org/10.48550/arXiv.2507.10099"⟩,
      ⟨"github", "github", "https://github.com/Zeta611/redemon-ui"⟩,
      ⟨"live", "link", "https://redemon-ui.vercel.app/"⟩] },
  { headline :=
      "PLDI 2025 SRC — Retargeting an Abstract Interpreter for a New " ++
      "Language by Partial Evaluation (2nd place 🥈)"
    links := [
      ⟨"paper", "paper", "https://doi.org/10.48550/arXiv.2507.04316"⟩,
      ⟨"video", "video", "https://www.youtube.com/live/BRhBv_aYNks?t=5750"⟩,
      ⟨"event", "link",
        "https://pldi25.sigplan.org/details/pldi-2025-src/1/"⟩] }]

/-- All honors, the latest first. -/
def honors : List String := [
  "Aug 2025 — SIGPL Summer School 2025 Presentation Award (1st place 🥇)",
  "Jun 2025 — PLDI 2025 SRC Graduate Category (2nd place 🥈)",
  "Sep 2024 — Outstanding Teaching Assistant Award (SNU Engineering)",
  "Aug 2024 — SIGPL Summer School 2024 Presentation Award (2nd place 🥈)",
  "Mar 2018–Feb 2024 — Presidential Science Scholarship " ++
    "(Korea Student Aid Foundation)"]

/-- How many publications are news. -/
def recentPublications : Nat := 3

/-- How many honors are news. -/
def recentHonors : Nat := 5

def Publication.toNode (publication : Publication) : Node :=
  Markup.vstack 1 [
    (Markup.text publication.headline).toNode,
    Markup.hstack 2 (publication.links.map fun item =>
      Markup.link item.href item.icon item.label)]

/-- The first publications under a title. -/
def publicationsSection (title : String) (limit : Nat) : Node :=
  Markup.vstack 2 [
    Markup.heading 3 title,
    Markup.vstack 3 ((publications.take limit).map Publication.toNode)]

/-- The first honors under a title. -/
def honorsSection (title : String) (limit : Nat) : Node :=
  Markup.vstack 2 [
    Markup.heading 3 title,
    Markup.list ((honors.take limit).map Node.text)]

/-- The latest publications beside the latest honors. -/
def newsCard : Node :=
  Markup.card [
    ((Element.named "Grid").setNat "gap" 4
      |>.setNat "base" 1
      |>.setNat "md" 2
      |>.append [
        publicationsSection "Recent publications" recentPublications,
        honorsSection "Recent honors" recentHonors]).toNode]

def researchCard : Node :=
  Markup.card [publicationsSection "Publications" publications.length]

def honorsCard : Node :=
  Markup.card [honorsSection "Honors" honors.length]

end PageShell.News
