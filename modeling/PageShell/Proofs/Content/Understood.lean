import PageShell.Proofs.Content.Grammar
import PageShell.Proofs.Document.Levels
import PageShell.Proofs.History.Answers

/-!
# The content is understood

What a command answers and what the page understands are two vocabularies
that nothing ties together: a name that one has and the other has not would
be shown as stored text, and an attribute would be dropped or replaced by a
default without anybody noticing. They agree. The content was put together
from elements that the page knows, with attributes that it recognises
(`Builtin.isContent_answer`); this holds at any depth, since the parts of
content are content; and a recognised attribute shows
(`Element.shows_of_recognises`). So it holds of whatever is recorded when
lines are typed, because all else that a line is answered is one text.
-/

namespace PageShell

namespace Node

/-- A tree that is somewhere in another, or all of it. -/
inductive IsPart : (part whole : Node) → Prop where
  | refl (whole : Node) : IsPart whole whole
  | child {part child : Node} {name : String} {attributes : Attributes}
      {children : List Node} : child ∈ children → IsPart part child →
      IsPart part (.element name attributes children)

/-- The tree is presented as something, and so are all its attributes. -/
def IsUnderstood (node : Node) : Prop :=
  (∀ dump, node.present ≠ .fallback dump) ∧
    ∀ name attributes children, node = .element name attributes children →
      ∀ a ∈ attributes.entries,
        Element.recognises name a.1 a.2 = true ∧ node.present.Shows a.1 a.2

variable {depth : Nat} {part whole : Node}

theorem IsContent.isUnderstood (h : whole.IsContent depth) :
    whole.IsUnderstood := by
  cases h with
  | text content =>
      exact ⟨nofun, nofun⟩
  | element hknown hattrs _ =>
      refine ⟨(Element.present_ne_fallback_iff _).mpr hknown, ?_⟩
      intro name attrs children heq a ha
      cases heq
      obtain ⟨hrecognised, -⟩ := hattrs a ha
      exact ⟨hrecognised, Element.shows_of_recognises hknown
        (Attributes.get?_of_mem ha) hrecognised⟩

theorem IsContent.isUnderstood_of_isPart (h : whole.IsContent depth)
    (hpart : part.IsPart whole) : part.IsUnderstood := by
  induction hpart generalizing depth with
  | refl => exact h.isUnderstood
  | child hmem _ ih =>
      cases h with
      | element _ _ hchildren => exact ih (hchildren _ hmem)

end Node

namespace Registry

/-- In whatever the site's shell records when lines are typed, from any state
and at any depth, every element is presented as something, and every attribute
is one that is read there, with a value that means something, which the
presentation has. Nothing that the commands set is replaced by a default, and
nothing they answer is shown as stored text. -/
theorem builtin_output_is_understood (s : State) (turns : List Turn) :
    ∃ added : List Entry,
      (builtin.runAll s turns).history = s.history ++ added ∧
      added.map (·.input) = turns.map Turn.input ∧
      ∀ e ∈ added, ∀ node ∈ e.output, ∀ part : Node, part.IsPart node →
        part.IsUnderstood := by
  refine ⟨builtin.entries s.cursor turns, by rw [runAll_eq],
    builtin.map_input_entries s.cursor turns, fun e he node hnode => ?_⟩
  have hcommands : ∀ command ∈ builtin.commands, ∀ arguments cursor,
      ∀ node ∈ (command.handler.run arguments cursor).output.nodes,
        node.IsContent 7 := by
    intro command hmem arguments cursor
    obtain ⟨b, -, rfl⟩ := List.mem_map.mp hmem
    exact b.isContent_answer arguments
  have hcontent : node.IsContent 7 :=
    builtin.forall_output_entries .text hcommands s.cursor turns e he node
      hnode
  exact fun part hpart => hcontent.isUnderstood_of_isPart hpart

/-- The portrait, three levels down in the profile: its width shows. -/
theorem portrait_is_understood :
    ∃ e ∈ (builtin.runAll (State.fresh ["home"])
        [.advance (.ofNat 0) " fetch 'x"]).history,
      ∃ node ∈ e.output, Profile.portrait.IsPart node ∧
        (∀ dump, Profile.portrait.present ≠ .fallback dump) ∧
        Profile.portrait.present.Shows "width" (.number (.ofNat 160)) := by
  obtain ⟨added, hadded, -, hunderstood⟩ :=
    builtin_output_is_understood (State.fresh ["home"])
      [.advance (.ofNat 0) " fetch 'x"]
  have houtput : ((builtin.runAll (State.fresh ["home"])
      [.advance (.ofNat 0) " fetch 'x"]).history.map (·.output)) =
        [[Profile.profileCard]] := by decide +kernel
  rw [hadded] at houtput ⊢
  obtain ⟨e, he, hnode⟩ := List.mem_map.mp
    (houtput ▸ List.mem_singleton_self [Profile.profileCard])
  have hmem : Profile.profileCard ∈ e.output :=
    hnode ▸ List.mem_singleton_self _
  have hpart : Profile.portrait.IsPart Profile.profileCard :=
    .child (List.mem_singleton_self _) (.child List.mem_cons_self (.refl _))
  obtain ⟨hknown, hattrs⟩ := hunderstood e he _ hmem _ hpart
  refine ⟨e, he, _, hmem, hpart, hknown, ?_⟩
  exact (hattrs _ _ _ rfl ("width", .number (.ofNat 160))
    (by decide +kernel)).2

end Registry

end PageShell
