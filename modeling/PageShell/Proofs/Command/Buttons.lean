import PageShell.Command.Builtin
import PageShell.Presentation.Basic
import PageShell.Proofs.Command.Registration

/-!
# What the buttons of the listing run

The listing puts the name of each command on a button, and a button submits
its text as a line. So a name has to survive being read as a line. Without a
blank in it the name is one word, whatever its characters are. What is left
open is the value of that word: a name that starts with a quote and has the
quote a second time is a group, and loses both quotes when it is read. Such a
name can be registered, and can be typed in another spelling, but its button
runs the command of the name without the quotes, if there is one.
-/

namespace PageShell

/-! ## A name as a line -/

namespace Token

/-- Read as a word, the text is a group of this value. -/
def GroupOf (value s : String) : Prop :=
  ∃ q body tail, isQuote q = true ∧ q ∉ body ∧
    s.toList = q :: body ++ q :: tail ∧ value = String.ofList (body ++ tail)

theorem GroupOf.ne {value s : String} (h : GroupOf value s) : value ≠ s := by
  obtain ⟨q, body, tail, -, -, hs, hvalue⟩ := h
  intro heq
  have hlength := congrArg List.length hs
  rw [← heq, hvalue, String.toList_ofList] at hlength
  simp only [List.length_append, List.length_cons] at hlength
  omega

theorem split_of_isWord {s value : String}
    (h : IsWord [] value.toList s.toList) : split s = [⟨value, s, 0⟩] := by
  have hgap : IsGap [] := fun c hc => by cases hc
  have hends : EndsWord [] := fun c rest hnil => by cases hnil
  have hscan : scan 0 ([] ++ s.toList ++ []) = _ := scan_word hgap h hends
  rw [scan_gap hgap, List.nil_append, List.append_nil, String.ofList_toList,
    String.ofList_toList] at hscan
  exact hscan

theorem split_of_group {s value : String} (hs : IsTypable s)
    (h : GroupOf value s) : split s = [⟨value, s, 0⟩] := by
  obtain ⟨q, body, tail, hq, hbody, hgroup, rfl⟩ := h
  have htail : IsSolid tail := by
    intro c hc
    refine hs.2 c ?_
    simp [hgroup, hc]
  refine split_of_isWord ?_
  rw [String.toList_ofList, hgroup]
  exact .grouped hq hbody htail

theorem split_of_bare {s : String} (hs : IsTypable s)
    (h : ∀ value, ¬GroupOf value s) : split s = [⟨s, s, 0⟩] := by
  refine split_of_isWord ?_
  cases hcs : s.toList with
  | nil => exact absurd (String.toList_eq_nil_iff.mp hcs) hs.1
  | cons c cs =>
      refine .bare (hcs ▸ hs.2) fun hc hmem => ?_
      rw [List.append_nil] at hmem
      obtain ⟨body, tail, rfl, hbody⟩ := exists_cut_at hmem
      exact h _ ⟨c, body, tail, hc, hbody, hcs, rfl⟩

end Token

/-! ## Running a name -/

namespace Registry

section

variable (registry : Registry) {command : Command}

theorem interpretAt_bare_name (hmem : command ∈ registry.commands)
    (h : ∀ value, ¬Token.GroupOf value command.name) (cursor : List String) :
    registry.interpretAt command.name cursor =
      .ok (command.handler.run [] cursor) :=
  registry.interpretAt_of_mem
    (Token.split_of_bare (registry.typable command hmem) h) hmem rfl cursor

theorem interpretAt_group_name {value : String}
    (hmem : command ∈ registry.commands)
    (h : Token.GroupOf value command.name) (cursor : List String) :
    (∀ other ∈ registry.commands, other.name = value →
      other.name ≠ command.name ∧
      registry.interpretAt command.name cursor =
        .ok (other.handler.run [] cursor)) ∧
    ((∀ other ∈ registry.commands, other.name ≠ value) →
      registry.interpretAt command.name cursor =
        .ok (unknownCommand command.name)) := by
  have hsplit := Token.split_of_group (registry.typable command hmem) h
  refine ⟨fun other hother hname => ⟨hname ▸ h.ne, ?_⟩, fun habsent => ?_⟩
  · exact registry.interpretAt_of_mem hsplit hother hname cursor
  · exact registry.interpretAt_of_unknown hsplit habsent cursor

end

end Registry

/-! ## The listing -/

namespace Node

/-- A row with a button that is labelled with the name and submits it, and
with the description. -/
def Offers (summary : CommandSummary) (item : Node) : Prop :=
  ∃ gap button description tone size weight,
    item.present = .hstack gap [button, description] ∧
    button.present = .command summary.name [.text summary.name] ∧
    description.present =
      .text tone size weight [.text summary.description]

/-- A title and a list with one row for each summary, in this order. -/
def Lists (summaries : List CommandSummary) (listing : Node) : Prop :=
  ∃ gap title list items, listing.present = .vstack gap [title, list] ∧
    list.present = .list items ∧ List.Forall₂ Offers summaries items

end Node

namespace Registry

theorem helpListing_lists (registry : Registry) :
    registry.helpListing.Lists registry.summaries := by
  refine ⟨_, _, _, _, rfl, rfl, List.forall₂_map_right_iff.mpr ?_⟩
  exact List.forall₂_same.mpr fun summary _ =>
    ⟨_, _, _, _, _, _, rfl, rfl, rfl⟩

/-- The listing has one row for each command, in the order of registration,
with a button for the name of the command. At any cursor the button runs the
command without arguments, unless the name is a group: then it runs the
command whose name is the value of the group, which is another one, or is
answered as an unknown command. -/
theorem listed_commands_run (registry : Registry) :
    registry.helpListing.Lists registry.summaries ∧
    ∀ command ∈ registry.commands, ∀ cursor,
      ((∀ value, ¬Token.GroupOf value command.name) →
        registry.interpretAt command.name cursor =
          .ok (command.handler.run [] cursor)) ∧
      ∀ value, Token.GroupOf value command.name →
        (∀ other ∈ registry.commands, other.name = value →
          other.name ≠ command.name ∧
          registry.interpretAt command.name cursor =
            .ok (other.handler.run [] cursor)) ∧
        ((∀ other ∈ registry.commands, other.name ≠ value) →
          registry.interpretAt command.name cursor =
            .ok (unknownCommand command.name)) :=
  ⟨registry.helpListing_lists, fun _ hmem cursor =>
    ⟨fun h => registry.interpretAt_bare_name hmem h cursor,
      fun _ h => registry.interpretAt_group_name hmem h cursor⟩⟩

/-- A command with an apostrophe in its name, and two whose names differ in
quotes. -/
def quoting : Registry where
  commands :=
    [⟨⟨"it's", "An apostrophe"⟩, .render fun _ => .text "apostrophe"⟩,
      ⟨⟨"\"a\"", "In quotes"⟩, .render fun _ => .text "quoted"⟩,
      ⟨⟨"a", "As it is"⟩, .render fun _ => .text "plain"⟩]
  typable := by decide +kernel
  distinct := by decide +kernel

theorem groupOf_quoting : Token.GroupOf "a" "\"a\"" :=
  ⟨'"', ['a'], [], rfl, by decide, by decide +kernel, by decide +kernel⟩

theorem apostrophe_runs_from_button :
    quoting.helpListing.Lists [⟨"it's", "An apostrophe"⟩,
      ⟨"\"a\"", "In quotes"⟩, ⟨"a", "As it is"⟩] ∧
    quoting.interpretAt "it's" [] = .ok { output := .text "apostrophe" } ∧
    quoting.interpretAt "\"a\"" [] = .ok { output := .text "plain" } := by
  obtain ⟨hlists, hrun⟩ := listed_commands_run quoting
  have hbare : ∀ value, ¬Token.GroupOf value "it's" := by
    rintro value ⟨q, body, tail, hq, -, hgroup, -⟩
    cases congrArg List.head? hgroup
    cases hq
  refine ⟨hlists, (hrun _ (.head _) []).1 hbare, ?_⟩
  exact (((hrun _ (.tail _ (.head _)) []).2 "a" groupOf_quoting).1 _
    (.tail _ (.tail _ (.head _))) rfl).2

/-- The button of a registered command may run another one. -/
theorem quoted_name_runs_another :
    empty.registerAll quoting.commands = .ok quoting ∧
    quoting.helpListing.Lists quoting.summaries ∧
    ∃ command ∈ quoting.commands, ¬∀ cursor,
      quoting.interpretAt command.name cursor =
        .ok (command.handler.run [] cursor) := by
  refine ⟨registerAll_of_commands rfl, quoting.helpListing_lists, _,
    .tail _ (.head _), fun hrun => ?_⟩
  have hplain := ((quoting.interpretAt_group_name (.tail _ (.head _))
    groupOf_quoting []).1 _ (.tail _ (.tail _ (.head _))) rfl).2
  have heq := Except.ok.inj ((hrun []).symm.trans hplain)
  exact absurd (congrArg CommandResult.output heq) (by decide)

end Registry

end PageShell
