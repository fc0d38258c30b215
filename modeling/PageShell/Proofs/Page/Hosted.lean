import PageShell.Proofs.History.Spacing
import PageShell.Proofs.Page.Startup

/-!
# What a hosted session comes to

A page has one host, the host one sender, and nobody takes the worker away
while the page is there. So a visit to the page, in which lines are run and
the worker is polled in any order, is a run of a session with the submissions
of one sender and polls for its steps (`Visit.toRun`), and the session is
never found closed: a line is taken, or it is dropped because more than the
capacity wait. What is known of such runs then says that the published states
come from the lines that were taken, in their order, one more in each; and in
front of them stand the startup lines, if the host was mounted with no
history, since all of them fit.

Which history it was mounted with, what the other lines were and where the
polls fell can be seen in a state, but not in an answer. The commands of the
site only answer, so the cursor stays where it was (`Stands`), and an answer
is found from its line and the cursor alone.
-/

namespace PageShell

namespace Registry

/-! ## Commands that only answer -/

/-- No command of the registry can move the cursor. -/
def Stands (registry : Registry) : Prop :=
  ∀ command ∈ registry.commands, ∃ run, command.handler = .render run

/-- An entry records what its line alone is answered. -/
def AnswersAlone (registry : Registry) (e : Entry) : Prop :=
  (∀ output, registry.interpret e.input = .ok output →
      e.output = output.nodes) ∧
    ∀ error, registry.interpret e.input = .error error →
      e.output = [.text "Empty command"]

theorem builtin_stands : builtin.Stands := by
  intro command hmem
  obtain ⟨b, -, rfl⟩ := List.mem_map.mp hmem
  exact ⟨b.answer, rfl⟩

namespace Stands

variable {registry : Registry}

/-- A line is interpreted as it is at the root, and does not move. -/
theorem interpretAt_eq (h : registry.Stands) (input : String)
    (cursor : List String) :
    registry.interpretAt input cursor =
      (registry.interpret input).map fun output => { output } := by
  unfold interpret interpretAt
  cases Token.split input with
  | nil => rfl
  | cons name arguments =>
      cases hfound : registry.resolve? name.value with
      | none => simp only [hfound]; rfl
      | some command =>
          obtain ⟨run, hrun⟩ := h command (registry.mem_of_resolve? hfound).1
          simp only [hfound, hrun]
          rfl

theorem answer_eq (h : registry.Stands) (cursor : List String)
    (input : String) :
    registry.answer cursor input =
      recorded ((registry.interpret input).map fun output => { output }) := by
  rw [answer_eq_recorded, h.interpretAt_eq]

theorem cursorAfter_eq (h : registry.Stands) (cursor : List String)
    (input : String) : registry.cursorAfter cursor input = cursor := by
  rw [cursorAfter, h.answer_eq]
  cases registry.interpret input <;> rfl

theorem answersAlone (h : registry.Stands) {e : Entry}
    (he : e.output = (registry.answer e.cursor e.input).1) :
    registry.AnswersAlone e := by
  rw [h.answer_eq] at he
  refine ⟨fun output houtput => ?_, fun error herror => ?_⟩
  · rw [he, houtput]
    rfl
  · rw [he, herror]
    cases error
    rfl

theorem forall_mem_entries (h : registry.Stands) (cursor : List String)
    (turns : List Turn) :
    ∀ e ∈ registry.entries cursor turns,
      e.cursor = cursor ∧ registry.AnswersAlone e := by
  induction turns with
  | nil => exact fun e he => by cases he
  | cons t turns ih =>
      rw [entries, h.cursorAfter_eq]
      exact List.forall_mem_cons.mpr ⟨⟨rfl, h.answersAlone rfl⟩, ih⟩

theorem cursorAfterAll_eq (h : registry.Stands) (cursor : List String)
    (inputs : List String) :
    registry.cursorAfterAll cursor inputs = cursor := by
  induction inputs with
  | nil => rfl
  | cons input inputs ih =>
      show registry.cursorAfterAll (registry.cursorAfter cursor input) inputs =
        cursor
      rw [h.cursorAfter_eq, ih]

/-- Where some lines lead: to the same cursor, with an entry for each. -/
theorem leads (h : registry.Stands) {initial s : State}
    {inputs : List String} (hs : registry.Leads initial inputs s) :
    s.cursor = initial.cursor ∧
      ∃ added, s.history = initial.history ++ added ∧
        added.map (·.input) = inputs ∧
        ∀ e ∈ added, e.cursor = initial.cursor ∧ registry.AnswersAlone e := by
  obtain ⟨turns, rfl, rfl⟩ := hs
  rw [runAll_eq, h.cursorAfterAll_eq]
  exact ⟨rfl, _, rfl, registry.map_input_entries _ _,
    h.forall_mem_entries _ _⟩

end Stands

end Registry

namespace Host

/-! ## Visits -/

/-- What happens on a page: a line is run, or the worker is polled. -/
inductive Step where
  | run (input : String)
  | settle (ids : IdSource)

def Step.input? : Step → Option String
  | .run input => some input
  | .settle _ => none

/-- A host after some steps, and what was seen of it. -/
structure Visit where
  host : Host
  /-- The lines that were run, in that order, each with the notes it left. -/
  calls : List (String × List Note) := []
  /-- The published states, in order. -/
  published : List State := []

namespace Visit

def step (v : Visit) : Step → Visit
  | .run input =>
    { v with
      host := (v.host.run input).1
      calls := v.calls ++ [(input, (v.host.run input).2)] }
  | .settle ids =>
    { v with
      host := (v.host.settle ids).1
      published := v.published ++ (v.host.session.poll ids).2.2 }

/-- The visit of some steps, from a host. -/
def of (host : Host) (steps : List Step) : Visit :=
  steps.foldl step { host }

/-- The lines that were run and not dropped for want of room. -/
def taken (v : Visit) : List String :=
  (v.calls.filter (·.2 ≠ [.inputDropped .queueFull])).map (·.1)

/-- The visit as a run of its session, which had taken some lines before. -/
def toRun (first : List String) (v : Visit) : Session.Run :=
  { session := v.host.session
    accepted := first ++ v.taken
    published := v.published }

theorem calls_foldl (v : Visit) (steps : List Step) :
    (steps.foldl step v).calls.map (·.1) =
      v.calls.map (·.1) ++ steps.filterMap Step.input? := by
  induction steps generalizing v with
  | nil => simp
  | cons st steps ih =>
      rw [List.foldl_cons, ih]
      cases st with
      | run input => simp [step, Step.input?]
      | settle ids =>
          rw [List.filterMap_cons_none rfl]
          rfl

variable {v : Visit} {capacity : Nat} {input : String} {first : List String}
  {initial : State}

/-! ## A visit is a run -/

theorem taken_run_ok (h : (v.host.run input).2 = []) :
    (v.step (.run input)).taken = v.taken ++ [input] := by
  simp [taken, step, h]

theorem taken_run_full
    (h : (v.host.run input).2 = [.inputDropped .queueFull]) :
    (v.step (.run input)).taken = v.taken := by
  simp [taken, step, h]

theorem notes_run (hv : v.host.session.Alone capacity) (input : String) :
    (v.host.run input).2 =
      if capacity < v.host.session.mailbox.queue.length then
        [.inputDropped .queueFull]
      else [] := by
  obtain ⟨hfull, hok⟩ := hv.submit_iff input
  split
  · next hlt => rw [run_error (hfull.mpr hlt)]
  · next hle =>
      obtain ⟨s, hs⟩ := hok.mpr (Nat.not_lt.mp hle)
      rw [run_ok hs]

theorem toRun_run (hv : v.host.session.Alone capacity) (input : String) :
    (v.step (.run input)).toRun first = (v.toRun first).submit 0 input := by
  obtain ⟨hfull, hok⟩ := hv.submit_iff input
  show (⟨(v.host.run input).1.session, first ++ (v.step (.run input)).taken,
    v.published, none⟩ : Session.Run) = _
  unfold Session.Run.submit
  rcases Nat.lt_or_ge capacity v.host.session.mailbox.queue.length with
    hlt | hge
  · have hrefused : (v.toRun first).session.submit 0 input =
        .error .queueFull := hfull.mpr hlt
    rw [taken_run_full (by rw [run_error hrefused]), run_error hrefused,
      hrefused]
    rfl
  · obtain ⟨s, hs⟩ := hok.mpr hge
    have hs' : (v.toRun first).session.submit 0 input = .ok s := hs
    rw [taken_run_ok (by rw [run_ok hs]), run_ok hs, hs',
      ← List.append_assoc]
    rfl

/-- What is kept throughout a visit: seen as a run it delivers its lines, its
sender is alone, and the last published state is shown. -/
structure Serves (initial : State) (capacity : Nat) (first : List String)
    (v : Visit) : Prop where
  delivers : ∃ done, (v.toRun first).Delivers .builtin initial done
  alone : v.host.session.Alone capacity
  shown_eq : v.host.shown = some (v.published.getLastD initial)

theorem Serves.run (hv : v.Serves initial capacity first) (input : String) :
    (v.step (.run input)).Serves initial capacity first := by
  obtain ⟨done, hdelivers⟩ := hv.delivers
  refine ⟨⟨done, ?_⟩, ?_, ?_⟩
  · rw [toRun_run hv.alone]
    exact Session.delivers_submit hdelivers
  · show (v.host.run input).1.session.Alone capacity
    cases hs : v.host.session.submit 0 input with
    | ok s =>
        rw [run_ok hs]
        exact hv.alone.submit hs
    | error e =>
        rw [run_error hs]
        exact hv.alone
  · show (v.host.run input).1.shown = _
    unfold Host.run
    split <;> exact hv.shown_eq

theorem Serves.settle (hv : v.Serves initial capacity first)
    (ids : IdSource) :
    (v.step (.settle ids)).Serves initial capacity first := by
  obtain ⟨done, hdelivers⟩ := hv.delivers
  obtain ⟨state, hstate⟩ := hv.alone.exists_state
  obtain ⟨m, published, -, hpoll, halone⟩ := hv.alone.poll ids hstate
  have hsettle : v.host.settle ids =
      ({ v.host with
          session := (v.host.session.poll ids).1
          shown := some (published.getLastD (v.published.getLastD initial)) },
        []) := by
    rw [Host.settle, hpoll, hv.shown_eq]
    simp only [List.getLastD_eq_getLast?]
    rfl
  have hrun : (v.step (.settle ids)).toRun first =
      (v.toRun first).poll ids := by
    show (⟨(v.host.settle ids).1.session, first ++ v.taken,
      v.published ++ (v.host.session.poll ids).2.2, none⟩ : Session.Run) = _
    have hpoll' : (v.toRun first).session.poll ids = _ := hpoll
    rw [hsettle, Session.Run.poll, hpoll', hpoll]
    rfl
  refine ⟨?_, ?_, ?_⟩
  · rw [hrun]
    exact Session.delivers_poll ids hdelivers
  · show (v.host.settle ids).1.session.Alone capacity
    rw [hsettle]
    exact halone
  · show (v.host.settle ids).1.shown =
      some ((v.published ++ (v.host.session.poll ids).2.2).getLastD initial)
    rw [hsettle, hpoll]
    simp only [List.getLastD_eq_getLast?, List.getLast?_append,
      Option.getD_or]

theorem Serves.foldl (hv : v.Serves initial capacity first)
    (steps : List Step) :
    (steps.foldl step v).Serves initial capacity first := by
  induction steps generalizing v with
  | nil => exact hv
  | cons st steps ih =>
      cases st with
      | run input => exact ih (hv.run input)
      | settle ids => exact ih (hv.settle ids)

/-- At first nothing is published, and the lines that were submitted wait. -/
theorem Serves.start {r : Session.Run} {done : List String}
    (hr : r.Filled initial capacity first)
    (hdelivers : r.Delivers .builtin initial done)
    (hfit : first.length ≤ capacity + 1) (config : Config) :
    Serves initial capacity first
      ⟨⟨config, r.session, some initial⟩, [], []⟩ := by
  have hstate : r.session.worker.state? = some initial := by
    rw [hr.worker_eq]
    rfl
  obtain ⟨-, hwait, hreturned⟩ := hdelivers.live initial hstate
  rw [hr.queue_eq, hr.accepted_eq] at hwait
  -- All that was accepted waits, so nothing was worked off.
  have hdone : done = [] := List.self_eq_append_left.mp hwait
  subst hdone
  have hpublished : r.published = [] :=
    List.eq_nil_of_length_eq_zero hdelivers.publishes.length_eq
  have haccepted : r.accepted = first := by
    rw [hr.accepted_eq, List.take_of_length_le hfit]
  have hrun : toRun first ⟨⟨config, r.session, some initial⟩, [], []⟩ = r := by
    rw [toRun, show taken ⟨⟨config, r.session, some initial⟩, [], []⟩ = []
      from rfl, List.append_nil, ← haccepted, ← hpublished, ← hreturned]
  refine ⟨⟨[], ?_⟩, hr.alone, rfl⟩
  rw [hrun]
  exact hdelivers

/-- The lines are those that are published and then those that wait. -/
theorem Serves.lines_eq (hv : v.Serves initial capacity first) :
    v.published.length ≤ (first ++ v.taken).length ∧
      first ++ v.taken = (first ++ v.taken).take v.published.length ++
        v.host.session.mailbox.queue := by
  obtain ⟨done, hdelivers⟩ := hv.delivers
  have hlen : v.published.length = done.length := hdelivers.publishes.length_eq
  obtain ⟨state, hstate⟩ := hv.alone.exists_state
  have hwait : first ++ v.taken = done ++ v.host.session.mailbox.queue :=
    (hdelivers.live state hstate).2.1
  refine ⟨?_, ?_⟩
  · rw [hlen]
    exact hdelivers.done_prefix.length_le
  · rw [hwait, hlen, List.take_left]

end Visit

/-! ## A host on the page -/

/-- The lines that a host submits by itself when it is mounted. -/
def firstLines (config : Config) (history : List Entry) : List String :=
  if history = [] then config.startup else []

/-- A host is mounted if a mailbox of its capacity can be made, and nothing
is noted if all startup lines fit. -/
theorem exists_mount?_eq (config : Config)
    (hcapacity : config.queueCapacity < Mailbox.capacityLimit)
    (hfit : config.startup.length ≤ config.queueCapacity + 1)
    (history : List Entry) :
    ∃ host : Host, mount? config history = some (host, []) ∧
      Visit.Serves ⟨config.initialCursor, history⟩ config.queueCapacity
        (firstLines config history) ⟨host, [], []⟩ := by
  by_cases hfirst : history = []
  · subst hfirst
    obtain ⟨done, hdelivers⟩ := Session.delivers_run .builtin
      config.initialState config.queueCapacity
      (config.startup.map (Session.Step.submit 0))
    have hserves := Visit.Serves.start (Session.filled_run .builtin
      config.initialState config.queueCapacity config.startup) hdelivers hfit
      config
    refine ⟨_, ?_, hserves⟩
    rw [mount?_without_history hcapacity, List.drop_eq_nil_of_le hfit]
    rfl
  · obtain ⟨done, hdelivers⟩ := Session.delivers_run .builtin
      ⟨config.initialCursor, history⟩ config.queueCapacity []
    have hserves := Visit.Serves.start
      (.start .builtin ⟨config.initialCursor, history⟩ config.queueCapacity)
      hdelivers (Nat.zero_le _) config
    rw [firstLines, if_neg hfirst]
    refine ⟨_, ?_, hserves⟩
    show (Session.start? Registry.builtin ⟨config.initialCursor, history⟩
      config.queueCapacity).bind _ = _
    rw [Session.start?, if_pos hcapacity, Option.bind_some]
    exact congrArg some (if_neg hfirst)

theorem load_embeddedSource : Config.load embeddedSource = ({}, false) := by
  decide +kernel

/-- The host that comes with the page is mounted with any history, without a
note. However lines are run and the worker is polled from then on, a line is
dropped exactly while more than the capacity wait, and all others are taken,
behind the startup lines if there was no history. The published states
work them off in that order, one more in each, and the rest wait. A published
state has the history that the host was mounted with and behind it an entry
for each line worked off, at the initial cursor, which never moves; and what
an entry answers is what its line is answered alone. -/
theorem visit_extends_history (history : List Entry) :
    ∃ (config : Config) (host : Host),
      Config.load embeddedSource = (config, false) ∧
      mount? config history = some (host, []) ∧
      ∀ steps : List Step,
        let v := Visit.of host steps
        let lines := firstLines config history ++ v.taken
        v.calls.map (·.1) = steps.filterMap Step.input? ∧
        (∀ input, (v.host.run input).2 =
          if config.queueCapacity < v.host.session.mailbox.queue.length then
            [.inputDropped .queueFull]
          else []) ∧
        v.host.shown =
          some (v.published.getLastD ⟨config.initialCursor, history⟩) ∧
        v.published.length ≤ lines.length ∧
        lines = lines.take v.published.length ++
          v.host.session.mailbox.queue ∧
        ∀ (k : Nat) (hk : k < v.published.length),
          v.published[k].cursor = config.initialCursor ∧
          ∃ added : List Entry,
            v.published[k].history = history ++ added ∧
            added.map (·.input) = lines.take (k + 1) ∧
            ∀ e ∈ added, e.cursor = config.initialCursor ∧
              Registry.builtin.AnswersAlone e := by
  obtain ⟨host, hmount, hserves⟩ :=
    exists_mount?_eq {} (by decide) (by decide) history
  refine ⟨{}, host, load_embeddedSource, hmount, fun steps => ?_⟩
  intro v lines
  have hv : v.Serves ⟨[], history⟩ 16 (firstLines {} history) :=
    hserves.foldl steps
  obtain ⟨hle, hlines⟩ := hv.lines_eq
  refine ⟨Visit.calls_foldl _ steps, Visit.notes_run hv.alone, hv.shown_eq,
    hle, hlines, fun k hk => ?_⟩
  obtain ⟨done, hdelivers⟩ := hv.delivers
  exact Registry.builtin_stands.leads (hdelivers.leads (k := k) hk)

/-- A visit without a history: fifteen lines do not fit behind the startup
lines, and there is room again after a poll. -/
def hasty : List Step :=
  List.replicate 15 (.run "echo a") ++
    [.settle EntryId.unused, .run " ", .settle EntryId.unused]

theorem fifteenth_line_is_dropped :
    ∃ (config : Config) (host : Host), mount? config [] = some (host, []) ∧
      (Visit.of host hasty).taken = List.replicate 14 "echo a" ++ [" "] ∧
      ∃ h : 17 < (Visit.of host hasty).published.length,
        (Visit.of host hasty).published[17].cursor = [] ∧
          (Visit.of host hasty).published[17].history.map (·.input) =
            "fetch" :: "news" :: "help" ::
              (List.replicate 14 "echo a" ++ [" "]) := by
  obtain ⟨config, host, hload, hmount, hvisit⟩ := visit_extends_history []
  obtain ⟨-, -, -, -, -, hpublished⟩ := hvisit hasty
  obtain rfl : {} = config :=
    congrArg Prod.fst (load_embeddedSource.symm.trans hload)
  have hseen : (mount? {} []).map (fun mounted =>
      ((Visit.of mounted.1 hasty).taken,
        (Visit.of mounted.1 hasty).published.length)) =
      some (List.replicate 14 "echo a" ++ [" "], 18) := by decide +kernel
  rw [hmount, Option.map_some] at hseen
  obtain ⟨htaken, hlength⟩ := Prod.mk.inj (Option.some.inj hseen)
  have hlen : 17 < (Visit.of host hasty).published.length := by
    rw [hlength]
    decide
  obtain ⟨hcursor, added, hadded, hinputs, -⟩ := hpublished 17 hlen
  refine ⟨{}, host, hmount, htaken, hlen, hcursor, ?_⟩
  rw [hadded, List.nil_append, hinputs, htaken]
  rfl

end Host

end PageShell
