import PageShell.Proofs.Command.Dispatch

/-!
# Which commands make a registry

A registry is assembled by calls that add one command or several. All calls
come down to `registerAll`, and that to `register`, so what a sequence of
calls comes to depends on the commands alone, in the order in which they are
fed; where one call ends and the next begins is lost
(`assembleFrom_eq_registerAll`).

A command is refused for its own name or for the names before it. When it is
looked at, the commands before it are a table: they have been accepted, so
their names are typable and differ. Hence a name that is not typable is never
also a repetition, and of the two complaints there is only ever one to make.
The first command that has one ends the assembly, which is the content of
`registerAll_eq_error_iff`; that there is none is the same as all of the
commands being a table.
-/

namespace PageShell

namespace Registry

/-- Commands that a registry can have: each name can be typed, and no two are
the same. -/
def IsTable (commands : List Command) : Prop :=
  (∀ command ∈ commands, IsTypable command.name) ∧
    (commands.map (·.name)).Nodup

/-- Why a command cannot be added to the ones before it. A name that cannot be
typed is refused as that, whether it is a repetition or not. -/
inductive Refuses (earlier : List Command) (command : Command) :
    RegistryError → Prop where
  | invalid : ¬IsTypable command.name →
      Refuses earlier command (.invalidName command.name)
  | duplicate : IsTypable command.name →
      command.name ∈ earlier.map (·.name) →
      Refuses earlier command (.duplicateCommand command.name)

theorem isTable_commands (registry : Registry) : IsTable registry.commands :=
  ⟨registry.typable, registry.distinct⟩

theorem IsTable.of_append {commands more : List Command}
    (h : IsTable (commands ++ more)) : IsTable commands := by
  obtain ⟨htypable, hdistinct⟩ := h
  rw [List.map_append] at hdistinct
  exact ⟨(List.forall_mem_append.mp htypable).1,
    (List.nodup_append.mp hdistinct).1⟩

theorem IsTable.perm {commands commands' : List Command}
    (h : IsTable commands) (hperm : commands'.Perm commands) :
    IsTable commands' :=
  ⟨fun command hmem => h.1 command (hperm.mem_iff.mp hmem),
    (hperm.map _).nodup_iff.mpr h.2⟩

/-- A table goes on as one exactly with a command that is not refused. -/
theorem isTable_concat_iff {earlier : List Command} {command : Command} :
    IsTable (earlier ++ [command]) ↔
      IsTable earlier ∧ ∀ e, ¬Refuses earlier command e := by
  have hnames : ((earlier ++ [command]).map (·.name)).Nodup ↔
      (earlier.map (·.name)).Nodup ∧
        command.name ∉ earlier.map (·.name) := by
    rw [List.map_append, List.map_singleton, ← List.concat_eq_append,
      List.nodup_concat, and_comm]
  unfold IsTable
  rw [List.forall_mem_append, List.forall_mem_singleton, hnames]
  constructor
  · rintro ⟨⟨hearlier, htypable⟩, hdistinct, hfresh⟩
    refine ⟨⟨hearlier, hdistinct⟩, fun e he => ?_⟩
    cases he with
    | invalid hnot => exact hnot htypable
    | duplicate _ hmem => exact hfresh hmem
  · rintro ⟨⟨hearlier, hdistinct⟩, hnone⟩
    have htypable : IsTypable command.name :=
      Decidable.not_not.mp fun hnot => hnone _ (.invalid hnot)
    exact ⟨⟨hearlier, htypable⟩, hdistinct,
      fun hmem => hnone _ (.duplicate htypable hmem)⟩

/-! ## One command -/

/-- A registry is no more than its commands. -/
theorem eq_of_commands {registry registry' : Registry}
    (h : registry.commands = registry'.commands) : registry = registry' := by
  cases registry
  cases registry'
  cases h
  rfl

variable (registry : Registry)

theorem register_eq_error_iff {command : Command} {e : RegistryError} :
    registry.register command = .error e ↔
      Refuses registry.commands command e := by
  constructor
  · intro h
    unfold register at h
    split at h
    · next htypable =>
        split at h
        · next htaken =>
            cases h
            exact .duplicate htypable htaken
        · cases h
    · next hnot =>
        cases h
        exact .invalid hnot
  · intro h
    unfold register
    cases h with
    | invalid hnot => rw [dif_neg hnot]
    | duplicate htypable htaken =>
        have htaken : command.name ∈ registry.names := htaken
        rw [dif_pos htypable, dif_pos htaken]

/-- A command is refused, or the registry goes on with it. -/
theorem register_cases (command : Command) :
    (∃ e, Refuses registry.commands command e ∧
        registry.register command = .error e) ∨
      ∃ next, registry.register command = .ok next ∧
        next.commands = registry.commands ++ [command] := by
  cases h : registry.register command with
  | error e => exact .inl ⟨e, registry.register_eq_error_iff.mp h, rfl⟩
  | ok next =>
      refine .inr ⟨next, rfl, ?_⟩
      unfold register at h
      split at h
      · split at h
        · cases h
        · cases h
          rfl
      · cases h

/-! ## Commands one after the other -/

theorem registerAll_cons_ok {command : Command} {next : Registry}
    (h : registry.register command = .ok next) (commands : List Command) :
    registry.registerAll (command :: commands) = next.registerAll commands := by
  rw [registerAll, h]
  rfl

theorem registerAll_cons_error {command : Command} {e : RegistryError}
    (h : registry.register command = .error e) (commands : List Command) :
    registry.registerAll (command :: commands) = .error e := by
  rw [registerAll, h]
  rfl

theorem registerAll_append (commands more : List Command) :
    registry.registerAll (commands ++ more) =
      registry.registerAll commands >>= fun next => next.registerAll more := by
  induction commands generalizing registry with
  | nil => rfl
  | cons command commands ih =>
      rw [List.cons_append]
      cases h : registry.register command with
      | error e =>
          rw [registry.registerAll_cons_error h,
            registry.registerAll_cons_error h]
          rfl
      | ok next =>
          rw [registry.registerAll_cons_ok h, registry.registerAll_cons_ok h,
            ih]

/-- Commands are registered to the end exactly if a registry has them after
those there were, and then this is the registry. -/
theorem registerAll_eq_ok_iff {whole : Registry} {commands : List Command} :
    registry.registerAll commands = .ok whole ↔
      whole.commands = registry.commands ++ commands := by
  induction commands generalizing registry with
  | nil =>
      rw [List.append_nil, registerAll]
      constructor
      · intro h
        cases h
        rfl
      · intro h
        rw [eq_of_commands h]
  | cons command commands ih =>
      have hassoc : registry.commands ++ command :: commands =
          registry.commands ++ [command] ++ commands := by
        rw [List.append_assoc, List.singleton_append]
      rw [hassoc]
      rcases registry.register_cases command with
        ⟨e, hrefused, h⟩ | ⟨next, h, hnext⟩
      · rw [registry.registerAll_cons_error h]
        constructor
        · intro herror
          cases herror
        · intro hwhole
          have htable := whole.isTable_commands
          rw [hwhole] at htable
          exact absurd hrefused
            ((isTable_concat_iff.mp htable.of_append).2 e)
      · rw [registry.registerAll_cons_ok h, ih, hnext]

/-- Every registry can be assembled from its commands. -/
theorem registerAll_of_commands {registry whole : Registry}
    {commands : List Command}
    (h : whole.commands = registry.commands ++ commands) :
    registry.registerAll commands = .ok whole :=
  registry.registerAll_eq_ok_iff.mpr h

theorem exists_registerAll_iff {commands : List Command} :
    (∃ whole, registry.registerAll commands = .ok whole) ↔
      IsTable (registry.commands ++ commands) := by
  constructor
  · rintro ⟨whole, h⟩
    rw [← registry.registerAll_eq_ok_iff.mp h]
    exact whole.isTable_commands
  · rintro ⟨htypable, hdistinct⟩
    exact ⟨⟨_, htypable, hdistinct⟩, registerAll_of_commands rfl⟩

/-- The error is that of the first command that is refused. -/
theorem registerAll_eq_error_iff {commands : List Command}
    {e : RegistryError} :
    registry.registerAll commands = .error e ↔
      ∃ earlier command later, commands = earlier ++ command :: later ∧
        IsTable (registry.commands ++ earlier) ∧
        Refuses (registry.commands ++ earlier) command e := by
  constructor
  · intro h
    induction commands generalizing registry with
    | nil => cases h
    | cons command commands ih =>
        cases hfirst : registry.register command with
        | error e' =>
            rw [registry.registerAll_cons_error hfirst] at h
            cases h
            refine ⟨[], command, commands, rfl, ?_, ?_⟩
            · rw [List.append_nil]
              exact registry.isTable_commands
            · rw [List.append_nil]
              exact registry.register_eq_error_iff.mp hfirst
        | ok next =>
            rw [registry.registerAll_cons_ok hfirst] at h
            obtain ⟨earlier, refused, later, rfl, htable, hrefused⟩ := ih _ h
            have hnext : next.commands = registry.commands ++ [command] :=
              registry.registerAll_eq_ok_iff.mp
                (registry.registerAll_cons_ok hfirst [])
            rw [hnext, List.append_assoc, List.singleton_append]
              at htable hrefused
            exact ⟨command :: earlier, refused, later, rfl, htable, hrefused⟩
  · rintro ⟨earlier, command, later, rfl, htable, hrefused⟩
    obtain ⟨next, hnext⟩ := registry.exists_registerAll_iff.mpr htable
    rw [← registry.registerAll_eq_ok_iff.mp hnext] at hrefused
    rw [registry.registerAll_append, hnext]
    exact next.registerAll_cons_error
      (next.register_eq_error_iff.mpr hrefused) later

/-! ## Calls -/

/-- A call that adds commands. -/
inductive Call where
  | register (command : Command)
  | registerAll (commands : List Command)

/-- The commands that a call is given. -/
def Call.commands : Call → List Command
  | .register command => [command]
  | .registerAll commands => commands

def call : Call → Except RegistryError Registry
  | .register command => registry.register command
  | .registerAll commands => registry.registerAll commands

/-- What calls make of a registry, up to the first that is refused. -/
def assembleFrom (calls : List Call) : Except RegistryError Registry :=
  calls.foldlM call registry

/-- The registry that calls make. -/
def assemble (calls : List Call) : Except RegistryError Registry :=
  empty.assembleFrom calls

theorem call_eq_registerAll (c : Call) :
    registry.call c = registry.registerAll c.commands := by
  cases c with
  | registerAll commands => rfl
  | register command =>
      cases h : registry.register command with
      | error e => exact h.trans (registry.registerAll_cons_error h []).symm
      | ok next => exact h.trans (registry.registerAll_cons_ok h []).symm

theorem assembleFrom_eq_registerAll (calls : List Call) :
    registry.assembleFrom calls =
      registry.registerAll (calls.flatMap Call.commands) := by
  induction calls generalizing registry with
  | nil => rfl
  | cons c calls ih =>
      rw [List.flatMap_cons, registerAll_append, ← call_eq_registerAll,
        assembleFrom, List.foldlM_cons]
      exact congrArg (registry.call c >>= ·) (funext fun next => ih next)

/-- Lookup does not depend on the order of the commands. -/
theorem resolve?_perm {registry registry' : Registry}
    (h : registry'.commands.Perm registry.commands) (name : String) :
    registry'.resolve? name = registry.resolve? name := by
  refine Option.ext fun command => ?_
  rw [registry'.resolve?_eq_some_iff, registry.resolve?_eq_some_iff, h.mem_iff]

/-- A sequence of calls makes a registry exactly if the names it is fed can
all be typed and differ from each other. Otherwise it is refused for the first
command whose name cannot be typed or has been used before. The registry has
the commands in the order in which they were fed, and a name is looked up as
the one of them that has it. Other calls with the same commands come to the
same, and with the commands in another order to a registry that looks every
name up alike. -/
theorem assembled_exactly_of_tables (calls : List Call) :
    let commands := calls.flatMap Call.commands
    ((∃ registry, assemble calls = .ok registry) ↔
      (∀ command ∈ commands, IsTypable command.name) ∧
        (commands.map (·.name)).Nodup) ∧
    (∀ e, assemble calls = .error e ↔
      ∃ earlier command later, commands = earlier ++ command :: later ∧
        IsTable earlier ∧ Refuses earlier command e) ∧
    (∀ registry, assemble calls = .ok registry →
      registry.commands = commands ∧
      registry.names = commands.map (·.name) ∧
      ∀ name,
        (∀ command, registry.resolve? name = some command ↔
          command ∈ commands ∧ command.name = name) ∧
        (registry.resolve? name = none ↔ name ∉ commands.map (·.name))) ∧
    (∀ calls' : List Call, calls'.flatMap Call.commands = commands →
      assemble calls' = assemble calls) ∧
    ∀ calls' : List Call, (calls'.flatMap Call.commands).Perm commands →
      ∀ registry, assemble calls = .ok registry →
        ∃ registry', assemble calls' = .ok registry' ∧
          ∀ name, registry'.resolve? name = registry.resolve? name := by
  intro commands
  have hall : ∀ calls, assemble calls =
      empty.registerAll (calls.flatMap Call.commands) :=
    empty.assembleFrom_eq_registerAll
  have hok : ∀ {calls registry}, assemble calls = .ok registry →
      registry.commands = calls.flatMap Call.commands := by
    intro calls registry h
    rw [hall] at h
    exact empty.registerAll_eq_ok_iff.mp h
  refine ⟨?_, fun e => ?_, fun registry h => ?_, fun calls' h => ?_,
    fun calls' h registry hregistry => ?_⟩
  · rw [hall]
    exact empty.exists_registerAll_iff
  · rw [hall]
    exact empty.registerAll_eq_error_iff
  · have hcommands : registry.commands = commands := hok h
    refine ⟨hcommands, by rw [names, hcommands], fun name => ⟨fun command => ?_,
      ?_⟩⟩
    · rw [registry.resolve?_eq_some_iff, hcommands]
    · rw [registry.resolve?_eq_none_iff, hcommands]
      simp
  · rw [hall, hall, h]
  · have htable := registry.isTable_commands
    rw [hok hregistry] at htable
    obtain ⟨registry', hregistry'⟩ :=
      empty.exists_registerAll_iff.mpr (htable.perm h)
    replace hregistry' := (hall calls').trans hregistry'
    refine ⟨registry', hregistry', resolve?_perm ?_⟩
    rw [hok hregistry', hok hregistry]
    exact h

/-- A command that answers nothing. -/
def silent (name : String) : Command :=
  ⟨⟨name, ""⟩, .render fun _ => .sequence []⟩

/-- Three names in two calls, or in one and another order; a name that comes
back in a later call, in front of one with a blank; and that one twice. -/
theorem repeated_name_is_refused :
    (∃ registry, assemble [.register (silent "zeta"),
          .registerAll [silent "alpha", silent "mid"]] = .ok registry ∧
      registry.names = ["zeta", "alpha", "mid"] ∧
      registry.resolve? "alpha" = some (silent "alpha") ∧
      registry.resolve? "Alpha" = none ∧
      ∃ registry', assemble [.registerAll
            [silent "mid", silent "zeta", silent "alpha"]] = .ok registry' ∧
        ∀ name, registry'.resolve? name = registry.resolve? name) ∧
    assemble [.registerAll [silent "alpha", silent "mid"],
        .registerAll [silent "alpha", silent "a b"]] =
      .error (.duplicateCommand "alpha") ∧
    assemble [.register (silent "a b"), .register (silent "a b")] =
      .error (.invalidName "a b") := by
  refine ⟨?_, ?_, ?_⟩
  · obtain ⟨hok, -, hregistry, -, hperm⟩ := assembled_exactly_of_tables
      [.register (silent "zeta"),
        .registerAll [silent "alpha", silent "mid"]]
    obtain ⟨registry, h⟩ := hok.mpr (by decide +kernel)
    obtain ⟨-, hnames, hlookup⟩ := hregistry registry h
    refine ⟨registry, h, hnames, ?_, ?_, hperm _ ?_ registry h⟩
    · exact ((hlookup "alpha").1 _).mpr ⟨.tail _ (.head _), rfl⟩
    · exact (hlookup "Alpha").2.mpr (by decide +kernel)
    · show ([silent "mid"] ++ [silent "zeta", silent "alpha"]).Perm _
      exact List.perm_append_comm
  · obtain ⟨-, herror, -⟩ := assembled_exactly_of_tables
      [.registerAll [silent "alpha", silent "mid"],
        .registerAll [silent "alpha", silent "a b"]]
    refine (herror _).mpr ⟨[silent "alpha", silent "mid"], silent "alpha",
      [silent "a b"], rfl, ?_, .duplicate ?_ ?_⟩
    · exact ⟨by decide +kernel, by decide +kernel⟩
    · decide +kernel
    · decide +kernel
  · obtain ⟨-, herror, -⟩ := assembled_exactly_of_tables
      [.register (silent "a b"), .register (silent "a b")]
    refine (herror _).mpr ⟨[], silent "a b", [silent "a b"], rfl, ?_,
      .invalid ?_⟩
    · exact empty.isTable_commands
    · decide +kernel

end Registry

end PageShell
