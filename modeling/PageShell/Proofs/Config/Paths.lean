import PageShell.Proofs.Config.Accepted

/-!
# Paths tell cursors apart

The path of a cursor is its parts behind one slash each, and the root, which
has no part, has a slash all the same. Splitting a path at its slashes gives
the parts back if no part holds a slash, with one exception: the path of the
cursor whose only part is empty is the path of the root. These are all the
cursors that a path does not give back (`cursorOfPath?_cursorPath_iff`); an
empty part among others does no harm.

The check of the ranges asks more than that, of each part by itself: it is
not empty and holds no slash. So among the cursors of accepted
configurations paths are as good as cursors, and so are prompts behind one
identity, which are a path between two fixed texts.
-/

namespace PageShell

/-- The cursor that an absolute path names: the parts between its slashes,
and none for the root. -/
def cursorOfPath? (path : String) : Option (List String) :=
  match path.toList with
  | '/' :: [] => some []
  | '/' :: cs => some ((cs.splitOn '/').map String.ofList)
  | _ => none

theorem toList_cursorPath (cursor : List String) :
    (cursorPath cursor).toList =
      '/' :: ['/'].intercalate (cursor.map String.toList) := by
  rw [cursorPath, String.toList_append, String.toList_intercalate]
  rfl

theorem not_mem_of_mem_splitOn {c : Char} {cs part : List Char}
    (h : part ∈ cs.splitOn c) : c ∉ part := by
  induction cs generalizing part with
  | nil =>
      cases List.mem_singleton.mp h
      exact List.not_mem_nil
  | cons c' cs ih =>
      rw [List.splitOn_cons_eq_if_modifyHead] at h
      split at h
      · rcases List.mem_cons.mp h with rfl | h
        · exact List.not_mem_nil
        · exact ih h
      · next hne =>
          cases hsplit : cs.splitOn c with
          | nil => exact absurd hsplit (List.splitOn_ne_nil c cs)
          | cons first rest =>
              rw [hsplit, List.modifyHead_cons] at h
              rw [hsplit] at ih
              rcases List.mem_cons.mp h with rfl | h
              · have hfirst := ih List.mem_cons_self
                rintro (_ | ⟨_, hmem⟩)
                · exact hne (beq_self_eq_true c)
                · exact hfirst hmem
              · exact ih (List.mem_cons_of_mem first h)

/-- What a path has behind its first slash is empty for two cursors only. -/
theorem intercalate_eq_nil_iff {cursor : List String} :
    ['/'].intercalate (cursor.map String.toList) = [] ↔
      cursor = [] ∨ cursor = [""] := by
  match cursor with
  | [] => exact iff_of_true rfl (.inl rfl)
  | [part] =>
      rw [List.map_singleton, List.intercalate_singleton,
        String.toList_eq_nil_iff, List.cons.injEq]
      simp
  | part :: next :: cursor =>
      rw [List.map_cons, List.map_cons, List.intercalate_cons_cons]
      simp

theorem cursorOfPath?_root : cursorOfPath? "/" = some [] := by
  decide

theorem cursorOfPath?_cursorPath {cursor : List String}
    (h : ['/'].intercalate (cursor.map String.toList) ≠ []) :
    cursorOfPath? (cursorPath cursor) =
      some (((['/'].intercalate (cursor.map String.toList)).splitOn '/').map
        String.ofList) := by
  obtain ⟨c, cs, hcons⟩ := List.exists_cons_of_ne_nil h
  rw [cursorOfPath?, toList_cursorPath, hcons]
  rfl

/-- A cursor is given back by its path unless a slash is in one of its parts,
or its only part is empty. -/
theorem cursorOfPath?_cursorPath_iff {cursor : List String} :
    cursorOfPath? (cursorPath cursor) = some cursor ↔
      cursor ≠ [""] ∧ ∀ part ∈ cursor, '/' ∉ part.toList := by
  by_cases hnil : ['/'].intercalate (cursor.map String.toList) = []
  · rcases intercalate_eq_nil_iff.mp hnil with rfl | rfl
    · refine iff_of_true cursorOfPath?_root ⟨by simp, fun part hpart => ?_⟩
      cases hpart
    · exact iff_of_false (by decide) fun h => h.1 rfl
  · rw [cursorOfPath?_cursorPath hnil, Option.some_inj]
    constructor
    · intro h
      refine ⟨fun heq => hnil (intercalate_eq_nil_iff.mpr (.inr heq)), ?_⟩
      intro part hpart
      rw [← h] at hpart
      obtain ⟨cs, hcs, rfl⟩ := List.mem_map.mp hpart
      rw [String.toList_ofList]
      exact not_mem_of_mem_splitOn hcs
    · rintro ⟨-, hparts⟩
      have hne : cursor.map String.toList ≠ [] := by
        intro h
        rw [h] at hnil
        exact hnil rfl
      have hslash : ∀ cs ∈ cursor.map String.toList, '/' ∉ cs := by
        intro cs hcs
        obtain ⟨part, hpart, rfl⟩ := List.mem_map.mp hcs
        exact hparts part hpart
      rw [List.splitOn_intercalate '/' hslash hne, List.map_map]
      exact List.map_id'' (fun _ => String.ofList_toList) cursor

/-! ## Cursors of accepted configurations -/

namespace Config

variable {source source' : String} {config config' : Config}

theorem cursorOfPath?_path (h : config.InRange) :
    cursorOfPath? config.initialState.path = some config.initialCursor := by
  refine cursorOfPath?_cursorPath_iff.mpr ⟨fun hempty => ?_, ?_⟩
  · have hmem : "" ∈ config.initialCursor := by
      rw [show config.initialCursor = [""] from hempty]
      exact List.mem_singleton.mpr rfl
    exact (h.segments "" hmem).1 rfl
  · intro part hpart
    exact (h.segments part hpart).2

theorem path_eq_iff (h : config.InRange) (h' : config'.InRange) :
    config.initialState.path = config'.initialState.path ↔
      config.initialCursor = config'.initialCursor := by
  constructor
  · intro hpath
    have hcursor := cursorOfPath?_path h
    rw [hpath, cursorOfPath?_path h'] at hcursor
    exact (Option.some.inj hcursor).symm
  · intro hcursor
    rw [initialState, initialState, hcursor]

theorem promptLabel_eq_iff (hidentity : config.identity = config'.identity)
    (cursor cursor' : List String) :
    config.promptLabel cursor = config'.promptLabel cursor' ↔
      cursorPath cursor = cursorPath cursor' := by
  rw [promptLabel, promptLabel, hidentity, String.append_left_inj,
    String.append_right_inj]

/-- The path that an accepted configuration shows at first names its cursor.
So two accepted configurations show the same path exactly if they have the
same cursor, and if they have one identity, the same goes for their
prompts. -/
theorem path_names_accepted_cursor (h : ofText source = .ok config) :
    cursorOfPath? config.initialState.path = some config.initialCursor ∧
      ∀ (source' : String) (config' : Config),
        ofText source' = .ok config' →
        (config.initialState.path = config'.initialState.path ↔
          config.initialCursor = config'.initialCursor) ∧
        (config.identity = config'.identity →
          (config.promptLabel config.initialState.cursor =
              config'.promptLabel config'.initialState.cursor ↔
            config.initialCursor = config'.initialCursor)) := by
  have hrange := inRange_of_ofText h
  refine ⟨cursorOfPath?_path hrange, fun source' config' h' => ?_⟩
  have hpath := path_eq_iff hrange (inRange_of_ofText h')
  refine ⟨hpath, fun hidentity => ?_⟩
  rw [promptLabel_eq_iff hidentity]
  exact hpath

def nestedSource : String := "initial_cwd = [\"posts\", \"2025\"]\n"

def nested : Config where
  initialCursor := ["posts", "2025"]

def joined : Config where
  initialCursor := ["posts 2025"]

theorem nested_cursor_is_named :
    ofText nestedSource = .ok nested ∧
      ofText "initial_cwd = ['posts 2025']" = .ok joined ∧
      cursorOfPath? "/posts/2025" = some nested.initialCursor ∧
      nested.initialState.path ≠ joined.initialState.path ∧
      nested.promptLabel nested.initialState.cursor ≠
        joined.promptLabel joined.initialState.cursor := by
  have hnested : ofText nestedSource = .ok nested :=
    ofText_of_load (by decide +kernel)
  have hjoined : ofText "initial_cwd = ['posts 2025']" = .ok joined :=
    ofText_of_load (by decide +kernel)
  have hne : nested.initialCursor ≠ joined.initialCursor := by decide
  obtain ⟨hread, hothers⟩ := path_names_accepted_cursor hnested
  obtain ⟨hpath, hlabel⟩ := hothers _ joined hjoined
  exact ⟨hnested, hjoined, hread, mt hpath.mp hne, mt (hlabel rfl).mp hne⟩

end Config

end PageShell
