import PageShell.Config
import PageShell.Proofs.Json.Nesting
import PageShell.Proofs.Toml.Keys

/-!
# Which configurations are accepted

The keys of a document are given their values one after the other, each on
top of what the ones before have made of the default configuration. That the
order does not matter is because a document has no key twice
(`Toml.nodup_keys_of_ofText?`): the value of a field is the one that the
document gives for its key, or the one it had to begin with, and `Describes`
says so without any order. The proof goes through the fields once, for a
single entry, and from there by induction, where the configuration that is
described so far takes the place of the default one.

The ranges are looked at only when all keys have their values, so a document
of the wrong shape is refused for its shape whatever its values are, and one
that is refused for a range has a configuration that it describes.
-/

namespace PageShell

namespace Toml

/-- The items of an array, which may be an array of tables. -/
def items? : Toml → Option (List Toml)
  | .array items => some items
  | .tables items => some (items.map (.table .header))
  | _ => none

def IsText (value : Toml) (text : String) : Prop := value = .string text

def IsTexts (value : Toml) (texts : List String) : Prop :=
  value.items? = some (texts.map .string)

def IsNatural (value : Toml) (n : Nat) : Prop := value = .integer n

theorem IsText.unique (value : Toml) (s t : String) (hs : value.IsText s)
    (ht : value.IsText t) : s = t :=
  Toml.string.inj (hs.symm.trans ht)

theorem IsTexts.unique (value : Toml) (ss ts : List String)
    (hs : value.IsTexts ss) (ht : value.IsTexts ts) : ss = ts :=
  List.map_injective_iff.mpr (fun _ _ => Toml.string.inj)
    (Option.some.inj (hs.symm.trans ht))

theorem IsNatural.unique (value : Toml) (m n : Nat) (hm : value.IsNatural m)
    (hn : value.IsNatural n) : m = n :=
  Int.ofNat.inj (Toml.integer.inj (hm.symm.trans hn))

variable {α : Type} {entries : List (String × Toml)} {key k : String}
  {Reads : Toml → α → Prop} {standard x y : α}

/-- The value of a field after the entries: they give it under the key of the
field, or they leave the key out and it is the standard one. -/
structure Gives (entries : List (String × Toml)) (key : String)
    (Reads : Toml → α → Prop) (standard x : α) : Prop where
  given : ∀ value, (key, value) ∈ entries → Reads value x
  leftOut : key ∉ entries.map (·.1) → x = standard

theorem Gives.unique (hunique : ∀ value a b, Reads value a →
    Reads value b → a = b) (hx : Gives entries key Reads standard x)
    (hy : Gives entries key Reads standard y) : x = y := by
  by_cases hkey : key ∈ entries.map (·.1)
  · obtain ⟨⟨_, value⟩, hmem, rfl⟩ := List.mem_map.mp hkey
    exact hunique value x y (hx.given value hmem) (hy.given value hmem)
  · rw [hx.leftOut hkey, hy.leftOut hkey]

theorem Gives.nil : Gives [] key Reads standard standard where
  given _ hmem := by cases hmem
  leftOut _ := rfl

theorem Gives.single {value : Toml} (h : Reads value x) :
    Gives [(key, value)] key Reads standard x where
  given value' hmem := by
    cases List.mem_singleton.mp hmem
    exact h
  leftOut hkey := absurd (List.mem_singleton.mpr rfl) hkey

theorem Gives.other {value : Toml} (hne : key ≠ k) :
    Gives [(k, value)] key Reads standard standard where
  given value' hmem := by
    cases List.mem_singleton.mp hmem
    exact absurd rfl hne
  leftOut _ := rfl

/-- What comes after does not give the key of the first entry again. -/
theorem Gives.cons {value : Toml} (hk : k ∉ entries.map (·.1))
    (hfirst : Gives [(k, value)] key Reads standard y)
    (hrest : Gives entries key Reads y x) :
    Gives ((k, value) :: entries) key Reads standard x where
  given value' hmem := by
    rcases List.mem_cons.mp hmem with heq | hmem
    · cases heq
      rw [hrest.leftOut hk]
      exact hfirst.given value (List.mem_singleton.mpr rfl)
    · exact hrest.given value' hmem
  leftOut hkey := by
    rw [List.map_cons, List.mem_cons, not_or] at hkey
    rw [hrest.leftOut hkey.2,
      hfirst.leftOut (mt List.mem_singleton.mp hkey.1)]

theorem Gives.perm {entries' : List (String × Toml)}
    (hperm : entries.Perm entries')
    (h : Gives entries key Reads standard x) :
    Gives entries' key Reads standard x where
  given value hmem := h.given value (hperm.mem_iff.mpr hmem)
  leftOut hkey := h.leftOut (mt (hperm.map _).mem_iff.mp hkey)

end Toml

namespace Config

/-- The entries have the keys of a configuration only, and over the standard
configuration they give the fields their values. -/
structure Describes (entries : List (String × Toml))
    (standard config : Config) : Prop where
  known : ∀ key ∈ entries.map (·.1), key ∈ keys
  user : Toml.Gives entries "user" Toml.IsText standard.user config.user
  host : Toml.Gives entries "host" Toml.IsText standard.host config.host
  initialCursor : Toml.Gives entries "initial_cwd" Toml.IsTexts
    standard.initialCursor config.initialCursor
  startup : Toml.Gives entries "startup" Toml.IsTexts standard.startup
    config.startup
  queueCapacity : Toml.Gives entries "queue_capacity" Toml.IsNatural
    standard.queueCapacity config.queueCapacity

/-- The key is one of a configuration, and the value is of its type. -/
inductive Fits : String → Toml → Prop
  | user {value : Toml} {text : String} (h : value.IsText text) :
      Fits "user" value
  | host {value : Toml} {text : String} (h : value.IsText text) :
      Fits "host" value
  | initialCursor {value : Toml} {texts : List String}
      (h : value.IsTexts texts) : Fits "initial_cwd" value
  | startup {value : Toml} {texts : List String} (h : value.IsTexts texts) :
      Fits "startup" value
  | queueCapacity {value : Toml} {n : Nat} (h : value.IsNatural n) :
      Fits "queue_capacity" value

/-- The ranges of the values are kept. -/
structure InRange (config : Config) : Prop where
  capacity : 1 ≤ config.queueCapacity
  segments : ∀ segment ∈ config.initialCursor, IsSegment segment

variable {entries : List (String × Toml)} {standard config config' : Config}
  {key : String} {value : Toml}

/-! ## Descriptions -/

theorem Describes.unique (h : Describes entries standard config)
    (h' : Describes entries standard config') : config = config' := by
  obtain ⟨user, host, cursor, startup, capacity⟩ := config
  obtain ⟨user', host', cursor', startup', capacity'⟩ := config'
  obtain rfl : user = user' := h.user.unique Toml.IsText.unique h'.user
  obtain rfl : host = host' := h.host.unique Toml.IsText.unique h'.host
  obtain rfl : cursor = cursor' :=
    h.initialCursor.unique Toml.IsTexts.unique h'.initialCursor
  obtain rfl : startup = startup' :=
    h.startup.unique Toml.IsTexts.unique h'.startup
  obtain rfl : capacity = capacity' :=
    h.queueCapacity.unique Toml.IsNatural.unique h'.queueCapacity
  rfl

theorem Describes.perm {entries' : List (String × Toml)}
    (hperm : entries.Perm entries')
    (h : Describes entries standard config) :
    Describes entries' standard config where
  known key hkey := h.known key ((hperm.map _).mem_iff.mpr hkey)
  user := h.user.perm hperm
  host := h.host.perm hperm
  initialCursor := h.initialCursor.perm hperm
  startup := h.startup.perm hperm
  queueCapacity := h.queueCapacity.perm hperm

theorem Describes.nil : Describes [] config config where
  known _ hkey := by cases hkey
  user := .nil
  host := .nil
  initialCursor := .nil
  startup := .nil
  queueCapacity := .nil

theorem Describes.cons {next : Config} (hkey : key ∉ entries.map (·.1))
    (hfirst : Describes [(key, value)] standard next)
    (hrest : Describes entries next config) :
    Describes ((key, value) :: entries) standard config where
  known k hk := by
    rcases List.mem_cons.mp hk with rfl | hk
    · exact hfirst.known k (List.mem_singleton.mpr rfl)
    · exact hrest.known k hk
  user := hfirst.user.cons hkey hrest.user
  host := hfirst.host.cons hkey hrest.host
  initialCursor := hfirst.initialCursor.cons hkey hrest.initialCursor
  startup := hfirst.startup.cons hkey hrest.startup
  queueCapacity := hfirst.queueCapacity.cons hkey hrest.queueCapacity

theorem Describes.fits (h : Describes entries standard config)
    (hmem : (key, value) ∈ entries) : Fits key value := by
  have hkey := h.known key (List.mem_map_of_mem hmem)
  simp only [keys, List.mem_cons, List.not_mem_nil, or_false] at hkey
  rcases hkey with rfl | rfl | rfl | rfl | rfl
  · exact .user (h.user.given value hmem)
  · exact .host (h.host.given value hmem)
  · exact .initialCursor (h.initialCursor.given value hmem)
  · exact .startup (h.startup.given value hmem)
  · exact .queueCapacity (h.queueCapacity.given value hmem)

/-! ## Reading values -/

theorem text_eq_ok_iff {text : String} :
    Config.text value = .ok text ↔ value.IsText text := by
  unfold Toml.IsText
  cases value <;> simp [Config.text]

theorem mapM_text_eq_ok_iff {items : List Toml} {texts : List String} :
    items.mapM text = .ok texts ↔ items = texts.map .string := by
  induction items generalizing texts with
  | nil => cases texts <;> simp [pure, Except.pure]
  | cons item items ih =>
      rw [List.mapM_cons]
      constructor
      · intro h
        obtain ⟨first, hfirst, h⟩ := Json.exists_of_bind_eq_ok h
        obtain ⟨rest, hrest, h⟩ := Json.exists_of_bind_eq_ok h
        cases h
        rw [ih.mp hrest, text_eq_ok_iff.mp hfirst]
        rfl
      · intro h
        cases texts with
        | nil => cases h
        | cons first rest =>
            obtain ⟨hfirst, hrest⟩ := List.cons.inj h
            rw [text_eq_ok_iff.mpr hfirst, ih.mpr hrest]
            rfl

theorem texts_eq_ok_iff {texts : List String} :
    Config.texts value = .ok texts ↔ value.IsTexts texts := by
  unfold Toml.IsTexts
  cases value with
  | array items =>
      rw [Config.texts, mapM_text_eq_ok_iff, Toml.items?, Option.some_inj]
  | tables items =>
      cases items <;> cases texts <;> simp [Config.texts, Toml.items?]
  | _ => simp [Config.texts, Toml.items?]

theorem natural_eq_ok_iff {n : Nat} :
    natural value = .ok n ↔ value.IsNatural n := by
  unfold Toml.IsNatural
  cases value with
  | integer i =>
      rw [natural, Toml.integer.injEq]
      split
      · rw [Except.ok.injEq]
        omega
      · exact iff_of_false nofun (by omega)
  | _ => simp [natural]

/-! ## Giving keys their values -/

theorem describes_of_set (h : standard.set key value = .ok config) :
    Describes [(key, value)] standard config := by
  have hknown (hkey : key ∈ keys) :
      ∀ k ∈ [(key, value)].map (·.1), k ∈ keys := fun k hk =>
    List.mem_singleton.mp hk ▸ hkey
  unfold set at h
  split at h
  · next hkey =>
      subst hkey
      obtain ⟨user, huser, h⟩ := Json.exists_of_bind_eq_ok h
      cases h
      exact ⟨hknown (by decide), .single (text_eq_ok_iff.mp huser),
        .other (by decide), .other (by decide), .other (by decide),
        .other (by decide)⟩
  split at h
  · next hkey =>
      subst hkey
      obtain ⟨host, hhost, h⟩ := Json.exists_of_bind_eq_ok h
      cases h
      exact ⟨hknown (by decide), .other (by decide),
        .single (text_eq_ok_iff.mp hhost), .other (by decide),
        .other (by decide), .other (by decide)⟩
  split at h
  · next hkey =>
      subst hkey
      obtain ⟨cursor, hcursor, h⟩ := Json.exists_of_bind_eq_ok h
      cases h
      exact ⟨hknown (by decide), .other (by decide), .other (by decide),
        .single (texts_eq_ok_iff.mp hcursor), .other (by decide),
        .other (by decide)⟩
  split at h
  · next hkey =>
      subst hkey
      obtain ⟨startup, hstartup, h⟩ := Json.exists_of_bind_eq_ok h
      cases h
      exact ⟨hknown (by decide), .other (by decide), .other (by decide),
        .other (by decide), .single (texts_eq_ok_iff.mp hstartup),
        .other (by decide)⟩
  split at h
  · next hkey =>
      subst hkey
      obtain ⟨capacity, hcapacity, h⟩ := Json.exists_of_bind_eq_ok h
      cases h
      exact ⟨hknown (by decide), .other (by decide), .other (by decide),
        .other (by decide), .other (by decide),
        .single (natural_eq_ok_iff.mp hcapacity)⟩
  · cases h

theorem exists_set (standard : Config) (h : Fits key value) :
    ∃ config, standard.set key value = .ok config := by
  cases h with
  | user h | host h =>
      rw [set, text_eq_ok_iff.mpr h]
      exact ⟨_, rfl⟩
  | initialCursor h | startup h =>
      rw [set, texts_eq_ok_iff.mpr h]
      exact ⟨_, rfl⟩
  | queueCapacity h =>
      rw [set, natural_eq_ok_iff.mpr h]
      exact ⟨_, rfl⟩

theorem describes_of_setAll (hkeys : (entries.map (·.1)).Nodup)
    (h : standard.setAll entries = .ok config) :
    Describes entries standard config := by
  induction entries generalizing standard with
  | nil =>
      cases h
      exact .nil
  | cons entry entries ih =>
      obtain ⟨hkey, hkeys⟩ := List.nodup_cons.mp hkeys
      obtain ⟨next, hset, h⟩ := Json.exists_of_bind_eq_ok h
      exact (describes_of_set hset).cons hkey (ih hkeys h)

theorem exists_setAll
    (hfits : ∀ key value, (key, value) ∈ entries → Fits key value)
    (standard : Config) :
    ∃ config, standard.setAll entries = .ok config := by
  induction entries generalizing standard with
  | nil => exact ⟨standard, rfl⟩
  | cons entry entries ih =>
      obtain ⟨key, value⟩ := entry
      obtain ⟨next, hset⟩ := exists_set standard
        (hfits key value List.mem_cons_self)
      obtain ⟨config, hrest⟩ := ih
        (fun k v hmem => hfits k v (List.mem_cons_of_mem _ hmem)) next
      refine ⟨config, ?_⟩
      rw [setAll, hset]
      exact hrest

/-- Entries with distinct keys are read as what they describe. -/
theorem setAll_eq_ok_iff (hkeys : (entries.map (·.1)).Nodup) :
    standard.setAll entries = .ok config ↔
      Describes entries standard config := by
  refine ⟨describes_of_setAll hkeys, ?_⟩
  intro h
  obtain ⟨config', hread⟩ := exists_setAll (fun _ _ => h.fits) standard
  rw [hread, (describes_of_setAll hkeys hread).unique h]

theorem exists_describes_iff (standard : Config)
    (hkeys : (entries.map (·.1)).Nodup) :
    (∃ config, Describes entries standard config) ↔
      ∀ key value, (key, value) ∈ entries → Fits key value := by
  constructor
  · rintro ⟨config, h⟩ key value hmem
    exact h.fits hmem
  · intro hfits
    obtain ⟨config, hread⟩ := exists_setAll hfits standard
    exact ⟨config, describes_of_setAll hkeys hread⟩

/-! ## Ranges -/

theorem inRange_standard : ({} : Config).InRange where
  capacity := by decide
  segments := nofun

theorem checked_cases (config : Config) :
    config.InRange ∧ config.checked = .ok config ∨
      ¬config.InRange ∧ ∃ cause, config.checked = .error cause := by
  unfold checked
  split
  · next hzero =>
      refine .inr ⟨?_, _, rfl⟩
      intro h
      have := h.capacity
      omega
  · next hpos =>
      split
      · next segment hfind =>
          refine .inr ⟨?_, _, rfl⟩
          intro h
          have hbad := List.find?_some hfind
          have hgood := h.segments segment (List.mem_of_find?_eq_some hfind)
          simp [hgood] at hbad
      · next hfind =>
          refine .inl ⟨⟨Nat.pos_of_ne_zero hpos, ?_⟩, rfl⟩
          intro segment hmem
          simpa using List.find?_eq_none.mp hfind segment hmem

/-! ## Documents -/

variable {source : String}

/-- All that can become of a document that is read. -/
theorem ofText_cases (hread : Toml.ofText? source = some entries) :
    (∃ config, Describes entries {} config ∧ config.InRange ∧
      ofText source = .ok config) ∨
    (∃ config, Describes entries {} config ∧ ¬config.InRange ∧
      ∃ cause, ofText source = .error (.range cause)) ∨
    (¬∃ config, Describes entries {} config) ∧
      ∃ complaint, ofText source = .error (.shape complaint) := by
  have hkeys := Toml.nodup_keys_of_ofText? hread
  unfold ofText
  simp only [hread]
  cases hset : ({} : Config).setAll entries with
  | error complaint =>
      refine .inr (.inr ⟨?_, complaint, rfl⟩)
      rintro ⟨config, hdescribes⟩
      rw [(setAll_eq_ok_iff hkeys).mpr hdescribes] at hset
      cases hset
  | ok config =>
      have hdescribes := describes_of_setAll hkeys hset
      rcases config.checked_cases with ⟨hrange, hok⟩ | ⟨hrange, cause, herror⟩
      · exact .inl ⟨config, hdescribes, hrange, by simp only [hok]⟩
      · exact .inr (.inl ⟨config, hdescribes, hrange, cause,
          by simp only [herror]⟩)

theorem ofText_eq_ok_iff (hread : Toml.ofText? source = some entries) :
    ofText source = .ok config ↔
      Describes entries {} config ∧ config.InRange := by
  rcases ofText_cases hread with ⟨config', hdescribes, hrange, h⟩ |
      ⟨config', hdescribes, hrange, cause, h⟩ | ⟨hnone, complaint, h⟩
  · rw [h, Except.ok.injEq]
    constructor
    · rintro rfl
      exact ⟨hdescribes, hrange⟩
    · rintro ⟨hdescribes', -⟩
      exact hdescribes.unique hdescribes'
  · rw [h]
    refine iff_of_false nofun ?_
    rintro ⟨hdescribes', hrange'⟩
    rw [hdescribes.unique hdescribes'] at hrange
    exact hrange hrange'
  · rw [h]
    refine iff_of_false nofun ?_
    rintro ⟨hdescribes, -⟩
    exact hnone ⟨config, hdescribes⟩

theorem ofText_shape_iff (hread : Toml.ofText? source = some entries) :
    (∃ complaint, ofText source = .error (.shape complaint)) ↔
      ¬∃ config, Describes entries {} config := by
  rcases ofText_cases hread with ⟨config, hdescribes, -, h⟩ |
      ⟨config, hdescribes, -, cause, h⟩ | ⟨hnone, complaint, h⟩
  · rw [h]
    exact iff_of_false nofun (not_not_intro ⟨config, hdescribes⟩)
  · rw [h]
    exact iff_of_false nofun (not_not_intro ⟨config, hdescribes⟩)
  · exact iff_of_true ⟨complaint, h⟩ hnone

theorem ofText_range_iff (hread : Toml.ofText? source = some entries) :
    (∃ cause, ofText source = .error (.range cause)) ↔
      ∃ config, Describes entries {} config ∧ ¬config.InRange := by
  rcases ofText_cases hread with ⟨config, hdescribes, hrange, h⟩ |
      ⟨config, hdescribes, hrange, cause, h⟩ | ⟨hnone, complaint, h⟩
  · rw [h]
    refine iff_of_false nofun ?_
    rintro ⟨config', hdescribes', hrange'⟩
    rw [hdescribes'.unique hdescribes] at hrange'
    exact hrange' hrange
  · exact iff_of_true ⟨cause, h⟩ ⟨config, hdescribes, hrange⟩
  · rw [h]
    refine iff_of_false nofun ?_
    rintro ⟨config, hdescribes, -⟩
    exact hnone ⟨config, hdescribes⟩

theorem exists_read_of_ofText (h : ofText source = .ok config) :
    ∃ entries, Toml.ofText? source = some entries := by
  unfold ofText at h
  split at h
  · cases h
  · next entries hread => exact ⟨entries, hread⟩

theorem inRange_of_ofText (h : ofText source = .ok config) :
    config.InRange := by
  obtain ⟨entries, hread⟩ := exists_read_of_ofText h
  exact ((ofText_eq_ok_iff hread).mp h).2

theorem load_of_ok (h : ofText source = .ok config) :
    load source = (config, false) := by
  rw [load, h]

theorem load_of_not_ok (h : ∀ config, ofText source ≠ .ok config) :
    load source = ({}, true) := by
  unfold load
  split
  · next config hok => exact absurd hok (h config)
  · rfl

theorem ofText_of_load (hload : load source = (config, false)) :
    ofText source = .ok config := by
  unfold load at hload
  split at hload
  · next hok =>
      cases hload
      exact hok
  · cases hload

/-- A document that is read as a table is accepted exactly if each of its
entries fits and the ranges are kept, as the default configuration with the
given keys replaced, in whatever order they are given. It is refused for its
shape if an entry does not fit, also where a range is broken, and for a range
if only that is broken. What is loaded from any text at all keeps the ranges:
it is the configuration that is accepted, or else the default one. -/
theorem accepted_exactly_if_described (source : String) :
    (∀ entries, Toml.ofText? source = some entries →
      (∀ config, ofText source = .ok config ↔
        Describes entries {} config ∧ config.InRange) ∧
      ((∃ config, Describes entries {} config) ↔
        ∀ key value, (key, value) ∈ entries → Fits key value) ∧
      ((∃ complaint, ofText source = .error (.shape complaint)) ↔
        ¬∀ key value, (key, value) ∈ entries → Fits key value) ∧
      ((∃ cause, ofText source = .error (.range cause)) ↔
        ∃ config, Describes entries {} config ∧ ¬config.InRange) ∧
      ∀ source' entries', Toml.ofText? source' = some entries' →
        entries.Perm entries' →
          ∀ config, ofText source' = .ok config ↔
            ofText source = .ok config) ∧
    (load source).1.InRange ∧
    (∀ config, ofText source = .ok config →
      load source = (config, false)) ∧
    ((∀ config, ofText source ≠ .ok config) → load source = ({}, true)) := by
  constructor
  · intro entries hread
    have hfits :=
      exists_describes_iff {} (Toml.nodup_keys_of_ofText? hread)
    refine ⟨fun _ => ofText_eq_ok_iff hread, hfits, ?_,
      ofText_range_iff hread, ?_⟩
    · rw [← hfits]
      exact ofText_shape_iff hread
    · intro source' entries' hread' hperm config
      rw [ofText_eq_ok_iff hread', ofText_eq_ok_iff hread]
      exact and_congr_left fun _ => ⟨.perm hperm.symm, .perm hperm⟩
  · refine ⟨?_, fun _ => load_of_ok, load_of_not_ok⟩
    by_cases hok : ∃ config, ofText source = .ok config
    · obtain ⟨config, hok⟩ := hok
      rw [load_of_ok hok]
      exact inRange_of_ofText hok
    · rw [load_of_not_ok (not_exists.mp hok)]
      exact inRange_standard

/-- A configuration with four of the keys, and not in their usual order. -/
def unorderedSource : String :=
  "queue_capacity = 4\nstartup = []\nuser = \"guest\"\n" ++
    "initial_cwd = [\"posts\"]\n"

def unordered : Config where
  user := "guest"
  initialCursor := ["posts"]
  startup := []
  queueCapacity := 4

theorem unordered_is_accepted :
    ∃ entries, Toml.ofText? unorderedSource = some entries ∧
      Describes entries {} unordered ∧ unordered.InRange ∧
      load unorderedSource = (unordered, false) := by
  have hok : ofText unorderedSource = .ok unordered :=
    ofText_of_load (by decide +kernel)
  obtain ⟨entries, hread⟩ := exists_read_of_ofText hok
  obtain ⟨haccepted, -, hload, -⟩ :=
    accepted_exactly_if_described unorderedSource
  obtain ⟨hdescribes, hrange⟩ :=
    ((haccepted entries hread).1 unordered).mp hok
  exact ⟨entries, hread, hdescribes, hrange, hload unordered hok⟩

/-- Shape before range. -/
example :
    (match ofText "queue_capacity = 0\nhost = 1\n" with
      | .error (.shape _) => true
      | _ => false) = true := by
  decide +kernel

end Config

end PageShell
