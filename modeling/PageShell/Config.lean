import PageShell.History.State
import PageShell.Toml.Document

/-!
# Configuration of the shell

A configuration is a TOML document with five keys, all of which may be left out.
It is refused for one of three causes, in this order: the document breaks the
notation, a key is unknown or its value of the wrong type (the first in the
order of the document counts), or a value is out of range. A refused
configuration is replaced by the default one as a whole.
-/

namespace PageShell

/-- The configuration of a shell. -/
structure Config where
  /-- The part of the prompt's identity before the `@`. -/
  user : String := "world"
  /-- The part of the prompt's identity after the `@`. -/
  host : String := "jaylee.xyz"
  /-- The cursor of a new session. -/
  initialCursor : List String := []
  /-- The lines a session runs first if its history is empty. -/
  startup : List String := ["fetch", "news", "help"]
  /-- How many inputs may wait before submissions are refused. -/
  queueCapacity : Nat := 16
deriving DecidableEq

/-- Why a value of a configuration is out of range. -/
inductive RangeError where
  | zeroCapacity
  | badSegment (segment : String)
deriving DecidableEq

/-- Why a configuration is refused. -/
inductive ConfigError where
  /-- The text is not a TOML document. -/
  | malformed
  | shape (complaint : Complaint)
  | range (cause : RangeError)

def RangeError.message : RangeError → String
  | .zeroCapacity => "queue_capacity must be at least 1"
  | .badSegment segment =>
    "initial_cwd segment `" ++ segment ++
      "` must be non-empty and contain no `/`"

/-- What is said about a value out of range. -/
def RangeError.report (cause : RangeError) : String :=
  "invalid shell config: " ++ cause.message

namespace Config

/-- The keys of a configuration. -/
def keys : List String :=
  ["user", "host", "initial_cwd", "startup", "queue_capacity"]

/-! ## Reading -/

def text : Toml → Except Complaint String
  | .string value => .ok value
  | value => .error (.wrongType value.found "a string")

def texts : Toml → Except Complaint (List String)
  | .array items => items.mapM text
  | .tables items =>
    match items with
    | [] => .ok []
    | _ :: _ => .error (.wrongType .map "a string")
  | value => .error (.wrongType value.found "a sequence")

def natural : Toml → Except Complaint Nat
  | .integer value =>
    if 0 ≤ value then .ok value.toNat
    else .error (.wrongValue (.integer value) "usize")
  | value => .error (.wrongType value.found "usize")

/-- Gives one key its value. -/
def set (config : Config) (key : String) (value : Toml) :
    Except Complaint Config :=
  if key = "user" then do
    let user ← text value
    .ok { config with user }
  else if key = "host" then do
    let host ← text value
    .ok { config with host }
  else if key = "initial_cwd" then do
    let initialCursor ← texts value
    .ok { config with initialCursor }
  else if key = "startup" then do
    let startup ← texts value
    .ok { config with startup }
  else if key = "queue_capacity" then do
    let queueCapacity ← natural value
    .ok { config with queueCapacity }
  else
    .error (.unknownField key keys)

/-- Gives keys their values one after the other. -/
def setAll (config : Config) : List (String × Toml) → Except Complaint Config
  | [] => .ok config
  | (key, value) :: entries => do
    let config ← config.set key value
    config.setAll entries

/-- A part of a cursor that can be told apart in a path. -/
def IsSegment (segment : String) : Prop :=
  segment ≠ "" ∧ '/' ∉ segment.toList

instance (segment : String) : Decidable (IsSegment segment) :=
  inferInstanceAs (Decidable (_ ∧ _))

/-- Checks the ranges of a configuration, the capacity first. -/
def checked (config : Config) : Except RangeError Config :=
  if config.queueCapacity = 0 then .error .zeroCapacity
  else
    match config.initialCursor.find? (¬ IsSegment ·) with
    | some segment => .error (.badSegment segment)
    | none => .ok config

/-- The configuration that a TOML text describes; keys that are left out have
their defaults. -/
def ofText (source : String) : Except ConfigError Config :=
  match Toml.ofText? source with
  | none => .error .malformed
  | some entries =>
    match ({} : Config).setAll entries with
    | .error complaint => .error (.shape complaint)
    | .ok config =>
      match config.checked with
      | .error cause => .error (.range cause)
      | .ok config => .ok config

/-- The configuration that a TOML text describes, or else the default one; and
whether it is the default one because the text is refused. -/
def load (source : String) : Config × Bool :=
  match ofText source with
  | .ok config => (config, false)
  | .error _ => ({}, true)

/-! ## Use -/

def initialState (config : Config) : State := .fresh config.initialCursor

/-- Who and where, as the prompt shows it. -/
def identity (config : Config) : String := config.user ++ "@" ++ config.host

/-- The prompt at a cursor. -/
def promptLabel (config : Config) (cursor : List String) : String :=
  config.identity ++ cursorPath cursor ++ " $"

end Config

end PageShell
