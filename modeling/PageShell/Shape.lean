import PageShell.Number.Format
import PageShell.Text.Quoted

/-!
# Complaints about the shape of data

Stored states and configurations are both read from a text that may be well
formed and still describe the wrong thing. The complaints are the same in either
notation: a member is missing, repeated or unknown, a value is of another kind
than the one needed, a sequence is too short. Each is a cause with a constructor
of its own, and `Complaint.message` is the one place that words it.
-/

namespace PageShell

/-- What was found where something else was needed. -/
inductive Found where
  | null
  | boolean (value : Bool)
  | integer (value : Int)
  /-- A number that is no integer, in the format of the notation it was read
  from. -/
  | real (format : Number.Format) (value : Number)
  | text (value : String)
  | sequence
  | map

def Found.describe : Found → String
  | .null => "null"
  | .boolean value => "boolean `" ++ (if value then "true" else "false") ++ "`"
  | .integer value =>
    "integer `" ++ String.ofList (Number.integerText value) ++ "`"
  | .real format value =>
    "floating point `" ++ String.ofList (format.text value) ++ "`"
  | .text value => "string " ++ Text.quoted value
  | .sequence => "sequence"
  | .map => "map"

/-- Why well-formed data does not describe what is read from it. -/
inductive Complaint where
  | missingField (name : String)
  | duplicateField (name : String)
  | unknownField (name : String) (known : List String)
  | wrongType (found : Found) (needed : String)
  | wrongValue (found : Found) (needed : String)
  | wrongLength (found : Nat) (needed : String)
  /-- None of the alternatives of the named type fits. -/
  | noAlternative (type : String)
  /-- Something other than an identifier stands where an entry's identifier
  belongs. -/
  | malformedId

private def inBackquotes (s : String) : String := "`" ++ s ++ "`"

def Complaint.message : Complaint → String
  | .missingField name => "missing field " ++ inBackquotes name
  | .duplicateField name => "duplicate field " ++ inBackquotes name
  | .unknownField name known =>
    "unknown field " ++ inBackquotes name ++ ", expected one of " ++
      ", ".intercalate (known.map inBackquotes)
  | .wrongType found needed =>
    "invalid type: " ++ found.describe ++ ", expected " ++ needed
  | .wrongValue found needed =>
    "invalid value: " ++ found.describe ++ ", expected " ++ needed
  | .wrongLength found needed =>
    "invalid length " ++ String.ofList (Number.digitsOf found) ++
      ", expected " ++ needed
  | .noAlternative type =>
    "data did not match any variant of untagged enum " ++ type
  | .malformedId => "malformed entry id"

end PageShell
