import LabelFleet.Number.Digits

/-! What can be wrong with a configuration. -/
namespace LabelFleet.Config

inductive Error
  /-- A value at a key cannot be converted to the type of the key's field. -/
  | value (found expected key : String)
  /-- Something other than a group of fields stands for one. -/
  | group (found expected : String)
  | missingField (name : String)
  /-- A list that stands for a group of fields is too short. -/
  | tooShort (found : Nat) (expected : String)
  | malformedFile
  | fileNotFound (path : String)
  | unreadableFile (cause : String)
deriving DecidableEq, Repr

namespace Error

def message : Error → String
  | value found expected key => s!"invalid type: {found}, expected {expected} for key `{key}`"
  | group found expected => s!"invalid type: {found}, expected {expected}"
  | missingField name => s!"missing field `{name}`"
  | tooShort found expected => s!"invalid length {Digits.text found}, expected {expected}"
  | malformedFile => "the file is not well formed"
  | fileNotFound path => s!"configuration file \"{path}\" not found"
  | unreadableFile cause => cause

/-- A key inside an enclosing one; an index in brackets follows without a point. -/
def joinKeys (outer inner : String) : String :=
  match inner.toList with
  | [] => outer
  | '[' :: _ => outer ++ inner
  | _ => s!"{outer}.{inner}"

/-- The same error, seen from around the key in which it arose. -/
def inside (outer : String) : Error → Error
  | value found expected key => value found expected (joinKeys outer key)
  | e => e

end Error

end LabelFleet.Config
