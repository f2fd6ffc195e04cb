import Bacs.Pm.Entry

/-!
# Problem ids, flags and the answers about them

The names and messages of the problem archive.  Ids and flag names are
strings accepted by the grammar of package entry components.  A flag is
stored as a file name; the message form distinguishes the reserved flags from
custom ones, but a reserved name given as a custom flag denotes the same file.
-/

namespace Bacs.Archive

abbrev ProblemId := String

/-- `problem::flag`: the name of a flag, which is also its file name. -/
abbrev FlagName := String

abbrev Bytes := List UInt8

/-- The value of a `Revision` message. -/
abbrev Revision := Bytes

def isAllowedId (id : ProblemId) : Bool :=
  Pm.Entry.isAllowedSubpath id

namespace Flag

/-- `Flag.Reserved` of `flag.proto`. -/
inductive Reserved where
  | none
  | ignore
  | locked
  | readOnly
  | pendingImport
  deriving DecidableEq, Repr

/-- `Reserved_Name`. -/
def Reserved.name : Reserved → FlagName
  | .none => "NONE"
  | .ignore => "IGNORE"
  | .locked => "LOCKED"
  | .readOnly => "READ_ONLY"
  | .pendingImport => "PENDING_IMPORT"

/-- `Reserved_Parse`. -/
def Reserved.parse (flag : FlagName) : Option Reserved :=
  [Reserved.none, .ignore, .locked, .readOnly, .pendingImport].find?
    fun reserved => reserved.name == flag

end Flag

/-- The `Flag` message. -/
inductive Flag where
  | reserved (flag : Flag.Reserved)
  | custom (flag : FlagName)
  deriving DecidableEq, Repr

/-- The `FlagSet` message. -/
abbrev FlagSet := List Flag

/-- `flag_cast` from a message to a name, also called `flag_to_string`. -/
def Flag.toName : Flag → FlagName
  | .reserved flag => flag.name
  | .custom flag => flag

/-- `flag_cast` from a name to a message. -/
def flagCast (flag : FlagName) : Flag :=
  match Flag.Reserved.parse flag with
  | some reserved => .reserved reserved
  | none => .custom flag

def isAllowedFlag (flag : FlagName) : Bool :=
  Pm.Entry.isAllowedSubpath flag

def isAllowedFlagSet (flags : FlagSet) : Bool :=
  flags.all fun flag => isAllowedFlag flag.toName

/-- Casting a stored name to a message and back gives the name. -/
@[simp] theorem flagCast_toName (flag : FlagName) :
    (flagCast flag).toName = flag := by
  unfold flagCast
  cases parsed : Flag.Reserved.parse flag with
  | none => rfl
  | some reserved =>
      have found := List.find?_some parsed
      simpa [Flag.toName] using found

abbrev ignoreFlag : FlagName := Flag.Reserved.ignore.name
abbrev lockedFlag : FlagName := Flag.Reserved.locked.name
abbrev readOnlyFlag : FlagName := Flag.Reserved.readOnly.name
abbrev pendingImportFlag : FlagName := Flag.Reserved.pendingImport.name

/-- `Error.Code` of `error.proto`. -/
inductive ErrorCode where
  | unknown
  | notFound
  | locked
  | readOnly
  | pendingImport
  | invalidFormat
  deriving DecidableEq, Repr

/-- The `Error` message. -/
structure ProblemError where
  code : ErrorCode
  reason : String
  deriving DecidableEq, Repr

/-- The `Status` message. -/
structure Status where
  flags : FlagSet
  revision : Revision
  deriving DecidableEq, Repr

/-- The `StatusResult` message. -/
inductive StatusResult where
  | error (error : ProblemError)
  | status (status : Status)
  deriving DecidableEq, Repr

def statusErrorReason (reason : String) : StatusResult :=
  .error ⟨.unknown, reason⟩

def statusError (code : ErrorCode) : StatusResult :=
  .error ⟨code, ""⟩

def statusNotFound : StatusResult :=
  statusError .notFound

/-- The `ImportResult` message, over the type of imported problems. -/
inductive ImportResult (Problem : Type) where
  | notSet
  | error (error : ProblemError)
  | problem (problem : Problem)
  deriving DecidableEq, Repr

def importErrorReason {Problem : Type} (reason : String) :
    ImportResult Problem :=
  .error ⟨.unknown, reason⟩

def importError {Problem : Type} (code : ErrorCode) : ImportResult Problem :=
  .error ⟨code, ""⟩

def importNotFound {Problem : Type} : ImportResult Problem :=
  importError .notFound

end Bacs.Archive
