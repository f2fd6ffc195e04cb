import Bacs.Foundation.Ensures
import Bacs.Foundation.Links

/-!
# Copying a tree

A path is copied as what it is; then the entries of a directory are copied in
the same way.  Whether there is a directory is asked of the path, which may
lead there through a link.
-/

namespace Bacs.Common

inductive CopyOption where
  | failIfExists
  | overwriteIfExists
  deriving DecidableEq, Repr

inductive CopyFailure where
  | code (errno : Errno)
  /-- A `filesystem_error` is thrown. -/
  | thrown (errno : Errno)
  | outOfFuel
  deriving DecidableEq, Repr

variable {Name Contents : Type}

abbrev CopyM (Name Contents : Type) :=
  EStateM CopyFailure (Disk Name (Leaf Name Contents))

/-! ## Operations on files -/

def orFail {Value : Type} (failure : Errno → CopyFailure)
    (outcome : Except Errno Value) : CopyM Name Contents Value :=
  match outcome with
  | .ok value => pure value
  | .error errno => throw (failure errno)

def pathExists (path : Route Name) : CopyM Name Contents Bool := do
  let disk ← get
  match disk.stat path with
  | .ok _ => pure true
  | .error .noEntry => pure false
  | .error .notDirectory => pure false
  | .error errno => throw (.thrown errno)

def symlinkStatus (path : Route Name) :
    CopyM Name Contents (Node (Leaf Name Contents)) := do
  let disk ← get
  orFail .code (disk.lstat path)

/-- The error code is also set if nothing is there. -/
def isDirectory (path : Route Name) : CopyM Name Contents Bool := do
  let disk ← get
  match ← orFail .code (disk.stat path) with
  | .directory => pure true
  | .file _ => pure false

def directoryEntries (listing : Listing Name (Leaf Name Contents))
    (path : Route Name) : CopyM Name Contents (List Name) := do
  let disk ← get
  let place ← orFail .thrown (disk.follow path)
  pure (listing.list disk place)

variable [DecidableEq Name]

def createAt (path : Route Name) (node : Node (Leaf Name Contents)) :
    CopyM Name Contents Unit := do
  let disk ← get
  let place ← orFail .code (disk.locateNew path node)
  match disk.create place node with
  | some created => set created
  | none => throw (.code .exist)

/-- `boost::filesystem::copy` -/
def copy (source destination : Route Name) : CopyM Name Contents Unit := do
  match ← symlinkStatus source with
  | .file (.symlink target) => createAt destination (.file (.symlink target))
  | .directory => createAt destination .directory
  | .file (.regular contents) =>
      createAt destination (.file (.regular contents))
  | .file .other => throw (.code .notSupported)

def namesEntry (disk : Disk Name (Leaf Name Contents)) (path : Route Name)
    (place : List Name) : Bool :=
  match path.steps.getLast?, disk.locate path.bare with
  | some (.down _), .ok entry => entry == place
  | _, _ => false

/-- `boost::filesystem::remove_all`: a directory that is not named by its name
is emptied, but cannot be removed. -/
def removeAll (listing : Listing Name (Leaf Name Contents))
    (path : Route Name) : CopyM Name Contents Unit := do
  let disk ← get
  match disk.lstat path with
  | .error .noEntry => pure ()
  | .error .notDirectory => pure ()
  | .error errno => throw (.code errno)
  | .ok _ =>
      let place ← orFail .code (disk.locate path)
      if namesEntry disk path place then set (disk.removeAll place)
      else
        set ((listing.list disk place).foldl
          (fun disk name => disk.removeAll (place ++ [name])) disk)
        throw (.code .notRemovable)

/-! ## The recursion -/

variable (listing : Listing Name (Leaf Name Contents))

/-- What is at the destination is an error or removed. -/
def clear (option : CopyOption) (destination : Route Name) :
    CopyM Name Contents Unit := do
  match option with
  | .failIfExists =>
      if ← pathExists destination then throw (.code .exist)
  | .overwriteIfExists => removeAll listing destination

def copyTree :
    Nat → CopyOption → Route Name → Route Name → CopyM Name Contents Unit
  | 0, _, _, _ => throw .outOfFuel
  | fuel + 1, option, source, destination => do
      clear listing option destination
      let _ ← symlinkStatus source
      copy source destination
      if ← isDirectory source then
        let entries ← directoryEntries listing source
        entries.foldlM
          (fun _ filename =>
            copyTree fuel .failIfExists (source / filename)
              (destination / filename)) ()

/-- The overload that throws instead of setting an error code. -/
def copyTreeThrowing (fuel : Nat) (option : CopyOption)
    (source destination : Route Name) : CopyM Name Contents Unit :=
  tryCatch (copyTree listing fuel option source destination) fun failure =>
    match failure with
    | .code errno => throw (.thrown errno)
    | failure => throw failure

end Bacs.Common
