import Bacs.Foundation.Disk
import Bacs.Foundation.Ensures

/-!
# Merging directories

What is in the source is renamed into the destination.  Only where both have
a directory are their entries merged one by one.
-/

namespace Bacs.Pm.Extractor

variable {Name File : Type}

inductive MergeError (Name : Type) where
  /-- `create_directories` fails. -/
  | createDirectories (destination : List Name)
  | rename (src dst : List Name)
  /-- `extractor_merge_directories_error` -/
  | mergeDirectories (source destination : List Name)
      (nested : MergeError Name)
  | outOfFuel

/-- The error is one that the code throws. -/
def MergeError.real : MergeError Name → Prop
  | .createDirectories _ => True
  | .rename _ _ => True
  | .mergeDirectories _ _ nested => nested.real
  | .outOfFuel => False

abbrev MergeM (Name File : Type) :=
  EStateM (MergeError Name) (Disk Name File)

variable [DecidableEq Name] (listing : Listing Name File)

/-- One round of the loop of `merge_dir`. -/
def mergeEntry (mergeDir : List Name → List Name → MergeM Name File Unit)
    (source destination : List Name) (filename : Name) :
    MergeM Name File Unit := do
  let disk ← get
  let src := source ++ [filename]
  let dst := destination ++ [filename]
  if disk.isDirectory src ∧ disk.isDirectory dst then mergeDir src dst
  else
    match disk.rename src dst with
    | some renamed => set renamed
    | none => throw (.rename src dst)

def mergeDir :
    Nat → List Name → List Name → MergeM Name File Unit
  | 0, _, _ => throw .outOfFuel
  | fuel + 1, source, destination =>
      tryCatch
        (do
          let disk ← get
          (listing.list disk source).foldlM
            (fun _ filename =>
              mergeEntry (mergeDir fuel) source destination filename) ())
        fun nested => throw (.mergeDirectories source destination nested)

/-- `extractor::merge_directories` -/
def mergeDirectories (fuel : Nat) (source destination : List Name) :
    MergeM Name File Unit := do
  let disk ← get
  match disk.makeDirectories destination.inits with
  | some made => do
      set made
      mergeDir listing fuel source destination
  | none => throw (.createDirectories destination)

end Bacs.Pm.Extractor
