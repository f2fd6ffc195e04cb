import Mathlib.Data.Finmap

/-!
# The resolver with a configuration

Names are resolved through aliases, then through absolute paths, and then by
the resolver behind, which searches `PATH`.  Paths are told apart by
`operator==`.
-/

namespace Bacs.Utility

variable {Path Back : Type}

/-- `custom_resolver::config` -/
structure Config (Path : Type) where
  aliases : Finmap fun _ : Path => Path
  absolute : Finmap fun _ : Path => Path
  path : Finset Path

inductive ResolverError (Path Back : Type) where
  | circularAliasDependencies
  | back (error : Back)
  | findExecutable (executable : Path) (nested : ResolverError Path Back)
  deriving DecidableEq

structure CustomResolver (Path Back : Type) where
  config : Option (Config Path)
  backResolver : Path → Except Back Path

abbrev ResolverM (Path Back : Type) :=
  ExceptT (ResolverError Path Back) Option

def unfinished {Value : Type} : ResolverM Path Back Value :=
  ExceptT.mk none

namespace CustomResolver

variable [DecidableEq Path] (resolver : CustomResolver Path Back)

/-- The loop of `apply_alias`, with the iterator as the value it points to. -/
def aliasLoop (aliases : Finmap fun _ : Path => Path) :
    Nat → Path → Option Path → Finset Path → ResolverM Path Back Path
  | 0, _, _, _ => unfinished
  | _ + 1, name, none, _ => pure name
  | fuel + 1, _, some name, used => do
      let iter := aliases.lookup name
      if name ∈ used then throw .circularAliasDependencies
      else aliasLoop aliases fuel name iter (insert name used)

def applyAlias (fuel : Nat) (name : Path) : ResolverM Path Back Path :=
  match resolver.config with
  | none => pure name
  | some config =>
      aliasLoop config.aliases fuel name (config.aliases.lookup name) {name}

def applyAbsolute (name : Path) : Path :=
  match resolver.config with
  | none => name
  | some config => (config.absolute.lookup name).getD name

def applyBack (name : Path) : ResolverM Path Back Path :=
  match resolver.backResolver name with
  | .ok found => pure found
  | .error failed => throw (.back failed)

/-- `filename` is the last element of a path. -/
def applyPath (filename : Path → Path) (name : Path) :
    ResolverM Path Back Path :=
  match resolver.config with
  | none => pure name
  | some config =>
      if name ≠ filename name then pure name
      else if name ∈ config.path then resolver.applyBack name
      else pure name

def findExecutable (filename : Path → Path) (fuel : Nat) (exe : Path) :
    ResolverM Path Back Path :=
  tryCatch
    (do
      let name ← resolver.applyAlias fuel exe
      resolver.applyPath filename (resolver.applyAbsolute name))
    fun nested => throw (.findExecutable exe nested)

end CustomResolver

end Bacs.Utility
