import Bacs.Foundation.Disk
import Bacs.Foundation.LexicalPath

/-!
# Symbolic links

A link is a file that says where to go on.  Steps are followed on a disk from
a place; no more than `maxLinks` links are taken on the way, and the last name
is followed or not, as the caller wants.
-/

namespace Bacs

open LexicalPath

structure LinkTarget (Name : Type*) where
  absolute : Bool
  steps : List (Step Name)
  deriving DecidableEq, Repr

inductive Leaf (Name Contents : Type*) where
  | regular (contents : Contents)
  | symlink (target : LinkTarget Name)
  | other
  deriving DecidableEq, Repr

/-- Steps from a place, which is the top of the disk or the working
directory, with or without a separator after the last of them. -/
structure Route (Name : Type*) where
  start : List Name
  steps : List (Step Name)
  slash : Bool
  deriving DecidableEq, Repr

namespace Route

variable {Name : Type*}

/-- What is looked up: a separator at the end asks for a directory. -/
def path (route : Route Name) : List (Step Name) :=
  if route.slash then route.steps ++ [.stay] else route.steps

def bare (route : Route Name) : Route Name :=
  { route with slash := false }

theorem bare_eq {route : Route Name} (plain : route.slash = false) :
    route.bare = route := by
  rw [bare, ← plain]

instance : HDiv (Route Name) Name (Route Name) where
  hDiv route name := ⟨route.start, route.steps ++ [.down name], false⟩

def descend (route : Route Name) (names : List Name) : Route Name :=
  names.foldl (· / ·) route

@[simp] theorem descend_nil (route : Route Name) :
    route.descend [] = route :=
  rfl

@[simp] theorem descend_div (route : Route Name) (names : List Name)
    (name : Name) : route.descend names / name =
      route.descend (names ++ [name]) := by
  simp [descend]

theorem descend_slash {route : Route Name} (plain : route.slash = false)
    (names : List Name) : (route.descend names).slash = false := by
  induction names using List.reverseRecOn with
  | nil => exact plain
  | append_singleton names name _ =>
      rw [← descend_div]
      rfl

end Route

/-- Why a route leads nowhere, or why nothing can be done there. -/
inductive Errno where
  /-- `ENOENT` -/
  | noEntry
  /-- `ENOTDIR` -/
  | notDirectory
  /-- `EEXIST` -/
  | exist
  /-- `ELOOP` -/
  | loop
  /-- `EISDIR` -/
  | isDirectory
  /-- `ENOTSUP` -/
  | notSupported
  /-- `EBUSY`, `EINVAL` or `ENOTEMPTY` -/
  | notRemovable
  deriving DecidableEq, Repr

def maxLinks : Nat := 40

namespace Disk

variable {Name Contents : Type*}
  {disk final : Disk Name (Leaf Name Contents)}
  {place middle last : List Name} {route : Route Name}

/-- Follow steps up to the next link, which is left to `jump` with the steps
that remain. -/
def advance (disk : Disk Name (Leaf Name Contents))
    (jump : List Name → List (Step Name) → Except Errno (List Name)) :
    List Name → List (Step Name) → Except Errno (List Name)
  | place, [] => .ok place
  | place, .stay :: rest =>
      if disk.isDirectory place then advance disk jump place rest
      else .error .notDirectory
  | place, .up :: rest =>
      if disk.isDirectory place then advance disk jump place.dropLast rest
      else .error .notDirectory
  | place, .down name :: rest =>
      match disk.node (place ++ [name]) with
      | none =>
          .error (if disk.isDirectory place then .noEntry else .notDirectory)
      | some (.file (.symlink target)) =>
          jump (if target.absolute then [] else place) (target.steps ++ rest)
      | some _ => advance disk jump (place ++ [name]) rest

def resolve (disk : Disk Name (Leaf Name Contents)) :
    Nat → List Name → List (Step Name) → Except Errno (List Name)
  | 0 => disk.advance fun _ _ => .error .loop
  | links + 1 => disk.advance (resolve disk links)

def follow (disk : Disk Name (Leaf Name Contents)) (route : Route Name) :
    Except Errno (List Name) :=
  disk.resolve maxLinks route.start route.path

/-- The place that a route names: a link at its end is not followed. -/
def locate (disk : Disk Name (Leaf Name Contents)) (route : Route Name) :
    Except Errno (List Name) :=
  match route.path.getLast? with
  | some (.down name) => do
      let parent ← disk.resolve maxLinks route.start route.path.dropLast
      if disk.isDirectory parent then .ok (parent ++ [name])
      else .error .notDirectory
  | _ => do
      let place ← disk.follow route
      if disk.isDirectory place then .ok place else .error .noEntry

/-- The place that a route names for a node that is new there: only that of a
directory may be followed by a separator. -/
def locateNew (disk : Disk Name (Leaf Name Contents)) (route : Route Name)
    (node : Node (Leaf Name Contents)) : Except Errno (List Name) :=
  if route.slash then
    match node with
    | .directory => disk.locate route.bare
    | .file (.symlink _) => .error .noEntry
    | .file _ => .error .isDirectory
  else disk.locate route

def present (disk : Disk Name (Leaf Name Contents))
    (found : Except Errno (List Name)) :
    Except Errno (Node (Leaf Name Contents)) :=
  match found with
  | .error errno => .error errno
  | .ok place =>
      match disk.node place with
      | some node => .ok node
      | none => .error .noEntry

def stat (disk : Disk Name (Leaf Name Contents)) (route : Route Name) :
    Except Errno (Node (Leaf Name Contents)) :=
  disk.present (disk.follow route)

def lstat (disk : Disk Name (Leaf Name Contents)) (route : Route Name) :
    Except Errno (Node (Leaf Name Contents)) :=
  disk.present (disk.locate route)

/-! ## Routes that lead somewhere -/

theorem present_ok {found : Except Errno (List Name)}
    {node : Node (Leaf Name Contents)} :
    disk.present found = .ok node ↔
      ∃ place, found = .ok place ∧ disk.node place = some node := by
  unfold present
  cases found with
  | error errno => simp
  | ok place =>
      simp only [Except.ok.injEq, exists_eq_left']
      cases disk.node place with
      | none => simp
      | some found => simp

theorem advance_down {node : Node (Leaf Name Contents)}
    {jump : List Name → List (Step Name) → Except Errno (List Name)}
    {name : Name} {rest : List (Step Name)}
    (found : disk.node (place ++ [name]) = some node)
    (real : ∀ target, node ≠ .file (.symlink target)) :
    disk.advance jump place (.down name :: rest) =
      disk.advance jump (place ++ [name]) rest := by
  rw [advance, found]
  cases node with
  | directory => rfl
  | file leaf =>
      cases leaf with
      | regular => rfl
      | symlink target => exact absurd rfl (real target)
      | other => rfl

theorem resolve_down {node : Node (Leaf Name Contents)} {name : Name}
    (found : disk.node (place ++ [name]) = some node)
    (real : ∀ target, node ≠ .file (.symlink target)) (links : Nat) :
    disk.resolve links place [.down name] = .ok (place ++ [name]) := by
  cases links <;> exact advance_down found real

/-- A route still leads where it led when more is on the disk, and steps whose
outcome does not depend on links can be added to it. -/
theorem Kept.resolve_append (kept : Kept disk final) {links : Nat}
    {first second : List (Step Name)} {outcome : Except Errno (List Name)}
    (start : disk.resolve links place first = .ok middle)
    (rest : ∀ links, final.resolve links middle second = outcome) :
    final.resolve links place (first ++ second) = outcome := by
  suffices steps : ∀ (before after : List Name → List (Step Name) →
      Except Errno (List Name)),
      (∀ place steps, before place steps = .ok middle →
        after place (steps ++ second) = outcome) →
      final.advance after middle second = outcome →
      ∀ first place, disk.advance before place first = .ok middle →
        final.advance after place (first ++ second) = outcome by
    induction links generalizing place first with
    | zero =>
        refine steps _ _ ?_ (rest 0) first place start
        intro _ _ impossible
        cases impossible
    | succ links ih =>
        exact steps _ _ (fun _ _ found => ih found) (rest (links + 1)) first
          place start
  intro before after jumps ends first
  induction first with
  | nil =>
      intro place start
      cases start
      exact ends
  | cons step first ih =>
      intro place start
      cases step with
      | stay =>
          rw [advance] at start
          split at start
          case isTrue directory =>
            rw [List.cons_append, advance,
              if_pos (kept.isDirectory directory)]
            exact ih place start
          case isFalse => cases start
      | up =>
          rw [advance] at start
          split at start
          case isTrue directory =>
            rw [List.cons_append, advance,
              if_pos (kept.isDirectory directory)]
            exact ih place.dropLast start
          case isFalse => cases start
      | down name =>
          rw [advance] at start
          cases here : disk.node (place ++ [name]) with
          | none =>
              rw [here] at start
              cases start
          | some node =>
              rw [here] at start
              rw [List.cons_append, advance, kept.found here]
              cases node with
              | directory => exact ih (place ++ [name]) start
              | file leaf =>
                  cases leaf with
                  | regular => exact ih (place ++ [name]) start
                  | other => exact ih (place ++ [name]) start
                  | symlink target =>
                      have jumped := jumps _ _ start
                      rw [List.append_assoc] at jumped
                      exact jumped

theorem resolve_nil (links : Nat) :
    disk.resolve links place [] = .ok place := by
  cases links <;> rfl

theorem Kept.resolve (kept : Kept disk final) {links : Nat}
    {steps : List (Step Name)}
    (found : disk.resolve links place steps = .ok last) :
    final.resolve links place steps = .ok last := by
  rw [← List.append_nil steps]
  exact kept.resolve_append found fun links => resolve_nil links

theorem Kept.follow (kept : Kept disk final)
    (found : disk.follow route = .ok last) : final.follow route = .ok last :=
  kept.resolve found

/-- A route that leads somewhere with a separator at its end leads there
without it. -/
theorem advance_of_stay
    {jump : List Name → List (Step Name) → Except Errno (List Name)}
    (jumps : ∀ place steps, jump place (steps ++ [.stay]) = .ok last →
      jump place steps = .ok last) {steps : List (Step Name)}
    (found : disk.advance jump place (steps ++ [.stay]) = .ok last) :
    disk.advance jump place steps = .ok last := by
  induction steps generalizing place with
  | nil =>
      rw [List.nil_append, advance] at found
      split at found
      · exact found
      · cases found
  | cons step rest ih =>
      rw [List.cons_append] at found
      cases step with
      | stay =>
          rw [advance] at found ⊢
          split at found
          · rename_i directory
            rw [if_pos directory]
            exact ih found
          · cases found
      | up =>
          rw [advance] at found ⊢
          split at found
          · rename_i directory
            rw [if_pos directory]
            exact ih found
          · cases found
      | down name =>
          rw [advance] at found ⊢
          cases node : disk.node (place ++ [name]) with
          | none =>
              rw [node] at found
              cases found
          | some node' =>
              rw [node] at found
              cases node' with
              | directory => exact ih found
              | file leaf =>
                  cases leaf with
                  | symlink target =>
                      apply jumps
                      rw [List.append_assoc]
                      exact found
                  | regular => exact ih found
                  | other => exact ih found

theorem resolve_of_stay {links : Nat} {steps : List (Step Name)}
    (found : disk.resolve links place (steps ++ [.stay]) = .ok last) :
    disk.resolve links place steps = .ok last := by
  induction links generalizing place steps with
  | zero =>
      refine advance_of_stay (fun _ _ impossible => ?_) found
      cases impossible
  | succ links ih => exact advance_of_stay (fun _ _ => ih) found

theorem resolve_of_follow (followed : disk.follow route = .ok place) :
    disk.resolve maxLinks route.start route.steps = .ok place := by
  unfold follow Route.path at followed
  split at followed
  · exact resolve_of_stay followed
  · exact followed

theorem locate_concat {name : Name} {steps : List (Step Name)}
    (ends : route.path = steps ++ [.down name])
    (resolved : disk.resolve maxLinks route.start steps = .ok place)
    (directory : disk.node place = some .directory) :
    disk.locate route = .ok (place ++ [name]) := by
  unfold locate
  simp only [ends, List.getLast?_concat, List.dropLast_concat, resolved]
  exact if_pos (isDirectory_iff.mpr directory)

theorem locate_div {name : Name} (followed : disk.follow route = .ok place)
    (directory : disk.node place = some .directory) :
    disk.locate (route / name) = .ok (place ++ [name]) :=
  locate_concat rfl (resolve_of_follow followed) directory

/-- What a route names is something in a directory, or a directory. -/
theorem locate_cases (located : disk.locate route = .ok place) :
    (∃ parent name steps, route.path = steps ++ [.down name] ∧
      disk.resolve maxLinks route.start steps = .ok parent ∧
      disk.node parent = some .directory ∧ place = parent ++ [name]) ∨
    (∀ name, route.path.getLast? ≠ some (.down name)) ∧
      disk.follow route = .ok place ∧ disk.node place = some .directory := by
  unfold locate at located
  split at located
  case h_1 name ends =>
    left
    cases resolved :
        disk.resolve maxLinks route.start route.path.dropLast with
    | error errno =>
        rw [resolved] at located
        cases located
    | ok parent =>
        rw [resolved] at located
        simp only [bind, Except.bind] at located
        split at located
        case isTrue directory =>
          cases located
          refine ⟨parent, name, _, ?_, resolved,
            isDirectory_iff.mp directory, rfl⟩
          exact (List.dropLast_append_getLast? _ ends).symm
        case isFalse => cases located
  case h_2 noName =>
    right
    refine ⟨noName, ?_⟩
    cases followed : disk.follow route with
    | error errno =>
        rw [followed] at located
        cases located
    | ok parent =>
        rw [followed] at located
        simp only [bind, Except.bind] at located
        split at located
        case isTrue directory =>
          cases located
          exact ⟨rfl, isDirectory_iff.mp directory⟩
        case isFalse => cases located

theorem Kept.locate (kept : Kept disk final)
    (located : disk.locate route = .ok place) :
    final.locate route = .ok place := by
  rcases locate_cases located with
    ⟨parent, name, steps, ends, resolved, directory, rfl⟩ |
    ⟨noName, followed, directory⟩
  · exact locate_concat ends (kept.resolve resolved) (kept.found directory)
  · unfold Disk.locate
    split
    case h_1 name ends => exact absurd ends (noName name)
    case h_2 =>
      rw [kept.follow followed]
      exact if_pos (isDirectory_iff.mpr (kept.found directory))

/-- A route to what is no link is followed to the place it names. -/
theorem follow_of_locate {node : Node (Leaf Name Contents)}
    (located : disk.locate route = .ok place)
    (found : disk.node place = some node)
    (real : ∀ target, node ≠ .file (.symlink target)) :
    disk.follow route = .ok place := by
  rcases locate_cases located with
    ⟨parent, name, steps, ends, resolved, _, rfl⟩ | ⟨_, followed, _⟩
  · unfold follow
    rw [ends]
    exact (Kept.refl disk).resolve_append resolved (resolve_down found real)
  · exact followed

theorem follow_of_absent (located : disk.locate route.bare = .ok place)
    (absent : disk.node place = none) :
    disk.follow route = .error .noEntry := by
  rcases locate_cases located with
    ⟨parent, name, steps, ends, resolved, directory, rfl⟩ | ⟨_, _, directory⟩
  · have written : route.steps = steps ++ [.down name] := ends
    unfold follow Route.path
    rw [written]
    split
    · rw [List.append_assoc]
      apply (Kept.refl disk).resolve_append resolved
      intro links
      cases links <;>
        simp [resolve, advance, absent, isDirectory_iff.mpr directory]
    · apply (Kept.refl disk).resolve_append resolved
      intro links
      cases links <;>
        simp [resolve, advance, absent, isDirectory_iff.mpr directory]
  · rw [absent] at directory
    cases directory

theorem stat_of_absent (located : disk.locate route.bare = .ok place)
    (absent : disk.node place = none) : disk.stat route = .error .noEntry := by
  rw [stat, follow_of_absent located absent]
  rfl

theorem lstat_of_absent (located : disk.locate route.bare = .ok place)
    (absent : disk.node place = none) : disk.lstat route = .error .noEntry := by
  cases ends : route.slash with
  | false =>
      rw [Route.bare_eq ends] at located
      rw [lstat, located, present, absent]
  | true =>
      have last : route.path.getLast? = some .stay := by
        rw [Route.path, if_pos ends, List.getLast?_concat]
      rw [lstat, locate, last]
      simp only [follow_of_absent located absent]
      rfl

/-- What is named without a separator at the end is created there. -/
theorem locateNew_plain (plain : route.slash = false)
    (node : Node (Leaf Name Contents)) :
    disk.locateNew route node = disk.locate route := by
  unfold locateNew
  rw [plain]
  rfl

theorem locateNew_slash {node : Node (Leaf Name Contents)}
    (slash : route.slash = true) :
    disk.locateNew route node = .ok place ↔
      node = .directory ∧ disk.locate route.bare = .ok place := by
  unfold locateNew
  rw [if_pos slash]
  cases node with
  | directory => simp
  | file leaf => cases leaf <;> simp

theorem create_of_located [DecidableEq Name]
    (located : disk.locate route = .ok place)
    (absent : disk.node place = none) (node : Node (Leaf Name Contents)) :
    ∃ final, disk.create place node = some final := by
  rcases locate_cases located with
    ⟨parent, name, steps, _, _, directory, rfl⟩ | ⟨_, _, directory⟩
  · unfold create
    rw [dif_pos]
    · exact ⟨_, rfl⟩
    · refine ⟨absent, ?_, by simp⟩
      rw [List.dropLast_concat]
      exact isDirectory_iff.mpr directory
  · rw [absent] at directory
    cases directory

theorem locate_descend (located : disk.locate route = .ok place)
    (names : List Name)
    (through : ∀ above, above <+: names → above ≠ names →
      disk.node (place ++ above) = some .directory) :
    disk.locate (route.descend names) = .ok (place ++ names) := by
  induction names using List.reverseRecOn with
  | nil => simpa using located
  | append_singleton names name ih =>
      have parent : disk.node (place ++ names) = some .directory := by
        apply through names (List.prefix_append names [name])
        simp
      have here := ih (fun above within other =>
        through above (within.trans (List.prefix_append names [name])) (by
          rintro rfl
          have longer := within.length_le
          rw [List.length_append, List.length_singleton] at longer
          omega))
      have led := follow_of_locate here parent (by simp)
      rw [← Route.descend_div, ← List.append_assoc]
      exact locate_div led parent

end Disk

end Bacs
