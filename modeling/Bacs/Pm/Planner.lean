import Bacs.Pm.Search

/-!
# The contract of `update_package_depends`

For a finite set of packages that contains all their imports, the search for
the installation of a package ends with results for exactly the stages that
are reachable, or throws because one of them is on a cycle, or is stopped by
a failed file operation.
-/

namespace Bacs.Pm

open Foundation DepthFirst Relation

variable {File Archive Tree : Type} {setting : Setting File Archive Tree}
  {base : Cache File Archive} {area : Entry → Prop}

theorem ensures_withLocal {Local Value Result : Type}
    {start : Machine File Archive → Local}
    {machine : Local → Machine File Archive}
    {program : EStateM (Failure File Archive) Local Value}
    {result : Value → Local → Result} {state : Machine File Archive}
    {normal : Result → Machine File Archive → Prop}
    {thrown : Failure File Archive → Machine File Archive → Prop} :
    Ensures (withLocal start machine program result) state normal thrown ↔
      Ensures program (start state)
        (fun value final => normal (result value final) (machine final))
        (fun failure final => thrown failure (machine final)) := by
  unfold Ensures withLocal
  cases program (start state) <;> rfl

/-- The stages that the installation of a package depends on, with itself. -/
def Reaches (setting : Setting File Archive Tree) (cache : Cache File Archive)
    (package : Entry) (stage : Stage) : Prop :=
  ReflTransGen (Edge (edges (setting.index cache)))
    (package, .installation) stage

/-- `stage` depends on `other`, directly or not. -/
def DependsOn (setting : Setting File Archive Tree)
    (cache : Cache File Archive) (stage other : Stage) : Prop :=
  TransGen (Edge (edges (setting.index cache))) stage other

/-- What is known when the search for the installation of `package` ends. -/
structure Complete (setting : Setting File Archive Tree)
    (base : Cache File Archive) (area : Entry → Prop)
    (more : List (Stage × StageResult) → Machine File Archive → Prop)
    (package : Entry) (done : List (Stage × StageResult))
    (final : Machine File Archive) : Prop where
  searching : Searching setting base area done final
  more : more done final
  mem_iff : ∀ stage, stage ∈ done.map Prod.fst ↔
    Reaches setting base package stage

/-- Why the search for the installation of `package` stops. -/
inductive Unfinished (setting : Setting File Archive Tree) (fuel : Nat)
    (base : Cache File Archive) (area : Entry → Prop)
    (more : List (Stage × StageResult) → Machine File Archive → Prop)
    (package : Entry) :
    Failure File Archive → Machine File Archive → Prop where
  | circular {done : List (Stage × StageResult)} {stage : Stage}
      {final : Machine File Archive} :
      Searching setting base area done final → more done final →
      Reaches setting base package stage →
      DependsOn setting base stage stage →
      Unfinished setting fuel base area more package
        (.circular stage.1) final
  | outOfFuel {done : List (Stage × StageResult)}
      {final : Machine File Archive} :
      Searching setting base area done final → more done final →
      (∀ packages : Finset Entry, package ∈ packages →
        Closed (setting.index base) (· ∈ packages) →
        fuel ≤ 4 * packages.card) →
      Unfinished setting fuel base area more package .outOfFuel final
  | interrupted {failure : Failure File Archive}
      {final : Machine File Archive} :
      Interrupted setting fuel base area more failure final →
      Unfinished setting fuel base area more package failure final

theorem updateStages_ensures {fuel : Nat}
    {more : List (Stage × StageResult) → Machine File Archive → Prop}
    {package : Entry} {machine : Machine File Archive}
    (closed : Closed (setting.index machine.cache) area)
    (observed : Observed setting fuel machine.cache area more)
    (inArea : area package) (start : more [] machine) :
    Ensures (updateStages setting fuel package) machine
      (Complete setting machine.cache area more package)
      (Unfinished setting fuel machine.cache area more package) := by
  have rule := stageRule closed observed
  rw [updateStages, ensures_withLocal]
  apply (visit_ensures rule fuel (package, .installation) ⟨[], [], machine⟩
    (allowed_installation inArea) trivial ⟨.start machine, start⟩
    nofun).mono
  · intro result final visited
    exact ⟨visited.holds.1, visited.holds.2, fun stage => visited.mem_iff⟩
  · intro failure final stopped
    cases stopped with
    | circular holds path cycle =>
        exact .circular holds.1 holds.2 path cycle
    | outOfFuel holds bound =>
        refine .outOfFuel holds.1 holds.2 fun packages member inside => ?_
        have enough := bound (stagesOf packages) (mem_stagesOf.mpr member)
          (edges_closed inside)
        rw [List.toFinset_nil, Finset.sdiff_empty, card_stagesOf] at enough
        exact enough
    | failed interrupted => exact .interrupted interrupted

/-- With enough fuel, an operation that fails is the only interruption. -/
theorem Interrupted.operation {fuel : Nat} {packages : Finset Entry}
    {more : List (Stage × StageResult) → Machine File Archive → Prop}
    {failure : Failure File Archive} {final : Machine File Archive}
    (interrupted : Interrupted setting fuel base (· ∈ packages) more failure
      final) (enough : 4 * packages.card < fuel) :
    ∃ abort, failure = .operation abort := by
  cases interrupted with
  | reading _ _ failed =>
      obtain ⟨abort, isAbort, _⟩ := failed
      exact ⟨abort, isAbort⟩
  | finishing searching _ _ _ halted =>
      rcases halted with ⟨abort, isAbort, _⟩ | ⟨short, _⟩
      · exact ⟨abort, isAbort⟩
      · have bound := searching.length_le
        omega

end Bacs.Pm
