import Bacs.Pm.Finishing
import Mathlib.Data.Finset.Prod

/-!
# The search for stages

The invariant of `update_package_depends`, kept by every finished stage, and
the rule that extends it by further invariants.
-/

namespace Bacs.Pm

open Foundation DepthFirst Relation

variable {File Archive Tree : Type} {setting : Setting File Archive Tree}
  {base : Cache File Archive} {area : Entry → Prop}
  {done : List (Stage × StageResult)} {stage : Stage}
  {total result : StageResult} {deps : Index}

theorem Product.eq_of_outdated {product : Product Archive}
    {snapshot : Snapshot}
    (current : product.outdated snapshot = some false) :
    ∃ archive, product = ⟨some archive, .value snapshot⟩ := by
  obtain ⟨stored, written⟩ := product
  cases stored with
  | none => simp [Product.outdated] at current
  | some archive =>
      cases written with
      | absent => simp [Product.outdated] at current
      | garbled => simp [Product.outdated] at current
      | value other =>
          have same : snapshot = other := by
            simpa [Product.outdated] using current
          exact ⟨archive, by rw [same]⟩

/-- Two proper stages of a package with the same kind of archive are one. -/
theorem Proper.unique {other : Stage} {kind : Kind}
    (proper : Proper (setting.index base) stage)
    (properOther : Proper (setting.index base) other)
    (known : setting.index base stage.1 = some deps)
    (package : other.1 = stage.1) (isKind : stage.2.kind = some kind)
    (isKindOther : other.2.kind = some kind) : other = stage := by
  have here := proper deps known
  have there := properOther deps (package ▸ known)
  obtain ⟨name, type⟩ := stage
  obtain ⟨name', type'⟩ := other
  cases package
  have kinds : type'.kind = type.kind := isKindOther.trans isKind.symm
  cases type with
  | installation =>
      cases type' with
      | installation => rfl
      | build | buildEmpty | source => cases kinds
  | build =>
      cases type' with
      | build => rfl
      | buildEmpty => cases (here.1 rfl).symm.trans (there.2 rfl)
      | installation | source => cases kinds
  | buildEmpty =>
      cases type' with
      | build => cases (here.2 rfl).symm.trans (there.1 rfl)
      | buildEmpty => rfl
      | installation | source => cases kinds
  | source => cases isKind

/-- Storing the archive of a stage changes no other stage's archive. -/
theorem Cache.productOf_with_of_ne {cache : Cache File Archive} {other : Stage}
    {kind otherKind : Kind} {archive : Archive} {snapshot : Snapshot}
    (proper : Proper (setting.index base) stage)
    (properOther : Proper (setting.index base) other)
    (known : setting.index base stage.1 = some deps)
    (isKind : stage.2.kind = some kind)
    (isKindOther : other.2.kind = some otherKind)
    (different : other ≠ stage) :
    (cache.with kind stage.1 archive snapshot).productOf other otherKind =
      cache.productOf other otherKind := by
  unfold Cache.productOf Cache.with
  by_cases package : other.1 = stage.1
  · have kinds : otherKind ≠ kind := by
      intro given
      subst given
      exact different
        (proper.unique properOther known package isKind isKindOther)
    rw [package, Cache.files_update_self,
      PackageFiles.product_setProduct_of_ne kinds]
  · rw [Cache.files_update_of_ne package]

theorem Cache.source_with {cache : Cache File Archive} {kind : Kind}
    {package other : Entry} {archive : Archive} {snapshot : Snapshot} :
    ((cache.with kind package archive snapshot).files other).source =
      (cache.files other).source :=
  Cache.files_update_frame PackageFiles.source (by simp) other

theorem Cache.Settled.with {cache : Cache File Archive} {kind : Kind}
    {package : Entry} {archive : Archive} {snapshot : Snapshot}
    (settled : base.Settled cache) :
    base.Settled (cache.with kind package archive snapshot) :=
  settled.update (by simp) (by simp)

/-- A stage is finished, and what is planned for the others stays in the
cache. -/
theorem Planned.cons {before after : Cache File Archive} {rebuilt : Bool}
    {snapshot : Snapshot} (planned : Planned setting base done before)
    (settled : base.Settled after)
    (lists : Lists (setting.sum base) snapshot
      (reached (setting.index base) stage))
    (current : ∀ kind, stage.2.kind = some kind → ∃ archive,
      after.productOf stage kind = ⟨some archive, .value snapshot⟩)
    (verified : stage.2 = .source → Verified setting base after stage.1)
    (products : ∀ other found kind, (other, found) ∈ done →
      other.2.kind = some kind →
        after.productOf other kind = before.productOf other kind)
    (sources : ∀ package found, ((package, .source), found) ∈ done →
      (after.files package).source = (before.files package).source) :
    Planned setting base ((stage, rebuilt, snapshot) :: done) after := by
  refine
    { settled := settled
      snapshots := ?_
      current := ?_
      verified := ?_ }
  · intro other found member
    rcases List.mem_cons.mp member with last | inDone
    · cases last
      exact lists
    · exact planned.snapshots other found inDone
  · intro other found kind member isKind
    rcases List.mem_cons.mp member with last | inDone
    · cases last
      exact current kind isKind
    · obtain ⟨archive, product⟩ :=
        planned.current other found kind inDone isKind
      exact ⟨archive, (products other found kind inDone isKind).trans product⟩
  · intro package found member
    rcases List.mem_cons.mp member with last | inDone
    · cases last
      exact verified rfl
    · obtain ⟨index, entry, isIndex, isSum, files⟩ :=
        planned.verified package found inDone
      refine ⟨index, entry, isIndex, isSum, ?_⟩
      rw [sources package found inDone]
      exact files

structure Searching (setting : Setting File Archive Tree)
    (base : Cache File Archive) (area : Entry → Prop)
    (done : List (Stage × StageResult)) (machine : Machine File Archive) :
    Prop where
  planned : Planned setting base done machine.cache
  ordered : Ordered (edges (setting.index base)) done
  allowed : ∀ entry ∈ done, Allowed (setting.index base) area entry.1

namespace Searching

variable {before final : Machine File Archive} {ready : Stage → Prop}

theorem start (machine : Machine File Archive) :
    Searching setting machine.cache area [] machine where
  planned :=
    { settled := .refl _
      snapshots := nofun
      current := nofun
      verified := nofun }
  ordered := trivial
  allowed := nofun

theorem same (searching : Searching setting base area done before)
    (unchanged : before.Same final) :
    Searching setting base area done final where
  planned := unchanged.1 ▸ searching.planned
  ordered := searching.ordered
  allowed := searching.allowed

theorem step (searching : Searching setting base area done before)
    (allowed : Allowed (setting.index base) area stage)
    (known : setting.index base stage.1 = some deps)
    (fresh : stage ∉ done.map Prod.fst)
    (after : ∀ child ∈ edges (setting.index base) stage,
      child ∈ done.map Prod.fst)
    (finished : Finished setting base ready stage total before result final) :
    Searching setting base area ((stage, result) :: done) final := by
  have planned := searching.planned
  have different {other : Stage} {found : StageResult}
      (inDone : (other, found) ∈ done) : other ≠ stage := by
    intro given
    subst given
    exact fresh (List.mem_map_of_mem inDone)
  refine ⟨?_, ⟨fresh, after, searching.ordered⟩, ?_⟩
  · cases finished with
    | @kept kind _ isKind _ lists current unchanged =>
        rw [unchanged.1]
        apply planned.cons planned.settled lists
        · intro otherKind isOther
          cases isKind.symm.trans isOther
          exact Product.eq_of_outdated current
        · intro isSource
          rw [isSource] at isKind
          cases isKind
        · exact fun _ _ _ _ _ => rfl
        · exact fun _ _ _ => rfl
    | @rebuilt kind event tree _ isKind _ _ fits cache _ =>
        rw [cache]
        apply planned.cons planned.settled.with fits.1
        · intro otherKind isOther
          cases isKind.symm.trans isOther
          exact ⟨_, Cache.productOf_with⟩
        · intro isSource
          rw [isSource] at isKind
          cases isKind
        · intro other found otherKind inDone isOther
          exact Cache.productOf_with_of_ne allowed.1
            (searching.allowed _ inDone).1 known isKind isOther
            (different inDone)
        · exact fun _ _ _ => Cache.source_with
    | source isSource resourced _ verified lists =>
        have settled : base.Settled final.cache := by
          intro package
          have here := resourced.settled package
          have earlier := planned.settled package
          exact ⟨here.1.trans earlier.1, here.2.trans earlier.2⟩
        apply planned.cons settled lists
        · intro otherKind isOther
          rw [isSource] at isOther
          cases isOther
        · exact fun _ => verified
        · intro other found otherKind _ _
          exact resourced.product other.1 otherKind
        · intro package found inDone
          apply resourced.source
          intro given
          subst given
          exact different inDone (Prod.ext rfl isSource.symm)
  · intro entry member
    rcases List.mem_cons.mp member with rfl | inDone
    · exact allowed
    · exact searching.allowed entry inDone

end Searching

/-! ## The rule -/

/-- A failure stopped the search, when the index of a package was to be read
or while a stage was being finished. -/
inductive Interrupted (setting : Setting File Archive Tree) (fuel : Nat)
    (base : Cache File Archive) (area : Entry → Prop)
    (more : List (Stage × StageResult) → Machine File Archive → Prop)
    (failure : Failure File Archive) (final : Machine File Archive) :
    Prop where
  | reading {done : List (Stage × StageResult)}
      {before : Machine File Archive} :
      Searching setting base area done before → more done before →
      Failed (Harmless before.cache) failure final →
      Interrupted setting fuel base area more failure final
  | finishing {done : List (Stage × StageResult)} {stage : Stage}
      {before : Machine File Archive} :
      Searching setting base area done before → more done before →
      Allowed (setting.index base) area stage →
      (∀ child ∈ edges (setting.index base) stage,
        child ∈ done.map Prod.fst) →
      Halted (fuel < done.length) before.cache
        (Damaged setting base (Below setting base done stage) stage
          before.cache) failure final →
      Interrupted setting fuel base area more failure final

/-- What is observed of the stages that are finished, beside `Searching`. -/
structure Observed (setting : Setting File Archive Tree) (fuel : Nat)
    (base : Cache File Archive) (area : Entry → Prop)
    (more : List (Stage × StageResult) → Machine File Archive → Prop) :
    Prop where
  same : ∀ done before final, more done before →
    Machine.Same before final → more done final
  step : ∀ done stage total result before final,
    Searching setting base area done before → more done before →
    Allowed (setting.index base) area stage →
    (∃ deps, setting.index base stage.1 = some deps) →
    stage ∉ done.map Prod.fst →
    Collected (stageSearch setting fuel) done
      (edges (setting.index base) stage) total →
    Finished setting base (Below setting base done stage) stage total before
      result final → more ((stage, result) :: done) final

theorem stageRule {fuel : Nat}
    {more : List (Stage × StageResult) → Machine File Archive → Prop}
    (closed : Closed (setting.index base) area)
    (observed : Observed setting fuel base area more) :
    Rule (stageSearch setting fuel) (edges (setting.index base))
      (Allowed (setting.index base) area)
      (fun stage => ∃ deps, setting.index base stage.1 = some deps)
      (fun done machine =>
        Searching setting base area done machine ∧ more done machine)
      (Interrupted setting fuel base area more) where
  closed := fun _ _ allowed edge => allowed.closed closed edge
  successors := by
    intro done stage machine given allowed
    obtain ⟨searching, holds⟩ := given
    simp only [stageSearch, ensures_bind, ensures_pure]
    apply (readIndex_ensures setting.faults setting.externals
      stage.1).mono
    · intro deps final given
      obtain ⟨read, same⟩ := given
      rw [searching.planned.settled.indexOf setting.externals] at read
      exact ⟨(edges_eq read).symm, ⟨deps, read⟩, searching.same same,
        observed.same _ _ _ holds same⟩
    · exact fun _ _ failed => .reading searching holds failed
  collect := by
    intro done stage machine nodes child total result failure given _ _
      collected found failed
    obtain ⟨searching, _⟩ := given
    obtain ⟨next, success, _⟩ := collect_lists fuel searching.planned
      (collected_lists searching.planned collected) found
    cases success.symm.trans failed
  finish := by
    intro done stage machine total found allowed read ordered fresh collected
    obtain ⟨searching, holds⟩ := found
    obtain ⟨deps, known⟩ := read
    apply (finishStage_ensures searching.planned ordered allowed known
      collected).mono
    · intro result final finished
      exact ⟨searching.step allowed known fresh collected.mem finished,
        observed.step _ _ _ _ _ _ searching holds allowed ⟨deps, known⟩
          fresh collected finished⟩
    · exact fun _ _ halted =>
        .finishing searching holds allowed collected.mem halted

/-! ## Bounds -/

def stagesOf (packages : Finset Entry) : Finset Stage :=
  packages ×ˢ
    ({.installation, .build, .buildEmpty, .source} : Finset StageType)

theorem mem_stagesOf {packages : Finset Entry} :
    stage ∈ stagesOf packages ↔ stage.1 ∈ packages := by
  obtain ⟨package, type⟩ := stage
  cases type <;> simp [stagesOf]

theorem card_stagesOf (packages : Finset Entry) :
    (stagesOf packages).card = 4 * packages.card := by
  rw [stagesOf, Finset.card_product, Nat.mul_comm]
  rfl

theorem Searching.length_le {packages : Finset Entry}
    {machine : Machine File Archive}
    (searching : Searching setting base (· ∈ packages) done machine) :
    done.length ≤ 4 * packages.card := by
  rw [← card_stagesOf, ← List.length_map Prod.fst,
    ← List.toFinset_card_of_nodup searching.ordered.nodup]
  refine Finset.card_le_card fun stage member => ?_
  obtain ⟨entry, inDone, rfl⟩ :=
    List.mem_map.mp (List.mem_toFinset.mp member)
  exact mem_stagesOf.mpr (searching.allowed entry inDone).2

theorem edges_closed {packages : Finset Entry}
    (closed : Closed (setting.index base) (· ∈ packages)) :
    ∀ stage ∈ stagesOf packages,
      ∀ child ∈ edges (setting.index base) stage,
        child ∈ stagesOf packages := by
  intro stage member child edge
  rw [mem_stagesOf] at member ⊢
  unfold edges at edge
  cases known : setting.index base stage.1 with
  | none =>
      rw [known] at edge
      cases edge
  | some deps =>
      rw [known] at edge
      rcases fst_of_mem_dependencies edge with same | imported
      · exact same ▸ member
      · exact closed stage.1 deps member known child.1 imported

end Bacs.Pm
