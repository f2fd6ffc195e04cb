import Bacs.Foundation.Chasing
import Bacs.Utility.Resolver

/-!
# Alias resolution

Each round of the loop records one more name.  While the names found are
aliases, the aliases not recorded become fewer, so the loop ends; a name that
is found twice belongs to a chain of aliases that never leaves the map.
-/

namespace Bacs.Utility

open Foundation

variable {Path Back : Type} [DecidableEq Path]

/-- The chain of aliases that starts at a name. -/
abbrev aliasOf (aliases : Finmap fun _ : Path => Path) (name : Path) :
    Option Path :=
  aliases.lookup name

/-- An outcome of alias resolution says how the chain goes on. -/
def Resolves (aliases : Finmap fun _ : Path => Path) (start : Path) :
    Except (ResolverError Path Back) Path → Prop
  | .ok last => EndsAt (aliasOf aliases) start last
  | .error failed =>
      failed = .circularAliasDependencies ∧
        NeverEnds (aliasOf aliases) start

def remaining (aliases : Finmap fun _ : Path => Path) (iter : Option Path)
    (used : Finset Path) : Nat :=
  (aliases.keys \ used).card + if iter.isSome then 1 else 0

theorem remaining_decreases {aliases : Finmap fun _ : Path => Path}
    {name : Path} {used : Finset Path} (fresh : name ∉ used) :
    remaining aliases (aliases.lookup name) (insert name used) <
      remaining aliases (some name) used := by
  have rest : aliases.keys \ insert name used =
      (aliases.keys \ used).erase name := by
    rw [Finset.sdiff_insert]
  unfold remaining
  rw [rest]
  cases found : aliases.lookup name with
  | none =>
      have fewer := Finset.card_erase_le (s := aliases.keys \ used) (a := name)
      simpa using Nat.lt_succ_of_le fewer
  | some target =>
      have isAlias : name ∈ aliases.keys \ used := by
        rw [Finset.mem_sdiff, Finmap.mem_keys]
        exact ⟨Finmap.mem_of_lookup_eq_some found, fresh⟩
      have fewer := Finset.card_erase_lt_of_mem isAlias
      simpa using fewer

/-- The loop, once `length` links have been followed. -/
theorem aliasLoop_resolves {aliases : Finmap fun _ : Path => Path}
    {start name : Path} {iter : Option Path} {used : Finset Path}
    {length fuel : Nat}
    (reached : chain (aliasOf aliases) start length = some name)
    (found : iter = aliases.lookup name)
    (recorded : ∀ other ∈ used, ∃ earlier ≤ length,
      chain (aliasOf aliases) start earlier = some other)
    (enough : remaining aliases iter used < fuel) :
    ∃ outcome : Except (ResolverError Path Back) Path,
      (CustomResolver.aliasLoop aliases fuel name iter used).run =
          some outcome ∧
        Resolves aliases start outcome := by
  induction fuel generalizing name iter used length with
  | zero => omega
  | succ fuel ih =>
      cases iter with
      | none =>
          exact ⟨.ok name, rfl, length, reached, found.symm⟩
      | some target =>
          have next : chain (aliasOf aliases) start (length + 1) =
              some target := by
            rw [chain, reached, Option.bind_some, aliasOf, ← found]
          rw [CustomResolver.aliasLoop]
          by_cases visited : target ∈ used
          · obtain ⟨earlier, notLater, before⟩ := recorded target visited
            refine ⟨.error .circularAliasDependencies, ?_, rfl,
              neverEnds_of_repeated (by omega) before next⟩
            rw [if_pos visited]
            rfl
          · have fewer : remaining aliases (aliases.lookup target)
                (insert target used) < remaining aliases (some target) used :=
              remaining_decreases visited
            have recordedNext : ∀ other ∈ insert target used,
                ∃ earlier ≤ length + 1,
                  chain (aliasOf aliases) start earlier = some other := by
              intro other member
              obtain rfl | before := Finset.mem_insert.1 member
              · exact ⟨length + 1, le_rfl, next⟩
              · obtain ⟨earlier, notLater, at'⟩ := recorded other before
                exact ⟨earlier, by omega, at'⟩
            rw [if_neg visited]
            exact ih next rfl recordedNext (by omega)

section Resolving

variable {aliases : Finmap fun _ : Path => Path} {start : Path}
  {outcome : Except (ResolverError Path Back) Path}

theorem Resolves.error_iff (resolves : Resolves aliases start outcome)
    (failed : ResolverError Path Back) :
    outcome = .error failed ↔
      failed = .circularAliasDependencies ∧
        NeverEnds (aliasOf aliases) start := by
  cases outcome with
  | ok last =>
      constructor
      · intro impossible
        cases impossible
      · rintro ⟨_, endless⟩
        exact absurd endless (EndsAt.not_neverEnds resolves)
  | error circular =>
      obtain ⟨rfl, endless⟩ := resolves
      constructor
      · rintro ⟨⟩
        exact ⟨rfl, endless⟩
      · rintro ⟨rfl, _⟩
        rfl

theorem Resolves.ok_iff (resolves : Resolves aliases start outcome)
    (last : Path) :
    outcome = .ok last ↔ EndsAt (aliasOf aliases) start last := by
  cases outcome with
  | ok found =>
      constructor
      · rintro ⟨⟩
        exact resolves
      · intro ends
        rw [EndsAt.unique resolves ends]
  | error failed =>
      constructor
      · intro impossible
        cases impossible
      · intro ends
        exact absurd resolves.2 ends.not_neverEnds

variable (config : Config Path) (backResolver : Path → Except Back Path)

theorem applyAlias_resolves (name : Path) {fuel : Nat}
    (enough : config.aliases.keys.card + 2 ≤ fuel) :
    ∃ outcome,
      ((CustomResolver.mk (some config) backResolver).applyAlias fuel
          name).run = some outcome ∧ Resolves config.aliases name outcome := by
  have few : (config.aliases.keys \ {name}).card ≤
      config.aliases.keys.card :=
    Finset.card_le_card Finset.sdiff_subset
  have bound : remaining config.aliases (config.aliases.lookup name) {name} <
      fuel := by
    unfold remaining
    split <;> omega
  have atStart : chain (aliasOf config.aliases) name 0 = some name := rfl
  apply aliasLoop_resolves atStart rfl _ bound
  intro other member
  rw [Finset.mem_singleton.1 member]
  exact ⟨0, le_rfl, rfl⟩

variable {config backResolver}

theorem applyPath_caught (filename : Path → Path) (name target : Path) :
    ExceptT.run
        (tryCatch
          ((CustomResolver.mk (some config) backResolver).applyPath filename
            target)
          fun nested => throw (.findExecutable name nested)) =
      if target = filename target ∧ target ∈ config.path then
        some ((backResolver target).mapError fun failed =>
          .findExecutable name (.back failed))
      else some (.ok target) := by
  simp only [CustomResolver.applyPath, CustomResolver.applyBack]
  by_cases bare : target = filename target
  · by_cases listed : target ∈ config.path
    · rw [if_neg (not_not.2 bare), if_pos listed, if_pos ⟨bare, listed⟩]
      cases backResolver target <;> rfl
    · rw [if_neg (not_not.2 bare), if_neg listed,
        if_neg fun both => listed both.2]
      rfl
  · rw [if_pos bare, if_neg fun both => bare both.1]
    rfl

theorem findExecutable_of_alias {filename : Path → Path} {fuel : Nat}
    {name last : Path}
    (resolved :
      ((CustomResolver.mk (some config) backResolver).applyAlias fuel
          name).run = some (.ok last)) :
    ((CustomResolver.mk (some config) backResolver).findExecutable filename
        fuel name).run =
      let target := (config.absolute.lookup last).getD last
      if target = filename target ∧ target ∈ config.path then
        some ((backResolver target).mapError fun failed =>
          .findExecutable name (.back failed))
      else some (.ok target) := by
  have rest : (CustomResolver.mk (some config) backResolver).findExecutable
      filename fuel name =
        tryCatch
          ((CustomResolver.mk (some config) backResolver).applyPath filename
            ((CustomResolver.mk (some config) backResolver).applyAbsolute
              last))
          fun nested => throw (.findExecutable name nested) := by
    unfold CustomResolver.findExecutable
    rw [show CustomResolver.applyAlias _ fuel name = pure last from resolved]
    rfl
  rw [rest]
  exact applyPath_caught filename name _

theorem findExecutable_of_circular {filename : Path → Path} {fuel : Nat}
    {name : Path}
    (circular :
      ((CustomResolver.mk (some config) backResolver).applyAlias fuel
          name).run = some (.error .circularAliasDependencies)) :
    ((CustomResolver.mk (some config) backResolver).findExecutable filename
        fuel name).run =
      some (.error (.findExecutable name .circularAliasDependencies)) := by
  unfold CustomResolver.findExecutable
  rw [show CustomResolver.applyAlias _ fuel name =
    throw .circularAliasDependencies from circular]
  rfl

end Resolving

/-- Alias resolution ends.  It throws where the chain of aliases never leaves
the map, and otherwise yields the first name that is not an alias. -/
theorem alias_resolution_exact (filename : Path → Path)
    (config : Config Path) (backResolver : Path → Except Back Path)
    (name : Path) :
    let resolver := CustomResolver.mk (some config) backResolver
    ∃ enough, ∀ fuel, enough ≤ fuel →
      (∃ outcome, (resolver.applyAlias fuel name).run = some outcome) ∧
      (∀ failed, (resolver.applyAlias fuel name).run = some (.error failed) ↔
        failed = .circularAliasDependencies ∧
          NeverEnds (aliasOf config.aliases) name) ∧
      (∀ last, (resolver.applyAlias fuel name).run = some (.ok last) ↔
        EndsAt (aliasOf config.aliases) name last) ∧
      (NeverEnds (aliasOf config.aliases) name →
        (resolver.findExecutable filename fuel name).run =
          some (.error
            (.findExecutable name .circularAliasDependencies))) ∧
      ∀ last, EndsAt (aliasOf config.aliases) name last →
        (resolver.findExecutable filename fuel name).run =
          let target := (config.absolute.lookup last).getD last
          if target = filename target ∧ target ∈ config.path then
            some ((backResolver target).mapError fun failed =>
              .findExecutable name (.back failed))
          else some (.ok target) := by
  intro resolver
  refine ⟨config.aliases.keys.card + 2, fun fuel enough => ?_⟩
  obtain ⟨outcome, ended, resolves⟩ :=
    applyAlias_resolves config backResolver name enough
  refine ⟨⟨outcome, ended⟩, ?_, ?_, ?_, ?_⟩
  · intro failed
    rw [ended, Option.some_inj]
    exact resolves.error_iff failed
  · intro last
    rw [ended, Option.some_inj]
    exact resolves.ok_iff last
  · intro endless
    rw [(resolves.error_iff _).2 ⟨rfl, endless⟩] at ended
    exact findExecutable_of_circular ended
  · intro last ends
    rw [(resolves.ok_iff last).2 ends] at ended
    exact findExecutable_of_alias ended

end Bacs.Utility
