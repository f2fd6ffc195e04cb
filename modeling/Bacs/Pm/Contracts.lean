import Bacs.Pm.Repository

/-!
# Contracts of the file operations of the package manager

All contracts here have one way to fail: a file operation fails, and `Failed`
says what is known of the abort and of the cache it leaves.  Programs that
recur with a bound may also reach it.
-/

namespace Bacs.Pm

open Foundation

variable {File Archive Tree : Type}

/-- A file operation failed in the way that `shape` describes. -/
def Failed (shape : Abort File Archive → Cache File Archive → Prop)
    (failure : Failure File Archive) (final : Machine File Archive) : Prop :=
  ∃ abort, failure = .operation abort ∧ shape abort final.cache

theorem Failed.mono
    {shape wider : Abort File Archive → Cache File Archive → Prop}
    {failure : Failure File Archive} {final : Machine File Archive}
    (failed : Failed shape failure final)
    (weaken : ∀ abort cache, shape abort cache → wider abort cache) :
    Failed wider failure final := by
  obtain ⟨abort, rfl, holds⟩ := failed
  exact ⟨abort, rfl, weaken _ _ holds⟩

/-- A file operation failed, or recursion stopped at the model's bound, which
happens only if the bound is `exhausted`, and changes nothing. -/
def Halted (exhausted : Prop) (before : Cache File Archive)
    (shape : Abort File Archive → Cache File Archive → Prop)
    (failure : Failure File Archive) (final : Machine File Archive) : Prop :=
  Failed shape failure final ∨
    exhausted ∧ failure = .outOfFuel ∧ final.cache = before

theorem Failed.halted {exhausted : Prop} {before : Cache File Archive}
    {shape : Abort File Archive → Cache File Archive → Prop}
    {failure : Failure File Archive} {final : Machine File Archive}
    (failed : Failed shape failure final) :
    Halted exhausted before shape failure final :=
  .inl failed

theorem Halted.mono {exhausted wider : Prop} {before : Cache File Archive}
    {shape larger : Abort File Archive → Cache File Archive → Prop}
    {failure : Failure File Archive} {final : Machine File Archive}
    (halted : Halted exhausted before shape failure final)
    (weaken : exhausted → wider)
    (enlarge : ∀ abort cache, shape abort cache → larger abort cache) :
    Halted wider before larger failure final :=
  halted.imp (fun failed => failed.mono enlarge)
    fun ⟨short, rest⟩ => ⟨weaken short, rest⟩

def Harmless (before : Cache File Archive) :
    Abort File Archive → Cache File Archive → Prop :=
  fun _ cache => cache = before

/-- The same cache and log; the clock may have advanced. -/
def Machine.Same (before after : Machine File Archive) : Prop :=
  after.cache = before.cache ∧ after.log = before.log

@[simp] theorem Machine.Same.refl (machine : Machine File Archive) :
    machine.Same machine :=
  ⟨rfl, rfl⟩

theorem Machine.Same.trans {first second third : Machine File Archive}
    (left : first.Same second) (right : second.Same third) :
    first.Same third :=
  ⟨right.1.trans left.1, right.2.trans left.2⟩

variable (faults : Faults File Archive)

theorem ensures_perform {Value : Type} {operation : Operation}
    {spoil : Residue File Archive → Cache File Archive → Cache File Archive}
    {action : Cache File Archive → Option (Value × Cache File Archive)}
    {machine : Machine File Archive}
    {normal : Value → Machine File Archive → Prop}
    {thrown : Failure File Archive → Machine File Archive → Prop}
    (onSuccess : ∀ value cache, action machine.cache = some (value, cache) →
      normal value
        { machine with clock := machine.clock + 1, cache })
    (onFailure : ∀ residue, thrown
      (.operation ⟨operation, machine.cache, residue⟩)
        { machine with clock := machine.clock + 1,
                       cache := spoil residue machine.cache }) :
    Ensures (perform faults operation spoil action) machine normal thrown := by
  unfold Ensures perform
  cases aborted : faults.aborts machine.clock with
  | true =>
      simp only [if_true]
      exact onFailure _
  | false =>
      cases outcome : action machine.cache with
      | none =>
          simp only [Bool.false_eq_true, if_false]
          exact onFailure _
      | some ended =>
          obtain ⟨value, cache⟩ := ended
          simp only [Bool.false_eq_true, if_false]
          exact onSuccess value cache outcome

theorem ensures_query_abort {Value : Type} {operation : Operation}
    {read : Cache File Archive → Option Value}
    {machine : Machine File Archive} :
    Ensures (query faults operation read) machine
      (fun value final =>
        read machine.cache = some value ∧ machine.Same final)
      (Failed fun abort cache => abort.operation = operation ∧
        abort.before = machine.cache ∧ cache = machine.cache) := by
  apply ensures_perform faults
  · intro value cache success
    obtain ⟨result, found, pair⟩ := Option.map_eq_some_iff.mp success
    cases pair
    exact ⟨found, rfl, rfl⟩
  · intro residue
    exact ⟨_, rfl, rfl, rfl, rfl⟩

theorem ensures_query {Value : Type} {operation : Operation}
    {read : Cache File Archive → Option Value}
    {machine : Machine File Archive} :
    Ensures (query faults operation read) machine
      (fun value final =>
        read machine.cache = some value ∧ machine.Same final)
      (Failed (Harmless machine.cache)) :=
  (ensures_query_abort faults).mono (fun _ _ read => read)
    fun _ _ failed => failed.mono fun _ _ shape => shape.2.2

theorem ensures_store {operation : Operation} {package : Entry}
    {spoil : Residue File Archive → PackageFiles File Archive →
      PackageFiles File Archive}
    {change : PackageFiles File Archive → PackageFiles File Archive}
    {machine : Machine File Archive} :
    Ensures (store faults operation package spoil change) machine
      (fun _ final =>
        final.cache = machine.cache.update package change ∧
          final.log = machine.log)
      (Failed fun abort cache =>
        abort.operation = operation ∧ abort.before = machine.cache ∧
          cache = machine.cache.update package (spoil abort.residue)) := by
  apply ensures_perform faults
  · intro given cache success
    obtain ⟨⟩ := given
    cases success
    exact ⟨rfl, rfl⟩
  · intro residue
    exact ⟨_, rfl, rfl, rfl, rfl⟩

section Reading

variable {machine : Machine File Archive}
  (externals : Externals File Archive Tree) (package : Entry)

theorem readIndex_ensures :
    Ensures (readIndex faults externals package) machine
      (fun deps final =>
        machine.cache.indexOf externals package = some deps ∧
          machine.Same final)
      (Failed (Harmless machine.cache)) :=
  ensures_query faults

theorem readChecksum_ensures :
    Ensures (readChecksum faults externals package) machine
      (fun entry final =>
        machine.cache.checksumOf externals package = some entry ∧
          machine.Same final)
      (Failed (Harmless machine.cache)) := by
  rw [readChecksum, readChecksumAt]
  exact ensures_query faults

theorem readSnapshot_ensures (kind : Kind) :
    Ensures (readSnapshot faults kind package) machine
      (fun snapshot final =>
        ((machine.cache.files package).product kind).snapshot =
          .value snapshot ∧ machine.Same final)
      (Failed (Harmless machine.cache)) := by
  refine (ensures_query faults).mono ?_ (fun _ _ failed => failed)
  intro snapshot final given
  obtain ⟨found, same⟩ := given
  exact ⟨Slot.read_eq_some.mp found, same⟩

theorem outdated_ensures (kind : Kind) (snapshot : Snapshot) :
    Ensures (outdated faults kind package snapshot) machine
      (fun answer final =>
        ((machine.cache.files package).product kind).outdated snapshot =
          some answer ∧ machine.Same final)
      (Failed (Harmless machine.cache)) :=
  ensures_query faults

end Reading

theorem extract_ensures (setting : Setting File Archive Tree)
    {machine : Machine File Archive} (kind : Kind) (package : Entry)
    (destination : List PathName) (tree : Tree) :
    Ensures (extract setting kind package destination tree) machine
      (fun result final => machine.Same final ∧ ∃ archive contents,
        ((machine.cache.files package).product kind).archive =
            some archive ∧
          setting.externals.unpack archive = some contents ∧
          setting.externals.merge tree destination contents = some result)
      (Failed (Harmless machine.cache)) := by
  refine (ensures_query setting.faults).mono ?_ (fun _ _ failed => failed)
  intro result final given
  obtain ⟨extracted, same⟩ := given
  simp only [Option.bind_eq_bind, Option.bind_eq_some_iff] at extracted
  obtain ⟨archive, stored, contents, unpacked, merged⟩ := extracted
  exact ⟨same, archive, contents, stored, unpacked, merged⟩

theorem extractSource_ensures (setting : Setting File Archive Tree)
    {machine : Machine File Archive} (package : Entry) (source : SourceId)
    (destination : List PathName) (tree : Tree) :
    Ensures (extractSource setting package source destination tree) machine
      (fun result final => machine.Same final ∧ ∃ file contents,
        (machine.cache.files package).source source = some file ∧
          setting.externals.unpackSource file = some contents ∧
          setting.externals.merge tree destination contents = some result)
      (Failed (Harmless machine.cache)) := by
  refine (ensures_query setting.faults).mono ?_ (fun _ _ failed => failed)
  intro result final given
  obtain ⟨extracted, same⟩ := given
  simp only [Option.bind_eq_bind, Option.bind_eq_some_iff] at extracted
  obtain ⟨file, stored, contents, unpacked, merged⟩ := extracted
  exact ⟨same, file, contents, stored, unpacked, merged⟩

@[simp] theorem ensures_logLine {event : Event}
    {machine : Machine File Archive}
    {normal : Unit → Machine File Archive → Prop}
    {thrown : Failure File Archive → Machine File Archive → Prop} :
    Ensures (logLine event) machine normal thrown ↔
      normal () { machine with log := event :: machine.log } :=
  Iff.rfl

end Bacs.Pm
