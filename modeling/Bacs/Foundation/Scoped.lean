import Bacs.Foundation.Ensures

/-!
# Owned resources

A resource that a scope owns is released where the scope ends, with a value or
with an exception.  Releasing never throws.  What the release undoes is
unchanged by the whole scope, whatever happens in it.
-/

namespace Bacs.Foundation

variable {ε σ τ α β : Type}

/-- Run `body` with a resource and release it in both endings. -/
def withOwned (acquire : EStateM ε σ α) (release : α → σ → σ)
    (body : α → EStateM ε σ β) : EStateM ε σ β :=
  fun start =>
    match acquire start with
    | .error exception final => .error exception final
    | .ok resource middle =>
        match body resource middle with
        | .error exception final =>
            .error exception (release resource final)
        | .ok value final => .ok value (release resource final)

@[simp] theorem ensures_withOwned (acquire : EStateM ε σ α)
    (release : α → σ → σ) (body : α → EStateM ε σ β) {start : σ}
    {normal : β → σ → Prop} {thrown : ε → σ → Prop} :
    Ensures (withOwned acquire release body) start normal thrown ↔
      Ensures acquire start
        (fun resource middle => Ensures (body resource) middle
          (fun value final => normal value (release resource final))
          (fun exception final =>
            thrown exception (release resource final)))
        thrown := by
  simp only [Ensures, withOwned]
  cases acquire start with
  | error exception final => rfl
  | ok resource middle =>
      dsimp only
      cases body resource middle <;> rfl

/-- Whatever happens in `program`, a view of the state is the same after it
as before. -/
def Restores (view : σ → τ) (program : EStateM ε σ α) : Prop :=
  ∀ seen, Keeps (fun state => view state = seen) program

namespace Restores

variable {view : σ → τ}

theorem of_ensures {program : EStateM ε σ α}
    (contract : ∀ start, Ensures program start
      (fun _ final => view final = view start)
      (fun _ final => view final = view start)) : Restores view program := by
  rintro _ start rfl
  exact contract start

theorem ensures {program : EStateM ε σ α} (restores : Restores view program)
    (start : σ) :
    Ensures program start (fun _ final => view final = view start)
      (fun _ final => view final = view start) :=
  restores _ start rfl

theorem pure (value : α) :
    Restores view (pure value : EStateM ε σ α) :=
  fun _ => Keeps.pure value

theorem throw (exception : ε) :
    Restores view (throw exception : EStateM ε σ α) :=
  fun _ => Keeps.throw exception

theorem modify {change : σ → σ}
    (same : ∀ state, view (change state) = view state) :
    Restores view (modify change : EStateM ε σ PUnit) :=
  fun _ => Keeps.modify fun state seen => (same state).trans seen

theorem bind {first : EStateM ε σ β} {next : β → EStateM ε σ α}
    (head : Restores view first) (tail : ∀ value, Restores view (next value)) :
    Restores view (first >>= next) :=
  fun seen => Keeps.bind (head seen) fun value => tail value seen

theorem tryCatch {program : EStateM ε σ α} {handler : ε → EStateM ε σ α}
    (body : Restores view program)
    (handled : ∀ exception, Restores view (handler exception)) :
    Restores view (tryCatch program handler) :=
  fun seen => Keeps.tryCatch (body seen) fun exception =>
    handled exception seen

/-- A scope restores what the release of its resource restores. -/
theorem withOwned {acquire : EStateM ε σ α} {release : α → σ → σ}
    {body : α → EStateM ε σ β}
    (acquired : ∀ start, Ensures acquire start
      (fun resource middle => ∀ final, view final = view middle →
        view (release resource final) = view start)
      (fun _ final => view final = view start))
    (inside : ∀ resource, Restores view (body resource)) :
    Restores view (withOwned acquire release body) := by
  apply of_ensures
  intro start
  rw [ensures_withOwned]
  apply (acquired start).mono
  · intro resource middle undone
    apply ((inside resource).ensures middle).mono
    · intro value final same
      exact undone final same
    · intro exception final same
      exact undone final same
  · intro exception final same
    exact same

end Restores

end Bacs.Foundation
