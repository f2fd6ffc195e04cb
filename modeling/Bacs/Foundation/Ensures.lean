import Mathlib.Data.List.Basic

/-!
# Contracts for programs that throw

A program is a computation in `EStateM`: it ends normally with a value, or
with an exception, and in both cases the state reached so far survives.
`Ensures` gives one postcondition to each of the two endings.  The equations
below compute the contract of a compound program from its parts, and
`ensures_foldlM` is the invariant rule for a loop over a list.

`Keeps` is the special case of a property of the state that survives both
endings; it is closed under all program constructors.
-/

namespace Bacs.Foundation

variable {ε σ α β : Type}

/-- Every run of `program` from `start` that ends normally satisfies `normal`,
and every run that ends with an exception satisfies `thrown`. -/
def Ensures (program : EStateM ε σ α) (start : σ)
    (normal : α → σ → Prop) (thrown : ε → σ → Prop) : Prop :=
  match program start with
  | .ok value final => normal value final
  | .error exception final => thrown exception final

theorem Ensures.of_ok
    {program : EStateM ε σ α} {start final : σ} {value : α}
    {normal : α → σ → Prop} {thrown : ε → σ → Prop}
    (contract : Ensures program start normal thrown)
    (run : program start = .ok value final) : normal value final := by
  simpa [Ensures, run] using contract

theorem Ensures.of_error
    {program : EStateM ε σ α} {start final : σ} {exception : ε}
    {normal : α → σ → Prop} {thrown : ε → σ → Prop}
    (contract : Ensures program start normal thrown)
    (run : program start = .error exception final) :
    thrown exception final := by
  simpa [Ensures, run] using contract

theorem Ensures.mono
    {program : EStateM ε σ α} {start : σ}
    {normal normal' : α → σ → Prop} {thrown thrown' : ε → σ → Prop}
    (contract : Ensures program start normal thrown)
    (onNormal : ∀ value final, normal value final → normal' value final)
    (onThrown : ∀ exception final,
      thrown exception final → thrown' exception final) :
    Ensures program start normal' thrown' := by
  unfold Ensures at contract ⊢
  cases outcome : program start with
  | ok value final =>
      rw [outcome] at contract
      exact onNormal value final contract
  | error exception final =>
      rw [outcome] at contract
      exact onThrown exception final contract

theorem Ensures.and
    {program : EStateM ε σ α} {start : σ}
    {normal normal' : α → σ → Prop} {thrown thrown' : ε → σ → Prop}
    (first : Ensures program start normal thrown)
    (second : Ensures program start normal' thrown') :
    Ensures program start
      (fun value final => normal value final ∧ normal' value final)
      (fun exception final =>
        thrown exception final ∧ thrown' exception final) := by
  unfold Ensures at first second ⊢
  cases outcome : program start with
  | ok value final =>
      rw [outcome] at first second
      exact ⟨first, second⟩
  | error exception final =>
      rw [outcome] at first second
      exact ⟨first, second⟩

section Equations

variable {normal : α → σ → Prop} {thrown : ε → σ → Prop} {start : σ}

@[simp] theorem ensures_pure (value : α) :
    Ensures (pure value) start normal thrown ↔ normal value start :=
  Iff.rfl

@[simp] theorem ensures_throw (exception : ε) :
    Ensures (throw exception : EStateM ε σ α) start normal thrown ↔
      thrown exception start :=
  Iff.rfl

/-- Sequencing: the continuation's contract is the normal postcondition of
the first program. -/
@[simp] theorem ensures_bind (first : EStateM ε σ β)
    (next : β → EStateM ε σ α) :
    Ensures (first >>= next) start normal thrown ↔
      Ensures first start
        (fun value middle => Ensures (next value) middle normal thrown)
        thrown := by
  simp only [Ensures, bind, EStateM.bind]
  cases first start <;> rfl

@[simp] theorem ensures_map (function : β → α) (program : EStateM ε σ β) :
    Ensures (function <$> program) start normal thrown ↔
      Ensures program start
        (fun value final => normal (function value) final) thrown := by
  simp only [Ensures, Functor.map, EStateM.map]
  cases program start <;> rfl

@[simp] theorem ensures_tryCatch (program : EStateM ε σ α)
    (handler : ε → EStateM ε σ α) :
    Ensures (tryCatch program handler) start normal thrown ↔
      Ensures program start normal
        (fun exception middle =>
          Ensures (handler exception) middle normal thrown) := by
  simp only [Ensures, tryCatch, tryCatchThe, MonadExceptOf.tryCatch,
    EStateM.tryCatch, EStateM.Backtrackable.restore,
    EStateM.dummyRestore]
  cases program start <;> rfl

end Equations

@[simp] theorem ensures_get {start : σ}
    {normal : σ → σ → Prop} {thrown : ε → σ → Prop} :
    Ensures (get : EStateM ε σ σ) start normal thrown ↔
      normal start start :=
  Iff.rfl

@[simp] theorem ensures_set {start next : σ}
    {normal : PUnit → σ → Prop} {thrown : ε → σ → Prop} :
    Ensures (set next : EStateM ε σ PUnit) start normal thrown ↔
      normal ⟨⟩ next :=
  Iff.rfl

@[simp] theorem ensures_modify {start : σ} (change : σ → σ)
    {normal : PUnit → σ → Prop} {thrown : ε → σ → Prop} :
    Ensures (modify change : EStateM ε σ PUnit) start normal thrown ↔
      normal ⟨⟩ (change start) :=
  Iff.rfl

/-- The invariant rule for a loop: what holds of the elements already
processed before an iteration holds of one more after it. -/
theorem ensures_foldlM
    {body : β → α → EStateM ε σ β} {thrown : ε → σ → Prop}
    (invariant : List α → β → σ → Prop) (items : List α)
    (iteration : ∀ done next rest accumulated state,
      items = done ++ next :: rest → invariant done accumulated state →
        Ensures (body accumulated next) state
          (invariant (done ++ [next])) thrown)
    {accumulated : β} {start : σ}
    (initially : invariant [] accumulated start) :
    Ensures (items.foldlM body accumulated) start
      (invariant items) thrown := by
  suffices general : ∀ rest done accumulated state,
      items = done ++ rest → invariant done accumulated state →
        Ensures (rest.foldlM body accumulated) state
          (invariant items) thrown from
    general items [] accumulated start rfl initially
  intro rest
  induction rest with
  | nil =>
      intro done accumulated state split holds
      rw [List.append_nil] at split
      subst split
      simpa using holds
  | cons next rest induction =>
      intro done accumulated state split holds
      rw [List.foldlM_cons, ensures_bind]
      refine (iteration done next rest accumulated state split holds).mono
        ?_ (fun _ _ stopped => stopped)
      intro value middle kept
      exact induction (done ++ [next]) value middle (by simp [split]) kept

/-- The computation ended without an exception. -/
def Normal (result : EStateM.Result ε σ α) : Prop :=
  ∃ value final, result = .ok value final

instance (result : EStateM.Result ε σ α) : Decidable (Normal result) :=
  match result with
  | .ok value final => .isTrue ⟨value, final, rfl⟩
  | .error _ _ => .isFalse fun ⟨_, _, impossible⟩ => by cases impossible

theorem Normal.ne_error {result : EStateM.Result ε σ α}
    (normal : Normal result) (exception : ε) (state : σ) :
    result ≠ .error exception state := by
  obtain ⟨value, final, rfl⟩ := normal
  simp

theorem Normal.of_bind {first : EStateM ε σ β} {next : β → EStateM ε σ α}
    {start middle : σ} {value : β}
    (normal : Normal ((first >>= next) start))
    (ended : first start = .ok value middle) : Normal (next value middle) := by
  simpa [bind, EStateM.bind, ended] using normal

/-! ## Runs that end normally -/

theorem bind_eq_ok {first : EStateM ε σ β} {next : β → EStateM ε σ α}
    {start final : σ} {value : α} :
    (first >>= next) start = .ok value final ↔
      ∃ found middle, first start = .ok found middle ∧
        next found middle = .ok value final := by
  simp only [bind, EStateM.bind]
  cases first start <;> simp

theorem get_bind (next : σ → EStateM ε σ α) (state : σ) :
    ((get : EStateM ε σ σ) >>= next) state = next state state :=
  rfl

theorem get_run (state : σ) :
    (get : EStateM ε σ σ) state = .ok state state :=
  rfl

theorem throw_run (exception : ε) (state : σ) :
    (throw exception : EStateM ε σ α) state = .error exception state :=
  rfl

section Loops

variable {body : α → EStateM ε σ Unit} {reach : σ → σ → Prop}
  {items : List α} {start final : σ}

/-- What every round of a loop reaches is reached by the whole loop. -/
theorem reach_of_foldlM (refl : ∀ state, reach state state)
    (trans : ∀ {first second third}, reach first second →
      reach second third → reach first third)
    (rounds : ∀ item start final, body item start = .ok () final →
      reach start final)
    (ends : items.foldlM (fun _ => body) () start = .ok () final) :
    reach start final := by
  induction items generalizing start with
  | nil =>
      cases ends
      exact refl _
  | cons item items ih =>
      rw [List.foldlM_cons, bind_eq_ok] at ends
      obtain ⟨_, middle, round, rest⟩ := ends
      exact trans (rounds item start middle round) (ih rest)

/-- A loop that ends normally has made a round for each item. -/
theorem round_of_foldlM (refl : ∀ state, reach state state)
    (trans : ∀ {first second third}, reach first second →
      reach second third → reach first third)
    (rounds : ∀ item start final, body item start = .ok () final →
      reach start final)
    (ends : items.foldlM (fun _ => body) () start = .ok () final)
    {item : α} (member : item ∈ items) :
    ∃ before after, reach start before ∧ body item before = .ok () after ∧
      reach after final := by
  induction items generalizing start with
  | nil => cases member
  | cons first items ih =>
      rw [List.foldlM_cons, bind_eq_ok] at ends
      obtain ⟨_, middle, round, rest⟩ := ends
      rcases List.mem_cons.mp member with rfl | later
      · exact ⟨start, middle, refl start, round,
          reach_of_foldlM refl trans rounds rest⟩
      · obtain ⟨before, after, reached, made, others⟩ := ih rest later
        exact ⟨before, after, trans (rounds _ _ _ round) reached, made,
          others⟩

end Loops

/-! ## Properties of the state that a program keeps -/

/-- `program` keeps `holds`, whether it ends normally or throws. -/
def Keeps (holds : σ → Prop) (program : EStateM ε σ α) : Prop :=
  ∀ start, holds start →
    Ensures program start (fun _ final => holds final)
      (fun _ final => holds final)

namespace Keeps

variable {holds : σ → Prop}

theorem pure (value : α) :
    Keeps holds (pure value : EStateM ε σ α) :=
  fun _ held => held

theorem throw (exception : ε) :
    Keeps holds (throw exception : EStateM ε σ α) :=
  fun _ held => held

theorem get : Keeps holds (get : EStateM ε σ σ) :=
  fun _ held => held

theorem modify {change : σ → σ}
    (kept : ∀ state, holds state → holds (change state)) :
    Keeps holds (modify change : EStateM ε σ PUnit) :=
  fun state held => kept state held

theorem bind {first : EStateM ε σ β} {next : β → EStateM ε σ α}
    (head : Keeps holds first) (tail : ∀ value, Keeps holds (next value)) :
    Keeps holds (first >>= next) := by
  intro start held
  rw [ensures_bind]
  exact (head start held).mono
    (fun value middle => tail value middle) (fun _ _ stopped => stopped)

theorem ite' {condition : Prop} [Decidable condition]
    {first second : EStateM ε σ α}
    (positive : condition → Keeps holds first)
    (negative : ¬ condition → Keeps holds second) :
    Keeps holds (if condition then first else second) := by
  by_cases decision : condition
  · rw [if_pos decision]
    exact positive decision
  · rw [if_neg decision]
    exact negative decision

theorem ite {condition : Prop} [Decidable condition]
    {first second : EStateM ε σ α}
    (positive : Keeps holds first) (negative : Keeps holds second) :
    Keeps holds (if condition then first else second) :=
  ite' (fun _ => positive) (fun _ => negative)

theorem tryCatch {program : EStateM ε σ α} {handler : ε → EStateM ε σ α}
    (body : Keeps holds program)
    (handled : ∀ exception, Keeps holds (handler exception)) :
    Keeps holds (tryCatch program handler) := by
  intro start held
  rw [ensures_tryCatch]
  exact (body start held).mono (fun _ _ ended => ended)
    (fun exception middle => handled exception middle)

theorem foldlM {body : β → α → EStateM ε σ β} {items : List α}
    (iteration : ∀ accumulated, ∀ item ∈ items,
      Keeps holds (body accumulated item)) (accumulated : β) :
    Keeps holds (items.foldlM body accumulated) := by
  intro start held
  refine ensures_foldlM (fun _ _ state => holds state) items ?_ held
  intro done next rest value state split current
  exact iteration value next (by simp [split]) state current

theorem forM {body : α → EStateM ε σ PUnit} {items : List α}
    (iteration : ∀ item ∈ items, Keeps holds (body item)) :
    Keeps holds (items.forM body) := by
  induction items with
  | nil => exact pure _
  | cons item rest induction =>
      change Keeps holds (body item >>= fun _ => rest.forM body)
      exact bind (iteration item List.mem_cons_self) fun _ =>
        induction fun other member =>
          iteration other (List.mem_cons_of_mem _ member)

theorem mapM {body : α → EStateM ε σ β} {items : List α}
    (iteration : ∀ item ∈ items, Keeps holds (body item)) :
    Keeps holds (items.mapM body) := by
  induction items with
  | nil => exact pure _
  | cons item rest induction =>
      rw [List.mapM_cons]
      refine bind (iteration item List.mem_cons_self) fun _ => ?_
      refine bind (induction fun other member =>
        iteration other (List.mem_cons_of_mem _ member)) fun _ => ?_
      exact pure _

end Keeps

/-- `program` only looks at the state. -/
def Pristine (program : EStateM ε σ α) : Prop :=
  ∀ holds : σ → Prop, Keeps holds program

theorem Pristine.ensures {program : EStateM ε σ α}
    (pristine : Pristine program) (start : σ) :
    Ensures program start (fun _ final => final = start)
      (fun _ final => final = start) :=
  pristine (· = start) start rfl

end Bacs.Foundation
