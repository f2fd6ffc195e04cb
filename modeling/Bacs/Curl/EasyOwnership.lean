import Bacs.Curl.EasyHandle

/-!
# Ownership of easy handles

Every handle is either owned by the one object that its private pointer leads
to or cleaned up once.  A reset takes the private pointer away, a move into an
object with a handle forgets that handle, and a copy that throws leaves the
duplicate behind; as long as nothing of this happens no handle is lost.
-/

namespace Bacs.Curl.EasyState

open Foundation

section Objects

variable {Object : Type} {state next : EasyState Object}
  {object other source : Object} {handle : Nat}

/-- What becomes of a handle: it is owned, or it has been cleaned up. -/
def Settled (state : EasyState Object) (handle : Nat) : Prop :=
  (∃ object, state.curl object = some handle) ∧ state.cleaned handle = 0 ∨
    (∀ object, state.curl object ≠ some handle) ∧ state.cleaned handle = 1

structure Owned (state : EasyState Object) : Prop where
  pointer : ∀ object handle, state.curl object = some handle →
    state.pointer handle = some object
  known : ∀ object handle, state.curl object = some handle →
    handle < state.created
  settled : ∀ handle, handle < state.created → state.Settled handle
  untouched : ∀ handle, state.created ≤ handle → state.cleaned handle = 0

theorem Owned.unique (owned : state.Owned)
    (first : state.curl object = some handle)
    (second : state.curl other = some handle) : object = other :=
  Option.some.inj ((owned.pointer object handle first).symm.trans
    (owned.pointer other handle second))

theorem Owned.not_cleaned (owned : state.Owned)
    (owns : state.curl object = some handle) :
    state.cleaned handle = 0 := by
  rcases owned.settled handle (owned.known object handle owns) with
    kept | gone
  · exact kept.2
  · exact absurd owns (gone.1 object)

/-- Handles change hands, and their private pointers follow them. -/
theorem Owned.rearrange (owned : state.Owned) (hands : Equiv.Perm Object)
    (curl : ∀ object, next.curl object = state.curl (hands object))
    (pointer : ∀ object handle, next.curl object = some handle →
      next.pointer handle = some object)
    (created : next.created = state.created)
    (cleaned : next.cleaned = state.cleaned) : next.Owned where
  pointer := pointer
  known := by
    intro object handle owns
    rw [created]
    exact owned.known (hands object) handle (curl object ▸ owns)
  settled := by
    intro handle below
    rw [created] at below
    unfold Settled
    rw [cleaned]
    rcases owned.settled handle below with ⟨⟨object, owns⟩, none⟩ | gone
    · refine .inl ⟨⟨hands.symm object, ?_⟩, none⟩
      rw [curl, Equiv.apply_symm_apply, owns]
    · refine .inr ⟨fun object => ?_, gone.2⟩
      rw [curl]
      exact gone.1 (hands object)
  untouched := by
    intro handle above
    rw [created] at above
    rw [cleaned]
    exact owned.untouched handle above

/-! ## Single operations -/

@[simp] theorem curl_init : (state.init object).curl other =
    state.curl other := by
  unfold init
  split <;> rfl

@[simp] theorem created_init :
    (state.init object).created = state.created := by
  unfold init
  split <;> rfl

@[simp] theorem cleaned_init :
    (state.init object).cleaned = state.cleaned := by
  unfold init
  split <;> rfl

theorem pointer_init : (state.init object).pointer handle =
    if state.curl object = some handle then some object
    else state.pointer handle := by
  unfold init
  split
  case h_1 owned curl =>
    by_cases same : handle = owned
    · simp [same, curl]
    · simp [same, curl, eq_comm]
  case h_2 curl => simp [curl]

theorem curl_of_not_lives (dead : state.objects object = none) :
    state.curl object = none := by
  rw [curl, dead]
  rfl

variable [DecidableEq Object]

theorem curl_put (value : Option Nat) (other : Object) :
    (state.put object value).curl other =
      if other = object then value else state.curl other := by
  unfold curl put
  by_cases same : other = object
  · simp [same]
  · simp [same]

theorem Owned.move (owned : state.Owned) (empty : state.curl object = none) :
    (state.moveAssign object source).Owned := by
  have hands : ∀ other,
      ((state.put object (state.curl source)).put source none).curl other =
        state.curl (Equiv.swap object source other) := by
    intro other
    rw [curl_put, curl_put, Equiv.swap_apply_def]
    by_cases emptied : other = source
    · by_cases same : other = object
      · rw [if_pos emptied, if_pos same, ← emptied, same, empty]
      · rw [if_pos emptied, if_neg same, if_pos emptied, empty]
    · rw [if_neg emptied, if_neg emptied]
      split <;> rfl
  unfold moveAssign
  apply owned.rearrange (Equiv.swap object source)
  · intro other
    rw [curl_init, hands]
  · intro other handle owns
    rw [curl_init, hands] at owns
    rw [pointer_init, hands]
    split
    case isTrue taken =>
      exact congrArg some
        ((Equiv.swap object source).injective (owned.unique taken owns))
    case isFalse elsewhere =>
      have apart : other ≠ object := by
        rintro rfl
        exact elsewhere owns
      have old : other ≠ source := by
        rintro rfl
        rw [Equiv.swap_apply_right, empty] at owns
        cases owns
      rw [Equiv.swap_apply_of_ne_of_ne apart old] at owns
      exact owned.pointer other handle owns
  · exact created_init
  · exact cleaned_init

theorem Owned.swap (owned : state.Owned) (first second : Object) :
    (state.swap first second).Owned := by
  have hands : ∀ other, ((state.put first (state.curl second)).put second
      (state.curl first)).curl other =
        state.curl (Equiv.swap first second other) := by
    intro other
    rw [curl_put, curl_put, Equiv.swap_apply_def]
    by_cases isSecond : other = second
    · by_cases isFirst : other = first
      · rw [if_pos isSecond, if_pos isFirst, ← isSecond, isFirst]
      · rw [if_pos isSecond, if_neg isFirst, if_pos isSecond]
    · rw [if_neg isSecond, if_neg isSecond]
      split <;> rfl
  unfold EasyState.swap
  apply owned.rearrange (Equiv.swap first second)
  · intro other
    rw [curl_init, curl_init, hands]
  · intro other handle owns
    rw [curl_init, curl_init, hands] at owns
    rw [pointer_init, pointer_init, curl_init, hands, hands]
    split_ifs with right left
    · exact congrArg some
        ((Equiv.swap first second).injective (owned.unique right owns))
    · exact congrArg some
        ((Equiv.swap first second).injective (owned.unique left owns))
    · have notFirst : other ≠ first := by
        rintro rfl
        exact left owns
      have notSecond : other ≠ second := by
        rintro rfl
        exact right owns
      rw [Equiv.swap_apply_of_ne_of_ne notFirst notSecond] at owns
      exact owned.pointer other handle owns
  · rw [created_init, created_init]
    rfl
  · rw [cleaned_init, cleaned_init]
    rfl

theorem Owned.make (owned : state.Owned) (empty : state.curl object = none)
    (pointer : Option Object) :
    (({ state with
        created := state.created + 1
        pointer := Function.update state.pointer state.created pointer }
      |>.put object (some state.created)).init object).Owned := by
  have hands : ∀ other, ({ state with
      created := state.created + 1
      pointer := Function.update state.pointer state.created pointer }
        |>.put object (some state.created)).curl other =
      if other = object then some state.created else state.curl other := by
    intro other
    rw [curl_put]
    rfl
  constructor
  · intro other handle owns
    rw [curl_init, hands] at owns
    rw [pointer_init, hands, if_pos rfl]
    split_ifs at owns with same
    · rw [if_pos owns, same]
    · have below := owned.known other handle owns
      have old : state.created ≠ handle := by omega
      have old' : ¬ some state.created = some handle :=
        fun equal => old (Option.some.inj equal)
      rw [if_neg old']
      exact (Function.update_of_ne old.symm ..).trans
        (owned.pointer other handle owns)
  · intro other handle owns
    rw [curl_init, hands] at owns
    rw [created_init]
    split_ifs at owns with same
    · cases owns
      exact Nat.lt_succ_self _
    · exact Nat.lt_succ_of_lt (owned.known other handle owns)
  · intro handle below
    rw [created_init] at below
    unfold Settled
    simp only [curl_init, cleaned_init, hands]
    rcases Nat.lt_succ_iff_lt_or_eq.mp below with old | rfl
    · rcases owned.settled handle old with ⟨⟨other, owns⟩, none⟩ | gone
      · refine .inl ⟨⟨other, ?_⟩, none⟩
        have apart : other ≠ object := by
          rintro rfl
          rw [empty] at owns
          cases owns
        rw [if_neg apart]
        exact owns
      · refine .inr ⟨fun other => ?_, gone.2⟩
        split
        · intro same
          exact Nat.ne_of_gt old (Option.some.inj same)
        · exact gone.1 other
    · exact .inl ⟨⟨object, if_pos rfl⟩, owned.untouched _ (Nat.le_refl _)⟩
  · intro handle above
    rw [created_init] at above
    rw [cleaned_init]
    exact owned.untouched handle (Nat.le_of_succ_le above)

theorem Owned.put_none (owned : state.Owned)
    (empty : state.curl object = none) : (state.put object none).Owned := by
  have hands : ∀ other,
      (state.put object none).curl other = state.curl other := by
    intro other
    rw [curl_put]
    split
    case isTrue same => rw [same, empty]
    case isFalse => rfl
  apply owned.rearrange (Equiv.refl Object)
  · exact hands
  · intro other handle owns
    rw [hands] at owns
    exact owned.pointer other handle owns
  · rfl
  · rfl

theorem Owned.assignNull (owned : state.Owned) (object : Object) :
    (state.assignNull object).Owned := by
  unfold EasyState.assignNull
  cases owns : state.curl object with
  | none => exact owned.put_none owns
  | some handle =>
      have hands : ∀ other, ((state.easyCleanup (some handle)).put object
          none).curl other =
            if other = object then none else state.curl other := by
        intro other
        rw [curl_put]
        rfl
      have fewer : ∀ other kept, ((state.easyCleanup (some handle)).put
          object none).curl other = some kept →
            state.curl other = some kept ∧ kept ≠ handle := by
        intro other kept owns'
        rw [hands] at owns'
        split_ifs at owns' with same
        refine ⟨owns', ?_⟩
        rintro rfl
        exact same (owned.unique owns' owns)
      constructor
      · intro other kept owns'
        exact owned.pointer other kept (fewer other kept owns').1
      · intro other kept owns'
        exact owned.known other kept (fewer other kept owns').1
      · intro settled below
        by_cases same : settled = handle
        · subst same
          right
          constructor
          · intro other owns'
            exact (fewer other _ owns').2 rfl
          · have none := owned.not_cleaned owns
            simp [easyCleanup, put, none]
        · have counted : ((state.easyCleanup (some handle)).put object
              none).cleaned settled = state.cleaned settled :=
            Function.update_of_ne same ..
          unfold Settled
          rw [counted]
          rcases owned.settled settled below with ⟨⟨other, owns'⟩, zero⟩ | gone
          · refine .inl ⟨⟨other, ?_⟩, zero⟩
            have apart : other ≠ object := by
              rintro rfl
              exact same (Option.some.inj (owns'.symm.trans owns))
            rw [hands, if_neg apart, owns']
          · refine .inr ⟨fun other owns' => ?_, gone.2⟩
            exact gone.1 other (fewer other settled owns').1
      · intro above later
        have below := owned.known object handle owns
        have apart : above ≠ handle := by
          have later' : state.created ≤ above := later
          omega
        exact (Function.update_of_ne apart ..).trans
          (owned.untouched above later)

/-- The destructor does to the handle what assigning nothing does. -/
theorem Owned.destroy (owned : state.Owned) (object : Object) :
    (state.destroy object).Owned := by
  have empty : (state.assignNull object).curl object = none := by
    unfold EasyState.assignNull
    rw [curl_put, if_pos rfl]
  have hands : ∀ other, (state.destroy object).curl other =
      (state.assignNull object).curl other := by
    intro other
    by_cases same : other = object
    · rw [same, empty]
      simp [EasyState.destroy, curl]
    · simp [EasyState.destroy, curl, same]
  apply (owned.assignNull object).rearrange (Equiv.refl Object)
  · exact hands
  · intro other handle owns
    rw [hands] at owns
    exact (owned.assignNull object).pointer other handle owns
  · rfl
  · rfl

end Objects

/-! ## Runs -/

variable {Name : Type} {state next : EasyState (EasyObject Name)}
  {name source target : Name} {handle : Nat}

/-- Handles lead to their objects, no two objects share one, and each handle
is owned or has been cleaned up once, the latter at the end. -/
def Accounted (state : EasyState (EasyObject Name)) : Prop :=
  (∀ name handle, state.curl (some name) = some handle →
    state.pointer handle = some (some name)) ∧
  (∀ first second handle, state.curl (some first) = some handle →
    state.curl (some second) = some handle → first = second) ∧
  (∀ handle, handle < state.created →
    (∃ name, state.curl (some name) = some handle) ∧
        state.cleaned handle = 0 ∨
      (∀ name, state.curl (some name) ≠ some handle) ∧
        state.cleaned handle = 1) ∧
  ((∀ name, state.objects (some name) = none) →
    ∀ handle, handle < state.created → state.cleaned handle = 1)

/-- Between two steps there is no copy without a name. -/
structure Resting (state : EasyState (EasyObject Name)) : Prop where
  owned : state.Owned
  quiet : state.objects none = none

theorem Resting.accounted (resting : state.Resting) : state.Accounted := by
  have settled : ∀ handle, handle < state.created →
      (∃ name, state.curl (some name) = some handle) ∧
          state.cleaned handle = 0 ∨
        (∀ name, state.curl (some name) ≠ some handle) ∧
          state.cleaned handle = 1 := by
    intro handle below
    rcases resting.owned.settled handle below with ⟨⟨object, owns⟩, none⟩ | gone
    · cases object with
      | none =>
          rw [curl_of_not_lives resting.quiet] at owns
          cases owns
      | some name => exact .inl ⟨⟨name, owns⟩, none⟩
    · exact .inr ⟨fun name => gone.1 (some name), gone.2⟩
  refine ⟨?_, ?_, settled, ?_⟩
  · intro name handle
    exact resting.owned.pointer (some name) handle
  · intro first second handle owns owns'
    exact Option.some.inj (resting.owned.unique owns owns')
  · intro none handle below
    rcases settled handle below with ⟨⟨name, owns⟩, _⟩ | gone
    · rw [curl_of_not_lives (none name)] at owns
      cases owns
    · exact gone.2

/-- A handle that nobody owns and nobody has cleaned up is lost. -/
theorem not_accounted_of_lost (below : handle < next.created)
    (lost : ∀ name, next.curl (some name) ≠ some handle)
    (kept : next.cleaned handle = 0) : ¬ next.Accounted := by
  rintro ⟨_, _, settled, _⟩
  rcases settled handle below with ⟨⟨name, owns⟩, _⟩ | gone
  · exact lost name owns
  · rw [kept] at gone
    cases gone.2

/-- The private pointer of a handle is not taken away, no object loses its
handle to a move, and no copy of a handle throws. -/
def Allowed (state : EasyState (EasyObject Name)) : Action Name → Prop
  | .reset _ => False
  | .moveAssign target _ => state.curl (some target) = none
  | .copyConstruct _ source copying =>
      copying = .throws → state.curl (some source) = none
  | .copyAssign _ source copying =>
      copying = .throws → state.curl (some source) = none
  | _ => True

instance : ∀ (state : EasyState (EasyObject Name)) (action),
    Decidable (state.Allowed action)
  | _, .reset _ => inferInstanceAs (Decidable False)
  | state, .moveAssign target _ =>
      inferInstanceAs (Decidable (state.curl (some target) = none))
  | state, .copyConstruct _ source copying => inferInstanceAs (Decidable
      (copying = .throws → state.curl (some source) = none))
  | state, .copyAssign _ source copying => inferInstanceAs (Decidable
      (copying = .throws → state.curl (some source) = none))
  | _, .construct _ | _, .constructNull _ | _, .moveConstruct ..
  | _, .assignNull _ | _, .swap .. | _, .destroy _ =>
      inferInstanceAs (Decidable True)

theorem curl_of_dead (dead : state.lives name = false) :
    state.curl (some name) = none := by
  apply curl_of_not_lives
  simpa [lives] using dead

theorem duphandle_lost (resting : state.Resting) :
    ¬ (state.easyDuphandle handle).Accounted := by
  have fresh : state.created < (state.easyDuphandle handle).created :=
    Nat.lt_succ_self _
  apply not_accounted_of_lost fresh
  · intro name owns
    exact Nat.lt_irrefl _ (resting.owned.known (some name) _ owns)
  · exact resting.owned.untouched _ (Nat.le_refl _)

theorem objects_init {object : EasyObject Name} :
    (state.init object).objects = state.objects := by
  unfold init
  split <;> rfl

/-- A handle that is reset does not lead to its object any more. -/
theorem reset_lost (owns : state.curl (some name) = some handle) :
    ¬ (state.reset (some name)).Accounted := by
  have reset : state.reset (some name) = state.easyReset handle := by
    simp only [EasyState.reset, owns]
  rw [reset]
  rintro ⟨pointer, _⟩
  have led := pointer name handle owns
  have cleared : (state.easyReset handle).pointer handle = none :=
    Function.update_self ..
  rw [cleared] at led
  cases led

/-- A step that keeps everything in order is an allowed one. -/
theorem Resting.spec (resting : next.Resting) {action : Action Name}
    (allowed : state.Allowed action) :
    (state.Allowed action → next.Resting) ∧
      (next.Accounted ↔ state.Allowed action) :=
  ⟨fun _ => resting, iff_of_true resting.accounted allowed⟩

theorem spec_of_lost {action : Action Name} (lost : ¬ next.Accounted)
    (forbidden : ¬ state.Allowed action) :
    (state.Allowed action → next.Resting) ∧
      (next.Accounted ↔ state.Allowed action) :=
  ⟨fun allowed => absurd allowed forbidden, iff_of_false lost forbidden⟩

variable [DecidableEq Name]

/-! ## Copies -/

/-- A copy is a new object with a duplicate, or nothing is made. -/
theorem copyConstruct_owned (owned : state.Owned) {object : EasyObject Name}
    (empty : state.curl object = none) {copying : Copying}
    (allowed : copying = .throws → state.curl (some source) = none) :
    (state.copyConstruct object (some source) copying).1.Owned := by
  unfold copyConstruct
  cases copying with
  | done =>
      cases owns : state.curl (some source) with
      | some handle => exact owned.make empty _
      | none => exact owned.put_none empty
  | notDuplicated =>
      cases owns : state.curl (some source) with
      | some handle => exact owned
      | none => exact owned
  | throws =>
      rw [allowed rfl]
      exact owned

theorem copyAssign_owned (resting : state.Resting) {copying : Copying}
    (allowed : copying = .throws → state.curl (some source) = none) :
    (state.copyAssign target source copying).Owned := by
  have copied := copyConstruct_owned resting.owned
    (curl_of_not_lives resting.quiet) allowed
  unfold copyAssign
  split
  case h_1 made =>
    rw [made] at copied
    exact (copied.swap none (some target)).destroy none
  case h_2 made =>
    rw [made] at copied
    exact copied

theorem moveAssign_lost (resting : state.Resting)
    (owns : state.curl (some target) = some handle) :
    ¬ (state.moveAssign (some target) (some source)).Accounted := by
  have created : (state.moveAssign (some target) (some source)).created =
      state.created := created_init
  have cleaned : (state.moveAssign (some target) (some source)).cleaned =
      state.cleaned := cleaned_init
  have below := resting.owned.known _ _ owns
  have below' : handle <
      (state.moveAssign (some target) (some source)).created :=
    created ▸ below
  apply not_accounted_of_lost below'
  · intro name owns'
    unfold moveAssign at owns'
    rw [curl_init, curl_put, curl_put] at owns'
    split_ifs at owns' with emptied taken
    · apply emptied
      rw [taken]
      exact resting.owned.unique owns owns'
    · exact taken (resting.owned.unique owns' owns)
  · rw [cleaned]
    exact resting.owned.not_cleaned owns

/-! ## Steps -/

theorem quiet_put (quiet : state.objects none = none)
    (value : Option Nat) : (state.put (some name) value).objects none = none := by
  simpa [put] using quiet

theorem quiet_move (quiet : state.objects none = none) :
    (state.moveAssign (some target) (some source)).objects none = none := by
  rw [moveAssign, objects_init]
  exact quiet_put (quiet_put quiet _) _

theorem quiet_copyConstruct (quiet : state.objects none = none)
    (copying : Copying) :
    (state.copyConstruct (some name) (some source) copying).1.objects none =
      none := by
  unfold copyConstruct
  split
  · rw [objects_init]
    simpa [put, easyDuphandle] using quiet
  · exact quiet_put quiet _
  · exact quiet
  · exact quiet
  · exact quiet

theorem copyConstruct_failed {object : EasyObject Name} {copying : Copying}
    {copy : EasyState (EasyObject Name)}
    (failed : state.copyConstruct object (some source) copying =
      (copy, false)) : copy.objects = state.objects := by
  unfold copyConstruct at failed
  split at failed <;> cases failed <;> rfl

theorem copyConstruct_throws {object : EasyObject Name}
    (owns : state.curl (some source) = some handle) :
    state.copyConstruct object (some source) .throws =
      (state.easyDuphandle handle, false) := by
  simp only [copyConstruct, owns]

theorem quiet_copyAssign (quiet : state.objects none = none)
    (copying : Copying) :
    (state.copyAssign target source copying).objects none = none := by
  unfold copyAssign
  split
  case h_1 => simp [destroy]
  case h_2 failed =>
    rw [copyConstruct_failed failed]
    exact quiet

theorem quiet_assignNull (quiet : state.objects none = none) :
    (state.assignNull (some target)).objects none = none := by
  apply quiet_put
  unfold easyCleanup
  split <;> exact quiet

/-- Handles stay accounted for exactly if the step is allowed. -/
theorem step_spec (resting : state.Resting) {action : Action Name}
    (taken : state.step action = some next) :
    (state.Allowed action → next.Resting) ∧
      (next.Accounted ↔ state.Allowed action) := by
  obtain ⟨owned, quiet⟩ := resting
  cases action with
  | construct name =>
      obtain ⟨dead, ⟨⟩⟩ := Option.ite_none_left_eq_some.mp taken
      have empty := curl_of_dead (by simpa using dead)
      refine Resting.spec ⟨owned.make empty none, ?_⟩ trivial
      simpa [objects_init, put] using quiet
  | constructNull name =>
      obtain ⟨dead, ⟨⟩⟩ := Option.ite_none_left_eq_some.mp taken
      have empty := curl_of_dead (by simpa using dead)
      exact Resting.spec ⟨owned.put_none empty, quiet_put quiet _⟩ trivial
  | copyConstruct name source copying =>
      obtain ⟨usable, ⟨⟩⟩ := Option.ite_none_left_eq_some.mp taken
      have empty : state.curl (some name) = none := by
        apply curl_of_dead
        simp_all
      by_cases allowed : copying = .throws →
          state.curl (some source) = none
      · exact Resting.spec ⟨copyConstruct_owned owned empty allowed,
          quiet_copyConstruct quiet copying⟩ allowed
      · refine spec_of_lost ?_ allowed
        obtain ⟨rfl, some⟩ := Classical.not_imp.mp allowed
        obtain ⟨handle, owns⟩ := Option.ne_none_iff_exists'.mp some
        rw [copyConstruct_throws owns]
        exact duphandle_lost ⟨owned, quiet⟩
  | moveConstruct name source =>
      obtain ⟨usable, ⟨⟩⟩ := Option.ite_none_left_eq_some.mp taken
      have empty : state.curl (some name) = none := by
        apply curl_of_dead
        simp_all
      exact Resting.spec ⟨owned.move empty, quiet_move quiet⟩ trivial
  | copyAssign target source copying =>
      obtain ⟨_, ⟨⟩⟩ := Option.ite_none_right_eq_some.mp taken
      by_cases allowed : copying = .throws →
          state.curl (some source) = none
      · exact Resting.spec ⟨copyAssign_owned ⟨owned, quiet⟩ allowed,
          quiet_copyAssign quiet copying⟩ allowed
      · refine spec_of_lost ?_ allowed
        obtain ⟨rfl, some⟩ := Classical.not_imp.mp allowed
        obtain ⟨handle, owns⟩ := Option.ne_none_iff_exists'.mp some
        simp only [copyAssign, copyConstruct_throws owns]
        exact duphandle_lost ⟨owned, quiet⟩
  | moveAssign target source =>
      obtain ⟨_, ⟨⟩⟩ := Option.ite_none_right_eq_some.mp taken
      cases owns : state.curl (some target) with
      | none => exact Resting.spec ⟨owned.move owns, quiet_move quiet⟩ owns
      | some handle =>
          apply spec_of_lost (moveAssign_lost ⟨owned, quiet⟩ owns)
          intro allowed
          rw [Allowed, owns] at allowed
          cases allowed
  | assignNull target =>
      obtain ⟨_, ⟨⟩⟩ := Option.ite_none_right_eq_some.mp taken
      exact Resting.spec ⟨owned.assignNull _, quiet_assignNull quiet⟩ trivial
  | swap first second =>
      obtain ⟨_, ⟨⟩⟩ := Option.ite_none_right_eq_some.mp taken
      refine Resting.spec ⟨owned.swap _ _, ?_⟩ trivial
      rw [EasyState.swap, objects_init, objects_init]
      exact quiet_put (quiet_put quiet _) _
  | reset name =>
      obtain ⟨some, ⟨⟩⟩ := Option.ite_none_right_eq_some.mp taken
      obtain ⟨handle, owns⟩ := Option.isSome_iff_exists.mp some
      exact spec_of_lost (reset_lost owns) id
  | destroy name =>
      obtain ⟨_, ⟨⟩⟩ := Option.ite_none_right_eq_some.mp taken
      refine Resting.spec ⟨owned.destroy _, ?_⟩ trivial
      simpa [EasyState.destroy] using quiet_assignNull quiet

end Bacs.Curl.EasyState
