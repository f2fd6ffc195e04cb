import Bacs.Foundation.DepthFirst

/-!
# Exploring a graph that is read on the way

`explore` enters every node reachable from a first one once.  The successors
of a node are read after it was entered, from a state that entering changes,
so the graph is not known beforehand; `Reads` says what is read in a state,
and what was read of a node has to stay true while others are entered.
-/

namespace Bacs.Exploration

open Foundation Relation DepthFirst

variable {Node State Failure : Type}

structure Survey (Node State Failure : Type) where
  enter : Node → EStateM Failure State Unit
  successors : Node → EStateM Failure State (List Node)
  outOfFuel : Failure

structure Journey (Node State : Type) where
  visited : List Node
  state : State

def onState {Value : Type} (program : EStateM Failure State Value) :
    EStateM Failure (Journey Node State) Value := fun journey =>
  match program journey.state with
  | .ok value state => .ok value { journey with state }
  | .error failure state => .error failure { journey with state }

theorem ensures_onState {Value : Type}
    {program : EStateM Failure State Value} {journey : Journey Node State}
    {normal : Value → Journey Node State → Prop}
    {thrown : Failure → Journey Node State → Prop} :
    Ensures (onState program) journey normal thrown ↔
      Ensures program journey.state
        (fun value state => normal value { journey with state })
        (fun failure state => thrown failure { journey with state }) := by
  unfold Ensures onState
  cases program journey.state <;> rfl

section Explore

variable [DecidableEq Node] (survey : Survey Node State Failure)

def Journey.mark (node : Node) (journey : Journey Node State) :
    Journey Node State :=
  { journey with visited := node :: journey.visited }

def explore : Nat → Node → EStateM Failure (Journey Node State) Unit
  | 0, _ => throw survey.outOfFuel
  | fuel + 1, node => do
      let journey ← get
      if node ∈ journey.visited then pure ()
      else do
        onState (survey.enter node)
        modify (Journey.mark node)
        let next ← onState (survey.successors node)
        next.foldlM (fun _ child => explore fuel child) ()

end Explore

section Rule

/-- What the programs of an exploration have to do for `explore_ensures`.
The nodes entered are in `area`. -/
structure Rule (survey : Survey Node State Failure)
    (reads : State → Node → List Node → Prop) (area : Node → Prop)
    (invariant : List Node → State → Prop)
    (failed : Failure → State → Prop) : Prop where
  enter : ∀ visited node state, invariant visited state → area node →
    node ∉ visited →
    Ensures (survey.enter node) state
      (fun _ final => invariant (node :: visited) final ∧
        ∀ other ∈ visited, ∀ next,
          reads state other next → reads final other next) failed
  successors : ∀ visited node state, invariant visited state →
    node ∈ visited → area node →
    Ensures (survey.successors node) state
      (fun next final => reads final node next ∧ invariant visited final ∧
        (∀ child ∈ next, area child) ∧
        ∀ other next, reads state other next → reads final other next) failed

variable {survey : Survey Node State Failure}
  {reads : State → Node → List Node → Prop} {area : Node → Prop}
  {invariant : List Node → State → Prop}
  {failed : Failure → State → Prop}

/-- `child` is read to be a successor of the entered node `node`. -/
def Link (reads : State → Node → List Node → Prop)
    (journey : Journey Node State) (node child : Node) : Prop :=
  node ∈ journey.visited ∧
    ∃ next, reads journey.state node next ∧ child ∈ next

/-- What holds when the exploration from `nodes` has ended. -/
structure Explored (reads : State → Node → List Node → Prop)
    (invariant : List Node → State → Prop) (nodes : List Node)
    (before after : Journey Node State) : Prop where
  holds : invariant after.visited after.state
  found : ∀ node ∈ nodes, node ∈ after.visited
  distinct : before.visited.Nodup → after.visited.Nodup
  kept : ∀ node ∈ before.visited, node ∈ after.visited
  steady : ∀ other ∈ before.visited, ∀ next,
    reads before.state other next → reads after.state other next
  /-- All successors of the nodes entered meanwhile are entered as well. -/
  complete : ∀ node ∈ after.visited, node ∈ before.visited ∨
    ∃ next, reads after.state node next ∧ ∀ child ∈ next,
      child ∈ after.visited
  reached : ∀ node ∈ after.visited, node ∈ before.visited ∨
    ∃ first ∈ nodes, ReflTransGen (Link reads after) first node

theorem Explored.link {nodes : List Node} {before after : Journey Node State}
    {node child : Node} (explored : Explored reads invariant nodes before after)
    (link : Link reads before node child) : Link reads after node child := by
  obtain ⟨entered, next, read, member⟩ := link
  exact ⟨explored.kept node entered, next,
    explored.steady node entered next read, member⟩

theorem Explored.nil {journey : Journey Node State}
    (holds : invariant journey.visited journey.state) :
    Explored reads invariant [] journey journey where
  holds := holds
  found := by simp
  distinct := id
  kept := fun _ member => member
  steady := fun _ _ _ read => read
  complete := fun _ member => .inl member
  reached := fun _ member => .inl member

theorem Explored.append {first second : List Node}
    {before middle after : Journey Node State}
    (left : Explored reads invariant first before middle)
    (right : Explored reads invariant second middle after) :
    Explored reads invariant (first ++ second) before after where
  holds := right.holds
  found := by
    intro node member
    rcases List.mem_append.mp member with inFirst | inSecond
    · exact right.kept node (left.found node inFirst)
    · exact right.found node inSecond
  distinct := fun nodup => right.distinct (left.distinct nodup)
  kept := fun node member => right.kept node (left.kept node member)
  steady := fun other member next read =>
    right.steady other (left.kept other member) next
      (left.steady other member next read)
  complete := by
    intro node member
    rcases right.complete node member with old | new
    · rcases left.complete node old with older | ⟨next, read, entered⟩
      · exact .inl older
      · exact .inr ⟨next, right.steady node old next read,
          fun child inNext => right.kept child (entered child inNext)⟩
    · exact .inr new
  reached := by
    intro node member
    rcases right.reached node member with old | ⟨start, inSecond, path⟩
    · rcases left.reached node old with older | ⟨start, inFirst, path⟩
      · exact .inl older
      · exact .inr ⟨start, List.mem_append_left _ inFirst,
          ReflTransGen.mono (fun _ _ => right.link) _ _ path⟩
    · exact .inr ⟨start, List.mem_append_right _ inSecond, path⟩

/-- A node entered and read, and the exploration from its successors. -/
theorem Explored.node {node : Node} {next : List Node}
    {before middle after : Journey Node State}
    (fresh : node ∉ before.visited)
    (marked : middle.visited = node :: before.visited)
    (steady : ∀ other ∈ before.visited, ∀ next,
      reads before.state other next → reads middle.state other next)
    (read : reads middle.state node next)
    (rest : Explored reads invariant next middle after) :
    Explored reads invariant [node] before after := by
  have entered : node ∈ middle.visited := by simp [marked]
  have old (other : Node) (member : other ∈ before.visited) :
      other ∈ middle.visited := by simp [marked, member]
  have now : reads after.state node next :=
    rest.steady node entered next read
  refine
    { holds := rest.holds
      found := by simpa using rest.kept node entered
      distinct := fun nodup => rest.distinct (by simp [marked, fresh, nodup])
      kept := fun other member => rest.kept other (old other member)
      steady := fun other member next reading =>
        rest.steady other (old other member) next
          (steady other member next reading)
      complete := ?_
      reached := ?_ }
  · intro other member
    rcases rest.complete other member with before | new
    · rw [marked] at before
      rcases List.mem_cons.mp before with rfl | older
      · exact .inr ⟨next, now, rest.found⟩
      · exact .inl older
    · exact .inr new
  · intro other member
    rcases rest.reached other member with before | ⟨first, inNext, path⟩
    · rw [marked] at before
      rcases List.mem_cons.mp before with rfl | older
      · exact .inr ⟨other, List.mem_singleton_self _, .refl⟩
      · exact .inl older
    · have link : Link reads after node first :=
        ⟨rest.kept node entered, next, now, inNext⟩
      exact .inr ⟨node, List.mem_singleton_self _, path.head link⟩

variable [DecidableEq Node]

inductive Stopped (survey : Survey Node State Failure)
    (area : Node → Prop) (invariant : List Node → State → Prop)
    (failed : Failure → State → Prop) (fuel : Nat) (visited : List Node) :
    Failure → State → Prop where
  | outOfFuel {entered : List Node} {state : State} :
      invariant entered state →
      (∀ nodes : Finset Node, (∀ node, area node → node ∈ nodes) →
        fuel ≤ (nodes \ visited.toFinset).card) →
      Stopped survey area invariant failed fuel visited survey.outOfFuel state
  | failed {failure : Failure} {state : State} : failed failure state →
      Stopped survey area invariant failed fuel visited failure state

theorem Stopped.parent {fuel : Nat} {node : Node}
    {visited inner : List Node} {failure : Failure} {state : State}
    (inArea : area node) (fresh : node ∉ visited)
    (more : ∀ other ∈ node :: visited, other ∈ inner)
    (stopped : Stopped survey area invariant failed fuel inner failure
      state) :
    Stopped survey area invariant failed (fuel + 1) visited failure state := by
  cases stopped with
  | outOfFuel holds bound =>
      refine .outOfFuel holds fun nodes inside => ?_
      have innerBound := bound nodes inside
      have smaller := card_sdiff_lt (inside node inArea) fresh
        (more node List.mem_cons_self)
        (fun other old => more other (List.mem_cons_of_mem _ old))
      omega
  | failed reason => exact .failed reason

/-- The exploration enters what is reachable, each node once. -/
theorem explore_ensures
    (rule : Rule survey reads area invariant failed) (fuel : Nat)
    (node : Node) (journey : Journey Node State) (inArea : area node)
    (holds : invariant journey.visited journey.state) :
    Ensures (explore survey fuel node) journey
      (fun _ final => Explored reads invariant [node] journey final)
      (fun failure final => Stopped survey area invariant failed fuel
        journey.visited failure final.state) := by
  induction fuel generalizing node journey with
  | zero => exact .outOfFuel holds fun _ _ => Nat.zero_le _
  | succ fuel induction =>
      rw [explore, ensures_bind, ensures_get]
      by_cases known : node ∈ journey.visited
      · rw [if_pos known]
        exact { Explored.nil holds with found := by simpa using known,
                                        reached := fun _ member => .inl member }
      · rw [if_neg known]
        simp only [ensures_bind, ensures_modify, ensures_onState]
        refine (rule.enter _ node _ holds inArea known).mono ?_
          (fun _ _ reason => .failed reason)
        intro _ entered given
        obtain ⟨holdsEntered, steadyEntered⟩ := given
        refine (rule.successors _ node entered holdsEntered
          List.mem_cons_self inArea).mono ?_ (fun _ _ reason => .failed reason)
        intro next state given
        obtain ⟨read, holdsNow, inside, steadyRead⟩ := given
        refine (ensures_foldlM
          (fun processed _ middle => Explored reads invariant
            processed ⟨node :: journey.visited, state⟩ middle)
          next ?_ (Explored.nil holdsNow)).mono ?_
          (fun _ _ reason => reason)
        · intro processed child rest _ middle split explored
          have member : child ∈ next := by
            rw [split]
            exact List.mem_append_right _ List.mem_cons_self
          apply (induction child middle (inside child member)
            explored.holds).mono
          · exact fun _ _ more => explored.append more
          · exact fun _ _ stopped => stopped.parent inArea known explored.kept
        · intro _ after rest
          exact Explored.node known rfl
            (fun other member next reading =>
              steadyRead other next
                (steadyEntered other member next reading)) read rest

end Rule

end Bacs.Exploration
