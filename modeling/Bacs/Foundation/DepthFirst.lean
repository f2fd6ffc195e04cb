import Bacs.Foundation.Ensures
import Mathlib.Data.Finset.Card
import Mathlib.Data.Finset.SDiff
import Mathlib.Logic.Relation

/-!
# Depth-first search with results

`visit` computes a result for a node from the results of its successors.  It
keeps the nodes it is working on, to recognise cycles, and the results it has,
to compute none twice.  Reading the successors of a node, combining results
and finishing a node are programs over a state of their own and may throw.

`visit_ensures` is the rule for such a search.  It follows the order in which
nodes are finished: an invariant of the results and the state has to be kept
when a node is finished all of whose successors have results.  The rule then
says of the whole search that it ends with results for exactly the nodes
reachable from the first one, or stops for one of three reasons.
-/

namespace Bacs.DepthFirst

open Foundation Relation

variable {Node Total Result State Failure : Type}

structure Search (Node Total Result State Failure : Type) where
  successors : Node → EStateM Failure State (List Node)
  start : Total
  collect : Total → Result → Except Failure Total
  finish : Node → Total → EStateM Failure State Result
  circular : Node → Failure
  outOfFuel : Failure

structure Progress (Node Result State : Type) where
  /-- The nodes begun and not yet finished, the last one first. -/
  active : List Node
  done : List (Node × Result)
  state : State

def onState {Value : Type} (program : EStateM Failure State Value) :
    EStateM Failure (Progress Node Result State) Value := fun progress =>
  match program progress.state with
  | .ok value state => .ok value { progress with state }
  | .error failure state => .error failure { progress with state }

def ofExcept {World Value : Type} :
    Except Failure Value → EStateM Failure World Value
  | .ok value => pure value
  | .error failure => throw failure

theorem ensures_onState {Value : Type}
    {program : EStateM Failure State Value}
    {progress : Progress Node Result State}
    {normal : Value → Progress Node Result State → Prop}
    {thrown : Failure → Progress Node Result State → Prop} :
    Ensures (onState program) progress normal thrown ↔
      Ensures program progress.state
        (fun value state => normal value { progress with state })
        (fun failure state => thrown failure { progress with state }) := by
  unfold Ensures onState
  cases program progress.state <;> rfl

theorem ensures_ofExcept {World Value : Type}
    {outcome : Except Failure Value} {world : World}
    {normal : Value → World → Prop} {thrown : Failure → World → Prop}
    (onOk : ∀ value, outcome = .ok value → normal value world)
    (onError : ∀ failure, outcome = .error failure → thrown failure world) :
    Ensures (ofExcept outcome) world normal thrown := by
  cases outcome with
  | ok value => exact onOk value rfl
  | error failure => exact onError failure rfl

section Visit

variable [DecidableEq Node] (search : Search Node Total Result State Failure)

def Progress.enter (node : Node) (progress : Progress Node Result State) :
    Progress Node Result State :=
  { progress with active := node :: progress.active }

def Progress.leave (node : Node) (result : Result)
    (progress : Progress Node Result State) : Progress Node Result State :=
  { progress with
    active := progress.active.erase node
    done := (node, result) :: progress.done }

def visit : Nat → Node → EStateM Failure (Progress Node Result State) Result
  | 0, _ => throw search.outOfFuel
  | fuel + 1, node => do
      let progress ← get
      if node ∈ progress.active then throw (search.circular node)
      else match progress.done.lookup node with
      | some result => pure result
      | none =>
          modify (Progress.enter node)
          let next ← onState (search.successors node)
          let total ← next.foldlM (fun total child => do
            let result ← visit fuel child
            ofExcept (search.collect total result)) search.start
          let result ← onState (search.finish node total)
          modify (Progress.leave node result)
          return result

end Visit

/-! ## The results of a search -/

section Results

variable (edges : Node → List Node)

/-- `child` is a successor of `node`. -/
def Edge (node child : Node) : Prop :=
  child ∈ edges node

/-- Each node has one result, and it was found after those of its
successors. -/
def Ordered : List (Node × Result) → Prop
  | [] => True
  | (node, _) :: done =>
      node ∉ done.map Prod.fst ∧
        (∀ child ∈ edges node, child ∈ done.map Prod.fst) ∧ Ordered done

/-- The results of `nodes` combined from left to right give `total`. -/
inductive Collected (search : Search Node Total Result State Failure)
    (done : List (Node × Result)) : List Node → Total → Prop where
  | nil : Collected search done [] search.start
  | snoc {nodes : List Node} {total next : Total} {child : Node}
      {result : Result} :
      Collected search done nodes total → (child, result) ∈ done →
      search.collect total result = .ok next →
      Collected search done (nodes ++ [child]) next

variable {edges} {done : List (Node × Result)}

theorem Collected.mono {search : Search Node Total Result State Failure}
    {more : List (Node × Result)} {nodes : List Node} {total : Total}
    (collected : Collected search done nodes total)
    (found : ∀ entry ∈ done, entry ∈ more) :
    Collected search more nodes total := by
  induction collected with
  | nil => exact .nil
  | snoc _ known combined induction =>
      exact .snoc induction (found _ known) combined

theorem Collected.mem {search : Search Node Total Result State Failure}
    {nodes : List Node} {total : Total}
    (collected : Collected search done nodes total) :
    ∀ node ∈ nodes, node ∈ done.map Prod.fst := by
  induction collected with
  | nil => simp
  | snoc _ known _ induction =>
      intro node member
      rcases List.mem_append.mp member with before | last
      · exact induction node before
      · rw [List.mem_singleton.mp last]
        exact List.mem_map_of_mem known

theorem mem_keys_of_lookup [DecidableEq Node] {node : Node} {result : Result}
    (found : done.lookup node = some result) : (node, result) ∈ done := by
  induction done with
  | nil => cases found
  | cons entry rest induction =>
      obtain ⟨key, value⟩ := entry
      rw [List.lookup_cons] at found
      split at found
      · rename_i same
        cases found
        rw [beq_iff_eq.mp same]
        exact List.mem_cons_self
      · exact List.mem_cons_of_mem _ (induction found)

theorem not_mem_keys_of_lookup [DecidableEq Node] {node : Node}
    (missing : done.lookup node = none) : node ∉ done.map Prod.fst := by
  induction done with
  | nil => simp
  | cons entry rest induction =>
      obtain ⟨key, value⟩ := entry
      rw [List.lookup_cons] at missing
      split at missing
      · cases missing
      · rename_i different
        simp only [List.map_cons, List.mem_cons, not_or]
        exact ⟨by simpa using different, induction missing⟩

theorem Ordered.nodup (ordered : Ordered edges done) :
    (done.map Prod.fst).Nodup := by
  induction done with
  | nil => exact List.nodup_nil
  | cons entry rest induction =>
      exact List.nodup_cons.mpr ⟨ordered.1, induction ordered.2.2⟩

theorem Ordered.unique (ordered : Ordered edges done) {node : Node}
    {first second : Result} (left : (node, first) ∈ done)
    (right : (node, second) ∈ done) : first = second := by
  induction done with
  | nil => cases left
  | cons entry rest induction =>
      obtain ⟨key, value⟩ := entry
      rcases List.mem_cons.mp left with leftHead | leftRest
      · rcases List.mem_cons.mp right with rightHead | rightRest
        · rw [(Prod.mk.inj leftHead).2, (Prod.mk.inj rightHead).2]
        · have again : node ∈ rest.map Prod.fst :=
            List.mem_map_of_mem rightRest
          rw [(Prod.mk.inj leftHead).1] at again
          exact absurd again ordered.1
      · rcases List.mem_cons.mp right with rightHead | rightRest
        · have again : node ∈ rest.map Prod.fst :=
            List.mem_map_of_mem leftRest
          rw [(Prod.mk.inj rightHead).1] at again
          exact absurd again ordered.1
        · exact induction ordered.2.2 leftRest rightRest

/-- Whatever is reachable from a node with a result has a result. -/
theorem Ordered.closed (ordered : Ordered edges done) {node other : Node}
    (known : node ∈ done.map Prod.fst)
    (path : ReflTransGen (Edge edges) node other) :
    other ∈ done.map Prod.fst := by
  have step : ∀ {done : List (Node × Result)} {node child : Node},
      Ordered edges done → node ∈ done.map Prod.fst →
        child ∈ edges node → child ∈ done.map Prod.fst := by
    intro done
    induction done with
    | nil => intro node child _ known; simp at known
    | cons entry rest induction =>
        intro node child ordered known edge
        rcases List.mem_cons.mp known with head | later
        · subst head
          exact List.mem_cons_of_mem _ (ordered.2.1 child edge)
        · exact List.mem_cons_of_mem _ (induction ordered.2.2 later edge)
  induction path with
  | refl => exact known
  | tail _ edge induction => exact step ordered induction edge

theorem Ordered.acyclic (ordered : Ordered edges done) {node : Node}
    (known : node ∈ done.map Prod.fst) :
    ¬ TransGen (Edge edges) node node := by
  induction done with
  | nil => simp at known
  | cons entry rest induction =>
      rcases List.mem_cons.mp known with head | later
      · subst head
        intro cycle
        obtain ⟨child, edge, path⟩ := TransGen.head'_iff.mp cycle
        exact ordered.1
          (ordered.2.2.closed (ordered.2.1 child edge) path)
      · exact induction ordered.2.2 later

/-- To prove a fact about every node with a result, by recursion over its
successors, as many recursive steps suffice as there are results. -/
theorem Ordered.recursion (ordered : Ordered edges done)
    (holds : Nat → Node → Prop)
    (step : ∀ depth node, node ∈ done.map Prod.fst →
      (∀ child ∈ edges node, holds depth child) → holds (depth + 1) node) :
    ∀ depth, done.length ≤ depth →
      ∀ node ∈ done.map Prod.fst, holds depth node := by
  induction done with
  | nil => simp
  | cons entry rest induction =>
      have later : ∀ depth, rest.length ≤ depth →
          ∀ node ∈ rest.map Prod.fst, holds depth node :=
        induction ordered.2.2 fun depth node known =>
          step depth node (List.mem_cons_of_mem _ known)
      intro depth enough node known
      rw [List.length_cons] at enough
      rcases List.mem_cons.mp known with head | rest'
      · subst head
        obtain ⟨depth, rfl⟩ : ∃ less, depth = less + 1 :=
          ⟨depth - 1, by omega⟩
        exact step depth _ known fun child edge =>
          later depth (by omega) child (ordered.2.1 child edge)
      · exact later depth (by omega) node rest'

end Results

/-! ## The rule -/

section Rule

/-- What the programs of a search have to do for `visit_ensures`.  The nodes
considered are the `allowed` ones; those whose successors have been read are
`known`. -/
structure Rule (search : Search Node Total Result State Failure)
    (edges : Node → List Node) (allowed known : Node → Prop)
    (invariant : List (Node × Result) → State → Prop)
    (failed : Failure → State → Prop) : Prop where
  closed : ∀ node child, allowed node → child ∈ edges node → allowed child
  successors : ∀ done node state, invariant done state → allowed node →
    Ensures (search.successors node) state
      (fun next final =>
        next = edges node ∧ known node ∧ invariant done final) failed
  collect : ∀ done node state nodes child total result failure,
    invariant done state → allowed node →
      nodes ++ [child] <+: edges node → Collected search done nodes total →
      (child, result) ∈ done →
      search.collect total result = .error failure → failed failure state
  finish : ∀ done node state total, invariant done state → allowed node →
    known node → Ordered edges done → node ∉ done.map Prod.fst →
      Collected search done (edges node) total →
      Ensures (search.finish node total) state
        (fun result final => invariant ((node, result) :: done) final) failed

variable {search : Search Node Total Result State Failure}
  {edges : Node → List Node} {allowed known : Node → Prop}
  {invariant : List (Node × Result) → State → Prop}
  {failed : Failure → State → Prop}

/-- What holds when the search of `node` has ended with a result. -/
structure Visited (edges : Node → List Node)
    (invariant : List (Node × Result) → State → Prop) (node : Node)
    (before : Progress Node Result State) (result : Result)
    (after : Progress Node Result State) : Prop where
  active : after.active = before.active
  ordered : Ordered edges after.done
  holds : invariant after.done after.state
  found : (node, result) ∈ after.done
  kept : ∀ entry ∈ before.done, entry ∈ after.done
  reached : ∀ entry ∈ after.done, entry ∈ before.done ∨
    ReflTransGen (Edge edges) node entry.1

/-- A search that starts with nothing finds results for exactly the nodes
reachable from the first one. -/
theorem Visited.mem_iff {node other : Node} {state : State} {result : Result}
    {after : Progress Node Result State}
    (visited : Visited edges invariant node ⟨[], [], state⟩ result after) :
    other ∈ after.done.map Prod.fst ↔
      ReflTransGen (Edge edges) node other := by
  constructor
  · intro member
    obtain ⟨entry, inDone, rfl⟩ := List.mem_map.mp member
    rcases visited.reached entry inDone with old | path
    · cases old
    · exact path
  · exact visited.ordered.closed (List.mem_map_of_mem visited.found)

/-- What holds between the turns of the loop over the successors of a node. -/
structure Turn (search : Search Node Total Result State Failure)
    (edges : Node → List Node)
    (invariant : List (Node × Result) → State → Prop) (node : Node)
    (before : Progress Node Result State) (processed : List Node)
    (total : Total) (middle : Progress Node Result State) : Prop where
  active : middle.active = node :: before.active
  ordered : Ordered edges middle.done
  holds : invariant middle.done middle.state
  collected : Collected search middle.done processed total
  kept : ∀ entry ∈ before.done, entry ∈ middle.done
  reached : ∀ entry ∈ middle.done, entry ∈ before.done ∨
    TransGen (Edge edges) node entry.1

namespace Turn

variable {node child : Node} {processed : List Node}
  {total combined : Total} {result : Result}
  {before middle after : Progress Node Result State}

theorem path (turn : Turn search edges invariant node before processed total
      middle)
    (edge : child ∈ edges node)
    (above : ∀ ancestor ∈ before.active,
      TransGen (Edge edges) ancestor node) :
    ∀ ancestor ∈ middle.active, TransGen (Edge edges) ancestor child := by
  intro ancestor member
  rw [turn.active] at member
  rcases List.mem_cons.mp member with rfl | earlier
  · exact .single edge
  · exact .tail (above ancestor earlier) edge

theorem next (turn : Turn search edges invariant node before processed total
      middle)
    (edge : child ∈ edges node)
    (visited : Visited edges invariant child middle result after)
    (success : search.collect total result = .ok combined) :
    Turn search edges invariant node before (processed ++ [child]) combined
      after where
  active := visited.active.trans turn.active
  ordered := visited.ordered
  holds := visited.holds
  collected := .snoc (turn.collected.mono visited.kept) visited.found success
  kept := fun entry member => visited.kept entry (turn.kept entry member)
  reached := by
    intro entry member
    rcases visited.reached entry member with old | new
    · exact turn.reached entry old
    · exact .inr (.head' edge new)

theorem unfinished (turn : Turn search edges invariant node before processed
      total middle)
    (fresh : node ∉ before.done.map Prod.fst) :
    node ∉ middle.done.map Prod.fst := by
  intro member
  obtain ⟨entry, inDone, rfl⟩ := List.mem_map.mp member
  rcases turn.reached entry inDone with old | cycle
  · exact fresh (List.mem_map_of_mem old)
  · exact turn.ordered.acyclic member cycle

end Turn

variable [DecidableEq Node]

/-- Why the search of `node` may stop. -/
inductive Stopped (search : Search Node Total Result State Failure)
    (edges : Node → List Node)
    (invariant : List (Node × Result) → State → Prop)
    (failed : Failure → State → Prop) (fuel : Nat) (node : Node)
    (active : List Node) : Failure → State → Prop where
  | circular {done : List (Node × Result)} {state : State} {other : Node} :
      invariant done state → ReflTransGen (Edge edges) node other →
      TransGen (Edge edges) other other →
      Stopped search edges invariant failed fuel node active
        (search.circular other) state
  | outOfFuel {done : List (Node × Result)} {state : State} :
      invariant done state →
      (∀ nodes : Finset Node, node ∈ nodes →
        (∀ member ∈ nodes, ∀ child ∈ edges member, child ∈ nodes) →
        fuel ≤ (nodes \ active.toFinset).card) →
      Stopped search edges invariant failed fuel node active
        search.outOfFuel state
  | failed {failure : Failure} {state : State} : failed failure state →
      Stopped search edges invariant failed fuel node active failure state

theorem card_sdiff_lt {nodes : Finset Node} {node : Node}
    {small large : List Node} (inside : node ∈ nodes)
    (fresh : node ∉ small) (added : node ∈ large)
    (more : ∀ other ∈ small, other ∈ large) :
    (nodes \ large.toFinset).card < (nodes \ small.toFinset).card := by
  apply Finset.card_lt_card
  rw [Finset.ssubset_iff_of_subset]
  · exact ⟨node, by simp [inside, fresh], by simp [added]⟩
  · intro other
    simp only [Finset.mem_sdiff, List.mem_toFinset]
    exact fun outside => ⟨outside.1, fun old => outside.2 (more other old)⟩

/-- The reason a successor stops the search for is one for its node. -/
theorem Stopped.parent {fuel : Nat} {node child : Node}
    {active : List Node} {failure : Failure} {state : State}
    (edge : child ∈ edges node) (fresh : node ∉ active)
    (stopped : Stopped search edges invariant failed fuel child
      (node :: active) failure state) :
    Stopped search edges invariant failed (fuel + 1) node active failure
      state := by
  cases stopped with
  | circular holds path cycle =>
      exact .circular holds (path.head edge) cycle
  | outOfFuel holds bound =>
      refine .outOfFuel holds fun nodes inside closed => ?_
      have childBound := bound nodes (closed node inside child edge) closed
      have smaller := card_sdiff_lt inside fresh List.mem_cons_self
        (fun _ member => List.mem_cons_of_mem node member)
      omega
  | failed reason => exact .failed reason

theorem Turn.visited {node : Node} {total : Total} {result : Result}
    {before middle : Progress Node Result State} {state : State}
    (turn : Turn search edges invariant node before (edges node) total middle)
    (fresh : node ∉ before.done.map Prod.fst)
    (holds : invariant ((node, result) :: middle.done) state) :
    Visited edges invariant node before result
      (Progress.leave node result { middle with state }) where
  active := by simp [Progress.leave, turn.active]
  ordered := ⟨turn.unfinished fresh, turn.collected.mem, turn.ordered⟩
  holds := holds
  found := List.mem_cons_self
  kept := fun entry member =>
    List.mem_cons_of_mem _ (turn.kept entry member)
  reached := by
    intro entry member
    rcases List.mem_cons.mp member with rfl | earlier
    · exact .inr .refl
    · exact (turn.reached entry earlier).imp id TransGen.to_reflTransGen

/-- The search keeps the invariant and finds results for what is reachable,
in an order in which successors come first. -/
theorem visit_ensures
    (rule : Rule search edges allowed known invariant failed) (fuel : Nat)
    (node : Node) (progress : Progress Node Result State)
    (permitted : allowed node)
    (ordered : Ordered edges progress.done)
    (holds : invariant progress.done progress.state)
    (path : ∀ ancestor ∈ progress.active,
      TransGen (Edge edges) ancestor node) :
    Ensures (visit search fuel node) progress
      (Visited edges invariant node progress)
      (fun failure final => Stopped search edges invariant failed fuel node
        progress.active failure final.state) := by
  induction fuel generalizing node progress with
  | zero => exact .outOfFuel holds fun _ _ _ => Nat.zero_le _
  | succ fuel induction =>
      rw [visit, ensures_bind, ensures_get]
      by_cases circular : node ∈ progress.active
      · rw [if_pos circular]
        exact .circular holds .refl (path node circular)
      · rw [if_neg circular]
        cases found : progress.done.lookup node with
        | some result =>
            exact ⟨rfl, ordered, holds, mem_keys_of_lookup found,
              fun _ member => member, fun _ member => .inl member⟩
        | none =>
            have fresh := not_mem_keys_of_lookup found
            simp only [ensures_bind, ensures_modify, ensures_onState,
              ensures_pure]
            refine (rule.successors _ node _ holds permitted).mono ?_
              (fun _ _ reason => .failed reason)
            intro next state given
            obtain ⟨rfl, isKnown, holdsNow⟩ := given
            refine (ensures_foldlM
              (Turn search edges invariant node progress)
              (edges node) ?_ ?_).mono ?_
              (fun _ _ reason => reason)
            · intro processed child rest total middle split turn
              have edge : child ∈ edges node := by
                rw [split]
                exact List.mem_append_right _ List.mem_cons_self
              rw [ensures_bind]
              apply (induction child middle
                (rule.closed node child permitted edge) turn.ordered
                turn.holds (turn.path edge path)).mono
              · intro result after visited
                apply ensures_ofExcept
                · exact fun combined => turn.next edge visited
                · intro failure error
                  refine .failed (rule.collect after.done node after.state
                    processed child total result failure visited.holds
                    permitted ?_ (turn.collected.mono visited.kept)
                    visited.found error)
                  exact ⟨rest, by simp [split]⟩
              · intro failure after stopped
                rw [turn.active] at stopped
                exact stopped.parent edge circular
            · exact ⟨rfl, ordered, holdsNow, .nil, fun _ member => member,
                fun _ member => .inl member⟩
            · intro total middle turn
              refine (rule.finish _ node _ total turn.holds permitted
                isKnown turn.ordered (turn.unfinished fresh)
                turn.collected).mono ?_ (fun _ _ reason => .failed reason)
              exact fun result final => turn.visited fresh

end Rule

end Bacs.DepthFirst
