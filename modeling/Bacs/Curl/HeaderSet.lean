import Bacs.Curl.Header
import Bacs.Foundation.Gathering

/-!
# Sets of HTTP headers

The headers of a set have different names and stand in the order in which the
hash index lists them.  A new header may stand anywhere and may move the
others; a header that is merged into keeps its place.
-/

namespace Bacs.Curl

open Foundation

structure HeaderSet where
  headers : List Header
  unique : (headers.map Header.name).Nodup

/-- Where the hash index puts a new header among those it has. -/
structure Placement where
  place : List Header → Header → List Header
  kept : ∀ headers header, (place headers header).Perm (header :: headers)

def modifyHeader (name : String)
    (change : Header → Except HeaderError Header) :
    List Header → Except HeaderError (List Header)
  | [] => .ok []
  | header :: rest =>
      if header.name = name then
        match change header with
        | .ok changed => .ok (changed :: rest)
        | .error error => .error error
      else
        match modifyHeader name change rest with
        | .ok changed => .ok (header :: changed)
        | .error error => .error error

/-- The values stored under a name in lower case. -/
def lookup (headers : List Header) (name : String) : Option (List String) :=
  (headers.find? fun header => header.name == name).map Header.values

theorem lookup_cons_self (header : Header) (rest : List Header) :
    lookup (header :: rest) header.name = some header.values := by
  simp [lookup]

theorem lookup_cons_of_ne {header : Header} {name : String}
    (different : header.name ≠ name) (rest : List Header) :
    lookup (header :: rest) name = lookup rest name := by
  simp [lookup, different]

theorem modifyHeader_names {name : String} {h : Header} {own : Bool}
    {headers changed : List Header}
    (run : modifyHeader name (·.merge h own) headers = .ok changed) :
    changed.map Header.name = headers.map Header.name := by
  induction headers generalizing changed with
  | nil =>
      cases run
      rfl
  | cons header rest ih =>
      unfold modifyHeader at run
      split at run
      · cases merged : header.merge h own with
        | ok after =>
            rw [merged] at run
            cases run
            rw [List.map_cons, List.map_cons, Header.merge_name merged]
        | error error =>
            rw [merged] at run
            cases run
      · cases later : modifyHeader name (·.merge h own) rest with
        | ok after =>
            rw [later] at run
            cases run
            rw [List.map_cons, List.map_cons, ih later]
        | error error =>
            rw [later] at run
            cases run

/-- Merging another header into the stored one does not fail. -/
theorem modifyHeader_merge {h : Header} {headers : List Header}
    (stored : h.name ∈ headers.map Header.name) :
    ∃ changed,
      modifyHeader h.name (·.merge h false) headers = .ok changed ∧
      lookup changed = Function.update (lookup headers) h.name
        (some ((lookup headers h.name).getD [] ++ h.values)) := by
  induction headers with
  | nil => simp at stored
  | cons header rest ih =>
      by_cases same : header.name = h.name
      · have merged := Header.merge_of_name same
        refine ⟨{ header with values := header.values ++ h.values } :: rest,
          by simp [modifyHeader, same, merged], ?_⟩
        funext name
        by_cases asked : name = h.name
        · simp [lookup, same, asked]
        · have apart : h.name ≠ name := fun equal => asked equal.symm
          simp [lookup, same, asked, apart]
      · have later : h.name ∈ rest.map Header.name := by
          rcases List.mem_cons.mp stored with here | later
          · exact absurd here.symm same
          · exact later
        obtain ⟨changed, run, found⟩ := ih later
        refine ⟨header :: changed, by simp [modifyHeader, same, run], ?_⟩
        funext name
        have rest := congrFun found name
        by_cases here : header.name = name
        · have apart : name ≠ h.name := here ▸ same
          simp [lookup, here, apart]
        · by_cases asked : name = h.name
          · subst asked
            simpa [lookup, same] using rest
          · simpa [lookup, here, asked] using rest

theorem modifyHeader_own {h : Header} {headers : List Header}
    (stored : h.name ∈ headers.map Header.name) :
    modifyHeader h.name (·.merge h true) headers =
      .error .undefinedBehaviour := by
  induction headers with
  | nil => simp at stored
  | cons header rest ih =>
      by_cases same : header.name = h.name
      · simp [modifyHeader, same, Header.merge_own same]
      · have later : h.name ∈ rest.map Header.name := by
          rcases List.mem_cons.mp stored with here | later
          · exact absurd here.symm same
          · exact later
        simp [modifyHeader, same, ih later]

/-- In a list of different names it does not matter where a header stands. -/
theorem lookup_eq_some_iff {headers : List Header}
    (unique : (headers.map Header.name).Nodup) {name : String}
    {values : List String} :
    lookup headers name = some values ↔
      ∃ header ∈ headers, header.name = name ∧ header.values = values := by
  induction headers with
  | nil => simp [lookup]
  | cons header rest ih =>
      rw [List.map_cons, List.nodup_cons] at unique
      obtain ⟨absent, others⟩ := unique
      by_cases here : header.name = name
      · have gone : ∀ other ∈ rest, other.name ≠ name := by
          intro other member equal
          apply absent
          rw [here, ← equal]
          exact List.mem_map_of_mem member
        constructor
        · intro found
          exact ⟨header, by simp, here, by simpa [lookup, here] using found⟩
        · rintro ⟨other, member, named, rfl⟩
          rcases List.mem_cons.mp member with rfl | later
          · simp [lookup, here]
          · exact absurd named (gone other later)
      · rw [lookup_cons_of_ne here, ih others]
        simp [here]

theorem lookup_eq_none_iff {headers : List Header} {name : String} :
    lookup headers name = none ↔ name ∉ headers.map Header.name := by
  simp [lookup]

theorem lookup_perm {first second : List Header} (same : first.Perm second)
    (unique : (second.map Header.name).Nodup) :
    lookup first = lookup second := by
  have other : (first.map Header.name).Nodup :=
    (same.map Header.name).nodup_iff.mpr unique
  funext name
  apply Option.ext
  intro values
  simp only [lookup_eq_some_iff other, lookup_eq_some_iff unique,
    same.mem_iff]

namespace HeaderSet

def empty : HeaderSet :=
  ⟨[], List.nodup_nil⟩

/-- The header that `find` leads to; `none` is the end iterator. -/
def find (set : HeaderSet) (name : String) : Option Header :=
  set.headers.find? fun header => header.name == makeName name

theorem placed_unique (placement : Placement) (set : HeaderSet) {h : Header}
    (absent : h.name ∉ set.headers.map Header.name) :
    ((placement.place set.headers h).map Header.name).Nodup := by
  rw [((placement.kept set.headers h).map Header.name).nodup_iff]
  exact List.nodup_cons.mpr ⟨absent, set.unique⟩

theorem modified_unique (set : HeaderSet) {h : Header} {own : Bool}
    {changed : List Header}
    (run : modifyHeader h.name (·.merge h own) set.headers = .ok changed) :
    (changed.map Header.name).Nodup := by
  rw [modifyHeader_names run]
  exact set.unique

/-- `own` tells whether `h` is the header of the set with its name. -/
def mergeInsert (placement : Placement) (set : HeaderSet) (h : Header)
    (own : Bool) : Except HeaderError HeaderSet :=
  if stored : h.name ∈ set.headers.map Header.name then
    match run : modifyHeader h.name (·.merge h own) set.headers with
    | .ok changed => .ok ⟨changed, modified_unique set run⟩
    | .error error => .error error
  else
    .ok ⟨placement.place set.headers h, placed_unique placement set stored⟩

def erase (set : HeaderSet) (name : String) : HeaderSet where
  headers := set.headers.filter fun header => header.name ≠ makeName name
  unique := set.unique.sublist (List.filter_sublist.map Header.name)

theorem mergeInsert_eq (placement : Placement) (set : HeaderSet)
    (h : Header) :
    ∃ after, set.mergeInsert placement h false = .ok after ∧
      lookup after.headers =
        Gathering.apply (lookup set.headers) (.gather h.name h.values) := by
  by_cases stored : h.name ∈ set.headers.map Header.name
  · obtain ⟨changed, run, found⟩ := modifyHeader_merge stored
    refine ⟨⟨changed, modified_unique set run⟩, ?_, found⟩
    unfold mergeInsert
    rw [dif_pos stored]
    split
    · rename_i run'
      cases run.symm.trans run'
      rfl
    · rename_i run'
      cases run.symm.trans run'
  · refine ⟨_, dif_neg stored, ?_⟩
    have fresh : ((h :: set.headers).map Header.name).Nodup :=
      List.nodup_cons.mpr ⟨stored, set.unique⟩
    have none : lookup set.headers h.name = none :=
      lookup_eq_none_iff.mpr stored
    rw [lookup_perm (placement.kept set.headers h) fresh]
    funext name
    by_cases asked : name = h.name
    · subst asked
      simp [Gathering.apply, none, lookup_cons_self]
    · have apart : h.name ≠ name := fun equal => asked equal.symm
      simp [Gathering.apply, asked, lookup_cons_of_ne apart]

theorem mergeInsert_own (placement : Placement) {set : HeaderSet}
    {header : Header} (member : header ∈ set.headers) :
    set.mergeInsert placement header true = .error .undefinedBehaviour := by
  have stored : header.name ∈ set.headers.map Header.name :=
    List.mem_map_of_mem member
  unfold mergeInsert
  rw [dif_pos stored]
  split
  · rename_i run
    cases run.symm.trans (modifyHeader_own stored)
  · rename_i run
    cases run.symm.trans (modifyHeader_own stored)
    rfl

theorem lookup_erase (set : HeaderSet) (name : String) :
    lookup (set.erase name).headers =
      Gathering.apply (lookup set.headers) (.drop (makeName name)) := by
  funext asked
  apply Option.ext
  intro values
  rw [lookup_eq_some_iff (set.erase name).unique]
  by_cases same : asked = makeName name
  · simp +contextual [Gathering.apply, same, erase]
  · rw [Gathering.apply, Function.update_of_ne same,
      lookup_eq_some_iff set.unique]
    constructor
    · rintro ⟨header, member, named, rfl⟩
      exact ⟨header, List.mem_of_mem_filter member, named, rfl⟩
    · rintro ⟨header, member, rfl, rfl⟩
      exact ⟨header, List.mem_filter.mpr ⟨member, by simpa using same⟩,
        rfl, rfl⟩

/-! ## Sequences of operations -/

inductive Operation where
  | mergeInsert (placement : Placement) (h : Header)
  /-- `merge_insert` of the header that `find` leads to, if there is one. -/
  | mergeInsertFound (placement : Placement) (name : String)
  | erase (name : String)

/-- What an operation means to an ordered multimap, if it is not called with a
header of the set. -/
def Operation.gathering : Operation → Option (Gathering String String)
  | mergeInsert _ h => some (.gather h.name h.values)
  | mergeInsertFound _ _ => none
  | erase name => some (.drop (makeName name))

def apply (set : HeaderSet) : Operation → Except HeaderError HeaderSet
  | .mergeInsert placement h => set.mergeInsert placement h false
  | .mergeInsertFound placement name =>
      match set.find name with
      | none => .ok set
      | some header => set.mergeInsert placement header true
  | .erase name => .ok (set.erase name)

def run : List Operation → HeaderSet → Except HeaderError HeaderSet
  | [], set => .ok set
  | operation :: rest, set =>
      match set.apply operation with
      | .ok after => run rest after
      | .error error => .error error

/-- The operation is not called with a header of the set. -/
def Foreign (set : HeaderSet) : Operation → Prop
  | .mergeInsertFound _ name => set.find name = none
  | _ => True

/-- None of the operations is called with a header that is in the set then. -/
def AllForeign : List Operation → HeaderSet → Prop
  | [], _ => True
  | operation :: rest, set =>
      set.Foreign operation ∧
        ∀ after, set.apply operation = .ok after → AllForeign rest after

/-- Each operation does to the set what it means to the multimap. -/
theorem apply_eq {set : HeaderSet} {operation : Operation}
    (foreign : set.Foreign operation) :
    ∃ after, set.apply operation = .ok after ∧
      lookup after.headers =
        operation.gathering.toList.foldl Gathering.apply
          (lookup set.headers) := by
  cases operation with
  | mergeInsert placement h => exact mergeInsert_eq placement set h
  | mergeInsertFound placement name =>
      have absent : set.find name = none := foreign
      exact ⟨set, by rw [apply, absent], rfl⟩
  | erase name => exact ⟨_, rfl, lookup_erase set name⟩

theorem foreign_of_apply {set after : HeaderSet} {operation : Operation}
    (taken : set.apply operation = .ok after) : set.Foreign operation := by
  cases operation with
  | mergeInsert placement h => trivial
  | mergeInsertFound placement name =>
      change set.find name = none
      rw [apply] at taken
      cases found : set.find name with
      | none => rfl
      | some header =>
          rw [found] at taken
          simp only [mergeInsert_own placement (List.mem_of_find?_eq_some
            found)] at taken
          cases taken
  | erase name => trivial

theorem run_eq {operations : List Operation} {set : HeaderSet}
    (foreign : AllForeign operations set) :
    ∃ after, run operations set = .ok after ∧
      lookup after.headers =
        (operations.filterMap Operation.gathering).foldl Gathering.apply
          (lookup set.headers) := by
  induction operations generalizing set with
  | nil => exact ⟨set, rfl, rfl⟩
  | cons operation rest ih =>
      obtain ⟨here, later⟩ := foreign
      obtain ⟨next, taken, found⟩ := apply_eq here
      obtain ⟨after, finished, others⟩ := ih (later next taken)
      refine ⟨after, by simp [run, taken, finished], ?_⟩
      rw [others, found, List.filterMap_cons]
      cases operation.gathering <;> rfl

theorem allForeign_of_run {operations : List Operation}
    {set after : HeaderSet} (finished : run operations set = .ok after) :
    AllForeign operations set := by
  induction operations generalizing set with
  | nil => trivial
  | cons operation rest ih =>
      unfold run at finished
      cases taken : set.apply operation with
      | ok next =>
          rw [taken] at finished
          refine ⟨foreign_of_apply taken, fun other same => ?_⟩
          rw [taken, Except.ok.injEq] at same
          subst same
          exact ih finished
      | error error =>
          rw [taken] at finished
          cases finished

theorem find_name {set : HeaderSet} {name : String} {header : Header}
    (found : set.find name = some header) : header.name = makeName name := by
  simpa using List.find?_some found

theorem find_values (set : HeaderSet) (name : String) :
    (set.find name).map Header.values =
      lookup set.headers (makeName name) :=
  rfl

end HeaderSet

end Bacs.Curl
