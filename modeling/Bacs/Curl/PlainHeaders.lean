import Bacs.Curl.HeaderSet
import Bacs.Foundation.Iterator

/-!
# The lines of a set of HTTP headers

The iterator that flattens a set walks over the values of one header after the
other.  Unless it is at the end it stands at a value, whatever headers without
values lie between.
-/

namespace Bacs.Curl

open Foundation

/-- `header_set::plain_const_iterator`.  A position in the container is the
number of headers before it, and a position in the values of a header comes
with the position of the header. -/
structure PlainConstIterator where
  iterator1Begin : Nat
  iterator1End : Nat
  iterator2Begin : Nat × Nat
  iterator2End : Nat × Nat
  deriving DecidableEq, Repr

namespace PlainConstIterator

variable (headers : List Header)

def isEnd (iterator : PlainConstIterator) : Bool :=
  iterator.iterator1Begin == iterator.iterator1End

def isInnerEnd (iterator : PlainConstIterator) : Bool :=
  iterator.iterator2Begin == iterator.iterator2End

def propagate (iterator : PlainConstIterator) : PlainConstIterator :=
  if iterator.isEnd then iterator
  else
    match headers[iterator.iterator1Begin]? with
    | some header =>
        { iterator with
          iterator2Begin := (iterator.iterator1Begin, 0)
          iterator2End :=
            (iterator.iterator1Begin, header.plainHeaders.length) }
    | none => iterator

/-- The loop of `normalize`, for at most `turns` turns. -/
def skip : Nat → PlainConstIterator → PlainConstIterator
  | 0, iterator => iterator
  | turns + 1, iterator =>
      if !iterator.isEnd && iterator.isInnerEnd then
        skip turns (propagate headers
          { iterator with iterator1Begin := iterator.iterator1Begin + 1 })
      else iterator

/-- Each turn passes one header, and no more than there are. -/
def normalize (iterator : PlainConstIterator) : PlainConstIterator :=
  skip headers headers.length iterator

/-- The iterators on values are not set before `propagate`. -/
def create (iterator1Begin iterator1End : Nat) : PlainConstIterator :=
  normalize headers
    (propagate headers ⟨iterator1Begin, iterator1End, (0, 0), (0, 0)⟩)

def increment (iterator : PlainConstIterator) : PlainConstIterator :=
  if !iterator.isEnd then
    normalize headers
      { iterator with
        iterator2Begin :=
          (iterator.iterator2Begin.1, iterator.iterator2Begin.2 + 1) }
  else iterator

def equal (iterator other : PlainConstIterator) : Bool :=
  if iterator.isEnd && other.isEnd then true
  else if iterator.isEnd && !other.isEnd then false
  else if !iterator.isEnd && other.isEnd then false
  else
    iterator.iterator1Begin == other.iterator1Begin &&
      iterator.iterator1End == other.iterator1End &&
      iterator.iterator2Begin == other.iterator2Begin &&
      iterator.iterator2End == other.iterator2End

def dereference (iterator : PlainConstIterator) : Option String :=
  headers[iterator.iterator2Begin.1]?.bind fun header =>
    header.plainHeaders[iterator.iterator2Begin.2]?

/-! ## Invariant -/

def remaining (iterator : PlainConstIterator) : List String :=
  match headers.drop iterator.iterator1Begin with
  | [] => []
  | header :: rest =>
      header.plainHeaders.drop iterator.iterator2Begin.2 ++
        rest.flatMap Header.plainHeaders

/-- The iterator stands at a value or behind the last value of its header. -/
structure Placed (iterator : PlainConstIterator) : Prop where
  last : iterator.iterator1End = headers.length
  within : iterator.iterator1Begin ≤ headers.length
  inner : ∀ header ∈ headers[iterator.iterator1Begin]?,
    iterator.iterator2Begin.1 = iterator.iterator1Begin ∧
      iterator.iterator2Begin.2 ≤ header.plainHeaders.length ∧
      iterator.iterator2End =
        (iterator.iterator1Begin, header.plainHeaders.length)

structure Normalized (iterator : PlainConstIterator) : Prop
    extends Placed headers iterator where
  stops : iterator.isEnd = true ∨ iterator.isInnerEnd = false

variable {headers}

theorem remaining_of_drop {iterator : PlainConstIterator} {header : Header}
    {rest : List Header}
    (split : headers.drop iterator.iterator1Begin = header :: rest) :
    remaining headers iterator =
      header.plainHeaders.drop iterator.iterator2Begin.2 ++
        rest.flatMap Header.plainHeaders := by
  simp only [remaining, split]

theorem Placed.isEnd_iff {iterator : PlainConstIterator}
    (placed : Placed headers iterator) :
    iterator.isEnd = true ↔ iterator.iterator1Begin = headers.length := by
  simp [isEnd, placed.last]

theorem Placed.header {iterator : PlainConstIterator}
    (placed : Placed headers iterator) (more : iterator.isEnd = false) :
    ∃ header, headers[iterator.iterator1Begin]? = some header ∧
      headers.drop iterator.iterator1Begin =
        header :: headers.drop (iterator.iterator1Begin + 1) := by
  have apart : iterator.iterator1Begin ≠ headers.length := by
    intro same
    rw [placed.isEnd_iff.mpr same] at more
    cases more
  have bound : iterator.iterator1Begin < headers.length := by
    have within := placed.within
    omega
  exact ⟨_, List.getElem?_eq_getElem bound,
    List.drop_eq_getElem_cons bound⟩

theorem remaining_of_isEnd {iterator : PlainConstIterator}
    (placed : Placed headers iterator) (done : iterator.isEnd = true) :
    remaining headers iterator = [] := by
  rw [remaining, placed.isEnd_iff.mp done, List.drop_length]

theorem propagate_placed {first : Nat} (within : first ≤ headers.length)
    (left right : Nat × Nat) :
    Placed headers
      (propagate headers ⟨first, headers.length, left, right⟩) ∧
    remaining headers
      (propagate headers ⟨first, headers.length, left, right⟩) =
        (headers.drop first).flatMap Header.plainHeaders := by
  by_cases done : first = headers.length
  · have same : propagate headers ⟨first, headers.length, left, right⟩ =
        ⟨first, headers.length, left, right⟩ := by
      simp [propagate, isEnd, done]
    rw [same]
    constructor
    · exact ⟨rfl, within, by simp [done]⟩
    · simp [remaining, done]
  · have bound : first < headers.length := by omega
    have found := List.getElem?_eq_getElem bound
    have moved : propagate headers ⟨first, headers.length, left, right⟩ =
        ⟨first, headers.length, (first, 0),
          (first, headers[first].plainHeaders.length)⟩ := by
      simp [propagate, isEnd, done, found]
    rw [moved]
    constructor
    · exact ⟨rfl, within, by simp [found]⟩
    · have split := List.drop_eq_getElem_cons bound
      rw [split, remaining_of_drop split]
      rfl

/-- Behind the last value of a header only the headers after it are left. -/
theorem remaining_of_isInnerEnd {iterator : PlainConstIterator}
    (placed : Placed headers iterator) (more : iterator.isEnd = false)
    (passed : iterator.isInnerEnd = true) :
    remaining headers iterator =
      (headers.drop (iterator.iterator1Begin + 1)).flatMap
        Header.plainHeaders := by
  obtain ⟨header, found, split⟩ := placed.header more
  obtain ⟨_, _, ends⟩ := placed.inner header found
  have index : iterator.iterator2Begin.2 = header.plainHeaders.length := by
    have same : iterator.iterator2Begin = iterator.iterator2End := by
      simpa [isInnerEnd] using passed
    rw [same, ends]
  simp [remaining, split, index]

theorem skip_normalized {turns : Nat} {iterator : PlainConstIterator}
    (placed : Placed headers iterator)
    (enough : headers.length ≤ iterator.iterator1Begin + turns) :
    Normalized headers (skip headers turns iterator) ∧
      remaining headers (skip headers turns iterator) =
        remaining headers iterator := by
  induction turns generalizing iterator with
  | zero =>
      have done : iterator.isEnd = true := by
        rw [placed.isEnd_iff]
        have within := placed.within
        omega
      exact ⟨⟨placed, .inl done⟩, rfl⟩
  | succ turns ih =>
      unfold skip
      cases done : iterator.isEnd with
      | true => exact ⟨⟨placed, .inl done⟩, rfl⟩
      | false =>
          cases passed : iterator.isInnerEnd with
          | false => exact ⟨⟨placed, .inr passed⟩, rfl⟩
          | true =>
              obtain ⟨first, last, left, right⟩ := iterator
              obtain rfl : last = headers.length := placed.last
              have within : first + 1 ≤ headers.length := by
                obtain ⟨_, found, _⟩ := placed.header done
                exact (List.getElem?_eq_some_iff.mp found).1
              obtain ⟨next, lines⟩ := propagate_placed within left right
              have moved : (propagate headers
                  ⟨first + 1, headers.length, left, right⟩).iterator1Begin =
                    first + 1 := by
                unfold propagate
                split <;> [rfl; split <;> rfl]
              obtain ⟨normal, kept⟩ := ih next (by
                rw [moved]
                simp only at enough
                omega)
              refine ⟨normal, kept.trans ?_⟩
              rw [lines, remaining_of_isInnerEnd placed done passed]

theorem normalize_normalized {iterator : PlainConstIterator}
    (placed : Placed headers iterator) :
    Normalized headers (normalize headers iterator) ∧
      remaining headers (normalize headers iterator) =
        remaining headers iterator :=
  skip_normalized placed (Nat.le_add_left _ _)

theorem create_normalized (headers : List Header) {first : Nat}
    (within : first ≤ headers.length) :
    Normalized headers (create headers first headers.length) ∧
      remaining headers (create headers first headers.length) =
        (headers.drop first).flatMap Header.plainHeaders := by
  obtain ⟨placed, lines⟩ := propagate_placed within (0, 0) (0, 0)
  obtain ⟨normal, kept⟩ := normalize_normalized placed
  exact ⟨normal, kept.trans lines⟩

/-- Away from the end there is a line, and dereferencing reads it. -/
theorem Normalized.head {iterator : PlainConstIterator}
    (normal : Normalized headers iterator) (more : iterator.isEnd = false) :
    ∃ line rest, remaining headers iterator = line :: rest ∧
      dereference headers iterator = some line ∧
      ∃ header, headers[iterator.iterator1Begin]? = some header ∧
        iterator.iterator2Begin.2 < header.plainHeaders.length ∧
        rest = header.plainHeaders.drop (iterator.iterator2Begin.2 + 1) ++
          (headers.drop (iterator.iterator1Begin + 1)).flatMap
            Header.plainHeaders := by
  obtain ⟨header, found, split⟩ := normal.header more
  obtain ⟨outer, bound, ends⟩ := normal.inner header found
  have inside : iterator.iterator2Begin.2 < header.plainHeaders.length := by
    apply Nat.lt_of_le_of_ne bound
    intro last
    have passed : iterator.isInnerEnd = true := by
      rw [isInnerEnd, ends, beq_iff_eq]
      exact Prod.ext outer last
    rcases normal.stops with done | standing
    · rw [done] at more
      cases more
    · rw [passed] at standing
      cases standing
  refine ⟨header.plainHeaders[iterator.iterator2Begin.2], _, ?_, ?_, header,
    found, inside, rfl⟩
  · rw [remaining_of_drop split, List.drop_eq_getElem_cons inside]
    rfl
  · simp [dereference, outer, found, List.getElem?_eq_getElem inside]

theorem increment_normalized {iterator : PlainConstIterator}
    (normal : Normalized headers iterator) (more : iterator.isEnd = false) :
    Normalized headers (increment headers iterator) ∧
      remaining headers (increment headers iterator) =
        (remaining headers iterator).tail := by
  obtain ⟨line, rest, lines, _, header, found, inside, later⟩ :=
    normal.head more
  obtain ⟨outer, _, ends⟩ := normal.inner header found
  let moved : PlainConstIterator :=
    { iterator with
      iterator2Begin :=
        (iterator.iterator2Begin.1, iterator.iterator2Begin.2 + 1) }
  have placed : Placed headers moved := by
    refine ⟨normal.last, normal.within, ?_⟩
    intro other found'
    cases found.symm.trans found'
    exact ⟨outer, inside, ends⟩
  have same : increment headers iterator = normalize headers moved := by
    simp [increment, more, moved]
  obtain ⟨next, kept⟩ := normalize_normalized placed
  rw [same]
  refine ⟨next, kept.trans ?_⟩
  obtain ⟨_, found', split⟩ := normal.header more
  cases found.symm.trans found'
  rw [lines, List.tail_cons, later]
  simp [remaining, moved, split]

theorem traverses (headers : List Header) :
    Traverses (Normalized headers) isEnd (dereference headers)
      (increment headers) (remaining headers) where
  ends := by
    intro iterator normal
    constructor
    · exact remaining_of_isEnd normal.toPlaced
    · intro none
      by_contra more
      obtain ⟨line, rest, lines, _⟩ := normal.head (by simpa using more)
      rw [none] at lines
      cases lines
  reads := by
    intro iterator normal value first
    cases done : iterator.isEnd with
    | true => simp [remaining_of_isEnd normal.toPlaced done] at first
    | false =>
        obtain ⟨line, rest, lines, read, _⟩ := normal.head done
        rw [lines] at first
        cases first
        exact read
  moves := by
    intro iterator normal some
    apply increment_normalized normal
    rw [Bool.eq_false_iff]
    intro done
    exact some (remaining_of_isEnd normal.toPlaced done)

theorem equal_of_isEnd (iterator : PlainConstIterator)
    {finish : PlainConstIterator} (done : finish.isEnd = true) :
    equal iterator finish = iterator.isEnd := by
  cases here : iterator.isEnd <;> simp [equal, here, done]

end PlainConstIterator

namespace HeaderSet

/-- The first iterator of `plain_headers`. -/
def plainBegin (set : HeaderSet) : PlainConstIterator :=
  .create set.headers 0 set.headers.length

/-- The second iterator of `plain_headers`. -/
def plainEnd (set : HeaderSet) : PlainConstIterator :=
  .create set.headers set.headers.length set.headers.length

/-- One line for each value, header by header. -/
def lines (set : HeaderSet) : List String :=
  set.headers.flatMap Header.plainHeaders

theorem plainEnd_isEnd (set : HeaderSet) : set.plainEnd.isEnd = true := by
  obtain ⟨normal, none⟩ :=
    PlainConstIterator.create_normalized set.headers (Nat.le_refl _)
  apply ((PlainConstIterator.traverses set.headers).ends _ normal).mpr
  simpa using none

def lineOf (name value : String) : String :=
  if value = "" then name ++ ":" else name ++ ": " ++ value

theorem lines_eq (set : HeaderSet) :
    set.lines = set.headers.flatMap fun header =>
      header.values.map (lineOf header.name) := by
  have same : ∀ header ∈ set.headers,
      header.plainHeaders = header.values.map (lineOf header.name) := by
    intro header _
    apply List.map_congr_left
    intro value _
    simp [Header.merger, lineOf, String.isEmpty_iff]
  exact List.flatMap_congr same

/-- After the operations the set is an ordered multimap, and its lines are one
for each value of one header after the other. -/
def Multimap (operations : List Operation) (set : HeaderSet) : Prop :=
  (set.headers.map fun header => makeName header.name).Nodup ∧
  (∀ name other, makeName name = makeName other →
    set.find name = set.find other) ∧
  (∀ name header, set.find name = some header →
    header.name = makeName name) ∧
  (∀ name, (set.find name).map Header.values =
    if Gathering.since (makeName name)
        (operations.filterMap Operation.gathering) = [] then none
    else some (Gathering.since (makeName name)
      (operations.filterMap Operation.gathering)).flatten) ∧
  ∃ expected, expected = (set.headers.flatMap fun header =>
      header.values.map (lineOf header.name)) ∧
    (∀ count < expected.length,
      ((PlainConstIterator.increment set.headers)^[count]
        set.plainBegin).equal set.plainEnd = false ∧
      ((PlainConstIterator.increment set.headers)^[count]
        set.plainBegin).dereference set.headers = expected[count]?) ∧
    ((PlainConstIterator.increment set.headers)^[expected.length]
      set.plainBegin).equal set.plainEnd = true

theorem multimap_of_run {operations : List Operation} {set : HeaderSet}
    (found : lookup set.headers =
      Gathering.perform (operations.filterMap Operation.gathering)) :
    Multimap operations set := by
  obtain ⟨normal, lines⟩ :=
    PlainConstIterator.create_normalized set.headers (Nat.zero_le _)
  have walk := PlainConstIterator.traverses set.headers
  have all : PlainConstIterator.remaining set.headers set.plainBegin =
      set.lines := lines
  refine ⟨?_, ?_, fun _ _ => find_name, ?_, set.lines, lines_eq set, ?_, ?_⟩
  · have lower : (set.headers.map fun header => makeName header.name) =
        set.headers.map Header.name :=
      List.map_congr_left fun header _ => header.lower
    rw [lower]
    exact set.unique
  · intro name other same
    simp only [find, same]
  · intro name
    rw [find_values, found, Gathering.perform_eq]
  · intro count within
    rw [← all] at within ⊢
    rw [PlainConstIterator.equal_of_isEnd _ set.plainEnd_isEnd]
    exact walk.shows normal within
  · rw [← all, PlainConstIterator.equal_of_isEnd _ set.plainEnd_isEnd]
    exact walk.finishes normal

/-- A set of headers is an ordered multimap, exactly if no header of the set
is merged into it. -/
theorem run_multimap (operations : List Operation) :
    (∃ set, run operations empty = .ok set ∧ Multimap operations set) ↔
      AllForeign operations empty := by
  constructor
  · rintro ⟨set, finished, _⟩
    exact allForeign_of_run finished
  · intro foreign
    obtain ⟨set, finished, found⟩ := run_eq foreign
    exact ⟨set, finished, multimap_of_run found⟩

def lastPlacement : Placement where
  place headers header := headers ++ [header]
  kept headers header := List.perm_append_singleton header headers

/-- The header that is merged into the set is the one that it has. -/
theorem merge_of_itself : ¬ ∀ operations : List Operation,
    ∃ set, run operations empty = .ok set ∧ Multimap operations set := by
  intro always
  obtain ⟨set, finished, _⟩ := always [.mergeInsert lastPlacement
    (.create "x" ["1"]), .mergeInsertFound lastPlacement "x"]
  obtain ⟨_, later⟩ := allForeign_of_run finished
  obtain ⟨absent, _⟩ := later _ rfl
  have stored : find ⟨[.create "x" ["1"]], by simp⟩ "x" =
      some (.create "x" ["1"]) := by
    simp [find, Header.create]
  cases stored.symm.trans absent

end HeaderSet

end Bacs.Curl
