import Bacs.Foundation.Wildcard
import Mathlib.Data.List.Forall2

/-!
# Wildcards with assertions

Between the pieces of a wildcard there may be assertions, which know the
characters on both sides by their kinds only.  A text that fits stays one when
characters are replaced by others of their kinds, unless their pieces tell
them apart.  So a wildcard with assertions is different from one without them
that has more pieces of this sort.
-/

namespace Bacs.Foundation

variable {Character : Type*}

/-- A piece or an assertion about the kinds of the characters before and after
it, if there are any. -/
inductive Segment (Character : Type*) where
  | piece (piece : Piece Character)
  | look (holds : Option Bool → Option Bool → Bool)

namespace Segment

section Matching

variable (kind : Character → Bool)

def lastKind (before : Option Bool) (text : List Character) : Option Bool :=
  (text.map kind).getLast?.or before

/-- The segments stand for the text. -/
def Matches : Option Bool → List (Segment Character) → List Character → Prop
  | _, [], text => text = []
  | before, piece .many :: rest, text =>
      ∃ skipped after, text = skipped ++ after ∧
        Matches (lastKind kind before skipped) rest after
  | _, piece (.one accepts) :: rest, text =>
      ∃ character after, text = character :: after ∧
        accepts character = true ∧
        Matches (some (kind character)) rest after
  | before, look holds :: rest, text =>
      holds before (text.head?.map kind) = true ∧ Matches before rest text

def test : Option Bool → List (Segment Character) → List Character → Bool
  | _, [], text => text.isEmpty
  | before, piece .many :: rest, text =>
      (List.range (text.length + 1)).any fun count =>
        test (lastKind kind before (text.take count)) rest (text.drop count)
  | _, piece (.one _) :: _, [] => false
  | _, piece (.one accepts) :: rest, character :: after =>
      accepts character && test (some (kind character)) rest after
  | before, look holds :: rest, text =>
      holds before (text.head?.map kind) && test before rest text

end Matching

variable {kind : Character → Bool}

theorem test_iff {before : Option Bool} {segments : List (Segment Character)}
    {text : List Character} :
    test kind before segments text = true ↔
      Matches kind before segments text := by
  induction segments generalizing before text with
  | nil => exact List.isEmpty_iff
  | cons segment rest ih =>
      cases segment with
      | look holds => rw [test, Matches, Bool.and_eq_true, ih]
      | piece piece =>
          cases piece with
          | many =>
              rw [test, Matches, List.any_eq_true]
              constructor
              · rintro ⟨count, _, matched⟩
                exact ⟨text.take count, text.drop count,
                  (List.take_append_drop _ _).symm, ih.mp matched⟩
              · rintro ⟨skipped, after, rfl, matched⟩
                refine ⟨skipped.length, ?_, ?_⟩
                · rw [List.mem_range, List.length_append]
                  omega
                · rw [List.take_left, List.drop_left]
                  exact ih.mpr matched
          | one accepts =>
              cases text with
              | nil =>
                  rw [test, Matches]
                  constructor
                  · nofun
                  · rintro ⟨_, _, ⟨⟩, _⟩
              | cons character after =>
                  rw [test, Matches, Bool.and_eq_true, ih]
                  constructor
                  · rintro ⟨accepted, matched⟩
                    exact ⟨character, after, rfl, accepted, matched⟩
                  · rintro ⟨_, _, ⟨⟩, accepted, matched⟩
                    exact ⟨accepted, matched⟩

/-- Without assertions there is nothing to know of the other side. -/
theorem matches_pieces (kind : Character → Bool) (before : Option Bool)
    {pieces : List (Piece Character)} {text : List Character} :
    Matches kind before (pieces.map piece) text ↔
      Piece.Matches pieces text := by
  induction pieces generalizing before text with
  | nil => exact Iff.rfl
  | cons first rest ih =>
      cases first with
      | many =>
          rw [List.map_cons, Matches, Piece.Matches]
          simp only [ih]
      | one accepts =>
          rw [List.map_cons, Matches, Piece.Matches]
          simp only [ih]

theorem Matches.accepted {before : Option Bool}
    {segments : List (Segment Character)} {text : List Character}
    (matched : Matches kind before segments text) :
    ∀ accepts, piece (.one accepts) ∈ segments →
      ∃ character ∈ text, accepts character = true := by
  induction segments generalizing before text with
  | nil => nofun
  | cons segment rest ih =>
      intro accepts member
      cases segment with
      | look holds => exact ih matched.2 accepts (by simpa using member)
      | piece first =>
          cases first with
          | many =>
              obtain ⟨skipped, after, rfl, later⟩ := matched
              obtain ⟨character, inside, accepted⟩ :=
                ih later accepts (by simpa using member)
              exact ⟨character, List.mem_append_right _ inside, accepted⟩
          | one first =>
              obtain ⟨character, after, rfl, accepted, later⟩ := matched
              rcases List.mem_cons.mp member with same | others
              · cases same
                exact ⟨character, by simp, accepted⟩
              · obtain ⟨other, inside, accepted⟩ := ih later accepts others
                exact ⟨other, List.mem_cons_of_mem _ inside, accepted⟩

/-! ## Texts in which characters are free -/

/-- A character of a text, and whether it may be replaced. -/
structure Mark (Character : Type*) where
  character : Character
  free : Bool

section Replacing

variable (kind) (domain : Character → Prop)

def Mark.Allows (mark : Mark Character) (other : Character) : Prop :=
  domain other ∧ kind other = kind mark.character ∧
    (mark.free = false → other = mark.character)

/-- Some characters of one kind are accepted and others are not. -/
def Splits : Segment Character → Prop
  | piece (.one accepts) =>
      ∃ accepted refused, domain accepted ∧ domain refused ∧
        kind accepted = kind refused ∧ accepts accepted = true ∧
        accepts refused = false
  | _ => False

open scoped Classical in
/-- How many segments tell characters of one kind apart. -/
noncomputable def splitting (segments : List (Segment Character)) : Nat :=
  segments.countP fun segment => Splits kind domain segment

end Replacing

variable {domain : Character → Prop}

def rigid (marks : List (Mark Character)) : Nat :=
  marks.countP fun mark => !mark.free

theorem map_kind {marks : List (Mark Character)} {text : List Character}
    (allows : List.Forall₂ (Mark.Allows kind domain) marks text) :
    text.map kind = (marks.map Mark.character).map kind := by
  induction allows with
  | nil => rfl
  | cons allowed _ ih =>
      rw [List.map_cons, List.map_cons, List.map_cons, ih, allowed.2.1]

theorem head_kind {text other : List Character}
    (kinds : other.map kind = text.map kind) :
    other.head?.map kind = text.head?.map kind := by
  rw [← List.head?_map, kinds, List.head?_map]

theorem rigid_cons_fixed (character : Character)
    (marks : List (Mark Character)) :
    rigid (⟨character, false⟩ :: marks) = rigid marks + 1 :=
  List.countP_cons_of_pos rfl

theorem rigid_cons_free (character : Character)
    (marks : List (Mark Character)) :
    rigid (⟨character, true⟩ :: marks) = rigid marks :=
  List.countP_cons_of_neg nofun

theorem rigid_append_free (skipped : List Character)
    (marks : List (Mark Character)) :
    rigid (skipped.map (⟨·, true⟩) ++ marks) = rigid marks := by
  induction skipped with
  | nil => rfl
  | cons character skipped ih => exact (rigid_cons_free character _).trans ih

theorem splitting_cons_of_splits {segment : Segment Character}
    (splits : Splits kind domain segment) (rest : List (Segment Character)) :
    splitting kind domain (segment :: rest) =
      splitting kind domain rest + 1 := by
  exact List.countP_cons_of_pos (by simpa using splits)

theorem splitting_cons_of_not {segment : Segment Character}
    (splits : ¬ Splits kind domain segment) (rest : List (Segment Character)) :
    splitting kind domain (segment :: rest) = splitting kind domain rest := by
  exact List.countP_cons_of_neg (by simpa using splits)

section Losing

variable {Item : Type*} {lost kept : Item → Segment Character}
  {fewer more : List Item}

theorem splitting_map_le (sublist : fewer.Sublist more)
    (weaker : ∀ item, Splits kind domain (lost item) →
      Splits kind domain (kept item)) :
    splitting kind domain (fewer.map lost) ≤
      splitting kind domain (more.map kept) := by
  induction sublist with
  | slnil => exact Nat.le_refl _
  | cons item _ ih =>
      refine Nat.le_trans ih ?_
      exact (List.sublist_cons_self _ _).countP_le
  | cons_cons item _ ih =>
      rw [List.map_cons, List.map_cons]
      by_cases splits : Splits kind domain (lost item)
      · rw [splitting_cons_of_splits splits,
          splitting_cons_of_splits (weaker item splits)]
        exact Nat.succ_le_succ ih
      · rw [splitting_cons_of_not splits]
        refine Nat.le_trans ih ?_
        exact (List.sublist_cons_self _ _).countP_le

theorem splitting_map_lt [DecidableEq Item] (sublist : fewer.Sublist more)
    (weaker : ∀ item, Splits kind domain (lost item) →
      Splits kind domain (kept item))
    {item : Item} (splits : Splits kind domain (kept item))
    (loses : fewer.count item < more.count item ∨
      item ∈ fewer ∧ ¬ Splits kind domain (lost item)) :
    splitting kind domain (fewer.map lost) <
      splitting kind domain (more.map kept) := by
  induction sublist with
  | slnil =>
      rcases loses with missing | ⟨⟨⟩, _⟩
      exact absurd missing (Nat.lt_irrefl _)
  | cons other sublist ih =>
      rw [List.map_cons]
      by_cases otherSplits : Splits kind domain (kept other)
      · rw [splitting_cons_of_splits otherSplits]
        exact Nat.lt_succ_of_le (splitting_map_le sublist weaker)
      · rw [splitting_cons_of_not otherSplits]
        have different : other ≠ item := by
          rintro rfl
          exact otherSplits splits
        rw [List.count_cons_of_ne different] at loses
        exact ih loses
  | cons_cons other sublist ih =>
      rw [List.map_cons, List.map_cons]
      by_cases otherSplits : Splits kind domain (lost other)
      · rw [splitting_cons_of_splits otherSplits,
          splitting_cons_of_splits (weaker other otherSplits)]
        refine Nat.succ_lt_succ (ih ?_)
        rcases loses with missing | ⟨member, fails⟩
        · left
          by_cases same : other = item
          · subst same
            rw [List.count_cons_self, List.count_cons_self] at missing
            exact Nat.lt_of_succ_lt_succ missing
          · rwa [List.count_cons_of_ne same, List.count_cons_of_ne same]
              at missing
        · right
          refine ⟨(List.mem_cons.mp member).resolve_left ?_, fails⟩
          rintro rfl
          exact fails otherSplits
      · rw [splitting_cons_of_not otherSplits]
        by_cases same : Splits kind domain (kept other)
        · rw [splitting_cons_of_splits same]
          exact Nat.lt_succ_of_le (splitting_map_le sublist weaker)
        · have different : other ≠ item := by
            rintro rfl
            exact same splits
          rw [splitting_cons_of_not same]
          refine ih (loses.imp ?_ ?_)
          · rw [List.count_cons_of_ne different,
              List.count_cons_of_ne different]
            exact id
          · rintro ⟨member, fails⟩
            exact ⟨(List.mem_cons.mp member).resolve_left
              (Ne.symm different), fails⟩

end Losing

def Admits (kind : Character → Bool) (domain : Character → Prop)
    (before : Option Bool) (segments : List (Segment Character))
    (marks : List (Mark Character)) : Prop :=
  ∀ other, List.Forall₂ (Mark.Allows kind domain) marks other →
    Matches kind before segments other

section Admits

variable {before : Option Bool} {rest : List (Segment Character)}
  {marks : List (Mark Character)} {character : Character}
  {accepts : Character → Bool}

theorem Admits.look {holds : Option Bool → Option Bool → Bool}
    (held : holds before ((marks.map Mark.character).head?.map kind) = true)
    (admits : Admits kind domain before rest marks) :
    Admits kind domain before (look holds :: rest) marks := by
  intro other allows
  refine ⟨?_, admits other allows⟩
  rwa [head_kind (map_kind allows)]

theorem Admits.many {skipped : List Character}
    (admits : Admits kind domain (lastKind kind before skipped) rest marks) :
    Admits kind domain before (piece .many :: rest)
      (skipped.map (⟨·, true⟩) ++ marks) := by
  intro other allows
  have front := List.forall₂_take_append _ _ _ allows.flip
  have back := List.forall₂_drop_append _ _ _ allows.flip
  refine ⟨_, _, (List.take_append_drop
    (skipped.map (Mark.mk · true)).length other).symm, ?_⟩
  have kinds := map_kind front.flip
  have characters :
      (skipped.map (Mark.mk · true)).map Mark.character = skipped := by
    rw [List.map_map]
    exact List.map_id skipped
  rw [characters] at kinds
  rw [lastKind, kinds]
  exact admits _ back.flip

theorem Admits.fixed (accepted : accepts character = true)
    (admits : Admits kind domain (some (kind character)) rest marks) :
    Admits kind domain before (piece (.one accepts) :: rest)
      (⟨character, false⟩ :: marks) := by
  rintro _ (_ | ⟨⟨_, kinds, fixed⟩, allows⟩)
  refine ⟨_, _, rfl, ?_, ?_⟩
  · rw [fixed rfl]
    exact accepted
  · rw [kinds]
    exact admits _ allows

/-- A piece that does not split accepts all characters of the kind. -/
theorem Admits.free (inside : domain character)
    (accepted : accepts character = true)
    (whole : ¬ Splits kind domain (piece (.one accepts)))
    (admits : Admits kind domain (some (kind character)) rest marks) :
    Admits kind domain before (piece (.one accepts) :: rest)
      (⟨character, true⟩ :: marks) := by
  rintro _ (_ | ⟨⟨otherInside, kinds, _⟩, allows⟩)
  refine ⟨_, _, rfl, ?_, ?_⟩
  · by_contra refused
    apply whole
    exact ⟨character, _, inside, otherInside, kinds.symm, accepted,
      by simpa using refused⟩
  · rw [kinds]
    exact admits _ allows

end Admits

/-- In a text that matches all characters are free but for those that pieces
tell apart. -/
theorem Matches.loosen {before : Option Bool}
    {segments : List (Segment Character)} {text : List Character}
    (matched : Matches kind before segments text)
    (inside : ∀ character ∈ text, domain character) :
    ∃ marks : List (Mark Character), marks.map Mark.character = text ∧
      rigid marks ≤ splitting kind domain segments ∧
      Admits kind domain before segments marks := by
  induction segments generalizing before text with
  | nil =>
      have empty : text = [] := matched
      subst empty
      refine ⟨[], rfl, Nat.zero_le _, ?_⟩
      rintro other ⟨⟩
      rfl
  | cons segment rest ih =>
      cases segment with
      | look holds =>
          obtain ⟨held, later⟩ := matched
          obtain ⟨marks, same, few, admits⟩ := ih later inside
          refine ⟨marks, same, ?_, admits.look ?_⟩
          · rwa [splitting_cons_of_not id]
          · rwa [same]
      | piece first =>
          cases first with
          | many =>
              obtain ⟨skipped, after, rfl, later⟩ := matched
              obtain ⟨marks, same, few, admits⟩ := ih later
                fun character member =>
                  inside character (List.mem_append_right _ member)
              refine ⟨_, ?_, ?_, admits.many⟩
              · rw [List.map_append, List.map_map, same]
                exact congrArg (· ++ after) (List.map_id skipped)
              · rw [splitting_cons_of_not id, rigid_append_free]
                exact few
          | one accepts =>
              obtain ⟨character, after, rfl, accepted, later⟩ := matched
              have isInside := inside character List.mem_cons_self
              obtain ⟨marks, same, few, admits⟩ := ih later
                fun other member =>
                  inside other (List.mem_cons_of_mem _ member)
              by_cases splits : Splits kind domain (piece (.one accepts))
              · refine ⟨_, ?_, ?_, admits.fixed accepted⟩
                · rw [List.map_cons, same]
                · rw [splitting_cons_of_splits splits, rigid_cons_fixed]
                  exact Nat.succ_le_succ few
              · refine ⟨_, ?_, ?_, admits.free isInside accepted splits⟩
                · rw [List.map_cons, same]
                · rw [splitting_cons_of_not splits, rigid_cons_free]
                  exact few

theorem allows_self {marks : List (Mark Character)} {text : List Character}
    (same : marks.map Mark.character = text)
    (inside : ∀ character ∈ text, domain character) :
    List.Forall₂ (Mark.Allows kind domain) marks text := by
  subst same
  induction marks with
  | nil => exact .nil
  | cons mark marks ih =>
      rw [List.map_cons, List.forall_mem_cons] at inside
      exact .cons ⟨inside.1, rfl, fun _ => rfl⟩ (ih inside.2)

/-- With fewer rigid characters than pieces that split, replacing others leads
to a text that does not match. -/
def Breaks (kind : Character → Bool) (domain : Character → Prop)
    (pieces : List (Piece Character)) (text : List Character) : Prop :=
  ∀ marks : List (Mark Character), marks.map Mark.character = text →
    rigid marks < splitting kind domain (pieces.map piece) →
    ∃ other, List.Forall₂ (Mark.Allows kind domain) marks other ∧
      ¬ Piece.Matches pieces other

section Breaks

variable {rest : List (Piece Character)} {text : List Character}
  {character : Character} {accepts : Character → Bool}

theorem Breaks.many (breaks : Breaks kind domain rest text)
    (length : text.length = Piece.width rest) :
    Breaks kind domain (.many :: rest) text := by
  intro marks same few
  rw [List.map_cons, splitting_cons_of_not id] at few
  obtain ⟨other, allows, fails⟩ := breaks marks same few
  refine ⟨other, allows, ?_⟩
  rintro ⟨skipped, after, rfl, later⟩
  have sameLength := allows.length_eq
  rw [← List.length_map Mark.character, same, length,
    List.length_append] at sameLength
  have bound := later.width_le
  have empty : skipped = [] := List.length_eq_zero_iff.mp (by omega)
  subst empty
  exact fails later

theorem Breaks.tail (breaks : Breaks kind domain rest text)
    (inside : domain character) (free : Bool) {marks : List (Mark Character)}
    (same : marks.map Mark.character = text)
    (few : rigid marks < splitting kind domain (rest.map piece)) :
    ∃ other, List.Forall₂ (Mark.Allows kind domain)
      (⟨character, free⟩ :: marks) other ∧
      ¬ Piece.Matches (.one accepts :: rest) other := by
  obtain ⟨other, allows, fails⟩ := breaks marks same few
  refine ⟨character :: other,
    .cons ⟨inside, rfl, fun _ => rfl⟩ allows, ?_⟩
  rintro ⟨_, _, ⟨⟩, _, later⟩
  exact fails later

theorem Breaks.whole (breaks : Breaks kind domain rest text)
    (inside : domain character)
    (whole : ¬ Splits kind domain (piece (.one accepts))) :
    Breaks kind domain (.one accepts :: rest) (character :: text) := by
  rintro (_ | ⟨⟨character, free⟩, marks⟩) same few
  · cases same
  rw [List.map_cons, List.cons.injEq] at same
  obtain ⟨rfl, same⟩ := same
  rw [List.map_cons, splitting_cons_of_not whole] at few
  refine breaks.tail inside free same (Nat.lt_of_le_of_lt ?_ few)
  rw [rigid, rigid, List.countP_cons]
  exact Nat.le_add_right _ _

theorem Breaks.splits (breaks : Breaks kind domain rest text)
    (insideText : ∀ character ∈ text, domain character)
    (inside : domain character) (accepted : accepts character = true)
    {refused : Character} (otherInside : domain refused)
    (kinds : kind character = kind refused)
    (refuses : accepts refused = false) :
    Breaks kind domain (.one accepts :: rest) (character :: text) := by
  rintro (_ | ⟨⟨character, free⟩, marks⟩) same few
  · cases same
  rw [List.map_cons, List.cons.injEq] at same
  obtain ⟨rfl, same⟩ := same
  cases free with
  | true =>
      refine ⟨refused :: text,
        .cons ⟨otherInside, kinds.symm, nofun⟩
          (allows_self same insideText), ?_⟩
      rintro ⟨_, _, ⟨⟩, accepted', _⟩
      rw [refuses] at accepted'
      cases accepted'
  | false =>
      have splits : Splits kind domain (piece (.one accepts)) :=
        ⟨character, refused, inside, otherInside, kinds, accepted, refuses⟩
      rw [List.map_cons, splitting_cons_of_splits splits,
        rigid_cons_fixed] at few
      exact breaks.tail inside false same (Nat.lt_of_succ_lt_succ few)

end Breaks

/-- A shortest text that matches, with characters that their pieces tell from
others where that is possible. -/
theorem exists_breaks (kind : Character → Bool)
    {pieces : List (Piece Character)}
    (inhabited : Piece.Inhabited domain pieces) :
    ∃ text, (∀ character ∈ text, domain character) ∧
      text.length = Piece.width pieces ∧ Piece.Matches pieces text ∧
      Breaks kind domain pieces text := by
  induction pieces with
  | nil => exact ⟨[], nofun, rfl, rfl, fun _ _ => nofun⟩
  | cons first rest ih =>
      obtain ⟨text, inside, length, matched, breaks⟩ :=
        ih fun accepts member => inhabited accepts (by simp [member])
      cases first with
      | many =>
          exact ⟨text, inside, length, ⟨[], text, rfl, matched⟩,
            breaks.many length⟩
      | one accepts =>
          by_cases splits : Splits kind domain (piece (.one accepts))
          · obtain ⟨character, refused, isInside, otherInside, kinds, accepted,
              refuses⟩ := splits
            exact ⟨character :: text,
              List.forall_mem_cons.mpr ⟨isInside, inside⟩,
              congrArg Nat.succ length,
              ⟨character, text, rfl, accepted, matched⟩,
              breaks.splits inside isInside accepted otherInside kinds
                refuses⟩
          · obtain ⟨character, isInside, accepted⟩ :=
              inhabited accepts List.mem_cons_self
            exact ⟨character :: text,
              List.forall_mem_cons.mpr ⟨isInside, inside⟩,
              congrArg Nat.succ length,
              ⟨character, text, rfl, accepted, matched⟩,
              breaks.whole isInside splits⟩

/-- Pieces that tell more characters apart than segments are different from
them. -/
theorem exists_difference {segments : List (Segment Character)}
    {pieces : List (Piece Character)}
    (inhabited : Piece.Inhabited domain pieces)
    (fewer : splitting kind domain segments <
      splitting kind domain (pieces.map piece)) (before : Option Bool) :
    ∃ text, (∀ character ∈ text, domain character) ∧
      ¬ (Matches kind before segments text ↔ Piece.Matches pieces text) := by
  obtain ⟨text, inside, _, matched, breaks⟩ := exists_breaks kind inhabited
  by_cases both : Matches kind before segments text
  · obtain ⟨marks, same, few, admits⟩ := both.loosen inside
    obtain ⟨other, allows, fails⟩ :=
      breaks marks same (Nat.lt_of_le_of_lt few fewer)
    refine ⟨other, ?_, fun equal => fails (equal.mp (admits other allows))⟩
    intro character member
    obtain ⟨index, bound, rfl⟩ := List.getElem_of_mem member
    exact (allows.get (by rwa [allows.length_eq]) bound).1
  · exact ⟨text, inside, fun equal => both (equal.mpr matched)⟩

end Segment

end Bacs.Foundation
