import Bacs.Common.FnmatchReading

/-!
# Patterns that match as globs

A pattern in whose sets no class is named matches as a shell glob exactly if
its sets are well-formed, and either all its brackets but one are closed and no
character is escaped to an assertion, or it has a set that nothing is in.
-/

namespace Bacs.Common.Fnmatcher

open Foundation

/-- Plain regular expressions are read and matched as documented. -/
structure Follows (regex : Regex) : Prop where
  malformed : ∀ (text : String) atoms,
    readRegex text.toList = some atoms → regexSegments atoms = none →
      regex text = none
  formed : ∀ (text : String) atoms segments,
    readRegex text.toList = some atoms → regexSegments atoms = some segments →
      ∃ regexMatch, regex text = some regexMatch ∧
        ∀ string : String, regexMatch string = true ↔
          Segment.Matches isWord none segments string.toList

/-- The regular expression is well-formed, and matches what the pattern does
as a glob. -/
def Faithful (regex : Regex) (pattern : String) : Prop :=
  (regex (translateToRegex pattern)).isSome = true ∧
    ∀ string : String, (∀ character ∈ string.toList, Printable character) →
      (fnmatch regex pattern string = some true ↔
        GlobMatches pattern.toList string.toList)

/-- A set without printable members. -/
def Void (item : GlobItem) : Prop :=
  ∃ negated body, item = .set negated body ∧ ∀ character,
    Printable character →
      (negated != inRanges (setRanges body) character) = false

/-! ## Items that are kept -/

theorem keptItems_of_count {items : List GlobItem}
    (single : items.count (.char '[') ≤ 1) : keptItems items = items := by
  induction items with
  | nil => rfl
  | cons item rest ih =>
      rw [keptItems]
      split
      case isTrue opens =>
        subst opens
        rw [List.count_cons_self] at single
        have absent : GlobItem.char '[' ∉ rest :=
          List.count_eq_zero.mp (by omega)
        have kept : rest.takeWhile (· ≠ .char '[') = rest := by
          rw [List.takeWhile_eq_self_iff]
          intro other member
          have different : other ≠ .char '[' := by
            rintro rfl
            exact absent member
          simpa using different
        rw [kept]
      case isFalse other =>
        rw [List.count_cons_of_ne (by simpa using other)] at single
        rw [ih single]

theorem count_keptItems (items : List GlobItem) :
    (keptItems items).count (.char '[') ≤ 1 := by
  induction items with
  | nil => exact Nat.zero_le _
  | cons item rest ih =>
      rw [keptItems]
      split
      case isTrue opens =>
        have none :
            (rest.takeWhile (· ≠ .char '[')).count (.char '[') = 0 := by
          rw [List.count_eq_zero]
          intro member
          simpa using of_mem_takeWhile _ member
        rw [opens, List.count_cons_self, none]
      case isFalse other =>
        rw [List.count_cons_of_ne (by simpa using other)]
        exact ih

theorem no_sets {count : Nat} {text : List Char}
    (unclosed : ']' ∉ text.drop 2) (negated : Bool) (body : List Char) :
    .set negated body ∉ readItems count text := by
  induction count, text using readItems_induction with
  | zero => nofun
  | nil => nofun
  | set count rest negated' body' after cut =>
      rw [cutSet_of_unclosed unclosed] at cut
      cases cut
  | opening count rest cut ih =>
      rw [readItems_open cut]
      intro member
      exact ih (unclosed_tail unclosed)
        ((List.mem_cons.mp member).resolve_left nofun)
  | plain count character rest plain ih =>
      rw [readItems_plain plain]
      intro member
      exact ih (unclosed_tail unclosed) ((List.mem_cons.mp member).resolve_left
        (plainItem_ne_set negated body character))

theorem keptItems_set {count : Nat} {text : List Char} {negated : Bool}
    {body : List Char} (member : .set negated body ∈ readItems count text) :
    .set negated body ∈ keptItems (readItems count text) := by
  induction count, text using readItems_induction with
  | zero => cases member
  | nil => cases member
  | set count rest negated' body' after cut ih =>
      rw [readItems_set cut] at member ⊢
      rw [keptItems, if_neg (by simp)]
      rcases List.mem_cons.mp member with same | later
      · rw [same]
        exact List.mem_cons_self
      · exact List.mem_cons_of_mem _ (ih later)
  | opening count rest cut =>
      rw [readItems_open cut] at member
      have later := (List.mem_cons.mp member).resolve_left (by simp)
      exact absurd later (no_sets (unclosed_of_cutSet cut) negated body)
  | plain count character rest plain ih =>
      rw [readItems_plain plain] at member ⊢
      rw [keptItems, if_neg (plainItem_ne plain)]
      apply List.mem_cons_of_mem
      exact ih ((List.mem_cons.mp member).resolve_left
        (plainItem_ne_set negated body character))

theorem plainItem_char {character other : Char}
    (same : .char character = plainItem other) : character = other := by
  revert same
  unfold plainItem
  split
  · nofun
  · nofun
  · exact fun same => GlobItem.char.inj same

theorem char_mem {count : Nat} {text : List Char} {character : Char}
    (member : .char character ∈ readItems count text) : character ∈ text := by
  induction count, text using readItems_induction with
  | zero => cases member
  | nil => cases member
  | set count rest negated body after cut ih =>
      rw [readItems_set cut] at member
      have later := ih ((List.mem_cons.mp member).resolve_left nofun)
      obtain ⟨_, _, _, _, whole, _⟩ := cutSet_some cut
      rw [whole]
      simp [later]
  | opening count rest cut ih =>
      rw [readItems_open cut] at member
      rcases List.mem_cons.mp member with same | later
      · rw [GlobItem.char.inj same]
        exact List.mem_cons_self
      · exact List.mem_cons_of_mem _ (ih later)
  | plain count other rest plain ih =>
      rw [readItems_plain plain] at member
      rcases List.mem_cons.mp member with same | later
      · rw [plainItem_char same]
        exact List.mem_cons_self
      · exact List.mem_cons_of_mem _ (ih later)

/-! ## Patterns as globs -/

/-- Without void sets every piece has a printable character. -/
theorem inhabited_of_not_void {pattern : List Char} {items : List GlobItem}
    (printable : ∀ character ∈ pattern, Printable character)
    (among : ∀ item ∈ items, item ∈ globItems pattern)
    (filled : ∀ item ∈ globItems pattern, ¬ Void item) :
    Piece.Inhabited Printable (items.map GlobItem.piece) := by
  intro accepts member
  obtain ⟨item, inside, same⟩ := List.mem_map.mp member
  have present := among item inside
  cases item with
  | many => cases same
  | any =>
      cases same
      exact ⟨' ', by decide, rfl⟩
  | char character =>
      cases same
      exact ⟨character, printable character (char_mem present), by simp⟩
  | set negated body =>
      cases same
      by_contra none
      refine filled _ present ⟨negated, body, rfl, ?_⟩
      intro character isPrintable
      by_contra accepted
      exact none ⟨character, isPrintable, by simpa using accepted⟩

/-- An item tells printable characters of one kind apart. -/
def Telling (item : GlobItem) : Prop :=
  Segment.Splits isWord Printable (.piece item.piece)

theorem telling_of_itemSegment {item : GlobItem}
    (splits : Segment.Splits isWord Printable (itemSegment item)) :
    Telling item := by
  cases item with
  | many => exact splits
  | any => exact splits
  | set negated body => exact splits
  | char character =>
      rw [itemSegment] at splits
      cases escaped : escapedAssertion character with
      | some assertion =>
          rw [escaped] at splits
          exact splits.elim
      | none =>
          rw [escaped] at splits
          exact splits

theorem telling_char {character : Char} (printable : Printable character)
    (noWord : isWord character = false) (different : ' ' ≠ character) :
    Telling (.char character) :=
  ⟨character, ' ', printable, by decide, noWord, beq_self_eq_true character,
    beq_false_of_ne different⟩

theorem telling_of_assertion {character : Char} {assertion : Assertion}
    (escaped : escapedAssertion character = some assertion) :
    Telling (.char character) ∧
      ¬ Segment.Splits isWord Printable (itemSegment (.char character)) := by
  constructor
  · unfold escapedAssertion at escaped
    split at escaped
    case h_5 => cases escaped
    all_goals exact telling_char (by decide) rfl (by decide)
  · rw [itemSegment, escaped]
    exact id

/-- Brackets that are not kept and assertions leave less to be told apart. -/
theorem splitting_lt (items : List GlobItem)
    (loses : 1 < items.count (.char '[') ∨
      ∃ character, .char character ∈ items ∧
        (escapedAssertion character).isSome = true) :
    Segment.splitting isWord Printable ((keptItems items).map itemSegment) <
      Segment.splitting isWord Printable
        ((items.map GlobItem.piece).map Segment.piece) := by
  rw [List.map_map]
  have weaker : ∀ item, Segment.Splits isWord Printable (itemSegment item) →
      Segment.Splits isWord Printable ((Segment.piece ∘ GlobItem.piece) item) :=
    fun item => telling_of_itemSegment
  rcases loses with several | ⟨character, member, escapes⟩
  · have telling : Telling (.char '[') :=
      telling_char (by decide) rfl (by decide)
    apply Segment.splitting_map_lt (keptItems_sublist items) weaker telling
    left
    exact Nat.lt_of_le_of_lt (count_keptItems items) several
  · obtain ⟨assertion, escaped⟩ := Option.isSome_iff_exists.mp escapes
    obtain ⟨telling, silent⟩ := telling_of_assertion escaped
    apply Segment.splitting_map_lt (keptItems_sublist items) weaker telling
    by_cases kept : .char character ∈ keptItems items
    · exact .inr ⟨kept, silent⟩
    · left
      rw [List.count_eq_zero_of_not_mem kept]
      exact List.count_pos_iff.mpr member

/-- Nothing is lost where all brackets but one are closed and no character is
escaped to an assertion. -/
theorem kept_segments {items : List GlobItem}
    (single : items.count (.char '[') ≤ 1)
    (plain : ∀ character, .char character ∈ items →
      escapedAssertion character = none) :
    (keptItems items).map itemSegment =
      (items.map GlobItem.piece).map Segment.piece := by
  rw [keptItems_of_count single, List.map_map]
  apply List.map_congr_left
  intro item member
  cases item with
  | many => rfl
  | any => rfl
  | set negated body => rfl
  | char character =>
      rw [itemSegment, plain character member]
      rfl

theorem not_matches_of_void {segments : List (Segment Char)} {item : GlobItem}
    (member : .piece item.piece ∈ segments) (void : Void item)
    {before : Option Bool} {text : List Char}
    (printable : ∀ character ∈ text, Printable character) :
    ¬ Segment.Matches isWord before segments text := by
  intro matched
  obtain ⟨negated, body, rfl, refuses⟩ := void
  obtain ⟨character, inside, accepted⟩ := matched.accepted _ member
  rw [refuses character (printable character inside)] at accepted
  cases accepted

theorem matches_iff {pattern : List Char}
    (printable : ∀ character ∈ pattern, Printable character) :
    (∀ text : List Char, (∀ character ∈ text, Printable character) →
      (Segment.Matches isWord none
          ((keptItems (globItems pattern)).map itemSegment) text ↔
        GlobMatches pattern text)) ↔
      ((globItems pattern).count (.char '[') ≤ 1 ∧
        ∀ character, .char character ∈ globItems pattern →
          escapedAssertion character = none) ∨
        ∃ item ∈ globItems pattern, Void item := by
  constructor
  · intro same
    by_contra neither
    rw [not_or, not_exists] at neither
    obtain ⟨loses, filled⟩ := neither
    have inhabited := inhabited_of_not_void printable (fun _ => id)
      fun item member void => filled item ⟨member, void⟩
    have fewer := splitting_lt (globItems pattern) (by
      by_contra none
      rw [not_or, not_lt, not_exists] at none
      refine loses ⟨none.1, fun character member => ?_⟩
      rw [← Option.not_isSome_iff_eq_none]
      exact fun escapes => none.2 character ⟨member, escapes⟩)
    obtain ⟨text, inside, differs⟩ :=
      Segment.exists_difference inhabited fewer none
    exact differs (same text inside)
  · rintro (⟨single, plain⟩ | ⟨item, member, void⟩) text inside
    · rw [kept_segments single plain]
      exact Segment.matches_pieces isWord none
    · obtain ⟨negated, body, rfl, _⟩ := id void
      refine iff_of_false (not_matches_of_void ?_ void inside) ?_
      · exact List.mem_map_of_mem (keptItems_set member)
      · rw [GlobMatches, ← Segment.matches_pieces isWord none]
        refine not_matches_of_void ?_ void inside
        exact List.mem_map_of_mem (List.mem_map_of_mem member)

theorem all_hyphenated (pattern : List Char) :
    (keptItems (globItems pattern)).all Hyphenated = true ↔
      ∀ item ∈ globItems pattern, Hyphenated item = true := by
  rw [List.all_eq_true]
  constructor
  · intro kept item member
    cases item with
    | set negated body => exact kept _ (keptItems_set member)
    | _ => rfl
  · exact fun all item member => all item (keptItems_subset member)

/-- A pattern in whose sets no class is named is faithful exactly if its sets
are well-formed, and either all its brackets but one are closed and no
character is escaped to an assertion, or it has a set that nothing is in. -/
theorem faithful_iff {regex : Regex} (follows : Follows regex)
    {pattern : String}
    (printable : ∀ character ∈ pattern.toList, Printable character)
    (ordered : RangesOrdered pattern.toList)
    (unnamed : ∀ negated body, .set negated body ∈ globItems pattern.toList →
      Unnamed body = true) :
    Faithful regex pattern ↔
      (∀ item ∈ globItems pattern.toList, Hyphenated item = true) ∧
        ((globItems pattern.toList).count (.char '[') ≤ 1 ∧
            (∀ character, .char character ∈ globItems pattern.toList →
              escapedAssertion character = none) ∨
          ∃ item ∈ globItems pattern.toList, Void item) := by
  have reading := readRegex_translate unnamed
  have segments := regexSegments_items (keptItems (globItems pattern.toList))
    fun negated body member =>
      ordered negated body (keptItems_subset member)
  rw [← all_hyphenated, ← matches_iff printable]
  by_cases hyphenated :
      (keptItems (globItems pattern.toList)).all Hyphenated = true
  · rw [if_pos hyphenated] at segments
    obtain ⟨regexMatch, compiled, matchesSegments⟩ :=
      follows.formed _ _ _ reading segments
    have isMatch : ∀ string : String,
        fnmatch regex pattern string = some true ↔
          Segment.Matches isWord none
            ((keptItems (globItems pattern.toList)).map itemSegment)
            string.toList := by
      intro string
      rw [fnmatch, compiled, Option.map_some, Option.some.injEq]
      exact matchesSegments string
    constructor
    · rintro ⟨_, faithful⟩
      refine ⟨hyphenated, fun text inside => ?_⟩
      have same := faithful (String.ofList text)
      rw [isMatch, String.toList_ofList] at same
      exact same inside
    · rintro ⟨_, same⟩
      refine ⟨by rw [compiled]; rfl, fun string inside => ?_⟩
      rw [isMatch]
      exact same _ inside
  · rw [if_neg hyphenated] at segments
    refine iff_of_false ?_ fun both => hyphenated both.1
    rintro ⟨formed, _⟩
    rw [follows.malformed _ _ reading segments] at formed
    cases formed

def plainRegex : Regex := fun text =>
  match readRegex text.toList with
  | none => none
  | some atoms =>
      (regexSegments atoms).map fun segments string =>
        Segment.test isWord none segments string.toList

theorem plainRegex_follows : Follows plainRegex where
  malformed := by
    intro text atoms reading bad
    simp only [plainRegex, reading, bad, Option.map_none]
  formed := by
    intro text atoms segments reading good
    refine ⟨fun string => Segment.test isWord none segments string.toList, ?_,
      fun string => Segment.test_iff⟩
    simp only [plainRegex, reading, good, Option.map_some]

/-- A negated range, wildcards and a bracket that is not closed. -/
theorem faithful_negated : Faithful plainRegex "[!a-c]?*[" := by
  have items : globItems "[!a-c]?*[".toList =
      [.set true ['a', '-', 'c'], .any, .many, .char '['] := by decide
  refine (faithful_iff plainRegex_follows (by decide) ?_ ?_).mpr ?_
  · intro negated body member
    simp only [items, List.mem_cons] at member
    rcases member with same | same | same | same | same <;> cases same
    decide
  · intro negated body member
    simp only [items, List.mem_cons] at member
    rcases member with same | same | same | same | same <;> cases same
    decide
  · rw [items]
    refine ⟨by decide, .inl ⟨by decide, ?_⟩⟩
    intro character member
    simp only [List.mem_cons] at member
    rcases member with same | same | same | same | same <;> cases same
    decide

/-- The second bracket that is not closed is dropped together with what
follows it. -/
theorem not_faithful_brackets : Follows plainRegex ∧
    (∀ character ∈ "[a[b".toList, Printable character) ∧
    RangesOrdered "[a[b".toList ∧ ¬ Faithful plainRegex "[a[b" := by
  have items : globItems "[a[b".toList =
      [.char '[', .char 'a', .char '[', .char 'b'] := by decide
  refine ⟨plainRegex_follows, by decide, ?_, ?_⟩
  · intro negated body member
    simp only [items, List.mem_cons] at member
    rcases member with same | same | same | same | same <;> cases same
  · rintro ⟨_, faithful⟩
    have matched : GlobMatches "[a[b".toList "[a".toList :=
      (faithful "[a" (by decide)).mp (by decide)
    revert matched
    decide

end Bacs.Common.Fnmatcher
