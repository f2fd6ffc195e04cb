import Bacs.Common.FnmatchTranslation

/-!
# Reading what a pattern is translated to

Items are read back one by one where no set has the name of a class.  Some of
them are not what they were, as escapes may be assertions, and sets may be
malformed.
-/

namespace Bacs.Common.Fnmatcher

open Foundation

/-- No character of a set begins the name of a class. -/
def Unnamed : List Char → Bool
  | [] => true
  | character :: rest =>
      (character != '[' || rest.head?.all (· ∉ [':', '.', '='])) &&
        Unnamed rest

/-- A hyphen comes first or last or between the ends of a range.  As the end
of a range it is in the first or last one, and none follows a range but at the
end. -/
def Separated (first : Bool) : List Char → Bool
  | [] => true
  | [_] => true
  | start :: hyphen :: [] =>
      (start != '-' || first) && Separated false [hyphen]
  | start :: hyphen :: last :: rest =>
      (start != '-' || first) &&
        if hyphen = '-' then
          (last != '-' || first || rest.isEmpty) && Separated false rest
        else Separated false (hyphen :: last :: rest)

/-! ## Ranges -/

theorem setRanges_of_ne {start hyphen : Char} (different : hyphen ≠ '-')
    (rest : List Char) :
    setRanges (start :: hyphen :: rest) =
      (start, start) :: setRanges (hyphen :: rest) := by
  rw [setRanges]
  rintro last others ⟨rfl, _⟩
  exact different rfl

theorem setRanges_pair (start last : Char) :
    setRanges [start, last] = [(start, start), (last, last)] := by
  rw [setRanges]
  · rfl
  · nofun

def BareHyphens (elements : List (Char × Bool)) : Prop :=
  ∀ element ∈ elements, isHyphen element = (element.1 == '-')

theorem elementRanges_eq {first : Bool} {elements : List (Char × Bool)}
    (bare : BareHyphens elements)
    (separated : Separated first (elements.map Prod.fst) = true)
    (ordered : ∀ range ∈ setRanges (elements.map Prod.fst),
      range.1 ≤ range.2) :
    elementRanges first elements = some (setRanges (elements.map Prod.fst)) := by
  fun_induction elementRanges first elements with
  | case1 => rfl
  | case2 => rfl
  | case3 first start hyphen bad =>
      have isBare := bare start (by simp)
      simp_all [Separated]
  | case4 first start hyphen good ih =>
      have last : BareHyphens [hyphen] := fun element member =>
        bare element (List.mem_cons_of_mem _ member)
      have pair : setRanges ([start, hyphen].map Prod.fst) =
          [(start.1, start.1), (hyphen.1, hyphen.1)] := setRanges_pair _ _
      rw [ih last rfl (by simp [setRanges]), pair]
      rfl
  | case5 first start hyphen last rest bad =>
      have isBare := bare start (by simp)
      simp_all [Separated]
  | case6 first start hyphen last rest good isHyphen bad =>
      have startBare := bare start (by simp)
      have hyphenBare := bare hyphen (by simp)
      have lastBare := bare last (by simp)
      simp_all [Separated]
  | case7 first start hyphen last rest good isHyphen good' below ih =>
      have hyphenBare := bare hyphen (by simp)
      have others : BareHyphens rest := fun element member =>
        bare element (by simp [member])
      rw [isHyphen] at hyphenBare
      have same : hyphen.1 = '-' := by simpa using hyphenBare.symm
      simp only [List.map_cons, same, setRanges, Separated, if_true,
        Bool.and_eq_true, List.forall_mem_cons] at separated ordered ⊢
      rw [ih others separated.2.2 ordered.2]
      rfl
  | case8 first start hyphen last rest good isHyphen good' above =>
      have hyphenBare := bare hyphen (by simp)
      rw [isHyphen] at hyphenBare
      have same : hyphen.1 = '-' := by simpa using hyphenBare.symm
      simp only [List.map_cons, same, setRanges, List.forall_mem_cons]
        at ordered
      exact absurd ordered.1 above
  | case9 first start hyphen last rest good notHyphen ih =>
      have hyphenBare := bare hyphen (by simp)
      have others : BareHyphens (hyphen :: last :: rest) :=
        fun element member => bare element (List.mem_cons_of_mem _ member)
      have different : hyphen.1 ≠ '-' := by
        simpa [notHyphen] using hyphenBare.symm
      simp only [List.map_cons, setRanges_of_ne different, Separated,
        if_neg different, Bool.and_eq_true, List.forall_mem_cons]
        at separated ordered ih ⊢
      rw [ih others separated.2 ordered.2]
      rfl

theorem separated_of_elementRanges {first : Bool}
    {elements : List (Char × Bool)} (bare : BareHyphens elements)
    (formed : (elementRanges first elements).isSome = true) :
    Separated first (elements.map Prod.fst) = true := by
  fun_induction elementRanges first elements with
  | case1 => rfl
  | case2 => rfl
  | case3 => cases formed
  | case4 first start hyphen good ih =>
      have isBare := bare start (by simp)
      cases first <;> simp_all [Separated]
  | case5 => cases formed
  | case6 => cases formed
  | case7 first start hyphen last rest good isHyphen good' below ih =>
      have startBare := bare start (by simp)
      have hyphenBare := bare hyphen (by simp)
      have lastBare := bare last (by simp)
      have others : BareHyphens rest := fun element member =>
        bare element (by simp [member])
      rw [Option.isSome_map] at formed
      have later := ih others formed
      cases first <;> simp_all [Separated, imp_iff_not_or]
  | case8 => cases formed
  | case9 first start hyphen last rest good notHyphen ih =>
      have startBare := bare start (by simp)
      have hyphenBare := bare hyphen (by simp)
      have others : BareHyphens (hyphen :: last :: rest) :=
        fun element member => bare element (List.mem_cons_of_mem _ member)
      rw [Option.isSome_map] at formed
      have later := ih others formed
      cases first <;> simp_all [Separated]

/-! ## Sets -/

theorem escapeRest_head (character : Char) (text : List Char) :
    (escapeRest character ++ text).head? = some character := by
  unfold escapeRest
  split
  case isTrue same => rw [same]; rfl
  case isFalse => rfl

theorem cutElements_escapeRest {first : Bool} {character : Char}
    {text : List Char} (open' : character = ']' → first = true)
    (unnamed : character = '[' →
      text.head?.any (· ∈ [':', '.', '=']) = false) :
    cutElements first (escapeRest character ++ text) =
      (cutElements false text).map fun (elements, rest) =>
        ((character, character == '\\') :: elements, rest) := by
  by_cases escape : character = '\\'
  · subst escape
    rfl
  · have plain : (character == '\\') = false := by simpa using escape
    rw [escapeRest, if_neg escape, List.singleton_append, plain]
    by_cases closing : character = ']'
    · subst closing
      rw [cutElements, open' rfl]
      rfl
    · by_cases opening : character = '['
      · subst opening
        rw [cutElements, unnamed rfl]
        rfl
      · rw [cutElements] <;> intros <;> first | rfl | simp_all

theorem flatMap_escapeRest_head (others rest : List Char) :
    (others.flatMap escapeRest ++ ']' :: rest).head? =
      some (others.head?.getD ']') := by
  cases others with
  | nil => rfl
  | cons character others =>
      rw [List.flatMap_cons, List.append_assoc, escapeRest_head]
      rfl

theorem unnamed_head {character : Char} {others : List Char}
    (unnamed : Unnamed (character :: others) = true) (rest : List Char)
    (opening : character = '[') :
    (others.flatMap escapeRest ++ ']' :: rest).head?.any
      (· ∈ [':', '.', '=']) = false := by
  rw [flatMap_escapeRest_head]
  subst opening
  cases others with
  | nil => rfl
  | cons next others =>
      rw [Unnamed, Bool.and_eq_true] at unnamed
      simpa using unnamed.1

theorem cutElements_rest {others : List Char} (closed : ']' ∉ others)
    (unnamed : Unnamed others = true) (rest : List Char) :
    cutElements false (others.flatMap escapeRest ++ ']' :: rest) =
      some (others.map fun character => (character, character == '\\'),
        rest) := by
  induction others with
  | nil => rfl
  | cons character others ih =>
      obtain ⟨different, later⟩ := not_or.mp (mt List.mem_cons.mpr closed)
      have unnamed' : Unnamed others = true := by
        rw [Unnamed, Bool.and_eq_true] at unnamed
        exact unnamed.2
      rw [List.flatMap_cons, List.append_assoc,
        cutElements_escapeRest (fun same => absurd same.symm different)
          (unnamed_head unnamed rest), ih later unnamed']
      rfl

/-- The first element of a set is escaped if it would mean something else. -/
theorem cutElements_escapeFirst {character : Char} {text : List Char}
    (unmarked : character ≠ '!')
    (unnamed : character = '[' →
      text.head?.any (· ∈ [':', '.', '=']) = false) :
    cutElements true (escapeFirst character ++ text) =
      (cutElements false text).map fun (elements, rest) =>
        ((character, character == '\\' || character == '^') :: elements,
          rest) := by
  by_cases caret : character = '^'
  · subst caret
    rfl
  · have same : escapeFirst character = escapeRest character := by
      unfold escapeFirst escapeRest
      split <;> simp_all
    have plain : (character == '^') = false := by simpa using caret
    rw [same, cutElements_escapeRest (fun _ => rfl) unnamed, plain,
      Bool.or_false]

/-- What a set is read as: a character is escaped if it would mean something
else. -/
def setElements (negated : Bool) : List Char → List (Char × Bool)
  | [] => []
  | first :: others =>
      (first, first == '\\' || !negated && first == '^') ::
        others.map fun character => (character, character == '\\')

theorem setElements_fst (negated : Bool) (body : List Char) :
    (setElements negated body).map Prod.fst = body := by
  cases body with
  | nil => rfl
  | cons first others => simp [setElements, Function.comp_def]

theorem setElements_bare (negated : Bool) (body : List Char) :
    BareHyphens (setElements negated body) := by
  have plain : ∀ (character : Char) (mark : Bool),
      (character = '-' → mark = false) →
        isHyphen (character, mark) = (character == '-') := by
    intro character mark bare
    by_cases hyphen : character = '-'
    · rw [bare hyphen, hyphen]
      rfl
    · simp [isHyphen, hyphen]
  cases body with
  | nil => nofun
  | cons first others =>
      intro element member
      rcases List.mem_cons.mp member with rfl | later
      · apply plain
        rintro rfl
        cases negated <;> rfl
      · obtain ⟨character, _, rfl⟩ := List.mem_map.mp later
        apply plain
        rintro rfl
        rfl

/-- The elements of a set have the ranges of its characters. -/
theorem setElements_ranges (negated : Bool) {body : List Char}
    (ordered : ∀ range ∈ setRanges body, range.1 ≤ range.2) :
    elementRanges true (setElements negated body) =
      if Separated true body then some (setRanges body) else none := by
  have bare := setElements_bare negated body
  have same := setElements_fst negated body
  split
  case isTrue separated =>
    rw [← same] at separated ordered
    rw [elementRanges_eq bare separated ordered, same]
  case isFalse separated =>
    rw [← Option.not_isSome_iff_eq_none]
    intro formed
    apply separated
    rw [← same]
    exact separated_of_elementRanges bare formed

/-- A set has a first member and is closed where a closing bracket comes
later. -/
def Closed (negated : Bool) (body : List Char) : Prop :=
  ∃ first others, body = first :: others ∧ ']' ∉ others ∧
    (negated = false → first ≠ '!')

theorem cutBracket_emit {negated : Bool} {body : List Char}
    (closed : Closed negated body) (unnamed : Unnamed body = true)
    (rest : List Char) :
    ∃ text, emitItem (.set negated body) = '[' :: text ∧
      cutBracket (text ++ rest) =
        some (⟨negated, setElements negated body⟩, rest) := by
  obtain ⟨first, others, rfl, unclosed, unmarked⟩ := closed
  have unnamed' : Unnamed others = true := by
    rw [Unnamed, Bool.and_eq_true] at unnamed
    exact unnamed.2
  have head := unnamed_head unnamed rest
  have tail := cutElements_rest unclosed unnamed' rest
  cases negated with
  | true =>
      have cut := cutElements_escapeRest (fun _ => rfl) head
      rw [tail] at cut
      refine ⟨'^' :: ((first :: others).flatMap escapeRest ++ [']']), rfl, ?_⟩
      have whole : '^' :: ((first :: others).flatMap escapeRest ++ [']']) ++
          rest = '^' :: (escapeRest first ++
            (others.flatMap escapeRest ++ ']' :: rest)) := by simp
      rw [whole, cutBracket]
      simp only [cut, Option.map_some, setElements, Bool.not_true,
        Bool.false_and, Bool.or_false]
  | false =>
      have cut := cutElements_escapeFirst (unmarked rfl) head
      rw [tail] at cut
      refine ⟨escapeFirst first ++ others.flatMap escapeRest ++ [']'], rfl, ?_⟩
      have whole : escapeFirst first ++ others.flatMap escapeRest ++ [']'] ++
          rest = escapeFirst first ++
            (others.flatMap escapeRest ++ ']' :: rest) := by simp
      have bare : ∀ text,
          escapeFirst first ++ (others.flatMap escapeRest ++ ']' :: rest) ≠
            '^' :: text := by
        intro text
        unfold escapeFirst
        split <;> simp_all
      rw [whole, cutBracket]
      · simp only [cut, Option.map_some, setElements, Bool.not_false,
          Bool.true_and]
      · exact bare

/-! ## Items -/

theorem closed_of_mem {count : Nat} {text : List Char} {negated : Bool}
    {body : List Char} (member : .set negated body ∈ readItems count text) :
    Closed negated body := by
  induction count, text using readItems_induction with
  | zero => cases member
  | nil => cases member
  | set count rest negated' body' after cut ih =>
      rw [readItems_set cut] at member
      rcases List.mem_cons.mp member with same | later
      · cases same
        obtain ⟨first, others, whole, unclosed, _, unmarked⟩ :=
          cutSet_some cut
        exact ⟨first, others, whole, unclosed, unmarked⟩
      · exact ih later
  | opening count rest cut ih =>
      rw [readItems_open cut] at member
      exact ih ((List.mem_cons.mp member).resolve_left nofun)
  | plain count character rest plain ih =>
      rw [readItems_plain plain] at member
      exact ih ((List.mem_cons.mp member).resolve_left
        (plainItem_ne_set negated body character))

def itemAtom : GlobItem → Atom
  | .many => .anyMany
  | .any => .any
  | .char character =>
      match escapedAssertion character with
      | some assertion => .assertion assertion
      | none => .char character
  | .set negated body => .bracket ⟨negated, setElements negated body⟩

/-- An item that can be read back. -/
def Readable (item : GlobItem) : Prop :=
  ∀ negated body, item = .set negated body →
    Closed negated body ∧ Unnamed body = true

theorem escapedAssertion_letter {character : Char}
    (letter : character.isAlphanum = true) :
    escapedAssertion character = none := by
  unfold escapedAssertion
  split <;> simp_all

theorem readEscape_eq {character : Char}
    (letter : ¬ character.isAlphanum = true) :
    readEscape character = some (itemAtom (.char character)) := by
  rw [readEscape, itemAtom, if_neg letter]
  cases escapedAssertion character <;> rfl

theorem emitItem_head (item : GlobItem) :
    ∃ character text, emitItem item = character :: text ∧
      character ≠ '*' := by
  cases item with
  | many => exact ⟨'.', _, rfl, by decide⟩
  | any => exact ⟨'.', _, rfl, by decide⟩
  | set negated body => exact ⟨'[', _, rfl, by decide⟩
  | char character =>
      rw [emitItem]
      split
      case isTrue letter =>
        refine ⟨character, _, rfl, ?_⟩
        rintro rfl
        revert letter
        decide
      case isFalse => exact ⟨'\\', _, rfl, by decide⟩

theorem emit_head (items : List GlobItem) :
    (items.flatMap emitItem).head? ≠ some '*' := by
  cases items with
  | nil => nofun
  | cons item items =>
      obtain ⟨character, text, starts, different⟩ := emitItem_head item
      rw [List.flatMap_cons, starts]
      simpa using different

theorem readAtoms_item {item : GlobItem} (readable : Readable item)
    (count : Nat) {rest : List Char} (plain : rest.head? ≠ some '*') :
    readAtoms (count + 1) (emitItem item ++ rest) =
      (readAtoms count rest).map (itemAtom item :: ·) := by
  cases item with
  | many => rfl
  | any =>
      rw [emitItem, List.singleton_append, readAtoms]
      · rfl
      · rintro others rfl
        exact plain rfl
  | set negated body =>
      obtain ⟨closed, unnamed⟩ := readable negated body rfl
      obtain ⟨text, starts, cut⟩ := cutBracket_emit closed unnamed rest
      rw [starts, List.cons_append, readAtoms, cut]
      rfl
  | char character =>
      by_cases letter : character.isAlphanum = true
      · rw [emitItem, if_pos letter, List.singleton_append, readAtoms,
          if_pos letter, itemAtom, escapedAssertion_letter letter]
        all_goals
          intros
          subst_vars
          revert letter
          decide
      · rw [emitItem, if_neg letter, List.cons_append, List.singleton_append,
          readAtoms, readEscape_eq letter]

theorem readAtoms_emit {count : Nat} {items : List GlobItem}
    (bound : (items.flatMap emitItem).length ≤ count)
    (readable : ∀ item ∈ items, Readable item) :
    readAtoms count (items.flatMap emitItem) = some (items.map itemAtom) := by
  induction items generalizing count with
  | nil =>
      rw [List.flatMap_nil, readAtoms]
      rfl
  | cons item items ih =>
      rw [List.flatMap_cons, List.length_append] at bound
      have filled : 0 < (emitItem item).length := by
        obtain ⟨character, text, starts, _⟩ := emitItem_head item
        rw [starts]
        exact Nat.succ_pos _
      cases count with
      | zero => omega
      | succ count =>
          have later : readAtoms count (items.flatMap emitItem) =
              some (items.map itemAtom) :=
            ih (by omega) fun other member => readable other (by simp [member])
          rw [List.flatMap_cons, readAtoms_item (readable item (by simp))
            count (emit_head items), later]
          rfl

theorem keptItems_sublist (items : List GlobItem) :
    (keptItems items).Sublist items := by
  induction items with
  | nil => exact .slnil
  | cons item rest ih =>
      rw [keptItems]
      split
      case isTrue => exact (List.takeWhile_sublist _).cons_cons _
      case isFalse => exact ih.cons_cons _

theorem keptItems_subset {items : List GlobItem} {item : GlobItem}
    (member : item ∈ keptItems items) : item ∈ items :=
  (keptItems_sublist items).subset member

/-- What a pattern is translated to is read as the items that are kept. -/
theorem readRegex_translate {pattern : String}
    (unnamed : ∀ negated body, .set negated body ∈ globItems pattern.toList →
      Unnamed body = true) :
    readRegex (translateToRegex pattern).toList =
      some ((keptItems (globItems pattern.toList)).map itemAtom) := by
  have readable : ∀ item ∈ keptItems (globItems pattern.toList),
      Readable item := by
    rintro item member negated body rfl
    have present := keptItems_subset member
    exact ⟨closed_of_mem present, unnamed negated body present⟩
  rw [translateToRegex_eq, String.toList_ofList, readRegex,
    readAtoms_emit (Nat.le_refl _) readable]

/-! ## What is matched -/

def itemSegment : GlobItem → Segment Char
  | .char character =>
      match escapedAssertion character with
      | some assertion => .look assertion.holds
      | none => .piece (GlobItem.char character).piece
  | item => .piece item.piece

/-- Hyphens are where they are allowed. -/
def Hyphenated : GlobItem → Bool
  | .set _ body => Separated true body
  | _ => true

theorem itemAtom_segment (item : GlobItem)
    (ordered : ∀ negated body, item = .set negated body →
      ∀ range ∈ setRanges body, range.1 ≤ range.2) :
    (itemAtom item).segment =
      if Hyphenated item then some (itemSegment item) else none := by
  cases item with
  | many => rfl
  | any => rfl
  | char character =>
      rw [itemAtom, itemSegment]
      cases escapedAssertion character <;> rfl
  | set negated body =>
      rw [itemAtom, Atom.segment, setElements_ranges negated
        (ordered negated body rfl), Hyphenated]
      split <;> rfl

theorem regexSegments_items (items : List GlobItem)
    (ordered : ∀ negated body, .set negated body ∈ items →
      ∀ range ∈ setRanges body, range.1 ≤ range.2) :
    regexSegments (items.map itemAtom) =
      if items.all Hyphenated then some (items.map itemSegment) else none := by
  induction items with
  | nil => rfl
  | cons item items ih =>
      have later := ih fun negated body member =>
        ordered negated body (List.mem_cons_of_mem _ member)
      have here := itemAtom_segment item fun negated body same =>
        ordered negated body (by simp [same])
      rw [List.map_cons, regexSegments, here, later, List.all_cons]
      cases Hyphenated item <;> cases items.all Hyphenated <;> rfl

end Bacs.Common.Fnmatcher
