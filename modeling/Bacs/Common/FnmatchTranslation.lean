import Bacs.Common.Fnmatch
import Bacs.Common.Glob

/-!
# What a pattern is translated to

The translator commits the items of a pattern one after the other.  Where a
bracket is not closed it goes on as far as the next one only.
-/

namespace Bacs.Common.Fnmatcher

open Foundation

def bang (negated : Bool) : List Char :=
  if negated then ['!'] else []

def emitItem : GlobItem → List Char
  | .many => ['.', '*']
  | .any => ['.']
  | .char character =>
      if character.isAlphanum then [character] else ['\\', character]
  | .set negated body => commitChoice (bang negated ++ body)

/-- After the first bracket that is not closed, nothing is kept from the next
one on. -/
def keptItems : List GlobItem → List GlobItem
  | [] => []
  | item :: rest =>
      if item = .char '[' then
        item :: rest.takeWhile (· ≠ .char '[')
      else item :: keptItems rest

/-! ## Sets -/

theorem withoutBang_eq (text : List Char) :
    text = bang (text.head? == some '!') ++ withoutBang text := by
  unfold withoutBang
  split
  case h_1 => rfl
  case h_2 other =>
    cases text with
    | nil => rfl
    | cons character text =>
        have different : character ≠ '!' := by
          rintro rfl
          exact other text rfl
        simp [bang, different]

theorem cutSet_some {text body after : List Char} {negated : Bool}
    (cut : cutSet text = some (negated, body, after)) :
    ∃ first others, body = first :: others ∧ ']' ∉ others ∧
      text = bang negated ++ (first :: others ++ ']' :: after) ∧
      (negated = false → first ≠ '!') := by
  have marked := withoutBang_eq text
  unfold cutSet at cut
  split at cut
  case h_1 => cases cut
  case h_2 first rest found =>
    split at cut
    case h_1 => cases cut
    case h_2 closing after' closed =>
      cases cut
      have whole : rest.takeWhile (· != ']') ++
          rest.dropWhile (· != ']') = rest :=
        List.takeWhile_append_dropWhile
      have closes : closing = ']' := by
        have stops : (closing != ']') = false := by
          apply not_of_head_dropWhile closing
          rw [closed]
          rfl
        simpa using stops
      rw [closed, closes] at whole
      refine ⟨first, _, rfl, ?_, ?_, ?_⟩
      · intro member
        simpa using of_mem_takeWhile _ member
      · rw [List.cons_append, whole, ← found]
        exact marked
      · rintro unmarked rfl
        rw [found, unmarked] at marked
        rw [marked] at unmarked
        simp [bang] at unmarked

/-- A set that is not closed has no closing bracket but in its first place. -/
theorem cutSet_none {text : List Char} :
    cutSet text = none ↔ ']' ∉ (withoutBang text).drop 1 := by
  unfold cutSet
  split
  case h_1 found => simp [found]
  case h_2 first rest found =>
    rw [found, List.drop_succ_cons, List.drop_zero]
    split
    case h_1 unclosed =>
      refine iff_of_true rfl fun member => ?_
      simpa using List.dropWhile_eq_nil_iff.mp unclosed ']' member
    case h_2 closing after closed =>
      refine iff_of_false nofun fun absent => ?_
      have none : rest.dropWhile (· != ']') = [] := by
        rw [List.dropWhile_eq_nil_iff]
        intro character member
        have different : character ≠ ']' := by
          rintro rfl
          exact absent member
        simpa using different
      rw [none] at closed
      cases closed

/-! ## Collecting a set -/

section Collect

variable (result choice : List Char)

theorem collect_any {others : List Char} (unclosed : ']' ∉ others) :
    others.foldl step ⟨result, choice, .inChoiceAny⟩ =
      ⟨result, choice ++ others, .inChoiceAny⟩ := by
  induction others generalizing choice with
  | nil => rw [List.foldl_nil, List.append_nil]
  | cons character others ih =>
      obtain ⟨different, later⟩ := not_or.mp (mt List.mem_cons.mpr unclosed)
      have taken : step ⟨result, choice, .inChoiceAny⟩ character =
          ⟨result, choice ++ [character], .inChoiceAny⟩ :=
        if_neg (Ne.symm different)
      rw [List.foldl_cons, taken, ih _ later, List.append_assoc]
      rfl

theorem collect_body {others : List Char} {first : Char} {negated : Bool}
    (unmarked : negated = false → first ≠ '!') (unclosed : ']' ∉ others) :
    (bang negated ++ (first :: others)).foldl step
        ⟨result, [], .inChoiceFirst⟩ =
      ⟨result, bang negated ++ (first :: others), .inChoiceAny⟩ := by
  cases negated with
  | true =>
      simp only [bang, if_true, List.cons_append, List.nil_append,
        List.foldl_cons, step]
      exact collect_any result ['!', first] unclosed
  | false =>
      simp only [bang, Bool.false_eq_true, if_false, List.nil_append,
        List.foldl_cons, step, if_neg (unmarked rfl)]
      exact collect_any result [first] unclosed

theorem collect_closed {text body after : List Char} {negated : Bool}
    (cut : cutSet text = some (negated, body, after)) :
    text.foldl step ⟨result, [], .inChoiceFirst⟩ =
      after.foldl step ⟨result ++ emitItem (.set negated body),
        bang negated ++ body, .text⟩ := by
  obtain ⟨first, others, rfl, unclosed, rfl, unmarked⟩ := cutSet_some cut
  rw [← List.append_assoc, List.foldl_append,
    collect_body result unmarked unclosed]
  rfl

theorem collect_unclosed {text : List Char} (cut : cutSet text = none) :
    ∃ state, (state = .inChoiceFirst ∨ state = .inChoiceSecond ∨
        state = .inChoiceAny) ∧
      text.foldl step ⟨result, [], .inChoiceFirst⟩ =
        ⟨result, text, state⟩ := by
  have absent := cutSet_none.mp cut
  have marked := withoutBang_eq text
  cases found : withoutBang text with
  | nil =>
      rw [found, List.append_nil] at marked
      rw [marked]
      cases text.head? == some '!' with
      | true => exact ⟨_, .inr (.inl rfl), rfl⟩
      | false => exact ⟨_, .inl rfl, rfl⟩
  | cons first others =>
      rw [found] at marked absent
      have unmarked : (text.head? == some '!') = false → first ≠ '!' := by
        rintro plain rfl
        rw [plain] at marked
        rw [marked] at plain
        simp [bang] at plain
      refine ⟨_, .inr (.inr rfl), ?_⟩
      have unclosed : ']' ∉ others := absent
      have collected := collect_body result unmarked unclosed
      rw [← marked] at collected
      exact collected

end Collect

/-! ## Translating a pattern -/

def plainItem : Char → GlobItem
  | '*' => .many
  | '?' => .any
  | character => .char character

section Plain

variable {character : Char}

theorem readItems_plain (plain : character ≠ '[') (count : Nat)
    (rest : List Char) :
    readItems (count + 1) (character :: rest) =
      plainItem character :: readItems count rest := by
  by_cases many : character = '*'
  · subst many
    rfl
  · by_cases any : character = '?'
    · subst any
      rfl
    · rw [readItems, plainItem] <;> assumption

theorem step_plain (plain : character ≠ '[') (result choice : List Char) :
    step ⟨result, choice, .text⟩ character =
      ⟨result ++ emitItem (plainItem character), choice, .text⟩ := by
  unfold step plainItem
  dsimp only
  split <;> simp_all [emitItem]

theorem plainItem_ne (plain : character ≠ '[') :
    plainItem character ≠ .char '[' := by
  unfold plainItem
  split <;> simp_all

end Plain

theorem plainItem_ne_set (negated : Bool) (body : List Char)
    (character : Char) : .set negated body ≠ plainItem character := by
  unfold plainItem
  split <;> nofun

theorem mem_of_mem_drop_withoutBang {text : List Char} {character : Char}
    (member : character ∈ (withoutBang text).drop 1) :
    character ∈ text.drop 1 := by
  rw [withoutBang_eq text]
  cases text.head? == some '!' with
  | true =>
      rw [bang, if_pos rfl, List.singleton_append, List.drop_succ_cons,
        List.drop_zero]
      exact List.mem_of_mem_drop member
  | false => exact member

theorem mem_drop_withoutBang {text : List Char} {character : Char}
    (member : character ∈ text.drop 2) :
    character ∈ (withoutBang text).drop 1 := by
  have marked := withoutBang_eq text
  cases mark : text.head? == some '!' with
  | true =>
      rw [mark] at marked
      rw [marked] at member
      exact member
  | false =>
      rw [mark] at marked
      rw [marked, show 2 = 1 + 1 from rfl, ← List.drop_drop] at member
      exact List.mem_of_mem_drop member

/-! ## Reading items -/

theorem readItems_set {rest body after : List Char} {negated : Bool}
    (cut : cutSet rest = some (negated, body, after)) (count : Nat) :
    readItems (count + 1) ('[' :: rest) =
      .set negated body :: readItems count after := by
  simp only [readItems, cut]

theorem readItems_open {rest : List Char} (cut : cutSet rest = none)
    (count : Nat) :
    readItems (count + 1) ('[' :: rest) =
      .char '[' :: readItems count rest := by
  simp only [readItems, cut]

/-- Items are read from sets, brackets that are not closed, and other
characters. -/
theorem readItems_induction {motive : Nat → List Char → Prop}
    (zero : ∀ text, motive 0 text) (nil : ∀ count, motive (count + 1) [])
    (set : ∀ count rest negated body after,
      cutSet rest = some (negated, body, after) → motive count after →
        motive (count + 1) ('[' :: rest))
    (opening : ∀ count rest, cutSet rest = none → motive count rest →
      motive (count + 1) ('[' :: rest))
    (plain : ∀ count character rest, character ≠ '[' → motive count rest →
      motive (count + 1) (character :: rest))
    (count : Nat) (text : List Char) : motive count text := by
  induction count generalizing text with
  | zero => exact zero text
  | succ count ih =>
      cases text with
      | nil => exact nil count
      | cons character rest =>
          by_cases opens : character = '['
          · subst opens
            cases cut : cutSet rest with
            | none => exact opening count rest cut (ih rest)
            | some found =>
                obtain ⟨negated, body, after⟩ := found
                exact set count rest negated body after cut (ih after)
          · exact plain count character rest opens (ih rest)

theorem unclosed_tail {character : Char} {rest : List Char}
    (unclosed : ']' ∉ (character :: rest).drop 2) : ']' ∉ rest.drop 2 := by
  intro member
  apply unclosed
  rw [List.drop_succ_cons]
  rw [show 2 = 1 + 1 from rfl, ← List.drop_drop] at member
  exact List.mem_of_mem_drop member

theorem cutSet_of_unclosed {rest : List Char}
    (unclosed : ']' ∉ ('[' :: rest).drop 2) : cutSet rest = none := by
  rw [cutSet_none]
  exact fun member => unclosed (mem_of_mem_drop_withoutBang member)

theorem unclosed_of_cutSet {rest : List Char} (cut : cutSet rest = none) :
    ']' ∉ rest.drop 2 :=
  fun member => cutSet_none.mp cut (mem_drop_withoutBang member)

/-- Text in which no set is closed is read once more up to a bracket. -/
theorem replay {count : Nat} {text : List Char} (bound : text.length ≤ count)
    (unclosed : ']' ∉ text.drop 2) (result choice : List Char) :
    (text.foldl step ⟨result, choice, .text⟩).result =
      result ++ ((readItems count text).takeWhile
        (· ≠ .char '[')).flatMap emitItem := by
  induction count, text using readItems_induction
    generalizing result choice with
  | zero text =>
      rw [List.length_eq_zero_iff.mp (Nat.le_zero.mp bound)]
      exact (List.append_nil result).symm
  | nil count => exact (List.append_nil result).symm
  | set count rest negated body after cut =>
      rw [cutSet_of_unclosed unclosed] at cut
      cases cut
  | opening count rest cut =>
      obtain ⟨state, _, collected⟩ := collect_unclosed result cut
      have stopped : ((readItems (count + 1) ('[' :: rest)).takeWhile
          (· ≠ .char '[')) = [] := by
        simp [readItems_open cut]
      rw [List.foldl_cons, stopped, List.flatMap_nil, List.append_nil]
      exact congrArg Translator.result collected
  | plain count character rest plain ih =>
      rw [List.foldl_cons, step_plain plain, readItems_plain plain,
        List.takeWhile_cons_of_pos (by simpa using plainItem_ne plain),
        List.flatMap_cons, ← List.append_assoc]
      exact ih (Nat.le_of_succ_le_succ bound) (unclosed_tail unclosed) _ _

theorem finish_foldl {count : Nat} {text : List Char}
    (bound : text.length ≤ count) (result choice : List Char) :
    finish (text.foldl step ⟨result, choice, .text⟩) =
      result ++ (keptItems (readItems count text)).flatMap emitItem := by
  induction count, text using readItems_induction
    generalizing result choice with
  | zero text =>
      rw [List.length_eq_zero_iff.mp (Nat.le_zero.mp bound)]
      exact (List.append_nil result).symm
  | nil count => exact (List.append_nil result).symm
  | set count rest negated body after cut ih =>
      have shorter : after.length ≤ count := by
        obtain ⟨_, _, _, _, whole, _⟩ := cutSet_some cut
        have lengths := congrArg List.length whole
        simp only [List.length_append, List.length_cons] at lengths bound
        omega
      rw [List.foldl_cons, readItems_set cut, keptItems, if_neg nofun,
        List.flatMap_cons, ← List.append_assoc]
      refine Eq.trans ?_ (ih shorter _ (bang negated ++ body))
      exact congrArg finish (collect_closed result cut)
  | opening count rest cut =>
      obtain ⟨state, collects, collected⟩ := collect_unclosed result cut
      have replayed := replay (Nat.le_of_succ_le_succ bound)
        (unclosed_of_cutSet cut) (result ++ ['\\', '[']) rest
      rw [List.foldl_cons, readItems_open cut, keptItems, if_pos rfl,
        List.flatMap_cons, ← List.append_assoc]
      refine Eq.trans ?_ replayed
      refine (congrArg finish collected).trans ?_
      rcases collects with rfl | rfl | rfl <;> rfl
  | plain count character rest plain ih =>
      rw [List.foldl_cons, step_plain plain, readItems_plain plain,
        keptItems, if_neg (plainItem_ne plain), List.flatMap_cons,
        ← List.append_assoc]
      exact ih (Nat.le_of_succ_le_succ bound) _ _

theorem translateToRegex_eq (pattern : String) :
    translateToRegex pattern = String.ofList
      ((keptItems (globItems pattern.toList)).flatMap emitItem) := by
  rw [translateToRegex, globItems, finish_foldl (Nat.le_refl _),
    List.nil_append]

end Bacs.Common.Fnmatcher
