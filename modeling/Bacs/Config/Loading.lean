import Bacs.Config.Archive
import Bacs.Foundation.Outcome

/-!
# Loading undoes saving

An integer that is written in decimal digits is read as the same integer, in
whatever base, unless it has eight bits; a bool is never read.  A container
is loaded as it was saved if and only if its elements are.
-/

namespace Bacs.Config

open Foundation

variable {α β : Type}

/-! ## Numbers -/

theorem extractInteger_printInteger {signed : Bool} {width : Width}
    {basefield : Basefield} (other : basefield ≠ .hex)
    (number : Integer signed width) :
    extractInteger basefield signed width (printInteger number.1) =
      some (number, []) := by
  obtain ⟨number, inRange⟩ := number
  obtain ⟨lower, upper⟩ := inRange
  have signless : signed = false → ¬ number < 0 := by
    intro unsigned negative
    rw [unsigned] at lower
    exact absurd negative (Int.not_lt.mpr lower)
  have same : (if decide (number < 0) = false then (number.natAbs : Int)
      else if signed then -(number.natAbs : Int)
      else (2 ^ width.bits - (number.natAbs : Int)) % 2 ^ width.bits) =
        number := by
    split
    · rename_i positive
      have positive := of_decide_eq_false positive
      omega
    · rename_i negative
      have negative : number < 0 := by simpa using negative
      split
      · omega
      · rename_i unsigned
        exact absurd negative (signless (by simpa using unsigned))
  have fits : ¬ (signed = false ∧
      greatest signed width < (number.natAbs : Int)) := by
    intro exceeds
    obtain ⟨unsigned, exceeds⟩ := exceeds
    have positive := signless unsigned
    omega
  unfold extractInteger
  rw [extractNumeral_decimal other]
  dsimp only
  rw [same, if_neg fits, dif_pos ⟨lower, upper⟩]

theorem getValue_printInteger {signed : Bool} {width : Width}
    {basefield : Basefield} (other : basefield ≠ .hex)
    (number : Integer signed width) :
    getValue (extractInteger basefield signed width)
      (.leaf (printInteger number.1)) = .ok number := by
  unfold getValue
  rw [PropertyTree.leaf, PropertyTree.data_node,
    extractInteger_printInteger other]
  rfl

theorem getValue_wrapped {signed : Bool} {width : Width}
    (wide : width ≠ .w8) (number : Integer signed width) :
    getValue (extractWrapped signed width)
      (.leaf (printInteger number.1)) = .ok number := by
  have unset : Basefield.unset ≠ .hex := by
    intro same
    cases same
  cases width with
  | w8 => exact absurd rfl wide
  | w16 => exact getValue_printInteger unset number
  | w32 => exact getValue_printInteger unset number
  | w64 => exact getValue_printInteger unset number

theorem getValue_character {signed : Bool} {character : Char} {rest : Text}
    {loaded : Integer signed .w8} (visible : isSpace character = false)
    (digits : ∀ digit ∈ rest, isDigitOf 10 digit = true)
    (read : getValue (extractWrapped signed .w8)
      (.leaf (character :: rest)) = .ok loaded) :
    rest = [] ∧ ofCode signed character.toNat = some loaded := by
  have extracted : extractWrapped signed .w8 (character :: rest) =
      (ofCode signed character.toNat).map fun number => (number, rest) := by
    have kept : (character :: rest).dropWhile isSpace =
        character :: rest :=
      List.dropWhile_cons_of_neg (by simp [visible])
    rw [extractWrapped, extractCharacter, kept]
  unfold getValue at read
  rw [PropertyTree.leaf, PropertyTree.data_node, extracted] at read
  cases code : ofCode signed character.toNat with
  | none =>
      rw [code] at read
      cases read
  | some number =>
      rw [code] at read
      dsimp only [Option.map_some] at read
      split at read
      · rename_i empty
        cases read
        refine ⟨?_, rfl⟩
        cases rest with
        | nil => rfl
        | cons digit rest =>
            have isDigit := digits digit List.mem_cons_self
            rw [List.dropWhile_cons_of_neg (by
              simp [isSpace_of_isDigitOf isDigit])] at empty
            cases empty
      · cases read

/-- Only a number of one digit is read as a character, and then it is read as
the code of this digit. -/
theorem getValue_narrow {signed : Bool} {number loaded : Integer signed .w8}
    (read : getValue (extractWrapped signed .w8)
      (.leaf (printInteger number.1)) = .ok loaded) :
    number.1 < 10 ∧ 48 ≤ loaded.1 := by
  have two : 1 < 10 := by decide
  have sixteen : 10 ≤ 16 := by decide
  obtain ⟨number, inRange⟩ := number
  dsimp only at read ⊢
  cases number with
  | ofNat number =>
      have digits := isDigitOf_toDigits two sixteen number
      obtain ⟨digit, rest, same⟩ :=
        List.exists_cons_of_ne_nil (@Nat.toDigits_ne_nil number 10)
      rw [printInteger, same] at read
      rw [same] at digits
      obtain ⟨single, code⟩ := getValue_character
        (isSpace_of_isDigitOf (digits digit List.mem_cons_self))
        (fun other member => digits other (List.mem_cons_of_mem _ member))
        read
      have small : number < 10 := by
        have short : (Nat.toDigits 10 number).length ≤ 1 := by
          rw [same, single]
          exact Nat.le_refl 1
        simpa using (Nat.length_toDigits_le_iff two Nat.one_pos).mp short
      refine ⟨by simpa using small, ?_⟩
      rw [Nat.toDigits_of_lt_base small] at same
      cases same
      rw [Nat.toNat_digitChar_of_lt_ten small] at code
      unfold ofCode at code
      have plain : ¬ (signed = true ∧ 128 ≤ (48 + number) % 256) := by
        omega
      simp only [plain, if_false] at code
      split at code
      · cases code
        dsimp only
        omega
      · cases code
  | negSucc number =>
      have digits := isDigitOf_toDigits two sixteen (number + 1)
      obtain ⟨single, _⟩ := getValue_character (by rfl) digits read
      exact absurd single Nat.toDigits_ne_nil

theorem getValue_printBool (value : Bool) :
    ∃ error, getValue extractBool (.leaf (printBool value)) =
      .error error := by
  cases value with
  | false => exact ⟨_, rfl⟩
  | true => exact ⟨_, rfl⟩

/-! ## Children -/

theorem loadChildren_same {load : Text → Ptree → Except Error α}
    {store : α → Text × Ptree} {values : List α}
    (loads : ∀ value ∈ values,
      load (store value).1 (store value).2 = .ok value) :
    loadChildren load (.node [] (values.map store)) = .ok values := by
  unfold loadChildren
  rw [PropertyTree.children_node]
  induction values with
  | nil => rfl
  | cons value values induction =>
      rw [List.map_cons, List.mapM_cons, loads value List.mem_cons_self,
        induction (fun other member =>
          loads other (List.mem_cons_of_mem _ member))]
      rfl

theorem loadChildren_ok {load : Text → Ptree → Except Error β}
    {store : α → Text × Ptree} {values : List α} {loaded : List β}
    (loads : loadChildren load (.node [] (values.map store)) = .ok loaded) :
    (∀ value ∈ values, ∃ result,
      load (store value).1 (store value).2 = .ok result) ∧
    ∀ result ∈ loaded, ∃ value ∈ values,
      load (store value).1 (store value).2 = .ok result := by
  unfold loadChildren at loads
  rw [PropertyTree.children_node] at loads
  induction values generalizing loaded with
  | nil =>
      cases loads
      exact ⟨fun _ none => (nomatch none), fun _ none => (nomatch none)⟩
  | cons value values induction =>
      rw [List.map_cons, List.mapM_cons] at loads
      cases first : load (store value).1 (store value).2 with
      | error error =>
          rw [first] at loads
          cases loads
      | ok result =>
          rw [first] at loads
          cases rest : (values.map store).mapM
              (fun child => load child.1 child.2) with
          | error error =>
              rw [rest] at loads
              cases loads
          | ok results =>
              rw [rest] at loads
              cases loads
              obtain ⟨forward, backward⟩ := induction rest
              constructor
              · intro other member
                obtain rfl | later := List.mem_cons.mp member
                · exact ⟨result, first⟩
                · exact forward other later
              · intro other member
                obtain rfl | later := List.mem_cons.mp member
                · exact ⟨value, List.mem_cons_self, first⟩
                · obtain ⟨source, there, same⟩ := backward other later
                  exact ⟨source, List.mem_cons_of_mem _ there, same⟩

/-! ## Fields -/

theorem get_putChild (path : Text) (child tree : Ptree) :
    PropertyTree.get (components path) (putChild path child tree) =
      some child :=
  PropertyTree.get_put child (components path) (some tree)

theorem get_putChild_apart {first second : Name} (apart : Apart first second)
    (child tree : Ptree) :
    PropertyTree.get (components second.text)
        (putChild first.text child tree) =
      PropertyTree.get (components second.text) tree :=
  PropertyTree.get_put_other child apart.1 apart.2 (some tree)

/-- The fields that are put into a tree do not change what is found at other
names. -/
theorem Fields.save_apart : ∀ (fields : Fields) (values : fields.Value)
    (tree : Ptree) (other : Name),
    (∀ name ∈ fields.names, Apart other name) →
    PropertyTree.get (components other.text) (fields.save values tree) =
      PropertyTree.get (components other.text) tree
  | .nil, _, _, _, _ => rfl
  | .required name type rest, (value, values), tree, other, apart => by
      have first := apart name List.mem_cons_self
      rw [Fields.save, Fields.save_apart rest values _ other
        (fun name member => apart name (List.mem_cons_of_mem _ member))]
      exact get_putChild_apart ⟨first.2, first.1⟩ _ _
  | .optional name type rest, (none, values), tree, other, apart => by
      rw [Fields.save]
      exact Fields.save_apart rest values tree other
        (fun name member => apart name (List.mem_cons_of_mem _ member))
  | .optional name type rest, (some value, values), tree, other, apart => by
      have first := apart name List.mem_cons_self
      rw [Fields.save, Fields.save_apart rest values _ other
        (fun name member => apart name (List.mem_cons_of_mem _ member))]
      exact get_putChild_apart ⟨first.2, first.1⟩ _ _

/-- Each field is found in the tree as it was saved, and an optional one
without a value is not found. -/
def Fields.Stored : (fields : Fields) → fields.Value → Ptree → Prop
  | .nil, _, _ => True
  | .required name type rest, (value, values), tree =>
      PropertyTree.get (components name.text) tree =
          some (type.save value) ∧
        rest.Stored values tree
  | .optional name type rest, (value, values), tree =>
      PropertyTree.get (components name.text) tree = value.map type.save ∧
        rest.Stored values tree

/-- What has been put at a name is still there after the other fields. -/
theorem Fields.get_save_put {name : Name} (rest : Fields)
    (values : rest.Value) (first : ∀ other ∈ rest.names, Apart name other)
    (child tree : Ptree) :
    PropertyTree.get (components name.text)
        (rest.save values (putChild name.text child tree)) =
      some child := by
  rw [Fields.save_apart rest values _ name first]
  exact get_putChild _ _ _

theorem absent_putChild {name : Name} {names : List Name} {tree : Ptree}
    (first : ∀ other ∈ names, Apart name other)
    (absent : ∀ other ∈ names,
      PropertyTree.get (components other.text) tree = none)
    (child : Ptree) :
    ∀ other ∈ names, PropertyTree.get (components other.text)
      (putChild name.text child tree) = none := by
  intro other member
  rw [get_putChild_apart (first other member)]
  exact absent other member

theorem Fields.save_stored : ∀ (fields : Fields) (values : fields.Value)
    (tree : Ptree), fields.names.Pairwise Apart →
    (∀ name ∈ fields.names,
      PropertyTree.get (components name.text) tree = none) →
    fields.Stored values (fields.save values tree)
  | .nil, _, _, _, _ => trivial
  | .required name type rest, (value, values), tree, apart, absent => by
      obtain ⟨first, apart⟩ := List.pairwise_cons.mp apart
      obtain ⟨_, absent⟩ := List.forall_mem_cons.mp absent
      rw [Fields.save]
      constructor
      · exact rest.get_save_put values first _ _
      · apply Fields.save_stored rest values _ apart
        exact absent_putChild first absent _
  | .optional name type rest, (none, values), tree, apart, absent => by
      obtain ⟨first, apart⟩ := List.pairwise_cons.mp apart
      obtain ⟨here, absent⟩ := List.forall_mem_cons.mp absent
      rw [Fields.save]
      constructor
      · rw [Fields.save_apart rest values _ name first]
        exact here
      · exact Fields.save_stored rest values _ apart absent
  | .optional name type rest, (some value, values), tree, apart, absent => by
      obtain ⟨first, apart⟩ := List.pairwise_cons.mp apart
      obtain ⟨_, absent⟩ := List.forall_mem_cons.mp absent
      rw [Fields.save]
      constructor
      · exact rest.get_save_put values first _ _
      · apply Fields.save_stored rest values _ apart
        exact absent_putChild first absent _

theorem get_leaf (name : Name) (data : Text) :
    PropertyTree.get (components name.text) (.leaf data : Ptree) = none := by
  have some : components name.text ≠ [] := List.splitOn_ne_nil _ _
  obtain ⟨key, path, same⟩ := List.exists_cons_of_ne_nil some
  rw [same]
  rfl

/-! ## Alternatives -/

theorem Alternatives.save_key : ∀ (alternatives : Alternatives)
    (value : alternatives.Value),
    (alternatives.save value).1 ∈ alternatives.keys
  | .last _ _, _ => List.mem_singleton_self _
  | .cons _ _ _, .inl _ => List.mem_cons_self
  | .cons _ _ rest, .inr value =>
      List.mem_cons_of_mem _ (rest.save_key value)

theorem putChild_leaf {key : Text} (plain : '.' ∉ key) (child : Ptree) :
    (putChild key child (.leaf [])).children = [(key, child)] := by
  have single : components key = [key] := List.splitOn_eq_singleton plain
  rw [putChild, single]
  rfl

theorem lessKey_asymmetric {first second : Text}
    (before : lessKey first second = true) :
    lessKey second first = false := by
  have before : first < second := of_decide_eq_true before
  exact decide_eq_false (List.lt_asymm before)

section Loading

variable {classes : Classes}

theorem load_variant {alternatives : Alternatives} {tree child : Ptree}
    {key : Text} (only : tree.children = [(key, child)]) :
    (Ty.variant alternatives).load classes tree =
      alternatives.load classes key child := by
  rw [Ty.load, only]

theorem load_last (key : Text) (type : Ty) (tree : Ptree) :
    (Alternatives.last key type).load classes key tree =
      type.load classes tree :=
  if_pos rfl

theorem load_first (key : Text) (type : Ty) (rest : Alternatives)
    (tree : Ptree) :
    (Alternatives.cons key type rest).load classes key tree =
      (type.load classes tree).map Sum.inl :=
  if_pos rfl

theorem load_rest {key name : Text} (other : name ≠ key) (type : Ty)
    (rest : Alternatives) (tree : Ptree) :
    (Alternatives.cons key type rest).load classes name tree =
      (rest.load classes name tree).map Sum.inr :=
  if_neg other

/-- An alternative that is not the first one has another key. -/
theorem save_key_ne {key : Text} {rest : Alternatives}
    (fresh : key ∉ rest.keys) (value : rest.Value) :
    (rest.save value).1 ≠ key := by
  intro same
  apply fresh
  rw [← same]
  exact rest.save_key value

end Loading

/-! ## Every type -/

variable {classes : Classes}

mutual

theorem Ty.load_save : ∀ (type : Ty) (value : type.Value),
    type.WellFormed → type.Valid classes value → type.Storable value →
      type.load classes (type.save value) = .ok value
  | .bool, _, _, _, storable => storable.elim
  | .integer _ _, value, _, _, storable => getValue_wrapped storable value
  | .string, _, _, _, _ => rfl
  | .path, _, _, _, _ => rfl
  | .duration _ _, value, _, _, _ =>
      getValue_printInteger (by intro same; cases same) value
  | .vector element, values, wellFormed, valid, storable =>
      loadChildren_same fun value member =>
        element.load_save value wellFormed (valid value member)
          (storable value member)
  | .set element, values, wellFormed, valid, storable => by
      have loaded := @loadChildren_same _
        (fun _ child => element.load classes child)
        (fun value => ([], element.save value)) values
        (fun value member => element.load_save value wellFormed
          (valid.2 value member) (storable value member))
      have same : insertAll (classes.less element) values = values :=
        insertAll_ordered (classes.asymmetric element) valid.1
      exact (congrArg (Except.map (insertAll (classes.less element)))
        loaded).trans (congrArg Except.ok same)
  | .map mapped, values, wellFormed, valid, storable => by
      have loaded := @loadChildren_same _
        (fun key child =>
          (mapped.load classes child).map fun value => (key, value))
        (fun entry : Text × mapped.Value => (entry.1, mapped.save entry.2))
        values
        (fun entry member => congrArg (Except.map fun value =>
            (entry.1, value))
          (mapped.load_save entry.2 wellFormed (valid.2 entry member)
            (storable entry member)))
      have same : insertAll
          (fun first second : Text × mapped.Value =>
            lessKey first.1 second.1) values = values :=
        insertAll_ordered (fun first second => lessKey_asymmetric) valid.1
      exact (congrArg (Except.map (insertAll _)) loaded).trans
        (congrArg Except.ok same)
  | .variant alternatives, value, wellFormed, valid, storable => by
      obtain ⟨distinct, plain, wellFormed⟩ := wellFormed
      have key := plain _ (alternatives.save_key value)
      exact (load_variant (putChild_leaf key.2 _)).trans
        (alternatives.load_save value distinct wellFormed valid storable)
  | .record fields, value, wellFormed, valid, storable => by
      obtain ⟨apart, wellFormed⟩ := wellFormed
      have stored := fields.save_stored value (.leaf []) apart
        (fun name _ => get_leaf name [])
      exact fields.load_save value _ wellFormed valid storable stored

theorem Alternatives.load_save : ∀ (alternatives : Alternatives)
    (value : alternatives.Value), alternatives.keys.Nodup →
    alternatives.WellFormed → alternatives.Valid classes value →
      alternatives.Storable value →
        alternatives.load classes (alternatives.save value).1
          (alternatives.save value).2 = .ok value
  | .last key type, value, _, wellFormed, valid, storable =>
      (load_last key type _).trans
        (type.load_save value wellFormed valid storable)
  | .cons key type rest, .inl value, _, wellFormed, valid, storable =>
      (load_first key type rest _).trans (congrArg (Except.map Sum.inl)
        (type.load_save value wellFormed.1 valid storable))
  | .cons key type rest, .inr value, distinct, wellFormed, valid,
      storable => by
      obtain ⟨fresh, distinct⟩ := List.nodup_cons.mp distinct
      exact (load_rest (save_key_ne fresh value) type rest _).trans
        (congrArg (Except.map Sum.inr)
          (rest.load_save value distinct wellFormed.2 valid storable))

theorem Fields.load_save : ∀ (fields : Fields) (value : fields.Value)
    (tree : Ptree), fields.WellFormed → fields.Valid classes value →
    fields.Storable value → fields.Stored value tree →
      fields.load classes tree = .ok value
  | .nil, _, _, _, _, _, _ => rfl
  | .required name type rest, (value, values), tree, wellFormed, valid,
      storable, stored => by
      have first := type.load_save value wellFormed.1 valid.1 storable.1
      have others := rest.load_save values tree wellFormed.2 valid.2
        storable.2 stored.2
      rw [Fields.load, stored.1]
      dsimp only
      rw [first, others]
      rfl
  | .optional name type rest, (none, values), tree, wellFormed, valid,
      storable, stored => by
      have others := rest.load_save values tree wellFormed.2 valid.2
        storable.2 stored.2
      rw [Fields.load, stored.1]
      dsimp only [Option.map_none]
      rw [others]
      rfl
  | .optional name type rest, (some value, values), tree, wellFormed, valid,
      storable, stored => by
      have first := type.load_save value wellFormed.1 (valid.1 value rfl)
        (storable.1 value rfl)
      have others := rest.load_save values tree wellFormed.2 valid.2
        storable.2 stored.2
      rw [Fields.load, stored.1]
      dsimp only [Option.map_some]
      rw [first, others]
      rfl

end

/-! ## What is loaded twice

What was loaded from a saved value is again a value.  If it is saved and can
be loaded once more, it stores no bool and no integer of eight bits.
-/

theorem map_ok {function : α → β} {result : Except Error α} {loaded : β}
    (same : result.map function = .ok loaded) :
    ∃ value, result = .ok value ∧ function value = loaded := by
  cases result with
  | error error => cases same
  | ok value =>
      cases same
      exact ⟨value, rfl, rfl⟩

/-- Each of the loaded children was loaded from a saved one, and is loaded
once more. -/
theorem loadChildren_twice {load : Text → Ptree → Except Error α}
    {store : α → Text × Ptree} {values kept : List α} {first second : List α}
    (loads : loadChildren load (.node [] (values.map store)) = .ok first)
    (again : loadChildren load (.node [] (kept.map store)) = .ok second)
    (subset : ∀ value ∈ kept, value ∈ first) :
    ∀ value ∈ kept, ∃ source result,
      load (store source).1 (store source).2 = .ok value ∧
        load (store value).1 (store value).2 = .ok result := by
  intro value member
  obtain ⟨source, _, loaded⟩ :=
    (loadChildren_ok loads).2 value (subset value member)
  obtain ⟨result, reloaded⟩ := (loadChildren_ok again).1 value member
  exact ⟨source, result, loaded, reloaded⟩

mutual

theorem Ty.storable_of_twice : ∀ (type : Ty) (value first second : type.Value),
    type.WellFormed → type.load classes (type.save value) = .ok first →
      type.load classes (type.save first) = .ok second → type.Storable first
  | .bool, value, _, _, _, loads, _ => by
      obtain ⟨error, fails⟩ := getValue_printBool value
      exact nomatch fails.symm.trans loads
  | .integer signed width, value, first, second, _, loads, again => by
      intro narrow
      subst narrow
      have large := (getValue_narrow loads).2
      have small := (getValue_narrow again).1
      omega
  | .string, _, _, _, _, _, _ => trivial
  | .path, _, _, _, _, _, _ => trivial
  | .duration _ _, _, _, _, _, _, _ => trivial
  | .vector element, values, first, second, wellFormed, loads, again => by
      intro value member
      obtain ⟨source, result, loaded, reloaded⟩ :=
        @loadChildren_twice _ (fun _ child => element.load classes child)
          (fun value => ([], element.save value)) values first first second
          loads again (fun _ member => member) value member
      exact element.storable_of_twice source value result wellFormed loaded
        reloaded
  | .set element, values, first, second, wellFormed, loads, again => by
      obtain ⟨unordered, loads, ordered⟩ := map_ok loads
      obtain ⟨unordered', again, ordered'⟩ := map_ok again
      intro value member
      obtain ⟨source, result, loaded, reloaded⟩ :=
        @loadChildren_twice _ (fun _ child => element.load classes child)
          (fun value => ([], element.save value)) values first unordered
          unordered' loads again
          (fun _ member => mem_insertAll (ordered ▸ member)) value member
      exact element.storable_of_twice source value result wellFormed loaded
        reloaded
  | .map mapped, values, first, second, wellFormed, loads, again => by
      obtain ⟨unordered, loads, ordered⟩ := map_ok loads
      obtain ⟨unordered', again, ordered'⟩ := map_ok again
      intro value member
      obtain ⟨source, result, loaded, reloaded⟩ :=
        @loadChildren_twice _
          (fun key child =>
            (mapped.load classes child).map fun value => (key, value))
          (fun entry : Text × mapped.Value =>
            (entry.1, mapped.save entry.2)) values first unordered
          unordered' loads again
          (fun _ member => mem_insertAll (ordered ▸ member)) value member
      obtain ⟨_, once, same⟩ := map_ok loaded
      obtain ⟨_, twice, _⟩ := map_ok reloaded
      cases same
      exact mapped.storable_of_twice source.2 _ _ wellFormed once twice
  | .variant alternatives, value, first, second, wellFormed, loads,
      again => by
      obtain ⟨distinct, plain, wellFormed⟩ := wellFormed
      have load (saved : alternatives.Value) :
          (Ty.variant alternatives).load classes
              ((Ty.variant alternatives).save saved) =
            alternatives.load classes (alternatives.save saved).1
              (alternatives.save saved).2 :=
        load_variant
          (putChild_leaf (plain _ (alternatives.save_key saved)).2 _)
      exact alternatives.storable_of_twice value first second distinct
        wellFormed ((load value).symm.trans loads)
        ((load first).symm.trans again)
  | .record fields, value, first, second, wellFormed, loads, again => by
      obtain ⟨apart, wellFormed⟩ := wellFormed
      have stored (saved : fields.Value) :=
        fields.save_stored saved (.leaf []) apart (fun name _ => get_leaf name [])
      exact fields.storable_of_twice value first second _ _ wellFormed
        (stored value) (stored first) loads again

theorem Alternatives.storable_of_twice : ∀ (alternatives : Alternatives)
    (value first second : alternatives.Value), alternatives.keys.Nodup →
    alternatives.WellFormed →
    alternatives.load classes (alternatives.save value).1
      (alternatives.save value).2 = .ok first →
    alternatives.load classes (alternatives.save first).1
      (alternatives.save first).2 = .ok second →
      alternatives.Storable first
  | .last key type, value, first, second, _, wellFormed, loads, again =>
      type.storable_of_twice value first second wellFormed
        ((load_last key type _).symm.trans loads)
        ((load_last key type _).symm.trans again)
  | .cons key type rest, .inl value, first, second, _, wellFormed, loads,
      again => by
      obtain ⟨loaded, once, same⟩ :=
        map_ok ((load_first key type rest _).symm.trans loads)
      cases same
      obtain ⟨reloaded, twice, _⟩ :=
        map_ok ((load_first key type rest _).symm.trans again)
      exact type.storable_of_twice value loaded reloaded wellFormed.1 once
        twice
  | .cons key type rest, .inr value, first, second, distinct, wellFormed,
      loads, again => by
      obtain ⟨fresh, distinct⟩ := List.nodup_cons.mp distinct
      obtain ⟨loaded, once, same⟩ := map_ok
        ((load_rest (save_key_ne fresh value) type rest _).symm.trans loads)
      cases same
      obtain ⟨reloaded, twice, _⟩ := map_ok
        ((load_rest (save_key_ne fresh loaded) type rest _).symm.trans again)
      exact rest.storable_of_twice value loaded reloaded distinct
        wellFormed.2 once twice

theorem Fields.storable_of_twice : ∀ (fields : Fields)
    (value first second : fields.Value) (tree again : Ptree),
    fields.WellFormed → fields.Stored value tree →
    fields.Stored first again → fields.load classes tree = .ok first →
    fields.load classes again = .ok second → fields.Storable first
  | .nil, _, _, _, _, _, _, _, _, _, _ => trivial
  | .required name type rest, (value, values), (first, firsts), second, tree,
      again, wellFormed, stored, restored, loads, reloads => by
      rw [Fields.load, stored.1] at loads
      rw [Fields.load, restored.1] at reloads
      obtain ⟨_, once, others⟩ := bind_ok loads
      obtain ⟨_, others, same⟩ := bind_ok others
      obtain ⟨_, twice, reothers⟩ := bind_ok reloads
      obtain ⟨_, reothers, _⟩ := bind_ok reothers
      cases same
      constructor
      · exact type.storable_of_twice value first _ wellFormed.1 once twice
      · exact rest.storable_of_twice values firsts _ tree again wellFormed.2
          stored.2 restored.2 others reothers
  | .optional name type rest, (none, values), (first, firsts), second, tree,
      again, wellFormed, stored, restored, loads, reloads => by
      rw [Fields.load, stored.1] at loads
      obtain ⟨absent, none, others⟩ := bind_ok loads
      obtain ⟨_, others, same⟩ := bind_ok others
      cases none
      cases same
      rw [Fields.load, restored.1] at reloads
      obtain ⟨_, none, reothers⟩ := bind_ok reloads
      obtain ⟨_, reothers, _⟩ := bind_ok reothers
      constructor
      · intro present same
        cases same
      · exact rest.storable_of_twice values firsts _ tree again wellFormed.2
          stored.2 restored.2 others reothers
  | .optional name type rest, (some value, values), (first, firsts), second,
      tree, again, wellFormed, stored, restored, loads, reloads => by
      rw [Fields.load, stored.1] at loads
      obtain ⟨_, mapped, others⟩ := bind_ok loads
      obtain ⟨present, once, some⟩ := map_ok mapped
      obtain ⟨_, others, same⟩ := bind_ok others
      cases some
      cases same
      rw [Fields.load, restored.1] at reloads
      obtain ⟨_, mapped, reothers⟩ := bind_ok reloads
      obtain ⟨_, twice, _⟩ := map_ok mapped
      obtain ⟨_, reothers, _⟩ := bind_ok reothers
      constructor
      · intro other same
        cases same
        exact type.storable_of_twice value present _ wellFormed.1 once twice
      · exact rest.storable_of_twice values firsts _ tree again wellFormed.2
          stored.2 restored.2 others reothers

end

/-- What is saved is loaded as it was if and only if it is storable. -/
theorem Ty.load_save_iff {type : Ty} {value : type.Value}
    (wellFormed : type.WellFormed) (valid : type.Valid classes value) :
    type.load classes (type.save value) = .ok value ↔ type.Storable value := by
  constructor
  · intro loads
    exact type.storable_of_twice value value value wellFormed loads loads
  · intro storable
    exact type.load_save value wellFormed valid storable

/-! ## A configuration -/

theorem zero_inRange (signed : Bool) (width : Width) :
    InRange signed width 0 := by
  cases signed <;> cases width <;> decide

mutual

def Ty.zero : (type : Ty) → type.Value
  | .bool => false
  | .integer signed width => ⟨0, zero_inRange signed width⟩
  | .string => []
  | .path => []
  | .duration signed width => ⟨0, zero_inRange signed width⟩
  | .vector _ => []
  | .set _ => []
  | .map _ => []
  | .variant alternatives => alternatives.zero
  | .record fields => fields.zero

def Alternatives.zero : (alternatives : Alternatives) → alternatives.Value
  | .last _ type => type.zero
  | .cons _ type _ => .inl type.zero

def Fields.zero : (fields : Fields) → fields.Value
  | .nil => ()
  | .required _ type rest => (type.zero, rest.zero)
  | .optional _ _ rest => (none, rest.zero)

end

/-- Strings have their order, and everything else is equivalent. -/
def lessPlain : (type : Ty) → type.Value → type.Value → Bool
  | .string, first, second => lessKey first second
  | .path, first, second => lessKey first second
  | _, _, _ => false

theorem lessPlain_asymmetric (type : Ty) (first second : type.Value)
    (before : lessPlain type first second = true) :
    lessPlain type second first = false := by
  cases type with
  | string => exact lessKey_asymmetric before
  | path => exact lessKey_asymmetric before
  | _ => cases before

def plainClasses : Classes where
  initial := Ty.zero
  less := lessPlain
  asymmetric := lessPlain_asymmetric

def limits : Ty :=
  .record
    (.required ⟨['t', '.', 'x'], by decide⟩ (.integer true .w32)
      (.optional ⟨['n'], by decide⟩ .string
        (.required ⟨['s'], by decide⟩
          (.variant (.cons ['a'] .string (.last ['b'] (.set .string))))
          .nil)))

def limit : limits.Value :=
  (⟨-7, by decide⟩, some [' ', 'q'], .inr [['k'], ['m']], ())

theorem load_save_limit :
    limits.load plainClasses (limits.save limit) = .ok limit ↔
      limits.Storable limit := by
  apply Ty.load_save_iff
  · refine ⟨by decide, trivial, trivial, ⟨by decide, by decide, ?_⟩, trivial⟩
    exact ⟨trivial, trivial⟩
  · refine ⟨trivial, fun _ _ => trivial, ⟨by decide, ?_⟩, trivial⟩
    intro _ _
    trivial

/-- A bool is not read at all, and an integer of eight bits as the character
that its digit is. -/
theorem load_save_fails :
    Ty.bool.load plainClasses (Ty.bool.save true) =
        .error (.badData ['t', 'r', 'u', 'e']) ∧
      (Ty.integer true .w8).load plainClasses
          ((Ty.integer true .w8).save ⟨5, by decide⟩) =
        .ok ⟨53, by decide⟩ ∧
      (Ty.integer true .w8).load plainClasses
          ((Ty.integer true .w8).save ⟨5, by decide⟩) ≠
        .ok ⟨5, by decide⟩ := by
  refine ⟨rfl, rfl, ?_⟩
  intro same
  cases same

end Bacs.Config
