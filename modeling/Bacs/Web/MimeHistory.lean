import Bacs.Foundation.Runs
import Bacs.Web.MimeFile

/-!
# A mime file as a map

An extension is the same with and without a leading dot.  A mime file agrees
with what has been assigned to its extensions as long as nothing is stored
with the dot that is not also there without it.
-/

namespace Bacs.Web

open Foundation

/-- A mime file, and what has been assigned to extensions, in either spelling,
since it was loaded. -/
structure MimeHistory where
  file : MimeFile
  assigned : List (String × String)

inductive MimeOperation where
  | set (mimeType extension : String)
  | put (mimeType extension : String)
  | load (text : String)
  deriving DecidableEq, Repr

namespace MimeFile

def Undotted (extension : String) : Prop :=
  extension.toList.head? ≠ some '.'

instance (extension : String) : Decidable (Undotted extension) :=
  inferInstanceAs (Decidable (_ ≠ _))

theorem normExtension_of_undotted {extension : String}
    (undotted : Undotted extension) :
    normExtension extension = extension := by
  unfold normExtension
  split
  case h_1 rest dotted =>
    rw [Undotted, dotted] at undotted
    exact absurd rfl undotted
  case h_2 => rfl

theorem normExtension_ne_of_dotted {extension : String}
    (dotted : ¬ Undotted extension) :
    normExtension extension ≠ extension := by
  intro same
  rw [Undotted, not_not, List.head?_eq_some_iff] at dotted
  obtain ⟨rest, dotted⟩ := dotted
  have shorter := congrArg (fun name : String => name.toList.length) same
  simp [normExtension, dotted] at shorter

section Operations

variable [CharacterClasses]

/-- What is thrown, and the file afterwards. -/
def perform (file : MimeFile) :
    MimeOperation → Option MimeFileError × MimeFile
  | .set mimeType extension => (none, file.set mimeType extension)
  | .put mimeType extension => file.put mimeType extension
  | .load text => file.load text

def loadedMappings (text : String) : List (String × String) :=
  (getlines text.toList).flatMap mappings

def MalformedText (text : String) : Prop :=
  ∃ line ∈ getlines text.toList, MimeFileLine.Malformed line

instance (text : String) : Decidable (MalformedText text) :=
  inferInstanceAs (Decidable (∃ line ∈ _, _))

end Operations

end MimeFile

open MimeFile

namespace MimeHistory

def initial : MimeHistory := ⟨empty, []⟩

/-- What is stored without a dot is what has been assigned. -/
def Agrees (file : MimeFile) (assigned : List (String × String)) : Prop :=
  ∀ extension, Undotted extension →
    file.extension2mimeType extension =
      latest normExtension extension assigned

/-- Storing the type leaves no extension behind that is only found with a
dot. -/
def Harmless (file : MimeFile) (mimeType extension : String) : Prop :=
  Undotted extension ∨ ¬ Undotted (normExtension extension) ∨
    file.extension2mimeType (normExtension extension) = some mimeType

/-- The file's last line for an extension without a dot is as good as its
last line for either spelling. -/
def Consistent (assigned : List (String × String)) : Prop :=
  ∀ entry ∈ assigned, Undotted (normExtension entry.1) →
    latest id (normExtension entry.1) assigned =
      latest normExtension (normExtension entry.1) assigned

instance (file : MimeFile) (mimeType extension : String) :
    Decidable (Harmless file mimeType extension) :=
  inferInstanceAs (Decidable (_ ∨ _))

instance (assigned : List (String × String)) :
    Decidable (Consistent assigned) :=
  inferInstanceAs (Decidable (∀ entry ∈ _, _))

/-- An assignment is found again exactly if it is harmless. -/
theorem agrees_set_iff {file : MimeFile} {assigned : List (String × String)}
    (agrees : Agrees file assigned) (mimeType extension : String) :
    Agrees (file.set mimeType extension)
        (assigned ++ [(extension, mimeType)]) ↔
      Harmless file mimeType extension := by
  by_cases undotted : Undotted extension
  · refine iff_of_true ?_ (.inl undotted)
    intro key plain
    rw [latest_concat, normExtension_of_undotted undotted, ← agrees key plain]
    by_cases same : extension = key
    · subst same
      simp [MimeFile.set]
    · simp [MimeFile.set, Function.update_of_ne (Ne.symm same), same]
  · have different := normExtension_ne_of_dotted undotted
    constructor
    · intro found
      by_cases single : Undotted (normExtension extension)
      · have stored := found (normExtension extension) single
        rw [latest_concat, if_pos rfl] at stored
        simp only [MimeFile.set, Function.update_of_ne different] at stored
        exact .inr (.inr stored)
      · exact .inr (.inl single)
    · intro harmless key plain
      have apart : key ≠ extension := by
        rintro rfl
        exact undotted plain
      rw [latest_concat, ← agrees key plain]
      simp only [MimeFile.set, Function.update_of_ne apart]
      by_cases same : normExtension extension = key
      · subst same
        rw [if_pos rfl]
        rcases harmless with first | second | stored
        · exact absurd first undotted
        · exact absurd plain second
        · exact stored
      · rw [if_neg same]

theorem agrees_load_iff (assigned : List (String × String)) :
    Agrees ⟨fun name => latest id name assigned⟩ assigned ↔
      Consistent assigned := by
  constructor
  · exact fun agrees entry _ undotted => agrees _ undotted
  · intro consistent key undotted
    by_cases assignedTo : ∃ entry ∈ assigned, normExtension entry.1 = key
    · obtain ⟨entry, member, rfl⟩ := assignedTo
      exact consistent entry member undotted
    · have never : ∀ entry ∈ assigned, normExtension entry.1 ≠ key :=
        fun entry member same => assignedTo ⟨entry, member, same⟩
      rw [latest_eq_none never]
      apply latest_eq_none
      intro entry member same
      apply never entry member
      rw [show entry.1 = key from same]
      exact normExtension_of_undotted undotted

section Runs

variable [CharacterClasses]

/-- What has been assigned after an operation that succeeds. -/
def record (assigned : List (String × String)) :
    MimeOperation → List (String × String)
  | .set mimeType extension => assigned ++ [(extension, mimeType)]
  | .put mimeType extension => assigned ++ [(extension, mimeType)]
  | .load text => loadedMappings text

def step (state : MimeHistory) (operation : MimeOperation) :
    Option MimeHistory :=
  match state.file.perform operation with
  | (none, file) => some ⟨file, record state.assigned operation⟩
  | (some _, file) => some ⟨file, state.assigned⟩

def latestType (state : MimeHistory) (extension : String) : Option String :=
  latest normExtension (normExtension extension) state.assigned

def Conflicts (state : MimeHistory) : MimeOperation → Prop
  | .set .. => False
  | .put _ extension => (state.latestType extension).isSome = true
  | .load text => MalformedText text

/-- The extension has at most one leading dot. -/
def Proper : MimeOperation → Prop
  | .set _ extension => Undotted (normExtension extension)
  | .put _ extension => Undotted (normExtension extension)
  | .load _ => True

/-- The file is the map of what has been assigned. -/
structure Mapped (state : MimeHistory) : Prop where
  finds : ∀ extension, Undotted (normExtension extension) →
    state.file.mimeTypeByExtension extension =
      (state.latestType extension).getD fallbackMimeType
  fails : ∀ operation, Proper operation →
    ((state.file.perform operation).1.isSome = true ↔
      state.Conflicts operation)
  keeps : ∀ operation, (state.file.perform operation).1.isSome = true →
    (state.file.perform operation).2 = state.file

def Allowed (state : MimeHistory) : MimeOperation → Prop
  | .set mimeType extension => Harmless state.file mimeType extension
  | .put mimeType extension =>
      (state.file.extension2mimeType
          (normExtension extension)).isSome = true ∨
        Harmless state.file mimeType extension
  | .load text =>
      MalformedText text ∨ Consistent (loadedMappings text)

instance (state : MimeHistory) :
    ∀ operation, Decidable (Allowed state operation)
  | .set .. => inferInstanceAs (Decidable (Harmless ..))
  | .put .. => inferInstanceAs (Decidable (_ ∨ _))
  | .load _ => inferInstanceAs (Decidable (_ ∨ _))

/-! ## Operations that fail -/

theorem load_cases (file : MimeFile) (text : String) :
    (∃ error, MalformedText text ∧
        file.load text = (some error, file)) ∨
      (¬ MalformedText text ∧ file.load text =
        (none, ⟨fun name => latest id name (loadedMappings text)⟩)) := by
  by_cases malformed : MalformedText text
  · obtain ⟨line, member, bad⟩ := malformed
    obtain ⟨error, stops⟩ := loadLines_of_malformed member bad empty 1
    exact .inl ⟨error, ⟨line, member, bad⟩, by rw [load, stops]⟩
  · have wellFormed : ∀ line ∈ getlines text.toList,
        ¬ MimeFileLine.Malformed line :=
      fun line member bad => malformed ⟨line, member, bad⟩
    refine .inr ⟨malformed, ?_⟩
    rw [load, loadLines_of_wellFormed wellFormed, setEach_empty]
    rfl

theorem perform_keeps {file : MimeFile} {operation : MimeOperation}
    (failed : (file.perform operation).1.isSome = true) :
    (file.perform operation).2 = file := by
  cases operation with
  | set mimeType extension => cases failed
  | put mimeType extension =>
      obtain ⟨error, _, same⟩ | ⟨_, same⟩ := put_cases file mimeType extension
      · rw [perform, same]
      · rw [perform, same] at failed
        cases failed
  | load text =>
      obtain ⟨error, _, same⟩ | ⟨_, same⟩ := load_cases file text
      · rw [perform, same]
      · rw [perform, same] at failed
        cases failed

theorem perform_fails_iff {state : MimeHistory}
    (agrees : Agrees state.file state.assigned) {operation : MimeOperation}
    (proper : Proper operation) :
    (state.file.perform operation).1.isSome = true ↔
      state.Conflicts operation := by
  cases operation with
  | set mimeType extension => exact iff_of_false nofun id
  | put mimeType extension =>
      have same := agrees (normExtension extension) proper
      rw [Conflicts, latestType, ← same]
      obtain ⟨error, mapped, failed⟩ | ⟨absent, stored⟩ :=
        put_cases state.file mimeType extension
      · rw [perform, failed]
        exact iff_of_true rfl mapped
      · rw [perform, stored, absent]
        exact Iff.rfl
  | load text =>
      obtain ⟨error, malformed, failed⟩ | ⟨wellFormed, loaded⟩ :=
        load_cases state.file text
      · rw [perform, failed]
        exact iff_of_true rfl malformed
      · rw [perform, loaded]
        exact iff_of_false nofun wellFormed

/-! ## Invariant -/

/-- A file is a map exactly if it agrees with what has been assigned. -/
theorem mapped_iff {state : MimeHistory} :
    state.Mapped ↔ Agrees state.file state.assigned := by
  constructor
  · intro mapped extension undotted
    have normal := normExtension_of_undotted undotted
    have proper : Undotted (normExtension extension) := by rwa [normal]
    have found := mapped.finds extension proper
    have fails := mapped.fails (.put "" extension) proper
    rw [mimeTypeByExtension, latestType, normal] at found
    rw [Conflicts, latestType, normal, perform] at fails
    obtain ⟨error, present, failed⟩ | ⟨absent, stored⟩ :=
      put_cases state.file "" extension
    · rw [failed] at fails
      rw [normal] at present
      obtain ⟨mimeType, stored⟩ := Option.isSome_iff_exists.mp present
      obtain ⟨assigned, last⟩ := Option.isSome_iff_exists.mp (fails.mp rfl)
      rw [stored, last] at found ⊢
      exact congrArg some found
    · rw [stored] at fails
      rw [normal] at absent
      have never := mt fails.mpr nofun
      rw [Option.not_isSome_iff_eq_none] at never
      rw [absent, never]
  · intro agrees
    constructor
    · intro extension undotted
      rw [mimeTypeByExtension, latestType, agrees _ undotted]
    · exact fun operation proper => perform_fails_iff agrees proper
    · exact fun operation failed => perform_keeps failed

theorem step_agrees_iff {state next : MimeHistory}
    {operation : MimeOperation}
    (agrees : Agrees state.file state.assigned)
    (taken : state.step operation = some next) :
    Agrees next.file next.assigned ↔ state.Allowed operation := by
  cases operation with
  | set mimeType extension =>
      cases taken
      exact agrees_set_iff agrees mimeType extension
  | put mimeType extension =>
      obtain ⟨error, mapped, failed⟩ | ⟨absent, stored⟩ :=
        put_cases state.file mimeType extension
      · rw [step, perform, failed] at taken
        cases taken
        exact iff_of_true agrees (.inl mapped)
      · rw [step, perform, stored] at taken
        cases taken
        rw [Allowed, absent]
        apply (agrees_set_iff agrees mimeType extension).trans
        simp
  | load text =>
      obtain ⟨error, malformed, failed⟩ | ⟨wellFormed, loaded⟩ :=
        load_cases state.file text
      · rw [step, perform, failed] at taken
        cases taken
        exact iff_of_true agrees (.inl malformed)
      · rw [step, perform, loaded] at taken
        cases taken
        apply (agrees_load_iff _).trans
        simp [Allowed, wellFormed]

/-- While every extension that is stored with a dot is there without it, the
file is the map of what has been assigned, and the first one that is not
leaves something that is not found. -/
theorem mapped_of_runs {final : MimeHistory}
    (run : Runs step Allowed initial final) :
    final.Mapped ∧ ∀ operation next, final.step operation = some next →
      (next.Mapped ↔ final.Allowed operation) := by
  have agrees : Agrees final.file final.assigned := by
    apply run.invariant
    · exact fun _ _ => rfl
    · intro before operation after agrees allowed taken
      exact (step_agrees_iff agrees taken).mpr allowed
  constructor
  · exact mapped_iff.mpr agrees
  · intro operation next taken
    exact mapped_iff.trans (step_agrees_iff agrees taken)

end Runs

instance ascii : CharacterClasses where
  blank character := character == ' ' || character == '\t'
  graph character := '!' ≤ character && character ≤ '~'
  blank_iff character := by simp
  graph_of_printable character least most := by simp [least, most]
  blank_of_graph character printable := by
    rw [Bool.or_eq_false_iff, beq_eq_false_iff_ne, beq_eq_false_iff_ne]
    constructor
    · rintro rfl
      revert printable
      decide
    · rintro rfl
      revert printable
      decide

/-- A file is loaded, and an extension is set again with a dot. -/
theorem mapped_of_runs_loaded :
    ∃ final, executeWhile step Allowed initial
      [.load "text/plain txt # text\n", .put "text/html" ".txt",
        .put "text/html" "html", .set "text/html" ".html"] = some final ∧
      final.Mapped := by
  obtain ⟨final, reached⟩ : ∃ final, executeWhile step Allowed initial
      [.load "text/plain txt # text\n", .put "text/html" ".txt",
        .put "text/html" "html", .set "text/html" ".html"] = some final :=
    ⟨_, rfl⟩
  exact ⟨final, reached, (mapped_of_runs (Runs.of_executeWhile reached)).1⟩

/-- An extension is set with a dot. -/
theorem not_mapped_of_dotted :
    ∃ final, execute step initial [.set "text/plain" ".txt"] = some final ∧
      ¬ final.Mapped := by
  refine ⟨_, rfl, ?_⟩
  intro mapped
  have found := mapped.finds ".txt" (by decide)
  revert found
  decide

end MimeHistory

end Bacs.Web
