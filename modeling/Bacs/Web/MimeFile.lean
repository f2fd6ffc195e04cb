import Bacs.Foundation.Latest
import Bacs.Web.MimeLine

/-!
# Mime files

A map from extensions to MIME types, which is filled one by one or from a
file.  Lookups and the check of `put` drop a leading dot from the extension;
what is stored keeps it.
-/

namespace Bacs.Web

open Foundation

/-- `mime_file`. -/
structure MimeFile where
  extension2mimeType : String → Option String

inductive MimeFileError where
  /-- `mime_file_extension_conflict_error`. -/
  | extensionConflict (mimeType extension : String)
  /-- `mime_file_format_error`. -/
  | format (row column : Nat)
  deriving DecidableEq, Repr

namespace MimeFile

def fallbackMimeType : String := "application/octet-stream"

def normExtension (extension : String) : String :=
  match extension.toList with
  | '.' :: rest => String.ofList rest
  | _ => extension

/-- A default constructed file. -/
def empty : MimeFile := ⟨fun _ => none⟩

def mimeTypeByExtension (file : MimeFile) (extension : String) : String :=
  (file.extension2mimeType (normExtension extension)).getD fallbackMimeType

def set (file : MimeFile) (mimeType extension : String) : MimeFile :=
  ⟨Function.update file.extension2mimeType extension (some mimeType)⟩

/-- What is thrown, and the file afterwards. -/
def put (file : MimeFile) (mimeType extension : String) :
    Option MimeFileError × MimeFile :=
  let ext := normExtension extension
  match file.extension2mimeType ext with
  | some _ => (some (.extensionConflict mimeType ext), file)
  | none => (none, file.set mimeType extension)

def setAll (file : MimeFile) (mimeType : String)
    (extensions : List String) : MimeFile :=
  extensions.foldl (fun file extension => file.set mimeType extension) file

def setup (line : MimeFileLine) (file : MimeFile) : MimeFile :=
  file.setAll line.mimeType line.extensions

theorem put_cases (file : MimeFile) (mimeType extension : String) :
    (∃ error, (file.extension2mimeType (normExtension extension)).isSome =
          true ∧
        file.put mimeType extension = (some error, file)) ∨
      (file.extension2mimeType (normExtension extension) = none ∧
        file.put mimeType extension =
          (none, file.set mimeType extension)) := by
  cases found : file.extension2mimeType (normExtension extension) with
  | some other =>
      exact .inl ⟨.extensionConflict mimeType (normExtension extension), rfl,
        by simp only [put, found]⟩
  | none => exact .inr ⟨rfl, by simp only [put, found]⟩

def setEach (file : MimeFile) (assigned : List (String × String)) :
    MimeFile :=
  assigned.foldl (fun file entry => file.set entry.2 entry.1) file

theorem setEach_append (file : MimeFile)
    (first second : List (String × String)) :
    file.setEach (first ++ second) = (file.setEach first).setEach second :=
  List.foldl_append

theorem setEach_empty (assigned : List (String × String)) :
    empty.setEach assigned = ⟨fun name => latest id name assigned⟩ := by
  rw [← foldl_update_latest]
  have same : ∀ mapping : String → Option String,
      setEach ⟨mapping⟩ assigned =
        ⟨assigned.foldl (fun mapping entry =>
          Function.update mapping entry.1 (some entry.2)) mapping⟩ := by
    induction assigned with
    | nil => exact fun _ => rfl
    | cons entry rest ih =>
        intro mapping
        exact ih _
  exact same _

/-- `std::getline` until the end of the stream. -/
def getlines (text : List Char) : List (List Char) :=
  let lines := text.splitOn '\n'
  if lines.getLast? = some [] then lines.dropLast else lines

section Loading

variable [CharacterClasses]

/-- The loop of `load`, from a line on.  `mime_exts` is empty again after
every line. -/
def loadLines (data : MimeFile) (lineno : Nat) :
    List (List Char) → Except MimeFileError MimeFile
  | [] => .ok data
  | line :: rest =>
      match MimeFileLine.lineParser line with
      | (mimeExts, []) =>
          loadLines (mimeExts.elim data fun line => setup line data)
            (lineno + 1) rest
      | (_, left) =>
          .error (.format lineno (1 + (line.length - left.length)))

def load (file : MimeFile) (text : String) :
    Option MimeFileError × MimeFile :=
  match loadLines empty 1 (getlines text.toList) with
  | .ok data => (none, data)
  | .error error => (some error, file)

/-! ## What a file says -/

def mappings (line : List Char) : List (String × String) :=
  (MimeFileLine.ofWords (words CharacterClasses.blank
    (MimeFileLine.content line))).elim [] fun line =>
      line.extensions.map fun extension => (extension, line.mimeType)

theorem setEach_mappings {line : List Char} (file : MimeFile)
    (wellFormed : ¬ MimeFileLine.Malformed line) :
    (MimeFileLine.lineParser line).1.elim file
        (fun line => setup line file) =
      file.setEach (mappings line) := by
  rw [MimeFileLine.lineParser_of_wellFormed wellFormed, mappings]
  cases MimeFileLine.ofWords (words CharacterClasses.blank
      (MimeFileLine.content line)) with
  | none => rfl
  | some parsed => simp [setup, setAll, setEach, List.foldl_map]

theorem loadLines_of_wellFormed {lines : List (List Char)}
    (wellFormed : ∀ line ∈ lines, ¬ MimeFileLine.Malformed line)
    (data : MimeFile) (lineno : Nat) :
    loadLines data lineno lines =
      .ok (data.setEach (lines.flatMap mappings)) := by
  induction lines generalizing data lineno with
  | nil => rfl
  | cons line rest ih =>
      have first := wellFormed line (by simp)
      have finished : MimeFileLine.lineParser line =
          ((MimeFileLine.lineParser line).1, []) := by
        rw [MimeFileLine.lineParser_of_wellFormed first]
      rw [loadLines, finished, List.flatMap_cons, setEach_append,
        ← setEach_mappings data first]
      exact ih (fun other member => wellFormed other (by simp [member])) _ _

theorem loadLines_of_malformed {lines : List (List Char)}
    {line : List Char} (member : line ∈ lines)
    (malformed : MimeFileLine.Malformed line) (data : MimeFile)
    (lineno : Nat) :
    ∃ error, loadLines data lineno lines = .error error := by
  induction lines generalizing data lineno with
  | nil => cases member
  | cons first rest ih =>
      unfold loadLines
      split
      case h_1 mimeExts finished =>
        rcases List.mem_cons.mp member with rfl | later
        · have left := MimeFileLine.lineParser_of_malformed malformed
          rw [finished] at left
          exact absurd rfl left
        · exact ih later _ _
      case h_2 => exact ⟨_, rfl⟩

end Loading

end MimeFile

end Bacs.Web
