import ApiDoc.Extraction
import ApiDoc.Proofs.FileTree.Replacement
import ApiDoc.Proofs.Input
import ApiDoc.Proofs.Report

/-!
What an extraction does to the file tree.
-/

namespace ApiDoc

namespace Extraction

def content (format : Format) (files : List InputFile) : Bytes :=
  format.encode (Document.parse (source files) ({} : Counter)).1

/-- What an extraction that succeeds was given, and what it leaves. The document comes from the input
files as they stood in the tree before it, and goes to the file that the output path leads to. -/
structure Writes (before after : FileTree) (request : Request) (format : Format)
    (files : List InputFile) (location : Location) : Prop where
  known : Format.ofName? request.format = some format
  found : InputFile.ofArguments before request.inputs = .ok files
  stood (file : InputFile) : file ∈ files → before.read? file.path = some file.content
  goesTo : before.destination request.output = .ok location
  leadsTo : after.resolve request.output = .ok location
  replaces : before.Replaces after location (content format files)

theorem Writes.keeps {before after : FileTree} {request : Request} {format : Format}
    {files : List InputFile} {location : Location}
    (written : Writes before after request format files location) : before.Keeps after :=
  written.replaces.keeps

def reports (files : List InputFile) : List Record :=
  let (document, log, counter) := Document.parse (source files) (readLog files, ({} : Counter))
  log.records ++ [.summary files.length document.elements.length counter.count]

section Write

variable {drawing : Drawing} {tree after : FileTree} {files : List InputFile} {format : Format} {output : Text}

theorem encode_parse_readLog (format : Format) (files : List InputFile) :
    format.encode (Document.parse (source files) (readLog files, ({} : Counter))).1 = content format files :=
  congrArg format.encode (Document.parse_fst_eq _ _ _)

theorem ofFiles_of_error {error : FileTree.ReplaceError}
    (failed : tree.replace drawing output (content format files) = (after, .error error)) :
    ofFiles drawing tree files format output =
      ⟨⟨reports files⟩, after, .error (.ofReplaceError output error)⟩ := by
  rw [← encode_parse_readLog] at failed
  rw [ofFiles]
  dsimp only
  rw [failed]
  rfl

theorem ofFiles_of_ok (replaced : tree.replace drawing output (content format files) = (after, .ok ())) :
    ofFiles drawing tree files format output =
      ⟨⟨reports files ++ [.wrote output format (content format files).length]⟩, after, .ok ()⟩ := by
  rw [← encode_parse_readLog] at replaced ⊢
  rw [ofFiles]
  dsimp only
  rw [replaced]
  rfl

theorem ofRequest_of_ok {request : Request} (known : Format.ofName? request.format = some format)
    (found : InputFile.ofArguments tree request.inputs = .ok files) :
    ofRequest drawing tree request = ofFiles drawing tree files format request.output := by
  rw [ofRequest, known]
  dsimp only
  rw [found]

/-- An extraction fails and leaves the tree as it was, or replaces its output. -/
theorem ofRequest_fails_or_replaces (drawing : Drawing) (tree : FileTree) (request : Request) :
    (∃ log failure, ofRequest drawing tree request = ⟨log, tree, .error failure⟩) ∨
      ∃ format files after, Format.ofName? request.format = some format ∧
        InputFile.ofArguments tree request.inputs = .ok files ∧
        tree.replace drawing request.output (content format files) = (after, .ok ()) ∧
        ofRequest drawing tree request =
          ⟨⟨reports files ++ [.wrote request.output format (content format files).length]⟩, after, .ok ()⟩ := by
  cases known : Format.ofName? request.format with
  | none => exact Or.inl ⟨_, _, by rw [ofRequest, known]⟩
  | some format =>
      cases found : InputFile.ofArguments tree request.inputs with
      | error error =>
          refine Or.inl ⟨{}, .input error, ?_⟩
          rw [ofRequest, known]
          dsimp only
          rw [found]
      | ok files =>
          have extracted : ofRequest drawing tree request = _ := ofRequest_of_ok known found
          rcases tree.replace_cases drawing request.output (content format files) with
            ⟨error, failed⟩ | ⟨-, location, -, -, replaced⟩
          · exact Or.inl ⟨_, _, extracted.trans (ofFiles_of_error failed)⟩
          · exact Or.inr ⟨format, files, _, rfl, rfl, replaced, extracted.trans (ofFiles_of_ok replaced)⟩

/-- The name that is drawn for the new content decides at most how a failure is told. -/
theorem ofRequest_drawn (tree : FileTree) (drawing other : Drawing) (request : Request) :
    ofRequest drawing tree request = ofRequest other tree request ∨
      ∃ log failure another, ofRequest drawing tree request = ⟨log, tree, .error failure⟩ ∧
        ofRequest other tree request = ⟨log, tree, .error another⟩ := by
  cases known : Format.ofName? request.format with
  | none => exact Or.inl (by rw [ofRequest, ofRequest, known])
  | some format =>
      cases found : InputFile.ofArguments tree request.inputs with
      | error error => exact Or.inl (by simp only [ofRequest, known, found])
      | ok files =>
          rw [ofRequest_of_ok known found, ofRequest_of_ok known found]
          rcases tree.replace_drawn drawing other request.output (content format files) with
            ⟨error, another, failed, failed_other⟩ | ⟨after, replaced, replaced_other⟩
          · exact Or.inr ⟨_, _, _, ofFiles_of_error failed, ofFiles_of_error failed_other⟩
          · exact Or.inl ((ofFiles_of_ok replaced).trans (ofFiles_of_ok replaced_other).symm)

end Write

theorem wellFormed_ofRequest {tree : FileTree} (formed : tree.WellFormed) (drawing : Drawing)
    (request : Request) :
    (ofRequest drawing tree request).files.WellFormed := by
  rcases ofRequest_fails_or_replaces drawing tree request with
    ⟨log, failure, failed⟩ | ⟨format, files, after, -, -, replaced, succeeded⟩
  · rw [failed]
    exact formed
  · obtain ⟨location, goesTo, rfl⟩ := FileTree.destination_of_replace replaced
    rw [succeeded]
    exact formed.insert_of_destination goesTo

theorem ofRequest_cases (drawing : Drawing) (tree : FileTree) (request : Request) :
    (∃ failure, (ofRequest drawing tree request).result = .error failure ∧
        (ofRequest drawing tree request).files = tree) ∨
      (ofRequest drawing tree request).result = .ok () ∧ ∃ format files location,
        Writes tree (ofRequest drawing tree request).files request format files location := by
  rcases ofRequest_fails_or_replaces drawing tree request with
    ⟨log, failure, failed⟩ | ⟨format, files, after, known, found, replaced, succeeded⟩
  · rw [failed]
    exact Or.inl ⟨failure, rfl, rfl⟩
  · obtain ⟨location, goesTo, rfl⟩ := FileTree.destination_of_replace replaced
    have replaces := FileTree.replaces_of_destination (content format files) goesTo
    rw [succeeded]
    exact Or.inr ⟨rfl, format, files, location, known, found,
      fun file member => InputFile.read?_of_mem_ofArguments found member, goesTo,
      FileTree.resolve_of_destination goesTo replaces, replaces⟩

end Extraction

end ApiDoc
