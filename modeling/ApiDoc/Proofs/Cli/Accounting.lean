import ApiDoc.Proofs.Cli.Verbosity
import ApiDoc.Proofs.Extraction.Cut
import ApiDoc.Proofs.Json.Documents
import ApiDoc.Proofs.Protobuf.RoundTrip
import ApiDoc.Protobuf.Reader
import Mathlib.Algebra.GroupWithZero.Nat
import Mathlib.Data.List.Permutation

/-!
The log of a run agrees with what happened.

A verbose run that succeeds has logged every file that it read, every block that it met and the file that it
wrote. What was logged adds up, and the file that was written is read back to the elements that were logged.
-/

namespace ApiDoc

namespace Format

def decode? : Format → Bytes → Option Document
  | protobuf => Protobuf.decode?
  | json => Json.decode?

theorem decode?_encode (format : Format) (document : Document) :
    format.decode? (format.encode document) = some document := by
  cases format with
  | protobuf =>
      rw [decode?, encode, Protobuf.decode?, Protobuf.encode, Protobuf.readMessage_encode, Option.bind_some,
        Protobuf.toDocument?_ofDocument]
  | json => exact Json.decode?_encode document

end Format

namespace Cli

/-- Whether the log of a run agrees with the files that it was given and with the content that it wrote. -/
structure Accounted (before : FileTree) (given : Arguments) (outcome : Outcome) (format : Format)
    (files : List InputFile) (told : List Record) (content : Bytes) (document : Document) : Prop where
  known : Format.ofName? given.format = some format
  found : InputFile.ofArguments before given.inputs = .ok files
  stood : ∀ file ∈ files, before.read? file.path = some file.content
  tells : List.Forall₂ Record.Tells (Comment.blocks (Extraction.source files)) told
  records : outcome.log.records =
    files.map (fun file => .read file.path file.content.length) ++ told ++
      [.summary files.length document.elements.length
          (outcome.log.records.filter fun record => record.level = .warn).length,
        .wrote given.output format content.length]
  printed : outcome.stderr = outcome.log.render
  sizes : (outcome.log.records.filterMap Record.size?).sum = (files.flatMap InputFile.content).length
  blocks : document.elements.length +
      (outcome.log.records.filter fun record => record.level = .warn).length =
    (Comment.blocks (Extraction.source files)).length
  written : ∃ location, outcome.files.resolve given.output = .ok location ∧
    outcome.files.content? location = some content
  decoded : format.decode? content = some document
  elements : document.elements.map (fun element => (element.name, element.kind)) =
    outcome.log.records.filterMap Record.element?

theorem Arguments.threshold_of_verbose {given : Arguments} (verbose : given.verbose = true) :
    given.threshold = .debug := by
  rw [threshold, verbose]
  rfl

section Verbose

variable {drawing : Drawing} {tree : FileTree} {arguments : List Text} {given : Arguments}
  (read : Arguments.parse arguments = .ok given) (verbose : given.verbose = true)
  (succeeded : (run drawing tree arguments).status = 0)

include read verbose succeeded

theorem exists_of_verbose : ∃ format files location,
    Format.ofName? given.format = some format ∧ InputFile.ofArguments tree given.inputs = .ok files ∧
      tree.destination given.output = .ok location ∧
      run drawing tree arguments = {
        status := 0
        log := ⟨Extraction.reports files ++
          [.wrote given.output format (Extraction.content format files).length]⟩
        files := tree.insert location (.file (Extraction.content format files)) } := by
  rw [run_of_parse drawing tree read, Arguments.run, Arguments.threshold_of_verbose verbose, Log.filter_debug]
    at succeeded ⊢
  rcases Extraction.ofRequest_fails_or_replaces drawing tree given.request with
    ⟨log, failure, failed⟩ | ⟨format, files, after, known, found, replaced, extracted⟩
  · rw [failed] at succeeded
    contradiction
  · obtain ⟨location, goesTo, rfl⟩ := FileTree.destination_of_replace replaced
    rw [extracted]
    exact ⟨format, files, location, known, found, goesTo, rfl⟩

/-- A verbose run that succeeds accounts for what it did. -/
theorem run_accounted : ∃ format files told content document,
    Accounted tree given (run drawing tree arguments) format files told content document := by
  obtain ⟨format, files, location, known, found, goesTo, outcome⟩ := exists_of_verbose read verbose succeeded
  let blocks := Comment.blocks (Extraction.source files)
  let content := Extraction.content format files
  let document := (Document.parse (Extraction.source files) ({} : Counter)).1
  have elements : document.elements = blocks.filterMap Comment.element? := Document.elements_parse _ _
  have log : (run drawing tree arguments).log.records =
      Extraction.reports files ++ [.wrote given.output format content.length] := by rw [outcome]
  have after : (run drawing tree arguments).files = tree.insert location (.file content) := by rw [outcome]
  have replaces := FileTree.replaces_of_destination content goesTo
  have refused : ((run drawing tree arguments).log.records.filter fun record => record.level = .warn).length =
      (blocks.filterMap Comment.error?).length := by
    rw [Record.length_filter_warn, log, List.filterMap_append,
      Extraction.filterMap_reports files (fun _ _ => rfl) (fun _ _ _ => rfl), Record.filterMap_error?_ofBlock]
    exact congrArg List.length (List.append_nil _)
  refine ⟨format, files, blocks.map Record.ofBlock, content, document, ?_⟩
  constructor
  case known => exact known
  case found => exact found
  case stood => exact fun file member => InputFile.read?_of_mem_ofArguments found member
  case tells => exact Record.forall₂_tells blocks
  case records =>
    rw [refused, log, Extraction.reports_eq, elements, List.append_assoc _ _ [Record.wrote ..]]
    rfl
  case printed =>
    rw [Outcome.stderr, outcome]
    exact List.append_nil _
  case sizes =>
    rw [log, List.filterMap_append, Extraction.filterMap_size?_reports, List.length_flatMap]
    exact congrArg List.sum (List.append_nil _)
  case blocks =>
    rw [refused, elements]
    exact Comment.length_elements_add_errors blocks
  case written =>
    rw [after]
    exact ⟨location, FileTree.resolve_of_destination goesTo replaces, by
      rw [FileTree.content?, replaces.written]⟩
  case decoded => exact Format.decode?_encode format document
  case elements =>
    rw [log, List.filterMap_append,
      Extraction.filterMap_reports files (fun _ _ => rfl) (fun _ _ _ => rfl), Record.filterMap_element?_ofBlock,
      elements]
    exact (List.append_nil _).symm

end Verbose

/-- A file that goes on with a comment that the one before it has begun, and one that is read twice. -/
def begunTree : FileTree where
  entries :=
    [(["home".toList], .directory),
      (["home".toList, "b.rs".toList], .file (Utf8.encode "@name f */ /*# no name */ ".toList)),
      (["home".toList, "a.rs".toList], .file (Utf8.encode "/*# @name g */ /*# é ".toList))]
  home := ["home".toList]

def begunArguments : List Text :=
  ["/home/*.rs".toList, "b.rs".toList, "/home/out".toList, "-qvf=json".toList]

def begunGiven : Arguments :=
  ⟨["/home/*.rs".toList, "b.rs".toList], "/home/out".toList, "json".toList, true, true⟩

def begunFiles : List InputFile :=
  [⟨"/home/a.rs".toList, Utf8.encode "/*# @name g */ /*# é ".toList⟩,
    ⟨"/home/b.rs".toList, Utf8.encode "@name f */ /*# no name */ ".toList⟩,
    ⟨"b.rs".toList, Utf8.encode "@name f */ /*# no name */ ".toList⟩]

theorem run_accounted_begun : Arguments.parse begunArguments = .ok begunGiven ∧ begunGiven.verbose = true ∧
    (run .plain begunTree begunArguments).status = 0 ∧ ∃ format files told content document,
      Accounted begunTree begunGiven (run .plain begunTree begunArguments) format files told content document := by
  have read : Arguments.parse begunArguments = .ok begunGiven := by decide
  have verbose : begunGiven.verbose = true := rfl
  have known : Format.ofName? begunGiven.format = some .json := by decide
  have found : InputFile.ofArguments begunTree begunGiven.inputs = .ok begunFiles := by cbv
  have replaced (content : Bytes) : begunTree.replace .plain begunGiven.output content =
      (begunTree.insert ["home".toList, "out".toList] (.file content), .ok ()) := by cbv
  have succeeded : (run .plain begunTree begunArguments).status = 0 := (run_of_ok read known found (replaced _)).1
  exact ⟨read, verbose, succeeded, run_accounted read verbose succeeded⟩

end Cli

end ApiDoc
