import ApiDoc.Proofs.Log
import ApiDoc.Proofs.Text.Utf8
import Mathlib.Data.List.Permutation

/-!
A text that is cut into files.

The bytes of the files are joined before they are decoded, so it does not matter where a text was cut, not even
when the cut went through a character.
-/

namespace ApiDoc

namespace Extraction

variable {tree : FileTree} {request : Request} {format : Format} {files : List InputFile}

theorem exists_records_ofRequest (drawing : Drawing) (known : Format.ofName? request.format = some format)
    (found : InputFile.ofArguments tree request.inputs = .ok files) :
    ∃ ending, (ofRequest drawing tree request).log.records = reports files ++ ending ∧
      ending.filterMap Record.element? = [] ∧ ending.filterMap Record.error? = [] := by
  rw [ofRequest_of_ok known found]
  rcases tree.replace_cases drawing request.output (content format files) with
    ⟨error, failed⟩ | ⟨-, location, -, -, replaced⟩
  · rw [ofFiles_of_error failed]
    exact ⟨[], (List.append_nil _).symm, rfl, rfl⟩
  · rw [ofFiles_of_ok replaced]
    exact ⟨_, rfl, rfl, rfl⟩

/-- Wherever a text was cut into files, it is read as it was, without an ill-formed piece. What is logged of the
blocks, and the document that is written, are those of the text. -/
theorem source_cut {text : Text} {files : List InputFile}
    (whole : files.flatMap InputFile.content = Utf8.encode text) :
    source files = text ∧ Utf8.pieces (files.flatMap InputFile.content) = text.map some ∧
      ∀ (drawing : Drawing) (tree : FileTree) (request : Request) (format : Format),
        Format.ofName? request.format = some format →
        InputFile.ofArguments tree request.inputs = .ok files →
        let extraction := ofRequest drawing tree request
        let alone := Document.parse text ({} : Collector)
        extraction.log.records.filterMap Record.element? =
            alone.1.elements.map (fun element => (element.name, element.kind)) ∧
          extraction.log.records.filterMap Record.error? = alone.2.errors ∧
          (extraction.result = .ok () →
            ∃ location, extraction.files.resolve request.output = .ok location ∧
              extraction.files.content? location = some (format.encode alone.1)) := by
  have same : source files = text := by
    rw [source, whole, Utf8.decodeLossy_encode]
  refine ⟨same, by rw [whole, Utf8.pieces_encode], ?_⟩
  intro drawing tree request format known found extraction alone
  obtain ⟨ending, records, elements, errors⟩ := exists_records_ofRequest drawing known found
  have collected : alone = _ := Document.parse_collector text {}
  refine ⟨?_, ?_, ?_⟩
  · rw [records, List.filterMap_append, elements, List.append_nil,
      filterMap_reports files (fun _ _ => rfl) (fun _ _ _ => rfl), same, Record.filterMap_element?_ofBlock,
      collected]
  · rw [records, List.filterMap_append, errors, List.append_nil,
      filterMap_reports files (fun _ _ => rfl) (fun _ _ _ => rfl), same, Record.filterMap_error?_ofBlock,
      collected]
    rfl
  · intro succeeded
    rcases ofRequest_cases drawing tree request with ⟨failure, failed, -⟩ | ⟨-, other, found_files, location, written⟩
    · rw [show extraction.result = .error failure from failed] at succeeded
      contradiction
    · cases known.symm.trans written.known
      cases found.symm.trans written.found
      refine ⟨location, written.leadsTo, ?_⟩
      rw [FileTree.content?, written.replaces.written, content, same,
        Document.parse_fst_eq text ({} : Counter) ({} : Collector)]

/-- A text with characters of one to four bytes, and files between which each longer one of them is cut. One
file is empty. -/
def cutText : Text :=
  "/*# é\n@name €\n@return 😀*/ /*# */".toList

def cutFiles : List InputFile :=
  let bytes := Utf8.encode cutText
  [⟨"a".toList, bytes.take 5⟩, ⟨"b".toList, (bytes.drop 5).take 9⟩, ⟨"c".toList, []⟩,
    ⟨"d".toList, (bytes.drop 14).take 14⟩, ⟨"e".toList, bytes.drop 28⟩]

def cutTree : FileTree where
  entries := cutFiles.map fun file => ([file.path], .file file.content)

def cutRequest : Request :=
  ⟨["a".toList, "b".toList, "c".toList, "d".toList, "e".toList], "f".toList, "pb".toList⟩

theorem source_cut_characters :
    cutFiles.flatMap InputFile.content = Utf8.encode cutText ∧
      Format.ofName? cutRequest.format = some .protobuf ∧
      InputFile.ofArguments cutTree cutRequest.inputs = .ok cutFiles ∧
      let extraction := ofRequest .plain cutTree cutRequest
      let alone := Document.parse cutText ({} : Collector)
      source cutFiles = cutText ∧
        extraction.log.records.filterMap Record.element? =
            alone.1.elements.map (fun element => (element.name, element.kind)) ∧
          extraction.log.records.filterMap Record.error? = alone.2.errors ∧
          extraction.files.content? ["f".toList] = some (Protobuf.encode alone.1) := by
  have whole : cutFiles.flatMap InputFile.content = Utf8.encode cutText := by decide +kernel
  have known : Format.ofName? cutRequest.format = some .protobuf := by decide
  have found : InputFile.ofArguments cutTree cutRequest.inputs = .ok cutFiles := by decide +kernel
  have replaced (content : Bytes) : cutTree.replace .plain cutRequest.output content =
      (cutTree.insert ["f".toList] (.file content), .ok ()) := by cbv
  have leadsTo (content : Bytes) : (cutTree.insert ["f".toList] (.file content)).resolve cutRequest.output =
      .ok ["f".toList] := by cbv
  have extraction : ofRequest .plain cutTree cutRequest = _ :=
    (ofRequest_of_ok known found).trans (ofFiles_of_ok (replaced _))
  have succeeded : (ofRequest .plain cutTree cutRequest).result = .ok () := by rw [extraction]
  have output : (ofRequest .plain cutTree cutRequest).files.resolve cutRequest.output = .ok ["f".toList] := by
    rw [extraction]
    exact leadsTo _
  obtain ⟨same, -, extracted⟩ := source_cut whole
  obtain ⟨elements, errors, written⟩ := extracted .plain cutTree cutRequest .protobuf known found
  obtain ⟨location, ledTo, held⟩ := written succeeded
  cases output.symm.trans ledTo
  exact ⟨whole, known, found, same, elements, errors, held⟩

end Extraction

end ApiDoc
