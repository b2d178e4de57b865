import ApiDoc.Proofs.Comment.Resumption
import ApiDoc.Proofs.Extraction
import ApiDoc.Proofs.Text.Decoding

/-!
Input files that do not depend on each other.

Files are joined before they are decoded and searched. A file that leaves neither a character nor a
comment open contributes the same blocks wherever it stands among such files, and what is extracted
from all of them is what is extracted from each, one after another.
-/

namespace ApiDoc

/-- Whether what a file says ends with it: it leaves no character and no comment open. -/
structure InputFile.SelfContained (file : InputFile) : Prop where
  ascii_end : ∀ byte ∈ file.content.getLast?, byte.toNat < 0x80
  closed : Comment.Closed (Utf8.decodeLossy file.content)

instance (file : InputFile) : Decidable file.SelfContained :=
  letI : Decidable (∀ byte ∈ file.content.getLast?, byte.toNat < 0x80) :=
    Option.decidableForallMem file.content.getLast?
  decidable_of_iff ((∀ byte ∈ file.content.getLast?, byte.toNat < 0x80) ∧
      Comment.Closed (Utf8.decodeLossy file.content))
    ⟨fun both => ⟨both.1, both.2⟩, fun contained => ⟨contained.ascii_end, contained.closed⟩⟩

theorem Protobuf.encode_flatMap {α : Type} (items : List α) (elements : α → List Element) :
    encode ⟨items.flatMap elements⟩ = items.flatMap fun item => encode ⟨elements item⟩ := by
  simp only [encode, ofDocument, Message.encode, List.flatMap_map, List.flatMap_assoc]

namespace Extraction

variable {files : List InputFile}

theorem source_singleton (file : InputFile) : source [file] = Utf8.decodeLossy file.content := by
  simp [source]

theorem source_cons {file : InputFile} (contained : file.SelfContained) (rest : List InputFile) :
    source (file :: rest) = source [file] ++ source rest := by
  rw [source_singleton, source, List.flatMap_cons]
  exact Utf8.decodeLossy_append contained.ascii_end _

theorem blocks_source (contained : ∀ file ∈ files, file.SelfContained) :
    Comment.blocks (source files) = files.flatMap fun file => Comment.blocks (source [file]) := by
  induction files with
  | nil => exact Comment.blocks_of_free (by decide)
  | cons file rest ih =>
      obtain ⟨first, others⟩ := List.forall_mem_cons.mp contained
      have closed : Comment.Closed (source [file]) := by
        rw [source_singleton]
        exact first.closed
      rw [source_cons first, closed.blocks_append, ih others, List.flatMap_cons]

theorem elements_source {σ : Type} [Reporter σ] (contained : ∀ file ∈ files, file.SelfContained)
    (reporter : σ) : (Document.parse (source files) reporter).1.elements =
      files.flatMap fun file => (Document.parse (source [file]) reporter).1.elements := by
  simp only [Document.elements_parse, blocks_source contained, List.filterMap_flatMap]

/-- What is extracted from self-contained files is what is extracted from each of them: elements, errors
and Protocol Buffers bytes alike follow one another in the order of the files. -/
theorem selfContained_independent (files : List InputFile)
    (contained : ∀ file ∈ files, file.SelfContained) :
    (Document.parse (source files) ({} : Collector)).1.elements =
        files.flatMap (fun file => (Document.parse (source [file]) ({} : Collector)).1.elements) ∧
      (Document.parse (source files) ({} : Collector)).2.errors =
        files.flatMap (fun file => (Document.parse (source [file]) ({} : Collector)).2.errors) ∧
      content .protobuf files = files.flatMap fun file => content .protobuf [file] := by
  refine ⟨elements_source contained ({} : Collector), ?_, ?_⟩
  · simp only [Document.parse_collector, blocks_source contained, List.nil_append,
      List.filterMap_flatMap]
  · have joined := elements_source contained ({} : Counter)
    have document : (Document.parse (source files) ({} : Counter)).1 =
        ⟨files.flatMap fun file => (Document.parse (source [file]) ({} : Counter)).1.elements⟩ := by
      rw [Document.mk.injEq]
      exact joined
    rw [content, document]
    exact Protobuf.encode_flatMap files _

/-- Files that are easily taken together: the first ends within a plain comment, the second is empty, the
third begins with a broken character and a stray marker, the fourth would open a comment behind `/`. -/
def unrulyFiles : List InputFile :=
  [⟨"a".toList, Utf8.encode "/*# Größe\n@name f */ /* ".toList⟩,
    ⟨"b".toList, []⟩,
    ⟨"c".toList, [0xE2, 0x82] ++ Utf8.encode "*/ /*# no name */ é*/ ".toList⟩,
    ⟨"d".toList, Utf8.encode "*# /*#/*# @name g *//*/ ".toList⟩]

theorem selfContained_independent_unrulyFiles :
    (∀ file ∈ unrulyFiles, file.SelfContained) ∧
      (Document.parse (source unrulyFiles) ({} : Collector)).1.elements = unrulyFiles.flatMap
        (fun file => (Document.parse (source [file]) ({} : Collector)).1.elements) ∧
      (Document.parse (source unrulyFiles) ({} : Collector)).2.errors = unrulyFiles.flatMap
        (fun file => (Document.parse (source [file]) ({} : Collector)).2.errors) ∧
      content .protobuf unrulyFiles = unrulyFiles.flatMap fun file => content .protobuf [file] := by
  have contained : ∀ file ∈ unrulyFiles, file.SelfContained := by decide +kernel
  exact ⟨contained, selfContained_independent unrulyFiles contained⟩

end Extraction

end ApiDoc
