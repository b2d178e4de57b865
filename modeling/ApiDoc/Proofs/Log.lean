import ApiDoc.Proofs.Extraction
import ApiDoc.Proofs.Report

/-!
What the log tells.

The log of an extraction has one record for each input file, then one for each block, and then the summary. What
can be gathered from these records is what was read from the blocks.
-/

namespace ApiDoc

namespace Record

def ofBlock (block : Text) : Record :=
  match Comment.read block with
  | .ok element => .parsed element.name element.kind
  | .error error => .skipped error

/-- Whether a record tells of a block: which element it describes or, if it describes none, its plain text. -/
inductive Tells (block : Text) : Record → Prop
  | parsed {element : Element} : Comment.read block = .ok element → Tells block (.parsed element.name element.kind)
  | skipped : (∀ element, Comment.read block ≠ .ok element) →
      Tells block (.skipped (.missingName (Comment.plain block)))

def size? : Record → Option Nat
  | read _ size => some size
  | _ => none

def element? : Record → Option (Text × Kind)
  | parsed name kind => some (name, kind)
  | _ => none

def error? : Record → Option Comment.Error
  | skipped error => some error
  | _ => none

theorem tells_ofBlock (block : Text) : Tells block (ofBlock block) := by
  rw [ofBlock]
  cases described : Comment.read block with
  | ok element => exact .parsed described
  | error error =>
      rw [Comment.error_eq_of_read described]
      exact .skipped fun element => by simp [described]

theorem element?_ofBlock (block : Text) :
    element? (ofBlock block) = (Comment.element? block).map fun element => (element.name, element.kind) := by
  rw [ofBlock, Comment.element?]
  cases Comment.read block <;> rfl

theorem error?_ofBlock (block : Text) : error? (ofBlock block) = Comment.error? block := by
  rw [ofBlock, Comment.error?]
  cases Comment.read block <;> rfl

theorem forall₂_tells (blocks : List Text) : List.Forall₂ Tells blocks (blocks.map ofBlock) := by
  rw [List.forall₂_map_right_iff, List.forall₂_same]
  exact fun block _ => tells_ofBlock block

theorem filterMap_element?_ofBlock (blocks : List Text) : (blocks.map ofBlock).filterMap element? =
    (blocks.filterMap Comment.element?).map fun element => (element.name, element.kind) := by
  rw [List.filterMap_map, List.map_filterMap]
  exact List.filterMap_congr fun block _ => element?_ofBlock block

theorem filterMap_error?_ofBlock (blocks : List Text) :
    (blocks.map ofBlock).filterMap error? = blocks.filterMap Comment.error? := by
  rw [List.filterMap_map]
  exact List.filterMap_congr fun block _ => error?_ofBlock block

theorem length_filter_warn (records : List Record) :
    (records.filter fun record => record.level = .warn).length = (records.filterMap error?).length := by
  induction records with
  | nil => rfl
  | cons record rest ih =>
      cases record with
      | skipped error => exact congrArg (· + 1) ih
      | read | parsed | summary | wrote => exact ih

end Record

namespace Document

variable {σ τ : Type} [Reporter σ] [Reporter τ]

theorem records_foldl_extend (blocks : List Text) (state : Document × (Log × σ)) :
    (blocks.foldl extend state).2.1.records = state.2.1.records ++ blocks.map Record.ofBlock := by
  induction blocks generalizing state with
  | nil => rw [List.foldl_nil, List.map_nil, List.append_nil]
  | cons block rest ih =>
      rw [List.foldl_cons, ih, extend, List.map_cons, Record.ofBlock]
      cases Comment.read block <;> exact List.append_assoc _ _ _

theorem snd_foldl_extend (blocks : List Text) (state : Document × (σ × τ)) :
    (blocks.foldl extend state).2.2 = (blocks.foldl extend (state.1, state.2.2)).2 := by
  induction blocks generalizing state with
  | nil => rfl
  | cons block rest ih =>
      rw [List.foldl_cons, List.foldl_cons, ih, extend, extend]
      cases Comment.read block <;> rfl

theorem records_parse (source : Text) (log : Log) (reporter : σ) :
    (parse source (log, reporter)).2.1.records =
      log.records ++ (Comment.blocks source).map Record.ofBlock :=
  records_foldl_extend (Comment.blocks source) ({}, (log, reporter))

theorem snd_parse (source : Text) (first : σ) (second : τ) :
    (parse source (first, second)).2.2 = (parse source second).2 :=
  snd_foldl_extend (Comment.blocks source) ({}, (first, second))

end Document

namespace Extraction

theorem reports_eq (files : List InputFile) :
    let blocks := Comment.blocks (source files)
    reports files = (readLog files).records ++ blocks.map Record.ofBlock ++
      [.summary files.length (blocks.filterMap Comment.element?).length
        (blocks.filterMap Comment.error?).length] := by
  intro blocks
  rw [reports]
  dsimp only
  rw [Document.records_parse, Document.elements_parse, Document.snd_parse, Document.count_parse, Nat.zero_add]

/-- What is gathered from blocks alone is not gathered from the other reports. -/
theorem filterMap_reports {α : Type} {gather : Record → Option α} (files : List InputFile)
    (read : ∀ path size, gather (.read path size) = none)
    (summary : ∀ files elements refused, gather (.summary files elements refused) = none) :
    (reports files).filterMap gather =
      ((Comment.blocks (source files)).map Record.ofBlock).filterMap gather := by
  have reads : (readLog files).records.filterMap gather = [] := by
    rw [List.filterMap_eq_nil_iff]
    intro record member
    obtain ⟨file, -, rfl⟩ := List.mem_map.mp member
    exact read _ _
  rw [reports_eq, List.filterMap_append, List.filterMap_append, reads, List.filterMap_cons_none (summary ..)]
  simp

theorem filterMap_size?_reports (files : List InputFile) :
    (reports files).filterMap Record.size? = files.map fun file => file.content.length := by
  have sizes : (readLog files).records.filterMap Record.size? = files.map fun file => file.content.length := by
    rw [readLog, List.filterMap_map]
    exact congrFun List.filterMap_eq_map' files
  have told : ((Comment.blocks (source files)).map Record.ofBlock).filterMap Record.size? = [] := by
    rw [List.filterMap_eq_nil_iff, List.forall_mem_map]
    intro block _
    rw [Record.ofBlock]
    cases Comment.read block <;> rfl
  rw [reports_eq, List.filterMap_append, List.filterMap_append, sizes, told, List.append_nil]
  exact List.append_nil _

end Extraction

end ApiDoc
