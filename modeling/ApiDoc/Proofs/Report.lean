import ApiDoc.Report
import Mathlib.Data.List.Forall2

/-!
What reading a source text gives.

The elements of a source text are those of its blocks, whoever is told of them, and a collector ends up
with the errors of the blocks that are refused. A reporter that counts and one that collects are told the same,
so they agree after every report. Each block gives an element or an error, and never both.
-/

namespace ApiDoc

namespace Comment

def element? (block : Text) : Option Element :=
  match read block with
  | .ok element => some element
  | .error _ => none

def error? (block : Text) : Option Error :=
  match read block with
  | .ok _ => none
  | .error error => some error

theorem element?_eq_some_iff {block : Text} {element : Element} :
    element? block = some element ↔ read block = .ok element := by
  rw [element?]
  split
  · next described => simp [described]
  · next refused => simp [refused]

end Comment

namespace Document

theorem elements_foldl_extend {σ : Type} [Reporter σ] (blocks : List Text) (state : Document × σ) :
    (blocks.foldl extend state).1.elements =
      state.1.elements ++ blocks.filterMap Comment.element? := by
  induction blocks generalizing state with
  | nil => simp
  | cons block rest ih =>
      rw [List.foldl_cons, ih, extend, List.filterMap_cons, Comment.element?]
      cases Comment.read block with
      | ok element => simp
      | error error => rfl

theorem errors_foldl_extend (blocks : List Text) (state : Document × Collector) :
    (blocks.foldl extend state).2.errors =
      state.2.errors ++ blocks.filterMap Comment.error? := by
  induction blocks generalizing state with
  | nil => simp
  | cons block rest ih =>
      rw [List.foldl_cons, ih, extend, List.filterMap_cons, Comment.error?]
      cases Comment.read block with
      | ok element => rfl
      | error error => simp [Reporter.skipped]

theorem elements_parse {σ : Type} [Reporter σ] (source : Text) (reporter : σ) :
    (parse source reporter).1.elements = (Comment.blocks source).filterMap Comment.element? := by
  rw [parse, elements_foldl_extend, List.nil_append]

theorem parse_collector (source : Text) (collector : Collector) :
    parse source collector =
      (⟨(Comment.blocks source).filterMap Comment.element?⟩,
        ⟨collector.errors ++ (Comment.blocks source).filterMap Comment.error?⟩) := by
  rw [← elements_parse source collector]
  refine Prod.ext rfl ?_
  rw [Collector.mk.injEq]
  exact errors_foldl_extend (Comment.blocks source) ({}, collector)

theorem parse_fst_eq {σ τ : Type} [Reporter σ] [Reporter τ] (source : Text) (first : σ)
    (second : τ) : (parse source first).1 = (parse source second).1 := by
  rw [Document.mk.injEq, elements_parse, elements_parse]

end Document

namespace Comment

def accepted (block : Text) : Bool :=
  (read block).isOk

theorem error_eq_of_read {block : Text} {error : Error} (refused : read block = .error error) :
    error = .missingName (plain block) := by
  rw [read] at refused
  split at refused
  · exact (Except.error.inj refused).symm
  · contradiction

theorem filterMap_error? (blocks : List Text) : blocks.filterMap error? =
    (blocks.filter fun block => !accepted block).map fun block => .missingName (plain block) := by
  induction blocks with
  | nil => rfl
  | cons block rest ih =>
      rw [List.filterMap_cons, List.filter_cons, error?, accepted]
      cases described : read block with
      | ok element => exact ih
      | error error =>
          rw [error_eq_of_read described]
          exact congrArg _ ih

theorem forall₂_filterMap_element? (blocks : List Text) :
    List.Forall₂ (fun block element => read block = .ok element) (blocks.filter accepted)
      (blocks.filterMap element?) := by
  induction blocks with
  | nil => exact .nil
  | cons block rest ih =>
      rw [List.filterMap_cons, List.filter_cons, element?, accepted]
      cases described : read block with
      | ok element => exact .cons described ih
      | error error => exact ih

theorem length_elements_add_errors (blocks : List Text) :
    (blocks.filterMap element?).length + (blocks.filterMap error?).length = blocks.length := by
  rw [filterMap_error?, ← (forall₂_filterMap_element? blocks).length_eq, List.length_map]
  exact (List.length_eq_length_filter_add accepted).symm

end Comment

namespace Document

theorem count_foldl_extend (blocks : List Text) (state : Document × Counter) :
    (blocks.foldl extend state).2.count =
      state.2.count + (blocks.filterMap Comment.error?).length := by
  induction blocks generalizing state with
  | nil => rfl
  | cons block rest ih =>
      rw [List.foldl_cons, ih, extend, List.filterMap_cons, Comment.error?]
      cases Comment.read block with
      | ok element => rfl
      | error error =>
          simp only [Reporter.skipped, List.length_cons]
          omega

theorem count_parse (source : Text) (counter : Counter) :
    (parse source counter).2.count =
      counter.count + ((Comment.blocks source).filterMap Comment.error?).length := by
  rw [parse, count_foldl_extend]

end Document

namespace Report

/-- What a report adds to the errors collected before it, and the elements that it gives. A source text adds
one error for each block that is refused and gives one element for each other block, in the order of the
blocks. -/
inductive Adds : Report → List Comment.Error → List Element → Prop
  | refused (error : Comment.Error) : Adds (.refused error) [error] []
  | source {text : Text} {errors : List Comment.Error} {elements : List Element} :
      errors = ((Comment.blocks text).filter fun block => !Comment.accepted block).map
        (fun block => .missingName (Comment.plain block)) →
      List.Forall₂ (fun block element => Comment.read block = .ok element)
        ((Comment.blocks text).filter Comment.accepted) elements →
      elements.length + errors.length = (Comment.blocks text).length →
      Adds (.source text) errors elements

/-- Reports accounted for one by one, given the errors collected before the first of them: after each, the
counter has counted what the collector holds, both have been given the same document, and what was collected
before is followed by what the report adds. -/
inductive Accounted : List Comment.Error → List Report → List (Document × Counter) →
    List (Document × Collector) → Prop
  | nil {earlier : List Comment.Error} : Accounted earlier [] [] []
  | cons {earlier added : List Comment.Error} {report : Report} {reports : List Report}
      {counter : Counter} {collector : Collector} {document : Document}
      {counted : List (Document × Counter)} {collected : List (Document × Collector)} :
      report.Adds added document.elements → collector.errors = earlier ++ added →
      counter.count = collector.errors.length →
      Accounted collector.errors reports counted collected →
      Accounted earlier (report :: reports) ((document, counter) :: counted)
        ((document, collector) :: collected)

theorem hand_adds (report : Report) (counter : Counter) (collector : Collector) :
    ∃ added, report.Adds added (hand counter report).1.elements ∧
      (hand collector report).1 = (hand counter report).1 ∧
      (hand collector report).2.errors = collector.errors ++ added ∧
      (hand counter report).2.count = counter.count + added.length := by
  cases report with
  | refused error => exact ⟨[error], .refused error, rfl, rfl, rfl⟩
  | source text =>
      refine ⟨(Comment.blocks text).filterMap Comment.error?, ?_, Document.parse_fst_eq _ _ _, ?_,
        Document.count_parse text counter⟩
      · rw [hand, Document.elements_parse]
        exact .source (Comment.filterMap_error? _) (Comment.forall₂_filterMap_element? _)
          (Comment.length_elements_add_errors _)
      · rw [hand, Document.parse_collector]

theorem accounted_handAll {counter : Counter} {collector : Collector}
    (agree : counter.count = collector.errors.length) (reports : List Report) :
    Accounted collector.errors reports (handAll counter reports) (handAll collector reports) := by
  induction reports generalizing counter collector with
  | nil => exact .nil
  | cons report reports ih =>
      obtain ⟨added, adds, same, appended, counted⟩ := hand_adds report counter collector
      have agree_after : (hand counter report).2.count = (hand collector report).2.errors.length := by
        rw [counted, appended, List.length_append, agree]
      have accounted := Accounted.cons adds appended agree_after (ih agree_after)
      rw [handAll, handAll, show hand collector report =
        ((hand counter report).1, (hand collector report).2) from Prod.ext same rfl]
      exact accounted

theorem Accounted.prefix_of_mem {earlier : List Comment.Error} {reports : List Report}
    {counted : List (Document × Counter)} {collected : List (Document × Collector)}
    (accounted : Accounted earlier reports counted collected) :
    ∀ result ∈ collected, earlier <+: result.2.errors := by
  induction accounted with
  | nil => simp
  | cons adds appended agree rest ih =>
      have first := appended ▸ List.prefix_append _ _
      intro result member
      rcases List.mem_cons.mp member with rfl | later
      · exact first
      · exact first.trans (ih result later)

theorem Accounted.pairwise_prefix {earlier : List Comment.Error} {reports : List Report}
    {counted : List (Document × Counter)} {collected : List (Document × Collector)}
    (accounted : Accounted earlier reports counted collected) :
    collected.Pairwise fun before after => before.2.errors <+: after.2.errors := by
  induction accounted with
  | nil => exact .nil
  | cons adds appended agree rest ih => exact .cons rest.prefix_of_mem ih

/-- However reports and source texts follow one another, a counter and a collector that are told of them agree
after each, every block is accounted for, and what has been collected stays. -/
theorem handAll_accounted (reports : List Report) :
    Accounted [] reports (handAll ({} : Counter) reports) (handAll ({} : Collector) reports) ∧
      (handAll ({} : Collector) reports).Pairwise
        fun before after => before.2.errors <+: after.2.errors := by
  have agree : ({} : Counter).count = ({} : Collector).errors.length := rfl
  have accounted := accounted_handAll agree reports
  exact ⟨accounted, accounted.pairwise_prefix⟩

end Report

end ApiDoc
