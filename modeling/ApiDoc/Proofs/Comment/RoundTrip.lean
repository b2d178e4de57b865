import ApiDoc.Proofs.Comment.Meaning
import ApiDoc.Proofs.Comment.Rendering
import ApiDoc.Proofs.Report

/-!
Elements that are rendered into a page are read back from it.

The tags of a well-formed element build it up again, so its body reads as the element. On a page the
search finds the bodies one after another, whatever stands between the comments.
-/

namespace ApiDoc

namespace Comment

theorem parameter_line {parameter : Parameter} (formed : parameter.WellFormed) :
    Comment.parameter parameter.line = parameter := by
  obtain ⟨name, doc⟩ := parameter
  have free : ' ' ∉ name := formed.space_notMem_name
  by_cases undocumented : doc = []
  · subst undocumented
    exact parameter_eq_of_saidBy (.bare free)
  · rw [Parameter.line, if_neg undocumented]
    exact parameter_eq_of_saidBy (.documented free undocumented)

end Comment

namespace Element

theorem describe_name (element : Element) (value : Text) :
    element.describe ⟨"name".toList, value⟩ = { element with name := value } :=
  if_pos rfl

theorem describe_return (element : Element) (value : Text) :
    element.describe ⟨"return".toList, value⟩ = { element with result := value } := by
  have notName : "return".toList ≠ "name".toList := by decide
  exact (if_neg notName).trans (if_pos rfl)

theorem describe_variable (element : Element) (value : Text) :
    element.describe ⟨"variable".toList, value⟩ = { element with kind := .variable } := by
  have notName : "variable".toList ≠ "name".toList := by decide
  have notReturn : "variable".toList ≠ "return".toList := by decide
  exact (if_neg notName).trans ((if_neg notReturn).trans (if_pos rfl))

theorem describe_param (element : Element) (value : Text) :
    element.describe ⟨"param".toList, value⟩ =
      { element with parameters := element.parameters ++ [Comment.parameter value] } := by
  have notName : "param".toList ≠ "name".toList := by decide
  have notReturn : "param".toList ≠ "return".toList := by decide
  have notVariable : "param".toList ≠ "variable".toList := by decide
  exact (if_neg notName).trans
    ((if_neg notReturn).trans ((if_neg notVariable).trans (if_pos rfl)))

theorem foldl_describe_params (element : Element) (parameters : List Parameter)
    (formed : ∀ parameter ∈ parameters, parameter.WellFormed) :
    (parameters.map fun parameter =>
        Tag.mk "param".toList parameter.line).foldl Element.describe element =
      { element with parameters := element.parameters ++ parameters } := by
  induction parameters generalizing element with
  | nil => simp
  | cons parameter rest ih =>
      have described := Comment.parameter_line (formed parameter (by simp))
      rw [List.map_cons, List.foldl_cons, describe_param, described,
        ih _ fun later member => formed later (List.mem_cons_of_mem parameter member)]
      simp

theorem WellFormed.foldl_describe_tags {element : Element} (formed : element.WellFormed) :
    element.tags.foldl Element.describe { description := element.description } = element := by
  obtain ⟨kind, name, description, result, parameters⟩ := element
  rw [tags, List.foldl_append, List.foldl_append, List.foldl_append]
  have kinds : (if kind = .variable then [Tag.mk "variable".toList []] else []).foldl
      Element.describe { description } = { kind, description } := by
    cases kind
    · rfl
    · rw [if_pos rfl, List.foldl_cons, describe_variable, List.foldl_nil]
  simp only
  rw [kinds, List.foldl_cons, List.foldl_nil, describe_name,
    foldl_describe_params _ parameters formed.parameters]
  split
  · next silent => simp [silent]
  · rw [List.foldl_cons, List.foldl_nil, describe_return]
    simp

end Element

namespace Comment

theorem read_body {element : Element} (formed : element.WellFormed) (layout : Layout) :
    read (body element layout) = .ok element := by
  have described : Comment.element (plain (body element layout)) = element := by
    rw [Comment.element, scan_plain_body formed, description_plain_body formed,
      formed.foldl_describe_tags]
  rw [read, described, if_neg formed.name_ne_nil]

structure Entry where
  gap : Text
  element : Element
  layout : Layout

def page (entries : List Entry) (rest : Text) : Text :=
  (entries.flatMap fun entry => entry.gap ++ entry.element.render entry.layout) ++ rest

theorem blocks_page {entries : List Entry}
    (formed : ∀ entry ∈ entries, entry.element.WellFormed)
    (gaps : ∀ entry ∈ entries, ¬ "/*#".toList <:+: entry.gap) (rest : Text) :
    blocks (page entries rest) =
      (entries.map fun entry => body entry.element entry.layout) ++ blocks rest := by
  induction entries with
  | nil => rfl
  | cons entry entries ih =>
      obtain ⟨first, later⟩ := List.forall_mem_cons.mp formed
      obtain ⟨gap, between⟩ := List.forall_mem_cons.mp gaps
      have shape : page (entry :: entries) rest = entry.gap ++ markers.opening ++
          (body entry.element entry.layout ++ markers.closing ++ page entries rest) := by
        simp [page, render_eq]
      rw [shape, blocks_append gap (body_free first entry.layout), ih later between]
      rfl

end Comment

/-- Reading a page gives the elements on it, in order and without a refusal, and then whatever the
text behind the last comment gives: nothing, if no comment is opened there. -/
theorem parse_page (entries : List Comment.Entry)
    (formed : ∀ entry ∈ entries, entry.element.WellFormed)
    (gaps : ∀ entry ∈ entries, ¬ "/*#".toList <:+: entry.gap) :
    (∀ rest, Document.parse (Comment.page entries rest) ({} : Collector) =
      (⟨entries.map Comment.Entry.element ++ (Document.parse rest ({} : Collector)).1.elements⟩,
        (Document.parse rest ({} : Collector)).2)) ∧
    ∀ rest, ¬ "/*#".toList <:+: rest →
      Document.parse (Comment.page entries rest) ({} : Collector) =
        (⟨entries.map Comment.Entry.element⟩, {}) := by
  have read : ∀ entry ∈ entries,
      Comment.read (Comment.body entry.element entry.layout) = .ok entry.element :=
    fun entry member => Comment.read_body (formed entry member) entry.layout
  have described : (entries.map fun entry =>
      Comment.body entry.element entry.layout).filterMap Comment.element? =
        entries.map Comment.Entry.element := by
    rw [List.filterMap_map, ← List.filterMap_eq_map]
    exact List.filterMap_congr fun entry member =>
      Comment.element?_eq_some_iff.mpr (read entry member)
  have accepted : (entries.map fun entry =>
      Comment.body entry.element entry.layout).filterMap Comment.error? = [] := by
    rw [List.filterMap_map, List.filterMap_eq_nil_iff]
    intro entry member
    rw [Function.comp_apply, Comment.error?, read entry member]
  have general : ∀ rest, Document.parse (Comment.page entries rest) ({} : Collector) =
      (⟨entries.map Comment.Entry.element ++ (Document.parse rest ({} : Collector)).1.elements⟩,
        (Document.parse rest ({} : Collector)).2) := by
    intro rest
    rw [Document.parse_collector, Document.parse_collector, Comment.blocks_page formed gaps,
      List.filterMap_append, List.filterMap_append, described, accepted]
    rfl
  refine ⟨general, ?_⟩
  intro rest free
  rw [general, Document.parse_collector, Comment.blocks_of_free free]
  simp

/-- Two comments that are easily misread. The text before the first ends with the beginning of an
opening marker, and the second follows with no gap and holds an opening marker in its description. -/
def Comment.trapEntries : List Comment.Entry :=
  let tabbed : Comment.Decoration := ⟨"\t".toList, "\u3000 ".toList, by decide, by decide, by decide⟩
  let flush : Comment.Decoration := ⟨[], " ".toList, by decide, by decide, by decide⟩
  [{ gap := "int a; /* plain */ /*".toList
     element := {
       kind := .variable
       name := "a*b @name c".toList
       result := "**".toList
       parameters := [⟨[], []⟩, ⟨"x".toList, "  far off".toList⟩, ⟨"*".toList, "/ @y".toList⟩] }
     layout := ⟨fun index => if index = 0 then tabbed else flush, "\r\n ".toList, by decide⟩ },
   { gap := []
     element := { name := "g".toList, description := "* /*# nested".toList }
     layout := ⟨fun _ => tabbed, [], by decide⟩ }]

theorem parse_page_trapEntries :
    Document.parse (Comment.page Comment.trapEntries "*# / * /".toList) ({} : Collector) =
      (⟨Comment.trapEntries.map Comment.Entry.element⟩, {}) := by
  have formed : ∀ entry ∈ Comment.trapEntries, entry.element.WellFormed := by decide +kernel
  have gaps : ∀ entry ∈ Comment.trapEntries, ¬ "/*#".toList <:+: entry.gap := by decide +kernel
  have closing : ¬ "/*#".toList <:+: "*# / * /".toList := by decide
  exact (parse_page Comment.trapEntries formed gaps).2 _ closing

end ApiDoc
