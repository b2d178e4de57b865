import ApiDoc.Proofs.Comment.Blocks
import ApiDoc.Proofs.Comment.Meaning
import ApiDoc.Proofs.Comment.Tags
import ApiDoc.Proofs.Report

/-!
Every element that is read is well formed.

A block holds no closing marker, a tag says nothing that spans two lines, and whatever is kept of
either is trimmed. Each tag therefore leaves an element presentable, and a presentable element that has
a name is well formed.
-/

namespace ApiDoc

namespace Comment

theorem parameter_of_trimmed {value : Text} (trimmed : value.Trimmed) (single : value.Inline) :
    (parameter value).WellFormed ∧ (parameter value).line = value := by
  have saidBy := parameter_saidBy trimmed
  generalize parameter value = said at saidBy
  cases saidBy with
  | bare free => exact ⟨⟨trimmed, free, single, Text.inline_nil⟩, rfl⟩
  | @documented name doc free nonempty =>
      have line : (Parameter.mk name doc).line = name ++ ' ' :: doc := if_neg nonempty
      have name_inside : name <:+: name ++ ' ' :: doc := ⟨[], ' ' :: doc, by simp⟩
      have doc_inside : doc <:+: name ++ ' ' :: doc := ⟨name ++ [' '], [], by simp⟩
      refine ⟨⟨?_, free, single.of_isInfix name_inside, single.of_isInfix doc_inside⟩, line⟩
      rw [line]
      exact trimmed

theorem description_trimmed (text : Text) : Text.Trimmed (description text) := by
  apply Text.Trimmed.map (Text.trimmed_trim _)
  intro char
  split
  · next newline =>
      rw [newline]
      decide
  · rfl

theorem at_notMem_description (text : Text) : '@' ∉ description text := by
  intro member
  obtain ⟨char, inside, same⟩ := List.mem_map.mp member
  have kept := List.mem_takeWhile_imp ((Text.trim_isInfix _).subset inside)
  split at same
  · simp at same
  · simp [same] at kept

theorem description_inline {text : Text} (free : ¬ markers.closing <:+: text) :
    Text.Inline (description text) := by
  constructor
  · intro member
    obtain ⟨char, _, same⟩ := List.mem_map.mp member
    split at same
    · simp at same
    · contradiction
  · intro inside
    obtain ⟨part, found, same⟩ := List.infix_map_iff.mp inside
    have untouched : ∀ char ∈ part, (if char = '\n' then ' ' else char) = id char := by
      intro char member
      split
      · next newline =>
          have replaced : ' ' ∈ "*/".toList := by
            rw [same]
            exact List.mem_map.mpr ⟨char, member, if_pos newline⟩
          exact absurd replaced (by decide)
      · rfl
    rw [List.map_congr_left untouched, List.map_id] at same
    rw [← same] at found
    exact free ((found.trans (Text.trim_isInfix _)).trans (List.takeWhile_prefix _).isInfix)

end Comment

namespace Element

/-- What every tag leaves as it is: all of being well formed, but having a name. -/
structure Presentable (element : Element) : Prop where
  name_trimmed : element.name.Trimmed
  result_trimmed : element.result.Trimmed
  description_trimmed : element.description.Trimmed
  at_notMem_description : '@' ∉ element.description
  name_inline : element.name.Inline
  result_inline : element.result.Inline
  description_inline : element.description.Inline
  parameters : ∀ parameter ∈ element.parameters, parameter.WellFormed

theorem Presentable.describe {element : Element} (presentable : element.Presentable) {tag : Tag}
    (trimmed : tag.value.Trimmed) (single : tag.value.Inline) :
    (element.describe tag).Presentable := by
  rw [Element.describe]
  split
  · exact { presentable with name_trimmed := trimmed, name_inline := single }
  split
  · exact { presentable with result_trimmed := trimmed, result_inline := single }
  split
  · exact { presentable with }
  split
  · refine { presentable with parameters := ?_ }
    intro parameter member
    rcases List.mem_append.mp member with earlier | new
    · exact presentable.parameters parameter earlier
    · rw [List.mem_singleton.mp new]
      exact (Comment.parameter_of_trimmed trimmed single).1
  · exact presentable

theorem Presentable.foldl_describe {element : Element} (presentable : element.Presentable)
    (tags : List Tag) (valid : ∀ tag ∈ tags, tag.value.Trimmed ∧ tag.value.Inline) :
    (tags.foldl Element.describe element).Presentable := by
  induction tags generalizing element with
  | nil => exact presentable
  | cons tag rest ih =>
      obtain ⟨trimmed, single⟩ := valid tag (by simp)
      exact ih (presentable.describe trimmed single)
        fun later member => valid later (List.mem_cons_of_mem tag member)

theorem Presentable.wellFormed {element : Element} (presentable : element.Presentable)
    (named : element.name ≠ []) : element.WellFormed :=
  { presentable with name_ne_nil := named }

end Element

namespace Comment

theorem element_presentable {text : Text} (free : ¬ markers.closing <:+: text) :
    (element text).Presentable := by
  apply Element.Presentable.foldl_describe
  · exact {
      name_trimmed := Text.trimmed_nil
      result_trimmed := Text.trimmed_nil
      description_trimmed := description_trimmed text
      at_notMem_description := at_notMem_description text
      name_inline := Text.inline_nil
      result_inline := Text.inline_nil
      description_inline := description_inline free
      parameters := by simp
    }
  · intro tag member
    obtain ⟨trimmed, single, inside⟩ := Tag.value_of_mem_scan member
    exact ⟨trimmed, single, fun found => free (found.trans inside)⟩

theorem wellFormed_of_read {block : Text} {found : Element}
    (free : ¬ markers.closing <:+: block) (described : read block = .ok found) :
    found.WellFormed := by
  rw [read] at described
  split at described
  · simp at described
  · next named =>
      simp only [Except.ok.injEq] at described
      subst found
      exact (element_presentable (not_infix_plain free)).wellFormed named

end Comment

theorem Parameter.WellFormed.doc_eq_nil {parameter : Parameter} (formed : parameter.WellFormed)
    (nameless : parameter.name = []) : parameter.doc = [] := by
  by_contra documented
  have trimmed := formed.line_trimmed
  rw [Parameter.line, if_neg documented, nameless, Text.trimmed_iff] at trimmed
  exact absurd (trimmed.1 ' ' (by simp)) (by decide)

/-- Whatever the source text, every element read from it is well formed, and a parameter without a
name has no text either. -/
theorem wellFormed_of_mem_parse {σ : Type} [Reporter σ] (source : Text) (reporter : σ) :
    ∀ element ∈ (Document.parse source reporter).1.elements, element.WellFormed ∧
      ∀ parameter ∈ element.parameters, parameter.name = [] → parameter.doc = [] := by
  intro element member
  rw [Document.elements_parse, List.mem_filterMap] at member
  obtain ⟨block, found, described⟩ := member
  have formed : element.WellFormed :=
    Comment.wellFormed_of_read (Comment.not_infix_of_mem_blocks found)
      (Comment.element?_eq_some_iff.mp described)
  exact ⟨formed, fun parameter belongs => (formed.parameters parameter belongs).doc_eq_nil⟩

/-- An unruly comment: a nested opening marker, a stray `@`, tag names that end in blanks other than a
space, and a comment behind it that is never closed. -/
def unrulySource : Text :=
  ("/*# /*# \u3000 a\t@x\n ** @param\t p  q * r\n" ++ "@name\u00a0 n @m\n@return */ /*#/ @name x").toList

def unrulyElement : Element where
  name := "n @m".toList
  description := "# \u3000 a".toList
  parameters := [⟨"p".toList, " q * r".toList⟩]

theorem wellFormed_of_mem_parse_unruly : unrulyElement.WellFormed ∧
    ∀ parameter ∈ unrulyElement.parameters, parameter.name = [] → parameter.doc = [] := by
  have member : unrulyElement ∈ (Document.parse unrulySource ({} : Counter)).1.elements := by
    decide +kernel
  exact wellFormed_of_mem_parse unrulySource ({} : Counter) unrulyElement member

end ApiDoc
