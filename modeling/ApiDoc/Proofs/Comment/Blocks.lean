import ApiDoc.Comment
import ApiDoc.Element
import ApiDoc.Proofs.Text.Delimited
import ApiDoc.Proofs.Text.Lines
import ApiDoc.Proofs.Text.Trimming

/-!
Blocks and their plain texts.

A block holds no closing marker, and neither does its plain text. A line that is framed by blanks and
a star reads as the line itself.
-/

namespace ApiDoc

instance (text : Text) : Decidable text.Inline :=
  inferInstanceAs (Decidable ('\n' ∉ text ∧ ¬ "*/".toList <:+: text))

instance (parameter : Parameter) : Decidable parameter.WellFormed :=
  decidable_of_iff (parameter.line.Trimmed ∧ ' ' ∉ parameter.name ∧ parameter.name.Inline ∧
      parameter.doc.Inline)
    ⟨fun ⟨line, space, name, doc⟩ => ⟨line, space, name, doc⟩,
      fun ⟨line, space, name, doc⟩ => ⟨line, space, name, doc⟩⟩

instance (element : Element) : Decidable element.WellFormed :=
  decidable_of_iff (element.name ≠ [] ∧ (element.name.Trimmed ∧ element.name.Inline) ∧
      (element.result.Trimmed ∧ element.result.Inline) ∧
      (element.description.Trimmed ∧ '@' ∉ element.description ∧ element.description.Inline) ∧
      ∀ parameter ∈ element.parameters, parameter.WellFormed)
    ⟨fun ⟨named, name, result, description, parameters⟩ => ⟨named, name.1, result.1,
        description.1, description.2.1, name.2, result.2, description.2.2, parameters⟩,
      fun formed => ⟨formed.name_ne_nil, ⟨formed.name_trimmed, formed.name_inline⟩,
        ⟨formed.result_trimmed, formed.result_inline⟩,
        ⟨formed.description_trimmed, formed.at_notMem_description, formed.description_inline⟩,
        formed.parameters⟩⟩

theorem Text.Inline.of_isInfix {part text : Text} (whole : text.Inline) (inside : part <:+: text) :
    part.Inline :=
  ⟨fun member => whole.1 (inside.subset member), fun found => whole.2 (found.trans inside)⟩

theorem Text.inline_nil : Text.Inline [] := by
  refine ⟨List.not_mem_nil, ?_⟩
  decide

namespace Comment

theorem opening_unbordered : Unbordered markers.opening := by decide

theorem closing_unbordered : Unbordered markers.closing := by decide

theorem not_infix_of_mem_blocks {source block : Text} (found : block ∈ blocks source) :
    ¬ markers.closing <:+: block :=
  Delimiters.not_infix_of_mem_bodies (by decide) found

theorem blocks_append {gap body : Text} (gap_free : ¬ markers.opening <:+: gap)
    (body_free : ¬ markers.closing <:+: body) (rest : Text) :
    blocks (gap ++ markers.opening ++ (body ++ markers.closing ++ rest)) = body :: blocks rest := by
  rw [blocks, Delimiters.bodies,
    Delimiters.scan_append opening_unbordered closing_unbordered gap_free body_free]
  rfl

theorem blocks_of_free {source : Text} (free : ¬ markers.opening <:+: source) :
    blocks source = [] := by
  rw [blocks, Delimiters.bodies, Delimiters.scan_of_free free]

theorem plainLine_isInfix (line : Text) : plainLine line <:+: line := by
  rw [plainLine]
  split
  · next before content found =>
      have whole := eq_append_of_cutAt? found
      have behind : content <:+: line.trim := ⟨before ++ ['*'], [], by simp [whole]⟩
      exact ((Text.trim_isInfix content).trans behind).trans (Text.trim_isInfix line)
  · exact Text.trim_isInfix line

theorem not_infix_plain {block : Text} (free : ¬ markers.closing <:+: block) :
    ¬ markers.closing <:+: plain block := by
  intro inside
  obtain ⟨line, member, found⟩ :=
    Text.infix_line_of_infix_unlines (by decide) (by decide) inside
  obtain ⟨original, belongs, rfl⟩ := List.mem_map.mp member
  exact free ((found.trans (plainLine_isInfix original)).trans (Text.infix_of_mem_lines belongs))

theorem plainLine_of_blank {line : Text} (blank : ∀ char ∈ line, Text.isBlank char) :
    plainLine line = [] := by
  have free : ¬ ['*'] <:+: ([] : Text) := by decide
  rw [plainLine, Text.trim_eq_nil_of_blank blank, cutAt?_eq_none_iff.mpr free]

def Decoration.line (decoration : Decoration) (line : Text) : Text :=
  decoration.before ++ '*' :: decoration.behind ++ line

theorem plainLine_star {before behind : Text} (before_blank : ∀ char ∈ before, Text.isBlank char)
    (behind_blank : ∀ char ∈ behind, Text.isBlank char) (line : Text) :
    plainLine (before ++ '*' :: behind ++ line) = line.trim := by
  have trimmed : Text.trim (before ++ '*' :: behind ++ line) =
      [] ++ '*' :: Text.trimEnd (behind ++ line) := by
    rw [List.append_assoc, Text.trim_append_of_blank before_blank, List.cons_append,
      Text.trim_cons_of_visible (by decide), List.nil_append]
  have cut := cutAt?_singleton_append (List.not_mem_nil (a := '*')) (Text.trimEnd (behind ++ line))
  rw [plainLine, trimmed, cut]
  simp only
  rw [Text.trim_trimEnd, Text.trim_append_of_blank behind_blank]

theorem plainLine_line (decoration : Decoration) (line : Text) :
    plainLine (decoration.line line) = line.trim :=
  plainLine_star (fun char member => (decoration.before_blank char member).1)
    (fun char member => (decoration.behind_blank char member).1) line

end Comment

end ApiDoc
