import ApiDoc.Proofs.Comment.Blocks
import ApiDoc.Proofs.Text.Joined
import ApiDoc.Report

/-!
The margins of lines do not count.

Blanks at the ends of lines never touch a marker, so texts whose lines differ in such blanks alone are
cut at the same places into parts that again differ in them alone. Their blocks therefore have the same
plain texts, from which everything else is read.
-/

namespace ApiDoc

namespace Text

structure SameLine (first second : Text) : Prop where
  first_single : '\n' ∉ first
  second_single : '\n' ∉ second
  same : trim first = trim second

/-- Whether two texts have the same lines but for the blanks at the ends of each. -/
inductive Alike : Text → Text → Prop
  | last {first second : Text} : SameLine first second → Alike first second
  | line {first second rest other : Text} : SameLine first second → Alike rest other →
      Alike (first ++ '\n' :: rest) (second ++ '\n' :: other)

theorem Alike.map_trim_lines {first second : Text} (alike : Alike first second) :
    first.lines.map trim = second.lines.map trim := by
  induction alike with
  | last line =>
      rw [lines_eq_singleton line.first_single, lines_eq_singleton line.second_single,
        List.map_singleton, List.map_singleton, line.same]
  | line line rest ih =>
      rw [lines_append_newline, lines_append_newline, lines_eq_singleton line.first_single,
        lines_eq_singleton line.second_single, List.map_append, List.map_append, ih,
        List.map_singleton, List.map_singleton, line.same]

theorem alike_unlines {lines others : List Text} (nonempty : lines ≠ [])
    (whole : ∀ line ∈ lines, '\n' ∉ line) (others_whole : ∀ line ∈ others, '\n' ∉ line)
    (same : lines.map trim = others.map trim) : Alike (unlines lines) (unlines others) := by
  induction lines generalizing others with
  | nil => contradiction
  | cons first rest ih =>
      cases others with
      | nil => contradiction
      | cons second others =>
          rw [List.map_cons, List.map_cons, List.cons.injEq] at same
          rw [List.forall_mem_cons] at whole others_whole
          have line : SameLine first second := ⟨whole.1, others_whole.1, same.1⟩
          by_cases last : rest = []
          · subst last
            have empty : others = [] := List.map_eq_nil_iff.mp same.2.symm
            subst empty
            simpa [unlines] using Alike.last line
          · have more : others ≠ [] := by
              rintro rfl
              exact last (List.map_eq_nil_iff.mp same.2)
            rw [unlines_cons_of_ne_nil first last, unlines_cons_of_ne_nil second more]
            exact Alike.line line (ih last whole.2 others_whole.2 same.2)

theorem alike_of_map_trim_lines {first second : Text}
    (same : first.lines.map trim = second.lines.map trim) : Alike first second := by
  have alike := alike_unlines (lines_ne_nil first) (fun _ => newline_notMem_of_mem_lines)
    (fun _ => newline_notMem_of_mem_lines) same
  rwa [unlines_lines, unlines_lines] at alike

section Cutting

variable {marker : Text} (nonempty : marker ≠ []) (visible : ∀ char ∈ marker, ¬ isBlank char)

include nonempty visible

theorem SameLine.cutAt? {first second : Text} (line : SameLine first second) :
    Option.Rel (fun found other => SameLine found.1 other.1 ∧ SameLine found.2 other.2)
      (cutAt? marker first) (cutAt? marker second) := by
  have disjoint : ∀ {blanks : Text}, (∀ char ∈ blanks, isBlank char) →
      ∀ char ∈ blanks, char ∉ marker :=
    fun blank char member inside => visible char inside (blank char member)
  obtain ⟨single, other_single, same⟩ := line
  obtain ⟨before, behind, before_blank, behind_blank, whole⟩ := exists_eq_append_trim_append first
  obtain ⟨start, ending, start_blank, ending_blank, other_whole⟩ :=
    exists_eq_append_trim_append second
  rw [← same] at other_whole
  generalize trim first = content at whole other_whole
  subst whole other_whole
  rw [cutAt?_append_append_of_disjoint nonempty (disjoint before_blank) (disjoint behind_blank),
    cutAt?_append_append_of_disjoint nonempty (disjoint start_blank) (disjoint ending_blank)]
  cases found : ApiDoc.cutAt? marker content with
  | none => exact .none
  | some parts =>
      obtain ⟨left, right⟩ := parts
      obtain rfl := eq_append_of_cutAt? found
      simp only [List.mem_append, not_or] at single other_single
      refine .some ⟨⟨?_, ?_, ?_⟩, ⟨?_, ?_, ?_⟩⟩
      · simp [single]
      · simp [other_single]
      · rw [trim_append_of_blank before_blank, trim_append_of_blank start_blank]
      · simp [single]
      · simp [other_single]
      · rw [trim_append_of_blank_behind behind_blank, trim_append_of_blank_behind ending_blank]

theorem Alike.cutAt? {first second : Text} (alike : Alike first second) :
    Option.Rel (fun found other => Alike found.1 other.1 ∧ Alike found.2 other.2)
      (cutAt? marker first) (cutAt? marker second) := by
  have absent : '\n' ∉ marker := fun member => visible '\n' member (by decide)
  induction alike with
  | @last first second line =>
      have cut := line.cutAt? nonempty visible
      generalize ApiDoc.cutAt? marker first = found at cut ⊢
      generalize ApiDoc.cutAt? marker second = other at cut ⊢
      cases cut with
      | none => exact .none
      | some parts => exact .some ⟨.last parts.1, .last parts.2⟩
  | @line first second rest other line alike ih =>
      rw [cutAt?_append_separator nonempty absent, cutAt?_append_separator nonempty absent]
      have cut := line.cutAt? nonempty visible
      generalize ApiDoc.cutAt? marker first = here at cut ⊢
      generalize ApiDoc.cutAt? marker second = there at cut ⊢
      cases cut with
      | some parts => exact .some ⟨.last parts.1, .line parts.2 alike⟩
      | none =>
          generalize ApiDoc.cutAt? marker rest = here at ih ⊢
          generalize ApiDoc.cutAt? marker other = there at ih ⊢
          cases ih with
          | none => exact .none
          | some parts => exact .some ⟨.line line parts.1, parts.2⟩

end Cutting

end Text

namespace Comment

theorem first?_alike {first second : Text} (alike : first.Alike second) :
    Option.Rel (fun found other => Text.Alike found.1 other.1 ∧ Text.Alike found.2 other.2)
      (markers.first? first) (markers.first? second) := by
  rw [Delimiters.first?, Delimiters.first?]
  have opened : Option.Rel (fun found other => Text.Alike found.1 other.1 ∧ Text.Alike found.2 other.2)
      (cutAt? markers.opening first) (cutAt? markers.opening second) :=
    alike.cutAt? (by decide) (by decide)
  generalize cutAt? markers.opening first = here at opened ⊢
  generalize cutAt? markers.opening second = there at opened ⊢
  cases opened with
  | none => exact .none
  | some parts => exact parts.2.cutAt? (by decide) (by decide)

theorem plain_alike {first second : Text} (alike : first.Alike second) :
    plain first = plain second := by
  have trimmed : ∀ line, plainLine line = plainLine line.trim := by
    intro line
    rw [plainLine, plainLine, Text.trimmed_trim]
  have lines : ∀ text : Text, text.lines.map plainLine = (text.lines.map Text.trim).map plainLine := by
    intro text
    rw [List.map_map]
    exact List.map_congr_left fun line _ => trimmed line
  rw [plain, plain, lines first, lines second, alike.map_trim_lines]

theorem map_plain_blocks {first second : Text} (alike : first.Alike second) :
    (blocks first).map plain = (blocks second).map plain := by
  induction first using Delimiters.scan.induct markers generalizing second with
  | case1 first missing =>
      have cut := first?_alike alike
      rw [missing] at cut
      cases other : markers.first? second with
      | none => rw [blocks, blocks, Delimiters.bodies_of_none missing, Delimiters.bodies_of_none other]
      | some parts =>
          rw [other] at cut
          cases cut
  | case2 first body rest found ih =>
      have cut := first?_alike alike
      rw [found] at cut
      cases other : markers.first? second with
      | none =>
          rw [other] at cut
          cases cut
      | some parts =>
          rw [other] at cut
          obtain ⟨body_alike, rest_alike⟩ := cut
          rw [blocks, blocks, Delimiters.bodies_of_some found, Delimiters.bodies_of_some other,
            List.map_cons, List.map_cons, plain_alike body_alike]
          exact congrArg _ (ih rest_alike)

end Comment

theorem Document.extend_congr {σ : Type} [Reporter σ] {first second : Text}
    (same : Comment.plain first = Comment.plain second) (state : Document × σ) :
    extend state first = extend state second := by
  rw [extend, extend, Comment.read, Comment.read, same]

theorem Document.foldl_extend_congr {σ : Type} [Reporter σ] {blocks others : List Text}
    (same : blocks.map Comment.plain = others.map Comment.plain) (state : Document × σ) :
    blocks.foldl extend state = others.foldl extend state := by
  induction blocks generalizing others state with
  | nil =>
      rw [List.map_eq_nil_iff.mp same.symm]
  | cons first rest ih =>
      cases others with
      | nil => contradiction
      | cons second others =>
          rw [List.map_cons, List.map_cons, List.cons.injEq] at same
          rw [List.foldl_cons, List.foldl_cons, extend_congr same.1, ih same.2]

/-- Texts with the same trimmed lines give the same elements, and whoever is told of their blocks is told
the same. -/
theorem parse_eq_of_map_trim_lines {first second : Text}
    (same : first.lines.map Text.trim = second.lines.map Text.trim) {σ : Type} [Reporter σ]
    (reporter : σ) : Document.parse first reporter = Document.parse second reporter :=
  Document.foldl_extend_congr (Comment.map_plain_blocks (Text.alike_of_map_trim_lines same)) _

/-- A source text whose comments open and close in the middle of lines. The second is refused, and the
third is never closed. -/
def Comment.evenSource : Text :=
  "a; /*# Sum\n * of\n\n@name f\t*/ b; /*# no\n@name*/ /*#".toList

def Comment.raggedSource : Text :=
  " a; /*# Sum\r\n* of\u3000\r\n\r\n\t@name f\t*/ b; /*# no \r\n\x0c@name*/ /*#\r".toList

theorem parse_raggedSource :
    Comment.evenSource.lines.map Text.trim = Comment.raggedSource.lines.map Text.trim ∧
      Document.parse Comment.evenSource ({} : Collector) =
        Document.parse Comment.raggedSource ({} : Collector) := by
  have same : Comment.evenSource.lines.map Text.trim =
      Comment.raggedSource.lines.map Text.trim := by decide +kernel
  exact ⟨same, parse_eq_of_map_trim_lines same ({} : Collector)⟩

end ApiDoc
