import ApiDoc.Extraction
import ApiDoc.Proofs.Comment.WellFormed
import ApiDoc.Proofs.Json.Documents
import ApiDoc.Proofs.Text.Joined

/-!
A document of comments holds no comment.

No text that is kept of a comment holds the marker that closes one. In quotes each character stays what it is or
becomes an escape without a star, so quoting brings no star before a slash, and the layout has neither. What is
written of a source text is therefore a source text that documents nothing.
-/

namespace ApiDoc

theorem Element.WellFormed.not_infix_of_mem_texts {element : Element} (formed : element.WellFormed) {text : Text}
    (member : text ∈ element.texts) : ¬ Comment.markers.closing <:+: text := by
  rcases List.mem_append.mp member with own | inside
  · simp only [List.mem_cons, List.not_mem_nil, or_false] at own
    rcases own with rfl | rfl | rfl
    · exact formed.name_inline.2
    · exact formed.description_inline.2
    · exact formed.result_inline.2
  · obtain ⟨parameter, among, said⟩ := List.mem_flatMap.mp inside
    have whole := formed.parameters parameter among
    simp only [Parameter.texts, List.mem_cons, List.not_mem_nil, or_false] at said
    rcases said with rfl | rfl
    · exact whole.name_inline.2
    · exact whole.doc_inline.2

theorem Document.not_infix_of_mem_texts {σ : Type} [Reporter σ] {source : Text} {reporter : σ} {text : Text}
    (member : text ∈ (Document.parse source reporter).1.texts) : ¬ Comment.markers.closing <:+: text := by
  obtain ⟨element, among, said⟩ := List.mem_flatMap.mp member
  rw [Document.elements_parse, List.mem_filterMap] at among
  obtain ⟨block, found, described⟩ := among
  have formed : element.WellFormed :=
    Comment.wellFormed_of_read (Comment.not_infix_of_mem_blocks found) (Comment.element?_eq_some_iff.mp described)
  exact formed.not_infix_of_mem_texts said

namespace Json

theorem star_notMem_escape {char : Char} (other : char ≠ '*') : '*' ∉ escape char := by
  rcases escape_cases char with ⟨letter, listed, -, written⟩ | ⟨control, written⟩ | ⟨-, -, -, written⟩
  · have letters : ∀ letter ∈ "\"\\bfnrt".toList, '*' ∉ ['\\', letter] := by decide
    rw [written]
    exact letters letter listed
  · have digits : ∀ digit < 16, hexDigit digit ≠ '*' := by decide
    have high := digits (char.toNat / 16) (by omega)
    have low := digits (char.toNat % 16) (by omega)
    rw [written]
    simp [high.symm, low.symm]
  · rw [written, List.mem_singleton]
    exact other.symm

theorem slash_prefix_flatMap_escape {content : Text} (begins : ['/'] <+: content.flatMap escape) :
    ['/'] <+: content := by
  cases content with
  | nil => exact begins
  | cons char content =>
      rw [List.flatMap_cons] at begins
      rcases escape_cases char with ⟨letter, -, -, written⟩ | ⟨-, written⟩ | ⟨-, -, -, written⟩
      · simp [written] at begins
      · simp [written] at begins
      · rw [written] at begins
        simpa using begins

theorem not_infix_flatMap_escape {content : Text} (free : ¬ Comment.markers.closing <:+: content) :
    ¬ Comment.markers.closing <:+: content.flatMap escape := by
  induction content with
  | nil => exact free
  | cons char content ih =>
      have later := ih fun inside => free (List.infix_cons inside)
      rw [List.flatMap_cons]
      by_cases star : char = '*'
      · subst star
        intro inside
        rcases List.infix_cons_iff.mp inside with here | behind
        · have slash : ['/'] <+: content.flatMap escape := (List.cons_prefix_cons.mp here).2
          exact free (List.prefix_cons_inj '*' |>.mpr (slash_prefix_flatMap_escape slash)).isInfix
        · exact later behind
      · have apart : Apart Comment.markers.closing (escape char) := apart_of_notMem (star_notMem_escape star)
        have ended : Apart Comment.markers.closing (content.flatMap escape ++ ['"']) :=
          apart_append_separator (by decide) (by decide) later
        intro inside
        have both := apart.append ended
        rw [← List.append_assoc] at both
        exact both.free (inside.trans (List.prefix_append _ _).isInfix)

theorem apart_quote {content : Text} (free : ¬ Comment.markers.closing <:+: content) :
    Apart Comment.markers.closing (quote content) := by
  have opened : Apart Comment.markers.closing ['"'] := apart_of_notMem (by decide)
  exact opened.append (apart_append_separator (by decide) (by decide) (not_infix_flatMap_escape free))

theorem laid_apart : Laid (Apart Comment.markers.closing) where
  append := Apart.append
  single char member := by
    have others : ∀ char ∈ layout, '*' ∉ [char] := by decide
    exact apart_of_notMem (others char member)

theorem apart_write {document : Document}
    (free : ∀ text ∈ document.texts, ¬ Comment.markers.closing <:+: text) :
    Apart Comment.markers.closing (write document) := by
  have known : ∀ word ∈ words, ¬ Comment.markers.closing <:+: word := by decide
  exact laid_apart.write (fun word member => apart_quote (known word member))
    fun text member => apart_quote (free text member)

/-- The document of a source text is written without a marker that closes a comment. A file that holds what was
written is read as the text that was written, which has no blocks, gives no element, and leaves nothing to
report. -/
theorem parse_write_parse {σ τ : Type} [Reporter σ] [Reporter τ] (source : Text) (first : σ) (second : τ) :
    let document := (Document.parse source first).1
    ¬ "*/".toList <:+: write document ∧
      (∀ path, Extraction.source [⟨path, encode document⟩] = write document) ∧
      Comment.blocks (write document) = [] ∧ Document.parse (write document) second = ({}, second) := by
  intro document
  have unclosed : ¬ Comment.markers.closing <:+: write document :=
    (apart_write fun text member => Document.not_infix_of_mem_texts member).free
  have none : Comment.blocks (write document) = [] := Delimiters.bodies_of_unclosed unclosed
  refine ⟨unclosed, fun path => ?_, none, ?_⟩
  · rw [Extraction.source, List.flatMap_singleton]
    exact Utf8.decodeLossy_encode _
  · rw [Document.parse, none]
    rfl

end Json

end ApiDoc
