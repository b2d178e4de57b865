import ApiDoc.Proofs.Comment.Blocks
import ApiDoc.Proofs.Report
import ApiDoc.Proofs.Text.Joined

/-!
Reading goes on where it stopped.

The tail of a source text is all of it that what is appended can still change. Reading a text that
goes on is therefore reading its first part, and then reading on from the tail of that.
-/

namespace ApiDoc

namespace Comment

/-- Whether a text is what stands behind the last block of a source text, or all of it when it has no
block. What stands before that block leaves no comment open, so the block begins behind it. -/
def IsTail (source rest : Text) : Prop :=
  match (blocks source).getLast? with
  | none => rest = source
  | some block => ∃ before, source = before ++ "/*#".toList ++ block ++ "*/".toList ++ rest ∧
      blocks before = (blocks source).dropLast ∧ ¬ "/*#".toList <:+: tail before

theorem isTail_iff {source rest : Text} : IsTail source rest ↔ rest = tail source := by
  rw [IsTail]
  split
  · next none =>
      have all : tail source = source :=
        Delimiters.tail_of_bodies_eq_nil (List.getLast?_eq_none_iff.mp none)
      rw [all]
  · next block found =>
      constructor
      · rintro ⟨before, whole, earlier, unopened⟩
        exact Delimiters.eq_tail opening_unbordered closing_unbordered (by decide) found whole
          earlier unopened
      · rintro rfl
        exact Delimiters.exists_eq_append_tail opening_unbordered closing_unbordered (by decide)
          found

theorem blocks_append_tail (first second : Text) :
    blocks (first ++ second) = blocks first ++ blocks (tail first ++ second) :=
  Delimiters.bodies_append_tail first second

/-- Whether a source text neither opens a comment that it does not close nor ends in the beginning of an
opening marker. -/
structure Closed (source : Text) : Prop where
  unopened : ¬ "/*#".toList <:+: tail source
  not_slash : ¬ "/".toList <:+ tail source
  not_slash_star : ¬ "/*".toList <:+ tail source

instance (source : Text) : Decidable (Closed source) :=
  decidable_of_iff (¬ "/*#".toList <:+: tail source ∧ ¬ "/".toList <:+ tail source ∧
      ¬ "/*".toList <:+ tail source)
    ⟨fun ⟨unopened, not_slash, not_slash_star⟩ => ⟨unopened, not_slash, not_slash_star⟩,
      fun closed => ⟨closed.unopened, closed.not_slash, closed.not_slash_star⟩⟩

theorem Closed.apart {source : Text} (closed : Closed source) :
    Apart markers.opening (tail source) where
  free := closed.unopened
  not_suffix part begins nonempty ends := by
    have beginnings : markers.opening.inits =
        [[], "/".toList, "/*".toList, "/*#".toList] := by decide
    have begun := (List.mem_inits part markers.opening).mpr begins
    rw [beginnings] at begun
    simp only [List.mem_cons, List.not_mem_nil, or_false] at begun
    rcases begun with rfl | rfl | rfl | rfl
    · exact nonempty rfl
    · exact closed.not_slash ends
    · exact closed.not_slash_star ends
    · exact closed.unopened ends.isInfix

theorem Closed.blocks_append {first : Text} (closed : Closed first) (second : Text) :
    blocks (first ++ second) = blocks first ++ blocks second := by
  have skipped : blocks (tail first ++ second) = blocks second :=
    Delimiters.bodies_append_of_apart closed.apart second
  rw [blocks_append_tail, skipped]

end Comment

/-- Reading on from the tail gives what reading the joined texts adds, so whatever is appended, what was
read before stays and comes first. -/
theorem parse_append (first second : Text) :
    let all := Document.parse (first ++ second) ({} : Collector)
    let begun := Document.parse first ({} : Collector)
    let resumed := Document.parse (Comment.tail first ++ second) ({} : Collector)
    (∀ rest, Comment.IsTail first rest ↔ rest = Comment.tail first) ∧
      Comment.blocks (first ++ second) =
        Comment.blocks first ++ Comment.blocks (Comment.tail first ++ second) ∧
      all.1.elements = begun.1.elements ++ resumed.1.elements ∧
      all.2.errors = begun.2.errors ++ resumed.2.errors ∧
      begun.1.elements <+: all.1.elements ∧
      begun.2.errors <+: all.2.errors := by
  intro all begun resumed
  have blocks := Comment.blocks_append_tail first second
  have elements : all.1.elements = begun.1.elements ++ resumed.1.elements := by
    simp only [all, begun, resumed, Document.elements_parse, blocks, List.filterMap_append]
  have errors : all.2.errors = begun.2.errors ++ resumed.2.errors := by
    simp only [all, begun, resumed, Document.parse_collector, blocks, List.filterMap_append,
      List.nil_append]
  refine ⟨fun rest => Comment.isTail_iff, blocks, elements, errors, ?_, ?_⟩
  · rw [elements]
    exact List.prefix_append _ _
  · rw [errors]
    exact List.prefix_append _ _

end ApiDoc
