import ApiDoc.Comment
import ApiDoc.Proofs.Comment.Boundary
import ApiDoc.Proofs.Comment.Meaning

/-!
Lines that say nothing.

The plain text of a block is that of its lines, and so are its tags. A line whose tags have none of the names that
tell of an element can therefore stand anywhere behind the description, and a line without an `@` can stand anywhere
if the description does not matter.
-/

namespace ApiDoc

namespace Tag

def tellingNames : List Text :=
  ["name".toList, "return".toList, "param".toList, "variable".toList]

theorem agree_insert (first last : List Tag) {ignored : List Tag}
    (silent : ∀ tag ∈ ignored, tag.name ∉ tellingNames) :
    Agree (first ++ (ignored ++ last)) (first ++ last) := by
  have none : ∀ name ∈ tellingNames, called name ignored = [] := by
    intro name telling
    rw [called, List.filter_eq_nil_iff]
    intro tag member same
    exact silent tag member (of_decide_eq_true same ▸ telling)
  have skip : ∀ name ∈ tellingNames, called name (first ++ (ignored ++ last)) = called name (first ++ last) := by
    intro name telling
    rw [called_append, called_append, called_append, none name telling, List.nil_append]
  refine ⟨skip _ (by decide), skip _ (by decide), skip _ (by decide), ?_⟩
  rw [← called_ne_nil_iff, ← called_ne_nil_iff, skip _ (by decide)]

end Tag

namespace Comment

theorem plain_append_newline (first rest : Text) :
    plain (first ++ '\n' :: rest) = plain first ++ '\n' :: plain rest := by
  rw [plain, Text.lines_append_newline, List.map_append, Text.unlines_append, plain, plain]
  · simpa using Text.lines_ne_nil first
  · simpa using Text.lines_ne_nil rest

theorem scan_plain_unlines (lines : List Text) :
    Tag.scan (plain (.unlines lines)) = lines.flatMap fun line => Tag.scan (plain line) := by
  induction lines with
  | nil =>
      have empty : plain (.unlines []) = [] := by decide
      rw [empty, Tag.scan_nil, List.flatMap_nil]
  | cons first rest ih =>
      by_cases last : rest = []
      · subst last
        simp [Text.unlines]
      · rw [Text.unlines_cons_of_ne_nil first last, plain_append_newline, Tag.scan_append_newline, ih,
          List.flatMap_cons]

theorem description_append_of_mem {first : Text} (stray : '@' ∈ first) (rest : Text) :
    description (first ++ rest) = description first := by
  obtain ⟨before, behind, rfl⟩ := List.append_of_mem stray
  rw [List.append_assoc, List.cons_append, description_append_at, description_append_at]

theorem description_plain_append {before : List Text} (ended : '@' ∈ plain (.unlines before))
    (behind : List Text) :
    description (plain (.unlines (before ++ behind))) = description (plain (.unlines before)) := by
  have before_ne_nil : before ≠ [] := by
    rintro rfl
    exact absurd ended (by decide)
  by_cases last : behind = []
  · rw [last, List.append_nil]
  · rw [Text.unlines_append before_ne_nil last, plain_append_newline, description_append_of_mem ended]

end Comment

namespace Element.Told

theorem redescribed {element : Element} {description : Text} {tags : List Tag}
    (told : element.Told description tags) (other : Text) :
    ({ element with description := other } : Element).Told other tags :=
  { told with description := rfl }

end Element.Told

namespace Comment

/-- A line whose tags tell nothing changes nothing behind the first `@` of a block, and a line without an `@`
changes the description at most, wherever it stands. -/
theorem read_insert_line (before behind : List Text) (line : Text) :
    ('@' ∈ plain (.unlines before) →
      (∀ tag ∈ Tag.scan (plain line), tag.name ∉ Tag.tellingNames) →
      ∀ found, read (.unlines (before ++ line :: behind)) = .ok found ↔
        read (.unlines (before ++ behind)) = .ok found) ∧
    ('@' ∉ plain line →
      (∀ found, read (.unlines (before ++ line :: behind)) = .ok found →
        ∃ description, read (.unlines (before ++ behind)) = .ok { found with description }) ∧
      ∀ found, read (.unlines (before ++ behind)) = .ok found →
        ∃ description, read (.unlines (before ++ line :: behind)) = .ok { found with description }) := by
  have added : Tag.scan (plain (.unlines (before ++ line :: behind))) =
      before.flatMap (fun line => Tag.scan (plain line)) ++
        (Tag.scan (plain line) ++ behind.flatMap fun line => Tag.scan (plain line)) := by
    rw [scan_plain_unlines, List.flatMap_append, List.flatMap_cons]
  have bare : Tag.scan (plain (.unlines (before ++ behind))) =
      before.flatMap (fun line => Tag.scan (plain line)) ++
        behind.flatMap fun line => Tag.scan (plain line) := by
    rw [scan_plain_unlines, List.flatMap_append]
  constructor
  · intro ended silent found
    have agree := Tag.agree_insert (before.flatMap fun line => Tag.scan (plain line))
      (behind.flatMap fun line => Tag.scan (plain line)) silent
    rw [← added, ← bare] at agree
    rw [read_eq_ok_iff, read_eq_ok_iff, description_plain_append ended, description_plain_append ended]
    exact ⟨fun told => told.of_agree agree, fun told => told.of_agree agree.symm⟩
  · intro free
    rw [Tag.scan_of_notMem free, List.nil_append, ← bare] at added
    constructor
    · intro found described
      have told := read_eq_ok_iff.mp described
      rw [added] at told
      exact ⟨_, read_eq_ok_iff.mpr (told.redescribed _)⟩
    · intro found described
      have told := read_eq_ok_iff.mp described
      rw [← added] at told
      exact ⟨_, read_eq_ok_iff.mpr (told.redescribed _)⟩

theorem read_insert_line_since :
    '@' ∈ plain (.unlines [" * Sum of".toList, "* all @ once".toList]) ∧
    (∀ tag ∈ Tag.scan (plain "\t* @since * 1 @name g".toList), tag.name ∉ Tag.tellingNames) ∧
    read (.unlines [" * Sum of".toList, "* all @ once".toList, "\t* @since * 1 @name g".toList,
      "@name f".toList]) = .ok { name := "f".toList, description := "Sum of all".toList } ∧
    '@' ∉ plain "@name g * / ".toList ∧
    ∃ description, read (.unlines [" * Sum".toList, "@name g * / ".toList, "@name f".toList]) =
      .ok { name := "f".toList, description } := by
  have ended : '@' ∈ plain (.unlines [" * Sum of".toList, "* all @ once".toList]) := by decide
  have silent : ∀ tag ∈ Tag.scan (plain "\t* @since * 1 @name g".toList), tag.name ∉ Tag.tellingNames := by
    decide +kernel
  have free : '@' ∉ plain "@name g * / ".toList := by decide
  have long : read (.unlines [" * Sum of".toList, "* all @ once".toList, "@name f".toList]) =
      .ok { name := "f".toList, description := "Sum of all".toList } := by decide +kernel
  have short : read (.unlines [" * Sum".toList, "@name f".toList]) =
      .ok { name := "f".toList, description := "Sum".toList } := by decide +kernel
  have tagged := read_insert_line [" * Sum of".toList, "* all @ once".toList] ["@name f".toList]
    "\t* @since * 1 @name g".toList
  have starred := read_insert_line [" * Sum".toList] ["@name f".toList] "@name g * / ".toList
  exact ⟨ended, silent, (tagged.1 ended silent _).mpr long, free, (starred.2 free).2 _ short⟩

end Comment

end ApiDoc
