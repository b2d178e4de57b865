import ApiDoc.Proofs.Comment.Blocks
import ApiDoc.Proofs.Comment.Tags
import Mathlib.Data.List.Forall2

/-!
Stars in front of lines.

A star in front of a line takes the place of the first star that the line holds itself, and what the line
says before its own star comes back. The tags of a block therefore stay the same unless one of the lines begins
a tag before its first star.
-/

namespace ApiDoc

theorem flatten_eq_flatten_iff_of_length_le {α : Type} {parts others : List (List α)}
    (shorter : List.Forall₂ (fun part other => part.length ≤ other.length) parts others) :
    parts.flatten = others.flatten ↔ parts = others := by
  refine ⟨fun same => ?_, fun same => congrArg List.flatten same⟩
  have total : ∀ {first second : List (List α)},
      List.Forall₂ (fun part other => part.length ≤ other.length) first second →
        first.flatten.length ≤ second.flatten.length := by
    intro first second related
    induction related with
    | nil => exact Nat.le_refl _
    | cons here _ ih =>
        rw [List.flatten_cons, List.flatten_cons, List.length_append, List.length_append]
        exact Nat.add_le_add here ih
  induction shorter with
  | nil => rfl
  | @cons part other parts others here rest ih =>
      rw [List.flatten_cons, List.flatten_cons] at same
      have lengths := congrArg List.length same
      rw [List.length_append, List.length_append] at lengths
      have remaining := total rest
      obtain ⟨first, later⟩ := List.append_inj same (by omega)
      rw [first, ih later]

namespace Tag

def stars (tag : Tag) : Nat :=
  tag.name.count '*' + tag.value.count '*'

theorem count_star_trim (text : Text) : (Text.trim text).count '*' = text.count '*' := by
  obtain ⟨before, behind, before_blank, behind_blank, whole⟩ := Text.exists_eq_append_trim_append text
  have absent : ∀ {blanks : Text}, (∀ char ∈ blanks, Text.isBlank char) → blanks.count '*' = 0 := by
    intro blanks blank
    exact List.count_eq_zero.mpr fun member => absurd (blank '*' member) (by decide)
  have counted := congrArg (List.count '*') whole
  rw [List.count_append, List.count_append, absent before_blank, absent behind_blank] at counted
  omega

theorem scan_at_of_line {rest : Text} (single : '\n' ∉ rest) (named : rest.takeWhile inName ≠ []) :
    ∃ tag, scan ('@' :: rest) = [tag] ∧ tag.stars = rest.count '*' := by
  refine ⟨_, scan_at_of_single single named, ?_⟩
  rw [stars, count_star_trim, count_star_trim, ← List.count_append, List.takeWhile_append_dropWhile]

theorem scan_line_cases {line : Text} (single : '\n' ∉ line) :
    scan line = [] ∨ ∃ tag, scan line = [tag] ∧ tag.stars ≤ line.count '*' := by
  induction line with
  | nil => exact Or.inl scan_nil
  | cons char rest ih =>
      obtain ⟨_, rest_single⟩ := List.ne_and_not_mem_of_not_mem_cons single
      have more : rest.count '*' ≤ (char :: rest).count '*' := List.count_le_count_cons
      have later : scan rest = [] ∨ ∃ tag, scan rest = [tag] ∧ tag.stars ≤ (char :: rest).count '*' :=
        (ih rest_single).imp_right fun ⟨tag, found, bound⟩ => ⟨tag, found, Nat.le_trans bound more⟩
      by_cases other : char = '@'
      · subst char
        by_cases named : rest.takeWhile inName = []
        · rw [scan_at_of_none (read?_eq_none_iff.mpr named)]
          exact later
        · obtain ⟨tag, found, same⟩ := scan_at_of_line rest_single named
          exact Or.inr ⟨tag, found, same ▸ more⟩
      · rw [scan_cons_of_ne other]
        exact later

end Tag

namespace Comment

/-- Whether a line begins a tag before its first star: an `@` with something other than a space right behind
it, and the first star only after that `@`. -/
def StarInTag (line : Text) : Prop :=
  ∃ before char rest, line = before ++ '@' :: char :: rest ∧ '*' ∉ before ∧ char ≠ ' ' ∧
    '*' ∈ char :: rest

theorem StarInTag.cons {line : Text} (inTag : StarInTag line) {char : Char} (other : char ≠ '*') :
    StarInTag (char :: line) := by
  obtain ⟨before, next, rest, rfl, free, named, star⟩ := inTag
  exact ⟨char :: before, next, rest, rfl, by simp [free, other.symm], named, star⟩

theorem starInTag_trim_iff {line : Text} : StarInTag line.trim ↔ StarInTag line := by
  obtain ⟨lead, trail, lead_blank, trail_blank, whole⟩ := Text.exists_eq_append_trim_append line
  have absent : ∀ {blanks : Text}, (∀ char ∈ blanks, Text.isBlank char) → ∀ {char : Char},
      ¬ Text.isBlank char → char ∉ blanks :=
    fun blank _ visible member => visible (blank _ member)
  constructor
  · rintro ⟨before, char, rest, same, free, named, star⟩
    refine ⟨lead ++ before, char, rest ++ trail, ?_, ?_, named, ?_⟩
    · rw [whole, same]
      simp
    · simp [free, absent lead_blank (show ¬ Text.isBlank '*' by decide)]
    · rw [← List.cons_append]
      exact List.mem_append_left trail star
  · rintro ⟨before, char, rest, same, free, named, star⟩
    rw [whole, List.append_assoc] at same
    obtain ⟨between, rfl, behind⟩ := Text.exists_eq_append_of_notMem
      (absent lead_blank (show ¬ Text.isBlank '@' by decide)) same
    have at_notMem := absent trail_blank (show ¬ Text.isBlank '@' by decide)
    have star_notMem := absent trail_blank (show ¬ Text.isBlank '*' by decide)
    have between_free : '*' ∉ between := fun member => free (List.mem_append_right lead member)
    have around : between ++ '@' :: char :: rest = (between ++ ['@']) ++ (char :: rest) := by simp
    rw [around] at behind
    rcases List.append_eq_append_iff.mp behind with ⟨more, ended, outside⟩ | ⟨more, inside, ended⟩
    · -- The trimmed line would end before the star, which then stood among the blanks.
      exact absurd (outside ▸ List.mem_append_right more star) star_notMem
    · cases more with
      | nil => exact absurd (by simpa [ended] using star) star_notMem
      | cons next more =>
          rw [List.cons_append, List.cons.injEq] at ended
          obtain ⟨rfl, rfl⟩ := ended
          refine ⟨between, char, more, by rw [inside]; simp, between_free, named, ?_⟩
          rw [← List.cons_append] at star
          exact (List.mem_append.mp star).resolve_right star_notMem

theorem StarInTag.scan {line : Text} (inTag : StarInTag line) (single : '\n' ∉ line) :
    ∃ tag, Tag.scan line = [tag] ∧ tag.stars = line.count '*' := by
  obtain ⟨before, char, rest, rfl, free, named, -⟩ := inTag
  induction before with
  | nil =>
      obtain ⟨-, rest_single⟩ := List.ne_and_not_mem_of_not_mem_cons single
      have inName : Tag.inName char := by
        obtain ⟨noBreak, -⟩ := List.ne_and_not_mem_of_not_mem_cons rest_single
        simp [Tag.inName, named, noBreak.symm]
      obtain ⟨tag, found, same⟩ := Tag.scan_at_of_line rest_single
        (show (char :: rest).takeWhile Tag.inName ≠ [] by simp [inName])
      exact ⟨tag, found, same.trans (List.count_cons_of_ne (by decide)).symm⟩
  | cons first before ih =>
      obtain ⟨-, rest_single⟩ := List.ne_and_not_mem_of_not_mem_cons single
      obtain ⟨other, rest_free⟩ := List.ne_and_not_mem_of_not_mem_cons free
      obtain ⟨tag, found, same⟩ := ih rest_single rest_free
      rw [List.cons_append, List.count_cons_of_ne other.symm]
      by_cases begins : first = '@'
      · subst first
        by_cases empty : (before ++ '@' :: char :: rest).takeWhile Tag.inName = []
        · rw [Tag.scan_at_of_none (Tag.read?_eq_none_iff.mpr empty)]
          exact ⟨tag, found, same⟩
        · exact Tag.scan_at_of_line rest_single empty
      · rw [Tag.scan_cons_of_ne begins]
        exact ⟨tag, found, same⟩

theorem scan_of_not_starInTag {before rest : Text} (free : '*' ∉ before)
    (notInTag : ¬ StarInTag (before ++ '*' :: rest)) :
    Tag.scan (before ++ '*' :: rest) = Tag.scan rest := by
  induction before with
  | nil => exact Tag.scan_cons_of_ne (by decide) rest
  | cons first before ih =>
      obtain ⟨other, rest_free⟩ := List.ne_and_not_mem_of_not_mem_cons free
      have later := ih rest_free fun inTag => notInTag (inTag.cons other.symm)
      rw [List.cons_append]
      by_cases begins : first = '@'
      · subst first
        obtain ⟨next, behind, same⟩ := List.exists_cons_of_ne_nil
          (show before ++ '*' :: rest ≠ [] by simp)
        have spaced : next = ' ' := by
          by_contra named
          refine notInTag ⟨[], next, behind, ?_, List.not_mem_nil, named, ?_⟩
          · rw [List.cons_append, same, List.nil_append]
          · rw [← same]
            simp
        have unnamed : Tag.read? (before ++ '*' :: rest) = none := by
          rw [Tag.read?_eq_none_iff, same, spaced]
          rfl
        rw [Tag.scan_at_of_none unnamed, later]
      · rw [Tag.scan_cons_of_ne begins, later]

theorem scan_trimStart (text : Text) : Tag.scan text.trimStart = Tag.scan text := by
  induction text with
  | nil => rfl
  | cons char rest ih =>
      rw [Text.trimStart] at ih ⊢
      by_cases blank : Text.isBlank char
      · have other : char ≠ '@' := fun same => absurd (same ▸ blank) (by decide)
        rw [List.dropWhile_cons_of_pos blank, ih, Tag.scan_cons_of_ne other]
      · rw [List.dropWhile_cons_of_neg blank]

theorem trim_eq_trimStart {before content : Text} (trimmed : Text.Trimmed (before ++ content)) :
    content.trim = content.trimStart := by
  refine Text.trimEnd_eq_self_iff.mpr fun char last => (Text.trimmed_iff.mp trimmed).2 char ?_
  obtain ⟨start, whole⟩ := Text.trimStart_isSuffix content
  rw [Option.mem_def] at last ⊢
  rw [← whole, ← List.append_assoc, List.getLast?_append, last, Option.some_or]

theorem scan_plainLine_of_not_starInTag {line : Text} (notInTag : ¬ StarInTag line) :
    Tag.scan (plainLine line) = Tag.scan line.trim := by
  rw [plainLine]
  split
  · next before content found =>
      have whole := eq_append_of_cutAt? found
      rw [List.append_assoc, List.singleton_append] at whole
      have free : '*' ∉ before := fun member =>
        not_infix_of_cutAt? (List.cons_ne_nil _ _) found ((List.singleton_infix_iff _ _).mpr member)
      rw [← starInTag_trim_iff, whole] at notInTag
      have trimmed : Text.Trimmed ((before ++ ['*']) ++ content) := by
        rw [List.append_assoc, List.singleton_append, ← whole]
        exact Text.trimmed_trim line
      rw [trim_eq_trimStart trimmed, scan_trimStart, whole, scan_of_not_starInTag free notInTag]
  · rfl

theorem StarInTag.scan_plainLine {line : Text} (inTag : StarInTag line) (single : '\n' ∉ line) :
    ∃ tag, Tag.scan line.trim = [tag] ∧ (Tag.scan (plainLine line) = [] ∨
      ∃ other, Tag.scan (plainLine line) = [other] ∧ other.stars < tag.stars) := by
  have trim_single : '\n' ∉ line.trim := fun member =>
    single ((Text.trim_isInfix line).subset member)
  have plain_single : '\n' ∉ plainLine line := fun member =>
    single ((plainLine_isInfix line).subset member)
  obtain ⟨tag, found, same⟩ := (starInTag_trim_iff.mpr inTag).scan trim_single
  refine ⟨tag, found, (Tag.scan_line_cases plain_single).imp_right ?_⟩
  rintro ⟨other, behind, bound⟩
  refine ⟨other, behind, ?_⟩
  have taken : (plainLine line).count '*' < line.trim.count '*' := by
    rw [plainLine]
    split
    · next before content cut =>
        rw [Tag.count_star_trim, eq_append_of_cutAt? cut, List.count_append, List.count_append,
          List.count_singleton_self]
        omega
    · next missing =>
        obtain ⟨before, char, rest, whole, -, -, star⟩ := starInTag_trim_iff.mpr inTag
        have inside : '*' ∈ line.trim := by
          rw [whole]
          exact List.mem_append_right before (List.mem_cons_of_mem '@' star)
        exact absurd ((List.singleton_infix_iff _ _).mpr inside) (cutAt?_eq_none_iff.mp missing)
  omega

theorem scan_plainLine_eq_iff {line : Text} (single : '\n' ∉ line) :
    Tag.scan (plainLine line) = Tag.scan line.trim ↔ ¬ StarInTag line := by
  refine ⟨fun same inTag => ?_, scan_plainLine_of_not_starInTag⟩
  obtain ⟨tag, found, none | ⟨other, behind, fewer⟩⟩ := inTag.scan_plainLine single
  · rw [none, found] at same
    contradiction
  · rw [behind, found, List.cons.injEq] at same
    rw [same.1] at fewer
    exact Nat.lt_irrefl _ fewer

theorem length_scan_plainLine_le {line : Text} (single : '\n' ∉ line) :
    (Tag.scan (plainLine line)).length ≤ (Tag.scan line.trim).length := by
  by_cases inTag : StarInTag line
  · obtain ⟨tag, found, none | ⟨other, behind, -⟩⟩ := inTag.scan_plainLine single
    · simp [none]
    · rw [behind, found]
      exact Nat.le_refl 1
  · rw [scan_plainLine_of_not_starInTag inTag]

structure Star where
  before : Text
  behind : Text
  before_blank : ∀ char ∈ before, Text.isBlank char ∧ char ≠ '\n'
  behind_blank : ∀ char ∈ behind, Text.isBlank char ∧ char ≠ '\n'

def Star.put (star : Star) (line : Text) : Text :=
  star.before ++ '*' :: star.behind ++ line

def starred (stars : Nat → Option Star) (block : Text) : Text :=
  .unlines (block.lines.mapIdx fun index line => (stars index).elim line fun star => star.put line)

theorem Star.plainLine_put (star : Star) (line : Text) : plainLine (star.put line) = line.trim :=
  plainLine_star (fun char member => (star.before_blank char member).1)
    (fun char member => (star.behind_blank char member).1) line

theorem Star.put_single (star : Star) {line : Text} (single : '\n' ∉ line) : '\n' ∉ star.put line := by
  have before : '\n' ∉ star.before := fun member => (star.before_blank _ member).2 rfl
  have behind : '\n' ∉ star.behind := fun member => (star.behind_blank _ member).2 rfl
  simp [put, single, before, behind]

theorem scan_plain (block : Text) :
    Tag.scan (plain block) = (block.lines.map fun line => Tag.scan (plainLine line)).flatten := by
  rw [plain, Tag.scan_unlines, List.flatMap_map, List.flatMap_def]

theorem lines_starred (stars : Nat → Option Star) (block : Text) : (starred stars block).lines =
    block.lines.mapIdx fun index line => (stars index).elim line fun star => star.put line := by
  refine Text.lines_unlines (by simpa using Text.lines_ne_nil block) ?_
  intro line member
  obtain ⟨index, bound, rfl⟩ := List.mem_mapIdx.mp member
  have single := Text.newline_notMem_of_mem_lines (List.getElem_mem bound)
  cases stars index with
  | none => exact single
  | some star => exact star.put_single single

theorem scan_plain_starred (stars : Nat → Option Star) (block : Text) :
    Tag.scan (plain (starred stars block)) = (block.lines.mapIdx fun index line =>
      if (stars index).isSome then Tag.scan line.trim else Tag.scan (plainLine line)).flatten := by
  rw [scan_plain, lines_starred]
  refine congrArg List.flatten (List.ext_getElem? fun index => ?_)
  rw [List.getElem?_map, List.getElem?_mapIdx, List.getElem?_mapIdx, Option.map_map]
  refine Option.map_congr fun line _ => ?_
  cases stars index with
  | none => rfl
  | some star => exact congrArg Tag.scan (star.plainLine_put line)

/-- Stars in front of lines leave the tags of a block as they are exactly when none of these lines begins a
tag before the first star of its own. -/
theorem scan_plain_starred_eq_iff (stars : Nat → Option Star) (block : Text) :
    Tag.scan (plain (starred stars block)) = Tag.scan (plain block) ↔
      ∀ index line, block.lines[index]? = some line → (stars index).isSome → ¬ StarInTag line := by
  have whole : ∀ {index : Nat} (bound : index < block.lines.length), '\n' ∉ block.lines[index] :=
    fun bound => Text.newline_notMem_of_mem_lines (List.getElem_mem bound)
  have shorter : List.Forall₂ (fun part other => part.length ≤ other.length)
      (block.lines.map fun line => Tag.scan (plainLine line))
      (block.lines.mapIdx fun index line =>
        if (stars index).isSome then Tag.scan line.trim else Tag.scan (plainLine line)) := by
    refine List.forall₂_iff_get.mpr ⟨by simp, fun index bound _ => ?_⟩
    rw [List.length_map] at bound
    simp only [List.get_eq_getElem, List.getElem_map, List.getElem_mapIdx]
    split
    · exact length_scan_plainLine_le (whole bound)
    · exact Nat.le_refl _
  rw [scan_plain_starred, scan_plain, eq_comm, flatten_eq_flatten_iff_of_length_le shorter]
  constructor
  · intro same index line found chosen
    obtain ⟨bound, rfl⟩ := List.getElem?_eq_some_iff.mp found
    have here := congrArg (fun parts => parts[index]?) same
    simp only [List.getElem?_map, List.getElem?_mapIdx, found, Option.map_some, if_pos chosen,
      Option.some.injEq] at here
    exact (scan_plainLine_eq_iff (whole bound)).mp here
  · intro clear
    refine List.ext_getElem? fun index => ?_
    rw [List.getElem?_map, List.getElem?_mapIdx]
    refine Option.map_congr fun line found => ?_
    split
    · next chosen => exact scan_plainLine_of_not_starInTag (clear index line found chosen)
    · rfl

def spacedStar : Star where
  before := [' ']
  behind := [' ']
  before_blank := by decide
  behind_blank := by decide

/-- A star in the value of a tag takes the tag away, and a star in front of the line brings it back. -/
theorem scan_plain_starred_product :
    Tag.scan (plain (starred (fun _ => some spacedStar) "@name a*b".toList)) ≠
      Tag.scan (plain "@name a*b".toList) := by
  decide +kernel

end Comment

end ApiDoc
