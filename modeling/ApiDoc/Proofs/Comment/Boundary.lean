import ApiDoc.Proofs.Comment.TagGrammar

/-!
Where the description ends and the tags begin.

The description is read up to the first `@` of a text and the tags from there on, so each is read off a part of
the text that the other does not touch. The two need not meet: an `@` without a name behind it ends the description
and begins no tag.
-/

namespace ApiDoc

namespace Tag

def first? (text : Text) : Option (Text × Tag) :=
  (expression.first? text).map fun (before, way) => (before, ofWay way)

/-- Whether a name stands here: neither a space nor the end of the line does. -/
def NameStands (rest : Text) : Prop :=
  ∃ char more, rest = char :: more ∧ char ≠ ' ' ∧ char ≠ '\n'

variable {before rest : Text}

theorem read?_isSome_iff : (read? rest).isSome ↔ NameStands rest := by
  rw [Option.isSome_iff_ne_none, Ne, read?_eq_none_iff]
  cases rest with
  | nil => simp [NameStands]
  | cons char more =>
      have stands : NameStands (char :: more) ↔ inName char = true := by
        simp [NameStands, inName]
      rw [stands, List.takeWhile_cons]
      split
      · next inside => simp [inside]
      · next outside => simp [outside]

theorem head?_scan (text : Text) : (scan text).head? = (first? text).map fun (_, tag) => tag := by
  obtain ⟨ways, search, tags, -⟩ := exists_found text
  rw [tags, first?]
  cases search with
  | nil none => rw [none]; rfl
  | cons first _ => rw [first]; rfl

theorem first?_cons_of_nil {char : Char} (fails : expression.ways (char :: rest) = []) :
    first? (char :: rest) = (first? rest).map fun (between, tag) => (char :: between, tag) := by
  rw [first?, first?, Expression.first?_cons_of_nil fails, Option.map_map, Option.map_map]
  rfl

theorem first?_append_of_notMem (free : '@' ∉ before) (rest : Text) : first? (before ++ rest) =
    (first? rest).map fun (between, tag) => (before ++ between, tag) := by
  induction before with
  | nil => simp
  | cons char before ih =>
      obtain ⟨other, free⟩ := List.ne_and_not_mem_of_not_mem_cons free
      rw [List.cons_append, first?_cons_of_nil (ways_expression_of_ne other.symm _), ih free,
        Option.map_map]
      rfl

theorem first?_append_eq_some_iff (free : '@' ∉ before) {tag : Tag} :
    first? (before ++ rest) = some (before, tag) ↔ first? rest = some ([], tag) := by
  rw [first?_append_of_notMem free, Option.map_eq_some_iff]
  constructor
  · rintro ⟨⟨between, _⟩, found, same⟩
    obtain ⟨nothing, rfl⟩ := Prod.mk.inj same
    rw [found, List.append_right_eq_self.mp nothing]
  · intro found
    exact ⟨([], tag), found, by simp⟩

theorem first?_at_of_nameStands (named : NameStands rest) :
    ∃ tag, first? ('@' :: rest) = some ([], tag) := by
  obtain ⟨⟨tag, after⟩, found⟩ := Option.isSome_iff_exists.mp (read?_isSome_iff.mpr named)
  refine ⟨ofWay (matched rest), ?_⟩
  rw [first?, Expression.first?_of_head? (head?_ways_expression found), Option.map_some]

theorem first?_at_of_not_nameStands (unnamed : ¬ NameStands rest) : first? ('@' :: rest) =
    (first? rest).map fun (between, tag) => ('@' :: between, tag) := by
  rw [← read?_isSome_iff, Option.not_isSome_iff_eq_none] at unnamed
  exact first?_cons_of_nil (ways_expression_at_of_none unnamed)

theorem exists_first?_at_iff : (∃ tag, first? ('@' :: rest) = some ([], tag)) ↔ NameStands rest := by
  refine ⟨fun ⟨tag, found⟩ => ?_, first?_at_of_nameStands⟩
  by_contra unnamed
  rw [first?_at_of_not_nameStands unnamed, Option.map_eq_some_iff] at found
  obtain ⟨_, -, later⟩ := found
  exact List.cons_ne_nil _ _ (congrArg Prod.fst later)

end Tag

namespace Comment

theorem description_append_at (before behind : Text) :
    description (before ++ '@' :: behind) = description before := by
  rw [description, takeWhile_append_stop (by decide), description]

/-- The first `@` of a text parts it into what the description and what the tags are read off. The first tag begins
at this `@` exactly when a name stands behind it, and at a later one otherwise. -/
theorem description_scan_part (before behind : Text) (free : '@' ∉ before) :
    description (before ++ '@' :: behind) = description before ∧
    Tag.scan before = [] ∧
    Tag.scan (before ++ '@' :: behind) = Tag.scan ('@' :: behind) ∧
    (Tag.scan (before ++ '@' :: behind)).head? =
      (Tag.first? (before ++ '@' :: behind)).map (fun (_, tag) => tag) ∧
    ((∃ tag, Tag.first? (before ++ '@' :: behind) = some (before, tag)) ↔ Tag.NameStands behind) ∧
    (¬ Tag.NameStands behind → Tag.first? (before ++ '@' :: behind) =
      (Tag.first? behind).map fun (between, tag) => (before ++ '@' :: between, tag)) ∧
    (∀ other, description (before ++ '@' :: other) = description (before ++ '@' :: behind)) ∧
    ∀ other, '@' ∉ other → Tag.scan (other ++ '@' :: behind) = Tag.scan (before ++ '@' :: behind) := by
  refine ⟨description_append_at before behind, Tag.scan_of_notMem free, Tag.scan_append_of_notMem free _,
    Tag.head?_scan _, ?_, ?_, ?_, ?_⟩
  · rw [← Tag.exists_first?_at_iff]
    exact exists_congr fun _ => Tag.first?_append_eq_some_iff free
  · intro unnamed
    rw [Tag.first?_append_of_notMem free, Tag.first?_at_of_not_nameStands unnamed, Option.map_map]
    rfl
  · intro other
    rw [description_append_at, description_append_at]
  · intro other other_free
    rw [Tag.scan_append_of_notMem free, Tag.scan_append_of_notMem other_free]

theorem description_scan_part_doubled : '@' ∉ "\tMail me\n*".toList ∧
    description "\tMail me\n*@@ home\n@ @name".toList = "Mail me *".toList ∧
    Tag.scan "\tMail me\n*".toList = [] ∧
    Tag.scan "\tMail me\n*@@ home\n@ @name".toList = Tag.scan "@@ home\n@ @name".toList ∧
    (∃ tag, Tag.first? "\tMail me\n*@@ home\n@ @name".toList = some ("\tMail me\n*".toList, tag)) := by
  have free : '@' ∉ "\tMail me\n*".toList := by decide
  obtain ⟨described, none, same, -, begins, -⟩ :=
    description_scan_part "\tMail me\n*".toList "@ home\n@ @name".toList free
  have named : Tag.NameStands "@ home\n@ @name".toList := ⟨'@', _, rfl, by decide, by decide⟩
  exact ⟨free, described.trans (by decide), none, same, begins.mpr named⟩

end Comment

end ApiDoc
