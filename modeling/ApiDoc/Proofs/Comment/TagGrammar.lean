import ApiDoc.Proofs.Comment.Tags
import ApiDoc.Proofs.Text.Expression
import Mathlib.Data.List.Infix

/-!
The grammar of tags.

A tag is a match of an expression: an `@`, a name without spaces, spaces, and the rest of the line. No match
leaves its line, so a text has the tags of its lines, and a line has one tag at most. That tag begins at the
first `@` with something other than a space behind it, and all that follows on the line is its name and value.
-/

namespace ApiDoc

namespace Tag

/-- The expression `@([^ \n]+) *(.*?)$`, where `$` is the end of a line: an `@` with a name behind it, spaces, and
what else stands on the line. -/
def expression : Expression :=
  .seq (.one (· == '@')) (.seq (.group (.seq (.one inName) (.greedy inName)))
    (.seq (.greedy (· == ' ')) (.seq (.group (.lazy Expression.dot)) .lineEnd)))

def ofWay (way : Expression.Way) : Tag :=
  ⟨Text.trim (way.groups.getD 0 []), Text.trim (way.groups.getD 1 [])⟩

section Matches

def matched (rest : Text) : Expression.Way :=
  let line := rest.dropWhile inName
  let behind := line.dropWhile (· == ' ')
  ⟨'@' :: (rest.takeWhile inName ++ (line.takeWhile (· == ' ') ++ behind.takeWhile Expression.dot)),
    [rest.takeWhile inName, behind.takeWhile Expression.dot], behind.dropWhile Expression.dot⟩

variable {rest after : Text} {tag : Tag}

theorem ways_expression_of_ne {char : Char} (other : char ≠ '@') (rest : Text) :
    expression.ways (char :: rest) = [] := by
  rw [expression, Expression.ways_seq_of_nil]
  rw [Expression.ways, if_neg]
  simpa using other

theorem ways_at (rest : Text) :
    (Expression.one (· == '@')).ways ('@' :: rest) = [⟨['@'], [], rest⟩] := rfl

theorem ways_expression_at_of_none (missing : read? rest = none) :
    expression.ways ('@' :: rest) = [] := by
  have unnamed := Expression.ways_one_greedy_of_nil (read?_eq_none_iff.mp missing)
  rw [expression, Expression.ways, ways_at, List.flatMap_singleton, Expression.ways_seq_of_nil,
    List.map_nil]
  rw [Expression.ways, unnamed, List.map_nil]

theorem head?_ways_expression (found : read? rest = some (tag, after)) :
    (expression.ways ('@' :: rest)).head? = some (matched rest) := by
  obtain ⟨nonempty, -, -⟩ := read?_eq_some_iff.mp found
  have begun := congrArg List.head? (ways_at rest)
  have name := Expression.head?_ways_group (Expression.head?_ways_one_greedy nonempty)
  have spaces := Expression.head?_ways_greedy (· == ' ') (rest.dropWhile inName)
  have value := congrArg List.head?
    (Expression.ways_lazy_lineEnd ((rest.dropWhile inName).dropWhile (· == ' ')))
  rw [expression, Expression.head?_ways_seq begun
    (Expression.head?_ways_seq name (Expression.head?_ways_seq spaces value))]
  rfl

theorem eq_space_of_mem {char : Char} {line : Text} (member : char ∈ line.takeWhile (· == ' ')) :
    char = ' ' := by
  simpa using List.mem_takeWhile_imp member

theorem ofWay_matched (found : read? rest = some (tag, after)) :
    ofWay (matched rest) = tag ∧ (matched rest).rest = after := by
  obtain ⟨-, rfl, rfl⟩ := read?_eq_some_iff.mp found
  generalize behind : rest.dropWhile inName = line
  have kept : ∀ char ∈ line.takeWhile (· == ' '), inValue char := by
    intro char member
    rw [eq_space_of_mem member]
    decide
  have blank : ∀ char ∈ line.takeWhile (· == ' '), Text.isBlank char := by
    intro char member
    rw [eq_space_of_mem member]
    decide
  have whole := List.takeWhile_append_dropWhile (p := (· == ' ')) (l := line)
  have value : line.takeWhile inValue =
      line.takeWhile (· == ' ') ++ (line.dropWhile (· == ' ')).takeWhile inValue := by
    rw [← List.takeWhile_append_of_pos kept, whole]
  have remaining : (line.dropWhile (· == ' ')).dropWhile inValue = line.dropWhile inValue := by
    rw [← List.dropWhile_append_of_pos kept, whole]
  rw [value, Text.trim_append_of_blank blank, ← remaining, ← behind]
  exact ⟨rfl, rfl⟩

theorem newline_notMem_taken (rest : Text) : '\n' ∉ (matched rest).taken := by
  have name : '\n' ∉ rest.takeWhile inName :=
    fun member => absurd (List.mem_takeWhile_imp member) (by decide)
  have spaces : '\n' ∉ (rest.dropWhile inName).takeWhile (· == ' ') :=
    fun member => absurd (List.mem_takeWhile_imp member) (by decide)
  have value : '\n' ∉ ((rest.dropWhile inName).dropWhile (· == ' ')).takeWhile Expression.dot :=
    fun member => absurd (List.mem_takeWhile_imp member) (by decide)
  simp [matched, name, spaces, value]

theorem exists_found (text : Text) : ∃ ways, expression.Found text ways ∧ scan text = ways.map ofWay ∧
    ∀ way ∈ ways, '\n' ∉ way.taken := by
  induction text using scan.induct with
  | case1 => exact ⟨[], .nil rfl, scan_nil, List.forall_mem_nil _⟩
  | case2 rest tag after found ih =>
      obtain ⟨ways, search, tags, single⟩ := ih
      obtain ⟨same, rest_eq⟩ := ofWay_matched found
      refine ⟨matched rest :: ways, ?_, ?_, List.forall_mem_cons.mpr ⟨newline_notMem_taken rest, single⟩⟩
      · exact .cons (Expression.first?_of_head? (head?_ways_expression found)) (rest_eq ▸ search)
      · rw [scan_at_of_some found, tags, List.map_cons, same]
  | case3 rest missing ih =>
      obtain ⟨ways, search, tags, single⟩ := ih
      exact ⟨ways, search.cons_of_nil (ways_expression_at_of_none missing),
        (scan_at_of_none missing).trans tags, single⟩
  | case4 char rest other ih =>
      obtain ⟨ways, search, tags, single⟩ := ih
      exact ⟨ways, search.cons_of_nil (ways_expression_of_ne other rest),
        (scan_cons_of_ne other rest).trans tags, single⟩

end Matches

section Lines

def NameEnds (rest : Text) : Prop :=
  ∀ char ∈ rest.head?, char = ' '

def beginning? : Text → Option Tag
  | '@' :: char :: rest =>
      if char = ' ' then none
      else some ⟨Text.trim ((char :: rest).takeWhile (· != ' ')),
        Text.trim ((char :: rest).dropWhile (· != ' '))⟩
  | _ => none

/-- The tag on a line, which begins at the first `@` with a name behind it. -/
def ofLine? (line : Text) : Option Tag :=
  line.tails.findSome? beginning?

/-- Whether a tag begins behind `before`, and has this name with this behind it. An `@` that stands earlier on the
line has no name. -/
structure Begins (line before name behind : Text) : Prop where
  whole : line = before ++ '@' :: (name ++ behind)
  name_ne_nil : name ≠ []
  space_notMem_name : ' ' ∉ name
  name_ends : NameEnds behind
  earlier_ends (earlier rest : Text) : line = earlier ++ '@' :: rest →
    earlier.length < before.length → NameEnds rest

variable {line before name behind rest : Text} {tag : Tag} {char : Char}

theorem nameEnds_cases (rest : Text) : NameEnds rest ∨ ∃ char more, rest = char :: more ∧ char ≠ ' ' := by
  cases rest with
  | nil => exact Or.inl fun _ member => by simp at member
  | cons char more =>
      by_cases spaced : char = ' '
      · exact Or.inl fun _ member => by simpa [spaced] using member.symm
      · exact Or.inr ⟨char, more, rfl, spaced⟩

theorem not_nameEnds_cons (named : char ≠ ' ') : ¬ NameEnds (char :: rest) :=
  fun ends => named (ends char rfl)

theorem beginning?_at_of_ne (named : char ≠ ' ') (rest : Text) :
    beginning? ('@' :: char :: rest) = some ⟨Text.trim ((char :: rest).takeWhile (· != ' ')),
      Text.trim ((char :: rest).dropWhile (· != ' '))⟩ :=
  if_neg named

theorem beginning?_at_eq_none_iff : beginning? ('@' :: rest) = none ↔ NameEnds rest := by
  cases rest with
  | nil => simp [beginning?, NameEnds]
  | cons char rest =>
      by_cases spaced : char = ' '
      · simp [beginning?, NameEnds, spaced]
      · simp [beginning?, NameEnds, spaced]

theorem beginning?_of_ne (other : char ≠ '@') (rest : Text) : beginning? (char :: rest) = none := by
  rw [beginning?]
  rintro _ _ ⟨⟩
  exact other rfl

theorem beginning?_cases (line : Text) : beginning? line = none ∨
    ∃ char rest, line = '@' :: char :: rest ∧ char ≠ ' ' := by
  cases line with
  | nil => exact Or.inl rfl
  | cons char rest =>
      by_cases other : char = '@'
      · subst char
        rcases nameEnds_cases rest with ends | ⟨first, more, rfl, named⟩
        · exact Or.inl (beginning?_at_eq_none_iff.mpr ends)
        · exact Or.inr ⟨first, more, rfl, named⟩
      · exact Or.inl (beginning?_of_ne other rest)

theorem ofLine?_nil : ofLine? [] = none := rfl

theorem ofLine?_of_some (found : beginning? (char :: rest) = some tag) :
    ofLine? (char :: rest) = some tag := by
  rw [ofLine?, List.tails_cons, List.findSome?_cons, found]

theorem ofLine?_of_none (none : beginning? (char :: rest) = none) :
    ofLine? (char :: rest) = ofLine? rest := by
  rw [ofLine?, List.tails_cons, List.findSome?_cons, none]
  rfl

theorem inName_of_single (single : '\n' ∉ line) : ∀ char ∈ line, inName char = (char != ' ') := by
  intro char member
  have inside : (char != '\n') = true := by simpa using ne_of_mem_of_not_mem member single
  rw [inName, inside, Bool.and_true]

theorem read?_of_nameEnds (ends : NameEnds rest) : read? rest = none := by
  rw [read?_eq_none_iff]
  cases rest with
  | nil => rfl
  | cons char rest =>
      rw [ends char rfl]
      rfl

theorem scan_line (single : '\n' ∉ line) : scan line = (ofLine? line).toList := by
  induction line with
  | nil => rw [scan_nil, ofLine?_nil, Option.toList_none]
  | cons char rest ih =>
      obtain ⟨-, rest_single⟩ := List.ne_and_not_mem_of_not_mem_cons single
      by_cases other : char = '@'
      · subst char
        rcases nameEnds_cases rest with ends | ⟨first, more, rfl, named⟩
        · rw [scan_at_of_none (read?_of_nameEnds ends), ih rest_single,
            ofLine?_of_none (beginning?_at_eq_none_iff.mpr ends)]
        · have spaces := inName_of_single rest_single
          have nonempty : (first :: more).takeWhile inName ≠ [] := by
            rw [takeWhile_congr spaces, List.takeWhile_cons_of_pos (by simpa using named)]
            exact List.cons_ne_nil _ _
          rw [scan_at_of_single rest_single nonempty, takeWhile_congr spaces, dropWhile_congr spaces,
            ofLine?_of_some (beginning?_at_of_ne named more), Option.toList_some]
      · rw [scan_cons_of_ne other, ih rest_single, ofLine?_of_none (beginning?_of_ne other rest)]

theorem scan_eq_filterMap (text : Text) : scan text = text.lines.filterMap ofLine? := by
  have each : ∀ line ∈ text.lines, scan line = (ofLine? line).toList :=
    fun line member => scan_line (Text.newline_notMem_of_mem_lines member)
  calc scan text = text.lines.flatMap scan := by rw [← scan_unlines, Text.unlines_lines]
    _ = text.lines.flatMap fun line => (ofLine? line).toList := List.flatMap_congr each
    _ = text.lines.filterMap ofLine? := (List.filterMap_eq_flatMap_toList ofLine? text.lines).symm

theorem ofLine?_eq_none_iff :
    ofLine? line = none ↔ ∀ before rest, line = before ++ '@' :: rest → NameEnds rest := by
  rw [ofLine?, List.findSome?_eq_none_iff]
  constructor
  · intro none before rest whole
    exact beginning?_at_eq_none_iff.mp (none _ ((List.mem_tails _ _).mpr ⟨before, whole.symm⟩))
  · intro ends part member
    obtain ⟨before, whole⟩ := (List.mem_tails _ _).mp member
    rcases beginning?_cases part with none | ⟨char, rest, rfl, named⟩
    · exact none
    · exact absurd (ends before _ whole.symm) (not_nameEnds_cons named)

theorem begins_at (named : char ≠ ' ') (rest : Text) : Begins ('@' :: char :: rest) []
    ((char :: rest).takeWhile (· != ' ')) ((char :: rest).dropWhile (· != ' ')) where
  whole := by rw [List.takeWhile_append_dropWhile, List.nil_append]
  name_ne_nil := by
    rw [List.takeWhile_cons_of_pos (by simpa using named)]
    exact List.cons_ne_nil _ _
  space_notMem_name member := absurd (List.mem_takeWhile_imp member) (by decide)
  name_ends stop member := by
    have stops := List.head?_dropWhile_not (· != ' ') (char :: rest)
    rw [Option.mem_def.mp member] at stops
    simpa using stops
  earlier_ends _ _ _ shorter := absurd shorter (Nat.not_lt_zero _)

theorem Begins.cons (begins : Begins line before name behind)
    (none : beginning? (char :: line) = none) : Begins (char :: line) (char :: before) name behind where
  whole := by rw [begins.whole, List.cons_append]
  name_ne_nil := begins.name_ne_nil
  space_notMem_name := begins.space_notMem_name
  name_ends := begins.name_ends
  earlier_ends earlier rest whole shorter := by
    cases earlier with
    | nil =>
        obtain ⟨rfl, rfl⟩ := List.cons.inj whole
        exact beginning?_at_eq_none_iff.mp none
    | cons first earlier =>
        obtain ⟨-, later⟩ := List.cons.inj whole
        exact begins.earlier_ends earlier rest later (Nat.lt_of_succ_lt_succ shorter)

theorem Begins.tail (begins : Begins (char :: line) (char :: before) name behind) :
    Begins line before name behind where
  whole := (List.cons.inj begins.whole).2
  name_ne_nil := begins.name_ne_nil
  space_notMem_name := begins.space_notMem_name
  name_ends := begins.name_ends
  earlier_ends earlier rest whole shorter :=
    begins.earlier_ends (char :: earlier) rest (congrArg (char :: ·) whole) (Nat.succ_lt_succ shorter)

theorem exists_begins_of_ofLine? (found : ofLine? line = some tag) :
    ∃ before name behind, Begins line before name behind ∧ tag = ⟨Text.trim name, Text.trim behind⟩ := by
  induction line with
  | nil => contradiction
  | cons char line ih =>
      rcases beginning?_cases (char :: line) with none | ⟨first, rest, whole, named⟩
      · rw [ofLine?_of_none none] at found
        obtain ⟨before, name, behind, begins, same⟩ := ih found
        exact ⟨char :: before, name, behind, begins.cons none, same⟩
      · rw [whole, ofLine?_of_some (beginning?_at_of_ne named rest), Option.some.injEq] at found
        exact ⟨[], _, _, whole ▸ begins_at named rest, found.symm⟩

theorem Begins.ofLine?_eq (begins : Begins line before name behind) :
    ofLine? line = some ⟨Text.trim name, Text.trim behind⟩ := by
  induction before generalizing line with
  | nil =>
      obtain ⟨first, more, rfl⟩ := List.exists_cons_of_ne_nil begins.name_ne_nil
      have inside : ∀ char ∈ first :: more, (char != ' ') = true := by
        intro char member
        simpa using ne_of_mem_of_not_mem member begins.space_notMem_name
      have named : first ≠ ' ' := by simpa using inside first List.mem_cons_self
      have stops : behind.takeWhile (· != ' ') = [] ∧ behind.dropWhile (· != ' ') = behind := by
        cases behind with
        | nil => exact ⟨rfl, rfl⟩
        | cons char behind =>
            rw [begins.name_ends char rfl]
            exact ⟨rfl, rfl⟩
      rw [begins.whole, List.nil_append, List.cons_append,
        ofLine?_of_some (beginning?_at_of_ne named _), ← List.cons_append,
        List.takeWhile_append_of_pos inside, List.dropWhile_append_of_pos inside, stops.1, stops.2,
        List.append_nil]
  | cons first before ih =>
      obtain ⟨rest, rfl⟩ : ∃ rest, line = first :: rest := ⟨_, begins.whole⟩
      rcases beginning?_cases (first :: rest) with none | ⟨char, more, whole, named⟩
      · rw [ofLine?_of_none none, ih begins.tail]
      · exact absurd (begins.earlier_ends [] _ whole (Nat.succ_pos _)) (not_nameEnds_cons named)

theorem ofLine?_eq_some_iff : ofLine? line = some tag ↔ ∃ before name behind,
    Begins line before name behind ∧ tag = ⟨Text.trim name, Text.trim behind⟩ := by
  constructor
  · exact exists_begins_of_ofLine?
  · rintro ⟨before, name, behind, begins, rfl⟩
    exact begins.ofLine?_eq

end Lines

/-- The tags of a text are the matches that a search for the expression finds, none of which leaves its line. They
are the tags of the lines, one at most on each, and joining lines joins their tags. -/
theorem scan_line_by_line (text : Text) :
    (∃ ways, (∀ found, expression.Found text found ↔ found = ways) ∧ scan text = ways.map ofWay ∧
      ∀ way ∈ ways, '\n' ∉ way.taken) ∧
    scan text = text.lines.filterMap ofLine? ∧
    (∀ line tag, ofLine? line = some tag ↔ ∃ before name behind,
      Begins line before name behind ∧ tag = ⟨Text.trim name, Text.trim behind⟩) ∧
    (∀ line, ofLine? line = none ↔ ∀ before rest, line = before ++ '@' :: rest → NameEnds rest) ∧
    ∀ lines : List Text, scan (.unlines lines) = lines.flatMap scan := by
  obtain ⟨ways, search, tags, single⟩ := exists_found text
  refine ⟨⟨ways, fun found => ⟨fun other => other.unique search, fun same => same ▸ search⟩, tags, single⟩,
    scan_eq_filterMap text, ?_, ?_, scan_unlines⟩
  · intro line tag
    exact ofLine?_eq_some_iff
  · intro line
    exact ofLine?_eq_none_iff

end Tag

end ApiDoc
