import ApiDoc.Proofs.Comment.Blocks

/-!
How comments divide a source text.

A source text is gaps and comments in turn, and in one way only: a gap before a comment opens none, a block
closes none, and what follows the last comment closes none that it opens. The comments are those that a search
takes which prefers the first place and there the shortest block, and goes on behind each comment it takes.
-/

namespace ApiDoc

namespace Comment

/-- A source text taken apart: its blocks, each with the gap before its comment, and what follows the last. -/
structure Division where
  stretches : List (Text × Text)
  rest : Text

namespace Division

def text (division : Division) : Text :=
  (division.stretches.flatMap fun (gap, block) => gap ++ "/*#".toList ++ block ++ "*/".toList) ++
    division.rest

def blocks (division : Division) : List Text :=
  division.stretches.map (·.2)

end Division

/-- Whether a marker occurs in a text right behind `before`, and nowhere earlier. -/
structure FirstBehind (marker text before behind : Text) : Prop where
  whole : text = before ++ marker ++ behind
  first (earlier later : Text) : text = earlier ++ marker ++ later → before.length ≤ earlier.length

def Unclosed (text : Text) : Prop :=
  ¬ "/*#".toList <:+: text ∨
    ∃ before inside, FirstBehind "/*#".toList text before inside ∧ ¬ "*/".toList <:+: inside

structure Division.Divides (division : Division) (source : Text) : Prop where
  whole : source = division.text
  gap_free : ∀ stretch ∈ division.stretches, ¬ "/*#".toList <:+: stretch.1
  block_free : ∀ stretch ∈ division.stretches, ¬ "*/".toList <:+: stretch.2
  unclosed : Unclosed division.rest

def Occurs (source gap block behind : Text) : Prop :=
  source = gap ++ "/*#".toList ++ (block ++ "*/".toList ++ behind)

/-- Whether a search takes a comment: none begins earlier, and none that begins there is shorter. -/
structure Taken (source gap block behind : Text) : Prop where
  occurs : Occurs source gap block behind
  leftmost (otherGap otherBlock otherBehind : Text) :
    Occurs source otherGap otherBlock otherBehind → gap.length ≤ otherGap.length
  shortest (otherBlock otherBehind : Text) :
    Occurs source gap otherBlock otherBehind → block.length ≤ otherBlock.length

inductive Found : Text → List Text → Prop
  | nil {source : Text} : (∀ gap block behind, ¬ Occurs source gap block behind) → Found source []
  | cons {source gap block behind : Text} {blocks : List Text} :
      Taken source gap block behind → Found behind blocks → Found source (block :: blocks)

variable {source text before gap block behind inside marker : Text} {found : List Text}

theorem firstBehind_of_cutAt? (cut : cutAt? marker text = some (before, behind)) :
    FirstBehind marker text before behind where
  whole := eq_append_of_cutAt? cut
  first _ _ := length_le_of_cutAt? cut

theorem FirstBehind.closing_infix (opened : FirstBehind "/*#".toList source before inside)
    (occurs : Occurs source gap block behind) : "*/".toList <:+: inside := by
  have earlier := opened.first gap _ occurs
  have same : (before ++ "/*#".toList) ++ inside =
      (gap ++ "/*#".toList) ++ (block ++ "*/".toList ++ behind) := by
    rw [← opened.whole]
    exact occurs
  have shorter : before ++ "/*#".toList <+: gap ++ "/*#".toList := by
    apply List.prefix_of_prefix_length_le (List.prefix_append _ inside)
    · rw [same]
      exact List.prefix_append _ _
    · simp only [List.length_append]
      omega
  obtain ⟨between, longer⟩ := shorter
  rw [← longer, List.append_assoc _ between, List.append_cancel_left_eq] at same
  rw [same]
  exact ⟨between ++ block, behind, by simp⟩

section Search

theorem unclosed_of_first? (none : markers.first? source = none) : Unclosed source := by
  rw [Delimiters.first?] at none
  cases opened : cutAt? markers.opening source with
  | none => exact Or.inl (cutAt?_eq_none_iff.mp opened)
  | some parts =>
      rw [opened, Option.bind_some] at none
      exact Or.inr ⟨parts.1, parts.2, firstBehind_of_cutAt? opened, cutAt?_eq_none_iff.mp none⟩

theorem Unclosed.not_occurs (unclosed : Unclosed source) : ¬ Occurs source gap block behind := by
  intro occurs
  rcases unclosed with unopened | ⟨before, inside, opened, free⟩
  · exact unopened ⟨gap, _, occurs.symm⟩
  · exact free (opened.closing_infix occurs)

theorem exists_of_first? (first : markers.first? source = some (block, behind)) :
    ∃ gap, Occurs source gap block behind ∧ ¬ "/*#".toList <:+: gap ∧ ¬ "*/".toList <:+: block := by
  obtain ⟨⟨gap, inside⟩, opened, closed⟩ := Option.bind_eq_some_iff.mp first
  refine ⟨gap, ?_, not_infix_of_cutAt? (by decide) opened, not_infix_of_cutAt? (by decide) closed⟩
  have whole := eq_append_of_cutAt? opened
  rw [eq_append_of_cutAt? closed] at whole
  exact whole

section Free

variable (occurs : Occurs source gap block behind) (gap_free : ¬ "/*#".toList <:+: gap)
  (block_free : ¬ "*/".toList <:+: block)

include occurs gap_free block_free

theorem first?_of_free : markers.first? source = some (block, behind) := by
  have opened : cutAt? markers.opening source = some (gap, block ++ "*/".toList ++ behind) := by
    rw [occurs]
    exact cutAt?_append opening_unbordered gap_free _
  rw [Delimiters.first?, opened, Option.bind_some]
  exact cutAt?_append closing_unbordered block_free behind

theorem taken_of_free : Taken source gap block behind where
  occurs := occurs
  leftmost otherGap _ _ other := by
    have opened := cutAt?_append opening_unbordered gap_free (block ++ "*/".toList ++ behind)
    exact length_le_of_cutAt? opened (occurs.symm.trans other)
  shortest otherBlock otherBehind other := by
    have closed := cutAt?_append closing_unbordered block_free behind
    have same := List.append_cancel_left (occurs.symm.trans other)
    exact length_le_of_cutAt? closed same

end Free

theorem Taken.gap_free (taken : Taken source gap block behind) : ¬ "/*#".toList <:+: gap := by
  rintro ⟨earlier, later, rfl⟩
  have occurs : Occurs source earlier (later ++ "/*#".toList ++ block) behind := by
    rw [Occurs, taken.occurs]
    simp
  have first := taken.leftmost _ _ _ occurs
  simp only [List.length_append] at first
  have marked : 0 < "/*#".toList.length := by decide
  omega

theorem Taken.block_free (taken : Taken source gap block behind) : ¬ "*/".toList <:+: block := by
  rintro ⟨earlier, later, rfl⟩
  have occurs : Occurs source gap earlier (later ++ "*/".toList ++ behind) := by
    rw [Occurs, taken.occurs]
    simp
  have shortest := taken.shortest _ _ occurs
  simp only [List.length_append] at shortest
  have marked : 0 < "*/".toList.length := by decide
  omega

theorem first?_eq_some_iff :
    markers.first? source = some (block, behind) ↔ ∃ gap, Taken source gap block behind := by
  constructor
  · intro first
    obtain ⟨gap, occurs, gap_free, block_free⟩ := exists_of_first? first
    exact ⟨gap, taken_of_free occurs gap_free block_free⟩
  · rintro ⟨gap, taken⟩
    exact first?_of_free taken.occurs taken.gap_free taken.block_free

theorem Taken.unique {otherGap otherBlock otherBehind : Text} (taken : Taken source gap block behind)
    (other : Taken source otherGap otherBlock otherBehind) :
    gap = otherGap ∧ block = otherBlock ∧ behind = otherBehind := by
  have first := first?_eq_some_iff.mpr ⟨gap, taken⟩
  rw [first?_eq_some_iff.mpr ⟨otherGap, other⟩] at first
  obtain ⟨rfl, rfl⟩ := Prod.mk.inj (Option.some.inj first)
  have same := taken.occurs.symm.trans other.occurs
  rw [List.append_cancel_right_eq, List.append_cancel_right_eq] at same
  exact ⟨same, rfl, rfl⟩

theorem first?_eq_none (absent : ∀ gap block behind, ¬ Occurs source gap block behind) :
    markers.first? source = none := by
  rw [Option.eq_none_iff_forall_ne_some]
  rintro ⟨block, behind⟩ first
  obtain ⟨gap, occurs, -⟩ := exists_of_first? first
  exact absent gap block behind occurs

theorem first?_eq_none_iff : markers.first? source = none ↔ Unclosed source := by
  constructor
  · exact unclosed_of_first?
  · intro unclosed
    exact first?_eq_none fun _ _ _ => unclosed.not_occurs

end Search

theorem found_iff : Found source found ↔ found = blocks source := by
  constructor
  · intro search
    induction search with
    | nil none =>
        rw [blocks, Delimiters.bodies_of_none (first?_eq_none none)]
    | cons taken _ ih =>
        rw [blocks, Delimiters.bodies_of_some (first?_eq_some_iff.mpr ⟨_, taken⟩), ih, blocks]
  · rintro rfl
    rw [blocks]
    induction source using Delimiters.scan.induct markers with
    | case1 source none =>
        rw [Delimiters.bodies_of_none none]
        exact .nil fun gap block behind => (unclosed_of_first? none).not_occurs
    | case2 source block behind some ih =>
        obtain ⟨gap, taken⟩ := first?_eq_some_iff.mp some
        rw [Delimiters.bodies_of_some some]
        exact .cons taken ih

namespace Division

variable {stretches : List (Text × Text)} {rest : Text} {first second : Division}

theorem divides_nil_iff : Divides ⟨[], rest⟩ source ↔ source = rest ∧ Unclosed rest := by
  constructor
  · intro divides
    exact ⟨divides.whole, divides.unclosed⟩
  · rintro ⟨whole, unclosed⟩
    exact ⟨whole, List.forall_mem_nil _, List.forall_mem_nil _, unclosed⟩

theorem divides_cons_iff : Divides ⟨(gap, block) :: stretches, rest⟩ source ↔
    ∃ behind, Taken source gap block behind ∧ Divides ⟨stretches, rest⟩ behind := by
  constructor
  · intro divides
    obtain ⟨gap_free, gaps_free⟩ := List.forall_mem_cons.mp divides.gap_free
    obtain ⟨block_free, blocks_free⟩ := List.forall_mem_cons.mp divides.block_free
    have occurs : Occurs source gap block (text ⟨stretches, rest⟩) := by
      rw [Occurs, divides.whole]
      simp [text]
    exact ⟨_, taken_of_free occurs gap_free block_free, rfl, gaps_free, blocks_free, divides.unclosed⟩
  · rintro ⟨behind, taken, divides⟩
    refine ⟨?_, List.forall_mem_cons.mpr ⟨taken.gap_free, divides.gap_free⟩,
      List.forall_mem_cons.mpr ⟨taken.block_free, divides.block_free⟩, divides.unclosed⟩
    rw [taken.occurs, divides.whole]
    simp [text]

theorem Divides.blocks_eq {division : Division} (divides : division.Divides source) :
    division.blocks = Comment.blocks source := by
  obtain ⟨stretches, rest⟩ := division
  induction stretches generalizing source with
  | nil =>
      obtain ⟨rfl, unclosed⟩ := divides_nil_iff.mp divides
      rw [Comment.blocks, Delimiters.bodies_of_none (first?_eq_none_iff.mpr unclosed)]
      rfl
  | cons stretch stretches ih =>
      obtain ⟨behind, taken, others⟩ := divides_cons_iff.mp divides
      rw [Comment.blocks, Delimiters.bodies_of_some (first?_eq_some_iff.mpr ⟨_, taken⟩)]
      exact congrArg _ (ih others)

theorem exists_divides (source : Text) : ∃ division : Division, division.Divides source := by
  induction source using Delimiters.scan.induct markers with
  | case1 source none =>
      exact ⟨⟨[], source⟩, divides_nil_iff.mpr ⟨rfl, first?_eq_none_iff.mp none⟩⟩
  | case2 source block behind some ih =>
      obtain ⟨gap, taken⟩ := first?_eq_some_iff.mp some
      obtain ⟨division, divides⟩ := ih
      exact ⟨⟨(gap, block) :: division.stretches, division.rest⟩,
        divides_cons_iff.mpr ⟨behind, taken, divides⟩⟩

theorem eq_of_divides (one : first.Divides source) (other : second.Divides source) : first = second := by
  obtain ⟨stretches, rest⟩ := first
  obtain ⟨others, last⟩ := second
  induction stretches generalizing source others with
  | nil =>
      obtain ⟨rfl, unclosed⟩ := divides_nil_iff.mp one
      cases others with
      | nil =>
          obtain ⟨rfl, -⟩ := divides_nil_iff.mp other
          rfl
      | cons stretch others =>
          obtain ⟨behind, taken, -⟩ := divides_cons_iff.mp other
          exact absurd taken.occurs unclosed.not_occurs
  | cons stretch stretches ih =>
      obtain ⟨behind, taken, divides⟩ := divides_cons_iff.mp one
      cases others with
      | nil =>
          obtain ⟨rfl, unclosed⟩ := divides_nil_iff.mp other
          exact absurd taken.occurs unclosed.not_occurs
      | cons stretch' others =>
          obtain ⟨behind', taken', divides'⟩ := divides_cons_iff.mp other
          obtain ⟨gap_eq, block_eq, rfl⟩ := taken.unique taken'
          obtain ⟨rfl, rfl⟩ := Division.mk.inj (ih divides others divides')
          rw [Prod.ext gap_eq block_eq]

end Division

/-- A source text divides in exactly one way, and its blocks are those of the division. They are also those that a
search for the first and shortest comment finds. -/
theorem blocks_divide (source : Text) :
    (∃! division : Division, division.Divides source) ∧
      (∃ division : Division, division.Divides source ∧ blocks source = division.blocks) ∧
      ∀ found, Found source found ↔ found = blocks source := by
  obtain ⟨division, divides⟩ := Division.exists_divides source
  refine ⟨⟨division, divides, ?_⟩, ⟨division, divides, divides.blocks_eq.symm⟩, fun found => found_iff⟩
  intro other others
  exact Division.eq_of_divides others divides

end Comment

end ApiDoc
