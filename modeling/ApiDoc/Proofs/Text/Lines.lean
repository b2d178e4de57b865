import ApiDoc.Text

/-!
Lines as parts of a text.

Every line is a part of its text, and a part that spans no line break lies within one line.
-/

namespace ApiDoc

namespace Text

theorem unlines_cons_of_ne_nil (line : Text) {rest : List Text} (nonempty : rest ≠ []) :
    unlines (line :: rest) = line ++ '\n' :: unlines rest := by
  rw [unlines, List.intercalate_cons_of_ne_nil nonempty, unlines]
  simp

theorem unlines_append {first rest : List Text} (first_ne_nil : first ≠ []) (rest_ne_nil : rest ≠ []) :
    unlines (first ++ rest) = unlines first ++ '\n' :: unlines rest := by
  induction first with
  | nil => contradiction
  | cons line first ih =>
      rw [List.cons_append, unlines_cons_of_ne_nil line (List.append_ne_nil_of_right_ne_nil _ rest_ne_nil)]
      by_cases last : first = []
      · subst last
        simp [unlines]
      · rw [ih last, unlines_cons_of_ne_nil line last, List.append_assoc, List.cons_append]

theorem infix_unlines_of_mem {line : Text} {lines : List Text} (member : line ∈ lines) :
    line <:+: unlines lines := by
  induction lines with
  | nil => simp at member
  | cons first rest ih =>
      by_cases last : rest = []
      · subst last
        rw [List.mem_singleton.mp member]
        simp [unlines]
      · rw [unlines_cons_of_ne_nil first last]
        rcases List.mem_cons.mp member with rfl | later
        · exact List.infix_append_left
        · exact (ih later).trans (List.infix_append_of_infix_right (List.infix_cons List.infix_rfl))

theorem infix_of_mem_lines {line text : Text} (member : line ∈ text.lines) : line <:+: text := by
  have inside := infix_unlines_of_mem member
  rwa [unlines_lines] at inside

theorem separator_notMem_of_mem_splitOn {α : Type} [DecidableEq α] {separator : α} {part items : List α}
    (member : part ∈ items.splitOn separator) : separator ∉ part := by
  induction items generalizing part with
  | nil =>
      rw [List.mem_singleton.mp member]
      exact List.not_mem_nil
  | cons item items ih =>
      rw [List.splitOn_cons_eq_if_modifyHead] at member
      split at member
      · rcases List.mem_cons.mp member with rfl | later
        · exact List.not_mem_nil
        · exact ih later
      · next other =>
          obtain ⟨first, rest, whole⟩ := List.exists_cons_of_ne_nil (List.splitOn_ne_nil separator items)
          rw [whole, List.modifyHead_cons] at member
          rcases List.mem_cons.mp member with rfl | later
          · have single : separator ∉ first := ih (by rw [whole]; exact List.mem_cons_self)
            simp only [beq_iff_eq] at other
            simp [single, Ne.symm other]
          · exact ih (by rw [whole]; exact List.mem_cons_of_mem first later)

theorem newline_notMem_of_mem_lines {line text : Text} (member : line ∈ text.lines) :
    '\n' ∉ line :=
  separator_notMem_of_mem_splitOn member

theorem infix_append_separator {α : Type} {separator : α} {part first rest : List α}
    (absent : separator ∉ part) (inside : part <:+: first ++ separator :: rest) :
    part <:+: first ∨ part <:+: rest := by
  rcases List.infix_append_iff_ne_nil.mp inside with left | right | ⟨before, behind, _, nonempty,
    rfl, _, ⟨after, across⟩⟩
  · exact Or.inl left
  · rcases List.infix_cons_iff.mp right with begins | later
    · cases part with
      | nil => exact Or.inl List.nil_infix
      | cons item part =>
          obtain ⟨rfl, _⟩ := List.cons_prefix_cons.mp begins
          simp at absent
    · exact Or.inr later
  · cases behind with
    | nil => exact absurd rfl nonempty
    | cons item behind =>
        rw [List.cons_append, List.cons.injEq] at across
        simp [across.1] at absent

theorem exists_eq_append_of_notMem {α : Type} {first second before rest : List α} {item : α}
    (absent : item ∉ first) (same : first ++ second = before ++ item :: rest) :
    ∃ between, before = first ++ between ∧ second = between ++ item :: rest := by
  rcases List.append_eq_append_iff.mp same with ⟨between, whole, remaining⟩ | ⟨behind, whole, across⟩
  · exact ⟨between, whole, remaining⟩
  · cases behind with
    | nil => exact ⟨[], by simpa using whole.symm, across.symm⟩
    | cons other behind =>
        rw [List.cons_append, List.cons.injEq] at across
        rw [whole, ← across.1] at absent
        simp at absent

theorem infix_of_infix_append {α : Type} {part before rest : List α} (nonempty : part ≠ [])
    (absent : ∀ item ∈ before, item ∉ part) (inside : part <:+: before ++ rest) :
    part <:+: rest := by
  induction before with
  | nil => exact inside
  | cons item before ih =>
      rw [List.cons_append, List.infix_cons_iff] at inside
      rcases inside with begins | later
      · obtain ⟨first, tail, rfl⟩ := List.exists_cons_of_ne_nil nonempty
        obtain ⟨rfl, _⟩ := List.cons_prefix_cons.mp begins
        exact absurd (List.mem_cons_self) (absent first (by simp))
      · exact ih (fun other member => absent other (List.mem_cons_of_mem item member)) later

theorem infix_of_infix_append_behind {α : Type} {part behind rest : List α} (nonempty : part ≠ [])
    (absent : ∀ item ∈ behind, item ∉ part) (inside : part <:+: rest ++ behind) :
    part <:+: rest := by
  rw [← List.reverse_infix] at inside ⊢
  rw [List.reverse_append] at inside
  refine infix_of_infix_append (by simpa using nonempty) ?_ inside
  intro item member
  rw [List.mem_reverse] at member ⊢
  exact absent item member

theorem unlines_append_lines (first : List Text) (rest : Text) :
    unlines (first ++ rest.lines) = (first.map (· ++ ['\n'])).flatten ++ rest := by
  induction first with
  | nil => simp
  | cons line first ih =>
      have more : first ++ rest.lines ≠ [] := by simp [lines_ne_nil]
      rw [List.cons_append, unlines_cons_of_ne_nil line more, ih]
      simp

theorem infix_line_of_infix_unlines {part : Text} {lines : List Text} (single : '\n' ∉ part)
    (nonempty : part ≠ []) (inside : part <:+: unlines lines) : ∃ line ∈ lines, part <:+: line := by
  induction lines with
  | nil => exact absurd (List.eq_nil_of_infix_nil inside) nonempty
  | cons first rest ih =>
      by_cases last : rest = []
      · subst last
        exact ⟨first, by simp, by simpa [unlines] using inside⟩
      · rw [unlines_cons_of_ne_nil first last] at inside
        rcases infix_append_separator single inside with here | below
        · exact ⟨first, by simp, here⟩
        · obtain ⟨line, member, found⟩ := ih below
          exact ⟨line, List.mem_cons_of_mem first member, found⟩

end Text

end ApiDoc
