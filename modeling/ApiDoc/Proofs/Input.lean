import ApiDoc.Extraction

/-!
The files that arguments stand for hold what the file tree holds under their paths.
-/

namespace ApiDoc

namespace InputFile

variable {tree : FileTree} {arguments rest : List Text} {argument : Text} {files : List InputFile}
  {file : InputFile} {error : InputError}

theorem ofArgument_eq_ok_iff : ofArgument tree argument = .ok files ↔
    (∃ content, tree.read? argument = some content ∧ files = [⟨argument, content⟩]) ∨
      tree.read? argument = none ∧ ∃ glob, Glob.parse argument = .ok glob ∧
        ofGlob tree glob ≠ [] ∧ files = ofGlob tree glob := by
  rw [ofArgument]
  cases tree.read? argument with
  | some content =>
      constructor
      · intro found
        exact Or.inl ⟨content, rfl, (Except.ok.inj found).symm⟩
      · rintro (⟨_, held, rfl⟩ | ⟨unnamed, -⟩)
        · rw [Option.some.inj held]
        · contradiction
  | none =>
      cases Glob.parse argument with
      | error error => simp
      | ok glob =>
          simp only [reduceCtorEq, false_and, exists_false, false_or, true_and, Except.ok.injEq,
            exists_eq_left']
          cases ofGlob tree glob with
          | nil => simp
          | cons file others =>
              constructor
              · intro found
                exact ⟨List.cons_ne_nil file others, (Except.ok.inj found).symm⟩
              · rintro ⟨-, rfl⟩
                rfl

theorem ofArguments_cons_eq_ok_iff : ofArguments tree (argument :: rest) = .ok files ↔
    ∃ own others, ofArgument tree argument = .ok own ∧ ofArguments tree rest = .ok others ∧
      own ++ others = files := by
  rw [ofArguments]
  cases ofArgument tree argument with
  | error error => simp
  | ok own => cases ofArguments tree rest <;> simp [Except.map]

theorem ofArguments_cons_eq_error_iff : ofArguments tree (argument :: rest) = .error error ↔
    ofArgument tree argument = .error error ∨
      (∃ own, ofArgument tree argument = .ok own) ∧ ofArguments tree rest = .error error := by
  rw [ofArguments]
  cases ofArgument tree argument with
  | error error => simp
  | ok own => cases ofArguments tree rest <;> simp [Except.map]

theorem read?_of_mem_ofGlob {glob : Glob} (member : file ∈ ofGlob tree glob) :
    tree.read? file.path = some file.content := by
  rw [ofGlob, List.mem_mergeSort, List.mem_filterMap] at member
  obtain ⟨place, -, found⟩ := member
  obtain ⟨content, held, same⟩ := Option.map_eq_some_iff.mp found
  rw [← same]
  exact held

theorem read?_of_mem_ofArgument (found : ofArgument tree argument = .ok files)
    (member : file ∈ files) : tree.read? file.path = some file.content := by
  rcases ofArgument_eq_ok_iff.mp found with ⟨content, held, rfl⟩ | ⟨-, glob, -, -, rfl⟩
  · rw [List.mem_singleton.mp member]
    exact held
  · exact read?_of_mem_ofGlob member

theorem read?_of_mem_ofArguments (found : ofArguments tree arguments = .ok files)
    (member : file ∈ files) : tree.read? file.path = some file.content := by
  induction arguments generalizing files with
  | nil =>
      rw [← Except.ok.inj found] at member
      contradiction
  | cons argument rest ih =>
      obtain ⟨own, others, first, later, rfl⟩ := ofArguments_cons_eq_ok_iff.mp found
      rcases List.mem_append.mp member with inFirst | inRest
      · exact read?_of_mem_ofArgument first inFirst
      · exact ih later inRest

end InputFile

end ApiDoc
