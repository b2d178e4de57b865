import ApiDoc.FileTree.Replacement
import ApiDoc.Proofs.FileTree
import ApiDoc.Proofs.FileTree.Path

/-!
Replacing a file is all or nothing.

The temporary file has a name that is free in its directory, and the directories stay the same beside it. So it
does not change whether a file can be put under the path. Once it has been moved or taken away, the tree is the
tree as it was but for the file that was to be replaced.
-/

namespace ApiDoc

namespace FileTree

variable {tree before after : FileTree} {drawing other : Drawing} {path : Text} {temporary location : Location}
  {content : Bytes}

theorem temporaryPath_eq_of_home_eq (same : before.home = after.home) (path name : Text) :
    before.temporaryPath path name = after.temporaryPath path name := by
  rw [temporaryPath, temporaryPath, same]

theorem prepare_eq_ok_iff : tree.prepare drawing path = .ok temporary ↔
    Path.fits (tree.temporaryPath path Drawing.sample) ∧
      ∃ place, tree.resolve (Path.directory path) = .ok place ∧ tree.isDirectory place ∧
        temporary = place ++ [drawing.name (tree.names place)] := by
  rw [prepare]
  by_cases short : Path.fits (tree.temporaryPath path Drawing.sample)
  · rw [if_pos short, and_iff_right short, resolveDirectory]
    cases tree.resolve (Path.directory path) with
    | error error => simp [Except.map]
    | ok place =>
        dsimp only
        cases inside : tree.isDirectory place with
        | false => simp [Except.map, inside]
        | true =>
            constructor
            · exact fun found => ⟨place, rfl, inside, (Except.ok.inj found).symm⟩
            · rintro ⟨_, same, -, rfl⟩
              obtain rfl := Except.ok.inj same
              rfl
  · rw [if_neg short]
    exact iff_of_false (by simp) fun prepared => short prepared.1

theorem notMem_of_prepare (prepared : tree.prepare drawing path = .ok temporary) :
    temporary ∉ tree.entries.map (·.1) := by
  obtain ⟨-, place, -, -, rfl⟩ := prepare_eq_ok_iff.mp prepared
  intro taken
  have present : (tree.get? (place ++ [drawing.name (tree.names place)])).isSome :=
    (get?_isSome_iff (by simp)).mpr (List.mem_map.mp taken)
  exact drawing.fresh (tree.names place) (mem_names_iff.mpr present)

theorem Keeps.exists_prepare_eq_ok (kept : before.Keeps after) (other : Drawing)
    (prepared : before.prepare drawing path = .ok temporary) :
    ∃ another, after.prepare other path = .ok another := by
  obtain ⟨short, place, resolved, inside, -⟩ := prepare_eq_ok_iff.mp prepared
  rw [← temporaryPath_eq_of_home_eq kept.home] at short
  exact ⟨_, prepare_eq_ok_iff.mpr
    ⟨short, place, kept.resolve_eq_ok resolved, (kept.isDirectory place).trans inside, rfl⟩⟩

theorem isDirectory_insert_file (absent : location ∉ tree.entries.map (·.1)) (notRoot : location ≠ [])
    (place : Location) : (tree.insert location (.file content)).isDirectory place = tree.isDirectory place := by
  have nothing : tree.get? location = none := by
    rw [← Option.not_isSome_iff_eq_none, get?_isSome_iff notRoot]
    exact fun taken => absent (List.mem_map.mpr taken)
  rw [isDirectory, isDirectory]
  by_cases same : place = location
  · rw [same, get?_insert_self notRoot, nothing]
    rfl
  · rw [get?_insert_of_ne same]

section Prepared

variable (prepared : tree.prepare drawing path = .ok temporary)

include prepared

theorem ne_root_of_prepare : temporary ≠ [] := by
  obtain ⟨-, place, -, -, rfl⟩ := prepare_eq_ok_iff.mp prepared
  simp

theorem destination_insert_of_prepare :
    (tree.insert temporary (.file content)).destination path = .ok location ↔
      tree.destination path = .ok location := by
  have same : ∀ place, (tree.insert temporary (.file content)).isDirectory place = tree.isDirectory place :=
    isDirectory_insert_file (notMem_of_prepare prepared) (ne_root_of_prepare prepared)
  constructor
  · exact destination_eq_ok_of_isDirectory home_insert.symm fun place => (same place).symm
  · exact destination_eq_ok_of_isDirectory home_insert same

/-- Replacing a file, without its temporary file: either nothing changes, or the file alone. -/
theorem replace_of_prepare (content : Bytes) : tree.replace drawing path content =
    match (tree.insert temporary (.file content)).destination path with
    | .error error => (tree, .error (.move error))
    | .ok location => (tree.insert location (.file content), .ok ()) := by
  rw [replace, prepared]
  dsimp only
  rw [move, get?_insert_self (ne_root_of_prepare prepared), erase_insert_of_notMem (notMem_of_prepare prepared)]
  cases (tree.insert temporary (.file content)).destination path with
  | error error => rfl
  | ok location => rfl

theorem replace_of_destination (found : tree.destination path = .ok location) (content : Bytes) :
    tree.replace drawing path content = (tree.insert location (.file content), .ok ()) := by
  rw [replace_of_prepare prepared, (destination_insert_of_prepare prepared).mpr found]

end Prepared

theorem replace_cases (tree : FileTree) (drawing : Drawing) (path : Text) (content : Bytes) :
    (∃ error, tree.replace drawing path content = (tree, .error error)) ∨
      ∃ temporary location, tree.prepare drawing path = .ok temporary ∧ tree.destination path = .ok location ∧
        tree.replace drawing path content = (tree.insert location (.file content), .ok ()) := by
  cases prepared : tree.prepare drawing path with
  | error error => exact Or.inl ⟨_, by rw [replace, prepared]⟩
  | ok temporary =>
      rw [replace_of_prepare prepared]
      cases found : (tree.insert temporary (.file content)).destination path with
      | error error => exact Or.inl ⟨_, rfl⟩
      | ok location =>
          exact Or.inr ⟨temporary, location, rfl, (destination_insert_of_prepare prepared).mp found, rfl⟩

/-- Whether a file can be replaced does not depend on the name that is drawn for its new content. -/
theorem replace_drawn (tree : FileTree) (drawing other : Drawing) (path : Text) (content : Bytes) :
    (∃ error another, tree.replace drawing path content = (tree, .error error) ∧
        tree.replace other path content = (tree, .error another)) ∨
      ∃ after, tree.replace drawing path content = (after, .ok ()) ∧
        tree.replace other path content = (after, .ok ()) := by
  have settled {first second : Drawing} {location : Location} (prepared : tree.prepare first path = .ok location) :
      ∃ another, tree.prepare second path = .ok another :=
    (Keeps.refl tree).exists_prepare_eq_ok second prepared
  rcases replace_cases tree drawing path content with ⟨error, failed⟩ | ⟨temporary, location, prepared, found, inserted⟩
  · rcases replace_cases tree other path content with ⟨another, failed_other⟩ | ⟨temporary, location, prepared, found, -⟩
    · exact Or.inl ⟨error, another, failed, failed_other⟩
    · obtain ⟨earlier, prepared_first⟩ := settled prepared
      rw [replace_of_destination prepared_first found] at failed
      have impossible := (Prod.mk.inj failed).2
      contradiction
  · obtain ⟨another, prepared_other⟩ := settled prepared
    exact Or.inr ⟨_, inserted, replace_of_destination prepared_other found content⟩

theorem destination_of_replace (replaced : tree.replace drawing path content = (after, .ok ())) :
    ∃ location, tree.destination path = .ok location ∧ after = tree.insert location (.file content) := by
  rcases replace_cases tree drawing path content with ⟨error, failed⟩ | ⟨-, location, -, found, inserted⟩
  · rw [failed] at replaced
    cases replaced
  · rw [inserted] at replaced
    exact ⟨location, found, (Prod.mk.inj replaced).1.symm⟩

theorem replaces_of_destination (content : Bytes) (found : tree.destination path = .ok location) :
    tree.Replaces (tree.insert location (.file content)) location content := by
  obtain ⟨parents, place, last, receives, rfl⟩ := exists_receives found
  exact replaces_insert receives.notDirectory

theorem replace_again (replaced : tree.replace drawing path content = (after, .ok ())) (other : Drawing) :
    after.replace other path content = (after, .ok ()) := by
  rcases replace_cases tree drawing path content with ⟨error, failed⟩ | ⟨temporary, location, prepared, found, inserted⟩
  · rw [failed] at replaced
    cases replaced
  · rw [inserted] at replaced
    obtain rfl := (Prod.mk.inj replaced).1
    have kept := (replaces_of_destination content found).keeps
    obtain ⟨another, prepared_again⟩ := kept.exists_prepare_eq_ok other prepared
    rw [replace_of_destination prepared_again (kept.destination_eq_ok found), insert_insert]

theorem WellFormed.insert_of_destination (formed : tree.WellFormed) (found : tree.destination path = .ok location) :
    (tree.insert location (.file content)).WellFormed := by
  have kept := (replaces_of_destination content found).keeps
  obtain ⟨parents, place, last, receives, rfl⟩ := exists_receives found
  apply formed.insert
  · simp
  · rw [List.dropLast_concat]
    exact receives.inside
  · exact kept

end FileTree

end ApiDoc
