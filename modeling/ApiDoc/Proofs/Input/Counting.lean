import ApiDoc.Proofs.Glob.Enumeration
import ApiDoc.Proofs.Input

/-!
How often a pattern gives a file.

A pattern gives a file once for each way in which it matches the path. Where several `**` leave a choice which
directories each of them takes, that is more than once.
-/

namespace ApiDoc

namespace Glob

/-- A way in which a pattern matches a path for a file: what each of its parts takes of the components. -/
structure Way (glob : Glob) (path : Text) (shares : List (List Component)) : Prop where
  notDirectory : glob.directoriesOnly = false
  shared : Shares glob.parts shares
  spelled : shares.flatten.foldlM join? glob.base = some (Path.parts path)

variable {tree : FileTree} {glob : Glob} {place : Place} {path : Text} {content : Bytes}
  {components : List Component} {shares : List (List Component)}

theorem admits_iff_exists_way : glob.Admits path ↔ ∃ shares, glob.Way path shares := by
  constructor
  · rintro ⟨notDirectory, components, matching, spelled⟩
    obtain ⟨shares, shared, rfl⟩ := matches_iff_exists_shares.mp matching
    exact ⟨shares, notDirectory, shared, spelled⟩
  · rintro ⟨shares, notDirectory, shared, spelled⟩
    exact ⟨notDirectory, shares.flatten, shared.matches, spelled⟩

theorem exists_leads_of_read? (formed : tree.WellFormed) (held : tree.read? path = some content)
    (spelled : components.foldlM join? glob.base = some (Path.parts path))
    (ended : (components.map Component.text).getLast? ≠ some []) :
    ∃ place, Leads tree (start tree glob) components place ∧ place.path = path := by
  obtain ⟨location, resolved, stands⟩ := FileTree.read?_eq_some_iff_resolve.mp held
  obtain ⟨⟨nonempty, -⟩, followed⟩ := FileTree.resolve_eq_ok_iff.mp resolved
  rw [start_path_eq nonempty spelled] at followed
  have leads : Leads tree (start tree glob) components ⟨Path.parts path, location⟩ :=
    exists_leads (isDirectory_start formed glob) (follow_base formed glob) spelled followed ended
  refine ⟨⟨Path.parts path, location⟩, leads, ?_⟩
  have whole : ['/'].intercalate (Path.parts path) = path := List.intercalate_splitOn '/'
  rw [Place.path, if_neg, whole]
  intro empty
  replace empty : Path.parts path = [[]] := empty
  rw [empty] at whole
  exact nonempty whole.symm

theorem Leads.isDirectory_eq_false (leads : Leads tree (start tree glob) components place)
    (formed : tree.WellFormed) (named : tree.Named) (held : tree.read? place.path = some content) :
    tree.isDirectory place.location = false := by
  have file := leads.content?_of_read? formed named held
  rw [Bool.eq_false_iff]
  intro directory
  rw [FileTree.content?, FileTree.get?_of_isDirectory directory] at file
  contradiction

theorem way_iff_exists_ends (formed : tree.WellFormed) (named : tree.Named)
    (held : tree.read? path = some content) : glob.Way path shares ↔ glob.directoriesOnly = false ∧
      ∃ place, Ends tree glob.parts (start tree glob) shares place ∧ place.path = path := by
  constructor
  · rintro ⟨notDirectory, shared, spelled⟩
    obtain ⟨place, leads, rfl⟩ := exists_leads_of_read? formed held spelled shared.matches.getLast?_ne
    exact ⟨notDirectory, place, ⟨shared, leads, leads.isDirectory_eq_false formed named held⟩, rfl⟩
  · rintro ⟨notDirectory, place, ⟨shared, leads, -⟩, rfl⟩
    obtain ⟨parts, -⟩ := leads.resolve_path formed named held
    exact ⟨notDirectory, shared, parts ▸ leads.joined⟩

theorem countP_matchesIn (formed : tree.WellFormed) (named : tree.Named)
    (held : tree.read? path = some content) :
    ((glob.matchesIn tree).countP (·.path = path) : ℕ∞) = {shares | glob.Way path shares}.encard := by
  have file : ∀ place ∈ expand tree glob.parts (start tree glob), place.path = path →
      tree.isDirectory place.location = false := by
    rintro place member rfl
    obtain ⟨components, leads⟩ := (exists_leads_of_mem formed named glob.parts).1 _ _ member
    exact leads.isDirectory_eq_false formed named held
  rw [matchesIn, List.countP_filter]
  cases only : glob.directoriesOnly with
  | true =>
      have none : {shares | glob.Way path shares} = ∅ := by
        ext shares
        simp [way_iff_exists_ends formed named held, only]
      rw [none, Set.encard_empty, Nat.cast_eq_zero, List.countP_eq_zero]
      intro place member
      by_cases same : place.path = path <;> simp [same, file place member]
  | false =>
      have enumerated := enumerates_files formed named glob.parts (start tree glob)
      have ways : {shares | glob.Way path shares} = {shares | ∃ place,
          Ends tree glob.parts (start tree glob) shares place ∧ decide (place.path = path)} := by
        ext shares
        simp [way_iff_exists_ends formed named held, only]
      rw [ways, ← enumerated.countP_eq, files, List.countP_filter]
      congr 1
      apply List.countP_congr
      intro place member
      by_cases same : place.path = path <;> simp [same, file place member]

end Glob

namespace InputFile

variable {tree : FileTree} {glob : Glob} {path : Text} {content : Bytes} {file : InputFile}

theorem count_ofGlob (held : tree.read? path = some content) :
    ((ofGlob tree glob).map (·.path)).count path = (glob.matchesIn tree).countP (·.path = path) := by
  rw [ofGlob, ((List.mergeSort_perm _ _).map _).count_eq, List.map_filterMap, List.count, List.countP_filterMap]
  apply List.countP_congr
  intro place _
  by_cases same : place.path = path
  · simp [same, held]
  · cases tree.read? place.path <;> simp [same]

theorem mem_ofGlob_iff_path_mem : file ∈ ofGlob tree glob ↔
    tree.read? file.path = some file.content ∧ file.path ∈ (ofGlob tree glob).map (·.path) := by
  constructor
  · exact fun member => ⟨read?_of_mem_ofGlob member, List.mem_map_of_mem member⟩
  · obtain ⟨path, content⟩ := file
    rintro ⟨held, among⟩
    obtain ⟨⟨_, own⟩, member, rfl⟩ := List.mem_map.mp among
    obtain rfl : own = content := Option.some.inj ((read?_of_mem_ofGlob member).symm.trans held)
    exact member

variable (formed : tree.WellFormed) (named : tree.Named)

include formed named

theorem count_ofGlob_eq_encard (held : tree.read? path = some content) :
    (((ofGlob tree glob).map (·.path)).count path : ℕ∞) = {shares | glob.Way path shares}.encard := by
  rw [count_ofGlob held, Glob.countP_matchesIn formed named held]

theorem mem_ofGlob_iff : file ∈ ofGlob tree glob ↔
    tree.read? file.path = some file.content ∧ glob.Admits file.path := by
  rw [mem_ofGlob_iff_path_mem]
  refine and_congr_right fun held => ?_
  rw [Glob.admits_iff_exists_way, ← List.count_pos_iff, Nat.pos_iff_ne_zero, ← @Nat.cast_ne_zero ℕ∞,
    count_ofGlob_eq_encard formed named held, Set.encard_ne_zero]
  rfl

end InputFile

end ApiDoc
