import ApiDoc.FileTree
import ApiDoc.Glob.Meaning
import Mathlib.Data.List.Induction

/-!
What putting a node into a file tree changes, and what stands below a place.

A write changes a file tree in one place, where no directory stands, and so keeps its directories and its
files. The ways down from a place are those to the entries below it. In a well-formed tree each way leads through
directories only, and all its parts are names.
-/

namespace ApiDoc

namespace FileTree

/-- One tree follows from another when the home and the directories are the same and every file is
still a file. -/
structure Keeps (before after : FileTree) : Prop where
  home : after.home = before.home
  isDirectory (location : Location) : after.isDirectory location = before.isDirectory location
  isFile (location : Location) :
    (before.content? location).isSome → (after.content? location).isSome

/-- One tree follows from another when a file with some content stands at a location, in the place of a
file or of nothing, and all else is the same. -/
structure Replaces (before after : FileTree) (location : Location) (content : Bytes) : Prop where
  home : after.home = before.home
  notDirectory : before.isDirectory location = false
  written : after.get? location = some (.file content)
  elsewhere (other : Location) : other ≠ location → after.get? other = before.get? other

variable {tree before middle after : FileTree} {location other : Location} {node : Node}
  {content : Bytes}

theorem get?_of_ne_root (notRoot : location ≠ []) :
    tree.get? location = (tree.entries.find? fun entry => entry.1 = location).map (·.2) :=
  if_neg notRoot

theorem isDirectory_root : tree.isDirectory [] := by
  simp [isDirectory, get?]

theorem get?_of_isDirectory (directory : tree.isDirectory location) :
    tree.get? location = some .directory :=
  of_decide_eq_true directory

@[simp]
theorem home_insert : (tree.insert location node).home = tree.home := by
  rw [insert]
  split <;> rfl

theorem entries_insert_of_notMem (absent : location ∉ tree.entries.map (·.1)) :
    tree.insert location node = { tree with entries := tree.entries ++ [(location, node)] } := by
  rw [insert, if_neg]
  intro present
  obtain ⟨entry, member, same⟩ := List.any_eq_true.mp present
  exact absent (List.mem_map.mpr ⟨entry, member, of_decide_eq_true same⟩)

theorem place_of_replaced (entry : Location × Node) :
    (if entry.1 = location then (location, node) else entry).1 = entry.1 := by
  split
  · next here => exact here.symm
  · rfl

theorem get?_insert_self (notRoot : location ≠ []) :
    (tree.insert location node).get? location = some node := by
  rw [get?_of_ne_root notRoot, insert]
  split
  · next present =>
      obtain ⟨entry, found⟩ := Option.isSome_iff_exists.mp (List.find?_isSome.mpr
        (List.any_eq_true.mp present))
      have same : entry.1 = location := by simpa using List.find?_some found
      simp only [List.find?_map, Function.comp_def, place_of_replaced, found, Option.map_some,
        if_pos same]
  · next absent =>
      have missing : (tree.entries.find? fun entry => decide (entry.1 = location)) = none := by
        rw [List.find?_eq_none]
        intro entry member same
        exact absent (List.any_eq_true.mpr ⟨entry, member, same⟩)
      simp [missing]

theorem get?_insert_of_ne (different : other ≠ location) :
    (tree.insert location node).get? other = tree.get? other := by
  by_cases root : other = []
  · rw [root, get?, get?, if_pos rfl, if_pos rfl]
  rw [get?_of_ne_root root, get?_of_ne_root root, insert]
  split
  · simp only [List.find?_map, Function.comp_def, place_of_replaced]
    cases found : tree.entries.find? fun entry => decide (entry.1 = other) with
    | none => rfl
    | some entry =>
        have same : entry.1 = other := by simpa using List.find?_some found
        simp [same, different]
  · simp [Ne.symm different]

theorem insert_insert : (tree.insert location node).insert location node = tree.insert location node := by
  by_cases present : tree.entries.any fun entry => entry.1 = location
  · have still : (tree.insert location node).entries.any fun entry => entry.1 = location := by
      rw [insert, if_pos present]
      simpa only [List.any_map, Function.comp_def, place_of_replaced] using present
    rw [insert, if_pos still, insert, if_pos present]
    simp only [List.map_map, mk.injEq, and_true]
    apply List.map_congr_left
    intro entry _
    simp only [Function.comp_apply, place_of_replaced]
    split <;> rfl
  · have absent : ∀ entry ∈ tree.entries, (if entry.1 = location then (location, node) else entry) = entry := by
      intro entry member
      exact if_neg fun same => present (List.any_eq_true.mpr ⟨entry, member, decide_eq_true same⟩)
    have still : (tree.insert location node).entries.any fun entry => entry.1 = location := by
      simp [insert, present]
    rw [insert, if_pos still, insert, if_neg present]
    simp only [List.map_append, List.map_congr_left absent, List.map_id', List.map_singleton, if_true]

theorem erase_insert_of_notMem (absent : location ∉ tree.entries.map (·.1)) :
    (tree.insert location node).erase location = tree := by
  have kept : (tree.entries.filter fun entry => entry.1 ≠ location) = tree.entries := by
    rw [List.filter_eq_self]
    intro entry member
    exact decide_eq_true fun same => absent (List.mem_map.mpr ⟨entry, member, same⟩)
  rw [entries_insert_of_notMem absent, erase, List.filter_append, kept]
  simp

theorem Keeps.refl (tree : FileTree) : tree.Keeps tree :=
  ⟨rfl, fun _ => rfl, fun _ => id⟩

theorem Keeps.trans (first : before.Keeps middle) (second : middle.Keeps after) :
    before.Keeps after where
  home := second.home.trans first.home
  isDirectory location := (second.isDirectory location).trans (first.isDirectory location)
  isFile location := second.isFile location ∘ first.isFile location

theorem Keeps.get?_isSome (kept : before.Keeps after) (present : (before.get? location).isSome) :
    (after.get? location).isSome := by
  cases found : before.get? location with
  | none => simp [found] at present
  | some node =>
      cases node with
      | directory =>
          have stands : before.isDirectory location := decide_eq_true found
          rw [get?_of_isDirectory ((kept.isDirectory location).trans stands), Option.isSome_some]
      | file content =>
          have file := kept.isFile location (by simp [content?, found])
          cases left : after.get? location with
          | none => simp [content?, left] at file
          | some node => rfl

theorem Replaces.keeps (replaced : before.Replaces after location content) :
    before.Keeps after where
  home := replaced.home
  isDirectory other := by
    by_cases same : other = location
    · rw [same, replaced.notDirectory, isDirectory, replaced.written]
      rfl
    · rw [isDirectory, isDirectory, replaced.elsewhere other same]
  isFile other := by
    by_cases same : other = location
    · rw [same, content?, content?, replaced.written]
      exact fun _ => rfl
    · rw [content?, content?, replaced.elsewhere other same]
      exact id

theorem mem_entries_insert {entry : Location × Node}
    (member : entry ∈ (tree.insert location node).entries) :
    entry ∈ tree.entries ∨ entry = (location, node) := by
  rw [insert] at member
  split at member
  · obtain ⟨old, among, same⟩ := List.mem_map.mp member
    split at same
    · exact Or.inr same.symm
    · exact Or.inl (same ▸ among)
  · rcases List.mem_append.mp member with old | new
    · exact Or.inl old
    · exact Or.inr (List.mem_singleton.mp new)

theorem nodup_entries_insert (nodup : (tree.entries.map (·.1)).Nodup) :
    ((tree.insert location node).entries.map (·.1)).Nodup := by
  by_cases present : location ∈ tree.entries.map (·.1)
  · rw [insert, if_pos (by simpa using present)]
    simp only [List.map_map, Function.comp_def, place_of_replaced]
    exact nodup
  · rw [entries_insert_of_notMem present, List.map_append, List.map_singleton, List.nodup_append]
    refine ⟨nodup, by simp, ?_⟩
    intro place old other new same
    rw [same, List.mem_singleton.mp new] at old
    exact present old

theorem WellFormed.insert (formed : tree.WellFormed) (notRoot : location ≠ [])
    (inside : tree.isDirectory location.dropLast) (kept : tree.Keeps (tree.insert location node)) :
    (tree.insert location node).WellFormed where
  nodup := nodup_entries_insert formed.nodup
  ne_root entry member := by
    rcases mem_entries_insert member with old | new
    · exact formed.ne_root entry old
    · exact new ▸ notRoot
  parent entry member := by
    rw [kept.isDirectory]
    rcases mem_entries_insert member with old | new
    · exact formed.parent entry old
    · exact new ▸ inside
  home := by
    rw [kept.isDirectory, kept.home]
    exact formed.home

theorem replaces_insert (notDirectory : tree.isDirectory location = false) :
    tree.Replaces (tree.insert location (.file content)) location content where
  home := home_insert
  notDirectory := notDirectory
  written := by
    apply get?_insert_self
    intro root
    rw [root, isDirectory_root] at notDirectory
    contradiction
  elsewhere _ different := get?_insert_of_ne different

def Named (tree : FileTree) : Prop :=
  ∀ entry ∈ tree.entries, ∀ name ∈ entry.1, Path.IsName name

instance (tree : FileTree) : Decidable tree.Named :=
  inferInstanceAs (Decidable (∀ entry ∈ tree.entries, ∀ name ∈ entry.1, Path.IsName name))

instance (tree : FileTree) : Decidable tree.WellFormed :=
  decidable_of_iff ((tree.entries.map (·.1)).Nodup ∧ (∀ entry ∈ tree.entries, entry.1 ≠ []) ∧
      (∀ entry ∈ tree.entries, tree.isDirectory entry.1.dropLast) ∧ tree.isDirectory tree.home)
    ⟨fun ⟨nodup, ne_root, parent, home⟩ => ⟨nodup, ne_root, parent, home⟩,
      fun formed => ⟨formed.nodup, formed.ne_root, formed.parent, formed.home⟩⟩

variable {way : Location} {name : Text}

theorem get?_isSome_iff (notRoot : location ≠ []) :
    (tree.get? location).isSome ↔ ∃ entry ∈ tree.entries, entry.1 = location := by
  rw [get?_of_ne_root notRoot, Option.isSome_map, List.find?_isSome]
  simp

theorem get?_isSome_of_isDirectory (directory : tree.isDirectory location) :
    (tree.get? location).isSome := by
  rw [get?_of_isDirectory directory, Option.isSome_some]

theorem mem_below_iff :
    way ∈ tree.below location ↔ way ≠ [] ∧ (tree.get? (location ++ way)).isSome := by
  rw [below, List.mem_mergeSort, List.mem_filter, List.mem_filterMap, and_comm]
  simp only [Bool.not_eq_true', List.isEmpty_eq_false_iff]
  refine and_congr_right fun nonempty => ?_
  rw [get?_isSome_iff (List.append_ne_nil_of_right_ne_nil location nonempty)]
  simp only [after?_eq_some_iff]

theorem mem_names_iff : name ∈ tree.names location ↔ (tree.get? (location ++ [name])).isSome := by
  have single : [name] ∈ tree.below location ↔ (tree.get? (location ++ [name])).isSome := by
    rw [mem_below_iff, and_iff_right (List.cons_ne_nil name [])]
  rw [← single, names, List.mem_filterMap]
  constructor
  · rintro ⟨way, below, found⟩
    split at found
    · next last => exact Option.some.inj found ▸ below
    · contradiction
  · exact fun below => ⟨[name], below, rfl⟩

theorem WellFormed.isDirectory_of_append (formed : tree.WellFormed) (nonempty : way ≠ [])
    (present : (tree.get? (location ++ way)).isSome) : tree.isDirectory location := by
  induction way using List.reverseRecOn with
  | nil => contradiction
  | append_singleton earlier last ih =>
      obtain ⟨entry, member, same⟩ :=
        (get?_isSome_iff (List.append_ne_nil_of_right_ne_nil location nonempty)).mp present
      have parent := formed.parent entry member
      rw [same, ← List.append_assoc, List.dropLast_concat] at parent
      by_cases first : earlier = []
      · rwa [first, List.append_nil] at parent
      · exact ih first (get?_isSome_of_isDirectory parent)

theorem Named.isName (named : tree.Named) (present : (tree.get? (location ++ way)).isSome)
    (member : name ∈ way) : Path.IsName name := by
  have nonempty : way ≠ [] := List.ne_nil_of_mem member
  obtain ⟨entry, among, same⟩ :=
    (get?_isSome_iff (List.append_ne_nil_of_right_ne_nil location nonempty)).mp present
  exact named entry among name (same ▸ List.mem_append_right location member)

end FileTree

end ApiDoc
