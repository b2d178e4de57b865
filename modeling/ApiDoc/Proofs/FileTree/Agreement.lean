import ApiDoc.Proofs.FileTree
import ApiDoc.Proofs.FileTree.Path
import ApiDoc.Proofs.Text.Lines
import Mathlib.Data.List.Nodup

/-!
File trees that agree.

Two file trees agree but for some places when they hold the same everywhere else, and neither has a directory at
one of these places. What stands below a location, and what a path leads to, is then the same but for these
places. It does not depend on the order of the entries.
-/

namespace ApiDoc

namespace FileTree

/-- Whether two trees hold the same but for some places, none of which is a directory. -/
structure AgreeBut (places : List Location) (first second : FileTree) : Prop where
  formed : first.WellFormed ∧ second.WellFormed
  home : first.home = second.home
  notDirectory (location : Location) : location ∈ places →
    first.isDirectory location = false ∧ second.isDirectory location = false
  elsewhere (location : Location) : location ∉ places → first.get? location = second.get? location

variable {tree first second : FileTree} {places : List Location} {place next location : Location}
  {part path : Text} {parts : List Text} {content : Bytes}

namespace AgreeBut

variable (agree : AgreeBut places first second)

include agree

theorem symm : AgreeBut places second first where
  formed := agree.formed.symm
  home := agree.home.symm
  notDirectory location among := (agree.notDirectory location among).symm
  elsewhere location apart := (agree.elsewhere location apart).symm

theorem isDirectory_eq (location : Location) : first.isDirectory location = second.isDirectory location := by
  by_cases among : location ∈ places
  · obtain ⟨one, other⟩ := agree.notDirectory location among
    rw [one, other]
  · rw [isDirectory, isDirectory, agree.elsewhere location among]

end AgreeBut

section Below

theorem pairwise_below (tree : FileTree) (location : Location) :
    (tree.below location).Pairwise fun way other => Location.le way other := by
  rw [below]
  exact List.pairwise_mergeSort Location.le_totalOrder.trans Location.le_totalOrder.total _

theorem nodup_below (formed : tree.WellFormed) : (tree.below location).Nodup := by
  rw [below, (List.mergeSort_perm _ _).nodup_iff]
  apply List.Nodup.filter
  have ways : tree.entries.filterMap (fun entry => after? location entry.1) =
      (tree.entries.map (·.1)).filterMap (after? location) := by
    rw [List.filterMap_map]
    rfl
  rw [ways]
  apply formed.nodup.filterMap
  intro one other way found same
  rw [Option.mem_def, after?_eq_some_iff] at found same
  rw [found, same]

theorem filter_filterMap_congr {α β : Type} {read : α → Option β} {kept : β → Bool} {keep : α → Bool}
    (same : ∀ item result, read item = some result → kept result = keep item) {items others : List α}
    (filtered : items.filter keep = others.filter keep) :
    (items.filterMap read).filter kept = (others.filterMap read).filter kept := by
  have before (items : List α) : (items.filterMap read).filter kept = (items.filter keep).filterMap read := by
    rw [List.filter_filterMap, List.filterMap_filter]
    apply List.filterMap_congr
    intro item _
    cases found : read item with
    | none => simp
    | some result => simp [Option.filter, same item result found]
  rw [before, before, filtered]

theorem AgreeBut.filter_below (agree : AgreeBut places first second) (location : Location) :
    (first.below location).filter (fun way => location ++ way ∉ places) =
      (second.below location).filter (fun way => location ++ way ∉ places) := by
  apply List.Perm.eq_of_pairwise fun way other _ _ => Location.le_totalOrder.antisymm way other
  · exact (first.pairwise_below location).filter _
  · exact (second.pairwise_below location).filter _
  · rw [List.perm_ext_iff_of_nodup ((nodup_below agree.formed.1).filter _) ((nodup_below agree.formed.2).filter _)]
    intro way
    rw [List.mem_filter, List.mem_filter, mem_below_iff, mem_below_iff, decide_eq_true_eq]
    refine and_congr_left fun apart => ?_
    rw [agree.elsewhere _ apart]

theorem AgreeBut.filter_names (agree : AgreeBut places first second) (location : Location) :
    (first.names location).filter (fun name => location ++ [name] ∉ places) =
      (second.names location).filter (fun name => location ++ [name] ∉ places) := by
  rw [names, names]
  refine filter_filterMap_congr ?_ (agree.filter_below location)
  intro way name found
  split at found
  · rw [Option.some.inj found]
  · contradiction

end Below

section Paths

theorem eq_of_follow_of_notDirectory (file : tree.isDirectory place = false)
    (followed : tree.follow place parts = .ok location) : location = place := by
  cases parts with
  | nil => exact (Except.ok.inj followed).symm
  | cons part rest =>
      rw [follow] at followed
      split at followed
      · next taken =>
          rw [isDirectory_of_step taken] at file
          contradiction
      · contradiction

variable (agree : AgreeBut places first second)

include agree

theorem AgreeBut.step_eq_ok (taken : first.step place part = .ok next) (apart : next ∉ places) :
    second.step place part = .ok next := by
  rw [step_eq_ok_iff] at taken ⊢
  rw [← agree.isDirectory_eq]
  obtain ⟨inside, stays | up | ⟨named, present, rfl⟩⟩ := taken
  · exact ⟨inside, Or.inl stays⟩
  · exact ⟨inside, Or.inr (Or.inl up)⟩
  · rw [agree.elsewhere _ apart] at present
    exact ⟨inside, Or.inr (Or.inr ⟨named, present, rfl⟩)⟩

/-- A path that leads elsewhere does not come by one of the places, since none of them is a directory. -/
theorem AgreeBut.follow_eq_ok (followed : first.follow place parts = .ok location)
    (apart : location ∉ places) : second.follow place parts = .ok location := by
  induction parts generalizing place with
  | nil => exact followed
  | cons part rest ih =>
      rw [follow] at followed ⊢
      split at followed
      · next next taken =>
          have onward : next ∉ places := by
            intro among
            obtain ⟨file, -⟩ := agree.notDirectory next among
            exact apart (eq_of_follow_of_notDirectory file followed ▸ among)
          rw [agree.step_eq_ok taken onward]
          exact ih followed
      · contradiction

theorem AgreeBut.resolve_eq_ok (resolved : first.resolve path = .ok location)
    (apart : location ∉ places) : second.resolve path = .ok location := by
  rw [resolve_eq_ok_iff] at resolved ⊢
  rw [start_eq_of_home_eq agree.home.symm]
  exact ⟨resolved.1, agree.follow_eq_ok resolved.2 apart⟩

theorem AgreeBut.read?_eq_some (found : first.read? path = some content)
    (apart : ∀ location ∈ places, first.resolve path ≠ .ok location) :
    second.read? path = some content := by
  obtain ⟨location, resolved, held⟩ := read?_eq_some_iff_resolve.mp found
  have onward : location ∉ places := fun among => apart location among resolved
  rw [content?, agree.elsewhere location onward] at held
  exact read?_eq_some_iff_resolve.mpr ⟨location, agree.resolve_eq_ok resolved onward, held⟩

end Paths

section Written

theorem Replaces.agreeBut (replaced : first.Replaces second location content)
    (formed : first.WellFormed ∧ second.WellFormed) : AgreeBut [location] first second where
  formed := formed
  home := replaced.home.symm
  notDirectory other among := by
    rw [List.mem_singleton.mp among, replaced.keeps.isDirectory]
    exact ⟨replaced.notDirectory, replaced.notDirectory⟩
  elsewhere other apart := (replaced.elsewhere other (by simpa using apart)).symm

theorem Named.insert_of_destination {node : Node} (named : tree.Named)
    (found : tree.destination path = .ok location) : (tree.insert location node).Named := by
  obtain ⟨parents, place, last, receives, rfl⟩ := exists_receives found
  intro entry member name among
  rcases mem_entries_insert member with old | rfl
  · exact named entry old name among
  rcases List.mem_append.mp among with earlier | own
  · have present : (tree.get? ([] ++ place)).isSome := get?_isSome_of_isDirectory receives.inside
    exact named.isName present earlier
  · obtain ⟨nonempty, notHere, notAbove⟩ := receives.named
    rw [List.mem_singleton.mp own]
    have member : last ∈ Path.parts path := by simp [receives.parts]
    exact ⟨nonempty, notHere, notAbove, Text.separator_notMem_of_mem_splitOn member⟩

end Written

end FileTree

end ApiDoc
