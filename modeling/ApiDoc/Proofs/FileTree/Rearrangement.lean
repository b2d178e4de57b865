import ApiDoc.Proofs.FileTree.Agreement
import ApiDoc.Proofs.FileTree.Replacement

/-!
File trees in another order.

The entries of a file tree are held in some order, which decides nothing: with the same entries in another order,
the same stands everywhere, paths lead to the same places or fail alike, and a file can be replaced alike.
-/

namespace ApiDoc

namespace FileTree

structure Rearranges (first second : FileTree) : Prop where
  home : first.home = second.home
  entries : first.entries.Perm second.entries

variable {tree first second : FileTree} {location : Location} {node : Node}

theorem mem_entries_iff (nodup : (tree.entries.map (·.1)).Nodup) (notRoot : location ≠ []) :
    (location, node) ∈ tree.entries ↔ tree.get? location = some node := by
  rw [get?_of_ne_root notRoot, Option.map_eq_some_iff]
  constructor
  · intro member
    have present : (tree.entries.find? fun entry => entry.1 = location).isSome :=
      List.find?_isSome.mpr ⟨_, member, by simp⟩
    obtain ⟨entry, found⟩ := Option.isSome_iff_exists.mp present
    have here : entry.1 = location := by simpa using List.find?_some found
    have same : entry = (location, node) :=
      List.inj_on_of_nodup_map nodup (List.mem_of_find?_eq_some found) member here
    exact ⟨entry, found, by rw [same]⟩
  · rintro ⟨entry, found, rfl⟩
    have here : entry.1 = location := by simpa using List.find?_some found
    rw [← here]
    exact List.mem_of_find?_eq_some found

namespace Rearranges

section Entries

variable (rearranged : first.Rearranges second)

include rearranged

theorem get?_eq (nodup : (first.entries.map (·.1)).Nodup) (location : Location) :
    first.get? location = second.get? location := by
  by_cases root : location = []
  · rw [root, get?, get?, if_pos rfl, if_pos rfl]
  · have nodup_second := (rearranged.entries.map (·.1)).nodup_iff.mp nodup
    apply Option.ext
    intro node
    rw [← mem_entries_iff nodup root, ← mem_entries_iff nodup_second root, rearranged.entries.mem_iff]

theorem wellFormed (formed : first.WellFormed) : second.WellFormed where
  nodup := (rearranged.entries.map (·.1)).nodup_iff.mp formed.nodup
  ne_root entry member := formed.ne_root entry (rearranged.entries.mem_iff.mpr member)
  parent entry member := by
    rw [isDirectory, ← rearranged.get?_eq formed.nodup]
    exact formed.parent entry (rearranged.entries.mem_iff.mpr member)
  home := by
    rw [isDirectory, ← rearranged.get?_eq formed.nodup, ← rearranged.home]
    exact formed.home

theorem agreeBut (formed : first.WellFormed) : AgreeBut [] first second where
  formed := ⟨formed, rearranged.wellFormed formed⟩
  home := rearranged.home
  notDirectory location among := by contradiction
  elsewhere location _ := rearranged.get?_eq formed.nodup location

theorem insert (location : Location) (node : Node) :
    (first.insert location node).Rearranges (second.insert location node) where
  home := by rw [home_insert, home_insert, rearranged.home]
  entries := by
    rw [FileTree.insert, FileTree.insert, rearranged.entries.any_eq]
    split
    · exact rearranged.entries.map _
    · exact rearranged.entries.append_right _

end Entries

end Rearranges

theorem AgreeBut.get?_eq (agree : AgreeBut [] first second) (location : Location) :
    first.get? location = second.get? location :=
  agree.elsewhere location List.not_mem_nil

section Paths

variable (same : ∀ location, first.get? location = second.get? location)

include same

theorem isDirectory_eq_of_get?_eq (location : Location) :
    first.isDirectory location = second.isDirectory location := by
  rw [isDirectory, isDirectory, same]

theorem follow_eq_of_get?_eq (place : Location) (parts : List Text) :
    first.follow place parts = second.follow place parts := by
  induction parts generalizing place with
  | nil => rfl
  | cons part rest ih =>
      have step : first.step place part = second.step place part := by
        rw [FileTree.step, FileTree.step, isDirectory_eq_of_get?_eq same, same]
      rw [follow, follow, step]
      cases second.step place part with
      | error error => rfl
      | ok next => exact ih next

variable (home : first.home = second.home)

include home

theorem resolve_eq_of_get?_eq (path : Text) : first.resolve path = second.resolve path := by
  rw [resolve, resolve, start_eq_of_home_eq home, follow_eq_of_get?_eq same]

theorem read?_eq_of_get?_eq (path : Text) : first.read? path = second.read? path := by
  rw [read?, read?, resolve_eq_of_get?_eq same home]
  simp only [content?, same]

theorem destination_eq_of_get?_eq (path : Text) : first.destination path = second.destination path := by
  unfold destination
  simp only [start_eq_of_home_eq home, follow_eq_of_get?_eq same, isDirectory_eq_of_get?_eq same]

end Paths

section Replacement

variable (rearranged : first.Rearranges second) (formed : first.WellFormed)

include rearranged formed

theorem Rearranges.prepare_eq (drawing : Drawing) (path : Text) :
    first.prepare drawing path = second.prepare drawing path := by
  have agree := rearranged.agreeBut formed
  have names (place : Location) : first.names place = second.names place := by
    have listed := agree.filter_names place
    simpa using listed
  rw [prepare, prepare, resolveDirectory, resolveDirectory, temporaryPath_eq_of_home_eq agree.home,
    resolve_eq_of_get?_eq agree.get?_eq agree.home]
  simp only [isDirectory_eq_of_get?_eq agree.get?_eq, names]

theorem Rearranges.destination_insert_eq (location : Location) (node : Node) (path : Text) :
    (first.insert location node).destination path = (second.insert location node).destination path := by
  apply destination_eq_of_get?_eq
  · exact (rearranged.insert location node).get?_eq (nodup_entries_insert formed.nodup)
  · exact (rearranged.insert location node).home

theorem Rearranges.replace (drawing : Drawing) (path : Text) (content : Bytes) :
    (first.replace drawing path content).1.Rearranges (second.replace drawing path content).1 ∧
      (first.replace drawing path content).2 = (second.replace drawing path content).2 := by
  have same := rearranged.prepare_eq formed drawing path
  cases prepared : second.prepare drawing path with
  | error error =>
      rw [FileTree.replace, FileTree.replace, same, prepared]
      exact ⟨rearranged, by rw [temporaryPath_eq_of_home_eq rearranged.home]⟩
  | ok temporary =>
      rw [replace_of_prepare (same.trans prepared), replace_of_prepare prepared,
        rearranged.destination_insert_eq formed]
      cases (second.insert temporary (.file content)).destination path with
      | error error => exact ⟨rearranged, rfl⟩
      | ok location => exact ⟨rearranged.insert location (.file content), rfl⟩

end Replacement

end FileTree

end ApiDoc
