import ApiDoc.Proofs.FileTree.Agreement
import ApiDoc.Proofs.Glob.Traversal

/-!
What a pattern finds in file trees that agree.

Where two file trees agree but for some places, a pattern finds the same in both but for these places, and in the
same order. No search goes on behind one of the places, since none of them is a directory.
-/

namespace ApiDoc

namespace Glob

open FileTree (AgreeBut)

variable {tree first second : FileTree} {places : List Location} {place : Place} {pieces : List Piece}
  {parts : List Part} {name : Text}

def elsewhere (places : List Location) (found : List Place) : List Place :=
  found.filter fun place => place.location ∉ places

theorem filter_flatMap_congr {α β : Type} {keep : α → Bool} {kept : β → Bool} {items others : List α}
    {one other : α → List β} (same : items.filter keep = others.filter keep)
    (hidden : ∀ item, keep item = false → (one item).filter kept = [])
    (agree : ∀ item, (one item).filter kept = (other item).filter kept) :
    (items.flatMap one).filter kept = (others.flatMap other).filter kept := by
  have visible (items : List α) : (items.flatMap one).filter kept =
      (items.filter keep).flatMap fun item => (one item).filter kept := by
    induction items with
    | nil => rfl
    | cons item items ih =>
        rw [List.flatMap_cons, List.filter_append, ih, List.filter_cons]
        split
        · rw [List.flatMap_cons]
        · next dropped => rw [hidden item (eq_false_of_ne_true dropped), List.nil_append]
  have alike : others.flatMap (fun item => (one item).filter kept) =
      others.flatMap fun item => (other item).filter kept := List.flatMap_congr fun item _ => agree item
  rw [visible, same, ← visible, List.filter_flatMap, List.filter_flatMap, alike]

section Nothing

variable (file : tree.isDirectory place.location = false)

include file

theorem enter_of_notDirectory : enter tree pieces place = [] := by
  rw [enter]
  split
  · simp [lookUp, FileTree.step, file]
  · simp [matching, file]

theorem elsewhere_of_notDirectory (among : place.location ∈ places) (parts : List Part) :
    elsewhere places (expand tree parts place) = [] ∧
      ∀ name, elsewhere places (visit tree parts name place) = [] := by
  induction parts with
  | nil => simp [expand, visit, elsewhere, among, file]
  | cons part parts ih =>
      cases part with
      | name pieces =>
          constructor
          · rw [expand, enter_of_notDirectory file]
            rfl
          · intro name
            rw [visit]
            split
            · exact ih.1
            · rfl
      | chain =>
          constructor
          · rw [expand, if_neg (by simp [file])]
            rfl
          · intro name
            rw [visit]
            exact ih.2 name

end Nothing

section Same

variable (agree : AgreeBut places first second)

include agree

theorem Goes.of_agree {component : Component} {next : Place} (goes : Goes first place component next)
    (apart : next.location ∉ places) : Goes second place component next :=
  ⟨agree.step_eq_ok goes.taken apart, goes.joined⟩

theorem elsewhere_lookUp (name : Text) (place : Place) :
    elsewhere places (lookUp first name place).toList = elsewhere places (lookUp second name place).toList := by
  have filtered (found : Option Place) : elsewhere places found.toList =
      (found.filter fun place => place.location ∉ places).toList := by
    cases found with
    | none => rfl
    | some next => by_cases among : next.location ∈ places <;> simp [elsewhere, Option.filter, among]
  rw [filtered, filtered]
  congr 1
  apply Option.ext
  intro next
  simp only [Option.filter_eq_some_iff, decide_eq_true_eq, lookUp_eq_some_iff]
  exact and_congr_left fun apart => ⟨fun goes => goes.of_agree agree apart, fun goes => goes.of_agree agree.symm apart⟩

theorem elsewhere_matching (pieces : List Piece) (place : Place) :
    elsewhere places (matching first pieces place) = elsewhere places (matching second pieces place) := by
  have listed (names : List Text) :
      elsewhere places ((names.filter (matchName pieces)).map place.enter) =
        ((names.filter fun name => place.location ++ [name] ∉ places).filter (matchName pieces)).map
          place.enter := by
    rw [elsewhere, List.filter_map, List.filter_comm]
    rfl
  rw [matching, matching, agree.isDirectory_eq]
  split
  · dsimp only
    rw [elsewhere, elsewhere, List.filter_append, List.filter_append _ (List.map _ _), ← elsewhere,
      ← elsewhere, ← elsewhere, listed, listed, agree.filter_names]
  · rfl

theorem elsewhere_enter (pieces : List Piece) (place : Place) :
    elsewhere places (enter first pieces place) = elsewhere places (enter second pieces place) := by
  rw [enter, enter]
  split
  · exact elsewhere_lookUp agree _ place
  · exact elsewhere_matching agree pieces place

theorem elsewhere_expand (parts : List Part) :
    (∀ place, elsewhere places (expand first parts place) = elsewhere places (expand second parts place)) ∧
      ∀ name place,
        elsewhere places (visit first parts name place) = elsewhere places (visit second parts name place) := by
  -- One tree can lead to a place that the other does not have, and both searches go on behind it. Such a
  -- place is no directory, so whatever parts are left, nothing but itself is found there.
  induction parts with
  | nil =>
      constructor
      · intro place
        rw [expand, expand]
      · intro name place
        rw [visit, visit, agree.isDirectory_eq]
  | cons part parts ih =>
      obtain ⟨onExpand, onVisit⟩ := ih
      have blocked (place : Place) (among : place.location ∈ places) :=
        elsewhere_of_notDirectory (agree.notDirectory _ among).1 among parts
      cases part with
      | name pieces =>
          constructor
          · intro place
            rw [expand, expand]
            refine filter_flatMap_congr (elsewhere_enter agree pieces place) ?_ onExpand
            intro next hidden
            exact (blocked next (by simpa using hidden)).1
          · intro name place
            rw [visit, visit]
            split
            · exact onExpand place
            · rfl
      | chain =>
          constructor
          · intro place
            rw [expand, expand, agree.isDirectory_eq]
            split
            · have below : (descendants first place).filter (fun item => item.2.location ∉ places) =
                  (descendants second place).filter (fun item => item.2.location ∉ places) := by
                have apart : (fun item : Text × Place => decide (item.2.location ∉ places)) ∘
                    (fun way => (way.getLastD [], place.descend way)) =
                      fun way => decide (place.location ++ way ∉ places) := by
                  funext way
                  rw [Function.comp_apply, Place.location_descend]
                rw [descendants, descendants, List.filter_map, List.filter_map, apart]
                exact congrArg _ (agree.filter_below place.location)
              refine filter_flatMap_congr below ?_ ?_
              · rintro ⟨name, next⟩ hidden
                exact (blocked next (by simpa using hidden)).2 name
              · rintro ⟨name, next⟩
                exact onVisit name next
            · rfl
          · intro name place
            rw [visit, visit]
            exact onVisit name place

theorem elsewhere_matchesIn (glob : Glob) :
    elsewhere places (glob.matchesIn first) = elsewhere places (glob.matchesIn second) := by
  have begun : start first glob = start second glob := by rw [start, start, agree.home]
  have same := (elsewhere_expand agree glob.parts).1 (start first glob)
  rw [matchesIn, matchesIn]
  simp only [agree.isDirectory_eq]
  rw [elsewhere, List.filter_comm, ← elsewhere, same, begun]
  exact List.filter_comm _ _ _

end Same

end Glob

end ApiDoc
