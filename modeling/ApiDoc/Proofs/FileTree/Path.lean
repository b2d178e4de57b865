import ApiDoc.FileTree.Path
import ApiDoc.Proofs.FileTree

/-!
Where paths lead, before and after a file tree changes.
-/

namespace ApiDoc

namespace FileTree

variable {tree before after : FileTree} {directory place next location : Location}
  {name part path : Text} {parts : List Text} {node : Node} {content : Bytes}

theorem step_eq_ok_iff : tree.step place part = .ok next ↔ tree.isDirectory place ∧
    ((part = [] ∨ part = here) ∧ next = place ∨ part = above ∧ next = place.dropLast ∨
      (part ≠ [] ∧ part ≠ here ∧ part ≠ above) ∧ (tree.get? (place ++ [part])).isSome ∧
        next = place ++ [part]) := by
  rw [step]
  cases inside : tree.isDirectory place with
  | false => simp
  | true =>
      rw [if_neg (by simp), and_iff_right rfl]
      by_cases stays : part = [] ∨ part = here
      · have notAbove : part ≠ above := by
          rintro rfl
          exact absurd stays (by decide)
        rw [if_pos stays, Except.ok.injEq]
        grind
      rw [if_neg stays]
      by_cases up : part = above
      · rw [if_pos up, Except.ok.injEq]
        grind
      rw [if_neg up]
      by_cases present : (tree.get? (place ++ [part])).isSome
      · rw [if_pos present, Except.ok.injEq]
        grind
      · rw [if_neg present]
        split <;> grind

theorem isDirectory_of_step (taken : tree.step place part = .ok next) : tree.isDirectory place :=
  (step_eq_ok_iff.mp taken).1

theorem isDirectory_of_follow (followed : tree.follow place parts = .ok location) (nonempty : parts ≠ []) :
    tree.isDirectory place := by
  obtain ⟨part, rest, rfl⟩ := List.exists_cons_of_ne_nil nonempty
  rw [follow] at followed
  split at followed
  · next taken => exact isDirectory_of_step taken
  · contradiction

theorem resolve_eq_ok_iff : tree.resolve path = .ok location ↔
    (path ≠ [] ∧ Path.fits path) ∧ tree.follow (tree.start path) (Path.parts path) = .ok location := by
  rw [resolve]
  by_cases empty : path = []
  · simp [empty]
  by_cases short : Path.fits path
  · rw [if_neg empty, if_neg (by simp [short])]
    simp [empty, short]
  · rw [if_neg empty, if_pos (by simp [short])]
    simp [short]

theorem read?_eq_some_iff_resolve : tree.read? path = some content ↔
    ∃ location, tree.resolve path = .ok location ∧ tree.content? location = some content := by
  rw [read?]
  cases tree.resolve path <;> simp

theorem start_eq_of_home_eq (same : before.home = after.home) (path : Text) :
    before.start path = after.start path := by
  rw [start, start, same]

theorem Keeps.step_eq_ok (kept : before.Keeps after)
    (taken : before.step place part = .ok next) : after.step place part = .ok next := by
  rw [step_eq_ok_iff] at taken ⊢
  obtain ⟨inside, stays | up | ⟨named, present, down⟩⟩ := taken
  · exact ⟨(kept.isDirectory place).trans inside, Or.inl stays⟩
  · exact ⟨(kept.isDirectory place).trans inside, Or.inr (Or.inl up)⟩
  · exact ⟨(kept.isDirectory place).trans inside,
      Or.inr (Or.inr ⟨named, kept.get?_isSome present, down⟩)⟩

theorem Keeps.follow_eq_ok (kept : before.Keeps after)
    (followed : before.follow place parts = .ok location) :
    after.follow place parts = .ok location := by
  induction parts generalizing place with
  | nil => exact followed
  | cons part rest ih =>
      rw [follow] at followed ⊢
      cases taken : before.step place part with
      | error error => simp [taken] at followed
      | ok next =>
          rw [taken] at followed
          rw [kept.step_eq_ok taken]
          exact ih followed

theorem Keeps.resolve_eq_ok (kept : before.Keeps after)
    (resolved : before.resolve path = .ok location) : after.resolve path = .ok location := by
  rw [resolve_eq_ok_iff] at resolved ⊢
  rw [start_eq_of_home_eq kept.home]
  exact ⟨resolved.1, kept.follow_eq_ok resolved.2⟩

theorem Keeps.exists_read?_eq_some (kept : before.Keeps after) (found : before.read? path = some content) :
    ∃ left, after.read? path = some left := by
  obtain ⟨location, resolved, held⟩ := read?_eq_some_iff_resolve.mp found
  obtain ⟨left, stands⟩ := Option.isSome_iff_exists.mp (kept.isFile location (by simp [held]))
  exact ⟨left, read?_eq_some_iff_resolve.mpr ⟨location, kept.resolve_eq_ok resolved, stands⟩⟩

theorem Keeps.read?_eq_none (kept : before.Keeps after) (missing : after.read? path = none) :
    before.read? path = none := by
  cases found : before.read? path with
  | none => rfl
  | some content =>
      obtain ⟨left, held⟩ := kept.exists_read?_eq_some found
      rw [held] at missing
      contradiction

theorem follow_append (place : Location) (first second : List Text) :
    tree.follow place (first ++ second) =
      (tree.follow place first).bind fun next => tree.follow next second := by
  induction first generalizing place with
  | nil => rfl
  | cons part rest ih =>
      rw [List.cons_append, follow, follow]
      cases tree.step place part with
      | error error => rfl
      | ok next => exact ih next

section Destination

theorem dropWhile_reverse_of_getLast?_ne {parts : List Text} (noSlash : parts.getLast? ≠ some []) :
    parts.reverse.dropWhile (· = []) = parts.reverse := by
  cases backwards : parts.reverse with
  | nil => rfl
  | cons last parents =>
      rw [← List.head?_reverse, backwards, List.head?_cons, ne_eq, Option.some.injEq] at noSlash
      exact List.dropWhile_cons_of_neg (by simp [noSlash])

/-- Where a file can be put: the path follows its other parts into a directory, and its last part is a name there
that no directory has. -/
structure Receives (tree : FileTree) (path : Text) (parents : List Text) (place : Location) (last : Text) : Prop where
  usable : path ≠ [] ∧ Path.fits path
  parts : Path.parts path = parents ++ [last]
  followed : tree.follow (tree.start path) parents = .ok place
  inside : tree.isDirectory place
  named : last ≠ [] ∧ last ≠ here ∧ last ≠ above
  short : Path.fitsName last
  notDirectory : tree.isDirectory (place ++ [last]) = false

theorem Receives.destination_eq {last : Text} {parents : List Text}
    (receives : tree.Receives path parents place last) : tree.destination path = .ok (place ++ [last]) := by
  obtain ⟨nonempty, fits⟩ := receives.usable
  obtain ⟨named, notHere, notAbove⟩ := receives.named
  have noSlash : (Path.parts path).getLast? ≠ some [] := by simp [receives.parts, named]
  have backwards : (Path.parts path).reverse.dropWhile (· = []) = last :: parents.reverse := by
    rw [dropWhile_reverse_of_getLast?_ne noSlash, receives.parts, List.reverse_concat]
  rw [destination, backwards]
  dsimp only
  rw [List.reverse_reverse, receives.followed]
  simp [nonempty, fits, receives.inside, notHere, notAbove, receives.short, noSlash, receives.notDirectory]

theorem exists_receives (found : tree.destination path = .ok location) :
    ∃ parents place last, tree.Receives path parents place last ∧ location = place ++ [last] := by
  rw [destination] at found
  split at found
  · contradiction
  next nonempty =>
  split at found
  · contradiction
  next fits =>
  split at found
  · contradiction
  next last parents backwards =>
  split at found
  · contradiction
  next place followed =>
  split at found
  · contradiction
  next inside =>
  split at found
  · contradiction
  next ordinary =>
  split at found
  · contradiction
  next short =>
  split at found
  · contradiction
  next noSlash =>
  split at found
  · contradiction
  next notDirectory =>
    rw [dropWhile_reverse_of_getLast?_ne noSlash] at backwards
    have named : last ≠ [] := by
      intro empty
      apply noSlash
      rw [← List.head?_reverse, backwards, List.head?_cons, empty]
    obtain ⟨notHere, notAbove⟩ := not_or.mp ordinary
    refine ⟨parents.reverse, place, last, ?_, (Except.ok.inj found).symm⟩
    constructor
    case usable => exact ⟨nonempty, by simpa using fits⟩
    case parts => rw [← List.reverse_cons, ← backwards, List.reverse_reverse]
    case followed => exact followed
    case inside => simpa using inside
    case named => exact ⟨named, notHere, notAbove⟩
    case short => simpa using short
    case notDirectory => exact eq_false_of_ne_true notDirectory

section Directories

variable (home : after.home = before.home)
  (same : ∀ location, after.isDirectory location = before.isDirectory location)

include same

theorem follow_eq_ok_of_isDirectory (followed : before.follow place parts = .ok location)
    (inside : before.isDirectory location) : after.follow place parts = .ok location := by
  induction parts generalizing place with
  | nil => exact followed
  | cons part rest ih =>
      rw [follow] at followed ⊢
      split at followed
      · next next taken =>
          have onward : before.isDirectory next := by
            by_cases last : rest = []
            · rw [last] at followed
              exact Except.ok.inj followed ▸ inside
            · exact isDirectory_of_follow followed last
          have taken_after : after.step place part = .ok next := by
            rw [step_eq_ok_iff] at taken ⊢
            obtain ⟨directory, stays | up | ⟨named, -, down⟩⟩ := taken
            · exact ⟨(same place).trans directory, Or.inl stays⟩
            · exact ⟨(same place).trans directory, Or.inr (Or.inl up)⟩
            · have stands := get?_of_isDirectory ((same next).trans onward)
              rw [down] at stands
              exact ⟨(same place).trans directory, Or.inr (Or.inr ⟨named, by rw [stands]; rfl, down⟩)⟩
          rw [taken_after]
          exact ih followed
      · contradiction

include home

theorem destination_eq_ok_of_isDirectory (found : before.destination path = .ok location) :
    after.destination path = .ok location := by
  obtain ⟨parents, place, last, receives, rfl⟩ := exists_receives found
  apply Receives.destination_eq
  constructor
  case usable => exact receives.usable
  case parts => exact receives.parts
  case followed =>
    rw [start_eq_of_home_eq home]
    exact follow_eq_ok_of_isDirectory same receives.followed receives.inside
  case inside => rw [same, receives.inside]
  case named => exact receives.named
  case short => exact receives.short
  case notDirectory => rw [same, receives.notDirectory]

end Directories

theorem Keeps.destination_eq_ok (kept : before.Keeps after)
    (found : before.destination path = .ok location) : after.destination path = .ok location :=
  destination_eq_ok_of_isDirectory kept.home kept.isDirectory found

theorem resolve_of_destination (found : tree.destination path = .ok location)
    (replaced : tree.Replaces after location content) : after.resolve path = .ok location := by
  obtain ⟨parents, place, last, receives, same⟩ := exists_receives found
  obtain ⟨named, notHere, notAbove⟩ := receives.named
  have kept := replaced.keeps
  have present : (after.get? (place ++ [last])).isSome := by
    rw [← same, replaced.written, Option.isSome_some]
  rw [resolve_eq_ok_iff, start_eq_of_home_eq kept.home, receives.parts, follow_append,
    kept.follow_eq_ok receives.followed]
  refine ⟨receives.usable, ?_⟩
  simp [Except.bind, follow, step, kept.isDirectory, receives.inside, named, notHere, notAbove, present, same]

end Destination

end FileTree

end ApiDoc
