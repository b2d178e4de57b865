import ApiDoc.Proofs.Glob.Names
import ApiDoc.Proofs.Glob.Ways
import Mathlib.Data.List.Basic

/-!
How parts share the components of a path.

A `**` takes any directories before its next part, so that one path can be shared out among the parts of a pattern
in several ways. Where all `**` stand side by side, the parts around them take one component each, which leaves
no choice.
-/

namespace ApiDoc

namespace Glob

/-- Whether parts match components when these are shared out among them, one share for each part. Of several `**`
in a row, only the last takes directories. -/
inductive Shares : List Part → List (List Component) → Prop
  | nil : Shares [] []
  | name {pieces : List Piece} {parts : List Part} {text : Text} {shares : List (List Component)} :
      Fits pieces text → Shares parts shares → Shares (.name pieces :: parts) ([.ofPieces pieces text] :: shares)
  | empty {parts : List Part} {shares : List (List Component)} :
      shares.flatten ≠ [] → Shares parts shares → Shares (.name [] :: parts) ([.ofPieces [] []] :: shares)
  | chain {pieces : List Piece} {parts : List Part} {directories : List Text} {component : Component}
      {shares : List (List Component)} :
      (∀ directory ∈ directories, Path.IsName directory) → Path.IsName component.text →
      Shares (.name pieces :: parts) ([component] :: shares) →
      Shares (.chain :: .name pieces :: parts) (directories.map .found :: [component] :: shares)
  | row {parts : List Part} {shares : List (List Component)} :
      Shares (.chain :: parts) shares → Shares (.chain :: .chain :: parts) ([] :: shares)

/-- Whether parts leave no choice how they share a path. All `**` stand side by side, and the component `.`, which
need not show in a path, is matched by no part but `.` itself. -/
structure Steady (parts : List Part) : Prop where
  sideBySide (pieces : List Piece) : ¬ [.chain, .name pieces, .chain].Sublist parts
  literal_here (pieces : List Piece) : .name pieces ∈ parts → Fits pieces here → literal? pieces = some here

def moves (parts : List Text) : List Text :=
  parts.filter fun part => part ≠ [] ∧ part ≠ here

variable {tree : FileTree} {place last : Place} {parts : List Part} {part : Part} {pieces : List Piece}
  {text other : Text} {component : Component} {components : List Component} {texts directories : List Text}
  {shares others : List (List Component)}

section Meaning

theorem Matches.getLast?_ne (matching : Matches parts components) :
    (components.map Component.text).getLast? ≠ some [] := by
  induction matching with
  | nil => simp
  | @name _ _ text rest fits _ ih =>
      cases rest with
      | nil => simpa [Component.ofPieces] using fits.ne_nil
      | cons => simpa [List.getLast?_cons_cons] using ih
  | @empty _ rest more _ ih =>
      cases rest with
      | nil => contradiction
      | cons => simpa [List.getLast?_cons_cons] using ih
  | chain _ _ _ ih =>
      rw [List.map_append, List.getLast?_append_of_ne_nil _ (by simp)]
      exact ih

theorem Shares.matches (shared : Shares parts shares) : Matches parts shares.flatten := by
  induction shared with
  | nil => exact .nil
  | name fits _ ih => exact .name fits ih
  | empty more _ ih => exact .empty more ih
  | chain directories isName _ ih => exact .chain directories isName ih
  | @row parts shares _ ih =>
      rw [List.flatten_cons, List.nil_append]
      generalize shares.flatten = components at ih ⊢
      cases ih with
      | chain directories isName matching =>
          exact .chain directories isName (.chain (List.forall_mem_nil _) isName matching)

theorem Shares.exists_prepend (shared : Shares (.chain :: parts) shares)
    (isName : ∀ directory ∈ directories, Path.IsName directory) :
    ∃ others, Shares (.chain :: parts) others ∧ others.flatten = directories.map .found ++ shares.flatten := by
  induction parts generalizing shares with
  | nil => cases shared
  | cons part parts ih =>
      cases shared with
      | chain more isNameNext inner =>
          refine ⟨_, .chain (List.forall_mem_append.mpr ⟨isName, more⟩) isNameNext inner, ?_⟩
          simp
      | row inner =>
          obtain ⟨others, shared, same⟩ := ih inner
          exact ⟨[] :: others, .row shared, by simpa using same⟩

theorem matches_iff_exists_shares :
    Matches parts components ↔ ∃ shares, Shares parts shares ∧ shares.flatten = components := by
  constructor
  · intro matching
    induction matching with
    | nil => exact ⟨[], .nil, rfl⟩
    | name fits _ ih =>
        obtain ⟨shares, shared, rfl⟩ := ih
        exact ⟨_, .name fits shared, rfl⟩
    | empty more _ ih =>
        obtain ⟨shares, shared, rfl⟩ := ih
        exact ⟨_, .empty more shared, rfl⟩
    | chain directories isName _ ih =>
        obtain ⟨shares, shared, same⟩ := ih
        cases shared with
        | nil => contradiction
        | name fits shared =>
            obtain ⟨rfl, rfl⟩ := List.cons.inj same
            exact ⟨_, .chain directories isName (.name fits shared), rfl⟩
        | empty => exact absurd (congrArg Component.text (List.cons.inj same).1).symm isName.1
        | chain more isNameNext inner =>
            obtain ⟨others, shared, whole⟩ := (Shares.chain more isNameNext inner).exists_prepend directories
            exact ⟨[] :: others, .row shared, by rw [← same, ← whole]; rfl⟩
        | row inner =>
            obtain ⟨others, shared, whole⟩ := (Shares.row inner).exists_prepend directories
            exact ⟨[] :: others, .row shared, by rw [← same, ← whole]; rfl⟩
  · rintro ⟨shares, shared, rfl⟩
    exact shared.matches

end Meaning

section Moves

theorem moves_append (first second : List Text) : moves (first ++ second) = moves first ++ moves second :=
  List.filter_append first second

theorem moves_flatten_cons (share : List Component) (shares : List (List Component)) :
    moves ((share :: shares).flatten.map Component.text) =
      moves (share.map Component.text) ++ moves (shares.flatten.map Component.text) := by
  rw [List.flatten_cons, List.map_append, moves_append]

theorem moves_of_isName (isName : ∀ text ∈ texts, Path.IsName text) : moves texts = texts := by
  rw [moves, List.filter_eq_self]
  intro text member
  simp [(isName text member).1, (isName text member).2.1]

theorem moves_eq_nil_of_atHome (home : atHome texts) : moves texts = [] := by
  rw [moves, List.filter_eq_nil_iff]
  intro part member
  simp [of_decide_eq_true (List.all_eq_true.mp home part member)]

theorem moves_of_foldlM_join? {shown : List Text} (joined : components.foldlM join? shown = some texts) :
    moves texts = moves shown ++ moves (components.map Component.text) := by
  induction components generalizing shown with
  | nil => simp [← Option.some.inj joined, moves]
  | cons component components ih =>
      obtain ⟨next, first, later⟩ := Option.bind_eq_some_iff.mp joined
      have own : moves next = moves shown ++ moves [component.text] := by
        rcases join?_cases first with ⟨empty, -, rfl⟩ | ⟨-, ⟨home, rfl⟩ | rfl⟩
        · simp [moves, empty]
        · rw [moves_eq_nil_of_atHome home, List.nil_append]
        · exact moves_append _ _
      rw [ih later, own, List.append_assoc, ← moves_append]
      rfl

theorem Leads.location_eq (leads : Leads tree place components last) (level : above ∉ components.map Component.text) :
    last.location = place.location ++ moves (components.map Component.text) := by
  induction leads with
  | nil => simp [moves]
  | cons goes _ ih =>
      obtain ⟨own, rest⟩ := List.ne_and_not_mem_of_not_mem_cons level
      rw [ih rest]
      obtain ⟨-, ⟨stays, same⟩ | ⟨up, -⟩ | ⟨⟨named, notHere, -⟩, -, down⟩⟩ :=
        FileTree.step_eq_ok_iff.mp goes.taken
      · rcases stays with empty | stays
        · simp [same, moves, empty]
        · simp [same, moves, stays]
      · exact absurd up.symm own
      · simp [down, moves, named, notHere]

theorem Shares.above_notMem (shared : Shares parts shares)
    (level : ∀ pieces, .name pieces ∈ parts → ¬ Fits pieces above) :
    above ∉ shares.flatten.map Component.text := by
  induction shared with
  | nil => exact List.not_mem_nil
  | @name pieces parts text shares fits _ ih =>
      have notAbove : above ≠ text := fun same => level pieces List.mem_cons_self (same ▸ fits)
      exact List.not_mem_cons_of_ne_of_not_mem notAbove
        (ih fun pieces member => level pieces (List.mem_cons_of_mem _ member))
  | empty _ _ ih =>
      exact List.not_mem_cons_of_ne_of_not_mem (by decide)
        (ih fun pieces member => level pieces (List.mem_cons_of_mem _ member))
  | chain isName _ _ ih =>
      intro member
      rw [List.flatten_cons, List.map_append, Component.map_text_found] at member
      rcases List.mem_append.mp member with taken | behind
      · exact (isName above taken).2.2.1 rfl
      · exact ih (fun pieces member => level pieces (List.mem_cons_of_mem _ member)) behind
  | row _ ih => exact ih fun pieces member => level pieces (List.mem_cons_of_mem _ member)

end Moves

section Unique

theorem not_fits_nil : ¬ Fits [] text := fun fits => by
  obtain ⟨spelled, nonempty, -⟩ := fits
  cases spelled
  contradiction

theorem Steady.tail (steady : Steady (part :: parts)) : Steady parts where
  sideBySide pieces inside := steady.sideBySide pieces (inside.cons part)
  literal_here pieces member := steady.literal_here pieces (List.mem_cons_of_mem part member)

theorem Steady.chain_notMem (steady : Steady (.chain :: .name pieces :: parts)) : .chain ∉ parts := fun member =>
  steady.sideBySide pieces ((List.singleton_sublist.mpr member).cons_cons _ |>.cons_cons _)

theorem Steady.fits_cases (steady : Steady (.name pieces :: parts)) (first : Fits pieces text)
    (second : Fits pieces other) :
    text = other ∧ moves [text] = [] ∨ moves [text] = [text] ∧ moves [other] = [other] := by
  have literal : Fits pieces here → literal? pieces = some here :=
    steady.literal_here pieces List.mem_cons_self
  by_cases stays : Fits pieces here
  · have only {text : Text} (fits : Fits pieces text) : text = here :=
      (spells_iff_of_literal? (literal stays)).mp fits.spells
    rw [only first, only second]
    exact Or.inl ⟨rfl, rfl⟩
  · have leads {text : Text} (fits : Fits pieces text) : moves [text] = [text] := by
      have notHere : text ≠ here := fun same => stays (same ▸ fits)
      simp [moves, fits.ne_nil, notHere]
    exact Or.inr ⟨leads first, leads second⟩

theorem Shares.length_moves (first : Shares parts shares) (second : Shares parts others) (steady : Steady parts)
    (chainless : .chain ∉ parts) :
    (moves (shares.flatten.map Component.text)).length = (moves (others.flatten.map Component.text)).length := by
  induction first generalizing others with
  | nil =>
      cases second
      rfl
  | name fits _ ih =>
      cases second with
      | name others_fits second =>
          have later := ih second steady.tail (List.not_mem_of_not_mem_cons chainless)
          rw [moves_flatten_cons, moves_flatten_cons, List.length_append, List.length_append, later]
          rcases steady.fits_cases fits others_fits with ⟨rfl, -⟩ | ⟨one, other⟩
          · rfl
          · simp only [List.map_cons, List.map_nil, Component.ofPieces, one, other]
            rfl
      | empty => exact absurd fits not_fits_nil
  | empty _ _ ih =>
      cases second with
      | name fits => exact absurd fits not_fits_nil
      | empty _ second =>
          have later := ih second steady.tail (List.not_mem_of_not_mem_cons chainless)
          exact later
  | chain | row => exact absurd List.mem_cons_self chainless

/-- Steady parts share components in one way at most, and so they do with all components that lead to the same
places. -/
theorem Shares.eq_of_moves (first : Shares parts shares) (second : Shares parts others) (steady : Steady parts)
    (same : moves (shares.flatten.map Component.text) = moves (others.flatten.map Component.text)) :
    shares = others := by
  induction first generalizing others with
  | nil =>
      cases second
      rfl
  | name fits _ ih =>
      cases second with
      | name others_fits second =>
          rw [moves_flatten_cons, moves_flatten_cons] at same
          rcases steady.fits_cases fits others_fits with ⟨rfl, -⟩ | ⟨one, other⟩
          · rw [ih second steady.tail (List.append_cancel_left same)]
          · simp only [List.map_cons, List.map_nil, Component.ofPieces, one, other] at same
            obtain ⟨rfl, later⟩ := List.cons.inj same
            rw [ih second steady.tail later]
      | empty => exact absurd fits not_fits_nil
  | empty _ _ ih =>
      cases second with
      | name fits => exact absurd fits not_fits_nil
      | empty _ second => rw [ih second steady.tail same]
  | @chain pieces parts directories component shares isName _ inner ih =>
      cases second with
      | @chain _ _ others_directories _ _ others_isName _ others_inner =>
          -- What is left behind the directories has a fixed length, so both take the same number of them.
          have chainless : .chain ∉ .name pieces :: parts := by simp [steady.chain_notMem]
          have length := inner.length_moves others_inner steady.tail chainless
          rw [moves_flatten_cons (directories.map .found), moves_flatten_cons (others_directories.map .found),
            Component.map_text_found, Component.map_text_found, moves_of_isName isName,
            moves_of_isName others_isName] at same
          obtain ⟨directories, later⟩ := List.append_inj' same length
          rw [directories, ih others_inner steady.tail later]
  | row _ ih =>
      cases second with
      | row second => rw [ih second steady.tail same]

end Unique

end Glob

end ApiDoc
