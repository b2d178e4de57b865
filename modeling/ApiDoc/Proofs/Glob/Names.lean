import ApiDoc.Glob.Meaning

/-!
Matching a name.

The texts that can be left of a name behind some pieces are kept from the longest to the shortest, each an end
of those before it. A run of any characters therefore leaves exactly the ends of the first.
-/

namespace ApiDoc

namespace Glob

def Nested (left : List Text) : Prop :=
  left.Pairwise fun longer shorter => shorter <:+ longer

theorem mem_ends_iff {rest text : Text} : rest ∈ ends text ↔ rest <:+ text := by
  induction text with
  | nil => rw [ends, List.mem_singleton, List.suffix_nil]
  | cons char text ih => rw [ends, List.mem_cons, ih, List.suffix_cons_iff]

theorem nested_ends (text : Text) : Nested (ends text) := by
  induction text with
  | nil => exact List.pairwise_singleton _ _
  | cons char text ih =>
      exact .cons (fun rest member =>
        (mem_ends_iff.mp member).trans (List.suffix_cons char text)) ih

inductive Piece.Leaves : Piece → Text → Text → Prop
  | char {piece : Piece} {char : Char} {rest : Text} : piece.takes char → Leaves piece (char :: rest) rest
  | run (run rest : Text) : Leaves .anyRun (run ++ rest) rest

theorem Piece.after?_eq_some_iff {piece : Piece} {text rest : Text} :
    piece.after? text = some rest ↔ ∃ char, text = char :: rest ∧ piece.takes char := by
  cases text with
  | nil => simp [after?]
  | cons char text =>
      rw [after?]
      constructor
      · intro found
        split at found
        · next taken => exact ⟨char, by rw [Option.some.inj found], taken⟩
        · contradiction
      · rintro ⟨other, same, taken⟩
        obtain ⟨rfl, rfl⟩ := List.cons.inj same
        rw [if_pos taken]

theorem Piece.leave_of_ne {piece : Piece} (single : piece ≠ .anyRun) (left : List Text) :
    piece.leave left = left.filterMap piece.after? := by
  cases piece with
  | anyRun => contradiction
  | char | anyChar | anyChain | within | except => cases left <;> rfl

theorem Piece.mem_leave_iff {piece : Piece} {left : List Text} (nested : Nested left) {rest : Text} :
    rest ∈ piece.leave left ↔ ∃ text ∈ left, piece.Leaves text rest := by
  by_cases single : piece = .anyRun
  · subst single
    cases left with
    | nil => simp [leave]
    | cons longest shorter =>
        rw [leave, mem_ends_iff]
        constructor
        · rintro ⟨run, rfl⟩
          exact ⟨run ++ rest, List.mem_cons_self, .run run rest⟩
        · rintro ⟨text, member, leaves⟩
          have inside : rest <:+ text := by
            cases leaves with
            | char taken => simp [takes] at taken
            | run run => exact List.suffix_append run rest
          rcases List.mem_cons.mp member with rfl | later
          · exact inside
          · exact inside.trans (List.rel_of_pairwise_cons nested later)
  · rw [leave_of_ne single, List.mem_filterMap]
    refine exists_congr fun text => and_congr_right fun _ => ?_
    rw [after?_eq_some_iff]
    constructor
    · rintro ⟨char, rfl, taken⟩
      exact .char taken
    · intro leaves
      cases leaves with
      | char taken => exact ⟨_, rfl, taken⟩
      | run => contradiction

theorem Nested.leave {left : List Text} (nested : Nested left) (piece : Piece) :
    Nested (piece.leave left) := by
  by_cases single : piece = .anyRun
  · subst single
    cases left with
    | nil => exact nested
    | cons longest shorter => exact nested_ends longest
  · rw [Piece.leave_of_ne single]
    refine List.Pairwise.filterMap _ ?_ nested
    intro longer shorter inside rest found other left
    obtain ⟨char, rfl, _⟩ := Piece.after?_eq_some_iff.mp found
    obtain ⟨next, rfl, _⟩ := Piece.after?_eq_some_iff.mp left
    rcases List.suffix_cons_iff.mp inside with same | within
    · exact (List.cons.inj same).2 ▸ List.suffix_rfl
    · exact (List.suffix_cons next other).trans within

theorem spells_cons_iff {piece : Piece} {pieces : List Piece} {text : Text} :
    Spells (piece :: pieces) text ↔ ∃ rest, piece.Leaves text rest ∧ Spells pieces rest := by
  constructor
  · intro spelled
    cases spelled with
    | char taken spelled => exact ⟨_, .char taken, spelled⟩
    | run run spelled => exact ⟨_, .run run _, spelled⟩
  · rintro ⟨rest, leaves, spelled⟩
    cases leaves with
    | char taken => exact .char taken spelled
    | run run => exact .run run spelled

theorem nil_mem_foldl_leave_iff {left : List Text} (nested : Nested left) (pieces : List Piece) :
    [] ∈ pieces.foldl (fun left piece => piece.leave left) left ↔ ∃ text ∈ left, Spells pieces text := by
  induction pieces generalizing left with
  | nil =>
      constructor
      · exact fun member => ⟨[], member, .nil⟩
      · rintro ⟨text, member, spelled⟩
        cases spelled
        exact member
  | cons piece pieces ih =>
      rw [List.foldl_cons, ih (nested.leave piece)]
      constructor
      · rintro ⟨rest, member, spelled⟩
        obtain ⟨text, among, leaves⟩ := (Piece.mem_leave_iff nested).mp member
        exact ⟨text, among, spells_cons_iff.mpr ⟨rest, leaves, spelled⟩⟩
      · rintro ⟨text, among, spelled⟩
        obtain ⟨rest, leaves, spelled⟩ := spells_cons_iff.mp spelled
        exact ⟨rest, (Piece.mem_leave_iff nested).mpr ⟨text, among, leaves⟩, spelled⟩

theorem matchName_iff {pieces : List Piece} {name : Text} : matchName pieces name ↔ Spells pieces name := by
  rw [matchName, List.contains_iff_mem, nil_mem_foldl_leave_iff (List.pairwise_singleton _ _)]
  simp

theorem spells_iff_of_literal? {pieces : List Piece} {name text : Text}
    (literal : literal? pieces = some name) : Spells pieces text ↔ text = name := by
  induction pieces generalizing name text with
  | nil =>
      obtain rfl := Option.some.inj literal
      exact ⟨fun spelled => by cases spelled; rfl, fun same => same ▸ .nil⟩
  | cons piece pieces ih =>
      cases piece with
      | char own =>
          obtain ⟨rest, found, rfl⟩ := Option.map_eq_some_iff.mp literal
          constructor
          · intro spelled
            cases spelled with
            | char taken spelled =>
                rw [(ih found).mp spelled, of_decide_eq_true taken]
          · rintro rfl
            exact .char (decide_eq_true rfl) ((ih found).mpr rfl)
      | anyChar | anyRun | anyChain | within | except => contradiction

theorem head?_of_literal? {pieces : List Piece} {char : Char} {rest : Text}
    (literal : literal? pieces = some (char :: rest)) : pieces.head? = some (.char char) := by
  cases pieces with
  | nil => simp [literal?] at literal
  | cons piece pieces =>
      cases piece with
      | char own =>
          obtain ⟨text, -, same⟩ := Option.map_eq_some_iff.mp literal
          rw [(List.cons.inj same).1]
          rfl
      | anyChar | anyRun | anyChain | within | except => contradiction

theorem eq_nil_of_literal? {pieces : List Piece} (literal : literal? pieces = some []) : pieces = [] := by
  cases pieces with
  | nil => rfl
  | cons piece pieces =>
      cases piece with
      | char own =>
          obtain ⟨text, -, same⟩ := Option.map_eq_some_iff.mp literal
          contradiction
      | anyChar | anyRun | anyChain | within | except => contradiction

end Glob

end ApiDoc
