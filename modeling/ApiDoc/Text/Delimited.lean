import ApiDoc.Text

/-!
Delimited stretches of a sequence.

An opening and a closing marker single out the bodies between them. The search is leftmost: it takes
the first opening marker, then the first closing marker after it, and goes on behind that one. Bodies
do not nest, and an opening marker that is never closed ends the search. The search is written for
lists of any kind, so that the same definition reads characters and bytes.
-/

namespace ApiDoc

/-- An opening and a closing marker. The opening one is not empty, so each body that is found leaves
less to search. -/
structure Delimiters (α : Type) where
  opening : List α
  closing : List α
  opening_ne_nil : opening ≠ [] := by decide

namespace Delimiters

variable {α : Type} [DecidableEq α]

def first? (marks : Delimiters α) (items : List α) : Option (List α × List α) :=
  (cutAt? marks.opening items).bind fun (_, inside) => cutAt? marks.closing inside

theorem length_of_first? {marks : Delimiters α} {items body rest : List α}
    (found : marks.first? items = some (body, rest)) : rest.length < items.length := by
  simp only [first?, Option.bind_eq_some_iff, Prod.exists] at found
  obtain ⟨gap, inside, opened, closed⟩ := found
  have whole := length_of_cutAt? opened
  have part := length_of_cutAt? closed
  have positive := List.length_pos_iff.mpr marks.opening_ne_nil
  omega

def scan (marks : Delimiters α) (items : List α) : List (List α) × List α :=
  match _found : marks.first? items with
  | none => ([], items)
  | some (body, rest) =>
      let more := marks.scan rest
      (body :: more.1, more.2)
  termination_by items.length
  decreasing_by exact length_of_first? (by assumption)

def bodies (marks : Delimiters α) (items : List α) : List (List α) :=
  (marks.scan items).1

def tail (marks : Delimiters α) (items : List α) : List α :=
  (marks.scan items).2

theorem scan_of_none {marks : Delimiters α} {items : List α} (none : marks.first? items = none) :
    marks.scan items = ([], items) := by
  rw [scan]
  split
  · rfl
  · simp_all

theorem scan_of_some {marks : Delimiters α} {items body rest : List α}
    (found : marks.first? items = some (body, rest)) :
    marks.scan items = (body :: (marks.scan rest).1, (marks.scan rest).2) := by
  rw [scan]
  split
  · simp_all
  · simp_all

section Step

variable {marks : Delimiters α} {items : List α}

theorem bodies_of_none (none : marks.first? items = none) : marks.bodies items = [] := by
  rw [bodies, scan_of_none none]

theorem tail_of_none (none : marks.first? items = none) : marks.tail items = items := by
  rw [tail, scan_of_none none]

variable {body rest : List α} (found : marks.first? items = some (body, rest))

include found

theorem bodies_of_some : marks.bodies items = body :: marks.bodies rest := by
  rw [bodies, scan_of_some found]
  rfl

theorem tail_of_some : marks.tail items = marks.tail rest := by
  rw [tail, scan_of_some found]
  rfl

end Step

end Delimiters

end ApiDoc
