import ApiDoc.Text.Delimited
import Mathlib.Data.List.Infix

/-!
What cutting and searching find.

A cut is made at the first occurrence of its marker. Two occurrences of an unbordered marker never
overlap, so such a marker is found right behind any text that does not hold it, whatever follows.
-/

namespace ApiDoc

section Overlap

variable {α : Type}

/-- A marker is unbordered when no part of it, short of the whole, both begins and ends it. -/
def Unbordered (marker : List α) : Prop :=
  ∀ part ∈ marker.inits, part ≠ [] → part <:+ marker → part = marker

instance [DecidableEq α] (marker : List α) : Decidable (Unbordered marker) :=
  inferInstanceAs (Decidable (∀ part ∈ marker.inits, part ≠ [] → part <:+ marker → part = marker))

theorem not_prefix_append_of_unbordered {marker before : List α} (unbordered : Unbordered marker)
    (nonempty : before ≠ []) (free : ¬ marker <:+: before) (rest : List α) :
    ¬ marker <+: before ++ marker ++ rest := by
  rintro ⟨later, occurs⟩
  rw [List.append_assoc] at occurs
  rcases List.append_eq_append_iff.mp occurs with ⟨between, whole, _⟩ | ⟨tail, whole, same⟩
  · exact free ⟨[], between, by simp [whole]⟩
  · -- `before` is a proper beginning of the marker, and what it lacks would have to be a border.
    have shorter : tail.length < marker.length := by
      have positive := List.length_pos_iff.mpr nonempty
      rw [whole, List.length_append]
      omega
    have begins : tail <+: marker :=
      List.prefix_of_prefix_length_le ⟨later, same.symm⟩ (List.prefix_append marker rest)
        (Nat.le_of_lt shorter)
    by_cases ended : tail = []
    · exact free ⟨[], [], by simp [whole, ended]⟩
    · have border := unbordered tail ((List.mem_inits tail marker).mpr begins) ended
        ⟨before, whole.symm⟩
      rw [border] at shorter
      exact Nat.lt_irrefl _ shorter

end Overlap

variable {α : Type} [DecidableEq α]

theorem after?_append (marker rest : List α) : after? marker (marker ++ rest) = some rest :=
  after?_eq_some_iff.mpr rfl

theorem after?_eq_none_iff {marker items : List α} :
    after? marker items = none ↔ ¬ marker <+: items := by
  rw [Option.eq_none_iff_forall_ne_some]
  constructor
  · rintro none ⟨rest, rfl⟩
    exact none rest (after?_append marker rest)
  · intro noPrefix rest found
    exact noPrefix ⟨rest, (after?_eq_some_iff.mp found).symm⟩

theorem cutAt?_eq_none_iff {marker items : List α} :
    cutAt? marker items = none ↔ ¬ marker <:+: items := by
  induction items with
  | nil =>
      rw [cutAt?, Option.map_eq_none_iff, after?_eq_none_iff, List.prefix_nil, List.infix_nil]
  | cons item items ih =>
      rw [cutAt?, List.infix_cons_iff, not_or]
      split
      · next rest found =>
          have begins : marker <+: item :: items := ⟨rest, (after?_eq_some_iff.mp found).symm⟩
          simp [begins]
      · next missing =>
          rw [Option.map_eq_none_iff, ih]
          exact ⟨fun free => ⟨after?_eq_none_iff.mp missing, free⟩, fun free => free.2⟩

theorem length_le_of_cutAt? {marker items before rest : List α}
    (found : cutAt? marker items = some (before, rest)) {earlier later : List α}
    (occurs : items = earlier ++ marker ++ later) : before.length ≤ earlier.length := by
  induction items generalizing before earlier with
  | nil =>
      have whole := eq_append_of_cutAt? found
      have lengths := congrArg List.length whole
      simp only [List.length_nil, List.length_append] at lengths
      omega
  | cons item items ih =>
      rw [cutAt?] at found
      split at found
      · simp only [Option.some.injEq, Prod.mk.injEq] at found
        simp [← found.1]
      · next missing =>
          simp only [Option.map_eq_some_iff, Prod.mk.injEq, Prod.exists] at found
          obtain ⟨start, after, matched, rfl, rfl⟩ := found
          cases earlier with
          | nil =>
              rw [List.nil_append] at occurs
              rw [occurs, after?_append] at missing
              simp at missing
          | cons first earlier =>
              rw [List.cons_append, List.cons_append, List.cons.injEq] at occurs
              have shorter := ih matched occurs.2
              simp only [List.length_cons]
              omega

theorem not_infix_of_cutAt? {marker items before rest : List α} (nonempty : marker ≠ [])
    (found : cutAt? marker items = some (before, rest)) : ¬ marker <:+: before := by
  rintro ⟨earlier, later, rfl⟩
  have whole := eq_append_of_cutAt? found
  rw [List.append_assoc (earlier ++ marker), List.append_assoc (earlier ++ marker)] at whole
  have first := length_le_of_cutAt? found whole
  have positive := List.length_pos_iff.mpr nonempty
  simp only [List.length_append] at first
  omega

theorem cutAt?_append {marker before : List α} (unbordered : Unbordered marker)
    (free : ¬ marker <:+: before) (rest : List α) :
    cutAt? marker (before ++ marker ++ rest) = some (before, rest) := by
  induction before with
  | nil =>
      rw [List.nil_append]
      cases marker with
      | nil => simp at free
      | cons first marker =>
          rw [List.cons_append, cutAt?, ← List.cons_append, after?_append]
  | cons item before ih =>
      have later : ¬ marker <:+: before := fun inside => free (List.infix_cons inside)
      have missing : after? marker (item :: (before ++ marker ++ rest)) = none :=
        after?_eq_none_iff.mpr
          (not_prefix_append_of_unbordered unbordered (List.cons_ne_nil item before) free rest)
      rw [List.cons_append, List.cons_append, cutAt?, missing]
      simp only [ih later, Option.map_some]

theorem cutAt?_singleton_append {item : α} {before : List α} (free : item ∉ before)
    (rest : List α) : cutAt? [item] (before ++ item :: rest) = some (before, rest) := by
  have unbordered : Unbordered [item] := by
    intro part begins nonempty _
    rcases List.prefix_cons_iff.mp ((List.mem_inits part [item]).mp begins) with empty | whole
    · exact absurd empty nonempty
    · obtain ⟨tail, rfl, short⟩ := whole
      rw [List.prefix_nil.mp short]
  have missing : ¬ [item] <:+: before := fun inside => free (inside.subset (by simp))
  simpa using cutAt?_append unbordered missing rest

namespace Delimiters

variable {marks : Delimiters α}

theorem scan_append (opening_unbordered : Unbordered marks.opening)
    (closing_unbordered : Unbordered marks.closing) {gap body : List α}
    (gap_free : ¬ marks.opening <:+: gap) (body_free : ¬ marks.closing <:+: body)
    (rest : List α) :
    marks.scan (gap ++ marks.opening ++ (body ++ marks.closing ++ rest)) =
      (body :: (marks.scan rest).1, (marks.scan rest).2) := by
  apply scan_of_some
  rw [first?, cutAt?_append opening_unbordered gap_free, Option.bind_some]
  exact cutAt?_append closing_unbordered body_free rest

theorem scan_of_free {items : List α} (free : ¬ marks.opening <:+: items) :
    marks.scan items = ([], items) := by
  apply scan_of_none
  rw [first?, cutAt?_eq_none_iff.mpr free, Option.bind_none]

theorem bodies_of_unclosed {items : List α} (free : ¬ marks.closing <:+: items) :
    marks.bodies items = [] := by
  cases found : marks.first? items with
  | none => exact bodies_of_none found
  | some result =>
      simp only [first?, Option.bind_eq_some_iff, Prod.exists] at found
      obtain ⟨gap, inside, opened, closed⟩ := found
      have behind : inside <:+: items := ⟨gap ++ marks.opening, [], by simp [eq_append_of_cutAt? opened]⟩
      have unclosed : ¬ marks.closing <:+: inside := fun occurs => free (occurs.trans behind)
      rw [cutAt?_eq_none_iff.mpr unclosed] at closed
      contradiction

theorem not_infix_of_mem_bodies (nonempty : marks.closing ≠ []) {items body : List α}
    (found : body ∈ marks.bodies items) : ¬ marks.closing <:+: body := by
  induction items using scan.induct marks with
  | case1 items none =>
      rw [bodies, scan_of_none none] at found
      simp at found
  | case2 items first rest some ih =>
      rw [bodies, scan_of_some some] at found
      rcases List.mem_cons.mp found with rfl | later
      · simp only [first?, Option.bind_eq_some_iff, Prod.exists] at some
        obtain ⟨gap, inside, _, closed⟩ := some
        exact not_infix_of_cutAt? nonempty closed
      · exact ih later

end Delimiters

end ApiDoc
