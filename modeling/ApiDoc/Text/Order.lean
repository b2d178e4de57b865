import ApiDoc.Text

/-!
The order of texts and of lists of texts.

Texts are ordered by the code points of their characters, which is also the order of their UTF-8
bytes, and lists of texts item by item.
-/

namespace ApiDoc

/-- Lexicographic comparison: the first items that differ decide, and a list comes before its
extensions. -/
def lexLe {α : Type} [DecidableEq α] (le : α → α → Bool) : List α → List α → Bool
  | [], _ => true
  | _ :: _, [] => false
  | first :: rest, other :: others =>
      if first = other then lexLe le rest others else le first other

/-- What an order needs for sorting by it to fix the result. -/
structure TotalOrder {α : Type} (le : α → α → Bool) : Prop where
  total : ∀ first second, (le first second || le second first) = true
  trans : ∀ first second third, le first second = true → le second third = true →
    le first third = true
  antisymm : ∀ first second, le first second = true → le second first = true → first = second

theorem lexLe_totalOrder {α : Type} [DecidableEq α] {le : α → α → Bool} (order : TotalOrder le) :
    TotalOrder (lexLe le) := by
  refine ⟨?_, ?_, ?_⟩
  · intro first
    induction first with
    | nil => simp [lexLe]
    | cons item rest ih =>
        intro second
        cases second with
        | nil => simp [lexLe]
        | cons other others =>
            by_cases same : item = other
            · simpa [lexLe, same] using ih others
            · simpa [lexLe, same, Ne.symm same] using order.total item other
  · intro first
    induction first with
    | nil => simp [lexLe]
    | cons item rest ih =>
        intro second third below above
        cases second with
        | nil => simp [lexLe] at below
        | cons other others =>
            cases third with
            | nil => simp [lexLe] at above
            | cons last lasts =>
                by_cases same : item = other
                · subst same
                  by_cases equal : item = last
                  · subst equal
                    simp only [lexLe, if_true] at below above ⊢
                    exact ih others lasts below above
                  · simpa [lexLe, equal] using above
                · by_cases equal : other = last
                  · subst equal
                    simpa [lexLe, same] using below
                  · simp only [lexLe, same, equal, if_false] at below above
                    have transitive := order.trans _ _ _ below above
                    by_cases closed : item = last
                    · subst closed
                      exact absurd (order.antisymm _ _ below above) same
                    · simpa [lexLe, closed] using transitive
  · intro first
    induction first with
    | nil =>
        intro second _ above
        cases second with
        | nil => rfl
        | cons other others => simp [lexLe] at above
    | cons item rest ih =>
        intro second below above
        cases second with
        | nil => simp [lexLe] at below
        | cons other others =>
            by_cases same : item = other
            · subst same
              simp only [lexLe, if_true] at below above
              rw [ih others below above]
            · simp only [lexLe, same, Ne.symm same, if_false] at below above
              exact absurd (order.antisymm _ _ below above) same

namespace Text

def le : Text → Text → Bool :=
  lexLe fun first second => decide (first.toNat ≤ second.toNat)

theorem le_totalOrder : TotalOrder le :=
  lexLe_totalOrder {
    total := fun first second => by
      simpa using Nat.le_total first.toNat second.toNat
    trans := fun first second third below above => by
      simp only [decide_eq_true_eq] at below above ⊢
      exact Nat.le_trans below above
    antisymm := fun first second below above => by
      simp only [decide_eq_true_eq] at below above
      exact Char.toNat_inj.mp (Nat.le_antisymm below above)
  }

end Text

end ApiDoc
