import ApiDoc.Proofs.Text.Utf8

/-!
Decoding around an ASCII byte.

Inside a character the decoder never admits a byte below 0x80. Such a byte therefore stands for itself
wherever it occurs: what comes before it is decoded as if the bytes ended there, and what follows it
is decoded afresh.
-/

namespace ApiDoc

namespace Utf8

def State.Multibyte : State → Prop
  | .ready => True
  | .inside _ least _ _ => 0x80 ≤ least

theorem start_multibyte (byte : Nat) : (start byte).2.Multibyte := by
  unfold start
  repeat' split
  all_goals simp [State.Multibyte]

theorem State.Multibyte.step {state : State} (multibyte : state.Multibyte) (byte : Nat) :
    (state.step byte).2.Multibyte := by
  cases state with
  | ready => exact start_multibyte byte
  | inside value least greatest more =>
      rw [State.step]
      split
      · cases more
        · exact trivial
        · exact Nat.le_refl 0x80
      · exact start_multibyte byte

/-- An ASCII byte completes whatever was begun before it, and is a character of its own. -/
theorem State.Multibyte.step_ascii {state : State} (multibyte : state.Multibyte) {byte : Nat}
    (ascii : byte < 0x80) : state.step byte = (state.finish ++ [some (Char.ofNat byte)], .ready) := by
  cases state with
  | ready => exact start_one ascii
  | inside value least greatest more =>
      have below : ¬ (least ≤ byte ∧ byte ≤ greatest) := by
        intro admitted
        have above : 0x80 ≤ least := multibyte
        omega
      rw [State.step, if_neg below, start_one ascii]
      rfl

theorem piecesFrom_append_ascii {state : State} (multibyte : state.Multibyte) (first : Bytes)
    {byte : UInt8} (ascii : byte.toNat < 0x80) (rest : Bytes) :
    piecesFrom state (first ++ byte :: rest) =
      piecesFrom state first ++ some (Char.ofNat byte.toNat) :: piecesFrom .ready rest := by
  induction first generalizing state with
  | nil =>
      simp only [List.nil_append, piecesFrom, multibyte.step_ascii ascii, List.append_assoc,
        List.singleton_append]
  | cons next first ih =>
      rw [List.cons_append, piecesFrom, piecesFrom]
      simp only
      rw [ih (multibyte.step next.toNat), List.append_assoc]

theorem decodeLossy_append_ascii (first : Bytes) {byte : UInt8} (ascii : byte.toNat < 0x80)
    (rest : Bytes) : decodeLossy (first ++ byte :: rest) =
      decodeLossy first ++ Char.ofNat byte.toNat :: decodeLossy rest := by
  rw [decodeLossy, pieces, piecesFrom_append_ascii (show State.ready.Multibyte from trivial) first
    ascii rest, List.map_append]
  rfl

theorem decodeLossy_append {first : Bytes} (ascii : ∀ byte ∈ first.getLast?, byte.toNat < 0x80)
    (rest : Bytes) : decodeLossy (first ++ rest) = decodeLossy first ++ decodeLossy rest := by
  rcases List.eq_nil_or_concat first with rfl | ⟨earlier, byte, rfl⟩
  · rfl
  · have small : byte.toNat < 0x80 := ascii byte (by simp)
    rw [List.concat_eq_append, List.append_assoc, List.singleton_append,
      decodeLossy_append_ascii earlier small, decodeLossy_append_ascii earlier small]
    simp [decodeLossy, pieces, piecesFrom, State.finish]

end Utf8

end ApiDoc
