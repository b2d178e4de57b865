import ApiDoc.Proofs.Text.Decoding
import ApiDoc.Proofs.Text.Delimited
import ApiDoc.Proofs.Text.Lines
import Mathlib.Algebra.Group.Nat.Defs

/-!
ASCII characters of decoded bytes.

A sequence of several bytes, well formed or not, never decodes to an ASCII character. Each ASCII character of a
decoded text therefore stands at a byte of its own, and a marker of such characters is found in the text
exactly where its bytes are found in the file.
-/

namespace ApiDoc

namespace Utf8

theorem toNat_ofNat_of_isValidChar {code : Nat} (valid : code.isValidChar) :
    (Char.ofNat code).toNat = code := by
  rw [Char.ofNat, dif_pos valid]
  rfl

/-- Whether a state completes no ASCII character: whatever bytes it admits, the value they add up to is a
character, and one that needs more than one byte. -/
def State.Wide : State → Prop
  | .ready => True
  | .inside value least greatest more => ∀ byte low, least ≤ byte → byte ≤ greatest → low < 64 ^ more →
      0x80 ≤ (value * 64 + (byte - 0x80)) * 64 ^ more + low ∧
        ((value * 64 + (byte - 0x80)) * 64 ^ more + low).isValidChar

theorem start_wide (byte : Nat) : (start byte).2.Wide := by
  unfold start
  repeat' split
  all_goals
    simp only [State.Wide, Nat.isValidChar, Nat.reducePow]
    try omega

theorem State.Wide.step {state : State} (wide : state.Wide) (byte : Nat) :
    (state.step byte).2.Wide := by
  cases state with
  | ready => exact start_wide byte
  | inside value least greatest more =>
      rw [State.step]
      split
      · next admitted =>
          cases more with
          | zero => exact trivial
          | succ more =>
              intro next low above below bound
              have digit : (next - 0x80) * 64 ^ more ≤ 63 * 64 ^ more :=
                Nat.mul_le_mul_right _ (by omega)
              have whole := wide byte ((next - 0x80) * 64 ^ more + low) admitted.1 admitted.2
                (by rw [Nat.pow_succ]; omega)
              have same : ((value * 64 + (byte - 0x80)) * 64 + (next - 0x80)) * 64 ^ more + low =
                  (value * 64 + (byte - 0x80)) * 64 ^ (more + 1) +
                    ((next - 0x80) * 64 ^ more + low) := by
                rw [Nat.add_mul, Nat.mul_assoc, Nat.pow_succ', Nat.add_assoc]
              rw [same]
              exact whole
      · exact start_wide byte

theorem start_not_ascii {byte : Nat} (above : 0x80 ≤ byte) :
    ∀ piece ∈ (start byte).1, 0x80 ≤ (piece.getD replacement).toNat := by
  unfold start
  rw [if_neg (by omega)]
  repeat' split
  all_goals simp [replacement]

theorem State.Wide.step_not_ascii {state : State} (wide : state.Wide) {byte : Nat}
    (above : 0x80 ≤ byte) :
    ∀ piece ∈ (state.step byte).1, 0x80 ≤ (piece.getD replacement).toNat := by
  cases state with
  | ready => exact start_not_ascii above
  | inside value least greatest more =>
      rw [State.step]
      split
      · next admitted =>
          cases more with
          | zero =>
              intro piece member
              obtain ⟨large, valid⟩ := wide byte 0 admitted.1 admitted.2 (by decide)
              rw [Nat.pow_zero, Nat.mul_one, Nat.add_zero] at large valid
              rw [List.mem_singleton.mp member, Option.getD_some, toNat_ofNat_of_isValidChar valid]
              exact large
          | succ more => simp
      · intro piece member
        rcases List.mem_cons.mp member with rfl | later
        · decide
        · exact start_not_ascii above piece later

theorem State.finish_not_ascii (state : State) :
    ∀ piece ∈ state.finish, 0x80 ≤ (piece.getD replacement).toNat := by
  cases state <;> simp [State.finish, replacement]

def textFrom (state : State) (raw : Bytes) : Text :=
  (piecesFrom state raw).map fun piece => piece.getD replacement

theorem textFrom_cons (state : State) (byte : UInt8) (raw : Bytes) :
    textFrom state (byte :: raw) =
      ((state.step byte.toNat).1.map fun piece => piece.getD replacement) ++
        textFrom (state.step byte.toNat).2 raw := by
  simp only [textFrom, piecesFrom, List.map_append]

theorem State.Multibyte.textFrom_cons_ascii {state : State} (multibyte : state.Multibyte)
    {byte : UInt8} (ascii : byte.toNat < 0x80) (raw : Bytes) :
    textFrom state (byte :: raw) =
      textFrom state [] ++ Char.ofNat byte.toNat :: decodeLossy raw := by
  rw [textFrom_cons, multibyte.step_ascii ascii, List.map_append, List.append_assoc]
  rfl

theorem notMem_map_of_not_ascii {done : List Piece} {char : Char} (ascii : char.toNat < 0x80)
    (above : ∀ piece ∈ done, 0x80 ≤ (piece.getD replacement).toNat) :
    char ∉ done.map fun piece => piece.getD replacement := by
  intro member
  obtain ⟨piece, among, rfl⟩ := List.mem_map.mp member
  exact Nat.not_lt.mpr (above piece among) ascii

theorem exists_eq_append_of_textFrom {state : State} (multibyte : state.Multibyte) (wide : state.Wide)
    {raw : Bytes} {before rest : Text} {char : Char} (ascii : char.toNat < 0x80)
    (whole : textFrom state raw = before ++ char :: rest) :
    ∃ first behind, raw = first ++ UInt8.ofNat char.toNat :: behind ∧
      textFrom state first = before ∧ decodeLossy behind = rest := by
  have unfinished : char ∉ textFrom state [] := notMem_map_of_not_ascii ascii state.finish_not_ascii
  induction raw generalizing state before with
  | nil =>
      rw [whole] at unfinished
      simp at unfinished
  | cons byte raw ih =>
      by_cases own : byte.toNat < 0x80
      · -- The byte ends what was begun, so only that can stand before its character.
        rw [multibyte.textFrom_cons_ascii own] at whole
        obtain ⟨between, rfl, remaining⟩ := Text.exists_eq_append_of_notMem unfinished whole
        cases between with
        | nil =>
            obtain ⟨rfl, rfl⟩ := List.cons.inj remaining
            refine ⟨[], raw, ?_, (List.append_nil _).symm, rfl⟩
            rw [toNat_ofNat_of_isValidChar (Or.inl (by omega)), UInt8.ofNat_toNat]
            rfl
        | cons other between =>
            obtain ⟨same, later⟩ := List.cons.inj remaining
            obtain ⟨first, behind, rfl, decoded, last⟩ :=
              ih (show State.ready.Multibyte from trivial) trivial later List.not_mem_nil
            refine ⟨byte :: first, behind, rfl, ?_, last⟩
            rw [multibyte.textFrom_cons_ascii own, ← decoded, same]
            rfl
      · rw [textFrom_cons] at whole
        have absent := notMem_map_of_not_ascii ascii (wide.step_not_ascii (Nat.not_lt.mp own))
        obtain ⟨between, rfl, remaining⟩ := Text.exists_eq_append_of_notMem absent whole
        obtain ⟨first, behind, rfl, decoded, last⟩ :=
          ih (multibyte.step byte.toNat) (wide.step byte.toNat) remaining
            (notMem_map_of_not_ascii ascii (State.finish_not_ascii _))
        refine ⟨byte :: first, behind, rfl, ?_, last⟩
        rw [textFrom_cons, decoded]

theorem exists_eq_append_of_decodeLossy {raw : Bytes} {before rest : Text} {char : Char}
    (ascii : char.toNat < 0x80) (whole : decodeLossy raw = before ++ char :: rest) :
    ∃ first behind, raw = first ++ UInt8.ofNat char.toNat :: behind ∧
      decodeLossy first = before ∧ decodeLossy behind = rest :=
  exists_eq_append_of_textFrom (show State.ready.Multibyte from trivial) trivial ascii whole

theorem State.step_pending (state : State) (byte : Nat) :
    (state.step byte).1 ≠ [] ∨ (state.step byte).2 ≠ .ready := by
  have started : (start byte).1 ≠ [] ∨ (start byte).2 ≠ .ready := by
    unfold start
    repeat' split
    all_goals simp
  cases state with
  | ready => exact started
  | inside value least greatest more =>
      rw [State.step]
      split
      · cases more <;> simp
      · simp

theorem textFrom_ne_nil {state : State} (pending : state ≠ .ready) (raw : Bytes) :
    textFrom state raw ≠ [] := by
  induction raw generalizing state with
  | nil =>
      cases state with
      | ready => exact absurd rfl pending
      | inside value least greatest more => exact List.cons_ne_nil _ _
  | cons byte raw ih =>
      rw [textFrom_cons]
      rcases state.step_pending byte.toNat with done | inside
      · exact List.append_ne_nil_of_left_ne_nil (by simpa using done) _
      · exact List.append_ne_nil_of_right_ne_nil _ (ih inside)

theorem eq_nil_of_decodeLossy_eq_nil {raw : Bytes} (empty : decodeLossy raw = []) : raw = [] := by
  cases raw with
  | nil => rfl
  | cons byte raw =>
      rw [show decodeLossy (byte :: raw) = textFrom .ready (byte :: raw) from rfl, textFrom_cons,
        List.append_eq_nil_iff, List.map_eq_nil_iff] at empty
      rcases State.ready.step_pending byte.toNat with done | inside
      · exact absurd empty.1 done
      · exact absurd empty.2 (textFrom_ne_nil inside raw)

theorem encode_cons_ascii {char : Char} (ascii : char.toNat < 0x80) (rest : Text) :
    encode (char :: rest) = UInt8.ofNat char.toNat :: encode rest := by
  rw [encode, List.flatMap_cons, encodeChar, if_pos ascii]
  rfl

section Marker

/-! A marker of ASCII characters is found where its bytes are. -/

variable {marker : Text} (ascii : ∀ char ∈ marker, char.toNat < 0x80) (nonempty : marker ≠ [])

include ascii nonempty

theorem decodeLossy_append_marker (before rest : Bytes) :
    decodeLossy (before ++ encode marker ++ rest) =
      decodeLossy before ++ marker ++ decodeLossy rest := by
  obtain ⟨char, behind, rfl⟩ := List.exists_cons_of_ne_nil nonempty
  have small : char.toNat < 0x80 := ascii char List.mem_cons_self
  have own : (UInt8.ofNat char.toNat).toNat = char.toNat := toNat_ofNat_of_lt (by omega)
  have decoded : decodeLossy (encode behind ++ rest) = behind ++ decodeLossy rest := by
    rw [decodeLossy, pieces, piecesFrom_encode, List.map_append, List.map_map]
    simp [decodeLossy, pieces, Function.comp_def]
  rw [encode_cons_ascii small, List.append_assoc, List.cons_append,
    decodeLossy_append_ascii before (own.symm ▸ small), own, Char.ofNat_toNat, decoded]
  simp

theorem exists_eq_append_marker {raw : Bytes} {before rest : Text}
    (whole : decodeLossy raw = before ++ marker ++ rest) :
    ∃ first behind, raw = first ++ encode marker ++ behind ∧
      decodeLossy first = before ∧ decodeLossy behind = rest := by
  induction marker generalizing raw before with
  | nil => exact absurd rfl nonempty
  | cons char marker ih =>
      obtain ⟨small, others⟩ := List.forall_mem_cons.mp ascii
      rw [List.append_assoc, List.cons_append] at whole
      obtain ⟨first, behind, rfl, decoded, later⟩ := exists_eq_append_of_decodeLossy small whole
      rw [encode_cons_ascii small]
      by_cases last : marker = []
      · subst last
        exact ⟨first, behind, by simp [encode], decoded, later⟩
      · obtain ⟨none, rest, rfl, empty, ended⟩ := ih others last (show _ = [] ++ marker ++ rest from later)
        obtain rfl := eq_nil_of_decodeLossy_eq_nil empty
        exact ⟨first, rest, by simp, decoded, ended⟩

theorem marker_infix_decodeLossy_iff {raw : Bytes} :
    marker <:+: decodeLossy raw ↔ encode marker <:+: raw := by
  constructor
  · rintro ⟨before, rest, whole⟩
    obtain ⟨first, behind, same, _, _⟩ := exists_eq_append_marker ascii nonempty whole.symm
    exact ⟨first, behind, same.symm⟩
  · rintro ⟨first, behind, rfl⟩
    rw [decodeLossy_append_marker ascii nonempty]
    exact ⟨decodeLossy first, decodeLossy behind, rfl⟩

/-- Cutting at a marker and decoding can be done in either order. -/
theorem cutAt?_decodeLossy (unbordered : Unbordered marker) (raw : Bytes) :
    cutAt? marker (decodeLossy raw) =
      (cutAt? (encode marker) raw).map fun (before, rest) => (decodeLossy before, decodeLossy rest) := by
  cases found : cutAt? (encode marker) raw with
  | none =>
      rw [cutAt?_eq_none_iff, ← marker_infix_decodeLossy_iff ascii nonempty] at found
      exact cutAt?_eq_none_iff.mpr found
  | some parts =>
      obtain ⟨before, rest⟩ := parts
      have written : encode marker ≠ [] := by
        obtain ⟨char, behind, rfl⟩ := List.exists_cons_of_ne_nil nonempty
        rw [encode_cons_ascii (ascii char List.mem_cons_self)]
        exact List.cons_ne_nil _ _
      have free := not_infix_of_cutAt? written found
      rw [← marker_infix_decodeLossy_iff ascii nonempty] at free
      rw [eq_append_of_cutAt? found, decodeLossy_append_marker ascii nonempty,
        cutAt?_append unbordered free]
      rfl

end Marker

end Utf8

end ApiDoc
