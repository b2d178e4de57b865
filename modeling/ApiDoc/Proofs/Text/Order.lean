import ApiDoc.FileTree.Path
import ApiDoc.Proofs.Text.Utf8
import Mathlib.Data.List.Basic

/-!
The order of bytes.

A character with the smaller code point has the smaller byte at the first place where its bytes differ from
those of another. The order of texts is therefore that of their bytes, and the order of paths that of the bytes
of their components.
-/

namespace ApiDoc

namespace Utf8

theorem ofNat_lt_iff {first second : Nat} (first_bound : first < 256) (second_bound : second < 256) :
    UInt8.ofNat first < UInt8.ofNat second ↔ first < second := by
  rw [UInt8.lt_iff_toNat_lt, toNat_ofNat_of_lt first_bound, toNat_ofNat_of_lt second_bound]

theorem ofNat_inj_iff {first second : Nat} (first_bound : first < 256) (second_bound : second < 256) :
    UInt8.ofNat first = UInt8.ofNat second ↔ first = second := by
  rw [← UInt8.toNat_inj, toNat_ofNat_of_lt first_bound, toNat_ofNat_of_lt second_bound]

theorem encodeChar_ne_nil (char : Char) : encodeChar char ≠ [] := by
  rw [encodeChar]
  repeat' split
  all_goals exact List.cons_ne_nil _ _

theorem encode_cons (char : Char) (text : Text) : encode (char :: text) = encodeChar char ++ encode text :=
  List.flatMap_cons

theorem encode_injective {first second : Text} (same : encode first = encode second) : first = second := by
  have decoded := congrArg decode? same
  rw [decode?_encode, decode?_encode] at decoded
  exact Option.some.inj decoded

theorem append_le_append_left_iff (before : Bytes) {first second : Bytes} :
    before ++ first ≤ before ++ second ↔ first ≤ second := by
  induction before with
  | nil => rfl
  | cons byte before ih =>
      rw [List.cons_append, List.cons_append, List.cons_le_cons_iff, ih]
      simp

theorem encodeChar_append_lt {first second : Char} (below : first.toNat < second.toNat)
    (rest others : Bytes) : encodeChar first ++ rest < encodeChar second ++ others := by
  have bound : second.toNat < 0x110000 := by
    have valid : second.toNat < 0xD800 ∨ 0xDFFF < second.toNat ∧ second.toNat < 0x110000 := second.valid
    omega
  rw [encodeChar, encodeChar]
  generalize first.toNat = code at below ⊢
  generalize second.toNat = other at below bound ⊢
  -- The greater code takes at least as many bytes. If it takes more, then already its first byte is greater,
  -- and otherwise the bytes are compared as digits are.
  repeat' split
  all_goals first
    | omega
    | simp (disch := omega) only [List.cons_append, List.nil_append, List.cons_lt_cons_iff, ofNat_lt_iff,
        ofNat_inj_iff]
      omega

theorem le_iff_encode_le {first second : Text} : Text.le first second ↔ encode first ≤ encode second := by
  rw [Text.le]
  induction first generalizing second with
  | nil => simp [lexLe, encode]
  | cons char first ih =>
      cases second with
      | nil =>
          rw [encode_cons, lexLe]
          simp [encode, encodeChar_ne_nil]
      | cons other second =>
          rw [lexLe, encode_cons, encode_cons]
          by_cases same : char = other
          · rw [if_pos same, ih, same, append_le_append_left_iff]
          · rw [if_neg same, decide_eq_true_eq]
            have different : char.toNat ≠ other.toNat := fun codes => same (Char.toNat_inj.mp codes)
            rcases Nat.lt_or_gt_of_ne different with below | above
            · exact iff_of_true (Nat.le_of_lt below) (List.le_of_lt (encodeChar_append_lt below _ _))
            · exact iff_of_false (Nat.not_le.mpr above)
                fun reversed => reversed (encodeChar_append_lt above _ _)

end Utf8

theorem Location.le_iff {first second : Location} :
    le first second ↔ first.map Utf8.encode ≤ second.map Utf8.encode := by
  rw [le]
  induction first generalizing second with
  | nil => simp [lexLe]
  | cons name first ih =>
      cases second with
      | nil => simp [lexLe]
      | cons other second =>
          rw [lexLe, List.map_cons, List.map_cons, List.cons_le_cons_iff]
          by_cases same : name = other
          · rw [if_pos same, ih, same]
            simp [List.lt_irrefl]
          · have different : Utf8.encode name ≠ Utf8.encode other :=
              fun bytes => same (Utf8.encode_injective bytes)
            rw [if_neg same, Utf8.le_iff_encode_le, List.le_iff_lt_or_eq]
            simp [different]

namespace Path

/-- The components of a path as bytes. One that goes up comes before every name, as if it had no bytes. -/
def components (path : Text) : List Bytes :=
  (key path).map Utf8.encode

theorem le_iff {first second : Text} : le first second ↔ components first ≤ components second := by
  rw [le, Location.le_iff, components, components]

end Path

end ApiDoc
