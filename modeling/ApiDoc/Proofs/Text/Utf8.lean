import ApiDoc.Text.Utf8

/-!
Decoding takes back encoding.

The first byte of a character brings the decoder into a state that admits exactly the bytes that
follow, and the last of them completes the character. What is encoded is therefore decoded without an
ill-formed piece, whatever follows it.
-/

namespace ApiDoc

theorem mapM_map_of_inverse {α β : Type} {write : α → β} {read : β → Option α}
    (inverse : ∀ item, read (write item) = some item) (items : List α) :
    (items.map write).mapM read = some items := by
  induction items with
  | nil => rfl
  | cons item items ih =>
      rw [List.map_cons, List.mapM_cons, inverse, ih]
      rfl

namespace Utf8

theorem toNat_ofNat_of_lt {byte : Nat} (bound : byte < 256) : (UInt8.ofNat byte).toNat = byte := by
  rw [UInt8.toNat_ofNat']
  exact Nat.mod_eq_of_lt bound

section Inside

variable {value least greatest byte : Nat} (above : least ≤ byte) (below : byte ≤ greatest)
  (bound : byte < 256) (rest : Bytes)

include above below bound

theorem piecesFrom_last : piecesFrom (.inside value least greatest 0) (UInt8.ofNat byte :: rest) =
    some (Char.ofNat (value * 64 + (byte - 0x80))) :: piecesFrom .ready rest := by
  rw [piecesFrom, State.step, toNat_ofNat_of_lt bound, if_pos ⟨above, below⟩]
  rfl

theorem piecesFrom_more (more : Nat) :
    piecesFrom (.inside value least greatest (more + 1)) (UInt8.ofNat byte :: rest) =
      piecesFrom (.inside (value * 64 + (byte - 0x80)) 0x80 0xBF more) rest := by
  rw [piecesFrom, State.step, toNat_ofNat_of_lt bound, if_pos ⟨above, below⟩]
  rfl

end Inside

theorem start_one {code : Nat} (below : code < 0x80) :
    start code = ([some (Char.ofNat code)], .ready) := by
  rw [start, if_pos below]

theorem start_two {code : Nat} (above : 0x80 ≤ code) (below : code < 0x800) :
    start (0xC0 + code / 64) = ([], .inside (code / 64) 0x80 0xBF 0) := by
  rw [start, if_neg (by omega), if_neg (by omega), if_pos (by omega)]
  simp

theorem start_three {code : Nat} (above : 0x800 ≤ code) (below : code < 0x10000)
    (valid : code < 0xD800 ∨ 0xDFFF < code) : ∃ least greatest,
    start (0xE0 + code / 4096) = ([], .inside (code / 4096) least greatest 1) ∧
      least ≤ 0x80 + code / 64 % 64 ∧ 0x80 + code / 64 % 64 ≤ greatest := by
  by_cases first : code / 4096 = 0
  · refine ⟨0xA0, 0xBF, ?_, by omega, by omega⟩
    rw [first]
    rfl
  by_cases surrogate : code / 4096 = 0xD
  · refine ⟨0x80, 0x9F, ?_, by omega, by omega⟩
    rw [surrogate]
    rfl
  · refine ⟨0x80, 0xBF, ?_, by omega, by omega⟩
    rw [start, if_neg (by omega), if_neg (by omega), if_neg (by omega), if_neg (by omega),
      if_neg (by omega), if_pos (by omega)]
    simp

theorem start_four {code : Nat} (above : 0x10000 ≤ code) (below : code < 0x110000) :
    ∃ least greatest,
    start (0xF0 + code / 262144) = ([], .inside (code / 262144) least greatest 2) ∧
      least ≤ 0x80 + code / 4096 % 64 ∧ 0x80 + code / 4096 % 64 ≤ greatest := by
  by_cases first : code / 262144 = 0
  · refine ⟨0x90, 0xBF, ?_, by omega, by omega⟩
    rw [first]
    rfl
  by_cases last : code / 262144 = 4
  · refine ⟨0x80, 0x8F, ?_, by omega, by omega⟩
    rw [last]
    rfl
  · refine ⟨0x80, 0xBF, ?_, by omega, by omega⟩
    rw [start, if_neg (by omega), if_neg (by omega), if_neg (by omega), if_neg (by omega),
      if_neg (by omega), if_neg (by omega), if_neg (by omega), if_pos (by omega)]
    simp

theorem piecesFrom_ready {byte : Nat} (bound : byte < 256) (rest : Bytes) :
    piecesFrom .ready (UInt8.ofNat byte :: rest) =
      (start byte).1 ++ piecesFrom (start byte).2 rest := by
  rw [piecesFrom, State.step, toNat_ofNat_of_lt bound]

theorem piecesFrom_encodeChar (char : Char) (rest : Bytes) :
    piecesFrom .ready (encodeChar char ++ rest) = some char :: piecesFrom .ready rest := by
  have valid : char.toNat < 0xD800 ∨ 0xDFFF < char.toNat ∧ char.toNat < 0x110000 := char.valid
  have kept : Char.ofNat char.toNat = char := Char.ofNat_toNat char
  rw [encodeChar]
  generalize char.toNat = code at valid kept ⊢
  split
  · next one =>
      rw [List.singleton_append, piecesFrom_ready (by omega), start_one one, kept]
      rfl
  split
  · next two =>
      have whole : code / 64 * 64 + (0x80 + code % 64 - 0x80) = code := by omega
      rw [List.cons_append, piecesFrom_ready (by omega), start_two (by omega) two,
        List.nil_append, List.singleton_append,
        piecesFrom_last (by omega) (by omega) (by omega), whole, kept]
  split
  · next three =>
      obtain ⟨least, greatest, started, above, below⟩ :=
        start_three (by omega) three (by omega)
      have whole : (code / 4096 * 64 + (0x80 + code / 64 % 64 - 0x80)) * 64 +
          (0x80 + code % 64 - 0x80) = code := by omega
      rw [List.cons_append, piecesFrom_ready (by omega), started, List.nil_append,
        List.cons_append, piecesFrom_more above below (by omega), List.singleton_append,
        piecesFrom_last (by omega) (by omega) (by omega), whole, kept]
  · next four =>
      obtain ⟨least, greatest, started, above, below⟩ :=
        start_four (show 0x10000 ≤ code by omega) (by omega)
      have whole : ((code / 262144 * 64 + (0x80 + code / 4096 % 64 - 0x80)) * 64 +
          (0x80 + code / 64 % 64 - 0x80)) * 64 + (0x80 + code % 64 - 0x80) = code := by omega
      rw [List.cons_append, piecesFrom_ready (by omega), started, List.nil_append,
        List.cons_append, piecesFrom_more above below (by omega), List.cons_append,
        piecesFrom_more (by omega) (by omega) (by omega), List.singleton_append,
        piecesFrom_last (by omega) (by omega) (by omega), whole, kept]

theorem toNat_of_mem_encodeChar {char : Char} {byte : UInt8} (member : byte ∈ encodeChar char) :
    byte.toNat = char.toNat ∨ 0x80 ≤ byte.toNat := by
  have valid : char.toNat < 0xD800 ∨ 0xDFFF < char.toNat ∧ char.toNat < 0x110000 := char.valid
  rw [encodeChar] at member
  generalize char.toNat = code at member valid ⊢
  split at member
  · next one =>
      rw [List.mem_singleton.mp member, toNat_ofNat_of_lt (by omega)]
      exact Or.inl rfl
  split at member
  · next two =>
      simp only [List.mem_cons, List.not_mem_nil, or_false] at member
      rcases member with rfl | rfl
      all_goals
        rw [toNat_ofNat_of_lt (by omega)]
        omega
  split at member
  · next three =>
      simp only [List.mem_cons, List.not_mem_nil, or_false] at member
      rcases member with rfl | rfl | rfl
      all_goals
        rw [toNat_ofNat_of_lt (by omega)]
        omega
  · next four =>
      simp only [List.mem_cons, List.not_mem_nil, or_false] at member
      rcases member with rfl | rfl | rfl | rfl
      all_goals
        rw [toNat_ofNat_of_lt (by omega)]
        omega

theorem eq_of_ascii_mem_encodeChar {char mark : Char} (ascii : mark.toNat < 0x80)
    (member : UInt8.ofNat mark.toNat ∈ encodeChar char) : char = mark := by
  have own := toNat_of_mem_encodeChar member
  rw [toNat_ofNat_of_lt (by omega)] at own
  have same : mark.toNat = char.toNat := by omega
  exact (Char.toNat_inj.mp same).symm

theorem encode_append (first second : Text) :
    encode (first ++ second) = encode first ++ encode second :=
  List.flatMap_append

theorem piecesFrom_encode (text : Text) (rest : Bytes) :
    piecesFrom .ready (encode text ++ rest) = text.map some ++ piecesFrom .ready rest := by
  induction text with
  | nil => rfl
  | cons char text ih =>
      rw [encode, List.flatMap_cons, List.append_assoc, piecesFrom_encodeChar]
      rw [encode] at ih
      rw [ih]
      rfl

theorem pieces_encode (text : Text) : pieces (encode text) = text.map some := by
  have whole := piecesFrom_encode text []
  rw [List.append_nil] at whole
  rw [pieces, whole]
  exact List.append_nil _

theorem decodeLossy_encode (text : Text) : decodeLossy (encode text) = text := by
  rw [decodeLossy, pieces_encode, List.map_map]
  exact List.map_id text

theorem decode?_encode (text : Text) : decode? (encode text) = some text := by
  rw [decode?, pieces_encode]
  exact mapM_map_of_inverse (show ∀ char, id (some char) = some char from fun _ => rfl) text

end Utf8

end ApiDoc
