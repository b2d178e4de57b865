import ApiDoc.Json.Reader

/-!
Strings are read back from their quotes.

Every character is written as itself or as an escape, and either is read as that character whatever
follows it. No escape begins with a quote, so a string ends at the quote that was written to end it.
-/

namespace ApiDoc

namespace Json

theorem hexValue?_hexDigit {digit : Nat} (bound : digit < 16) :
    hexValue? (hexDigit digit) = some digit := by
  have all : ∀ digit < 16, hexValue? (hexDigit digit) = some digit := by decide
  exact all digit bound

theorem escape_cases (char : Char) :
    (∃ letter ∈ "\"\\bfnrt".toList, unescape? letter = some char ∧ escape char = ['\\', letter]) ∨
      (char.toNat < 0x20 ∧ escape char = ['\\', 'u', '0', '0', hexDigit (char.toNat / 16),
        hexDigit (char.toNat % 16)]) ∨
      (char ≠ '"' ∧ char ≠ '\\' ∧ ¬ char.toNat < 0x20 ∧ escape char = [char]) := by
  by_cases short : char ∈ "\"\\\x08\x0c\n\r\t".toList
  · simp only [String.reduceToList, List.mem_cons, List.not_mem_nil, or_false] at short
    refine Or.inl ?_
    rcases short with rfl | rfl | rfl | rfl | rfl | rfl | rfl
    · exact ⟨'"', by decide, rfl, rfl⟩
    · exact ⟨'\\', by decide, rfl, rfl⟩
    · exact ⟨'b', by decide, rfl, rfl⟩
    · exact ⟨'f', by decide, rfl, rfl⟩
    · exact ⟨'n', by decide, rfl, rfl⟩
    · exact ⟨'r', by decide, rfl, rfl⟩
    · exact ⟨'t', by decide, rfl, rfl⟩
  · have others : char ≠ '"' ∧ char ≠ '\\' ∧ char ≠ '\x08' ∧ char ≠ '\x0c' ∧ char ≠ '\n' ∧
        char ≠ '\r' ∧ char ≠ '\t' := by
      simpa using short
    by_cases control : char.toNat < 0x20
    · refine Or.inr (Or.inl ⟨control, ?_⟩)
      simp [escape, others, control]
    · refine Or.inr (Or.inr ⟨others.1, others.2.1, control, ?_⟩)
      simp [escape, others, control]

theorem content?_letter {letter char : Char} (known : unescape? letter = some char) (rest : Text) :
    content? ('\\' :: letter :: rest) =
      (content? rest).map fun (content, rest) => (char :: content, rest) := by
  have other : letter ≠ 'u' := by
    rintro rfl
    contradiction
  rw [content?, known]
  exact fun _ _ _ _ _ same _ => other same

theorem content?_unit {a b c d : Char} {unit : Nat} (known : unit? a b c d = some unit)
    (small : unit < 0xD800) (rest : Text) :
    content? ('\\' :: 'u' :: a :: b :: c :: d :: rest) =
      (content? rest).map fun (content, rest) => (Char.ofNat unit :: content, rest) := by
  rw [content?, known]
  simp only
  rw [if_neg (by omega), if_neg (by omega)]

theorem content?_plain {char : Char} (notQuote : char ≠ '"') (notBackslash : char ≠ '\\')
    (visible : ¬ char.toNat < 0x20) (rest : Text) :
    content? (char :: rest) =
      (content? rest).map fun (content, rest) => (char :: content, rest) := by
  rw [content?, if_neg (not_or.mpr ⟨visible, notBackslash⟩)]
  · exact notQuote
  · exact fun _ _ _ _ _ same _ => notBackslash same
  · exact fun _ _ same _ => notBackslash same

theorem content?_escape (char : Char) (rest : Text) :
    content? (escape char ++ rest) =
      (content? rest).map fun (content, rest) => (char :: content, rest) := by
  rcases escape_cases char with ⟨letter, _, known, written⟩ | ⟨control, written⟩ |
    ⟨notQuote, notBackslash, visible, written⟩
  · rw [written]
    exact content?_letter known rest
  · have high := hexValue?_hexDigit (show char.toNat / 16 < 16 by omega)
    have low := hexValue?_hexDigit (show char.toNat % 16 < 16 by omega)
    have zero : hexValue? '0' = some 0 := by decide
    have known : unit? '0' '0' (hexDigit (char.toNat / 16)) (hexDigit (char.toNat % 16)) =
        some char.toNat := by
      have whole : char.toNat / 16 * 16 + char.toNat % 16 = char.toNat := by omega
      simp [unit?, zero, high, low, whole]
    have read := content?_unit known (by omega) rest
    rw [Char.ofNat_toNat] at read
    rw [written]
    exact read
  · rw [written]
    exact content?_plain notQuote notBackslash visible rest

theorem content?_flatMap_escape (content rest : Text) :
    content? (content.flatMap escape ++ '"' :: rest) = some (content, rest) := by
  induction content with
  | nil => exact content?.eq_2 rest
  | cons char content ih =>
      rw [List.flatMap_cons, List.append_assoc, content?_escape, ih]
      rfl

end Json

end ApiDoc
