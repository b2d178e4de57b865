/-!
Text and bytes.

Everything this library computes, it computes on lists: a text is the list of its characters and a
file the list of its bytes. `String` appears only where text enters or leaves the program. A text is
cut at markers, divided into lines, and trimmed of the characters to which Unicode gives the property
`White_Space`.
-/

namespace ApiDoc

abbrev Text := List Char

abbrev Bytes := List UInt8

namespace Text

/-- What holds of every character of a text is checked along the text, and not over all characters. -/
instance (priority := high) (text : Text) (p : Char → Prop) [DecidablePred p] :
    Decidable (∀ char ∈ text, p char) :=
  List.decidableBAll p text

/-- The lines of a text. A line ends at a line feed and at nothing else, so a carriage return stays
part of its line, and a text with `n` line feeds has `n + 1` lines. -/
def lines (text : Text) : List Text :=
  text.splitOn '\n'

def unlines (lines : List Text) : Text :=
  ['\n'].intercalate lines

@[simp] theorem unlines_lines (text : Text) : unlines text.lines = text :=
  List.intercalate_splitOn '\n'

theorem lines_unlines {lines : List Text} (nonempty : lines ≠ [])
    (whole : ∀ line ∈ lines, '\n' ∉ line) : (unlines lines).lines = lines :=
  List.splitOn_intercalate '\n' whole nonempty

theorem lines_ne_nil (text : Text) : text.lines ≠ [] :=
  List.splitOn_ne_nil '\n' text

theorem lines_append_newline (first rest : Text) :
    (first ++ '\n' :: rest).lines = first.lines ++ rest.lines :=
  List.splitOn_append_cons_self first rest

theorem lines_eq_singleton {text : Text} (single : '\n' ∉ text) : text.lines = [text] :=
  List.splitOn_eq_singleton single

end Text

section Cut

variable {α : Type} [DecidableEq α]

def after? : List α → List α → Option (List α)
  | [], items => some items
  | _ :: _, [] => none
  | first :: marker, item :: items => if first = item then after? marker items else none

theorem after?_eq_some_iff {marker items rest : List α} :
    after? marker items = some rest ↔ items = marker ++ rest := by
  induction marker generalizing items with
  | nil => simp [after?, eq_comm]
  | cons first marker ih =>
      cases items with
      | nil => simp [after?]
      | cons item items =>
          by_cases same : first = item
          · simp [after?, same, ih]
          · simp [after?, same, Ne.symm same]

/-- Cut a sequence at the first occurrence of a marker: what stands before it and what follows it. -/
def cutAt? (marker : List α) : List α → Option (List α × List α)
  | [] => (after? marker []).map fun rest => ([], rest)
  | item :: items =>
      match after? marker (item :: items) with
      | some rest => some ([], rest)
      | none => (cutAt? marker items).map fun (before, rest) => (item :: before, rest)

theorem eq_append_of_cutAt? {marker items before rest : List α}
    (found : cutAt? marker items = some (before, rest)) : items = before ++ marker ++ rest := by
  induction items generalizing before with
  | nil =>
      simp only [cutAt?, Option.map_eq_some_iff, Prod.mk.injEq] at found
      obtain ⟨after, matched, rfl, rfl⟩ := found
      simpa using after?_eq_some_iff.mp matched
  | cons item items ih =>
      simp only [cutAt?] at found
      split at found
      · next after matched =>
          simp only [Option.some.injEq, Prod.mk.injEq] at found
          obtain ⟨rfl, rfl⟩ := found
          simpa using after?_eq_some_iff.mp matched
      · simp only [Option.map_eq_some_iff, Prod.mk.injEq, Prod.exists] at found
        obtain ⟨start, after, matched, rfl, rfl⟩ := found
        simp [ih matched]

theorem length_of_cutAt? {marker items before rest : List α}
    (found : cutAt? marker items = some (before, rest)) :
    items.length = before.length + marker.length + rest.length := by
  simp [eq_append_of_cutAt? found, Nat.add_assoc]

end Cut

namespace Text

abbrev Ranges := List (Nat × Nat)

namespace Ranges

def holds (ranges : Ranges) (char : Char) : Bool :=
  ranges.any fun range => decide (range.1 ≤ char.toNat ∧ char.toNat ≤ range.2)

def ascending : Ranges → Bool
  | [] => true
  | [range] => decide (range.1 ≤ range.2)
  | range :: next :: rest =>
      decide (range.1 ≤ range.2 ∧ range.2 + 1 < next.1) && ascending (next :: rest)

def size : Ranges → Nat
  | [] => 0
  | range :: rest => range.2 + 1 - range.1 + size rest

end Ranges

def blankRanges : Ranges :=
  [(0x0009, 0x000D), (0x0020, 0x0020), (0x0085, 0x0085), (0x00A0, 0x00A0), (0x1680, 0x1680),
    (0x2000, 0x200A), (0x2028, 0x2029), (0x202F, 0x202F), (0x205F, 0x205F), (0x3000, 0x3000)]

def isBlank (char : Char) : Bool :=
  blankRanges.holds char

def trimStart (text : Text) : Text :=
  text.dropWhile isBlank

def trimEnd (text : Text) : Text :=
  (text.reverse.dropWhile isBlank).reverse

def trim (text : Text) : Text :=
  text.trimStart.trimEnd

def Trimmed (text : Text) : Prop :=
  text.trim = text

instance (text : Text) : Decidable text.Trimmed :=
  inferInstanceAs (Decidable (text.trim = text))

example : blankRanges.ascending ∧ blankRanges.size = 25 := by decide

example : isBlank ' ' ∧ isBlank '\n' ∧ isBlank '\r' ∧ isBlank '\t' := by decide

end Text

end ApiDoc
