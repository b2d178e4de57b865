import ApiDoc.Text
import Mathlib.Data.List.TakeWhile

/-!
What trimming removes, and what it leaves.

A text is trimmed when no blank character stands at either of its ends. Trimming any text gives a
trimmed part of it, and blanks that are put around a text make no difference to the result.
-/

namespace ApiDoc

namespace Text

theorem trimStart_isSuffix (text : Text) : trimStart text <:+ text :=
  List.dropWhile_suffix isBlank

theorem trimEnd_isPrefix (text : Text) : trimEnd text <+: text := by
  rw [trimEnd, ← List.reverse_suffix, List.reverse_reverse]
  exact List.dropWhile_suffix isBlank

theorem trim_isInfix (text : Text) : trim text <:+: text :=
  (trimEnd_isPrefix (trimStart text)).isInfix.trans (trimStart_isSuffix text).isInfix

theorem trimStart_eq_self_iff {text : Text} :
    trimStart text = text ↔ ∀ char ∈ text.head?, ¬ isBlank char := by
  rw [trimStart]
  cases text with
  | nil => simp
  | cons first rest =>
      constructor
      · intro kept char isFirst blank
        simp only [List.head?_cons, Option.mem_some] at isFirst
        subst char
        rw [List.dropWhile_cons_of_pos blank] at kept
        have shorter := (List.dropWhile_suffix (l := rest) isBlank).length_le
        rw [kept, List.length_cons] at shorter
        omega
      · intro visible
        exact List.dropWhile_cons_of_neg (visible first (by simp))

theorem trimEnd_eq_self_iff {text : Text} :
    trimEnd text = text ↔ ∀ char ∈ text.getLast?, ¬ isBlank char := by
  rw [trimEnd, List.reverse_eq_iff, ← List.head?_reverse]
  exact trimStart_eq_self_iff

theorem trimmed_iff {text : Text} : Trimmed text ↔
    (∀ char ∈ text.head?, ¬ isBlank char) ∧ (∀ char ∈ text.getLast?, ¬ isBlank char) := by
  rw [← trimStart_eq_self_iff, ← trimEnd_eq_self_iff]
  constructor
  · intro trimmed
    have whole : trimEnd (trimStart text) = text := trimmed
    have inside := (trimEnd_isPrefix (trimStart text)).length_le
    rw [whole] at inside
    have started : trimStart text = text := (trimStart_isSuffix text).eq_of_length_le inside
    exact ⟨started, by rwa [started] at whole⟩
  · rintro ⟨started, ended⟩
    rw [Trimmed, trim, started, ended]

theorem trimmed_trim (text : Text) : Trimmed (trim text) := by
  rw [trimmed_iff]
  constructor
  · intro char isFirst
    have start : char ∈ (trimStart text).head? := by
      obtain ⟨rest, same⟩ := trimEnd_isPrefix (trimStart text)
      rw [← same, List.head?_append]
      simp only [Option.mem_def] at isFirst ⊢
      rw [show (trimEnd (trimStart text)).head? = some char from isFirst, Option.some_or]
    have visible := List.head?_dropWhile_not isBlank text
    simp only [Option.mem_def] at start
    rw [show (text.dropWhile isBlank).head? = some char from start] at visible
    simpa using visible
  · intro char isLast
    have visible := List.head?_dropWhile_not isBlank (trimStart text).reverse
    rw [trim, trimEnd, List.getLast?_reverse] at isLast
    simp only [Option.mem_def] at isLast
    rw [isLast] at visible
    simpa using visible

theorem trimmed_nil : Trimmed [] := rfl

theorem trim_eq_nil_of_blank {text : Text} (blank : ∀ char ∈ text, isBlank char) :
    trim text = [] := by
  have gone : trimStart text = [] := List.dropWhile_eq_nil_iff.mpr blank
  rw [trim, gone]
  rfl

theorem trim_append_append {before content behind : Text}
    (before_blank : ∀ char ∈ before, isBlank char)
    (behind_blank : ∀ char ∈ behind, isBlank char) :
    trim (before ++ content ++ behind) = trim content := by
  have start : trimStart (before ++ content ++ behind) = trimStart (content ++ behind) := by
    rw [List.append_assoc]
    exact List.dropWhile_append_of_pos before_blank
  have ending : ∀ text, trimEnd (text ++ behind) = trimEnd text := by
    intro text
    rw [trimEnd, List.reverse_append, List.dropWhile_append_of_pos, trimEnd]
    exact fun char member => behind_blank char (List.mem_reverse.mp member)
  rw [trim, start, trim]
  by_cases empty : trimStart content = []
  · have blank : ∀ char ∈ content ++ behind, isBlank char := by
      intro char member
      rcases List.mem_append.mp member with inside | outside
      · exact List.dropWhile_eq_nil_iff.mp empty char inside
      · exact behind_blank char outside
    have gone : trimStart (content ++ behind) = [] := List.dropWhile_eq_nil_iff.mpr blank
    rw [gone, empty]
  · have kept : trimStart (content ++ behind) = trimStart content ++ behind := by
      rw [trimStart, List.dropWhile_append, if_neg (by simpa [trimStart] using empty), trimStart]
    rw [kept, ending]

theorem trim_append_of_blank {before content : Text} (blank : ∀ char ∈ before, isBlank char) :
    trim (before ++ content) = trim content := by
  have around : trim (before ++ content ++ []) = trim content :=
    trim_append_append blank (by simp)
  rwa [List.append_nil] at around

theorem trim_append_of_blank_behind {content behind : Text}
    (blank : ∀ char ∈ behind, isBlank char) : trim (content ++ behind) = trim content := by
  have around : trim ([] ++ content ++ behind) = trim content :=
    trim_append_append (by simp) blank
  rwa [List.nil_append] at around

theorem exists_eq_trimEnd_append (text : Text) :
    ∃ behind, (∀ char ∈ behind, isBlank char) ∧ text = trimEnd text ++ behind := by
  refine ⟨(text.reverse.takeWhile isBlank).reverse, ?_, ?_⟩
  · exact fun char member => List.mem_takeWhile_imp (List.mem_reverse.mp member)
  · rw [trimEnd, ← List.reverse_append, List.takeWhile_append_dropWhile, List.reverse_reverse]

theorem exists_eq_append_trim_append (text : Text) :
    ∃ before behind, (∀ char ∈ before, isBlank char) ∧ (∀ char ∈ behind, isBlank char) ∧
      text = before ++ trim text ++ behind := by
  obtain ⟨behind, blank, ended⟩ := exists_eq_trimEnd_append (trimStart text)
  refine ⟨text.takeWhile isBlank, behind, fun char => List.mem_takeWhile_imp, blank, ?_⟩
  rw [trim, List.append_assoc, ← ended]
  exact List.takeWhile_append_dropWhile.symm

theorem trim_trimEnd (text : Text) : trim (trimEnd text) = trim text := by
  obtain ⟨behind, blank, whole⟩ := exists_eq_trimEnd_append text
  calc trim (trimEnd text) = trim (trimEnd text ++ behind) :=
      (trim_append_of_blank_behind blank).symm
    _ = trim text := by rw [← whole]

theorem trim_cons_of_visible {char : Char} (visible : ¬ isBlank char) (rest : Text) :
    trim (char :: rest) = char :: trimEnd rest := by
  have started : trimStart (char :: rest) = char :: rest := List.dropWhile_cons_of_neg visible
  rw [trim, started, trimEnd, List.reverse_cons, List.dropWhile_append, trimEnd]
  split
  · next empty =>
      rw [List.isEmpty_iff.mp empty, List.dropWhile_cons_of_neg visible]
      rfl
  · simp

theorem trimmed_append_append {first last : Text} (first_ne_nil : first ≠ [])
    (last_ne_nil : last ≠ []) (first_trimmed : Trimmed first) (last_trimmed : Trimmed last)
    (between : Text) : Trimmed (first ++ between ++ last) := by
  rw [trimmed_iff] at first_trimmed last_trimmed ⊢
  constructor
  · obtain ⟨char, rest, rfl⟩ := List.exists_cons_of_ne_nil first_ne_nil
    exact first_trimmed.1
  · rw [List.getLast?_append, List.getLast?_eq_some_getLast last_ne_nil, Option.some_or,
      ← List.getLast?_eq_some_getLast last_ne_nil]
    exact last_trimmed.2

theorem Trimmed.map {text : Text} (trimmed : Trimmed text) {replace : Char → Char}
    (same : ∀ char, isBlank (replace char) = isBlank char) : Trimmed (text.map replace) := by
  rw [trimmed_iff] at trimmed ⊢
  simp only [List.head?_map, List.getLast?_map, Option.mem_def, Option.map_eq_some_iff]
  constructor
  · rintro char ⟨original, isFirst, rfl⟩
    rw [same]
    exact trimmed.1 original isFirst
  · rintro char ⟨original, isLast, rfl⟩
    rw [same]
    exact trimmed.2 original isLast

end Text

end ApiDoc
