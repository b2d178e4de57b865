import ApiDoc.Element
import ApiDoc.Comment
import ApiDoc.Proofs.Text.Lines
import ApiDoc.Proofs.Text.Trimming

/-!
The tags of a text.

No tag reaches past its line, so the tags of a text are those of its lines, one after another. What a
tag says is trimmed and stands on one line of the text.
-/

namespace ApiDoc

theorem takeWhile_append_stop {α : Type} {p : α → Bool} {stop : α} (stops : p stop = false)
    (first rest : List α) : (first ++ stop :: rest).takeWhile p = first.takeWhile p := by
  induction first with
  | nil => simp [stops]
  | cons item first ih =>
      by_cases kept : p item = true
      · simp [kept, ih]
      · simp [kept]

theorem dropWhile_append_stop {α : Type} {p : α → Bool} {stop : α} (stops : p stop = false)
    (first rest : List α) :
    (first ++ stop :: rest).dropWhile p = first.dropWhile p ++ stop :: rest := by
  induction first with
  | nil => simp [stops]
  | cons item first ih =>
      by_cases kept : p item = true
      · simp [kept, ih]
      · simp [kept]

section Congruence

variable {α : Type} {p q : α → Bool} {items : List α} (same : ∀ item ∈ items, p item = q item)

include same

theorem takeWhile_congr : items.takeWhile p = items.takeWhile q := by
  induction items with
  | nil => rfl
  | cons item items ih =>
      obtain ⟨here, later⟩ := List.forall_mem_cons.mp same
      rw [List.takeWhile_cons, List.takeWhile_cons, here, ih later]

theorem dropWhile_congr : items.dropWhile p = items.dropWhile q := by
  induction items with
  | nil => rfl
  | cons item items ih =>
      obtain ⟨here, later⟩ := List.forall_mem_cons.mp same
      rw [List.dropWhile_cons, List.dropWhile_cons, here, ih later]

end Congruence

namespace Tag

theorem scan_nil : scan [] = [] := by
  rw [scan]

theorem scan_at_of_some {rest after : Text} {tag : Tag} (found : read? rest = some (tag, after)) :
    scan ('@' :: rest) = tag :: scan after := by
  rw [scan]
  split
  · simp_all
  · simp_all

theorem scan_at_of_none {rest : Text} (missing : read? rest = none) :
    scan ('@' :: rest) = scan rest := by
  rw [scan]
  split
  · simp_all
  · rfl

theorem scan_cons_of_ne {char : Char} (other : char ≠ '@') (rest : Text) :
    scan (char :: rest) = scan rest := by
  rw [scan]
  exact other

theorem read?_eq_some_iff {text rest : Text} {tag : Tag} :
    read? text = some (tag, rest) ↔ text.takeWhile inName ≠ [] ∧
      tag = ⟨Text.trim (text.takeWhile inName),
        Text.trim ((text.dropWhile inName).takeWhile inValue)⟩ ∧
      rest = (text.dropWhile inName).dropWhile inValue := by
  rw [read?]
  split
  · next empty => simp [empty]
  · next nonempty =>
      simp only [Option.some.injEq, Prod.mk.injEq]
      constructor
      · rintro ⟨rfl, rfl⟩
        exact ⟨nonempty, rfl, rfl⟩
      · rintro ⟨_, rfl, rfl⟩
        exact ⟨rfl, rfl⟩

theorem read?_eq_none_iff {text : Text} : read? text = none ↔ text.takeWhile inName = [] := by
  rw [read?]
  split
  · next empty => simp [empty]
  · next nonempty =>
      simp only [reduceCtorEq, false_iff]
      exact nonempty

theorem scan_at_of_single {rest : Text} (single : '\n' ∉ rest) (named : rest.takeWhile inName ≠ []) :
    scan ('@' :: rest) =
      [⟨Text.trim (rest.takeWhile inName), Text.trim (rest.dropWhile inName)⟩] := by
  have line : ∀ char ∈ rest.dropWhile inName, inValue char := by
    intro char member
    have inside := (List.dropWhile_suffix inName).subset member
    simpa [inValue] using ne_of_mem_of_not_mem inside single
  have found : read? rest =
      some (⟨Text.trim (rest.takeWhile inName), Text.trim (rest.dropWhile inName)⟩, []) := by
    rw [read?_eq_some_iff, List.takeWhile_eq_self_iff.mpr line, List.dropWhile_eq_nil_iff.mpr line]
    exact ⟨named, rfl, rfl⟩
  rw [scan_at_of_some found, scan_nil]

theorem read?_append_newline (first second : Text) :
    read? (first ++ '\n' :: second) =
      (read? first).map fun (tag, rest) => (tag, rest ++ '\n' :: second) := by
  have stopsName : inName '\n' = false := by decide
  have stopsValue : inValue '\n' = false := by decide
  cases found : read? first with
  | none =>
      rw [read?_eq_none_iff] at found
      rw [Option.map_none, read?_eq_none_iff, takeWhile_append_stop stopsName, found]
  | some result =>
      obtain ⟨tag, rest⟩ := result
      obtain ⟨nonempty, rfl, rfl⟩ := read?_eq_some_iff.mp found
      rw [Option.map_some, read?_eq_some_iff, takeWhile_append_stop stopsName,
        dropWhile_append_stop stopsName, takeWhile_append_stop stopsValue,
        dropWhile_append_stop stopsValue]
      exact ⟨nonempty, rfl, rfl⟩

theorem scan_append_newline (first second : Text) :
    scan (first ++ '\n' :: second) = scan first ++ scan second := by
  induction first using scan.induct with
  | case1 =>
      rw [List.nil_append, scan_cons_of_ne (by decide), scan_nil, List.nil_append]
  | case2 rest tag after found ih =>
      have longer : read? (rest ++ '\n' :: second) = some (tag, after ++ '\n' :: second) := by
        rw [read?_append_newline, found, Option.map_some]
      rw [List.cons_append, scan_at_of_some longer, ih, scan_at_of_some found, List.cons_append]
  | case3 rest missing ih =>
      have longer : read? (rest ++ '\n' :: second) = none := by
        rw [read?_append_newline, missing, Option.map_none]
      rw [List.cons_append, scan_at_of_none longer, ih, scan_at_of_none missing]
  | case4 char rest other ih =>
      rw [List.cons_append, scan_cons_of_ne other, ih, scan_cons_of_ne other]

theorem scan_unlines (lines : List Text) : scan (.unlines lines) = lines.flatMap scan := by
  induction lines with
  | nil => simp [Text.unlines, scan_nil]
  | cons first rest ih =>
      by_cases last : rest = []
      · subst last
        simp [Text.unlines]
      · rw [Text.unlines_cons_of_ne_nil first last, scan_append_newline, ih, List.flatMap_cons]

theorem scan_append_of_notMem {before : Text} (free : '@' ∉ before) (rest : Text) :
    scan (before ++ rest) = scan rest := by
  induction before with
  | nil => rfl
  | cons char before ih =>
      obtain ⟨other, free⟩ := List.ne_and_not_mem_of_not_mem_cons free
      rw [List.cons_append, scan_cons_of_ne other.symm, ih free]

theorem scan_of_notMem {text : Text} (free : '@' ∉ text) : scan text = [] := by
  rw [← List.append_nil text, scan_append_of_notMem free, scan_nil]

theorem scan_name {name : Text} (nonempty : name ≠ []) (inside : ∀ char ∈ name, inName char) :
    scan ('@' :: name) = [⟨Text.trim name, []⟩] := by
  have taken : name.takeWhile inName = name := List.takeWhile_eq_self_iff.mpr inside
  have dropped : name.dropWhile inName = [] := List.dropWhile_eq_nil_iff.mpr inside
  have found : read? name = some (⟨Text.trim name, []⟩, []) := by
    rw [read?_eq_some_iff, taken, dropped]
    exact ⟨nonempty, rfl, rfl⟩
  rw [scan_at_of_some found, scan_nil]

theorem scan_name_value {name value : Text} (nonempty : name ≠ [])
    (inside : ∀ char ∈ name, inName char) (single : '\n' ∉ value) :
    scan ('@' :: name ++ ' ' :: value) = [⟨Text.trim name, Text.trim value⟩] := by
  have stops : inName ' ' = false := by decide
  have line : ∀ char ∈ ' ' :: value, inValue char := by
    intro char member
    rcases List.mem_cons.mp member with rfl | later
    · decide
    · simpa [inValue] using ne_of_mem_of_not_mem later single
  have taken : (name ++ ' ' :: value).takeWhile inName = name := by
    rw [takeWhile_append_stop stops, List.takeWhile_eq_self_iff.mpr inside]
  have dropped : (name ++ ' ' :: value).dropWhile inName = ' ' :: value := by
    rw [dropWhile_append_stop stops, List.dropWhile_eq_nil_iff.mpr inside, List.nil_append]
  have spaced : Text.trim ([' '] ++ value) = Text.trim value :=
    Text.trim_append_of_blank (by decide)
  rw [List.singleton_append] at spaced
  have found : read? (name ++ ' ' :: value) = some (⟨Text.trim name, Text.trim value⟩, []) := by
    rw [read?_eq_some_iff, taken, dropped, List.takeWhile_eq_self_iff.mpr line,
      List.dropWhile_eq_nil_iff.mpr line, spaced]
    exact ⟨nonempty, rfl, rfl⟩
  rw [List.cons_append, scan_at_of_some found, scan_nil]

def spelled (tag : Tag) : Text :=
  '@' :: tag.name ++ ' ' :: tag.value

def ValidName (name : Text) : Prop :=
  name ≠ [] ∧ (∀ char ∈ name, inName char) ∧ name.Trimmed

instance (name : Text) : Decidable (ValidName name) :=
  inferInstanceAs (Decidable (name ≠ [] ∧ (∀ char ∈ name, inName char) ∧ name.Trimmed))

structure Writable (tag : Tag) : Prop where
  name_valid : ValidName tag.name
  value_trimmed : tag.value.Trimmed
  value_inline : tag.value.Inline

/-- A tag is read off the line on which it is written. Trimming the line takes away the space behind
the name when the value is empty, which leaves the tag as it is. -/
theorem Writable.scan_trim_spelled {tag : Tag} (writable : tag.Writable) :
    scan tag.spelled.trim = [tag] := by
  obtain ⟨nonempty, inside, trimmed⟩ := writable.name_valid
  have single : '\n' ∉ tag.value := writable.value_inline.1
  have framed : Text.Trimmed ('@' :: tag.name) :=
    Text.trimmed_append_append (by simp) nonempty (show Text.Trimmed ['@'] by decide) trimmed []
  by_cases empty : tag.value = []
  · have bare : Text.trim ('@' :: tag.name ++ [' ']) = '@' :: tag.name := by
      rw [Text.trim_append_of_blank_behind (by decide)]
      exact framed
    rw [spelled, empty, bare, scan_name nonempty inside, trimmed, ← empty]
  · have whole : Text.Trimmed ('@' :: tag.name ++ ' ' :: tag.value) := by
      simpa using Text.trimmed_append_append (List.cons_ne_nil '@' tag.name) empty framed
        writable.value_trimmed [' ']
    rw [spelled, whole, scan_name_value nonempty inside single, trimmed, writable.value_trimmed]

theorem value_of_mem_scan {text : Text} {tag : Tag} (member : tag ∈ scan text) :
    Text.Trimmed tag.value ∧ '\n' ∉ tag.value ∧ tag.value <:+: text := by
  induction text using scan.induct with
  | case1 =>
      rw [scan_nil] at member
      simp at member
  | case2 rest first after found ih =>
      obtain ⟨_, rfl, rfl⟩ := read?_eq_some_iff.mp found
      rw [scan_at_of_some found] at member
      have behind : rest.dropWhile inName <:+: '@' :: rest :=
        ((List.dropWhile_suffix inName).trans (List.suffix_cons '@' rest)).isInfix
      rcases List.mem_cons.mp member with rfl | later
      · have line := Text.trim_isInfix ((rest.dropWhile inName).takeWhile inValue)
        refine ⟨Text.trimmed_trim _, ?_, ?_⟩
        · intro inside
          have kept := List.mem_takeWhile_imp (line.subset inside)
          simp [inValue] at kept
        · exact (line.trans (List.takeWhile_prefix inValue).isInfix).trans behind
      · obtain ⟨trimmed, single, part⟩ := ih later
        exact ⟨trimmed, single,
          (part.trans (List.dropWhile_suffix inValue).isInfix).trans behind⟩
  | case3 rest missing ih =>
      rw [scan_at_of_none missing] at member
      obtain ⟨trimmed, single, part⟩ := ih member
      exact ⟨trimmed, single, List.infix_cons part⟩
  | case4 char rest other ih =>
      rw [scan_cons_of_ne other] at member
      obtain ⟨trimmed, single, part⟩ := ih member
      exact ⟨trimmed, single, List.infix_cons part⟩

end Tag

end ApiDoc
