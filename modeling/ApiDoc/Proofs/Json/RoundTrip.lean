import ApiDoc.Proofs.Json.Strings
import ApiDoc.Proofs.Text.Utf8

/-!
Values are read back from their lines.

A value that holds no number ends where its text ends, so it is read back whatever follows. The items of
a list and the members of an object follow one another in the same way, each on its line, and the reader
needs no more depth than the text is long.
-/

namespace ApiDoc

namespace Json

inductive Numberless : Json → Prop
  | null : Numberless .null
  | bool (value : Bool) : Numberless (.bool value)
  | string (content : Text) : Numberless (.string content)
  | array {items : List Json} : (∀ item ∈ items, Numberless item) → Numberless (.array items)
  | object {members : List (Text × Json)} : (∀ member ∈ members, Numberless member.2) →
      Numberless (.object members)

def behindPart (closing : Char) (level : Nat) : List Text → Text
  | [] => newline level ++ [closing]
  | part :: rest => ',' :: newline (level + 1) ++ part ++ behindPart closing level rest

theorem enclose_cons (opening closing : Char) (level : Nat) (part : Text) (rest : List Text) :
    enclose opening closing level (part :: rest) =
      opening :: newline (level + 1) ++ part ++ behindPart closing level rest := by
  induction rest generalizing part with
  | nil => simp [enclose, behindPart]
  | cons second rest ih =>
      have later := ih second
      simp only [enclose, List.map_cons, List.cons_append, List.append_assoc,
        List.cons.injEq, true_and] at later ⊢
      rw [List.intercalate_cons_of_ne_nil (List.cons_ne_nil _ _), behindPart]
      simp only [List.append_assoc, List.cons_append, List.nil_append]
      rw [later]

theorem length_newline (level : Nat) : (newline level).length = 2 * level + 1 := by
  simp [newline]

theorem skip_newline_append (level : Nat) (text : Text) :
    skip (newline level ++ text) = skip text := by
  have spaces : ∀ char ∈ newline level, isSpace char = true := by
    intro char member
    rcases List.mem_cons.mp member with rfl | space
    · decide
    · rw [List.eq_of_mem_replicate space]
      decide
  exact List.dropWhile_append_of_pos spaces

theorem skip_cons {char : Char} (visible : ¬ isSpace char) (rest : Text) :
    skip (char :: rest) = char :: rest :=
  List.dropWhile_cons_of_neg visible

section BehindPart

variable (closing : Char) (level : Nat) (part : Text) (parts : List Text)

theorem length_behindPart_nil : (behindPart closing level []).length = 2 * level + 2 := by
  rw [behindPart, List.length_append, length_newline, List.length_singleton]

theorem length_behindPart_cons : (behindPart closing level (part :: parts)).length =
    2 * (level + 1) + 2 + part.length + (behindPart closing level parts).length := by
  rw [behindPart, List.length_append, List.length_append, List.length_cons, length_newline]

theorem skip_behindPart_nil {closing : Char} (visible : ¬ isSpace closing) (rest : Text) :
    skip (behindPart closing level [] ++ rest) = closing :: rest := by
  rw [behindPart, List.append_assoc, skip_newline_append]
  exact skip_cons visible rest

theorem skip_behindPart_cons (rest : Text) :
    skip (behindPart closing level (part :: parts) ++ rest) =
      ',' :: (newline (level + 1) ++ (part ++ (behindPart closing level parts ++ rest))) := by
  rw [behindPart, List.append_assoc, List.append_assoc]
  exact skip_cons (by decide) _

end BehindPart

theorem exists_enclose_eq_cons (opening closing : Char) (level : Nat) (parts : List Text) :
    ∃ rest, enclose opening closing level parts = opening :: rest := by
  cases parts with
  | nil => exact ⟨[closing], rfl⟩
  | cons part parts => exact ⟨_, rfl⟩

theorem Numberless.render_eq_cons {value : Json} (numberless : value.Numberless) (level : Nat) :
    ∃ char rest, value.render level = char :: rest ∧ ¬ isSpace char ∧ char ≠ ']' := by
  cases numberless with
  | null => exact ⟨'n', "ull".toList, by unfold render; decide, by decide, by decide⟩
  | bool value =>
      cases value
      · exact ⟨'f', "alse".toList, by unfold render; decide, by decide, by decide⟩
      · exact ⟨'t', "rue".toList, by unfold render; decide, by decide, by decide⟩
  | string content =>
      exact ⟨'"', content.flatMap escape ++ ['"'], by simp [render, quote], by decide, by decide⟩
  | @array items _ =>
      obtain ⟨rest, shape⟩ := exists_enclose_eq_cons '[' ']' level (renderItems (level + 1) items)
      exact ⟨'[', rest, by rw [render, shape], by decide, by decide⟩
  | @object members _ =>
      obtain ⟨rest, shape⟩ :=
        exists_enclose_eq_cons '{' '}' level (renderMembers (level + 1) members)
      exact ⟨'{', rest, by rw [render, shape], by decide, by decide⟩

theorem Numberless.skip_render_append {value : Json} (numberless : value.Numberless) (level : Nat)
    (rest : Text) : skip (value.render level ++ rest) = value.render level ++ rest := by
  obtain ⟨char, more, shape, visible, _⟩ := numberless.render_eq_cons level
  rw [shape, List.cons_append, skip_cons visible]

/-- Whether a value is read back from its text, whatever follows it and whatever depth is allowed from the
length of the text on. -/
def Reads (value : Json) : Prop :=
  ∀ level depth rest, (value.render level).length ≤ depth →
    value? depth (value.render level ++ rest) = some (value, rest)

def renderMember (level : Nat) (member : Text × Json) : Text :=
  quote member.1 ++ ": ".toList ++ member.2.render level

theorem renderMembers_cons (level : Nat) (member : Text × Json) (rest : List (Text × Json)) :
    renderMembers level (member :: rest) = renderMember level member :: renderMembers level rest :=
  rfl

theorem renderItems_eq_map (level : Nat) (items : List Json) :
    renderItems level items = items.map (render level) := by
  induction items with
  | nil => rfl
  | cons item items ih => rw [renderItems, ih, List.map_cons]

theorem renderMembers_eq_map (level : Nat) (members : List (Text × Json)) :
    renderMembers level members = members.map (renderMember level) := by
  induction members with
  | nil => rfl
  | cons member members ih => rw [renderMembers_cons, ih, List.map_cons]

section Lists

variable {level depth : Nat}

section Item

variable {item : Json} {others : List Json} {tail rest behind : Text} (reads : item.Reads)
  (enough : (item.render level).length ≤ depth)

include reads enough

theorem items?_last (closed : skip tail = ']' :: rest) :
    items? (depth + 1) (item.render level ++ tail) = some ([item], rest) := by
  rw [items?, reads level depth tail enough]
  simp only [closed]

theorem items?_more (goes_on : skip tail = ',' :: behind)
    (later : items? depth (skip behind) = some (others, rest)) :
    items? (depth + 1) (item.render level ++ tail) = some (item :: others, rest) := by
  rw [items?, reads level depth tail enough]
  simp only [goes_on, later, Option.map_some]

end Item

theorem items?_renderItems (level depth : Nat) {first : Json} {others : List Json} (rest : Text)
    (numberless : ∀ item ∈ first :: others, item.Numberless)
    (reads : ∀ item ∈ first :: others, item.Reads)
    (enough : (first.render (level + 1)).length +
      (behindPart ']' level (renderItems (level + 1) others)).length ≤ depth) :
    items? depth (first.render (level + 1) ++
      (behindPart ']' level (renderItems (level + 1) others) ++ rest)) =
        some (first :: others, rest) := by
  induction others generalizing first depth with
  | nil =>
      have first_reads := List.forall_mem_singleton.mp reads
      rw [renderItems] at enough ⊢
      rw [length_behindPart_nil] at enough
      obtain ⟨depth, rfl⟩ := Nat.exists_eq_add_of_le' (show 1 ≤ depth by omega)
      exact items?_last first_reads (by omega) (skip_behindPart_nil level (by decide) rest)
  | cons second others ih =>
      obtain ⟨first_reads, others_read⟩ := List.forall_mem_cons.mp reads
      obtain ⟨_, others_numberless⟩ := List.forall_mem_cons.mp numberless
      obtain ⟨second_numberless, _⟩ := List.forall_mem_cons.mp others_numberless
      rw [renderItems] at enough ⊢
      rw [length_behindPart_cons] at enough
      obtain ⟨depth, rfl⟩ := Nat.exists_eq_add_of_le' (show 1 ≤ depth by omega)
      refine items?_more first_reads (by omega) (skip_behindPart_cons _ _ _ _ rest) ?_
      rw [skip_newline_append, second_numberless.skip_render_append]
      exact ih depth others_numberless others_read (by omega)

theorem exists_renderMember_eq_cons (level : Nat) (member : Text × Json) :
    ∃ rest, renderMember level member = '"' :: rest :=
  ⟨_, rfl⟩

theorem skip_renderMember_append (level : Nat) (member : Text × Json) (rest : Text) :
    skip (renderMember level member ++ rest) = renderMember level member ++ rest := by
  obtain ⟨more, shape⟩ := exists_renderMember_eq_cons level member
  rw [shape, List.cons_append, skip_cons (by decide)]

theorem renderMember_append (level : Nat) (member : Text × Json) (tail : Text) :
    renderMember level member ++ tail = '"' :: (member.1.flatMap escape ++
      '"' :: ':' :: ' ' :: (member.2.render level ++ tail)) := by
  simp [renderMember, quote]

section Member

variable {member : Text × Json} {others : List (Text × Json)} {tail rest behind : Text}
  (numberless : member.2.Numberless) (reads : member.2.Reads)
  (enough : (renderMember level member).length ≤ depth)

include numberless reads enough

theorem value?_behind_colon (tail : Text) :
    value? depth (skip (' ' :: (member.2.render level ++ tail))) = some (member.2, tail) := by
  have spaced : skip (' ' :: (member.2.render level ++ tail)) = member.2.render level ++ tail :=
    numberless.skip_render_append level tail
  rw [renderMember, List.length_append] at enough
  rw [spaced, reads level depth tail (by omega)]

theorem members?_last (closed : skip tail = '}' :: rest) :
    members? (depth + 1) (renderMember level member ++ tail) = some ([member], rest) := by
  have colon : ∀ text, skip (':' :: text) = ':' :: text := skip_cons (by decide)
  have read := value?_behind_colon numberless reads enough tail
  rw [renderMember_append, members?, content?_flatMap_escape]
  simp only [colon, read, closed]

theorem members?_more (goes_on : skip tail = ',' :: behind)
    (later : members? depth (skip behind) = some (others, rest)) :
    members? (depth + 1) (renderMember level member ++ tail) = some (member :: others, rest) := by
  have colon : ∀ text, skip (':' :: text) = ':' :: text := skip_cons (by decide)
  have read := value?_behind_colon numberless reads enough tail
  rw [renderMember_append, members?, content?_flatMap_escape]
  simp only [colon, read, goes_on, later, Option.map_some]

end Member

theorem members?_renderMembers (level depth : Nat) {first : Text × Json}
    {others : List (Text × Json)} (rest : Text)
    (numberless : ∀ member ∈ first :: others, member.2.Numberless)
    (reads : ∀ member ∈ first :: others, member.2.Reads)
    (enough : (renderMember (level + 1) first).length +
      (behindPart '}' level (renderMembers (level + 1) others)).length ≤ depth) :
    members? depth (renderMember (level + 1) first ++
      (behindPart '}' level (renderMembers (level + 1) others) ++ rest)) =
        some (first :: others, rest) := by
  induction others generalizing first depth with
  | nil =>
      have first_numberless := List.forall_mem_singleton.mp numberless
      have first_reads := List.forall_mem_singleton.mp reads
      rw [renderMembers] at enough ⊢
      rw [length_behindPart_nil] at enough
      obtain ⟨depth, rfl⟩ := Nat.exists_eq_add_of_le' (show 1 ≤ depth by omega)
      exact members?_last first_numberless first_reads (by omega)
        (skip_behindPart_nil level (by decide) rest)
  | cons second others ih =>
      obtain ⟨first_numberless, others_numberless⟩ := List.forall_mem_cons.mp numberless
      obtain ⟨first_reads, others_read⟩ := List.forall_mem_cons.mp reads
      rw [renderMembers_cons] at enough ⊢
      rw [length_behindPart_cons] at enough
      obtain ⟨depth, rfl⟩ := Nat.exists_eq_add_of_le' (show 1 ≤ depth by omega)
      refine members?_more first_numberless first_reads (by omega)
        (skip_behindPart_cons _ _ _ _ rest) ?_
      rw [skip_newline_append, skip_renderMember_append]
      exact ih depth others_numberless others_read (by omega)

end Lists

theorem value?_array {depth level : Nat} {char : Char} (visible : ¬ isSpace char)
    (other : char ≠ ']') (rest : Text) :
    value? (depth + 1) ('[' :: (newline level ++ char :: rest)) =
      (items? depth (char :: rest)).map fun (items, rest) => (.array items, rest) := by
  rw [value?, skip_newline_append, skip_cons visible]
  split
  · next closed => exact absurd (List.cons.inj closed).1 other
  · rfl

theorem value?_object {depth level : Nat} {char : Char} (visible : ¬ isSpace char)
    (other : char ≠ '}') (rest : Text) :
    value? (depth + 1) ('{' :: (newline level ++ char :: rest)) =
      (members? depth (char :: rest)).map fun (members, rest) => (.object members, rest) := by
  rw [value?, skip_newline_append, skip_cons visible]
  split
  · next closed => exact absurd (List.cons.inj closed).1 other
  · rfl

theorem reads_string (content : Text) : Reads (.string content) := by
  intro level depth rest enough
  rw [render, quote, List.cons_append] at enough ⊢
  cases depth with
  | zero => contradiction
  | succ depth =>
      rw [List.cons_append, value?, List.append_assoc, List.singleton_append,
        content?_flatMap_escape]
      rfl

theorem reads_array {items : List Json} (numberless : ∀ item ∈ items, item.Numberless)
    (reads : ∀ item ∈ items, item.Reads) : Reads (.array items) := by
  intro level depth rest enough
  rw [render] at enough ⊢
  cases items with
  | nil =>
      cases depth with
      | zero => contradiction
      | succ depth => rfl
  | cons item items =>
      obtain ⟨first, _⟩ := List.forall_mem_cons.mp numberless
      rw [renderItems, enclose_cons] at enough ⊢
      rw [List.length_append, List.length_append, List.length_cons, length_newline] at enough
      cases depth with
      | zero => omega
      | succ depth =>
          have read := items?_renderItems level depth rest numberless reads (by omega)
          obtain ⟨char, start, shape, visible, other⟩ := first.render_eq_cons (level + 1)
          rw [shape, List.cons_append] at read
          rw [shape]
          simp only [List.cons_append, List.append_assoc]
          rw [value?_array visible other, read]
          rfl

theorem reads_object {members : List (Text × Json)}
    (numberless : ∀ member ∈ members, member.2.Numberless)
    (reads : ∀ member ∈ members, member.2.Reads) : Reads (.object members) := by
  intro level depth rest enough
  rw [render] at enough ⊢
  cases members with
  | nil =>
      cases depth with
      | zero => contradiction
      | succ depth => rfl
  | cons member members =>
      rw [renderMembers_cons, enclose_cons] at enough ⊢
      rw [List.length_append, List.length_append, List.length_cons, length_newline] at enough
      cases depth with
      | zero => omega
      | succ depth =>
          have read := members?_renderMembers level depth rest numberless reads (by omega)
          obtain ⟨start, shape⟩ := exists_renderMember_eq_cons (level + 1) member
          rw [shape, List.cons_append] at read
          rw [shape]
          simp only [List.cons_append, List.append_assoc]
          rw [value?_object (by decide) (by decide), read]
          rfl

theorem Numberless.reads {value : Json} (numberless : value.Numberless) : value.Reads := by
  induction numberless with
  | null =>
      intro level depth rest enough
      rw [render] at enough ⊢
      cases depth with
      | zero => contradiction
      | succ depth => rfl
  | bool value =>
      intro level depth rest enough
      cases depth with
      | zero => cases value <;> rw [render] at enough <;> contradiction
      | succ depth => cases value <;> rw [render] <;> rfl
  | string content => exact reads_string content
  | array numberless ih => exact reads_array numberless ih
  | object numberless ih => exact reads_object numberless ih

theorem Numberless.parse?_render_append {value : Json} (numberless : value.Numberless)
    (level : Nat) (behind : Text) :
    parse? (value.render level ++ behind) = if skip behind = [] then some value else none := by
  have read := numberless.reads level (2 * (value.render level ++ behind).length + 1) behind
    (by rw [List.length_append]; omega)
  rw [parse?, numberless.skip_render_append, read]

end Json

end ApiDoc
