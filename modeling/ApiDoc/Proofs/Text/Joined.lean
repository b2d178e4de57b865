import ApiDoc.Proofs.Text.Delimited
import ApiDoc.Proofs.Text.Lines

/-!
Searching sequences that are joined.

What is found in a sequence is found in every sequence that it begins, since no marker that reaches
past its end can begin before one inside. A search can therefore be resumed behind the last body that
it has found. A gap that holds no marker, and does not end in the beginning of one, can be left out.
-/

namespace ApiDoc

section Apart

variable {α : Type} {marker gap other : List α}

structure Apart (marker gap : List α) : Prop where
  free : ¬ marker <:+: gap
  not_suffix : ∀ part, part <+: marker → part ≠ [] → ¬ part <:+ gap

theorem Apart.of_cons {item : α} (apart : Apart marker (item :: gap)) : Apart marker gap where
  free inside := apart.free (List.infix_cons inside)
  not_suffix part begins nonempty ends :=
    apart.not_suffix part begins nonempty (ends.trans (List.suffix_cons item gap))

theorem Apart.not_prefix_append (apart : Apart marker gap) (nonempty : gap ≠ [])
    (rest : List α) : ¬ marker <+: gap ++ rest := by
  intro begins
  rcases List.prefix_or_prefix_of_prefix begins (List.prefix_append gap rest) with inside | across
  · exact apart.free inside.isInfix
  · exact apart.not_suffix gap across nonempty List.suffix_rfl

theorem Apart.append (first : Apart marker gap) (second : Apart marker other) :
    Apart marker (gap ++ other) := by
  induction gap with
  | nil => exact second
  | cons item gap ih =>
      have later := ih first.of_cons
      refine ⟨fun inside => ?_, fun part begins nonempty ends => ?_⟩
      · rcases List.infix_cons_iff.mp inside with here | behind
        · exact first.not_prefix_append (List.cons_ne_nil item gap) other here
        · exact later.free behind
      · rcases List.suffix_cons_iff.mp ends with rfl | behind
        · exact first.not_suffix (item :: gap) ((List.prefix_append (item :: gap) other).trans begins)
            (List.cons_ne_nil item gap) List.suffix_rfl
        · exact later.not_suffix part begins nonempty behind

theorem apart_of_notMem {item : α} (absent : item ∉ gap) : Apart (item :: marker) gap where
  free inside := absent (inside.subset List.mem_cons_self)
  not_suffix part begins nonempty ends := by
    rcases List.prefix_cons_iff.mp begins with empty | ⟨rest, rfl, -⟩
    · exact nonempty empty
    · exact absent (ends.subset List.mem_cons_self)

theorem apart_of_disjoint (nonempty : marker ≠ []) (disjoint : ∀ item ∈ gap, item ∉ marker) :
    Apart marker gap where
  free inside := by
    obtain ⟨item, rest, rfl⟩ := List.exists_cons_of_ne_nil nonempty
    exact disjoint item (inside.subset List.mem_cons_self) List.mem_cons_self
  not_suffix part begins part_ne_nil ends := by
    obtain ⟨item, rest, rfl⟩ := List.exists_cons_of_ne_nil part_ne_nil
    exact disjoint item (ends.subset List.mem_cons_self) (begins.subset List.mem_cons_self)

theorem apart_append_separator {separator : α} (nonempty : marker ≠ []) (absent : separator ∉ marker)
    (free : ¬ marker <:+: gap) : Apart marker (gap ++ [separator]) where
  free inside := by
    rcases Text.infix_append_separator absent inside with before | behind
    · exact free before
    · exact nonempty (List.eq_nil_of_infix_nil behind)
  not_suffix part begins part_ne_nil ends := by
    rcases List.suffix_concat_iff.mp ends with empty | ⟨rest, rfl, _⟩
    · exact part_ne_nil empty
    · exact absent (begins.subset (by simp))

end Apart

variable {α : Type} [DecidableEq α]

theorem cutAt?_append_of_some {marker items before rest : List α}
    (found : cutAt? marker items = some (before, rest)) (more : List α) :
    cutAt? marker (items ++ more) = some (before, rest ++ more) := by
  induction items generalizing before with
  | nil =>
      simp only [cutAt?, Option.map_eq_some_iff, Prod.mk.injEq] at found
      obtain ⟨after, matched, rfl, rfl⟩ := found
      obtain ⟨rfl, rfl⟩ := List.nil_eq_append_iff.mp (after?_eq_some_iff.mp matched)
      cases more <;> rfl
  | cons item items ih =>
      rw [cutAt?] at found
      rw [List.cons_append, cutAt?, ← List.cons_append]
      split at found
      · next after matched =>
          simp only [Option.some.injEq, Prod.mk.injEq] at found
          obtain ⟨rfl, rfl⟩ := found
          have begins : after? marker (item :: items ++ more) = some (after ++ more) := by
            rw [after?_eq_some_iff, after?_eq_some_iff.mp matched, List.append_assoc]
          rw [begins]
      · next missing =>
          simp only [Option.map_eq_some_iff, Prod.mk.injEq, Prod.exists] at found
          obtain ⟨start, after, matched, rfl, rfl⟩ := found
          have absent : after? marker (item :: items ++ more) = none := by
            rw [after?_eq_none_iff] at missing ⊢
            intro begins
            refine missing (List.prefix_of_prefix_length_le begins (List.prefix_append _ more) ?_)
            have length := length_of_cutAt? matched
            simp only [List.length_cons]
            omega
          rw [absent]
          simp only [ih matched, Option.map_some]

theorem cutAt?_append_of_apart {marker gap : List α} (apart : Apart marker gap) (rest : List α) :
    cutAt? marker (gap ++ rest) =
      (cutAt? marker rest).map fun (before, behind) => (gap ++ before, behind) := by
  induction gap with
  | nil => simp
  | cons item gap ih =>
      have missing : after? marker (item :: gap ++ rest) = none :=
        after?_eq_none_iff.mpr (apart.not_prefix_append (List.cons_ne_nil item gap) rest)
      rw [List.cons_append] at missing
      rw [List.cons_append, cutAt?, missing]
      simp only [ih apart.of_cons, Option.map_map]
      rfl

theorem cutAt?_append_separator {marker : List α} {separator : α} (nonempty : marker ≠ [])
    (absent : separator ∉ marker) (first rest : List α) :
    cutAt? marker (first ++ separator :: rest) =
      match cutAt? marker first with
      | some (before, behind) => some (before, behind ++ separator :: rest)
      | none => (cutAt? marker rest).map fun (before, behind) =>
          (first ++ separator :: before, behind) := by
  split
  · next before behind found => exact cutAt?_append_of_some found (separator :: rest)
  · next missing =>
      have apart : Apart marker (first ++ [separator]) :=
        apart_append_separator nonempty absent (cutAt?_eq_none_iff.mp missing)
      have skipped := cutAt?_append_of_apart apart rest
      simpa only [List.append_assoc, List.singleton_append] using skipped

theorem cutAt?_append_append_of_disjoint {marker before behind : List α} (nonempty : marker ≠ [])
    (before_disjoint : ∀ item ∈ before, item ∉ marker)
    (behind_disjoint : ∀ item ∈ behind, item ∉ marker) (items : List α) :
    cutAt? marker (before ++ items ++ behind) =
      (cutAt? marker items).map fun (first, rest) => (before ++ first, rest ++ behind) := by
  rw [List.append_assoc, cutAt?_append_of_apart (apart_of_disjoint nonempty before_disjoint)]
  cases found : cutAt? marker items with
  | some parts =>
      rw [cutAt?_append_of_some found]
      rfl
  | none =>
      have free : ¬ marker <:+: items ++ behind := by
        intro inside
        exact cutAt?_eq_none_iff.mp found
          (Text.infix_of_infix_append_behind nonempty behind_disjoint inside)
      rw [cutAt?_eq_none_iff.mpr free]
      rfl

namespace Delimiters

variable {marks : Delimiters α}

theorem first?_append_of_some {items body rest : List α}
    (found : marks.first? items = some (body, rest)) (more : List α) :
    marks.first? (items ++ more) = some (body, rest ++ more) := by
  simp only [first?, Option.bind_eq_some_iff, Prod.exists] at found
  obtain ⟨gap, inside, opened, closed⟩ := found
  rw [first?, cutAt?_append_of_some opened, Option.bind_some]
  exact cutAt?_append_of_some closed more

theorem scan_append_tail (items more : List α) :
    marks.scan (items ++ more) =
      (marks.bodies items ++ marks.bodies (marks.tail items ++ more),
        marks.tail (marks.tail items ++ more)) := by
  induction items using scan.induct marks with
  | case1 items none =>
      rw [bodies_of_none none, tail_of_none none, List.nil_append]
      rfl
  | case2 items body rest found ih =>
      rw [scan_of_some (first?_append_of_some found more), ih, bodies_of_some found,
        tail_of_some found, List.cons_append]

theorem bodies_append_tail (items more : List α) :
    marks.bodies (items ++ more) =
      marks.bodies items ++ marks.bodies (marks.tail items ++ more) := by
  rw [bodies, scan_append_tail]

theorem tail_append_tail (items more : List α) :
    marks.tail (items ++ more) = marks.tail (marks.tail items ++ more) := by
  rw [tail, scan_append_tail]

theorem bodies_append_of_apart {gap : List α} (apart : Apart marks.opening gap) (rest : List α) :
    marks.bodies (gap ++ rest) = marks.bodies rest := by
  have first : marks.first? (gap ++ rest) = marks.first? rest := by
    rw [first?, cutAt?_append_of_apart apart, Option.bind_map]
    rfl
  cases found : marks.first? rest with
  | none => rw [bodies_of_none (first.trans found), bodies_of_none found]
  | some result => rw [bodies_of_some (first.trans found), bodies_of_some found]

theorem tail_of_bodies_eq_nil {items : List α} (empty : marks.bodies items = []) :
    marks.tail items = items := by
  cases found : marks.first? items with
  | none => exact tail_of_none found
  | some result =>
      rw [bodies_of_some found] at empty
      contradiction

section LastBody

variable (opening_unbordered : Unbordered marks.opening)
  (closing_unbordered : Unbordered marks.closing) (closing_ne_nil : marks.closing ≠ [])
  {items last : List α} (found : (marks.bodies items).getLast? = some last)

include opening_unbordered closing_unbordered closing_ne_nil found

/-- The tail stands right behind the last body and its closing marker, and what stands before that
body's opening marker holds the other bodies and opens no further one. -/
theorem exists_eq_append_tail :
    ∃ before, items = before ++ marks.opening ++ last ++ marks.closing ++ marks.tail items ∧
      marks.bodies before = (marks.bodies items).dropLast ∧
      ¬ marks.opening <:+: marks.tail before := by
  induction items using scan.induct marks with
  | case1 items none =>
      rw [bodies_of_none none] at found
      contradiction
  | case2 items body rest first ih =>
      obtain ⟨⟨gap, inside⟩, opened, closed⟩ := Option.bind_eq_some_iff.mp first
      have gap_free := not_infix_of_cutAt? marks.opening_ne_nil opened
      have body_free := not_infix_of_cutAt? closing_ne_nil closed
      have whole : items = gap ++ marks.opening ++ (body ++ marks.closing ++ rest) := by
        rw [← eq_append_of_cutAt? closed]
        exact eq_append_of_cutAt? opened
      rw [bodies_of_some first] at found
      rw [bodies_of_some first, tail_of_some first]
      cases others : marks.bodies rest with
      | nil =>
          rw [others] at found
          obtain rfl := Option.some.inj found
          refine ⟨gap, ?_, ?_, ?_⟩
          · rw [tail_of_bodies_eq_nil others, whole]
            simp
          · rw [bodies, scan_of_free gap_free]
            rfl
          · rw [tail, scan_of_free gap_free]
            exact gap_free
      | cons second later =>
          rw [others, List.getLast?_cons_cons, ← others] at found
          obtain ⟨before, split, earlier, unopened⟩ := ih found
          have begun := scan_append opening_unbordered closing_unbordered gap_free body_free before
          refine ⟨gap ++ marks.opening ++ (body ++ marks.closing ++ before), ?_, ?_, ?_⟩
          · calc items = gap ++ marks.opening ++ (body ++ marks.closing ++ rest) := whole
              _ = gap ++ marks.opening ++ (body ++ marks.closing ++
                  (before ++ marks.opening ++ last ++ marks.closing ++ marks.tail rest)) := by
                    rw [← split]
              _ = _ := by simp
          · rw [bodies, begun, List.dropLast_cons_of_ne_nil (List.cons_ne_nil second later),
              ← others, ← earlier]
            rfl
          · rw [tail, begun]
            exact unopened

theorem eq_tail {before rest : List α}
    (whole : items = before ++ marks.opening ++ last ++ marks.closing ++ rest)
    (earlier : marks.bodies before = (marks.bodies items).dropLast)
    (unopened : ¬ marks.opening <:+: marks.tail before) : rest = marks.tail items := by
  have last_free := not_infix_of_mem_bodies closing_ne_nil (List.mem_of_getLast? found)
  have parts : items = before ++ (marks.opening ++ (last ++ marks.closing ++ rest)) := by
    simp [whole]
  have behind := scan_append opening_unbordered closing_unbordered unopened last_free rest
  rw [List.append_assoc] at behind
  have none_left : marks.bodies rest = [] := by
    have all : marks.bodies items = marks.bodies before ++ last :: marks.bodies rest := by
      rw [parts, bodies_append_tail]
      exact congrArg _ (congrArg Prod.fst behind)
    have count := congrArg List.length all
    have positive : 0 < (marks.bodies items).length :=
      List.length_pos_of_mem (List.mem_of_getLast? found)
    rw [earlier, List.length_append, List.length_dropLast, List.length_cons] at count
    exact List.length_eq_zero_iff.mp (by omega)
  have left : marks.tail items = marks.tail rest := by
    have ends := congrArg Prod.snd behind
    rw [parts, tail_append_tail]
    exact ends
  rw [left, tail_of_bodies_eq_nil none_left]

end LastBody

end Delimiters

end ApiDoc
