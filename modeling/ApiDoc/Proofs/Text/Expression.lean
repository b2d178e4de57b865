import ApiDoc.Text.Expression

/-!
What expressions prefer.

In a sequence the preferred way is put together from the preferred ways of its parts, as long as the later
part can match behind the earlier one. A greedy repetition prefers to take all it can. A lazy one takes the
same when it has to reach the end of a line, since it cannot stop earlier.
-/

namespace ApiDoc

namespace Expression

variable {text before : Text} {way next : Way} {expression first second : Expression}

theorem head?_ways_seq (chosen : (first.ways text).head? = some way)
    (follows : (second.ways way.rest).head? = some next) :
    ((seq first second).ways text).head? = some (way.append next) := by
  obtain ⟨others, whole⟩ := List.head?_eq_some_iff.mp chosen
  obtain ⟨later, rest⟩ := List.head?_eq_some_iff.mp follows
  rw [ways, whole, List.flatMap_cons, rest, List.map_cons, List.cons_append, List.head?_cons]

theorem head?_ways_group (chosen : (first.ways text).head? = some way) :
    ((group first).ways text).head? = some way.captured := by
  rw [ways, List.head?_map, chosen, Option.map_some]

theorem ways_seq_of_nil (fails : first.ways text = []) : (seq first second).ways text = [] := by
  rw [ways, fails, List.flatMap_nil]

theorem head?_ways_greedy (inClass : Char → Bool) (text : Text) :
    ((greedy inClass).ways text).head? =
      some ⟨text.takeWhile inClass, [], text.dropWhile inClass⟩ := by
  rw [ways, List.head?_reverse]
  induction text with
  | nil => rfl
  | cons char rest ih =>
      rw [runs]
      by_cases inside : inClass char = true
      · rw [if_pos inside, List.getLast?_cons, List.getLast?_map, ih, Option.map_some, Option.getD_some,
          Way.take, List.takeWhile_cons_of_pos inside, List.dropWhile_cons_of_pos inside]
      · rw [if_neg inside, List.takeWhile_cons_of_neg inside, List.dropWhile_cons_of_neg inside]
        rfl

section Plus

variable {inClass : Char → Bool}

theorem ways_one_greedy_of_nil (none : text.takeWhile inClass = []) :
    (seq (one inClass) (greedy inClass)).ways text = [] := by
  apply ways_seq_of_nil
  cases text with
  | nil => rfl
  | cons char rest =>
      rw [ways, if_neg]
      intro inside
      rw [List.takeWhile_cons_of_pos inside] at none
      contradiction

theorem head?_ways_one_greedy (nonempty : text.takeWhile inClass ≠ []) :
    ((seq (one inClass) (greedy inClass)).ways text).head? =
      some ⟨text.takeWhile inClass, [], text.dropWhile inClass⟩ := by
  cases text with
  | nil => contradiction
  | cons char rest =>
      have inside : inClass char = true :=
        Decidable.byContradiction fun outside => nonempty (List.takeWhile_cons_of_neg outside)
      have first : ((one inClass).ways (char :: rest)).head? = some ⟨[char], [], rest⟩ := by
        rw [ways, if_pos inside, List.head?_cons]
      rw [head?_ways_seq first (head?_ways_greedy inClass rest), List.takeWhile_cons_of_pos inside,
        List.dropWhile_cons_of_pos inside]
      rfl

end Plus

theorem ways_seq_lineEnd : (seq first lineEnd).ways text =
    (first.ways text).filter fun way => endsLine way.rest := by
  rw [ways]
  induction first.ways text with
  | nil => rfl
  | cons way rest ih =>
      rw [List.flatMap_cons, ih, ways, List.filter_cons]
      split
      · simp [Way.append]
      · rfl

theorem filter_runs_dot (text : Text) : ((runs dot text).filter fun way => endsLine way.rest) =
    [⟨text.takeWhile dot, [], text.dropWhile dot⟩] := by
  induction text with
  | nil => rfl
  | cons char rest ih =>
      rw [runs]
      by_cases inside : dot char = true
      · have stays : endsLine (char :: rest) = false := by
          simpa [endsLine, dot] using inside
        have longer : ((fun way : Way => endsLine way.rest) ∘ Way.take char) =
            fun way => endsLine way.rest := rfl
        rw [if_pos inside, List.filter_cons_of_neg (by simp [stays]), List.filter_map, longer, ih,
          List.map_singleton, Way.take, List.takeWhile_cons_of_pos inside,
          List.dropWhile_cons_of_pos inside]
      · have ends : endsLine (char :: rest) = true := by
          simpa [endsLine, dot] using inside
        rw [if_neg inside, List.filter_cons_of_pos (by exact ends), List.takeWhile_cons_of_neg inside,
          List.dropWhile_cons_of_neg inside]
        rfl

theorem ways_lazy_lineEnd (text : Text) : (seq (group (lazy dot)) lineEnd).ways text =
    [⟨text.takeWhile dot, [text.takeWhile dot], text.dropWhile dot⟩] := by
  have captured : ((fun way : Way => endsLine way.rest) ∘ Way.captured) =
      fun way => endsLine way.rest := rfl
  rw [ways_seq_lineEnd, ways, ways, List.filter_map, captured, filter_runs_dot]
  rfl

section Search

theorem first?_cons_of_nil {char : Char} (fails : expression.ways (char :: text) = []) :
    expression.first? (char :: text) =
      (expression.first? text).map fun (before, way) => (char :: before, way) := by
  rw [first?, fails]
  rfl

theorem first?_of_head? (matched : (expression.ways text).head? = some way) :
    expression.first? text = some ([], way) := by
  cases text with
  | nil => rw [first?, matched, Option.map_some]
  | cons char rest => rw [first?, matched]

variable {found others : List Way}

theorem Found.cons_of_nil {char : Char} (fails : expression.ways (char :: text) = [])
    (search : expression.Found text found) : expression.Found (char :: text) found := by
  cases search with
  | nil none => exact .nil (by rw [first?_cons_of_nil fails, none, Option.map_none])
  | cons first rest => exact .cons (by rw [first?_cons_of_nil fails, first, Option.map_some]) rest

theorem Found.unique (search : expression.Found text found) (other : expression.Found text others) :
    found = others := by
  induction search generalizing others with
  | nil none =>
      cases other with
      | nil => rfl
      | cons first => simp [none] at first
  | cons first _ ih =>
      cases other with
      | nil none => simp [first] at none
      | cons second rest =>
          rw [first, Option.some.injEq, Prod.mk.injEq] at second
          obtain ⟨-, rfl⟩ := second
          rw [ih rest]

end Search

end Expression

end ApiDoc
