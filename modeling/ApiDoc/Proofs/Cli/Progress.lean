import ApiDoc.Proofs.Cli.Words

/-!
What reading a command line comes to.

It follows from the choices and from the places of the paths alone. A choice can be made once, and a group can be
ended once it holds two paths; so a command line can be read to its end exactly if it is proper.
-/

namespace ApiDoc

namespace Cli

namespace CommandLine

theorem places_cons (word : Word) (rest : List Word) (behind : Option (List Text)) :
    (mk (word :: rest) behind).places = word.path? :: (mk rest behind).places := rfl

theorem paths_cons (word : Word) (rest : List Word) (behind : Option (List Text)) :
    (mk (word :: rest) behind).paths = word.path?.toList ++ (mk rest behind).paths := by
  cases placed : word.path? <;> simp [paths, places_cons, placed]

theorem choices_cons (word : Word) (rest : List Word) (behind : Option (List Text)) :
    (mk (word :: rest) behind).choices = word.choices ++ (mk rest behind).choices :=
  List.flatMap_cons

theorem splitOn_map_some (group : List Text) : (group.map some).splitOn none = [group.map some] :=
  List.splitOn_eq_singleton (by simp)

theorem splitOn_group_cons (group : List Text) (places : List (Option Text)) :
    (group.map some ++ none :: places).splitOn none = group.map some :: places.splitOn none := by
  rw [List.splitOn_append_cons_self, splitOn_map_some, List.singleton_append]

theorem splitOn_none_cons (places : List (Option Text)) :
    (none :: places).splitOn none = [] :: places.splitOn none :=
  splitOn_group_cons [] places

end CommandLine

namespace Progress

/-! ### Choices -/

def Has (progress : Progress) : Setting → Prop
  | .format => progress.format.isSome
  | .verbose => progress.verbose
  | .quiet => progress.quiet
  | .help => False

/-- Take paths and choices in, as if all were in order. -/
def taking (progress : Progress) (paths : List Text) (choices : List Choice) : Progress :=
  { progress with
    paths := progress.paths ++ paths
    format := progress.format.or (choices.findSome? Choice.format?)
    verbose := progress.verbose || choices.contains (.flag .verbose)
    quiet := progress.quiet || choices.contains (.flag .quiet) }

section Deciding

variable (progress : Progress)

theorem taking_nil : progress.taking [] [] = progress := by
  simp [taking]

theorem taking_taking (first last : List Text) (before behind : List Choice) :
    (progress.taking first before).taking last behind = progress.taking (first ++ last) (before ++ behind) := by
  simp [taking, Option.or_assoc, Bool.or_assoc]

theorem has_taking (paths : List Text) (choices : List Choice) (setting : Setting) :
    (progress.taking paths choices).Has setting ↔ progress.Has setting ∨ setting ∈ choices.map Choice.setting := by
  induction choices with
  | nil => cases setting <;> simp [taking, Has]
  | cons choice rest ih =>
      rcases choice with (_ | _) | value <;> cases setting <;>
        simp_all [taking, Has, Choice.setting, Flag.setting, Choice.format?]

variable {progress}

theorem choose_eq_ok_iff (nothing : progress.pending = .nothing) (choice : Choice) (next : Progress) :
    progress.choose choice = .ok next ↔ ¬ progress.Has choice.setting ∧ progress.taking [] [choice] = next := by
  rcases choice with (_ | _) | value <;>
    simp only [choose, set, assignFormat, setFormat, settle_of_nothing nothing, Flag.setting, Choice.setting, Has,
      Except.bind]
  case flag.verbose => cases given : progress.verbose <;> simp [taking, Choice.format?]
  case flag.quiet => cases given : progress.quiet <;> simp [taking, Choice.format?]
  case format => cases given : progress.format <;> simp [taking, Choice.format?, given]

theorem chooseAll_eq_ok_iff (nothing : progress.pending = .nothing) (choices : List Choice) (final : Progress) :
    progress.chooseAll choices = .ok final ↔
      (choices.map Choice.setting).Nodup ∧ (∀ setting ∈ choices.map Choice.setting, ¬ progress.Has setting) ∧
        progress.taking [] choices = final := by
  induction choices generalizing progress with
  | nil => simp [chooseAll, taking_nil]
  | cons choice rest ih =>
      have later : (progress.taking [] [choice]).pending = .nothing := nothing
      simp only [chooseAll, bind_eq_ok_iff, choose_eq_ok_iff nothing, and_assoc, exists_eq_left', exists_and_left,
        ih later, taking_taking, has_taking]
      grind

end Deciding

/-! ### Groups of paths -/

def begun (progress : Progress) (group : List Text) : Progress :=
  { progress with pending := if group = [] then .nothing else .group group }

theorem pending_begun (progress : Progress) (group : List Text) :
    (progress.begun group).pending ≠ .format none := by
  by_cases first : group = [] <;> simp [begun, first]

section Grouping

variable {progress : Progress} (nothing : progress.pending = .nothing)

include nothing

theorem begun_nil : progress.begun [] = progress := by
  simp [begun, ← nothing]

theorem path_begun (group : List Text) (path : Text) :
    (progress.begun group).path path = .ok (progress.begun (group ++ [path])) := by
  by_cases first : group = []
  · subst first
    rw [begun_nil nothing]
    simp [Progress.path, nothing, settle_of_nothing nothing, begun, Except.map]
  · simp [Progress.path, begun, first]

theorem takePaths_begun (group paths : List Text) :
    (progress.begun group).takePaths paths = .ok (progress.begun (group ++ paths)) := by
  induction paths generalizing group with
  | nil => rw [takePaths, List.append_nil]
  | cons path rest ih =>
      rw [takePaths, path_begun nothing]
      simpa using ih (group ++ [path])

theorem settle_begun_eq_ok_iff (group : List Text) (next : Progress) :
    (progress.begun group).settle = .ok next ↔ group.length ≠ 1 ∧ progress.taking group [] = next := by
  by_cases first : group = []
  · subst first
    rw [begun_nil nothing, settle_of_nothing nothing, taking_nil]
    simp
  · have held : 0 < group.length := List.length_pos_iff.mpr first
    simp only [settle, begun, first, if_false]
    by_cases lone : group.length = 1
    · simp [lone]
    · rw [if_neg (by omega)]
      simp [lone, taking, nothing]

end Grouping

/-! ### Command lines -/

/-- Whether a command line can go on from progress in a group. -/
structure Continues (progress : Progress) (group : List Text) (line : CommandLine) : Prop where
  accompanied : ∀ together ∈ (group.map some ++ line.places).splitOn none, together.length ≠ 1
  once : (line.choices.map Choice.setting).Nodup
  fresh : ∀ setting ∈ line.choices.map Choice.setting, ¬ progress.Has setting

theorem continues_nil (progress : Progress) (group : List Text) (behind : Option (List Text)) :
    progress.Continues group ⟨[], behind⟩ ↔ (group ++ behind.getD []).length ≠ 1 := by
  have whole := CommandLine.splitOn_map_some (group ++ behind.getD [])
  rw [List.map_append] at whole
  constructor
  · rintro ⟨accompanied, -, -⟩
    simpa [CommandLine.places, whole] using accompanied
  · intro enough
    refine ⟨?_, by simp [CommandLine.choices], by simp [CommandLine.choices]⟩
    simpa [CommandLine.places, whole] using enough

theorem continues_path (progress : Progress) (group : List Text) {path : Text} (plain : Plain path)
    (rest : List Word) (behind : Option (List Text)) :
    progress.Continues group ⟨.path path plain :: rest, behind⟩ ↔
      progress.Continues (group ++ [path]) ⟨rest, behind⟩ := by
  have places : group.map some ++ (CommandLine.mk (.path path plain :: rest) behind).places =
      (group ++ [path]).map some ++ (CommandLine.mk rest behind).places := by
    simp [CommandLine.places_cons, Word.path?]
  have choices : (CommandLine.mk (.path path plain :: rest) behind).choices =
      (CommandLine.mk rest behind).choices := by
    simp [CommandLine.choices_cons, Word.choices]
  constructor
  · rintro ⟨accompanied, once, fresh⟩
    rw [places] at accompanied
    rw [choices] at once fresh
    exact ⟨accompanied, once, fresh⟩
  · rintro ⟨accompanied, once, fresh⟩
    rw [← places] at accompanied
    rw [← choices] at once fresh
    exact ⟨accompanied, once, fresh⟩

theorem continues_word (progress : Progress) (group : List Text) {word : Word} (noPath : word.path? = none)
    (rest : List Word) (behind : Option (List Text)) :
    progress.Continues group ⟨word :: rest, behind⟩ ↔
      group.length ≠ 1 ∧ ((word.choices.map Choice.setting).Nodup ∧
        ∀ setting ∈ word.choices.map Choice.setting, ¬ progress.Has setting) ∧
      (progress.taking group word.choices).Continues [] ⟨rest, behind⟩ := by
  constructor
  · rintro ⟨accompanied, once, fresh⟩
    rw [CommandLine.places_cons, noPath, CommandLine.splitOn_group_cons, List.forall_mem_cons] at accompanied
    rw [CommandLine.choices_cons, List.map_append] at once fresh
    obtain ⟨own, others, apart⟩ := List.nodup_append.mp once
    refine ⟨by simpa using accompanied.1, ⟨own, fun setting member => fresh setting (by simp [member])⟩, ?_⟩
    refine ⟨by simpa using accompanied.2, others, ?_⟩
    intro setting member given
    rcases (has_taking progress group word.choices setting).mp given with before | now
    · exact fresh setting (List.mem_append_right _ member) before
    · exact apart setting now setting member rfl
  · rintro ⟨enough, ⟨own, new⟩, accompanied, others, fresh⟩
    have unmade : ∀ setting ∈ (CommandLine.mk rest behind).choices.map Choice.setting,
        ¬ progress.Has setting ∧ setting ∉ word.choices.map Choice.setting := by
      intro setting member
      have free := fresh setting member
      rwa [has_taking, not_or] at free
    constructor
    case accompanied =>
      rw [CommandLine.places_cons, noPath, CommandLine.splitOn_group_cons, List.forall_mem_cons]
      exact ⟨by simpa using enough, accompanied⟩
    case once =>
      rw [CommandLine.choices_cons, List.map_append, List.nodup_append]
      refine ⟨own, others, ?_⟩
      rintro setting now _ later rfl
      exact (unmade setting later).2 now
    case fresh =>
      rw [CommandLine.choices_cons, List.map_append, List.forall_mem_append]
      exact ⟨new, fun setting member => (unmade setting member).1⟩

theorem complete_word_begun_eq_ok_iff {progress : Progress} (nothing : progress.pending = .nothing) (group : List Text)
    {word : Word} (noPath : word.path? = none) {rest : List Text} (patient : Patient rest) (final : Progress) :
    (progress.begun group).complete (word.spelled ++ rest) = .ok final ↔
      group.length ≠ 1 ∧ ((word.choices.map Choice.setting).Nodup ∧
        ∀ setting ∈ word.choices.map Choice.setting, ¬ progress.Has setting) ∧
      (progress.taking group word.choices).complete rest = .ok final := by
  have settled : (progress.taking group []).pending = .nothing := nothing
  have has (setting : Setting) : (progress.taking group []).Has setting ↔ progress.Has setting := by
    simp [has_taking]
  have taken : (progress.taking group []).taking [] word.choices = progress.taking group word.choices := by
    rw [taking_taking, List.append_nil, List.nil_append]
  rw [complete_word _ noPath patient, chooseAll_eq_settle_bind _ (choices_ne_nil noPath)]
  simp only [bind_eq_ok_iff, settle_begun_eq_ok_iff nothing]
  constructor
  · rintro ⟨next, ⟨_, ⟨enough, rfl⟩, made⟩, completed⟩
    obtain ⟨own, new, rfl⟩ := (chooseAll_eq_ok_iff settled _ _).mp made
    rw [taken] at completed
    simp only [has] at new
    exact ⟨enough, ⟨own, new⟩, completed⟩
  · rintro ⟨enough, ⟨own, new⟩, completed⟩
    simp only [← has] at new
    rw [← taken] at completed
    exact ⟨_, ⟨_, ⟨enough, rfl⟩, (chooseAll_eq_ok_iff settled _ _).mpr ⟨own, new, rfl⟩⟩, completed⟩

theorem complete_begun_eq_ok_iff (words : List Word) (behind : Option (List Text)) {progress : Progress}
    (nothing : progress.pending = .nothing) (group : List Text) (final : Progress) :
    (progress.begun group).complete (CommandLine.mk words behind).spelled = .ok final ↔
      progress.Continues group ⟨words, behind⟩ ∧
        progress.taking (group ++ (CommandLine.mk words behind).paths) (CommandLine.mk words behind).choices =
          final := by
  induction words generalizing progress group with
  | nil =>
      have paths : (CommandLine.mk [] behind).paths = behind.getD [] := by
        simp [CommandLine.paths, CommandLine.places]
      have choices : (CommandLine.mk [] behind).choices = [] := rfl
      rw [complete_behind, takePaths_begun nothing, paths, choices, continues_nil]
      exact settle_begun_eq_ok_iff nothing _ final
  | cons word rest ih =>
      rw [spelled_cons, CommandLine.paths_cons, CommandLine.choices_cons]
      cases placed : word.path? with
      | some path =>
          cases word with
          | path given plain =>
              obtain rfl : given = path := by simpa [Word.path?] using placed
              have later := ih nothing (group ++ [given])
              rw [Word.spelled, List.singleton_append, complete_path _ plain (pending_begun progress group),
                path_begun nothing, continues_path]
              simpa [Except.bind, Word.choices] using later
          | _ => contradiction
      | none =>
          have chosen : (progress.taking group word.choices).pending = .nothing := nothing
          have later := ih chosen []
          rw [begun_nil chosen, taking_taking] at later
          rw [complete_word_begun_eq_ok_iff nothing group placed (patient_spelled rest behind), later,
            continues_word _ _ placed]
          simp only [and_assoc, Option.toList_none]

theorem complete_spelled_eq_ok_iff (line : CommandLine) (final : Progress) :
    complete {} line.spelled = .ok final ↔ line.Proper ∧ taking {} line.paths line.choices = final := by
  have fresh : ∀ setting, ¬ Has {} setting := by
    intro setting
    cases setting <;> simp [Has]
  have nothing : ({} : Progress).pending = .nothing := rfl
  have begun := complete_begun_eq_ok_iff line.words line.behind nothing [] final
  rw [begun_nil nothing, List.nil_append] at begun
  rw [begun]
  constructor
  · rintro ⟨⟨accompanied, once, -⟩, reached⟩
    exact ⟨⟨once, accompanied⟩, reached⟩
  · rintro ⟨⟨once, accompanied⟩, reached⟩
    exact ⟨⟨accompanied, once, fun setting _ => fresh setting⟩, reached⟩

end Progress

end Cli

end ApiDoc
