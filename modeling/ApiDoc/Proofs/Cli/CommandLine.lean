import ApiDoc.Proofs.Cli.AllOrNothing
import ApiDoc.Proofs.Cli.Progress
import ApiDoc.Proofs.Cli.Spelling

/-!
Arguments are accepted as proper command lines.

Arguments that are accepted are spelled by a command line. Whatever command line spells them is proper, and its paths
are those that are given, in order. So two paths are given at least, and all behind `--` are among them as they stand.
-/

namespace ApiDoc

namespace Cli

theorem parse_eq_ok_iff_complete {arguments : List Text} {given : Arguments} :
    Arguments.parse arguments = .ok given ↔
      ∃ final, Progress.complete {} arguments = .ok final ∧ final.paths = given.paths ∧
        final.format.getD "protobuf".toList = given.format ∧ final.verbose = given.verbose ∧
        final.quiet = given.quiet := by
  have completed : (Progress.take {} arguments).bind Progress.settle = Progress.complete {} arguments := rfl
  rw [Arguments.parse, completed]
  cases Progress.complete {} arguments with
  | error stop => simp
  | ok final =>
      simp only [Except.ok.injEq, exists_eq_left']
      cases last : final.paths.getLast? with
      | none =>
          have none : final.paths ≠ given.paths := by
            simp [List.getLast?_eq_none_iff.mp last, Arguments.paths]
          simp [none]
      | some output =>
          obtain ⟨inputs, same⟩ := List.getLast?_eq_some_iff.mp last
          obtain ⟨givenInputs, givenOutput, format, verbose, quiet⟩ := given
          simp [same, Arguments.paths, and_assoc]

/-- A command line is accepted if it is proper and gives a path, and then it is taken for what it gives. -/
theorem parse_spelled_eq_ok_iff (line : CommandLine) (given : Arguments) :
    Arguments.parse line.spelled = .ok given ↔ line.Proper ∧ line.Gives given := by
  simp only [parse_eq_ok_iff_complete, Progress.complete_spelled_eq_ok_iff, and_assoc, exists_and_left, exists_eq_left']
  constructor
  · rintro ⟨proper, paths, format, verbose, quiet⟩
    exact ⟨proper, paths.symm, format.symm, verbose.symm, quiet.symm⟩
  · rintro ⟨proper, gives⟩
    exact ⟨proper, gives.paths.symm, gives.format.symm, gives.verbose.symm, gives.quiet.symm⟩

theorem exists_line_of_parse {arguments : List Text} {given : Arguments}
    (read : Arguments.parse arguments = .ok given) : ∃ line : CommandLine, line.spelled = arguments := by
  obtain ⟨final, reached, -⟩ := parse_eq_ok_iff_complete.mp read
  exact (Progress.exists_spelled reached).1 (by simp)

namespace CommandLine

theorem lone_mem_splitOn {before behind : List (Option Text)} (path : Text) (free : ∀ place ∈ before, place = none)
    (clear : ∀ place ∈ behind, place = none) : [some path] ∈ (before ++ some path :: behind).splitOn none := by
  induction before with
  | nil =>
      cases behind with
      | nil => exact splitOn_map_some [path] ▸ List.mem_singleton_self _
      | cons place rest =>
          obtain rfl := clear place (by simp)
          exact splitOn_group_cons [path] rest ▸ List.mem_cons_self
  | cons place rest ih =>
      obtain ⟨rfl, later⟩ := List.forall_mem_cons.mp free
      rw [List.cons_append, splitOn_none_cons]
      exact List.mem_cons_of_mem _ (ih later)

theorem paths_of_behind (words : List Word) (behind : List Text) :
    (mk words (some behind)).paths = words.filterMap Word.path? ++ behind := by
  simp [paths, places, List.filterMap_map]

variable {line : CommandLine}

theorem eq_of_spelled {before behind : List Text} (same : line.spelled = before ++ "--".toList :: behind)
    (absent : "--".toList ∉ before) : line.words.flatMap Word.spelled = before ∧ line.behind = some behind := by
  have noDashes : "--".toList ∉ line.words.flatMap Word.spelled := by
    simp only [List.mem_flatMap, not_exists, not_and]
    exact fun word _ => dashes_notMem_spelled word
  obtain ⟨between, rfl, rest⟩ := Text.exists_eq_append_of_notMem noDashes same
  cases ending : line.behind with
  | none => simp [ending] at rest
  | some paths =>
      simp only [ending] at rest
      cases between with
      | nil =>
          obtain rfl : paths = behind := (List.cons.inj rest).2
          exact ⟨(List.append_nil _).symm, rfl⟩
      | cons argument more =>
          obtain rfl : "--".toList = argument := (List.cons.inj rest).1
          simp at absent

theorem Proper.two_le_length_paths (proper : line.Proper) (given : line.paths ≠ []) : 2 ≤ line.paths.length := by
  by_contra few
  have positive := List.length_pos_iff.mpr given
  obtain ⟨path, single⟩ := List.length_eq_one_iff.mp (show line.paths.length = 1 by omega)
  obtain ⟨before, place, behind, whole, free, placed, clear⟩ := List.filterMap_eq_cons_iff.mp single
  obtain rfl : place = some path := placed
  have lone := lone_mem_splitOn path free (List.filterMap_eq_nil_iff.mp clear)
  rw [← whole] at lone
  exact proper.accompanied _ lone rfl

theorem proper_of_noPath {words : List Word} {paths : List Text} (noPath : ∀ word ∈ words, word.path? = none)
    (once : ((words.flatMap Word.choices).map Choice.setting).Nodup) (enough : paths.length ≠ 1) :
    (CommandLine.mk words (some paths)).Proper := by
  refine ⟨once, ?_⟩
  clear once
  induction words with
  | nil =>
      have places : (CommandLine.mk [] (some paths)).places = paths.map some := rfl
      simpa [places, splitOn_map_some] using enough
  | cons word rest ih =>
      obtain ⟨first, later⟩ := List.forall_mem_cons.mp noPath
      rw [places_cons, first, splitOn_none_cons, List.forall_mem_cons]
      exact ⟨by simp, ih later⟩

end CommandLine

theorem parse_of_noPath {words : List Word} {inputs : List Text} (noPath : ∀ word ∈ words, word.path? = none)
    (once : ((words.flatMap Word.choices).map Choice.setting).Nodup) (some_input : inputs ≠ []) (output : Text) :
    Arguments.parse (words.flatMap Word.spelled ++ "--".toList :: (inputs ++ [output])) = .ok {
      inputs := inputs
      output := output
      format := ((words.flatMap Word.choices).findSome? Choice.format?).getD "protobuf".toList
      verbose := (words.flatMap Word.choices).contains (.flag .verbose)
      quiet := (words.flatMap Word.choices).contains (.flag .quiet) } := by
  have enough : (inputs ++ [output]).length ≠ 1 := by simpa using some_input
  have paths : (CommandLine.mk words (some (inputs ++ [output]))).paths = inputs ++ [output] := by
    rw [CommandLine.paths_of_behind, List.filterMap_eq_nil_iff.mpr noPath, List.nil_append]
  exact (parse_spelled_eq_ok_iff ⟨words, some (inputs ++ [output])⟩ _).mpr
    ⟨CommandLine.proper_of_noPath noPath once enough, paths.symm, rfl, rfl, rfl⟩

theorem error_run_ne (drawing : Drawing) (tree : FileTree) (given : Arguments) :
    (given.run drawing tree).error ≠ "Error: an output file is required\n".toList := by
  rw [Arguments.run]
  split
  · exact (List.cons_ne_nil _ _).symm
  · next failure _ =>
      have letter : failure.render[7]? ≠ some 'a' := by
        cases failure with
        | unknownFormat name => change some 'u' ≠ some 'a'; decide
        | input error =>
            cases error with
            | invalidPattern pattern error => change some 'i' ≠ some 'a'; decide
            | noMatch pattern => change some 'n' ≠ some 'a'; decide
        | temporaryFile directory temporary error => change some 'f' ≠ some 'a'; decide
        | output path error => change some 'f' ≠ some 'a'; decide
      intro same
      change failure.render = _ at same
      rw [same] at letter
      exact letter rfl

/-- What holds of arguments that are accepted. Whatever command line spells them, its paths are those that are given. -/
structure Divided (arguments : List Text) (given : Arguments) : Prop where
  spelled : ∃ line : CommandLine, line.spelled = arguments
  gives : ∀ line : CommandLine, line.spelled = arguments → line.Proper ∧ line.Gives given
  two_le : 2 ≤ given.paths.length
  inputs_ne_nil : given.inputs ≠ []
  output : ∀ line : CommandLine, line.spelled = arguments → line.paths.getLast? = some given.output
  behind : ∀ before behind : List Text, arguments = before ++ "--".toList :: behind → "--".toList ∉ before →
    ∃ words : List Word, words.flatMap Word.spelled = before ∧
      given.paths = words.filterMap Word.path? ++ behind
  error_ne : ∀ (drawing : Drawing) (tree : FileTree),
    (run drawing tree arguments).error ≠ "Error: an output file is required\n".toList

theorem divided_of_parse {arguments : List Text} {given : Arguments} (read : Arguments.parse arguments = .ok given) :
    Divided arguments given := by
  have gives : ∀ line : CommandLine, line.spelled = arguments → line.Proper ∧ line.Gives given := by
    rintro line rfl
    exact (parse_spelled_eq_ok_iff line given).mp read
  obtain ⟨line, spelled⟩ := exists_line_of_parse read
  obtain ⟨proper, given_line⟩ := gives line spelled
  have two_le : 2 ≤ given.paths.length := by
    rw [given_line.paths]
    apply proper.two_le_length_paths
    rw [← given_line.paths]
    simp [Arguments.paths]
  constructor
  case spelled => exact ⟨line, spelled⟩
  case gives => exact gives
  case two_le => exact two_le
  case inputs_ne_nil =>
    intro none
    simp [Arguments.paths, none] at two_le
  case output =>
    intro other same
    rw [← (gives other same).2.paths, Arguments.paths, List.getLast?_concat]
  case behind =>
    intro before behind same absent
    obtain ⟨words, ending⟩ := line
    obtain ⟨spelledBefore, rfl⟩ := CommandLine.eq_of_spelled (spelled.trans same) absent
    exact ⟨words, spelledBefore, given_line.paths.trans (CommandLine.paths_of_behind words behind)⟩
  case error_ne =>
    intro drawing tree
    rw [run_of_parse drawing tree read]
    exact error_run_ne drawing tree given

/-- Arguments that are accepted are divided into settings and paths as they are spelled; and settings, each given once
at most, are accepted with two paths or more behind `--`, whatever these look like. -/
theorem parse_divided :
    (∀ (arguments : List Text) (given : Arguments), Arguments.parse arguments = .ok given →
      Divided arguments given) ∧
    ∀ (words : List Word) (paths : List Text), (∀ word ∈ words, word.path? = none) →
      ((words.flatMap Word.choices).map Choice.setting).Nodup → 2 ≤ paths.length →
      ∃ given, Arguments.parse (words.flatMap Word.spelled ++ "--".toList :: paths) = .ok given ∧
        given.paths = paths := by
  refine ⟨fun arguments given read => divided_of_parse read, ?_⟩
  intro words paths noPath once enough
  rcases List.eq_nil_or_concat paths with rfl | ⟨inputs, output, rfl⟩
  · simp at enough
  · rw [List.concat_eq_append] at enough ⊢
    have some_input : inputs ≠ [] := by
      rintro rfl
      simp at enough
    exact ⟨_, parse_of_noPath noPath once some_input output, rfl⟩

def mixedArguments : List Text :=
  ["b.c".toList, "-".toList, "-vqf=json".toList, "a.c".toList, "--".toList, "-o".toList]

def mixedGiven : Arguments :=
  ⟨["b.c".toList, "-".toList, "a.c".toList], "-o".toList, "json".toList, true, true⟩

def mixedWords : List Word :=
  [.formatApart (.short [.quiet]) ['-'] (by decide), .flag .verbose]

def dashedPaths : List Text :=
  ["--".toList, "--verbose".toList]

theorem parse_divided_mixed :
    (Arguments.parse mixedArguments = .ok mixedGiven ∧ Divided mixedArguments mixedGiven) ∧
    (∀ word ∈ mixedWords, word.path? = none) ∧
    ((mixedWords.flatMap Word.choices).map Choice.setting).Nodup ∧ 2 ≤ dashedPaths.length ∧
    ∃ given, Arguments.parse (mixedWords.flatMap Word.spelled ++ "--".toList :: dashedPaths) = .ok given ∧
      given.paths = dashedPaths := by
  have read : Arguments.parse mixedArguments = .ok mixedGiven := by decide
  have noPath : ∀ word ∈ mixedWords, word.path? = none := by simp [mixedWords, Word.path?]
  have once : ((mixedWords.flatMap Word.choices).map Choice.setting).Nodup := by decide
  have enough : 2 ≤ dashedPaths.length := by decide
  exact ⟨⟨read, parse_divided.1 _ _ read⟩, noPath, once, enough, parse_divided.2 _ _ noPath once enough⟩

end Cli

end ApiDoc
