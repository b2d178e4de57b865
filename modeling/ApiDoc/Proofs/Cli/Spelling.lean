import ApiDoc.Proofs.Cli.Words

/-!
Whatever can be read is spelled by a command line.

An argument that can be read, whatever has been read before it, is a path, a word of another kind, or the name of a
format. Then the next argument is the value, so a command line can be put together from the back.
-/

namespace ApiDoc

namespace Cli

namespace Setting

variable {setting : Setting}

theorem name_of_ofName? {name : Text} (named : ofName? name = some setting) : setting.name = name := by
  simpa using List.find?_some named

theorem letter_of_ofLetter? {letter : Char} (named : ofLetter? letter = some setting) : setting.letter = letter := by
  simpa using List.find?_some named

theorem exists_flag (noFormat : setting ≠ .format) (noHelp : setting ≠ .help) :
    ∃ flag : Flag, flag.letter = setting.letter := by
  cases setting with
  | verbose => exact ⟨.verbose, rfl⟩
  | quiet => exact ⟨.quiet, rfl⟩
  | _ => contradiction

end Setting

namespace Progress

section Spelling

variable {progress next : Progress}

theorem pending_of_assignFormat {value : Text} (reached : progress.assignFormat value = .ok next) :
    next.pending = .nothing := by
  obtain ⟨settled, settles, assigned⟩ := bind_eq_ok_iff.mp reached
  rw [pending_of_setFormat assigned, pending_of_settle settles]

theorem pending_of_set {setting : Setting} (reached : progress.set setting = .ok next) :
    setting ≠ .help ∧ next.pending = if setting = .format then .format none else .nothing := by
  rw [set] at reached
  split at reached
  · contradiction
  · next settled settles =>
      have nothing := pending_of_settle settles
      cases setting with
      | help => contradiction
      | format =>
          cases reached
          simp
      | verbose | quiet =>
          simp only at reached
          split at reached
          · contradiction
          · cases reached
            simpa using nothing

theorem pending_of_path {path : Text} (reached : progress.path path = .ok next) :
    next.pending ≠ .format none := by
  rw [Progress.path] at reached
  split at reached
  · cases reached
    simp
  · cases settles : progress.settle with
    | error stop => simp [settles, Except.map] at reached
    | ok settled =>
        rw [settles] at reached
        cases reached
        simp

theorem spelled_of_long {argument : Text} (reached : progress.long argument = .ok next) :
    (∃ word : Word, word.path? = none ∧ word.spelled = ['-' :: '-' :: argument] ∧ next.pending = .nothing) ∨
      ∃ name : FormatName, name.spelled = '-' :: '-' :: argument ∧ next.pending = .format none := by
  unfold long at reached
  cases cut : cutAt? ['='] argument with
  | none =>
      simp only [cut] at reached
      cases named : Setting.ofName? argument with
      | none => simp [named] at reached
      | some setting =>
          obtain rfl : setting.name = argument := Setting.name_of_ofName? named
          simp only [named] at reached
          obtain ⟨noHelp, pending⟩ := pending_of_set reached
          cases setting with
          | help => contradiction
          | format => exact .inr ⟨.long, rfl, pending⟩
          | verbose => exact .inl ⟨.flag .verbose, rfl, rfl, pending⟩
          | quiet => exact .inl ⟨.flag .quiet, rfl, rfl, pending⟩
  | some parts =>
      obtain ⟨name, value⟩ := parts
      obtain rfl : argument = name ++ ['='] ++ value := eq_append_of_cutAt? cut
      simp only [cut] at reached
      cases named : Setting.ofName? name with
      | none => simp [named] at reached
      | some setting =>
          obtain rfl : setting.name = name := Setting.name_of_ofName? named
          simp only [named] at reached
          cases setting with
          | format =>
              exact .inl ⟨.formatAssigned .long value, rfl, rfl, pending_of_assignFormat reached⟩
          | _ => contradiction

theorem pending_of_short_format {ending : Text} (reached : progress.short ('f' :: ending) = .ok next) :
    next.pending = if ending = [] then .format none else .nothing := by
  rcases ending with _ | ⟨first, more⟩
  · exact (pending_of_set reached).2
  · by_cases sign : first = '='
    · subst sign
      exact pending_of_assignFormat reached
    · rw [short_joined _ sign] at reached
      exact pending_of_assignFormat reached

theorem exists_flags_of_short {letters : Text} (reached : progress.short letters = .ok next) :
    ∃ flags : List Flag,
      letters = flags.map Flag.letter ∧ (letters = [] ∨ next.pending = .nothing) ∨
        ∃ ending, letters = flags.map Flag.letter ++ 'f' :: ending ∧
          next.pending = if ending = [] then .format none else .nothing := by
  induction letters generalizing progress with
  | nil => exact ⟨[], .inl ⟨rfl, .inl rfl⟩⟩
  | cons letter rest ih =>
      cases named : Setting.ofLetter? letter with
      | none => simp [short, named] at reached
      | some setting =>
          obtain rfl : setting.letter = letter := Setting.letter_of_ofLetter? named
          by_cases format : setting = .format
          · subst format
            exact ⟨[], .inr ⟨rest, rfl, pending_of_short_format reached⟩⟩
          · rw [short_setting _ named format] at reached
            obtain ⟨flagged, first, later⟩ := bind_eq_ok_iff.mp reached
            obtain ⟨noHelp, pending⟩ := pending_of_set first
            obtain ⟨flag, same⟩ := Setting.exists_flag format noHelp
            obtain ⟨flags, ⟨spelled, ended⟩ | ⟨ending, spelled, ended⟩⟩ := ih later
            · refine ⟨flag :: flags, .inl ⟨by simp [spelled, same], .inr ?_⟩⟩
              rcases ended with none | nothing
              · subst none
                cases later
                simpa [format] using pending
              · exact nothing
            · exact ⟨flag :: flags, .inr ⟨ending, by simp [spelled, same], ended⟩⟩

theorem spelled_of_argument {argument : Text} (dashed : ¬ Plain argument)
    (reached : progress.argument argument = .ok next) :
    (∃ word : Word, word.path? = none ∧ word.spelled = [argument] ∧ next.pending = .nothing) ∨
      ∃ name : FormatName, name.spelled = argument ∧ next.pending = .format none := by
  obtain ⟨letter, rest, rfl⟩ : ∃ letter rest, argument = '-' :: letter :: rest := by
    rcases argument with _ | ⟨dash, _ | ⟨letter, rest⟩⟩ <;> simp_all [Plain]
  by_cases double : letter = '-'
  · subst double
    exact spelled_of_long reached
  · have single : progress.short (letter :: rest) = .ok next := by
      simpa [Progress.argument, double] using reached
    obtain ⟨flags, ⟨spelled, ended⟩ | ⟨ending, spelled, ended⟩⟩ := exists_flags_of_short single
    · cases flags with
      | nil => simp at spelled
      | cons first more =>
          refine .inl ⟨.flags first more, rfl, ?_, by simpa using ended⟩
          rw [spelled]
          rfl
    · rw [spelled]
      rcases ending with _ | ⟨first, more⟩
      · exact .inr ⟨.short flags, rfl, ended⟩
      · by_cases sign : first = '='
        · subst sign
          refine .inl ⟨.formatAssigned (.short flags) more, rfl, ?_, ended⟩
          exact congrArg (fun argument => [argument]) (FormatName.spelled_short_append flags ('=' :: more))
        · exact .inl ⟨.formatJoined flags first more sign, rfl, rfl, ended⟩

end Spelling

/-! ### What follows the name of a format -/

section Awaiting

variable {progress : Progress} (awaited : progress.pending = .format none)

include awaited

theorem complete_behind_of_awaited (behind : Option (List Text)) :
    progress.complete (CommandLine.mk [] behind).spelled = .error (.usage .noFormat) := by
  rw [complete_behind]
  cases behind.getD [] <;>
    simp [takePaths, Progress.path, awaited, settle_of_awaited awaited, Except.map, Except.bind]

theorem complete_word_of_awaited {word : Word} (noPath : word.path? = none) (line : CommandLine) :
    progress.complete (word.spelled ++ line.spelled) = .error (.usage .noFormat) := by
  rw [complete_word _ noPath (patient_spelled line.words line.behind),
    chooseAll_eq_settle_bind _ (choices_ne_nil noPath), settle_of_awaited awaited]
  rfl

end Awaiting

/-- Arguments that can be read to their end are spelled by a command line, and behind the name of a format by its value
and a command line. -/
theorem exists_spelled {progress final : Progress} {arguments : List Text}
    (reached : progress.complete arguments = .ok final) :
    (progress.pending ≠ .format none → ∃ line : CommandLine, line.spelled = arguments) ∧
      (progress.pending = .format none →
        ∃ (value : Text) (line : CommandLine), Plain value ∧ value :: line.spelled = arguments) := by
  induction arguments generalizing progress with
  | nil =>
      refine ⟨fun _ => ⟨⟨[], none⟩, rfl⟩, fun awaited => ?_⟩
      have failed := complete_behind_of_awaited awaited none
      exact absurd (failed.symm.trans reached) (by simp)
  | cons argument rest ih =>
      by_cases dashes : argument = "--".toList
      · subst dashes
        refine ⟨fun _ => ⟨⟨[], some rest⟩, rfl⟩, fun awaited => ?_⟩
        have failed := complete_behind_of_awaited awaited (some rest)
        exact absurd (failed.symm.trans reached) (by simp)
      · obtain ⟨next, read, later⟩ := bind_eq_ok_iff.mp ((progress.complete_cons dashes rest).symm.trans reached)
        obtain ⟨spelled, valued⟩ := ih later
        by_cases plain : Plain argument
        · constructor
          · intro unawaited
            rw [argument_path plain unawaited] at read
            obtain ⟨line, rfl⟩ := spelled (pending_of_path read)
            exact ⟨⟨.path argument plain :: line.words, line.behind⟩, spelled_cons _ _ _⟩
          · intro awaited
            rw [argument_value plain awaited] at read
            cases read
            obtain ⟨line, rfl⟩ := spelled (by simp)
            exact ⟨argument, line, plain, rfl⟩
        · -- A format that is only named here has its value at the head of what is left.
          obtain ⟨word, line, noPath, same⟩ : ∃ (word : Word) (line : CommandLine), word.path? = none ∧
              word.spelled ++ line.spelled = argument :: rest := by
            rcases spelled_of_argument plain read with ⟨word, noPath, same, nothing⟩ | ⟨name, rfl, awaited⟩
            · obtain ⟨line, rfl⟩ := spelled (by simp [nothing])
              exact ⟨word, line, noPath, by rw [same, List.singleton_append]⟩
            · obtain ⟨value, line, plainValue, rfl⟩ := valued awaited
              exact ⟨.formatApart name value plainValue, line, rfl, rfl⟩
          refine ⟨fun _ => ⟨⟨word :: line.words, line.behind⟩, (spelled_cons _ _ _).trans same⟩, fun awaited => ?_⟩
          have failed := complete_word_of_awaited awaited noPath line
          rw [same, reached] at failed
          contradiction

end Progress

end Cli

end ApiDoc
