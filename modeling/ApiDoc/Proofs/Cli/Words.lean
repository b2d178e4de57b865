import ApiDoc.Cli.CommandLine
import ApiDoc.Proofs.Text.Delimited

/-!
Reading a command line word by word.

A word that is no path is read as the choices it makes, one after another, in whatever way it is spelled. What is
pending is settled first, so it does not matter that a format in the next argument is taken in late.
-/

namespace ApiDoc

namespace Cli

theorem bind_eq_ok_iff {ε α β : Type} {first : Except ε α} {more : α → Except ε β} {last : β} :
    first.bind more = .ok last ↔ ∃ next, first = .ok next ∧ more next = .ok last := by
  cases first <;> simp [Except.bind]

theorem FormatName.spelled_short_append (flags : List Flag) (ending : Text) :
    (short flags).spelled ++ ending = '-' :: flags.map Flag.letter ++ 'f' :: ending :=
  List.append_assoc ('-' :: flags.map Flag.letter) ['f'] ending

theorem dashes_notMem_spelled (word : Word) : "--".toList ∉ word.spelled := by
  have dashes : "--".toList = ['-', '-'] := by decide
  have letters (flags : List Flag) (ending : Text) (other : ['-'] ≠ ending) :
      ['-', '-'] ≠ '-' :: (flags.map Flag.letter ++ ending) := by
    cases flags with
    | nil => simpa using other
    | cons flag more => cases flag <;> simp [Flag.letter]
  have named (name : FormatName) (ending : Text) : ['-', '-'] ≠ name.spelled ++ ending := by
    cases name with
    | long =>
        change ['-', '-'] ≠ '-' :: '-' :: 'f' :: ("ormat".toList ++ ending)
        simp
    | short flags =>
        rw [FormatName.spelled_short_append]
        exact letters flags ('f' :: ending) (by simp)
  have unlike {argument : Text} (plain : Plain argument) : ['-', '-'] ≠ argument := by
    rintro rfl
    exact absurd plain (by decide)
  rw [dashes]
  cases word with
  | path given plain => exact mt List.mem_singleton.mp (unlike plain)
  | flag given => cases given <;> decide
  | flags first more => simpa [Word.spelled] using letters (first :: more) [] (by simp)
  | formatApart name value plain =>
      have noName := named name []
      rw [List.append_nil] at noName
      simp [Word.spelled, noName, unlike plain]
  | formatAssigned name value => exact mt List.mem_singleton.mp (named name ('=' :: value))
  | formatJoined before first more notSign =>
      exact mt List.mem_singleton.mp (letters before ('f' :: first :: more) (by simp))

theorem choices_ne_nil {word : Word} (noPath : word.path? = none) : word.choices ≠ [] := by
  cases word <;> simp_all [Word.path?, Word.choices]

theorem spelled_cons (word : Word) (rest : List Word) (behind : Option (List Text)) :
    (CommandLine.mk (word :: rest) behind).spelled = word.spelled ++ (CommandLine.mk rest behind).spelled := by
  simp [CommandLine.spelled]

namespace Progress

/-! ### What is pending -/

section Settling

variable {progress settled : Progress}

theorem settle_of_nothing (nothing : progress.pending = .nothing) : progress.settle = .ok progress := by
  rw [settle, nothing]
  simp [← nothing]

theorem settle_of_awaited (awaited : progress.pending = .format none) :
    progress.settle = .error (.usage .noFormat) := by
  rw [settle, awaited]

theorem pending_of_setFormat {value : Text} (reached : progress.setFormat value = .ok settled) :
    settled.pending = progress.pending := by
  rw [setFormat] at reached
  split at reached
  · contradiction
  · cases reached
    rfl

theorem pending_of_settle (reached : progress.settle = .ok settled) : settled.pending = .nothing := by
  rw [settle] at reached
  split at reached
  · cases reached
    rfl
  · split at reached
    · contradiction
    · cases reached
      rfl
  · contradiction
  · exact pending_of_setFormat reached

theorem settle_of_settle (reached : progress.settle = .ok settled) : settled.settle = .ok settled :=
  settle_of_nothing (pending_of_settle reached)

end Settling

/-! ### Choices -/

def choose (progress : Progress) : Choice → Except Stop Progress
  | .flag flag => progress.set flag.setting
  | .format value => progress.assignFormat value

def chooseAll (progress : Progress) : List Choice → Except Stop Progress
  | [] => .ok progress
  | choice :: rest => (progress.choose choice).bind fun next => next.chooseAll rest

section Words

variable (progress : Progress)

theorem chooseAll_append (first rest : List Choice) :
    progress.chooseAll (first ++ rest) = (progress.chooseAll first).bind fun next => next.chooseAll rest := by
  induction first generalizing progress with
  | nil => rfl
  | cons choice first ih =>
      rw [List.cons_append, chooseAll, chooseAll]
      cases progress.choose choice with
      | error stop => rfl
      | ok next => exact ih next

theorem chooseAll_singleton (choice : Choice) : progress.chooseAll [choice] = progress.choose choice := by
  rw [chooseAll]
  cases progress.choose choice <;> rfl

theorem choose_eq_settle_bind (choice : Choice) :
    progress.choose choice = progress.settle.bind fun settled => settled.choose choice := by
  cases reached : progress.settle with
  | error stop => cases choice <;> simp [choose, set, assignFormat, reached, Except.bind]
  | ok settled =>
      cases choice <;> simp [choose, set, assignFormat, reached, settle_of_settle reached, Except.bind]

theorem chooseAll_eq_settle_bind {choices : List Choice} (made : choices ≠ []) :
    progress.chooseAll choices = progress.settle.bind fun settled => settled.chooseAll choices := by
  cases choices with
  | nil => contradiction
  | cons choice rest =>
      simp only [chooseAll]
      rw [choose_eq_settle_bind]
      cases progress.settle <;> rfl

/-! ### Arguments of a word -/

theorem short_setting {letter : Char} {setting : Setting} (named : Setting.ofLetter? letter = some setting)
    (noFormat : setting ≠ .format) (rest : Text) :
    progress.short (letter :: rest) = (progress.set setting).bind fun next => next.short rest := by
  cases setting with
  | format => contradiction
  | _ =>
      simp only [short, named]
      split <;> simp [*, Except.bind]

theorem short_joined {first : Char} (notSign : first ≠ '=') (more : Text) :
    progress.short ('f' :: first :: more) = progress.assignFormat (first :: more) := by
  have named : Setting.ofLetter? 'f' = some .format := rfl
  simp [short, named, notSign]

theorem short_flags (flags : List Flag) (ending : Text) :
    progress.short (flags.map Flag.letter ++ ending) =
      (progress.chooseAll (flags.map .flag)).bind fun next => next.short ending := by
  induction flags generalizing progress with
  | nil => rfl
  | cons flag rest ih =>
      have named : Setting.ofLetter? flag.letter = some flag.setting := by cases flag <;> rfl
      have noFormat : flag.setting ≠ .format := by cases flag <;> simp [Flag.setting]
      simp only [List.map_cons, List.cons_append, chooseAll, choose]
      rw [progress.short_setting named noFormat]
      cases progress.set flag.setting with
      | error stop => rfl
      | ok next => exact ih next

theorem argument_short (flags : List Flag) (ending : Text) :
    progress.argument ('-' :: flags.map Flag.letter ++ 'f' :: ending) =
      (progress.chooseAll (flags.map .flag)).bind fun next => next.short ('f' :: ending) := by
  rw [← short_flags]
  cases flags with
  | nil => rfl
  | cons flag rest => cases flag <;> rfl

theorem argument_flag (flag : Flag) : progress.argument flag.long = progress.chooseAll [.flag flag] := by
  rw [chooseAll_singleton]
  cases flag <;> rfl

theorem argument_flags (first : Flag) (more : List Flag) :
    progress.argument ('-' :: (first :: more).map Flag.letter) =
      progress.chooseAll ((first :: more).map .flag) := by
  have read : progress.argument ('-' :: (first :: more).map Flag.letter) =
      progress.short ((first :: more).map Flag.letter ++ []) := by
    rw [List.append_nil]
    cases first <;> rfl
  rw [read, short_flags]
  cases progress.chooseAll ((first :: more).map .flag) <;> rfl

theorem argument_formatApart (name : FormatName) :
    progress.argument name.spelled =
      (progress.chooseAll (name.flags.map .flag)).bind fun next => next.set .format := by
  cases name with
  | long => rfl
  | short flags => exact progress.argument_short flags []

theorem argument_formatAssigned (name : FormatName) (value : Text) :
    progress.argument (name.spelled ++ '=' :: value) =
      progress.chooseAll (name.flags.map .flag ++ [.format value]) := by
  cases name with
  | long =>
      have cut : cutAt? ['='] ("format".toList ++ '=' :: value) = some ("format".toList, value) :=
        cutAt?_singleton_append (by decide) value
      change progress.long ("format".toList ++ '=' :: value) = progress.chooseAll [.format value]
      rw [long, cut, chooseAll_singleton]
      rfl
  | short flags =>
      rw [FormatName.spelled_short_append, argument_short, chooseAll_append]
      simp only [chooseAll_singleton]
      rfl

theorem argument_formatJoined (flags : List Flag) {first : Char} (notSign : first ≠ '=') (more : Text) :
    progress.argument ('-' :: flags.map Flag.letter ++ 'f' :: first :: more) =
      progress.chooseAll (flags.map .flag ++ [.format (first :: more)]) := by
  rw [argument_short, chooseAll_append]
  simp only [chooseAll_singleton, short_joined _ notSign, choose]

variable {progress}

theorem argument_value {argument : Text} (plain : Plain argument) (awaited : progress.pending = .format none) :
    progress.argument argument = .ok { progress with pending := .format (some argument) } := by
  unfold Progress.argument
  split
  · simp [Plain] at plain
  · simp [Plain] at plain
  · rfl
  · contradiction

theorem argument_path {argument : Text} (plain : Plain argument) (unawaited : progress.pending ≠ .format none) :
    progress.argument argument = progress.path argument := by
  unfold Progress.argument
  split
  · simp [Plain] at plain
  · simp [Plain] at plain
  · contradiction
  · rfl

theorem path_eq_settle_bind (ended : ∀ paths, progress.pending ≠ .group paths) (path : Text) :
    progress.path path = progress.settle.bind fun settled => settled.path path := by
  unfold Progress.path
  split
  · next paths pending => exact absurd pending (ended paths)
  · cases reached : progress.settle with
    | error stop => rfl
    | ok settled => simp [Except.map, Except.bind, pending_of_settle reached, settle_of_settle reached]

end Words

/-! ### Words -/

def complete (progress : Progress) (arguments : List Text) : Except Stop Progress :=
  (progress.take arguments).bind settle

section Completing

variable (progress : Progress)

theorem complete_cons {argument : Text} (noDashes : argument ≠ "--".toList) (rest : List Text) :
    progress.complete (argument :: rest) = (progress.argument argument).bind fun next => next.complete rest := by
  rw [complete, take, if_neg noDashes]
  cases progress.argument argument <;> rfl

theorem complete_behind (behind : Option (List Text)) :
    progress.complete (CommandLine.mk [] behind).spelled =
      (progress.takePaths (behind.getD [])).bind settle := by
  cases behind with
  | none => rfl
  | some paths =>
      simp only [CommandLine.spelled, List.flatMap_nil, List.nil_append, complete, take, if_true, Option.getD_some]

theorem complete_path {path : Text} (plain : Plain path) (unawaited : progress.pending ≠ .format none)
    (rest : List Text) :
    progress.complete (path :: rest) = (progress.path path).bind fun next => next.complete rest := by
  have noDashes := dashes_notMem_spelled (.path path plain)
  rw [complete_cons, argument_path plain unawaited]
  simpa [Word.spelled, eq_comm] using noDashes

/-- Whether it makes no difference to the rest that a format is taken in before it is read. -/
def Patient (rest : List Text) : Prop :=
  ∀ (progress : Progress) (value : Text), progress.pending = .format (some value) →
    progress.complete rest = progress.settle.bind fun settled => settled.complete rest

theorem complete_formatApart (name : FormatName) {value : Text} (plain : Plain value) {rest : List Text}
    (patient : Patient rest) :
    progress.complete ((Word.formatApart name value plain).spelled ++ rest) =
      (progress.chooseAll (Word.formatApart name value plain).choices).bind fun next => next.complete rest := by
  have noDashes := dashes_notMem_spelled (.formatApart name value plain)
  simp only [Word.spelled, List.mem_cons, List.not_mem_nil, or_false, not_or, ← ne_eq] at noDashes
  rw [Word.spelled, List.cons_append, List.singleton_append, complete_cons _ noDashes.1.symm, argument_formatApart,
    Word.choices, chooseAll_append]
  cases progress.chooseAll (name.flags.map .flag) with
  | error stop => rfl
  | ok next =>
      simp only [Except.bind, chooseAll_singleton, choose, assignFormat, set]
      cases reached : next.settle with
      | error stop => rfl
      | ok settled =>
          have nothing := pending_of_settle reached
          simp only
          rw [complete_cons _ noDashes.2.symm, argument_value plain rfl]
          simp only [Except.bind]
          rw [patient _ value rfl]
          simp [settle, ← nothing, Except.bind]

theorem complete_word {word : Word} (noPath : word.path? = none) {rest : List Text} (patient : Patient rest) :
    progress.complete (word.spelled ++ rest) =
      (progress.chooseAll word.choices).bind fun next => next.complete rest := by
  have single {argument : Text} (spelled : word.spelled = [argument])
      (read : progress.argument argument = progress.chooseAll word.choices) :
      progress.complete (word.spelled ++ rest) =
        (progress.chooseAll word.choices).bind fun next => next.complete rest := by
    have noDashes := dashes_notMem_spelled word
    rw [spelled, List.mem_singleton] at noDashes
    rw [spelled, List.singleton_append, complete_cons _ (Ne.symm noDashes), read]
  cases word with
  | path given plain => simp [Word.path?] at noPath
  | flag given => exact single rfl (progress.argument_flag given)
  | flags first more => exact single rfl (progress.argument_flags first more)
  | formatApart name value plain => exact progress.complete_formatApart name plain patient
  | formatAssigned name value => exact single rfl (progress.argument_formatAssigned name value)
  | formatJoined before first more notSign => exact single rfl (progress.argument_formatJoined before notSign more)

end Completing

theorem patient_spelled (words : List Word) (behind : Option (List Text)) :
    Patient (CommandLine.mk words behind).spelled := by
  induction words with
  | nil =>
      intro progress value valued
      simp only [complete_behind]
      cases behind.getD [] with
      | nil =>
          simp only [takePaths, Except.bind]
          cases reached : progress.settle with
          | error stop => rfl
          | ok settled => exact (settle_of_settle reached).symm
      | cons path rest =>
          simp only [takePaths]
          rw [path_eq_settle_bind (by simp [valued])]
          cases progress.settle <;> rfl
  | cons word rest ih =>
      intro progress value valued
      simp only [spelled_cons]
      cases noPath : word.path? with
      | none =>
          simp only [complete_word _ noPath ih]
          rw [chooseAll_eq_settle_bind _ (choices_ne_nil noPath)]
          cases progress.settle <;> rfl
      | some path =>
          cases word with
          | path given plain =>
              simp only [Word.spelled, List.singleton_append]
              rw [complete_path _ plain (by simp [valued]), path_eq_settle_bind (by simp [valued])]
              cases reached : progress.settle with
              | error stop => rfl
              | ok settled =>
                  have unawaited : settled.pending ≠ .format none := by simp [pending_of_settle reached]
                  exact (complete_path _ plain unawaited _).symm
          | _ => contradiction

end Progress

end Cli

end ApiDoc
