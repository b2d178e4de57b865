import ApiDoc.Proofs.Cli.CommandLine
import ApiDoc.Proofs.Cli.AllOrNothing

/-!
Verbosity decides what of the log is shown.

A run does the same whether it is asked to be verbose, quiet, both or neither. It shows its whole log when it is
verbose, the warnings among it by default, and none of it when it is quiet. The settings are spelled out before
`--`, so that any paths can stand behind it.
-/

namespace ApiDoc

namespace Cli

def line (verbose quiet : Bool) (format : Text) (paths : List Text) : List Text :=
  (if verbose then ["-v".toList] else []) ++ (if quiet then ["-q".toList] else []) ++
    ("--format=".toList ++ format) :: "--".toList :: paths

def lineWords (verbose quiet : Bool) (format : Text) : List Word :=
  (if verbose then [.flags .verbose []] else []) ++ (if quiet then [.flags .quiet []] else []) ++
    [.formatAssigned .long format]

theorem spelled_lineWords (verbose quiet : Bool) (format : Text) (paths : List Text) :
    (lineWords verbose quiet format).flatMap Word.spelled ++ "--".toList :: paths =
      line verbose quiet format paths := by
  cases verbose <;> cases quiet <;> rfl

theorem parse_line (verbose quiet : Bool) (format first : Text) (more : List Text) (output : Text) :
    Arguments.parse (line verbose quiet format (first :: more ++ [output])) =
      .ok ⟨first :: more, output, format, verbose, quiet⟩ := by
  have noPath : ∀ word ∈ lineWords verbose quiet format, word.path? = none := by
    cases verbose <;> cases quiet <;> simp [lineWords, Word.path?]
  have once : (((lineWords verbose quiet format).flatMap Word.choices).map Choice.setting).Nodup := by
    cases verbose <;> cases quiet <;> simp [lineWords, Word.choices, Choice.setting, Flag.setting, FormatName.flags]
  have read := parse_of_noPath noPath once (List.cons_ne_nil first more) output
  rw [spelled_lineWords] at read
  rw [read]
  cases verbose <;> cases quiet <;> rfl

end Cli

namespace Log

variable (log : Log)

theorem filter_debug : log.filter .debug = log := by
  have all : ∀ record ∈ log.records, Level.debug.shown record.level := by
    intro record _
    exact decide_eq_true (Nat.zero_le _)
  rw [filter, List.filter_eq_self.mpr all]

theorem records_filter_warn :
    (log.filter .warn).records = log.records.filter fun record => record.level = .warn := by
  rw [filter]
  apply List.filter_congr
  intro record _
  cases record <;> rfl

theorem records_filter_error : (log.filter .error).records = [] := by
  rw [filter, List.filter_eq_nil_iff]
  intro record _
  cases record <;> exact Bool.false_ne_true

end Log

namespace Cli

theorem Arguments.run_eq_of_request_eq {given other : Arguments} (drawing : Drawing) (tree : FileTree)
    (same : given.request = other.request) : given.run drawing tree =
      { other.run drawing tree with
        log := (Extraction.ofRequest drawing tree other.request).log.filter given.threshold } := by
  rw [run, run, same]
  dsimp only
  split <;> rfl

/-- The verbosity changes nothing but what is shown of the log. Whatever settings come first and however they are
written, the same paths and the same format lead to the same status, answer, error and files; the log is shown
as a whole, or less all but its warnings, or not at all. Another name for the temporary file changes at most how an
error is told. -/
theorem run_verbosity (drawing : Drawing) (tree : FileTree) (format first : Text) (more : List Text)
    (output : Text) :
    let paths := first :: more ++ [output]
    let outcome verbose quiet := run drawing tree (line verbose quiet format paths)
    (∀ verbose quiet,
      (outcome verbose quiet).status = (outcome false false).status ∧
      (outcome verbose quiet).answer = (outcome false false).answer ∧
      (outcome verbose quiet).error = (outcome false false).error ∧
      (outcome verbose quiet).files = (outcome false false).files) ∧
    (outcome true true).log = (outcome true false).log ∧
    (outcome false false).log.records =
      (outcome true false).log.records.filter (fun record => record.level = .warn) ∧
    (outcome false true).log.records = [] ∧
    (outcome true false).log = (Extraction.ofRequest drawing tree ⟨first :: more, output, format⟩).log ∧
    ∀ arguments given, Arguments.parse arguments = .ok given → given.paths = paths → given.format = format →
      run drawing tree arguments = outcome given.verbose given.quiet ∧
      ∀ other, run other tree arguments = run drawing tree arguments ∨
        (run other tree arguments).status = 1 ∧
          ∃ error, run other tree arguments = { run drawing tree arguments with error := error } := by
  intro paths outcome
  let given verbose quiet : Arguments := ⟨first :: more, output, format, verbose, quiet⟩
  let log := (Extraction.ofRequest drawing tree ⟨first :: more, output, format⟩).log
  have runs (verbose quiet : Bool) : outcome verbose quiet = (given verbose quiet).run drawing tree :=
    run_of_parse drawing tree (parse_line verbose quiet format first more output)
  have same (verbose quiet : Bool) : outcome verbose quiet =
      { outcome false false with log := log.filter (.least verbose quiet) } := by
    rw [runs, runs]
    exact Arguments.run_eq_of_request_eq drawing tree rfl
  have shown (verbose quiet : Bool) : (outcome verbose quiet).log = log.filter (.least verbose quiet) := by
    rw [same]
  have whole (quiet : Bool) : (outcome true quiet).log = log := by
    rw [shown]
    exact log.filter_debug
  refine ⟨?_, ?_, ?_, ?_, ?_, ?_⟩
  · intro verbose quiet
    rw [same verbose quiet]
    exact ⟨rfl, rfl, rfl, rfl⟩
  · rw [whole, whole]
  · rw [whole, shown]
    exact log.records_filter_warn
  · rw [shown]
    exact log.records_filter_error
  · exact whole false
  · intro arguments other read samePaths sameFormat
    have fields : other = given other.verbose other.quiet := by
      obtain ⟨inputs, last, format', verbose, quiet⟩ := other
      obtain ⟨rfl, tails⟩ := List.append_inj' samePaths rfl
      cases tails
      cases sameFormat
      rfl
    refine ⟨?_, fun other => run_drawn tree other drawing arguments⟩
    rw [run_of_parse drawing tree read, runs, ← fields]

end Cli

end ApiDoc
