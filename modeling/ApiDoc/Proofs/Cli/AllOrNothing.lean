import ApiDoc.Cli.Run
import ApiDoc.Proofs.Extraction
import ApiDoc.Proofs.Text.Lines

/-!
Runs are all or nothing.

A run that fails or prints help leaves the files as they were. A run that succeeds leaves the encoded
document of its inputs, as they were before it, in the file that its output path leads to, and all else
as it was. Over any number of runs the directories stay the same and no file goes away.
-/

namespace ApiDoc

namespace Cli

/-- What a run may do to the files: nothing, or to write its output as a whole. -/
structure AllOrNothing (before : FileTree) (arguments : List Text) (outcome : Outcome) : Prop where
  nothing : outcome.status ≠ 0 ∨ outcome.answer = help → outcome.files = before
  all : outcome.status = 0 → outcome.answer ≠ help →
    ∃ given format files location, Arguments.parse arguments = .ok given ∧
      Extraction.Writes before outcome.files given.request format files location

def filesAfter (tree : FileTree) (calls : List Call) : FileTree :=
  ((runs tree calls).getLast?.map Outcome.files).getD tree

theorem help_ne_nil : help ≠ [] := by
  rw [help, Text.unlines_cons_of_ne_nil _ (List.cons_ne_nil _ _)]
  exact List.append_ne_nil_of_right_ne_nil _ (List.cons_ne_nil _ _)

theorem run_of_parse {arguments : List Text} {given : Arguments} (drawing : Drawing) (tree : FileTree)
    (read : Arguments.parse arguments = .ok given) : run drawing tree arguments = given.run drawing tree := by
  rw [run, read]

theorem files_run_of_stop {arguments : List Text} {stop : Stop} (drawing : Drawing) (tree : FileTree)
    (read : Arguments.parse arguments = .error stop) : (run drawing tree arguments).files = tree := by
  rw [run, read]
  cases stop <;> rfl

theorem run_eq_of_stop {arguments : List Text} {stop : Stop} (drawing other : Drawing) (tree : FileTree)
    (read : Arguments.parse arguments = .error stop) : run drawing tree arguments = run other tree arguments := by
  rw [run, run, read]
  cases stop <;> rfl

theorem Arguments.files_run (drawing : Drawing) (tree : FileTree) (given : Arguments) :
    (given.run drawing tree).files = (Extraction.ofRequest drawing tree given.request).files := by
  rw [run]
  split <;> rfl

theorem run_of_ok {drawing : Drawing} {tree after : FileTree} {arguments : List Text} {given : Arguments}
    {format : Format} {files : List InputFile} (read : Arguments.parse arguments = .ok given)
    (known : Format.ofName? given.format = some format)
    (found : InputFile.ofArguments tree given.inputs = .ok files)
    (replaced : tree.replace drawing given.output (Extraction.content format files) = (after, .ok ())) :
    (run drawing tree arguments).status = 0 ∧ (run drawing tree arguments).files = after := by
  have extracted : Extraction.ofRequest drawing tree given.request = _ :=
    (Extraction.ofRequest_of_ok known found).trans (Extraction.ofFiles_of_ok replaced)
  rw [run_of_parse drawing tree read, Arguments.run, extracted]
  exact ⟨rfl, rfl⟩

/-- The name that is drawn for the temporary file decides at most the text of an error. -/
theorem run_drawn (tree : FileTree) (drawing other : Drawing) (arguments : List Text) :
    run drawing tree arguments = run other tree arguments ∨
      (run drawing tree arguments).status = 1 ∧
        ∃ error, run drawing tree arguments = { run other tree arguments with error := error } := by
  cases read : Arguments.parse arguments with
  | error stop => exact Or.inl (run_eq_of_stop drawing other tree read)
  | ok given =>
      rw [run_of_parse drawing tree read, run_of_parse other tree read, Arguments.run, Arguments.run]
      rcases Extraction.ofRequest_drawn tree drawing other given.request with
        same | ⟨log, failure, another, failed, failed_other⟩
      · exact Or.inl (by rw [same])
      · rw [failed, failed_other]
        exact Or.inr ⟨rfl, failure.render, rfl⟩

theorem run_allOrNothing (drawing : Drawing) (tree : FileTree) (arguments : List Text) :
    AllOrNothing tree arguments (run drawing tree arguments) := by
  rw [run]
  cases read : Arguments.parse arguments with
  | error stop =>
      cases stop with
      | help => exact ⟨fun _ => rfl, fun _ notHelp => (notHelp rfl).elim⟩
      | usage error => exact ⟨fun _ => rfl, fun succeeded => by contradiction⟩
  | ok given =>
      dsimp only
      rw [Arguments.run]
      rcases Extraction.ofRequest_cases drawing tree given.request with
        ⟨failure, failed, same⟩ | ⟨succeeded, format, files, location, written⟩
      · rw [failed]
        exact ⟨fun _ => same, fun succeeded => by contradiction⟩
      · rw [succeeded]
        refine ⟨fun unwritten => ?_, fun _ _ => ⟨given, format, files, location, read, written⟩⟩
        rcases unwritten with failed | answered
        · contradiction
        · exact (help_ne_nil answered.symm).elim

/-- The output may be one of the inputs, which is read before it is replaced. -/
example :
    let source := Utf8.encode "/*# @name f\n*/".toList
    let tree : FileTree := { entries := [(["a".toList], .file source)] }
    let outcome := run .plain tree ["/a".toList, "a".toList, "-fjson".toList]
    outcome.status = 0 ∧
      outcome.files.content? ["a".toList] = some (Json.encode ⟨[{ name := "f".toList }]⟩) := by
  decide +kernel

theorem AllOrNothing.keeps {before : FileTree} {arguments : List Text} {outcome : Outcome}
    (proper : AllOrNothing before arguments outcome) : before.Keeps outcome.files := by
  by_cases unwritten : outcome.status ≠ 0 ∨ outcome.answer = help
  · rw [proper.nothing unwritten]
    exact FileTree.Keeps.refl before
  · obtain ⟨succeeded, notHelp⟩ := not_or.mp unwritten
    obtain ⟨given, format, files, location, -, written⟩ :=
      proper.all (Classical.not_not.mp succeeded) notHelp
    exact written.keeps

theorem filesAfter_cons (tree : FileTree) (call : Call) (rest : List Call) :
    filesAfter tree (call :: rest) = filesAfter (run call.drawing tree call.arguments).files rest := by
  rw [filesAfter, filesAfter, runs, List.getLast?_cons]
  cases (runs (run call.drawing tree call.arguments).files rest).getLast? <;> rfl

theorem length_runs (tree : FileTree) (calls : List Call) :
    (runs tree calls).length = calls.length := by
  induction calls generalizing tree with
  | nil => rfl
  | cons call rest ih => rw [runs, List.length_cons, List.length_cons, ih]

theorem runs_append (tree : FileTree) (earlier later : List Call) :
    runs tree (earlier ++ later) = runs tree earlier ++ runs (filesAfter tree earlier) later := by
  induction earlier generalizing tree with
  | nil => rfl
  | cons call rest ih =>
      rw [List.cons_append, runs, runs, List.cons_append, filesAfter_cons, ih]

theorem keeps_filesAfter (tree : FileTree) (calls : List Call) :
    tree.Keeps (filesAfter tree calls) := by
  induction calls generalizing tree with
  | nil => exact FileTree.Keeps.refl tree
  | cons call rest ih =>
      rw [filesAfter_cons]
      exact (run_allOrNothing call.drawing tree call.arguments).keeps.trans (ih _)

theorem wellFormed_run {tree : FileTree} (formed : tree.WellFormed) (drawing : Drawing)
    (arguments : List Text) : (run drawing tree arguments).files.WellFormed := by
  cases read : Arguments.parse arguments with
  | error stop =>
      rw [files_run_of_stop drawing tree read]
      exact formed
  | ok given =>
      rw [run_of_parse drawing tree read, Arguments.files_run]
      exact Extraction.wellFormed_ofRequest formed drawing given.request

theorem wellFormed_filesAfter {tree : FileTree} (formed : tree.WellFormed)
    (calls : List Call) : (filesAfter tree calls).WellFormed := by
  induction calls generalizing tree with
  | nil => exact formed
  | cons call rest ih =>
      rw [filesAfter_cons]
      exact ih (wellFormed_run formed call.drawing call.arguments)

/-- Each of any number of runs is all or nothing on the files that the runs before it left, and up to it
and in it no file and no directory has gone, and no directory has come. -/
theorem runs_allOrNothing (tree : FileTree) (earlier : List Call) (call : Call) (later : List Call) :
    let before := filesAfter tree earlier
    let outcome := run call.drawing before call.arguments
    (runs tree (earlier ++ call :: later))[earlier.length]? = some outcome ∧
      AllOrNothing before call.arguments outcome ∧
      tree.Keeps before ∧ before.Keeps outcome.files := by
  intro before outcome
  have proper : AllOrNothing before call.arguments outcome := run_allOrNothing call.drawing before call.arguments
  refine ⟨?_, proper, keeps_filesAfter tree earlier, proper.keeps⟩
  rw [runs_append, List.getElem?_append_right (Nat.le_of_eq (length_runs tree earlier)),
    length_runs, Nat.sub_self]
  rfl

end Cli

end ApiDoc
