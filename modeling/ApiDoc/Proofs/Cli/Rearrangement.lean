import ApiDoc.Proofs.Cli.AllOrNothing
import ApiDoc.Proofs.FileTree.Rearrangement
import ApiDoc.Proofs.Glob.Agreement
import Mathlib.Data.List.Permutation

/-!
Runs on file trees in another order.

What a run answers, logs and writes depends on what a file tree holds, and not on the order in which it is held:
the places that a pattern finds come in the order of the names, whatever order the directories are listed in.
-/

namespace ApiDoc

open FileTree (AgreeBut Rearranges)

variable {first second : FileTree}

namespace Glob

theorem elsewhere_nil (found : List Place) : elsewhere [] found = found := by
  rw [elsewhere, List.filter_eq_self]
  intro place _
  exact decide_eq_true List.not_mem_nil

theorem matchesIn_eq (agree : AgreeBut [] first second) (glob : Glob) :
    glob.matchesIn first = glob.matchesIn second := by
  have same := elsewhere_matchesIn agree glob
  rw [elsewhere_nil, elsewhere_nil] at same
  exact same

end Glob

namespace InputFile

theorem ofArgument_eq (agree : AgreeBut [] first second) (argument : Text) :
    ofArgument first argument = ofArgument second argument := by
  have found (glob : Glob) : ofGlob first glob = ofGlob second glob := by
    rw [ofGlob, ofGlob, Glob.matchesIn_eq agree]
    simp only [FileTree.read?_eq_of_get?_eq agree.get?_eq agree.home]
  rw [ofArgument, ofArgument, FileTree.read?_eq_of_get?_eq agree.get?_eq agree.home]
  simp only [found]

theorem ofArguments_eq (agree : AgreeBut [] first second) (arguments : List Text) :
    ofArguments first arguments = ofArguments second arguments := by
  induction arguments with
  | nil => rfl
  | cons argument rest ih => rw [ofArguments, ofArguments, ofArgument_eq agree, ih]

end InputFile

namespace Extraction

structure Rearranges (first second : Extraction) : Prop where
  log : first.log = second.log
  files : first.files.Rearranges second.files
  result : first.result = second.result

section Rearranged

variable (formed : first.WellFormed) (rearranged : first.Rearranges second)

include formed rearranged

theorem rearranges_ofFiles (drawing : Drawing) (files : List InputFile) (format : Format) (output : Text) :
    (ofFiles drawing first files format output).Rearranges (ofFiles drawing second files format output) := by
  obtain ⟨after, same⟩ := rearranged.replace formed drawing output (content format files)
  cases replaced : first.replace drawing output (content format files) with
  | mk one result =>
      cases replaced_second : second.replace drawing output (content format files) with
      | mk other result_second =>
          rw [replaced, replaced_second] at after same
          dsimp only at after same
          rw [← same] at replaced_second
          cases result with
          | error error =>
              rw [ofFiles_of_error replaced, ofFiles_of_error replaced_second]
              exact ⟨rfl, after, rfl⟩
          | ok done =>
              rw [ofFiles_of_ok replaced, ofFiles_of_ok replaced_second]
              exact ⟨rfl, after, rfl⟩

theorem rearranges_ofRequest (drawing : Drawing) (request : Request) :
    (ofRequest drawing first request).Rearranges (ofRequest drawing second request) := by
  rw [ofRequest, ofRequest, ← InputFile.ofArguments_eq (rearranged.agreeBut formed)]
  split
  · exact ⟨rfl, rearranged, rfl⟩
  · next format known =>
      split
      · exact ⟨rfl, rearranged, rfl⟩
      · next files found => exact rearranges_ofFiles formed rearranged drawing files format request.output

end Rearranged

end Extraction

namespace Cli

structure Outcome.Rearranges (first second : Outcome) : Prop where
  status : first.status = second.status
  answer : first.answer = second.answer
  log : first.log = second.log
  error : first.error = second.error
  files : first.files.Rearranges second.files

theorem Outcome.Rearranges.stderr {first second : Outcome} (alike : first.Rearranges second) :
    first.stderr = second.stderr := by
  rw [Outcome.stderr, Outcome.stderr, alike.log, alike.error]

theorem rearranges_run (formed : first.WellFormed) (rearranged : first.Rearranges second) (drawing : Drawing)
    (arguments : List Text) : (run drawing first arguments).Rearranges (run drawing second arguments) := by
  rw [run, run]
  cases Arguments.parse arguments with
  | error stop =>
      cases stop with
      | help => exact ⟨rfl, rfl, rfl, rfl, rearranged⟩
      | usage error => exact ⟨rfl, rfl, rfl, rfl, rearranged⟩
  | ok given =>
      have extracted := Extraction.rearranges_ofRequest formed rearranged drawing given.request
      dsimp only
      rw [Arguments.run, Arguments.run, extracted.log, extracted.result]
      split
      · exact ⟨rfl, rfl, rfl, rfl, extracted.files⟩
      · exact ⟨rfl, rfl, rfl, rfl, extracted.files⟩

/-- A run comes to the same whatever order the files are listed in: it ends with the same status, prints the
same, and leaves the same at every place. Another name for the temporary file changes at most how an error is told. -/
theorem run_rearranged (formed : first.WellFormed) (rearranged : first.Rearranges second) (drawing other : Drawing)
    (arguments : List Text) :
    let one := run drawing first arguments
    let two := run other second arguments
    one.status = two.status ∧ one.answer = two.answer ∧ one.log = two.log ∧
      (drawing = other ∨ one.status ≠ 1 → one.stderr = two.stderr) ∧
      one.files.Rearranges two.files ∧ ∀ location, one.files.get? location = two.files.get? location := by
  intro one two
  have formed_one : one.files.WellFormed := wellFormed_run formed drawing arguments
  have alike : one.Rearranges (run drawing second arguments) :=
    rearranges_run formed rearranged drawing arguments
  have same_files := alike.files.get?_eq formed_one.nodup
  rcases run_drawn second drawing other arguments with same | ⟨failed, error, same⟩
  · rw [same] at alike same_files
    exact ⟨alike.status, alike.answer, alike.log, fun _ => alike.stderr, alike.files, same_files⟩
  · have equal : drawing = other ∨ one.status ≠ 1 → one.stderr = two.stderr := by
      rintro (rfl | succeeded)
      · exact alike.stderr
      · exact (succeeded (alike.status.trans failed)).elim
    rw [same] at alike same_files
    exact ⟨alike.status, alike.answer, alike.log, equal, alike.files, same_files⟩

/-- Two directories of which the one comes first as a name, and the other one in the paths of the files. -/
def twinTree : FileTree where
  entries :=
    [(["home".toList], .directory),
      (["home".toList, "a.b".toList], .directory),
      (["home".toList, "a".toList], .directory),
      (["home".toList, "a.b".toList, "c.rs".toList], .file (Utf8.encode "/*# @name f */".toList)),
      (["home".toList, "a".toList, "c.rs".toList], .file (Utf8.encode "/*# no name */".toList))]
  home := ["home".toList]

def twinArguments : List Text :=
  ["/home/**/*.rs".toList, "a/all".toList]

theorem run_rearranged_reverse :
    let reversed := { twinTree with entries := twinTree.entries.reverse }
    let one := run .plain twinTree twinArguments
    let two := run (.ofName ".tmpV0aKqe".toList) reversed twinArguments
    twinTree.WellFormed ∧ twinTree.Rearranges reversed ∧ one.status = 0 ∧
      one.status = two.status ∧ one.answer = two.answer ∧ one.stderr = two.stderr ∧
      one.files.Rearranges two.files ∧ ∀ location, one.files.get? location = two.files.get? location := by
  intro reversed one two
  have formed : twinTree.WellFormed := by decide
  have rearranged : twinTree.Rearranges reversed := ⟨rfl, (List.reverse_perm _).symm⟩
  have read : Arguments.parse twinArguments =
      .ok ⟨["/home/**/*.rs".toList], "a/all".toList, "protobuf".toList, false, false⟩ := by decide
  have found : InputFile.ofArguments twinTree ["/home/**/*.rs".toList] =
      .ok [⟨"/home/a/c.rs".toList, Utf8.encode "/*# no name */".toList⟩,
        ⟨"/home/a.b/c.rs".toList, Utf8.encode "/*# @name f */".toList⟩] := by cbv
  have replaced (content : Bytes) : twinTree.replace .plain "a/all".toList content =
      (twinTree.insert ["home".toList, "a".toList, "all".toList] (.file content), .ok ()) := by cbv
  have known : Format.ofName? "protobuf".toList = some .protobuf := by decide
  have succeeded : one.status = 0 := (run_of_ok read known found (replaced _)).1
  have passed : one.status ≠ 1 := by
    rw [succeeded]
    decide
  obtain ⟨status, answer, -, stderr, files, same⟩ :=
    run_rearranged formed rearranged .plain (.ofName ".tmpV0aKqe".toList) twinArguments
  exact ⟨formed, rearranged, succeeded, status, answer, stderr (Or.inr passed), files, same⟩

end Cli

end ApiDoc
