import ApiDoc.Proofs.Cli.AllOrNothing
import ApiDoc.Proofs.Input.Agreement
import Mathlib.Data.List.Permutation

/-!
Running again changes nothing.

A run can create its output file, which is then one more entry in the tree that all arguments are looked up in.
As long as that file is not among its own inputs, the same arguments stand for the same files as before, and the
same document is put in the place of itself.
-/

namespace ApiDoc

namespace Extraction

variable {drawing : Drawing} {tree : FileTree} {request : Request}

/-- Whether no input file of a request is the file that its output path leads to. -/
def OutputApart (tree : FileTree) (request : Request) : Prop :=
  ∀ files, InputFile.ofArguments tree request.inputs = .ok files →
    ∀ file ∈ files, tree.resolve file.path ≠ tree.resolve request.output

theorem ofRequest_again (formed : tree.WellFormed) (named : tree.Named)
    (succeeded : (ofRequest drawing tree request).result = .ok ())
    (apart : OutputApart (ofRequest drawing tree request).files request) (other : Drawing) :
    ofRequest other (ofRequest drawing tree request).files request = ofRequest drawing tree request := by
  rcases ofRequest_fails_or_replaces drawing tree request with
    ⟨log, failure, failed⟩ | ⟨format, files, after, known, found, replaced, extracted⟩
  · rw [failed] at succeeded
    contradiction
  · obtain ⟨location, goesTo, inserted⟩ := FileTree.destination_of_replace replaced
    have written : tree.Replaces after location (content format files) := by
      rw [inserted]
      exact FileTree.replaces_of_destination _ goesTo
    have formed_after : after.WellFormed := by
      rw [inserted]
      exact formed.insert_of_destination goesTo
    have named_after : after.Named := by
      rw [inserted]
      exact named.insert_of_destination goesTo
    have leadsTo := FileTree.resolve_of_destination goesTo written
    rw [extracted] at apart ⊢
    have avoid : ∀ left, InputFile.ofArguments after request.inputs = .ok left →
        InputFile.Avoid after [location] left := by
      intro left found_left file member place among resolved
      rw [List.mem_singleton.mp among, ← leadsTo] at resolved
      exact apart left found_left file member resolved
    have found_after := InputFile.ofArguments_again (written.agreeBut ⟨formed, formed_after⟩) written.keeps
      ⟨named, named_after⟩ found avoid
    exact (ofRequest_of_ok known found_after).trans (ofFiles_of_ok (FileTree.replace_again replaced other))

end Extraction

namespace Cli

theorem Arguments.result_of_status_eq_zero {drawing : Drawing} {tree : FileTree} {given : Arguments}
    (succeeded : (given.run drawing tree).status = 0) :
    (Extraction.ofRequest drawing tree given.request).result = .ok () := by
  cases result : (Extraction.ofRequest drawing tree given.request).result with
  | error failure =>
      rw [run, result] at succeeded
      contradiction
  | ok done => rfl

/-- A run that succeeds leaves files on which running again with the same arguments gives the same outcome, however
the temporary file is named then, and so leaves them as they are, unless its output file is now one of its inputs. -/
theorem run_again {tree : FileTree} (formed : tree.WellFormed) (named : tree.Named) {drawing : Drawing}
    {arguments : List Text} (succeeded : (run drawing tree arguments).status = 0)
    (apart : ∀ given, Arguments.parse arguments = .ok given →
      Extraction.OutputApart (run drawing tree arguments).files given.request) (other : Drawing) :
    run other (run drawing tree arguments).files arguments = run drawing tree arguments := by
  cases read : Arguments.parse arguments with
  | error stop =>
      rw [files_run_of_stop drawing tree read]
      exact run_eq_of_stop other drawing tree read
  | ok given =>
      have extracted := apart given read
      rw [run_of_parse drawing tree read] at succeeded
      rw [run_of_parse drawing tree read, Arguments.files_run] at extracted ⊢
      have again := Extraction.ofRequest_again formed named (Arguments.result_of_status_eq_zero succeeded)
        extracted other
      rw [run_of_parse other _ read, Arguments.run, again, Arguments.run]

def nestedTree : FileTree where
  entries :=
    [(["home".toList], .directory),
      (["home".toList, "b".toList], .directory),
      (["home".toList, "b".toList, "c.rs".toList], .file (Utf8.encode "/*# @name f */ /*# no name */".toList)),
      (["home".toList, "a.rs".toList], .file (Utf8.encode "/*# @name g\n@return one */".toList))]
  home := ["home".toList]

def nestedArguments : List Text :=
  ["/**/*.rs".toList, "b/../b/all".toList, "-fjson".toList, "-v".toList]

def nestedGiven : Arguments :=
  ⟨["/**/*.rs".toList], "b/../b/all".toList, "json".toList, true, false⟩

def nestedInputs : List InputFile :=
  [⟨"/home/a.rs".toList, Utf8.encode "/*# @name g\n@return one */".toList⟩,
    ⟨"/home/b/c.rs".toList, Utf8.encode "/*# @name f */ /*# no name */".toList⟩]

def nestedAfter (content : Bytes) : FileTree :=
  nestedTree.insert ["home".toList, "b".toList, "all".toList] (.file content)

theorem run_nested : ∃ content, (run .plain nestedTree nestedArguments).status = 0 ∧
    (run .plain nestedTree nestedArguments).files = nestedAfter content := by
  have read : Arguments.parse nestedArguments = .ok nestedGiven := by decide
  have known : Format.ofName? nestedGiven.format = some .json := by decide
  have found : InputFile.ofArguments nestedTree nestedGiven.inputs = .ok nestedInputs := by cbv
  have replaced (content : Bytes) : nestedTree.replace .plain nestedGiven.output content =
      (nestedAfter content, .ok ()) := by cbv
  exact ⟨_, run_of_ok read known found (replaced _)⟩

theorem run_again_nested : nestedTree.WellFormed ∧ nestedTree.Named ∧
    (∀ given, Arguments.parse nestedArguments = .ok given →
      Extraction.OutputApart (run .plain nestedTree nestedArguments).files given.request) ∧
    (run .plain nestedTree nestedArguments).status = 0 ∧
    (run .plain nestedTree nestedArguments).files ≠ nestedTree ∧
    run (.ofName ".tmpV0aKqe".toList) (run .plain nestedTree nestedArguments).files nestedArguments =
      run .plain nestedTree nestedArguments := by
  obtain ⟨content, status, after⟩ := run_nested
  have formed : nestedTree.WellFormed := by decide
  have named : nestedTree.Named := by decide
  have apart : ∀ given, Arguments.parse nestedArguments = .ok given →
      Extraction.OutputApart (run .plain nestedTree nestedArguments).files given.request := by
    intro given same files found_files
    have read : Arguments.parse nestedArguments = .ok nestedGiven := by decide
    have found : InputFile.ofArguments (nestedAfter content) nestedGiven.request.inputs =
        .ok nestedInputs := by cbv
    cases read.symm.trans same
    rw [after] at found_files ⊢
    cases found.symm.trans found_files
    have output : (nestedAfter content).resolve nestedGiven.request.output =
        .ok ["home".toList, "b".toList, "all".toList] := by cbv
    have first : (nestedAfter content).resolve "/home/a.rs".toList = .ok ["home".toList, "a.rs".toList] := by cbv
    have second : (nestedAfter content).resolve "/home/b/c.rs".toList =
        .ok ["home".toList, "b".toList, "c.rs".toList] := by cbv
    rw [output, nestedInputs, List.forall_mem_cons, List.forall_mem_singleton, first, second]
    decide
  have created : (run .plain nestedTree nestedArguments).files ≠ nestedTree := by
    intro same
    have more : (nestedAfter content).entries.length = 5 := by cbv
    rw [← after, same] at more
    contradiction
  exact ⟨formed, named, apart, status, created, run_again formed named status apart _⟩

end Cli

end ApiDoc
