import ApiDoc.Proofs.Input.Counting
import ApiDoc.Proofs.Text.Order
import Mathlib.Data.List.Forall2
import Mathlib.Data.List.Permutation

/-!
The files that arguments stand for.

Each argument is good or bad by itself. The first bad one decides, and if there is none, each argument gives the
file that it names, or else the files that it matches in the order of their paths.
-/

namespace ApiDoc

namespace InputFile

inductive Bad (tree : FileTree) : Text → InputError → Prop
  | invalidPattern {argument : Text} {error : Glob.Error} :
      tree.read? argument = none → Glob.parse argument = .error error →
      Bad tree argument (.invalidPattern argument error)
  | noMatch {argument : Text} {glob : Glob} :
      tree.read? argument = none → Glob.parse argument = .ok glob →
      (∀ path, glob.Admits path → tree.read? path = none) → Bad tree argument (.noMatch argument)

/-- The files that an argument stands for: the one that it names, or else those at the paths that it matches,
in the order of the components of these paths. -/
inductive Segment (tree : FileTree) : Text → List InputFile → Prop
  | named {argument : Text} {content : Bytes} :
      tree.read? argument = some content → Segment tree argument [⟨argument, content⟩]
  | matched {argument : Text} {glob : Glob} {files : List InputFile} :
      tree.read? argument = none → Glob.parse argument = .ok glob → files ≠ [] →
      files.Pairwise (fun first second => Path.components first.path ≤ Path.components second.path) →
      (∀ file, file ∈ files ↔ tree.read? file.path = some file.content ∧ glob.Admits file.path) →
      Segment tree argument files

variable {tree : FileTree} {arguments : List Text} {argument : Text} {files : List InputFile}
  {error : InputError}

theorem pairwise_ofGlob (tree : FileTree) (glob : Glob) :
    (ofGlob tree glob).Pairwise fun first second =>
      Path.components first.path ≤ Path.components second.path := by
  rw [ofGlob]
  refine (List.pairwise_mergeSort ?_ ?_ _).imp Path.le_iff.mp
  · exact fun first second third => Location.le_totalOrder.trans _ _ _
  · exact fun first second => Location.le_totalOrder.total _ _

section Argument

variable (formed : tree.WellFormed) (named : tree.Named)

include formed named

theorem ofGlob_eq_nil_iff {glob : Glob} :
    ofGlob tree glob = [] ↔ ∀ path, glob.Admits path → tree.read? path = none := by
  rw [List.eq_nil_iff_forall_not_mem]
  constructor
  · intro none path admitted
    cases held : tree.read? path with
    | none => rfl
    | some content =>
        exact absurd ((mem_ofGlob_iff formed named).mpr ⟨held, admitted⟩) (none ⟨path, content⟩)
  · intro none file member
    obtain ⟨held, admitted⟩ := (mem_ofGlob_iff formed named).mp member
    rw [none file.path admitted] at held
    contradiction

theorem ofArgument_eq_error_iff : ofArgument tree argument = .error error ↔ Bad tree argument error := by
  rw [ofArgument]
  constructor
  · intro failed
    split at failed
    · contradiction
    next unnamed =>
      split at failed
      · next problem invalid => exact Except.error.inj failed ▸ .invalidPattern unnamed invalid
      · next glob valid =>
          split at failed
          · next none =>
              exact Except.error.inj failed ▸
                .noMatch unnamed valid ((ofGlob_eq_nil_iff formed named).mp none)
          · contradiction
  · intro bad
    cases bad with
    | invalidPattern unnamed invalid => rw [unnamed, invalid]
    | noMatch unnamed valid none =>
        rw [unnamed, valid]
        dsimp only
        rw [(ofGlob_eq_nil_iff formed named).mpr none]

theorem exists_ofArgument_eq_ok_iff :
    (∃ files, ofArgument tree argument = .ok files) ↔ ∀ problem, ¬ Bad tree argument problem := by
  simp only [← ofArgument_eq_error_iff formed named]
  cases ofArgument tree argument <;> simp

theorem segment_of_ofArgument (found : ofArgument tree argument = .ok files) :
    Segment tree argument files := by
  rcases ofArgument_eq_ok_iff.mp found with ⟨content, held, rfl⟩ | ⟨unnamed, glob, valid, some, rfl⟩
  · exact .named held
  · exact .matched unnamed valid some (pairwise_ofGlob tree glob) fun file => mem_ofGlob_iff formed named

end Argument

theorem ofArguments_eq_error_iff : ofArguments tree arguments = .error error ↔
    ∃ before argument after, arguments = before ++ argument :: after ∧
      (∀ earlier ∈ before, ∃ files, ofArgument tree earlier = .ok files) ∧
      ofArgument tree argument = .error error := by
  induction arguments with
  | nil => simp [ofArguments]
  | cons argument rest ih =>
      rw [ofArguments_cons_eq_error_iff, ih]
      constructor
      · rintro (failed | ⟨passed, before, bad, after, rfl, good, failed⟩)
        · exact ⟨[], argument, rest, rfl, by simp, failed⟩
        · exact ⟨argument :: before, bad, after, rfl, List.forall_mem_cons.mpr ⟨passed, good⟩, failed⟩
      · rintro ⟨before, bad, after, same, good, failed⟩
        cases before with
        | nil =>
            obtain ⟨rfl, -⟩ := List.cons.inj same
            exact Or.inl failed
        | cons earlier before =>
            obtain ⟨rfl, rfl⟩ := List.cons.inj same
            obtain ⟨passed, good⟩ := List.forall_mem_cons.mp good
            exact Or.inr ⟨passed, before, bad, after, rfl, good, failed⟩

theorem exists_segments_of_ofArguments (found : ofArguments tree arguments = .ok files) :
    ∃ segments,
      List.Forall₂ (fun argument segment => ofArgument tree argument = .ok segment) arguments segments ∧
        files = segments.flatten := by
  induction arguments generalizing files with
  | nil => exact ⟨[], .nil, (Except.ok.inj found).symm⟩
  | cons argument rest ih =>
      obtain ⟨own, others, first, later, rfl⟩ := ofArguments_cons_eq_ok_iff.mp found
      obtain ⟨segments, related, rfl⟩ := ih later
      exact ⟨own :: segments, .cons first related, rfl⟩

theorem exists_ofArgument_eq_ok (found : ofArguments tree arguments = .ok files)
    (member : argument ∈ arguments) : ∃ own, ofArgument tree argument = .ok own := by
  induction arguments generalizing files with
  | nil => contradiction
  | cons first rest ih =>
      obtain ⟨own, others, passed, later, -⟩ := ofArguments_cons_eq_ok_iff.mp found
      rcases List.mem_cons.mp member with rfl | among
      · exact ⟨own, passed⟩
      · exact ih later among

/-- Arguments are expanded soundly, completely and in order. The expansion fails if and only if one of them is
bad, with the error of the first that is. Otherwise it gives the files of one argument after the other. -/
theorem ofArguments_expands (formed : tree.WellFormed) (named : tree.Named) (arguments : List Text) :
    ((∃ error, ofArguments tree arguments = .error error) ↔
        ∃ argument ∈ arguments, ∃ error, Bad tree argument error) ∧
      (∀ error, ofArguments tree arguments = .error error ↔
        ∃ before argument after, arguments = before ++ argument :: after ∧
          (∀ earlier ∈ before, ∀ problem, ¬ Bad tree earlier problem) ∧ Bad tree argument error) ∧
      ((∀ argument ∈ arguments, ∀ problem, ¬ Bad tree argument problem) →
        ∃ segments, List.Forall₂ (Segment tree) arguments segments ∧
          ofArguments tree arguments = .ok segments.flatten) := by
  have first : ∀ error, ofArguments tree arguments = .error error ↔
      ∃ before argument after, arguments = before ++ argument :: after ∧
        (∀ earlier ∈ before, ∀ problem, ¬ Bad tree earlier problem) ∧ Bad tree argument error := by
    intro error
    simp only [ofArguments_eq_error_iff, ofArgument_eq_error_iff formed named,
      exists_ofArgument_eq_ok_iff formed named]
  have failing : (∃ error, ofArguments tree arguments = .error error) ↔
      ∃ argument ∈ arguments, ∃ error, Bad tree argument error := by
    constructor
    · rintro ⟨error, failed⟩
      obtain ⟨before, argument, after, rfl, -, bad⟩ := (first error).mp failed
      exact ⟨argument, by simp, error, bad⟩
    · rintro ⟨argument, member, problem, bad⟩
      cases found : ofArguments tree arguments with
      | error error => exact ⟨error, rfl⟩
      | ok files =>
          have good := exists_ofArgument_eq_ok found member
          exact absurd bad ((exists_ofArgument_eq_ok_iff formed named).mp good problem)
  refine ⟨failing, first, fun good => ?_⟩
  cases found : ofArguments tree arguments with
  | error error =>
      obtain ⟨argument, member, problem, bad⟩ := failing.mp ⟨error, found⟩
      exact absurd bad (good argument member problem)
  | ok files =>
      obtain ⟨segments, related, rfl⟩ := exists_segments_of_ofArguments found
      exact ⟨segments, related.imp fun _ _ => segment_of_ofArgument formed named, rfl⟩

/-- A tree with a file that is named like a pattern, a hidden file, a directory that is named like a file, and a
file outside of its home. -/
def oddTree : FileTree where
  entries :=
    [(["home".toList], .directory),
      (["home".toList, "[a].rs".toList], .file [1]),
      (["home".toList, "a.rs".toList], .file [2]),
      (["home".toList, "a".toList], .directory),
      (["home".toList, "a".toList, ".b.rs".toList], .file [3]),
      (["home".toList, "a".toList, "d.rs".toList], .directory),
      (["c.rs".toList], .file [4])]
  home := ["home".toList]

def oddArguments : List Text :=
  ["[a].rs".toList, "**/*.rs".toList, "a/../../*.rs".toList, "/c.rs".toList, "/home/*.rs".toList, "a.rs".toList]

def oddFiles : List InputFile :=
  [⟨"[a].rs".toList, [1]⟩, ⟨"[a].rs".toList, [1]⟩, ⟨"a/.b.rs".toList, [3]⟩, ⟨"a.rs".toList, [2]⟩,
    ⟨"a/../../c.rs".toList, [4]⟩, ⟨"/c.rs".toList, [4]⟩, ⟨"/home/[a].rs".toList, [1]⟩,
    ⟨"/home/a.rs".toList, [2]⟩, ⟨"a.rs".toList, [2]⟩]

theorem ofArguments_expands_odd : oddTree.WellFormed ∧ oddTree.Named ∧
    ∃ segments, List.Forall₂ (Segment oddTree) oddArguments segments ∧ segments.flatten = oddFiles := by
  have formed : oddTree.WellFormed := by decide
  have named : oddTree.Named := by decide
  have found : ofArguments oddTree oddArguments = .ok oddFiles := by cbv
  obtain ⟨failing, -, expanded⟩ := ofArguments_expands formed named oddArguments
  have good : ∀ argument ∈ oddArguments, ∀ problem, ¬ Bad oddTree argument problem := by
    intro argument member problem bad
    obtain ⟨error, failed⟩ := failing.mpr ⟨argument, member, problem, bad⟩
    rw [found] at failed
    contradiction
  obtain ⟨segments, related, same⟩ := expanded good
  exact ⟨formed, named, segments, related, Except.ok.inj (same.symm.trans found)⟩

end InputFile

end ApiDoc
