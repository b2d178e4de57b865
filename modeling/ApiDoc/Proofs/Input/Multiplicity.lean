import ApiDoc.Proofs.Input.Counting
import Mathlib.Data.List.Permutation

/-!
Which files an argument gives more than once.

A pattern gives a file once for each way to match the path. That is once if the pattern leaves no choice, as when
its `**` all stand side by side, and without a part that goes up no two of its paths then lead to the same file.
-/

namespace ApiDoc

namespace Glob

variable {tree : FileTree} {glob : Glob} {path other : Text} {content : Bytes} {shares others : List (List Component)}

theorem Way.eq_of_steady (first : glob.Way path shares) (second : glob.Way path others)
    (steady : Steady glob.parts) : shares = others := by
  refine first.shared.eq_of_moves second.shared steady ?_
  have same := (moves_of_foldlM_join? first.spelled).symm.trans (moves_of_foldlM_join? second.spelled)
  exact List.append_cancel_left same

theorem Way.resolve_eq (way : glob.Way path shares) (formed : tree.WellFormed) (named : tree.Named)
    (level : ∀ pieces, .name pieces ∈ glob.parts → ¬ Fits pieces above) (held : tree.read? path = some content) :
    tree.resolve path =
      .ok ((start tree glob).location ++ moves (shares.flatten.map Component.text)) := by
  obtain ⟨place, leads, rfl⟩ := exists_leads_of_read? formed held way.spelled way.shared.matches.getLast?_ne
  obtain ⟨-, resolved⟩ := leads.resolve_path formed named held
  rw [resolved, leads.location_eq (way.shared.above_notMem level)]

end Glob

namespace InputFile

variable {tree : FileTree} {glob : Glob} {argument : Text} {files : List InputFile}

section Steady

variable (formed : tree.WellFormed) (named : tree.Named) (steady : Glob.Steady glob.parts)

include formed named steady

theorem nodup_paths_ofGlob : ((ofGlob tree glob).map (·.path)).Nodup := by
  rw [List.nodup_iff_count_le_one]
  intro path
  by_cases among : path ∈ (ofGlob tree glob).map (·.path)
  · obtain ⟨file, member, rfl⟩ := List.mem_map.mp among
    have single : {shares | glob.Way file.path shares}.encard ≤ 1 := by
      rw [Set.encard_le_one_iff]
      exact fun shares others first second => first.eq_of_steady second steady
    rw [← count_ofGlob_eq_encard formed named (read?_of_mem_ofGlob member)] at single
    exact_mod_cast single
  · rw [List.count_eq_zero_of_not_mem among]
    exact Nat.zero_le 1

theorem pairwise_resolve_ofGlob (level : ∀ pieces, .name pieces ∈ glob.parts → ¬ Glob.Fits pieces above) :
    (ofGlob tree glob).Pairwise fun first second => tree.resolve first.path ≠ tree.resolve second.path := by
  have apart := List.pairwise_map.mp (nodup_paths_ofGlob formed named steady)
  refine apart.imp_of_mem fun {first second} member among different same => different ?_
  obtain ⟨held, admitted⟩ := (mem_ofGlob_iff formed named).mp member
  obtain ⟨others_held, others_admitted⟩ := (mem_ofGlob_iff formed named).mp among
  obtain ⟨shares, way⟩ := Glob.admits_iff_exists_way.mp admitted
  obtain ⟨others, others_way⟩ := Glob.admits_iff_exists_way.mp others_admitted
  rw [way.resolve_eq formed named level held, others_way.resolve_eq formed named level others_held,
    Except.ok.injEq, List.append_cancel_left_eq] at same
  have shared : shares = others := way.shared.eq_of_moves others_way.shared steady same
  have parts : Path.parts first.path = Path.parts second.path := by
    have spelled := way.spelled
    rw [shared, others_way.spelled] at spelled
    exact (Option.some.inj spelled).symm
  calc first.path
    _ = ['/'].intercalate (Path.parts first.path) := (List.intercalate_splitOn '/').symm
    _ = ['/'].intercalate (Path.parts second.path) := by rw [parts]
    _ = second.path := List.intercalate_splitOn '/'

end Steady

/-- An argument that is a pattern gives each file as often as the pattern can match the path. It gives no path twice
if the pattern leaves no choice, and no file under two paths if no part of it goes up. -/
theorem count_ofArgument (formed : tree.WellFormed) (named : tree.Named) (unnamed : tree.read? argument = none)
    (found : ofArgument tree argument = .ok files) :
    ∃ glob, Glob.parse argument = .ok glob ∧
      (∀ path content, tree.read? path = some content →
        ((files.map (·.path)).count path : ℕ∞) = {shares | glob.Way path shares}.encard) ∧
      (Glob.Steady glob.parts → (files.map (·.path)).Nodup) ∧
      (Glob.Steady glob.parts → (∀ pieces, .name pieces ∈ glob.parts → ¬ Glob.Fits pieces above) →
        files.Pairwise fun first second => tree.resolve first.path ≠ tree.resolve second.path) := by
  rcases ofArgument_eq_ok_iff.mp found with ⟨content, held, -⟩ | ⟨-, glob, valid, -, rfl⟩
  · rw [held] at unnamed
    contradiction
  · exact ⟨glob, valid, fun path content => count_ofGlob_eq_encard formed named,
      nodup_paths_ofGlob formed named, pairwise_resolve_ofGlob formed named⟩

def nestedTree : FileTree where
  entries :=
    [(["a".toList], .directory),
      (["a".toList, "a".toList], .directory),
      (["a".toList, "a".toList, "x.c".toList], .file (Utf8.encode "/*# @name f */".toList)),
      (["a".toList, "x.c".toList], .file [])]

def nestedFiles : List InputFile :=
  [⟨"a/a/x.c".toList, Utf8.encode "/*# @name f */".toList⟩, ⟨"a/x.c".toList, []⟩]

def nestedFromRoot : List InputFile :=
  [⟨"/a/a/x.c".toList, Utf8.encode "/*# @name f */".toList⟩, ⟨"/a/x.c".toList, []⟩]

/-- Where a part stands between two `**`, each of the nested directories can be the one that it matches. -/
theorem ofArgument_repeats : nestedTree.WellFormed ∧ nestedTree.Named ∧
    nestedTree.read? "**/a/**/x.c".toList = none ∧
    ∃ files, ofArgument nestedTree "**/a/**/x.c".toList = .ok files ∧ ¬ (files.map (·.path)).Nodup := by
  have found : ofArgument nestedTree "**/a/**/x.c".toList =
      .ok (⟨"a/a/x.c".toList, Utf8.encode "/*# @name f */".toList⟩ :: nestedFiles) := by cbv
  exact ⟨by decide, by decide, by cbv, _, found, by decide⟩

theorem count_ofArgument_nested :
    (∃ glob, Glob.parse "**/a/**/x.c".toList = .ok glob ∧
      {shares | glob.Way "a/a/x.c".toList shares}.encard = 2) ∧
    nestedFromRoot.Pairwise fun first second => nestedTree.resolve first.path ≠ nestedTree.resolve second.path := by
  have formed : nestedTree.WellFormed := by decide
  have named : nestedTree.Named := by decide
  constructor
  · have unnamed : nestedTree.read? "**/a/**/x.c".toList = none := by cbv
    have held : nestedTree.read? "a/a/x.c".toList = some (Utf8.encode "/*# @name f */".toList) := by cbv
    have found : ofArgument nestedTree "**/a/**/x.c".toList =
        .ok (⟨"a/a/x.c".toList, Utf8.encode "/*# @name f */".toList⟩ :: nestedFiles) := by cbv
    obtain ⟨glob, valid, counted, -⟩ := count_ofArgument formed named unnamed found
    exact ⟨glob, valid, (counted _ _ held).symm⟩
  · have unnamed : nestedTree.read? "/**/**/*.c".toList = none := by cbv
    have found : ofArgument nestedTree "/**/**/*.c".toList = .ok nestedFromRoot := by cbv
    have parsed : Glob.parse "/**/**/*.c".toList =
        .ok ⟨true, [.chain, .chain, .name [.anyRun, .char '.', .char 'c']], false⟩ := by cbv
    obtain ⟨glob, valid, -, -, apart⟩ := count_ofArgument formed named unnamed found
    obtain rfl := Except.ok.inj (parsed.symm.trans valid)
    have unfit (component : Text) (dots : component = here ∨ component = above) :
        ¬ Glob.Fits [.anyRun, .char '.', .char 'c'] component := fun fits => by
      simpa using fits.dotted dots
    refine apart ⟨?_, ?_⟩ ?_
    · intro pieces inside
      simpa using inside.eq_of_length rfl
    · intro pieces member fits
      obtain rfl : pieces = [.anyRun, .char '.', .char 'c'] := by simpa using member
      exact absurd fits (unfit here (Or.inl rfl))
    · intro pieces member
      obtain rfl : pieces = [.anyRun, .char '.', .char 'c'] := by simpa using member
      exact unfit above (Or.inr rfl)

end InputFile

end ApiDoc
