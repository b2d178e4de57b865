import ApiDoc.Proofs.Glob.Agreement
import ApiDoc.Proofs.Input.Expansion

/-!
Input files in file trees that agree.

Arguments stand for the same files before and after a change that keeps all files, unless one of the files after
it is among those that changed.
-/

namespace ApiDoc

namespace Glob

variable {tree first second : FileTree} {places : List Location} {glob : Glob} {place : Place} {content : Bytes}

theorem resolve_path_of_mem (formed : tree.WellFormed) (named : tree.Named)
    (member : place ∈ glob.matchesIn tree) (found : tree.read? place.path = some content) :
    tree.resolve place.path = .ok place.location := by
  obtain ⟨components, leads⟩ :=
    (exists_leads_of_mem formed named glob.parts).1 _ _ (List.mem_of_mem_filter member)
  exact (leads.resolve_path formed named found).2

theorem read?_path_of_agree (agree : FileTree.AgreeBut places first second) (named : first.Named)
    (member : place ∈ glob.matchesIn first) (apart : place.location ∉ places)
    (found : first.read? place.path = some content) : second.read? place.path = some content := by
  apply agree.read?_eq_some found
  intro location among other
  rw [resolve_path_of_mem agree.formed.1 named member found] at other
  exact apart (Except.ok.inj other ▸ among)

theorem filterMap_elsewhere {α : Type} {read : Place → Option α} {found : List Place}
    (hidden : ∀ place ∈ found, place.location ∈ places → read place = none) :
    (elsewhere places found).filterMap read = found.filterMap read := by
  rw [elsewhere, List.filterMap_filter]
  apply List.filterMap_congr
  intro place member
  by_cases among : place.location ∈ places
  · simp [among, hidden place member among]
  · simp [among]

end Glob

namespace InputFile

def Avoid (tree : FileTree) (places : List Location) (files : List InputFile) : Prop :=
  ∀ file ∈ files, ∀ location ∈ places, tree.resolve file.path ≠ .ok location

variable {tree first second before after : FileTree} {places : List Location} {glob : Glob}
  {place : Glob.Place} {argument : Text} {arguments : List Text} {content : Bytes} {files : List InputFile}

def ofPlace? (tree : FileTree) (place : Glob.Place) : Option InputFile :=
  (tree.read? place.path).map fun content => ⟨place.path, content⟩

theorem ofGlob_eq_mergeSort : ofGlob tree glob = ((glob.matchesIn tree).filterMap (ofPlace? tree)).mergeSort
    fun first second => Path.le first.path second.path :=
  rfl

theorem mem_ofGlob_of_mem (member : place ∈ glob.matchesIn tree) (found : tree.read? place.path = some content) :
    ⟨place.path, content⟩ ∈ ofGlob tree glob := by
  rw [ofGlob, List.mem_mergeSort, List.mem_filterMap]
  exact ⟨place, member, by rw [found, Option.map_some]⟩

theorem Avoid.read?_path_eq_none (avoid : Avoid tree places (ofGlob tree glob)) (formed : tree.WellFormed)
    (named : tree.Named) (member : place ∈ glob.matchesIn tree) (among : place.location ∈ places) :
    tree.read? place.path = none := by
  rw [Option.eq_none_iff_forall_ne_some]
  intro content found
  have resolved := Glob.resolve_path_of_mem formed named member found
  exact avoid _ (mem_ofGlob_of_mem member found) _ among resolved

theorem Avoid.filterMap_elsewhere (avoid : Avoid tree places (ofGlob tree glob)) (formed : tree.WellFormed)
    (named : tree.Named) : (Glob.elsewhere places (glob.matchesIn tree)).filterMap (ofPlace? tree) =
      (glob.matchesIn tree).filterMap (ofPlace? tree) := by
  apply Glob.filterMap_elsewhere
  intro place member among
  rw [ofPlace?, avoid.read?_path_eq_none formed named member among, Option.map_none]

theorem ofGlob_eq_of_avoid (agree : FileTree.AgreeBut places first second)
    (named : first.Named ∧ second.Named) (avoid_first : Avoid first places (ofGlob first glob))
    (avoid_second : Avoid second places (ofGlob second glob)) : ofGlob first glob = ofGlob second glob := by
  have matched := Glob.elsewhere_matchesIn agree glob
  have same : ∀ place ∈ Glob.elsewhere places (glob.matchesIn first),
      ofPlace? first place = ofPlace? second place := by
    intro place member
    obtain ⟨inFirst, apart⟩ := List.mem_filter.mp member
    obtain ⟨inSecond, -⟩ := List.mem_filter.mp (matched ▸ member)
    rw [decide_eq_true_eq] at apart
    rw [ofPlace?, ofPlace?]
    congr 1
    apply Option.ext
    intro content
    constructor
    · exact Glob.read?_path_of_agree agree named.1 inFirst apart
    · exact Glob.read?_path_of_agree agree.symm named.2 inSecond apart
  have files : (glob.matchesIn first).filterMap (ofPlace? first) =
      (glob.matchesIn second).filterMap (ofPlace? second) := calc
    _ = (Glob.elsewhere places (glob.matchesIn first)).filterMap (ofPlace? first) :=
        (avoid_first.filterMap_elsewhere agree.formed.1 named.1).symm
    _ = (Glob.elsewhere places (glob.matchesIn first)).filterMap (ofPlace? second) :=
        List.filterMap_congr same
    _ = (Glob.elsewhere places (glob.matchesIn second)).filterMap (ofPlace? second) := by rw [matched]
    _ = (glob.matchesIn second).filterMap (ofPlace? second) :=
        avoid_second.filterMap_elsewhere agree.formed.2 named.2
  rw [ofGlob_eq_mergeSort, ofGlob_eq_mergeSort, files]

section Kept

variable (agree : FileTree.AgreeBut places before after) (kept : before.Keeps after)
  (named : before.Named ∧ after.Named)

include agree kept named

theorem Avoid.of_keeps (avoid : Avoid after places (ofGlob after glob)) :
    Avoid before places (ofGlob before glob) := by
  intro file member location among resolved
  obtain ⟨held, admitted⟩ := (mem_ofGlob_iff agree.formed.1 named.1).mp member
  obtain ⟨left, stands⟩ := kept.exists_read?_eq_some held
  have still : ⟨file.path, left⟩ ∈ ofGlob after glob :=
    (mem_ofGlob_iff agree.formed.2 named.2).mpr ⟨stands, admitted⟩
  exact avoid _ still location among (kept.resolve_eq_ok resolved)

theorem ofArgument_eq_ok_of_avoid (found : ofArgument after argument = .ok files)
    (avoid : Avoid after places files) : ofArgument before argument = .ok files := by
  rw [ofArgument_eq_ok_iff] at found ⊢
  rcases found with ⟨content, held, rfl⟩ | ⟨unnamed, glob, valid, some, rfl⟩
  · have apart := avoid _ (List.mem_singleton_self _)
    exact Or.inl ⟨content, agree.symm.read?_eq_some held apart, rfl⟩
  · have same := ofGlob_eq_of_avoid agree named (avoid.of_keeps agree kept named) avoid
    exact Or.inr ⟨kept.read?_eq_none unnamed, glob, valid, same ▸ some, same.symm⟩

theorem ofArguments_eq_ok_of_avoid (found : ofArguments after arguments = .ok files)
    (avoid : Avoid after places files) : ofArguments before arguments = .ok files := by
  induction arguments generalizing files with
  | nil => exact found
  | cons argument rest ih =>
      obtain ⟨own, others, first, later, rfl⟩ := ofArguments_cons_eq_ok_iff.mp found
      obtain ⟨avoid_own, avoid_others⟩ := List.forall_mem_append.mp avoid
      exact ofArguments_cons_eq_ok_iff.mpr ⟨own, others,
        ofArgument_eq_ok_of_avoid agree kept named first avoid_own, ih later avoid_others, rfl⟩

theorem exists_ofArgument_eq_ok_of_keeps (found : ofArgument before argument = .ok files) :
    ∃ left, ofArgument after argument = .ok left := by
  simp only [ofArgument_eq_ok_iff] at found ⊢
  cases held : after.read? argument with
  | some content => exact ⟨_, Or.inl ⟨content, rfl, rfl⟩⟩
  | none =>
      have unnamed := kept.read?_eq_none held
      rcases found with ⟨content, stood, -⟩ | ⟨-, glob, valid, some, -⟩
      · rw [unnamed] at stood
        contradiction
      · refine ⟨_, Or.inr ⟨rfl, glob, valid, ?_, rfl⟩⟩
        rw [ne_eq, ofGlob_eq_nil_iff agree.formed.2 named.2]
        intro none
        apply some
        rw [ofGlob_eq_nil_iff agree.formed.1 named.1]
        exact fun path admitted => kept.read?_eq_none (none path admitted)

theorem exists_ofArguments_eq_ok_of_keeps (found : ofArguments before arguments = .ok files) :
    ∃ left, ofArguments after arguments = .ok left := by
  induction arguments generalizing files with
  | nil => exact ⟨[], rfl⟩
  | cons argument rest ih =>
      obtain ⟨own, others, first, later, -⟩ := ofArguments_cons_eq_ok_iff.mp found
      obtain ⟨own_left, first_left⟩ := exists_ofArgument_eq_ok_of_keeps agree kept named first
      obtain ⟨others_left, later_left⟩ := ih later
      exact ⟨_, ofArguments_cons_eq_ok_iff.mpr ⟨_, _, first_left, later_left, rfl⟩⟩

/-- Arguments still stand for the same files, if those that they stand for now are not among what changed. -/
theorem ofArguments_again (found : ofArguments before arguments = .ok files)
    (avoid : ∀ left, ofArguments after arguments = .ok left → Avoid after places left) :
    ofArguments after arguments = .ok files := by
  obtain ⟨left, found_after⟩ := exists_ofArguments_eq_ok_of_keeps agree kept named found
  have found_before := ofArguments_eq_ok_of_avoid agree kept named found_after (avoid left found_after)
  rw [found_after, ← found_before, found]

end Kept

end InputFile

end ApiDoc
