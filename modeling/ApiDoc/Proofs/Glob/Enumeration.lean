import ApiDoc.Proofs.FileTree.Agreement
import ApiDoc.Proofs.Glob.Shares
import ApiDoc.Proofs.Glob.Traversal
import Mathlib.Data.Set.Card

/-!
How often a pattern finds a file.

The search for a pattern takes one way after another, and no way twice. A file is therefore found once for each way
in which the parts of the pattern can share the components that lead to it.
-/

namespace ApiDoc

/-- Whether a list holds the item to which each way leads, once for each way. -/
def Enumerates {α β : Type} (leads : α → β → Prop) (found : List β) : Prop :=
  ∃ pairs : List (α × β), (pairs.map (·.1)).Nodup ∧ pairs.map (·.2) = found ∧
    ∀ way item, (way, item) ∈ pairs ↔ leads way item

namespace Enumerates

variable {α β γ δ ε : Type} {leads : α → β → Prop} {whole : ε → δ → Prop} {found : List β}

theorem nil (none : ∀ way item, ¬ leads way item) : Enumerates leads [] :=
  ⟨[], List.nodup_nil, rfl, fun way item => by simp [none way item]⟩

theorem of_nodup [Nonempty α] (nodup : found.Nodup) (mem_iff : ∀ item, item ∈ found ↔ ∃ way, leads way item)
    (functional : ∀ way item other, leads way item → leads way other → item = other)
    (injective : ∀ way other item, leads way item → leads other item → way = other) : Enumerates leads found := by
  have reached : ∀ item ∈ found, ∃ way, leads way item := fun item => (mem_iff item).mp
  choose! way led using reached
  refine ⟨found.map fun item => (way item, item), ?_, ?_, ?_⟩
  · rw [List.map_map]
    refine nodup.map_on fun item member other among same => ?_
    have shared : way item = way other := same
    exact functional _ _ _ (led item member) (shared ▸ led other among)
  · rw [List.map_map]
    exact List.map_id found
  · intro own item
    constructor
    · intro member
      obtain ⟨other, among, same⟩ := List.mem_map.mp member
      obtain ⟨rfl, rfl⟩ := Prod.mk.inj same
      exact led other among
    · intro leads
      have member : item ∈ found := (mem_iff item).mpr ⟨own, leads⟩
      exact List.mem_map.mpr ⟨item, member, by rw [injective _ _ _ (led item member) leads]⟩

theorem flatMap {items : List β} {step : β → List δ} {inner : β → γ → δ → Prop} (join : α → γ → ε)
    (outer : Enumerates leads items) (steps : ∀ item ∈ items, Enumerates (inner item) (step item))
    (injective : Function.Injective2 join)
    (joined : ∀ way last, whole way last ↔
      ∃ first item second, leads first item ∧ inner item second last ∧ join first second = way) :
    Enumerates whole (items.flatMap step) := by
  obtain ⟨pairs, nodup, rfl, graph⟩ := outer
  choose! later later_nodup later_found later_graph using steps
  have inside {pair : α × β} (member : pair ∈ pairs) : pair.2 ∈ pairs.map (·.2) :=
    List.mem_map_of_mem member
  refine ⟨pairs.flatMap fun pair => (later pair.2).map fun rest => (join pair.1 rest.1, rest.2), ?_, ?_, ?_⟩
  · rw [List.map_flatMap, List.nodup_flatMap]
    constructor
    · intro pair member
      have renamed := (later_nodup _ (inside member)).map (injective.right pair.1)
      simpa only [List.map_map, Function.comp_def] using renamed
    · refine (List.pairwise_map.mp nodup).imp fun different => ?_
      intro way one other
      simp only [List.map_map, List.mem_map, Function.comp_apply] at one other
      obtain ⟨_, -, rfl⟩ := one
      obtain ⟨_, -, same⟩ := other
      exact different (injective same).1.symm
  · rw [List.map_flatMap, List.flatMap_map]
    refine List.flatMap_congr fun pair member => ?_
    rw [List.map_map]
    exact later_found _ (inside member)
  · intro way last
    rw [joined]
    simp only [List.mem_flatMap, List.mem_map, Prod.mk.injEq, Prod.exists]
    constructor
    · rintro ⟨first, item, member, second, _, among, rfl, rfl⟩
      exact ⟨first, item, second, (graph _ _).mp member, (later_graph _ (inside member) _ _).mp among, rfl⟩
    · rintro ⟨first, item, second, outer, inner, rfl⟩
      have member := (graph _ _).mpr outer
      exact ⟨first, item, member, second, last, (later_graph _ (inside member) _ _).mpr inner, rfl, rfl⟩

theorem map {renamed : γ → β → Prop} (rename : α → γ) (enumerated : Enumerates leads found)
    (injective : Function.Injective rename)
    (renames : ∀ way item, renamed way item ↔ ∃ own, leads own item ∧ rename own = way) :
    Enumerates renamed found := by
  obtain ⟨pairs, nodup, rfl, graph⟩ := enumerated
  refine ⟨pairs.map fun pair => (rename pair.1, pair.2), ?_, ?_, ?_⟩
  · simpa only [List.map_map, Function.comp_def] using nodup.map injective
  · rw [List.map_map]
    rfl
  · intro way item
    rw [renames]
    simp [graph]

theorem countP_eq (enumerated : Enumerates leads found) (wanted : β → Bool) :
    (found.countP wanted : ℕ∞) = {way | ∃ item, leads way item ∧ wanted item}.encard := by
  classical
  obtain ⟨pairs, nodup, rfl, graph⟩ := enumerated
  let ways : List α := (pairs.filter fun pair => wanted pair.2).map (·.1)
  have ways_nodup : ways.Nodup := nodup.sublist (List.filter_sublist.map _)
  have same : {way | ∃ item, leads way item ∧ wanted item} = (ways.toFinset : Set α) := by
    ext way
    simp [ways, ← graph]
  rw [same, Set.encard_coe_eq_coe_finsetCard, List.toFinset_card_of_nodup ways_nodup, List.length_map,
    ← List.countP_eq_length_filter, List.countP_map]
  rfl

end Enumerates

namespace Glob

variable {tree : FileTree} {place next last : Place} {pieces : List Piece} {parts : List Part}
  {text other : Text} {component another : Component} {shares : List (List Component)}

def files (tree : FileTree) (parts : List Part) (place : Place) : List Place :=
  (expand tree parts place).filter fun last => !tree.isDirectory last.location

structure Ends (tree : FileTree) (parts : List Part) (place : Place) (shares : List (List Component)) (last : Place) :
    Prop where
  shared : Shares parts shares
  leads : Leads tree place shares.flatten last
  file : tree.isDirectory last.location = false

theorem join?_injective {shown parts : List Text} (first : join? shown component = some parts)
    (second : join? shown another = some parts) : component.text = another.text := by
  rcases join?_cases first with ⟨empty, away, rfl⟩ | ⟨-, ⟨home, rfl⟩ | rfl⟩
  · rcases join?_cases second with ⟨also, -, -⟩ | ⟨-, ⟨home, -⟩ | behind⟩
    · rw [empty, also]
    · simp [home] at away
    · simp at behind
  · rcases join?_cases second with ⟨-, away, -⟩ | ⟨-, ⟨-, alone⟩ | behind⟩
    · simp [home] at away
    · exact (List.cons.inj alone).1
    · simpa using congrArg List.getLast? behind
  · rcases join?_cases second with ⟨-, -, behind⟩ | ⟨-, ⟨-, alone⟩ | behind⟩
    · simp at behind
    · simpa using congrArg List.getLast? alone
    · exact (List.append_singleton_inj.mp behind).2

theorem Goes.text_eq (goes : Goes tree place component next) (also : Goes tree place another next) :
    component.text = another.text :=
  join?_injective goes.joined also.joined

section Enter

variable (formed : tree.WellFormed) (named : tree.Named)

include formed

theorem nodup_names (location : Location) : (tree.names location).Nodup := by
  apply (FileTree.nodup_below formed).filterMap
  intro way another name found same
  rw [Option.mem_def] at found same
  split at found
  · split at same
    · rw [Option.some.inj found, Option.some.inj same]
    · contradiction
  · contradiction

include named

theorem nodup_matching (pieces : List Piece) (place : Place) : (matching tree pieces place).Nodup := by
  rw [matching]
  split
  · next inside =>
      have single (found : Prop) [Decidable found] (next : Place) : (if found then [next] else []).Nodup := by
        split <;> simp
      refine List.Nodup.append (List.Nodup.append (single _ _) (single _ _) ?_)
        (((nodup_names formed place.location).filter _).map_on ?_) ?_
      · intro next up stays
        rw [List.mem_ite_nil_right, List.mem_singleton] at up stays
        have same := up.2.symm.trans stays.2
        simp [above, here] at same
      · intro name _ other _ same
        simpa [Place.enter] using congrArg Place.location same
      · intro next dotted down
        obtain ⟨name, among, rfl⟩ := List.mem_map.mp down
        have present := FileTree.mem_names_iff.mp (List.mem_of_mem_filter among)
        have isName := named.isName present (List.mem_singleton_self name)
        have goes := goes_enter isName inside present true
        rw [List.mem_append, List.mem_ite_nil_right, List.mem_singleton, List.mem_ite_nil_right,
          List.mem_singleton] at dotted
        rcases dotted with ⟨-, up⟩ | ⟨-, stays⟩
        · have ascends : Goes tree place (.found above) (place.enter name) := up ▸ goes_above inside rfl rfl
          exact isName.2.2.1 (goes.text_eq ascends)
        · have remains : Goes tree place (.found here) (place.enter name) := stays ▸ goes_here inside rfl rfl
          exact isName.2.1 (goes.text_eq remains)
  · exact List.nodup_nil

theorem enumerates_enter (pieces : List Piece) (place : Place) :
    Enumerates (fun text next => Goes tree place (.ofPieces pieces text) next ∧ Takes pieces text)
      (enter tree pieces place) := by
  refine .of_nodup ?_ (fun next => mem_enter_iff named) ?_ ?_
  · rw [enter]
    split
    · exact Option.toList_nodup _
    · exact nodup_matching formed named pieces place
  · exact fun text next last goes another => goes.1.next_eq another.1
  · exact fun text other next goes another => goes.1.text_eq another.1

end Enter

section Below

variable (formed : tree.WellFormed) (named : tree.Named)

include formed

theorem enumerates_below (pieces : List Piece) (place : Place) :
    Enumerates (fun (way : List Text × Text) found =>
        found = way.1 ++ [way.2] ∧ found ∈ tree.below place.location ∧ Spells pieces way.2)
      ((tree.below place.location).filter fun way => matchName pieces (way.getLastD [])) := by
  refine .of_nodup ((FileTree.nodup_below formed).filter _) ?_ ?_ ?_
  · intro found
    rw [List.mem_filter]
    constructor
    · rintro ⟨below, spelled⟩
      obtain ⟨directories, name, rfl⟩ :=
        (List.eq_nil_or_concat' found).resolve_left (FileTree.mem_below_iff.mp below).1
      rw [List.getLastD_concat] at spelled
      exact ⟨(directories, name), rfl, below, matchName_iff.mp spelled⟩
    · rintro ⟨⟨directories, name⟩, rfl, below, spelled⟩
      exact ⟨below, by rw [List.getLastD_concat]; exact matchName_iff.mpr spelled⟩
  · exact fun way one other first second => first.1.trans second.1.symm
  · rintro ⟨directories, name⟩ ⟨others, other⟩ found ⟨rfl, -⟩ ⟨same, -⟩
    obtain ⟨earlier, last⟩ := List.append_inj' same rfl
    exact Prod.ext earlier (List.singleton_inj.mp last)

end Below

section Expand

theorem expand_chain_chain (parts : List Part) (place : Place) :
    expand tree (.chain :: .chain :: parts) place = expand tree (.chain :: parts) place := by
  simp only [expand, visit]

theorem ends_nil_iff : Ends tree [] place shares last ↔
    shares = [] ∧ last = place ∧ tree.isDirectory place.location = false := by
  constructor
  · rintro ⟨shared, leads, file⟩
    cases shared
    cases leads
    exact ⟨rfl, rfl, file⟩
  · rintro ⟨rfl, rfl, file⟩
    exact ⟨.nil, .nil, file⟩

theorem ends_name_iff : Ends tree (.name pieces :: parts) place shares last ↔
    ∃ text next rest, (Goes tree place (.ofPieces pieces text) next ∧ Takes pieces text) ∧
      Ends tree parts next rest last ∧ [.ofPieces pieces text] :: rest = shares := by
  constructor
  · rintro ⟨shared, leads, file⟩
    cases shared with
    | name fits shared =>
        cases leads with
        | cons goes leads => exact ⟨_, _, _, ⟨goes, Or.inr fits⟩, ⟨shared, leads, file⟩, rfl⟩
    | empty _ shared =>
        cases leads with
        | cons goes leads => exact ⟨_, _, _, ⟨goes, Or.inl ⟨rfl, rfl⟩⟩, ⟨shared, leads, file⟩, rfl⟩
  · rintro ⟨text, next, rest, ⟨goes, takes⟩, ⟨shared, leads, file⟩, rfl⟩
    refine ⟨?_, .cons goes leads, file⟩
    rcases takes with ⟨rfl, rfl⟩ | fits
    · -- An empty part with nothing behind it ends in the directory in which it stays.
      refine .empty (fun none => ?_) shared
      rw [none] at leads
      cases leads
      obtain ⟨inside, ⟨-, same⟩ | ⟨up, -⟩ | ⟨⟨nonempty, -⟩, -⟩⟩ := FileTree.step_eq_ok_iff.mp goes.taken
      · exact absurd inside (by simp [← same, file])
      · exact absurd up (by decide)
      · contradiction
    · exact .name fits shared

theorem ends_chain_chain_iff : Ends tree (.chain :: .chain :: parts) place shares last ↔
    ∃ own, Ends tree (.chain :: parts) place own last ∧ [] :: own = shares := by
  constructor
  · rintro ⟨shared, leads, file⟩
    cases shared with
    | row shared => exact ⟨_, ⟨shared, leads, file⟩, rfl⟩
  · rintro ⟨own, ⟨shared, leads, file⟩, rfl⟩
    exact ⟨.row shared, leads, file⟩

theorem enumerates_nil (place : Place) : Enumerates (Ends tree [] place) (files tree [] place) := by
  rw [files, expand]
  refine .of_nodup ((List.nodup_singleton place).filter _) ?_ ?_ ?_
  · intro last
    simp only [ends_nil_iff, List.mem_filter, List.mem_singleton, Bool.not_eq_true', exists_eq_left]
    refine and_congr_right fun same => ?_
    rw [same]
  · exact fun way one other first second => (ends_nil_iff.mp first).2.1.trans (ends_nil_iff.mp second).2.1.symm
  · exact fun way other last first second => (ends_nil_iff.mp first).1.trans (ends_nil_iff.mp second).1.symm

theorem enumerates_chain (place : Place) : Enumerates (Ends tree [.chain] place) (files tree [.chain] place) := by
  have none : files tree [.chain] place = [] := by
    rw [files, List.filter_eq_nil_iff]
    intro last member
    rw [expand, List.mem_ite_nil_right, descendants, List.flatMap_map, List.mem_flatMap] at member
    obtain ⟨-, way, -, visited⟩ := member
    dsimp only at visited
    rw [visit, List.mem_ite_nil_right, List.mem_singleton] at visited
    obtain ⟨inside, rfl⟩ := visited
    simp [inside]
  rw [none]
  refine .nil ?_
  rintro shares last ⟨shared, -⟩
  cases shared

theorem enumerates_chain_chain
    (behind : Enumerates (Ends tree (.chain :: parts) place) (files tree (.chain :: parts) place)) :
    Enumerates (Ends tree (.chain :: .chain :: parts) place) (files tree (.chain :: .chain :: parts) place) := by
  rw [files, expand_chain_chain]
  exact behind.map ([] :: ·) List.cons_injective fun shares last => ends_chain_chain_iff

variable (formed : tree.WellFormed) (named : tree.Named)

include formed

theorem expand_chain_name (pieces : List Piece) (parts : List Part) (place : Place) :
    expand tree (.chain :: .name pieces :: parts) place =
      ((tree.below place.location).filter fun way => matchName pieces (way.getLastD [])).flatMap
        fun way => expand tree parts (place.descend way) := by
  have visited (ways : List Location) : (ways.flatMap fun way =>
      if matchName pieces (way.getLastD []) then expand tree parts (place.descend way) else []) =
      (ways.filter fun way => matchName pieces (way.getLastD [])).flatMap
        fun way => expand tree parts (place.descend way) := by
    induction ways with
    | nil => rfl
    | cons way ways ih =>
        rw [List.flatMap_cons, ih, List.filter_cons]
        split <;> simp
  simp only [expand, visit, descendants, List.flatMap_map, visited]
  split
  · rfl
  · next outside =>
      have nothing : tree.below place.location = [] := by
        rw [List.eq_nil_iff_forall_not_mem]
        intro way below
        obtain ⟨nonempty, present⟩ := FileTree.mem_below_iff.mp below
        exact outside (formed.isDirectory_of_append nonempty present)
      rw [nothing]
      rfl

include named

theorem ends_chain_name_iff : Ends tree (.chain :: .name pieces :: parts) place shares last ↔
    ∃ (way : List Text × Text) (found : List Text) (rest : List (List Component)),
      (found = way.1 ++ [way.2] ∧ found ∈ tree.below place.location ∧ Spells pieces way.2) ∧
        Ends tree parts (place.descend found) rest last ∧
          way.1.map .found :: [.ofPieces pieces way.2] :: rest = shares := by
  constructor
  · rintro ⟨shared, leads, file⟩
    cases shared with
    | @chain _ _ directories component shares isName isNameNext shared =>
        cases shared with
        | @name _ _ text _ fits shared =>
            have names : ∀ component ∈ directories.map Component.found, Path.IsName component.text :=
              List.forall_mem_map.mpr isName
            replace leads : Leads tree place (directories.map .found ++ .ofPieces pieces text :: shares.flatten) last :=
              leads
            have below := leads.mem_below names isNameNext
            rw [Component.map_text_found] at below
            refine ⟨(directories, text), directories ++ [text], shares, ⟨rfl, below, fits.spells⟩,
              ⟨shared, ?_, file⟩, rfl⟩
            rw [List.append_cons] at leads
            have onward := leads.of_append (List.forall_mem_append.mpr ⟨names, List.forall_mem_singleton.mpr isNameNext⟩)
            rwa [List.map_append, Component.map_text_found] at onward
        | empty => exact absurd rfl isNameNext.1
  · rintro ⟨⟨directories, text⟩, _, rest, ⟨rfl, below, spelled⟩, ⟨shared, leads, file⟩, rfl⟩
    obtain ⟨-, present⟩ := FileTree.mem_below_iff.mp below
    have isName : ∀ name ∈ directories ++ [text], Path.IsName name := fun name => named.isName present
    obtain ⟨directories_isName, isNameNext⟩ := List.forall_mem_append.mp isName
    rw [List.forall_mem_singleton] at isNameNext
    refine ⟨.chain directories_isName isNameNext (.name (.of_isName isNameNext spelled) shared), ?_, file⟩
    have texts : (directories.map Component.found ++ [Component.ofPieces pieces text]).map Component.text =
        directories ++ [text] := by
      rw [List.map_append, Component.map_text_found]
      rfl
    rw [← texts] at present leads
    have whole := (leads_descend formed named present).append leads
    rwa [List.append_assoc] at whole

theorem enumerates_name (behind : ∀ next, Enumerates (Ends tree parts next) (files tree parts next))
    (pieces : List Piece) (place : Place) :
    Enumerates (Ends tree (.name pieces :: parts) place) (files tree (.name pieces :: parts) place) := by
  rw [files, expand, List.filter_flatMap]
  refine (enumerates_enter formed named pieces place).flatMap (fun text rest => [.ofPieces pieces text] :: rest)
    (fun next _ => behind next) ?_ fun shares last => ends_name_iff
  intro one other rest others same
  simpa using same

theorem enumerates_chain_name (behind : ∀ next, Enumerates (Ends tree parts next) (files tree parts next))
    (pieces : List Piece) (place : Place) : Enumerates (Ends tree (.chain :: .name pieces :: parts) place)
      (files tree (.chain :: .name pieces :: parts) place) := by
  rw [files, expand_chain_name formed, List.filter_flatMap]
  refine (enumerates_below formed pieces place).flatMap
    (fun way rest => way.1.map .found :: [.ofPieces pieces way.2] :: rest)
    (fun way _ => behind (place.descend way)) ?_ fun shares last => ends_chain_name_iff formed named
  rintro ⟨directories, text⟩ ⟨others, other⟩ rest others_rest same
  simpa [and_assoc, Component.found_injective.list_map.eq_iff] using same

/-- The search finds each file in as many ways as the components that lead to it can be shared. -/
theorem enumerates_files (parts : List Part) :
    ∀ place, Enumerates (Ends tree parts place) (files tree parts place) := by
  induction parts using List.twoStepInduction with
  | nil => exact enumerates_nil
  | singleton part =>
      cases part with
      | name pieces => exact enumerates_name formed named enumerates_nil pieces
      | chain => exact enumerates_chain
  | cons_cons part second parts behind behindSecond =>
      cases part with
      | name pieces => exact enumerates_name formed named (behindSecond second) pieces
      | chain =>
          cases second with
          | name pieces => exact enumerates_chain_name formed named behind pieces
          | chain => exact fun place => enumerates_chain_chain (behindSecond .chain place)

end Expand

end Glob

end ApiDoc
