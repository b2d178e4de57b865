import ApiDoc.Proofs.Glob.Names
import ApiDoc.Proofs.Glob.Ways

/-!
What a pattern finds.

Each step of the search for a pattern goes where a component leads that the next part can take, and to all such
places. What is found is therefore at the end of a way through the tree.
-/

namespace ApiDoc

namespace Glob

variable {tree : FileTree} {place next last : Place} {pieces : List Piece} {parts : List Part} {name : Text}

def Takes (pieces : List Piece) (component : Text) : Prop :=
  component = [] ∧ pieces = [] ∨ Fits pieces component

theorem Fits.of_isName (isName : Path.IsName name) (spelled : Spells pieces name) : Fits pieces name where
  spells := spelled
  ne_nil := isName.1
  dotted dots := (dots.elim isName.2.1 isName.2.2.1).elim

section Enter

theorem lookUp_eq_some_iff : lookUp tree name place = some next ↔ Goes tree place ⟨name, false⟩ next := by
  rw [lookUp]
  constructor
  · intro found
    split at found
    · next location taken =>
        obtain ⟨shown, joined, rfl⟩ := Option.map_eq_some_iff.mp found
        exact ⟨taken, joined⟩
    · contradiction
  · rintro ⟨taken, joined⟩
    dsimp only at taken
    rw [taken, joined]
    rfl

theorem goes_here {component : Component} (inside : tree.isDirectory place.location)
    (searched : component.searched) (stays : component.text = here) :
    Goes tree place component ⟨place.shown ++ [here], place.location⟩ where
  taken := FileTree.step_eq_ok_iff.mpr ⟨inside, Or.inl ⟨Or.inr stays, rfl⟩⟩
  joined := by simp [join?, Component.isDots, searched, stays, here]

theorem goes_above {component : Component} (inside : tree.isDirectory place.location)
    (searched : component.searched) (up : component.text = above) :
    Goes tree place component ⟨place.shown ++ [above], place.location.dropLast⟩ where
  taken := FileTree.step_eq_ok_iff.mpr ⟨inside, Or.inr (Or.inl ⟨up, rfl⟩)⟩
  joined := by simp [join?, Component.isDots, searched, up, above]

theorem mem_matching_iff (named : tree.Named) : next ∈ matching tree pieces place ↔
    ∃ text, Goes tree place ⟨text, true⟩ next ∧ Fits pieces text := by
  rw [matching]
  constructor
  · intro member
    split at member
    · next inside =>
        rw [List.mem_append, List.mem_append, List.mem_map] at member
        rcases member with (up | stays) | ⟨name, among, rfl⟩
        · rw [List.mem_ite_nil_right, List.mem_singleton] at up
          obtain ⟨⟨dotted, spelled⟩, rfl⟩ := up
          exact ⟨above, goes_above inside rfl rfl, matchName_iff.mp spelled, by decide, fun _ => dotted⟩
        · rw [List.mem_ite_nil_right, List.mem_singleton] at stays
          obtain ⟨⟨dotted, spelled⟩, rfl⟩ := stays
          exact ⟨here, goes_here inside rfl rfl, matchName_iff.mp spelled, by decide, fun _ => dotted⟩
        · obtain ⟨listed, spelled⟩ := List.mem_filter.mp among
          have present := FileTree.mem_names_iff.mp listed
          have isName := named.isName present (List.mem_singleton_self name)
          exact ⟨name, goes_enter isName inside present true, .of_isName isName (matchName_iff.mp spelled)⟩
    · contradiction
  · rintro ⟨text, goes, fits⟩
    have spelled := matchName_iff.mpr fits.spells
    rw [if_pos goes.isDirectory, List.mem_append, List.mem_append]
    obtain ⟨inside, ⟨empty | rfl, -⟩ | ⟨rfl, -⟩ | ⟨⟨-, -, -⟩, present, -⟩⟩ := FileTree.step_eq_ok_iff.mp goes.taken
    · exact absurd empty fits.ne_nil
    · refine Or.inl (Or.inr ?_)
      rw [if_pos ⟨fits.dotted (Or.inl rfl), spelled⟩, goes.next_eq (goes_here inside rfl rfl)]
      exact List.mem_singleton_self _
    · refine Or.inl (Or.inl ?_)
      rw [if_pos ⟨fits.dotted (Or.inr rfl), spelled⟩, goes.next_eq (goes_above inside rfl rfl)]
      exact List.mem_singleton_self _
    · have isName := named.isName present (List.mem_singleton_self text)
      rw [goes.eq_enter isName]
      have listed := List.mem_filter.mpr ⟨FileTree.mem_names_iff.mpr present, spelled⟩
      exact Or.inr (List.mem_map.mpr ⟨text, listed, rfl⟩)

theorem mem_enter_iff (named : tree.Named) : next ∈ enter tree pieces place ↔
    ∃ text, Goes tree place (.ofPieces pieces text) next ∧ Takes pieces text := by
  rw [enter]
  cases literal : literal? pieces with
  | some own =>
      have component (text : Text) : Component.ofPieces pieces text = ⟨text, false⟩ := by
        rw [Component.ofPieces, literal]
        rfl
      simp only [component]
      rw [Option.mem_toList, lookUp_eq_some_iff]
      constructor
      · intro goes
        refine ⟨own, goes, ?_⟩
        by_cases empty : own = []
        · exact Or.inl ⟨empty, eq_nil_of_literal? (empty ▸ literal)⟩
        · refine Or.inr ⟨(spells_iff_of_literal? literal).mpr rfl, empty, ?_⟩
          rintro (rfl | rfl) <;> exact head?_of_literal? literal
      · rintro ⟨text, goes, ⟨rfl, rfl⟩ | fits⟩
        · exact Option.some.inj literal ▸ goes
        · exact (spells_iff_of_literal? literal).mp fits.spells ▸ goes
  | none =>
      have component (text : Text) : Component.ofPieces pieces text = ⟨text, true⟩ := by
        rw [Component.ofPieces, literal]
        rfl
      simp only [component]
      rw [mem_matching_iff named]
      refine exists_congr fun text => and_congr_right fun _ => ?_
      constructor
      · exact Or.inr
      · rintro (⟨-, rfl⟩ | fits)
        · contradiction
        · exact fits

end Enter

theorem exists_leads_of_mem (formed : tree.WellFormed) (named : tree.Named) (parts : List Part) :
    (∀ place last, last ∈ expand tree parts place → ∃ components, Leads tree place components last) ∧
      ∀ name place last, last ∈ visit tree parts name place →
        ∃ components, Leads tree place components last := by
  induction parts with
  | nil =>
      constructor
      · intro place last member
        rw [expand, List.mem_singleton] at member
        exact member ▸ ⟨[], .nil⟩
      · intro name place last member
        rw [visit, List.mem_ite_nil_right, List.mem_singleton] at member
        exact member.2 ▸ ⟨[], .nil⟩
  | cons part parts ih =>
      obtain ⟨onExpand, onVisit⟩ := ih
      cases part with
      | name pieces =>
          constructor
          · intro place last member
            rw [expand, List.mem_flatMap] at member
            obtain ⟨next, entered, member⟩ := member
            obtain ⟨text, goes, -⟩ := (mem_enter_iff named).mp entered
            obtain ⟨components, leads⟩ := onExpand next last member
            exact ⟨_ :: components, .cons goes leads⟩
          · intro name place last member
            rw [visit, List.mem_ite_nil_right] at member
            exact onExpand place last member.2
      | chain =>
          constructor
          · intro place last member
            rw [expand, List.mem_ite_nil_right, descendants, List.flatMap_map, List.mem_flatMap] at member
            obtain ⟨-, way, below, member⟩ := member
            obtain ⟨-, present⟩ := FileTree.mem_below_iff.mp below
            obtain ⟨components, leads⟩ := onVisit _ _ last member
            have down := leads_descend_found formed named present
            exact ⟨way.map Component.found ++ components, down.append leads⟩
          · intro name place last member
            rw [visit] at member
            exact onVisit name place last member

end Glob

end ApiDoc
