import ApiDoc.Proofs.FileTree
import ApiDoc.Proofs.FileTree.Path
import ApiDoc.Proofs.Text.Lines

/-!
Ways through a file tree.

A component leads from one place to the next as it does in a path: it stays, goes up, or goes down to an entry.
What a place shows is the path of the components that led there, and that path leads there again.
-/

namespace ApiDoc

namespace Path

theorem parts_intercalate {components : List Text} (nonempty : components ≠ [])
    (whole : ∀ component ∈ components, '/' ∉ component) :
    parts (['/'].intercalate components) = components :=
  List.splitOn_intercalate '/' whole nonempty

theorem isRooted_iff_head?_parts {path : Text} (nonempty : path ≠ []) :
    isRooted path ↔ (parts path).head? = some [] := by
  have whole : ['/'].intercalate (parts path) = path := List.intercalate_splitOn '/'
  have apart : ∀ part ∈ parts path, '/' ∉ part := fun part => Text.separator_notMem_of_mem_splitOn
  rw [isRooted, decide_eq_true_eq]
  cases split : parts path with
  | nil => exact absurd split (List.splitOn_ne_nil '/' path)
  | cons first rest =>
      rw [split] at whole apart
      cases first with
      | nil =>
          cases rest with
          | nil => exact absurd whole.symm nonempty
          | cons part rest => simp [← whole, List.intercalate]
      | cons char first =>
          have other : char ≠ '/' := fun same => apart _ List.mem_cons_self (same ▸ List.mem_cons_self)
          cases rest with
          | nil => simp [← whole, List.intercalate, other]
          | cons part rest => simp [← whole, List.intercalate, other]

end Path

namespace Glob

variable {shown parts : List Text} {component : Component} {components : List Component} {text : Text}

section Join

variable {next : List Text}

theorem join?_cases (joined : join? shown component = some next) :
    component.text = [] ∧ atHome shown = false ∧ next = shown ∨
      component.text ≠ [] ∧ (atHome shown ∧ next = [component.text] ∨ next = shown ++ [component.text]) := by
  rw [join?] at joined
  split at joined
  · next empty =>
      split at joined
      · contradiction
      · next away => exact Or.inl ⟨empty, eq_false_of_ne_true away, (Option.some.inj joined).symm⟩
  · next nonempty =>
      split at joined
      · next alone => exact Or.inr ⟨nonempty, Or.inl ⟨alone.1, (Option.some.inj joined).symm⟩⟩
      · exact Or.inr ⟨nonempty, Or.inr (Option.some.inj joined).symm⟩

theorem join?_of_away (away : atHome shown = false) : join? shown component =
    some (shown ++ [component.text].filter (· ≠ [])) := by
  by_cases empty : component.text = [] <;> simp [join?, away, empty]

theorem join?_of_isName (isName : Path.IsName component.text) : join? shown component =
    some (if atHome shown then [component.text] else shown ++ [component.text]) := by
  obtain ⟨nonempty, notHere, notAbove, -⟩ := isName
  have plain : component.isDots = false := by simp [Component.isDots, notHere, notAbove]
  rw [join?, if_neg nonempty]
  cases atHome shown <;> simp [plain]

theorem atHome_append (shown : List Text) (text : Text) :
    atHome (shown ++ [text]) = (atHome shown && decide (text = here)) := by
  simp [atHome]

theorem away_append (away : atHome shown = false) (more : List Text) : atHome (shown ++ more) = false := by
  rw [atHome, List.all_append, ← atHome, away, Bool.false_and]

theorem foldlM_join?_of_away (away : atHome shown = false) : components.foldlM join? shown =
    some (shown ++ (components.map Component.text).filter (· ≠ [])) := by
  induction components generalizing shown with
  | nil => simp
  | cons component components ih =>
      rw [List.foldlM_cons, join?_of_away away, Option.bind_eq_bind, Option.bind_some, ih (away_append away _),
        List.append_assoc, ← List.filter_append]
      rfl

theorem join?_head? (joined : join? shown component = some next) (begun : shown ≠ []) :
    next ≠ [] ∧ (next.head? = some [] ↔ shown.head? = some []) := by
  rcases join?_cases joined with ⟨-, -, rfl⟩ | ⟨named, ⟨home, rfl⟩ | rfl⟩
  · exact ⟨begun, Iff.rfl⟩
  · obtain ⟨first, rest, rfl⟩ := List.exists_cons_of_ne_nil begun
    have first_here : first = here := by simpa using List.all_eq_true.mp home first List.mem_cons_self
    simp [named, first_here, here]
  · obtain ⟨first, rest, rfl⟩ := List.exists_cons_of_ne_nil begun
    simp

theorem foldlM_join?_head? (joined : components.foldlM join? shown = some parts) (begun : shown ≠ []) :
    parts ≠ [] ∧ (parts.head? = some [] ↔ shown.head? = some []) := by
  induction components generalizing shown with
  | nil => exact Option.some.inj joined ▸ ⟨begun, Iff.rfl⟩
  | cons component components ih =>
      obtain ⟨next, first, later⟩ := Option.bind_eq_some_iff.mp joined
      obtain ⟨next_begun, same⟩ := join?_head? first begun
      obtain ⟨parts_begun, others_same⟩ := ih later next_begun
      exact ⟨parts_begun, others_same.trans same⟩

end Join

structure Goes (tree : FileTree) (place : Place) (component : Component) (next : Place) : Prop where
  taken : tree.step place.location component.text = .ok next.location
  joined : join? place.shown component = some next.shown

inductive Leads (tree : FileTree) : Place → List Component → Place → Prop
  | nil {place : Place} : Leads tree place [] place
  | cons {place next last : Place} {component : Component} {components : List Component} :
      Goes tree place component next → Leads tree next components last →
      Leads tree place (component :: components) last

variable {tree : FileTree} {glob : Glob} {place next last : Place} {more : List Component} {origin location : Location}
  {content : Bytes}

section Goes

variable (goes : Goes tree place component next)

include goes

theorem Goes.isDirectory : tree.isDirectory place.location :=
  FileTree.isDirectory_of_step goes.taken

theorem Goes.slash_notMem (named : tree.Named) : '/' ∉ component.text := by
  obtain ⟨-, ⟨empty | stays, -⟩ | ⟨up, -⟩ | ⟨-, present, -⟩⟩ := FileTree.step_eq_ok_iff.mp goes.taken
  · rw [empty]
    exact List.not_mem_nil
  · rw [stays]
    decide
  · rw [up]
    decide
  · exact (named.isName present (List.mem_singleton_self _)).2.2.2

theorem Goes.eq_enter (isName : Path.IsName component.text) : next = place.enter component.text := by
  obtain ⟨taken, joined⟩ := goes
  rw [join?_of_isName isName] at joined
  obtain ⟨nonempty, notHere, notAbove, -⟩ := isName
  obtain ⟨-, ⟨stays, -⟩ | ⟨up, -⟩ | ⟨-, -, down⟩⟩ := FileTree.step_eq_ok_iff.mp taken
  · exact absurd stays (by simp [nonempty, notHere])
  · contradiction
  · rw [Place.enter, Option.some.inj joined, ← down]

end Goes

theorem Goes.next_eq (goes : Goes tree place component next) (another : Goes tree place component last) :
    next = last := by
  have location := Except.ok.inj (goes.taken.symm.trans another.taken)
  have shown := Option.some.inj (goes.joined.symm.trans another.joined)
  cases next
  cases last
  cases location
  cases shown
  rfl

theorem goes_enter (isName : Path.IsName text) (inside : tree.isDirectory place.location)
    (present : (tree.get? (place.location ++ [text])).isSome) (searched : Bool) :
    Goes tree place ⟨text, searched⟩ (place.enter text) := by
  refine ⟨?_, join?_of_isName isName⟩
  obtain ⟨nonempty, notHere, notAbove, -⟩ := isName
  exact FileTree.step_eq_ok_iff.mpr ⟨inside, Or.inr (Or.inr ⟨⟨nonempty, notHere, notAbove⟩, present, rfl⟩)⟩

theorem Leads.append (first : Leads tree place components next) (second : Leads tree next more last) :
    Leads tree place (components ++ more) last := by
  induction first with
  | nil => exact second
  | cons goes _ ih => exact .cons goes (ih second)

theorem Leads.joined (leads : Leads tree place components last) :
    components.foldlM join? place.shown = some last.shown := by
  induction leads with
  | nil => rfl
  | cons goes _ ih => rw [List.foldlM_cons, goes.joined, Option.bind_eq_bind, Option.bind_some, ih]

section Descend

theorem Place.location_descend (place : Place) (way : Location) :
    (place.descend way).location = place.location ++ way := by
  rw [descend]
  induction way generalizing place with
  | nil => simp
  | cons name way ih => rw [List.foldl_cons, ih, enter, List.append_assoc, List.singleton_append]

theorem leads_descend (formed : tree.WellFormed) (named : tree.Named)
    (present : (tree.get? (place.location ++ components.map Component.text)).isSome) :
    Leads tree place components (place.descend (components.map Component.text)) := by
  induction components generalizing place with
  | nil => exact .nil
  | cons component rest ih =>
      have inside := formed.isDirectory_of_append (List.cons_ne_nil _ _) present
      have isName := named.isName present List.mem_cons_self
      have onward : (tree.get? ((place.location ++ [component.text]) ++ rest.map Component.text)).isSome := by
        rwa [List.append_assoc, List.singleton_append]
      have first : (tree.get? (place.location ++ [component.text])).isSome := by
        by_cases last : rest.map Component.text = []
        · rwa [last, List.append_nil] at onward
        · exact FileTree.get?_isSome_of_isDirectory (formed.isDirectory_of_append last onward)
      exact .cons (goes_enter isName inside first component.searched) (ih onward)

theorem Component.found_injective : Function.Injective found :=
  fun _ _ same => congrArg text same

@[simp]
theorem Component.ofPieces_inj {pieces : List Piece} {other : Text} :
    ofPieces pieces text = ofPieces pieces other ↔ text = other :=
  ⟨fun same => congrArg Component.text same, fun same => congrArg (ofPieces pieces) same⟩

@[simp]
theorem Component.map_text_found (names : List Text) : (names.map .found).map Component.text = names := by
  rw [List.map_map]
  exact List.map_id names

theorem leads_descend_found (formed : tree.WellFormed) (named : tree.Named) {way : Location}
    (present : (tree.get? (place.location ++ way)).isSome) :
    Leads tree place (way.map .found) (place.descend way) := by
  rw [← Component.map_text_found way] at present
  have leads := leads_descend formed named present
  rwa [Component.map_text_found] at leads

theorem Leads.of_append (leads : Leads tree place (components ++ more) last)
    (isName : ∀ component ∈ components, Path.IsName component.text) :
    Leads tree (place.descend (components.map Component.text)) more last := by
  induction components generalizing place with
  | nil => exact leads
  | cons component components ih =>
      cases leads with
      | cons goes rest =>
          obtain rfl := goes.eq_enter (isName component List.mem_cons_self)
          exact ih rest fun component member => isName component (List.mem_cons_of_mem _ member)

theorem Leads.mem_below (leads : Leads tree place (components ++ component :: more) last)
    (isName : ∀ component ∈ components, Path.IsName component.text) (isNameLast : Path.IsName component.text) :
    components.map Component.text ++ [component.text] ∈ tree.below place.location := by
  rw [FileTree.mem_below_iff]
  refine ⟨by simp, ?_⟩
  cases leads.of_append isName with
  | cons goes _ =>
      obtain ⟨nonempty, notHere, notAbove, -⟩ := isNameLast
      obtain ⟨-, ⟨stays, -⟩ | ⟨up, -⟩ | ⟨-, present, -⟩⟩ := FileTree.step_eq_ok_iff.mp goes.taken
      · exact absurd stays (by simp [nonempty, notHere])
      · contradiction
      · rwa [Place.location_descend, List.append_assoc] at present

end Descend

section Shown

theorem location_eq_of_atHome (home : atHome shown) (led : tree.follow origin shown = .ok location) :
    location = origin := by
  induction shown with
  | nil => exact (Except.ok.inj led).symm
  | cons part rest ih =>
      obtain ⟨stays, rest_home⟩ := Bool.and_eq_true_iff.mp home
      rw [of_decide_eq_true stays, FileTree.follow] at led
      split at led
      · next next taken =>
          rcases FileTree.step_eq_ok_iff.mp taken with ⟨-, ⟨-, rfl⟩ | ⟨up, -⟩ | ⟨⟨-, notHere, -⟩, -⟩⟩
          · exact ih rest_home led
          · exact absurd up (by decide)
          · contradiction
      · contradiction

theorem Goes.follow_shown (goes : Goes tree place component next)
    (led : tree.follow origin place.shown = .ok place.location) :
    tree.follow origin next.shown = .ok next.location := by
  rcases join?_cases goes.joined with ⟨empty, -, same⟩ | ⟨-, ⟨home, alone⟩ | behind⟩
  · have taken := goes.taken
    rw [empty] at taken
    rcases FileTree.step_eq_ok_iff.mp taken with ⟨-, ⟨-, stays⟩ | ⟨up, -⟩ | ⟨⟨nonempty, -⟩, -⟩⟩
    · rw [same, stays, led]
    · exact absurd up (by decide)
    · contradiction
  · have taken := goes.taken
    rw [location_eq_of_atHome home led] at taken
    simp only [alone, FileTree.follow, taken]
  · rw [behind, FileTree.follow_append, led]
    simp only [Except.bind, FileTree.follow, goes.taken]

theorem Leads.follow_shown (leads : Leads tree place components last)
    (led : tree.follow origin place.shown = .ok place.location) :
    tree.follow origin last.shown = .ok last.location := by
  induction leads with
  | nil => exact led
  | cons goes _ ih => exact ih (goes.follow_shown led)

theorem Leads.slash_notMem_shown (leads : Leads tree place components last) (named : tree.Named)
    (whole : ∀ part ∈ place.shown, '/' ∉ part) : ∀ part ∈ last.shown, '/' ∉ part := by
  induction leads with
  | nil => exact whole
  | cons goes _ ih =>
      refine ih ?_
      have own := goes.slash_notMem named
      rcases join?_cases goes.joined with ⟨-, -, same⟩ | ⟨-, ⟨-, alone⟩ | behind⟩
      · rwa [same]
      · rw [alone]
        exact List.forall_mem_singleton.mpr own
      · rw [behind]
        exact List.forall_mem_append.mpr ⟨whole, List.forall_mem_singleton.mpr own⟩

end Shown

section Start

theorem head?_base (glob : Glob) : glob.base.head? = some [] ↔ glob.rooted := by
  rw [base]
  cases glob.rooted <;> decide

theorem base_ne_nil (glob : Glob) : glob.base ≠ [] := by
  rw [base]
  split <;> exact List.cons_ne_nil _ _

theorem isDirectory_start (formed : tree.WellFormed) (glob : Glob) :
    tree.isDirectory (start tree glob).location := by
  rw [start]
  split
  · exact FileTree.isDirectory_root
  · exact formed.home

theorem follow_base (formed : tree.WellFormed) (glob : Glob) :
    tree.follow (start tree glob).location glob.base = .ok (start tree glob).location := by
  have inside := isDirectory_start formed glob
  rw [base]
  split <;> simp [FileTree.follow, FileTree.step, inside]

theorem start_path_eq {path : Text} (nonempty : path ≠ [])
    (joined : components.foldlM join? glob.base = some (Path.parts path)) :
    tree.start path = (start tree glob).location := by
  obtain ⟨-, head⟩ := foldlM_join?_head? joined glob.base_ne_nil
  have rooted : Path.isRooted path = glob.rooted := by
    rw [Bool.eq_iff_iff, Path.isRooted_iff_head?_parts nonempty, head, head?_base]
  rw [FileTree.start, start, rooted]

theorem read?_root : tree.read? ['/'] = none := by
  have inside : tree.isDirectory [] := FileTree.isDirectory_root
  have root : tree.resolve ['/'] = .ok [] := by
    rw [FileTree.resolve_eq_ok_iff]
    refine ⟨⟨List.cons_ne_nil _ _, by decide⟩, ?_⟩
    rw [show Path.parts ['/'] = [[], []] by decide, show tree.start ['/'] = [] from rfl]
    simp [FileTree.follow, FileTree.step, inside]
  rw [FileTree.read?, root]
  dsimp only
  rw [FileTree.content?, FileTree.get?_of_isDirectory inside]

theorem Leads.resolve_path (leads : Leads tree (start tree glob) components last) (formed : tree.WellFormed)
    (named : tree.Named) (held : tree.read? last.path = some content) :
    Path.parts last.path = last.shown ∧ tree.resolve last.path = .ok last.location := by
  have notRoot : last.shown ≠ [[]] := by
    intro root
    rw [Place.path, if_pos root, read?_root] at held
    contradiction
  have whole : ∀ part ∈ last.shown, '/' ∉ part := by
    refine leads.slash_notMem_shown named ?_
    rw [start]
    dsimp only
    rw [base]
    split <;> decide
  obtain ⟨begun, -⟩ := foldlM_join?_head? leads.joined glob.base_ne_nil
  have parts : Path.parts last.path = last.shown := by
    rw [Place.path, if_neg notRoot]
    exact Path.parts_intercalate begun whole
  obtain ⟨location, resolved, -⟩ := FileTree.read?_eq_some_iff_resolve.mp held
  obtain ⟨usable, -⟩ := FileTree.resolve_eq_ok_iff.mp resolved
  refine ⟨parts, FileTree.resolve_eq_ok_iff.mpr ⟨usable, ?_⟩⟩
  rw [start_path_eq usable.1 (parts ▸ leads.joined), parts]
  exact leads.follow_shown (follow_base formed glob)

theorem Leads.content?_of_read? (leads : Leads tree (start tree glob) components last) (formed : tree.WellFormed)
    (named : tree.Named) (held : tree.read? last.path = some content) :
    tree.content? last.location = some content := by
  obtain ⟨location, resolved, stands⟩ := FileTree.read?_eq_some_iff_resolve.mp held
  rw [(leads.resolve_path formed named held).2] at resolved
  exact Except.ok.inj resolved ▸ stands

end Start

section Followed

theorem filter_ne_nil_of_getLast? (begun : parts ≠ []) (ended : parts.getLast? ≠ some []) :
    parts.filter (· ≠ []) ≠ [] := by
  intro none
  obtain ⟨last, found⟩ := Option.isSome_iff_exists.mp (List.getLast?_isSome.mpr begun)
  have empty := List.filter_eq_nil_iff.mp none last (List.mem_of_getLast? found)
  rw [found] at ended
  simp_all

theorem exists_step (inside : tree.isDirectory origin)
    (led : tree.follow origin place.shown = .ok place.location) {shown : List Text}
    (joined : join? place.shown component = some shown) (rest : components.foldlM join? shown = some parts)
    (followed : tree.follow origin parts = .ok location)
    (ended : ((component :: components).map Component.text).getLast? ≠ some []) :
    ∃ next, tree.step place.location component.text = .ok next := by
  have taken (stays : tree.isDirectory place.location) (still : component.text = [] ∨ component.text = here) :
      ∃ next, tree.step place.location component.text = .ok next :=
    ⟨place.location, FileTree.step_eq_ok_iff.mpr ⟨stays, Or.inl ⟨still, rfl⟩⟩⟩
  have onward (others : List Text) (path : tree.follow place.location (component.text :: others) = .ok location) :
      ∃ next, tree.step place.location component.text = .ok next := by
    rw [FileTree.follow] at path
    split at path
    · next next found => exact ⟨next, found⟩
    · contradiction
  have behind (others : List Text) (path : tree.follow origin (place.shown ++ others) = .ok location) :
      tree.follow place.location others = .ok location := by
    rwa [FileTree.follow_append, led] at path
  rcases join?_cases joined with ⟨empty, away, rfl⟩ | ⟨-, ⟨home, rfl⟩ | rfl⟩
  · -- The path does not show the empty component, but what follows it can only follow a directory.
    rw [foldlM_join?_of_away away] at rest
    rw [← Option.some.inj rest] at followed
    have begun : components.map Component.text ≠ [] := by
      intro none
      rw [List.map_cons, none, empty] at ended
      exact ended rfl
    rw [List.map_cons, List.getLast?_cons_of_ne_nil begun] at ended
    have shown := filter_ne_nil_of_getLast? begun ended
    exact taken (FileTree.isDirectory_of_follow (behind _ followed) shown) (Or.inl empty)
  · have same := location_eq_of_atHome home led
    by_cases stays : component.text = here
    · exact taken (same ▸ inside) (Or.inr stays)
    · rw [foldlM_join?_of_away (by simp [atHome, stays])] at rest
      rw [← Option.some.inj rest] at followed
      exact onward _ (same ▸ followed)
  · by_cases home : atHome (place.shown ++ [component.text])
    · rw [atHome_append, Bool.and_eq_true_iff, decide_eq_true_eq] at home
      exact taken (location_eq_of_atHome home.1 led ▸ inside) (Or.inr home.2)
    · rw [foldlM_join?_of_away (eq_false_of_ne_true home)] at rest
      rw [← Option.some.inj rest, List.append_assoc] at followed
      exact onward _ (behind _ followed)

/-- Where the shown path of components can be followed, the components themselves lead to the same place. -/
theorem exists_leads (inside : tree.isDirectory origin)
    (led : tree.follow origin place.shown = .ok place.location)
    (joined : components.foldlM join? place.shown = some parts)
    (followed : tree.follow origin parts = .ok location)
    (ended : (components.map Component.text).getLast? ≠ some []) :
    Leads tree place components ⟨parts, location⟩ := by
  induction components generalizing place with
  | nil =>
      obtain rfl := Option.some.inj joined
      rw [led] at followed
      exact Except.ok.inj followed ▸ .nil
  | cons component components ih =>
      obtain ⟨shown, first, rest⟩ := Option.bind_eq_some_iff.mp joined
      obtain ⟨next, taken⟩ := exists_step inside led first rest followed ended
      have goes : Goes tree place component ⟨shown, next⟩ := ⟨taken, first⟩
      refine .cons goes (ih (goes.follow_shown led) rest ?_)
      intro last
      rw [List.map_cons, List.getLast?_cons, last] at ended
      exact ended rfl

end Followed

end Glob

end ApiDoc
