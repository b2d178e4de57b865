import ApiDoc.Comment
import ApiDoc.Proofs.Comment.Tags
import ApiDoc.Proofs.Text.Delimited
import Mathlib.Data.List.Forall2
import Mathlib.Data.List.Induction

/-!
What a block means.

The tags of a block are taken in one after another, and each changes one part of the element. In the end the last
`@name` and the last `@return` count, every `@param`, and whether there is a `@variable`. How the tags of
different names are mixed makes no difference, and neither do tags of other names.
-/

namespace ApiDoc

namespace Tag

def called (name : Text) (tags : List Tag) : List Tag :=
  tags.filter fun tag => tag.name = name

def lastValue? (name : Text) (tags : List Tag) : Option Text :=
  (called name tags).getLast?.map value

theorem called_eq_nil_iff {name : Text} {tags : List Tag} :
    called name tags = [] ↔ ∀ tag ∈ tags, tag.name ≠ name := by
  rw [called, List.filter_eq_nil_iff]
  simp

theorem called_ne_nil_iff {name : Text} {tags : List Tag} :
    called name tags ≠ [] ↔ ∃ tag ∈ tags, tag.name = name := by
  rw [Ne, called_eq_nil_iff]
  simp

theorem lastValue?_eq_none_iff {name : Text} {tags : List Tag} :
    lastValue? name tags = none ↔ ∀ tag ∈ tags, tag.name ≠ name := by
  rw [lastValue?, Option.map_eq_none_iff, List.getLast?_eq_none_iff, called_eq_nil_iff]

theorem called_append (name : Text) (first second : List Tag) :
    called name (first ++ second) = called name first ++ called name second :=
  List.filter_append first second

theorem called_singleton (name : Text) (tag : Tag) :
    called name [tag] = if tag.name = name then [tag] else [] := by
  by_cases same : tag.name = name <;> simp [called, same]

section Folds

variable {σ : Type} {step : σ → Tag → σ} {name : Text}

/-- A part that tags with a name set, and no others, ends up as the last of them says. -/
theorem foldl_last (part : σ → Text)
    (law : ∀ state tag, part (step state tag) = if tag.name = name then tag.value else part state)
    (tags : List Tag) (state : σ) :
    part (tags.foldl step state) = (lastValue? name tags).getD (part state) := by
  induction tags using List.reverseRecOn with
  | nil => rfl
  | append_singleton tags tag ih =>
      rw [List.foldl_concat, law, lastValue?, called_append, called_singleton]
      split
      · rw [List.getLast?_concat]
        rfl
      · rw [List.append_nil, ih, lastValue?]

theorem foldl_collect {α : Type} (part : σ → List α) {item : Text → α}
    (law : ∀ state tag, part (step state tag) =
      if tag.name = name then part state ++ [item tag.value] else part state)
    (tags : List Tag) (state : σ) :
    part (tags.foldl step state) = part state ++ (called name tags).map fun tag => item tag.value := by
  induction tags using List.reverseRecOn with
  | nil => simp [called]
  | append_singleton tags tag ih =>
      rw [List.foldl_concat, law, called_append, called_singleton, ih]
      split
      · simp
      · simp

theorem foldl_exists (part : σ → Prop)
    (law : ∀ state tag, part (step state tag) ↔ tag.name = name ∨ part state)
    (tags : List Tag) (state : σ) :
    part (tags.foldl step state) ↔ (∃ tag ∈ tags, tag.name = name) ∨ part state := by
  induction tags using List.reverseRecOn with
  | nil => simp
  | append_singleton tags tag ih =>
      rw [List.foldl_concat, law, ih]
      simp only [List.mem_append, List.mem_singleton, or_and_right, exists_or, exists_eq_left]
      rw [or_left_comm, or_assoc]

end Folds

end Tag

namespace Element

variable (element : Element) (tag : Tag)

theorem name_describe : (element.describe tag).name =
    if tag.name = "name".toList then tag.value else element.name := by
  rw [describe]
  split_ifs <;> simp_all

theorem result_describe : (element.describe tag).result =
    if tag.name = "return".toList then tag.value else element.result := by
  rw [describe]
  split_ifs <;> simp_all

theorem kind_describe : (element.describe tag).kind = .variable ↔
    tag.name = "variable".toList ∨ element.kind = .variable := by
  rw [describe]
  split_ifs <;> simp_all

theorem parameters_describe : (element.describe tag).parameters =
    if tag.name = "param".toList then element.parameters ++ [Comment.parameter tag.value]
    else element.parameters := by
  rw [describe]
  split_ifs <;> simp_all

theorem description_describe : (element.describe tag).description = element.description := by
  rw [describe]
  split_ifs <;> rfl

end Element

inductive Parameter.SaidBy : Text → Parameter → Prop
  | bare {value : Text} : ' ' ∉ value → SaidBy value ⟨value, []⟩
  | documented {name doc : Text} : ' ' ∉ name → doc ≠ [] → SaidBy (name ++ ' ' :: doc) ⟨name, doc⟩

/-- Whether an element is what a description and tags say. -/
structure Element.Told (element : Element) (description : Text) (tags : List Tag) : Prop where
  name : Tag.lastValue? "name".toList tags = some element.name
  name_ne_nil : element.name ≠ []
  result : (Tag.lastValue? "return".toList tags).getD [] = element.result
  kind : element.kind = .variable ↔ ∃ tag ∈ tags, tag.name = "variable".toList
  parameters : List.Forall₂ (fun tag => Parameter.SaidBy tag.value) (Tag.called "param".toList tags)
    element.parameters
  description : element.description = description

/-- Whether tags say the same however they are mixed with each other and with tags of other names. -/
structure Tag.Agree (first second : List Tag) : Prop where
  name : called "name".toList first = called "name".toList second
  result : called "return".toList first = called "return".toList second
  parameter : called "param".toList first = called "param".toList second
  kind : (∃ tag ∈ first, tag.name = "variable".toList) ↔ ∃ tag ∈ second, tag.name = "variable".toList

theorem Tag.Agree.symm {first second : List Tag} (agree : Agree first second) : Agree second first :=
  ⟨agree.name.symm, agree.result.symm, agree.parameter.symm, agree.kind.symm⟩

namespace Comment

variable {value : Text} {said : Parameter} {tags : List Tag}

theorem parameter_saidBy (trimmed : value.Trimmed) : (parameter value).SaidBy value := by
  rw [parameter]
  split
  · next name doc cut =>
      have whole := eq_append_of_cutAt? cut
      rw [List.append_assoc, List.singleton_append] at whole
      have free := not_infix_of_cutAt? (List.cons_ne_nil ' ' []) cut
      rw [List.singleton_infix_iff] at free
      have nonempty : doc ≠ [] := by
        rintro rfl
        rw [Text.trimmed_iff, whole] at trimmed
        exact absurd (trimmed.2 ' ' (by simp)) (by decide)
      rw [whole]
      exact .documented free nonempty
  · next missing =>
      have free := cutAt?_eq_none_iff.mp missing
      rw [List.singleton_infix_iff] at free
      exact .bare free

theorem parameter_eq_of_saidBy (saidBy : said.SaidBy value) : parameter value = said := by
  cases saidBy with
  | bare free =>
      have missing : cutAt? [' '] value = none := by
        rwa [cutAt?_eq_none_iff, List.singleton_infix_iff]
      rw [parameter, missing]
  | documented free _ => rw [parameter, cutAt?_singleton_append free]

theorem map_parameter_of_saidBy {parameters : List Parameter}
    (said : List.Forall₂ (fun tag => Parameter.SaidBy tag.value) tags parameters) :
    (tags.map fun tag => parameter tag.value) = parameters := by
  induction said with
  | nil => rfl
  | cons here _ ih => rw [List.map_cons, parameter_eq_of_saidBy here, ih]

section Element

variable (text : Text)

theorem name_element :
    (element text).name = (Tag.lastValue? "name".toList (Tag.scan text)).getD [] :=
  Tag.foldl_last Element.name Element.name_describe _ _

theorem result_element :
    (element text).result = (Tag.lastValue? "return".toList (Tag.scan text)).getD [] :=
  Tag.foldl_last Element.result Element.result_describe _ _

theorem kind_element :
    (element text).kind = .variable ↔ ∃ tag ∈ Tag.scan text, tag.name = "variable".toList := by
  have folded := Tag.foldl_exists (fun element : Element => element.kind = Kind.variable)
    Element.kind_describe (Tag.scan text) { description := description text }
  have first : Kind.function ≠ Kind.variable := by decide
  exact folded.trans (or_iff_left first)

theorem parameters_element : (element text).parameters =
    (Tag.called "param".toList (Tag.scan text)).map fun tag => parameter tag.value :=
  Tag.foldl_collect Element.parameters Element.parameters_describe _ _

theorem description_element : (element text).description = description text := by
  rw [element]
  generalize Tag.scan text = tags
  induction tags using List.reverseRecOn with
  | nil => rfl
  | append_singleton tags tag ih => rw [List.foldl_concat, Element.description_describe, ih]

theorem told_element (named : (element text).name ≠ []) :
    (element text).Told (description text) (Tag.scan text) where
  name := by
    rw [name_element] at named ⊢
    cases last : Tag.lastValue? "name".toList (Tag.scan text) with
    | none => exact absurd (by rw [last]; rfl) named
    | some value => rfl
  name_ne_nil := named
  result := (result_element text).symm
  kind := kind_element text
  parameters := by
    rw [parameters_element, List.forall₂_map_right_iff, List.forall₂_same]
    intro tag member
    exact parameter_saidBy (Tag.value_of_mem_scan (List.mem_of_mem_filter member)).1
  description := description_element text

end Element

end Comment

theorem Kind.eq_of_variable_iff {kind other : Kind} (same : kind = .variable ↔ other = .variable) :
    kind = other := by
  cases kind <;> cases other <;> simp at same ⊢

namespace Element.Told

variable {element other : Element} {description : Text} {tags others : List Tag}

theorem unique (told : element.Told description tags) (again : other.Told description tags) :
    element = other := by
  have name := Option.some.inj (told.name.symm.trans again.name)
  have result := told.result.symm.trans again.result
  have kind := Kind.eq_of_variable_iff (told.kind.trans again.kind.symm)
  have parameters := (Comment.map_parameter_of_saidBy told.parameters).symm.trans
    (Comment.map_parameter_of_saidBy again.parameters)
  have described := told.description.trans again.description.symm
  rw [Element.mk.injEq]
  exact ⟨kind, name, described, result, parameters⟩

theorem of_agree (told : element.Told description tags) (agree : Tag.Agree tags others) :
    element.Told description others where
  name := by rw [← told.name, Tag.lastValue?, Tag.lastValue?, agree.name]
  name_ne_nil := told.name_ne_nil
  result := by rw [← told.result, Tag.lastValue?, Tag.lastValue?, agree.result]
  kind := told.kind.trans agree.kind
  parameters := agree.parameter ▸ told.parameters
  description := told.description

end Element.Told

namespace Comment

variable {block : Text} {found : Element}

theorem read_eq_ok_iff : read block = .ok found ↔
    found.Told (description (plain block)) (Tag.scan (plain block)) := by
  rw [read]
  constructor
  · intro described
    split at described
    · contradiction
    · next named =>
        obtain rfl := Except.ok.inj described
        exact told_element _ named
  · intro told
    have named : (element (plain block)).name ≠ [] := by
      rw [name_element, told.name]
      exact told.name_ne_nil
    rw [if_neg named, (told_element _ named).unique told]

theorem read_eq_error_iff {error : Error} : read block = .error error ↔
    ((∀ tag ∈ Tag.scan (plain block), tag.name ≠ "name".toList) ∨
      Tag.lastValue? "name".toList (Tag.scan (plain block)) = some []) ∧
    error = .missingName (plain block) := by
  have nameless : (element (plain block)).name = [] ↔
      (∀ tag ∈ Tag.scan (plain block), tag.name ≠ "name".toList) ∨
        Tag.lastValue? "name".toList (Tag.scan (plain block)) = some [] := by
    rw [name_element, ← Tag.lastValue?_eq_none_iff]
    cases Tag.lastValue? "name".toList (Tag.scan (plain block)) <;> simp
  rw [read, ← nameless]
  split
  · next unnamed => simp [unnamed, eq_comm]
  · next named => simp [named]

/-- A block is refused exactly when no tag names it or the last that does is empty. Otherwise it gives the element
that its description and its tags tell of. Blocks whose descriptions are the same and whose tags agree give the same
element. -/
theorem read_meaning (block : Text) :
    (∀ error, read block = .error error ↔
      ((∀ tag ∈ Tag.scan (plain block), tag.name ≠ "name".toList) ∨
        Tag.lastValue? "name".toList (Tag.scan (plain block)) = some []) ∧
      error = .missingName (plain block)) ∧
    (∀ found, read block = .ok found ↔
      found.Told (description (plain block)) (Tag.scan (plain block))) ∧
    ∀ other, description (plain other) = description (plain block) →
      Tag.Agree (Tag.scan (plain other)) (Tag.scan (plain block)) →
      ∀ found, read other = .ok found ↔ read block = .ok found := by
  refine ⟨fun _ => read_eq_error_iff, fun _ => read_eq_ok_iff, ?_⟩
  intro other described agree found
  rw [read_eq_ok_iff, read_eq_ok_iff, described]
  exact ⟨fun told => told.of_agree agree, fun told => told.of_agree agree.symm⟩

def sortedBlock : Text :=
  "* Sum\n@name\n@name g\n@param a  b c\n@return r\n@variable".toList

def sortedTags : List Tag :=
  [⟨"name".toList, []⟩, ⟨"name".toList, "g".toList⟩, ⟨"param".toList, "a  b c".toList⟩,
    ⟨"return".toList, "r".toList⟩, ⟨"variable".toList, []⟩]

def mixedBlock : Text :=
  "Sum@ \n@variable 3\n@return r\n@name\n*@since 1\n@param a  b c\n@name g".toList

def mixedTags : List Tag :=
  [⟨"variable".toList, "3".toList⟩, ⟨"return".toList, "r".toList⟩, ⟨"name".toList, []⟩,
    ⟨"since".toList, "1".toList⟩, ⟨"param".toList, "a  b c".toList⟩, ⟨"name".toList, "g".toList⟩]

theorem read_meaning_mixed :
    description (plain mixedBlock) = description (plain sortedBlock) ∧
    Tag.Agree (Tag.scan (plain mixedBlock)) (Tag.scan (plain sortedBlock)) ∧
    read mixedBlock = .ok {
      kind := .variable
      name := "g".toList
      description := "Sum".toList
      result := "r".toList
      parameters := [⟨"a".toList, " b c".toList⟩] } := by
  have described : description (plain mixedBlock) = description (plain sortedBlock) := by decide
  have mixed : Tag.scan (plain mixedBlock) = mixedTags := by decide +kernel
  have sorted : Tag.scan (plain sortedBlock) = sortedTags := by decide +kernel
  have agree : Tag.Agree (Tag.scan (plain mixedBlock)) (Tag.scan (plain sortedBlock)) := by
    rw [mixed, sorted]
    exact ⟨by decide, by decide, by decide, by decide⟩
  have told : read sortedBlock = .ok {
      kind := .variable
      name := "g".toList
      description := "Sum".toList
      result := "r".toList
      parameters := [⟨"a".toList, " b c".toList⟩] } := by
    rw [read, element, sorted]
    decide
  exact ⟨described, agree, ((read_meaning sortedBlock).2.2 mixedBlock described agree _).mpr told⟩

end Comment

end ApiDoc
