import ApiDoc.Comment
import ApiDoc.Proofs.Comment.Blocks
import ApiDoc.Proofs.Comment.Tags

/-!
What a rendered element reads as.

The body of a rendered element is a list of lines, each of which reads as what it says however it is
framed. What the lines say together is the element.
-/

namespace ApiDoc

theorem Text.inline_append_space {first second : Text} (first_inline : first.Inline)
    (second_inline : second.Inline) : Text.Inline (first ++ ' ' :: second) := by
  refine ⟨by simp [first_inline.1, second_inline.1], ?_⟩
  intro inside
  rcases Text.infix_append_separator (by decide) inside with left | right
  · exact first_inline.2 left
  · exact second_inline.2 right

theorem Parameter.WellFormed.line_inline {parameter : Parameter}
    (formed : parameter.WellFormed) : parameter.line.Inline := by
  rw [Parameter.line]
  split
  · exact formed.name_inline
  · exact Text.inline_append_space formed.name_inline formed.doc_inline

namespace Element

def tags (element : Element) : List Tag :=
  (if element.kind = .variable then [⟨"variable".toList, []⟩] else []) ++
    [⟨"name".toList, element.name⟩] ++
    (element.parameters.map fun parameter => ⟨"param".toList, parameter.line⟩) ++
    (if element.result = [] then [] else [⟨"return".toList, element.result⟩])

theorem tags_ne_nil (element : Element) : element.tags ≠ [] := by
  intro empty
  rw [tags, List.append_eq_nil_iff, List.append_eq_nil_iff, List.append_eq_nil_iff] at empty
  exact List.cons_ne_nil _ _ empty.1.1.2

theorem WellFormed.tags_writable {element : Element} (formed : element.WellFormed) :
    ∀ tag ∈ element.tags, tag.Writable := by
  rw [tags, List.forall_mem_append, List.forall_mem_append, List.forall_mem_append]
  have variable_valid : Tag.ValidName "variable".toList := by decide
  have name_valid : Tag.ValidName "name".toList := by decide
  have param_valid : Tag.ValidName "param".toList := by decide
  have return_valid : Tag.ValidName "return".toList := by decide
  refine ⟨⟨⟨?_, ?_⟩, ?_⟩, ?_⟩
  · split
    · exact List.forall_mem_singleton.mpr ⟨variable_valid, Text.trimmed_nil, Text.inline_nil⟩
    · exact List.forall_mem_nil _
  · exact List.forall_mem_singleton.mpr ⟨name_valid, formed.name_trimmed, formed.name_inline⟩
  · rw [List.forall_mem_map]
    intro parameter member
    have described := formed.parameters parameter member
    exact ⟨param_valid, described.line_trimmed, described.line_inline⟩
  · split
    · exact List.forall_mem_nil _
    · exact List.forall_mem_singleton.mpr ⟨return_valid, formed.result_trimmed,
        formed.result_inline⟩

theorem WellFormed.map_trim_lines {element : Element} (formed : element.WellFormed) :
    element.lines.map Text.trim =
      (if element.description = [] then [] else [element.description]) ++
        element.tags.map fun tag => tag.spelled.trim := by
  have variable_line : Text.trim "@variable".toList =
      Text.trim (Tag.spelled ⟨"variable".toList, []⟩) := by decide
  rw [lines, tags]
  simp only [List.map_append, List.append_assoc]
  refine congrArg₂ _ ?_ (congrArg₂ _ ?_ (congrArg₂ _ rfl (congrArg₂ _ ?_ ?_)))
  · split
    · rfl
    · rw [List.map_singleton, formed.description_trimmed]
  · split
    · rw [List.map_singleton, List.map_singleton, variable_line]
    · rfl
  · rw [List.map_map, List.map_map]
    rfl
  · split
    · rfl
    · rfl

theorem WellFormed.lines_inline {element : Element} (formed : element.WellFormed) :
    ∀ line ∈ element.lines, line.Inline := by
  rw [lines, List.forall_mem_append, List.forall_mem_append, List.forall_mem_append,
    List.forall_mem_append]
  have variable_inline : Text.Inline "@variable".toList := ⟨by decide, by decide⟩
  have name_inline : Text.Inline "@name".toList := ⟨by decide, by decide⟩
  have param_inline : Text.Inline "@param".toList := ⟨by decide, by decide⟩
  have return_inline : Text.Inline "@return".toList := ⟨by decide, by decide⟩
  refine ⟨⟨⟨⟨?_, ?_⟩, ?_⟩, ?_⟩, ?_⟩
  · split
    · exact List.forall_mem_nil _
    · exact List.forall_mem_singleton.mpr formed.description_inline
  · split
    · exact List.forall_mem_singleton.mpr variable_inline
    · exact List.forall_mem_nil _
  · exact List.forall_mem_singleton.mpr (Text.inline_append_space name_inline formed.name_inline)
  · rw [List.forall_mem_map]
    intro parameter member
    exact Text.inline_append_space param_inline (formed.parameters parameter member).line_inline
  · split
    · exact List.forall_mem_nil _
    · exact List.forall_mem_singleton.mpr
        (Text.inline_append_space return_inline formed.result_inline)

end Element

namespace Comment

theorem Decoration.line_inline (decoration : Decoration) {line : Text} (single : line.Inline) :
    (decoration.line line).Inline := by
  constructor
  · have before : '\n' ∉ decoration.before :=
      fun member => (decoration.before_blank '\n' member).2 rfl
    have behind : '\n' ∉ decoration.behind :=
      fun member => (decoration.behind_blank '\n' member).2 rfl
    simp [Decoration.line, before, behind, single.1]
  · -- The blank behind the star keeps it apart from what follows.
    intro inside
    have absent : ∀ {char}, Text.isBlank char → char ∉ "*/".toList := by
      intro char blank member
      have visible : ∀ mark ∈ "*/".toList, ¬ Text.isBlank mark := by decide
      exact visible char member blank
    obtain ⟨blank, rest, behind⟩ := List.exists_cons_of_ne_nil decoration.behind_ne_nil
    have blanks : ∀ char ∈ blank :: rest, Text.isBlank char :=
      fun char member => (decoration.behind_blank char (by rwa [behind])).1
    have split : decoration.line line =
        (decoration.before ++ ['*']) ++ blank :: (rest ++ line) := by
      simp [Decoration.line, behind]
    rw [split] at inside
    rcases Text.infix_append_separator (absent (blanks blank (by simp))) inside with start | later
    · have slash : '/' ∈ decoration.before ++ ['*'] := start.subset (by decide)
      rcases List.mem_append.mp slash with before | star
      · exact absurd (decoration.before_blank '/' before).1 (by decide)
      · exact absurd star (by decide)
    · refine single.2 (Text.infix_of_infix_append (by decide) ?_ later)
      exact fun char member => absent (blanks char (List.mem_cons_of_mem blank member))

/-- The lines of a laid-out element, the first and the last of them blank. -/
def bodyLines (element : Element) (layout : Layout) : List Text :=
  [] :: (element.lines.mapIdx fun index line => (layout.decoration index).line line) ++
    layout.ending.lines

def body (element : Element) (layout : Layout) : Text :=
  .unlines (bodyLines element layout)

theorem render_eq (element : Element) (layout : Layout) :
    element.render layout = markers.opening ++ (body element layout ++ markers.closing) := by
  have frames : (element.lines.mapIdx fun index line => (layout.decoration index).frame line) =
      (element.lines.mapIdx fun index line =>
        (layout.decoration index).line line).map (· ++ ['\n']) := by
    apply List.ext_getElem
    · simp
    · intro index below bounded
      simp [Decoration.frame, Decoration.line]
  unfold Element.render
  rw [frames, body, bodyLines, Text.unlines_append_lines, List.map_cons, List.flatten_cons]
  simp [markers]

variable {element : Element} (formed : element.WellFormed) (layout : Layout)

include formed

theorem bodyLines_inline : ∀ line ∈ bodyLines element layout, line.Inline := by
  rw [bodyLines, List.forall_mem_append, List.forall_mem_cons]
  refine ⟨⟨Text.inline_nil, ?_⟩, ?_⟩
  · intro line member
    obtain ⟨index, bound, rfl⟩ := List.mem_mapIdx.mp member
    exact (layout.decoration index).line_inline
      (formed.lines_inline _ (List.getElem_mem bound))
  · intro line member
    refine ⟨Text.newline_notMem_of_mem_lines member, ?_⟩
    intro inside
    have star : '*' ∈ layout.ending :=
      (inside.trans (Text.infix_of_mem_lines member)).subset (by decide)
    exact absurd (layout.ending_blank '*' star) (by decide)

theorem body_free : ¬ markers.closing <:+: body element layout := by
  intro inside
  obtain ⟨line, member, found⟩ :=
    Text.infix_line_of_infix_unlines (by decide) (by decide) inside
  exact (bodyLines_inline formed layout line member).2 found

theorem plain_body : plain (body element layout) =
    .unlines ([] :: element.lines.map Text.trim ++ layout.ending.lines.map fun _ => []) := by
  have nonempty : bodyLines element layout ≠ [] := by simp [bodyLines]
  have whole : ∀ line ∈ bodyLines element layout, '\n' ∉ line :=
    fun line member => (bodyLines_inline formed layout line member).1
  have framed : (element.lines.mapIdx fun index line =>
      (layout.decoration index).line line).map plainLine = element.lines.map Text.trim := by
    apply List.ext_getElem
    · simp
    · intro index below bounded
      rw [List.getElem_map, List.getElem_mapIdx, List.getElem_map, plainLine_line]
  have ended : layout.ending.lines.map plainLine = layout.ending.lines.map fun _ => [] := by
    apply List.map_congr_left
    intro line member
    apply plainLine_of_blank
    exact fun char inside =>
      layout.ending_blank char ((Text.infix_of_mem_lines member).subset inside)
  rw [plain, body, Text.lines_unlines nonempty whole, bodyLines, List.map_append, List.map_cons,
    framed, ended, plainLine_of_blank (by simp)]

theorem scan_plain_body : Tag.scan (plain (body element layout)) = element.tags := by
  have described : (if element.description = [] then [] else [element.description]).flatMap
      Tag.scan = [] := by
    split
    · rfl
    · rw [List.flatMap_singleton, Tag.scan_of_notMem formed.at_notMem_description]
  have tagged : (element.tags.map fun tag => tag.spelled.trim).flatMap Tag.scan =
      element.tags := by
    rw [List.flatMap_map]
    have single : ∀ tag ∈ element.tags, Tag.scan tag.spelled.trim = [tag] :=
      fun tag member => (formed.tags_writable tag member).scan_trim_spelled
    rw [List.flatMap_congr single, List.flatMap_singleton']
  have ended : (layout.ending.lines.map fun _ => ([] : Text)).flatMap Tag.scan = [] := by
    simp [Tag.scan_nil]
  rw [plain_body formed, Tag.scan_unlines, List.flatMap_append, List.flatMap_cons,
    formed.map_trim_lines, List.flatMap_append, described, tagged, ended, Tag.scan_nil]
  simp

theorem exists_plain_body_eq : ∃ rest, plain (body element layout) =
    ('\n' :: if element.description = [] then [] else element.description ++ ['\n']) ++
      '@' :: rest := by
  obtain ⟨first, others, tags⟩ := List.exists_cons_of_ne_nil element.tags_ne_nil
  have nonempty : (element.tags.map fun tag => tag.spelled.trim) ++
      layout.ending.lines.map (fun _ => []) ≠ [] := by
    simp [tags]
  obtain ⟨rest, begun⟩ : ∃ rest, Text.unlines ((element.tags.map fun tag => tag.spelled.trim) ++
      layout.ending.lines.map fun _ => []) = '@' :: rest := by
    have more : (others.map fun tag => tag.spelled.trim) ++
        layout.ending.lines.map (fun _ => []) ≠ [] := by
      simp [Text.lines_ne_nil]
    rw [tags, List.map_cons, List.cons_append, Text.unlines_cons_of_ne_nil _ more, Tag.spelled,
      List.cons_append, Text.trim_cons_of_visible (by decide)]
    exact ⟨_, rfl⟩
  refine ⟨rest, ?_⟩
  rw [plain_body formed, formed.map_trim_lines]
  split
  · next empty =>
      rw [List.nil_append, List.cons_append, Text.unlines_cons_of_ne_nil [] nonempty, begun]
      rfl
  · next described =>
      rw [List.singleton_append, List.cons_append, List.cons_append,
        Text.unlines_cons_of_ne_nil [] (List.cons_ne_nil _ _),
        Text.unlines_cons_of_ne_nil element.description nonempty, begun]
      simp

theorem takeWhile_plain_body : (plain (body element layout)).takeWhile (· != '@') =
    '\n' :: if element.description = [] then [] else element.description ++ ['\n'] := by
  obtain ⟨rest, whole⟩ := exists_plain_body_eq formed layout
  have free : ∀ char ∈ '\n' :: (if element.description = [] then [] else
      element.description ++ ['\n']), (char != '@') = true := by
    have described : ∀ char ∈ element.description, (char != '@') = true := by
      intro char member
      simpa using ne_of_mem_of_not_mem member formed.at_notMem_description
    split
    · decide
    · rw [List.forall_mem_cons, List.forall_mem_append]
      exact ⟨by decide, described, by decide⟩
  rw [whole, takeWhile_append_stop (by decide), List.takeWhile_eq_self_iff.mpr free]

theorem description_plain_body :
    description (plain (body element layout)) = element.description := by
  have single : ∀ char ∈ element.description, (if char = '\n' then ' ' else char) = id char := by
    intro char member
    exact if_neg (ne_of_mem_of_not_mem member formed.description_inline.1)
  have trimmed : Text.trim ('\n' :: if element.description = [] then []
      else element.description ++ ['\n']) = element.description := by
    split
    · next empty =>
        rw [empty]
        decide
    · have around : Text.trim (['\n'] ++ element.description ++ ['\n']) =
          Text.trim element.description := Text.trim_append_append (by decide) (by decide)
      rw [formed.description_trimmed] at around
      simpa using around
  rw [description, takeWhile_plain_body formed, trimmed, List.map_congr_left single, List.map_id]

end Comment

end ApiDoc
