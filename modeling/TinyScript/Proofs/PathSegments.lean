import Mathlib
import TinyScript.Path

/-!
# Segments and components of paths

A path and its segments determine each other. Segments that are empty or a single dot name nothing;
they are dropped behind the file name when a path is split there, and behind the first segment when
its components are taken. Two paths with the same components lead the same way.
-/

namespace TinyScript.Path

/-! ## Texts and segments -/

theorem segmentsOf_eq_splitOn (text : List Char) : segmentsOf text = text.splitOn '/' := by
  induction text with
  | nil => rfl
  | cons char rest ih =>
    rw [segmentsOf, List.splitOn_cons_eq_if_modifyHead, ih]
    by_cases slash : char = '/'
    · simp [slash]
    · rw [if_neg slash, if_neg (by simpa using slash)]
      cases split : rest.splitOn '/' with
      | nil => exact absurd split (List.splitOn_ne_nil _ _)
      | cons segment segments => rfl

/-- Rows of segments that a path can have. -/
structure AreSegments (segments : List Segment) : Prop where
  nonempty : segments ≠ []
  plain : ∀ segment ∈ segments, '/' ∉ segment

theorem areSegments_segmentsOf (text : List Char) : AreSegments (segmentsOf text) := by
  refine ⟨by simp [segmentsOf_eq_splitOn], ?_⟩
  fun_induction segmentsOf text with
  | case1 => simp
  | case2 rest ih => simpa using ih
  | case3 char rest other segment segments split ih =>
    rw [split, List.forall_mem_cons] at ih
    simpa [Ne.symm other, ih.1] using ih.2
  | case4 char rest other split ih => simp [Ne.symm other]

theorem areSegments_segments (path : Path) : AreSegments path.segments :=
  areSegments_segmentsOf _

theorem AreSegments.append_singleton {front : List Segment} {last : Segment}
    (front_plain : ∀ segment ∈ front, '/' ∉ segment) (plain : '/' ∉ last) :
    AreSegments (front ++ [last]) := by
  refine ⟨by simp, ?_⟩
  intro segment member
  rcases List.mem_append.mp member with inFront | isLast
  · exact front_plain segment inFront
  · rw [List.mem_singleton.mp isLast]
    exact plain

theorem segments_ofSegments {segments : List Segment} (h : AreSegments segments) :
    (ofSegments segments).segments = segments := by
  rw [Path.segments, ofSegments, segmentsOf_eq_splitOn, String.toList_ofList]
  exact List.splitOn_intercalate '/' h.plain h.nonempty

theorem ofSegments_segments (path : Path) : ofSegments path.segments = path := by
  rw [Path.segments, ofSegments, segmentsOf_eq_splitOn, List.intercalate_splitOn,
    String.ofList_toList]

/-- The text of a path around one of its segments. -/
theorem toList_ofSegments (front behind : List Segment) (middle : Segment) :
    (ofSegments (front ++ middle :: behind)).text.toList =
      front.flatMap (· ++ ['/']) ++ middle ++ behind.flatMap ('/' :: ·) := by
  rw [ofSegments, String.toList_ofList]
  induction front with
  | nil =>
    induction behind generalizing middle with
    | nil => simp
    | cons segment behind ih => simpa using ih segment
  | cons segment front ih =>
    cases front with
    | nil => simpa using ih
    | cons next front => simpa using ih

/-! ## Segments that name nothing -/

/-- Whether a segment names nothing. -/
def namesNothing (segment : Segment) : Bool :=
  segment = [] || segment = ['.']

theorem trim_cons_of_namesNothing {segment : Segment} {rest : List Segment}
    (idle : namesNothing segment = true) (more : rest ≠ []) :
    trim (segment :: rest) = trim rest := by
  cases rest with
  | nil => exact absurd rfl more
  | cons next rest =>
    rw [trim]
    · exact if_pos idle
    · simp

theorem trim_cons_of_names {segment : Segment} (names : namesNothing segment = false)
    (rest : List Segment) : trim (segment :: rest) = segment :: rest := by
  cases rest with
  | nil => rfl
  | cons next rest =>
    rw [trim]
    · exact if_neg (ne_true_of_eq_false names)
    · simp

theorem trim_append {idle : List Segment} (all : ∀ segment ∈ idle, namesNothing segment = true)
    {rest : List Segment} (more : rest ≠ []) : trim (idle ++ rest) = trim rest := by
  induction idle with
  | nil => rfl
  | cons segment idle ih =>
    obtain ⟨first, others⟩ := List.forall_mem_cons.mp all
    rw [List.cons_append, trim_cons_of_namesNothing first (by simp [more]), ih others]

/-- Trimming takes away segments that name nothing, up to one that does or to the last of all. -/
theorem exists_trim (reversed : List Segment) :
    ∃ idle, reversed = idle ++ trim reversed ∧ (∀ segment ∈ idle, namesNothing segment = true) ∧
      ∀ last before, trim reversed = last :: before → before = [] ∨ namesNothing last = false := by
  fun_induction trim reversed with
  | case1 => exact ⟨[], rfl, by simp, by simp⟩
  | case2 first =>
    refine ⟨[], rfl, by simp, ?_⟩
    intro last before same
    exact .inl (List.cons.inj same).2.symm
  | case3 segment rest more idle ih =>
    obtain ⟨others, split, all, stops⟩ := ih
    refine ⟨segment :: others, by rw [List.cons_append, ← split], ?_, stops⟩
    exact List.forall_mem_cons.mpr ⟨idle, all⟩
  | case4 segment rest more names =>
    refine ⟨[], rfl, by simp, ?_⟩
    intro last before same
    obtain ⟨rfl, -⟩ := List.cons.inj same
    exact .inr (by simpa [namesNothing] using names)

theorem trim_ne_nil {reversed : List Segment} (nonempty : reversed ≠ []) : trim reversed ≠ [] := by
  fun_induction trim reversed with
  | case1 => exact nonempty
  | case2 first => simp
  | case3 segment rest more idle ih => exact ih more
  | case4 segment rest more names => simp

theorem mem_of_mem_trim {reversed : List Segment} {segment : Segment}
    (member : segment ∈ trim reversed) : segment ∈ reversed := by
  obtain ⟨idle, split, -⟩ := exists_trim reversed
  rw [split]
  exact List.mem_append_right _ member

/-! ## Splitting off the last component -/

/-- The segments of a path around its last component. Behind it no segment names anything. -/
theorem segments_of_splitLast? {path : Path} {before : List Segment} {last : Segment}
    (h : path.splitLast? = some (before, last)) :
    ∃ behind, path.segments = before.reverse ++ last :: behind ∧
      (∀ segment ∈ behind, namesNothing segment = true) ∧ last ≠ [] := by
  obtain ⟨idle, split, all, -⟩ := exists_trim path.segments.reverse
  rw [splitLast?] at h
  cases trimmed : trim path.segments.reverse with
  | nil =>
    rw [trimmed] at h
    cases h
  | cons found rest =>
    rw [trimmed] at h split
    dsimp only at h
    split at h
    · cases h
    · rename_i nonempty
      cases h
      refine ⟨idle.reverse, ?_, by simpa using all, by simpa using nonempty⟩
      rw [← List.reverse_reverse path.segments, split]
      simp

theorem parent?_eq_some_iff {path parent : Path} :
    path.parent? = some parent ↔
      ∃ before last, path.splitLast? = some (before, last) ∧ parent = ofTrimmed before := by
  rw [parent?, Option.map_eq_some_iff]
  constructor
  · rintro ⟨⟨before, last⟩, split, rfl⟩
    exact ⟨before, last, split, rfl⟩
  · rintro ⟨before, last, split, rfl⟩
    exact ⟨(before, last), split, rfl⟩

/-- Names of files: neither of the two dots that stand for directories. -/
structure IsFileName (name : Segment) : Prop where
  notEmpty : name ≠ []
  notDot : name ≠ ['.']
  notUp : name ≠ ['.', '.']

theorem IsFileName.names {name : Segment} (h : IsFileName name) : namesNothing name = false := by
  simp [namesNothing, h.notEmpty, h.notDot]

theorem splitLast?_of_segments {path : Path} {front behind : List Segment} {last : Segment}
    (segments : path.segments = front ++ last :: behind)
    (idle : ∀ segment ∈ behind, namesNothing segment = true)
    (names : namesNothing last = false) : path.splitLast? = some (front.reverse, last) := by
  have nonempty : last.isEmpty = false := by
    cases last with
    | nil => cases names
    | cons char last => rfl
  have reversed : path.segments.reverse = behind.reverse ++ last :: front.reverse := by
    rw [segments]
    simp
  rw [splitLast?, reversed, trim_append (by simpa using idle) (by simp), trim_cons_of_names names]
  simp [nonempty]

/-- A path has a file name if that is the last of its segments that names anything. -/
theorem splitName?_eq_some_iff {path : Path} {before : List Segment} {name : Segment} :
    path.splitName? = some (before, name) ↔
      ∃ behind, path.segments = before.reverse ++ name :: behind ∧
        (∀ segment ∈ behind, namesNothing segment = true) ∧ IsFileName name := by
  rw [splitName?, Option.filter_eq_some_iff]
  constructor
  · rintro ⟨split, isName⟩
    obtain ⟨behind, segments, idle, nonempty⟩ := segments_of_splitLast? split
    have dots : name ≠ ['.'] ∧ name ≠ ['.', '.'] := by simpa using isName
    exact ⟨behind, segments, idle, nonempty, dots.1, dots.2⟩
  · rintro ⟨behind, segments, idle, isName⟩
    refine ⟨?_, by simp [isName.notDot, isName.notUp]⟩
    rw [splitLast?_of_segments segments idle isName.names, List.reverse_reverse]

/-- Two dots are no file name. -/
theorem splitName?_of_up {path : Path} {front : List Segment}
    (segments : path.segments = front ++ [['.', '.']]) : path.splitName? = none := by
  rw [splitName?, splitLast?_of_segments segments (by simp) (by decide)]
  rfl

/-! ## What the segments tell of a path -/

section Segments

variable {path : Path} {first last : Segment} {front rest : List Segment}

theorem isAbsolute_of_segments (segments : path.segments = first :: rest) :
    path.isAbsolute = (first.isEmpty && !rest.isEmpty) := by
  have plain := (areSegments_segments path).plain first (by simp [segments])
  rw [isAbsolute, ← ofSegments_segments path, segments]
  have text := toList_ofSegments [] rest first
  simp only [List.nil_append, List.flatMap_nil] at text
  rw [text]
  cases first with
  | nil => cases rest <;> simp
  | cons char first =>
    have other : char ≠ '/' := by
      rintro rfl
      simp at plain
    simp [other]

theorem endsInSlash_of_segments (segments : path.segments = front ++ [last]) :
    path.endsInSlash = (last.isEmpty && !front.isEmpty) := by
  have plain := (areSegments_segments path).plain last (by simp [segments])
  rw [endsInSlash, ← ofSegments_segments path, segments, toList_ofSegments]
  rcases List.eq_nil_or_concat last with rfl | ⟨init, char, rfl⟩
  · rcases List.eq_nil_or_concat front with rfl | ⟨init, segment, rfl⟩ <;> simp
  · have other : char ≠ '/' := by
      rintro rfl
      simp at plain
    simp [other]

theorem text_eq_empty_iff : path.text = "" ↔ path.segments = [[]] := by
  constructor
  · intro empty
    rw [Path.segments, empty]
    rfl
  · intro segments
    rw [← ofSegments_segments path, segments]
    rfl

theorem text_ne_empty_of_segments (segments : path.segments = front ++ [last])
    (nonempty : last ≠ []) : path.text ≠ "" := by
  rw [ne_eq, text_eq_empty_iff, segments]
  intro only
  have same := congrArg List.getLast? only
  exact nonempty (by simpa using same)

end Segments

/-! ## Putting paths together -/

section Joined

variable {name : String} (plain : '/' ∉ name.toList)
include plain

theorem segments_of_plain : (Path.mk name).segments = [name.toList] := by
  rw [Path.segments, segmentsOf_eq_splitOn, List.splitOn_eq_singleton plain]

theorem isAbsolute_of_plain : (Path.mk name).isAbsolute = false := by
  rw [isAbsolute_of_segments (segments_of_plain plain)]
  simp

theorem segments_join {path : Path} (nonempty : path.text ≠ "") (ends : path.endsInSlash = false) :
    (path.join ⟨name⟩).segments = path.segments ++ [name.toList] := by
  have joined : path.join ⟨name⟩ = ⟨path.text ++ "/" ++ name⟩ := by
    simp [join, isAbsolute_of_plain plain, nonempty, ends]
  have text : (path.text ++ "/" ++ name).toList = path.text.toList ++ '/' :: name.toList := by simp
  rw [joined, Path.segments, text, segmentsOf_eq_splitOn, List.splitOn_append_cons_self,
    List.splitOn_eq_singleton plain, ← segmentsOf_eq_splitOn]
  rfl

end Joined

/-- The path of reversed segments is the empty one, the root, or has the segments that are left when
    they are trimmed. -/
theorem ofTrimmed_cases {before : List Segment} (plain : ∀ segment ∈ before, '/' ∉ segment) :
    before = [] ∧ ofTrimmed before = empty ∨ trim before = [[]] ∧ ofTrimmed before = root ∨
      ∃ last rest, trim before = last :: rest ∧ last ≠ [] ∧
        (ofTrimmed before).segments = (trim before).reverse := by
  obtain ⟨idle, -, -, stops⟩ := exists_trim before
  unfold ofTrimmed
  split
  · rename_i trimmed
    exact .inl ⟨of_not_not fun nonempty => trim_ne_nil nonempty trimmed, rfl⟩
  · rename_i trimmed
    exact .inr (.inl ⟨trimmed, rfl⟩)
  · rename_i notEmpty notRoot
    cases trimmed : trim before with
    | nil => exact absurd trimmed notEmpty
    | cons last rest =>
      refine .inr (.inr ⟨last, rest, rfl, ?_, ?_⟩)
      · rintro rfl
        rcases stops [] rest trimmed with rfl | names
        · exact notRoot trimmed
        · cases names
      · rw [← trimmed]
        refine segments_ofSegments ⟨by simp [trimmed], ?_⟩
        intro segment member
        exact plain segment (mem_of_mem_trim (List.mem_reverse.mp member))

/-- A name seen from the path of reversed segments stands behind them. -/
theorem segments_join_ofTrimmed {before : List Segment} {name : String}
    (before_plain : ∀ segment ∈ before, '/' ∉ segment) (plain : '/' ∉ name.toList) :
    ((ofTrimmed before).join ⟨name⟩).segments = (trim before).reverse ++ [name.toList] := by
  rcases ofTrimmed_cases before_plain with
    ⟨rfl, isEmpty⟩ | ⟨trimmed, isRoot⟩ | ⟨last, rest, trimmed, nonempty, segments⟩
  · have joined : empty.join ⟨name⟩ = ⟨name⟩ := by
      simp [join, isAbsolute_of_plain plain, empty]
    rw [isEmpty, joined, segments_of_plain plain]
    rfl
  · have joined : root.join ⟨name⟩ = ⟨"/" ++ name⟩ := by
      simp [join, isAbsolute_of_plain plain, root, endsInSlash]
    have text : ("/" ++ name).toList = [] ++ '/' :: name.toList := by simp
    rw [isRoot, joined, trimmed, Path.segments, text, segmentsOf_eq_splitOn,
      List.splitOn_append_cons_self, List.splitOn_eq_singleton plain]
    rfl
  · have row : (ofTrimmed before).segments = rest.reverse ++ [last] := by
      rw [segments, trimmed, List.reverse_cons]
    rw [← segments]
    refine segments_join plain (text_ne_empty_of_segments row nonempty) ?_
    rw [endsInSlash_of_segments row]
    simp [nonempty]

/-! ## Components -/

/-- The components among the segments of a path: its first segment, unless it is the only one and
    empty, and those behind it that name something. -/
def componentsOf : List Segment → List Segment
  | [] => []
  | [[]] => []
  | first :: rest => first :: rest.filter (!namesNothing ·)

/-- The components of a path. The root is an empty one. -/
def components (path : Path) : List Segment :=
  componentsOf path.segments

theorem componentsOf_cons_append (first last : Segment) (rest : List Segment) :
    componentsOf (first :: (rest ++ [last])) =
      first :: (rest.filter (!namesNothing ·) ++ [last].filter (!namesNothing ·)) := by
  rw [componentsOf, List.filter_append]
  simp

theorem filter_names_inj {segment other : Segment} (nonempty : segment ≠ [])
    (other_nonempty : other ≠ []) :
    [segment].filter (!namesNothing ·) = [other].filter (!namesNothing ·) ↔ segment = other := by
  by_cases dot : segment = ['.'] <;> by_cases otherDot : other = ['.'] <;>
    simp_all [namesNothing, eq_comm]

/-- Behind the same segments, trimmed or not, components are the same if the last segments are. -/
theorem componentsOf_inj {before : List Segment} {last other : Segment} (nonempty : last ≠ [])
    (other_nonempty : other ≠ []) :
    componentsOf (before.reverse ++ [last]) = componentsOf ((trim before).reverse ++ [other]) ↔
      last = other := by
  obtain ⟨idle, split, all, -⟩ := exists_trim before
  cases trimmed : (trim before).reverse with
  | nil =>
    have none : before = [] := by
      by_contra some
      exact trim_ne_nil some (List.reverse_eq_nil_iff.mp trimmed)
    subst none
    rw [List.reverse_nil, List.nil_append, List.nil_append, componentsOf, componentsOf]
    all_goals simp [nonempty, other_nonempty]
  | cons first rest =>
    have row : before.reverse ++ [last] = first :: ((rest ++ idle.reverse) ++ [last]) := by
      rw [split, List.reverse_append, trimmed]
      simp
    have dropped : idle.reverse.filter (!namesNothing ·) = [] := by
      simpa using all
    rw [row, List.cons_append, componentsOf_cons_append, componentsOf_cons_append,
      List.filter_append, dropped, List.append_nil, List.cons_inj_right, List.append_cancel_left_eq,
      filter_names_inj nonempty other_nonempty]

end TinyScript.Path
