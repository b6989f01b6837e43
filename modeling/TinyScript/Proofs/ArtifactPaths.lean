import TinyScript.Proofs.PathSegments

/-!
# When the paths of artifacts collide

The path of the C++ text keeps the segments before the file name as they are written, and the path
of the tree is put together anew from its parent; both keep the stem. They have the same
components exactly if the suffix is the new extension with its dot. The exception are paths that
end in two dots and an extension: there the old extension is cut off first, two dots are left, and
these are no file name, so that no new extension is set.
-/

namespace TinyScript

namespace Path

/-! ## Stems and extensions -/

section Names

variable {name stem extension : Segment}

theorem stemOf_append (nonempty : stem ≠ []) (noDot : '.' ∉ extension) :
    stemOf (stem ++ '.' :: extension) = stem := by
  have all : ∀ char ∈ extension.reverse, decide (char ≠ '.') = true := by
    intro char member
    rw [decide_eq_true_iff]
    rintro rfl
    exact noDot (List.mem_reverse.mp member)
  have reversed : (stem ++ '.' :: extension).reverse.dropWhile (· ≠ '.') = '.' :: stem.reverse := by
    rw [List.reverse_append, List.reverse_cons, List.append_assoc,
      List.dropWhile_append_of_pos all]
    simp
  rw [stemOf, reversed]
  simp [nonempty]

theorem extensionOf_append (nonempty : stem ≠ []) (noDot : '.' ∉ extension) :
    extensionOf (stem ++ '.' :: extension) = extension := by
  rw [extensionOf, stemOf_append nonempty noDot]
  simp

/-- A name is all stem, or a stem with a dot and an extension behind it. -/
theorem stemOf_cases (name : Segment) :
    stemOf name = name ∨
      ∃ stem extension, stem ≠ [] ∧ '.' ∉ extension ∧ name = stem ++ '.' :: extension := by
  have split :
      name.reverse.takeWhile (· ≠ '.') ++ name.reverse.dropWhile (· ≠ '.') = name.reverse :=
    List.takeWhile_append_dropWhile
  cases behind : name.reverse.dropWhile (· ≠ '.') with
  | nil => exact .inl (by rw [stemOf, behind])
  | cons char before =>
    cases before with
    | nil => exact .inl (by rw [stemOf, behind]; rfl)
    | cons next before =>
      obtain rfl : char = '.' := by
        have stops := List.head?_dropWhile_not (· ≠ '.') name.reverse
        rw [behind] at stops
        simpa using stops
      refine .inr ⟨(next :: before).reverse, (name.reverse.takeWhile (· ≠ '.')).reverse, by simp,
        ?_, ?_⟩
      · intro member
        have all := List.all_eq_true.mp List.all_takeWhile _ (List.mem_reverse.mp member)
        simp at all
      · rw [behind] at split
        rw [← List.reverse_inj]
        simpa using split.symm

theorem stemOf_ne_nil (nonempty : name ≠ []) : stemOf name ≠ [] := by
  rcases stemOf_cases name with same | ⟨stem, extension, stem_nonempty, noDot, rfl⟩
  · rwa [same]
  · rwa [stemOf_append stem_nonempty noDot]

theorem mem_of_mem_stemOf {char : Char} (member : char ∈ stemOf name) : char ∈ name := by
  rcases stemOf_cases name with same | ⟨stem, extension, nonempty, noDot, rfl⟩
  · rwa [same] at member
  · rw [stemOf_append nonempty noDot] at member
    exact List.mem_append_left _ member

theorem extensionOf_of_stemOf (all : stemOf name = name) : extensionOf name = [] := by
  rw [extensionOf, all]
  simp

end Names

/-! ## Cutting off the old extension -/

/-- A text of slashes and segments that name nothing stays one when it is cut. -/
theorem take_flatMap_idle {behind : List Segment}
    (idle : ∀ segment ∈ behind, namesNothing segment = true) (count : Nat) :
    ∃ cut : List Segment, (behind.flatMap ('/' :: ·)).take count = cut.flatMap ('/' :: ·) ∧
      ∀ segment ∈ cut, namesNothing segment = true := by
  induction behind generalizing count with
  | nil => exact ⟨[], by simp, by simp⟩
  | cons segment behind ih =>
    obtain ⟨first, others⟩ := List.forall_mem_cons.mp idle
    have form : segment = [] ∨ segment = ['.'] := by simpa [namesNothing] using first
    rcases form with rfl | rfl
    · cases count with
      | zero => exact ⟨[], by simp, by simp⟩
      | succ count =>
        obtain ⟨cut, same, all⟩ := ih others count
        exact ⟨[] :: cut, by simp [same], List.forall_mem_cons.mpr ⟨rfl, all⟩⟩
    · cases count with
      | zero => exact ⟨[], by simp, by simp⟩
      | succ count =>
        cases count with
        | zero => exact ⟨[[]], by simp, by simp [namesNothing]⟩
        | succ count =>
          obtain ⟨cut, same, all⟩ := ih others count
          exact ⟨['.'] :: cut, by simp [same], List.forall_mem_cons.mpr ⟨rfl, all⟩⟩

theorem plain_of_namesNothing {segment : Segment} (idle : namesNothing segment = true) :
    '/' ∉ segment := by
  have form : segment = [] ∨ segment = ['.'] := by simpa [namesNothing] using idle
  rcases form with rfl | rfl <;> simp

/-- A text without as many characters at its end as an extension in it has. -/
theorem take_around_extension (front stem extension trail : List Char) :
    (front ++ (stem ++ '.' :: extension) ++ trail).take
        ((front ++ (stem ++ '.' :: extension) ++ trail).length - extension.length) =
      front ++ (stem ++ '.' :: extension.take trail.length) ++
        trail.take (trail.length - extension.length) := by
  have count : (front ++ (stem ++ '.' :: extension) ++ trail).length - extension.length =
      front.length + (stem.length + (trail.length + 1)) := by
    simp only [List.length_append, List.length_cons]
    omega
  rw [count, List.append_assoc, List.take_length_add_append, List.append_assoc,
    List.take_length_add_append, List.cons_append, List.take_succ_cons, List.take_append]
  simp

section Shortened

variable {path : Path} {front behind : List Segment} {stem extension name : Segment}
  (idle : ∀ segment ∈ behind, namesNothing segment = true)
include idle

theorem shortened_of_all_stem (segments : path.segments = front ++ name :: behind)
    (isName : IsFileName name) (all : stemOf name = name) : path.shortened = path := by
  have split : path.splitName? = some (front.reverse, name) :=
    splitName?_eq_some_iff.mpr ⟨behind, by simpa using segments, idle, isName⟩
  have whole : path.text.toList.take path.text.length = path.text.toList := by
    rw [← String.length_toList, List.take_length]
  rw [shortened, split]
  simp [extensionOf_of_stemOf all, whole]

/-- Of the extension as many characters are left as stand behind the file name. -/
theorem segments_shortened
    (segments : path.segments = front ++ (stem ++ '.' :: extension) :: behind)
    (isName : IsFileName (stem ++ '.' :: extension)) (nonempty : stem ≠ [])
    (noDot : '.' ∉ extension) :
    ∃ cut : List Segment, path.shortened.segments =
        front ++ (stem ++ '.' :: extension.take (behind.flatMap ('/' :: ·)).length) :: cut ∧
      (∀ segment ∈ cut, namesNothing segment = true) ∧ (behind = [] → cut = []) := by
  have split : path.splitName? = some (front.reverse, stem ++ '.' :: extension) :=
    splitName?_eq_some_iff.mpr ⟨behind, by simpa using segments, idle, isName⟩
  have plain := (areSegments_segments path).plain
  have text := toList_ofSegments front behind (stem ++ '.' :: extension)
  rw [← segments, ofSegments_segments] at text
  obtain ⟨cut, same, all⟩ := take_flatMap_idle idle
    ((behind.flatMap ('/' :: ·)).length - extension.length)
  have short : path.shortened = ofSegments
      (front ++ (stem ++ '.' :: extension.take (behind.flatMap ('/' :: ·)).length) :: cut) := by
    rw [Path.mk.injEq, ← String.toList_inj, toList_ofSegments, ← same, ← take_around_extension,
      ← text, shortened, split, String.length_toList]
    simp only [Option.elim_some, extensionOf_append nonempty noDot, String.toList_ofList]
  refine ⟨cut, ?_, all, ?_⟩
  · rw [short]
    refine segments_ofSegments ⟨by simp, ?_⟩
    rw [segments] at plain
    simp only [List.forall_mem_append, List.forall_mem_cons] at plain ⊢
    obtain ⟨front_plain, name_plain, -⟩ := plain
    refine ⟨front_plain, ?_, fun segment member => plain_of_namesNothing (all segment member)⟩
    intro member
    apply name_plain
    rw [List.mem_append, List.mem_cons] at member ⊢
    exact member.imp_right (Or.imp_right List.mem_of_mem_take)
  · rintro rfl
    cases cut with
    | nil => rfl
    | cons segment cut => simp at same

end Shortened

/-! ## The two paths -/

/-- Paths that end in two dots and an extension. Without the extension they have no file name. -/
def EndsInDotted (path : Path) : Prop :=
  ∃ front extension, path.segments = front ++ ['.' :: '.' :: extension] ∧ extension ≠ [] ∧
    '.' ∉ extension

/-- What an extension adds to a stem. -/
def endingOf (extension : String) : List Char :=
  if extension.isEmpty then [] else '.' :: extension.toList

theorem withExtension_of_splitName? {path : Path} {before : List Segment} {name : Segment}
    (split : path.shortened.splitName? = some (before, name)) (extension : String) :
    path.withExtension extension =
      ofSegments (before.reverse ++ [stemOf name ++ endingOf extension]) := by
  rw [withExtension, split]
  simp [endingOf]

/-- The path with another extension keeps all segments before the file name, and its stem. -/
theorem withExtension_eq {path : Path} {before : List Segment} {name : Segment}
    (split : path.splitName? = some (before, name)) (usual : ¬ path.EndsInDotted)
    (extension : String) :
    path.withExtension extension =
      ofSegments (before.reverse ++ [stemOf name ++ endingOf extension]) := by
  obtain ⟨behind, segments, idle, isName⟩ := splitName?_eq_some_iff.mp split
  rcases stemOf_cases name with all | ⟨stem, old, nonempty, noDot, rfl⟩
  · rw [← shortened_of_all_stem idle segments isName all] at split
    exact withExtension_of_splitName? split extension
  · obtain ⟨cut, short, cut_idle, -⟩ := segments_shortened idle segments isName nonempty noDot
    have left_noDot : '.' ∉ old.take (behind.flatMap ('/' :: ·)).length :=
      fun member => noDot (List.mem_of_mem_take member)
    have isName' : IsFileName (stem ++ '.' :: old.take (behind.flatMap ('/' :: ·)).length) := by
      refine ⟨by simp, by simp [List.append_eq_singleton_iff, nonempty], ?_⟩
      intro up
      -- Two dots are left only if nothing stands behind the extension that is cut off.
      obtain ⟨char, rest, rfl⟩ := List.exists_cons_of_ne_nil nonempty
      have parts : char = '.' ∧ rest = [] ∧ old.take (behind.flatMap ('/' :: ·)).length = [] := by
        simpa [List.append_eq_singleton_iff] using up
      obtain ⟨rfl, rfl, none⟩ := parts
      have old_nonempty : old ≠ [] := by
        rintro rfl
        exact isName.notUp rfl
      obtain rfl : behind = [] := by
        cases behind with
        | nil => rfl
        | cons segment behind => simp [old_nonempty] at none
      exact usual ⟨before.reverse, old, segments, old_nonempty, noDot⟩
    have split' := splitName?_eq_some_iff.mpr ⟨cut, short, cut_idle, isName'⟩
    rw [withExtension_of_splitName? split', stemOf_append nonempty left_noDot,
      stemOf_append nonempty noDot]

theorem withExtension_of_endsInDotted {path : Path} (ends : path.EndsInDotted)
    (extension : String) :
    ∃ before name, path.splitName? = some (before, name) ∧ stemOf name = ['.'] ∧
      path.withExtension extension = ofSegments (before.reverse ++ [['.', '.']]) := by
  obtain ⟨front, old, segments, nonempty, noDot⟩ := ends
  have isName : IsFileName ('.' :: '.' :: old) := ⟨by simp, by simp, by simpa using nonempty⟩
  have split : path.splitName? = some (front.reverse, '.' :: '.' :: old) :=
    splitName?_eq_some_iff.mpr ⟨[], by simpa using segments, by simp, isName⟩
  refine ⟨front.reverse, '.' :: '.' :: old, split, ?_, ?_⟩
  · exact (stemOf_append (by simp) noDot : stemOf (['.'] ++ '.' :: old) = ['.'])
  · have row : path.segments = front ++ (['.'] ++ '.' :: old) :: [] := segments
    obtain ⟨cut, short, -, none⟩ := segments_shortened (by simp) row isName (by simp) noDot
    obtain rfl := none rfl
    rw [withExtension, splitName?_of_up short, List.reverse_reverse,
      ← ofSegments_segments path.shortened, short]
    rfl

end Path

section Artifacts

variable {input : Path} {before : List Segment} {name : Segment}

theorem plain_of_splitName? (split : input.splitName? = some (before, name)) :
    (∀ segment ∈ before, '/' ∉ segment) ∧ '/' ∉ Path.stemOf name ∧ Path.stemOf name ≠ [] := by
  obtain ⟨behind, segments, -, isName⟩ := Path.splitName?_eq_some_iff.mp split
  have plain := (Path.areSegments_segments input).plain
  rw [segments] at plain
  refine ⟨?_, ?_, Path.stemOf_ne_nil isName.notEmpty⟩
  · intro segment member
    exact plain segment (List.mem_append_left _ (List.mem_reverse.mpr member))
  · intro member
    exact plain name (by simp) (Path.mem_of_mem_stemOf member)

/-- The path of the tree has the segments of the parent, and the stem with the suffix behind
    them. -/
theorem segments_astPath (split : input.splitName? = some (before, name)) {suffix : String}
    (plain : '/' ∉ suffix.toList) :
    (astPath input suffix).segments =
      (Path.trim before).reverse ++ [Path.stemOf name ++ suffix.toList] := by
  obtain ⟨before_plain, stem_plain, -⟩ := plain_of_splitName? split
  have path : astPath input suffix = (Path.ofTrimmed before).join
      ⟨String.ofList (Path.stemOf name) ++ suffix⟩ := by
    rw [astPath, Path.withFileName, Path.stem, split]
    rfl
  rw [path, Path.segments_join_ofTrimmed before_plain (by simpa using ⟨stem_plain, plain⟩)]
  simp

/-- The path of the C++ text has the segments of the input, and the stem with the new extension. -/
theorem segments_withExtension (split : input.splitName? = some (before, name))
    (usual : ¬ input.EndsInDotted) {extension : String} (plain : '/' ∉ extension.toList) :
    (input.withExtension extension).segments =
      before.reverse ++ [Path.stemOf name ++ Path.endingOf extension] := by
  obtain ⟨before_plain, stem_plain, -⟩ := plain_of_splitName? split
  have ending_plain : '/' ∉ Path.endingOf extension := by
    unfold Path.endingOf
    split <;> simp [plain]
  rw [Path.withExtension_eq split usual]
  refine Path.segments_ofSegments (.append_singleton (by simpa using before_plain) ?_)
  simpa using ⟨stem_plain, ending_plain⟩

theorem endingOf_eq_iff {extension suffix : String} :
    Path.endingOf extension = suffix.toList ↔
      extension = "" ∧ suffix = "" ∨ extension ≠ "" ∧ suffix = "." ++ extension := by
  rw [eq_comm, Path.endingOf]
  by_cases empty : extension = ""
  · simp [empty]
  · have texts : suffix = "." ++ extension ↔ suffix.toList = '.' :: extension.toList := by
      rw [← String.toList_inj]
      simp
    simp [empty, texts]

end Artifacts

/-- For an input with a file name, and an extension and a suffix without slashes, the C++ text and
    the tree go to paths with the same components exactly if the suffix is the extension with its
    dot, or both are empty. An input that ends in two dots and an extension loses it and gets no
    other: there the paths are the same if the suffix is a single dot, whatever the extension
    is. -/
theorem outputPath?_collides_iff (input : Path) (extension suffix : String)
    (named : input.splitName?.isSome = true) (extension_plain : '/' ∉ extension.toList)
    (suffix_plain : '/' ∉ suffix.toList) :
    ∃ output, outputPath? input extension = some output ∧
      (¬ input.EndsInDotted → (output.components = (astPath input suffix).components ↔
        extension = "" ∧ suffix = "" ∨ extension ≠ "" ∧ suffix = "." ++ extension)) ∧
      (input.EndsInDotted → (output.components = (astPath input suffix).components ↔
        suffix = ".")) := by
  refine ⟨input.withExtension extension, if_neg (by simpa using extension_plain), ?_, ?_⟩
  · intro usual
    obtain ⟨⟨before, name⟩, split⟩ := Option.isSome_iff_exists.mp named
    obtain ⟨-, -, nonempty⟩ := plain_of_splitName? split
    rw [Path.components, Path.components, segments_astPath split suffix_plain,
      segments_withExtension split usual extension_plain,
      Path.componentsOf_inj (by simp [nonempty]) (by simp [nonempty]), List.append_cancel_left_eq,
      endingOf_eq_iff]
  · intro ends
    obtain ⟨before, name, split, stem, kept⟩ := Path.withExtension_of_endsInDotted ends extension
    obtain ⟨before_plain, -, -⟩ := plain_of_splitName? split
    have segments : (input.withExtension extension).segments = before.reverse ++ [['.', '.']] := by
      rw [kept]
      exact Path.segments_ofSegments (.append_singleton (by simpa using before_plain) (by simp))
    rw [Path.components, Path.components, segments_astPath split suffix_plain, segments, stem,
      Path.componentsOf_inj (by simp) (by simp), ← String.toList_inj]
    simp [eq_comm]

/-- Of a path that ends in two dots and an extension the dots are left, and of a usual one the
    stem. -/
theorem outputPath?_collides_iff_dots :
    (∃ output, outputPath? ⟨"..a"⟩ "cpp" = some output ∧
      output.components = (astPath ⟨"..a"⟩ ".").components ∧
      output.components ≠ (astPath ⟨"..a"⟩ ".cpp").components) ∧
    ∃ output, outputPath? ⟨"a//./b.c/"⟩ "cpp" = some output ∧
      output.components = (astPath ⟨"a//./b.c/"⟩ ".cpp").components := by
  have dotted : (Path.mk "..a").segments = [] ++ [['.', '.', 'a']] :=
    Path.segments_of_plain (by decide)
  have slashed : (Path.mk "a//./b.c/").segments = [['a'], [], ['.'], ['b', '.', 'c']] ++ [[]] := by
    rw [Path.segments, Path.segmentsOf_eq_splitOn]
    decide
  have dotted_named : (Path.mk "..a").splitName? = some ([], ['.', '.', 'a']) :=
    Path.splitName?_eq_some_iff.mpr ⟨[], dotted, by simp, by decide, by decide, by decide⟩
  have slashed_named : (Path.mk "a//./b.c/").splitName? =
      some ([['.'], [], ['a']], ['b', '.', 'c']) :=
    Path.splitName?_eq_some_iff.mpr ⟨[[]], slashed, by simp [Path.namesNothing], by decide,
      by decide, by decide⟩
  have ends : (Path.mk "..a").EndsInDotted := ⟨[], ['a'], dotted, by decide, by decide⟩
  have usual : ¬ (Path.mk "a//./b.c/").EndsInDotted := by
    rintro ⟨front, extension, segments, -⟩
    have last := congrArg List.getLast? (slashed.symm.trans segments)
    simp at last
  refine ⟨?_, ?_⟩
  · have named : (Path.mk "..a").splitName?.isSome = true := by rw [dotted_named]; rfl
    obtain ⟨output, path, -, dot⟩ :=
      outputPath?_collides_iff ⟨"..a"⟩ "cpp" "." named (by decide) (by decide)
    obtain ⟨output', path', -, dotCpp⟩ :=
      outputPath?_collides_iff ⟨"..a"⟩ "cpp" ".cpp" named (by decide) (by decide)
    obtain rfl := Option.some.inj (path.symm.trans path')
    exact ⟨output, path, (dot ends).mpr rfl, (dotCpp ends).not.mpr (by decide)⟩
  · obtain ⟨output, path, suffix, -⟩ := outputPath?_collides_iff ⟨"a//./b.c/"⟩ "cpp" ".cpp"
      (by rw [slashed_named]; rfl) (by decide) (by decide)
    exact ⟨output, path, (suffix usual).mpr (.inr ⟨by decide, by decide⟩)⟩

end TinyScript
