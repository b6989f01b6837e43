import TinyScript.Proofs.PathSegments
import TinyScript.Proofs.WrittenFiles

/-!
# Giving a file a text

The directories around a path are made first, each under the path that leads to it, and then the
file is written. If that succeeds the path leads to a file with the text, and if not no file is
touched; either way all else that is new are directories around the path. A path that leads to a
file, or to a free name, has its directories already and is written without failure.
-/

namespace TinyScript

namespace FileTree

variable {tree tree' : FileTree} {here directory location : Location} {path : Path}

/-! ## Names behind names -/

section Leads

variable {links : Nat} {names rest : List String} {target between : Target}

/-- Names lead on from the directory that the names before them lead to. -/
theorem Leads.append (h : Leads tree false links here names between)
    (first : between = .entry directory .directory)
    (more : ∀ links, Leads tree false links directory rest target) :
    Leads tree false links here (names ++ rest) target := by
  induction h with
  | arrived =>
    cases first
    exact more _
  | stays dot _ ih => exact .stays dot (ih first)
  | up _ ih => exact .up (ih first)
  | free => cases first
  | file => cases first
  | enters entryName found _ _ ih => exact .enters entryName found (by simp) (ih first)
  | follows entryName found _ _ ih =>
    refine .follows entryName found (by simp) ?_
    have leads := ih first
    rwa [List.append_assoc] at leads

/-- Names with others behind them lead to a directory, from which the others lead on. -/
theorem Leads.split {all : List String} (h : Leads tree false links here all target)
    (row : all = names ++ rest) (nonempty : rest ≠ []) :
    ∃ directory links', Leads tree false links here names (.entry directory .directory) ∧
      Leads tree false links' directory rest target := by
  induction h generalizing names with
  | arrived => exact absurd (List.append_eq_nil_iff.mp row.symm).2 nonempty
  | @stays links here name others target dot more ih =>
    cases names with
    | nil =>
      subst row
      exact ⟨here, links, .arrived, .stays dot more⟩
    | cons first names =>
      obtain ⟨rfl, behind⟩ := List.cons.inj row
      obtain ⟨directory, links', leads, leads'⟩ := ih behind
      exact ⟨directory, links', .stays dot leads, leads'⟩
  | @up links here others target more ih =>
    cases names with
    | nil =>
      subst row
      exact ⟨here, links, .arrived, .up more⟩
    | cons first names =>
      obtain ⟨rfl, behind⟩ := List.cons.inj row
      obtain ⟨directory, links', leads, leads'⟩ := ih behind
      exact ⟨directory, links', .up leads, leads'⟩
  | @free links here name entryName absent =>
    rcases List.append_eq_singleton_iff.mp row.symm with ⟨rfl, rfl⟩ | ⟨-, empty⟩
    · exact ⟨here, links, .arrived, .free entryName absent⟩
    · exact absurd empty nonempty
  | @file links here name contents entryName found =>
    rcases List.append_eq_singleton_iff.mp row.symm with ⟨rfl, rfl⟩ | ⟨-, empty⟩
    · exact ⟨here, links, .arrived, .file entryName found⟩
    · exact absurd empty nonempty
  | @enters links here name others target entryName found open' more ih =>
    cases names with
    | nil =>
      subst row
      exact ⟨here, links, .arrived, .enters entryName found open' more⟩
    | cons first names =>
      obtain ⟨rfl, behind⟩ := List.cons.inj row
      obtain ⟨directory, links', leads, leads'⟩ := ih behind
      exact ⟨directory, links', .enters entryName found (by simp) leads, leads'⟩
  | @follows links here name others path target entryName found open' more ih =>
    cases names with
    | nil =>
      subst row
      exact ⟨here, links + 1, .arrived, .follows entryName found open' more⟩
    | cons first names =>
      obtain ⟨rfl, behind⟩ := List.cons.inj row
      subst behind
      obtain ⟨directory, links', leads, leads'⟩ :=
        ih (List.append_assoc (namesOf path) names rest).symm
      exact ⟨directory, links', .follows entryName found (by simp) leads, leads'⟩

end Leads

/-! ## Directories that are made -/

theorem namesOf_cases (path : Path) :
    ∃ slashes, namesOf path = path.steps ++ slashes ∧ ∀ name ∈ slashes, name = "" := by
  unfold namesOf
  split
  · exact ⟨[""], rfl, by simp⟩
  · exact ⟨[], by simp, by simp⟩

theorem namesOf_of_getLast? {name : String} (last : path.steps.getLast? = some name) :
    ∃ slashes, namesOf path = path.steps.dropLast ++ name :: slashes ∧
      ∀ name ∈ slashes, name = "" := by
  obtain ⟨slashes, names, empty⟩ := namesOf_cases path
  refine ⟨slashes, ?_, empty⟩
  rw [names, ← List.dropLast_append_getLast? name last]
  simp

theorem Leads.slashes {slashes : List String} (empty : ∀ name ∈ slashes, name = "") (links : Nat) :
    Leads tree false links here slashes (.entry here .directory) := by
  induction slashes with
  | nil => exact .arrived
  | cons name slashes ih =>
    obtain ⟨first, others⟩ := List.forall_mem_cons.mp empty
    exact .stays (.inl first) (ih others)

/-- Behind the making of a directory its path leads to it; all else is as before. -/
theorem resolve_of_makeDirectory (h : tree.makeDirectory here path = .ok tree') :
    ∃ place, tree'.resolve here path = .ok (.entry place .directory) ∧
      ∀ other, other ≠ place → tree'.node? other = tree.node? other := by
  obtain ⟨directory, name, last, entryName, enclosing, free, rfl⟩ := makeDirectory_cases h
  obtain ⟨nonempty, leads⟩ := follow_eq_ok_iff.mp (enclosing_eq_ok_iff.mp enclosing)
  obtain ⟨slashes, row, empty⟩ := namesOf_of_getLast? last
  refine ⟨directory ++ [name], ?_, fun other => node?_put_of_ne⟩
  have found : (tree.put (directory ++ [name]) .directory).node? (directory ++ [name]) =
      some .directory := node?_put_self (by simp)
  rw [resolve, row]
  refine follow_eq_ok_iff.mpr ⟨nonempty, (leads.of_extends (extends_put free) rfl).append rfl ?_⟩
  intro links
  exact .enters entryName found (by simp) (.slashes empty links)

/-- A location is as it was, or it was free and has got a directory to which one of some paths
    leads. -/
def KeptOrMade (tree : FileTree) (here : Location) (paths : List Path) (tree' : FileTree)
    (location : Location) : Prop :=
  tree'.node? location = tree.node? location ∨
    tree.node? location = none ∧ tree'.node? location = some .directory ∧
      ∃ path ∈ paths, tree'.resolve here path = .ok (.entry location .directory)

/-- Nothing changes but that directories are made, each where one of some paths leads. -/
def MakesAlong (here : Location) (paths : List Path) (tree tree' : FileTree) : Prop :=
  ∀ location, tree.KeptOrMade here paths tree' location

variable {paths : List Path}

theorem MakesAlong.refl (tree : FileTree) : MakesAlong here paths tree tree :=
  fun _ => .inl rfl

theorem MakesAlong.addsDirectories (h : MakesAlong here paths tree tree') :
    tree.AddsDirectories tree' := by
  intro location
  rcases h location with same | ⟨free, made, -⟩
  · exact .inl same
  · exact .inr ⟨free, made⟩

theorem MakesAlong.trans {tree'' : FileTree} (h : MakesAlong here paths tree tree')
    (h' : MakesAlong here paths tree' tree'') : MakesAlong here paths tree tree'' := by
  intro location
  rcases h' location with same | ⟨free, made, along⟩
  · rcases h location with same' | ⟨free, made, path, member, resolved⟩
    · exact .inl (same.trans same')
    · exact .inr ⟨free, same.trans made, path, member,
        resolve_of_extends h'.addsDirectories.extends resolved⟩
  · rcases h location with same' | ⟨-, made', -⟩
    · exact .inr ⟨same'.symm.trans free, made, along⟩
    · rw [made'] at free
      cases free

theorem makesAlong_of_makeDirectory (member : path ∈ paths)
    (h : tree.makeDirectory here path = .ok tree') : MakesAlong here paths tree tree' := by
  obtain ⟨place, resolved, others⟩ := resolve_of_makeDirectory h
  intro location
  by_cases there : location = place
  · subst there
    rcases addsDirectories_of_makeDirectory h location with same | ⟨free, made⟩
    · exact .inl same
    · exact .inr ⟨free, made, path, member, resolved⟩
  · exact .inl (others location there)

/-- A write keeps what has been made, but for the file itself. -/
theorem MakesAlong.write {tree'' : FileTree} {contents : ByteArray}
    (h : MakesAlong here paths tree tree') (written : tree'.write here path contents = .ok tree'')
    (elsewhere : tree''.location? here path ≠ some location) :
    tree.KeptOrMade here paths tree'' location := by
  obtain ⟨place, resolved, kept, others⟩ := resolve_of_write written
  have different : location ≠ place := by
    rintro rfl
    exact elsewhere (location?_eq_some_iff.mpr ⟨_, resolved⟩)
  have same := others location different
  rcases h location with same' | ⟨free, made, path', member, leads⟩
  · exact .inl (same.trans same')
  · obtain ⟨node, alike, leads'⟩ := resolve_of_keeps kept leads
    cases alike
    exact .inr ⟨free, same.trans made, path', member, leads'⟩

/-! ## Directories that are there -/

/-- A path that leads to a directory cannot be given another one. -/
theorem makeDirectory_of_directory
    (h : tree.resolve here path = .ok (.entry location .directory)) :
    tree.makeDirectory here path = .error .alreadyExists := by
  obtain ⟨nonempty, leads⟩ := follow_eq_ok_iff.mp h
  cases last : path.steps.getLast? with
  | none =>
    have enclosing : tree.enclosing here path = .ok (if path.isAbsolute then [] else here) := by
      rw [enclosing_eq_ok_iff, List.getLast?_eq_none_iff.mp last]
      exact follow_eq_ok_iff.mpr ⟨nonempty, .arrived⟩
    simp [makeDirectory, enclosing, last, bind, Except.bind]
  | some name =>
    obtain ⟨slashes, row, -⟩ := namesOf_of_getLast? last
    obtain ⟨directory, links, leads, leads'⟩ := leads.split row (by simp)
    have enclosing : tree.enclosing here path = .ok directory :=
      enclosing_eq_ok_iff.mpr (follow_eq_ok_iff.mpr ⟨nonempty, leads⟩)
    have named : name ≠ "" := ne_empty_of_mem_steps (List.mem_of_getLast? last)
    have taken : name = "." ∨ name = ".." ∨ (tree.node? (directory ++ [name])).isSome = true := by
      cases leads' with
      | stays dot more => exact .inl (dot.resolve_left named)
      | up more => exact .inr (.inl rfl)
      | enters entryName found open' more => simp [found]
      | follows entryName found open' more => simp [found]
    simp only [makeDirectory, enclosing, last, bind, Except.bind]
    rcases taken with rfl | rfl | taken
    · rfl
    · rfl
    · obtain ⟨node, found⟩ := Option.isSome_iff_exists.mp taken
      simp [found]

/-- A path leads to a file, or to a name under which one can be made. -/
def Accepts (tree : FileTree) (here : Location) (path : Path) : Prop :=
  (∃ location contents, tree.resolve here path = .ok (.entry location (.file contents))) ∨
    ∃ directory name, tree.resolve here path = .ok (.free directory name)

theorem Accepts.write_ok (h : tree.Accepts here path) (contents : ByteArray) :
    ∃ tree', tree.write here path contents = .ok tree' := by
  rcases h with ⟨location, old, resolved⟩ | ⟨directory, name, resolved⟩
  · exact ⟨_, write_of_resolve resolved⟩
  · obtain ⟨nonempty, leads⟩ := follow_eq_ok_iff.mp resolved
    have creating : tree.follow true here path (namesOf path) = .ok (.free directory name) :=
      follow_eq_ok_iff.mpr ⟨nonempty, leads.of_creating (by simp)⟩
    rw [write, creating]
    exact ⟨_, rfl⟩

end FileTree

namespace Path

/-- The steps of a path whose segments are known. -/
def stepsOf (segments : List Segment) : List String :=
  (segments.filter (!·.isEmpty)).map String.ofList

theorem stepsOf_append (first second : List Segment) :
    stepsOf (first ++ second) = stepsOf first ++ stepsOf second := by
  simp [stepsOf]

theorem parent?_empty : empty.parent? = none := by
  simp [parent?, splitLast?, empty, segments, segmentsOf, trim]

theorem parent?_root : root.parent? = none := by
  simp [parent?, splitLast?, root, segments, segmentsOf, trim]

/-- The steps of the parent of a path come first among its own, and there are others behind them.
    Both start at the same place. -/
theorem steps_of_parent? {path parent : Path} (h : path.parent? = some parent)
    (inner : parent.parent? ≠ none) :
    (∃ others, path.steps = parent.steps ++ others ∧ others ≠ []) ∧
      parent.isAbsolute = path.isAbsolute ∧ parent.endsInSlash = false ∧ parent.text ≠ "" := by
  obtain ⟨before, last, split, rfl⟩ := parent?_eq_some_iff.mp h
  obtain ⟨behind, segments, idle, nonempty⟩ := segments_of_splitLast? split
  have plain := (areSegments_segments path).plain
  rw [segments] at plain
  have before_plain : ∀ segment ∈ before, '/' ∉ segment :=
    fun segment member => plain segment (by simp [member])
  rcases ofTrimmed_cases before_plain with
    ⟨rfl, isEmpty⟩ | ⟨trimmed, isRoot⟩ | ⟨deepest, rest, trimmed, deepest_nonempty, row⟩
  · rw [isEmpty] at inner
    exact absurd parent?_empty inner
  · rw [isRoot] at inner
    exact absurd parent?_root inner
  · obtain ⟨dropped, cut, all, -⟩ := exists_trim before
    have parentRow : (ofTrimmed before).segments = rest.reverse ++ [deepest] := by
      rw [row, trimmed, List.reverse_cons]
    refine ⟨⟨stepsOf (dropped.reverse ++ last :: behind), ?_, ?_⟩, ?_, ?_,
      text_ne_empty_of_segments parentRow deepest_nonempty⟩
    · change stepsOf path.segments = stepsOf (ofTrimmed before).segments ++ _
      rw [← stepsOf_append, segments, row, ← List.append_assoc, ← List.reverse_append, ← cut]
    · simp [stepsOf, nonempty]
    · have pathRow : path.segments =
          rest.reverse ++ deepest :: (dropped.reverse ++ last :: behind) := by
        rw [segments, cut, List.reverse_append, trimmed]
        simp
      cases first : rest.reverse with
      | nil =>
        rw [first] at parentRow pathRow
        rw [isAbsolute_of_segments parentRow, isAbsolute_of_segments pathRow]
        simp [deepest_nonempty]
      | cons segment others =>
        rw [first] at parentRow pathRow
        rw [isAbsolute_of_segments parentRow, isAbsolute_of_segments pathRow, Bool.eq_iff_iff]
        simp
    · rw [endsInSlash_of_segments parentRow]
      simp [deepest_nonempty]

theorem ancestors_cases (path : Path) :
    path.ancestors = [] ∨ path.parent? ≠ none ∧ ∃ around, path.ancestors = path :: around := by
  rw [ancestors]
  cases path.text.length with
  | zero => exact .inl rfl
  | succ bound =>
    cases parent : path.parent? with
    | none =>
      left
      rw [ancestors.go, parent]
    | some parent' =>
      refine .inr ⟨by simp, ancestors.go bound parent', ?_⟩
      rw [ancestors.go, parent]

/-- The paths of the directories around a path. -/
def around (path : Path) : List Path :=
  path.parent?.elim [] ancestors

theorem around_cases (path : Path) :
    path.around = [] ∨ ∃ parent more, path.parent? = some parent ∧ parent.parent? ≠ none ∧
      path.around = parent :: more := by
  rw [around]
  cases parent : path.parent? with
  | none => exact .inl rfl
  | some parent' =>
    rcases ancestors_cases parent' with none | ⟨inner, more, row⟩
    · exact .inl none
    · exact .inr ⟨parent', more, rfl, inner, row⟩

end Path

namespace FileTree

variable {tree : FileTree} {here : Location} {path parent : Path} {target : Target}

/-- The parent of a path that leads somewhere leads to a directory. -/
theorem resolve_parent? (h : tree.resolve here path = .ok target)
    (isParent : path.parent? = some parent) (inner : parent.parent? ≠ none) :
    ∃ location, tree.resolve here parent = .ok (.entry location .directory) := by
  obtain ⟨⟨others, steps, more⟩, start, ends, nonempty⟩ := Path.steps_of_parent? isParent inner
  obtain ⟨-, leads⟩ := follow_eq_ok_iff.mp h
  obtain ⟨slashes, names, -⟩ := namesOf_cases path
  rw [names, steps, List.append_assoc] at leads
  obtain ⟨directory, links, leads, -⟩ := leads.split rfl (by simp [more])
  have names' : namesOf parent = parent.steps := by simp [namesOf, ends]
  refine ⟨directory, follow_eq_ok_iff.mpr ⟨by simpa using nonempty, ?_⟩⟩
  rw [start, names']
  exact leads

end FileTree

/-! ## Machines -/

namespace Machine

variable {machine : Machine} {path parent : Path} {target : Target} {location : Location}

/-- Making directories comes to an end at once where the first is there. -/
theorem perform_makeDirectories_of_directory
    (h : machine.files.resolve machine.directory parent = .ok (.entry location .directory))
    (more : List Path) :
    machine.perform (Host.makeDirectories (parent :: more)) = (.ok (.ok ()), machine) := by
  have refused : machine.perform (Host.makeDirectory parent) =
      (.ok (.error .alreadyExists), machine) := by
    rw [perform_makeDirectory, update_error (FileTree.makeDirectory_of_directory h)]
    rfl
  have asked : machine.perform (Host.isDirectory parent) = (.ok true, machine) := by
    change (Except.ok (machine.files.isDirectory machine.directory parent), machine) = _
    rw [FileTree.isDirectory, h]
  rw [Host.makeDirectories, perform_bind_ok refused]
  exact perform_bind_ok asked

theorem perform_makeDirectories_around
    (h : machine.files.resolve machine.directory path = .ok target) :
    machine.perform (Host.makeDirectories path.around) = (.ok (.ok ()), machine) := by
  rcases path.around_cases with none | ⟨parent, more, isParent, inner, row⟩
  · rw [none]
    rfl
  · obtain ⟨location, resolved⟩ := FileTree.resolve_parent? h isParent inner
    rw [row]
    exact perform_makeDirectories_of_directory resolved more

/-- A path that leads to a file or to a free name is written without failure. -/
theorem perform_writeText_of_accepts (h : machine.files.Accepts machine.directory path)
    (text : String) :
    ∃ files, machine.perform (Host.writeText path text) =
      (.ok (.ok ()), machine.withFiles files) := by
  have performed : machine.perform (Host.makeDirectories path.around) =
      (.ok (.ok ()), machine) := by
    rcases h with ⟨location, contents, resolved⟩ | ⟨directory, name, resolved⟩ <;>
      exact perform_makeDirectories_around resolved
  obtain ⟨files, written⟩ := h.write_ok text.toUTF8
  obtain ⟨result, files', wrote, ⟨rfl, -, -⟩ | ⟨error, -, -, failure⟩⟩ :=
    perform_writeText_cases performed text
  · exact ⟨files', wrote⟩
  · cases written.symm.trans (failure rfl)

/-- Giving a file a text changes nothing of the machine but its files. If it succeeds the path
    leads to a file with exactly that text, and every other location keeps its entry; if it fails
    all locations do. The only new entries besides are directories around the path. Where the path
    led before, it still leads, and it cannot fail if the path leads to a file or to a free
    name. -/
theorem writeText_updates_one_file (machine : Machine) (path : Path) (text : String) :
    ∃ result files, machine.perform (Host.writeText path text) =
        (.ok result, machine.withFiles files) ∧
      (result = .ok () → (machine.withFiles files).Holds path text ∧
        ∀ location, (machine.withFiles files).place? path ≠ some location →
          machine.files.KeptOrMade machine.directory path.around files location) ∧
      (result ≠ .ok () → ∀ location,
        machine.files.KeptOrMade machine.directory path.around files location) ∧
      (∀ location, machine.place? path = some location →
        (machine.withFiles files).place? path = some location) ∧
      (machine.files.Accepts machine.directory path → result = .ok ()) := by
  obtain ⟨made, files, performed, along⟩ : machine.Changes
      (FileTree.MakesAlong machine.directory path.around) (Host.makeDirectories path.around) :=
    changes_makeDirectories .refl .trans machine path.around
      fun _ member _ _ => FileTree.makesAlong_of_makeDirectory member
  have directories := writtenAt_of_addsDirectories along.addsDirectories
  have accepted {result : Except FileError Unit} {files : FileTree}
      (wrote : machine.perform (Host.writeText path text) = (.ok result, machine.withFiles files))
      (accepts : machine.files.Accepts machine.directory path) : result = .ok () := by
    obtain ⟨files', succeeded⟩ := perform_writeText_of_accepts accepts text
    exact Except.ok.inj (Prod.mk.inj (wrote.symm.trans succeeded)).1
  obtain ⟨result, written, wrote, ⟨rfl, -, success⟩ | ⟨error, rfl, rfl, -⟩⟩ :=
    perform_writeText_cases performed text
  · obtain ⟨place, resolved, -, -⟩ := FileTree.resolve_of_write success
    refine ⟨.ok (), written, wrote, fun _ => ⟨?_, ?_⟩, by simp, ?_, accepted wrote⟩
    · exact FileTree.read_eq_ok_iff.mpr ⟨place, resolved⟩
    · intro location elsewhere
      exact along.write success elsewhere
    · intro location found
      exact (directories.trans (writtenAt_of_write success)).place? found
  · refine ⟨.error error, written, wrote, by simp, fun _ => along, ?_, accepted wrote⟩
    intro location found
    exact directories.place? found

/-- A machine with a file and a link to it. -/
def linked : Machine where
  files := ⟨[(["l"], .link ⟨"a"⟩), (["a"], .file ByteArray.empty)]⟩
  directory := []
  home := none

/-- The file behind a link is written and the link stays; under no name nothing is written. -/
theorem writeText_updates_one_file_linked :
    (∃ files, linked.perform (Host.writeText ⟨"l"⟩ "x") = (.ok (.ok ()), linked.withFiles files) ∧
      (linked.withFiles files).Holds ⟨"l"⟩ "x" ∧
      (linked.withFiles files).place? ⟨"l"⟩ = some ["a"] ∧
      linked.files.KeptOrMade [] (Path.around ⟨"l"⟩) files ["l"]) ∧
    ∃ error files, linked.perform (Host.writeText ⟨""⟩ "x") =
        (.ok (.error error), linked.withFiles files) ∧
      ∀ location, linked.files.KeptOrMade [] (Path.around ⟨""⟩) files location := by
  have names (name : String) (word : name = "a" ∨ name = "l") :
      FileTree.namesOf ⟨name⟩ = [name] := by
    rcases word with rfl | rfl <;>
      simp [FileTree.namesOf, Path.endsInSlash, Path.steps, Path.segments, Path.segmentsOf]
  have resolved : linked.files.resolve linked.directory ⟨"l"⟩ =
      .ok (.entry ["a"] (.file ByteArray.empty)) := by
    rw [FileTree.resolve, names "l" (by decide)]
    refine FileTree.follow_eq_ok_iff.mpr ⟨rfl, ?_⟩
    have there : linked.files.Leads false 39 [] (FileTree.namesOf ⟨"a"⟩ ++ [])
        (.entry ["a"] (.file ByteArray.empty)) := by
      rw [names "a" (by decide)]
      exact .file ⟨by decide, by decide, by decide⟩ rfl
    exact .follows ⟨by decide, by decide, by decide⟩ rfl (by simp) there
  constructor
  · obtain ⟨result, files, wrote, success, -, stays, accepted⟩ :=
      writeText_updates_one_file linked ⟨"l"⟩ "x"
    obtain rfl := accepted (.inl ⟨_, _, resolved⟩)
    have found := stays ["a"] (FileTree.location?_eq_some_iff.mpr ⟨_, resolved⟩)
    obtain ⟨holds, others⟩ := success rfl
    exact ⟨files, wrote, holds, found, others ["l"] (by rw [found]; decide)⟩
  · obtain ⟨result, files, wrote, success, failure, -, -⟩ :=
      writeText_updates_one_file linked ⟨""⟩ "x"
    cases result with
    | ok => cases (success rfl).1
    | error error => exact ⟨error, files, wrote, failure (by simp)⟩

end Machine

end TinyScript
