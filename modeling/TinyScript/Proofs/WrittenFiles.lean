import TinyScript.Proofs.FileFrames

/-!
# Which files a part of a run writes

A write changes the contents of one file at most, and behind it the path leads to that file. No
later write takes an entry away, so that the path goes on to lead there. A part of a run is
therefore described by the paths it writes to, and two parts after each other by the paths of
both.
-/

namespace TinyScript

/-- The contents of an entry that is a file. -/
def FileNode.contents? : FileNode → Option ByteArray
  | .file contents => some contents
  | _ => none

/-- Two entries that differ in the contents of a file at most. -/
inductive FileNode.Alike : FileNode → FileNode → Prop
  | directory : Alike .directory .directory
  | file (contents contents' : ByteArray) : Alike (.file contents) (.file contents')
  | link (target : Path) : Alike (.link target) (.link target)

theorem FileNode.Alike.refl (node : FileNode) : node.Alike node := by
  cases node <;> constructor

theorem FileNode.Alike.trans {node node' node'' : FileNode} (h : node.Alike node')
    (h' : node'.Alike node'') : node.Alike node'' := by
  cases h <;> cases h' <;> constructor

namespace FileTree

variable {tree tree' : FileTree} {here location : Location} {node : FileNode} {path : Path}
  {contents : ByteArray}

/-- The contents of the file at a location. -/
def contents? (tree : FileTree) (location : Location) : Option ByteArray :=
  (tree.node? location).bind FileNode.contents?

theorem AddsDirectories.contents? (h : tree.AddsDirectories tree') (location : Location) :
    tree'.contents? location = tree.contents? location := by
  rw [FileTree.contents?, FileTree.contents?]
  rcases h location with same | ⟨absent, made⟩
  · rw [same]
  · rw [absent, made]
    rfl

/-! ## Entries that stay -/

/-- Every entry of a tree is still there in another one, files maybe with other contents. -/
def Keeps (tree tree' : FileTree) : Prop :=
  ∀ location node, tree.node? location = some node →
    ∃ node', tree'.node? location = some node' ∧ node.Alike node'

theorem Extends.keeps (h : tree.Extends tree') : tree.Keeps tree' :=
  fun location node present => ⟨node, h location node present, .refl node⟩

theorem Keeps.refl (tree : FileTree) : tree.Keeps tree :=
  (Extends.refl tree).keeps

theorem Keeps.trans {tree'' : FileTree} (h : tree.Keeps tree') (h' : tree'.Keeps tree'') :
    tree.Keeps tree'' := by
  intro location node present
  obtain ⟨node', present', alike⟩ := h location node present
  obtain ⟨node'', present'', alike'⟩ := h' location node' present'
  exact ⟨node'', present'', alike.trans alike'⟩

theorem keeps_put_file {old : ByteArray} (named : location ≠ [])
    (present : tree.node? location = some (.file old)) :
    tree.Keeps (tree.put location (.file contents)) := by
  intro other node found
  by_cases there : other = location
  · subst there
    obtain rfl : node = .file old := Option.some.inj (found.symm.trans present)
    exact ⟨_, node?_put_self named, .file old contents⟩
  · exact ⟨node, (node?_put_of_ne there).trans found, .refl node⟩

section Leads

variable {creating : Bool} {links : Nat} {names : List String} {target : Target}

/-- Names that lead to an entry lead to its place where it is kept. -/
theorem Leads.of_keeps (h : Leads tree creating links here names target)
    (kept : tree.Keeps tree') (entry : target = .entry location node) :
    ∃ node', node.Alike node' ∧ Leads tree' creating links here names (.entry location node') := by
  induction h with
  | arrived =>
    cases entry
    exact ⟨.directory, .directory, .arrived⟩
  | stays dot more ih =>
    obtain ⟨node', alike, leads⟩ := ih entry
    exact ⟨node', alike, .stays dot leads⟩
  | up more ih =>
    obtain ⟨node', alike, leads⟩ := ih entry
    exact ⟨node', alike, .up leads⟩
  | free entryName absent => cases entry
  | file entryName found =>
    cases entry
    obtain ⟨node', found', alike⟩ := kept _ _ found
    cases alike
    exact ⟨_, .file _ _, .file entryName found'⟩
  | enters entryName found open' more ih =>
    obtain ⟨node', alike, leads⟩ := ih entry
    obtain ⟨between, found', same⟩ := kept _ _ found
    cases same
    exact ⟨node', alike, .enters entryName found' open' leads⟩
  | follows entryName found open' more ih =>
    obtain ⟨node', alike, leads⟩ := ih entry
    obtain ⟨between, found', same⟩ := kept _ _ found
    cases same
    exact ⟨node', alike, .follows entryName found' open' leads⟩

/-- Names that lead to a free name lead to the file that is made there. -/
theorem Leads.of_put {directory : Location} {last : String}
    (h : Leads tree creating links here names target) (free : target = .free directory last) :
    Leads (tree.put (directory ++ [last]) (.file contents)) false links here names
      (.entry (directory ++ [last]) (.file contents)) := by
  have extended : tree.Extends (tree.put (directory ++ [last]) (.file contents)) :=
    extends_put (h.absent free)
  induction h with
  | arrived => cases free
  | stays dot more ih => exact .stays dot (ih free)
  | up more ih => exact .up (ih free)
  | free entryName absent =>
    cases free
    exact .file entryName (node?_put_self (by simp))
  | file entryName found => cases free
  | enters entryName found open' more ih =>
    exact .enters entryName (extended _ _ found) (by simp) (ih free)
  | follows entryName found open' more ih =>
    exact .follows entryName (extended _ _ found) (by simp) (ih free)

end Leads

theorem resolve_of_keeps (kept : tree.Keeps tree')
    (h : tree.resolve here path = .ok (.entry location node)) :
    ∃ node', node.Alike node' ∧ tree'.resolve here path = .ok (.entry location node') := by
  obtain ⟨nonempty, leads⟩ := follow_eq_ok_iff.mp h
  obtain ⟨node', alike, leads'⟩ := leads.of_keeps kept rfl
  exact ⟨node', alike, follow_eq_ok_iff.mpr ⟨nonempty, leads'⟩⟩

theorem location?_of_keeps (kept : tree.Keeps tree')
    (h : tree.location? here path = some location) :
    tree'.location? here path = some location := by
  obtain ⟨node, resolved⟩ := location?_eq_some_iff.mp h
  obtain ⟨node', -, resolved'⟩ := resolve_of_keeps kept resolved
  exact location?_eq_some_iff.mpr ⟨node', resolved'⟩

theorem read_eq_ok_iff : tree.read here path = .ok contents ↔
    ∃ location, tree.resolve here path = .ok (.entry location (.file contents)) := by
  rw [read]
  cases tree.resolve here path with
  | error error => simp [bind, Except.bind]
  | ok target =>
    cases target with
    | free directory name => simp [bind, Except.bind]
    | entry location node => cases node <;> simp [bind, Except.bind, pure, Except.pure]

/-- Behind a write the path leads to the file that has been written; all else is as before. -/
theorem resolve_of_write (h : tree.write here path contents = .ok tree') :
    ∃ place, tree'.resolve here path = .ok (.entry place (.file contents)) ∧ tree.Keeps tree' ∧
      ∀ other, other ≠ place → tree'.node? other = tree.node? other := by
  obtain ⟨place, target, rfl, followed, ⟨old, rfl⟩ | ⟨directory, name, rfl, rfl⟩⟩ :=
    leads_of_write h
  · have before := resolve_of_follow followed
    obtain ⟨named, present⟩ := node?_of_resolve before
    have kept : tree.Keeps (tree.put place (.file contents)) := keeps_put_file named present
    obtain ⟨node', alike, resolved⟩ := resolve_of_keeps kept before
    refine ⟨place, ?_, kept, fun other => node?_put_of_ne⟩
    cases alike with
    | file old written =>
      have there := (node?_of_resolve resolved).2
      rw [node?_put_self named] at there
      cases there
      exact resolved
  · obtain ⟨nonempty, leads⟩ := follow_eq_ok_iff.mp followed
    exact ⟨directory ++ [name], follow_eq_ok_iff.mpr ⟨nonempty, leads.of_put rfl⟩,
      (extends_put (leads.absent rfl)).keeps, fun other => node?_put_of_ne⟩

end FileTree

/-! ## Parts of a run -/

namespace Machine

variable {α β : Type} {machine behind : Machine} {part : ExceptT RunError (StateM Machine) α}
  {more : α → ExceptT RunError (StateM Machine) β} {paths paths' : List Path}

/-- The location that a path leads to. -/
def place? (machine : Machine) (path : Path) : Option Location :=
  machine.files.location? machine.directory path

/-- A path leads to a file with exactly the given text. -/
def Holds (machine : Machine) (path : Path) (text : String) : Prop :=
  machine.files.read machine.directory path = .ok text.toUTF8

/-- A machine may come behind another one if only files that some paths lead to are written: no
    entry is lost, and a file with other contents is one that such a path leads to by then. -/
structure WrittenAt (machine : Machine) (paths : List Path) (behind : Machine) : Prop where
  directory : behind.directory = machine.directory
  kept : machine.files.Keeps behind.files
  places : ∀ location, behind.files.contents? location ≠ machine.files.contents? location →
    ∃ path ∈ paths, behind.place? path = some location

theorem writtenAt_of_same (files : behind.files = machine.files)
    (directory : behind.directory = machine.directory) : machine.WrittenAt paths behind := by
  refine ⟨directory, ?_, ?_⟩
  · rw [files]
    exact .refl _
  · intro location differ
    rw [files] at differ
    exact absurd rfl differ

theorem WrittenAt.place? (h : machine.WrittenAt paths behind) {path : Path} {location : Location}
    (found : machine.place? path = some location) : behind.place? path = some location := by
  rw [Machine.place?, h.directory]
  exact FileTree.location?_of_keeps h.kept found

theorem WrittenAt.trans {last : Machine} (h : machine.WrittenAt paths behind)
    (h' : behind.WrittenAt paths' last) : machine.WrittenAt (paths ++ paths') last := by
  refine ⟨h'.directory.trans h.directory, h.kept.trans h'.kept, ?_⟩
  intro location differ
  by_cases same : last.files.contents? location = behind.files.contents? location
  · rw [same] at differ
    obtain ⟨path, member, found⟩ := h.places location differ
    exact ⟨path, List.mem_append_left _ member, h'.place? found⟩
  · obtain ⟨path, member, found⟩ := h'.places location same
    exact ⟨path, List.mem_append_right _ member, found⟩

theorem WrittenAt.mono (h : machine.WrittenAt paths behind) (among : paths ⊆ paths') :
    machine.WrittenAt paths' behind := by
  refine ⟨h.directory, h.kept, ?_⟩
  intro location differ
  obtain ⟨path, member, found⟩ := h.places location differ
  exact ⟨path, among member, found⟩

/-- A file keeps its text unless one of the paths leads to it in the end. -/
theorem WrittenAt.holds (h : machine.WrittenAt paths behind) {path : Path} {text : String}
    (held : machine.Holds path text) :
    behind.Holds path text ∨ ∃ other ∈ paths, ∃ location,
      behind.place? path = some location ∧ behind.place? other = some location := by
  obtain ⟨location, resolved⟩ := FileTree.read_eq_ok_iff.mp held
  obtain ⟨node, alike, resolved'⟩ := FileTree.resolve_of_keeps h.kept resolved
  rw [← h.directory] at resolved'
  cases alike with
  | file _ contents =>
    by_cases same : behind.files.contents? location = machine.files.contents? location
    · rw [FileTree.contents?, FileTree.contents?, (FileTree.node?_of_resolve resolved).2,
        (FileTree.node?_of_resolve resolved').2] at same
      obtain rfl : contents = text.toUTF8 := Option.some.inj same
      exact .inl (FileTree.read_eq_ok_iff.mpr ⟨location, resolved'⟩)
    · obtain ⟨other, member, found⟩ := h.places location same
      exact .inr ⟨other, member, location,
        FileTree.location?_eq_some_iff.mpr ⟨_, resolved'⟩, found⟩

/-- A part of a run that writes to some paths at most. -/
def WritesTo (machine : Machine) (paths : List Path)
    (part : ExceptT RunError (StateM Machine) α) : Prop :=
  machine.WrittenAt paths (machine.perform part).2

theorem WritesTo.bind (h : machine.WritesTo paths part)
    (goesOn : ∀ value behind, Machine.WritesTo behind paths' (more value)) :
    machine.WritesTo (paths ++ paths') (part >>= more) := by
  rw [WritesTo] at h ⊢
  cases performed : machine.perform part with
  | mk result behind =>
    rw [performed] at h
    cases result with
    | error error =>
      rw [perform_bind_error performed]
      exact h.mono (List.subset_append_left _ _)
    | ok value =>
      rw [perform_bind_ok performed]
      exact h.trans (goesOn value behind)

theorem writtenAt_of_addsDirectories {files : FileTree}
    (added : machine.files.AddsDirectories files) :
    machine.WrittenAt [] (machine.withFiles files) :=
  ⟨rfl, added.extends.keeps, fun location differ => absurd (added.contents? location) differ⟩

theorem writtenAt_of_write {path : Path} {contents : ByteArray} {files : FileTree}
    (written : machine.files.write machine.directory path contents = .ok files) :
    machine.WrittenAt [path] (machine.withFiles files) := by
  obtain ⟨place, resolved, kept, others⟩ := FileTree.resolve_of_write written
  refine ⟨rfl, kept, ?_⟩
  intro location differ
  by_cases there : location = place
  · subst there
    exact ⟨path, List.mem_singleton_self path, FileTree.location?_eq_some_iff.mpr ⟨_, resolved⟩⟩
  · have same : files.contents? location = machine.files.contents? location :=
      congrArg (·.bind FileNode.contents?) (others location there)
    exact absurd same differ

/-- Giving a file a text writes to its path only, and the file holds the text unless that fails. -/
theorem perform_writeText (machine : Machine) (path : Path) (text : String) :
    ∃ result files, machine.perform (Host.writeText path text) =
        (.ok result, machine.withFiles files) ∧
      machine.WrittenAt [path] (machine.withFiles files) ∧
      (result = .ok () → (machine.withFiles files).Holds path text) := by
  obtain ⟨made, files, performed, added⟩ :=
    onlyMakes_makeDirectories machine (path.parent?.elim [] Path.ancestors)
  have directories := writtenAt_of_addsDirectories added
  obtain ⟨result, written, wrote, ⟨rfl, -, success⟩ | ⟨error, rfl, rfl, -⟩⟩ :=
    perform_writeText_cases performed text
  · obtain ⟨place, resolved, -, -⟩ := FileTree.resolve_of_write success
    refine ⟨_, _, wrote, directories.trans (writtenAt_of_write success), ?_⟩
    intro _
    exact FileTree.read_eq_ok_iff.mpr ⟨place, resolved⟩
  · exact ⟨_, _, wrote, directories.mono (List.nil_subset _), by simp⟩

end Machine

end TinyScript
