import TinyScript.CommandLine.Run
import TinyScript.Machine

/-!
# What file operations leave alone

Making directories only adds entries, so that a path that leads to an entry goes on to do so.
Writing to a path puts one entry: the file that the path leads to, or a new one under a free name.
-/

namespace TinyScript

namespace FileTree

variable {tree tree' : FileTree} {here location : Location} {node : FileNode}

theorem lookup_filter_ne {entries : List (Location × FileNode)} {location other : Location}
    (different : other ≠ location) :
    (entries.filter (·.1 ≠ location)).lookup other = entries.lookup other := by
  induction entries with
  | nil => rfl
  | cons entry entries ih =>
    obtain ⟨place, node⟩ := entry
    by_cases same : place = location
    · subst same
      have passed : (other == place) = false := by simpa using different
      simpa [List.lookup_cons, passed] using ih
    · by_cases found : other = place
      · subst found
        simp [same]
      · have passed : (other == place) = false := by simpa using found
        simpa [same, List.lookup_cons, passed] using ih

theorem node?_put_self (named : location ≠ []) :
    (tree.put location node).node? location = some node := by
  simp [node?, put, named]

theorem node?_put_of_ne {other : Location} (different : other ≠ location) :
    (tree.put location node).node? other = tree.node? other := by
  by_cases root : other = []
  · simp [node?, root]
  · have passed : (other == location) = false := by simpa using different
    simp only [node?, put, List.isEmpty_iff, root, if_false, List.lookup_cons, passed]
    exact lookup_filter_ne different

/-- Every entry of a tree is still there in another one. -/
def Extends (tree tree' : FileTree) : Prop :=
  ∀ location node, tree.node? location = some node → tree'.node? location = some node

theorem Extends.refl (tree : FileTree) : tree.Extends tree :=
  fun _ _ h => h

theorem Extends.trans {tree'' : FileTree} (h : tree.Extends tree') (h' : tree'.Extends tree'') :
    tree.Extends tree'' :=
  fun location node found => h' location node (h location node found)

theorem extends_put (free : tree.node? location = none) :
    tree.Extends (tree.put location node) := by
  intro other found present
  have different : other ≠ location := by
    rintro rfl
    rw [free] at present
    cases present
  rw [node?_put_of_ne different, present]

/-- A tree in which nothing but directories has been added. -/
def AddsDirectories (tree tree' : FileTree) : Prop :=
  ∀ location, tree'.node? location = tree.node? location ∨
    tree.node? location = none ∧ tree'.node? location = some .directory

theorem AddsDirectories.refl (tree : FileTree) : tree.AddsDirectories tree :=
  fun _ => .inl rfl

theorem AddsDirectories.trans {tree'' : FileTree} (h : tree.AddsDirectories tree')
    (h' : tree'.AddsDirectories tree'') : tree.AddsDirectories tree'' := by
  intro location
  rcases h' location with same | ⟨absent, made⟩
  · rw [same]
    exact h location
  · rcases h location with same | ⟨free, -⟩
    · exact .inr ⟨same.symm.trans absent, made⟩
    · exact .inr ⟨free, made⟩

theorem AddsDirectories.extends (h : tree.AddsDirectories tree') : tree.Extends tree' := by
  intro location node present
  rcases h location with same | ⟨absent, -⟩
  · rw [same, present]
  · rw [absent] at present
    cases present

/-! ## Following names -/

/-- A name that asks for an entry of a directory. -/
structure IsEntryName (name : String) : Prop where
  notEmpty : name ≠ ""
  notDot : name ≠ "."
  notUp : name ≠ ".."

/-- Names that only ask for a directory, as slashes at the end of a path do. -/
def AsksForDirectory (names : List String) : Prop :=
  names ≠ [] ∧ ∀ name ∈ names, name = ""

/-- Where names lead from a directory, if at most the given number of links is followed. Where a
    file is to be made, its name is not to be followed by slashes. -/
inductive Leads (tree : FileTree) (creating : Bool) : Nat → Location → List String → Target → Prop
  | arrived {links : Nat} {here : Location} :
      Leads tree creating links here [] (.entry here .directory)
  | stays {links : Nat} {here : Location} {name : String} {rest : List String} {target : Target}
      (dot : name = "" ∨ name = ".") (more : Leads tree creating links here rest target) :
      Leads tree creating links here (name :: rest) target
  | up {links : Nat} {here : Location} {rest : List String} {target : Target}
      (more : Leads tree creating links here.dropLast rest target) :
      Leads tree creating links here (".." :: rest) target
  | free {links : Nat} {here : Location} {name : String} (entryName : IsEntryName name)
      (absent : tree.node? (here ++ [name]) = none) :
      Leads tree creating links here [name] (.free here name)
  | file {links : Nat} {here : Location} {name : String} {contents : ByteArray}
      (entryName : IsEntryName name)
      (found : tree.node? (here ++ [name]) = some (.file contents)) :
      Leads tree creating links here [name] (.entry (here ++ [name]) (.file contents))
  | enters {links : Nat} {here : Location} {name : String} {rest : List String} {target : Target}
      (entryName : IsEntryName name) (found : tree.node? (here ++ [name]) = some .directory)
      (open' : creating = true → ¬ AsksForDirectory rest)
      (more : Leads tree creating links (here ++ [name]) rest target) :
      Leads tree creating links here (name :: rest) target
  | follows {links : Nat} {here : Location} {name : String} {rest : List String} {path : Path}
      {target : Target} (entryName : IsEntryName name)
      (found : tree.node? (here ++ [name]) = some (.link path))
      (open' : creating = true → ¬ AsksForDirectory rest)
      (more : Leads tree creating links (if path.isAbsolute then [] else here)
        (namesOf path ++ rest) target) :
      Leads tree creating (links + 1) here (name :: rest) target

section Steps

variable {follow : Location → Path → List String → Except FileError Target} {creating : Bool}
  {name : String} {rest : List String}

theorem walkWith_stays (dot : name = "" ∨ name = ".") :
    tree.walkWith follow creating here (name :: rest) =
      tree.walkWith follow creating here rest := by
  rw [walkWith, if_pos (by simpa using dot)]

theorem walkWith_up : tree.walkWith follow creating here (".." :: rest) =
    tree.walkWith follow creating here.dropLast rest := by
  rw [walkWith, if_neg (by decide), if_pos rfl]

theorem slash_iff : (creating && !rest.isEmpty && rest.all (· = "")) = true ↔
    creating = true ∧ AsksForDirectory rest := by
  simp [AsksForDirectory, and_assoc]

variable (entryName : IsEntryName name) (open' : creating = true → ¬ AsksForDirectory rest)
include entryName

theorem walkWith_of_slash (slash : creating = true ∧ AsksForDirectory rest) :
    tree.walkWith follow creating here (name :: rest) = .error .isADirectory := by
  rw [walkWith, if_neg (by simp [entryName.notEmpty, entryName.notDot]), if_neg entryName.notUp,
    if_pos (slash_iff.mpr slash)]

include open'

theorem walkWith_of_none (found : tree.node? (here ++ [name]) = none) :
    tree.walkWith follow creating here (name :: rest) =
      if rest.isEmpty then .ok (.free here name) else .error .notFound := by
  rw [walkWith, if_neg (by simp [entryName.notEmpty, entryName.notDot]), if_neg entryName.notUp,
    if_neg (by rw [slash_iff, not_and]; exact open')]
  simp only [found]

theorem walkWith_of_directory (found : tree.node? (here ++ [name]) = some .directory) :
    tree.walkWith follow creating here (name :: rest) =
      tree.walkWith follow creating (here ++ [name]) rest := by
  rw [walkWith, if_neg (by simp [entryName.notEmpty, entryName.notDot]), if_neg entryName.notUp,
    if_neg (by rw [slash_iff, not_and]; exact open')]
  simp only [found]

theorem walkWith_of_file {contents : ByteArray}
    (found : tree.node? (here ++ [name]) = some (.file contents)) :
    tree.walkWith follow creating here (name :: rest) =
      if rest.isEmpty then .ok (.entry (here ++ [name]) (.file contents))
      else .error .notADirectory := by
  rw [walkWith, if_neg (by simp [entryName.notEmpty, entryName.notDot]), if_neg entryName.notUp,
    if_neg (by rw [slash_iff, not_and]; exact open')]
  simp only [found]

theorem walkWith_of_link {path : Path} (found : tree.node? (here ++ [name]) = some (.link path)) :
    tree.walkWith follow creating here (name :: rest) = follow here path rest := by
  rw [walkWith, if_neg (by simp [entryName.notEmpty, entryName.notDot]), if_neg entryName.notUp,
    if_neg (by rw [slash_iff, not_and]; exact open')]
  simp only [found]

end Steps

theorem leads_of_walkWith {follow : Location → Path → List String → Except FileError Target}
    {creating : Bool} {links : Nat} {target : Target}
    (follows : ∀ {here name rest path}, IsEntryName name →
      tree.node? (here ++ [name]) = some (.link path) →
      (creating = true → ¬ AsksForDirectory rest) → follow here path rest = .ok target →
      Leads tree creating links here (name :: rest) target)
    {names : List String} (h : tree.walkWith follow creating here names = .ok target) :
    Leads tree creating links here names target := by
  induction names generalizing here with
  | nil =>
    cases h
    exact .arrived
  | cons name rest ih =>
    by_cases dot : name = "" ∨ name = "."
    · rw [walkWith_stays dot] at h
      exact .stays dot (ih h)
    · by_cases isUp : name = ".."
      · subst isUp
        rw [walkWith_up] at h
        exact .up (ih h)
      · rw [not_or] at dot
        have entryName : IsEntryName name := ⟨dot.1, dot.2, isUp⟩
        by_cases slash : creating = true ∧ AsksForDirectory rest
        · rw [walkWith_of_slash entryName slash] at h
          cases h
        · have open' := not_and.mp slash
          cases found : tree.node? (here ++ [name]) with
          | none =>
            rw [walkWith_of_none entryName open' found] at h
            cases rest with
            | nil =>
              cases h
              exact .free entryName found
            | cons next rest => cases h
          | some node =>
            cases node with
            | directory =>
              rw [walkWith_of_directory entryName open' found] at h
              exact .enters entryName found open' (ih h)
            | file contents =>
              rw [walkWith_of_file entryName open' found] at h
              cases rest with
              | nil =>
                cases h
                exact .file entryName found
              | cons next rest => cases h
            | link path =>
              rw [walkWith_of_link entryName open' found] at h
              exact follows entryName found open' h

/-- Names lead where they are followed to. -/
theorem walk_eq_ok_iff {creating : Bool} {links : Nat} {names : List String} {target : Target} :
    tree.walk creating links here names = .ok target ↔
      Leads tree creating links here names target := by
  constructor
  · intro h
    induction links generalizing here names with
    | zero =>
      refine leads_of_walkWith ?_ h
      intro _ _ _ _ _ _ _ stopped
      cases stopped
    | succ links ih =>
      refine leads_of_walkWith ?_ h
      intro _ _ _ _ entryName found open' walked
      exact .follows entryName found open' (ih walked)
  · intro h
    have asWalkWith (links : Nat) :
        ∃ follow, tree.walk creating links = tree.walkWith follow creating := by
      cases links <;> exact ⟨_, rfl⟩
    induction h with
    | @arrived links here =>
      obtain ⟨follow, walks⟩ := asWalkWith links
      rw [walks, walkWith]
    | @stays links here name rest target dot more ih =>
      obtain ⟨follow, walks⟩ := asWalkWith links
      rw [walks] at ih ⊢
      rw [walkWith_stays dot, ih]
    | @up links here rest target more ih =>
      obtain ⟨follow, walks⟩ := asWalkWith links
      rw [walks] at ih ⊢
      rw [walkWith_up, ih]
    | @free links here name entryName absent =>
      obtain ⟨follow, walks⟩ := asWalkWith links
      rw [walks, walkWith_of_none entryName (by simp [AsksForDirectory]) absent]
      rfl
    | @file links here name contents entryName found =>
      obtain ⟨follow, walks⟩ := asWalkWith links
      rw [walks, walkWith_of_file entryName (by simp [AsksForDirectory]) found]
      rfl
    | @enters links here name rest target entryName found open' more ih =>
      obtain ⟨follow, walks⟩ := asWalkWith links
      rw [walks] at ih ⊢
      rw [walkWith_of_directory entryName open' found, ih]
    | follows entryName found open' more ih =>
      rw [walk, walkWith_of_link entryName open' found, ih]

section Leads

variable {creating : Bool} {links : Nat} {names : List String}

/-- Further entries do not change where names lead that lead to an entry. -/
theorem Leads.of_extends {target : Target} (h : Leads tree creating links here names target)
    (extended : tree.Extends tree') (entry : target = .entry location node) :
    Leads tree' creating links here names target := by
  induction h with
  | arrived => exact .arrived
  | stays dot more ih => exact .stays dot (ih entry)
  | up more ih => exact .up (ih entry)
  | free entryName absent => cases entry
  | file entryName found => exact .file entryName (extended _ _ found)
  | enters entryName found open' more ih =>
    exact .enters entryName (extended _ _ found) open' (ih entry)
  | follows entryName found open' more ih =>
    exact .follows entryName (extended _ _ found) open' (ih entry)

/-- A file that names lead to stands in the tree. -/
theorem Leads.node? {target : Target} {contents : ByteArray}
    (h : Leads tree creating links here names target)
    (entry : target = .entry location (.file contents)) :
    location ≠ [] ∧ tree.node? location = some (.file contents) := by
  induction h with
  | arrived => cases entry
  | stays dot more ih => exact ih entry
  | up more ih => exact ih entry
  | free entryName absent => cases entry
  | file entryName found =>
    cases entry
    exact ⟨by simp, found⟩
  | enters entryName found open' more ih => exact ih entry
  | follows entryName found open' more ih => exact ih entry

/-- A name that names lead to as a free one has no entry. -/
theorem Leads.absent {target : Target} {directory : Location} {last : String}
    (h : Leads tree creating links here names target) (free : target = .free directory last) :
    tree.node? (directory ++ [last]) = none := by
  induction h with
  | arrived => cases free
  | stays dot more ih => exact ih free
  | up more ih => exact ih free
  | free entryName absent =>
    cases free
    exact absent
  | file entryName found => cases free
  | enters entryName found open' more ih => exact ih free
  | follows entryName found open' more ih => exact ih free

/-- Names with an empty one at the end lead to a directory, if anywhere. -/
theorem Leads.directory_of_slash {target : Target}
    (h : Leads tree creating links here names target) (slash : names.getLast? = some "") :
    ∃ location, target = .entry location .directory := by
  induction h with
  | @arrived links here => exact ⟨here, rfl⟩
  | @stays links here name rest target dot more ih =>
    cases rest with
    | nil =>
      cases more
      exact ⟨here, rfl⟩
    | cons next rest => exact ih (by simpa using slash)
  | @up links here rest target more ih =>
    cases rest with
    | nil => simp at slash
    | cons next rest => exact ih (by simpa using slash)
  | free entryName absent => exact absurd (by simpa using slash) entryName.notEmpty
  | file entryName found => exact absurd (by simpa using slash) entryName.notEmpty
  | @enters links here name rest target entryName found open' more ih =>
    cases rest with
    | nil => exact absurd (by simpa using slash) entryName.notEmpty
    | cons next rest => exact ih (by simpa using slash)
  | @follows links here name rest path target entryName found open' more ih =>
    cases rest with
    | nil => exact absurd (by simpa using slash) entryName.notEmpty
    | cons next rest => exact ih (by simpa [List.getLast?_append] using slash)

theorem AsksForDirectory.getLast? {rest : List String} (h : AsksForDirectory rest)
    (names : List String) : (names ++ rest).getLast? = some "" := by
  obtain ⟨nonempty, empty⟩ := h
  rw [List.getLast?_append, List.getLast?_eq_some_getLast nonempty, Option.some_or]
  exact congrArg some (empty _ (List.getLast_mem nonempty))

/-- Whether a file is to be made plays no role for names that do not lead to a directory. -/
theorem Leads.of_creating {creating' : Bool} {target : Target}
    (h : Leads tree creating links here names target)
    (other : ∀ location, target ≠ .entry location .directory) :
    Leads tree creating' links here names target := by
  induction h with
  | arrived => exact absurd rfl (other _)
  | stays dot more ih => exact .stays dot (ih other)
  | up more ih => exact .up (ih other)
  | free entryName absent => exact .free entryName absent
  | file entryName found => exact .file entryName found
  | enters entryName found open' more ih =>
    refine .enters entryName found ?_ (ih other)
    intro _ slash
    obtain ⟨location, directory⟩ := more.directory_of_slash (slash.getLast? [])
    exact other location directory
  | follows entryName found open' more ih =>
    refine .follows entryName found ?_ (ih other)
    intro _ slash
    obtain ⟨location, directory⟩ := more.directory_of_slash (slash.getLast? _)
    exact other location directory

end Leads

/-! ## Operations -/

variable {path : Path} {contents : ByteArray}

theorem follow_eq_ok_iff {creating : Bool} {names : List String} {target : Target} :
    tree.follow creating here path names = .ok target ↔ path.text.isEmpty = false ∧
      Leads tree creating linkLimit (if path.isAbsolute then [] else here) names target := by
  rw [follow]
  cases path.text.isEmpty with
  | true => simp
  | false => simp [walk_eq_ok_iff]

/-- A path that leads to an entry leads there in a larger tree. -/
theorem resolve_of_extends (extended : tree.Extends tree')
    (h : tree.resolve here path = .ok (.entry location node)) :
    tree'.resolve here path = .ok (.entry location node) := by
  obtain ⟨nonempty, leads⟩ := follow_eq_ok_iff.mp h
  exact follow_eq_ok_iff.mpr ⟨nonempty, leads.of_extends extended rfl⟩

theorem location?_eq_some_iff :
    tree.location? here path = some location ↔
      ∃ node, tree.resolve here path = .ok (.entry location node) := by
  rw [location?]
  cases tree.resolve here path with
  | error error => simp
  | ok target => cases target <;> simp

theorem location?_of_extends (extended : tree.Extends tree')
    (h : tree.location? here path = some location) :
    tree'.location? here path = some location := by
  obtain ⟨node, resolved⟩ := location?_eq_some_iff.mp h
  exact location?_eq_some_iff.mpr ⟨node, resolve_of_extends extended resolved⟩

theorem node?_of_resolve (h : tree.resolve here path = .ok (.entry location (.file contents))) :
    location ≠ [] ∧ tree.node? location = some (.file contents) :=
  (follow_eq_ok_iff.mp h).2.node? rfl

/-- Writing to a path that leads to a file gives that file the contents. -/
theorem write_of_resolve {old : ByteArray}
    (h : tree.resolve here path = .ok (.entry location (.file old))) :
    tree.write here path contents = .ok (tree.put location (.file contents)) := by
  obtain ⟨nonempty, leads⟩ := follow_eq_ok_iff.mp h
  have creating : tree.follow true here path (namesOf path) = .ok (.entry location (.file old)) :=
    follow_eq_ok_iff.mpr ⟨nonempty, leads.of_creating (by simp)⟩
  rw [write, creating]
  rfl

/-- Writing puts one entry: the file that the names of the path lead to, or one under a free name
    that they lead to. -/
theorem leads_of_write (h : tree.write here path contents = .ok tree') :
    ∃ place target, tree' = tree.put place (.file contents) ∧
      tree.follow true here path (namesOf path) = .ok target ∧
      ((∃ old, target = .entry place (.file old)) ∨
        ∃ directory name, place = directory ++ [name] ∧ target = .free directory name) := by
  rw [write] at h
  cases target : tree.follow true here path (namesOf path) with
  | error error =>
    rw [target] at h
    cases h
  | ok target' =>
    rw [target] at h
    cases target' with
    | free directory name =>
      cases h
      exact ⟨_, _, rfl, rfl, .inr ⟨directory, name, rfl, rfl⟩⟩
    | entry place node =>
      cases node with
      | file old =>
        cases h
        exact ⟨place, _, rfl, rfl, .inl ⟨old, rfl⟩⟩
      | directory => cases h
      | link link => cases h

theorem resolve_of_follow {old : ByteArray}
    (h : tree.follow true here path (namesOf path) = .ok (.entry location (.file old))) :
    tree.resolve here path = .ok (.entry location (.file old)) := by
  obtain ⟨nonempty, leads⟩ := follow_eq_ok_iff.mp h
  exact follow_eq_ok_iff.mpr ⟨nonempty, leads.of_creating (by simp)⟩

/-- The place that is written is that of the file which the path leads to, or had no entry. -/
theorem write_cases (h : tree.write here path contents = .ok tree') :
    ∃ place, tree' = tree.put place (.file contents) ∧
      ((∃ old, tree.resolve here path = .ok (.entry place (.file old))) ∨
        tree.node? place = none) := by
  obtain ⟨place, target, rfl, followed, ⟨old, rfl⟩ | ⟨directory, name, rfl, rfl⟩⟩ :=
    leads_of_write h
  · exact ⟨place, rfl, .inl ⟨old, resolve_of_follow followed⟩⟩
  · exact ⟨_, rfl, .inr ((follow_eq_ok_iff.mp followed).2.absent rfl)⟩

theorem enclosing_eq_ok_iff {directory : Location} :
    tree.enclosing here path = .ok directory ↔
      tree.follow false here path path.steps.dropLast = .ok (.entry directory .directory) := by
  rw [enclosing]
  cases tree.follow false here path path.steps.dropLast with
  | error error => simp [bind, Except.bind]
  | ok target =>
    cases target with
    | free directory name => simp [bind, Except.bind]
    | entry location node => cases node <;> simp [bind, Except.bind, pure, Except.pure]

theorem ne_empty_of_mem_steps {name : String} (member : name ∈ path.steps) : name ≠ "" := by
  obtain ⟨segment, kept, rfl⟩ := List.mem_map.mp member
  have nonempty := (List.mem_filter.mp kept).2
  intro empty
  rw [String.ofList_eq_empty_iff.mp empty] at nonempty
  cases nonempty

/-- A directory that is made stands under a free name, in the directory that encloses it. -/
theorem makeDirectory_cases (h : tree.makeDirectory here path = .ok tree') :
    ∃ directory name, path.steps.getLast? = some name ∧ IsEntryName name ∧
      tree.enclosing here path = .ok directory ∧ tree.node? (directory ++ [name]) = none ∧
      tree' = tree.put (directory ++ [name]) .directory := by
  unfold makeDirectory at h
  cases enclosing : tree.enclosing here path with
  | error error =>
    rw [enclosing] at h
    cases h
  | ok directory =>
    rw [enclosing] at h
    simp only [bind, Except.bind] at h
    split at h
    · cases h
    · split at h
      · cases h
      · split at h
        · cases h
        · rename_i name last notDots _ free
          cases h
          have dots : name ≠ "." ∧ name ≠ ".." := by simpa using notDots
          exact ⟨directory, name, last, ⟨ne_empty_of_mem_steps (List.mem_of_getLast? last), dots.1,
            dots.2⟩, rfl, free, rfl⟩

theorem addsDirectories_of_makeDirectory (h : tree.makeDirectory here path = .ok tree') :
    tree.AddsDirectories tree' := by
  obtain ⟨directory, name, -, -, -, free, rfl⟩ := makeDirectory_cases h
  intro other
  by_cases there : other = directory ++ [name]
  · rw [there]
    exact .inr ⟨free, node?_put_self (by simp)⟩
  · exact .inl (node?_put_of_ne there)

end FileTree

/-! ## Machines -/

namespace Machine

variable {α β : Type}

/-- What a part of a run gives on a machine, and the machine behind it. -/
def perform (machine : Machine) (part : ExceptT RunError (StateM Machine) α) :
    Except RunError α × Machine :=
  part.run machine

variable {machine behind : Machine} {part : ExceptT RunError (StateM Machine) α}
  {more : α → ExceptT RunError (StateM Machine) β}

theorem perform_bind_ok {value : α} (h : machine.perform part = (.ok value, behind)) :
    machine.perform (part >>= more) = behind.perform (more value) := by
  change (ExceptT.bindCont more (machine.perform part).1).run (machine.perform part).2 = _
  rw [h]
  rfl

theorem perform_bind_error {error : RunError} (h : machine.perform part = (.error error, behind)) :
    machine.perform (part >>= more) = (.error error, behind) := by
  change (ExceptT.bindCont more (machine.perform part).1).run (machine.perform part).2 = _
  rw [h]
  rfl

/-- A machine with other files. -/
def withFiles (machine : Machine) (files : FileTree) : Machine :=
  { machine with files }

theorem update_ok {change : FileTree → Except FileError FileTree} {files : FileTree}
    (h : change machine.files = .ok files) :
    Machine.update change machine = (.ok (), machine.withFiles files) := by
  rw [Machine.update, h]
  rfl

theorem update_error {change : FileTree → Except FileError FileTree} {error : FileError}
    (h : change machine.files = .error error) :
    Machine.update change machine = (.error error, machine) := by
  rw [Machine.update, h]

theorem perform_write (path : Path) (contents : ByteArray) :
    machine.perform (Host.write path contents) =
      Prod.map .ok id (Machine.update (·.write machine.directory path contents) machine) :=
  rfl

theorem perform_makeDirectory (path : Path) :
    machine.perform (Host.makeDirectory path) =
      Prod.map .ok id (Machine.update (·.makeDirectory machine.directory path) machine) :=
  rfl

theorem perform_read (path : Path) :
    machine.perform (Host.read path) =
      (.ok (machine.files.read machine.directory path), machine) :=
  rfl

/-- Parts of a run that leave the machine with the entries it has, and maybe with further ones. -/
def OnlyAdds (machine : Machine) (part : ExceptT RunError (StateM Machine) α) : Prop :=
  ∃ value files, machine.perform part = (.ok value, machine.withFiles files) ∧
    machine.files.Extends files

/-- Parts of a run that do nothing to the machine but to make directories. -/
def OnlyMakes (machine : Machine) (part : ExceptT RunError (StateM Machine) α) : Prop :=
  ∃ value files, machine.perform part = (.ok value, machine.withFiles files) ∧
    machine.files.AddsDirectories files

/-- Parts of a run that do nothing to the machine but to change its files in some way. -/
def Changes (machine : Machine) (change : FileTree → FileTree → Prop)
    (part : ExceptT RunError (StateM Machine) α) : Prop :=
  ∃ value files, machine.perform part = (.ok value, machine.withFiles files) ∧
    change machine.files files

section Changes

variable {change : FileTree → FileTree → Prop} (same : ∀ tree, change tree tree)
  (further : ∀ {tree tree' tree''}, change tree tree' → change tree' tree'' → change tree tree'')

include same in
theorem changes_of_same {value : α} (h : machine.perform part = (.ok value, machine)) :
    machine.Changes change part :=
  ⟨value, machine.files, h, same machine.files⟩

include further in
theorem Changes.bind (h : machine.Changes change part)
    (goesOn : ∀ value files, (machine.withFiles files).Changes change (more value)) :
    machine.Changes change (part >>= more) := by
  obtain ⟨value, files, performed, changed⟩ := h
  obtain ⟨last, others, goes, changed'⟩ := goesOn value files
  exact ⟨last, others, (perform_bind_ok performed).trans goes, further changed changed'⟩

include same

theorem changes_makeDirectory (machine : Machine) {path : Path} (makes : ∀ tree tree',
      FileTree.makeDirectory tree machine.directory path = .ok tree' → change tree tree') :
    machine.Changes change (Host.makeDirectory path) := by
  cases made : machine.files.makeDirectory machine.directory path with
  | ok files =>
    refine ⟨.ok (), files, ?_, makes _ _ made⟩
    rw [perform_makeDirectory, update_ok made]
    rfl
  | error error =>
    have performed : machine.perform (Host.makeDirectory path) = (.ok (.error error), machine) := by
      rw [perform_makeDirectory, update_error made]
      rfl
    exact changes_of_same same performed

include further

theorem changes_settle (machine : Machine) (path : Path) (result : Except FileError Unit) :
    machine.Changes change (Host.settle path result) := by
  by_cases exists' : result = .error .alreadyExists
  · subst exists'
    have asked : machine.perform (Host.isDirectory path) =
        (.ok (machine.files.isDirectory machine.directory path), machine) := rfl
    refine (changes_of_same same asked).bind further ?_
    intro isDirectory files
    cases isDirectory <;> exact changes_of_same same rfl
  · have settled :
        (Host.settle path result : ExceptT RunError (StateM Machine) _) = pure result := by
      cases result with
      | ok => rfl
      | error error => cases error <;> first | rfl | exact absurd rfl exists'
    rw [settled]
    exact changes_of_same same rfl

/-- Making directories changes files as making each of them does. -/
theorem changes_makeDirectories (machine : Machine) (paths : List Path)
    (makes : ∀ path ∈ paths, ∀ tree tree',
      FileTree.makeDirectory tree machine.directory path = .ok tree' → change tree tree') :
    machine.Changes change (Host.makeDirectories paths) := by
  induction paths generalizing machine with
  | nil => exact changes_of_same same rfl
  | cons path around ih =>
    obtain ⟨first, others⟩ := List.forall_mem_cons.mp makes
    rw [Host.makeDirectories]
    refine (changes_makeDirectory same machine first).bind further ?_
    intro result files
    split
    · refine (ih (machine.withFiles files) others).bind further ?_
      intro made files
      split
      · refine (changes_makeDirectory same (machine.withFiles files) first).bind further ?_
        intro result files
        exact changes_settle same further _ path result
      · exact changes_of_same same rfl
    · exact changes_settle same further _ path _

end Changes

theorem onlyMakes_makeDirectories (machine : Machine) (paths : List Path) :
    machine.OnlyMakes (Host.makeDirectories paths) :=
  changes_makeDirectories .refl .trans machine paths
    fun _ _ _ _ => FileTree.addsDirectories_of_makeDirectory

/-- Making directories leaves every entry as it is. -/
theorem onlyAdds_makeDirectories (machine : Machine) (paths : List Path) :
    machine.OnlyAdds (Host.makeDirectories paths) := by
  obtain ⟨value, files, performed, added⟩ := onlyMakes_makeDirectories machine paths
  exact ⟨value, files, performed, added.extends⟩

/-- Behind the directories around it, a file is written with the files as they are then. -/
theorem perform_writeText_cases {path : Path} {made : Except FileError Unit} {files : FileTree}
    (performed : machine.perform (Host.makeDirectories (path.parent?.elim [] Path.ancestors)) =
      (.ok made, machine.withFiles files)) (text : String) :
    ∃ result written, machine.perform (Host.writeText path text) =
        (.ok result, machine.withFiles written) ∧
      (result = .ok () ∧ made = .ok () ∧
          files.write machine.directory path text.toUTF8 = .ok written ∨
        ∃ error, result = .error error ∧ written = files ∧
          (made = .ok () → files.write machine.directory path text.toUTF8 = .error error)) := by
  rw [Host.writeText, Host.writeContents, perform_bind_ok performed]
  cases made with
  | error error => exact ⟨.error error, files, rfl, .inr ⟨error, rfl, rfl, by simp⟩⟩
  | ok =>
    change ∃ result written, (machine.withFiles files).perform (Host.write path text.toUTF8) =
      (.ok result, machine.withFiles written) ∧ _
    rw [perform_write]
    cases attempt : files.write machine.directory path text.toUTF8 with
    | error error =>
      refine ⟨.error error, files, ?_, .inr ⟨error, rfl, rfl, fun _ => rfl⟩⟩
      rw [update_error attempt]
      rfl
    | ok written =>
      refine ⟨.ok (), written, ?_, .inl ⟨rfl, rfl, rfl⟩⟩
      rw [update_ok attempt]
      rfl

/-- A path leads to the file at a location once the directories around it are made. -/
def LeadsOnceMade (machine : Machine) (path : Path) (location : Location) : Prop :=
  ∃ made contents, machine.perform (Host.makeDirectories (path.parent?.elim [] Path.ancestors)) =
      (.ok (.ok ()), made) ∧
    made.files.resolve made.directory path = .ok (.entry location (.file contents))

theorem LeadsOnceMade.location? {path : Path} {location : Location}
    (h : machine.LeadsOnceMade path location) :
    machine.files.location? machine.directory path = some location ∨
      machine.files.location? machine.directory path = none := by
  obtain ⟨made, contents, performed, resolved⟩ := h
  obtain ⟨result, files, performed', extended⟩ := onlyAdds_makeDirectories machine
    (path.parent?.elim [] Path.ancestors)
  rw [performed] at performed'
  obtain ⟨-, rfl⟩ := Prod.mk.inj performed'
  cases before : machine.files.location? machine.directory path with
  | none => exact .inr rfl
  | some other =>
    have still : files.location? machine.directory path = some other :=
      FileTree.location?_of_extends extended before
    have found : files.location? machine.directory path = some location :=
      FileTree.location?_eq_some_iff.mpr ⟨_, resolved⟩
    exact .inl (still.symm.trans found)

variable {path : Path} {text : String} {location : Location} {old : ByteArray}

/-- Writing a text to a path that leads to a file, once the directories around it are made. -/
theorem perform_writeText_of_leads (leads : machine.LeadsOnceMade path location) :
    ∃ files, machine.perform (Host.writeText path text) = (.ok (.ok ()), machine.withFiles files) ∧
      files.node? location = some (.file text.toUTF8) := by
  obtain ⟨made, contents, performed, resolved⟩ := leads
  obtain ⟨result, files, performed', extended⟩ := onlyAdds_makeDirectories machine
    (path.parent?.elim [] Path.ancestors)
  obtain ⟨done, rfl⟩ := Prod.mk.inj (performed.symm.trans performed')
  cases done
  have named := (FileTree.node?_of_resolve resolved).1
  have attempt : files.write machine.directory path text.toUTF8 =
      .ok (files.put location (.file text.toUTF8)) :=
    FileTree.write_of_resolve resolved
  obtain ⟨result, written, wrote, ⟨rfl, -, success⟩ | ⟨error, -, -, failure⟩⟩ :=
    perform_writeText_cases performed' text
  · cases attempt.symm.trans success
    exact ⟨_, wrote, FileTree.node?_put_self named⟩
  · cases attempt.symm.trans (failure rfl)

/-- Writing a text to a path that does not lead to a file, not even once directories are made. -/
theorem perform_writeText_of_not_leads (present : machine.files.node? location = some (.file old))
    (leads : ¬ machine.LeadsOnceMade path location) :
    ∃ result files, machine.perform (Host.writeText path text) =
        (.ok result, machine.withFiles files) ∧
      files.node? location = some (.file old) := by
  obtain ⟨made, files, performed, extended⟩ := onlyAdds_makeDirectories machine
    (path.parent?.elim [] Path.ancestors)
  have still := extended _ _ present
  obtain ⟨result, written, wrote, ⟨rfl, rfl, success⟩ | ⟨error, -, rfl, -⟩⟩ :=
    perform_writeText_cases performed text
  · obtain ⟨place, rfl, target⟩ := FileTree.write_cases success
    have elsewhere : location ≠ place := by
      rintro rfl
      rcases target with ⟨contents, resolved⟩ | absent
      · exact leads ⟨_, contents, performed, resolved⟩
      · rw [absent] at still
        cases still
    exact ⟨_, _, wrote, (FileTree.node?_put_of_ne elsewhere).trans still⟩
  · exact ⟨_, _, wrote, still⟩

end Machine

end TinyScript
