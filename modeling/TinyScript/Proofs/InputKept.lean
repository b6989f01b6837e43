import TinyScript.Proofs.EmittedTexts
import TinyScript.Proofs.FileFrames

/-!
# What a run does to its input

A run reads its settings and its input, and then writes to at most two paths. It refuses to write
the C++ text to a path that leads to the input, but it looks where the path leads before the
directories around it are made, and it does not look where the path of the tree leads. The input is
overwritten exactly if one of these two gaps is hit: then it holds a text that is no program.
-/

namespace TinyScript

/-! ## Parts of a run that only read -/

namespace Machine

variable {α β : Type} {machine : Machine} {part : ExceptT RunError (StateM Machine) α}
  {more : α → ExceptT RunError (StateM Machine) β}

/-- A part of a run that leaves the machine as it is. -/
def OnlyReads (machine : Machine) (part : ExceptT RunError (StateM Machine) α) : Prop :=
  ∃ result, machine.perform part = (result, machine)

theorem OnlyReads.bind (h : machine.OnlyReads part)
    (goesOn : ∀ value, machine.OnlyReads (more value)) : machine.OnlyReads (part >>= more) := by
  obtain ⟨result, performed⟩ := h
  cases result with
  | error error => exact ⟨.error error, perform_bind_error performed⟩
  | ok value =>
    obtain ⟨last, goes⟩ := goesOn value
    exact ⟨last, (perform_bind_ok performed).trans goes⟩

theorem onlyReads_readText (machine : Machine) (path : Path) :
    machine.OnlyReads (Host.readText path) := by
  refine OnlyReads.bind ⟨_, perform_read path⟩ ?_
  intro contents
  cases contents <;> exact ⟨_, rfl⟩

theorem onlyReads_loadFrom (machine : Machine) (reader : Settings.Reader) (path : Path) :
    machine.OnlyReads (Settings.loadFrom path reader) := by
  refine (onlyReads_readText machine path).bind ?_
  intro source
  cases source <;> exact ⟨_, rfl⟩

theorem onlyReads_loadSettings (machine : Machine) (invocation : Invocation)
    (reader : Settings.Reader) : machine.OnlyReads (invocation.loadSettings reader) := by
  unfold Invocation.loadSettings
  cases invocation.config with
  | some path =>
    refine (onlyReads_loadFrom machine reader path).bind ?_
    intro settings
    cases settings <;> exact ⟨_, rfl⟩
  | none =>
    have asked : machine.perform (Host.home? (m := ExceptT RunError (StateM Machine))) =
        (.ok machine.home, machine) := rfl
    refine OnlyReads.bind ⟨_, asked⟩ ?_
    intro home
    cases home with
    | none => exact ⟨_, rfl⟩
    | some home =>
      refine (onlyReads_loadFrom machine reader _).bind ?_
      intro settings
      cases settings <;> exact ⟨_, rfl⟩

theorem onlyReads_readInput (machine : Machine) (invocation : Invocation) :
    machine.OnlyReads invocation.readInput := by
  refine (onlyReads_readText machine invocation.input).bind ?_
  intro source
  cases source <;> exact ⟨_, rfl⟩

end Machine

theorem fromUTF8?_toUTF8 (text : String) : String.fromUTF8? text.toUTF8 = some text :=
  dif_pos text.isValidUTF8

theorem toUTF8_of_fromUTF8? {contents : ByteArray} {text : String}
    (h : String.fromUTF8? contents = some text) : text.toUTF8 = contents := by
  unfold String.fromUTF8? at h
  split at h
  · cases h
    rfl
  · cases h

namespace Invocation

variable {invocation : Invocation} {reader : Settings.Reader} {machine : Machine}
  {location : Location} {contents : ByteArray} {settings : Settings} {source cpp : String}
  {program : Program}

/-- All that comes before the first write has succeeded. -/
structure Prepared (invocation : Invocation) (reader : Settings.Reader) (machine : Machine)
    (settings : Settings) (source : String) (program : Program) (cpp : String) : Prop where
  loaded : machine.perform (invocation.loadSettings reader) = (.ok settings, machine)
  read : machine.perform invocation.readInput = (.ok source, machine)
  parsed : Program.parse source = .ok program
  goesOn : invocation.astOnly = false
  emitted : Cpp.emit settings.indent program = .ok cpp

theorem perform_run_of_prepared
    (h : invocation.Prepared reader machine settings source program cpp) :
    machine.perform (invocation.run reader) = machine.perform (do
      invocation.deliver settings cpp
      invocation.deliverAst settings program.toJsonText) := by
  rw [run, Machine.perform_bind_ok h.loaded, Machine.perform_bind_ok h.read, h.parsed, h.goesOn]
  change machine.perform (MonadExcept.ofExcept ((Cpp.emit settings.indent program).mapError
    (RunError.emit invocation.input)) >>= _) = _
  rw [h.emitted]
  rfl

/-- A run that stops before the first write leaves all files as they are. -/
theorem files_run_of_not_prepared
    (h : ∀ settings source program cpp,
      ¬ invocation.Prepared reader machine settings source program cpp) :
    (machine.perform (invocation.run reader)).2.files = machine.files := by
  obtain ⟨settings, loaded⟩ := machine.onlyReads_loadSettings invocation reader
  obtain ⟨source, read⟩ := machine.onlyReads_readInput invocation
  cases settings with
  | error error => rw [run, Machine.perform_bind_error loaded]
  | ok settings =>
    cases source with
    | error error => rw [run, Machine.perform_bind_ok loaded, Machine.perform_bind_error read]
    | ok source =>
      rw [run, Machine.perform_bind_ok loaded, Machine.perform_bind_ok read]
      cases parsed : Program.parse source with
      | error error => rfl
      | ok program =>
        cases only : invocation.astOnly with
        | true => rfl
        | false =>
          cases emitted : Cpp.emit settings.indent program with
          | ok cpp => exact absurd ⟨loaded, read, parsed, only, emitted⟩ (h _ _ _ _)
          | error error =>
            change (machine.perform (MonadExcept.ofExcept ((Cpp.emit settings.indent
              program).mapError (RunError.emit invocation.input)) >>= _)).2.files = _
            rw [emitted]
            rfl

/-! ## What is written -/

/-- The status line changes no files. -/
theorem perform_status (invocation : Invocation) (machine : Machine) (line : String) :
    ∃ behind, machine.perform (invocation.status line) = (.ok (), behind) ∧
      behind.files = machine.files := by
  unfold status
  cases invocation.quiet <;> exact ⟨_, rfl, rfl⟩

/-- Writing to a path that leads to a file, and saying so, gives the file the text. -/
theorem perform_writeFile_of_leads {path : Path} {text line : String}
    (leads : machine.LeadsOnceMade path location) :
    ∃ behind, machine.perform (do writeFile path text; invocation.status line) =
        (.ok (), behind) ∧
      behind.files.node? location = some (.file text.toUTF8) := by
  obtain ⟨files, written, present⟩ := Machine.perform_writeText_of_leads leads
  have performed : machine.perform (writeFile path text) = (.ok (), machine.withFiles files) := by
    rw [writeFile, Machine.perform_bind_ok written]
    rfl
  obtain ⟨behind, said, same⟩ := perform_status invocation (machine.withFiles files) line
  refine ⟨behind, (Machine.perform_bind_ok performed).trans said, ?_⟩
  rw [same]
  exact present

theorem node?_writeFile_of_leads {path : Path} {text line : String}
    (leads : machine.LeadsOnceMade path location) :
    (machine.perform (do writeFile path text; invocation.status line)).2.files.node? location =
      some (.file text.toUTF8) := by
  obtain ⟨behind, performed, present⟩ := perform_writeFile_of_leads leads
  rw [performed]
  exact present

/-- Writing to a path that leads elsewhere keeps the file. -/
theorem node?_writeFile_of_not_leads {path : Path} {text line : String}
    (present : machine.files.node? location = some (.file contents))
    (leads : ¬ machine.LeadsOnceMade path location) :
    (machine.perform (do writeFile path text; invocation.status line)).2.files.node? location =
      some (.file contents) := by
  obtain ⟨result, files, written, still⟩ :=
    Machine.perform_writeText_of_not_leads present leads
  cases result with
  | error error =>
    have performed : machine.perform (writeFile path text) =
        (.error (.write path error), machine.withFiles files) := by
      rw [writeFile, Machine.perform_bind_ok written]
      rfl
    rw [Machine.perform_bind_error performed]
    exact still
  | ok =>
    have performed : machine.perform (writeFile path text) = (.ok (), machine.withFiles files) := by
      rw [writeFile, Machine.perform_bind_ok written]
      rfl
    obtain ⟨behind, said, same⟩ := perform_status invocation (machine.withFiles files) line
    rw [Machine.perform_bind_ok performed, said, same]
    exact still

/-- The C++ text goes to a path that leads nowhere yet, but to the file at the location once the
    directories around it are made. -/
def CppLands (invocation : Invocation) (machine : Machine) (settings : Settings)
    (location : Location) : Prop :=
  invocation.stdout = false ∧ ∃ output, invocation.outputPath settings = .ok output ∧
    machine.files.location? machine.directory output = none ∧
    machine.LeadsOnceMade output location

theorem perform_isSameFile {input : Path} (output : Path)
    (found : machine.files.location? machine.directory input = some location) :
    machine.perform (Host.isSameFile output input) =
      (.ok (decide (machine.files.location? machine.directory output = some location)),
        machine) := by
  have first : machine.perform (Host.location? output) =
      (.ok (machine.files.location? machine.directory output), machine) := rfl
  have second : machine.perform (Host.location? input) =
      (.ok (machine.files.location? machine.directory input), machine) := rfl
  rw [Host.isSameFile, Machine.perform_bind_ok first, Machine.perform_bind_ok second, found]
  cases machine.files.location? machine.directory output with
  | none => rfl
  | some place =>
    simp only [Option.some.injEq]
    rfl

section Deliver

variable (input : machine.files.resolve machine.directory invocation.input =
  .ok (.entry location (.file contents)))
include input

/-- Where the C++ text lands on the input, delivering it succeeds. -/
theorem perform_deliver_of_lands (lands : invocation.CppLands machine settings location) :
    ∃ behind, machine.perform (invocation.deliver settings cpp) = (.ok (), behind) ∧
      behind.files.node? location = some (.file cpp.toUTF8) := by
  obtain ⟨toFile, output, path, nowhere, leads⟩ := lands
  have found := FileTree.location?_eq_some_iff.mpr ⟨_, input⟩
  have same := perform_isSameFile output found
  rw [nowhere] at same
  unfold deliver
  rw [toFile, path]
  change ∃ behind, machine.perform (Host.isSameFile output invocation.input >>= _) = _ ∧ _
  rw [Machine.perform_bind_ok same]
  exact perform_writeFile_of_leads leads

/-- Elsewhere delivering the C++ text keeps the input. -/
theorem node?_deliver_of_not_lands (lands : ¬ invocation.CppLands machine settings location) :
    (machine.perform (invocation.deliver settings cpp)).2.files.node? location =
      some (.file contents) := by
  have present := (FileTree.node?_of_resolve input).2
  have found := FileTree.location?_eq_some_iff.mpr ⟨_, input⟩
  unfold deliver
  cases toFile : invocation.stdout with
  | true => exact present
  | false =>
    cases path : invocation.outputPath settings with
    | error error => exact present
    | ok output =>
      have same := perform_isSameFile output found
      change (machine.perform (Host.isSameFile output invocation.input >>= _)).2.files.node? _ = _
      rw [Machine.perform_bind_ok same]
      by_cases there : machine.files.location? machine.directory output = some location
      · rw [decide_eq_true there]
        exact present
      · rw [decide_eq_false there]
        refine node?_writeFile_of_not_leads present ?_
        intro leads
        rcases leads.location? with before | nowhere
        · exact there before
        · exact lands ⟨toFile, output, path, nowhere, leads⟩

end Deliver

/-- The tree is asked for, and its path leads to the file at a location once the directories around
    it are made. -/
def AstLands (invocation : Invocation) (machine : Machine) (settings : Settings)
    (location : Location) : Prop :=
  (invocation.emitAst || settings.emitAst) = true ∧
    machine.LeadsOnceMade (astPath invocation.input settings.astSuffix) location

theorem deliverAst_of_asked {ast : String}
    (asked : (invocation.emitAst || settings.emitAst) = true) :
    (invocation.deliverAst settings ast : ExceptT RunError (StateM Machine) Unit) = (do
      writeFile (astPath invocation.input settings.astSuffix) ast
      invocation.status
        ("AST saved to " ++ (astPath invocation.input settings.astSuffix).text)) := by
  rw [deliverAst, if_pos asked]

theorem node?_deliverAst_of_lands {ast : String}
    (lands : invocation.AstLands machine settings location) :
    (machine.perform (invocation.deliverAst settings ast)).2.files.node? location =
      some (.file ast.toUTF8) := by
  obtain ⟨asked, leads⟩ := lands
  rw [deliverAst_of_asked asked]
  exact node?_writeFile_of_leads leads

theorem node?_deliverAst_of_not_lands {ast : String}
    (present : machine.files.node? location = some (.file contents))
    (lands : ¬ invocation.AstLands machine settings location) :
    (machine.perform (invocation.deliverAst settings ast)).2.files.node? location =
      some (.file contents) := by
  by_cases asked : (invocation.emitAst || settings.emitAst) = true
  · rw [deliverAst_of_asked asked]
    refine node?_writeFile_of_not_leads present ?_
    intro leads
    exact lands ⟨asked, leads⟩
  · rw [deliverAst, if_neg asked]
    exact present

/-! ## The input -/

/-- A run writes to its input: the C++ text of a program that is not empty, or the tree. -/
inductive Overwrites (invocation : Invocation) (reader : Settings.Reader) (machine : Machine)
    (location : Location) : Prop
  | cpp {settings : Settings} {source : String} {program : Program} {cpp : String}
      (prepared : invocation.Prepared reader machine settings source program cpp)
      (lands : invocation.CppLands machine settings location) (nonempty : source ≠ "")
  | ast {settings : Settings} {source : String} {program : Program} {cpp : String}
      {behind : Machine} (prepared : invocation.Prepared reader machine settings source program cpp)
      (delivered : machine.perform (invocation.deliver settings cpp) = (.ok (), behind))
      (lands : invocation.AstLands behind settings location)

theorem perform_readText_of_resolve {path : Path}
    (resolved : machine.files.resolve machine.directory path =
      .ok (.entry location (.file contents))) :
    machine.perform (Host.readText path) =
      (.ok ((String.fromUTF8? contents).elim (.error .notText) .ok), machine) := by
  have bytes : machine.files.read machine.directory path = .ok contents := by
    rw [FileTree.read, resolved]
    rfl
  rw [Host.readText, Machine.perform_bind_ok (Machine.perform_read path), bytes]
  rfl

/-- The source that is read has the bytes of the input. -/
theorem Prepared.toUTF8 (h : invocation.Prepared reader machine settings source program cpp)
    (input : machine.files.resolve machine.directory invocation.input =
      .ok (.entry location (.file contents))) : source.toUTF8 = contents := by
  have read := h.read
  rw [readInput, Machine.perform_bind_ok (perform_readText_of_resolve input)] at read
  cases decoded : String.fromUTF8? contents with
  | none =>
    rw [decoded] at read
    cases read
  | some text =>
    rw [decoded] at read
    cases read
    exact toUTF8_of_fromUTF8? decoded

theorem Prepared.cpp_eq_iff (h : invocation.Prepared reader machine settings source program cpp)
    (input : machine.files.resolve machine.directory invocation.input =
      .ok (.entry location (.file contents))) : cpp.toUTF8 = contents ↔ source = "" := by
  have same : Cpp.emit settings.indent program = .ok source ↔ source = "" :=
    Cpp.emit_eq_source_iff h.parsed
  rw [← same, h.emitted, Except.ok.injEq, ← h.toUTF8 input]
  exact String.toByteArray_inj

theorem Prepared.ast_ne (h : invocation.Prepared reader machine settings source program cpp)
    (input : machine.files.resolve machine.directory invocation.input =
      .ok (.entry location (.file contents))) : program.toJsonText.toUTF8 ≠ contents := by
  intro same
  rw [← h.toUTF8 input] at same
  have text : program.toJsonText = source := String.toByteArray_inj.mp same
  apply Program.parse_toJsonText_ne_ok program program
  rw [text]
  exact h.parsed

/-- Delivering the C++ text and the tree gives the input other contents if one of them lands
    there. -/
theorem Overwrites.changes (h : invocation.Overwrites reader machine location)
    (input : machine.files.resolve machine.directory invocation.input =
      .ok (.entry location (.file contents))) :
    (machine.perform (invocation.run reader)).2.files.node? location ≠ some (.file contents) := by
  cases h with
  | @cpp settings source program cpp prepared lands nonempty =>
    obtain ⟨behind, delivered, landed⟩ := perform_deliver_of_lands input lands
    rw [perform_run_of_prepared prepared, Machine.perform_bind_ok delivered]
    by_cases astLands : invocation.AstLands behind settings location
    · rw [node?_deliverAst_of_lands astLands]
      intro same
      exact prepared.ast_ne input (FileNode.file.inj (Option.some.inj same))
    · rw [node?_deliverAst_of_not_lands landed astLands]
      intro same
      exact nonempty ((prepared.cpp_eq_iff input).mp (FileNode.file.inj (Option.some.inj same)))
  | @ast settings source program cpp behind prepared delivered lands =>
    rw [perform_run_of_prepared prepared, Machine.perform_bind_ok delivered,
      node?_deliverAst_of_lands lands]
    intro same
    exact prepared.ast_ne input (FileNode.file.inj (Option.some.inj same))

/-- The input is kept exactly if the run does not write to it, whatever reads the settings. -/
theorem run_keeps_input_iff (reader : Settings.Reader)
    (input : machine.files.resolve machine.directory invocation.input =
      .ok (.entry location (.file contents))) :
    (machine.perform (invocation.run reader)).2.files.node? location = some (.file contents) ↔
      ¬ invocation.Overwrites reader machine location := by
  constructor
  · intro kept overwrites
    exact overwrites.changes input kept
  · intro spared
    by_cases prepared : ∃ settings source program cpp,
        invocation.Prepared reader machine settings source program cpp
    · obtain ⟨settings, source, program, cpp, prepared⟩ := prepared
      rw [perform_run_of_prepared prepared]
      have kept : (machine.perform (invocation.deliver settings cpp)).2.files.node? location =
          some (.file contents) := by
        by_cases lands : invocation.CppLands machine settings location
        · -- Only an empty text is written over itself.
          have empty : source = "" := by
            by_contra nonempty
            exact spared (.cpp prepared lands nonempty)
          obtain ⟨behind, delivered, landed⟩ := perform_deliver_of_lands input lands
          rw [delivered, landed, (prepared.cpp_eq_iff input).mpr empty]
        · exact node?_deliver_of_not_lands input lands
      cases delivered : machine.perform (invocation.deliver settings cpp) with
      | mk result behind =>
        rw [delivered] at kept
        cases result with
        | error error =>
          rw [Machine.perform_bind_error delivered]
          exact kept
        | ok =>
          rw [Machine.perform_bind_ok delivered]
          refine node?_deliverAst_of_not_lands kept ?_
          intro lands
          exact spared (.ast prepared delivered lands)
    · rw [files_run_of_not_prepared (by simpa using prepared)]
      exact (FileTree.node?_of_resolve input).2

/-- A machine whose only file holds a declaration. -/
def exampleMachine : Machine where
  files := ⟨[(["a"], .file "let a: string = b;".toUTF8)]⟩
  directory := []
  home := none

/-- The directory in the path of the output is made after it was found that the path does not lead
    to the input. -/
theorem run_keeps_input_iff_missing_directory :
    exampleMachine.files.resolve exampleMachine.directory ⟨"a"⟩ =
      .ok (.entry ["a"] (.file "let a: string = b;".toUTF8)) ∧
    (exampleMachine.perform (Invocation.run { input := ⟨"a"⟩, output := some ⟨"n/../a"⟩ }
      Settings.ofText)).2.files.node? ["a"] ≠ some (.file "let a: string = b;".toUTF8) := by
  have inputNames : FileTree.namesOf ⟨"a"⟩ = ["a"] := by
    simp [FileTree.namesOf, Path.endsInSlash, Path.steps, Path.segments, Path.segmentsOf]
  have outputNames : FileTree.namesOf ⟨"n/../a"⟩ = ["n", "..", "a"] := by
    simp [FileTree.namesOf, Path.endsInSlash, Path.steps, Path.segments, Path.segmentsOf]
  have around : (Path.mk "n/../a").parent?.elim [] Path.ancestors = [⟨"n/.."⟩, ⟨"n"⟩] := by
    cbv
  have input : exampleMachine.files.resolve exampleMachine.directory ⟨"a"⟩ =
      .ok (.entry ["a"] (.file "let a: string = b;".toUTF8)) := by
    rw [FileTree.resolve, inputNames]
    rfl
  have nowhere : exampleMachine.files.location? exampleMachine.directory ⟨"n/../a"⟩ = none := by
    rw [FileTree.location?, FileTree.resolve, outputNames]
    rfl
  have made (contents : ByteArray) :
      (Machine.mk ⟨[(["a"], .file contents)]⟩ [] none "" "").perform
        (Host.makeDirectories [⟨"n/.."⟩, ⟨"n"⟩]) =
      (.ok (.ok ()),
        Machine.mk ⟨[(["n"], .directory), (["a"], .file contents)]⟩ [] none "" "") := by
    cbv
  have leads : exampleMachine.LeadsOnceMade ⟨"n/../a"⟩ ["a"] := by
    refine ⟨_, "let a: string = b;".toUTF8, by rw [around]; exact made _, ?_⟩
    rw [FileTree.resolve, outputNames]
    rfl
  have prepared : Invocation.Prepared { input := ⟨"a"⟩, output := some ⟨"n/../a"⟩ }
      Settings.ofText exampleMachine {} "let a: string = b;"
      ⟨[.variableDeclaration "a" "string" (.identifier "b")]⟩
      "#include <string>\n\nstd::string a = b;\n" := by
    refine ⟨rfl, ?_, by cbv, rfl, by cbv⟩
    rw [readInput, Machine.perform_bind_ok (perform_readText_of_resolve input), fromUTF8?_toUTF8]
    rfl
  refine ⟨input, ?_⟩
  intro kept
  exact (run_keeps_input_iff Settings.ofText input).mp kept
    (.cpp prepared ⟨rfl, _, rfl, nowhere, leads⟩ (by decide))

end Invocation

end TinyScript
