import TinyScript.Proofs.FailedRuns

/-!
# What a run delivers

A run that succeeds has compiled its input as it was before the run. The C++ text is printed, or the
file at its path holds it, and the file at the path of the tree holds the tree if that is asked for.
The tree is written last, so that nothing can replace it, whereas it replaces the C++ text if both
paths lead to one file.
-/

namespace TinyScript

theorem eq_ok_of_mapError {α ε ε' : Type} {attempt : Except ε α} {change : ε → ε'} {value : α}
    (h : attempt.mapError change = .ok value) : attempt = .ok value := by
  cases attempt with
  | error error => cases h
  | ok found =>
    cases h
    rfl

namespace Machine

variable {α β : Type} {machine behind : Machine} {part : ExceptT RunError (StateM Machine) α}
  {more : α → ExceptT RunError (StateM Machine) β}

/-- A part of a run succeeds only if its steps do, one after the other. -/
theorem perform_bind_eq_ok {value : β}
    (h : machine.perform (part >>= more) = (.ok value, behind)) :
    ∃ first mid, machine.perform part = (.ok first, mid) ∧
      mid.perform (more first) = (.ok value, behind) := by
  cases performed : machine.perform part with
  | mk result mid =>
    cases result with
    | error error =>
      rw [perform_bind_error performed] at h
      cases h
    | ok first =>
      rw [perform_bind_ok performed] at h
      exact ⟨first, mid, rfl, h⟩

theorem perform_bind_eq_ok_of_reads {value : β} {result : Except RunError α}
    (reads : machine.perform part = (result, machine))
    (h : machine.perform (part >>= more) = (.ok value, behind)) :
    ∃ first, result = .ok first ∧ machine.perform (more first) = (.ok value, behind) := by
  obtain ⟨first, mid, performed, goes⟩ := perform_bind_eq_ok h
  obtain ⟨rfl, rfl⟩ := Prod.mk.inj (reads.symm.trans performed)
  exact ⟨first, rfl, goes⟩

theorem perform_ofExcept (machine : Machine) (attempt : Except RunError α) :
    machine.perform (MonadExcept.ofExcept attempt) = (attempt, machine) := by
  cases attempt <;> rfl

end Machine

namespace Invocation

variable {invocation : Invocation} {reader : Settings.Reader} {machine behind : Machine}
  {settings : Settings} {source cpp ast text line : String} {program : Program} {path : Path}

/-- A run that succeeds has got past all that comes before the first write. -/
theorem prepared_of_run (succeeded : machine.perform (invocation.run reader) = (.ok (), behind))
    (goesOn : invocation.astOnly = false) :
    ∃ settings source program cpp, invocation.Prepared reader machine settings source program cpp ∧
      invocation.settingsOn reader machine = .ok settings ∧
      machine.textAt invocation.input = .ok source := by
  rw [run] at succeeded
  obtain ⟨settings, loaded, afterSettings⟩ :=
    Machine.perform_bind_eq_ok_of_reads (perform_loadSettings invocation reader machine) succeeded
  obtain ⟨source, read, afterInput⟩ :=
    Machine.perform_bind_eq_ok_of_reads (perform_readInput invocation machine) afterSettings
  obtain ⟨program, parsed, afterParsing⟩ :=
    Machine.perform_bind_eq_ok_of_reads (machine.perform_ofExcept _) afterInput
  rw [goesOn] at afterParsing
  obtain ⟨cpp, emitted, -⟩ :=
    Machine.perform_bind_eq_ok_of_reads (machine.perform_ofExcept _) afterParsing
  refine ⟨settings, source, program, cpp, ⟨?_, ?_, eq_ok_of_mapError parsed, goesOn,
    eq_ok_of_mapError emitted⟩, loaded, eq_ok_of_mapError read⟩
  · rw [perform_loadSettings, loaded]
  · rw [perform_readInput, read]

theorem Prepared.compile_eq (h : invocation.Prepared reader machine settings source program cpp) :
    compile settings.indent source = .ok cpp := by
  rw [compile, h.parsed]
  change (Cpp.emit settings.indent program).mapError _ = _
  rw [h.emitted]
  rfl

/-! ## Files and lines -/

/-- What a status line adds to the output. -/
def said (invocation : Invocation) (line : String) : String :=
  if invocation.quiet then "" else line ++ "\n"

theorem perform_status_eq (invocation : Invocation) (machine : Machine) (line : String) :
    machine.perform (invocation.status line) =
      (.ok (), { machine with output := machine.output ++ invocation.said line }) := by
  unfold status said
  cases invocation.quiet with
  | false => rfl
  | true =>
    rw [if_pos rfl, if_pos rfl, String.append_empty]
    rfl

/-- Behind a file that is written without failure comes its status line. -/
theorem holds_of_writeFile
    (h : machine.perform (do writeFile path text; invocation.status line) = (.ok (), behind)) :
    behind.Holds path text ∧ behind.output = machine.output ++ invocation.said line := by
  obtain ⟨_, mid, writing, saying⟩ := Machine.perform_bind_eq_ok h
  obtain ⟨result, files, performed, -, holds⟩ := machine.perform_writeText path text
  rw [writeFile, Machine.perform_bind_ok performed] at writing
  rw [perform_status_eq] at saying
  obtain ⟨-, rfl⟩ := Prod.mk.inj saying
  cases result with
  | error error => cases writing
  | ok =>
    obtain ⟨-, rfl⟩ := Prod.mk.inj writing
    exact ⟨holds rfl, rfl⟩

/-- Writing a file into a directory that is there, and saying so. -/
theorem perform_writeFile_of_write {files : FileTree}
    (around : path.parent?.elim [] Path.ancestors = [])
    (written : machine.files.write machine.directory path text.toUTF8 = .ok files) :
    machine.perform (do writeFile path text; invocation.status line) =
      (.ok (), { machine with files, output := machine.output ++ invocation.said line }) := by
  have performed : machine.perform (writeFile path text) = (.ok (), machine.withFiles files) := by
    have made : machine.perform (Host.write path text.toUTF8) =
        (.ok (.ok ()), machine.withFiles files) := by
      rw [Machine.perform_write, Machine.update_ok written]
      rfl
    rw [writeFile, Host.writeText, Host.writeContents, around]
    exact (Machine.perform_bind_ok made).trans rfl
  rw [Machine.perform_bind_ok performed, perform_status_eq]
  rfl

theorem mem_astTargets_iff : path ∈ invocation.astTargets settings ↔
    (invocation.emitAst || settings.emitAst) = true ∧
      path = astPath invocation.input settings.astSuffix := by
  unfold astTargets
  cases invocation.emitAst || settings.emitAst <;> simp

/-- The tree is in its file once it is delivered, and a quiet run does not speak of it. -/
theorem deliverAst_ok
    (h : machine.perform (invocation.deliverAst settings ast) = (.ok (), behind)) :
    ((invocation.emitAst || settings.emitAst) = true →
      behind.Holds (astPath invocation.input settings.astSuffix) ast) ∧
    (invocation.quiet = true → behind.output = machine.output) := by
  by_cases asked : (invocation.emitAst || settings.emitAst) = true
  · rw [deliverAst_of_asked asked] at h
    obtain ⟨holds, output⟩ := holds_of_writeFile h
    refine ⟨fun _ => holds, ?_⟩
    intro quiet
    rw [output, said, if_pos quiet, String.append_empty]
  · rw [deliverAst, if_neg asked] at h
    obtain ⟨-, rfl⟩ := Prod.mk.inj h
    exact ⟨fun askedFor => absurd askedFor asked, fun _ => rfl⟩

/-- Delivering the tree leaves a text in its file unless the tree goes to the same file. -/
theorem holds_of_deliverAst (held : machine.Holds path text)
    (h : machine.perform (invocation.deliverAst settings ast) = (.ok (), behind)) :
    behind.Holds path text ∨ (invocation.emitAst || settings.emitAst) = true ∧
      ∃ location, behind.place? path = some location ∧
        behind.place? (astPath invocation.input settings.astSuffix) = some location := by
  have written := writesTo_deliverAst invocation machine settings ast
  rw [Machine.WritesTo, h] at written
  rcases written.holds held with kept | ⟨other, target, location, found, same⟩
  · exact .inl kept
  · obtain ⟨asked, rfl⟩ := mem_astTargets_iff.mp target
    exact .inr ⟨asked, location, found, same⟩

theorem deliver_ok_of_stdout (printed : invocation.stdout = true)
    (h : machine.perform (invocation.deliver settings cpp) = (.ok (), behind)) :
    behind.output = machine.output ++ cpp := by
  rw [deliver, if_pos printed] at h
  obtain ⟨-, rfl⟩ := Prod.mk.inj h
  rfl

/-- The C++ text is in its file once it is delivered there. -/
theorem deliver_ok_of_file (toFile : invocation.stdout = false)
    (read : machine.textAt invocation.input = .ok source)
    (h : machine.perform (invocation.deliver settings cpp) = (.ok (), behind)) :
    ∃ output, invocation.outputPath settings = .ok output ∧ behind.Holds output cpp := by
  obtain ⟨location, found⟩ := Machine.place?_of_textAt read
  cases path : invocation.outputPath settings with
  | error error =>
    unfold deliver at h
    rw [toFile, path] at h
    cases h
  | ok output =>
    refine ⟨output, rfl, ?_⟩
    rw [perform_deliver toFile path found] at h
    by_cases there : machine.place? output = some location
    · rw [if_pos there] at h
      cases h
    · rw [if_neg there] at h
      exact (holds_of_writeFile h).1

/-! ## Runs -/

/-- A run that succeeds, and does more than to print the tree, has compiled its input. Its C++
    text is in the file at its path, or on the output alone if it is to be printed quietly. The
    tree is in its file if it is asked for, where it takes the place of the C++ text if both go to
    one file. The settings are what the given reader finds. -/
theorem successful_run_delivers (reader : Settings.Reader)
    (succeeded : machine.perform (invocation.run reader) = (.ok (), behind))
    (goesOn : invocation.astOnly = false) :
    ∃ settings source program cpp, invocation.settingsOn reader machine = .ok settings ∧
      machine.textAt invocation.input = .ok source ∧ Program.parse source = .ok program ∧
      compile settings.indent source = .ok cpp ∧
      (invocation.stdout = false → ∃ output, invocation.outputPath settings = .ok output ∧
        (behind.Holds output cpp ∨ (invocation.emitAst || settings.emitAst) = true ∧
          ∃ location, behind.place? output = some location ∧
            behind.place? (astPath invocation.input settings.astSuffix) = some location)) ∧
      (invocation.stdout = true → invocation.quiet = true →
        behind.output = machine.output ++ cpp) ∧
      ((invocation.emitAst || settings.emitAst) = true →
        behind.Holds (astPath invocation.input settings.astSuffix) program.toJsonText) := by
  obtain ⟨settings, source, program, cpp, prepared, loaded, read⟩ :=
    prepared_of_run succeeded goesOn
  rw [perform_run_of_prepared prepared] at succeeded
  obtain ⟨_, mid, delivered, deliveredAst⟩ := Machine.perform_bind_eq_ok succeeded
  obtain ⟨astHolds, silent⟩ := deliverAst_ok deliveredAst
  refine ⟨settings, source, program, cpp, loaded, read, prepared.parsed, prepared.compile_eq,
    ?_, ?_, astHolds⟩
  · intro toFile
    obtain ⟨output, path, held⟩ := deliver_ok_of_file toFile read delivered
    exact ⟨output, path, holds_of_deliverAst held deliveredAst⟩
  · intro printed quiet
    rw [silent quiet, deliver_ok_of_stdout printed delivered]

/-- An invocation that asks for the C++ text and the tree, in files of their own. -/
def exampleInvocation : Invocation where
  input := ⟨"a"⟩
  output := some ⟨"b"⟩
  emitAst := true

/-- Neither file is there before the run. -/
theorem successful_run_delivers_both :
    ∃ behind, exampleMachine.perform (exampleInvocation.run Settings.ofText) = (.ok (), behind) ∧
      behind.Holds ⟨"b"⟩ "#include <string>\n\nstd::string a = b;\n" ∧
      behind.Holds ⟨"a-ast.json"⟩
        (Program.mk [.variableDeclaration "a" "string" (.identifier "b")]).toJsonText := by
  have names (name : String) (word : name = "a" ∨ name = "b" ∨ name = "a-ast.json") :
      FileTree.namesOf ⟨name⟩ = [name] := by
    rcases word with rfl | rfl | rfl <;>
      simp [FileTree.namesOf, Path.endsInSlash, Path.steps, Path.segments, Path.segmentsOf]
  have around (name : String) (word : name = "b" ∨ name = "a-ast.json") :
      (Path.mk name).parent?.elim [] Path.ancestors = [] := by
    rcases word with rfl | rfl <;>
      simp [Path.parent?, Path.splitLast?, Path.segments, Path.segmentsOf, Path.trim,
        Path.ofTrimmed, Path.empty, Path.ancestors, Path.ancestors.go]
  have astAt : astPath exampleInvocation.input "-ast.json" = ⟨"a-ast.json"⟩ := by
    have split : (Path.mk "a").splitName? = some ([], ['a']) := by cbv
    simp [exampleInvocation, astPath, Path.withFileName, Path.stem, split, Path.stemOf,
      Path.ofTrimmed, Path.trim, Path.join, Path.isAbsolute, Path.empty]
  have resolved : exampleMachine.files.resolve exampleMachine.directory ⟨"a"⟩ =
      .ok (.entry ["a"] (.file "let a: string = b;".toUTF8)) := by
    rw [FileTree.resolve, names "a" (by decide)]
    rfl
  have read : exampleMachine.textAt exampleInvocation.input = .ok "let a: string = b;" :=
    Machine.textAt_of_resolve resolved (fromUTF8?_toUTF8 _)
  have parsed : Program.parse "let a: string = b;" =
      .ok ⟨[.variableDeclaration "a" "string" (.identifier "b")]⟩ := by cbv
  have emitted : Cpp.emit Cpp.defaultIndent
      ⟨[.variableDeclaration "a" "string" (.identifier "b")]⟩ =
      .ok "#include <string>\n\nstd::string a = b;\n" := by cbv
  have prepared : exampleInvocation.Prepared Settings.ofText exampleMachine {} _ _ _ :=
    ⟨rfl, by rw [perform_readInput, read]; rfl, parsed, rfl, emitted⟩
  have nowhere : exampleMachine.place? ⟨"b"⟩ = none := by
    rw [Machine.place?, FileTree.location?, FileTree.resolve, names "b" (by decide)]
    rfl
  have delivered : exampleMachine.perform (exampleInvocation.deliver {}
      "#include <string>\n\nstd::string a = b;\n") = _ :=
    perform_deliver rfl rfl (FileTree.location?_eq_some_iff.mpr ⟨_, resolved⟩)
  rw [nowhere, if_neg (by simp), perform_writeFile_of_write (around "b" (by decide))
    (by rw [FileTree.write, names "b" (by decide)]; rfl)] at delivered
  have succeeded := perform_run_of_prepared prepared
  rw [Machine.perform_bind_ok delivered, deliverAst_of_asked rfl, astAt,
    perform_writeFile_of_write (around "a-ast.json" (by decide))
      (by rw [FileTree.write, names "a-ast.json" (by decide)]; rfl)] at succeeded
  obtain ⟨settings, source, program, cpp, loaded, source_eq, program_eq, cpp_eq, inFile, -, tree⟩ :=
    successful_run_delivers Settings.ofText succeeded rfl
  obtain rfl : {} = settings := Except.ok.inj loaded
  obtain rfl := Except.ok.inj (read.symm.trans source_eq)
  obtain rfl := Except.ok.inj (parsed.symm.trans program_eq)
  obtain rfl := Except.ok.inj (prepared.compile_eq.symm.trans cpp_eq)
  rw [astAt] at inFile tree
  refine ⟨_, succeeded, ?_, tree rfl⟩
  obtain ⟨output, path, held | ⟨-, location, there, same⟩⟩ := inFile rfl
  · obtain rfl : ⟨"b"⟩ = output := Except.ok.inj path
    exact held
  · obtain rfl : ⟨"b"⟩ = output := Except.ok.inj path
    rw [Machine.place?, FileTree.location?, FileTree.resolve, names _ (by decide)] at there same
    have apart : some ["b"] = some ["a-ast.json"] := there.trans same.symm
    exact absurd apart (by decide)

end Invocation

end TinyScript
