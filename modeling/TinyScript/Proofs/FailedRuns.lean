import TinyScript.Proofs.InputKept
import TinyScript.Proofs.WrittenFiles

/-!
# Runs that fail, and what runs write

Before it writes, a run goes through five stages, each of which may fail on its own account. The
run fails with the error of the first stage that does, and then the machine is as it was. Only a
run that passes them all changes files, and only those that its two paths lead to.
-/

namespace TinyScript

/-! ## What a run reads -/

namespace Machine

/-- The text of the file that a path leads to. -/
def textAt (machine : Machine) (path : Path) : Except FileError String := do
  let contents ← machine.files.read machine.directory path
  (String.fromUTF8? contents).elim (.error .notText) .ok

/-- The settings in the file that a path leads to. -/
def settingsAt (machine : Machine) (reader : Settings.Reader) (path : Path) :
    Except LoadError Settings := do
  let source ← (machine.textAt path).mapError .file
  (reader source).mapError .settings

theorem perform_readText (machine : Machine) (path : Path) :
    machine.perform (Host.readText path) = (.ok (machine.textAt path), machine) := by
  rw [Host.readText, perform_bind_ok (perform_read path), textAt]
  cases machine.files.read machine.directory path <;> rfl

theorem perform_loadFrom (machine : Machine) (reader : Settings.Reader) (path : Path) :
    machine.perform (Settings.loadFrom path reader) =
      (.ok (machine.settingsAt reader path), machine) := by
  rw [Settings.loadFrom, perform_bind_ok (perform_readText machine path), settingsAt]
  cases machine.textAt path <;> rfl

theorem textAt_of_resolve {machine : Machine} {path : Path} {location : Location}
    {contents : ByteArray} {text : String}
    (resolved : machine.files.resolve machine.directory path =
      .ok (.entry location (.file contents)))
    (decoded : String.fromUTF8? contents = some text) : machine.textAt path = .ok text := by
  rw [textAt, FileTree.read, resolved]
  change (String.fromUTF8? contents).elim _ _ = _
  rw [decoded]
  rfl

theorem place?_of_textAt {machine : Machine} {path : Path} {source : String}
    (h : machine.textAt path = .ok source) : ∃ location, machine.place? path = some location := by
  rw [textAt, FileTree.read] at h
  cases resolved : machine.files.resolve machine.directory path with
  | error error =>
    rw [resolved] at h
    cases h
  | ok target =>
    rw [resolved] at h
    cases target with
    | free directory name => cases h
    | entry location node => exact ⟨location, FileTree.location?_eq_some_iff.mpr ⟨node, resolved⟩⟩

end Machine

namespace Invocation

/-- The settings of a run: those asked for, or those of the user, or the usual ones. -/
def settingsOn (invocation : Invocation) (reader : Settings.Reader) (machine : Machine) :
    Except RunError Settings :=
  match invocation.config with
  | some path => (machine.settingsAt reader path).mapError (.settings path)
  | none => .ok <| (machine.home.bind fun home =>
      (machine.settingsAt reader (home.join Settings.usualPath)).toOption).getD {}

theorem perform_loadSettings (invocation : Invocation) (reader : Settings.Reader)
    (machine : Machine) :
    machine.perform (invocation.loadSettings reader) =
      (invocation.settingsOn reader machine, machine) := by
  unfold loadSettings settingsOn
  cases invocation.config with
  | some path =>
    dsimp only
    rw [Machine.perform_bind_ok (machine.perform_loadFrom reader path)]
    cases machine.settingsAt reader path <;> rfl
  | none =>
    have asked : machine.perform (Host.home? (m := ExceptT RunError (StateM Machine))) =
        (.ok machine.home, machine) := rfl
    dsimp only
    rw [Settings.load, Machine.perform_bind_ok asked]
    cases machine.home with
    | none => rfl
    | some home =>
      dsimp only
      rw [Machine.perform_bind_ok (machine.perform_loadFrom reader _)]
      simp only [Option.bind_some]
      cases machine.settingsAt reader (home.join Settings.usualPath) <;> rfl

theorem perform_readInput (invocation : Invocation) (machine : Machine) :
    machine.perform invocation.readInput =
      ((machine.textAt invocation.input).mapError (.input invocation.input), machine) := by
  rw [readInput, Machine.perform_bind_ok (machine.perform_readText invocation.input)]
  cases machine.textAt invocation.input <;> rfl

end Invocation

/-! ## Stages -/

/-- The stages of a run before it writes, in their order. -/
inductive Stage where
  | settings
  | input
  | parsing
  | emission
  | overwriting

/-- The number of stages before a stage. -/
def Stage.rank : Stage → Nat
  | settings => 0
  | input => 1
  | parsing => 2
  | emission => 3
  | overwriting => 4

theorem Stage.rank_injective {stage stage' : Stage} (same : stage.rank = stage'.rank) :
    stage = stage' := by
  cases stage <;> cases stage' <;> first | rfl | cases same

/-- The stage in which an error arises, if it is one of those before the run writes. -/
def RunError.stage? : RunError → Option Stage
  | settings .. => some .settings
  | input .. => some .input
  | parse .. => some .parsing
  | emit .. => some .emission
  | overwrite _ => some .overwriting
  | .extension _ | write .. => none

namespace Invocation

variable {invocation : Invocation} {reader : Settings.Reader} {machine : Machine} {stage : Stage}
  {error : RunError}

/-- A stage of a run fails with an error, whether or not an earlier one does. -/
inductive FailsAt (invocation : Invocation) (reader : Settings.Reader) (machine : Machine) :
    Stage → RunError → Prop
  | settings {path : Path} {error : LoadError} (asked : invocation.config = some path)
      (refused : machine.settingsAt reader path = .error error) :
      FailsAt invocation reader machine .settings (.settings path error)
  | input {error : FileError} (refused : machine.textAt invocation.input = .error error) :
      FailsAt invocation reader machine .input (.input invocation.input error)
  | parsing {source : String} {error : ParseError}
      (read : machine.textAt invocation.input = .ok source)
      (refused : Program.parse source = .error error) :
      FailsAt invocation reader machine .parsing (.parse invocation.input error)
  | emission {settings : Settings} {source : String} {program : Program} {error : EmitError}
      (goesOn : invocation.astOnly = false)
      (loaded : invocation.settingsOn reader machine = .ok settings)
      (read : machine.textAt invocation.input = .ok source)
      (parsed : Program.parse source = .ok program)
      (refused : Cpp.emit settings.indent program = .error error) :
      FailsAt invocation reader machine .emission (.emit invocation.input error)
  | overwriting {settings : Settings} {output : Path} {location : Location}
      (goesOn : invocation.astOnly = false) (toFile : invocation.stdout = false)
      (loaded : invocation.settingsOn reader machine = .ok settings)
      (path : invocation.outputPath settings = .ok output)
      (there : machine.place? output = some location)
      (same : machine.place? invocation.input = some location) :
      FailsAt invocation reader machine .overwriting (.overwrite output)

/-- The stages before the given number of them do not fail. -/
def PassesBefore (invocation : Invocation) (reader : Settings.Reader) (machine : Machine)
    (rank : Nat) : Prop :=
  ∀ stage : Stage, stage.rank < rank → ∀ error, ¬ invocation.FailsAt reader machine stage error

/-- A stage of a run fails, and no earlier one does. -/
def FailsFirst (invocation : Invocation) (reader : Settings.Reader) (machine : Machine)
    (stage : Stage) (error : RunError) : Prop :=
  invocation.FailsAt reader machine stage error ∧ invocation.PassesBefore reader machine stage.rank

theorem FailsAt.stage? (h : invocation.FailsAt reader machine stage error) :
    error.stage? = some stage := by
  cases h <;> rfl

theorem PassesBefore.zero : invocation.PassesBefore reader machine 0 :=
  fun _ below => absurd below (Nat.not_lt_zero _)

theorem PassesBefore.next (stage : Stage)
    (before : invocation.PassesBefore reader machine stage.rank)
    (passes : ∀ error, ¬ invocation.FailsAt reader machine stage error) :
    invocation.PassesBefore reader machine (stage.rank + 1) := by
  intro other below
  rcases Nat.lt_or_eq_of_le (Nat.le_of_lt_succ below) with earlier | same
  · exact before other earlier
  · cases Stage.rank_injective same
    exact passes

/-- A stage fails in one way only. -/
theorem FailsAt.unique {error' : RunError} (h : invocation.FailsAt reader machine stage error)
    (h' : invocation.FailsAt reader machine stage error') : error = error' := by
  cases h with
  | settings asked refused =>
    cases h' with
    | settings asked' refused' =>
      cases asked.symm.trans asked'
      cases refused.symm.trans refused'
      rfl
  | input refused =>
    cases h' with
    | input refused' =>
      cases refused.symm.trans refused'
      rfl
  | parsing read refused =>
    cases h' with
    | parsing read' refused' =>
      cases read.symm.trans read'
      cases refused.symm.trans refused'
      rfl
  | emission goesOn loaded read parsed refused =>
    cases h' with
    | emission goesOn' loaded' read' parsed' refused' =>
      cases loaded.symm.trans loaded'
      cases read.symm.trans read'
      cases parsed.symm.trans parsed'
      cases refused.symm.trans refused'
      rfl
  | overwriting goesOn toFile loaded path there same =>
    cases h' with
    | overwriting goesOn' toFile' loaded' path' there' same' =>
      cases loaded.symm.trans loaded'
      cases path.symm.trans path'
      rfl

/-- No two errors are the first. -/
theorem FailsFirst.unique {stage' : Stage} {error' : RunError}
    (h : invocation.FailsFirst reader machine stage error)
    (h' : invocation.FailsFirst reader machine stage' error') :
    stage = stage' ∧ error = error' := by
  rcases Nat.lt_trichotomy stage.rank stage'.rank with earlier | same | later
  · exact absurd h.1 (h'.2 stage earlier error)
  · cases Stage.rank_injective same
    exact ⟨rfl, h.1.unique h'.1⟩
  · exact absurd h'.1 (h.2 stage' later error')

end Invocation

/-! ## Writing -/

namespace Machine

variable {α β : Type} {machine : Machine} {part : ExceptT RunError (StateM Machine) α}
  {more : α → ExceptT RunError (StateM Machine) β}

/-- A part of a run that fails only if something cannot be written. -/
def OnlyFailsWriting (machine : Machine) (part : ExceptT RunError (StateM Machine) α) : Prop :=
  ∀ error, (machine.perform part).1 = .error error → ∃ path cause, error = .write path cause

theorem perform_bind_congr {part' : ExceptT RunError (StateM Machine) α}
    (h : machine.perform part = machine.perform part') :
    machine.perform (part >>= more) = machine.perform (part' >>= more) := by
  change (ExceptT.bindCont more (machine.perform part).1).run (machine.perform part).2 = _
  rw [h]
  rfl

theorem onlyFailsWriting_of_ok {value : α} {behind : Machine}
    (performed : machine.perform part = (.ok value, behind)) : machine.OnlyFailsWriting part := by
  intro error failed
  rw [performed] at failed
  cases failed

theorem OnlyFailsWriting.bind (h : machine.OnlyFailsWriting part)
    (goesOn : ∀ value behind, Machine.OnlyFailsWriting behind (more value)) :
    machine.OnlyFailsWriting (part >>= more) := by
  rw [OnlyFailsWriting] at h ⊢
  cases performed : machine.perform part with
  | mk result behind =>
    rw [performed] at h
    cases result with
    | error error =>
      rw [perform_bind_error performed]
      intro other failed
      cases failed
      exact h error rfl
    | ok value =>
      rw [perform_bind_ok performed]
      exact goesOn value behind

end Machine

namespace Invocation

variable {invocation : Invocation} {reader : Settings.Reader} {machine behind : Machine}
  {settings : Settings} {source cpp : String} {program : Program} {stage : Stage}
  {error : RunError}

/-- Writing a file and saying so fails only if the file cannot be written. -/
theorem onlyFailsWriting_writeFile (invocation : Invocation) (machine : Machine) (path : Path)
    (text line : String) :
    machine.OnlyFailsWriting (do writeFile path text; invocation.status line) := by
  have writing : machine.OnlyFailsWriting (writeFile path text) := by
    obtain ⟨result, files, performed, -⟩ := machine.perform_writeText path text
    rw [Machine.OnlyFailsWriting, writeFile, Machine.perform_bind_ok performed]
    intro error failed
    cases result with
    | error cause =>
      cases failed
      exact ⟨path, cause, rfl⟩
    | ok => cases failed
  refine writing.bind ?_
  intro _ behind
  obtain ⟨last, performed, -⟩ := perform_status invocation behind line
  exact Machine.onlyFailsWriting_of_ok performed

theorem writesTo_writeFile (invocation : Invocation) (machine : Machine) (path : Path)
    (text line : String) :
    machine.WritesTo [path] (do writeFile path text; invocation.status line) := by
  have writing : machine.WritesTo [path] (writeFile path text) := by
    obtain ⟨result, files, performed, written, -⟩ := machine.perform_writeText path text
    rw [Machine.WritesTo, writeFile, Machine.perform_bind_ok performed]
    cases result <;> exact written
  refine writing.bind ?_
  intro _ behind
  unfold status
  cases invocation.quiet <;> exact Machine.writtenAt_of_same rfl rfl

/-- The path of the tree if it is asked for. -/
def astTargets (invocation : Invocation) (settings : Settings) : List Path :=
  if invocation.emitAst || settings.emitAst then [astPath invocation.input settings.astSuffix]
  else []

theorem onlyFailsWriting_deliverAst (invocation : Invocation) (machine : Machine)
    (settings : Settings) (ast : String) :
    machine.OnlyFailsWriting (invocation.deliverAst settings ast) := by
  unfold deliverAst
  cases invocation.emitAst || settings.emitAst with
  | true => exact onlyFailsWriting_writeFile invocation machine _ ast _
  | false => exact Machine.onlyFailsWriting_of_ok rfl

theorem writesTo_deliverAst (invocation : Invocation) (machine : Machine) (settings : Settings)
    (ast : String) :
    machine.WritesTo (invocation.astTargets settings) (invocation.deliverAst settings ast) := by
  unfold deliverAst astTargets
  cases invocation.emitAst || settings.emitAst with
  | true => exact writesTo_writeFile invocation machine _ ast _
  | false => exact Machine.writtenAt_of_same rfl rfl

/-! ## Runs -/

/-- How a run goes: it fails in a stage, or it gets past them all and prints or writes. -/
inductive Course (invocation : Invocation) (reader : Settings.Reader) (machine : Machine) :
    Except RunError Unit × Machine → Prop
  | fails {stage : Stage} {error : RunError}
      (first : invocation.FailsFirst reader machine stage error) :
      Course invocation reader machine (.error error, machine)
  | extension {text : String} (passed : invocation.PassesBefore reader machine 5) :
      Course invocation reader machine (.error (.extension text), machine)
  | ast {text : String} (passed : invocation.PassesBefore reader machine 5)
      (only : invocation.astOnly = true) :
      Course invocation reader machine (machine.perform (Host.print text))
  | printed {settings : Settings} {cpp ast : String}
      (passed : invocation.PassesBefore reader machine 5) (goesOn : invocation.astOnly = false)
      (loaded : invocation.settingsOn reader machine = .ok settings) :
      Course invocation reader machine (machine.perform (do
        Host.print cpp
        invocation.deliverAst settings ast))
  | written {settings : Settings} {cpp ast line : String} {output : Path}
      (passed : invocation.PassesBefore reader machine 5) (goesOn : invocation.astOnly = false)
      (toFile : invocation.stdout = false)
      (loaded : invocation.settingsOn reader machine = .ok settings)
      (path : invocation.outputPath settings = .ok output) :
      Course invocation reader machine (machine.perform (do
        (do writeFile output cpp; invocation.status line)
        invocation.deliverAst settings ast))

theorem settingsOn_eq_error (h : invocation.settingsOn reader machine = .error error) :
    invocation.FailsAt reader machine .settings error := by
  unfold settingsOn at h
  cases asked : invocation.config with
  | none =>
    rw [asked] at h
    cases h
  | some path =>
    rw [asked] at h
    cases refused : machine.settingsAt reader path with
    | ok settings =>
      simp only [refused] at h
      cases h
    | error cause =>
      simp only [refused] at h
      cases h
      exact .settings asked refused

theorem not_failsAt_settings (loaded : invocation.settingsOn reader machine = .ok settings)
    (error : RunError) : ¬ invocation.FailsAt reader machine .settings error := by
  intro fails
  cases fails with
  | settings asked refused =>
    simp only [settingsOn, asked, refused] at loaded
    cases loaded

theorem not_failsAt_input (read : machine.textAt invocation.input = .ok source)
    (error : RunError) : ¬ invocation.FailsAt reader machine .input error := by
  intro fails
  cases fails with
  | input refused => cases read.symm.trans refused

theorem not_failsAt_parsing (read : machine.textAt invocation.input = .ok source)
    (parsed : Program.parse source = .ok program) (error : RunError) :
    ¬ invocation.FailsAt reader machine .parsing error := by
  intro fails
  cases fails with
  | parsing read' refused =>
    cases read.symm.trans read'
    cases parsed.symm.trans refused

theorem not_failsAt_emission (loaded : invocation.settingsOn reader machine = .ok settings)
    (read : machine.textAt invocation.input = .ok source)
    (parsed : Program.parse source = .ok program)
    (emitted : Cpp.emit settings.indent program = .ok cpp) (error : RunError) :
    ¬ invocation.FailsAt reader machine .emission error := by
  intro fails
  cases fails with
  | emission goesOn loaded' read' parsed' refused =>
    cases loaded.symm.trans loaded'
    cases read.symm.trans read'
    cases parsed.symm.trans parsed'
    cases emitted.symm.trans refused

theorem not_failsAt_of_astOnly (only : invocation.astOnly = true) (late : 3 ≤ stage.rank)
    (error : RunError) : ¬ invocation.FailsAt reader machine stage error := by
  intro fails
  cases fails with
  | settings | input | parsing => exact absurd late (by decide)
  | emission goesOn => cases only.symm.trans goesOn
  | overwriting goesOn => cases only.symm.trans goesOn

theorem outputPath_eq_error (h : invocation.outputPath settings = .error error) :
    error = .extension settings.outputExtension := by
  unfold outputPath at h
  cases asked : invocation.output with
  | some output =>
    rw [asked] at h
    cases h
  | none =>
    rw [asked] at h
    cases path : outputPath? invocation.input settings.outputExtension with
    | some output =>
      simp only [path] at h
      cases h
    | none =>
      simp only [path] at h
      cases h
      rfl

/-- The C++ text is written unless its path leads to the input. -/
theorem perform_deliver {output : Path} {location : Location} (toFile : invocation.stdout = false)
    (path : invocation.outputPath settings = .ok output)
    (found : machine.place? invocation.input = some location) :
    machine.perform (invocation.deliver settings cpp) =
      if machine.place? output = some location then (.error (.overwrite output), machine)
      else machine.perform (do
        writeFile output cpp
        invocation.status
          ("transpiled " ++ invocation.input.text ++ " -> " ++ output.text)) := by
  have same : machine.perform (Host.isSameFile output invocation.input) =
      (.ok (decide (machine.place? output = some location)), machine) :=
    perform_isSameFile output found
  unfold deliver
  rw [toFile, path]
  change machine.perform (Host.isSameFile output invocation.input >>= _) = _
  rw [Machine.perform_bind_ok same]
  by_cases there : machine.place? output = some location
  · rw [if_pos there, decide_eq_true there]
    rfl
  · rw [if_neg there, decide_eq_false there]
    rfl

/-- A run that has its C++ text looks where that is to go. -/
theorem Prepared.course (h : invocation.Prepared reader machine settings source program cpp)
    (loaded : invocation.settingsOn reader machine = .ok settings)
    (read : machine.textAt invocation.input = .ok source)
    (passed : invocation.PassesBefore reader machine 4) :
    invocation.Course reader machine (machine.perform (invocation.run reader)) := by
  obtain ⟨location, found⟩ := Machine.place?_of_textAt read
  rw [perform_run_of_prepared h]
  cases toFile : invocation.stdout with
  | true =>
    have printed : (invocation.deliver settings cpp : ExceptT RunError (StateM Machine) Unit) =
        Host.print cpp := by
      rw [deliver, if_pos toFile]
    rw [printed]
    refine .printed (passed.next .overwriting ?_) h.goesOn loaded
    intro error fails
    cases fails with
    | overwriting goesOn toFile' loaded' path there same => cases toFile.symm.trans toFile'
  | false =>
    cases path : invocation.outputPath settings with
    | error error =>
      have stopped : machine.perform (invocation.deliver settings cpp) =
          (.error error, machine) := by
        unfold deliver
        rw [toFile, path]
        rfl
      rw [Machine.perform_bind_error stopped, outputPath_eq_error path]
      refine .extension (passed.next .overwriting ?_)
      intro error fails
      cases fails with
      | overwriting goesOn toFile' loaded' path' there same =>
        cases loaded.symm.trans loaded'
        cases path.symm.trans path'
    | ok output =>
      have delivered : machine.perform (invocation.deliver settings cpp) = _ :=
        perform_deliver toFile path found
      by_cases there : machine.place? output = some location
      · rw [if_pos there] at delivered
        rw [Machine.perform_bind_error delivered]
        exact .fails ⟨.overwriting h.goesOn toFile loaded path there found, passed⟩
      · rw [if_neg there] at delivered
        rw [Machine.perform_bind_congr delivered]
        refine .written (passed.next .overwriting ?_) h.goesOn toFile loaded path
        intro error fails
        cases fails with
        | overwriting goesOn toFile' loaded' path' there' same =>
          cases loaded.symm.trans loaded'
          cases path.symm.trans path'
          exact there (there'.trans (same.symm.trans found))

/-- Every run takes one of the courses. -/
theorem course_run (invocation : Invocation) (reader : Settings.Reader) (machine : Machine) :
    invocation.Course reader machine (machine.perform (invocation.run reader)) := by
  have loading := perform_loadSettings invocation reader machine
  have reading := perform_readInput invocation machine
  cases loaded : invocation.settingsOn reader machine with
  | error error =>
    rw [loaded] at loading
    rw [run, Machine.perform_bind_error loading]
    exact .fails ⟨settingsOn_eq_error loaded, .zero⟩
  | ok settings =>
    rw [loaded] at loading
    have passed := PassesBefore.zero.next .settings (not_failsAt_settings loaded)
    cases read : machine.textAt invocation.input with
    | error cause =>
      rw [read] at reading
      rw [run, Machine.perform_bind_ok loading, Machine.perform_bind_error reading]
      exact .fails ⟨.input read, passed⟩
    | ok source =>
      rw [read] at reading
      have passed := passed.next .input (not_failsAt_input read)
      cases parsed : Program.parse source with
      | error cause =>
        rw [run, Machine.perform_bind_ok loading, Machine.perform_bind_ok reading, parsed]
        exact .fails ⟨.parsing read parsed, passed⟩
      | ok program =>
        have passed := passed.next .parsing (not_failsAt_parsing read parsed)
        cases goesOn : invocation.astOnly with
        | true =>
          have printed : machine.perform (invocation.run reader) =
              machine.perform (Host.print (program.toJsonText ++ "\n")) := by
            rw [run, Machine.perform_bind_ok loading, Machine.perform_bind_ok reading, parsed,
              goesOn]
            rfl
          rw [printed]
          have passed := passed.next .emission (not_failsAt_of_astOnly goesOn (by decide))
          exact .ast (passed.next .overwriting (not_failsAt_of_astOnly goesOn (by decide))) goesOn
        | false =>
          cases emitted : Cpp.emit settings.indent program with
          | error cause =>
            have stopped : machine.perform (invocation.run reader) =
                (.error (.emit invocation.input cause), machine) := by
              rw [run, Machine.perform_bind_ok loading, Machine.perform_bind_ok reading, parsed,
                goesOn]
              change machine.perform (MonadExcept.ofExcept ((Cpp.emit settings.indent
                program).mapError (RunError.emit invocation.input)) >>= _) = _
              rw [emitted]
              rfl
            rw [stopped]
            exact .fails ⟨.emission goesOn loaded read parsed emitted, passed⟩
          | ok cpp =>
            have prepared : invocation.Prepared reader machine settings source program cpp :=
              ⟨loading, reading, parsed, goesOn, emitted⟩
            exact prepared.course loaded read
              (passed.next .emission (not_failsAt_emission loaded read parsed emitted))

/-- The paths that a run may write to: that of the C++ text unless it is printed, and that of the
    tree if it is asked for. -/
def targets (invocation : Invocation) (settings : Settings) : List Path :=
  (if invocation.stdout then [] else (invocation.outputPath settings).toOption.toList) ++
    invocation.astTargets settings

section Course

variable {outcome : Except RunError Unit × Machine}
  (course : invocation.Course reader machine outcome)
include course

/-- A run in which a stage fails first fails with its error. -/
theorem Course.eq_of_failsFirst (first : invocation.FailsFirst reader machine stage error) :
    outcome = (.error error, machine) := by
  have past (passed : invocation.PassesBefore reader machine 5) : False := by
    refine passed stage ?_ error first.1
    cases stage <;> decide
  cases course with
  | fails other =>
    obtain ⟨-, rfl⟩ := other.unique first
    rfl
  | extension passed => exact (past passed).elim
  | ast passed => exact (past passed).elim
  | printed passed => exact (past passed).elim
  | written passed => exact (past passed).elim

/-- A run that fails does so in its first failing stage, or because the extension is no extension,
    or in writing. -/
theorem Course.of_error (failed : outcome = (.error error, behind)) :
    (∃ stage, invocation.FailsFirst reader machine stage error) ∧ behind = machine ∨
      (∃ text, error = .extension text) ∧ behind = machine ∨
      ∃ path cause, error = .write path cause := by
  have late {part : ExceptT RunError (StateM Machine) Unit}
      (writing : machine.OnlyFailsWriting part) (same : outcome = machine.perform part) :
      ∃ path cause, error = .write path cause := by
    apply writing
    rw [← same, failed]
  cases course with
  | fails first =>
    cases failed
    exact .inl ⟨⟨_, first⟩, rfl⟩
  | extension passed =>
    cases failed
    exact .inr (.inl ⟨⟨_, rfl⟩, rfl⟩)
  | ast passed only => cases failed
  | printed passed goesOn loaded =>
    refine .inr (.inr (late ?_ rfl))
    refine (Machine.onlyFailsWriting_of_ok rfl).bind ?_
    intro _ behind
    exact onlyFailsWriting_deliverAst invocation behind _ _
  | written passed goesOn toFile loaded path =>
    refine .inr (.inr (late ?_ rfl))
    refine (onlyFailsWriting_writeFile invocation machine _ _ _).bind ?_
    intro _ behind
    exact onlyFailsWriting_deliverAst invocation behind _ _

/-- A run writes to its paths at most, and not at all if it only prints the tree. -/
theorem Course.writtenAt {location : Location}
    (differ : outcome.2.files.contents? location ≠ machine.files.contents? location) :
    invocation.astOnly = false ∧ ∃ settings, invocation.settingsOn reader machine = .ok settings ∧
      machine.WrittenAt (invocation.targets settings) outcome.2 := by
  cases course with
  | fails first => exact absurd rfl differ
  | extension passed => exact absurd rfl differ
  | ast passed only => exact absurd rfl differ
  | @printed settings cpp ast passed goesOn loaded =>
    refine ⟨goesOn, settings, loaded, ?_⟩
    have printing : machine.WritesTo [] (Host.print cpp) := Machine.writtenAt_of_same rfl rfl
    have written := printing.bind fun _ behind =>
      writesTo_deliverAst invocation behind settings ast
    exact written.mono (List.subset_append_right _ _)
  | @written settings cpp ast line output passed goesOn toFile loaded path =>
    refine ⟨goesOn, settings, loaded, ?_⟩
    have paths : invocation.targets settings = [output] ++ invocation.astTargets settings := by
      rw [targets, toFile, path]
      rfl
    rw [paths]
    exact (writesTo_writeFile invocation machine output cpp line).bind fun _ behind =>
      writesTo_deliverAst invocation behind settings ast

end Course

/-- A run in which a stage before the first write fails has the error of the first such stage and
    leaves the machine as it was; no other failure but one in writing leaves anything behind. After
    any run the only files with other contents are those that its paths lead to. All of this holds
    whatever reads the settings. -/
theorem failing_run_leaves_no_trace (invocation : Invocation) (reader : Settings.Reader)
    (machine : Machine) :
    (∀ stage error, invocation.FailsFirst reader machine stage error ↔
      error.stage? = some stage ∧
        machine.perform (invocation.run reader) = (.error error, machine)) ∧
    (∀ error behind, machine.perform (invocation.run reader) = (.error error, behind) →
      behind = machine ∨ ∃ path cause, error = .write path cause) ∧
    ∀ result behind location, machine.perform (invocation.run reader) = (result, behind) →
      behind.files.contents? location ≠ machine.files.contents? location →
      invocation.astOnly = false ∧ ∃ settings, invocation.settingsOn reader machine = .ok settings ∧
        ∃ path ∈ invocation.targets settings, behind.place? path = some location := by
  have course := course_run invocation reader machine
  refine ⟨?_, ?_, ?_⟩
  · intro stage error
    constructor
    · intro first
      exact ⟨first.1.stage?, course.eq_of_failsFirst first⟩
    · rintro ⟨early, failed⟩
      rcases course.of_error failed with
        ⟨⟨stage', first⟩, -⟩ | ⟨⟨text, rfl⟩, -⟩ | ⟨path, cause, rfl⟩
      · cases first.1.stage?.symm.trans early
        exact first
      · cases early
      · cases early
  · intro error behind failed
    rcases course.of_error failed with ⟨-, same⟩ | ⟨-, same⟩ | writing
    · exact .inl same
    · exact .inl same
    · exact .inr writing
  · intro result behind location performed differ
    rw [performed] at course
    obtain ⟨goesOn, settings, loaded, written⟩ := course.writtenAt differ
    exact ⟨goesOn, settings, loaded, written.places location differ⟩

/-- A run onto its own input gets to the last stage; of a missing input and missing settings only
    the settings are reported. -/
theorem failing_run_leaves_no_trace_two_errors :
    exampleMachine.perform
        (Invocation.run { input := ⟨"a"⟩, output := some ⟨"a"⟩ } Settings.ofText) =
      (.error (.overwrite ⟨"a"⟩), exampleMachine) ∧
    FailsAt { input := ⟨"b"⟩, config := some ⟨"c"⟩ } Settings.ofText exampleMachine .input
      (.input ⟨"b"⟩ .notFound) ∧
    exampleMachine.perform
        (Invocation.run { input := ⟨"b"⟩, config := some ⟨"c"⟩ } Settings.ofText) =
      (.error (.settings ⟨"c"⟩ (.file .notFound)), exampleMachine) := by
  have names (name : String) (word : name = "a" ∨ name = "b" ∨ name = "c") :
      FileTree.namesOf ⟨name⟩ = [name] := by
    rcases word with rfl | rfl | rfl <;>
      simp [FileTree.namesOf, Path.endsInSlash, Path.steps, Path.segments, Path.segmentsOf]
  have resolved : exampleMachine.files.resolve exampleMachine.directory ⟨"a"⟩ =
      .ok (.entry ["a"] (.file "let a: string = b;".toUTF8)) := by
    rw [FileTree.resolve, names "a" (by decide)]
    rfl
  have place : exampleMachine.place? ⟨"a"⟩ = some ["a"] :=
    FileTree.location?_eq_some_iff.mpr ⟨_, resolved⟩
  have read : exampleMachine.textAt ⟨"a"⟩ = .ok "let a: string = b;" :=
    Machine.textAt_of_resolve resolved (fromUTF8?_toUTF8 _)
  have missing (name : String) (word : name = "b" ∨ name = "c") :
      exampleMachine.textAt ⟨name⟩ = .error .notFound := by
    rw [Machine.textAt, FileTree.read, FileTree.resolve, names name (.inr word)]
    rcases word with rfl | rfl <;> rfl
  have parsed : Program.parse "let a: string = b;" =
      .ok ⟨[.variableDeclaration "a" "string" (.identifier "b")]⟩ := by cbv
  have emitted : Cpp.emit Cpp.defaultIndent
      ⟨[.variableDeclaration "a" "string" (.identifier "b")]⟩ =
      .ok "#include <string>\n\nstd::string a = b;\n" := by cbv
  have passed : PassesBefore { input := ⟨"a"⟩, output := some ⟨"a"⟩ } Settings.ofText
      exampleMachine 4 :=
    (((PassesBefore.zero.next .settings (not_failsAt_settings rfl)).next .input
      (not_failsAt_input read)).next .parsing (not_failsAt_parsing read parsed)).next .emission
      (not_failsAt_emission rfl read parsed emitted)
  refine ⟨?_, .input (missing "b" (by decide)), ?_⟩
  · refine (((failing_run_leaves_no_trace _ Settings.ofText exampleMachine).1
      .overwriting _).mp ⟨?_, passed⟩).2
    exact .overwriting rfl rfl rfl rfl place place
  · have refused : exampleMachine.settingsAt Settings.ofText ⟨"c"⟩ = .error (.file .notFound) := by
      rw [Machine.settingsAt, missing "c" (by decide)]
      rfl
    exact (((failing_run_leaves_no_trace _ Settings.ofText exampleMachine).1 .settings _).mp
      ⟨.settings rfl refused, .zero⟩).2

end Invocation

end TinyScript
