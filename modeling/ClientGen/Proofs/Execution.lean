import ClientGen.Proofs.Calls
import ClientGen.Proofs.Conversion
import ClientGen.Task.Execution

/-!
# What a task calls for

A task that is neither refused nor unresolved has a plan (`ResolvedRun.plan`): to remove its
output directory, to read the document, and to write each generated file with the directory
around it. Which files there are depends on the text that reading gives
(`ResolvedRun.filesOf`), and nothing else does.

On every host the calls that a task makes are its plan, cut behind the first call that fails
(`Task.traceFrom_execute`), and the main statement `Task.execute_calls` says what this
means: which calls have been made whenever a task ends, and which result it ends with.

The plan is a list that does not know the host, and cutting it is the one thing that the
host decides. So what is said about plans, that the directory is removed before anything is
read and that nothing is written after a failure, holds of every execution.
-/

namespace ClientGen

open Host (Program Call)
open Host.Program (Answers)

/-! ## Plans

A plan is the calls of a run for given files. It is a definition and not a trace: whether
any of its calls is made is what the theorems below say. -/

/-- The calls that write a file into a directory. -/
def Kotlin.SourceFile.calls (output : String) (file : Kotlin.SourceFile) : List Call :=
  (Path.parent? (Path.join output file.path)).toList.map .makeDirectory
    ++ [.write (Path.join output file.path) file.content]

namespace ResolvedRun

/-- **The calls of a run** that generates these files, if none fails. -/
def plan (run : ResolvedRun) (files : List Kotlin.SourceFile) : List Call :=
  .removeDirectory run.output :: .read run.input
    :: files.flatMap (Kotlin.SourceFile.calls run.output)

/-- Where the files of a run are written. -/
def paths (run : ResolvedRun) (files : List Kotlin.SourceFile) : List String :=
  files.map (fun file => Path.join run.output file.path)

/-- **The files of a run**, by what reading its document gives. -/
def filesOf (run : ResolvedRun) (generator : Kotlin.Generator) (switches : Switches) :
    Except String String → Except TaskError (List Kotlin.SourceFile)
  | .error reason => .error (.host run.input reason)
  | .ok text => do
    let document ← (Document.read (.ofPath run.input) text).mapError .document
    (generator document run switches).mapError .generator

/-- The files of a run are what the generator has given for a document. -/
theorem exists_of_filesOf {run : ResolvedRun} {generator : Kotlin.Generator} {switches : Switches}
    {reply : Except String String} {files : List Kotlin.SourceFile}
    (h : run.filesOf generator switches reply = .ok files) :
    ∃ document, generator document run switches = .ok files := by
  cases reply with
  | error reason => cases h
  | ok text =>
    rw [ResolvedRun.filesOf] at h
    cases hread : Document.read (.ofPath run.input) text with
    | error cause =>
      rw [hread] at h
      cases h
    | ok document =>
      rw [hread] at h
      exact ⟨document, except_mapError_eq_ok.mp h⟩

end ResolvedRun

/-- A result, unless a call has failed. -/
def TaskError.unless {α : Type} : Option (String × String) → Except TaskError α →
    Except TaskError α
  | some failure, _ => .error (.host failure.1 failure.2)
  | none, result => result

namespace TaskError

variable {α β : Type} (failure : String × String) (result : Except TaskError α)

/-- Where no call has failed there is the result. -/
@[simp] theorem unless_none : TaskError.unless none result = result := rfl

/-- A call that has failed is the result. -/
@[simp] theorem unless_some :
    TaskError.unless (some failure) result = .error (.host failure.1 failure.2) := rfl

/-- A failure is kept, whatever is made of the result. -/
theorem map_unless (f : α → β) (o : Option (String × String)) :
    (TaskError.unless o result).map f = TaskError.unless o (result.map f) := by
  cases o <;> rfl

end TaskError

namespace Task

variable {host : Answers} {before : List Call}

/-! ## Writing files

A file is written by making its directory and then writing it. The trace of a program is
taken after some calls have been made, as a host may answer by what has happened. -/

/-- Writing a file makes its calls until one fails. -/
theorem traceFrom_writeFile (output : String) (file : Kotlin.SourceFile) :
    (writeFile (Path.join output file.path) file.content).traceFrom host before
      = (before.reverse ++ (host.cut before (file.calls output)).1,
          TaskError.unless (host.cut before (file.calls output)).2 (.ok ())) := by
  unfold writeFile makeParent Kotlin.SourceFile.calls
  generalize Path.join output file.path = path
  cases Path.parent? path with
  | none =>
    cases hwrite : host before (.write path file.content) <;>
      simp [Program.traceFrom, Answers.cut, Call.failure?, hwrite]
  | some parent =>
    cases hmake : host before (.makeDirectory parent) with
    | error reason =>
      simp [Program.traceFrom, Program.bind, Answers.cut, Call.failure?, hmake]
    | ok =>
      cases hwrite : host (.makeDirectory parent :: before) (.write path file.content) <;>
        simp [Program.traceFrom, Program.bind, Answers.cut, Call.failure?, hmake, hwrite]

/-- **Writing files makes the calls of each in turn** until one fails. By induction on the
files: the rest is written after the calls of the first, so the calls made before grow along
the way. -/
theorem traceFrom_writeFiles (run : ResolvedRun) (files : List Kotlin.SourceFile) :
    (writeFiles run.output files).traceFrom host before
      = (before.reverse
            ++ (host.cut before (files.flatMap (Kotlin.SourceFile.calls run.output))).1,
          TaskError.unless (host.cut before (files.flatMap (Kotlin.SourceFile.calls run.output))).2
            (.ok (run.paths files))) := by
  induction files generalizing before with
  | nil => simp [writeFiles, Program.traceFrom, Answers.cut, ResolvedRun.paths]
  | cons file files ih =>
    rw [writeFiles, List.flatMap_cons, Answers.cut_append, Program.traceFrom_bind,
      traceFrom_writeFile]
    -- the other files are written only if this one is
    rcases host.cut before (file.calls run.output) with ⟨made, _ | failure⟩
    · have hmade : (before.reverse ++ made).reverse = made.reverse ++ before := by simp
      show ((writeFiles run.output files).bind _).traceFrom host (before.reverse ++ made).reverse
        = _
      rw [Program.traceFrom_bind, hmade, ih]
      refine Prod.ext ?_ (TaskError.map_unless (.ok (run.paths files))
        (Path.join run.output file.path :: ·) _)
      simp [Program.traceFrom]
    · simp [Program.traceFrom]

/-! ## Executing a task

What a task does is decided step by step: whether its run resolves, whether its output
directory is one it refuses to remove, whether it can be removed. The four equations that
follow are all there is to `execute`. -/

variable {t : Task} {generator : Kotlin.Generator} {switches : Switches} {run : ResolvedRun}

/-- A task refuses to remove the directory of its project and that of the project around it.
What it compares are paths by their components, as they are spelled. -/
theorem isGuarded_iff {path : String} :
    t.isGuarded path = true ↔ Path.same path t.directory ∨ Path.same path t.root := by
  rw [isGuarded, Bool.or_eq_true]

/-- A run that does not resolve makes no call. -/
theorem traceFrom_execute_of_unresolved {e : ConfigurationError} (h : t.run = .error e) :
    (t.execute generator switches).traceFrom host before
      = (before.reverse, { result := .error (.configuration e), switches }) := by
  rw [execute, h]
  rfl

/-- Neither does a run whose output directory the task refuses to remove. -/
theorem traceFrom_execute_of_guarded (h : t.run = .ok run) (hguard : t.isGuarded run.output) :
    (t.execute generator switches).traceFrom host before
      = (before.reverse, { result := .error (.unsafeOutput run.output), switches }) := by
  rw [execute, h]
  show Program.traceFrom host before (if _ then _ else _) = _
  rw [if_pos hguard]
  rfl

/-- If the output directory cannot be removed, that was the only call, and the document is
not read. -/
theorem traceFrom_execute_of_kept (h : t.run = .ok run) (hguard : ¬ t.isGuarded run.output)
    {reason : String} (hremove : host before (.removeDirectory run.output) = .error reason) :
    (t.execute generator switches).traceFrom host before
      = (before.reverse ++ [.removeDirectory run.output],
          { result := .error (.host run.output reason), switches }) := by
  rw [execute, h]
  show Program.traceFrom host before (if _ then _ else _) = _
  rw [if_neg hguard, Program.traceFrom, hremove, ← List.reverse_cons]
  rfl

/-- **Once it is removed the task goes on**: it reads, generates and writes. What it has set
up for the generator before is undone in the end, whatever happens between. -/
theorem traceFrom_execute_of_removed (h : t.run = .ok run) (hguard : ¬ t.isGuarded run.output)
    (hremove : host before (.removeDirectory run.output) = .ok ()) :
    (t.execute generator switches).traceFrom host before
      = let r := (regenerate generator run (switches.begin run.switches)).traceFrom host
          (.removeDirectory run.output :: before)
        (r.1, { result := r.2.1, request := r.2.2,
                switches := (switches.begin run.switches).finish run.switches }) := by
  rw [execute, h]
  show Program.traceFrom host before (if _ then _ else _) = _
  rw [if_neg hguard, Program.traceFrom, hremove]
  show Program.traceFrom host _ (Program.bind _ _) = _
  rw [Program.traceFrom_bind, Program.traceFrom, List.reverse_reverse]

/-- If the document cannot be read, nothing is generated. -/
theorem traceFrom_regenerate_of_unread {reason : String}
    (hread : host before (.read run.input) = .error reason) :
    (regenerate generator run switches).traceFrom host before
      = (before.reverse ++ [.read run.input], .error (.host run.input reason), none) := by
  rw [regenerate, Program.traceFrom, hread, ← List.reverse_cons]
  rfl

/-- If it can, the text decides: there is an error and no further call, or there are files,
and they are written one after the other. -/
theorem traceFrom_regenerate_of_read {text : String}
    (hread : host before (.read run.input) = .ok text) :
    (regenerate generator run switches).traceFrom host before
      = match generateFrom generator run switches text with
        | .error e => (before.reverse ++ [.read run.input], .error e, none)
        | .ok (request, .error e) => (before.reverse ++ [.read run.input], .error e, some request)
        | .ok (request, .ok files) =>
          let cut := host.cut (.read run.input :: before)
            (files.flatMap (Kotlin.SourceFile.calls run.output))
          (before.reverse ++ .read run.input :: cut.1,
            TaskError.unless cut.2 (.ok (run.paths files)), some request) := by
  rw [regenerate, Program.traceFrom, hread]
  dsimp only
  rcases generateFrom generator run switches text with e | ⟨request, e | files⟩
  · simp [Program.traceFrom]
  · simp [Program.traceFrom]
  · simp [Program.traceFrom_bind, traceFrom_writeFiles, Program.traceFrom]

/-- What a generator is asked for is the document that the text holds, and its files are
those of the run. -/
theorem filesOf_ok (text : String) :
    run.filesOf generator switches (.ok text)
      = (generateFrom generator run switches text).bind Prod.snd := by
  delta ResolvedRun.filesOf generateFrom
  dsimp only
  cases Document.read (.ofPath run.input) text <;> rfl

/-- **Regenerating makes the calls of its files** until one fails. -/
theorem traceFrom_regenerate {files : Except TaskError (List Kotlin.SourceFile)}
    (hfiles : run.filesOf generator switches (host before (.read run.input)) = files)
    {made : List Call} {failure : Option (String × String)}
    (hcut : host.cut before (.read run.input
      :: (files.toOption.getD []).flatMap (Kotlin.SourceFile.calls run.output)) = (made, failure)) :
    ((regenerate generator run switches).traceFrom host before).1 = before.reverse ++ made
      ∧ ((regenerate generator run switches).traceFrom host before).2.1
          = TaskError.unless failure (files.map run.paths) := by
  cases hread : host before (.read run.input) with
  | error reason =>
    have hfails : (Call.read run.input).failure? (host before (.read run.input))
        = some (run.input, reason) := by rw [hread]; rfl
    rw [Answers.cut_cons_of_failure hfails] at hcut
    obtain ⟨rfl, rfl⟩ := Prod.mk.inj hcut
    rw [traceFrom_regenerate_of_unread hread]
    exact ⟨rfl, rfl⟩
  | ok text =>
    rw [Answers.cut_cons_of_success (by rw [hread]; rfl)] at hcut
    obtain ⟨rfl, rfl⟩ := Prod.mk.inj hcut
    -- without files, be it for want of a document or of an answer, the plan ends with reading
    rw [hread, filesOf_ok] at hfiles
    subst hfiles
    rw [traceFrom_regenerate_of_read hread]
    rcases generateFrom generator run switches text with e | ⟨request, e | files⟩
    · exact ⟨rfl, rfl⟩
    · exact ⟨rfl, rfl⟩
    · exact ⟨rfl, rfl⟩

/-- **A task makes the calls of its plan** until one fails, and a call that fails decides
the result. The files are those that the text of the document gives, read after the
directory has been removed: a host may answer differently by then. -/
theorem traceFrom_execute (h : t.run = .ok run) (hguard : ¬ t.isGuarded run.output)
    {files : Except TaskError (List Kotlin.SourceFile)}
    (hfiles : run.filesOf generator (switches.begin run.switches)
      (host (.removeDirectory run.output :: before) (.read run.input)) = files)
    {made : List Call} {failure : Option (String × String)}
    (hcut : host.cut before (run.plan (files.toOption.getD [])) = (made, failure)) :
    ((t.execute generator switches).traceFrom host before).1 = before.reverse ++ made
      ∧ ((t.execute generator switches).traceFrom host before).2.result
          = TaskError.unless failure (files.map run.paths) := by
  rw [ResolvedRun.plan] at hcut
  cases hremove : host before (.removeDirectory run.output) with
  | error reason =>
    have hfails : (Call.removeDirectory run.output).failure?
        (host before (.removeDirectory run.output)) = some (run.output, reason) := by
      rw [hremove]; rfl
    rw [Answers.cut_cons_of_failure hfails] at hcut
    obtain ⟨rfl, rfl⟩ := Prod.mk.inj hcut
    rw [traceFrom_execute_of_kept h hguard hremove]
    exact ⟨rfl, rfl⟩
  | ok =>
    rw [Answers.cut_cons_of_success (by rw [hremove]; rfl)] at hcut
    obtain ⟨rfl, rfl⟩ := Prod.mk.inj hcut
    rw [traceFrom_execute_of_removed h hguard hremove]
    obtain ⟨hcalls, hresult⟩ := traceFrom_regenerate hfiles (Prod.eta _).symm
    refine ⟨?_, hresult⟩
    rw [hcalls, List.reverse_cons, List.append_assoc, List.singleton_append]

/-- How a row of calls ends that gives a result unless one of them fails. These are the four
things that are said of a task once it has passed its checks. -/
theorem cut_ends {calls made : List Call} {failure : Option (String × String)}
    (hcut : host.cut [] calls = (made, failure)) (files : Except TaskError (List String)) :
    made <+: calls
      ∧ (∀ front c rest cause, made = front ++ c :: rest →
          c.failure? (host front.reverse c) = some cause →
          rest = [] ∧ TaskError.unless failure files = .error (.host cause.1 cause.2))
      ∧ (host.NoneFails [] made → made = calls ∧ TaskError.unless failure files = files)
      ∧ ((∃ written, TaskError.unless failure files = .ok written)
          ↔ host.NoneFails [] made ∧ ∃ written, files = .ok written) := by
  obtain ⟨rfl, rfl⟩ := Prod.mk.inj hcut
  have hall : host.NoneFails [] (host.cut [] calls).1 → (host.cut [] calls).1 = calls
      ∧ TaskError.unless (host.cut [] calls).2 files = files := by
    intro hnone
    rw [Answers.cut_of_noneFails hnone]
    exact ⟨rfl, rfl⟩
  refine ⟨Answers.cut_prefix [] calls, fun front c rest cause hmade hfails => ?_, hall, ?_, ?_⟩
  · obtain ⟨hrest, hfailure⟩ := Answers.cut_of_failure hmade (by rwa [List.append_nil])
    rw [hfailure]
    exact ⟨hrest, rfl⟩
  · rintro ⟨written, hwritten⟩
    cases hfailure : (host.cut [] calls).2 with
    | some failure =>
      rw [hfailure] at hwritten
      cases hwritten
    | none =>
      obtain ⟨hcalls, hnone⟩ := Answers.cut_eq_none hfailure
      rw [hfailure] at hwritten
      rw [hcalls]
      exact ⟨hnone, written, hwritten⟩
  · rintro ⟨hnone, written, hwritten⟩
    exact ⟨written, (hall hnone).2.trans hwritten⟩

/-- **Which calls a task has made when it ends, and how it ends.** A task whose run does not
resolve, or whose output directory is a directory of the project, makes no call. Any other
makes a beginning of its plan: a call that fails is the last one made and its path is
reported; if none fails the whole plan is made, and the result is what generating has given.
So a task returns the paths of its files exactly if no call failed and there are files.

The program is traced on an arbitrary host, which answers by the calls made before. So the
statement covers a host that changes under the task, and one that fails once and never
again. -/
theorem execute_calls (t : Task) (generator : Kotlin.Generator) (switches : Switches)
    (host : Answers) :
    let calls := ((t.execute generator switches).trace host).1
    let result := ((t.execute generator switches).trace host).2.result
    match t.run with
    | .error e => calls = [] ∧ result = .error (.configuration e)
    | .ok run =>
      if Path.same run.output t.directory ∨ Path.same run.output t.root then
        calls = [] ∧ result = .error (.unsafeOutput run.output)
      else
        let files := run.filesOf generator (switches.begin run.switches)
          (host [.removeDirectory run.output] (.read run.input))
        let plan := run.plan (files.toOption.getD [])
        calls <+: plan
          ∧ (∀ made c rest failure, calls = made ++ c :: rest →
              c.failure? (host made.reverse c) = some failure →
              rest = [] ∧ result = .error (.host failure.1 failure.2))
          ∧ (host.NoneFails [] calls → calls = plan ∧ result = files.map run.paths)
          ∧ ((∃ written, result = .ok written)
              ↔ host.NoneFails [] calls ∧ ∃ written, files = .ok written) := by
  intro calls result
  cases h : t.run with
  | error e =>
    exact ⟨congrArg Prod.fst (traceFrom_execute_of_unresolved h),
      congrArg (·.2.result) (traceFrom_execute_of_unresolved h)⟩
  | ok run =>
    dsimp only
    split_ifs with hguard
    · rw [← isGuarded_iff] at hguard
      exact ⟨congrArg Prod.fst (traceFrom_execute_of_guarded h hguard),
        congrArg (·.2.result) (traceFrom_execute_of_guarded h hguard)⟩
    · rw [← isGuarded_iff] at hguard
      generalize hfiles : run.filesOf generator (switches.begin run.switches)
        (host [.removeDirectory run.output] (.read run.input)) = files
      have htrace := traceFrom_execute h hguard hfiles (Prod.eta _).symm
      have hcalls : calls = (host.cut [] (run.plan (files.toOption.getD []))).1 := htrace.1
      have hresult : result = _ := htrace.2
      have hwritten : (∃ written, files.map run.paths = .ok written)
          ↔ ∃ written, files = .ok written := by
        cases files <;> simp [Except.map]
      have hends := cut_ends (Prod.eta (host.cut [] (run.plan (files.toOption.getD [])))).symm
        (files.map run.paths)
      rwa [← hcalls, ← hresult, hwritten] at hends

end Task

end ClientGen
