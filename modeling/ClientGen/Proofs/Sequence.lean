import ClientGen.Proofs.Execution

/-!
# Tasks one after another

Tasks that are executed one after another share two things: the host, on which each task
finds what those before it have left, and the switches. An `Execution` is a task together
with both as it finds them, and `Task.executions` lists the executions of a sequence. What
the sequence does as one program is what its executions do in turn
(`Task.trace_executeAll`), so what holds of every task on every host holds of each of them.

Statements about sequences have two forms after that. One is about every execution that is a
member of the list; the other goes along the list, where the next execution has the host and
the switches that the one before it leaves.
-/

namespace ClientGen

open Host (Program Call)
open Host.Program (Answers)

/-- **The execution of a task among others**: with the switches and the host as those before
it have left them. -/
structure Execution where
  task : Task
  generator : Kotlin.Generator
  switches : Switches
  host : Answers

namespace Execution

variable (e : Execution)

/-- The calls that are made. -/
def calls : List Call := ((e.task.execute e.generator e.switches).trace e.host).1

/-- The outcome of the task. -/
def outcome : TaskOutcome := ((e.task.execute e.generator e.switches).trace e.host).2

/-- **An execution begins with a run**: the task has removed the output directory of its run
and sets the switches of the run. -/
structure Begins (run : ResolvedRun) : Prop where
  resolves : e.task.run = .ok run
  unguarded : ¬ e.task.isGuarded run.output
  removes : e.host [] (.removeDirectory run.output) = .ok ()

/-- **An execution that does not begin fails**, and changes no switch, whatever its
generator: its run cannot be resolved, or its output directory is refused, or it cannot be
removed. -/
theorem exists_trace_of_not_begins {e : Execution} (h : ∀ run, ¬ e.Begins run) :
    ∃ calls cause, ∀ generator, (e.task.execute generator e.switches).trace e.host
      = (calls, { result := .error cause, switches := e.switches }) := by
  cases hrun : e.task.run with
  | error cause =>
    exact ⟨_, _, fun _ => Task.traceFrom_execute_of_unresolved hrun⟩
  | ok run =>
    by_cases hguard : e.task.isGuarded run.output
    · exact ⟨_, _, fun _ => Task.traceFrom_execute_of_guarded hrun hguard⟩
    · cases hremove : e.host [] (.removeDirectory run.output) with
      | error reason =>
        exact ⟨_, _, fun _ => Task.traceFrom_execute_of_kept hrun hguard hremove⟩
      | ok => exact absurd ⟨hrun, hguard, hremove⟩ (h run)

/-- **An execution that succeeds has made every call of its plan**, without a failure, and
returns the paths of the files that its generator has given. It has begun, since it would
have failed otherwise, and its row of calls has come to the end. -/
theorem of_ok {e : Execution} {written : List String} (h : e.outcome.result = .ok written) :
    ∃ run files, e.task.run = .ok run ∧ e.calls = run.plan files
      ∧ e.host.NoneFails [] (run.plan files) ∧ written = run.paths files
      ∧ ∃ document switches, e.generator document run switches = .ok files := by
  by_cases hbegins : ∃ run, e.Begins run
  · obtain ⟨run, hbegins⟩ := hbegins
    generalize hfiles : run.filesOf e.generator (e.switches.begin run.switches)
      (e.host [.removeDirectory run.output] (.read run.input)) = files
    obtain ⟨hcalls, hresult⟩ :=
      Task.traceFrom_execute hbegins.resolves hbegins.unguarded hfiles (Prod.eta _).symm
    have hall : TaskError.unless (e.host.cut [] (run.plan (files.toOption.getD []))).2
        (files.map run.paths) = .ok written := hresult.symm.trans h
    cases hfailure : (e.host.cut [] (run.plan (files.toOption.getD []))).2 with
    | some failure =>
      rw [hfailure] at hall
      cases hall
    | none =>
      obtain ⟨hmade, hnone⟩ := Answers.cut_eq_none hfailure
      rw [hfailure] at hall
      cases files with
      | error cause => cases hall
      | ok files =>
        cases hall
        obtain ⟨document, hdocument⟩ := ResolvedRun.exists_of_filesOf hfiles
        exact ⟨run, files, hbegins.resolves, hcalls.trans hmade, hnone, rfl, document, _, hdocument⟩
  · obtain ⟨calls, cause, htrace⟩ := exists_trace_of_not_begins (not_exists.mp hbegins)
    rw [outcome, htrace] at h
    cases h

end Execution

namespace Task

/-- **Executes tasks one after another**, each with its generator and with the switches that
the one before it has left. -/
def executeAll : List (Task × Kotlin.Generator) → Switches → Program (List TaskOutcome)
  | [], _ => .done []
  | (t, generator) :: jobs, switches =>
    (t.execute generator switches).bind (fun outcome =>
      (executeAll jobs outcome.switches).bind (fun outcomes => .done (outcome :: outcomes)))

/-- **The executions of a sequence of tasks.** -/
def executions : Answers → Switches → List (Task × Kotlin.Generator) → List Execution
  | _, _, [] => []
  | host, switches, (task, generator) :: jobs =>
    let e : Execution := { task, generator, switches, host }
    e :: executions (host.after e.calls) e.outcome.switches jobs

/-- **A sequence of tasks does what its executions do in turn.** By induction on the tasks;
the later ones are traced on the host after the calls of the first. -/
theorem trace_executeAll (host : Answers) (switches : Switches)
    (jobs : List (Task × Kotlin.Generator)) :
    (executeAll jobs switches).trace host
      = ((executions host switches jobs).flatMap Execution.calls,
          (executions host switches jobs).map Execution.outcome) := by
  induction jobs generalizing host switches with
  | nil => rfl
  | cons job jobs ih =>
    obtain ⟨t, generator⟩ := job
    rw [executeAll, executions, Program.trace_bind, Program.trace_bind, ih]
    exact Prod.ext (congrArg (_ ++ ·) (List.append_nil _)) rfl

/-- Of a sequence of tasks, each execution is that of one of them. -/
theorem mem_of_mem_executions {host : Answers} {switches : Switches}
    {jobs : List (Task × Kotlin.Generator)} {e : Execution}
    (h : e ∈ executions host switches jobs) : (e.task, e.generator) ∈ jobs := by
  induction jobs generalizing host switches with
  | nil => cases h
  | cons job jobs ih =>
    rw [executions, List.mem_cons] at h
    rcases h with rfl | h
    · exact List.mem_cons_self
    · exact List.mem_cons_of_mem _ (ih h)

end Task

end ClientGen
