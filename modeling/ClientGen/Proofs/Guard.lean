import ClientGen.Proofs.Execution
import ClientGen.Proofs.Places

/-!
# Which directories a task refuses to remove

A task removes its output directory before anything else, and refuses to do so if that is a
directory of the host project. The two are compared as paths, so repeated slashes and `.`
make no difference: of the spellings without `..` every one is recognized.

With `..` there are spellings of a project directory that the comparison does not recognize.
`Task.execute_refuses_iff` says which: a task refuses exactly those with the components of a
project directory, and removes the directory under any other. `Task.execute_removes_project`
is such a spelling.

Two notions of equality are at work. `Path.same` is that of the program, on the components of a
path. `Path.place?` says where a path leads when every `..` goes back one step, and the program
knows nothing of it. For absolute paths without `..` the two come to the same.
-/

namespace ClientGen

open Host (Program Call)
open Host.Program (Answers)

namespace Task

variable {t : Task} {run : ResolvedRun}

/-- **A task refuses its output directory**: it ends with the error that says so, without a
call. -/
def Refuses (t : Task) (run : ResolvedRun) (generator : Kotlin.Generator) (switches : Switches)
    (host : Answers) : Prop :=
  (t.execute generator switches).trace host
    = ([], { result := .error (.unsafeOutput run.output), switches })

/-- A task that does not refuse its output directory removes it first, before it has so much
as read the document. -/
theorem head?_execute (h : t.run = .ok run) (hguard : ¬ t.isGuarded run.output)
    (generator : Kotlin.Generator) (switches : Switches) (host : Answers) :
    ((t.execute generator switches).trace host).1.head? = some (.removeDirectory run.output) := by
  have hcalls : ((t.execute generator switches).traceFrom host []).1 = [].reverse ++ _ :=
    (traceFrom_execute h hguard rfl (Prod.eta _).symm).1
  rw [Program.trace, hcalls]
  exact Answers.head?_cut [] (.removeDirectory run.output) _

/-- **Which spellings of a project directory a task refuses.** Let the output directory lead
to the place of a directory of the project. The task refuses it exactly if it is the path of
one as well; if it is not, the directory is removed first of all. Where neither is written
with `..`, the task refuses.

A refusal is told by the calls. A task that refuses makes none, and any other one begins
with a removal, so the two halves exclude each other. -/
theorem execute_refuses_iff (h : t.run = .ok run) (hdirectory : Path.isAbsolute t.directory)
    (hroot : Path.isAbsolute t.root) {directory : String}
    (hproject : directory = t.directory ∨ directory = t.root)
    (hplace : Path.place? run.output = Path.place? directory)
    (generator : Kotlin.Generator) (switches : Switches) (host : Answers) :
    (t.Refuses run generator switches host
        ↔ Path.same run.output t.directory ∨ Path.same run.output t.root)
      ∧ (¬ t.Refuses run generator switches host →
          ((t.execute generator switches).trace host).1.head?
            = some (.removeDirectory run.output))
      ∧ (Path.IsParentFree run.output → Path.IsParentFree directory →
          t.Refuses run generator switches host) := by
  have hrefuses : t.isGuarded run.output → t.Refuses run generator switches host :=
    traceFrom_execute_of_guarded h
  have hremoves := fun hguard => head?_execute h hguard generator switches host
  have hiff : t.Refuses run generator switches host ↔ t.isGuarded run.output := by
    refine ⟨fun hrefused => ?_, hrefuses⟩
    -- a task that is not guarded makes a call, one that refuses makes none
    by_contra hguard
    have hhead := hremoves hguard
    rw [show _ = _ from hrefused] at hhead
    cases hhead
  refine ⟨hiff.trans isGuarded_iff, fun hnot => hremoves (fun hguard => hnot (hrefuses hguard)),
    fun houtput hfree => hrefuses (isGuarded_iff.mpr ?_)⟩
  have hdirectory' : Path.isAbsolute directory := by
    rcases hproject with rfl | rfl
    · exact hdirectory
    · exact hroot
  -- a relative path leads nowhere by itself, and `directory` leads somewhere
  have houtput' : Path.isAbsolute run.output := by
    by_contra hrelative
    rw [Path.place?, Path.place?, if_neg hrelative, if_pos hdirectory'] at hplace
    cases hplace
  have hsame := (Path.same_iff_of_parentFree houtput' hdirectory' houtput hfree).mpr hplace
  rcases hproject with rfl | rfl
  · exact Or.inl hsame
  · exact Or.inr hsame

/-- A task of the project in `/project` whose output is in a folder below `/project/build`. -/
def ofFolder (folder : String) : Task :=
  ofRun
    { sourcePath := "/project/api", outputPath := "/project/build",
      generator := some "kotlin-client-v2" }
    { directory := "/project", root := "/" } .kotlin { input := "pets.json", folder := some folder }

/-- The files of the project in `/project`. -/
def projectSession : Host.Session :=
  ((({} : Host.Session).place "/project/build.gradle" "").place "/project/api/pets.json" "").place
    "/project/build/Old.kt" ""

/-- A spelling of the project directory with slashes and a dot too many, which the task
refuses. -/
theorem execute_refuses_iff_of_slashes :
    ∃ run, (ofFolder "/project//.").run = .ok run
      ∧ Path.isAbsolute (ofFolder "/project//.").directory
      ∧ Path.isAbsolute (ofFolder "/project//.").root
      ∧ Path.place? run.output = Path.place? (ofFolder "/project//.").directory
      ∧ (ofFolder "/project//.").Refuses run (fun _ _ _ => .ok []) .empty
          (Host.World.answers Host.Session.answer projectSession) :=
  ⟨_, rfl, by decide, by decide, by decide +kernel,
    (execute_refuses_iff rfl (by decide) (by decide) (Or.inl rfl) (by decide +kernel)
      (fun _ _ _ => .ok []) .empty _).2.2 (by decide +kernel) (by decide +kernel)⟩

/-- **A folder `..` is not refused**, although it makes the output directory the directory of
the project: the project is removed, with every file in it. -/
theorem execute_removes_project :
    ∃ run, (ofFolder "..").run = .ok run
      ∧ Path.isAbsolute (ofFolder "..").directory ∧ Path.isAbsolute (ofFolder "..").root
      ∧ Path.place? run.output = Path.place? (ofFolder "..").directory
      ∧ (((ofFolder "..").execute (fun _ _ _ => .ok []) .empty).trace
          (Host.World.answers Host.Session.answer projectSession)).1.head?
            = some (.removeDirectory run.output)
      ∧ projectSession.files ≠ []
      ∧ (Host.World.run Host.Session.answer projectSession
          ((ofFolder "..").execute (fun _ _ _ => .ok []) .empty)).2.files = [] :=
  ⟨_, rfl, by decide, by decide, by decide +kernel, by decide +kernel, by decide +kernel,
    by decide +kernel⟩

end Task

end ClientGen
