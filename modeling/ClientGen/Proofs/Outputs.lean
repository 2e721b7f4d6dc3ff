import ClientGen.Host.Disk
import ClientGen.Proofs.Places
import ClientGen.Proofs.Resolution
import ClientGen.Proofs.Sequence
import Mathlib.Data.Set.Insert

/-!
# What tasks leave of each other's output

Each task begins by removing its output directory with everything in it, the files of other
tasks included. On a file system (`Host.FileSystem`) a file that a task reports is there at
the end exactly if some task has written it after the last one that removed it
(`Task.mem_files_executeAll`).

The files of a task lie below its output directory as long as its generator stays inside
(`Kotlin.Generator.StaysInside`). So tasks do not disturb each other where no output
directory lies at or below another, in whatever order they are executed; that is the case
where every run has a folder with a plain name (`Configuration.pairwise_apart`). It is not
enough that the output directories differ: a run without a folder has the directory that
holds the folders of the others (`Task.executeAll_removes_output`).
-/

namespace ClientGen

open Host (Program Call World)
open Host.Program (Answers)

/-! ## File systems

What is said about files has to hold on every file system that does what it is told. So a
file system is given by laws, one for each kind of call. Only calls that succeed are
described; that reading and making directories leave the files alone is asked of all of
them. -/

/-- **A file system**, as far as calls that succeed show it: every path leads to a place,
which is given by the steps on the way, and there are files at some of the places. -/
structure Host.FileSystem {σ : Type} (w : World σ) (ι : Type) where
  /-- Where a path leads. -/
  place : String → List ι
  /-- The step that a plain name makes. -/
  step : String → ι
  /-- Where files are. -/
  files : σ → Set (List ι)
  step_injective : Function.Injective step
  place_join_name : ∀ base name, Path.IsName name →
    place (Path.join base name) = place base ++ [step name]
  /-- A relative path that never goes back leads to a place below. -/
  place_join : ∀ base path, ¬ Path.isAbsolute path → Path.IsParentFree path →
    place base <+: place (Path.join base path)
  files_read : ∀ s path, files (w s (.read path)).2 = files s
  files_makeDirectory : ∀ s path, files (w s (.makeDirectory path)).2 = files s
  files_write : ∀ s path content, (w s (.write path content)).1 = .ok () →
    files (w s (.write path content)).2 = insert (place path) (files s)
  /-- Removing a directory removes the files at and below it. -/
  files_removeDirectory : ∀ s path, (w s (.removeDirectory path)).1 = .ok () →
    files (w s (.removeDirectory path)).2 = {x ∈ files s | ¬ place path <+: x}

/-! ## The disk as a file system

The laws can be met: the disk of the examples, a list of paths with contents, is one. Its
places are the components of paths, so that two spellings of a path lead to the same place. -/

namespace Host.Disk

/-- Writing a file adds its place. -/
theorem exists_mem_putFile_iff {path content : String} {fs : Entries String}
    {x : List Path.Component} :
    (∃ f ∈ putFile path content fs, Path.components f.1 = x)
      ↔ Path.components path = x ∨ ∃ f ∈ fs, Path.components f.1 = x := by
  induction fs with
  | nil => simp [putFile]
  | cons f fs ih =>
    rw [putFile]
    split_ifs with hsame
    · have hcomponents : Path.components f.1 = Path.components path := of_decide_eq_true hsame
      simp [hcomponents]
    · simp only [List.exists_mem_cons_iff, ih]
      exact or_left_comm

/-- **The disk is a file system**: paths lead to the same place if they are the same. -/
def fileSystem : FileSystem Disk.answer Path.Component where
  place := Path.components
  step := .segment
  files d := {x | ∃ f ∈ d.files, Path.components f.1 = x}
  step_injective := fun _ _ => Path.Component.segment.inj
  place_join_name := fun base _ => Path.components_join_of_isName base
  place_join := by
    intro base path hpath _
    by_cases hbase : base = ""
    · subst hbase
      have hempty : Path.components "" = [] := by decide
      rw [hempty]
      exact List.nil_prefix
    · rw [Path.components_join hbase hpath]
      exact List.prefix_append _ _
  files_read := fun _ _ => rfl
  files_makeDirectory := fun _ _ => rfl
  files_write := fun _ _ _ _ => Set.ext fun _ => exists_mem_putFile_iff.trans (by
    rw [Set.mem_insert_iff, eq_comm]
    rfl)
  files_removeDirectory := by
    intro d path _
    ext x
    show (∃ f ∈ d.files.filter _, _) ↔ _
    simp only [List.mem_filter, Path.isBelow, Bool.not_eq_true', Bool.eq_false_iff, Ne,
      List.isPrefixOf_iff_prefix]
    constructor
    · rintro ⟨f, ⟨hf, hbelow⟩, rfl⟩
      exact ⟨⟨f, hf, rfl⟩, hbelow⟩
    · rintro ⟨⟨f, hf, rfl⟩, hbelow⟩
      exact ⟨f, ⟨hf, hbelow⟩, rfl⟩

end Host.Disk

/-! ## What one execution does to the files

The calls of an execution that succeeds are its plan: to remove the output directory, to
read the document, and to write the files one after the other. So its effect is a set
difference followed by a union. -/

/-- **A generator stays inside** the output directory: its files have relative paths that never
go back. -/
def Kotlin.Generator.StaysInside (generator : Kotlin.Generator) : Prop :=
  ∀ document run switches files, generator document run switches = .ok files →
    ∀ file ∈ files, ¬ Path.isAbsolute file.path ∧ Path.IsParentFree file.path

namespace Host.FileSystem

variable {σ ι : Type} {w : World σ} (fs : FileSystem w ι)

/-- The places of some paths. -/
def places (paths : List String) : Set (List ι) := {x | ∃ path ∈ paths, fs.place path = x}

/-- Writing a file and the directory around it adds its place. -/
theorem files_after_calls {s : σ} {output : String} {file : Kotlin.SourceFile}
    (h : (w.answers s).NoneFails [] (file.calls output)) :
    fs.files (w.after s (file.calls output))
      = insert (fs.place (Path.join output file.path)) (fs.files s) := by
  unfold Kotlin.SourceFile.calls at h ⊢
  generalize Path.join output file.path = path at h ⊢
  rw [World.noneFails_append] at h
  rw [World.after_append]
  generalize hmade : w.after s ((Path.parent? path).toList.map Call.makeDirectory) = s' at h ⊢
  have hkept : fs.files s' = fs.files s := by
    rw [← hmade]
    cases Path.parent? path with
    | none => rfl
    | some parent => exact fs.files_makeDirectory s parent
  have hwritten := ((World.noneFails_cons w).mp h.2).1
  rw [← hkept]
  exact fs.files_write s' path file.content (Call.failure?_write_eq_none.mp hwritten)

/-- Writing files one after the other adds the places of all of them. -/
theorem files_after_flatMap_calls {s : σ} (run : ResolvedRun) {files : List Kotlin.SourceFile}
    (h : (w.answers s).NoneFails [] (files.flatMap (Kotlin.SourceFile.calls run.output))) :
    fs.files (w.after s (files.flatMap (Kotlin.SourceFile.calls run.output)))
      = fs.files s ∪ fs.places (run.paths files) := by
  induction files generalizing s with
  | nil => simp [World.after, places, ResolvedRun.paths]
  | cons file files ih =>
    rw [List.flatMap_cons, World.noneFails_append] at h
    rw [List.flatMap_cons, World.after_append, ih h.2, fs.files_after_calls h.1]
    ext x
    simp only [places, ResolvedRun.paths, Set.mem_union, Set.mem_insert_iff, Set.mem_ofPred_eq,
      List.map_cons, List.exists_mem_cons_iff, @eq_comm _ x]
    tauto

/-- **What a plan makes of the files**, if no call of it fails. -/
theorem files_after_plan {s : σ} {run : ResolvedRun} {files : List Kotlin.SourceFile}
    (h : (w.answers s).NoneFails [] (run.plan files)) :
    fs.files (w.after s (run.plan files))
      = {x ∈ fs.files s | ¬ fs.place run.output <+: x} ∪ fs.places (run.paths files) := by
  rw [ResolvedRun.plan, World.noneFails_cons, World.noneFails_cons] at h
  obtain ⟨hremoved, -, hrest⟩ := h
  show fs.files (w.after _ (files.flatMap _)) = _
  rw [fs.files_after_flatMap_calls run hrest, fs.files_read,
    fs.files_removeDirectory s _ (Call.failure?_removeDirectory_eq_none.mp hremoved)]

end Host.FileSystem

namespace Execution

variable {σ ι : Type} {w : World σ} (fs : Host.FileSystem w ι) (e : Execution)

/-- **An execution clears a place**: it lies at or below its output directory. -/
def Clears (x : List ι) : Prop :=
  ∃ run, e.task.run = .ok run ∧ fs.place run.output <+: x

/-- **An execution fills a place**: it is that of a path that the execution reports. -/
def Fills (x : List ι) : Prop :=
  ∃ written, e.outcome.result = .ok written ∧ x ∈ fs.places written

variable {fs e}

/-- An execution that succeeds leaves the files that it has not cleared and those it reports. -/
theorem mem_files_after_calls {s : σ} {written : List String} (hhost : e.host = w.answers s)
    (hok : e.outcome.result = .ok written) (x : List ι) :
    x ∈ fs.files (w.after s e.calls) ↔ e.Fills fs x ∨ (x ∈ fs.files s ∧ ¬ e.Clears fs x) := by
  obtain ⟨run, files, hrun, hcalls, hnone, rfl, -⟩ := of_ok hok
  rw [hhost] at hnone
  have hfills : e.Fills fs x ↔ x ∈ fs.places (run.paths files) := by
    simp [Fills, hok]
  have hclears : e.Clears fs x ↔ fs.place run.output <+: x := by
    simp [Clears, hrun]
  rw [hfills, hclears, hcalls, fs.files_after_plan hnone]
  exact or_comm

/-- What an execution fills it has cleared before, if its generator stays inside: its files
then lie below its output directory. -/
theorem clears_of_fills (hinside : e.generator.StaysInside) {x : List ι} (h : e.Fills fs x) :
    e.Clears fs x := by
  obtain ⟨written, hok, path, hpath, rfl⟩ := h
  obtain ⟨run, files, hrun, -, -, rfl, document, switches, hfiles⟩ := of_ok hok
  obtain ⟨file, hfile, rfl⟩ := List.mem_map.mp hpath
  obtain ⟨hrelative, hfree⟩ := hinside document run switches files hfiles file hfile
  exact ⟨run, hrun, fs.place_join run.output file.path hrelative hfree⟩

/-! ## What executions in a row do to the files

The last execution that fills or clears a place decides about it. As an execution fills only
what it has cleared itself, "filled and not cleared afterwards" is all that has to be asked. -/

/-- **A place stays filled** by executions in a row: after the last that has filled it, none
clears it. -/
def StaysFilled (fs : Host.FileSystem w ι) (es : List Execution) (x : List ι) : Prop :=
  ∃ front e rest, es = front ++ e :: rest ∧ e.Fills fs x ∧ ∀ f ∈ rest, ¬ f.Clears fs x

/-- Whether a place stays filled, from the first execution on: the others keep it filled by
themselves, or the first fills it and none of them clears it. -/
theorem staysFilled_cons {es : List Execution} {x : List ι} :
    StaysFilled fs (e :: es) x
      ↔ StaysFilled fs es x ∨ (e.Fills fs x ∧ ∀ f ∈ es, ¬ f.Clears fs x) := by
  constructor
  · rintro ⟨front, d, rest, hes, hfills, hrest⟩
    cases front with
    | nil =>
      obtain ⟨rfl, rfl⟩ := List.cons.inj hes
      exact Or.inr ⟨hfills, hrest⟩
    | cons c front =>
      obtain ⟨rfl, rfl⟩ := List.cons.inj hes
      exact Or.inl ⟨front, d, rest, rfl, hfills, hrest⟩
  · rintro (⟨front, d, rest, rfl, hfills, hrest⟩ | ⟨hfills, hrest⟩)
    · exact ⟨e :: front, d, rest, rfl, hfills, hrest⟩
    · exact ⟨[], e, es, rfl, hfills, hrest⟩

/-- A place that an execution fills stays filled if no execution clears it. -/
theorem staysFilled_of_not_clears {es : List Execution} {x : List ι} (he : e ∈ es)
    (hfills : e.Fills fs x) (hclears : ∀ f ∈ es, ¬ f.Clears fs x) : StaysFilled fs es x := by
  obtain ⟨front, rest, rfl⟩ := List.append_of_mem he
  exact ⟨front, e, rest, rfl, hfills,
    fun f hf => hclears f (List.mem_append_right front (List.mem_cons_of_mem e hf))⟩

end Execution

namespace Task

variable {σ ι : Type} {w : World σ} (fs : Host.FileSystem w ι)

/-- **The files after executions in a row**, if all succeed: the places that have stayed
filled, and those of the files from before that none has cleared. By induction on the tasks,
where the host of the later ones is the one after the calls of the first. -/
theorem mem_files_after_executions {s : σ} {switches : Switches}
    {jobs : List (Task × Kotlin.Generator)}
    (hok : ∀ e ∈ executions (w.answers s) switches jobs,
      ∃ written, e.outcome.result = .ok written) (x : List ι) :
    x ∈ fs.files (w.after s ((executions (w.answers s) switches jobs).flatMap Execution.calls))
      ↔ Execution.StaysFilled fs (executions (w.answers s) switches jobs) x
        ∨ (x ∈ fs.files s
          ∧ ∀ e ∈ executions (w.answers s) switches jobs, ¬ e.Clears fs x) := by
  induction jobs generalizing s switches with
  | nil => simp [executions, World.after, Execution.StaysFilled]
  | cons job jobs ih =>
    obtain ⟨t, generator⟩ := job
    rw [executions, World.answers_after] at hok ⊢
    obtain ⟨⟨written, hwritten⟩, hrest⟩ := List.forall_mem_cons.mp hok
    rw [List.flatMap_cons, World.after_append, ih hrest, Execution.staysFilled_cons,
      List.forall_mem_cons, Execution.mem_files_after_calls rfl hwritten]
    tauto

/-- **Tasks are apart** on a file system: the output directory of neither lies at or below that
of the other. -/
def Apart (a b : Task) : Prop :=
  ∀ run run', a.run = .ok run → b.run = .ok run' →
    ¬ fs.place run.output <+: fs.place run'.output
      ∧ ¬ fs.place run'.output <+: fs.place run.output

/-- That two tasks are apart does not depend on their order. -/
theorem Apart.symm {a b : Task} (h : Apart fs a b) : Apart fs b a :=
  fun run run' hrun hrun' => (h run' run hrun' hrun).symm

/-- What an execution fills, no execution clears whose task is apart from its own. -/
theorem Apart.not_clears {a b : Execution} (h : Apart fs a.task b.task)
    (hinside : a.generator.StaysInside) {x : List ι} (hfills : a.Fills fs x) :
    ¬ b.Clears fs x := by
  rintro ⟨run', hrun', hbelow'⟩
  obtain ⟨run, hrun, hbelow⟩ := Execution.clears_of_fills hinside hfills
  rcases List.prefix_or_prefix_of_prefix hbelow hbelow' with hprefix | hprefix
  · exact (h run run' hrun hrun').1 hprefix
  · exact (h run run' hrun hrun').2 hprefix

/-- **What is filled stays filled** where all tasks are apart. The execution itself does
clear the place, but before it fills it, and so do the earlier ones. -/
theorem staysFilled_of_pairwise {es : List Execution} {e : Execution} {x : List ι}
    (hapart : es.Pairwise (fun a b => Apart fs a.task b.task)) (he : e ∈ es)
    (hinside : e.generator.StaysInside) (hfills : e.Fills fs x) :
    Execution.StaysFilled fs es x := by
  obtain ⟨front, rest, rfl⟩ := List.append_of_mem he
  -- whatever comes after `e` has a task that is apart from that of `e`
  have hrest := (List.pairwise_cons.mp (List.pairwise_append.mp hapart).2.1).1
  exact ⟨front, e, rest, rfl, hfills, fun f hf => (hrest f hf).not_clears fs hinside hfills⟩

/-- The executions of tasks that are apart are apart as well. -/
theorem pairwise_executions {r : Task → Task → Prop} {host : Answers} {switches : Switches}
    {jobs : List (Task × Kotlin.Generator)} (h : jobs.Pairwise (fun a b => r a.1 b.1)) :
    (executions host switches jobs).Pairwise (fun a b => r a.task b.task) := by
  induction jobs generalizing host switches with
  | nil => exact List.Pairwise.nil
  | cons job jobs ih =>
    obtain ⟨hjob, hjobs⟩ := List.pairwise_cons.mp h
    rw [executions, List.pairwise_cons]
    exact ⟨fun e he => hjob (e.task, e.generator) (mem_of_mem_executions he), ih hjobs⟩

end Task

/-! ## The tasks of a configuration

Two runs of a language with different folders have different output directories, side by
side under the output path. With plain names for folders neither of them lies at or below
the other. -/

namespace Configuration

variable (c : Configuration) (project : HostProject)

/-- **Registered tasks**: each is that of a language and a run, and their names differ. -/
structure Registers (tasks : List Task) : Prop where
  names : tasks.Pairwise (fun a b => a.name ≠ b.name)
  ofRuns : ∀ t ∈ tasks, ∃ language, ∃ run ∈ c.runs, t = Task.ofRun c project language run

variable {c project}

/-- One more task keeps the names different: it is passed over if there is one of its name
already. -/
theorem Registers.add {tasks : List Task} (h : c.Registers project tasks) (language : Language)
    {run : RunDescriptor} (hrun : run ∈ c.runs) :
    c.Registers project (Task.add tasks (Task.ofRun c project language run)) := by
  unfold Task.add
  split_ifs with hany
  · exact h
  · simp only [List.any_eq_true, decide_eq_true_iff, not_exists, not_and] at hany
    refine ⟨List.pairwise_append.mpr ⟨h.names, List.pairwise_singleton _ _, ?_⟩, ?_⟩
    · intro t ht u hu
      rw [List.mem_singleton.mp hu]
      exact hany t ht
    · intro t ht
      rcases List.mem_append.mp ht with ht | ht
      · exact h.ofRuns t ht
      · exact ⟨language, run, hrun, List.mem_singleton.mp ht⟩

/-- The tasks of a configuration are registered one by one, those of Java first. -/
theorem registers_tasks : c.Registers project (c.tasks project) :=
  List.foldlRecOn (c.languages project) _ ⟨List.Pairwise.nil, by simp⟩
    (fun _ h language _ => List.foldlRecOn c.runs _ h (fun _ h _ hrun => h.add language hrun))

/-- The output directory of a run with a folder. -/
theorem output_of_run {language : Language} {run : RunDescriptor} {resolved : ResolvedRun}
    {folder : String} (h : (Task.ofRun c project language run).run = .ok resolved)
    (hfolder : run.folder = some folder) : resolved.output = Path.join c.outputPath folder := by
  have hresolve : c.resolve run = .ok resolved := resolve_bind.symm.trans h
  rw [(resolve_eq_ok_iff.mp hresolve).output, hfolder]
  rfl

/-- Tasks whose runs have different folders with plain names are apart. -/
theorem apart_of_folders {σ ι : Type} {w : World σ} (fs : Host.FileSystem w ι)
    {languageA languageB : Language} {a b : RunDescriptor} {folderA folderB : String}
    (ha : a.folder = some folderA) (hb : b.folder = some folderB) (hnameA : Path.IsName folderA)
    (hnameB : Path.IsName folderB) (hne : folderA ≠ folderB) :
    Task.Apart fs (Task.ofRun c project languageA a) (Task.ofRun c project languageB b) := by
  intro run run' hrun hrun'
  have hsteps : fs.place c.outputPath ++ [fs.step folderA]
      ≠ fs.place c.outputPath ++ [fs.step folderB] := by
    intro heq
    have hstep := List.append_cancel_left heq
    exact hne (fs.step_injective (List.cons.inj hstep).1)
  rw [output_of_run hrun ha, output_of_run hrun' hb, fs.place_join_name _ _ hnameA,
    fs.place_join_name _ _ hnameB]
  -- both places are one step below the same one, so if one led on to the other they were equal
  exact ⟨fun h => hsteps (h.eq_of_length (by simp)),
    fun h => hsteps (h.eq_of_length (by simp)).symm⟩

/-- **Where every run has a folder with a plain name, the tasks of one language are apart**, in
whatever order they are taken. -/
theorem pairwise_apart {σ ι : Type} {w : World σ} (fs : Host.FileSystem w ι)
    (hfolders : ∀ run ∈ c.runs, ∃ folder, run.folder = some folder ∧ Path.IsName folder)
    {language : Language} {tasks : List Task}
    (hperm : tasks.Perm ((c.tasks project).filter (fun t => t.language = language))) :
    tasks.Pairwise (Task.Apart fs) := by
  rw [hperm.pairwise_iff (fun h => h.symm fs)]
  refine (registers_tasks.names.filter _).imp_of_mem (fun {a b} ha hb hname => ?_)
  obtain ⟨ha, hlanguageA⟩ := List.mem_filter.mp ha
  obtain ⟨hb, hlanguageB⟩ := List.mem_filter.mp hb
  obtain ⟨languageA, runA, hrunA, rfl⟩ := registers_tasks.ofRuns a ha
  obtain ⟨languageB, runB, hrunB, rfl⟩ := registers_tasks.ofRuns b hb
  obtain ⟨folderA, hfolderA, hnameA⟩ := hfolders runA hrunA
  obtain ⟨folderB, hfolderB, hnameB⟩ := hfolders runB hrunB
  obtain rfl : languageA = language := of_decide_eq_true hlanguageA
  obtain rfl : languageB = languageA := of_decide_eq_true hlanguageB
  refine apart_of_folders fs hfolderA hfolderB hnameA hnameB (fun hsame => hname ?_)
  simp only [Task.ofRun, hfolderA, hfolderB, hsame]

end Configuration

/-! ## Which files are there at the end

The general statement makes no assumption about the configuration; the one that files are
all there asks for tasks that are apart. -/

namespace Task

section

variable {σ ι : Type} {w : World σ} (fs : Host.FileSystem w ι)

/-- **Which reported files are there at the end.** Let tasks be executed one after another, in
any order, and let all succeed. A path that one of them reports leads to a file at the end
exactly if some execution has filled its place and none has cleared it afterwards. So every
such path does where the generators stay inside and no two tasks have output directories one
of which lies at or below the other.

Paths are compared by where they lead. Two tasks may report one file under different paths,
and then the later one counts for both. -/
theorem mem_files_executeAll {s : σ} {switches : Switches} {jobs : List (Task × Kotlin.Generator)}
    (hok : ∀ outcome ∈ (w.run s (executeAll jobs switches)).1,
      ∃ written, outcome.result = .ok written) :
    (∀ outcome ∈ (w.run s (executeAll jobs switches)).1, ∀ written,
        outcome.result = .ok written → ∀ path ∈ written,
          (fs.place path ∈ fs.files (w.run s (executeAll jobs switches)).2
            ↔ Execution.StaysFilled fs (executions (w.answers s) switches jobs) (fs.place path)))
      ∧ ((∀ job ∈ jobs, job.2.StaysInside) → jobs.Pairwise (fun a b => Apart fs a.1 b.1) →
        ∀ outcome ∈ (w.run s (executeAll jobs switches)).1, ∀ written,
          outcome.result = .ok written → ∀ path ∈ written,
            fs.place path ∈ fs.files (w.run s (executeAll jobs switches)).2) := by
  rw [World.run_eq, trace_executeAll] at hok ⊢
  dsimp only at hok ⊢
  rw [List.forall_mem_map] at hok
  have hiff := mem_files_after_executions fs hok
  refine ⟨?_, fun hinside hapart => ?_⟩
  · intro outcome houtcome written hwritten path hpath
    obtain ⟨e, he, rfl⟩ := List.mem_map.mp houtcome
    have hfills : e.Fills fs (fs.place path) := ⟨written, hwritten, path, hpath, rfl⟩
    -- a file that no execution clears was there before, but `e` has written it as well
    exact (hiff _).trans (or_iff_left_of_imp
      (fun h => Execution.staysFilled_of_not_clears he hfills h.2))
  · intro outcome houtcome written hwritten path hpath
    obtain ⟨e, he, rfl⟩ := List.mem_map.mp houtcome
    have hfills : e.Fills fs (fs.place path) := ⟨written, hwritten, path, hpath, rfl⟩
    exact (hiff _).mpr (Or.inl (staysFilled_of_pairwise fs (pairwise_executions hapart) he
      (hinside _ (mem_of_mem_executions he)) hfills))

end

/-- The configuration of the project in `/project`, with a run for each of some folders. -/
def folderConfiguration (folders : List (Option String)) : Configuration where
  sourcePath := "/project/api"
  outputPath := "/project/build"
  generator := some "kotlin-client-v2"
  runs := folders.map (fun folder => { input := "pets.json", folder })

/-- The Kotlin tasks of the project, in the order in which they are registered. -/
def folderTasks (folders : List (Option String)) : List Task :=
  ((folderConfiguration folders).tasks { directory := "/project", root := "/" }).filter
    (fun t => t.language = .kotlin)

/-- A generator that gives one file. -/
def readmeOnly : Kotlin.Generator := fun _ _ _ => .ok [{ path := "README.md", content := "" }]

/-- The disk of the project. -/
def folderDisk : Host.Disk :=
  ⟨[("/project/api/pets.json",
    "\x7b\"openapi\":\"3.0.3\",\"info\":\x7b\"title\":\"Pets\",\"version\":\"1\"\x7d\x7d")]⟩

/-- What executing the tasks of the project gives, and what it leaves of the disk. -/
def runFolders (folders : List (Option String)) : List TaskOutcome × Host.Disk :=
  World.run Host.Disk.answer folderDisk
    (executeAll ((folderTasks folders).map (fun t => (t, readmeOnly))) .empty)

/-- A generator of a single plain file stays inside. -/
theorem staysInside_readmeOnly : readmeOnly.StaysInside := by
  rintro document run switches files ⟨⟩ file hfile
  rw [List.mem_singleton.mp hfile]
  decide

/-- Two runs with a folder each: both files are there in the end. -/
theorem mem_files_executeAll_of_folders :
    (runFolders [some "client", some "entities"]).1.map TaskOutcome.result
        = [.ok ["/project/build/client/README.md"], .ok ["/project/build/entities/README.md"]]
      ∧ ∀ outcome ∈ (runFolders [some "client", some "entities"]).1, ∀ written,
          outcome.result = .ok written → ∀ path ∈ written,
            Host.Disk.fileSystem.place path
              ∈ Host.Disk.fileSystem.files (runFolders [some "client", some "entities"]).2 := by
  have hresults : (runFolders [some "client", some "entities"]).1.map TaskOutcome.result
      = [.ok ["/project/build/client/README.md"], .ok ["/project/build/entities/README.md"]] := by
    decide +kernel
  have hok : ∀ outcome ∈ (runFolders [some "client", some "entities"]).1,
      ∃ written, outcome.result = .ok written := by
    intro outcome houtcome
    have hresult := List.mem_map_of_mem (f := TaskOutcome.result) houtcome
    rw [hresults, List.mem_pair] at hresult
    rcases hresult with h | h
    · exact ⟨_, h⟩
    · exact ⟨_, h⟩
  have hapart : (folderTasks [some "client", some "entities"]).Pairwise
      (Apart Host.Disk.fileSystem) := by
    refine Configuration.pairwise_apart Host.Disk.fileSystem (fun run hrun => ?_) (List.Perm.refl _)
    obtain ⟨folder, hfolder, rfl⟩ := List.mem_map.mp hrun
    rcases List.mem_pair.mp hfolder with rfl | rfl
    · exact ⟨_, rfl, by decide⟩
    · exact ⟨_, rfl, by decide⟩
  -- only now, so that the run is compared as it is written and not evaluated
  unfold runFolders at hok hresults ⊢
  refine ⟨hresults, (mem_files_executeAll Host.Disk.fileSystem hok).2 ?_ ?_⟩
  · intro job hjob
    obtain ⟨t, -, rfl⟩ := List.mem_map.mp hjob
    exact staysInside_readmeOnly
  · exact List.pairwise_map.mpr hapart

/-- **Output directories that differ are not enough.** A run without a folder removes what the
runs with a folder have written, although all succeed. -/
theorem executeAll_removes_output :
    readmeOnly.StaysInside
      ∧ (folderTasks [some "client", none]).map (fun t => t.run.map ResolvedRun.output)
          = [.ok "/project/build/client", .ok "/project/build"]
      ∧ ¬ Path.same "/project/build/client" "/project/build"
      ∧ (runFolders [some "client", none]).1.map TaskOutcome.result
          = [.ok ["/project/build/client/README.md"], .ok ["/project/build/README.md"]]
      ∧ (runFolders [some "client", none]).2.content? "/project/build/client/README.md" = none :=
  ⟨staysInside_readmeOnly, by decide +kernel, by decide +kernel, by decide +kernel⟩

end Task

end ClientGen
