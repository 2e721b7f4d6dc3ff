import ClientGen.Proofs.Outputs
import Mathlib.Data.List.Induction

/-!
# Which tasks a configuration has

The runs of a configuration are registered for one language after the other, and a task whose
name is taken already is passed over. A name tells the language and the folder that it is made
of (`Task.nameFor_inj`), so tasks of different languages never meet, and within a language a
run is passed over exactly if an earlier one has its folder. Registering all runs of a language
therefore adds a task for the first run of each folder, behind whatever is there
(`Task.foldl_add`, by induction on the runs from their end).

The main statement `Configuration.tasks_registers` adds which languages there are, and what each
task is bound to and hooked into.
-/

namespace ClientGen

/-! ## The first run of each folder

The program never looks at earlier runs: it passes a task over if its name is taken. Which
runs that leaves is said here without tasks, in terms of the runs alone. -/

namespace RunDescriptor

/-- **The runs that are the first of their folder**, in their order: no run before them has the
same. Having no folder counts as one folder. -/
def firstOfFolders (runs : List RunDescriptor) : List RunDescriptor :=
  (runs.zipIdx.filter (fun e =>
    (runs.take e.2).all (fun earlier => earlier.folder ≠ e.1.folder))).map Prod.fst

/-- One more run is the first of its folder if none of the others has it. -/
theorem firstOfFolders_concat (runs : List RunDescriptor) (run : RunDescriptor) :
    firstOfFolders (runs ++ [run]) = firstOfFolders runs
      ++ if run.folder ∈ runs.map folder then [] else [run] := by
  -- whatever follows, a run has the same ones before it
  have hbefore : ∀ e ∈ runs.zipIdx, (runs ++ [run]).take e.2 = runs.take e.2 := by
    intro e he
    obtain ⟨hlt, -⟩ := List.getElem?_eq_some_iff.mp (List.mem_zipIdx_iff_getElem?.mp he)
    exact List.take_append_of_le_length hlt.le
  have hlast : runs.all (fun earlier => earlier.folder ≠ run.folder)
      = decide (run.folder ∉ runs.map folder) := by
    rw [Bool.eq_iff_iff, List.all_eq_true, decide_eq_true_iff]
    simp
  unfold firstOfFolders
  rw [List.zipIdx_append, List.filter_append, List.map_append,
    List.filter_congr (fun e he => by rw [hbefore e he]), List.zipIdx_singleton, Nat.zero_add,
    List.filter_singleton, List.take_left' rfl, hlast]
  congr 1
  split_ifs with hmem
  · simp [hmem]
  · simp [hmem]

/-- Every folder is that of a first run. -/
theorem mem_map_firstOfFolders {runs : List RunDescriptor} {f : Option String} :
    f ∈ (firstOfFolders runs).map folder ↔ f ∈ runs.map folder := by
  induction runs using List.reverseRecOn with
  | nil => rfl
  | append_singleton runs run ih =>
    rw [firstOfFolders_concat, List.map_append, List.mem_append, ih, List.map_append,
      List.mem_append]
    split_ifs with hmem
    · simp only [List.map_nil, List.not_mem_nil, or_false, List.map_singleton, List.mem_singleton]
      exact ⟨.inl, fun h => h.elim id (fun h => h ▸ hmem)⟩
    · rfl

end RunDescriptor

/-! ## Names of tasks

A name is that of the language, followed by a dash and the folder where there is one. The
languages begin with different letters and their names have no dash, so a name can be taken
apart again. -/

namespace Task

/-- **The name of a task tells its language and its folder**, and whether there is one. It
is what makes passing over a name the same as passing over a folder. -/
theorem nameFor_inj {language language' : Language} {folder folder' : Option String} :
    nameFor language folder = nameFor language' folder'
      ↔ language = language' ∧ folder = folder' := by
  refine ⟨fun h => ?_, fun ⟨hlanguage, hfolder⟩ => hlanguage ▸ hfolder ▸ rfl⟩
  have hchars := congrArg String.toList h
  unfold nameFor at hchars
  -- the languages differ in their first letter, and only a folder has a dash before it
  cases language <;> cases language' <;> cases folder <;> cases folder' <;>
    simp [Language.name, String.toList_inj] at hchars ⊢ <;> assumption

open RunDescriptor (firstOfFolders)

variable (c : Configuration) (project : HostProject)

/-- **Registering the runs of a language**, of which there is no task yet, adds one for the
first run of each folder. The last run is taken off, as it is the earlier runs that decide
about it: its name is taken exactly if one of them has its folder. -/
theorem foldl_add (language : Language) (tasks : List Task)
    (hnew : ∀ t ∈ tasks, ∀ folder, t.name ≠ nameFor language folder) (runs : List RunDescriptor) :
    runs.foldl (fun tasks run => add tasks (ofRun c project language run)) tasks
      = tasks ++ (firstOfFolders runs).map (ofRun c project language) := by
  induction runs using List.reverseRecOn with
  | nil => exact (List.append_nil tasks).symm
  | append_singleton runs run ih =>
    have htaken : (tasks ++ (firstOfFolders runs).map (ofRun c project language)).any
        (fun t => t.name = (ofRun c project language run).name) = true
          ↔ run.folder ∈ runs.map RunDescriptor.folder := by
      have hnone : tasks.any (fun t => t.name = (ofRun c project language run).name) = false :=
        List.any_eq_false.mpr (fun t ht h => hnew t ht run.folder (of_decide_eq_true h))
      rw [List.any_append, hnone, Bool.false_or, ← RunDescriptor.mem_map_firstOfFolders,
        List.any_map, List.any_eq_true, List.mem_map]
      simp [ofRun, nameFor_inj]
    rw [List.foldl_append, ih, List.foldl_cons, List.foldl_nil, add,
      RunDescriptor.firstOfFolders_concat, List.map_append, ← List.append_assoc]
    split_ifs with h h' h'
    · rw [List.map_nil, List.append_nil]
    · exact absurd (htaken.mp h) h'
    · exact absurd (htaken.mpr h') h
    · rfl

/-- The compile tasks of a host project that belong to a language. -/
def compileTasksOf (project : HostProject) : Language → List String
  | .java => ["compileJava"]
  | .kotlin => project.compileTasks.filter (fun name => "compileKotlin".toList <+: name.toList)

/-- **The task of a run** is named for the language and the folder, bound to the run and to the
configuration as it stands, and hooked into the compile tasks of the language, if it is at all. -/
structure IsFor (c : Configuration) (project : HostProject) (language : Language)
    (run : RunDescriptor) (t : Task) : Prop where
  name : t.name = nameFor language run.folder
  ofLanguage : t.language = language
  bound : t.bound = { configuration := c, run, resolved := none }
  directory : t.directory = project.directory
  root : t.root = project.root
  hooks : t.hooks = if c.hooks then compileTasksOf project language else []

/-- Whether a text begins with another can be told from the characters. -/
theorem kotlinTasks_eq : project.kotlinTasks = compileTasksOf project .kotlin :=
  List.filter_congr (fun name _ => by
    rw [Text.startsWith, Bool.eq_iff_iff, List.isPrefixOf_iff_prefix, decide_eq_true_iff]
    rfl)

/-- The task made of a run is the task of that run. -/
theorem isFor_ofRun (language : Language) (run : RunDescriptor) :
    IsFor c project language run (ofRun c project language run) where
  name := rfl
  ofLanguage := rfl
  bound := rfl
  directory := rfl
  root := rfl
  hooks := by
    cases language with
    | java => rfl
    | kotlin =>
      rw [← kotlinTasks_eq]
      rfl

/-- The same of runs one by one. -/
theorem forall₂_isFor_ofRun (language : Language) (runs : List RunDescriptor) :
    List.Forall₂ (IsFor c project language) runs (runs.map (ofRun c project language)) := by
  rw [List.forall₂_map_right_iff]
  exact List.forall₂_same.mpr (fun run _ => isFor_ofRun c project language run)

end Task

/-! ## The tasks of a configuration

Java is registered first and only on a condition, Kotlin always and behind it. So the tasks
of one language are new among those of the other, and what is known of one language can be
used twice. -/

namespace Configuration

open RunDescriptor (firstOfFolders)

variable (c : Configuration) (project : HostProject)

/-- **Java is active** if some task compiles Java, and no task compiles Kotlin or Java is wanted
nevertheless. -/
def JavaActive : Prop :=
  "compileJava" ∈ project.compileTasks
    ∧ ((∀ name ∈ project.compileTasks, ¬ "compileKotlin".toList <+: name.toList)
      ∨ c.forcesJava = true)

/-- Whether Java is active can be computed from the compile tasks. -/
theorem javaActive_iff : c.JavaActive project
    ↔ (project.hasJavaTask && (project.kotlinTasks.isEmpty || c.forcesJava)) = true := by
  rw [JavaActive, Bool.and_eq_true, Bool.or_eq_true, HostProject.hasJavaTask,
    List.contains_iff_mem, List.isEmpty_iff, Task.kotlinTasks_eq, Task.compileTasksOf,
    List.filter_eq_nil_iff]
  simp only [decide_eq_true_iff]
  rfl

instance : Decidable (c.JavaActive project) := decidable_of_iff' _ (c.javaActive_iff project)

/-- **The tasks of a configuration** are those of the active languages, one for the first run of
each folder. -/
theorem tasks_eq : c.tasks project
    = (if c.JavaActive project then (firstOfFolders c.runs).map (Task.ofRun c project .java)
        else [])
      ++ (firstOfFolders c.runs).map (Task.ofRun c project .kotlin) := by
  have hkotlin := Task.foldl_add c project .kotlin
  have hjava := Task.foldl_add c project .java [] (by simp) c.runs
  unfold tasks languages
  split_ifs with hactive h h
  · rw [List.foldl_cons, List.foldl_cons, List.foldl_nil, hjava, hkotlin]
    · rfl
    · intro t ht folder
      obtain ⟨run, -, rfl⟩ := List.mem_map.mp ht
      exact fun hname => nomatch (Task.nameFor_inj.mp hname).1
  · exact absurd ((javaActive_iff c project).mpr hactive) h
  · exact absurd ((javaActive_iff c project).mp h) hactive
  · exact hkotlin [] (by simp) c.runs

/-- **Which tasks are registered.** Whatever the configuration and the host project, no two
tasks have one name. The tasks of Java, if Java is active, stand before those of Kotlin,
which is always active; and the tasks of either are, one by one and in the order of the
configuration, those of the runs whose folder no earlier run has. A run whose folder is
taken has no task, and its document is never read.

Names are distinct across languages as well, because a name tells its language. What is left
to say is then said for each language by itself. -/
theorem tasks_registers :
    ((c.tasks project).map Task.name).Nodup
      ∧ ∃ ofJava ofKotlin, c.tasks project = ofJava ++ ofKotlin
        ∧ (c.JavaActive project →
          List.Forall₂ (Task.IsFor c project .java) (firstOfFolders c.runs) ofJava)
        ∧ (¬ c.JavaActive project → ofJava = [])
        ∧ List.Forall₂ (Task.IsFor c project .kotlin) (firstOfFolders c.runs) ofKotlin := by
  refine ⟨List.pairwise_map.mpr registers_tasks.names, _, _, tasks_eq c project,
    fun h => ?_, fun h => if_neg h, Task.forall₂_isFor_ofRun c project .kotlin _⟩
  rw [if_pos h]
  exact Task.forall₂_isFor_ofRun c project .java _

end Configuration

end ClientGen
