import ClientGen.Host.Disk
import ClientGen.Proofs.Sequence
import Mathlib.Data.List.Basic

/-!
# No switch is left behind

A run sets its switches on top of those that are there and removes their keys afterwards.
What it leaves is therefore what it has found, without those keys (`Switches.entries_begin_finish`):
a key that was there before and that the run sets as well is gone, too. While the run
generates, its own switches hide those of the same keys (`Switches.find?_begin`).

The main statement `Task.executions_switches` says this of every execution in a sequence of
tasks, wherever it fails, and what follows for the sequence as a whole: no execution finds a
switch that was not there from the start. If none was, every run generates with its own
switches alone.
-/

namespace ClientGen

open Host (Program Call)
open Host.Program (Answers)

/-! ## Writing and removing keys

Setting a switch twice leaves one entry, and removing it leaves none. What was there under
other keys stays in its place, so the effect of a run is a selection of the entries. -/

namespace Entries

variable {α : Type}

/-- Writing a key is not seen among the entries of other keys. -/
theorem filter_put {p : String → Bool} {key : String} (h : p key = false) (es : Entries α)
    (value : α) : (es.put key value).filter (fun e => p e.1) = es.filter (fun e => p e.1) := by
  induction es with
  | nil => simp [put, h]
  | cons e es ih =>
    obtain ⟨k, v⟩ := e
    by_cases hk : k = key
    · subst hk
      simp [put, h]
    · rw [put, if_neg hk, List.filter_cons, List.filter_cons, ih]

end Entries

namespace OrderedMap

variable {α : Type}

/-- Nor is writing several of them seen there. -/
theorem filter_putAll {p : String → Bool} {es : Entries α} (h : ∀ key ∈ es.keys, p key = false)
    (m : OrderedMap α) :
    (m.putAll es).entries.filter (fun e => p e.1) = m.entries.filter (fun e => p e.1) := by
  induction es generalizing m with
  | nil => rfl
  | cons e es ih =>
    calc ((m.put e.1 e.2).putAll es).entries.filter (fun e => p e.1)
        = (m.put e.1 e.2).entries.filter (fun e => p e.1) :=
          ih (fun key hkey => h key (List.mem_cons_of_mem _ hkey)) _
      _ = m.entries.filter (fun e => p e.1) :=
          Entries.filter_put (h e.1 List.mem_cons_self) m.entries e.2

/-- **Entries that are written hide those of the same keys.** -/
theorem find?_putAll {es : Entries α} (h : es.keys.Nodup) (m : OrderedMap α) (key : String) :
    (m.putAll es).find? key = (es.find? key).or (m.find? key) := by
  induction es generalizing m with
  | nil => rfl
  | cons e es ih =>
    obtain ⟨k, v⟩ := e
    obtain ⟨hk, hes⟩ := List.nodup_cons.mp h
    show ((m.put k v).putAll es).find? key = _
    rw [ih hes, Entries.find?]
    by_cases hkey : k = key
    · subst hkey
      rw [Entries.find?_eq_none hk, if_pos rfl]
      exact Entries.find?_put_self m.entries k v
    · rw [if_neg hkey]
      exact congrArg _ (Entries.find?_put_of_ne m.entries v hkey)

/-- Removing keys one by one leaves the entries of the other keys. -/
theorem entries_foldl_erase (keys : List String) (m : OrderedMap α) :
    (keys.foldl erase m).entries = m.entries.filter (fun e => e.1 ∉ keys) := by
  induction keys generalizing m with
  | nil => simp
  | cons key keys ih =>
    rw [List.foldl_cons, ih]
    show (m.entries.filter _).filter _ = _
    rw [List.filter_filter]
    refine List.filter_congr (fun e _ => ?_)
    simp [Bool.and_comm]

end OrderedMap

namespace Switches

variable (s own : Switches)

/-- **While a run generates**, its own switches hide those of the same keys. -/
theorem find?_begin (key : String) :
    (s.begin own).find? key = (own.find? key).or (s.find? key) :=
  OrderedMap.find?_putAll own.distinct s key

/-- On no switches, those of the run are all. -/
theorem begin_empty : Switches.begin .empty own = own :=
  OrderedMap.eq_of_entries (OrderedMap.entries_ofEntries own.distinct)

/-- **What a run leaves** is what it has found, without its own keys. -/
theorem entries_begin_finish :
    ((s.begin own).finish own).entries = s.entries.filter (fun e => e.1 ∉ own.keys) := by
  rw [finish, OrderedMap.entries_foldl_erase]
  exact OrderedMap.filter_putAll (p := fun key => decide (key ∉ own.keys))
    (fun key hkey => decide_eq_false (not_not_intro hkey)) s

end Switches

/-! ## One execution

The switches of a run are set once its output directory has been removed, and their keys are
removed again whatever comes of generating. An execution that fails before that has not
begun, and has set none. -/

namespace Task

variable {generator generator' : Kotlin.Generator} {run : ResolvedRun} {switches : Switches}

/-- What a generator is asked for: a document, for the run and with the switches that are set. -/
theorem generateFrom_eq_ok {text : String} {request : GenerationRequest}
    {files : Except TaskError (List Kotlin.SourceFile)}
    (h : generateFrom generator run switches text = .ok (request, files)) :
    request.run = run ∧ request.switches = switches
      ∧ files = (generator request.document run switches).mapError .generator := by
  delta generateFrom at h
  cases hread : Document.read (.ofPath run.input) text with
  | error e =>
    rw [hread] at h
    cases h
  | ok document =>
    rw [hread] at h
    cases h
    exact ⟨rfl, rfl, rfl⟩

/-- Generators that answer one request alike give the same. -/
theorem generateFrom_congr {text : String}
    (h : ∀ request files, generateFrom generator run switches text = .ok (request, files) →
      generator' request.document run switches = generator request.document run switches) :
    generateFrom generator' run switches text = generateFrom generator run switches text := by
  delta generateFrom at h ⊢
  cases hread : Document.read (.ofPath run.input) text with
  | error e => rfl
  | ok document =>
    rw [hread] at h
    dsimp only
    rw [h _ _ rfl]

/-- Regenerating asks for the run, with the switches that are set: the ones that it was
started with, since nothing in between changes them. -/
theorem request_regenerate {host : Answers} {before : List Call} {request : GenerationRequest}
    (h : ((regenerate generator run switches).traceFrom host before).2.2 = some request) :
    request.run = run ∧ request.switches = switches := by
  cases hread : host before (.read run.input) with
  | error reason =>
    rw [traceFrom_regenerate_of_unread hread] at h
    cases h
  | ok text =>
    rw [traceFrom_regenerate_of_read hread] at h
    rcases hgenerate : generateFrom generator run switches text with e | ⟨r, e | files⟩ <;>
      rw [hgenerate] at h <;> cases h
    · exact ⟨(generateFrom_eq_ok hgenerate).1, (generateFrom_eq_ok hgenerate).2.1⟩
    · exact ⟨(generateFrom_eq_ok hgenerate).1, (generateFrom_eq_ok hgenerate).2.1⟩

/-- **Regenerating depends on the generator only by what it answers to the request.** It is
asked once at most, and what is written and what is reported come from its answer. -/
theorem traceFrom_regenerate_congr {host : Answers} {before : List Call}
    (h : ∀ request, ((regenerate generator run switches).traceFrom host before).2.2 = some request →
      generator' request.document request.run request.switches
        = generator request.document request.run request.switches) :
    (regenerate generator' run switches).traceFrom host before
      = (regenerate generator run switches).traceFrom host before := by
  cases hread : host before (.read run.input) with
  | error reason =>
    rw [traceFrom_regenerate_of_unread hread, traceFrom_regenerate_of_unread hread]
  | ok text =>
    have hsame : generateFrom generator' run switches text
        = generateFrom generator run switches text := by
      refine generateFrom_congr (fun request files hgenerate => ?_)
      obtain ⟨hrun, hswitches, -⟩ := generateFrom_eq_ok hgenerate
      -- the request is the same whether generating it fails or not
      rw [traceFrom_regenerate_of_read hread, hgenerate] at h
      have hasked := h request (by cases files <;> rfl)
      rwa [hrun, hswitches] at hasked
    rw [traceFrom_regenerate_of_read hread, traceFrom_regenerate_of_read hread, hsame]

end Task

namespace Execution

variable {e : Execution} {run : ResolvedRun} {request : GenerationRequest}

/-- An execution that begins ends with its switches removed, and with what regenerating gives. -/
theorem outcome_of_begins (h : e.Begins run) :
    e.outcome
      = let r := (Task.regenerate e.generator run (e.switches.begin run.switches)).traceFrom e.host
          [.removeDirectory run.output]
        { result := r.2.1, request := r.2.2,
          switches := (e.switches.begin run.switches).finish run.switches } :=
  congrArg Prod.snd (Task.traceFrom_execute_of_removed h.resolves h.unguarded h.removes)

/-- An execution that does not begin changes no switch, and asks its generator for nothing. -/
theorem outcome_of_not_begins (h : ∀ run, ¬ e.Begins run) :
    e.outcome.switches = e.switches ∧ e.outcome.request = none := by
  obtain ⟨calls, cause, htrace⟩ := exists_trace_of_not_begins h
  rw [outcome, htrace]
  exact ⟨rfl, rfl⟩

/-- An execution that has begun leaves the switches that it has found, without its own keys. -/
theorem switches_of_begins (h : e.Begins run) :
    e.outcome.switches.entries
      = e.switches.entries.filter (fun s => s.1 ∉ run.switches.keys) := by
  rw [outcome_of_begins h]
  exact e.switches.entries_begin_finish run.switches

/-- A generator is asked only by an execution that has begun, with the switches of its run
set. So a request is enough to know that the switches have been set. -/
theorem begins_of_request (h : e.outcome.request = some request) :
    e.Begins request.run ∧ request.switches = e.switches.begin request.run.switches := by
  by_cases hbegins : ∃ run, e.Begins run
  · obtain ⟨run, hrun⟩ := hbegins
    rw [outcome_of_begins hrun] at h
    obtain ⟨hasked, hswitches⟩ := Task.request_regenerate h
    rw [hasked, hswitches]
    exact ⟨hrun, rfl⟩
  · rw [(outcome_of_not_begins (not_exists.mp hbegins)).2] at h
    cases h

/-- No execution adds a switch. -/
theorem sublist_switches (e : Execution) :
    e.outcome.switches.entries.Sublist e.switches.entries := by
  by_cases hbegins : ∃ run, e.Begins run
  · obtain ⟨run, hrun⟩ := hbegins
    rw [switches_of_begins hrun]
    exact List.filter_sublist
  · rw [(outcome_of_not_begins (not_exists.mp hbegins)).1]

/-- **An execution depends on the generator only by what it answers to the request.** -/
theorem trace_execute_congr {generator' : Kotlin.Generator}
    (h : ∀ request, e.outcome.request = some request →
      generator' request.document request.run request.switches
        = e.generator request.document request.run request.switches) :
    (e.task.execute generator' e.switches).trace e.host
      = (e.task.execute e.generator e.switches).trace e.host := by
  by_cases hbegins : ∃ run, e.Begins run
  · obtain ⟨run, hbegins⟩ := hbegins
    rw [outcome_of_begins hbegins] at h
    unfold Program.trace
    rw [Task.traceFrom_execute_of_removed hbegins.resolves hbegins.unguarded hbegins.removes,
      Task.traceFrom_execute_of_removed hbegins.resolves hbegins.unguarded hbegins.removes,
      Task.traceFrom_regenerate_congr h]
  · obtain ⟨calls, cause, htrace⟩ := exists_trace_of_not_begins (not_exists.mp hbegins)
    rw [htrace, htrace]

end Execution

/-! ## Executions in a row

Each execution starts from what the one before has left, so what holds of one is carried
along by induction on the tasks. -/

namespace Task

variable {host : Answers} {switches : Switches} {jobs : List (Task × Kotlin.Generator)}
  {e : Execution}

/-- **What an execution finds has been there from the start.** -/
theorem sublist_of_mem_executions (he : e ∈ executions host switches jobs) :
    e.switches.entries.Sublist switches.entries := by
  induction jobs generalizing host switches with
  | nil => cases he
  | cons job jobs ih =>
    rw [executions, List.mem_cons] at he
    rcases he with rfl | he
    · exact List.Sublist.refl _
    · exact (ih he).trans (Execution.sublist_switches _)

/-- **The switches in a sequence of tasks.** However an execution ends, it leaves the switches
that it has found, without those of its run if it has begun. While it generates, the switches
of its run are set on top of those that it has found, and nothing else is seen of them. No
execution finds or leaves a switch that was not there from the start; so if none was, each
generates with the switches of its run alone and leaves none.

That nothing else is seen of the switches is the fourth part: a generator that answers this
one request alike can be put in its place, and neither calls nor outcome change. -/
theorem executions_switches (he : e ∈ executions host switches jobs) :
    (∀ run, e.Begins run → e.outcome.switches.entries
        = e.switches.entries.filter (fun s => s.1 ∉ run.switches.keys))
      ∧ ((∀ run, ¬ e.Begins run) → e.outcome.switches = e.switches)
      ∧ (∀ request, e.outcome.request = some request → e.Begins request.run
          ∧ ∀ key, request.switches.find? key
              = (request.run.switches.find? key).or (e.switches.find? key))
      ∧ (∀ generator', (∀ request, e.outcome.request = some request →
            generator' request.document request.run request.switches
              = e.generator request.document request.run request.switches) →
          (e.task.execute generator' e.switches).trace e.host = (e.calls, e.outcome))
      ∧ e.switches.entries.Sublist switches.entries
      ∧ e.outcome.switches.entries.Sublist switches.entries
      ∧ (switches = .empty → e.switches = .empty ∧ e.outcome.switches = .empty
          ∧ ∀ request, e.outcome.request = some request →
              request.switches = request.run.switches) := by
  have hfound := sublist_of_mem_executions he
  have hleft := (Execution.sublist_switches e).trans hfound
  refine ⟨fun run => Execution.switches_of_begins,
    fun h => (Execution.outcome_of_not_begins h).1, ?_,
    fun generator' => Execution.trace_execute_congr, hfound, hleft, ?_⟩
  · intro request hrequest
    obtain ⟨hbegins, hswitches⟩ := Execution.begins_of_request hrequest
    refine ⟨hbegins, fun key => ?_⟩
    rw [hswitches, Switches.find?_begin]
  · rintro rfl
    have hempty : e.switches = .empty := OrderedMap.eq_of_entries (List.sublist_nil.mp hfound)
    refine ⟨hempty, OrderedMap.eq_of_entries (List.sublist_nil.mp hleft),
      fun request hrequest => ?_⟩
    rw [(Execution.begins_of_request hrequest).2, hempty, Switches.begin_empty]

/-- A task that turns the models off while it generates. -/
def withoutModels : Task :=
  ofRun
    { outputPath := "/build", generator := some "kotlin-client-v2",
      switches := .ofEntries [(FileClass.models.key, "false")] }
    { directory := "/", root := "/" } .kotlin { input := "pets.json" }

/-- Two runs that turn the models off and fail, since their document is not there: neither
leaves the switch behind. -/
theorem executions_switches_of_failing :
    ∃ e, e ∈ executions (Host.World.answers Host.Disk.answer {}) .empty
          [(withoutModels, fun _ _ _ => .ok []), (withoutModels, fun _ _ _ => .ok [])]
      ∧ (∃ run, e.Begins run ∧ run.switches.find? FileClass.models.key = some "false")
      ∧ e.outcome.result = .error (.host "./pets.json" Host.Disk.missing)
      ∧ e.switches = .empty ∧ e.outcome.switches = .empty := by
  have he := List.mem_of_getElem? (i := 1)
    (l := executions (Host.World.answers Host.Disk.answer {}) .empty
      [(withoutModels, fun _ _ _ => .ok []), (withoutModels, fun _ _ _ => .ok [])]) rfl
  have hempty := (executions_switches he).2.2.2.2.2.2 rfl
  exact ⟨_, he, ⟨_, ⟨rfl, by decide +kernel, rfl⟩, by decide +kernel⟩, by decide +kernel,
    hempty.1, hempty.2.1⟩

end Task

end ClientGen
