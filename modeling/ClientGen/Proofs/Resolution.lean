import ClientGen.Run.Resolution
import Mathlib.Data.List.Basic

/-!
# What a run resolves to

A run can be resolved if it names a document, has no blank folder, and the configuration
names a generator. What it resolves to is then fixed by the configuration and the run alone
(`Configuration.resolve_eq_ok_iff`).

The settings are merged by moving those of the run to the end, one after the other. As the
run sets no key twice, this leaves the settings of the configuration that it does not
override, followed by its own, each part in its order (`OrderedMap.entries_foldl_moveLast`).
Settings are a list of entries, so their order is part of what a run resolves to.
-/

namespace ClientGen

namespace OrderedMap

variable {α : Type}

/-- A key that is moved to the end leaves the others where they are. -/
theorem entries_moveLast (m : OrderedMap α) (key : String) (value : α) :
    (m.moveLast key value).entries = m.entries.filter (fun e => e.1 ≠ key) ++ [(key, value)] := by
  have hkey : key ∉ (m.erase key).entries.keys := by
    show key ∉ (m.entries.drop key).keys
    rw [Entries.keys_drop]
    simp
  exact Entries.put_of_notMem value hkey

/-- **Distinct keys that are moved to the end in turn** stand behind all others, in the
order in which they were moved. By induction on the keys, for every map that they may be
moved in. -/
theorem entries_foldl_moveLast {es : Entries α} (h : es.keys.Nodup) (m : OrderedMap α) :
    (es.foldl (fun m e => m.moveLast e.1 e.2) m).entries
      = m.entries.filter (fun e => e.1 ∉ es.keys) ++ es := by
  induction es generalizing m with
  | nil => simp [Entries.keys]
  | cons e es ih =>
    obtain ⟨key, value⟩ := e
    obtain ⟨hkey, hes⟩ : key ∉ Entries.keys es ∧ (Entries.keys es).Nodup := List.nodup_cons.mp h
    -- the key is not moved again, so its entry stays in front of those that follow
    have hstays : [(key, value)].filter (fun e => e.1 ∉ Entries.keys es) = [(key, value)] := by
      rw [List.filter_singleton, decide_eq_true hkey]
      rfl
    rw [List.foldl_cons, ih hes, entries_moveLast, List.filter_append, hstays,
      List.filter_filter, List.append_assoc]
    refine congrArg (· ++ (key, value) :: es) (List.filter_congr (fun e _ => ?_))
    rw [Bool.eq_iff_iff, Bool.and_eq_true, decide_eq_true_iff, decide_eq_true_iff,
      decide_eq_true_iff]
    simp only [Entries.keys, List.map_cons, List.mem_cons, not_or]
    exact and_comm

end OrderedMap

namespace Configuration

variable {c : Configuration} {run : RunDescriptor} {r : ResolvedRun}

/-- **A run resolves to** what the configuration and the run say together. -/
structure ResolvesTo (c : Configuration) (run : RunDescriptor) (r : ResolvedRun) : Prop where
  hasInput : ¬ Text.isBlank run.input
  hasNoBlankFolder : ¬ run.folder.any Text.isBlank
  hasGenerator : ¬ Text.isBlank r.generator
  input : r.input = Path.join c.sourcePath run.input
  /-- The folder of the run below the output path; the output path itself without one. -/
  output : r.output = (run.folder.map (Path.join c.outputPath)).getD c.outputPath
  generator : c.generator = some r.generator
  library : r.library = run.library.or c.library
  /-- The settings that the run does not override, then those of the run. -/
  settings : r.settings.entries
    = c.settings.entries.filter (fun e => e.1 ∉ run.settings.keys) ++ run.settings.entries
  switches : r.switches = c.switches

/-- The check of a run passes if it names a document and has no blank folder. -/
theorem check_eq_ok_iff :
    run.check = .ok () ↔ ¬ Text.isBlank run.input ∧ ¬ run.folder.any Text.isBlank := by
  unfold RunDescriptor.check
  split_ifs with hinput hfolder
  · simp [hinput]
  · simp [hfolder]
  · simp [hinput, hfolder]

/-- A configuration has a generator if it names one that is not blank. -/
theorem generator?_eq_some {generator : String} :
    c.generator? = some generator ↔ c.generator = some generator ∧ ¬ Text.isBlank generator := by
  unfold generator?
  rw [Option.filter_eq_some_iff, Bool.not_eq_true', Bool.not_eq_true]

/-- **Settings are merged** by leaving out what the run overrides. -/
theorem entries_settingsFor :
    (c.settingsFor run).entries
      = c.settings.entries.filter (fun e => e.1 ∉ run.settings.keys) ++ run.settings.entries :=
  OrderedMap.entries_foldl_moveLast run.settings.distinct c.settings

/-- **When a run can be resolved, and to what.** The checks come first and in a fixed order,
which a run that is resolved does not show any more. -/
theorem resolve_eq_ok_iff : c.resolve run = .ok r ↔ c.ResolvesTo run r := by
  constructor
  · intro h
    unfold resolve at h
    cases hcheck : run.check with
    | error e =>
      rw [hcheck] at h
      cases h
    | ok =>
      rw [hcheck] at h
      obtain ⟨hinput, hfolder⟩ := check_eq_ok_iff.mp hcheck
      cases hgenerator : c.generator? with
      | none =>
        rw [hgenerator] at h
        cases h
      | some generator =>
        rw [hgenerator] at h
        obtain ⟨hgenerator, hnamed⟩ := generator?_eq_some.mp hgenerator
        cases h
        refine ⟨hinput, hfolder, hnamed, rfl, ?_, hgenerator, ?_, entries_settingsFor, rfl⟩
        · cases run.folder <;> rfl
        · cases run.library <;> rfl
  · intro h
    have hcheck : run.check = .ok () := check_eq_ok_iff.mpr ⟨h.hasInput, h.hasNoBlankFolder⟩
    have hgenerator : c.generator? = some r.generator :=
      generator?_eq_some.mpr ⟨h.generator, h.hasGenerator⟩
    have hsettings : c.settingsFor run = r.settings :=
      OrderedMap.eq_of_entries (entries_settingsFor.trans h.settings.symm)
    obtain ⟨-, -, -, hinput, houtput, -, hlibrary, -, hswitches⟩ := h
    obtain ⟨input, output, generator, library, settings, switches⟩ := r
    subst hinput houtput hlibrary hsettings hswitches
    unfold resolve
    rw [hcheck, hgenerator]
    cases run.folder <;> cases run.library <;> rfl

/-- A run that has just been bound is resolved from the configuration. -/
theorem resolve_bind : (c.bind run).resolve.1 = c.resolve run := by
  unfold BoundRun.resolve bind
  cases c.resolve run <;> rfl

end Configuration

end ClientGen
