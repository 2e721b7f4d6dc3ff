import ClientGen.Proofs.Resolution

/-!
# Bound runs do not meet

A run that is bound to a configuration is resolved when it is first asked for, and is kept from
then on with whatever is changed in it. How often it is asked for does not show, nor does what
happens in between to the configuration or to other runs: its answer is always that of the
configuration as it was when the run was bound, with all changes that were made to this run.

For one bound run that is `BoundRun.resolve_after`, by induction on what is asked of it. Among
others, a bound run is after any steps where what is asked of it alone would have brought it
(`BoundRuns.members_after`, by induction on the steps). The main statement
`Configuration.answer?_bindEach` puts the two together.
-/

namespace ClientGen

namespace BoundRun

/-- **What is asked of a bound run**: the resolved run as it is, or a change of it. -/
inductive Action where
  | resolve
  | modify (change : ResolvedRun → ResolvedRun)

/-- What an action makes of the resolved run. -/
def Action.change : Action → ResolvedRun → ResolvedRun
  | .resolve => id
  | .modify change => change

/-- The resolved run that answers an action, and the bound run that keeps it. -/
def act (b : BoundRun) : Action → Except ConfigurationError ResolvedRun × BoundRun
  | .resolve => b.resolve
  | .modify change => b.modify change

/-- A bound run after some actions. -/
def after (b : BoundRun) (actions : List Action) : BoundRun :=
  actions.foldl (fun b a => (b.act a).2) b

/-- **The changes of some actions**, one after the other. -/
def changed (actions : List Action) (r : ResolvedRun) : ResolvedRun :=
  actions.foldl (fun r a => a.change r) r

variable {b : BoundRun}

/-- **A run that is resolved is kept**; one that cannot be resolved leaves nothing behind. -/
theorem resolve_eq (b : BoundRun) :
    b.resolve = (b.resolve.1, match b.resolve.1 with
      | .ok r => { b with resolved := some r }
      | .error _ => b) := by
  obtain ⟨configuration, run, resolved⟩ := b
  cases resolved with
  | some r => rfl
  | none =>
    unfold resolve
    dsimp only
    cases configuration.resolve run <;> rfl

/-- **An action is answered with its change made, and so is whatever is asked next.** The
cases are whether the run can be resolved, and whether the action changes anything; that it
may have been resolved before is behind `resolve_eq`. -/
theorem act_spec (b : BoundRun) (a : Action) :
    (b.act a).1 = b.resolve.1.map a.change
      ∧ (b.act a).2.resolve.1 = b.resolve.1.map a.change := by
  have hb := resolve_eq b
  cases h : b.resolve.1 with
  | ok r =>
    rw [h] at hb
    cases a with
    | resolve =>
      show b.resolve.1 = _ ∧ b.resolve.2.resolve.1 = _
      rw [hb]
      exact ⟨rfl, rfl⟩
    | modify change =>
      show (b.modify change).1 = _ ∧ (b.modify change).2.resolve.1 = _
      unfold modify
      rw [hb]
      exact ⟨rfl, rfl⟩
  | error e =>
    rw [h] at hb
    cases a with
    | resolve =>
      show b.resolve.1 = _ ∧ b.resolve.2.resolve.1 = _
      rw [hb]
      exact ⟨rfl, h⟩
    | modify change =>
      show (b.modify change).1 = _ ∧ (b.modify change).2.resolve.1 = _
      unfold modify
      rw [hb]
      exact ⟨rfl, h⟩

/-- **A bound run answers with all the changes made to it**, or with the error it has always
answered with: a run that cannot be resolved keeps nothing, so no change is ever made to it. -/
theorem resolve_after (b : BoundRun) (actions : List Action) :
    (b.after actions).resolve.1 = b.resolve.1.map (changed actions) := by
  induction actions generalizing b with
  | nil =>
    show b.resolve.1 = b.resolve.1.map id
    cases b.resolve.1 <;> rfl
  | cons a actions ih =>
    calc ((b.act a).2.after actions).resolve.1
        = (b.act a).2.resolve.1.map (changed actions) := ih _
      _ = (b.resolve.1.map a.change).map (changed actions) := by rw [(act_spec b a).2]
      _ = b.resolve.1.map (changed (a :: actions)) := by cases b.resolve.1 <;> rfl

/-- The answer to an action after others. -/
theorem act_after (b : BoundRun) (actions : List Action) (a : Action) :
    ((b.after actions).act a).1 = b.resolve.1.map (changed (actions ++ [a])) := by
  rw [(act_spec _ a).1, resolve_after]
  unfold changed
  rw [show (fun r => (actions ++ [a]).foldl (fun r a => a.change r) r)
    = a.change ∘ (fun r => actions.foldl (fun r a => a.change r) r) from
      funext (fun r => List.foldl_append)]
  cases b.resolve.1 <;> rfl

end BoundRun

/-! ## Bound runs among others

Bound runs are kept in a list and referred to by their number. A step changes one of them,
the configuration, or the number of runs, but no other run. -/

/-- **A configuration and the runs that have been bound to it.** -/
structure BoundRuns where
  /-- The configuration as it stands now. -/
  configuration : Configuration
  members : List BoundRun

namespace BoundRuns

open BoundRun (Action)

/-- **What can happen**: something is asked of one of the bound runs, the configuration is changed,
or another run is bound to it. -/
inductive Step where
  | ask (i : Nat) (a : Action)
  | configure (change : Configuration → Configuration)
  | bind (run : RunDescriptor)

/-- What a step leaves. -/
def step (s : BoundRuns) : Step → BoundRuns
  | .ask i a => { s with members := s.members.modify i (fun b => (b.act a).2) }
  | .configure change => { s with configuration := change s.configuration }
  | .bind run => { s with members := s.members ++ [s.configuration.bind run] }

/-- What some steps leave. -/
def after (s : BoundRuns) (steps : List Step) : BoundRuns := steps.foldl step s

/-- The answer of a bound run, if there is one of this number. -/
def answer? (s : BoundRuns) (i : Nat) (a : Action) :
    Option (Except ConfigurationError ResolvedRun) :=
  s.members[i]?.map (fun b => (b.act a).1)

/-- **What some steps ask of one bound run.** -/
def asked (i : Nat) (steps : List Step) : List Action :=
  steps.filterMap (fun
    | .ask j a => if j = i then some a else none
    | .configure _ => none
    | .bind _ => none)

variable {s : BoundRuns} {i : Nat}

/-- What is asked of one bound run leaves the others. -/
theorem members_step_ask (a : Action) {j : Nat} (h : j ≠ i) :
    (s.step (.ask i a)).members[j]? = s.members[j]? :=
  List.getElem?_modify_ne _ s.members h.symm

/-- **A step brings a bound run no further than what it asks of it.** A run that is bound
later is put behind the others, so numbers keep their meaning. -/
theorem members_step {b : BoundRun} (hb : s.members[i]? = some b) (x : Step) :
    (s.step x).members[i]? = some (b.after (asked i [x])) := by
  cases x with
  | ask j a =>
    by_cases hj : j = i
    · subst hj
      show (s.members.modify j _)[j]? = _
      rw [List.getElem?_modify, hb]
      simp [asked, BoundRun.after]
    · rw [members_step_ask a (Ne.symm hj), hb]
      simp [asked, hj, BoundRun.after]
  | configure change => exact hb
  | bind run =>
    show (s.members ++ _)[i]? = _
    rw [List.getElem?_append_left (List.getElem?_eq_some_iff.mp hb).1, hb]
    rfl

/-- **A bound run among others is where it would be alone.** -/
theorem members_after {b : BoundRun} (hb : s.members[i]? = some b) (steps : List Step) :
    (s.after steps).members[i]? = some (b.after (asked i steps)) := by
  induction steps generalizing s b with
  | nil => exact hb
  | cons x steps ih =>
    have happend : asked i (x :: steps) = asked i [x] ++ asked i steps :=
      List.filterMap_append (l := [x]) ..
    rw [happend]
    show ((s.step x).after steps).members[i]? = _
    rw [ih (members_step hb x)]
    unfold BoundRun.after
    rw [List.foldl_append]

/-- The answer of a bound run among others. -/
theorem answer?_after {b : BoundRun} (hb : s.members[i]? = some b) (steps : List Step)
    (a : Action) :
    (s.after steps).answer? i a
      = some (b.resolve.1.map (BoundRun.changed (asked i steps ++ [a]))) := by
  rw [answer?, members_after hb, Option.map_some, BoundRun.act_after]

end BoundRuns

namespace Configuration

open BoundRun (Action)
open BoundRuns (Step asked)

/-- Some runs bound to a configuration. -/
def bindEach (c : Configuration) (runs : List RunDescriptor) : BoundRuns :=
  ⟨c, runs.map c.bind⟩

/-- **Runs that are bound to one configuration do not meet.** After any steps – whatever is
asked of them in whatever order, and however the configuration itself changes – a run
answers with what the configuration it was bound to says about it, with the changes that
were asked of this run and no others; or with the error that it answers with from the start.
What is asked of it changes neither the configuration nor another run.

That the configuration is changed in between does not matter, because binding a run keeps a
copy of it. -/
theorem answer?_bindEach (c : Configuration) (runs : List RunDescriptor) (steps : List Step)
    (i : Fin runs.length) (a : Action) :
    ((c.bindEach runs).after steps).answer? i a
        = some ((c.resolve runs[i]).map (BoundRun.changed (asked i steps ++ [a])))
      ∧ (∀ r, c.resolve runs[i] = .ok r ↔ c.ResolvesTo runs[i] r)
      ∧ (((c.bindEach runs).after steps).step (.ask i a)).configuration
          = ((c.bindEach runs).after steps).configuration
      ∧ ∀ j : Nat, j ≠ i → (((c.bindEach runs).after steps).step (.ask i a)).members[j]?
          = ((c.bindEach runs).after steps).members[j]? := by
  have hbound : (c.bindEach runs).members[i.val]? = some (c.bind runs[i]) := by
    show (runs.map c.bind)[i.val]? = _
    rw [List.getElem?_map, List.getElem?_eq_getElem i.isLt]
    rfl
  refine ⟨?_, fun r => resolve_eq_ok_iff, rfl, fun j => BoundRuns.members_step_ask a⟩
  rw [BoundRuns.answer?_after hbound, resolve_bind]

end Configuration

end ClientGen
