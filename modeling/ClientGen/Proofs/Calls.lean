import ClientGen.Host.Program
import Mathlib.Data.List.Basic
import Mathlib.Tactic.Common

/-!
# Calls in a row

A program that gives up when a call fails makes a row of calls up to the first one that
fails, and no other. `Answers.cut` says what becomes of a row of calls on a host: the calls
that are made, and the failure that ended them. What is made is a beginning of the row, a
call that fails is the last one made (`Answers.cut_of_failure`), and where no call fails the
whole row is made (`Answers.cut_of_noneFails`).

What a host answers after some calls is again a host (`Answers.after`), so what holds of a
program on every host holds of it wherever it stands in a row of programs
(`Program.trace_bind`).

A host may also be a state that every call changes (`World`). It answers by the calls made
before, like any other (`World.answers`), and what a program leaves of the state is what its
calls leave of it, one after the other (`World.run_eq`).
-/

namespace ClientGen.Host

/-! ## Calls that fail

A call that reads, writes, makes or removes something fails with a path and a reason. The
others cannot fail: to ask whether something is there has an answer either way, and what is
printed is printed. -/

/-- **Where and why a call fails**, if the reply to it is a failure. -/
def Call.failure? : (c : Call) → c.Reply → Option (String × String)
  | .read path, .error reason => some (path, reason)
  | .removeDirectory path, .error reason => some (path, reason)
  | .makeDirectory path, .error reason => some (path, reason)
  | .write path _, .error reason => some (path, reason)
  | _, _ => none

/-- A directory is removed, or the reply is a failure. -/
theorem Call.failure?_removeDirectory_eq_none {path : String} {reply : Except String Unit} :
    (Call.removeDirectory path).failure? reply = none ↔ reply = .ok () := by
  cases reply <;> simp [failure?]

/-- A file is written, or the reply is a failure. -/
theorem Call.failure?_write_eq_none {path content : String} {reply : Except String Unit} :
    (Call.write path content).failure? reply = none ↔ reply = .ok () := by
  cases reply <;> simp [failure?]

namespace Program.Answers

variable (host : Answers)

/-- **No call of a row fails**, each being made after those before it. -/
def NoneFails (before calls : List Call) : Prop :=
  ∀ made c rest, calls = made ++ c :: rest →
    c.failure? (host (made.reverse ++ before) c) = none

/-- **What becomes of a row of calls**: those made until one fails, and its failure. -/
def cut : List Call → List Call → List Call × Option (String × String)
  | _, [] => ([], none)
  | before, c :: calls =>
    match c.failure? (host before c) with
    | some failure => ([c], some failure)
    | none =>
      let rest := cut (c :: before) calls
      (c :: rest.1, rest.2)

variable {host}
variable {before calls : List Call} {c : Call} {failure : String × String}

/-- A row without calls is made at once. -/
theorem cut_nil : host.cut before [] = ([], none) := rfl

/-- A call that fails is made, and ends the row. -/
theorem cut_cons_of_failure (h : c.failure? (host before c) = some failure) :
    host.cut before (c :: calls) = ([c], some failure) := by
  rw [cut, h]

/-- Behind a call that does not fail the row goes on, and the host knows of the call. -/
theorem cut_cons_of_success (h : c.failure? (host before c) = none) :
    host.cut before (c :: calls)
      = (c :: (host.cut (c :: before) calls).1, (host.cut (c :: before) calls).2) := by
  rw [cut, h]

/-- The first call of a row is made in any case. -/
theorem head?_cut (before : List Call) (c : Call) (calls : List Call) :
    (host.cut before (c :: calls)).1.head? = some c := by
  rw [cut]
  split <;> rfl

/-- Two rows, one after the other, as far as the first one is made. -/
theorem cut_append (first second : List Call) :
    host.cut before (first ++ second)
      = match host.cut before first with
        | (made, some failure) => (made, some failure)
        | (made, none) =>
          (made ++ (host.cut (made.reverse ++ before) second).1,
            (host.cut (made.reverse ++ before) second).2) := by
  induction first generalizing before with
  | nil => simp [cut_nil]
  | cons c first ih =>
    cases h : c.failure? (host before c) with
    | some failure => rw [List.cons_append, cut_cons_of_failure h, cut_cons_of_failure h]
    | none =>
      rw [List.cons_append, cut_cons_of_success h, cut_cons_of_success h, ih]
      rcases host.cut (c :: before) first with ⟨made, _ | failure⟩ <;> simp

/-- Of no calls none fails. -/
theorem noneFails_nil : host.NoneFails before [] := by
  intro made c rest h
  simp at h

/-- Of a row none fails, if its first call does not and none of those behind it. -/
theorem noneFails_cons :
    host.NoneFails before (c :: calls)
      ↔ c.failure? (host before c) = none ∧ host.NoneFails (c :: before) calls := by
  constructor
  · intro h
    refine ⟨h [] c calls rfl, fun made d rest hd => ?_⟩
    have := h (c :: made) d rest (by rw [hd, List.cons_append])
    rwa [List.reverse_cons, List.append_assoc, List.singleton_append] at this
  · rintro ⟨hc, h⟩ made d rest hd
    cases made with
    | nil =>
      obtain ⟨rfl, -⟩ := List.cons.inj hd
      exact hc
    | cons c' made =>
      obtain ⟨rfl, htail⟩ := List.cons.inj hd
      rw [List.reverse_cons, List.append_assoc, List.singleton_append]
      exact h made d rest htail

/-- **What is made is a beginning of the row.** -/
theorem cut_prefix (before calls : List Call) : (host.cut before calls).1 <+: calls := by
  induction calls generalizing before with
  | nil => exact List.prefix_rfl
  | cons c calls ih =>
    cases h : c.failure? (host before c) with
    | some failure =>
      rw [cut_cons_of_failure h]
      exact ⟨calls, rfl⟩
    | none =>
      rw [cut_cons_of_success h]
      exact List.cons_prefix_cons.mpr ⟨rfl, ih (c :: before)⟩

/-- **A call that fails is the last one made**, and ends the row with its failure. By
induction on the row: the call that fails is the first one, or it is made behind a first one
that does not fail. -/
theorem cut_of_failure {made rest : List Call}
    (hmade : (host.cut before calls).1 = made ++ c :: rest)
    (h : c.failure? (host (made.reverse ++ before) c) = some failure) :
    rest = [] ∧ (host.cut before calls).2 = some failure := by
  induction calls generalizing before made with
  | nil => simp [cut_nil] at hmade
  | cons d calls ih =>
    cases hd : d.failure? (host before d) with
    | some failure' =>
      rw [cut_cons_of_failure hd] at hmade ⊢
      cases made with
      | nil =>
        obtain ⟨rfl, rfl⟩ := List.cons.inj hmade
        exact ⟨rfl, hd.symm.trans h⟩
      | cons e made => simp at hmade
    | none =>
      rw [cut_cons_of_success hd] at hmade ⊢
      cases made with
      | nil =>
        obtain ⟨rfl, -⟩ := List.cons.inj hmade
        exact absurd (hd.symm.trans h) (by simp)
      | cons e made =>
        obtain ⟨rfl, htail⟩ := List.cons.inj hmade
        refine ih htail ?_
        rwa [List.reverse_cons, List.append_assoc, List.singleton_append] at h

/-- Where a row is made without a failure, none of its calls fails, and all are made. -/
theorem cut_eq_none (h : (host.cut before calls).2 = none) :
    (host.cut before calls).1 = calls ∧ host.NoneFails before calls := by
  induction calls generalizing before with
  | nil => exact ⟨rfl, noneFails_nil⟩
  | cons c calls ih =>
    cases hc : c.failure? (host before c) with
    | some failure =>
      rw [cut_cons_of_failure hc] at h
      cases h
    | none =>
      rw [cut_cons_of_success hc] at h ⊢
      obtain ⟨hmade, hnone⟩ := ih h
      exact ⟨congrArg (c :: ·) hmade, noneFails_cons.mpr ⟨hc, hnone⟩⟩

/-- **Where none of the calls made fails, the whole row is made.** -/
theorem cut_of_noneFails (h : host.NoneFails before (host.cut before calls).1) :
    host.cut before calls = (calls, none) := by
  induction calls generalizing before with
  | nil => rfl
  | cons c calls ih =>
    cases hc : c.failure? (host before c) with
    | some failure =>
      rw [cut_cons_of_failure hc, noneFails_cons, hc] at h
      exact absurd h.1 (by simp)
    | none =>
      rw [cut_cons_of_success hc] at h ⊢
      rw [ih (noneFails_cons.mp h).2]

end Program.Answers

/-! ## Programs after calls

A host answers by the calls made before, so a program that starts later meets another host.
To shift the host instead of the program is what makes statements about whole programs
usable for parts of them. -/

namespace Program

variable {α β : Type}

/-- **One program after the other** makes its calls after those of the first. -/
theorem traceFrom_bind (host : Answers) (before : List Call) (p : Program α)
    (f : α → Program β) :
    traceFrom host before (p.bind f)
      = traceFrom host (traceFrom host before p).1.reverse (f (traceFrom host before p).2) := by
  induction p generalizing before with
  | done a =>
    show _ = traceFrom host before.reverse.reverse (f a)
    rw [List.reverse_reverse]
    rfl
  | ask c next ih => exact ih (host before c) (c :: before)

/-- **The host after some calls** is a host of its own, which knows of them. -/
def Answers.after (host : Answers) (calls : List Call) : Answers :=
  fun before c => host (before ++ calls.reverse) c

/-- Calls do not fail on the host after others if they do not fail behind them. -/
theorem Answers.noneFails_after {host : Answers} {made calls : List Call} :
    (host.after made).NoneFails [] calls ↔ host.NoneFails made.reverse calls := by
  simp [NoneFails, after]

/-- What a program does after some calls, it does on the host after them. -/
theorem traceFrom_append (host : Answers) (made before : List Call) (p : Program α) :
    traceFrom host (made ++ before) p
      = (before.reverse ++ (traceFrom (host.after before.reverse) made p).1,
          (traceFrom (host.after before.reverse) made p).2) := by
  induction p generalizing made with
  | done a => simp [traceFrom]
  | ask c next ih =>
    have hreply : host.after before.reverse made c = host (made ++ before) c := by
      rw [Answers.after, List.reverse_reverse]
    rw [traceFrom, traceFrom, hreply]
    exact ih (host (made ++ before) c) (c :: made)

/-- **A program in two parts**: the second is traced on the host after the calls of the
first. -/
theorem trace_bind (host : Answers) (p : Program α) (f : α → Program β) :
    (p.bind f).trace host
      = ((p.trace host).1 ++ ((f (p.trace host).2).trace (host.after (p.trace host).1)).1,
          ((f (p.trace host).2).trace (host.after (p.trace host).1)).2) := by
  have h := traceFrom_append host [] (p.trace host).1.reverse (f (p.trace host).2)
  rw [List.nil_append, List.reverse_reverse] at h
  exact (traceFrom_bind host [] p f).trans h

end Program

/-! ## Hosts with a state

A disk is such a host. Its answers depend on the calls only through the state that they have
left, and so running a program on it and tracing the program on its answers come to the
same. -/

/-- **A host with a state**: the reply to each call, and the state after it. -/
abbrev World (σ : Type) := σ → (c : Call) → c.Reply × σ

namespace World

variable {σ α : Type} (w : World σ)

/-- Runs a program, and returns its result with the state that it leaves. -/
def run (s : σ) (p : Program α) : α × σ :=
  (p.runWith (m := StateM σ) (fun c => modifyGet (w · c))).run s

/-- The state after calls in a row. -/
def after (s : σ) (calls : List Call) : σ := calls.foldl (fun s c => (w s c).2) s

/-- The answers of a host with a state, by the calls made before. -/
def answers (s : σ) : Program.Answers := fun before c => (w (w.after s before.reverse) c).1

/-- Calls in a row leave the state one after the other. -/
theorem after_append (s : σ) (first second : List Call) :
    w.after s (first ++ second) = w.after (w.after s first) second :=
  List.foldl_append

/-- What the host answers after some calls is what it answers in the state after them. -/
theorem answers_after (s : σ) (calls : List Call) :
    (w.answers s).after calls = w.answers (w.after s calls) := by
  funext before c
  unfold Program.Answers.after answers
  rw [List.reverse_append, List.reverse_reverse, after_append]

/-- Of a row of calls none fails, if its first does not and, in the state after it, none of
those behind it. -/
theorem noneFails_cons {s : σ} {c : Call} {calls : List Call} :
    (w.answers s).NoneFails [] (c :: calls)
      ↔ c.failure? (w s c).1 = none ∧ (w.answers (w s c).2).NoneFails [] calls := by
  have hafter : (w.answers s).after [c] = w.answers (w s c).2 := w.answers_after s [c]
  rw [Program.Answers.noneFails_cons, ← hafter, Program.Answers.noneFails_after]
  rfl

/-- The same of two rows. -/
theorem noneFails_append {s : σ} {first second : List Call} :
    (w.answers s).NoneFails [] (first ++ second)
      ↔ (w.answers s).NoneFails [] first ∧ (w.answers (w.after s first)).NoneFails [] second := by
  induction first generalizing s with
  | nil => exact (and_iff_right Program.Answers.noneFails_nil).symm
  | cons c first ih =>
    rw [List.cons_append, noneFails_cons, noneFails_cons, ih, and_assoc]
    rfl

/-- A call is answered in the state at hand, and the program goes on in the state after it. -/
theorem run_ask (s : σ) (c : Call) (next : c.Reply → Program α) :
    w.run s (.ask c next) = w.run (w s c).2 (next (w s c).1) := rfl

/-- Running a program in the middle of a row of calls. The induction is on the program, so
it needs the calls made before. -/
theorem run_after_eq (s : σ) (before : List Call) (p : Program α) :
    w.run (w.after s before.reverse) p
      = ((p.traceFrom (w.answers s) before).2,
          w.after s (p.traceFrom (w.answers s) before).1) := by
  induction p generalizing before with
  | done a => rfl
  | ask c next ih =>
    rw [run_ask, Program.traceFrom, ← ih, List.reverse_cons, after_append]
    rfl

/-- **A run is the trace of the program and what its calls leave of the state.** -/
theorem run_eq (s : σ) (p : Program α) :
    w.run s p = ((p.trace (w.answers s)).2, w.after s (p.trace (w.answers s)).1) :=
  w.run_after_eq s [] p

end World

end ClientGen.Host
