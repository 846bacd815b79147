import StagedWorkflow.Proofs.Cancellation

/-!
# What a run does to tokens

A run makes no token and knows of one only. It checks this token before
what it enters, and so may its actions; only they can cancel it. Nothing
else touches the signals (`Signals.Handled`): one request of an action
handles them so (`Invocation.handled_answer`), hence a call does
(`Call.handled_left`), hence a pass (`Pass.Traces.handled`), and hence a run
(`Run.handled`).
-/

namespace StagedWorkflow

variable {β : Type} {c : Setting β}

/-- **That nothing but checks and cancellations of one token** lies between
two states of the signals. -/
inductive Signals.Handled (token : Token) (s : Signals) : Signals → Prop where
  /-- Nothing has been done. -/
  | refl : Handled token s s
  /-- The token has been checked last. -/
  | check {t : Signals} (h : Handled token s t) : Handled token s (t.check token).2
  /-- The token has been cancelled last. -/
  | cancel {t : Signals} (h : Handled token s t) : Handled token s (t.cancel token)

theorem Signals.Handled.trans {token : Token} {s t u : Signals} (h : s.Handled token t)
    (h' : t.Handled token u) : s.Handled token u := by
  induction h' with
  | refl => exact h
  | check _ ih => exact .check ih
  | cancel _ ih => exact .cancel ih

namespace Invocation

/-- An action has no more than its own token. -/
theorem handled_answer (inv : Invocation β) (s : State β) (r : Request β) :
    s.world.signals.Handled inv.token (inv.answer r s).2.world.signals := by
  cases r with
  | check => exact .check .refl
  | cancel => exact .cancel .refl
  | record mutation => cases mutation <;> exact .refl
  | _ => exact .refl

theorem handled_run (inv : Invocation β) (s : State β) (behaviour : Behaviour β) :
    s.world.signals.Handled inv.token (behaviour.run inv.answer s).2.world.signals := by
  induction behaviour generalizing s with
  | done => exact .refl
  | ask r next ih => exact (handled_answer inv s r).trans (ih _ _)

end Invocation

theorem Call.handled_left {call : Call β} :
    call.world.signals.Handled c.token (call.left c).signals :=
  Invocation.handled_run ⟨c.token, c.logger, call.site.workflow, call.stage⟩ ⟨call.world, []⟩ _

namespace Pass

variable {p : Pass β} {result : Result β}

/-- A call comes after the check of its position. -/
theorem handled_calling {stage : Stage β} {action : Action β} :
    p.world.signals.Handled c.token ((p.calling c stage action).left c).signals :=
  (Signals.Handled.check .refl).trans (p.calling c stage action).handled_left

/-- **A step of a pass** checks the token, and may call an action. -/
theorem handled_step :
    (∀ q, p.step c = .again q → p.world.signals.Handled c.token q.world.signals) ∧
      ∀ result, p.step c = .finish result →
        p.world.signals.Handled c.token result.world.signals := by
  cases here : p.site.stage? with
  | none => simpa [step, here, finish] using .refl
  | some stage =>
    have turned := turn (c := c) here
    generalize p.step c = s at turned
    cases turned with
    | completed => exact ⟨by simp, fun _ eq => by cases eq; exact .refl⟩
    | cancelled => exact ⟨by simp, fun _ eq => by cases eq; exact .check .refl⟩
    | skipped => exact ⟨fun _ eq => by cases eq; exact .check .refl, by simp⟩
    | failed => exact ⟨by simp, fun _ eq => by cases eq; exact handled_calling⟩
    | succeeded =>
      refine ⟨fun _ eq => ?_, by simp⟩
      cases eq
      rw [World.signals_notifyAll]
      exact handled_calling

theorem Traces.handled {states : List (Pass β)} (h : Traces c p states result) :
    p.world.signals.Handled c.token result.world.signals := by
  induction h with
  | last taken => exact handled_step.2 _ (Option.some.inj taken)
  | next taken _ ih => exact (handled_step.1 _ (Option.some.inj taken)).trans ih

end Pass

namespace Run

variable {steps : Nat} {r : Run β} {workflow : Workflow β} {world : World} {result : Result β}

/-- A stage that is entered is entered after two checks. -/
theorem Enters.handled {stage : Stage β} {pass : Pass β} {passed : Pass.Result β}
    (h : r.Enters c steps stage pass passed) :
    r.world.signals.Handled c.token passed.world.signals := by
  have entered : pass.world.signals = ((r.world.check c.token).2.check c.token).2.signals := by
    rw [h.pass_eq]
    simp only [Pass.enter]
    split <;> rfl
  have checks : r.world.signals.Handled c.token pass.world.signals := by
    rw [entered]
    exact .check (.check .refl)
  exact checks.trans h.traces.handled

/-- **A step of a run** checks the token, and may make a pass. -/
theorem handled_step {s : Step (Run β) (Result β)} (taken : r.step c steps = some s) :
    (∀ t, s = .again t → r.world.signals.Handled c.token t.world.signals) ∧
      ∀ result, s = .finish result → r.world.signals.Handled c.token result.world.signals := by
  cases turn taken with
  | completed => exact ⟨by simp, fun _ eq => by cases eq; exact .refl⟩
  | cancelled => exact ⟨by simp, fun _ eq => by cases eq; exact .check .refl⟩
  | skipped => exact ⟨fun _ eq => by cases eq; exact .check .refl, by simp⟩
  | refused => exact ⟨by simp, fun _ eq => by cases eq; exact .check (.check .refl)⟩
  | stopped enters => exact ⟨by simp, fun _ eq => by cases eq; exact enters.handled⟩
  | passed enters => exact ⟨fun _ eq => by cases eq; exact enters.handled, by simp⟩

theorem Traces.handled {states : List (Run β)} (h : Traces c steps r states result) :
    r.world.signals.Handled c.token result.world.signals := by
  induction h with
  | last taken => exact (handled_step taken).2 _ rfl
  | next taken _ ih => exact ((handled_step taken).1 _ rfl).trans ih

/-- **A run does nothing to the signals** but check its token and cancel it. -/
theorem handled (h : run c steps workflow world = some result) :
    world.signals.Handled c.token result.world.signals :=
  (traces_trail h).handled

end Run

end StagedWorkflow
