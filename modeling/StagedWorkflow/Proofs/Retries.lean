import StagedWorkflow.Layer
import StagedWorkflow.Proofs.Families

/-!
# Runs with a token that is done

What a run does to tokens is a sequence of deeds on its own token
(`TokenDeed.exists_deeds_of_run`), so a history of deeds can hold whole runs,
and what lasts in histories lasts from one run to the next. Once a token is
done, a run with it or with a clone of it is called off before its first
stage (`Run.calledOff_of_done`), and so is every further one, as many as
a layer makes (`TokenDeed.callTimes_of_done`).
-/

namespace StagedWorkflow

open Session (TokenState)

variable {β : Type}

namespace TokenDeed

variable {clock : Clock} {deeds : List TokenDeed} {number family : Nat} {token : Token}

/-- What is done to one token is a sequence of deeds on its number. -/
theorem exists_deeds_of_handled {s : TokenState} {signals : Signals}
    (found : s.tokens[number]? = some token) (h : s.signals.Handled token signals) :
    ∃ more : List TokenDeed, (∀ deed ∈ more, deed = check number ∨ deed = cancel number) ∧
      more.foldl act s = { s with signals } := by
  induction h with
  | refl => exact ⟨[], nofun, rfl⟩
  | check _ ih =>
    obtain ⟨more, only, eq⟩ := ih
    refine ⟨more ++ [check number], List.forall_mem_append.mpr ⟨only, by simp⟩, ?_⟩
    rw [List.foldl_append, eq]
    exact act_check found
  | cancel _ ih =>
    obtain ⟨more, only, eq⟩ := ih
    refine ⟨more ++ [cancel number], List.forall_mem_append.mpr ⟨only, by simp⟩, ?_⟩
    rw [List.foldl_append, eq]
    exact act_cancel found

/-- **A run is a sequence of deeds** on its token. -/
theorem exists_deeds_of_run {c : Setting β} {steps : Nat} {workflow : Workflow β} {world : World}
    {result : Run.Result β} (member : Member clock deeds number family c.token)
    (start : world.signals = (after clock deeds).signals)
    (h : Run.run c steps workflow world = some result) :
    ∃ more : List TokenDeed, (∀ deed ∈ more, deed = check number ∨ deed = cancel number) ∧
      after clock (deeds ++ more) = { after clock deeds with signals := result.world.signals } := by
  have handled := Run.handled h
  rw [start] at handled
  obtain ⟨more, only, eq⟩ := exists_deeds_of_handled member.token handled
  exact ⟨more, only, after_append.trans eq⟩

/-- **A token that is done stays done**, and so are its clones. -/
theorem Member.done_append {reason : CancelReason} (h : Member clock deeds number family token)
    (done : (after clock deeds).signals.Done token reason) {more : List TokenDeed}
    {other : Nat} {clone : Token} (h' : Member clock (deeds ++ more) other family clone) :
    ∃ reason, (after clock (deeds ++ more)).signals.Done clone reason := by
  obtain ⟨later, cancelled, exceeded⟩ := familyLaw.lasting more number family token h
  -- a clone is equal to its original
  obtain rfl : token = clone := by
    have deadline := familyLaw.alike number other family token clone later h'
    have flag := later.flag_eq.trans h'.flag_eq.symm
    cases token; cases clone; cases flag; cases deadline; rfl
  simp only [← Signals.check_eq_error_iff] at done ⊢
  cases reason with
  | cancelled => exact ⟨_, cancelled done⟩
  | deadlineExceeded =>
    rcases exceeded done with was | was
    · exact ⟨_, was⟩
    · exact ⟨_, was⟩

end TokenDeed

namespace Run

/-- **That a run is called off** before its first stage: it fails as
cancelled, carries out nothing, and leaves the workflow as it is. -/
structure CalledOff (c : Setting β) (steps : Nat) (workflow : Workflow β) (world : World)
    (result : Result β) : Prop where
  run_eq : run c steps workflow world = some result
  outcome_eq : ∃ first checkpoint reason, workflow.stages.head? = some first ∧
    result.outcome = .error (.cancelled workflow.id checkpoint reason) ∧
    checkpoint.message = s!"stage '{first.id}'"
  calls_eq : calls c steps workflow world = []
  workflow_eq : result.workflow = workflow
  heap_eq : result.world.heap = world.heap

/-- **A run whose token is done is called off**, if there is a stage that it
could begin with. -/
theorem calledOff_of_done {c : Setting β} {steps : Nat} {workflow : Workflow β} {world : World}
    {reason : CancelReason} (lt : 0 < steps) (some_stage : workflow.isEmpty = false)
    (done : world.signals.Done c.token reason) :
    ∃ result, CalledOff c steps workflow world result := by
  have done' : (start c workflow world).world.signals.Done c.token reason := done
  obtain ⟨result, finish, unentered, same, heap, stops⟩ := step_of_done done'
  have whole : Traces c steps (start c workflow world) [start c workflow world] result :=
    .last finish
  obtain ⟨answer, trail_eq⟩ := whole.run_eq lt
  obtain ⟨first, rest, list⟩ := List.exists_cons_of_ne_nil (List.isEmpty_eq_false_iff.mp some_stage)
  have head : result.workflow.stages[(start c workflow world).index]? = some first := by
    rw [same]
    exact (congrArg (·[0]?) list).trans rfl
  rw [StopsAtStage, head] at stops
  obtain ⟨checkpoint, outcome, text⟩ := stops.outcome_eq
  refine ⟨result, answer, ⟨first, checkpoint, reason, by rw [list, List.head?_cons], ?_, text⟩, ?_,
    same, heap⟩
  · rw [outcome, same]
    rfl
  · rw [calls, trail, trail_eq, List.flatMap_singleton, callsHere_of_entered?_eq_none unentered]

end Run

namespace TokenDeed

variable {clock : Clock} {deeds : List TokenDeed} {number family : Nat} {token : Token}

/-- What comes back from a call of a layer, which notes it. -/
def notedBy (name : String) (result : Run.Result β) : Run.Result β :=
  { result with world := result.world.write (.returned name result.outcome) }

/-- **That a layer calls in vain**: each call is a run that is called off, and
the next goes on from what comes back. -/
inductive Fruitless (c : Setting β) (steps : Nat) (name : String) :
    Run.Result β → Run.Result β → Prop where
  /-- It calls no more. -/
  | last {first result : Run.Result β}
      (off : Run.CalledOff c steps first.workflow first.world result) :
      Fruitless c steps name first (notedBy name result)
  /-- It calls again. -/
  | next {first result final : Run.Result β}
      (off : Run.CalledOff c steps first.workflow first.world result)
      (later : Fruitless c steps name (notedBy name result) final) :
      Fruitless c steps name first final

section

variable {c : Setting β} {steps : Nat} {name : String} {first final : Run.Result β}

theorem Fruitless.workflow_eq (h : Fruitless c steps name first final) :
    final.workflow = first.workflow := by
  induction h with
  | last off => exact off.workflow_eq
  | next off _ ih => exact ih.trans off.workflow_eq

theorem Fruitless.heap_eq (h : Fruitless c steps name first final) :
    final.world.heap = first.world.heap := by
  induction h with
  | last off => exact off.heap_eq
  | next off _ ih => exact ih.trans off.heap_eq

theorem Fruitless.cancelled (h : Fruitless c steps name first final) :
    ∃ checkpoint reason, final.outcome = .error (.cancelled first.workflow.id checkpoint reason) := by
  induction h with
  | last off =>
    obtain ⟨-, checkpoint, reason, -, outcome, -⟩ := off.outcome_eq
    exact ⟨checkpoint, reason, outcome⟩
  | next off _ ih =>
    obtain ⟨checkpoint, reason, outcome⟩ := ih
    exact ⟨checkpoint, reason, by rw [outcome, notedBy, off.workflow_eq]⟩

end

section

variable {l : Layer β} {behave : Action β → Behaviour β} {steps : Nat} {logger : Logger}
  {first : Run.Result β} {reason : CancelReason}

/-- A layer with the token it was given comes back from a call with nothing,
and the call was some deeds on that token. -/
theorem callOnce_of_done (own : l.token = none) (lt : 0 < steps)
    (member : Member clock deeds number family token)
    (done : (after clock deeds).signals.Done token reason)
    (some_stage : first.workflow.isEmpty = false)
    (start : first.world.signals = (after clock deeds).signals) :
    ∃ result more,
      l.callOnce (Executor.stages behave steps) token logger first.workflow first.world =
        some (notedBy l.name result) ∧
      Run.CalledOff ⟨token, l.logger.getD logger, behave⟩ steps first.workflow first.world result ∧
      result.world.signals = (after clock (deeds ++ more)).signals := by
  have done' : first.world.signals.Done token reason := start ▸ done
  obtain ⟨result, off⟩ : ∃ result, Run.CalledOff ⟨token, l.logger.getD logger, behave⟩ steps
      first.workflow first.world result := Run.calledOff_of_done lt some_stage done'
  obtain ⟨more, -, now⟩ := exists_deeds_of_run member start off.run_eq
  refine ⟨result, more, ?_, off, by rw [now]⟩
  simp [Layer.callOnce, own, Executor.stages, off.run_eq, notedBy]

/-- **A layer that calls again and again** gets no further. -/
theorem callTimes_of_done (own : l.token = none) (lt : 0 < steps)
    (member : Member clock deeds number family token)
    (done : (after clock deeds).signals.Done token reason)
    (some_stage : first.workflow.isEmpty = false)
    (start : first.world.signals = (after clock deeds).signals) (calls : Nat) :
    ∃ final, Fruitless ⟨token, l.logger.getD logger, behave⟩ steps l.name first final ∧
      l.callTimes (Executor.stages behave steps) token logger (calls + 1) first = some final := by
  induction calls generalizing deeds first reason with
  | zero =>
    obtain ⟨result, -, once, off, -⟩ := callOnce_of_done own lt member done some_stage start
    refine ⟨_, .last off, ?_⟩
    rw [Layer.callTimes, once]
    simp [Layer.callTimes]
  | succ calls ih =>
    obtain ⟨result, more, once, off, now⟩ :=
      callOnce_of_done own lt member done some_stage start
    rw [Layer.callTimes, once]
    dsimp only
    split
    · -- it calls again, after the deeds that the call has come to
      have still := member.append more
      obtain ⟨reason, done⟩ := member.done_append done still
      have some_stage' : (notedBy l.name result).workflow.isEmpty = false := by
        rwa [notedBy, off.workflow_eq]
      obtain ⟨final, rest, ran⟩ := ih still done some_stage' now
      exact ⟨final, .next off rest, ran⟩
    · exact ⟨_, .last off, rfl⟩

end

/-- **Cancellation spreads over families of tokens, and lasts**: whatever
tokens are made, cloned, cancelled and checked, a check says what was done to
the family, or else what the time is. A run comes to such deeds itself; and
once a token is done, later runs with it or with a clone are called off, also
those that a layer goes on to make. -/
theorem cancellation_spreads (behave : Action β → Behaviour β) (clock : Clock)
    (deeds : List TokenDeed) :
    FamilyLaw clock deeds ∧
    (∀ number family token logger steps workflow world result,
      Member clock deeds number family token → world.signals = (after clock deeds).signals →
      Executor.stages behave steps token logger workflow world = some result →
      ∃ more : List TokenDeed, (∀ deed ∈ more, deed = check number ∨ deed = cancel number) ∧
        after clock (deeds ++ more) =
          { after clock deeds with signals := result.world.signals }) ∧
    ∀ number family token reason, Member clock deeds number family token →
      status clock deeds token = .error reason →
      ∀ more other clone, Member clock (deeds ++ more) other family clone →
      ∀ logger steps (workflow : Workflow β) world, 0 < steps → workflow.isEmpty = false →
        world.signals = (after clock (deeds ++ more)).signals →
        (∃ result, Run.CalledOff ⟨clone, logger, behave⟩ steps workflow world result) ∧
        ∀ (l : Layer β) calls outcome, l.token = none →
          ∃ final, l.callTimes (Executor.stages behave steps) clone logger (calls + 1)
              ⟨workflow, world, outcome⟩ = some final ∧
            Fruitless ⟨clone, l.logger.getD logger, behave⟩ steps l.name
              ⟨workflow, world, outcome⟩ final ∧
            final.workflow = workflow ∧ final.world.heap = world.heap ∧
            ∃ checkpoint reason, final.outcome = .error (.cancelled workflow.id checkpoint reason) := by
  refine ⟨familyLaw, fun number family token logger steps workflow world result member start h =>
    exists_deeds_of_run member start h, ?_⟩
  intro number family token reason member fails more other clone member' logger steps workflow
    world lt some_stage start
  obtain ⟨reason, done⟩ := member.done_append (Signals.check_eq_error_iff.mp fails) member'
  refine ⟨Run.calledOff_of_done lt some_stage (start ▸ done), fun l calls outcome own => ?_⟩
  let first : Run.Result β := ⟨workflow, world, outcome⟩
  have start' : first.world.signals = (after clock (deeds ++ more)).signals := start
  obtain ⟨final, vain, ran⟩ := callTimes_of_done own lt member' done some_stage start' calls
  exact ⟨final, ran, vain, vain.workflow_eq, vain.heap_eq, vain.cancelled⟩

/-- A token with a deadline, a clone, and a clone of the clone that is
cancelled; and another token. -/
def sample : List TokenDeed :=
  [create (some 5), clone 0, create none, clone 1, cancel 3]

/-- A layer that calls again after an error. -/
def retry : Layer Sample.Code :=
  { name := "retry", before := (·, ·), after := (·, ·), calls := 3, keepGoing := true }

/-- A run with the first token is called off, and so are three in a row; the
other token is live. -/
theorem cancellation_spreads_sample :
    let world := { Sample.world with signals := (after (.standing 0) sample).signals }
    (∃ result, Run.CalledOff ⟨⟨0, some 5⟩, .discard, Sample.behave⟩ 4 (Sample.workflow .rest)
      world result) ∧
    (∃ final, retry.callTimes (.stages Sample.behave 4) ⟨0, some 5⟩ .discard 3
        ⟨Sample.workflow .rest, world, .ok ()⟩ = some final ∧
      final.workflow = Sample.workflow .rest) ∧
    status (.standing 0) sample ⟨1, none⟩ = .ok () ∧
    ∃ more : List TokenDeed, (∀ deed ∈ more, deed = check 2 ∨ deed = cancel 2) ∧
      (after (.standing 0) (sample ++ more)).tokens = (after (.standing 0) sample).tokens := by
  intro world
  obtain ⟨law, runs, later⟩ := cancellation_spreads Sample.behave (.standing 0) sample
  have cancelled : Member (.standing 0) sample 3 0 ⟨0, some 5⟩ := ⟨rfl, rfl⟩
  have first : Member (.standing 0) (sample ++ []) 0 0 ⟨0, some 5⟩ := ⟨rfl, rfl⟩
  have live : Member (.standing 0) sample 2 1 ⟨1, none⟩ := ⟨rfl, rfl⟩
  obtain ⟨once, again⟩ := later 3 0 _ .cancelled cancelled rfl [] 0 _ first .discard 4
    (Sample.workflow .rest) world (by decide) rfl rfl
  obtain ⟨final, ran, -, same, -⟩ := again retry 2 (.ok ()) rfl
  obtain ⟨more, only, eq⟩ := runs 2 1 ⟨1, none⟩ .discard 4 (Sample.workflow .rest) world _ live
    rfl rfl
  exact ⟨once, ⟨final, ran, same⟩, rfl, more, only, by rw [eq]⟩

end TokenDeed

end StagedWorkflow
