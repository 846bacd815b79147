import StagedWorkflow.Proofs.Course
import StagedWorkflow.Proofs.Requests
import StagedWorkflow.Proofs.Thinning

/-!
# Actions that are blind to the structure

A blind action goes by the stores and by the ids of the workflow and of its
stage, and records additions only (`Behaviour.Blind`). Two invocations with
the same ids and stores in them are the same to it, however the structures
around it differ, and the clocks and journals too (`Invocation.run_drifted`).
The worlds of two runs that differ in what they pass over drift apart like
that: the one that passes over more has taken more readings of the clock
(`World.Drifted`). A token that is found live there is found live in the other
(`World.Drifted.check`).
-/

namespace StagedWorkflow

variable {β : Type} {c : Setting β}

/-- **That two worlds have drifted apart**: they have the same stores, flags
and clock, of which the first has taken more readings. -/
structure World.Drifted (w v : World) : Prop where
  heap : w.heap = v.heap
  flags : w.signals.flags = v.signals.flags
  reading : w.signals.clock.reading = v.signals.clock.reading
  taken_le : v.signals.clock.taken ≤ w.signals.clock.taken

namespace World.Drifted

variable {w v : World}

theorem refl (w : World) : w.Drifted w :=
  ⟨rfl, rfl, rfl, Nat.le_refl _⟩

theorem notify (h : w.Drifted v) {logger : Logger} {first second : Notice} :
    (w.notify logger first).Drifted (v.notify logger second) :=
  ⟨h.heap, h.flags, h.reading, h.taken_le⟩

/-- What is reported in the first world alone keeps them as they are. -/
theorem notify_left (h : w.Drifted v) {logger : Logger} {notice : Notice} :
    (w.notify logger notice).Drifted v :=
  ⟨h.heap, h.flags, h.reading, h.taken_le⟩

theorem notifyAll (h : w.Drifted v) {logger : Logger} {first second : List Notice} :
    (w.notifyAll logger first).Drifted (v.notifyAll logger second) := by
  rw [World.notifyAll_eq, World.notifyAll_eq]
  exact ⟨h.heap, h.flags, h.reading, h.taken_le⟩

theorem ask (h : w.Drifted v) (r : Heap.Request) :
    (w.ask r).1 = (v.ask r).1 ∧ (w.ask r).2.Drifted (v.ask r).2 := by
  simp only [World.ask, h.heap]
  exact ⟨trivial, rfl, h.flags, h.reading, h.taken_le⟩

theorem isSet_eq (h : w.Drifted v) {token : Token} :
    w.signals.isSet token = v.signals.isSet token := by
  rw [Signals.isSet, Signals.isSet, h.flags]

/-- A check in the first world alone takes it further away. -/
theorem check_left (h : w.Drifted v) {token : Token} : (w.check token).2.Drifted v := by
  simp only [World.check, Signals.check]
  split
  · exact h
  · cases token.deadline with
    | none => exact h
    | some deadline => exact ⟨h.heap, h.flags, h.reading, Nat.le_succ_of_le h.taken_le⟩

/-- **A token that is live in the first world is live in the second**, which
has seen less time go by. -/
theorem check (h : w.Drifted v) {token : Token} (live : (w.check token).1 = .ok ()) :
    (v.check token).1 = .ok () ∧ (w.check token).2.Drifted (v.check token).2 := by
  simp only [World.check, Signals.check, h.isSet_eq] at live ⊢
  cases set : v.signals.isSet token with
  | true => simp [set] at live
  | false =>
    simp only [set, Bool.false_eq_true, if_false] at live ⊢
    cases limit : token.deadline with
    | none => exact ⟨rfl, h⟩
    | some deadline =>
      simp only [limit] at live ⊢
      have ahead : w.signals.clock.now < deadline := by
        by_contra past
        have le : deadline ≤ w.signals.clock.read.1 := Nat.not_lt.mp past
        simp [le] at live
      have earlier : v.signals.clock.now ≤ w.signals.clock.now := by
        rw [Clock.now, Clock.now, h.reading]
        exact v.signals.clock.reading_mono h.taken_le
      have not_due : ¬ deadline ≤ v.signals.clock.read.1 :=
        Nat.not_le.mpr (Nat.lt_of_le_of_lt earlier ahead)
      rw [if_neg not_due]
      exact ⟨rfl, h.heap, h.flags, h.reading, Nat.succ_le_succ h.taken_le⟩

end World.Drifted

namespace Invocation

/-- That a request goes by the stores and the ids, and by nothing else of
the structure or the token, and adds if it records. -/
inductive Request.Plain : Request β → Prop where
  | heap {r : Heap.Request} : Plain (.heap r)
  | here : Plain .here
  | log {level : Level} {text : String} : Plain (.log level text)
  | report {who : String} {answer : Datum} : Plain (.report who answer)
  | record {mutation : Mutation β} (adds : mutation.Adds) : Plain (.record mutation)
  | pending : Plain .pending

/-- That two invocations have the same ids and store in them. -/
structure SameIds (inv other : Invocation β) : Prop where
  workflow : inv.workflow.id = other.workflow.id
  stage : inv.stage.id = other.stage.id
  store : inv.workflow.store = other.workflow.store

/-- That two states of an invocation have the same queue, in worlds that
have drifted apart. -/
structure State.Drifted (s t : State β) : Prop where
  world : s.world.Drifted t.world
  queue : s.queue = t.queue

end Invocation

/-- **That an action is blind to the structure** around it. -/
def Behaviour.Blind (behaviour : Behaviour β) : Prop :=
  Program.Conforms (S := Invocation.signature β) Invocation.Request.Plain (fun _ => True) behaviour

namespace Invocation

variable {inv other : Invocation β} {s t : State β}

/-- A plain request is answered the same. -/
theorem SameIds.answer (h : inv.SameIds other) (same : s.Drifted t) {r : Request β}
    (plain : r.Plain) :
    (inv.answer r s).1 = (other.answer r t).1 ∧
      (inv.answer r s).2.Drifted (other.answer r t).2 := by
  have written {event event' : Event} :
      (s.world.write event).Drifted (t.world.write event') :=
    ⟨same.world.heap, same.world.flags, same.world.reading, same.world.taken_le⟩
  cases plain with
  | heap =>
    obtain ⟨answers, worlds⟩ := same.world.ask _
    exact ⟨answers, worlds, same.queue⟩
  | here => exact ⟨by simp [Invocation.answer, h.workflow, h.stage, h.store], same⟩
  | log => exact ⟨rfl, written, same.queue⟩
  | report => exact ⟨rfl, written, same.queue⟩
  | @record mutation adds =>
    have taken : (take mutation s.world).1 = (take mutation t.world).1 ∧
        (take mutation s.world).2.Drifted (take mutation t.world).2 := by
      cases mutation with
      | addStage stage =>
        obtain ⟨answers, worlds⟩ := same.world.ask (.clone stage.initial)
        exact ⟨by simp only [take, answers], worlds⟩
      | addAction => exact ⟨rfl, same.world⟩
      | setActionEnabled => cases adds
      | setStageEnabled => cases adds
    refine ⟨taken.1, taken.2, ?_⟩
    simp only [Invocation.answer, same.queue, taken.1]
  | pending => exact ⟨congrArg List.length same.queue, same⟩

/-- **A blind action does the same** wherever the ids and stores are the
same. -/
theorem run_drifted (h : inv.SameIds other) {behaviour : Behaviour β} (blind : behaviour.Blind)
    (same : s.Drifted t) :
    (behaviour.run inv.answer s).1 = (behaviour.run other.answer t).1 ∧
      (behaviour.run inv.answer s).2.Drifted (behaviour.run other.answer t).2 := by
  induction behaviour generalizing s t with
  | done => exact ⟨rfl, same⟩
  | ask r next ih =>
    obtain ⟨answers, states⟩ := h.answer same blind.1
    simp only [Program.run, answers]
    exact ih _ (blind.2 _) states

/-- A plain request leaves flags and clock alone. -/
theorem signals_answer {r : Request β} (plain : r.Plain) :
    (inv.answer r s).2.world.signals = s.world.signals := by
  cases plain with
  | @record mutation adds => cases mutation <;> rfl
  | heap | here | log | report | pending => rfl

theorem signals_run {behaviour : Behaviour β} (blind : behaviour.Blind) :
    (behaviour.run inv.answer s).2.world.signals = s.world.signals := by
  induction behaviour generalizing s with
  | done => rfl
  | ask r next ih => exact (ih _ (blind.2 _)).trans (signals_answer blind.1)

end Invocation

/-! ## Calls -/

/-- What a call comes to, wherever and in whichever run it is made. -/
structure Move (β : Type) where
  stageId : String
  action : Action β
  /-- The mutations that take effect. -/
  granted : List (Mutation β)

namespace Call

variable {call : Call β}

/-- What a call comes to. -/
def move (c : Setting β) (call : Call β) : Move β :=
  ⟨call.stage.id, call.action, call.granted c⟩

/-- **A blind action only adds.** -/
theorem adds_of_blind (blind : (c.behave call.action).Blind) :
    ∀ mutation ∈ call.granted c, mutation.Adds := by
  have queued : ∀ mutation ∈ call.queue c, mutation.Adds := by
    have records : (c.behave call.action).Conforms
        (Invocation.Request.Records Mutation.Adds) fun _ => True := by
      refine Program.Conforms.mono blind (fun r plain mutation eq => ?_) fun _ => id
      subst eq
      cases plain with
      | record adds => exact adds
    refine Invocation.forall_queue _ (fun mutation world adds => ?_) records nofun
    cases mutation with
    | addAction | addStage => trivial
    | setActionEnabled | setStageEnabled => exact adds
  intro mutation granted
  rw [Call.granted] at granted
  split at granted
  · exact queued mutation granted
  · cases granted

theorem signals_left (blind : (c.behave call.action).Blind) :
    (call.left c).signals = call.world.signals :=
  Invocation.signals_run blind

/-- **Two calls of a blind action come to the same**, where the ids and the
stores are the same. -/
theorem drifted {other : Call β} (action : call.action = other.action)
    (blind : (c.behave call.action).Blind)
    (ids : (⟨c.token, c.logger, call.site.workflow, call.stage⟩ : Invocation β).SameIds
      ⟨c.token, c.logger, other.site.workflow, other.stage⟩)
    (worlds : call.world.Drifted other.world) :
    call.result c = other.result c ∧ call.queue c = other.queue c ∧
      (call.left c).Drifted (other.left c) ∧ call.move c = other.move c := by
  have start : (⟨call.world, []⟩ : Invocation.State β).Drifted ⟨other.world, []⟩ := ⟨worlds, rfl⟩
  obtain ⟨results, states⟩ := Invocation.run_drifted ids blind start
  have ended_eq : other.ended c =
      (c.behave call.action).run
        (⟨c.token, c.logger, other.site.workflow, other.stage⟩ : Invocation β).answer
        ⟨other.world, []⟩ := by
    rw [action]
    rfl
  have result_eq : call.result c = other.result c := by
    rw [Call.result, Call.result, ended_eq]
    exact results
  have queue_eq : call.queue c = other.queue c := by
    rw [Call.queue, Call.queue, ended_eq]
    exact states.queue
  refine ⟨result_eq, queue_eq, ?_, ?_⟩
  · rw [Call.left, Call.left, ended_eq]
    exact states.world
  · rw [move, move, granted, granted, result_eq, queue_eq, action, ids.stage]

end Call

end StagedWorkflow
