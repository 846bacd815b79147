import StagedWorkflow.Proofs.Course

/-!
# What the journal shows of a run

The engine sends a notice before it starts a stage or carries an action out,
and the journal keeps it in order with everything else. An action can write
records of its own, but no notice of the engine (`Call.notices_left`), so
the course of a run can be read back from the journal: the stages and
actions it reports are those that were entered and called, one for one
(`Pass.Traces.marks_eq`, `Run.Traces.marks_eq`).
-/

namespace StagedWorkflow

variable {β : Type} {c : Setting β}

/-- The notice of the engine that an event holds. -/
def Event.notice? : Event → Option Notice
  | logged _ (.engine notice) => some notice
  | logged _ (.custom _ _) | reported _ _ | entered _ | noted _ _ | returned _ _ | left _ => none

/-- A mark on the course of a run. -/
inductive Mark where
  /-- The stage there is entered. -/
  | entered (place : Place)
  /-- The action at a position of the stage there is called. -/
  | called (place : Place) (index : Nat)
  deriving DecidableEq

/-- The mark that a notice sets. -/
def Notice.mark? : Notice → Option Mark
  | stageStarting place _ _ => some (.entered place)
  | actionExecuting place index _ _ _ => some (.called place index)
  | _ => none

namespace World

/-- The notices of the engine in the journal, in order. -/
def notices (w : World) : List Notice :=
  w.journal.filterMap Event.notice?

/-- The marks in the journal, in order. -/
def marks (w : World) : List Mark :=
  w.notices.filterMap Notice.mark?

variable {w : World} {logger : Logger}

@[simp] theorem notices_notify {notice : Notice} :
    (w.notify logger notice).notices = w.notices ++ [notice] := by
  simp [notices, Event.notice?]

@[simp] theorem notices_notifyAll {notices : List Notice} :
    (w.notifyAll logger notices).notices = w.notices ++ notices := by
  rw [notifyAll_eq]
  simp [World.notices, List.filterMap_map, Function.comp_def, Event.notice?]

@[simp] theorem notices_check {token : Token} : (w.check token).2.notices = w.notices := rfl

@[simp] theorem notices_write {event : Event} (own : event.notice? = none) :
    (w.write event).notices = w.notices := by
  simp [notices, write, own]

end World

namespace Invocation

variable {inv : Invocation β}

/-- No request of an action makes a notice. -/
theorem notices_answer {r : Request β} {s : State β} :
    (inv.answer r s).2.world.notices = s.world.notices := by
  cases r with
  | heap r => rfl
  | here => rfl
  | stage => rfl
  | workflow => rfl
  | check => rfl
  | cancel => rfl
  | log level text => exact World.notices_write rfl
  | report who answer => exact World.notices_write rfl
  | record mutation => cases mutation <;> rfl
  | pending => rfl

theorem notices_run {behaviour : Behaviour β} {s : State β} :
    (Program.run inv.answer behaviour s).2.world.notices = s.world.notices := by
  induction behaviour generalizing s with
  | done => rfl
  | ask r next ih => exact (ih _).trans notices_answer

end Invocation

namespace Call

/-- The mark that a call sets. -/
def mark (call : Call β) : Mark :=
  .called call.place call.index

/-- **What an action does makes no notice.** -/
@[simp] theorem notices_left {call : Call β} : (call.left c).notices = call.world.notices :=
  Invocation.notices_run

end Call

/-- Whether a notice is about a mutation that is applied. -/
def Notice.isAmendment : Notice → Bool
  | actionAdded _ _ | stageAdded _ | actionUnknown _ _ _ | stageUnknown _ _ => true
  | _ => false

namespace Site

theorem isAmendment_of_mem_notices {s : Site β} {mutation : Mutation β} {notice : Notice}
    (mem : notice ∈ s.notices mutation) : notice.isAmendment = true := by
  cases mutation with
  | addAction action =>
    cases here : s.stage? with
    | none => simp [notices, here] at mem
    | some stage =>
      obtain rfl : notice = _ := by simpa [notices, here] using mem
      rfl
  | addStage stage =>
    obtain rfl := List.mem_singleton.mp mem
    rfl
  | setActionEnabled id enabled =>
    cases here : s.stage? with
    | none => simp [notices, here] at mem
    | some stage =>
      simp only [notices, here] at mem
      split at mem
      · cases mem
      · obtain rfl := List.mem_singleton.mp mem
        rfl
  | setStageEnabled id enabled =>
    rw [notices] at mem
    split at mem
    · cases mem
    · obtain rfl := List.mem_singleton.mp mem
      rfl

/-- **All that is reported of a queue is about its mutations.** -/
theorem isAmendment_of_mem_applyAll {s : Site β} {queue : List (Mutation β)} {notice : Notice}
    (mem : notice ∈ (s.applyAll queue).1) : notice.isAmendment = true := by
  induction queue generalizing s with
  | nil => cases mem
  | cons mutation rest ih =>
    rcases List.mem_append.mp mem with here | later
    · exact isAmendment_of_mem_notices here
    · exact ih later

/-- Mutations that are applied enter no stage and call no action. -/
theorem marks_applyAll {s : Site β} {queue : List (Mutation β)} :
    (s.applyAll queue).1.filterMap Notice.mark? = [] := by
  refine List.filterMap_eq_nil_iff.mpr fun notice mem => ?_
  have own := isAmendment_of_mem_applyAll mem
  cases notice <;> first | rfl | cases own

end Site

namespace Pass

variable {place : Place} {stageId : String} {p : Pass β} {states : List (Pass β)}
  {result : Result β}

@[simp] theorem notices_calling {stage : Stage β} {action : Action β} :
    (p.calling c stage action).world.notices =
      p.world.notices ++
        [.actionExecuting p.site.place p.index p.stageId action.id action.name] := by
  simp [calling]

/-- **The actions that a pass is reported to execute are those it calls.** -/
theorem Traces.marks_eq (h : Traces c p states result) (start : p.Seated place stageId) :
    result.world.marks = p.world.marks ++ (states.filterMap (·.call? c)).map Call.mark := by
  induction h with
  | last taken =>
    obtain ⟨stage, -, -, -, turn⟩ := start.turn (Option.some.inj taken)
    cases turn with
    | completed past call => simp [World.marks, call, Notice.mark?]
    | cancelled found done call => simp [World.marks, call, Notice.mark?]
    | failed found live on call fault =>
      simp [World.marks, call, Notice.mark?, calling, Call.mark, Call.place]
  | next taken rest ih =>
    have seated := start.again (Option.some.inj taken)
    obtain ⟨stage, -, -, -, turn⟩ := start.turn (Option.some.inj taken)
    rw [ih seated]
    cases turn with
    | skipped found live off call => simp [World.marks, call, Notice.mark?]
    | succeeded found live on call ok =>
      simp [World.marks, call, Notice.mark?, calling, Call.mark, Call.place,
        Site.marks_applyAll]

/-- The merge of the initial data sets no mark. -/
theorem marks_enter {site : Site β} {stage : Stage β} {world : World} :
    (enter c site stage world).world.marks = world.marks ++ [.entered site.place] := by
  have ask {w : World} {r : Heap.Request} : (w.ask r).2.notices = w.notices := rfl
  simp only [enter]
  split <;> simp [World.marks, ask, Notice.mark?]

end Pass

namespace Run

variable {steps : Nat} {r : Run β} {states : List (Run β)} {result : Result β}

/-- The marks that are set at the next position. -/
def marksHere (c : Setting β) (steps : Nat) (r : Run β) : List Mark :=
  match r.entered? c with
  | none => []
  | some pass => .entered (.member r.index) :: (pass.calls c steps).map Call.mark

theorem marksHere_of_entered?_eq_none (h : r.entered? c = none) : r.marksHere c steps = [] := by
  rw [marksHere, h]

theorem Enters.marks_eq {stage : Stage β} {pass : Pass β} {passed : Pass.Result β}
    (h : r.Enters c steps stage pass passed) :
    passed.world.marks = r.world.marks ++ r.marksHere c steps := by
  have begins : pass.world.marks = r.world.marks ++ [.entered (.member r.index)] := by
    rw [h.pass_eq, Pass.marks_enter]
    rfl
  rw [h.traces.marks_eq h.seated, begins, marksHere, h.entry, List.append_assoc]
  rfl

/-- **The stages and actions that a run is reported to execute are those it
enters and calls.** -/
theorem Traces.marks_eq (h : Traces c steps r states result) :
    result.world.marks = r.world.marks ++ states.flatMap (marksHere c steps) := by
  -- no other notice of a run sets a mark
  have unmarked {w : World} {notice : Notice} (none : notice.mark? = none) :
      (w.notify c.logger notice).marks = w.marks := by
    simp [World.marks, none]
  have checked {w : World} : (w.check c.token).2.marks = w.marks := rfl
  induction h with
  | last taken =>
    rw [List.flatMap_singleton]
    cases turn taken with
    | completed past entry =>
      rw [marksHere_of_entered?_eq_none entry, unmarked rfl, List.append_nil]
    | cancelled found done entry =>
      rw [marksHere_of_entered?_eq_none entry, unmarked rfl, checked, List.append_nil]
    | refused found live on done entry =>
      rw [marksHere_of_entered?_eq_none entry, unmarked rfl, checked, checked, List.append_nil]
    | stopped enters fault => exact enters.marks_eq
  | next taken rest ih =>
    rw [ih, List.flatMap_cons]
    cases turn taken with
    | skipped found live off entry =>
      rw [marksHere_of_entered?_eq_none entry, unmarked rfl, checked, List.nil_append]
    | passed enters ok => rw [enters.marks_eq, List.append_assoc]

end Run

end StagedWorkflow
