import StagedWorkflow.Proofs.Deferral
import StagedWorkflow.Proofs.Delivery
import StagedWorkflow.Proofs.Journal

/-!
# The stage under a pass

A pass over a member of the list knows its stage by position, and looks it
up again at every step, while the list grows and other stages of the same id
come into it. This file says that the position never goes stale. At every
step, and after every single mutation that is applied between two steps, the
list reaches past the position, and what stands there is the stage that was
entered: as it was put into the list but for its slots, with the actions
that calls of the pass have added (`Site.holds_applyAll`). The position that
is next never passes the end of the stage.

All that names a stage therefore names the same one: the notices that the
pass sends (`Pass.Seated.reports`) and the error it ends with. No other stage
gets any of the actions. `Run.never_stale` puts this together.
-/

namespace StagedWorkflow

variable {β : Type} {c : Setting β}

namespace Notice

/-- Where the stage stands that a notice of a pass is about. -/
def place? : Notice → Option Place
  | stageCancelled place _ _ | stageStarting place _ _ | initialMerged place _ _
  | actionCancelled place _ _ _ _ | actionSkipped place _ _ _ | actionExecuting place _ _ _ _
  | actionFailed place _ _ _ _ | stageCompleted place _ _ => some place
  | workflowStarting _ _ | workflowCancelled _ _ _ _ | stageSkipped _ _
  | workflowCompleted _ _ _ | actionAdded _ _ | stageAdded _ | actionUnknown _ _ _
  | stageUnknown _ _ | optionsMerged _ _ | runFinished _ | runFailed _ _ => none

/-- The id of the stage that a notice of a pass is about. -/
def within? : Notice → Option String
  | stageCancelled _ stageId _ | stageStarting _ stageId _ | initialMerged _ stageId _
  | actionCancelled _ _ stageId _ _ | actionSkipped _ _ stageId _
  | actionExecuting _ _ stageId _ _ | actionFailed _ _ stageId _ _ | stageCompleted _ stageId _
  | actionAdded _ stageId | actionUnknown _ _ stageId => some stageId
  | workflowStarting _ _ | workflowCancelled _ _ _ _ | stageSkipped _ _
  | workflowCompleted _ _ _ | stageAdded _ | stageUnknown _ _ | optionsMerged _ _
  | runFinished _ | runFailed _ _ => none

/-- That a notice is about no stage but the one of an id at a place. -/
structure Concerns (place : Place) (stageId : String) (notice : Notice) : Prop where
  place_eq : ∀ own, notice.place? = some own → own = place
  within_eq : ∀ own, notice.within? = some own → own = stageId

end Notice

/-- That an error is put down to the stage of an id. -/
def RunError.BlamesStage (stageId : String) : RunError → Prop
  | action own _ _ _ => own = stageId
  | cancelled _ (.action _ own) _ => own = stageId
  | cancelled _ (.stage own) _ => own = stageId
  | cancelled _ (.named _) _ | middleware _ => False

/-- That all the engine reports from one world to a later one is about the
stage of an id at a place. -/
def World.Reports (place : Place) (stageId : String) (before after : World) : Prop :=
  ∃ told, after.notices = before.notices ++ told ∧ ∀ notice ∈ told, notice.Concerns place stageId

namespace World.Reports

variable {place : Place} {stageId : String} {u v w : World}

theorem refl : w.Reports place stageId w :=
  ⟨[], by simp, nofun⟩

theorem trans (first : u.Reports place stageId v) (second : v.Reports place stageId w) :
    u.Reports place stageId w := by
  obtain ⟨told, eq, all⟩ := first
  obtain ⟨more, eq', all'⟩ := second
  exact ⟨told ++ more, by rw [eq', eq, List.append_assoc],
    List.forall_mem_append.mpr ⟨all, all'⟩⟩

theorem notify (h : u.Reports place stageId v) {logger : Logger} {notice : Notice}
    (own : notice.Concerns place stageId) : u.Reports place stageId (v.notify logger notice) :=
  h.trans ⟨[notice], World.notices_notify, by simpa using own⟩

theorem notifyAll (h : u.Reports place stageId v) {logger : Logger} {notices : List Notice}
    (own : ∀ notice ∈ notices, notice.Concerns place stageId) :
    u.Reports place stageId (v.notifyAll logger notices) :=
  h.trans ⟨notices, World.notices_notifyAll, own⟩

theorem check (h : u.Reports place stageId v) {token : Token} :
    u.Reports place stageId (v.check token).2 := h

end World.Reports

namespace Site

/-- **What a pass finds at a position** after a queue of mutations: the stage
that it entered. -/
structure Holds (s : Site β) (index : Nat) (before : Workflow β) (entered : Stage β)
    (queue : List (Mutation β)) : Prop where
  seat_eq : s.seat = .member index
  /-- The list reaches past the position. -/
  lt_size : index < s.workflow.size
  /-- The stage there is the one that was entered but for its slots, and its
  actions are those it had and then the added ones. -/
  standing : ∃ now, s.workflow.stages[index]? = some now ∧ s.stage? = some now ∧
    now.withoutSlots = entered.withoutSlots ∧
    now.actions = entered.actions ++ queue.filterMap Mutation.action?
  /-- The other stages are as they were, and then come the added ones, whatever
  their ids are. -/
  others : ∀ k, k ≠ index →
    s.workflow.stages[k]? = (before.stages ++ queue.filterMap Mutation.stage?)[k]?

/-- **Mutations take no stage away from under a pass.** -/
theorem holds_applyAll {w : Workflow β} {index : Nat} {entered : Stage β}
    (found : w.stages[index]? = some entered) (queue : List (Mutation β)) :
    ((⟨w, .member index⟩ : Site β).applyAll queue).2.Holds index w entered queue := by
  have here : (⟨w, .member index⟩ : Site β).stage? = some entered := found
  have place : ((⟨w, .member index⟩ : Site β).applyAll queue).2.place = .member index :=
    place_applyAll
  have there : ((⟨w, .member index⟩ : Site β).applyAll queue).2.stage? =
      some (entered.amendAll queue) := stage?_applyAll here
  have listed := there
  rw [stage?_of_place place] at listed
  exact {
    seat_eq := seat_of_place place
    lt_size := (List.getElem?_eq_some_iff.mp listed).1
    standing := ⟨_, listed, there, Stage.withoutSlots_amendAll, Stage.actions_amendAll⟩
    others := fun k other =>
      getElem?_stages_applyAll fun same => other (Place.member.inj same).symm }

/-- What is reported of a mutation names the stage that is executed. -/
theorem concerns_of_mem_notices {s : Site β} {stage : Stage β} (here : s.stage? = some stage)
    {mutation : Mutation β} {place : Place} {notice : Notice}
    (mem : notice ∈ s.notices mutation) : notice.Concerns place stage.id := by
  cases mutation with
  | addAction action =>
    obtain rfl : notice = .actionAdded action.id stage.id := by simpa [notices, here] using mem
    exact ⟨by simp [Notice.place?], by simp [Notice.within?]⟩
  | addStage added =>
    obtain rfl := List.mem_singleton.mp mem
    exact ⟨by simp [Notice.place?], by simp [Notice.within?]⟩
  | setActionEnabled id enabled =>
    simp only [notices, here] at mem
    split at mem
    · cases mem
    · obtain rfl := List.mem_singleton.mp mem
      exact ⟨by simp [Notice.place?], by simp [Notice.within?]⟩
  | setStageEnabled id enabled =>
    rw [notices] at mem
    split at mem
    · cases mem
    · obtain rfl := List.mem_singleton.mp mem
      exact ⟨by simp [Notice.place?], by simp [Notice.within?]⟩

theorem concerns_of_mem_applyAll {s : Site β} {stage : Stage β} (here : s.stage? = some stage)
    {queue : List (Mutation β)} {place : Place} :
    ∀ notice ∈ (s.applyAll queue).1, notice.Concerns place stage.id := by
  induction queue generalizing s stage with
  | nil => nofun
  | cons mutation rest ih =>
    intro notice mem
    rcases List.mem_append.mp mem with first | later
    · exact concerns_of_mem_notices here first
    · -- the stage keeps its id, so what comes later names it as well
      have named : notice.Concerns place (stage.amendAll [mutation]).id :=
        ih (stage?_apply here) notice later
      rwa [Stage.id_amendAll] at named

end Site

namespace Pass

variable {place : Place} {stageId : String} {p : Pass β} {steps : Nat}

/-- The world that a step ends in. -/
def worldAfter : Step (Pass β) (Result β) → World
  | .again p => p.world
  | .finish result => result.world

/-- **Every notice of a step is about the stage under the pass.** -/
theorem Seated.reports (h : p.Seated place stageId) {s : Step (Pass β) (Result β)}
    (taken : p.step c = s) : p.world.Reports place stageId (worldAfter s) := by
  obtain ⟨stage, here, id_eq, -, turn⟩ := h.turn taken
  have place_eq := h.place_eq
  have stageId_eq := h.stageId_eq
  have concerns {notice : Notice} (at_place : notice.place? = some p.site.place)
      (within : notice.within? = some p.stageId) : notice.Concerns place stageId :=
    ⟨fun own eq => by rw [← place_eq, Option.some.inj (eq.symm.trans at_place)],
      fun own eq => by rw [← stageId_eq, Option.some.inj (eq.symm.trans within)]⟩
  -- a call is announced, and what the action does makes no notice
  have called {action : Action β} :
      p.world.Reports place stageId ((p.calling c stage action).left c) := by
    refine ⟨[.actionExecuting p.site.place p.index p.stageId action.id action.name], ?_,
      by simpa using concerns rfl rfl⟩
    rw [Call.notices_left, notices_calling]
  cases turn with
  | completed past call => exact World.Reports.refl.notify (concerns rfl rfl)
  | cancelled found done call => exact World.Reports.refl.check.notify (concerns rfl rfl)
  | skipped found live off call => exact World.Reports.refl.check.notify (concerns rfl rfl)
  | failed found live on call fault => exact called.notify (concerns rfl rfl)
  | succeeded found live on call ok =>
    refine called.notifyAll ?_
    rw [← id_eq]
    exact Site.concerns_of_mem_applyAll here

/-- What is reported when a stage is entered is about that stage. -/
theorem reports_enter {site : Site β} {stage : Stage β} {world : World} :
    world.Reports site.place stage.id (enter c site stage world).world := by
  have concerns {notice : Notice} (at_place : notice.place? = some site.place)
      (within : notice.within? = some stage.id) : notice.Concerns site.place stage.id :=
    ⟨fun own eq => Option.some.inj (eq.symm.trans at_place),
      fun own eq => Option.some.inj (eq.symm.trans within)⟩
  have started : world.Reports site.place stage.id
      ((world.notify c.logger (.stageStarting site.place stage.id stage.size)).ask
        (.merge site.workflow.store stage.initial {})).2 :=
    World.Reports.refl.notify (concerns rfl rfl)
  simp only [enter]
  split
  · exact started.notify (concerns rfl rfl)
  · exact started

/-- All along a pass every notice is about the stage under it. -/
theorem reports_of_mem_trail (start : p.Seated place stageId) {world : World}
    (before : world.Reports place stageId p.world) :
    ∀ q ∈ p.trail c steps, q.Seated place stageId ∧ world.Reports place stageId q.world := by
  refine Loop.forall_mem_trail (fun q _ t ⟨seated, told⟩ taken => ?_) ⟨start, before⟩
  have taken' : q.step c = .again t := Option.some.inj taken
  exact ⟨seated.again taken', told.trans (seated.reports taken')⟩

end Pass

namespace Run

/-- **That a position stays under the pass over it**, from its start to its
end. -/
structure Footing (c : Setting β) (steps : Nat) (r : Run β) (entered : Stage β) : Prop where
  /-- If the token is done at the start, the stage is called off by its own
  id. -/
  refused : ∀ world result, Pass.start c r.site entered world = .finish result →
    result.site = r.site ∧ world.Reports (.member r.index) entered.id result.world ∧
      ∃ error, result.outcome = .error error ∧ error.BlamesStage entered.id
  /-- At every step the position holds the stage that was entered, under the
  id that the pass has kept. The position that is next is not past its end,
  and all notices have been about it. -/
  at_step : ∀ pass, r.entered? c = some pass → ∀ earlier p later,
    pass.trail c steps = earlier ++ p :: later →
      p.stageId = entered.id ∧
      p.site.Holds r.index r.workflow entered
        ((earlier.filterMap (·.call? c)).flatMap (Call.queue c)) ∧
      (∃ now, p.site.stage? = some now ∧ now.id = p.stageId ∧ p.index ≤ now.size) ∧
      r.world.Reports (.member r.index) entered.id p.world
  /-- So it does while the mutations of a call are applied, after each of
  them. -/
  between : ∀ pass, r.entered? c = some pass → ∀ earlier p later,
    pass.trail c steps = earlier ++ p :: later → ∀ call, p.call? c = some call →
      ∀ applied waiting, call.queue c = applied ++ waiting →
        (p.site.applyAll applied).2.Holds r.index r.workflow entered
          ((earlier.filterMap (·.call? c)).flatMap (Call.queue c) ++ applied) ∧
        ∃ now, (p.site.applyAll applied).2.stage? = some now ∧ now.id = p.stageId ∧
          p.index < now.size
  /-- The pass ends with the site that it has, and an error is put down to the
  stage. -/
  at_end : ∀ pass, r.entered? c = some pass → ∀ p ∈ pass.trail c steps, ∀ result,
    p.step c = .finish result →
      result.site = p.site ∧ r.world.Reports (.member r.index) entered.id result.world ∧
        ∀ error, result.outcome = .error error → error.BlamesStage entered.id

variable {steps : Nat} {r : Run β} {entered : Stage β} {pass : Pass β}

/-- What a pass begins with that is entered at a position. -/
theorem seated_of_entry (found : r.workflow.stages[r.index]? = some entered)
    (entry : r.entered? c = some pass) :
    pass.site = r.site ∧ pass.Seated (.member r.index) entered.id ∧
      r.world.Reports (.member r.index) entered.id pass.world := by
  obtain ⟨stage, found', -, -, begins⟩ := entered?_eq_some entry
  obtain rfl : stage = entered := Option.some.inj (found'.symm.trans found)
  obtain ⟨-, rfl⟩ := Pass.entered?_eq_some_iff.mp begins
  have here : r.site.stage? = some stage := found
  exact ⟨rfl, Pass.seated_enter here, Pass.reports_enter⟩

/-- **A position never goes stale under a pass.** -/
theorem footing (found : r.workflow.stages[r.index]? = some entered) :
    r.Footing c steps entered where
  refused world result taken := by
    rw [Pass.start] at taken
    split at taken
    · next reason after check =>
      obtain rfl := Step.finish.inj taken
      have after_eq : (world.check c.token).2 = after := by rw [check]
      refine ⟨rfl, ?_, _, rfl, rfl⟩
      rw [← after_eq]
      exact World.Reports.refl.check.notify
        ⟨fun _ own => (Option.some.inj own).symm, fun _ own => (Option.some.inj own).symm⟩
    · cases taken
  at_step pass entry earlier p later split := by
    obtain ⟨site_eq, seated, told⟩ := seated_of_entry found entry
    have mem : p ∈ pass.trail c steps := split ▸ List.mem_append_right _ List.mem_cons_self
    obtain ⟨own, -, site⟩ := Pass.site_of_trail seated split
    obtain ⟨now, here, id_eq, le⟩ := own.standing
    refine ⟨own.stageId_eq, ?_, ⟨now, here, by rw [id_eq, own.stageId_eq], le⟩,
      (Pass.reports_of_mem_trail seated told p mem).2⟩
    rw [site, site_eq]
    exact Site.holds_applyAll found _
  between pass entry earlier p later split call called applied waiting _ := by
    obtain ⟨site_eq, seated, -⟩ := seated_of_entry found entry
    obtain ⟨own, -, site⟩ := Pass.site_of_trail seated split
    obtain ⟨now, here, id_eq, -⟩ := own.standing
    obtain ⟨stage, slot, here', at_p, -⟩ := Pass.call?_eq_some called
    obtain rfl : stage = now := Option.some.inj (here'.symm.trans here)
    have lt : p.index < stage.size := (List.getElem?_eq_some_iff.mp at_p).1
    refine ⟨?_, _, Site.stage?_applyAll here, ?_, Nat.lt_of_lt_of_le lt Stage.size_le_size_amendAll⟩
    · -- the mutations applied so far are one queue with those of the calls before
      have whole : (p.site.applyAll applied).2 = (r.site.applyAll
          ((earlier.filterMap (·.call? c)).flatMap (Call.queue c) ++ applied)).2 := by
        rw [Site.applyAll_append, site, site_eq]
      rw [whole]
      exact Site.holds_applyAll found _
    · rw [Stage.id_amendAll, id_eq, own.stageId_eq]
  at_end pass entry p mem result taken := by
    obtain ⟨-, seated, told⟩ := seated_of_entry found entry
    obtain ⟨own, sofar⟩ := Pass.reports_of_mem_trail seated told p mem
    obtain ⟨stage, -, -, -, turn⟩ := own.turn taken
    have stageId_eq := own.stageId_eq
    refine ⟨?_, sofar.trans (own.reports taken), fun error fault => ?_⟩
    · cases turn <;> rfl
    · cases turn with
      | completed => cases fault
      | cancelled =>
        obtain rfl := Except.error.inj fault
        exact stageId_eq
      | failed =>
        obtain rfl := Except.error.inj fault
        exact stageId_eq

/-- **A member never goes stale.** A run looks at no position past the end of
the list but the end itself, and at every other one the pass keeps to the
stage that it entered. -/
theorem never_stale (c : Setting β) (steps : Nat) (workflow : Workflow β) (world : World) :
    ∀ r ∈ trail c steps workflow world, r.index ≤ r.workflow.size ∧
      ∀ entered, r.workflow.stages[r.index]? = some entered → r.Footing c steps entered := by
  intro r mem
  refine ⟨?_, fun entered found => footing found⟩
  have inside : ∀ s ∈ trail c steps workflow world, s.index ≤ s.workflow.size :=
    Loop.forall_mem_trail (fun _ _ _ _ taken => index_le_of_again taken) (Nat.zero_le _)
  exact inside r mem

/-- A stage is followed by one of its own id while the pass over it goes on. -/
theorem never_stale_grow :
    let workflow := Sample.workflow (.grow .rest)
    let r := start Sample.setting workflow Sample.world
    r ∈ trail Sample.setting 4 workflow Sample.world ∧
      r.workflow.stages[r.index]? = some (Sample.stage (.grow .rest)) ∧
      r.Footing Sample.setting 4 (Sample.stage (.grow .rest)) ∧
      (run Sample.setting 4 workflow Sample.world).map
        (fun result => result.workflow.stages.map fun stage => (stage.id, stage.size)) =
          some [("s", 2), ("s", 1)] :=
  ⟨List.mem_cons_self, rfl,
    (never_stale Sample.setting 4 _ Sample.world _ List.mem_cons_self).2 _ rfl, by decide⟩

end Run

end StagedWorkflow
