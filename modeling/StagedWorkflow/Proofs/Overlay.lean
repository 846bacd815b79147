import StagedWorkflow.Proofs.Frame
import StagedWorkflow.Proofs.Retelling

/-!
# Stores laid over one another

The shared store of a run is what the workflow brought, with the entries of
the options laid over it, and then the initial data of each stage that is
entered, in the order of entry (`Store.overlaid`). This is so as long as
actions leave the shared store and the initial data alone
(`Call.Untouched`), whatever else they do: at every call
(`Run.OverlaidAtCalls`), and in the end, however the run ends
(`Run.OverlaidInEnd`). A run with options is besides the run of the workflow
whose store had them merged, but for one record (`Runner.executeWith_echoes`).
-/

namespace StagedWorkflow

variable {β : Type} {c : Setting β}

/-- What a key holds in stores laid over one another, the last on top. -/
def Store.overlaid (stores : List Store) (key : String) : Option Entry :=
  stores.reverse.findSome? (·.get? key)

theorem Store.overlaid_append_singleton {stores : List Store} {top : Store} {key : String} :
    overlaid (stores ++ [top]) key = (top.get? key).or (overlaid stores key) := by
  rw [overlaid, List.reverse_append, List.reverse_singleton, List.singleton_append,
    List.findSome?_cons, overlaid]
  cases top.get? key <;> rfl

/-- The initial data that is merged at the next position, if its stage is
entered. -/
def Run.merged? (c : Setting β) (r : Run β) : Option Store :=
  match r.entered? c, r.workflow.stages[r.index]? with
  | some _, some stage => some (r.world.heap.contents stage.initial)
  | _, _ => none

/-- **What is merged is the initial data of a stage that is entered**: its
turn has come, the token is live, and its id is enabled. -/
theorem Run.exists_of_merged? {r : Run β} {data : Store} (merged : r.merged? c = some data) :
    ∃ stage, r.workflow.stages[r.index]? = some stage ∧ (r.world.check c.token).1 = .ok () ∧
      r.workflow.isStageEnabled stage.id = true ∧ data = r.world.heap.contents stage.initial := by
  rw [merged?] at merged
  split at merged
  next pass stage entry found =>
    obtain ⟨own, found', live, on, -⟩ := entered?_eq_some entry
    obtain rfl : own = stage := Option.some.inj (found'.symm.trans found)
    exact ⟨own, found, live, on, (Option.some.inj merged).symm⟩
  next => cases merged

/-- That the shared store of a workflow is there, and no stage's initial
data. -/
structure Workflow.Apart (workflow : Workflow β) (heap : Heap) : Prop where
  made : workflow.store < heap.stores.size
  own : workflow.store ∉ workflow.initials

/-- **That a call leaves the shared store alone, and the initial data of
every stage.** -/
def Call.Untouched (c : Setting β) (call : Call β) : Prop :=
  call.Leaves c call.site.workflow.store ∧
    ∀ s ∈ call.site.workflow.initials, call.Leaves c s

/-- That the shared store is several stores laid over one another. -/
structure Overlays (store : StoreId) (stores : List Store) (workflow : Workflow β) (heap : Heap) :
    Prop where
  store_eq : workflow.store = store
  apart : workflow.Apart heap
  get?_eq : ∀ key, (heap.contents store).get? key = Store.overlaid stores key

namespace Overlays

variable {store : StoreId} {stores : List Store} {workflow : Workflow β} {heap : Heap}

/-- **A merge lays a store on top.** -/
theorem merge (h : Overlays store stores workflow heap) (source : StoreId) :
    Overlays store (stores ++ [heap.contents source]) workflow
      (heap.merge workflow.store source {}).2 where
  store_eq := h.store_eq
  apart := ⟨Nat.lt_of_lt_of_eq h.apart.made Heap.size_modify.symm, h.apart.own⟩
  get?_eq key := by
    have made : store < heap.stores.size := h.store_eq ▸ h.apart.made
    have merged : (heap.merge workflow.store source {}).2.contents store =
        ((heap.contents store).merge (heap.contents source) {}).2 := by
      rw [h.store_eq]
      exact Heap.contents_modify_self made
    rw [merged, Store.get?_merge_default, Store.overlaid_append_singleton, h.get?_eq]

/-- **A call that leaves the shared store alone leaves it overlaid**, and
apart from the initial data of the stages that it adds. -/
theorem call {call : Call β} (untouched : call.Untouched c) :
    call.Keeps c fun site heap => Overlays store stores site.workflow heap := by
  intro h
  have store_eq : (call.settled c).workflow.store = call.site.workflow.store := Call.store_settled
  refine ⟨store_eq.trans h.store_eq, ⟨?_, ?_⟩, fun key => ?_⟩
  · rw [store_eq]
    exact Nat.lt_of_lt_of_le h.apart.made Call.size_le_left
  · rw [store_eq, Call.initials_settled, List.mem_append]
    rintro (old | new)
    · exact h.apart.own old
    · obtain ⟨stage, added, eq⟩ := List.mem_map.mp new
      have made : stage.initial < call.world.heap.stores.size := eq ▸ h.apart.made
      exact absurd made (Nat.not_lt.mpr (Call.size_le_initial added))
  · have left : (call.left c).heap.contents store = call.world.heap.contents store := by
      rw [← h.store_eq]
      exact untouched.1
    rw [left, h.get?_eq]

end Overlays

namespace Run

variable {steps : Nat} {states : List (Run β)} {store : StoreId} {below : List Store}

/-- **A run lays the initial data of the stages it enters over what was
there**, one after another. -/
theorem carries_overlays
    (untouched : ∀ call ∈ states.flatMap (callsHere c steps), call.Untouched c) :
    Carries c steps states fun earlier =>
      Overlays store (below ++ earlier.filterMap (·.merged? c)) where
  passes earlier r _ none h := by
    have nothing : r.merged? c = Option.none := by rw [merged?, none]
    rw [List.filterMap_append]
    simpa [nothing] using h
  enters earlier r _ stage found entry h := by
    obtain ⟨pass, entered⟩ := Option.isSome_iff_exists.mp entry
    have data : r.merged? c = some (r.world.heap.contents stage.initial) := by
      rw [merged?, entered, found]
    rw [List.filterMap_append, entering]
    simpa [data] using h.merge stage.initial
  calls _ call hcall := Overlays.call (untouched call hcall)

/-- **What all calls leave alone stays**, if it is no shared store. What is
to be left alone can depend on the workflow, if it is still to be after a
call. -/
theorem carries_contents {s : StoreId} {held : Store} (watched : Workflow β → Prop)
    (ne : s ≠ store)
    (leaves : ∀ call ∈ states.flatMap (callsHere c steps), watched call.site.workflow →
      call.Leaves c s ∧ watched (call.settled c).workflow) :
    Carries c steps states fun _ workflow heap =>
      workflow.store = store ∧ watched workflow ∧ heap.contents s = held where
  passes _ _ _ _ h := h
  enters _ r _ stage _ _ h := by
    obtain ⟨store_eq, there, eq⟩ := h
    refine ⟨store_eq, there, ?_⟩
    have other : r.workflow.store ≠ s := store_eq ▸ ne.symm
    rw [← eq]
    exact Heap.contents_modify_of_ne other
  calls _ call hcall h := by
    obtain ⟨store_eq, there, eq⟩ := h
    obtain ⟨left, there'⟩ := leaves call hcall there
    exact ⟨Call.store_settled.trans store_eq, there', left.trans eq⟩

/-- The initial data of a stage stays where all calls leave it alone. -/
theorem carries_initial {s : StoreId} {held : Store} (ne : s ≠ store)
    (untouched : ∀ call ∈ states.flatMap (callsHere c steps), call.Untouched c) :
    Carries c steps states fun _ workflow heap =>
      workflow.store = store ∧ s ∈ workflow.initials ∧ heap.contents s = held :=
  carries_contents (s ∈ ·.initials) ne fun call hcall there =>
    ⟨(untouched call hcall).2 s there, by
      rw [Call.initials_settled]
      exact List.mem_append_left _ there⟩

/-- Any other store stays that all calls leave alone. -/
theorem carries_others {s : StoreId} {held : Store} (ne : s ≠ store)
    (leaves : ∀ call ∈ states.flatMap (callsHere c steps), call.Leaves c s) :
    Carries c steps states fun _ workflow heap =>
      workflow.store = store ∧ True ∧ heap.contents s = held :=
  carries_contents (fun _ => True) ne fun call hcall _ => ⟨leaves call hcall, trivial⟩

/-- **What a run has made of the stores at each of its calls.** -/
structure OverlaidAtCalls (c : Setting β) (steps : Nat) (states : List (Run β))
    (workflow : Workflow β) (world : World) (below : List Store) : Prop where
  /-- The shared store is what lay below, with the initial data of the stages
  entered so far over it, the current one included. -/
  shared : ∀ earlier r later, states = earlier ++ r :: later →
    ∀ call ∈ r.callsHere c steps, ∀ key,
      (call.world.heap.contents workflow.store).get? key =
        Store.overlaid (below ++ (earlier ++ [r]).filterMap (·.merged? c)) key
  /-- What all calls leave alone is as it was. -/
  others : ∀ s, s ≠ workflow.store →
    (∀ call ∈ states.flatMap (callsHere c steps), call.Leaves c s) →
      ∀ call ∈ states.flatMap (callsHere c steps),
        call.world.heap.contents s = world.heap.contents s

/-- **What a run leaves of the stores.** -/
structure OverlaidInEnd (c : Setting β) (steps : Nat) (states : List (Run β))
    (workflow : Workflow β) (world : World) (below : List Store) (result : Result β) : Prop where
  /-- The shared store is what lay below, with the initial data of all the
  stages entered over it. -/
  shared : ∀ key, (result.world.heap.contents workflow.store).get? key =
    Store.overlaid (below ++ states.filterMap (·.merged? c)) key
  /-- Initial data is as it was, or as it was when its stage was added. -/
  initial : ∀ s ∈ workflow.initials, result.world.heap.contents s = world.heap.contents s
  added : ∀ call ∈ states.flatMap (callsHere c steps), ∀ stage ∈ call.stagesAdded c,
    result.world.heap.contents stage.initial = (call.left c).heap.contents stage.initial
  /-- And so is what all calls leave alone. -/
  others : ∀ s, s ≠ workflow.store →
    (∀ call ∈ states.flatMap (callsHere c steps), call.Leaves c s) →
      result.world.heap.contents s = world.heap.contents s

section

variable {workflow : Workflow β} {world : World}

theorem overlaidAtCalls (untouched : ∀ call ∈ calls c steps workflow world, call.Untouched c)
    (start : Overlays workflow.store below workflow world.heap) :
    OverlaidAtCalls c steps (trail c steps workflow world) workflow world below where
  shared _ _ _ split _ hcall :=
    ((carries_overlays untouched).at_call (by simpa using start) split hcall).get?_eq
  others s ne leaves call hcall :=
    ((carries_others ne leaves).of_mem_calls ⟨rfl, trivial, rfl⟩ hcall).2.2

/-- The initial data of a stage that a call adds stays as the call has left
it. -/
theorem contents_added {result : Result β}
    (untouched : ∀ call ∈ calls c steps workflow world, call.Untouched c)
    (start : Overlays workflow.store below workflow world.heap)
    (ran : run c steps workflow world = some result) {call : Call β}
    (hcall : call ∈ calls c steps workflow world) {stage : Stage β}
    (added : stage ∈ call.stagesAdded c) :
    result.world.heap.contents stage.initial = (call.left c).heap.contents stage.initial := by
  obtain ⟨r, hr, here⟩ := List.mem_flatMap.mp hcall
  obtain ⟨earlier, later, split⟩ := List.append_of_mem hr
  have before := (carries_overlays untouched).at_call (by simpa using start) split here
  have after := Overlays.call (untouched call hcall) before
  have there : stage.initial ∈ (call.settled c).workflow.initials := by
    rw [Call.initials_settled]
    exact List.mem_append_right _ (List.mem_map_of_mem added)
  have ne : stage.initial ≠ workflow.store := fun eq =>
    after.apart.own (after.store_eq.trans eq.symm ▸ there)
  exact ((carries_initial ne untouched).ends_of_call (traces_trail ran) hcall
    ⟨after.store_eq, there, rfl⟩).2.2

theorem overlaidInEnd {result : Result β}
    (untouched : ∀ call ∈ calls c steps workflow world, call.Untouched c)
    (start : Overlays workflow.store below workflow world.heap)
    (ran : run c steps workflow world = some result) :
    OverlaidInEnd c steps (trail c steps workflow world) workflow world below result where
  shared := ((carries_overlays untouched).ends (by simpa using start) ran).get?_eq
  initial s there := by
    have ne : s ≠ workflow.store := fun eq => start.apart.own (eq ▸ there)
    exact ((carries_initial ne untouched).ends ⟨rfl, there, rfl⟩ ran).2.2
  added call hcall stage := contents_added untouched start ran hcall
  others s ne leaves := ((carries_others ne leaves).ends ⟨rfl, trivial, rfl⟩ ran).2.2

end

end Run

/-! ## Runs with options -/

/-- A merge from a store without entries changes nothing. -/
theorem Heap.merge_of_isEmpty {h : Heap} {target source : StoreId}
    (empty : (h.contents source).isEmpty = true) : (h.merge target source {}).2 = h := by
  have entries : (h.contents source).toList = [] := List.isEmpty_iff.mp empty
  have same : (h.merge target source {}).2 = h.modify target fun _ => h.contents target := by
    rw [merge, Store.merge, entries]
    rfl
  have stores : h.stores.modify target (fun _ => h.contents target) = h.stores := by
    refine Array.ext_getElem? fun i => ?_
    rw [Array.getElem?_modify]
    split
    next eq =>
      subst eq
      rw [contents]
      cases h.stores[target]? <;> rfl
    next => rfl
  rw [same, modify, stores]

namespace RunOptions

/-- The setting of a run with options. -/
def setting (options : RunOptions) (logger : Logger) (behave : Action β → Behaviour β) :
    Setting β :=
  ⟨options.token, options.logger.getD logger, behave⟩

/-- The world in which a run with options begins. -/
def begun (options : RunOptions) (logger : Logger) (workflow : Workflow β) (world : World) :
    World :=
  Runner.mergeOptions (options.logger.getD logger) options.initial workflow world

/-- The states that a run with options takes a step from. -/
def trail (options : RunOptions) (logger : Logger) (behave : Action β → Behaviour β) (steps : Nat)
    (workflow : Workflow β) (world : World) : List (Run β) :=
  Run.trail (options.setting logger behave) steps workflow (options.begun logger workflow world)

/-- What is told of the options: nothing if they have no entries, and else
one record of level debug. -/
def Noted (options : RunOptions) (logger : Logger) (world : World) (noted : List Event) : Prop :=
  if (world.heap.contents options.initial).isEmpty then noted = []
  else ∃ record : Record,
    noted = [.logged (options.logger.getD logger) record] ∧ record.level = .debug

variable (options : RunOptions) (logger : Logger) {workflow : Workflow β} {world : World}

theorem heap_begun : (options.begun logger workflow world).heap =
    (world.heap.merge workflow.store options.initial {}).2 := by
  rw [begun, Runner.mergeOptions]
  split
  next empty => exact (Heap.merge_of_isEmpty empty).symm
  next => rfl

/-- **The options are merged as if by hand**, but for what is told of it. -/
theorem exists_noted : ∃ noted, options.Noted logger world noted ∧
    options.begun logger workflow world =
      { (world.ask (.merge workflow.store options.initial {})).2 with
        journal := world.journal ++ noted } := by
  have heap : (options.begun logger workflow world).heap = _ := heap_begun options logger
  simp only [Noted]
  rw [begun, Runner.mergeOptions] at heap ⊢
  split at heap
  next empty =>
    simp only [empty, if_true, exists_eq_left, List.append_nil]
    exact congrArg (fun heap => { world with heap }) heap
  next filled =>
    simp only [filled, if_false, Bool.false_eq_true]
    exact ⟨_, ⟨_, rfl, rfl⟩, rfl⟩

end RunOptions

/-- What is said of how a run ended. -/
def Run.Result.summary (result : Run.Result β) : RunSummary :=
  ⟨result.workflow.id, result.outcome.isOk,
    match result.outcome with
    | .ok () => none
    | .error error => some error⟩

/-- That a run with options has come to what another run has, told of some
events besides: before all that was told in the run. -/
structure Echoes (before noted : List Event) (ran : RunSummary × Run.Result β)
    (result : Run.Result β) : Prop where
  workflow : ran.2.workflow = result.workflow
  outcome : ran.2.outcome = result.outcome
  heap : ran.2.world.heap = result.world.heap
  signals : ran.2.world.signals = result.world.signals
  told : ∃ told, result.world.journal = before ++ told ∧
    ran.2.world.journal = before ++ noted ++ told
  /-- The summary says how the run ended. -/
  workflowId : ran.1.workflowId = result.workflow.id
  success : ran.1.success = true ↔ ran.1.error = none
  error : ∀ error, ran.1.error = some error ↔ result.outcome = .error error

section

variable {behave : Action β → Behaviour β} {steps : Nat} {logger : Logger} {options : RunOptions}
  {workflow : Workflow β} {world : World}

/-- Without middleware, a run with options is a run from where they are
merged. -/
theorem Runner.executeWith_eq :
    (⟨logger, []⟩ : Runner β).executeWith (.stages behave steps) options workflow world =
      (Run.run (options.setting logger behave) steps workflow
        (options.begun logger workflow world)).map fun result => (result.summary, result) := rfl

/-- **A run with options is the run of the workflow whose store had them
merged**, told of nothing else but the merge. -/
theorem Runner.executeWith_echoes : ∃ noted, options.Noted logger world noted ∧
    Option.Rel (Echoes world.journal noted)
      ((⟨logger, []⟩ : Runner β).executeWith (.stages behave steps) options workflow world)
      ((⟨options.logger.getD logger, []⟩ : Runner β).execute (.stages behave steps) options.token
        (options.logger.getD logger) workflow
        (world.ask (.merge workflow.store options.initial {})).2) := by
  obtain ⟨noted, told, begun_eq⟩ : ∃ noted, options.Noted logger world noted ∧
      options.begun logger workflow world = _ := options.exists_noted logger
  let c : Setting β := options.setting logger behave
  let merged : World := (world.ask (.merge workflow.store options.initial {})).2
  let blank : World := { merged with journal := [] }
  -- both are the run from an empty journal, with events told before
  have ran (earlier : List Event) :
      Run.run c steps workflow { merged with journal := earlier } =
        (Run.run c steps workflow blank).map (Run.Result.retell (earlier ++ ·)) := by
    have retold : Run.run c steps workflow (blank.retell (earlier ++ ·)) =
        (Run.run c steps workflow blank).map (Run.Result.retell (earlier ++ ·)) :=
      Run.run_retell (c := c) (tells_append earlier)
    rw [← retold]
    simp [World.retell, blank]
  have plain : (⟨options.logger.getD logger, []⟩ : Runner β).execute (.stages behave steps)
      options.token (options.logger.getD logger) workflow merged =
        Run.run c steps workflow { merged with journal := world.journal } := rfl
  refine ⟨noted, told, ?_⟩
  rw [executeWith_eq, begun_eq, plain, ran (world.journal ++ noted), ran world.journal]
  cases Run.run c steps workflow blank with
  | none => exact .none
  | some result =>
    obtain ⟨workflow', world', outcome⟩ := result
    refine .some ⟨rfl, rfl, rfl, rfl, ⟨world'.journal, rfl, rfl⟩, rfl, ?_, fun error => ?_⟩
    · cases outcome <;> simp [Run.Result.summary, Run.Result.retell, Except.isOk, Except.toBool]
    · cases outcome <;> simp [Run.Result.summary, Run.Result.retell]

/-- The options are laid over the store of the workflow. -/
theorem RunOptions.overlays_begun (options : RunOptions) (logger : Logger)
    (apart : workflow.Apart world.heap) :
    Overlays workflow.store
      [world.heap.contents workflow.store, world.heap.contents options.initial] workflow
      (options.begun logger workflow world).heap := by
  have start : Overlays workflow.store [world.heap.contents workflow.store] workflow world.heap :=
    ⟨rfl, apart, fun key => by simp [Store.overlaid]⟩
  rw [RunOptions.heap_begun]
  exact start.merge options.initial

/-- They change no other store. -/
theorem RunOptions.contents_begun {s : StoreId} (ne : s ≠ workflow.store) :
    (options.begun logger workflow world).heap.contents s = world.heap.contents s := by
  rw [RunOptions.heap_begun]
  exact Heap.contents_modify_of_ne ne.symm

end

/-- **A run lays stores over one another.** With options it is the run of the
workflow whose store had them merged, but for one record. If actions leave
the shared store and all initial data alone, then at every call, and in the
end, the shared store is what the workflow brought, with the entries of the
options over it, and then the initial data of the stages that were entered,
in the order of entry; and all else is as it was, the options' own store too
if no action writes it. -/
theorem Runner.overlaid_executeWith (behave : Action β → Behaviour β) (steps : Nat)
    (logger : Logger) (options : RunOptions) (workflow : Workflow β) (world : World) :
    (∃ noted, options.Noted logger world noted ∧
      Option.Rel (Echoes world.journal noted)
        ((⟨logger, []⟩ : Runner β).executeWith (.stages behave steps) options workflow world)
        ((⟨options.logger.getD logger, []⟩ : Runner β).execute (.stages behave steps)
          options.token (options.logger.getD logger) workflow
          (world.ask (.merge workflow.store options.initial {})).2)) ∧
    (workflow.Apart world.heap →
      (∀ r ∈ options.trail logger behave steps workflow world,
        ∀ call ∈ r.callsHere (options.setting logger behave) steps,
          call.Untouched (options.setting logger behave)) →
      (∀ r ∈ options.trail logger behave steps workflow world, ∀ data,
        r.merged? (options.setting logger behave) = some data →
          ∃ stage, r.workflow.stages[r.index]? = some stage ∧
            (r.world.check options.token).1 = .ok () ∧
            r.workflow.isStageEnabled stage.id = true ∧
            data = r.world.heap.contents stage.initial) ∧
      Run.OverlaidAtCalls (options.setting logger behave) steps
        (options.trail logger behave steps workflow world) workflow world
        [world.heap.contents workflow.store, world.heap.contents options.initial] ∧
      ∀ summary result,
        (⟨logger, []⟩ : Runner β).executeWith (.stages behave steps) options workflow world =
          some (summary, result) →
        Run.OverlaidInEnd (options.setting logger behave) steps
          (options.trail logger behave steps workflow world) workflow world
          [world.heap.contents workflow.store, world.heap.contents options.initial] result) := by
  refine ⟨Runner.executeWith_echoes, fun apart leaves => ?_⟩
  have untouched : ∀ call ∈ Run.calls (options.setting logger behave) steps workflow
      (options.begun logger workflow world), call.Untouched (options.setting logger behave) := by
    intro call hcall
    obtain ⟨r, hr, here⟩ := List.mem_flatMap.mp hcall
    exact leaves r hr call here
  have start := options.overlays_begun logger apart
  have atCalls := Run.overlaidAtCalls untouched start
  -- before the run only the shared store was written
  refine ⟨fun r _ data => Run.exists_of_merged?, ⟨atCalls.shared, fun s ne alone call hcall => ?_⟩,
    fun summary result executed => ?_⟩
  · rw [atCalls.others s ne alone call hcall, RunOptions.contents_begun ne]
  · rw [Runner.executeWith_eq] at executed
    obtain ⟨ended, ran, eq⟩ := Option.map_eq_some_iff.mp executed
    obtain rfl : ended = result := congrArg Prod.snd eq
    have inEnd := Run.overlaidInEnd untouched start ran
    refine ⟨inEnd.shared, fun s there => ?_, inEnd.added, fun s ne alone => ?_⟩
    · have ne : s ≠ workflow.store := fun eq => apart.own (eq ▸ there)
      rw [inEnd.initial s there, RunOptions.contents_begun ne]
    · rw [inEnd.others s ne alone, RunOptions.contents_begun ne]

namespace Sample

/-- Whether code writes a store. -/
def Code.writes : Code → Bool
  | .fail => true
  | .rest | .grow _ | .quit => false

/-- Options whose entries are in the third store. -/
def options : RunOptions :=
  ⟨none, ⟨0, none⟩, 2⟩

/-- A world in which a key of the options is an explicit nil of the stage. -/
def stocked : World :=
  { world with
    heap := ⟨#[∅, (∅ : Table Entry).insert "k" .nil,
      ((∅ : Table Entry).insert "k" (.held 0 ⟨.scalar .bool, true⟩)).insert "o" .nil], 1, []⟩ }

/-- Code that does not write leaves the stores alone that there are. -/
theorem untouched {call : Call Code} (harmless : call.action.code.writes = false)
    (there : ∀ s ∈ call.site.workflow.store :: call.site.workflow.initials,
      s < call.world.heap.stores.size) :
    call.Untouched (options.setting .discard behave) := by
  have spares (s : StoreId) : (behave call.action).Conforms (Invocation.Request.Spares s)
      fun _ => True := by
    rw [behave]
    cases code : call.action.code with
    | rest => trivial
    | grow next => exact ⟨trivial, fun _ => ⟨trivial, fun _ => trivial⟩⟩
    | quit => exact ⟨trivial, fun _ => ⟨trivial, fun _ => trivial⟩⟩
    | fail =>
      rw [code] at harmless
      cases harmless
  exact ⟨Call.leaves_of_spares (spares _) (there _ List.mem_cons_self),
    fun s hs => Call.leaves_of_spares (spares s) (there s (List.mem_cons_of_mem _ hs))⟩

end Sample

/-- Two stages are entered, the second added by the first. Their explicit
nil lies over a value of the options, which keep what they had. -/
theorem Runner.overlaid_executeWith_sample : ∃ summary result,
    (⟨.discard, []⟩ : Runner Sample.Code).executeWith (.stages Sample.behave 4) Sample.options
      (Sample.workflow (.grow .rest)) Sample.stocked = some (summary, result) ∧
    (result.world.heap.contents 0).get? "k" = some .nil ∧
    (result.world.heap.contents 0).get? "o" = some .nil ∧
    result.world.heap.contents 1 = Sample.stocked.heap.contents 1 := by
  have harmless : ∀ r ∈ Sample.options.trail .discard Sample.behave 4
      (Sample.workflow (.grow .rest)) Sample.stocked,
      ∀ call ∈ r.callsHere (Sample.options.setting .discard Sample.behave) 4,
        call.action.code.writes = false ∧
          ∀ s ∈ call.site.workflow.store :: call.site.workflow.initials,
            s < call.world.heap.stores.size := by
    decide
  obtain ⟨-, -, inEnd⟩ := (Runner.overlaid_executeWith Sample.behave 4 .discard Sample.options
    (Sample.workflow (.grow .rest)) Sample.stocked).2 ⟨by decide, by decide⟩ fun r hr call hcall =>
      Sample.untouched (harmless r hr call hcall).1 (harmless r hr call hcall).2
  have ended := inEnd _ _ rfl
  exact ⟨_, _, rfl, (ended.shared "k").trans rfl, (ended.shared "o").trans rfl,
    ended.initial 1 (by decide)⟩

end StagedWorkflow
