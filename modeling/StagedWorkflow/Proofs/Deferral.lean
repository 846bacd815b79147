import Mathlib.Data.List.Chain
import StagedWorkflow.Proofs.Exchanges
import StagedWorkflow.Proofs.Failure

/-!
# Structure seen from one call to the next

Between two calls nothing happens to the structure but that the mutations of
the first are applied: the call of a run sees the workflow as all calls
before it have settled it (`Run.calls_split`), and the call of a pass the
whole site (`Pass.calls_split`). Both hold of runs that do not end as well,
since they are facts about the trail. Together with what holds while an
action runs this is `frozen_while_called`.
-/

namespace StagedWorkflow

variable {β : Type} {c : Setting β}

/-- Where a list of lists one after another is split, one of them is. -/
theorem exists_of_flatMap_eq_append_cons {γ δ : Type} {f : γ → List δ} {l : List γ}
    {before after : List δ} {d : δ} (split : l.flatMap f = before ++ d :: after) :
    ∃ earlier a later first rest, l = earlier ++ a :: later ∧ f a = first ++ d :: rest ∧
      before = earlier.flatMap f ++ first := by
  induction l generalizing before with
  | nil => simp at split
  | cons x others ih =>
    rw [List.flatMap_cons] at split
    rcases List.append_eq_append_iff.mp split with ⟨more, rfl, rest⟩ | ⟨more, eq, tail⟩
    · -- the first list is over before the split
      obtain ⟨earlier, a, later, first, tail, rfl, found, rfl⟩ := ih rest
      exact ⟨x :: earlier, a, later, first, tail, rfl, found, by simp⟩
    · cases more with
      | nil =>
        have tail' : others.flatMap f = [] ++ d :: after := tail.symm
        obtain ⟨earlier, a, later, first, rest, rfl, found, none⟩ := ih tail'
        refine ⟨x :: earlier, a, later, first, rest, rfl, found, ?_⟩
        rw [List.append_nil] at eq
        rw [List.flatMap_cons, List.append_assoc, ← none, List.append_nil, eq]
      | cons own rest =>
        obtain ⟨rfl, -⟩ := List.cons.inj tail
        exact ⟨[], x, others, before, rest, rfl, eq, rfl⟩

namespace Call

/-- What the action sees. -/
def invocation (c : Setting β) (call : Call β) : Invocation β :=
  ⟨c.token, c.logger, call.site.workflow, call.stage⟩

/-- The state in which the action begins. -/
def begun (call : Call β) : Invocation.State β :=
  ⟨call.world, []⟩

/-- The requests that the action makes, with their answers, in order. -/
def exchanges (c : Setting β) (call : Call β) : List (Invocation.Exchange β) :=
  Program.exchanges (call.invocation c).answer (c.behave call.action) call.begun

variable {call : Call β}

/-- **At every point of a call the structure is as it was at its
beginning**, with what was recorded waiting in the queue. -/
theorem deferred_before {earlier later : List (Invocation.Exchange β)}
    {e : Invocation.Exchange β} (split : call.exchanges c = earlier ++ e :: later) :
    Invocation.Deferred (call.invocation c) call.begun earlier e.before ∧
      e = Program.exchange (call.invocation c).answer e.request e.before := by
  obtain ⟨follows, eq⟩ := Program.forall_exchanges (Invocation.Follows call.begun)
    Invocation.follows_nil (fun _ _ r follows => follows.answer r) split
  exact ⟨follows.deferred, eq⟩

/-- So it is in the end, when the queue is handed over. -/
theorem deferred_ended :
    Invocation.Deferred (call.invocation c) call.begun (call.exchanges c) (call.ended c).2 := by
  have follows : Invocation.Follows call.begun (call.exchanges c) (call.ended c).2 :=
    Program.of_exchanges (Invocation.Follows call.begun) Invocation.follows_nil
      fun _ _ r follows => follows.answer r
  exact follows.deferred

/-- **That one call comes right after another**: the first has succeeded, and
the second sees the structure with all the first has recorded applied to it,
and nothing else. -/
structure Leads (c : Setting β) (first second : Call β) : Prop where
  ok : first.result c = .ok ()
  workflow : second.site.workflow = (first.site.applyAll (first.queue c)).2.workflow
  /-- Where both are calls of one stage, that goes for the stage as well. -/
  same : second.place = first.place → second.site = (first.site.applyAll (first.queue c)).2

end Call

namespace Pass

variable {place : Place} {stageId : String} {p : Pass β} {steps : Nat}

/-- **Along a pass the site is what the calls so far have made of it**, all
of which have succeeded. -/
theorem site_of_trail (start : p.Seated place stageId) {earlier later : List (Pass β)} {q : Pass β}
    (split : p.trail c steps = earlier ++ q :: later) :
    q.Seated place stageId ∧
      (∀ call ∈ earlier.filterMap (·.call? c), call.result c = .ok ()) ∧
      q.site = (p.site.applyAll ((earlier.filterMap (·.call? c)).flatMap (Call.queue c))).2 := by
  refine Loop.of_trail_eq_append
    (fun earlier q => q.Seated place stageId ∧
      (∀ call ∈ earlier.filterMap (·.call? c), call.result c = .ok ()) ∧
      q.site = (p.site.applyAll ((earlier.filterMap (·.call? c)).flatMap (Call.queue c))).2)
    ⟨start, by simp, rfl⟩ ?_ split
  rintro earlier q - t ⟨seated, ok, site⟩ taken
  have taken' : q.step c = .again t := Option.some.inj taken
  obtain ⟨stage, -, -, -, turn⟩ := seated.turn taken'
  refine ⟨seated.again taken', ?_⟩
  cases turn with
  | skipped found live off call =>
    have calls_eq : (earlier ++ [q]).filterMap (·.call? c) = earlier.filterMap (·.call? c) := by
      simp [call]
    rw [calls_eq]
    exact ⟨ok, site⟩
  | @succeeded slot found live on call own_ok =>
    have calls_eq : (earlier ++ [q]).filterMap (·.call? c) =
        earlier.filterMap (·.call? c) ++ [q.calling c stage slot.action] := by simp [call]
    rw [calls_eq]
    constructor
    · intro other hother
      rcases List.mem_append.mp hother with old | new
      · exact ok other old
      · obtain rfl := List.mem_singleton.mp new
        exact own_ok
    · rw [List.flatMap_append, Site.applyAll_append, ← site, List.flatMap_singleton]

/-- **What a call of a pass sees**, after those before it. -/
theorem calls_split (start : p.Seated place stageId) {earlier later : List (Call β)}
    {call : Call β} (split : p.calls c steps = earlier ++ call :: later) :
    (∀ call ∈ earlier, call.result c = .ok ()) ∧
      call.site = (p.site.applyAll (earlier.flatMap (Call.queue c))).2 ∧
      call.site.stage? = some call.stage := by
  obtain ⟨front, back, states, rfl, rest⟩ := List.filterMap_eq_append_iff.mp split
  obtain ⟨idle, q, later', rfl, none, called, -⟩ := List.filterMap_eq_cons_iff.mp rest
  have nothing : idle.filterMap (·.call? c) = [] := List.filterMap_eq_nil_iff.mpr none
  have here : p.trail c steps = (front ++ idle) ++ q :: later' := by rw [states, List.append_assoc]
  obtain ⟨-, ok, site⟩ := site_of_trail start here
  rw [List.filterMap_append, nothing, List.append_nil] at ok site
  obtain ⟨stage, slot, there, -, rfl⟩ := call?_eq_some called
  exact ⟨ok, site, there⟩

end Pass

namespace Run

variable {steps : Nat} {workflow : Workflow β} {world : World}

/-- A pass that is entered has its stage under it, as the workflow has it. -/
theorem seated_of_entered? {r : Run β} {pass : Pass β} (entry : r.entered? c = some pass) :
    ∃ stageId, pass.Seated (.member r.index) stageId ∧ pass.site = r.site := by
  obtain ⟨stage, found, -, -, begins⟩ := entered?_eq_some entry
  obtain ⟨-, rfl⟩ := Pass.entered?_eq_some_iff.mp begins
  have here : r.site.stage? = some stage := found
  exact ⟨stage.id, Pass.seated_enter here, rfl⟩

/-- **Along a run the workflow is as the calls so far have settled it**, all
of which have succeeded. -/
theorem workflow_of_trail {earlier later : List (Run β)} {r : Run β}
    (split : trail c steps workflow world = earlier ++ r :: later) :
    (∀ call ∈ earlier.flatMap (callsHere c steps), call.result c = .ok ()) ∧
      r.workflow = (earlier.flatMap (callsHere c steps)).foldl (Call.settle c) workflow := by
  refine Loop.of_trail_eq_append
    (fun earlier r => (∀ call ∈ earlier.flatMap (callsHere c steps), call.result c = .ok ()) ∧
      r.workflow = (earlier.flatMap (callsHere c steps)).foldl (Call.settle c) workflow)
    ⟨by simp, rfl⟩ ?_ split
  rintro earlier r - t ⟨ok, settled⟩ taken
  have here : ∀ call ∈ r.callsHere c steps, call.place = .member r.index :=
    fun _ => place_of_mem_callsHere
  rw [List.flatMap_append, List.flatMap_singleton]
  constructor
  · intro call hcall
    rcases List.mem_append.mp hcall with old | new
    · exact ok call old
    · cases turn taken with
      | skipped found live off entry => simp [callsHere_of_entered?_eq_none entry] at new
      | passed enters passed_ok =>
        rw [enters.callsHere_eq] at new
        exact enters.traces.result_ok enters.seated passed_ok call new
  · rw [(again taken).2.2, List.foldl_append, ← settled, Call.foldl_settle here]
    rfl

/-- **What a call of a run sees**, after those before it. -/
theorem calls_split {earlier later : List (Call β)} {call : Call β}
    (split : calls c steps workflow world = earlier ++ call :: later) :
    (∀ call ∈ earlier, call.result c = .ok ()) ∧
      call.site.workflow = earlier.foldl (Call.settle c) workflow ∧
      call.site.stage? = some call.stage ∧ ∃ index, call.place = .member index := by
  obtain ⟨front, r, later', first, rest, states, found, rfl⟩ :=
    exists_of_flatMap_eq_append_cons split
  obtain ⟨ok, settled⟩ := workflow_of_trail states
  have here : ∀ other ∈ r.callsHere c steps, other.place = .member r.index :=
    fun _ => place_of_mem_callsHere
  have own : call.place = .member r.index := here call (by simp [found])
  cases entry : r.entered? c with
  | none => simp [callsHere_of_entered?_eq_none entry] at found
  | some pass =>
    rw [callsHere, entry] at found
    obtain ⟨stageId, seated, site_eq⟩ := seated_of_entered? entry
    obtain ⟨first_ok, site, stage⟩ := Pass.calls_split seated found
    refine ⟨fun other hother => ?_, ?_, stage, r.index, own⟩
    · rcases List.mem_append.mp hother with old | new
      · exact ok other old
      · exact first_ok other new
    · have before : ∀ other ∈ first, other.place = .member r.index := by
        intro other hother
        refine here other ?_
        rw [callsHere, entry, found]
        exact List.mem_append_left _ hother
      have granted : first.flatMap (Call.queue c) = first.flatMap (Call.granted c) :=
        List.flatMap_congr fun other hother => (Call.granted_of_ok (first_ok other hother)).symm
      rw [List.foldl_append, ← settled, Call.foldl_settle before, site, site_eq, granted]
      rfl

/-- **The calls of a run lead from one to the next.** -/
theorem isChain_calls : (calls c steps workflow world).IsChain (Call.Leads c) := by
  refine List.isChain_iff_forall_rel_of_append_cons_cons.mpr fun first second earlier later split =>
    ?_
  have split' : calls c steps workflow world = (earlier ++ [first]) ++ second :: later := by
    rw [split, List.append_assoc]
    rfl
  obtain ⟨-, before, -, -⟩ := calls_split split
  obtain ⟨ok, after, -, index, there⟩ := calls_split split'
  have first_ok : first.result c = .ok () := ok first (by simp)
  have workflow_eq : second.site.workflow = (first.site.applyAll (first.queue c)).2.workflow := by
    rw [after, List.foldl_append, ← before, List.foldl_cons, List.foldl_nil, Call.settle,
      Call.granted_of_ok first_ok]
  refine ⟨first_ok, workflow_eq, fun same => ?_⟩
  have place_eq : (first.site.applyAll (first.queue c)).2.place = .member index :=
    Site.place_applyAll.trans (same.symm.trans there)
  rw [Site.eq_of_place there, Site.eq_of_place place_eq, workflow_eq]

end Run

namespace Runner

variable {steps : Nat} {stage : Stage β} {workflow : Workflow β} {world : World}

/-- **What a call sees of a stage that is executed on its own**, after those
before it. -/
theorem stageCalls_split {earlier later : List (Call β)} {call : Call β}
    (split : stageCalls c steps stage workflow world = earlier ++ call :: later) :
    (∀ call ∈ earlier, call.result c = .ok ()) ∧
      call.site =
        ((⟨workflow, .detached stage⟩ : Site β).applyAll (earlier.flatMap (Call.queue c))).2 ∧
      call.site.stage? = some call.stage := by
  cases entry : Pass.entered? c ⟨workflow, .detached stage⟩ stage world with
  | none => simp [stageCalls, entry] at split
  | some pass =>
    rw [stageCalls, entry] at split
    obtain ⟨-, rfl⟩ := Pass.entered?_eq_some_iff.mp entry
    have here : (⟨workflow, .detached stage⟩ : Site β).stage? = some stage := rfl
    exact Pass.calls_split (Pass.seated_enter here) split

/-- **They lead from one to the next.** -/
theorem isChain_stageCalls :
    (stageCalls c steps stage workflow world).IsChain (Call.Leads c) := by
  refine List.isChain_iff_forall_rel_of_append_cons_cons.mpr fun first second earlier later split =>
    ?_
  have split' : stageCalls c steps stage workflow world =
      (earlier ++ [first]) ++ second :: later := by
    rw [split, List.append_assoc]
    rfl
  obtain ⟨-, before, -⟩ := stageCalls_split split
  obtain ⟨ok, after, -⟩ := stageCalls_split split'
  have site_eq : second.site = (first.site.applyAll (first.queue c)).2 := by
    rw [after, List.flatMap_append, List.flatMap_singleton, Site.applyAll_append, ← before]
  exact ⟨ok first (by simp), congrArg Site.workflow site_eq, fun _ => site_eq⟩

end Runner

/-- **An action sees a frozen structure while it runs.** At every point of a
call, and in the end, what is asked about structure is answered as at its
beginning, as many mutations are pending as it has recorded, the queue holds
these in order, and the stores read as all its requests so far have made
them. The first call of a run sees the workflow as it was given, every other
one sees it as the call before has seen it with all that this has recorded
applied, and its stage is the one that stands there; and so it is with the
calls of a stage that is executed on its own. -/
theorem frozen_while_called (c : Setting β) :
    (∀ call : Call β,
      (∀ earlier e later, call.exchanges c = earlier ++ e :: later →
        Invocation.Deferred (call.invocation c) call.begun earlier e.before ∧
          e = Program.exchange (call.invocation c).answer e.request e.before) ∧
      Invocation.Deferred (call.invocation c) call.begun (call.exchanges c) (call.ended c).2) ∧
    (∀ steps workflow world,
      (Run.calls c steps workflow world).IsChain (Call.Leads c) ∧
      (∀ call ∈ (Run.calls c steps workflow world).head?, call.site.workflow = workflow) ∧
      ∀ call ∈ Run.calls c steps workflow world, call.site.stage? = some call.stage) ∧
    ∀ steps stage workflow world,
      (Runner.stageCalls c steps stage workflow world).IsChain (Call.Leads c) ∧
      (∀ call ∈ (Runner.stageCalls c steps stage workflow world).head?,
        call.site = ⟨workflow, .detached stage⟩) ∧
      ∀ call ∈ Runner.stageCalls c steps stage workflow world,
        call.site.stage? = some call.stage := by
  refine ⟨fun call => ⟨fun _ _ _ => Call.deferred_before, Call.deferred_ended⟩,
    fun steps workflow world => ⟨Run.isChain_calls, fun call first => ?_, fun call hcall => ?_⟩,
    fun steps stage workflow world =>
      ⟨Runner.isChain_stageCalls, fun call first => ?_, fun call hcall => ?_⟩⟩
  · obtain ⟨later, split⟩ := List.head?_eq_some_iff.mp first
    have split' : Run.calls c steps workflow world = [] ++ call :: later := split
    exact (Run.calls_split split').2.1
  · obtain ⟨earlier, later, split⟩ := List.mem_iff_append.mp hcall
    exact (Run.calls_split split).2.2.1
  · obtain ⟨later, split⟩ := List.head?_eq_some_iff.mp first
    have split' : Runner.stageCalls c steps stage workflow world = [] ++ call :: later := split
    exact (Runner.stageCalls_split split').2.1
  · obtain ⟨earlier, later, split⟩ := List.mem_iff_append.mp hcall
    exact (Runner.stageCalls_split split).2.2

/-- A run that grows, with its first call halfway through, and the calls that
follow. -/
theorem frozen_while_called_grow : ∃ first second third,
    Run.calls Sample.setting 4 (Sample.workflow (.grow .rest)) Sample.world =
      [first, second, third] ∧
    (∃ e e', first.exchanges Sample.setting = [e, e'] ∧
      Invocation.Deferred (first.invocation Sample.setting) first.begun [e] e'.before) ∧
    first.site.workflow = Sample.workflow (.grow .rest) ∧
    first.Leads Sample.setting second ∧ second.Leads Sample.setting third ∧
    third.site.stage? = some third.stage := by
  obtain ⟨within, runs, -⟩ := frozen_while_called Sample.setting
  obtain ⟨chain, begins, stands⟩ := runs 4 (Sample.workflow (.grow .rest)) Sample.world
  have calls : ∃ first second third,
      Run.calls Sample.setting 4 (Sample.workflow (.grow .rest)) Sample.world =
        [first, second, third] ∧
      ∃ e e', first.exchanges Sample.setting = [e] ++ [e'] := ⟨_, _, _, rfl, _, _, rfl⟩
  obtain ⟨first, second, third, calls, e, e', split⟩ := calls
  rw [calls] at chain begins stands
  obtain ⟨leads, leads', -⟩ : first.Leads Sample.setting second ∧
      second.Leads Sample.setting third ∧ True := by simpa using chain
  exact ⟨first, second, third, calls, ⟨e, e', split, ((within first).1 _ _ _ split).1⟩,
    begins first rfl, leads, leads', stands third (by simp)⟩

-- the first action adds one beside itself, which the second call sees, and a stage of one
example : (Run.calls Sample.setting 4 (Sample.workflow (.grow .rest)) Sample.world).map
    (·.stage.size) = [1, 2, 1] := by decide

end StagedWorkflow
