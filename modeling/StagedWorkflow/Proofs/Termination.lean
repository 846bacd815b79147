import StagedWorkflow.Proofs.References

/-!
# Runs that end, and runs that do not

A run ends if its actions can be ranked so that each call appends only
actions below its own. Scripts can be ranked so, if no definition they lead
to leads back to itself. And something of the kind is needed: an action that
appends itself is called over and over. `ends_if_descends` puts the three
together, for a run and for a stage that is executed on its own.
-/

namespace StagedWorkflow

variable {β σ ρ : Type} {c : Setting β}

/-! ## Scripts that lead to no cycle -/

namespace Script

variable {defs : Definitions} {c : Setting Script}

/-- What a call appends follows what it carries out. -/
theorem follows_of_mem_granted (behaves : c.behave = behave defs) {call : Call Script}
    {mutation : Mutation Script} (granted : mutation ∈ call.granted c) {action : Action Script}
    (appended : action ∈ mutation.actions) : Follows defs action.code call.action.code := by
  obtain ⟨spec, hspec, rfl⟩ :=
    List.mem_map.mp (adds_of_mem_granted behaves mutation granted action appended)
  refine ⟨spec, hspec, ?_⟩
  rcases spec with ⟨naming, _, _, _, _, body⟩
  cases naming <;> rfl

/-- **Calls of scripts descend** if the scripts start no endless chain. -/
theorem exists_descends (behaves : c.behave = behave defs) :
    ∃ rank : Action Script → Nat, ∀ call : Call Script,
      Acc (Follows defs) call.action.code → call.Descends c rank := by
  obtain ⟨rank, lower⟩ := exists_rank defs
  refine ⟨fun action => rank action.code, fun call acc mutation granted action appended => ?_⟩
  exact lower _ acc _ (follows_of_mem_granted behaves granted appended)

variable {workflow : Workflow Script} {world : World}

/-- A run of scripts ends, if none of them leads to a cycle. -/
theorem exists_run (behaves : c.behave = behave defs)
    (acyclic : ∀ stage ∈ workflow.stages, ∀ action ∈ stage.actions, Acyclic defs action.code) :
    ∃ steps result, Run.run c steps workflow world = some result := by
  obtain ⟨rank, descends⟩ := exists_descends behaves
  have settled (steps : Nat) : ∀ call ∈ Run.calls c steps workflow world,
      Acc (Follows defs) call.action.code := by
    refine Run.forall_calls (fun action => Acc (Follows defs) action.code)
      (fun call _ acc mutation granted action appended => ?_)
      (fun stage hstage action haction => (acyclic stage hstage action haction).acc)
    exact acc.inv (follows_of_mem_granted behaves granted appended)
  exact Run.exists_run fun steps call hcall => descends call (settled steps call hcall)

/-- A stage of scripts is executed to an end, if none of them leads to a
cycle. -/
theorem exists_executeStage (behaves : c.behave = behave defs) {stage : Stage Script}
    (acyclic : ∀ action ∈ stage.actions, Acyclic defs action.code) :
    ∃ steps result, Runner.executeStage c steps stage workflow world = some result := by
  obtain ⟨rank, descends⟩ := exists_descends behaves
  refine Pass.exists_run rank rfl fun pass entry steps call hcall => descends call ?_
  obtain ⟨-, pass_eq⟩ := Pass.entered?_eq_some_iff.mp entry
  refine Pass.forall_calls (fun action => Acc (Follows defs) action.code)
    (fun call _ acc mutation granted action appended => ?_) (fun own here action haction => ?_)
    call hcall
  · exact acc.inv (follows_of_mem_granted behaves granted appended)
  · rw [pass_eq] at here
    obtain rfl : stage = own := Option.some.inj here
    exact (acyclic action haction).acc

end Script

/-! ## An action that appends itself -/

/-- A loop does not end whose steps all go on. -/
theorem Loop.run_eq_none {step : σ → Option (Step σ ρ)} (holds : σ → Prop)
    (goes : ∀ s, holds s → ∃ t, step s = some (.again t) ∧ holds t) {n : Nat} {state : σ}
    (start : holds state) : run step n state = none := by
  induction n generalizing state with
  | zero => rfl
  | succ n ih =>
    obtain ⟨next, taken, kept⟩ := goes state start
    rw [run, taken]
    exact ih kept

/-- That an action appends itself whenever it is called, and does nothing
else. -/
def Recurs (c : Setting β) (action : Action β) : Prop :=
  c.behave action = .ask (.record (.addAction action)) fun _ => .done (.ok ())

/-- A call of an action that appends itself leaves the world as it is. -/
theorem Call.ended_of_recurs {call : Call β} (recurs : Recurs c call.action) :
    call.ended c = (.ok (), ⟨call.world, [.addAction call.action]⟩) := by
  have behaves : c.behave call.action =
      .ask (.record (.addAction call.action)) fun _ => .done (.ok ()) := recurs
  rw [ended, behaves]
  rfl

/-- That a pass has an action ahead of it that appends itself, and no
others. -/
structure Pass.Stuck (c : Setting β) (action : Action β) (p : Pass β) : Prop where
  ahead : ∃ stage, p.site.stage? = some stage ∧ p.index < stage.size ∧
    ∀ slot ∈ stage.slots, slot = ⟨action, true⟩
  unset : p.world.signals.isSet c.token = false

/-- **The action is called, and is then ahead again.** -/
theorem Pass.Stuck.again {action : Action β} {p : Pass β} (h : p.Stuck c action)
    (limit : c.token.deadline = none) (recurs : Recurs c action) :
    ∃ t, p.step c = .again t ∧ t.Stuck c action := by
  obtain ⟨stage, here, lt, same⟩ := h.ahead
  have live := World.check_of_live limit h.unset
  rcases taken : p.step c with t | result
  · have goes : Turn c p stage (.again t) := taken ▸ turn here
    refine ⟨t, rfl, ?_⟩
    cases goes with
    | @skipped slot found _ off =>
      rw [same slot (List.mem_of_getElem? found)] at off
      cases off
    | @succeeded slot found _ _ call ok =>
      obtain rfl := same slot (List.mem_of_getElem? found)
      have ended : (p.calling c stage action).ended c =
          (.ok (), ⟨(p.calling c stage action).world, [.addAction action]⟩) :=
        Call.ended_of_recurs recurs
      have queue_eq : (p.calling c stage action).queue c = [.addAction action] := by
        rw [Call.queue, ended]
      have there : (p.site.applyAll ((p.calling c stage action).queue c)).2.stage? =
          some (stage.addAction action) := by
        rw [queue_eq]
        exact Site.stage?_applyAll here
      refine ⟨⟨stage.addAction action, there, by simpa using lt, fun slot hslot => ?_⟩, ?_⟩
      · rcases List.mem_append.mp hslot with old | new
        · exact same slot old
        · exact List.mem_singleton.mp new
      · rw [World.notifyAll_eq, Call.left, ended]
        simpa [calling, live] using h.unset
  · have ends : Turn c p stage (.finish result) := taken ▸ turn here
    cases ends with
    | completed past =>
      have ge : stage.size ≤ p.index := List.getElem?_eq_none_iff.mp past
      omega
    | cancelled _ done =>
      rw [live] at done
      cases done
    | @failed slot source found _ _ _ fault =>
      obtain rfl := same slot (List.mem_of_getElem? found)
      rw [Call.result, Call.ended_of_recurs recurs] at fault
      cases fault

section

variable {action : Action β} {stage : Stage β} {world : World}
  (limit : c.token.deadline = none) (unset : world.signals.isSet c.token = false)
  (recurs : Recurs c action) (only : stage.slots = [⟨action, true⟩])

include limit unset recurs only

/-- A pass does not end whose stage holds an action that appends itself. -/
theorem Pass.run_eq_none {site : Site β} (here : site.stage? = some stage) (steps : Nat) :
    Pass.run c steps site stage world = none := by
  have live := World.check_of_live limit unset
  have start : (enter c site stage world).Stuck c action := by
    refine ⟨⟨stage, here, by simp [enter, Stage.size, only], by simp [only]⟩, ?_⟩
    simp only [enter]
    split <;> exact unset
  rw [run, Pass.start, live]
  refine Loop.run_eq_none (Stuck c action) (fun p stuck => ?_) start
  obtain ⟨t, taken, kept⟩ := stuck.again limit recurs
  exact ⟨t, by rw [taken], kept⟩

/-- Nor does a run that comes to such a stage first. -/
theorem Run.run_eq_none {workflow : Workflow β} (first : workflow.stages[0]? = some stage)
    (on : workflow.isStageEnabled stage.id = true) (steps : Nat) :
    run c steps workflow world = none := by
  cases steps with
  | zero => rfl
  | succ n =>
    have unset' : (start c workflow world).world.signals.isSet c.token = false := unset
    have live := World.check_of_live limit unset'
    have here : (⟨workflow, .member 0⟩ : Site β).stage? = some stage := first
    have stuck := Pass.run_eq_none limit unset' recurs only here (n + 1)
    have runs_out : step c (n + 1) (start c workflow world) = none := by
      simp only [step, live]
      simp [start, first, on] at stuck ⊢
      exact stuck
    rw [run, Loop.run, runs_out]

end

/-- **Runs end whose actions descend**: those whose actions can be ranked
with every call appending only actions below its own, and those of scripts
that lead to no cycle of definitions. Runs that come to an action that
appends itself do not. The same goes for a stage that is executed on its
own. -/
theorem ends_if_descends :
    (∀ (β : Type) (c : Setting β) (rank : Action β → Nat) (workflow : Workflow β) (world : World),
      ((∀ steps, ∀ call ∈ Run.calls c steps workflow world, call.Descends c rank) →
        ∃ steps result, Run.run c steps workflow world = some result) ∧
      ∀ stage,
        (∀ steps, ∀ call ∈ Runner.stageCalls c steps stage workflow world,
          call.Descends c rank) →
        ∃ steps result, Runner.executeStage c steps stage workflow world = some result) ∧
    (∀ (defs : Script.Definitions) (token : Token) (logger : Logger)
      (workflow : Workflow Script) (world : World),
      ((∀ stage ∈ workflow.stages, ∀ action ∈ stage.actions, Script.Acyclic defs action.code) →
        ∃ steps result,
          Run.run ⟨token, logger, Script.behave defs⟩ steps workflow world = some result) ∧
      ∀ stage, (∀ action ∈ stage.actions, Script.Acyclic defs action.code) →
        ∃ steps result,
          Runner.executeStage ⟨token, logger, Script.behave defs⟩ steps stage workflow world =
            some result) ∧
    (∀ (β : Type) (c : Setting β) (action : Action β) (stage : Stage β) (workflow : Workflow β)
      (world : World), c.token.deadline = none → world.signals.isSet c.token = false →
      Recurs c action → stage.slots = [⟨action, true⟩] →
      (workflow.stages[0]? = some stage → workflow.isStageEnabled stage.id = true →
        ∀ steps, Run.run c steps workflow world = none) ∧
      ∀ steps, Runner.executeStage c steps stage workflow world = none) := by
  refine ⟨fun β c rank workflow world => ⟨Run.exists_run, fun stage descends => ?_⟩,
    fun defs token logger workflow world =>
      ⟨Script.exists_run rfl, fun stage => Script.exists_executeStage rfl⟩,
    fun β c action stage workflow world limit unset recurs only =>
      ⟨Run.run_eq_none limit unset recurs only,
        Pass.run_eq_none limit unset recurs only rfl⟩⟩
  refine Pass.exists_run rank rfl fun pass entry steps call hcall => ?_
  refine descends steps call ?_
  rw [Runner.stageCalls, entry]
  exact hcall

/-! ### Samples of the three sorts -/

namespace Sample

/-- How deep the code of an action is nested. -/
def Code.depth : Code → Nat
  | rest | fail => 0
  | grow next => next.depth + 1
  | quit => 1

/-- **The actions of the sample descend**, each by its own depth. -/
theorem descends {call : Call Code} : call.Descends setting fun action => action.code.depth := by
  intro mutation granted action appended
  rw [Call.granted, Call.queue, Call.result, Call.ended] at granted
  cases code : call.action.code with
  | rest =>
    simp [setting, behave, code, Invocation.perform, Program.run] at granted
  | grow next =>
    simp only [setting, behave, code, Invocation.perform, Program.run, Invocation.answer,
      Invocation.take, List.nil_append, List.mem_append, List.mem_singleton] at granted
    have lower : next.depth < call.action.code.depth := by
      rw [code]
      exact Nat.lt_succ_self next.depth
    rcases granted with rfl | rfl
    · obtain rfl := List.mem_singleton.mp appended
      exact lower
    · obtain rfl := List.mem_singleton.mp appended
      exact lower
  | quit =>
    simp only [setting, behave, code, Invocation.perform, Program.run, Invocation.answer,
      Invocation.take, List.nil_append, List.mem_singleton] at granted
    obtain rfl := granted
    obtain rfl := List.mem_singleton.mp appended
    show 0 < call.action.code.depth
    rw [code]
    exact Nat.one_pos
  | fail =>
    simp [setting, behave, code, Invocation.perform, Program.run] at granted

/-- An action that does nothing, and one that appends itself, by name. -/
def definitions : Script.Definitions :=
  ⟨[("leaf", .mk .bare "leaf" "" "" [] []),
    ("loop", .mk .bare "loop" "" "" [] [.addAction (.named "loop")])], []⟩

/-- A live token, and scripts over these definitions. -/
def scriptSetting : Setting Script :=
  ⟨⟨0, none⟩, .discard, Script.behave definitions⟩

/-- An action that adds a stage, spelled out, whose action adds one more by
name. -/
def nested : Action Script :=
  ⟨.bare "nested",
    [.addStage (.literal (.mk "s" "s" "" [] []
      [.literal (.mk .bare "inner" "" "" [] [.addAction (.named "leaf")])] []))]⟩

/-- The action that appends itself. -/
def loop : Action Script :=
  ⟨.bare "loop" (.ofList []), [.addAction (.named "loop")]⟩

/-- A stage with one action that is a script. -/
def scripted (action : Action Script) : Stage Script :=
  ⟨"s", "s", "", ∅, [⟨action, true⟩], 1⟩

/-- A workflow with one such stage, which is enabled. -/
def scriptedWorkflow (action : Action Script) : Workflow Script :=
  ⟨"w", "w", "", ∅, [scripted action], 0, (∅ : Table Bool).insert "s" true⟩

theorem acyclic_nested : Script.Acyclic definitions nested.code := by
  -- only one name is mentioned, and its definition mentions none
  have mentions_none (y : Script.Reference) : ¬ definitions.Mentions (.action "leaf") y :=
    fun h => absurd h List.not_mem_nil
  intro x hx y reached cycle
  obtain rfl : x = .action "leaf" := List.mem_singleton.mp hx
  have here : y = .action "leaf" := by
    rcases Relation.ReflTransGen.cases_head reached with eq | ⟨z, mentions, -⟩
    · exact eq.symm
    · exact absurd mentions (mentions_none z)
  subst here
  obtain ⟨z, mentions, -⟩ := Relation.TransGen.head'_iff.mp cycle
  exact mentions_none z mentions

end Sample

/-- A run that grows, scripts that are nested, and a script that appends
itself. -/
theorem ends_if_descends_sample :
    (∃ steps result, Run.run Sample.setting steps
      (Sample.workflow (.grow (.grow .quit))) Sample.world = some result) ∧
    (∃ steps result, Run.run Sample.scriptSetting steps
      (Sample.scriptedWorkflow Sample.nested) Sample.world = some result) ∧
    ∀ steps, Run.run Sample.scriptSetting steps
      (Sample.scriptedWorkflow Sample.loop) Sample.world = none := by
  obtain ⟨ranked, scripts, endless⟩ := ends_if_descends
  refine ⟨?_, ?_, ?_⟩
  · exact (ranked _ Sample.setting (fun action => action.code.depth) _ _).1
      fun _ _ _ => Sample.descends
  · refine (scripts Sample.definitions _ _ _ _).1 fun stage hstage action haction => ?_
    obtain rfl := List.mem_singleton.mp hstage
    obtain rfl := List.mem_singleton.mp haction
    exact Sample.acyclic_nested
  · have recurs : Recurs Sample.scriptSetting Sample.loop := rfl
    exact (endless _ _ _ (Sample.scripted Sample.loop) _ _ rfl rfl recurs rfl).1 rfl rfl

end StagedWorkflow
