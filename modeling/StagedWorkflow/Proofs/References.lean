import Mathlib.Data.Fintype.Card
import Mathlib.Data.Set.Finite.List
import Mathlib.Logic.Relation
import Mathlib.Order.Lattice.Nat
import StagedWorkflow.Script.Act
import StagedWorkflow.Proofs.Descent
import StagedWorkflow.Proofs.Requests

/-!
# What scripts lead to

A script appends actions that are spelled out in it, or given by the name of
a definition. `Script.additions` lists them, and everything a script records
is among them (`Script.adds_of_mem_granted`). A definition can mention
others, and in the end itself, and then the actions that it adds go on for
ever. If no definition that a script leads to leads back to itself, they do
not (`Script.Acyclic.acc`): scripts can then be ranked, each above those it
appends (`Script.exists_rank`).
-/

namespace StagedWorkflow

namespace Script

variable {defs : Definitions}

/-! ## What a script appends -/

/-- The instructions of an action that is spelled out. -/
def ActionSpec.body : ActionSpec → Script
  | .mk _ _ _ _ _ body => body

/-- The actions of a stage that is spelled out. -/
def StageSpec.members (defs : Definitions) : StageSpec → List ActionSpec
  | .mk _ _ _ _ _ actions _ => actions.filterMap (ActionRef.resolve defs)

mutual

/-- The actions that an instruction can append, by themselves or with a
stage. -/
def Instruction.additions (defs : Definitions) : Instruction → List ActionSpec
  | .addAction action => (action.resolve defs).toList
  | .addStage stage => (stage.resolve defs).toList.flatMap (StageSpec.members defs)
  | .branch condition _ yes no =>
    condition.additions defs ++ (additions defs yes ++ additions defs no)
  | _ => []

/-- The actions that a script can append, by themselves or with a stage. -/
def additions (defs : Definitions) : List Instruction → List ActionSpec
  | [] => []
  | instruction :: rest => instruction.additions defs ++ additions defs rest

end

/-- That a mutation appends only actions that are spelled out in a list. -/
def Adds (specs : List ActionSpec) (mutation : Mutation Script) : Prop :=
  ∀ action ∈ mutation.actions, action ∈ specs.map ActionSpec.build

/-- That an act makes only requests it may make, and ends as it should if it
succeeds. -/
def Act.Conforms {α : Type} (may : Invocation.Request Script → Prop) (ends : α → Prop)
    (act : Act α) : Prop :=
  Program.Conforms (S := Invocation.signature Script) may (fun r => ∀ a, r = .ok a → ends a) act.run

namespace Act

variable {α γ : Type} {may : Invocation.Request Script → Prop} {ends : α → Prop}

theorem conforms_pure {a : α} (h : ends a) : Conforms may ends (pure a) := by
  intro b eq
  obtain rfl : a = b := Except.ok.inj eq
  exact h

theorem conforms_throw {fault : Fault} : Conforms may ends (throw fault) := by
  intro b eq
  cases eq

theorem Conforms.bind {ends' : γ → Prop} {act : Act α} {f : α → Act γ}
    (h : Conforms may ends act) (rest : ∀ a, ends a → Conforms may ends' (f a)) :
    Conforms may ends' (act >>= f) := by
  refine Program.Conforms.bind h fun r hr => ?_
  cases r with
  | ok a => exact rest a (hr a rfl)
  | error fault => exact conforms_throw

theorem Conforms.mono {may' : Invocation.Request Script → Prop} {act : Act α}
    (h : Conforms may ends act) (asks : ∀ r, may r → may' r) : Conforms may' ends act :=
  Program.Conforms.mono h asks fun _ => id

theorem conforms_ask {r : Invocation.Request Script} (h : may r) :
    Conforms may (fun _ => True) (ask r) :=
  (Program.conforms_request h).bind fun _ _ _ _ => trivial

theorem conforms_play {history : Heap.History α} (heap : ∀ r, may (.heap r))
    (h : Program.Conforms (fun _ => True) ends history) : Conforms may ends (play history) := by
  refine Program.Conforms.bind (Program.Conforms.embed (h.mono (fun r _ => heap r) fun _ => id)) ?_
  intro a ha b eq
  obtain rfl : a = b := Except.ok.inj eq
  exact ha

end Act

open Invocation (Request)

variable {holds : Mutation Script → Prop}

theorem Selector.conforms_inAction (selector : Selector) :
    Act.Conforms (Request.Records holds) (fun _ => True) selector.inAction := by
  cases selector with
  | current => exact (Act.conforms_ask nofun).bind fun _ _ => Act.conforms_pure trivial
  | workflow => exact (Act.conforms_ask nofun).bind fun _ _ => Act.conforms_pure trivial
  | stage id => exact (Act.conforms_ask nofun).bind fun _ _ => Act.conforms_pure trivial
  | number | detached | nowhere => exact Act.conforms_pure trivial

/-- An operation on stores records nothing. -/
theorem StoreOp.conforms_inAction (target : Option Selector) (raise : Bool) (op : StoreOp) :
    Act.Conforms (Request.Records holds) (fun _ => True) (op.inAction target raise) := by
  refine (Selector.conforms_inAction _).bind fun found _ => ?_
  cases found with
  | none => exact Act.conforms_pure trivial
  | some s =>
    have other : Act.Conforms (Request.Records holds) (fun _ => True)
        (Selector.inAction? op.selector?) := by
      cases op.selector? with
      | none => exact Act.conforms_pure trivial
      | some selector => exact selector.conforms_inAction
    refine other.bind fun other _ => ?_
    refine (Act.conforms_play (fun _ => nofun) Program.conforms_true).bind fun result _ => ?_
    cases result with
    | ok answer => exact Act.conforms_pure trivial
    | error error =>
      cases raise with
      | true => exact Act.conforms_throw
      | false => exact Act.conforms_pure trivial

theorem conforms_stageInAction (id : Option String) :
    Act.Conforms (Request.Records holds) (fun _ => True) (stageInAction id) := by
  cases id with
  | none =>
    rw [stageInAction, ← bind_pure_comp]
    exact (Act.conforms_ask nofun).bind fun _ _ => Act.conforms_pure trivial
  | some id => exact (Act.conforms_ask nofun).bind fun _ _ => Act.conforms_pure trivial

theorem records_mono {own all : List ActionSpec} (sub : own ⊆ all) (r : Request Script)
    (h : r.Records (Adds own)) : r.Records (Adds all) :=
  fun mutation eq action haction => List.map_subset _ sub (h mutation eq action haction)

theorem conforms_requestChange {mutation : Mutation Script} (h : holds mutation) :
    Act.Conforms (Request.Records holds) (fun _ => True) (requestChange mutation) := by
  have records : (Request.record mutation).Records holds := by
    intro other eq
    obtain rfl := Request.record.inj eq
    exact h
  exact (Act.conforms_ask records).bind fun _ _ => Act.conforms_pure trivial

theorem actions_foldl_addAction {stage : Stage Script} {actions : List (Action Script)} :
    (actions.foldl Stage.addAction stage).actions = stage.actions ++ actions := by
  induction actions generalizing stage with
  | nil => simp
  | cons action rest ih =>
    rw [List.foldl_cons, ih]
    simp [Stage.actions]

theorem actions_foldl_setActionEnabled {stage : Stage Script} {ids : List String} :
    (ids.foldl (fun stage id => (stage.setActionEnabled id false).2) stage).actions =
      stage.actions := by
  induction ids generalizing stage with
  | nil => rfl
  | cons id rest ih => rw [List.foldl_cons, ih, Stage.actions_setActionEnabled]

/-- A stage that is built has the actions of its specification. -/
theorem StageSpec.conforms_build (defs : Definitions) (spec : StageSpec) :
    Program.Conforms (fun _ => True)
      (fun stage => stage.actions = (spec.members defs).map ActionSpec.build)
      (spec.build defs) := by
  cases spec with
  | mk id name description tags initial actions disabled =>
    refine Program.Conforms.bind Program.conforms_true fun initial _ => ?_
    show Stage.actions _ = _
    rw [actions_foldl_setActionEnabled, actions_foldl_addAction, members, List.map_filterMap]
    rfl

mutual

/-- **An instruction records only what it can append.** -/
theorem Instruction.conforms_run (who : String) : ∀ instruction : Instruction,
    Act.Conforms (Request.Records (Adds (instruction.additions defs))) (fun _ => True)
      (instruction.run defs who)
  | .store target raise op => StoreOp.conforms_inAction target raise op
  | .stage id query => by
    refine (conforms_stageInAction id).bind fun found _ => ?_
    cases found with
    | none => exact Act.conforms_pure trivial
    | some stage => exact Act.conforms_play (fun _ => nofun) Program.conforms_true
  | .workflow query =>
    (Act.conforms_ask nofun).bind fun _ _ =>
      Act.conforms_play (fun _ => nofun) Program.conforms_true
  | .say answer => Act.conforms_pure trivial
  | .here => (Act.conforms_ask nofun).bind fun _ _ => Act.conforms_pure trivial
  | .pending => (Act.conforms_ask nofun).bind fun _ _ => Act.conforms_pure trivial
  | .log level text => (Act.conforms_ask nofun).bind fun _ _ => Act.conforms_pure trivial
  | .fail fault => Act.conforms_throw
  | .cancel => (Act.conforms_ask nofun).bind fun _ _ => Act.conforms_pure trivial
  | .isCancelled => (Act.conforms_ask nofun).bind fun _ _ => Act.conforms_pure trivial
  | .check raise => by
    refine (Act.conforms_ask nofun).bind fun status _ => ?_
    cases status with
    | ok => exact Act.conforms_pure trivial
    | error reason =>
      cases raise with
      | true => exact Act.conforms_throw
      | false => exact Act.conforms_pure trivial
  | .addAction action => by
    rw [Instruction.run, Instruction.additions]
    cases resolved : action.resolve defs with
    | none => exact Act.conforms_pure trivial
    | some spec =>
      refine conforms_requestChange fun added hadded => ?_
      obtain rfl := List.mem_singleton.mp hadded
      exact List.mem_singleton_self _
  | .addStage stage => by
    rw [Instruction.run, Instruction.additions]
    cases resolved : stage.resolve defs with
    | none => exact Act.conforms_pure trivial
    | some spec =>
      refine (Act.conforms_play (fun _ => nofun) (spec.conforms_build defs)).bind
        fun built actions_eq => ?_
      refine conforms_requestChange fun added hadded => ?_
      have mem : added ∈ (spec.members defs).map ActionSpec.build := actions_eq ▸ hadded
      simpa using mem
  | .setActionEnabled id enabled => conforms_requestChange nofun
  | .setStageEnabled id enabled => conforms_requestChange nofun
  | .branch condition test yes no => by
    rw [Instruction.run, Instruction.additions]
    have decides := (condition.conforms_run who).mono (records_mono (List.subset_append_left _
      (additions defs yes ++ additions defs no)))
    refine decides.bind fun answer _ => ?_
    have chooseYes := (conforms_runAll who yes).mono (records_mono
      (List.subset_append_of_subset_right (condition.additions defs)
        (List.subset_append_left _ (additions defs no))))
    have chooseNo := (conforms_runAll who no).mono (records_mono
      (List.subset_append_of_subset_right (condition.additions defs)
        (List.subset_append_right (additions defs yes) _)))
    dsimp only
    split
    · exact chooseYes.bind fun _ _ => Act.conforms_pure trivial
    · exact chooseNo.bind fun _ _ => Act.conforms_pure trivial

/-- A script records only what it can append. -/
theorem conforms_runAll (who : String) : ∀ script : List Instruction,
    Act.Conforms (Request.Records (Adds (additions defs script))) (fun _ => True)
      (runAll defs who script)
  | [] => Act.conforms_pure trivial
  | instruction :: rest => by
    rw [runAll, additions]
    have first := (instruction.conforms_run who).mono (records_mono (List.subset_append_left _
      (additions defs rest)))
    refine first.bind fun answer _ => ?_
    have later := (conforms_runAll who rest).mono (records_mono (List.subset_append_right
      (instruction.additions defs) _))
    cases answer.isNull with
    | true => exact later
    | false => exact (Act.conforms_ask nofun).bind fun _ _ => later

end

/-- **A call of a script queues only what the script can append.** -/
theorem adds_of_mem_granted {c : Setting Script} (behaves : c.behave = behave defs)
    {call : Call Script} : ∀ mutation ∈ call.granted c,
      Adds (additions defs call.action.code) mutation := by
  intro mutation hmutation
  have queued : mutation ∈ call.queue c := by
    cases result : call.result c with
    | ok => rwa [Call.granted_of_ok result] at hmutation
    | error source =>
      rw [Call.granted_of_error result] at hmutation
      cases hmutation
  have taken (mutation : Mutation Script) (world : World)
      (h : Adds (additions defs call.action.code) mutation) :
      Adds (additions defs call.action.code) (Invocation.take mutation world).1 := by
    cases mutation <;> exact h
  have conforms : Program.Conforms (S := Invocation.signature Script)
      (Request.Records (Adds (additions defs call.action.code))) _
      (behave defs call.action) := conforms_runAll call.action.id call.action.code
  rw [Call.queue, Call.ended, behaves] at queued
  have none : ∀ mutation ∈ ([] : List (Mutation Script)),
      Adds (additions defs call.action.code) mutation := fun _ h => absurd h List.not_mem_nil
  exact Invocation.forall_queue ⟨c.token, c.logger, call.site.workflow, call.stage⟩ taken conforms
    none mutation queued

/-! ## Names of definitions -/

/-- The name of a definition. -/
inductive Reference where
  | action (name : String)
  | stage (name : String)

mutual

/-- The names in an instruction of what it appends, also inside what is
spelled out. -/
def Instruction.references : Instruction → List Reference
  | .addAction action => action.references
  | .addStage stage => stage.references
  | .branch condition _ yes no =>
    condition.references ++ (references yes ++ references no)
  | _ => []

/-- The names in an action that is spelled out. -/
def ActionSpec.references : ActionSpec → List Reference
  | .mk _ _ _ _ _ body => references body

/-- The names in an action: its own, or those of what is spelled out. -/
def ActionRef.references : ActionRef → List Reference
  | .named name => [.action name]
  | .literal spec => spec.references

/-- The names in a stage that is spelled out. -/
def StageSpec.references : StageSpec → List Reference
  | .mk _ _ _ _ _ actions _ => memberReferences actions

/-- The names in a stage: its own, or those of what is spelled out. -/
def StageRef.references : StageRef → List Reference
  | .named name => [.stage name]
  | .literal spec => spec.references

/-- The names in a script. -/
def references : List Instruction → List Reference
  | [] => []
  | instruction :: rest => instruction.references ++ references rest

/-- The names in a list of actions. -/
def memberReferences : List ActionRef → List Reference
  | [] => []
  | action :: rest => action.references ++ memberReferences rest

end

/-- The names in a definition. -/
def Definitions.references (defs : Definitions) : Reference → List Reference
  | .action name => ((defs.actions.lookup name).map ActionSpec.references).getD []
  | .stage name => ((defs.stages.lookup name).map StageSpec.references).getD []

/-- That a definition mentions another. -/
def Definitions.Mentions (defs : Definitions) (x y : Reference) : Prop :=
  y ∈ defs.references x

/-- **That a script leads to no cycle**: none of the definitions it leads to
leads back to itself. -/
def Acyclic (defs : Definitions) (script : Script) : Prop :=
  ∀ x ∈ references script, ∀ y, Relation.ReflTransGen defs.Mentions x y →
    ¬ Relation.TransGen defs.Mentions y y

/-- A script in which everything is spelled out leads to no cycle. -/
theorem acyclic_of_references_eq_nil {script : Script} (h : references script = []) :
    Acyclic defs script := by
  simp [Acyclic, h]

/-- All names in the definitions. -/
def Definitions.mentioned (defs : Definitions) : List Reference :=
  defs.actions.flatMap (fun entry => entry.2.references) ++
    defs.stages.flatMap fun entry => entry.2.references

theorem Definitions.mem_mentioned {x y : Reference} (h : defs.Mentions x y) :
    y ∈ defs.mentioned := by
  have mem_of_lookup {α : Type} {entries : List (String × α)} {name : String} {value : α}
      (found : entries.lookup name = some value) : (name, value) ∈ entries := by
    induction entries with
    | nil => cases found
    | cons entry rest ih =>
      rw [List.lookup_cons] at found
      split at found
      next eq =>
        obtain rfl := Option.some.inj found
        rw [beq_iff_eq.mp eq]
        exact List.mem_cons_self
      next => exact List.mem_cons_of_mem _ (ih found)
  cases x with
  | action name =>
    cases found : defs.actions.lookup name with
    | none => simp [Mentions, references, found] at h
    | some spec =>
      have mem : y ∈ spec.references := by simpa [Mentions, references, found] using h
      exact List.mem_append_left _ (List.mem_flatMap.mpr ⟨_, mem_of_lookup found, mem⟩)
  | stage name =>
    cases found : defs.stages.lookup name with
    | none => simp [Mentions, references, found] at h
    | some spec =>
      have mem : y ∈ spec.references := by simpa [Mentions, references, found] using h
      exact List.mem_append_right _ (List.mem_flatMap.mpr ⟨_, mem_of_lookup found, mem⟩)

/-- Where there is no cycle, every chain of names ends: there are only
finitely many. -/
theorem acc_of_no_cycle {x : Reference}
    (acyclic : ∀ y, Relation.ReflTransGen defs.Mentions x y →
      ¬ Relation.TransGen defs.Mentions y y) :
    Acc (fun y x => defs.Mentions x y) x := by
  -- the names that are reached from here
  let Reached := { y // Relation.ReflTransGen defs.Mentions x y }
  have finite : Finite Reached := by
    refine Set.Finite.subset ((List.finite_toSet (x :: defs.mentioned))) fun y reached => ?_
    rcases Relation.ReflTransGen.cases_tail reached with rfl | ⟨z, -, mentions⟩
    · exact List.mem_cons_self
    · exact List.mem_cons_of_mem _ (Definitions.mem_mentioned mentions)
  let below : Reached → Reached → Prop := fun z y => Relation.TransGen defs.Mentions y.1 z.1
  have trans : IsTrans Reached below := ⟨fun _ _ _ first second => second.trans first⟩
  have irrefl : Std.Irrefl below := ⟨fun y => acyclic y.1 y.2⟩
  have wellFounded : WellFounded below := Finite.wellFounded_of_trans_of_irrefl below
  suffices reaches : ∀ y : Reached, Acc (fun y x => defs.Mentions x y) y.1 from
    reaches ⟨x, .refl⟩
  intro y
  induction y using wellFounded.induction with
  | _ y ih =>
    exact Acc.intro _ fun z mentions => ih ⟨z, y.2.tail mentions⟩ (.single mentions)

/-! ## Scripts that follow one another -/

/-- That a script can append an action with another script as its code. -/
def Follows (defs : Definitions) (t s : Script) : Prop :=
  ∃ spec ∈ additions defs s, spec.body = t

/-- That no chain of actions goes on for ever from what a name stands for. -/
def Settled (defs : Definitions) : Reference → Prop
  | .action name =>
    ∀ spec, defs.actions.lookup name = some spec → Acc (Follows defs) spec.body
  | .stage name =>
    ∀ spec, defs.stages.lookup name = some spec →
      ∀ member ∈ spec.members defs, Acc (Follows defs) member.body

mutual

/-- Where all names are settled, so is what an instruction appends. -/
theorem Instruction.acc_additions : ∀ instruction : Instruction,
    (∀ x ∈ instruction.references, Settled defs x) →
      ∀ spec ∈ instruction.additions defs, Acc (Follows defs) spec.body
  | .addAction action, settled => by
    intro spec hspec
    rw [Instruction.additions, Option.mem_toList] at hspec
    exact action.acc_resolve settled spec hspec
  | .addStage stage, settled => by
    intro spec hspec
    rw [Instruction.additions] at hspec
    obtain ⟨own, hown, hspec⟩ := List.mem_flatMap.mp hspec
    exact stage.acc_resolve settled own (Option.mem_toList.mp hown) spec hspec
  | .branch condition test yes no, settled => by
    intro spec hspec
    rw [Instruction.references] at settled
    rw [Instruction.additions] at hspec
    rcases List.mem_append.mp hspec with first | hspec
    · exact condition.acc_additions
        (fun x hx => settled x (List.mem_append_left _ hx)) spec first
    · rcases List.mem_append.mp hspec with second | third
      · exact acc_additions yes (fun x hx =>
          settled x (List.mem_append_right _ (List.mem_append_left _ hx))) spec second
      · exact acc_additions no (fun x hx =>
          settled x (List.mem_append_right _ (List.mem_append_right _ hx))) spec third
  | .store _ _ _, _ | .stage _ _, _ | .workflow _, _ | .say _, _ | .here, _ | .pending, _
  | .log _ _, _ | .fail _, _ | .cancel, _ | .isCancelled, _ | .check _, _
  | .setActionEnabled _ _, _ | .setStageEnabled _ _, _ =>
    fun _ hspec => absurd hspec List.not_mem_nil

/-- Where all names are settled, so is what a script appends. -/
theorem acc_additions : ∀ script : List Instruction,
    (∀ x ∈ references script, Settled defs x) →
      ∀ spec ∈ additions defs script, Acc (Follows defs) spec.body
  | [], _ => fun _ hspec => absurd hspec List.not_mem_nil
  | instruction :: rest, settled => by
    intro spec hspec
    rw [references] at settled
    rw [additions] at hspec
    rcases List.mem_append.mp hspec with first | later
    · exact instruction.acc_additions
        (fun x hx => settled x (List.mem_append_left _ hx)) spec first
    · exact acc_additions rest (fun x hx => settled x (List.mem_append_right _ hx)) spec later

/-- **An action that is spelled out starts no endless chain**, where all
names in it are settled. -/
theorem ActionSpec.acc_body : ∀ spec : ActionSpec,
    (∀ x ∈ spec.references, Settled defs x) → Acc (Follows defs) spec.body
  | .mk _ _ _ _ _ body, settled => by
    refine Acc.intro _ ?_
    rintro _ ⟨spec, hspec, rfl⟩
    exact acc_additions body settled spec hspec

theorem ActionRef.acc_resolve : ∀ action : ActionRef,
    (∀ x ∈ action.references, Settled defs x) →
      ∀ spec, action.resolve defs = some spec → Acc (Follows defs) spec.body
  | .named name, settled => settled (.action name) List.mem_cons_self
  | .literal own, settled => by
    rintro spec found
    obtain rfl := Option.some.inj found
    exact own.acc_body settled

theorem StageSpec.acc_members : ∀ stage : StageSpec,
    (∀ x ∈ stage.references, Settled defs x) →
      ∀ spec ∈ stage.members defs, Acc (Follows defs) spec.body
  | .mk _ _ _ _ _ actions _, settled => acc_members actions settled

theorem StageRef.acc_resolve : ∀ stage : StageRef,
    (∀ x ∈ stage.references, Settled defs x) →
      ∀ own, stage.resolve defs = some own →
        ∀ spec ∈ own.members defs, Acc (Follows defs) spec.body
  | .named name, settled => settled (.stage name) List.mem_cons_self
  | .literal spec, settled => by
    rintro own found
    obtain rfl := Option.some.inj found
    exact spec.acc_members settled

theorem acc_members : ∀ actions : List ActionRef,
    (∀ x ∈ memberReferences actions, Settled defs x) →
      ∀ spec ∈ actions.filterMap (ActionRef.resolve defs), Acc (Follows defs) spec.body
  | [], _ => fun _ hspec => absurd hspec List.not_mem_nil
  | action :: rest, settled => by
    intro spec hspec
    rw [memberReferences] at settled
    obtain ⟨own, hown, found⟩ := List.mem_filterMap.mp hspec
    rcases List.mem_cons.mp hown with here | hown
    · rw [here] at found
      exact action.acc_resolve (fun x hx => settled x (List.mem_append_left _ hx)) spec found
    · exact acc_members rest (fun x hx => settled x (List.mem_append_right _ hx)) spec
        (List.mem_filterMap.mpr ⟨own, hown, found⟩)

end

/-- A name is settled from which every chain of names ends. -/
theorem settled_of_acc {x : Reference} (acc : Acc (fun y x => defs.Mentions x y) x) :
    Settled defs x := by
  induction acc with
  | intro x _ ih =>
    cases x with
    | action name =>
      intro spec found
      refine spec.acc_body fun y hy => ih y ?_
      simpa [Definitions.Mentions, Definitions.references, found] using hy
    | stage name =>
      intro spec found
      refine spec.acc_members fun y hy => ih y ?_
      simpa [Definitions.Mentions, Definitions.references, found] using hy

/-- **A script that leads to no cycle starts no endless chain.** -/
theorem Acyclic.acc {script : Script} (acyclic : Acyclic defs script) :
    Acc (Follows defs) script := by
  refine Acc.intro _ ?_
  rintro _ ⟨spec, hspec, rfl⟩
  exact acc_additions script
    (fun x hx => settled_of_acc (acc_of_no_cycle (acyclic x hx))) spec hspec

/-- That every chain of actions from a script has fewer links than a number. -/
def Within (defs : Definitions) : Nat → Script → Prop
  | 0, _ => False
  | n + 1, script => ∀ spec ∈ additions defs script, Within defs n spec.body

theorem Within.mono {m n : Nat} (le : m ≤ n) {script : Script} (h : Within defs m script) :
    Within defs n script := by
  induction m generalizing n script with
  | zero => exact h.elim
  | succ m ih =>
    obtain ⟨n, rfl⟩ : ∃ k, n = k + 1 := ⟨n - 1, by omega⟩
    exact fun spec hspec => ih (by omega) (h spec hspec)

/-- A script appends finitely many actions, so one number bounds all the
chains that it starts. -/
theorem exists_within {script : Script} (acc : Acc (Follows defs) script) :
    ∃ n, Within defs n script := by
  induction acc with
  | intro script _ ih =>
    have bounded : ∀ specs : List ActionSpec, specs ⊆ additions defs script →
        ∃ n, ∀ spec ∈ specs, Within defs n spec.body := by
      intro specs sub
      induction specs with
      | nil => exact ⟨0, fun _ h => absurd h List.not_mem_nil⟩
      | cons spec rest ihRest =>
        obtain ⟨here, rest_sub⟩ := List.cons_subset.mp sub
        obtain ⟨m, first⟩ := ih spec.body ⟨spec, here, rfl⟩
        obtain ⟨n, later⟩ := ihRest rest_sub
        refine ⟨max m n, fun other hother => ?_⟩
        rcases List.mem_cons.mp hother with rfl | hother
        · exact first.mono (Nat.le_max_left m n)
        · exact (later other hother).mono (Nat.le_max_right m n)
    obtain ⟨n, all⟩ := bounded _ (List.Subset.refl _)
    exact ⟨n + 1, all⟩

/-- **Scripts can be ranked**, each above those it appends, if they start no
endless chain. -/
theorem exists_rank (defs : Definitions) : ∃ rank : Script → Nat,
    ∀ s, Acc (Follows defs) s → ∀ t, Follows defs t s → rank t < rank s := by
  refine ⟨fun s => sInf {n | Within defs n s}, ?_⟩
  rintro s acc t ⟨spec, hspec, rfl⟩
  have least : Within defs (sInf {n | Within defs n s}) s := Nat.sInf_mem (exists_within acc)
  cases eq : sInf {n | Within defs n s} with
  | zero =>
    rw [eq] at least
    exact least.elim
  | succ n =>
    rw [eq] at least
    have below : sInf {m | Within defs m spec.body} ≤ n := Nat.sInf_le (least spec hspec)
    show sInf {m | Within defs m spec.body} < sInf {n | Within defs n s}
    omega

end Script

end StagedWorkflow
