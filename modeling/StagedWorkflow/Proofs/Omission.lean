import StagedWorkflow.Proofs.Blind
import StagedWorkflow.Proofs.Stutter

/-!
# Passes with disabled actions left out

A pass over a stage and one over the same stage with some disabled actions
left out make the same calls, if their actions are blind and the token is
live (`Pass.Thinned.follow`, `Pass.Thinned.lead`). The two are at different
positions, of lists of different lengths, in worlds that drift apart; what
they have in common is what lies ahead (`Stage.Ahead`). Where an action lies
ahead of the first pass that the second has not got, the first passes over it
and the second stands still (`Pass.Thinned.steps`).
-/

namespace StagedWorkflow

variable {β : Type} {c : Setting β}

/-- **That the same lies ahead of two positions** of two stages, but for
disabled actions of the first. -/
structure Stage.Ahead (s : Stage β) (i : Nat) (t : Stage β) (j : Nat) : Prop where
  id : s.id = t.id
  le : i ≤ s.slots.length
  le' : j ≤ t.slots.length
  slots : Thins (fun slot => slot.enabled = false) Eq (s.slots.drop i) (t.slots.drop j)

/-- What is added to both lies ahead of both. -/
theorem Stage.Ahead.amendAll {s t : Stage β} {i j : Nat} (h : s.Ahead i t j)
    {queue : List (Mutation β)} (adds : ∀ mutation ∈ queue, mutation.Adds) :
    (s.amendAll queue).Ahead i (t.amendAll queue) j where
  id := by rw [id_amendAll, id_amendAll, h.id]
  le := by
    rw [Mutation.slots_amendAll_of_adds adds, List.length_append]
    exact Nat.le_add_right_of_le h.le
  le' := by
    rw [Mutation.slots_amendAll_of_adds adds, List.length_append]
    exact Nat.le_add_right_of_le h.le'
  slots := by
    rw [Mutation.slots_amendAll_of_adds adds, Mutation.slots_amendAll_of_adds adds,
      List.drop_append_of_le_length h.le, List.drop_append_of_le_length h.le']
    exact h.slots.append (.refl (fun _ => rfl) _)

namespace Pass

/-- The steps of a pass, each with the calls that it makes. -/
abbrev takes (c : Setting β) : Pass β → Step (Pass β) (Result β) → List (Move β) → Prop :=
  Loop.Takes (fun _ p => some (p.step c)) fun _ p => (p.call? c).toList.map (Call.move c)

/-- What a pass comes to, with the calls that it makes. -/
abbrev Comes (c : Setting β) : Pass β → List (Move β) → Result β → Prop :=
  Loop.Comes (takes c)

/-- That the token is live at the next position, and the action blind that is
called there. -/
structure Calm (c : Setting β) (p : Pass β) : Prop where
  live : ∀ slot, p.site.slot? p.index = some slot → (p.world.check c.token).1 = .ok ()
  blind : ∀ call, p.call? c = some call → (c.behave call.action).Blind

/-- That this is so all along the pass. -/
def Steady (c : Setting β) (p : Pass β) : Prop :=
  ∀ n, ∀ q ∈ p.trail c n, q.Calm c

/-- **That one pass is another with disabled actions left out ahead.** -/
structure Thinned (c : Setting β) (p q : Pass β) : Prop where
  stage : ∃ s t, p.site.stage? = some s ∧ q.site.stage? = some t ∧ s.Ahead p.index t q.index
  workflow : p.site.workflow.id = q.site.workflow.id
  store : p.site.workflow.store = q.site.workflow.store
  stageId : p.stageId = q.stageId
  world : p.world.Drifted q.world
  steady : p.Steady c

/-- That two passes have ended the same, in worlds that have drifted apart. -/
structure Result.Drifted (r s : Result β) : Prop where
  outcome : r.outcome = s.outcome
  world : r.world.Drifted s.world

/-- How many positions are ahead. -/
def remaining (p : Pass β) : Nat :=
  match p.site.stage? with
  | none => 0
  | some stage => stage.slots.length - p.index

variable {p q t : Pass β} {result : Result β} {moves : List (Move β)}

theorem takes_iff {x : Step (Pass β) (Result β)} :
    takes c p x moves ↔ x = p.step c ∧ moves = (p.call? c).toList.map (Call.move c) := by
  constructor
  · rintro ⟨_, taken, shown⟩
    exact ⟨(Option.some.inj taken).symm, shown.symm⟩
  · rintro ⟨rfl, rfl⟩
    exact ⟨0, rfl, rfl⟩

theorem Steady.calm (h : p.Steady c) : p.Calm c :=
  h 1 p List.mem_cons_self

theorem Steady.again (h : p.Steady c) (taken : p.step c = .again t) : t.Steady c := by
  intro n q mem
  refine h (n + 1) q ?_
  rw [trail, Loop.trail, taken]
  exact List.mem_cons_of_mem _ mem

/-- Passes whose steps come to the same, and which call the same there, go
abreast. -/
theorem abreast_of_step (related : Step.Rel (Thinned c) Result.Drifted (p.step c) (q.step c))
    (same : (p.call? c).toList.map (Call.move c) = (q.call? c).toList.map (Call.move c)) :
    Loop.Abreast (takes c) (takes c) (Thinned c) Result.Drifted p q where
  follow x shown taken := by
    obtain ⟨rfl, rfl⟩ := takes_iff.mp taken
    exact ⟨_, takes_iff.mpr ⟨rfl, same⟩, related⟩
  lead y shown taken := by
    obtain ⟨rfl, rfl⟩ := takes_iff.mp taken
    exact ⟨_, takes_iff.mpr ⟨rfl, same.symm⟩, related⟩

namespace Thinned

/-- Where both have the same action ahead and it is disabled, both pass over
it. -/
theorem skip (h : p.Thinned c q) {s t : Stage β} (here : p.site.stage? = some s)
    (there : q.site.stage? = some t) (further : s.Ahead (p.index + 1) t (q.index + 1))
    {slot : Slot β} (found : s.slots[p.index]? = some slot)
    (found' : t.slots[q.index]? = some slot) (off : slot.enabled = false) :
    Loop.Abreast (takes c) (takes c) (Thinned c) Result.Drifted p q := by
  have live := h.steady.calm.live slot (by simp [Site.slot?, here, found])
  obtain ⟨live', worlds⟩ := h.world.check live
  have step := step_eq (c := c) here
  have step' := step_eq (c := c) there
  simp only [found, found', live, live', off, Bool.false_eq_true, if_false] at step step'
  have call : p.call? c = none := by simp [call?, here, found, live, off]
  have call' : q.call? c = none := by simp [call?, there, found', live', off]
  refine abreast_of_step ?_ (by rw [call, call'])
  rw [step, step']
  exact .again ⟨⟨s, t, here, there, further⟩, h.workflow, h.store, h.stageId, worlds.notify,
    h.steady.again step⟩

/-- Where both have the same action ahead and it is enabled, both call it,
and it does the same in both. -/
theorem invoke (h : p.Thinned c q) {s t : Stage β} (here : p.site.stage? = some s)
    (there : q.site.stage? = some t) (further : s.Ahead (p.index + 1) t (q.index + 1))
    {slot : Slot β} (found : s.slots[p.index]? = some slot)
    (found' : t.slots[q.index]? = some slot) (on : slot.enabled = true) :
    Loop.Abreast (takes c) (takes c) (Thinned c) Result.Drifted p q := by
  have live := h.steady.calm.live slot (by simp [Site.slot?, here, found])
  obtain ⟨live', worlds⟩ := h.world.check live
  have call : p.call? c = some (p.calling c s slot.action) := by
    simp [call?, here, found, live, on]
  have call' : q.call? c = some (q.calling c t slot.action) := by
    simp [call?, there, found', live', on]
  have blind := h.steady.calm.blind _ call
  have ids : (⟨c.token, c.logger, p.site.workflow, s⟩ : Invocation β).SameIds
      ⟨c.token, c.logger, q.site.workflow, t⟩ := ⟨h.workflow, further.id, h.store⟩
  have begins : (p.calling c s slot.action).world.Drifted (q.calling c t slot.action).world :=
    worlds.notify
  have action : (p.calling c s slot.action).action = (q.calling c t slot.action).action := rfl
  obtain ⟨results, queues, left, moves⟩ := Call.drifted action blind ids begins
  have step := step_eq (c := c) here
  have step' := step_eq (c := c) there
  simp only [found, found', live, live', on, if_true] at step step'
  refine abreast_of_step ?_ (by rw [call, call', Option.toList_some, Option.toList_some,
    List.map_singleton, List.map_singleton, moves])
  cases result : (p.calling c s slot.action).result c with
  | error source =>
    have result' := results.symm.trans result
    simp only [result, result'] at step step'
    rw [step, step', ← h.stageId]
    exact .finish ⟨rfl, left.notify⟩
  | ok =>
    have result' := results.symm.trans result
    simp only [result, result'] at step step'
    rw [step, step']
    have adds : ∀ mutation ∈ (p.calling c s slot.action).queue c, mutation.Adds := by
      rw [← Call.granted_of_ok result]
      exact Call.adds_of_blind blind
    refine .again ⟨⟨_, _, Site.stage?_applyAll here, ?_, further.amendAll adds⟩, ?_, ?_,
      h.stageId, left.notifyAll, h.steady.again step⟩
    · rw [← queues]
      exact Site.stage?_applyAll there
    · rw [Site.id_applyAll, Site.id_applyAll, h.workflow]
    · rw [Site.store_applyAll, Site.store_applyAll, h.store]

/-- Where the first has an action ahead that is left out, it passes over
it. -/
theorem drop (h : p.Thinned c q) {s t : Stage β} (here : p.site.stage? = some s)
    (there : q.site.stage? = some t) (ahead : s.Ahead p.index t q.index) {slot : Slot β}
    (found : s.slots[p.index]? = some slot) (off : slot.enabled = false)
    (rest : Thins (fun slot => slot.enabled = false) Eq (s.slots.drop (p.index + 1))
      (t.slots.drop q.index)) :
    Loop.Lags (takes c) (Thinned c) remaining p q := by
  have live := h.steady.calm.live slot (by simp [Site.slot?, here, found])
  have lt : p.index < s.slots.length := (List.getElem?_eq_some_iff.mp found).1
  have step := step_eq (c := c) here
  simp only [found, live, off, Bool.false_eq_true, if_false] at step
  have call : p.call? c = none := by simp [call?, here, found, live, off]
  refine ⟨⟨p.site, (p.world.check c.token).2.notify c.logger
      (.actionSkipped p.site.place p.index p.stageId slot.action.id), p.stageId, p.index + 1,
      p.executed⟩,
    ⟨⟨s, t, here, there, ahead.id, lt, ahead.le', rest⟩, h.workflow, h.store, h.stageId,
      h.world.check_left.notify_left, h.steady.again step⟩, ?_,
    takes_iff.mpr ⟨step.symm, by rw [call]; rfl⟩, fun x shown taken => ?_⟩
  · simp only [remaining, here]
    omega
  · obtain ⟨rfl, rfl⟩ := takes_iff.mp taken
    exact ⟨step, by rw [call]; rfl⟩

/-- **Either both take the same step, or the first passes over an action
that is left out.** -/
theorem steps (h : p.Thinned c q) :
    Loop.Lags (takes c) (Thinned c) remaining p q ∨
      Loop.Abreast (takes c) (takes c) (Thinned c) Result.Drifted p q := by
  obtain ⟨s, t, here, there, ahead⟩ := h.stage
  have slots := ahead.slots
  generalize first : s.slots.drop p.index = l at slots
  generalize second : t.slots.drop q.index = m at slots
  cases slots with
  | nil =>
    have past : s.slots[p.index]? = none :=
      List.getElem?_eq_none_iff.mpr (List.drop_eq_nil_iff.mp first)
    have past' : t.slots[q.index]? = none :=
      List.getElem?_eq_none_iff.mpr (List.drop_eq_nil_iff.mp second)
    have call : p.call? c = none := by simp [call?, here, past]
    have call' : q.call? c = none := by simp [call?, there, past']
    refine .inr (abreast_of_step ?_ (by rw [call, call']))
    rw [step_eq here, step_eq there]
    simp only [past, past']
    exact .finish ⟨rfl, h.world.notify⟩
  | @keep slot _ l m same rest =>
    subst same
    obtain ⟨found, rfl⟩ := getElem?_of_drop_eq_cons first
    obtain ⟨found', rfl⟩ := getElem?_of_drop_eq_cons second
    have further : s.Ahead (p.index + 1) t (q.index + 1) :=
      ⟨ahead.id, (List.getElem?_eq_some_iff.mp found).1, (List.getElem?_eq_some_iff.mp found').1,
        rest⟩
    cases on : slot.enabled with
    | false => exact .inr (h.skip here there further found found' on)
    | true => exact .inr (h.invoke here there further found found' on)
  | drop off rest =>
    obtain ⟨found, rfl⟩ := getElem?_of_drop_eq_cons first
    exact .inl (h.drop here there ahead found off (second ▸ rest))

/-- **What the first pass comes to, the other one comes to**, with the same
calls. -/
theorem follow (h : p.Thinned c q) (comes : Comes c p moves result) :
    ∃ result', Comes c q moves result' ∧ result.Drifted result' :=
  Loop.Comes.follow (fun _ _ => steps) comes h

/-- And the other way round. -/
theorem lead (h : p.Thinned c q) {result' : Result β} (comes : Comes c q moves result') :
    ∃ result, Comes c p moves result ∧ result.Drifted result' :=
  Loop.Comes.lead (fun _ _ => steps) comes h

end Thinned

/-- A pass begins like one with disabled actions left out. -/
theorem thinned_enter {site site' : Site β} {s t : Stage β} {w v : World}
    (here : site.stage? = some s) (there : site'.stage? = some t) (thinned : s.Thinned t)
    (workflow : site.workflow.id = site'.workflow.id)
    (store : site.workflow.store = site'.workflow.store) (worlds : w.Drifted v)
    (steady : (enter c site s w).Steady c) :
    (enter c site s w).Thinned c (enter c site' t v) where
  stage := ⟨s, t, here, there, thinned.id, Nat.zero_le _, Nat.zero_le _, thinned.slots⟩
  workflow := workflow
  store := store
  stageId := thinned.id
  world := by
    have notified : (w.notify c.logger (.stageStarting site.place s.id s.size)).Drifted
        (v.notify c.logger (.stageStarting site'.place t.id t.size)) := worlds.notify
    have initial := thinned.initial
    simp only [enter]
    generalize site.workflow.store = x at store ⊢
    generalize site'.workflow.store = y at store ⊢
    generalize s.initial = i at initial ⊢
    generalize t.initial = j at initial ⊢
    subst store initial
    obtain ⟨merged, after⟩ := notified.ask (.merge x i {})
    rw [← merged]
    split
    · exact after.notify
    · exact after
  steady := steady

/-- What the states of a pass show is what its calls come to. -/
theorem flatMap_move_trail {steps : Nat} :
    (p.trail c steps).flatMap (fun q => (q.call? c).toList.map (Call.move c)) =
      (p.calls c steps).map (Call.move c) := by
  rw [calls]
  induction p.trail c steps with
  | nil => rfl
  | cons q rest ih =>
    rw [List.flatMap_cons, ih]
    cases called : q.call? c <;> simp [called]

/-- **What a pass comes to is how it ends**, with what its calls come to. -/
theorem comes_iff : Comes c p moves result ↔
    ∃ steps, Traces c p (p.trail c steps) result ∧
      (p.calls c steps).map (Call.move c) = moves := by
  have ended : Comes c p moves result ↔ _ :=
    Loop.comes_iff fun _ _ _ _ _ taken => ⟨taken, rfl⟩
  rw [ended]
  refine exists_congr fun steps => ?_
  rw [← flatMap_move_trail]
  exact and_congr_left fun _ =>
    ⟨Loop.traces_trail, fun traces => (traces.run_eq Loop.length_trail_le).1⟩

end Pass

end StagedWorkflow
