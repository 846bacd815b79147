import Mathlib.Data.List.Forall2
import StagedWorkflow.Proofs.Ledger
import StagedWorkflow.Proofs.Requests

/-!
# Exchanges of an action

A program runs by asking and being answered, one request after another. Its
exchanges are these, each with the states before and after, so a fact about a
whole run of it can speak of every point on the way: what every exchange
hands on, with those before it, holds at each of them and in the end
(`Program.forall_exchanges`, `Program.of_exchanges`).

For an action two timelines come out of one list (`Deferred`). Along the one
nothing moves: whatever has been recorded so far, a question about structure
is answered as at the beginning, and the queue holds the mutations recorded,
in order. Along the other everything moves at once: the stores are what the
requests so far have made of them.
-/

namespace StagedWorkflow

namespace Program

variable {S : Signature} {α σ : Type}

/-- One request of a program that is run. -/
structure Exchange (S : Signature) (σ : Type) where
  request : S.Request
  answer : S.Answer request
  before : σ
  after : σ

/-- The exchange that a request leads to. -/
def exchange (answer : (r : S.Request) → σ → S.Answer r × σ) (r : S.Request) (s : σ) :
    Exchange S σ :=
  ⟨r, (answer r s).1, s, (answer r s).2⟩

/-- The exchanges of a program that is run, in order. -/
def exchanges (answer : (r : S.Request) → σ → S.Answer r × σ) :
    Program S α → σ → List (Exchange S σ)
  | .done _, _ => []
  | .ask r next, s =>
    exchange answer r s :: (next (answer r s).1).exchanges answer (answer r s).2

variable {answer : (r : S.Request) → σ → S.Answer r × σ} {p : Program S α} {s : σ}

/-- **What every exchange hands on holds at each of them**, with those
before it. -/
theorem forall_exchanges (holds : List (Exchange S σ) → σ → Prop) (start : holds [] s)
    (kept : ∀ earlier s r, holds earlier s →
      holds (earlier ++ [exchange answer r s]) (answer r s).2)
    {earlier later : List (Exchange S σ)} {e : Exchange S σ}
    (split : p.exchanges answer s = earlier ++ e :: later) :
    holds earlier e.before ∧ e = exchange answer e.request e.before := by
  induction p generalizing s holds earlier with
  | done a => simp [exchanges] at split
  | ask r next ih =>
    cases earlier with
    | nil =>
      obtain ⟨rfl, -⟩ := List.cons.inj split
      exact ⟨start, rfl⟩
    | cons first others =>
      obtain ⟨rfl, rest⟩ := List.cons.inj split
      -- what holds further on, holds with the first exchange put before
      have next_start : holds [exchange answer r s] (answer r s).2 := kept [] s r start
      exact ih _ (fun others t => holds (exchange answer r s :: others) t) next_start
        (fun others => kept (exchange answer r s :: others)) rest

/-- It holds in the end. -/
theorem of_exchanges (holds : List (Exchange S σ) → σ → Prop) (start : holds [] s)
    (kept : ∀ earlier s r, holds earlier s →
      holds (earlier ++ [exchange answer r s]) (answer r s).2) :
    holds (p.exchanges answer s) (p.run answer s).2 := by
  induction p generalizing s holds with
  | done a => exact start
  | ask r next ih =>
    have next_start : holds [exchange answer r s] (answer r s).2 := kept [] s r start
    exact ih _ (fun others t => holds (exchange answer r s :: others) t) next_start
      fun others => kept (exchange answer r s :: others)

end Program

namespace Invocation

variable {β : Type}

/-- One request of an action. -/
abbrev Exchange (β : Type) := Program.Exchange (signature β) (State β)

/-- That a request is about structure: the stage, the workflow around it, or
where the action finds itself. -/
inductive Request.Structural : Request β → Prop where
  | here : Structural .here
  | stage : Structural .stage
  | workflow : Structural .workflow

/-- Whether a request records a mutation. -/
def Request.isRecord : Request β → Bool
  | .record _ => true
  | _ => false

/-- The requests to the stores that a request amounts to. A stage that is
recorded has its initial data copied. -/
def Request.storeRequests : Request β → List Heap.Request
  | .heap r => [r]
  | .record (.addStage added) => [.clone added.initial]
  | _ => []

/-- The exchanges in which a mutation is recorded. -/
def recordings (exchanges : List (Exchange β)) : List (Exchange β) :=
  exchanges.filter (·.request.isRecord)

/-- **What a mutation is in the queue that is recorded in an exchange**: the
mutation itself, where a stage has a new store with the same initial
data. -/
inductive Enters : Exchange β → Mutation β → Prop where
  | addAction {action : Action β} {answer : Mutation β} {s t : State β} :
    Enters ⟨.record (.addAction action), answer, s, t⟩ (.addAction action)
  | addStage {stage : Stage β} {answer : Mutation β} {s t : State β} {initial : StoreId}
      (fresh : s.world.heap.stores.size ≤ initial)
      (same : t.world.heap.contents initial = s.world.heap.contents stage.initial) :
    Enters ⟨.record (.addStage stage), answer, s, t⟩ (.addStage { stage with initial })
  | setActionEnabled {id : String} {enabled : Bool} {answer : Mutation β} {s t : State β} :
    Enters ⟨.record (.setActionEnabled id enabled), answer, s, t⟩ (.setActionEnabled id enabled)
  | setStageEnabled {id : String} {enabled : Bool} {answer : Mutation β} {s t : State β} :
    Enters ⟨.record (.setStageEnabled id enabled), answer, s, t⟩ (.setStageEnabled id enabled)

/-- **That changes of structure wait while those of stores do not.** It is
said of the state of an invocation after some exchanges. -/
structure Deferred (inv : Invocation β) (begun : State β) (earlier : List (Exchange β))
    (s : State β) : Prop where
  /-- Whatever is asked about structure is answered as at the beginning, and
  asking changes nothing. -/
  frozen : ∀ (α : Type) (query : Program (signature β) α),
    query.Conforms Request.Structural (fun _ => True) →
      query.run inv.answer s = ((query.run inv.answer begun).1, s)
  /-- As many mutations are pending as have been recorded. -/
  pending : (inv.answer .pending s).1 = (recordings earlier).length
  /-- The queue is what has been recorded, in order. -/
  queue : List.Forall₂ Enters (recordings earlier) s.queue
  /-- The stores read as the maps that all earlier requests have made of
  those at the beginning. -/
  stores : ∀ t, s.world.heap.Reads
    ((earlier.flatMap (·.request.storeRequests)).foldl Ledger.replay begun.world.heap.ledger) t

variable {inv : Invocation β} {s t begun : State β} {earlier later : List (Exchange β)}

/-- **What is asked about structure is answered the same in every state.** -/
theorem run_structural {α : Type} {query : Program (signature β) α}
    (asks : query.Conforms Request.Structural fun _ => True) :
    query.run inv.answer s = ((query.run inv.answer t).1, s) := by
  induction query generalizing s t with
  | done a => rfl
  | ask r next ih =>
    obtain ⟨structural, rest⟩ := asks
    cases structural with
    | here => exact ih _ (rest _)
    | stage => exact ih _ (rest _)
    | workflow => exact ih _ (rest _)

/-- What a request does to the stores. -/
theorem ledger_answer {r : Request β} :
    (inv.answer r s).2.world.heap.ledger =
      r.storeRequests.foldl Ledger.replay s.world.heap.ledger := by
  cases r with
  | heap r => exact Heap.ledger_answer
  | record mutation =>
    cases mutation with
    | addStage stage => exact Heap.ledger_answer (r := .clone stage.initial)
    | addAction | setActionEnabled | setStageEnabled => rfl
  | here | stage | workflow | check | cancel | log | report | pending => rfl

/-- What a mutation becomes that is recorded. -/
theorem enters_record {mutation : Mutation β} :
    Enters (Program.exchange inv.answer (.record mutation) s) (take mutation s.world).1 := by
  cases mutation with
  | addAction action => exact .addAction
  | addStage stage => exact .addStage (Nat.le_refl _) Heap.contents_add_self
  | setActionEnabled id enabled => exact .setActionEnabled
  | setStageEnabled id enabled => exact .setStageEnabled

/-- A request adds to the queue what it records. -/
theorem queue_answer {recorded : List (Exchange β)} (r : Request β)
    (h : List.Forall₂ Enters recorded s.queue) :
    List.Forall₂ Enters
      (recorded ++ recordings [Program.exchange inv.answer r s]) (inv.answer r s).2.queue := by
  cases r with
  | record mutation => exact List.rel_append h (.cons enters_record .nil)
  | here | stage | workflow | check | cancel | log | report | pending | heap =>
    exact (List.append_nil recorded).symm ▸ h

/-- The queue and the stores, along the exchanges of an action. -/
structure Follows (begun : State β) (earlier : List (Exchange β)) (s : State β) : Prop where
  queue : List.Forall₂ Enters (recordings earlier) s.queue
  ledger : s.world.heap.ledger =
    (earlier.flatMap (·.request.storeRequests)).foldl Ledger.replay begun.world.heap.ledger

/-- **Every request of an action hands both on.** -/
theorem Follows.answer (h : Follows begun earlier s) (r : Request β) :
    Follows begun (earlier ++ [Program.exchange inv.answer r s]) (inv.answer r s).2 where
  queue := by
    rw [recordings, List.filter_append]
    exact queue_answer r h.queue
  ledger := by
    rw [ledger_answer, h.ledger, List.flatMap_append, List.foldl_append, List.flatMap_singleton]
    rfl

theorem follows_nil {world : World} : Follows ⟨world, []⟩ [] (⟨world, []⟩ : State β) :=
  ⟨.nil, rfl⟩

theorem Follows.deferred (h : Follows begun earlier s) : Deferred inv begun earlier s where
  frozen _ _ asks := run_structural asks
  pending := h.queue.length_eq.symm
  queue := h.queue
  stores _ := h.ledger ▸ Heap.reads_ledger

end Invocation

end StagedWorkflow
