import StagedWorkflow.Invocation

/-!
# What programs ask for

`Program.Conforms` says of a program which requests it can make and which
results it can end with, whatever it is answered. It is kept by putting
programs one after another (`Program.Conforms.bind`), so that what a script
asks for is read off its instructions. What an action queues is what it
records (`Invocation.forall_queue`).
-/

namespace StagedWorkflow

namespace Program

variable {S T : Signature} {α γ : Type}

/-- That a program makes only requests it may make and ends only as it
should, whatever it is answered. -/
def Conforms (may : S.Request → Prop) (ends : α → Prop) : Program S α → Prop
  | .done a => ends a
  | .ask r next => may r ∧ ∀ answer, (next answer).Conforms may ends

variable {may : S.Request → Prop} {ends : α → Prop} {p : Program S α}

theorem conforms_request {r : S.Request} (h : may r) :
    (request r).Conforms may fun _ => True :=
  ⟨h, fun _ => trivial⟩

theorem Conforms.mono {may' : S.Request → Prop} {ends' : α → Prop} (h : p.Conforms may ends)
    (asks : ∀ r, may r → may' r) (ended : ∀ a, ends a → ends' a) : p.Conforms may' ends' := by
  induction p with
  | done a => exact ended a h
  | ask r next ih => exact ⟨asks r h.1, fun answer => ih answer (h.2 answer)⟩

/-- **A program that goes on from another one conforms** if both do, the
second from every result that the first can end with. -/
theorem Conforms.bind {ends' : γ → Prop} {f : α → Program S γ} (h : p.Conforms may ends)
    (rest : ∀ a, ends a → (f a).Conforms may ends') : (p >>= f).Conforms may ends' := by
  induction p with
  | done a => exact rest a h
  | ask r next ih => exact ⟨h.1, fun answer => ih answer (h.2 answer)⟩

/-- Every program makes some requests and ends with some result. -/
theorem conforms_true : p.Conforms (fun _ => True) fun _ => True := by
  induction p with
  | done => trivial
  | ask r next ih => exact ⟨trivial, ih⟩

/-- A program over another signature makes the requests that stand for its
own. -/
theorem Conforms.embed {may' : T.Request → Prop} {request : S.Request → T.Request}
    {answer : (r : S.Request) → T.Answer (request r) → S.Answer r}
    (h : p.Conforms (fun r => may' (request r)) ends) :
    (p.embed request answer).Conforms may' ends := by
  induction p with
  | done a => exact h
  | ask r next ih => exact ⟨h.1, fun a => ih _ (h.2 (answer r a))⟩

end Program

namespace Invocation

variable {β : Type} {holds : Mutation β → Prop}

/-- That a request, if it records a mutation, records one of some sort. -/
def Request.Records (holds : Mutation β → Prop) (r : Request β) : Prop :=
  ∀ mutation, r = .record mutation → holds mutation

/-- **What is queued is what is recorded**, as it is taken into the queue. -/
theorem forall_queue (inv : Invocation β) {behaviour : Behaviour β}
    {ends : Except Fault Unit → Prop}
    (taken : ∀ mutation world, holds mutation → holds (take mutation world).1)
    (conforms : behaviour.Conforms (Request.Records holds) ends) {s : State β}
    (start : ∀ mutation ∈ s.queue, holds mutation) :
    ∀ mutation ∈ (behaviour.run inv.answer s).2.queue, holds mutation := by
  induction behaviour generalizing s with
  | done => exact start
  | ask r next ih =>
    obtain ⟨records, rest⟩ := conforms
    refine ih _ (rest _) ?_
    cases r with
    | record mutation =>
      intro other hother
      rcases List.mem_append.mp hother with old | new
      · exact start other old
      · obtain rfl := List.mem_singleton.mp new
        exact taken mutation _ (records mutation rfl)
    | heap | here | stage | workflow | check | cancel | log | report | pending => exact start

end Invocation

end StagedWorkflow
