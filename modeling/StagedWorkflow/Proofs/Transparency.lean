import StagedWorkflow.Proofs.Loggers
import StagedWorkflow.Proofs.Nesting
import StagedWorkflow.Proofs.Wrapper

/-!
# Timing is transparent

A layer that reports how long a run took can be put anywhere into a chain, and
any number of times: what the chain comes to stays the same, and so does what
the other layers and the base are asked for, in order
(`Middleware.timing_transparent`). Only the log grows, by one record for each
time that such a layer is executed.

An execution is told in a word (`Link.told`), in which the layers of the chain
are numbered from the inside, so that a timer between them changes no number.
Without the marks of the timers it is the word of the chain without them
(`Link.told_plain`); and those marks come in pairs, around all that is told of
what is inside (`Link.Clocked`).
-/

namespace StagedWorkflow

/-! ## Words of programs -/

namespace Program

variable {S : Signature} {α ε : Type} {answer : (r : S.Request) → Option (S.Answer r × List ε)}
  {p : Program S α}

/-- **What is left out of the words of all answers** is left out of their
sequence. -/
theorem tell_filter {kept : ε → Bool} :
    (p.tell fun r => (answer r).map fun told => (told.1, told.2.filter kept)) =
      (p.tell answer).map fun told => (told.1, told.2.filter kept) := by
  induction p with
  | done => rfl
  | ask r next ih =>
    rw [tell, tell]
    cases answer r with
    | none => rfl
    | some told =>
      simp only [Option.map_some, Option.bind_some, ih, Option.map_map]
      exact Option.map_congr fun last _ => by simp

/-- What holds of the words of all answers, and of two words one after the
other, holds of their sequence. -/
theorem forall_tell {holds : List ε → Prop} {b : α} {word : List ε} (nil : holds [])
    (append : ∀ first more, holds first → holds more → holds (first ++ more))
    (each : ∀ r a first, answer r = some (a, first) → holds first)
    (h : p.tell answer = some (b, word)) : holds word := by
  induction p generalizing word with
  | done a =>
    cases h
    exact nil
  | ask r next ih =>
    obtain ⟨a, first, more, answered, rest, rfl⟩ := tell_ask_eq_some h
    exact append first more (each r a first answered) (ih a rest)

end Program

variable {β : Type}

/-- **That an executor does not read the log back**: from any journal it does
what it does from an empty one, and adds the same to it. -/
def Executor.Appends (e : Executor β) : Prop :=
  ∀ (task : Task β) (journal : List Event),
    e.exec (task.execution journal) =
      (e.exec (task.execution [])).map (Run.Result.retell (journal ++ ·))

/-- The stages are run without reading the log. -/
theorem Executor.appends_stages {behave : Action β → Behaviour β} {steps : Nat} :
    (stages behave steps).Appends := by
  intro task journal
  have tells : Tells task.logger task.logger (journal ++ ·) := tells_append journal
  have retold : Run.run ⟨task.token, task.logger, behave⟩ steps task.view.workflow
      ((task.view.world []).retell (journal ++ ·)) =
    (Run.run ⟨task.token, task.logger, behave⟩ steps task.view.workflow
      (task.view.world [])).map (Run.Result.retell (journal ++ ·)) :=
    Run.run_retell (c := ⟨task.token, task.logger, behave⟩) tells
  have begins : (task.view.world []).retell (journal ++ ·) = task.view.world journal := by
    simp [World.retell, View.world]
  rwa [begins] at retold

/-! ## Chains with timers -/

/-- A layer of a chain: one of its own, or a timer that was put in. -/
inductive Link (β : Type) where
  | own (wrapper : Wrapper β)
  | timer

namespace Link

/-- What the layer is. -/
def middleware : Link β → Middleware β
  | own wrapper => wrapper.middleware
  | timer => .timing

/-- The layer, if it is one of the chain's own. -/
def wrapper? : Link β → Option (Wrapper β)
  | own wrapper => some wrapper
  | timer => none

/-- The chain without the timers that were put in. -/
def plain (links : List (Link β)) : List (Link β) :=
  (links.filterMap wrapper?).map own

/-- What there is to tell of a chain. Its own layers are numbered from the
inside, and the base has the number zero; a timer is known by the part of the
chain that is inside it. -/
inductive Mark (β : Type) where
  /-- A layer, or the base, is executed for a task. -/
  | entered (layer : Nat) (task : Task β)
  /-- It writes an event down. -/
  | wrote (layer : Nat) (event : Event)
  /-- It has come to an end. -/
  | left (layer : Nat) (ending : Ending β)
  /-- A timer is executed for a task. -/
  | began (inner : List (Link β)) (task : Task β)
  /-- It has come to an end, and reports it. -/
  | reported (inner : List (Link β)) (task : Task β) (ending : Ending β)

namespace Mark

/-- Whether the mark tells of the base or of a layer of the chain's own. -/
def isOwn : Mark β → Bool
  | entered _ _ | wrote _ _ | left _ _ => true
  | began _ _ | reported _ _ _ => false

/-- The event that is written down, if any. The record of a timer goes to the
logger that the timer was given. -/
def event? : Mark β → Option Event
  | wrote _ event => some event
  | reported _ task ending =>
    some (.logged task.logger (.engine (Middleware.timingNotice (ending.result []))))
  | entered _ _ | left _ _ | began _ _ => none

/-- The events that are written down, in order. -/
def events (word : List (Mark β)) : List Event :=
  word.filterMap event?

@[simp] theorem events_append {first more : List (Mark β)} :
    events (first ++ more) = events first ++ events more :=
  List.filterMap_append

theorem events_wrote {layer : Nat} {written : List Event} :
    events (written.map (.wrote (β := β) layer)) = written := by
  rw [events, List.filterMap_map]
  exact List.filterMap_some

end Mark

/-- How an execution of a chain ends, with the word that tells of it. -/
abbrev Told (β : Type) := Ending β × List (Mark β)

namespace Told

/-- What is told of an execution of the base or of a layer, around what is
told of its inside. -/
def enclose (layer : Nat) (task : Task β) (told : Told β) : Told β :=
  (told.1, .entered layer task :: told.2 ++ [.left layer told.1])

/-- What is told of an execution of a timer, around what is told of its
inside. -/
def time (inner : List (Link β)) (task : Task β) (told : Told β) : Told β :=
  (told.1, .began inner task :: told.2 ++ [.reported inner task told.1])

/-- The result, if the execution begins with a journal. -/
def after (journal : List Event) (told : Told β) : Run.Result β :=
  told.1.result (journal ++ Mark.events told.2)

variable {layer : Nat} {task : Task β} {inner : List (Link β)} {journal : List Event}
  {told : Told β}

/-- Nothing is written down when a layer is entered or left. -/
theorem after_enclose : (told.enclose layer task).after journal = told.after journal := by
  have written : Mark.events (told.enclose layer task).2 = Mark.events told.2 := by
    rw [enclose, Mark.events_append]
    exact List.append_nil _
  rw [after, written]
  rfl

/-- A timer writes one record down, when it has come to an end. -/
theorem after_time : (told.time inner task).after journal =
    { told.after journal with
      world := (told.after journal).world.notify task.logger
        (Middleware.timingNotice (told.after journal)) } := by
  have written : Mark.events (told.time inner task).2 = Mark.events told.2 ++
      [.logged task.logger (.engine (Middleware.timingNotice (told.1.result [])))] := by
    rw [time, Mark.events_append]
    rfl
  rw [after, written, ← List.append_assoc]
  rfl

end Told

/-- What a wrapper is answered, and told of it, with something inside. -/
def answers (layer : Nat) (inside : Task β → Option (Told β)) :
    (r : Wrapper.Request β) → Option (Wrapper.Answer r × List (Mark β))
  | .call task => inside task
  | .write event => some ((), [.wrote layer event])

/-- Executes a chain, and tells of it. -/
def told (base : Executor β) : List (Link β) → Task β → Option (Told β)
  | [], task =>
    (base.exec (task.execution [])).map fun result =>
      Told.enclose 0 task (.of result, result.world.journal.map (.wrote 0))
  | .own wrapper :: inner, task =>
    let layer := (inner.filterMap wrapper?).length + 1
    ((wrapper task).tell (answers layer (told base inner))).map (Told.enclose layer task)
  | .timer :: inner, task => (told base inner task).map (Told.time inner task)

/-- What an execution of a chain comes to, with what is told of it. -/
def course (base : Executor β) (links : List (Link β)) (x : Execution β) :
    Option (Run.Result β × List (Mark β)) :=
  (told base links (.of x)).map fun told => (told.after x.world.journal, told.2)

variable {base : Executor β} {links : List (Link β)} {task : Task β} {journal : List Event}

/-! ## What is told is what happens -/

/-- A program of a wrapper writes down what is told of it, if that is so of
what is inside. -/
theorem follow_interpret {α : Type} {layer : Nat} {next : Executor β}
    {inside : Task β → Option (Told β)}
    (same : ∀ task journal,
      next.exec (task.execution journal) = (inside task).map (Told.after journal))
    {p : Program (Wrapper.signature β) α} {journal : List Event} :
    (Wrapper.interpret p journal).follow next.exec =
      (p.tell (answers layer inside)).map fun told => (told.1, journal ++ Mark.events told.2) := by
  induction p generalizing journal with
  | done a => exact congrArg (fun written => some (a, written)) (List.append_nil journal).symm
  | ask r next ih =>
    rw [Program.tell]
    cases r with
    | call task =>
      rw [Wrapper.interpret, Program.follow, same, answers]
      cases inside task with
      | none => rfl
      | some told =>
        simp only [Option.map_some, Option.bind_some, Option.map_map]
        refine (ih told.1).trans (Option.map_congr fun last _ => ?_)
        simp [Told.after, Ending.result, View.world]
    | write event =>
      rw [Wrapper.interpret, ih, answers, Option.bind_some, Option.map_map]
      refine Option.map_congr fun last _ => ?_
      simp [Mark.events, Mark.event?]

/-- **What is told of a chain is what the chain does**, from any journal on. -/
theorem exec_compose (appends : base.Appends) :
    (Middleware.compose base (links.map middleware)).exec (task.execution journal) =
      (told base links task).map (Told.after journal) := by
  induction links generalizing task journal with
  | nil =>
    rw [List.map_nil, Middleware.compose_nil, appends, told, Option.map_map]
    refine Option.map_congr fun result _ => ?_
    rw [Function.comp_apply, Told.after_enclose, Told.after, Mark.events_wrote]
    rfl
  | cons link inner ih =>
    rw [List.map_cons, Middleware.compose_cons]
    let next := Middleware.compose base (inner.map middleware)
    cases link with
    | own wrapper =>
      show (Wrapper.interpret (wrapper task) journal >>= fun last =>
        .done (last.1.result last.2)).follow next.exec = _
      rw [Program.follow_bind, follow_interpret fun _ _ => ih, told, Option.bind_map, Option.map_map]
      refine Option.map_eq_bind.symm.trans (Option.map_congr fun last _ => ?_)
      exact Told.after_enclose.symm
    | timer =>
      show (next.exec (task.execution journal)).map _ = _
      rw [ih, told, Option.map_map, Option.map_map]
      exact Option.map_congr fun last _ => Told.after_time.symm

/-! ## Without the marks of the timers -/

theorem filterMap_wrapper?_plain : (plain links).filterMap wrapper? = links.filterMap wrapper? := by
  rw [plain, List.filterMap_map]
  exact List.filterMap_some

/-- What is told, without the timers. -/
def Told.plain (told : Told β) : Told β :=
  (told.1, told.2.filter Mark.isOwn)

theorem Told.plain_enclose {layer : Nat} {told : Told β} :
    (told.enclose layer task).plain = told.plain.enclose layer task := by
  rw [plain, enclose, List.filter_append]
  rfl

theorem Told.plain_time {inner : List (Link β)} {told : Told β} :
    (told.time inner task).plain = told.plain := by
  rw [plain, time, List.filter_append]
  exact Prod.ext rfl (List.append_nil _)

/-- **Without the timers the same is told** as of the chain without them. -/
theorem told_plain : told base (plain links) task = (told base links task).map Told.plain := by
  induction links generalizing task with
  | nil =>
    show told base [] task = _
    rw [told, Option.map_map]
    refine Option.map_congr fun result _ => ?_
    have kept : (result.world.journal.map (Mark.wrote (β := β) 0)).filter Mark.isOwn =
        result.world.journal.map (.wrote 0) := List.filter_eq_self.mpr (by simp [Mark.isOwn])
    rw [Function.comp_apply, Told.plain_enclose, Told.plain, kept]
  | cons link inner ih =>
    cases link with
    | own wrapper =>
      let layer := (inner.filterMap wrapper?).length + 1
      have inside : answers layer (told base (plain inner)) = fun r =>
          (answers layer (told base inner) r).map fun told =>
            (told.1, told.2.filter Mark.isOwn) := by
        funext r
        cases r with
        | call task => exact ih
        | write event => rfl
      show told base (own wrapper :: plain inner) task = _
      rw [told, told, filterMap_wrapper?_plain, inside, Program.tell_filter, Option.map_map,
        Option.map_map]
      exact Option.map_congr fun last _ => Told.plain_enclose.symm
    | timer =>
      show told base (plain inner) task = _
      rw [told, ih, Option.map_map]
      exact Option.map_congr fun last _ => Told.plain_time.symm

/-! ## Where the timers report -/

/-- **That the timers report where they should**: a timer that is executed
has what is inside executed once, for the same task; all that is told of it
comes next, and then the timer's report of the ending. -/
inductive Clocked (base : Executor β) : List (Mark β) → Prop where
  | nil : Clocked base []
  /-- The base and the other layers are told of as they are. -/
  | own {mark : Mark β} {rest : List (Mark β)} (plain : mark.isOwn = true)
      (later : Clocked base rest) : Clocked base (mark :: rest)
  | timed {inner : List (Link β)} {task : Task β} {ending : Ending β}
      {inside rest : List (Mark β)} (passed : told base inner task = some (ending, inside))
      (nested : Clocked base inside) (later : Clocked base rest) :
      Clocked base (.began inner task :: inside ++ .reported inner task ending :: rest)

theorem Clocked.append {first more : List (Mark β)} (h : Clocked base first)
    (h' : Clocked base more) : Clocked base (first ++ more) := by
  induction h with
  | nil => exact h'
  | own plain _ ih => exact .own plain ih
  | timed passed nested _ _ ih =>
    rw [List.append_assoc]
    exact .timed passed nested ih

theorem clocked_of_isOwn {word : List (Mark β)} (plain : ∀ mark ∈ word, mark.isOwn = true) :
    Clocked base word := by
  induction word with
  | nil => exact .nil
  | cons mark rest ih =>
    obtain ⟨head, tail⟩ := List.forall_mem_cons.mp plain
    exact .own head (ih tail)

theorem Clocked.enclose {layer : Nat} {ended : Told β} (h : Clocked base ended.2) :
    Clocked base (ended.enclose layer task).2 :=
  .own rfl (h.append (.own rfl .nil))

/-- **The timers of a chain report where they should.** -/
theorem clocked_told {ended : Told β} (h : told base links task = some ended) :
    Clocked base ended.2 := by
  induction links generalizing task ended with
  | nil =>
    obtain ⟨result, -, rfl⟩ := Option.map_eq_some_iff.mp h
    exact Clocked.enclose (clocked_of_isOwn (by simp [Mark.isOwn]))
  | cons link inner ih =>
    cases link with
    | own wrapper =>
      obtain ⟨last, tells, rfl⟩ := Option.map_eq_some_iff.mp h
      refine Clocked.enclose (Program.forall_tell .nil (fun _ _ => .append) ?_ tells)
      intro r a first answered
      cases r with
      | call task => exact ih answered
      | write event =>
        cases answered
        exact .own rfl .nil
    | timer =>
      obtain ⟨last, passed, rfl⟩ := Option.map_eq_some_iff.mp h
      exact .timed passed (ih passed) .nil

/-- A timer that is told of is one of the chain. -/
theorem suffix_of_began {ended : Told β} {inner : List (Link β)} {given : Task β}
    (h : told base links task = some ended) (mem : .began inner given ∈ ended.2) :
    .timer :: inner <:+ links := by
  induction links generalizing task ended with
  | nil =>
    obtain ⟨result, -, rfl⟩ := Option.map_eq_some_iff.mp h
    simp [Told.enclose] at mem
  | cons link rest ih =>
    cases link with
    | own wrapper =>
      obtain ⟨last, tells, rfl⟩ := Option.map_eq_some_iff.mp h
      have within : .began inner given ∈ last.2 := by simpa [Told.enclose] using mem
      obtain ⟨r, a, first, answered, there⟩ := Program.exists_of_mem_tell tells within
      cases r with
      | call task => exact (ih answered there).trans (List.suffix_cons _ _)
      | write event =>
        cases answered
        simp at there
    | timer =>
      obtain ⟨last, passed, rfl⟩ := Option.map_eq_some_iff.mp h
      rcases List.mem_cons.mp mem with own | later
      · cases own
        exact List.suffix_rfl
      · have within : .began inner given ∈ last.2 := by simpa using later
        exact (ih passed within).trans (List.suffix_cons _ _)

/-! ## The law -/

/-- **That timers are transparent**: an execution of a chain with timers,
compared with the one of the chain without them. -/
structure Transparent (base : Executor β) (links : List (Link β)) (before : List Event)
    (timed plain : Run.Result β × List (Mark β)) : Prop where
  outcome : timed.1.outcome = plain.1.outcome
  workflow : timed.1.workflow = plain.1.workflow
  heap : timed.1.world.heap = plain.1.world.heap
  signals : timed.1.world.signals = plain.1.world.signals
  /-- The base and the other layers are executed in the same order, for the
  same tasks and with the same endings. -/
  order : timed.2.filter Mark.isOwn = plain.2
  /-- Each log is what was there, and then what is told to be written. -/
  log : timed.1.world.journal = before ++ Mark.events timed.2 ∧
    plain.1.world.journal = before ++ Mark.events (timed.2.filter Mark.isOwn)
  clocked : Clocked base timed.2
  placed : ∀ inner given, .began inner given ∈ timed.2 → .timer :: inner <:+ links

/-- **The timers of a chain are transparent.** -/
theorem transparent_course {x : Execution β} :
    Option.Rel (Transparent base links x.world.journal) (course base links x)
      (course base (plain links) x) := by
  rw [course, course, told_plain]
  cases tells : told base links (.of x) with
  | none => exact .none
  | some ended =>
    exact .some ⟨rfl, rfl, rfl, rfl, rfl, ⟨rfl, rfl⟩, clocked_told tells,
      fun _ _ => suffix_of_began tells⟩

end Link

namespace Middleware

open Link (course)

/-- **Timing is transparent.** Let nobody read the log back, neither the base
nor the layers of a chain, which may call what is inside any number of times,
with any token and logger, and make of its outcome what they like. Put timers
anywhere into the chain. Then an execution comes to an end if it does without
them; the outcome, the workflow, the stores and the tokens are the same; and
the base and the other layers are executed in the same order, for the same
tasks. The log differs by one record for each time that a timer is executed,
after all that is written inside it: it goes to the logger that the timer was
given, and says that the run has finished, or has failed and with which error.
Runs of the stages do not read the log, and neither do routines and the layers
that a session describes. -/
theorem timing_transparent {base : Executor β} (appends : base.Appends) :
    (∀ logger links x, (course base links x).map Prod.fst =
      ((⟨logger, links.map Link.middleware⟩ : Runner β).execute base).exec x) ∧
    (∀ links : List (Link β), (Link.plain links).map Link.middleware =
      (links.filterMap Link.wrapper?).map Wrapper.middleware) ∧
    (∀ links x, Option.Rel (Link.Transparent base links x.world.journal) (course base links x)
      (course base (Link.plain links) x)) ∧
    (∀ inner task (ending : Ending β), ∃ notice,
      (Link.Mark.reported inner task ending).event? =
        some (.logged task.logger (.engine notice)) ∧
      (notice.level, notice.message) =
        match ending.outcome with
        | .ok () => (.info, s!"Workflow '{ending.view.workflow.id}' finished in <t>")
        | .error error =>
          (.warn, s!"Workflow '{ending.view.workflow.id}' failed after <t>: " ++ error.message)) ∧
    (∀ (behave : Action β → Behaviour β) steps, (Executor.stages behave steps).Appends) ∧
    (∀ routine : Routine β, (Wrapper.ofRoutine none routine).middleware = routine.middleware) ∧
    ∀ (defs : Script.Definitions) (spec : Session.MiddlewareSpec),
      (spec.wrapper defs).middleware = spec.build defs := by
  refine ⟨fun logger links x => ?_, fun links => List.map_map, fun _ _ => Link.transparent_course,
    fun inner task ending => ⟨_, rfl, ?_⟩, fun _ _ => Executor.appends_stages,
    fun routine => congrArg Conduct.middleware Wrapper.conduct_ofRoutine,
    fun _ _ => Session.MiddlewareSpec.middleware_wrapper⟩
  · have told : (compose base (links.map Link.middleware)).exec
          ((Task.of x).execution x.world.journal) =
        (Link.told base links (.of x)).map (Link.Told.after x.world.journal) :=
      Link.exec_compose appends
    rw [course, Option.map_map]
    exact told.symm
  · rw [timingNotice, Ending.result]
    cases ending.outcome <;> rfl

/-- A layer that calls twice and passes on a logger of its own, with a timer
outside and one inside: each reports to the logger that it was given, the one
inside twice. -/
theorem timing_transparent_twice :
    let twice : Wrapper Sample.Code := .ofRoutine (some .recorder)
      (⟨"twice", (·, []), (·, []), 2, false, none, none, .keep⟩ : Routine.Parts _).routine
    let base : Executor Sample.Code := .stages Sample.behave 4
    let links : List (Link Sample.Code) := [.timer, .own twice, .timer]
    let x : Execution Sample.Code :=
      ⟨⟨0, none⟩, .facade, Sample.workflow .rest, Sample.world⟩
    ∃ timed plain, (compose base [timing, twice.middleware, timing]).exec x = some timed.1 ∧
      (compose base [twice.middleware]).exec x = some plain.1 ∧
      Link.Transparent base links [] timed plain ∧
      (timed.1.world.sent .facade).length = 1 ∧ (plain.1.world.sent .facade).length = 0 ∧
      (timed.1.world.sent .recorder).length = (plain.1.world.sent .recorder).length + 2 := by
  intro twice base links x
  have appends : (Executor.stages Sample.behave 4).Appends := Executor.appends_stages
  obtain ⟨executes, -, transparent, -⟩ := timing_transparent appends
  have ends := transparent links x
  have withTimers := executes .discard links x
  have without := executes .discard (Link.plain links) x
  let lengths (ended : Run.Result Sample.Code × List (Link.Mark Sample.Code)) : Nat × Nat :=
    ((ended.1.world.sent .facade).length, (ended.1.world.sent .recorder).length)
  have sent : (course base links x).map lengths = some (1, 12) := by decide +kernel
  have sentWithout : (course base (Link.plain links) x).map lengths = some (0, 10) := by
    decide +kernel
  obtain ⟨timed, timed_eq, timed_sent⟩ := Option.map_eq_some_iff.mp sent
  obtain ⟨plain, plain_eq, plain_sent⟩ := Option.map_eq_some_iff.mp sentWithout
  rw [timed_eq, plain_eq] at ends
  rw [timed_eq] at withTimers
  rw [plain_eq] at without
  obtain ⟨facade, recorder⟩ := Prod.mk.inj timed_sent
  obtain ⟨facade', recorder'⟩ := Prod.mk.inj plain_sent
  cases ends with
  | some same =>
    exact ⟨timed, plain, withTimers.symm, without.symm, same, facade, facade',
      by rw [recorder, recorder']⟩

end Middleware

end StagedWorkflow
