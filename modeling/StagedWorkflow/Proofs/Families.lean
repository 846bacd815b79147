import Mathlib.Data.List.Induction
import StagedWorkflow.Session.Tokens
import StagedWorkflow.Proofs.Handling

/-!
# Families of tokens

Tokens that were cloned from one another, however often, form a family: each
goes back to the same creation (`TokenDeed.kinship`). Whether a token is done
is told by what was done to its family before, and by the clock
(`TokenDeed.told_after`), so a cancellation spreads over one family and over
no other, and what is done stays done (`TokenDeed.familyLaw`). What can be
done to tokens is a `TokenDeed`, and all that a session does to them is a
sequence of these (`Session.TokenOp.exists_deeds`).
-/

namespace StagedWorkflow

open Session (TokenState)

namespace Signals

variable {s : Signals} {token : Token}

/-- A check sets no flag. -/
theorem flags_check : (s.check token).2.flags = s.flags := by
  rw [check]
  split
  · rfl
  · split <;> rfl

/-- A check takes one reading of the clock, or none. -/
theorem now_le_check : s.clock.now ≤ (s.check token).2.clock.now := by
  rw [check]
  split
  · exact Nat.le_refl _
  · split
    · exact Nat.le_refl _
    · exact s.clock.advances _

theorem check_eq_cancelled_iff :
    (s.check token).1 = .error .cancelled ↔ s.isSet token = true := by
  rw [check_eq_error_iff]
  exact ⟨fun done => by cases done; assumption, .cancelled⟩

theorem check_eq_exceeded_iff :
    (s.check token).1 = .error .deadlineExceeded ↔ ¬ s.isSet token = true ∧
      ∃ deadline, token.deadline = some deadline ∧ deadline ≤ s.clock.now := by
  rw [check_eq_error_iff, Bool.not_eq_true]
  constructor
  · intro done
    cases done with
    | expired unset limit passed => exact ⟨unset, _, limit, passed⟩
  · rintro ⟨unset, deadline, limit, passed⟩
    exact .expired unset limit passed

theorem check_eq_ok_iff :
    (s.check token).1 = .ok () ↔ ¬ s.isSet token = true ∧
      ∀ deadline, token.deadline = some deadline → s.clock.now < deadline := by
  rw [check]
  cases set : s.isSet token with
  | true => simp
  | false =>
    cases limit : token.deadline with
    | none => simp
    | some deadline =>
      by_cases passed : deadline ≤ s.clock.now
      · simp [Clock.read, passed]
      · simp [Clock.read, passed, Nat.lt_of_not_le passed]

/-- **What a check says** depends on the flag of the token and on the time. -/
theorem check_congr {t : Signals} (flag : s.isSet token = t.isSet token)
    (clock : s.clock = t.clock) : (s.check token).1 = (t.check token).1 := by
  rw [check, check, flag, clock]
  split
  · rfl
  · split <;> rfl

end Signals

/-- Something that is done to tokens. Tokens are numbered in the order in
which they come about. -/
inductive TokenDeed where
  /-- A token is made, with a deadline or without. -/
  | create (deadline : Option Nat)
  /-- A token is made with a deadline that is counted from now. -/
  | timed (deadline : Nat → Nat)
  | clone (number : Nat)
  | cancel (number : Nat)
  | check (number : Nat)

namespace TokenDeed

/-- What a deed comes to. -/
def act (s : TokenState) : TokenDeed → TokenState
  | create deadline => (s.number (s.signals.create deadline)).2
  | timed deadline => (s.number (Session.timed s.signals deadline)).2
  | clone number => (Session.TokenOp.clone.run s number).2
  | cancel number => (Session.TokenOp.cancel.run s number).2
  | check number => (Session.TokenOp.check.run s number).2

/-- The state after deeds, from one without tokens, under a clock. -/
def after (clock : Clock) (deeds : List TokenDeed) : TokenState :=
  deeds.foldl act ⟨⟨[], clock⟩, []⟩

/-- What the clock shows after deeds. -/
def now (clock : Clock) (deeds : List TokenDeed) : Nat :=
  (after clock deeds).signals.clock.now

/-- What a check would say of a token after deeds. -/
def status (clock : Clock) (deeds : List TokenDeed) (token : Token) : Except CancelReason Unit :=
  ((after clock deeds).signals.check token).1

/-- Which tokens come from which. -/
structure Kinship where
  /-- How many tokens were made. -/
  created : Nat
  /-- For each token, the number of the creation that it goes back to. -/
  families : List Nat

/-- A token that is made founds a family, and a clone joins one. -/
def Kinship.record (k : Kinship) : TokenDeed → Kinship
  | create _ | timed _ => ⟨k.created + 1, k.families ++ [k.created]⟩
  | clone number => { k with families := k.families ++ k.families[number]?.toList }
  | cancel _ | check _ => k

/-- Who comes from whom after deeds. -/
def kinship (deeds : List TokenDeed) : Kinship :=
  deeds.foldl Kinship.record ⟨0, []⟩

/-- **That a token of a family was cancelled** at some time. -/
def Cancelled (deeds : List TokenDeed) (family : Nat) : Prop :=
  ∃ before number, before ++ [cancel number] <+: deeds ∧
    (kinship before).families[number]? = some family

/-- The deadline that a token is made with, by the time. -/
def deadline? (now : Nat) : TokenDeed → Option (Option Nat)
  | create deadline => some deadline
  | timed deadline => some (some (deadline now))
  | clone _ | cancel _ | check _ => none

/-- That a family was founded with a deadline, or with none. -/
def Founded (clock : Clock) (deeds : List TokenDeed) (family : Nat) (deadline : Option Nat) :
    Prop :=
  ∃ before deed, before ++ [deed] <+: deeds ∧ (kinship before).created = family ∧
    deed.deadline? (now clock before) = some deadline

/-- That a number is that of a token of a family. -/
structure Member (clock : Clock) (deeds : List TokenDeed) (number family : Nat) (token : Token) :
    Prop where
  family : (kinship deeds).families[number]? = some family
  token : (after clock deeds).tokens[number]? = some token

variable {clock : Clock} {deeds more : List TokenDeed} {deed : TokenDeed} {family : Nat}

theorem after_append : after clock (deeds ++ more) = more.foldl act (after clock deeds) :=
  List.foldl_append

theorem after_concat : after clock (deeds ++ [deed]) = deed.act (after clock deeds) :=
  after_append

theorem kinship_concat : kinship (deeds ++ [deed]) = (kinship deeds).record deed :=
  List.foldl_append

/-- What a deed does to a state. -/
inductive Turn (s : TokenState) : TokenDeed → TokenState → Prop where
  | create (deadline : Option Nat) :
      Turn s (create deadline) (s.number (s.signals.create deadline)).2
  | timed (deadline : Nat → Nat) :
      Turn s (timed deadline) (s.number (Session.timed s.signals deadline)).2
  | clone {number : Nat} {token : Token} (found : s.tokens[number]? = some token) :
      Turn s (clone number) { s with tokens := s.tokens ++ [token] }
  | cancel {number : Nat} {token : Token} (found : s.tokens[number]? = some token) :
      Turn s (cancel number) { s with signals := s.signals.cancel token }
  | check {number : Nat} {token : Token} (found : s.tokens[number]? = some token) :
      Turn s (check number) { s with signals := (s.signals.check token).2 }
  /-- There is no token of the number. -/
  | stray {deed : TokenDeed} {number : Nat} (missing : s.tokens[number]? = none)
      (about : deed = .clone number ∨ deed = .cancel number ∨ deed = .check number) : Turn s deed s

/-- **Every deed does one of these.** -/
theorem turn (s : TokenState) (deed : TokenDeed) : Turn s deed (deed.act s) := by
  cases deed with
  | create deadline => exact .create deadline
  | timed deadline => exact .timed deadline
  | clone number =>
    rw [act, Session.TokenOp.run, TokenState.withToken]
    cases found : s.tokens[number]? with
    | none => exact .stray found (.inl rfl)
    | some token => exact .clone found
  | cancel number =>
    rw [act, Session.TokenOp.run, TokenState.withToken]
    cases found : s.tokens[number]? with
    | none => exact .stray found (.inr (.inl rfl))
    | some token => exact .cancel found
  | check number =>
    rw [act, Session.TokenOp.run, TokenState.withToken]
    cases found : s.tokens[number]? with
    | none => exact .stray found (.inr (.inr rfl))
    | some token => exact .check found

theorem act_cancel {s : TokenState} {number : Nat} {token : Token}
    (found : s.tokens[number]? = some token) :
    (cancel number).act s = { s with signals := s.signals.cancel token } := by
  simp [act, Session.TokenOp.run, TokenState.withToken, found]

theorem act_check {s : TokenState} {number : Nat} {token : Token}
    (found : s.tokens[number]? = some token) :
    (check number).act s = { s with signals := (s.signals.check token).2 } := by
  simp [act, Session.TokenOp.run, TokenState.withToken, TokenState.check, found]

theorem Cancelled.append (h : Cancelled deeds family) (more : List TokenDeed) :
    Cancelled (deeds ++ more) family := by
  obtain ⟨before, number, within, member⟩ := h
  exact ⟨before, number, within.trans (List.prefix_append _ _), member⟩

theorem Founded.append {deadline : Option Nat} (h : Founded clock deeds family deadline)
    (more : List TokenDeed) : Founded clock (deeds ++ more) family deadline := by
  obtain ⟨before, founder, within, rest⟩ := h
  exact ⟨before, founder, within.trans (List.prefix_append _ _), rest⟩

/-- **One deed more cancels a family** if it cancels a member. -/
theorem cancelled_concat :
    Cancelled (deeds ++ [deed]) family ↔ Cancelled deeds family ∨
      ∃ number, deed = cancel number ∧ (kinship deeds).families[number]? = some family := by
  constructor
  · rintro ⟨before, number, within, member⟩
    rcases List.prefix_concat_iff.mp within with eq | within
    · obtain ⟨rfl, last⟩ := List.append_inj' eq rfl
      exact .inr ⟨number, (List.singleton_inj.mp last).symm, member⟩
    · exact .inl ⟨before, number, within, member⟩
  · rintro (h | ⟨number, rfl, member⟩)
    · exact h.append _
    · exact ⟨deeds, number, List.prefix_rfl, member⟩

/-- A deed that is no cancellation cancels no family. -/
theorem cancelled_concat_of_ne (ne : ∀ number, deed ≠ cancel number) :
    Cancelled (deeds ++ [deed]) family ↔ Cancelled deeds family := by
  rw [cancelled_concat]
  exact or_iff_left fun ⟨number, eq, _⟩ => ne number eq

/-- **That a state is told by deeds.** The flags are numbered as the
families are. -/
structure Told (clock : Clock) (deeds : List TokenDeed) (s : TokenState) : Prop where
  flags : s.tokens.map Token.flag = (kinship deeds).families
  created : s.signals.flags.length = (kinship deeds).created
  known : ∀ token ∈ s.tokens, token.flag < s.signals.flags.length
  /-- A flag is set if its family was cancelled, and only then. -/
  set : ∀ token, s.signals.isSet token = true ↔ Cancelled deeds token.flag
  founded : ∀ token ∈ s.tokens, Founded clock deeds token.flag token.deadline
  /-- A family has one deadline. -/
  alike : ∀ t ∈ s.tokens, ∀ u ∈ s.tokens, t.flag = u.flag → t.deadline = u.deadline

namespace Told

theorem getElem?_families {s : TokenState} (h : Told clock deeds s) {number : Nat} :
    (kinship deeds).families[number]? = s.tokens[number]?.map Token.flag := by
  rw [← h.flags, List.getElem?_map]

/-- A deed that makes no token and sets no flag changes nothing of what is
told. -/
theorem idle {s : TokenState} (h : Told clock deeds s) {signals : Signals}
    (same : signals.flags = s.signals.flags) (kin : (kinship deeds).record deed = kinship deeds)
    (spared : ∀ family, Cancelled (deeds ++ [deed]) family ↔ Cancelled deeds family) :
    Told clock (deeds ++ [deed]) { s with signals } where
  flags := by rw [kinship_concat, kin, h.flags]
  created := by rw [kinship_concat, kin, ← h.created, same]
  known token mem := same ▸ h.known token mem
  set token := by
    rw [spared, ← h.set, Signals.isSet, Signals.isSet, same]
  founded token mem := (h.founded token mem).append _
  alike := h.alike

/-- A token that is made founds a family. -/
theorem make {s : TokenState} (h : Told clock deeds s) {signals : Signals}
    (same : signals.flags = s.signals.flags) {deadline : Option Nat}
    (kin : (kinship deeds).record deed =
      ⟨(kinship deeds).created + 1, (kinship deeds).families ++ [(kinship deeds).created]⟩)
    (given : deed.deadline? (now clock deeds) = some deadline)
    (spares : ∀ number, deed ≠ cancel number) :
    Told clock (deeds ++ [deed]) (s.number (signals.create deadline)).2 := by
  have new : signals.flags.length = (kinship deeds).created := by rw [same, h.created]
  have old : ∀ token ∈ s.tokens, token.flag < signals.flags.length := by
    rw [same]
    exact h.known
  refine ⟨?_, ?_, fun token mem => ?_, fun token => ?_, fun token mem => ?_,
    fun t ht u hu eq => ?_⟩
  · simp [TokenState.number, Signals.create, kinship_concat, kin, h.flags, new]
  · simp [TokenState.number, Signals.create, kinship_concat, kin, new]
  · have there : (s.number (signals.create deadline)).2.signals.flags.length =
        signals.flags.length + 1 := by simp [TokenState.number, Signals.create]
    rw [there]
    rcases List.mem_append.mp mem with mem | mem
    · exact Nat.lt_succ_of_lt (old token mem)
    · rw [List.mem_singleton.mp mem]
      exact Nat.lt_succ_self _
  · have kept : (signals.create deadline).2.isSet token = signals.isSet token :=
      Signals.isSet_create
    rw [TokenState.number, cancelled_concat_of_ne spares, ← h.set, kept, Signals.isSet,
      Signals.isSet, same]
  · rcases List.mem_append.mp mem with mem | mem
    · exact (h.founded token mem).append _
    · rw [List.mem_singleton.mp mem]
      exact ⟨deeds, deed, List.prefix_rfl, new.symm, given⟩
  · -- a new flag is like no old one
    rcases List.mem_append.mp ht with ht | ht <;> rcases List.mem_append.mp hu with hu | hu
    · exact h.alike t ht u hu eq
    · have lt := old t ht
      rw [eq, List.mem_singleton.mp hu] at lt
      exact absurd lt (Nat.lt_irrefl _)
    · have lt := old u hu
      rw [← eq, List.mem_singleton.mp ht] at lt
      exact absurd lt (Nat.lt_irrefl _)
    · rw [List.mem_singleton.mp ht, List.mem_singleton.mp hu]

/-- A clone joins the family of its original. -/
theorem clone {s : TokenState} (h : Told clock deeds s) {number : Nat} {token : Token}
    (found : s.tokens[number]? = some token) :
    Told clock (deeds ++ [.clone number]) { s with tokens := s.tokens ++ [token] } := by
  have mem : token ∈ s.tokens := List.mem_of_getElem? found
  have family : (kinship deeds).families[number]? = some token.flag := by
    rw [h.getElem?_families, found, Option.map_some]
  have spares : ∀ other, TokenDeed.clone number ≠ .cancel other := nofun
  -- nothing is in the longer list that was not in the list before
  have only : ∀ t ∈ s.tokens ++ [token], t ∈ s.tokens := by
    intro t ht
    rcases List.mem_append.mp ht with ht | ht
    · exact ht
    · rwa [List.mem_singleton.mp ht]
  exact {
    flags := by simp [kinship_concat, Kinship.record, family, h.flags]
    created := by rw [kinship_concat, Kinship.record, h.created]
    known := fun t ht => h.known t (only t ht)
    set := fun t => by rw [cancelled_concat_of_ne spares, ← h.set]
    founded := fun t ht => (h.founded t (only t ht)).append _
    alike := fun t ht u hu => h.alike t (only t ht) u (only u hu) }

/-- A cancellation reaches the family of the token. -/
theorem cancel {s : TokenState} (h : Told clock deeds s) {number : Nat} {token : Token}
    (found : s.tokens[number]? = some token) :
    Told clock (deeds ++ [.cancel number]) { s with signals := s.signals.cancel token } := by
  have mem : token ∈ s.tokens := List.mem_of_getElem? found
  have family : (kinship deeds).families[number]? = some token.flag := by
    rw [h.getElem?_families, found, Option.map_some]
  have size : (s.signals.cancel token).flags.length = s.signals.flags.length := by
    simp [Signals.cancel]
  exact {
    flags := by rw [kinship_concat, Kinship.record, h.flags]
    created := by rw [kinship_concat, Kinship.record, size, h.created]
    known := fun t ht => size ▸ h.known t ht
    set := fun t => by
      rw [Signals.isSet_cancel (h.known token mem), cancelled_concat, Bool.or_eq_true, h.set,
        beq_iff_eq]
      simp [family, or_comm, eq_comm]
    founded := fun t ht => (h.founded t ht).append _
    alike := h.alike }

/-- A deed on a number without a token is nothing. -/
theorem stray {s : TokenState} (h : Told clock deeds s) {number : Nat}
    (missing : s.tokens[number]? = none)
    (about : deed = .clone number ∨ deed = .cancel number ∨ deed = .check number) :
    Told clock (deeds ++ [deed]) s := by
  have stranger : (kinship deeds).families[number]? = none := by
    rw [h.getElem?_families, missing, Option.map_none]
  rcases about with rfl | rfl | rfl
  · refine h.idle rfl ?_ fun family => cancelled_concat_of_ne nofun
    simp [Kinship.record, stranger]
  · refine h.idle rfl rfl fun family => ?_
    simp [cancelled_concat, stranger]
  · exact h.idle rfl rfl fun family => cancelled_concat_of_ne nofun

end Told

/-- **The state is told by the deeds**, whatever they are. -/
theorem told_after : Told clock deeds (after clock deeds) := by
  induction deeds using List.reverseRecOn with
  | nil =>
    refine ⟨rfl, rfl, ?_, fun token => ?_, ?_, ?_⟩ <;> simp [after, Signals.isSet, Cancelled]
  | append_singleton deeds deed ih =>
    have turned := turn (after clock deeds) deed
    rw [after_concat]
    generalize deed.act (after clock deeds) = s at turned
    cases turned with
    | create deadline =>
      have spares : ∀ number, create deadline ≠ cancel number := by simp
      exact ih.make rfl rfl rfl spares
    | timed deadline =>
      have spares : ∀ number, timed deadline ≠ cancel number := by simp
      have same : ({ (after clock deeds).signals with
          clock := (after clock deeds).signals.clock.read.2 } : Signals).flags =
        (after clock deeds).signals.flags := rfl
      exact ih.make same rfl rfl spares
    | clone found => exact ih.clone found
    | cancel found => exact ih.cancel found
    | check found =>
      exact ih.idle Signals.flags_check rfl fun family => cancelled_concat_of_ne (by simp)
    | stray missing about => exact ih.stray missing about

/-! ## What lasts -/

/-- A longer list has at a position what a shorter one has. -/
theorem getElem?_of_prefix {α : Type} {l l' : List α} {i : Nat} {a : α} (h : l <+: l')
    (found : l[i]? = some a) : l'[i]? = some a := by
  obtain ⟨rest, rfl⟩ := h
  rwa [List.getElem?_append_left (List.getElem?_eq_some_iff.mp found).1]

/-- A deed adds to the tokens, and takes none away. -/
theorem tokens_act {s : TokenState} : s.tokens <+: (deed.act s).tokens := by
  have turned := turn s deed
  generalize deed.act s = t at turned
  cases turned with
  | create | timed | clone => exact List.prefix_append _ _
  | cancel | check | stray => exact List.prefix_rfl

theorem families_record {k : Kinship} : k.families <+: (k.record deed).families := by
  cases deed with
  | create | timed | clone => exact List.prefix_append _ _
  | cancel | check => exact List.prefix_rfl

/-- A deed takes one reading of the clock, or none. -/
theorem now_le_act {s : TokenState} : s.signals.clock.now ≤ (deed.act s).signals.clock.now := by
  have turned := turn s deed
  generalize deed.act s = t at turned
  cases turned with
  | create | clone | cancel | stray => exact Nat.le_refl _
  | timed => exact s.signals.clock.advances _
  | check => exact Signals.now_le_check

/-- **The clock does not go back.** -/
theorem now_le_append : now clock deeds ≤ now clock (deeds ++ more) := by
  induction more using List.reverseRecOn with
  | nil => simp
  | append_singleton more deed ih =>
    have later : now clock (deeds ++ more) ≤ now clock ((deeds ++ more) ++ [deed]) := by
      rw [now, now, after_concat]
      exact now_le_act
    rw [← List.append_assoc]
    exact Nat.le_trans ih later

/-- **A member stays one**, of the same family and with the same token. -/
theorem Member.append {number : Nat} {token : Token} (h : Member clock deeds number family token)
    (more : List TokenDeed) : Member clock (deeds ++ more) number family token := by
  induction more using List.reverseRecOn with
  | nil => rwa [List.append_nil]
  | append_singleton more deed ih =>
    rw [← List.append_assoc]
    constructor
    · rw [kinship_concat]
      exact getElem?_of_prefix families_record ih.family
    · rw [after_concat]
      exact getElem?_of_prefix tokens_act ih.token

/-! ## What a check says -/

section

variable {number : Nat} {token : Token}

theorem Member.flag_eq (h : Member clock deeds number family token) : token.flag = family := by
  have told := h.family
  rw [told_after.getElem?_families, h.token, Option.map_some] at told
  exact Option.some.inj told

theorem Member.mem (h : Member clock deeds number family token) :
    token ∈ (after clock deeds).tokens :=
  List.mem_of_getElem? h.token

/-- The flag of a member tells whether its family was cancelled. -/
theorem Member.isSet_iff (h : Member clock deeds number family token) :
    (after clock deeds).signals.isSet token = true ↔ Cancelled deeds family := by
  rw [told_after.set, h.flag_eq]

end

/-- **The law of the families.** -/
structure FamilyLaw (clock : Clock) (deeds : List TokenDeed) : Prop where
  /-- Every token is in a family. -/
  size : (after clock deeds).tokens.length = (kinship deeds).families.length
  /-- Every token has the deadline that its family was founded with. -/
  founded : ∀ number family token, Member clock deeds number family token →
    Founded clock deeds family token.deadline
  /-- Clones have the same deadline. -/
  alike : ∀ number other family token clone, Member clock deeds number family token →
    Member clock deeds other family clone → token.deadline = clone.deadline
  /-- A token is cancelled if one of its family was. -/
  cancelled : ∀ number family token, Member clock deeds number family token →
    (status clock deeds token = .error .cancelled ↔ Cancelled deeds family)
  /-- Otherwise its deadline is exceeded if it has passed. -/
  expired : ∀ number family token, Member clock deeds number family token →
    (status clock deeds token = .error .deadlineExceeded ↔ ¬ Cancelled deeds family ∧
      ∃ deadline, token.deadline = some deadline ∧ deadline ≤ now clock deeds)
  /-- Otherwise the token is live. -/
  live : ∀ number family token, Member clock deeds number family token →
    (status clock deeds token = .ok () ↔ ¬ Cancelled deeds family ∧
      ∀ deadline, token.deadline = some deadline → now clock deeds < deadline)
  /-- A cancellation in another family is not noticed. -/
  apart : ∀ number family token other stranger, Member clock deeds number family token →
    (kinship deeds).families[other]? = some stranger → stranger ≠ family →
    status clock (deeds ++ [cancel other]) token = status clock deeds token
  /-- What is cancelled stays cancelled, and what is late stays late or is
  cancelled. -/
  lasting : ∀ more number family token, Member clock deeds number family token →
    Member clock (deeds ++ more) number family token ∧
    (status clock deeds token = .error .cancelled →
      status clock (deeds ++ more) token = .error .cancelled) ∧
    (status clock deeds token = .error .deadlineExceeded →
      status clock (deeds ++ more) token = .error .cancelled ∨
        status clock (deeds ++ more) token = .error .deadlineExceeded)

/-- **Cancellation spreads over families**, and lasts. -/
theorem familyLaw : FamilyLaw clock deeds where
  size := by rw [← told_after.flags, List.length_map]
  founded number family token h := h.flag_eq ▸ told_after.founded token h.mem
  alike number other family token clone h h' :=
    told_after.alike token h.mem clone h'.mem (h.flag_eq.trans h'.flag_eq.symm)
  cancelled number family token h := by rw [status, Signals.check_eq_cancelled_iff, h.isSet_iff]
  expired number family token h := by
    rw [status, Signals.check_eq_exceeded_iff, h.isSet_iff]
    rfl
  live number family token h := by
    rw [status, Signals.check_eq_ok_iff, h.isSet_iff]
    rfl
  apart number family token other stranger h known ne := by
    obtain ⟨own, found, rfl⟩ : ∃ own, (after clock deeds).tokens[other]? = some own ∧
        own.flag = stranger := by
      rw [told_after.getElem?_families] at known
      exact Option.map_eq_some_iff.mp known
    rw [status, after_concat, act_cancel found]
    refine Signals.check_congr ?_ rfl
    have other_flag : (token.flag == own.flag) = false := by
      rw [h.flag_eq]
      exact beq_eq_false_iff_ne.mpr ne.symm
    rw [Signals.isSet_cancel (told_after.known own (List.mem_of_getElem? found)), other_flag,
      Bool.false_or]
  lasting more number family token h := by
    have later := h.append more
    refine ⟨later, fun was => ?_, fun was => ?_⟩
    · rw [status, Signals.check_eq_cancelled_iff, h.isSet_iff] at was
      rw [status, Signals.check_eq_cancelled_iff, later.isSet_iff]
      exact was.append more
    · obtain ⟨-, deadline, limit, passed⟩ := Signals.check_eq_exceeded_iff.mp was
      rw [status, Signals.check_eq_cancelled_iff, Signals.check_eq_exceeded_iff]
      by_cases set : (after clock (deeds ++ more)).signals.isSet token = true
      · exact .inl set
      · exact .inr ⟨set, deadline, limit, Nat.le_trans passed now_le_append⟩

end TokenDeed

/-- **All that a session does to tokens is a sequence of deeds.** -/
theorem Session.TokenOp.exists_deeds (op : Session.TokenOp) (s : TokenState) (number : Nat) :
    ∃ deeds : List TokenDeed, (op.run s number).2 = deeds.foldl TokenDeed.act s := by
  -- a token that is made and cancelled has the number that is next
  have made (token : Token × Signals) :
      (s.number token).2.tokens[s.tokens.length]? = some token.1 := by
    simp [TokenState.number]
  cases op with
  | make kind =>
    cases kind with
    | live => exact ⟨[.create none], rfl⟩
    | cancelled =>
      exact ⟨[.create none, .cancel s.tokens.length],
        (TokenDeed.act_cancel (made s.signals.create)).symm⟩
    | past => exact ⟨[.timed (· - 1)], rfl⟩
    | dueNow => exact ⟨[.timed id], rfl⟩
    | future => exact ⟨[.timed (· + 24 * 60 * 60 * 1000)], rfl⟩
    | pastCancelled =>
      exact ⟨[.timed (· - 1), .cancel s.tokens.length],
        (TokenDeed.act_cancel (made (timed s.signals (· - 1)))).symm⟩
  | clone => exact ⟨[.clone number], rfl⟩
  | cancel => exact ⟨[.cancel number], rfl⟩
  | check => exact ⟨[.check number], rfl⟩
  | isCancelled =>
    refine ⟨[.check number], ?_⟩
    rw [List.foldl_cons, List.foldl_nil, TokenDeed.act, run, run, TokenState.withToken,
      TokenState.withToken]
    cases s.tokens[number]? <;> rfl
  | hasDeadline | outline =>
    refine ⟨[], ?_⟩
    rw [run, TokenState.withToken]
    cases s.tokens[number]? <;> rfl

end StagedWorkflow
