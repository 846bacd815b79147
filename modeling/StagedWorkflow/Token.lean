import StagedWorkflow.Error
/-!
# Cancellation tokens

A token is done once it, or a token cloned from the same origin, was
cancelled, or once its deadline has passed. Tokens cloned from one origin
share a flag and carry the same deadline. An explicit cancellation is
reported before a deadline, and the clock is read only where a deadline
decides. What a cancellation reaches is said by `Signals.isSet_cancel`.
-/

namespace StagedWorkflow

open Text (Outline)

/-- A clock that never goes back, in milliseconds. -/
structure Clock where
  /-- The readings the clock gives, one after another. -/
  reading : Nat → Nat
  advances : ∀ n, reading n ≤ reading (n + 1)
  /-- The number of readings taken. -/
  taken : Nat

namespace Clock

/-- What the clock shows now. -/
def now (c : Clock) : Nat :=
  c.reading c.taken

/-- Takes a reading. -/
def read (c : Clock) : Nat × Clock :=
  (c.now, { c with taken := c.taken + 1 })

/-- The clock that stands at one time. -/
def standing (time : Nat) : Clock :=
  ⟨fun _ => time, fun _ => Nat.le_refl _, 0⟩

/-- A later reading is not before an earlier one. -/
theorem reading_mono (c : Clock) {m n : Nat} (h : m ≤ n) : c.reading m ≤ c.reading n := by
  induction h with
  | refl => exact Nat.le_refl _
  | step _ ih => exact Nat.le_trans ih (c.advances _)

end Clock

/-- A cancellation token. A clone of a token is equal to it. -/
structure Token where
  /-- The number of the flag that the token shares with its clones. -/
  flag : Nat
  deadline : Option Nat
  deriving DecidableEq

/-- The flags of all tokens, and the clock their deadlines are held against. -/
structure Signals where
  flags : List Bool
  clock : Clock

namespace Signals

/-- No token yet, and the clock at a time. -/
def startingAt (time : Nat) : Signals :=
  ⟨[], .standing time⟩

/-- A token that shares its flag with no other. -/
def create (s : Signals) (deadline : Option Nat := none) : Token × Signals :=
  (⟨s.flags.length, deadline⟩, { s with flags := s.flags ++ [false] })

/-- Whether the token's flag is set. -/
def isSet (s : Signals) (token : Token) : Bool :=
  s.flags[token.flag]?.getD false

/-- Cancels a token and all its clones. -/
def cancel (s : Signals) (token : Token) : Signals :=
  { s with flags := s.flags.set token.flag true }

/-- Whether a token is done, and why. -/
def check (s : Signals) (token : Token) : Except CancelReason Unit × Signals :=
  if s.isSet token then (.error .cancelled, s)
  else
    match token.deadline with
    | none => (.ok (), s)
    | some deadline =>
      let (now, clock) := s.clock.read
      (if deadline ≤ now then .error .deadlineExceeded else .ok (), { s with clock })

@[simp] theorem isSet_create {s : Signals} {deadline : Option Nat} {token : Token} :
    (s.create deadline).2.isSet token = s.isSet token := by
  simp only [create, isSet, List.getElem?_append]
  split
  · rfl
  · next h =>
    rw [List.getElem?_eq_none (by omega : s.flags.length ≤ token.flag)]
    cases token.flag - s.flags.length <;> simp

/-- A cancellation reaches the tokens that share the flag, and no others. -/
theorem isSet_cancel {s : Signals} {token other : Token} (made : token.flag < s.flags.length) :
    (s.cancel token).isSet other = (other.flag == token.flag || s.isSet other) := by
  simp only [cancel, isSet, List.getElem?_set]
  by_cases h : token.flag = other.flag
  · simp [← h, made]
  · simp [h, Ne.symm h]

/-- How a token is shown. -/
def outline (s : Signals) (token : Token) : Outline :=
  .fields "CancelToken"
    [("cancelled", .truth (s.isSet token)),
      ("deadline", match token.deadline with
        | none => .leaf "None"
        | some time => .parts "Some" [.leaf (toString time)])]

end Signals

end StagedWorkflow
