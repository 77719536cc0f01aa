import Tenure.Proofs.Term.SharedRegister
import Tenure.Proofs.Term.Kind

/-!
# The phases of the parties

As far as the register is concerned, a party to a proxy does one of a few things: it rests, it
seeks leadership, it works on the register, it has just ended a term, or it closes the proxy.
What a party turns to by itself, between two operations on the register, is said here in terms
of these phases alone.

## Main definitions

* `Phase` — what a party does
* `Phase.stake` — it has, or is on the way to, what makes the proxy leader
* `Phase.Turn` — what it can turn to by itself

## Main results

* `Phase.Turn.stake_le`, `Phase.Turn.stake` — what becomes of its stake
-/

namespace Tenure

/-- What a party does, as far as the register is concerned. -/
inductive Phase
  | resting
  /-- An acquisition that has no delegate yet. -/
  | seeking
  /-- An acquisition whose work was refused. -/
  | refused
  /-- An operation on the register, for one purpose. -/
  | working (kind : Operation.Kind) (operation : Operation)
  /-- A term was ended and the next acquisition is not begun. -/
  | arming
  /-- A closing that is about to stop the acquisition thread. -/
  | stopping
  | stopped
  deriving DecidableEq, Repr

namespace Phase

/-- The operation of a party, which is over if the party does not work on the register. -/
def operation : Phase → Operation
  | working _ operation => operation
  | _ => .done (.ended false)

/-- Whether a party has the stake. -/
def stake : Phase → Bool
  | seeking | refused | arming => true
  | working .publication operation => operation.isBid
  | working .ending operation => decide (operation.settled = some (.ended true))
  | _ => false

/-- Whether a party is where it can be, given whether the register is closed. -/
def Orderly (closed : Bool) : Phase → Prop
  | working kind operation =>
    operation.kind = kind ∧ (operation.attests = true → closed = true)
  | refused | stopping | stopped => closed = true
  | _ => True

theorem Orderly.mono {phase : Phase} {closed closed' : Bool} (h : phase.Orderly closed)
    (hc : closed = true → closed' = true) : phase.Orderly closed' := by
  cases phase with
  | working kind operation => exact ⟨h.1, fun ha => hc (h.2 ha)⟩
  | refused | stopping | stopped => exact hc h
  | _ => trivial

/-- In its place, a party has the stake exactly if its operation has it. -/
theorem stake_working {kind : Operation.Kind} {operation : Operation}
    (h : operation.kind = kind) : (working kind operation).stake = operation.stake := by
  cases kind with
  | publication => exact (Operation.stake_of_publication h).symm
  | ending => exact (Operation.stake_of_ending h).symm
  | closing => exact (Operation.stake_of_closing h).symm

/-- What a party can turn to by itself, given whether the register is closed and whether the
acquisition thread was told to stop. -/
inductive Turn (closed stopped : Bool) : Phase → Phase → Prop
  /-- An acquisition finds the proxy closed. -/
  | quits (h : closed = true) : Turn closed stopped seeking resting
  /-- An acquisition is dropped by its thread. -/
  | dropped (h : stopped = true) : Turn closed stopped seeking resting
  /-- The acquisition thread takes no work. -/
  | refused (h : stopped = true) : Turn closed stopped seeking refused
  | givesUp : Turn closed stopped .refused resting
  | published (term : Option Term) :
      Turn closed stopped (working .publication (.done (.published term))) resting
  /-- A call finds its term over. -/
  | loses (term : Term) : Turn closed stopped resting (working .ending (.invalidate term))
  | missed : Turn closed stopped (working .ending (.done (.ended false))) resting
  | won : Turn closed stopped (working .ending (.done (.ended true))) arming
  | rearms : Turn closed stopped arming seeking
  /-- A call that has ended its term finds the proxy closed. -/
  | desists (h : closed = true) : Turn closed stopped arming resting
  | shut (outcome : Operation.Outcome) :
      Turn closed stopped (working .closing (.done outcome)) stopping

variable {closed stopped : Bool} {phase next : Phase}

theorem Turn.isIdle (h : Turn closed stopped phase next) : phase.operation.isIdle = true := by
  cases h <;> rfl

theorem Turn.isIdle_next (h : Turn closed stopped phase next) :
    next.operation.isIdle = true := by
  cases h <;> rfl

theorem Turn.ne_stopped (h : Turn closed stopped phase next) : next ≠ .stopped := by
  cases h <;> simp

theorem Turn.orderly (h : Turn closed stopped phase next) (hs : stopped = true → closed = true)
    (ho : phase.Orderly closed) : next.Orderly closed := by
  cases h with
  | refused h => exact hs h
  | loses term => exact ⟨rfl, by simp [Operation.attests]⟩
  | shut outcome =>
    obtain ⟨hk, ha⟩ := ho
    cases outcome with
    | closed first => exact ha rfl
    | _ => simp [Operation.kind, Operation.Outcome.kind] at hk
  | _ => trivial

/-- By itself a party never comes to a stake. -/
theorem Turn.stake_le (h : Turn closed stopped phase next) :
    next.stake.toNat ≤ phase.stake.toNat := by
  cases h <;> simp [stake, Operation.isBid, Operation.settled]

/-- By itself a party gives a stake up only where the proxy is closed. -/
theorem Turn.stake (h : Turn closed stopped phase next) (hs : stopped = true → closed = true)
    (ho : phase.Orderly closed) (isOpen : closed = false) :
    next.stake.toNat = phase.stake.toNat := by
  subst isOpen
  cases h with
  -- the turns that give a stake up are not open to a party here
  | quits h | desists h => simp at h
  | dropped h => exact absurd (hs h) (by simp)
  | givesUp => simp [Orderly] at ho
  | refused h => rfl
  | _ => simp [Phase.stake, Operation.isBid, Operation.settled]

end Phase

end Tenure
