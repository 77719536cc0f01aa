import Tenure.Failure

/-!
# Lock tables

A lock table keeps which names are held, each under the number that was given out for it.
Numbers count up from one and are never given out twice by one table. A name that is held
cannot be locked again.

## Main definitions

* `LockTable` — the names that are held
* `LockTable.lock`, `LockTable.unlock`, `LockTable.size` — what can be asked of a table
* `LockTable.Failure` — why a name cannot be locked
-/

namespace Tenure

/-- The names that are held, `InMemoryLocks`, each with its number, and how many numbers were given
out. There are 64 bits for a number, far more than a simulation needs. -/
structure LockTable where
  held : List (String × Nat) := []
  given : Nat := 0
  deriving DecidableEq, Repr, Inhabited

namespace LockTable

/-- Why a name cannot be locked. -/
inductive Failure
  | held (name : String)
  deriving DecidableEq, Repr

/-- What a reader is told. -/
def Failure.message : Failure → String
  | held name => "lock " ++ name ++ " is already held"

/-- A failure to lock, `LockError`, as a failure of a delegate; it has nothing to do with
leadership. -/
def Failure.toDelegate (failure : Failure) : DelegateFailure :=
  .classified .other failure.message

/-- Whether a name is held. -/
def holds (table : LockTable) (name : String) : Bool := table.held.any (·.1 == name)

/-- Locks a name and gives out the next number for it, unless the name is held:
`InMemoryLocks::lock`. -/
def lock (table : LockTable) (name : String) : Except Failure Nat × LockTable :=
  if table.holds name then (.error (.held name), table)
  else (.ok (table.given + 1), ⟨(name, table.given + 1) :: table.held, table.given + 1⟩)

/-- Lets a name go, `InMemoryLocks::unlock`; the answer is whether it was held. -/
def unlock (table : LockTable) (name : String) : Bool × LockTable :=
  (table.holds name, { table with held := table.held.filter (·.1 != name) })

/-- How many names are held, `InMemoryLocks::held_count`. -/
def size (table : LockTable) : Nat := table.held.length

end LockTable

end Tenure
