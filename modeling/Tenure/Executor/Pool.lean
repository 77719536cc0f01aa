import Tenure.Executor.Worker
import Tenure.Text.Checksum

/-!
# Pools of workers

A fixed number of workers, at least one. A key is always served by the same worker, the one
whose place is the checksum of the key modulo the number of workers, so the order of work under
one key is the order of one queue, and unrelated keys do not wait for each other.

A pool and the scheduler that times delays together are what all proxies of a process share.

## Main definitions

* `Pool` — the workers; `Pool.shardIndex`, `Pool.shardFor` — the worker that serves a key
* `Pool.stop`, `Pool.stopFor` — telling all workers, or the one that serves a key, to stop
* `Executors` — a pool and a scheduler
-/

namespace Tenure

/-- A pool of workers, `ExecutorSharding`, with jobs `ι` and tasks `κ`. -/
structure Pool (ι κ : Type) where
  shards : List (Worker ι κ)
  nonempty : 0 < shards.length

namespace Pool

variable {ι κ : Type}

/-- The place of the worker that serves a key, in a pool of some size, `shard_index`. -/
def shardIndex (key : String) (count : Nat) : Nat :=
  (Text.checksum key).toNat % max count 1

theorem shardIndex_lt (key : String) {count : Nat} (positive : 0 < count) :
    shardIndex key count < count := by
  have := Nat.mod_lt (Text.checksum key).toNat
    (Nat.lt_of_lt_of_le positive (Nat.le_max_left count 1))
  rw [Nat.max_eq_left positive] at this
  simpa [shardIndex, Nat.max_eq_left positive] using this

/-- The name of the worker at a place. -/
def shardName (place : Nat) : String := "leader-proxy-shard-" ++ toString place

/-- A new pool, `ExecutorSharding::new`; none means one. -/
def new (count : Nat) : Pool ι κ where
  shards := (List.range (max count 1)).map fun place => { name := shardName place }
  nonempty := by
    rw [List.length_map, List.length_range]
    exact Nat.lt_of_lt_of_le Nat.zero_lt_one (Nat.le_max_right count 1)

/-- The worker that serves a key, `ExecutorSharding::shard_for`. -/
def shardFor (pool : Pool ι κ) (key : String) : Worker ι κ :=
  pool.shards.get ⟨shardIndex key pool.shards.length, shardIndex_lt key pool.nonempty⟩

/-- Changes the worker that serves a key. -/
def modifyFor (pool : Pool ι κ) (key : String) (change : Worker ι κ → Worker ι κ) : Pool ι κ where
  shards := pool.shards.modify (shardIndex key pool.shards.length) change
  nonempty := by simpa using pool.nonempty

/-- Tells the worker that serves a key to stop. -/
def stopFor (pool : Pool ι κ) (key : String) : Pool ι κ := pool.modifyFor key Worker.stop

/-- Tells every worker to stop: `ExecutorSharding::shutdown`, which also waits for their threads. -/
def stop (pool : Pool ι κ) : Pool ι κ where
  shards := pool.shards.map Worker.stop
  nonempty := by simpa using pool.nonempty

/-- How a pool is shown to people who look for faults. -/
def quoted (pool : Pool ι κ) : String :=
  "ExecutorSharding \x7b shards: [" ++ ", ".intercalate (pool.shards.map Worker.quoted)
    ++ "] \x7d"

end Pool

/-- The name of the scheduler's thread. -/
def schedulerName : String := "leader-proxy-scheduler"

/-- How a scheduler is shown to people who look for faults. -/
def schedulerQuoted : String := "RetryScheduler \x7b .. \x7d"

/-- What all proxies of a process share, `ProxyExecutors`: a pool, and a scheduler that has been
stopped or not. -/
structure Executors (ι κ : Type) where
  pool : Pool ι κ
  schedulerStopped : Bool := false

namespace Executors

variable {ι κ : Type}

/-- Stops the scheduler, `RetryScheduler::shutdown`: the delays it was timing are abandoned. -/
def stopScheduler (executors : Executors ι κ) : Executors ι κ :=
  { executors with schedulerStopped := true }

/-- Stops the pool. -/
def stopPool (executors : Executors ι κ) : Executors ι κ :=
  { executors with pool := executors.pool.stop }

/-- Stops everything: `ProxyExecutors::shutdown`. -/
def stop (executors : Executors ι κ) : Executors ι κ := executors.stopPool.stopScheduler

/-- How the shared executors are shown to people who look for faults. -/
def quoted (executors : Executors ι κ) : String :=
  "ProxyExecutors \x7b sharding: " ++ executors.pool.quoted ++ ", scheduler: "
    ++ schedulerQuoted ++ " \x7d"

end Executors

end Tenure
