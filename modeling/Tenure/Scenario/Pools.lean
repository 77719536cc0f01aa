import Tenure.Executor.Pool

/-!
# A pool under observation

Which workers serve which keys, and which of them still take work after one of them, or all of
them, were told to stop.

## Main definitions

* `PoolWatch.Report`, `PoolWatch.run` — a pool with the keys it serves
* `PoolWatch.SharedReport`, `PoolWatch.runShared` — the executors that proxies share
-/

namespace Tenure.PoolWatch

/-- What a pool whose jobs are not looked at holds. -/
abbrev Workers := Pool Unit Unit

/-- What is seen of a pool. -/
structure Report where
  /-- How many workers there are. -/
  count : Nat
  /-- The worker that serves each key. -/
  names : List String
  /-- Which keys are served by the same worker. -/
  same : List (List Bool)
  /-- How the pool is shown. -/
  shown : String
  /-- Whether the worker of each key takes no more work after one key's worker was stopped. -/
  stopped : List Bool
  /-- What is answered to work under each key after the pool was stopped. -/
  after : List (Option ExecutorFailure)

/-- What is answered to a job under a key: nothing if it is accepted. -/
def refusal? (pool : Workers) (key : String) : Option ExecutorFailure :=
  let worker := pool.shardFor key
  if worker.admits then none else some worker.refusal

/-- The report on a pool that serves some keys; the worker of one more key may be stopped before
the rest. -/
def run (count : Nat) (keys : List String) (stopFirst : Option String) : Report :=
  let pool : Workers := Pool.new count
  let some := match stopFirst with
    | some key => pool.stopFor key
    | none => pool
  let all := some.stop.stop
  let place key := Pool.shardIndex key pool.shards.length
  { count := pool.shards.length
    names := keys.map fun key => (pool.shardFor key).name
    same := keys.map fun left => keys.map fun right => place left == place right
    shown := pool.quoted
    stopped := keys.map fun key => (some.shardFor key).stopping
    after := keys.map (refusal? all) }

/-- What is seen of shared executors. -/
structure SharedReport where
  shown : String
  /-- The worker that serves the key. -/
  shard : String
  /-- What is answered to a first job under the key. -/
  first : Option ExecutorFailure
  /-- What is answered to a job after everything was stopped. -/
  after : Option ExecutorFailure

/-- The report on shared executors that serve one key. -/
def runShared (count : Nat) (key : String) : SharedReport :=
  let executors : Executors Unit Unit := { pool := Pool.new count }
  { shown := executors.quoted
    shard := (executors.pool.shardFor key).name
    first := refusal? executors.pool key
    after := refusal? executors.stop.pool key }

end Tenure.PoolWatch
