import Tenure.Executor.Joinable
import Tenure.Executor.Pool

/-!
# A pool of workers and those who use it

The workers of a pool, each with those who hand work to it and those who close it. What is done
under a key is done with the worker that serves the key. A pool is closed by closing one worker
after the other, and waiting for each as one who closes a single worker does; any number of threads
may do this, among them the workers' own.

## Main definitions

* `ExecutorSharding` — the shards of a pool, and those who close all of them
* `ExecutorSharding.shardFor` — the shard that serves a key
* `ExecutorSharding.Move`, `ExecutorSharding.step` — one move
* `ExecutorSharding.course` — what a schedule leads to
* `ExecutorSharding.opened` — a sharding whose workers have just been started
-/

namespace Tenure

namespace ExecutorSharding

/-- One who closes all shards, one after the other. -/
structure Shutdown where
  /-- The number by which a shard knows the thread, unless it is its worker's own. -/
  number : Nat
  /-- The shard on whose thread this happens, if it is one of them, and where there. -/
  own? : Option (Nat × JoinableExecutor.Place) := none
  /-- How many shards it has closed. -/
  past : Nat := 0
  /-- Its place among those who close the next shard, once it has begun. -/
  closer? : Option Nat := none
  deriving DecidableEq, Repr

/-- Where it stands as seen by a shard. -/
def Shutdown.placeAt (shutdown : Shutdown) (shard : Nat) : JoinableExecutor.Place :=
  match shutdown.own? with
  | some (own, place) => if own = shard then place else .outside shutdown.number
  | none => .outside shutdown.number

end ExecutorSharding

/-- The shards of a pool, `ExecutorSharding`, and those who close all of them in the order of their
begin. -/
structure ExecutorSharding (β : Type) where
  shards : List (JoinableExecutor β)
  nonempty : 0 < shards.length
  shutdowns : List ExecutorSharding.Shutdown := []

namespace ExecutorSharding

variable {β : Type}

/-- One move. -/
inductive Move (β : Type)
  /-- A move in the shard that serves a key. -/
  | under (key : String) (move : JoinableExecutor.Move β)
  /-- A move in the shard at a place. -/
  | inside (place : Nat) (move : JoinableExecutor.Move β)
  /-- Somebody begins to close all shards. -/
  | shutDown (number : Nat) (own? : Option (Nat × JoinableExecutor.Place))
  /-- One who closes all shards takes the next step. -/
  | proceed (i : Nat)

/-- A sharding whose workers have just been started, `ExecutorSharding::new`; none means one. -/
def opened (count : Nat) : ExecutorSharding β where
  shards := (List.range (max count 1)).map fun place => .opened (Pool.shardName place)
  nonempty := by
    rw [List.length_map, List.length_range]
    exact Nat.lt_of_lt_of_le Nat.zero_lt_one (Nat.le_max_right count 1)

/-- The workers of a sharding. -/
def pool (sharding : ExecutorSharding β) : Pool Executor.Job Executor.Job where
  shards := sharding.shards.map (·.worker)
  nonempty := by simpa using sharding.nonempty

/-- The shard that serves a key, `ExecutorSharding::shard_for`. -/
def shardFor (sharding : ExecutorSharding β) (key : String) : JoinableExecutor β :=
  sharding.shards.get
    ⟨Pool.shardIndex key sharding.shards.length, Pool.shardIndex_lt key sharding.nonempty⟩

/-- Changes the shard at a place. -/
def modify (sharding : ExecutorSharding β) (place : Nat)
    (change : JoinableExecutor β → JoinableExecutor β) : ExecutorSharding β where
  shards := sharding.shards.modify place change
  nonempty := by simpa using sharding.nonempty
  shutdowns := sharding.shutdowns

/-- Whether one who closes all shards is through with them. -/
def isOver (sharding : ExecutorSharding β) (shutdown : Shutdown) : Bool :=
  shutdown.past == sharding.shards.length

/-- Whether the thread of a shard is free to go on: nobody closes all shards on it. -/
def isFreeInside (sharding : ExecutorSharding β) (place : Nat) : Bool :=
  sharding.shutdowns.all fun shutdown =>
    shutdown.own?.map (·.1) != some place || sharding.isOver shutdown

/-- Whether a move in the shard at a place can be made by the one who makes it. -/
def permits (sharding : ExecutorSharding β) (place : Nat) : JoinableExecutor.Move β → Bool
  | .work .look | .work .pick | .work (.finish _) | .work (.settle _ _) =>
    sharding.isFreeInside place
  | _ => true

/-- A move in the shard at a place. -/
def act (sharding : ExecutorSharding β) (place : Nat) (move : JoinableExecutor.Move β) :
    ExecutorSharding β :=
  if sharding.permits place move then sharding.modify place (·.step move) else sharding

/-- Whether somebody can begin to close all shards. -/
def canShutDown (sharding : ExecutorSharding β) (number : Nat) :
    Option (Nat × JoinableExecutor.Place) → Bool
  | some (own, place) =>
    place.isOwn && (sharding.shards[own]?).any (·.canClose place) && sharding.isFreeInside own
  | none => sharding.shutdowns.all fun shutdown =>
    shutdown.own?.isSome || shutdown.number != number || sharding.isOver shutdown

/-- One who closes all shards has come to a point. -/
def reach (sharding : ExecutorSharding β) (i : Nat) (shutdown : Shutdown) : ExecutorSharding β :=
  { sharding with shutdowns := sharding.shutdowns.set i shutdown }

/-- The next step of one who closes all shards, in the loop of `ExecutorSharding::shutdown`. -/
def goOn (sharding : ExecutorSharding β) (i : Nat) (shutdown : Shutdown) : ExecutorSharding β :=
  match sharding.shards[shutdown.past]?, shutdown.closer? with
  | none, _ => sharding
  | some shard, none =>
    let place := shutdown.placeAt shutdown.past
    if shard.canClose place then
      (sharding.modify shutdown.past (·.step (.close place))).reach i
        { shutdown with closer? := some shard.closers.length }
    else sharding
  | some shard, some closer =>
    if (shard.closers[closer]?).any JoinableExecutor.Closer.isOver then
      sharding.reach i { shutdown with past := shutdown.past + 1, closer? := none }
    else sharding.modify shutdown.past (·.step (.proceed closer))

/-- The sharding after a move. A move that cannot be made changes nothing. -/
def step (sharding : ExecutorSharding β) : Move β → ExecutorSharding β
  | .under key move => sharding.act (Pool.shardIndex key sharding.shards.length) move
  | .inside place move => sharding.act place move
  | .shutDown number own? =>
    if sharding.canShutDown number own? then
      { sharding with shutdowns := sharding.shutdowns ++ [{ number, own? }] }
    else sharding
  | .proceed i =>
    match sharding.shutdowns[i]? with
    | some shutdown => sharding.goOn i shutdown
    | none => sharding

/-- What the moves of a schedule lead to. -/
def course (sharding : ExecutorSharding β) (schedule : List (Move β)) : ExecutorSharding β :=
  schedule.foldl step sharding

/-- The move that is made in the shard at a place, if it is one in this shard, in a sharding of some
size. -/
def Move.inShard? (count place : Nat) : Move β → Option (JoinableExecutor.Move β)
  | .under key move => if Pool.shardIndex key count = place then some move else none
  | .inside there move => if there = place then some move else none
  | .shutDown _ _ | .proceed _ => none

/-- Whether the move has to do with one shard only. -/
def Move.isSingle : Move β → Bool
  | .under _ _ | .inside _ _ => true
  | .shutDown _ _ | .proceed _ => false

end ExecutorSharding

end Tenure
