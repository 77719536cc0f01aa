import Tenure.Executor.Sharding
import Tenure.Proofs.Executor.Fifo
import Tenure.Proofs.Executor.Joining

/-!
# Workers of a pool do not disturb each other

What is done under a key concerns one shard, always the same one, and this shard fares as it would
fare alone. Only those who close all shards go from one to the next; whoever is through with them
has told every worker to stop, and after that every submission under every key is refused.

## Main definitions

* `Executor.Refusing` — a worker that refuses whatever is begun from now on
* `ExecutorSharding.Turn` — what a move can do
* `ExecutorSharding.Settled` — every shard has a course of its own, and those that were closed
  know it

## Main results

* `ExecutorSharding.course_inShard` — a shard fares as it would fare alone
* `ExecutorSharding.settled_course` — a sharding is settled after every schedule
* `ExecutorSharding.shards_are_isolated` — all of it
-/

namespace Tenure

open scoped List

/-! ## A worker that refuses everything -/

namespace Executor

variable {β : Type} {exec exec' : Executor β}

/-- A worker that was told to stop, and has accepted nothing from any but its first invocations. -/
structure Refusing (name : String) (known : Nat) (exec : Executor β) : Prop where
  stopping : exec.worker.stopping = true
  named : exec.worker.name = name
  grown : known ≤ exec.invocations.length
  later : ∀ (i : Nat) (invocation : Invocation), known ≤ i →
    exec.invocations[i]? = some invocation →
    invocation.stage = .checking false ∨ invocation.stage = .returned (some (.shutDown name))
  earlier : ∀ job ∈ exec.accepted, job.invocation < known

theorem Sound.refusing (sound : Sound exec) (stopping : exec.worker.stopping = true) :
    Refusing exec.worker.name exec.invocations.length exec where
  stopping := stopping
  named := rfl
  grown := Nat.le_refl _
  later i invocation le here := by
    obtain ⟨lt, -⟩ := List.getElem?_eq_some_iff.mp here
    omega
  earlier job mem := by
    obtain ⟨invocation, here, -⟩ := sound.handed job mem
    exact (List.getElem?_eq_some_iff.mp here).1

/-- It goes on refusing. -/
theorem Refusing.shift {name : String} {known : Nat} (refusing : Refusing name known exec)
    (h : Shift exec exec') : Refusing name known exec' := by
  obtain ⟨stopping, named, grown, later, earlier⟩ := refusing
  cases h with
  | invoked way free =>
    refine ⟨stopping, named, ?_, fun i invocation le here => ?_, earlier⟩
    · simp only [List.length_append]
      omega
    · by_cases lt : i < exec.invocations.length
      · rw [List.getElem?_append_left lt] at here
        exact later i invocation le here
      · rw [List.getElem?_append_right (Nat.not_lt.mp lt)] at here
        obtain rfl := List.mem_singleton.mp (List.mem_of_getElem? here)
        exact .inl rfl
  | admitted here checking working => simp [stopping] at working
  | @refused i invocation here underway =>
    refine ⟨stopping, named, by simpa [reach] using grown, fun j other le there => ?_, earlier⟩
    by_cases hij : i = j
    · subst hij
      obtain ⟨lt, -⟩ := List.getElem?_eq_some_iff.mp here
      obtain rfl : { invocation with stage := .returned (some exec.worker.refusal) } = other := by
        simpa [reach, lt] using there
      exact .inr (by simp only [Worker.refusal, named])
    · rw [reach, List.getElem?_set_ne hij] at there
      exact later j other le there
  | @accepted i invocation second here sending alive =>
    -- what is handed over now was begun before
    have lt : i < known := by
      by_contra ge
      rcases later i invocation (Nat.not_lt.mp ge) here with h | h <;> simp [sending] at h
    refine ⟨stopping, named, by simpa [reach] using grown, fun j other le there => ?_,
      fun job mem => ?_⟩
    · rw [reach, List.getElem?_set_ne (by omega)] at there
      exact later j other le there
    · rcases List.mem_append.mp mem with mem | mem
      · exact earlier job mem
      · obtain rfl := List.mem_singleton.mp mem
        exact lt
  | stopped => exact ⟨rfl, named, grown, later, earlier⟩
  | _ => exact ⟨stopping, named, grown, later, earlier⟩

/-- The check refuses. -/
theorem invocation_refused {i : Nat} {invocation : Invocation} {second : Bool}
    (stopping : exec.worker.stopping = true) (here : exec.invocations[i]? = some invocation)
    (checking : invocation.stage = .checking second) :
    (exec.step (.proceed i)).invocations[i]? =
      some { invocation with stage := .returned (some (.shutDown exec.worker.name)) } := by
  have refused : exec.step (.proceed i) =
      exec.reach i invocation (.returned exec.worker.refusal) := by
    simp [step, here, handOver, checking, Worker.admits, stopping]
  obtain ⟨lt, -⟩ := List.getElem?_eq_some_iff.mp here
  rw [refused]
  simp [reach, lt, Worker.refusal]

end Executor

/-- The place of a worker does not depend on whether no workers are called none or one. -/
theorem Pool.shardIndex_max (key : String) (count : Nat) :
    shardIndex key (max count 1) = shardIndex key count := by
  simp only [shardIndex, Nat.max_assoc, Nat.max_self]

/-- The place of a worker exists, for any number of workers. -/
theorem Pool.shardIndex_lt_max (key : String) (count : Nat) : shardIndex key count < max count 1 :=
  shardIndex_max key count ▸ shardIndex_lt key (by omega)

namespace ExecutorSharding

variable {β : Type} {sharding sharding' : ExecutorSharding β}

/-! ## What a move can do -/

/-- What a move can do. -/
inductive Turn : ExecutorSharding β → ExecutorSharding β → Prop
  | idle {sharding : ExecutorSharding β} : Turn sharding sharding
  | acted {sharding : ExecutorSharding β} (place : Nat) (move : JoinableExecutor.Move β) :
      Turn sharding (sharding.modify place (·.step move))
  | began {sharding : ExecutorSharding β} (number : Nat)
      (own? : Option (Nat × JoinableExecutor.Place)) :
      Turn sharding { sharding with shutdowns := sharding.shutdowns ++ [{ number, own? }] }
  | entered {sharding : ExecutorSharding β} {i : Nat} {shutdown : Shutdown}
      (here : sharding.shutdowns[i]? = some shutdown) (place : JoinableExecutor.Place)
      (closer? : Option Nat) :
      Turn sharding ((sharding.modify shutdown.past (·.step (.close place))).reach i
        { shutdown with closer? })
  /-- Somebody has closed a shard and goes to the next one. -/
  | passed {sharding : ExecutorSharding β} {i : Nat} {shutdown : Shutdown}
      {shard : JoinableExecutor β} {closer : JoinableExecutor.Closer}
      (here : sharding.shutdowns[i]? = some shutdown)
      (there : sharding.shards[shutdown.past]? = some shard) (closes : closer ∈ shard.closers)
      (ended : closer.isOver = true) :
      Turn sharding (sharding.reach i { shutdown with past := shutdown.past + 1, closer? := none })

private theorem act_turn (place : Nat) (move : JoinableExecutor.Move β) :
    Turn sharding (sharding.act place move) := by
  unfold act
  split
  · exact .acted place move
  · exact .idle

private theorem goOn_turn {i : Nat} {shutdown : Shutdown}
    (here : sharding.shutdowns[i]? = some shutdown) : Turn sharding (sharding.goOn i shutdown) := by
  unfold goOn
  split
  case h_1 => exact .idle
  case h_2 shard there fresh =>
    dsimp only
    split
    · exact .entered here _ _
    · exact .idle
  case h_3 shard closer there under_way =>
    split
    case isTrue ended =>
      obtain ⟨closer, closes, ended⟩ := (Option.any_eq_true _ _).mp ended
      exact .passed here there (List.mem_of_getElem? closes) ended
    case isFalse => exact .acted _ _

/-- Every move is a turn. -/
theorem step_turn (sharding : ExecutorSharding β) (move : Move β) :
    Turn sharding (sharding.step move) := by
  cases move with
  | under key move => exact act_turn _ move
  | inside place move => exact act_turn place move
  | shutDown number own? =>
    simp only [step]
    split
    · exact .began number own?
    · exact .idle
  | proceed i =>
    cases here : sharding.shutdowns[i]? with
    | none =>
      simp only [step, here]
      exact .idle
    | some shutdown =>
      simp only [step, here]
      exact goOn_turn here

/-- What every turn keeps is kept by every schedule. -/
theorem course_of_turn {P : ExecutorSharding β → Prop}
    (turn : ∀ {sharding sharding' : ExecutorSharding β}, Turn sharding sharding' →
      P sharding → P sharding')
    (h : P sharding) (schedule : List (Move β)) : P (sharding.course schedule) := by
  induction schedule generalizing sharding with
  | nil => exact h
  | cons move schedule ih => exact ih (turn (step_turn sharding move) h)

/-- A shard that is changed by a move in it. -/
theorem getElem?_modify {shard : JoinableExecutor β} {place k : Nat}
    (move : JoinableExecutor.Move β) (here : sharding.shards[k]? = some shard) :
    ∃ moves, (sharding.modify place (·.step move)).shards[k]? = some (shard.course moves) := by
  by_cases own : place = k
  · subst own
    exact ⟨[move], by simp [modify, here, JoinableExecutor.course]⟩
  · exact ⟨[], by simp [modify, own, here, JoinableExecutor.course]⟩

/-- Every shard goes through moves of its own. -/
theorem Turn.shard (h : Turn sharding sharding') {shard : JoinableExecutor β} {k : Nat}
    (here : sharding.shards[k]? = some shard) :
    ∃ moves, sharding'.shards[k]? = some (shard.course moves) := by
  cases h with
  | acted place move => exact getElem?_modify move here
  | entered _ place => exact getElem?_modify (.close place) here
  | _ => exact ⟨[], here⟩

/-- No shard is added. -/
theorem Turn.length (h : Turn sharding sharding') :
    sharding'.shards.length = sharding.shards.length := by
  cases h with
  | acted | entered => exact List.length_modify _ _ _
  | _ => rfl

theorem course_shard {shard : JoinableExecutor β} {k : Nat}
    (here : sharding.shards[k]? = some shard) (schedule : List (Move β)) :
    ∃ moves, (sharding.course schedule).shards[k]? = some (shard.course moves) := by
  refine course_of_turn (P := fun now => ∃ moves, now.shards[k]? = some (shard.course moves))
    (fun h ⟨moves, there⟩ => ?_) ⟨[], here⟩ schedule
  obtain ⟨more, now⟩ := h.shard there
  exact ⟨moves ++ more, by simp only [now, JoinableExecutor.course, List.foldl_append]⟩

@[simp] theorem length_course (sharding : ExecutorSharding β) (schedule : List (Move β)) :
    (sharding.course schedule).shards.length = sharding.shards.length :=
  course_of_turn (P := fun now => now.shards.length = sharding.shards.length)
    (fun h same => h.length.trans same) rfl schedule

@[simp] theorem length_opened (count : Nat) :
    (opened count : ExecutorSharding β).shards.length = max count 1 := by
  simp only [opened, List.length_map, List.length_range]

theorem getElem?_opened {count k : Nat} (lt : k < max count 1) :
    (opened count : ExecutorSharding β).shards[k]? = some (.opened (Pool.shardName k)) := by
  simp only [opened, List.getElem?_map, List.getElem?_range lt, Option.map_some]

/-! ## The shard that serves a key -/

theorem getElem?_shardFor (sharding : ExecutorSharding β) (key : String) :
    sharding.shards[Pool.shardIndex key sharding.shards.length]? = some (sharding.shardFor key) :=
  List.getElem?_eq_getElem _

theorem shardFor_eq {key : String} {shard : JoinableExecutor β}
    (here : sharding.shards[Pool.shardIndex key sharding.shards.length]? = some shard) :
    sharding.shardFor key = shard :=
  Option.some.inj ((getElem?_shardFor sharding key).symm.trans here)

/-- The shard that serves a key is one in its place. -/
theorem getElem?_shardFor_course (count : Nat) (schedule : List (Move β)) (key : String) :
    ((opened count : ExecutorSharding β).course schedule).shards[Pool.shardIndex key count]? =
      some (((opened count).course schedule).shardFor key) := by
  have here := getElem?_shardFor ((opened count : ExecutorSharding β).course schedule) key
  rwa [length_course, length_opened, Pool.shardIndex_max] at here

/-- What was done with the shard that serves a key. -/
theorem shardFor_course (sharding : ExecutorSharding β) (key : String) (schedule : List (Move β)) :
    ∃ moves, (sharding.course schedule).shardFor key = (sharding.shardFor key).course moves := by
  obtain ⟨moves, there⟩ := course_shard (getElem?_shardFor sharding key) schedule
  refine ⟨moves, shardFor_eq ?_⟩
  rwa [length_course]

/-- What is done under a key is done with the shard that serves it. -/
theorem shardFor_under {key : String} {move : JoinableExecutor.Move β}
    (permits : sharding.permits (Pool.shardIndex key sharding.shards.length) move = true) :
    (sharding.step (.under key move)).shardFor key = (sharding.shardFor key).step move := by
  refine shardFor_eq ?_
  simp [step, act, permits, modify, getElem?_shardFor]

/-! ## A shard on its own -/

theorem Move.inShard?_max (count place : Nat) (move : Move β) :
    move.inShard? (max count 1) place = move.inShard? count place := by
  cases move with
  | under key move => simp only [inShard?, Pool.shardIndex_max]
  | _ => rfl

/-- As long as nobody closes all shards, a move concerns one shard. -/
theorem step_inShard {move : Move β} (single : move.isSingle = true)
    (alone : sharding.shutdowns = []) (k : Nat) :
    (sharding.step move).shutdowns = [] ∧
      (sharding.step move).shards[k]? = (sharding.shards[k]?).map
        (·.course (move.inShard? sharding.shards.length k).toList) := by
  have acts (place : Nat) (move : JoinableExecutor.Move β) :
      sharding.act place move = sharding.modify place (·.step move) := by
    have free : sharding.isFreeInside place = true := by simp [isFreeInside, alone]
    have permits : sharding.permits place move = true := by
      unfold permits
      split <;> first | exact free | rfl
    simp [act, permits]
  have shards (place : Nat) (move : JoinableExecutor.Move β) :
      (sharding.act place move).shards[k]? = (sharding.shards[k]?).map
        (·.course (if place = k then some move else none).toList) := by
    rw [acts]
    by_cases own : place = k
    · subst own
      simp [modify, JoinableExecutor.course]
    · simp [modify, own, JoinableExecutor.course]
  cases move with
  | under key move => exact ⟨by rw [step, acts]; exact alone, shards _ move⟩
  | inside place move => exact ⟨by rw [step, acts]; exact alone, shards place move⟩
  | shutDown | proceed => cases single

/-- As long as nobody closes all shards, a shard fares as it would fare alone. -/
theorem course_inShard (sharding : ExecutorSharding β) {schedule : List (Move β)}
    (single : ∀ move ∈ schedule, move.isSingle = true) (alone : sharding.shutdowns = []) (k : Nat) :
    (sharding.course schedule).shards[k]? = (sharding.shards[k]?).map
      (·.course (schedule.filterMap (·.inShard? sharding.shards.length k))) := by
  induction schedule generalizing sharding with
  | nil => simp [course, JoinableExecutor.course]
  | cons move schedule ih =>
    obtain ⟨alone', shards⟩ := step_inShard (single move List.mem_cons_self) alone k
    have rest := ih (sharding.step move)
      (fun other mem => single other (List.mem_cons_of_mem _ mem)) alone'
    calc ((sharding.step move).course schedule).shards[k]?
        = (sharding.shards[k]?).map fun shard =>
            (shard.course (move.inShard? sharding.shards.length k).toList).course
              (schedule.filterMap (·.inShard? sharding.shards.length k)) := by
          rw [rest, shards, (step_turn sharding move).length, Option.map_map]
          rfl
      _ = _ := by
          cases h : move.inShard? sharding.shards.length k <;>
            simp [h, JoinableExecutor.course]

/-! ## Those who close all shards -/

/-- Every shard has a course of its own, and whoever is through with it has told its worker to
stop. -/
structure Settled (sharding : ExecutorSharding β) : Prop where
  founded : ∀ (k : Nat) (shard : JoinableExecutor β), sharding.shards[k]? = some shard →
    ∃ moves, shard = (JoinableExecutor.opened (Pool.shardName k)).course moves
  told : ∀ shutdown ∈ sharding.shutdowns, ∀ k < shutdown.past, ∀ shard : JoinableExecutor β,
    sharding.shards[k]? = some shard → shard.worker.stopping = true

theorem settled_opened (count : Nat) : Settled (opened count : ExecutorSharding β) where
  founded k shard here := by
    have lt : k < max count 1 := by
      obtain ⟨lt, -⟩ := List.getElem?_eq_some_iff.mp here
      rwa [length_opened] at lt
    rw [getElem?_opened lt] at here
    exact ⟨[], (Option.some.inj here).symm⟩
  told := nofun

/-- A worker that was told to stop remembers it. -/
theorem stopping_course {shard : JoinableExecutor β} (told : shard.worker.stopping = true)
    (moves : List (JoinableExecutor.Move β)) : (shard.course moves).worker.stopping = true := by
  obtain ⟨shifts, same⟩ := shard.course_executor moves
  rw [same]
  exact Executor.course_of_shift (P := fun exec => exec.worker.stopping = true)
    (fun h told => h.stopping told) told shifts

theorem Settled.turn (settled : Settled sharding) (h : Turn sharding sharding') :
    Settled sharding' := by
  obtain ⟨founded, told⟩ := settled
  -- which shard stood in a place before
  have before {k : Nat} {shard : JoinableExecutor β} (there : sharding'.shards[k]? = some shard) :
      ∃ old moves, sharding.shards[k]? = some old ∧ shard = old.course moves := by
    obtain ⟨lt, -⟩ := List.getElem?_eq_some_iff.mp there
    rw [h.length] at lt
    obtain ⟨moves, now⟩ := h.shard (List.getElem?_eq_getElem lt)
    exact ⟨_, moves, List.getElem?_eq_getElem lt, Option.some.inj (there.symm.trans now)⟩
  have keeps {shutdown : Shutdown} (mem : shutdown ∈ sharding.shutdowns) {k : Nat}
      (lt : k < shutdown.past) {shard : JoinableExecutor β}
      (there : sharding'.shards[k]? = some shard) : shard.worker.stopping = true := by
    obtain ⟨old, moves, here, rfl⟩ := before there
    exact stopping_course (told shutdown mem k lt old here) moves
  refine ⟨fun k shard there => ?_, ?_⟩
  · obtain ⟨old, moves, here, rfl⟩ := before there
    obtain ⟨earlier, rfl⟩ := founded k old here
    exact ⟨earlier ++ moves, by simp [JoinableExecutor.course]⟩
  cases h with
  | idle | acted => exact fun shutdown mem k lt shard there => keeps mem lt there
  | began number own? =>
    intro shutdown mem k lt shard there
    rcases List.mem_append.mp mem with mem | mem
    · exact keeps mem lt there
    · obtain rfl := List.mem_singleton.mp mem
      exact absurd lt (Nat.not_lt_zero k)
  | entered here place closer? =>
    intro shutdown mem k lt shard there
    rcases List.mem_or_eq_of_mem_set mem with mem | rfl
    · exact keeps mem lt there
    · exact keeps (List.mem_of_getElem? here) lt there
  | @passed i shutdown shard closer here at_shard closes ended =>
    intro other mem k lt shard' there
    rcases List.mem_or_eq_of_mem_set mem with mem | rfl
    · exact keeps mem lt there
    · rcases Nat.lt_succ_iff_lt_or_eq.mp lt with lt | rfl
      · exact keeps (List.mem_of_getElem? here) lt there
      · -- the shard that was closed last
        obtain rfl : shard = shard' := Option.some.inj (at_shard.symm.trans there)
        obtain ⟨moves, rfl⟩ := founded _ shard at_shard
        have knows := (JoinableExecutor.guarded_course _ moves).known closer closes
        have stage : closer.stage = .returned := by
          simpa [JoinableExecutor.Closer.isOver] using ended
        simp only [JoinableExecutor.Closer.Knows, stage] at knows
        exact knows.1

/-- A sharding is settled after every schedule. -/
theorem settled_course (count : Nat) (schedule : List (Move β)) :
    Settled ((opened count : ExecutorSharding β).course schedule) :=
  course_of_turn (fun h settled => settled.turn h) (settled_opened count) schedule

/-- What is known of the executor of the shard that serves a key. -/
theorem executor_shardFor (count : Nat) (schedule : List (Move β)) (key : String) :
    ∃ moves, (((opened count : ExecutorSharding β).course schedule).shardFor key).toExecutor =
      (Executor.opened (Pool.shardName (Pool.shardIndex key count))).course moves := by
  obtain ⟨moves, same⟩ :=
    (settled_course count schedule).founded _ _ (getElem?_shardFor_course count schedule key)
  let alone : JoinableExecutor β := .opened (Pool.shardName (Pool.shardIndex key count))
  obtain ⟨shifts, own⟩ := alone.course_executor moves
  exact ⟨shifts, by rw [same, own]; rfl⟩

theorem sound_shardFor (count : Nat) (schedule : List (Move β)) (key : String) :
    Executor.Sound
      (((opened count : ExecutorSharding β).course schedule).shardFor key).toExecutor := by
  obtain ⟨moves, same⟩ := executor_shardFor count schedule key
  exact same ▸ Executor.sound_course _ moves

theorem name_shardFor (count : Nat) (schedule : List (Move β)) (key : String) :
    (((opened count : ExecutorSharding β).course schedule).shardFor key).worker.name =
      Pool.shardName (Pool.shardIndex key count) := by
  obtain ⟨moves, same⟩ := executor_shardFor count schedule key
  rw [same]
  exact Executor.name_course _ moves

/-- The executor of the shard that serves a key goes through a course of its own. -/
theorem executor_shardFor_course (sharding : ExecutorSharding β) (key : String)
    (later : List (Move β)) :
    ∃ moves, ((sharding.course later).shardFor key).toExecutor =
      (sharding.shardFor key).toExecutor.course moves := by
  obtain ⟨moves, same⟩ := shardFor_course sharding key later
  obtain ⟨shifts, own⟩ := (sharding.shardFor key).course_executor moves
  exact ⟨shifts, by rw [same, own]⟩

/-- As long as nobody closes all shards, the one that serves a key is as one that stands alone. -/
theorem shardFor_alone (count : Nat) {schedule : List (Move β)}
    (single : ∀ move ∈ schedule, move.isSingle = true) (key : String) :
    ((opened count).course schedule).shardFor key =
      (JoinableExecutor.opened (Pool.shardName (Pool.shardIndex key count))).course
        (schedule.filterMap (Move.inShard? count (Pool.shardIndex key count))) := by
  have here := course_inShard (opened count) single rfl (Pool.shardIndex key count)
  rw [getElem?_shardFor_course, getElem?_opened (Pool.shardIndex_lt_max key count), Option.map_some,
    length_opened] at here
  simp only [Move.inShard?_max] at here
  exact Option.some.inj here

/-- Once somebody has closed all shards, the one that serves a key refuses whatever is begun. -/
theorem refusing_shardFor (count : Nat) (schedule later : List (Move β)) {shutdown : Shutdown}
    (mem : shutdown ∈ ((opened count : ExecutorSharding β).course schedule).shutdowns)
    (ended : ((opened count : ExecutorSharding β).course schedule).isOver shutdown = true)
    (key : String) :
    let sharding : ExecutorSharding β := (opened count).course schedule
    Executor.Refusing (Pool.shardName (Pool.shardIndex key count))
      (sharding.shardFor key).invocations.length
      ((sharding.course later).shardFor key).toExecutor := by
  intro sharding
  have serves : sharding.shards[Pool.shardIndex key count]? = some (sharding.shardFor key) :=
    getElem?_shardFor_course count schedule key
  have stopping : (sharding.shardFor key).worker.stopping = true := by
    refine (settled_course count schedule).told shutdown mem _ ?_ _ serves
    obtain ⟨lt, -⟩ := List.getElem?_eq_some_iff.mp serves
    exact Nat.lt_of_lt_of_eq lt (eq_of_beq ended).symm
  have refusing := (sound_shardFor count schedule key).refusing stopping
  rw [name_shardFor] at refusing
  obtain ⟨moves, same⟩ := executor_shardFor_course sharding key later
  rw [same]
  exact Executor.course_of_shift (fun h refusing => refusing.shift h) refusing moves

/-- Isolation of the workers of a pool. For any number of workers, a key always has the same one,
in a place that exists, and keys with the same place have the same one. Whatever is done under
keys, the shard that serves a key is as one that stands alone and in which only that is done which
is done in its place: nothing changes for it when something is done or left out elsewhere, be it
that work is handed over, breaks off or holds the thread, or that the worker is told to stop or
is closed. In this one place jobs are started in the order in which they were accepted, each at
most once, and what was accepted comes before what is begun later. Once somebody has closed all
shards, for the first time or again, every worker refuses all that is begun under any key. -/
theorem shards_are_isolated (count : Nat) (schedule later : List (Move β)) :
    let sharding : ExecutorSharding β := (opened count).course schedule
    let final := sharding.course later
    let place (key : String) := Pool.shardIndex key count
    (∀ key, place key < max count 1 ∧ sharding.pool.shards.length = max count 1 ∧
      sharding.pool.shardFor key = (sharding.shardFor key).worker ∧
      (sharding.shardFor key).worker.name = Pool.shardName (place key)) ∧
    (∀ key key', place key = place key' → sharding.shardFor key = sharding.shardFor key') ∧
    ((∀ move ∈ schedule, move.isSingle = true) → ∀ key,
      sharding.shardFor key = (JoinableExecutor.opened (Pool.shardName (place key))).course
        (schedule.filterMap (Move.inShard? count (place key))) ∧
      ∀ other : List (Move β), (∀ move ∈ other, move.isSingle = true) →
        other.filterMap (Move.inShard? count (place key)) =
          schedule.filterMap (Move.inShard? count (place key)) →
        ((opened count).course other).shardFor key = sharding.shardFor key) ∧
    (∀ key, ((sharding.shardFor key).started <+: (sharding.shardFor key).accepted ∧
        (sharding.shardFor key).started.Nodup) ∧
      ∀ first ∈ (sharding.shardFor key).accepted, ∀ second ∈ (final.shardFor key).started,
        (sharding.shardFor key).invocations.length ≤ second.invocation →
        [first, second] <+ (final.shardFor key).started) ∧
    (∀ shutdown ∈ sharding.shutdowns, sharding.isOver shutdown = true → ∀ key,
      (final.shardFor key).worker.stopping = true ∧
      (∀ job ∈ (final.shardFor key).accepted,
        job.invocation < (sharding.shardFor key).invocations.length) ∧
      (∀ (i : Nat) (invocation : Executor.Invocation),
        (sharding.shardFor key).invocations.length ≤ i →
        (final.shardFor key).invocations[i]? = some invocation →
        invocation.stage = .checking false ∨
          invocation.stage = .returned (some (.shutDown (Pool.shardName (place key))))) ∧
      ∀ (i : Nat) (invocation : Executor.Invocation) (second : Bool),
        (final.shardFor key).invocations[i]? = some invocation →
        invocation.stage = .checking second →
        ((final.step (.under key (.work (.proceed i)))).shardFor key).invocations[i]? =
          some { invocation with
            stage := .returned (some (.shutDown (Pool.shardName (place key)))) }) := by
  intro sharding final place
  have sound (key : String) : Executor.Sound (sharding.shardFor key).toExecutor :=
    sound_shardFor count schedule key
  have started_first (key : String) :
      (sharding.shardFor key).started <+: (sharding.shardFor key).accepted :=
    (List.prefix_append _ _).trans (sound key).line.before
  refine ⟨fun key => ⟨Pool.shardIndex_lt_max key count, ?_, ?_, name_shardFor count schedule key⟩,
    fun key key' same => ?_, fun single key => ⟨shardFor_alone count single key, ?_⟩,
    fun key => ⟨⟨started_first key, ?_⟩, ?_⟩, fun shutdown mem ended key => ?_⟩
  · rw [pool, List.length_map, length_course, length_opened]
  · simp [Pool.shardFor, pool, shardFor]
  · have here := getElem?_shardFor_course count schedule key
    rw [show Pool.shardIndex key count = Pool.shardIndex key' count from same,
      getElem?_shardFor_course] at here
    exact (Option.some.inj here).symm
  · intro other single' same
    rw [shardFor_alone count single' key, same]
    exact (shardFor_alone count single key).symm
  · exact (sound key).once.sublist (started_first key).sublist
  · intro first accepted second started begun
    obtain ⟨moves, same⟩ := executor_shardFor_course sharding key later
    rw [same] at started ⊢
    exact Executor.started_before (sound key)
      (Executor.course_of_shift (fun h sound => sound.shift h) (sound key) moves).line
      accepted begun started
  · have refusing := refusing_shardFor count schedule later mem ended key
    refine ⟨refusing.stopping, refusing.earlier, refusing.later,
      fun i invocation second here checking => ?_⟩
    have refused := Executor.invocation_refused refusing.stopping here checking
    rw [refusing.named] at refused
    rw [shardFor_under rfl]
    exact refused

/-- A pool of two workers is closed twice, by a thread and then in a job on one of its own
threads, while a job waits that is dropped. -/
example :
    let job : Executor.Job := ⟨0, .execute, false⟩
    let sharding := (opened 2 : ExecutorSharding Unit).course
      [.inside 1 (.work (.invoke (.thread 0) .execute)), .inside 1 (.work (.proceed 0)),
        .inside 1 (.work (.proceed 0)), .inside 1 (.work .look), .inside 1 (.work .pick),
        .shutDown 7 (some (1, .job job)),
        .shutDown 3 none, .proceed 1, .proceed 1, .proceed 1, .proceed 1,
        .inside 0 (.work .look), .proceed 1, .proceed 1,
        .proceed 0, .proceed 0, .proceed 0, .proceed 0, .proceed 0,
        .proceed 0, .proceed 0, .proceed 0, .proceed 0,
        .inside 1 (.work (.finish false)), .inside 1 (.work .look),
        .proceed 1, .proceed 1, .proceed 1, .proceed 1, .proceed 1, .proceed 1]
    sharding.shutdowns.map sharding.isOver = [true, true] := by
  decide

end ExecutorSharding

end Tenure
