import Tenure.Proxy.Party

/-!
# All that goes on at a proxy

A proxy begins to acquire leadership when it is made. From then on calls and closings may come
at any moment, and any party may be the next to proceed: a schedule is an endless list of such
moves, with the answers that the surroundings give. Every order in which the steps of the
parties can come, and every behaviour of the election, the factory, the delegates and the
executors, is that of some schedule.

## Main definitions

* `Proxy` — the grounds and the parties of a proxy
* `Proxy.step` — one move; `Proxy.after` — what a schedule has led to
* `Proxy.script` — a schedule that makes some given moves
-/

namespace Tenure

/-- A proxy, `LeadershipProxy` with its `ProxyInner`: its grounds, and its parties in the order in
which they came. -/
structure Proxy (α : Type) extends Grounds where
  parties : List (Party α)

namespace Proxy

variable {α : Type}

/-- One move. -/
inductive Move (α : Type)
  /-- A call is made, from where its caller may wait or not. -/
  | call (style : Style) (mayWait : Bool)
  | close
  /-- The party at a place proceeds with these answers. -/
  | proceed (i : Nat) (answers : Answers)
  /-- Something happens around the call at a place. -/
  | undergo (i : Nat) (event : Caller.Event α)
  /-- The acquisition thread, told to stop, drops the acquisition at a place. -/
  | drop (i : Nat)

/-- The place of the party that a move is made by. -/
def Move.mover : Move α → Option Nat
  | proceed i _ | undergo i _ | drop i => some i
  | _ => none

/-- A proxy as `LeadershipProxy::new` makes it, with the acquisition it begins with. -/
def start : Proxy α := { parties := [.acquiring .enter] }

/-- A party joins. -/
def join (proxy : Proxy α) (party : Party α) : Proxy α :=
  { proxy with parties := proxy.parties ++ [party] }

/-- The party at a place has become another one and has left these grounds; work that it handed
to the acquisition thread joins as a party of its own. -/
def settle (proxy : Proxy α) (i : Nat) (became : Party α × Grounds × Option Acquisition) :
    Proxy α where
  toGrounds := became.2.1
  parties := proxy.parties.set i became.1 ++ (became.2.2.map Party.acquiring).toList

/-- The proxy after a move. A move that cannot be made changes nothing. -/
def step (profile : Profile) (proxy : Proxy α) : Move α → Proxy α
  | .call style mayWait => proxy.join (.calling (.make style mayWait))
  | .close => proxy.join (.closing (.shutting .shut))
  | .proceed i answers =>
    match proxy.parties[i]? with
    | none => proxy
    | some party => proxy.settle i (party.proceed profile proxy.toGrounds answers)
  | .undergo i event =>
    match proxy.parties[i]? with
    | some (.calling caller) =>
      let (caller, notices) := caller.undergo profile event
      proxy.settle i (.calling caller, proxy.report notices, none)
    | _ => proxy
  | .drop i =>
    match proxy.parties[i]? with
    | some (.acquiring acquisition) =>
      if proxy.stopped && acquisition.isDroppable then
        proxy.settle i (.acquiring .finished, proxy.toGrounds, none)
      else proxy
    | _ => proxy

/-- The schedule that makes these moves. After them it goes on with a move that changes nothing:
nothing ever happens around the first party, which is no call. -/
def script (moves : List (Move α)) (n : Nat) : Move α := moves.getD n (.undergo 0 .delayOver)

/-- What the first moves of a schedule have led to. -/
def after (profile : Profile) (schedule : Nat → Move α) : Nat → Proxy α
  | 0 => start
  | n + 1 => (after profile schedule n).step profile (schedule n)

end Proxy

end Tenure
