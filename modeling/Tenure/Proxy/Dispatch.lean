import Tenure.Executor.Worker
import Tenure.Proxy.Party

/-!
# An asynchronous call among its executors

An asynchronous call takes a term, has its token checked, and hands two pieces of work to its
shard: the operation, and the reconciliation, which awaits what the operation and the checks come
to. Each attempt at a check is a piece of work on the same shard, handed over by a run that the
scheduler carries on. The shard and the scheduler can be told to stop at any moment. Work is
refused from then on, and what they still have is dropped; whoever awaits a piece that was dropped
is told of its loss.

The steps of the reconciliation from what it has heard to where it waits again are taken without
a pause: the thread of the shard does nothing else meanwhile, so it cannot end in between. Others
may do anything to the proxy at any moment, except that a closed one is never opened again.

## Main definitions

* `Dispatch` — a call with its shard and the run of its checks; `Dispatch.Progress` — how far it
  has come
* `Dispatch.Move`, `Dispatch.step` — one move; `Dispatch.course` — what a schedule leads to
* `Dispatch.Effect` — what a call does to the proxy
-/

namespace Tenure

variable {α : Type}

namespace Dispatch

/-- A piece of work on a shard. -/
inductive Piece
  | operation
  | reconciliation
  /-- An attempt at a check. -/
  | attempt
  /-- Work that has nothing to do with the call. -/
  | other (number : Nat)
  deriving DecidableEq, Repr

/-- How far the making of a call has come. -/
inductive Stage
  /-- It looks for a term, and starts the checks once it has one. -/
  | entering
  /-- Before the check of the shard's flag, for its operation or its reconciliation. -/
  | checking (piece : Piece)
  /-- The check was passed; the piece is handed over next. -/
  | sending (piece : Piece)
  /-- The caller has been given something to await. -/
  | returned
  deriving DecidableEq, Repr

/-- What a call does to the proxy. -/
inductive Effect
  | removed (term : Term)
  | released (delegate : Nat)
  /-- The next acquisition was started. -/
  | restarted
  deriving DecidableEq, Repr

/-- How far a call has come, and what it has done on the way. -/
structure Progress (α : Type) where
  stage : Stage := .entering
  call : Call α := .enter
  /-- The term that it has taken. -/
  term : Option Term := none
  /-- The pieces of work that the shard has refused to take from it. -/
  refused : List Piece := []
  /-- What its reconciliation has heard, in this order. -/
  heard : List (Call.Half α) := []
  /-- The moments of the steps that its reconciliation has taken by itself. -/
  moments : List Call.Moment := []
  /-- What it has done to the proxy, in this order. -/
  effects : List Effect := []
  /-- The work that it has handed to the acquisition thread. -/
  queued : List Acquisition := []

end Dispatch

/-- An asynchronous call, `ProxyInner::call_async` with its `ProxyInner::reconcile_async`, with its
shard and the run of its checks, on the grounds of its proxy. -/
structure Dispatch (α : Type) extends Grounds, Dispatch.Progress α where
  shard : Worker Dispatch.Piece Dispatch.Piece
  schedulerStopped : Bool := false
  /-- What the operation has come to. -/
  outcome : Option (Outcome α) := none
  validation : Option Validation := none
  /-- Whether the next attempt has passed the check of the shard's flag. -/
  isCleared : Bool := false
  /-- The pieces of work that broke off, or that the shard has dropped. -/
  lost : List Dispatch.Piece := []

namespace Dispatch

/-- What has been done to the proxy between two moments. -/
def Effect.between (grounds left : Grounds) : List Effect :=
  (match grounds.register.current with
    | some term => if left.register.current = some term then [] else [removed term]
    | none => []) ++ (left.released.drop grounds.released.length).map released

/-- What a step of a call has done to the proxy. What an acquisition does that the call has
started, it does on its own account. -/
def Effect.of (call next : Call α) (grounds left : Grounds) : List Effect :=
  match call, next with
  | .acquiring .., _ => []
  | _, .acquiring .. => between grounds left ++ [restarted]
  | _, _ => between grounds left

/-- A call that waits, and whose reconciliation has been dropped. -/
def forsake (failure : ExecutorFailure) : Call α → Call α
  | .underway _ | .operated .. | .confirmed _ => .finished (.error (.executor failure))
  | call => call

/-- One move. -/
inductive Move (α : Type)
  /-- The call takes its next step, and is answered so. -/
  | proceed (answers : Answers)
  /-- The reconciliation hears what the operation, or the checks, have come to. -/
  | hearOperation
  | hearChecks
  /-- The thread of the shard looks whether it should stop. -/
  | look
  /-- It takes the next piece of work. -/
  | pick
  /-- The beginning of a piece of work is over, and it breaks off or goes on as a task. -/
  | finish (breaks : Bool)
  /-- The operation comes to its end. -/
  | operate (outcome : Outcome α)
  /-- The attempt at a check comes to its end. -/
  | answer (delivery : Run.Delivery LeadingStatus ElectionFailure)
  /-- The run of checks looks at the shard's flag before it hands over the next attempt. -/
  | clear
  /-- It hands the attempt over. -/
  | attempt
  /-- The delay between two attempts is over. -/
  | wake
  /-- A scheduler that was stopped drops the run of checks. -/
  | callOff
  /-- Others hand work to the shard. -/
  | enqueue (number : Nat)
  | stopShard
  | stopScheduler
  /-- Others have done something to the proxy. -/
  | meddle (grounds : Grounds)

/-- Whether a move is a step of the call itself. -/
def Move.isOwn : Move α → Bool
  | proceed _ => true
  | _ => false

/-- A call that is about to be made, with a shard that has just been started. -/
def start (profile : Profile) : Dispatch α := { shard := { name := profile.shard } }

/-- Whether the reconciliation is on its way from what it has heard to where it waits again. -/
def isBusy (dispatch : Dispatch α) : Bool :=
  dispatch.stage == .returned && !dispatch.call.isWaiting && dispatch.call.result?.isNone

/-- Whether a task on the thread of the shard can go on. -/
def isFree (dispatch : Dispatch α) (piece : Piece) : Bool :=
  dispatch.shard.phase == .ready && dispatch.shard.tasks.contains piece && !dispatch.isBusy

/-- Takes the task of a reconciliation away that is over. -/
def conclude (dispatch : Dispatch α) : Dispatch α :=
  if dispatch.call.result?.isSome then
    { dispatch with shard := dispatch.shard.settle (· == Piece.reconciliation) }
  else dispatch

/-- The call takes its next step. -/
def takeStep (profile : Profile) (answers : Answers) (dispatch : Dispatch α) : Dispatch α :=
  let (call, grounds, task) :=
    dispatch.call.proceed (profile.setting .async) dispatch.toGrounds answers
  { dispatch with
    toGrounds := grounds
    call
    effects := dispatch.effects ++ Effect.of dispatch.call call dispatch.toGrounds grounds
    queued := dispatch.queued ++ task.toList }

/-- The shard refuses a piece of work. A call whose operation is refused calls its checks off, as
`ProxyInner::call_async` does. -/
def refuse (piece : Piece) (dispatch : Dispatch α) : Dispatch α :=
  { dispatch with
    stage := .returned
    call := dispatch.call.begun dispatch.shard.refusal
    validation :=
      if piece = .operation then dispatch.validation.map Run.cancel else dispatch.validation
    refused := dispatch.refused ++ [piece] }

/-- The shard has taken a piece of work of the call. -/
def accepted (piece : Piece) (dispatch : Dispatch α) : Dispatch α :=
  if piece = .operation then { dispatch with stage := .checking .reconciliation }
  else { dispatch with stage := .returned, call := dispatch.call.begun none }

/-- The next step of the call. Where it waits, or is over, there is none. A scheduler that was
stopped drops a run at once. This is `ProxyInner::call_async` until it has returned, and
`ProxyInner::reconcile_async` from then on. -/
def proceed (profile : Profile) (answers : Answers) (dispatch : Dispatch α) : Dispatch α :=
  match dispatch.stage with
  | .entering =>
    match dispatch.call with
    | .begin _ =>
      -- the checks are under way before the operation is handed over
      { dispatch with
        stage := .checking .operation
        validation := some (if dispatch.schedulerStopped then Run.start.cancel else .start) }
    | .take | .takeAgain _ =>
      let next := dispatch.takeStep profile answers
      { next with
        stage := if next.call.result?.isSome then .returned else .entering
        term := dispatch.register.current }
    | _ =>
      let next := dispatch.takeStep profile answers
      { next with stage := if next.call.result?.isSome then .returned else .entering }
  | .checking piece =>
    if dispatch.shard.admits then { dispatch with stage := .sending piece }
    else dispatch.refuse piece
  | .sending piece =>
    match dispatch.shard.accept piece with
    | some shard => { dispatch with shard }.accepted piece
    | none => dispatch.refuse piece
  | .returned =>
    if dispatch.isBusy then
      let moments := dispatch.moments ++ [⟨dispatch.toGrounds, answers⟩]
      { dispatch.takeStep profile answers with moments }.conclude
    else dispatch

/-- The reconciliation hears of one half. If the operation has failed, it calls the checks off, as
`ProxyInner::reconcile_async` does. -/
def hear (profile : Profile) (half : Call.Half α) (dispatch : Dispatch α) : Dispatch α :=
  let (call, notices) := dispatch.call.hear (profile.setting .async) half
  { dispatch with
    toGrounds := dispatch.report notices
    call
    validation :=
      match half with
      | .operation (.value _) | .checks _ => dispatch.validation
      | .operation _ => dispatch.validation.map Run.cancel
    heard := dispatch.heard ++ [half] }.conclude

/-- The run of checks takes in what has come of its attempt. -/
def deliver (profile : Profile) (delivery : Run.Delivery LeadingStatus ElectionFailure)
    (dispatch : Dispatch α) : Dispatch α :=
  match dispatch.validation with
  | some run =>
    let (run, notices) := run.receive (statusRetrier profile.budget) profile.shard delivery
    { dispatch with toGrounds := dispatch.report notices, validation := some run }
  | none => dispatch

/-- Pieces of work are lost, and whoever awaits them is told. What an operation has come to before
stays as it is. -/
def lose (profile : Profile) (pieces : List Piece) (dispatch : Dispatch α) : Dispatch α :=
  let told := if .attempt ∈ pieces then dispatch.deliver profile .lost else dispatch
  { told with
    outcome := if .operation ∈ pieces then told.outcome.or (some .lost) else told.outcome
    call := if .reconciliation ∈ pieces then forsake told.shard.loss told.call else told.call
    lost := told.lost ++ pieces }

/-- The look of the thread whether it should stop; a thread that ends drops all it has. -/
def look (profile : Profile) (dispatch : Dispatch α) : Dispatch α :=
  let next := { dispatch with shard := dispatch.shard.look }
  if dispatch.shard.phase = .ready ∧ dispatch.shard.stopping = true then
    -- what waits in the queue is lost with what has gone on as a task
    next.lose profile (dispatch.shard.queue ++ dispatch.shard.tasks)
  else next

/-- The beginning of a piece of work is over. A reconciliation only leaves its task. -/
def finish (profile : Profile) (piece : Piece) (breaks : Bool) (dispatch : Dispatch α) :
    Dispatch α :=
  let next := { dispatch with shard := dispatch.shard.finish }
  if breaks && piece != .reconciliation then
    { next with toGrounds := next.report [.jobBroke next.shard.name] }.lose profile [piece]
  else { next with shard := next.shard.begin piece }

/-- The dispatch after a move. A move that cannot be made changes nothing; while the reconciliation
is on its way, the thread of the shard does nothing else. -/
def step (profile : Profile) (dispatch : Dispatch α) : Move α → Dispatch α
  | .proceed answers => dispatch.proceed profile answers
  | .hearOperation =>
    match dispatch.outcome, dispatch.call with
    | some outcome, .underway _ | some outcome, .confirmed _ =>
      if dispatch.isFree .reconciliation then dispatch.hear profile (.operation outcome)
      else dispatch
    | _, _ => dispatch
  | .hearChecks =>
    match dispatch.validation.bind Run.result?, dispatch.call with
    | some result, .underway _ | some result, .operated .. =>
      if dispatch.isFree .reconciliation then dispatch.hear profile (.checks result)
      else dispatch
    | _, _ => dispatch
  | .look => if dispatch.isBusy then dispatch else dispatch.look profile
  | .pick =>
    if dispatch.isBusy then dispatch else { dispatch with shard := dispatch.shard.pick }
  | .finish breaks =>
    match dispatch.shard.job? with
    | some piece => dispatch.finish profile piece breaks
    | none => dispatch
  | .operate outcome =>
    if dispatch.isFree .operation then
      { dispatch with
        outcome := dispatch.outcome.or (some outcome)
        shard := dispatch.shard.settle (· == Piece.operation) }
    else dispatch
  | .answer delivery =>
    if dispatch.isFree .attempt then
      { dispatch with shard := dispatch.shard.settle (· == Piece.attempt) }.deliver profile delivery
    else dispatch
  | .clear =>
    match dispatch.validation, dispatch.isCleared with
    | some (.submitting attempt), false =>
      if dispatch.shard.admits then { dispatch with isCleared := true }
      else
        { dispatch with
          validation := some (Run.handOver (.submitting attempt) dispatch.shard.refusal) }
    | _, _ => dispatch
  | .attempt =>
    match dispatch.validation, dispatch.isCleared with
    | some (.submitting attempt), true =>
      -- the thread may have ended since the check of the flag
      match dispatch.shard.accept Piece.attempt with
      | some shard =>
        { dispatch with
          shard
          validation := some (Run.handOver (.submitting attempt) none)
          isCleared := false }
      | none =>
        { dispatch with
          validation := some (Run.handOver (.submitting attempt) dispatch.shard.refusal)
          isCleared := false }
    | _, _ => dispatch
  | .wake => { dispatch with validation := dispatch.validation.map Run.wake }
  | .callOff =>
    if dispatch.schedulerStopped then
      { dispatch with validation := dispatch.validation.map Run.cancel }
    else dispatch
  | .enqueue number =>
    match dispatch.shard.accept (.other number) with
    | some shard => { dispatch with shard }
    | none => dispatch
  | .stopShard => { dispatch with shard := dispatch.shard.stop }
  | .stopScheduler => { dispatch with schedulerStopped := true }
  | .meddle grounds =>
    if dispatch.register.closed && !grounds.register.closed then dispatch
    else { dispatch with toGrounds := grounds }

/-- What the moves of a schedule lead to. -/
def course (profile : Profile) (dispatch : Dispatch α) (schedule : List (Move α)) : Dispatch α :=
  schedule.foldl (step profile) dispatch

end Dispatch

end Tenure
