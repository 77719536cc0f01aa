import Tenure.Host

/-!
# What can go wrong

Each kind of failure is a type of causes, and the words a reader sees are a function of the
cause. An election can fail to answer; an executor can refuse or lose work; a run of repeated
attempts can fail at its last attempt, for want of an executor, or because it was called off; a
caller can be told that this process does not lead; and a call through a proxy can fail in any
of these ways or because the delegate itself failed.

## Main definitions

* `ElectionFailure`, `ExecutorFailure`, `RetryFailure` — failures of the collaborators
* `NotCurrentLeader` — the caller's claim to leadership is gone
* `FailureKind` — what a delegate's failure says about leadership
* `DelegateFailure` — a failure of the delegate
* `CallFailure` — how a call through a proxy can fail
-/

namespace Tenure

/-- A failure of an election to answer, `ElectionError`. -/
inductive ElectionFailure
  /-- The wait for leadership was interrupted. -/
  | interrupted
  /-- The peers could not be reached. -/
  | unavailable (detail : String)
  | other (detail : String)
  deriving DecidableEq, Repr

/-- What a reader is told. -/
def ElectionFailure.message : ElectionFailure → String
  | interrupted => "interrupted while waiting for leadership"
  | unavailable detail => "election service unavailable: " ++ detail
  | other detail => "election error: " ++ detail

/-- A failure of an executor, `ExecutorError`. -/
inductive ExecutorFailure
  /-- The executor takes no more work. -/
  | shutDown (name : String)
  /-- The work was accepted, and dropped before it was complete. -/
  | taskLost (name : String)
  /-- Waiting here would block the only thread that could end the wait. -/
  | wouldBlock (name : String)
  /-- The executor's thread could not be started. -/
  | notStarted (name reason : String)
  deriving DecidableEq, Repr

/-- What a reader is told. -/
def ExecutorFailure.message : ExecutorFailure → String
  | shutDown name => "executor " ++ name ++ " is shut down"
  | taskLost name => "task on executor " ++ name ++ " was dropped before completing"
  | wouldBlock name => "cannot block on " ++ name ++ " from a current-thread async runtime"
  | notStarted name reason => "failed to start executor " ++ name ++ ": " ++ reason

/-- How a run of repeated attempts can fail, `RetryError`. -/
inductive RetryFailure (ε : Type)
  /-- The last attempt of the budget failed. -/
  | attempt (failure : ε)
  /-- The executor refused or lost an attempt. -/
  | executor (failure : ExecutorFailure)
  /-- The run was called off. -/
  | cancelled
  deriving DecidableEq, Repr

/-- What a reader is told, given what to say of a failed attempt. -/
def RetryFailure.message {ε : Type} (say : ε → String) : RetryFailure ε → String
  | attempt failure => "last attempt failed: " ++ say failure
  | executor failure => failure.message
  | cancelled => "retry cancelled"

/-- The caller's claim to leadership is gone: why, who may be leading instead, and what brought
it to light. -/
structure NotCurrentLeader where
  reason : String
  hint : Option HostAndPort := none
  cause : Option String := none
  deriving DecidableEq, Repr

/-- What a reader is told; the cause is not part of it. -/
def NotCurrentLeader.message (failure : NotCurrentLeader) : String :=
  "not current leader: " ++ failure.reason ++ ", leader hint: "
    ++ HostAndPort.quotedOption failure.hint

/-- What a delegate's failure says about leadership. -/
inductive FailureKind
  /-- The delegate is not authoritative: the term is over. -/
  | notLeading
  /-- The operation was interrupted, which the end of a term may have caused. -/
  | interrupted
  /-- A failure that has nothing to do with leadership. -/
  | other
  deriving DecidableEq, Repr

/-- The name of a kind. -/
def FailureKind.quoted : FailureKind → String
  | notLeading => "NotLeading"
  | interrupted => "Interrupted"
  | other => "Other"

/-- A failure of the delegate, of a type that implements `ClassifyFailure`. -/
inductive DelegateFailure
  /-- A failure that says nothing about leadership. -/
  | plain (text : String)
  /-- A failure that the service itself has classified. -/
  | classified (kind : FailureKind) (text : String)
  /-- A failure of input or output, interrupted or of another kind. -/
  | io (interrupted : Bool) (text : String)
  /-- The delegate was told that it does not lead. -/
  | leader (failure : NotCurrentLeader)
  deriving DecidableEq, Repr

namespace DelegateFailure

/-- What the failure says about leadership, `ClassifyFailure::failure_kind`. -/
def kind : DelegateFailure → FailureKind
  | plain _ => .other
  | classified kind _ => kind
  | io true _ => .interrupted
  | io false _ => .other
  | leader _ => .notLeading

/-- What a reader is told. -/
def message : DelegateFailure → String
  | plain text => text
  | classified _ text => text
  | io _ text => text
  | leader failure => failure.message

end DelegateFailure

/-- How a call through a proxy can fail, `ProxyError`. -/
inductive CallFailure
  | notLeader (failure : NotCurrentLeader)
  /-- The proxy for this client has been closed. -/
  | closed (client : String)
  /-- The delegate's own failure, passed on as it came. -/
  | delegate (failure : DelegateFailure)
  | executor (failure : ExecutorFailure)
  deriving DecidableEq, Repr

namespace CallFailure

/-- What a reader is told. -/
def message : CallFailure → String
  | notLeader failure => failure.message
  | closed client => "leadership proxy for client " ++ client ++ " is closed"
  | delegate failure => "delegate error: " ++ failure.message
  | executor failure => failure.message

/-- Whether the call may succeed if it is made again, here or elsewhere: `ProxyError::is_retryable`.
-/
def isRetryable : CallFailure → Bool
  | notLeader _ => true
  | _ => false

end CallFailure

end Tenure
