import Tenure.Failure

/-!
# The journal

What the library reports while it works. A notice is a fact; its record is the form in which
the fact is kept: a level, a sentence, and named values in text.

## Main definitions

* `Notice` — the facts that are reported
* `Record` — the kept form, `Notice.record` the way from one to the other
-/

namespace Tenure

/-- How much a record matters. -/
inductive Level
  | error
  | warn
  | info
  | debug
  deriving DecidableEq, Repr

/-- The name of a level. -/
def Level.name : Level → String
  | error => "ERROR"
  | warn => "WARN"
  | info => "INFO"
  | debug => "DEBUG"

/-- A fact as it is kept. -/
structure Record where
  level : Level
  message : String
  fields : List (String × String)
  deriving DecidableEq, Repr

/-- A fact that is reported. -/
inductive Notice
  /-- A term was published for a client. -/
  | gained (client : String) (term generation : Nat)
  /-- A call found that a term is over. -/
  | lost (client : String) (term generation : Nat) (cause : Option String)
  /-- A delegate could not be built; attempts count from one. -/
  | notBuilt (client : String) (term : Nat) (attempt : UInt32) (failure : String)
  /-- The wait for leadership was interrupted. -/
  | waitInterrupted (client : String)
  /-- The wait for leadership failed in another way. -/
  | waitFailed (client : String) (failure : ElectionFailure)
  /-- The last check of a budget failed, which is taken for a no. -/
  | checkFailed (client : String) (failure : ElectionFailure)
  /-- The acquisition thread refused work although the proxy is open. -/
  | notHandedOver (client : String) (failure : ExecutorFailure)
  /-- A delegate could not be released cleanly. -/
  | notReleased (term : Nat) (failure : String)
  /-- A published term took the place of one that nobody had ended. -/
  | replaced (term generation : Nat)
  /-- A job did not return. -/
  | jobBroke (executor : String)
  /-- An attempt settled nothing and is made again. -/
  | inconclusive (attempt limit : UInt32)
  /-- An attempt failed and is made again. -/
  | attemptFailed (attempt limit : UInt32)
  deriving DecidableEq, Repr

namespace Notice

/-- The record of a notice. -/
def record : Notice → Record
  | gained client term generation =>
    ⟨.info, "Gained leadership",
      [("client", client), ("term", toString term), ("generation", toString generation)]⟩
  | lost client term generation cause =>
    ⟨.warn, "Lost leadership",
      [("client", client), ("term", toString term), ("generation", toString generation),
        ("cause", Text.quotedOption cause)]⟩
  | notBuilt client term attempt failure =>
    ⟨.error, "Problem creating delegate: " ++ failure,
      [("client", client), ("term", toString term), ("attempt", toString attempt)]⟩
  | waitInterrupted client =>
    ⟨.warn, "Attempt to gain leadership interrupted", [("client", client)]⟩
  | waitFailed client failure =>
    ⟨.error, "Problem blocking on leadership: " ++ failure.message, [("client", client)]⟩
  | checkFailed client failure =>
    ⟨.warn, "Leadership check kept failing, assuming not leading: " ++ failure.message,
      [("client", client)]⟩
  | notHandedOver client failure =>
    ⟨.error, "Failed to submit acquisition task but proxy not closed: " ++ failure.message,
      [("client", client)]⟩
  | notReleased term failure =>
    ⟨.warn, "Problem closing delegate: " ++ failure, [("term", toString term)]⟩
  | replaced term generation =>
    ⟨.warn, "Replacing a term that was never invalidated",
      [("term", toString term), ("generation", toString generation)]⟩
  | jobBroke executor => ⟨.error, "Job panicked", [("executor", executor)]⟩
  | inconclusive attempt limit =>
    ⟨.debug, "Inconclusive attempt, retrying",
      [("attempt", toString attempt), ("max_attempts", toString limit)]⟩
  | attemptFailed attempt limit =>
    ⟨.debug, "Attempt failed, retrying",
      [("attempt", toString attempt), ("max_attempts", toString limit)]⟩

/-- The client a notice is about, if it names one. -/
def client? : Notice → Option String
  | gained client _ _ | lost client _ _ _ | notBuilt client _ _ _ | waitInterrupted client
  | waitFailed client _ | checkFailed client _ | notHandedOver client _ => some client
  | _ => none

end Notice

end Tenure
