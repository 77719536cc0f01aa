/-!
# A channel that holds the latest value

One side sends values, and any number of readers look at the value that was sent last. A reader who
has seen that one can sleep until the next is sent. Values that were sent while nobody looked are
passed over, all but the last.

How a channel does this is left open: it is known by its operations, and by what its users may rely
on. On top of these stands a wait for a value that is accepted. Nothing happens to a wait before it
is first looked at. Then it gets a reader of its own, who looks at the latest value, whatever there
was before; from then on the reader looks again when there are news, and at no other time.

## Main definitions

* `Channel` — the operations of a channel
* `Channel.Reads`, `Channel.Delivers` — who reads a channel, and what is relied on
* `Channel.Wait`, `Channel.look` — a wait for a value, and what comes of looking at it
* `Channel.numbered` — a channel that numbers the values that are sent
-/

namespace Tenure

/-- A channel for values of a type, by its operations on its state and on its readers. -/
structure Channel (σ ρ α : Type) where
  /-- A new channel, which holds a value. -/
  opened : α → σ
  /-- The value that was sent last, or else the first one. -/
  latest : σ → α
  send : σ → α → σ
  /-- A new reader, to whom all that was sent before is no news. -/
  join : σ → ρ
  /-- Whether something was sent that the reader has not seen. -/
  hasNews : σ → ρ → Bool
  /-- The reader, who has seen the latest value now. -/
  see : σ → ρ → ρ

namespace Channel

variable {σ ρ α : Type}

/-- Somebody reads a channel: he joined it, and has seen a value or not each time one was sent. -/
inductive Reads (channel : Channel σ ρ α) : σ → ρ → Prop
  | join (state : σ) : channel.Reads state (channel.join state)
  | see {state : σ} {reader : ρ} :
    channel.Reads state reader → channel.Reads state (channel.see state reader)
  | send {state : σ} {reader : ρ} (value : α) :
    channel.Reads state reader → channel.Reads (channel.send state value) reader

/-- The channel delivers: it holds what was sent last, and what is sent is news to every reader, be
it the same value once more. -/
structure Delivers (channel : Channel σ ρ α) : Prop where
  latest_opened (value : α) : channel.latest (channel.opened value) = value
  latest_send (state : σ) (value : α) : channel.latest (channel.send state value) = value
  hasNews_send {state : σ} {reader : ρ} (value : α) (reads : channel.Reads state reader) :
    channel.hasNews (channel.send state value) reader = true

/-- A wait for a value, which is not over. -/
inductive Wait (ρ : Type)
  /-- It was made and never looked at. -/
  | made
  /-- It sleeps until its reader has news. -/
  | asleep (reader : ρ)
  deriving DecidableEq, Repr

/-- Whether the wait has been looked at. -/
def Wait.hasBegun : Wait ρ → Bool
  | made => false
  | asleep _ => true

/-- What comes of looking at a wait. -/
inductive Sight (ρ α : Type)
  | ended (value : α)
  | asleep (reader : ρ)
  deriving DecidableEq, Repr

variable (channel : Channel σ ρ α) (accepts : α → Bool)

/-- A reader looks at the latest value, which ends a wait if it is accepted. -/
def inspect (state : σ) (reader : ρ) : Sight ρ α :=
  if accepts (channel.latest state) then .ended (channel.latest state)
  else .asleep (channel.see state reader)

/-- What comes of looking at a wait for a value that is accepted. -/
def look (state : σ) : Wait ρ → Sight ρ α
  | .made => channel.inspect accepts state (channel.join state)
  | .asleep reader =>
    if channel.hasNews state reader then channel.inspect accepts state reader else .asleep reader

/-- A channel that numbers the values that are sent; a reader keeps the number of the last one he
has seen. -/
def numbered (α : Type) : Channel (Nat × α) Nat α where
  opened value := (0, value)
  latest state := state.2
  send state value := (state.1 + 1, value)
  join state := state.1
  hasNews state reader := reader != state.1
  see state _ := state.1

end Channel

end Tenure
