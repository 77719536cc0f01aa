import Tenure.Config
import Tenure.Text.Decimal
import Tenure.Text.Quoted

/-!
# What a simulation is told

A simulation is told its client, the configuration of its proxy and how many rounds it plays,
each of them by a text that may be missing. The client that is told by itself goes before the
one in the configuration. A configuration that cannot be read is found out first, then a number
of rounds that is none.

## Main definitions

* `Simulation.Settings` — the texts
* `Simulation.Plan`, `Simulation.Settings.plan` — what they say
* `Simulation.SettingsFault` — what can be wrong with them
-/

namespace Tenure.Simulation

/-- The texts that a simulation is told. -/
structure Settings where
  client : Option String := none
  config : Option String := none
  rounds : Option String := none
  deriving DecidableEq, Repr

/-- What a simulation goes by. -/
structure Plan where
  config : Config
  rounds : UInt32
  deriving DecidableEq, Repr

/-- What can be wrong with the texts. -/
inductive SettingsFault
  | config (fault : Json.Fault)
  | rounds (fault : Text.NumberFault)
  deriving DecidableEq, Repr

/-- What is printed of it at the end. What the reader of the configuration says is left open. -/
def SettingsFault.printed? : SettingsFault → Option String
  | config _ => none
  | rounds fault =>
    some ("Error: " ++ Text.quoted ("LEADER_PROXY_ROUNDS must be a valid u32: " ++ fault.message))

namespace Settings

/-- The configuration of the proxy. -/
def proxyConfig (settings : Settings) : Except Json.Fault Config := do
  let config ← match settings.config with
    | some text => Config.ofJson text.toList
    | none => .ok (Config.forClient "timelock")
  return match settings.client with
    | some client => { config with client }
    | none => config

/-- How many rounds are played: three, unless another number is told. -/
def roundCount (settings : Settings) : Except Text.NumberFault UInt32 :=
  (Text.readBelow UInt32.size (settings.rounds.getD "3").toList).map UInt32.ofNat

/-- What the texts say, or the first thing that is wrong with them. -/
def plan (settings : Settings) : Except SettingsFault Plan :=
  match settings.proxyConfig, settings.roundCount with
  | .error fault, _ => .error (.config fault)
  | .ok _, .error fault => .error (.rounds fault)
  | .ok config, .ok rounds => .ok ⟨config, rounds⟩

end Settings

end Tenure.Simulation
