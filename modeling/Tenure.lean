import Tenure.Config
import Tenure.Duration
import Tenure.Election.Channel
import Tenure.Election.Local
import Tenure.Election.Status
import Tenure.Election.StatusRecord
import Tenure.Election.Token
import Tenure.Executor.Joinable
import Tenure.Executor.Pool
import Tenure.Executor.Receipt
import Tenure.Executor.Sharding
import Tenure.Executor.SingleThread
import Tenure.Executor.Worker
import Tenure.Failure
import Tenure.Host
import Tenure.Host.Record
import Tenure.Journal
import Tenure.Journal.Line
import Tenure.Json.Number
import Tenure.Json.Record
import Tenure.Json.Skim
import Tenure.Json.Text
import Tenure.Main
import Tenure.Number.Binary
import Tenure.Proxy.Acquisition
import Tenure.Proxy.Brittle
import Tenure.Proxy.Call
import Tenure.Proxy.Concourse
import Tenure.Proxy.Dispatch
import Tenure.Proxy.Party
import Tenure.Proxy.Trail
import Tenure.Retry.Jitter
import Tenure.Retry.Pursuit
import Tenure.Retry.Run
import Tenure.Scenario.Elections
import Tenure.Scenario.Pools
import Tenure.Scenario.Proxies.Calls
import Tenure.Scenario.Proxies.Making
import Tenure.Scenario.Proxies.Rest
import Tenure.Scenario.Proxies.Steps
import Tenure.Scenario.Proxies.World
import Tenure.Scenario.Retries
import Tenure.Scenario.Terms
import Tenure.Scenario.Tokens
import Tenure.Scenario.Waits
import Tenure.Scenario.Work
import Tenure.Simulation.LockTable
import Tenure.Simulation.Plan
import Tenure.Simulation.Rounds
import Tenure.Term.Course
import Tenure.Term.Ledger
import Tenure.Term.Operation
import Tenure.Term.Register
import Tenure.Term.Traffic
import Tenure.Text.Checksum
import Tenure.Text.Combining
import Tenure.Text.Decimal
import Tenure.Text.Quoted
import Tenure.Text.Unprintable
import Tenure.Proofs.Config.Partial
import Tenure.Proofs.Config.RoundTrip
import Tenure.Proofs.Counters
import Tenure.Proofs.Election.Checks
import Tenure.Proofs.Election.Past
import Tenure.Proofs.Election.Waits
import Tenure.Proofs.Executor.Fifo
import Tenure.Proofs.Executor.Isolation
import Tenure.Proofs.Executor.Joining
import Tenure.Proofs.Executor.Observed
import Tenure.Proofs.Executor.Receipts
import Tenure.Proofs.Executor.Turns
import Tenure.Proofs.Host.Grammar
import Tenure.Proofs.Host.RoundTrip
import Tenure.Proofs.Json.Grammar
import Tenure.Proofs.Json.Records
import Tenure.Proofs.Json.Tokens
import Tenure.Proofs.Json.Values
import Tenure.Proofs.Proxy.Account
import Tenure.Proofs.Proxy.Breaking
import Tenure.Proofs.Proxy.Budget
import Tenure.Proofs.Proxy.Checks
import Tenure.Proofs.Proxy.Coherence
import Tenure.Proofs.Proxy.Company
import Tenure.Proofs.Proxy.Dispatch
import Tenure.Proofs.Proxy.Ending
import Tenure.Proofs.Proxy.Hearing
import Tenure.Proofs.Proxy.Phase
import Tenure.Proofs.Proxy.Placement
import Tenure.Proofs.Proxy.Projection
import Tenure.Proofs.Proxy.Quorum
import Tenure.Proofs.Proxy.Reconciliation
import Tenure.Proofs.Proxy.Resolution
import Tenure.Proofs.Proxy.Script
import Tenure.Proofs.Proxy.Scripted
import Tenure.Proofs.Proxy.Shutdown
import Tenure.Proofs.Proxy.Stride
import Tenure.Proofs.Proxy.Success
import Tenure.Proofs.Proxy.Succession
import Tenure.Proofs.Proxy.Trail
import Tenure.Proofs.Proxy.Trial
import Tenure.Proofs.Retry.Attempts
import Tenure.Proofs.Retry.Ending
import Tenure.Proofs.Retry.Numbers
import Tenure.Proofs.Retry.Observed
import Tenure.Proofs.Retry.Progress
import Tenure.Proofs.Retry.Reference
import Tenure.Proofs.Retry.Standing
import Tenure.Proofs.Scenario.Acquiring
import Tenure.Proofs.Scenario.Calling
import Tenure.Proofs.Scenario.Reference
import Tenure.Proofs.Scenario.Refinement
import Tenure.Proofs.Scenario.Releases
import Tenure.Proofs.Scenario.Scene
import Tenure.Proofs.Simulation.Playing
import Tenure.Proofs.Simulation.Rounds
import Tenure.Proofs.Tally
import Tenure.Proofs.Term.Advance
import Tenure.Proofs.Term.Course
import Tenure.Proofs.Term.Custody
import Tenure.Proofs.Term.Identity
import Tenure.Proofs.Term.Passing
import Tenure.Proofs.Term.Reaches
import Tenure.Proofs.Term.Reentry
import Tenure.Proofs.Term.Release
import Tenure.Proofs.Term.SharedRegister
import Tenure.Proofs.Term.Traffic
import Tenure.Proofs.Term.Visibility
import Tenure.Proofs.Text.Decimal
