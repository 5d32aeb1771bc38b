import Rollout.Duration
import Rollout.Address.Ip
import Rollout.Address.Multiaddr
import Rollout.Container.Identity
import Rollout.Container.Ports
import Rollout.Files.Path
import Rollout.Files.Tree
import Rollout.Keys.Keystore
import Rollout.Keys.Layout
import Rollout.Failure
import Rollout.Remote.Execution
import Rollout.Container.Introspection
import Rollout.Remote.Ssh
import Rollout.Compose
import Rollout.Deployment.Fleet
import Rollout.Remote.Script
import Rollout.Configuration.Readiness
import Rollout.Deployment.Inventory
import Rollout.Version
import Rollout.Yaml.Cursor
import Rollout.Yaml.Token
import Rollout.Yaml.Block
import Rollout.Yaml.Plain
import Rollout.Yaml.Quoted
import Rollout.Yaml.Property
import Rollout.Yaml.Scan
import Rollout.Text.Decimal
import Rollout.Yaml.Event
import Rollout.Yaml.Node
import Rollout.Yaml.Value
import Rollout.Json.Reader
import Rollout.Report
import Rollout.Toml.Quoted
import Rollout.Toml.DateTime
import Rollout.Toml.Number
import Rollout.Toml.Reader
import Rollout.Configuration.Plan
import Rollout.Configuration.Reader
import Rollout.Remote.Transcript
import Rollout.CommandLine.Command
import Rollout.CommandLine.Run
import Rollout.CommandLine.Inputs
import Rollout.Main
import Rollout.Proofs.Deployment.Accounting
import Rollout.Proofs.Deployment.Host
import Rollout.Proofs.Deployment.Isolation
import Rollout.Proofs.Deployment.Keypairs
import Rollout.Proofs.Deployment.Phase
import Rollout.Proofs.Deployment.Procedure
import Rollout.Proofs.Deployment.Reading
import Rollout.Proofs.Deployment.Run
import Rollout.Proofs.Deployment.TwoPhases
import Rollout.Proofs.Keys.Layout
import Rollout.Proofs.Keys.Exact
import Rollout.Proofs.Remote.Alone
import Rollout.Proofs.Remote.Barrier
import Rollout.Proofs.Remote.Calls
import Rollout.Proofs.Remote.Exchange
import Rollout.Proofs.Remote.Execution
import Rollout.Proofs.Remote.Interleaving
import Rollout.Proofs.Remote.Locality
import Rollout.Proofs.Remote.Script
import Rollout.Proofs.Remote.Sequence
import Rollout.Proofs.Deployment.Canonical
import Rollout.Proofs.Deployment.Staging
import Rollout.Proofs.Configuration.Plan
import Rollout.Proofs.Remote.Failures
import Rollout.Proofs.Remote.Modes
import Rollout.Proofs.Deployment.FromCalls
import Rollout.Proofs.Deployment.Secrecy
import Rollout.Proofs.Deployment.Policies
import Rollout.Proofs.Deployment.FleetPolicy
import Rollout.Proofs.Remote.Stopping
import Rollout.Proofs.Deployment.Culprit
import Rollout.Proofs.Deployment.IdentityPolicy
import Rollout.Proofs.Container.Output
import Rollout.Proofs.Deployment.Resolved
import Rollout.Proofs.Configuration.Accepted
import Rollout.Proofs.Json.RoundTrip
import Rollout.Proofs.Shell.Reader
import Rollout.Proofs.Shell.Quoting
import Rollout.Proofs.Report.Export
import Rollout.Proofs.Deployment.Commands
import Rollout.Proofs.Address.Written
import Rollout.Proofs.Address.RoundTrip
import Rollout.Proofs.Address.Endpoint
import Rollout.Proofs.Report.Printed
import Rollout.Proofs.Text.Search
import Rollout.Proofs.Text.ControlSequence
import Rollout.Proofs.Container.Identity
import Rollout.Proofs.Container.Polling
import Rollout.Proofs.Remote.Timing
import Rollout.Proofs.Container.Deadline
import Rollout.Proofs.Container.Ports
import Rollout.Proofs.Deployment.Shipments
import Rollout.Proofs.Address.Characters
import Rollout.Proofs.Remote.Operands
import Rollout.Proofs.Files.Written
import Rollout.Proofs.CommandLine.Output
import Rollout.Proofs.Text.Nesting
import Rollout.Proofs.Deployment.Uncoloured
import Rollout.Proofs.Keys.Keystore
