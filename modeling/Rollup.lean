import Rollup.Main
import Rollup.Proofs.Machine.Signature
import Rollup.Proofs.Plan.Text
import Rollup.Proofs.Plan.Layout
import Rollup.Proofs.Plan.Blame
import Rollup.Proofs.Machine.Reset
import Rollup.Command.Clock
import Rollup.Proofs.Command.Decoding
import Rollup.Proofs.Command.Locality
import Rollup.Proofs.Value.Homogeneous
import Rollup.Proofs.Machine.Pairing
import Rollup.Proofs.Command.Agreement
import Rollup.Proofs.Machine.Configuration
import Rollup.Proofs.Aggregate.Estimate
import Rollup.Proofs.Aggregate.Ranks
import Rollup.Proofs.Aggregate.SelfCorrelation
import Rollup.Proofs.Machine.NotANumber
import Rollup.Proofs.Machine.Flag
import Rollup.Proofs.Machine.Decimal
import Rollup.Proofs.Aggregate.Timing
import Rollup.Proofs.Interval
import Rollup.Proofs.Value.Record
import Rollup.Proofs.Token.Calls
import Rollup.Proofs.Plan.Consumption
import Rollup.Proofs.Plan.Lookup
