import Throttle.Backend
import Throttle.CommandLine
import Throttle.Context
import Throttle.Context.Waiting
import Throttle.Datum
import Throttle.Datum.DateTime
import Throttle.Datum.Json
import Throttle.Datum.Path
import Throttle.Datum.Toml
import Throttle.Decimal.Layout
import Throttle.Decimal.Numeral
import Throttle.Decimal.Selection
import Throttle.Decimal.Whole
import Throttle.Decimal.Word
import Throttle.Failure
import Throttle.Gate
import Throttle.KeySpace
import Throttle.KeySpace.Script
import Throttle.Limiter
import Throttle.Limiter.FixedWindow
import Throttle.Limiter.TokenBucket
import Throttle.Limiter.Verdict
import Throttle.Numeric.Binary64
import Throttle.Numeric.Power
import Throttle.Numeric.Quantity
import Throttle.Numeric.Rounding
import Throttle.Remote
import Throttle.Remote.Connection
import Throttle.Remote.Server
import Throttle.Reply
import Throttle.Reply.Reading
import Throttle.Scenario
import Throttle.Settings
import Throttle.Settings.Layered
import Throttle.Settings.Strict
import Throttle.Store
import Throttle.Store.Canned
import Throttle.Store.Memory
import Throttle.Store.Sweeper
import Throttle.Table
import Throttle.Text.Blank
import Throttle.Text.Loop
import Throttle.Text.Printable
import Throttle.Text.Quoted
import Throttle.Text.Reader
import Throttle.Time
import Throttle.Timeline
import Throttle.Yaml.Cursor
import Throttle.Yaml.Datum
import Throttle.Yaml.Node
import Throttle.Yaml.Revision11.Scalar
import Throttle.Yaml.Revision11.Token
import Throttle.Yaml.Revision12.Scalar
import Throttle.Yaml.Revision12.Token
import Throttle.Yaml.Scalar
import Throttle.Yaml.Tag
import Throttle.Yaml.Token
import Throttle.Yaml.Value
import Throttle.Main
import Throttle.Proofs.KeySpace.Scripts
import Throttle.Proofs.KeySpace.Stored
import Throttle.Proofs.KeySpace.Trace
import Throttle.Proofs.Memory.Anchors
import Throttle.Proofs.Memory.Bucket
import Throttle.Proofs.Memory.Level
import Throttle.Proofs.Memory.Run
import Throttle.Proofs.Memory.Sweeping
import Throttle.Proofs.Numeric.Exact
import Throttle.Proofs.KeySpace.Locality
import Throttle.Proofs.Remote.Run
import Throttle.Proofs.Remote.Independence
import Throttle.Proofs.Remote.Algorithms
import Throttle.Proofs.Remote.Bucket
import Throttle.Proofs.Remote.Readings
import Throttle.Proofs.Remote.Refinement
import Throttle.Proofs.Numeric.Decimals
import Throttle.Proofs.Numeric.Texts
import Throttle.Proofs.Numeric.Nearest
import Throttle.Proofs.Remote.Counter
import Throttle.Proofs.Remote.Boundary
import Throttle.Proofs.Remote.Lasting
import Throttle.Proofs.Remote.Clients
import Throttle.Proofs.Remote.Interleaving
import Throttle.Proofs.Remote.Sharing
import Throttle.Proofs.Numeric.Tokens
import Throttle.Proofs.Remote.Answered
import Throttle.Proofs.Memory.Admission
import Throttle.Proofs.Context.Derivation
import Throttle.Proofs.Context.Propagation
import Throttle.Proofs.Context.Ending
import Throttle.Proofs.Memory.Reset
import Throttle.Proofs.Memory.Denial
import Throttle.Proofs.Memory.Thinning
import Throttle.Proofs.Numeric.Fourteen
import Throttle.Proofs.Numeric.Draws
import Throttle.Proofs.Remote.Takes
import Throttle.Proofs.Remote.Denied
import Throttle.Proofs.Memory.Overdraft
import Throttle.Proofs.Remote.Orderly
import Throttle.Proofs.Remote.Overdraft
import Throttle.Proofs.Limiter.Bounds
import Throttle.Proofs.Limiter.Gates
import Throttle.Proofs.Memory.Upkeep
import Throttle.Proofs.Remote.Queue
import Throttle.Proofs.Remote.Abandoned
import Throttle.Proofs.Numeric.Grammar
import Throttle.Proofs.Numeric.Reading
import Throttle.Proofs.Remote.Replies
import Throttle.Proofs.Limiter.Waits
