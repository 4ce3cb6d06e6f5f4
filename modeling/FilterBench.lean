import FilterBench.Client.Operation
import FilterBench.Bench.Time
import FilterBench.Pause
import FilterBench.Settings.Source
import FilterBench.Proofs.Text.Decoding
import FilterBench.Proofs.Text.Encoding
import FilterBench.Proofs.Bench.Course
import FilterBench.Proofs.Bench.ExitVerdict
import FilterBench.Proofs.Bench.Marking
import FilterBench.Proofs.Bench.Atomicity
import FilterBench.Proofs.Bench.Fleet
import FilterBench.Proofs.Bench.Passing
import FilterBench.Proofs.Bench.Stopping
import FilterBench.Proofs.Connection.Accounting
import FilterBench.Proofs.Connection.Answers
import FilterBench.Proofs.Connection.Delivery
import FilterBench.Proofs.Connection.Losing
import FilterBench.Proofs.Dialogue
import FilterBench.Proofs.Session.Dealings
import FilterBench.Proofs.Session.Turnout
import FilterBench.Proofs.Session.Acceptance
import FilterBench.Proofs.Session.Plays
import FilterBench.Proofs.Session.Refusals
import FilterBench.Proofs.Session.Reading
import FilterBench.Proofs.Session.Recital
import FilterBench.Proofs.Session.Refinement
import FilterBench.Proofs.Session.SecureChannel
import FilterBench.Proofs.Connection.Recutting
import FilterBench.Proofs.Session.Segmentation
import FilterBench.Proofs.Bench.Ledger
import FilterBench.Proofs.Bench.Playing
import FilterBench.Proofs.Bench.Aftermath
import FilterBench.Proofs.Bench.Outcome
import FilterBench.Proofs.PortWait
import FilterBench.Proofs.Bench.Clock
import FilterBench.Proofs.Bench.Onset
import FilterBench.Proofs.Bench.Stages
import FilterBench.Proofs.Bench.Proceeding
import FilterBench.Proofs.Bench.Skipping
import FilterBench.Proofs.Bench.Readiness
import FilterBench.Proofs.Bench.StartBound
import FilterBench.Proofs.Message.Receiving
import FilterBench.Proofs.Message.Transparency
import FilterBench.Proofs.Session.Writing
import FilterBench.Proofs.Session.Fidelity
import FilterBench.Proofs.Connection.Reaching
import FilterBench.Proofs.Client.Operating
import FilterBench.Proofs.Client.FirstFailure
import FilterBench.Proofs.Client.OwnReplies
import FilterBench.Proofs.Session.Duration
import FilterBench.Proofs.Session.Attribution
import FilterBench.Proofs.Session.Attending
import FilterBench.Proofs.Session.Exchanges
import FilterBench.Proofs.Session.Etiquette
import FilterBench.Proofs.Bench.Trail
import FilterBench.Proofs.Bench.Sequence
import FilterBench.Proofs.Bench.Completion
import FilterBench.Proofs.Message.Pieces
import FilterBench.Proofs.Reply.Grammar
import FilterBench.Proofs.Reply.RoundTrip
import FilterBench.Proofs.Session.Reporting
import FilterBench.Proofs.Bench.OutputDump
import FilterBench.Proofs.PortWait.Schedule
import FilterBench.Proofs.PortWait.Settling
import FilterBench.Proofs.PortWait.LastError
import FilterBench.Proofs.Settings.Merging
import FilterBench.Proofs.Settings.Checking
import FilterBench.Proofs.Settings.Exactness
import FilterBench.Proofs.Connection.Traffic
import FilterBench.Proofs.Session.Transcript
import FilterBench.Proofs.Yaml.Leaves
import FilterBench.Proofs.Yaml.Nodes
import FilterBench.Proofs.Yaml.Meaning
import FilterBench.Proofs.Text.Base64
import FilterBench.Proofs.Credentials
import FilterBench.Proofs.Session.Login
