import Resampler.Chain.Basic
import Resampler.Chain.Draw
import Resampler.Context
import Resampler.Decimal.Reading
import Resampler.Decimal.Shortest
import Resampler.Distribution.Basic
import Resampler.Distribution.Catalogue
import Resampler.Error
import Resampler.Hash.Sha256
import Resampler.Json.Basic
import Resampler.Json.Lexeme
import Resampler.Json.Printer
import Resampler.Json.Reader
import Resampler.Json.Tree
import Resampler.OrderedMap
import Resampler.Outcome
import Resampler.Program.Basic
import Resampler.Program.Script
import Resampler.Random.Key
import Resampler.Random.Keystream
import Resampler.Random.Layers
import Resampler.Random.Normal
import Resampler.Sampler.Basic
import Resampler.Sampler.Posterior
import Resampler.Sampler.Run
import Resampler.Sampler.Unit
import Resampler.Schedule.Basic
import Resampler.Schedule.Dependency
import Resampler.Shared
import Resampler.Store.Basic
import Resampler.Store.FileTree
import Resampler.Store.Log
import Resampler.Store.Path
import Resampler.Store.Record
import Resampler.Text.Blank
import Resampler.Text.CodeTable
import Resampler.Text.GraphemeExtend
import Resampler.Text.Printable
import Resampler.Text.Quoted
import Resampler.Text.Unassigned
import Resampler.Text.Utf8
import Resampler.Token
import Resampler.Trace
import Resampler.Proofs.Chain.Turn
import Resampler.Proofs.Chain.Regime
import Resampler.Proofs.Program.Transcript
import Resampler.Proofs.Sampler.Merge
import Resampler.Proofs.Schedule.Choice
import Resampler.Proofs.Sampler.Course
import Resampler.Proofs.Sampler.Observations
import Resampler.Proofs.Sampler.Prior
import Resampler.Proofs.Sampler.Keys
import Resampler.Proofs.Program.Inquiry
import Resampler.Proofs.Sampler.Replay
import Resampler.Proofs.Schedule.Exclusion
import Resampler.Proofs.Sampler.Alignment
import Resampler.Proofs.Sampler.Completeness
import Resampler.Proofs.Sampler.Isolation
import Resampler.Proofs.Chain.Upon
import Resampler.Proofs.Program.Simulation
import Resampler.Proofs.Sampler.Oracle
import Resampler.Proofs.Schedule.Budget
import Resampler.Proofs.Sampler.Reports
import Resampler.Proofs.Sampler.Steps
import Resampler.Proofs.Schedule.Starvation
import Resampler.Proofs.Text.Utf8
import Resampler.Proofs.Decimal.Numeral
import Resampler.Proofs.Json.Written
import Resampler.Proofs.Decimal.Distinct
import Resampler.Proofs.Json.Distinct
import Resampler.Proofs.Distribution.Arithmetic
import Resampler.Proofs.Distribution.Identity
import Resampler.Proofs.Store.Log
import Resampler.Proofs.Store.Refinement
import Resampler.Proofs.Store.Durability
import Resampler.Proofs.Chain.Persistence
import Resampler.Proofs.Chain.Observation
import Resampler.Proofs.Chain.Passage
import Resampler.Proofs.Chain.Cache
import Resampler.Proofs.Chain.Candour
import Resampler.Proofs.Chain.Pairing
import Resampler.Proofs.Chain.Recall
import Resampler.Proofs.Chain.Mirror
import Resampler.Proofs.Program.Reproduction
import Resampler.Proofs.Program.Recording
import Resampler.Proofs.Program.Scopes
import Resampler.Proofs.Program.Blind
import Resampler.Proofs.Program.Tokens
import Resampler.Proofs.Program.Parallel
import Resampler.Proofs.Sampler.Parallel
import Resampler.Proofs.Sampler.Uncached
import Resampler.Proofs.Sampler.Recall
import Resampler.Proofs.Sampler.Cancellation
import Resampler.Proofs.Sampler.Renewal
import Resampler.Proofs.Schedule.Rotation
import Resampler.Proofs.Chain.Sequence
import Resampler.Proofs.Chain.Sharing
import Resampler.Proofs.Chain.Journal
import Resampler.Proofs.Sampler.Absence
import Resampler.Proofs.Random.Path
import Resampler.Proofs.Chain.Thread
import Resampler.Proofs.Program.Refusal
import Resampler.Proofs.Program.Forest
