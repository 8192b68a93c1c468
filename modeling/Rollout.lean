import Rollout.Bucket
import Rollout.Command.Report
import Rollout.Command.Request
import Rollout.Condition.Basic
import Rollout.Condition.Field
import Rollout.Condition.Registry
import Rollout.ConfigError
import Rollout.Context
import Rollout.Context.Document
import Rollout.Context.Yaml
import Rollout.Document
import Rollout.Engine
import Rollout.Entries
import Rollout.Folder
import Rollout.Journal
import Rollout.Json.Printer
import Rollout.Json.Reader
import Rollout.Load
import Rollout.Main
import Rollout.Mismatch
import Rollout.Number.Binary64
import Rollout.Number.Decimal
import Rollout.Number.Power
import Rollout.Operator
import Rollout.Proofs.Condition.Builtin
import Rollout.Proofs.Condition.Percent
import Rollout.Proofs.Condition.Test
import Rollout.Proofs.Condition.Unread
import Rollout.Proofs.Entries.Extend
import Rollout.Proofs.Fault.Alike
import Rollout.Proofs.Fault.First
import Rollout.Proofs.Number.Value
import Rollout.Proofs.Operator.Name
import Rollout.Proofs.Operator.Stopping
import Rollout.Proofs.Registry.Latest
import Rollout.Proofs.Registry.Reachable
import Rollout.Proofs.Resolution.Answers
import Rollout.Proofs.Resolution.Append
import Rollout.Proofs.Resolution.Declared
import Rollout.Proofs.Resolution.Exclusive
import Rollout.Proofs.Resolution.Failed
import Rollout.Proofs.Resolution.Forced
import Rollout.Proofs.Resolution.OptedIn
import Rollout.Proofs.Resolution.Registered
import Rollout.Proofs.Resolution.Run
import Rollout.Proofs.Resolution.Settled
import Rollout.Proofs.Resolution.Tests
import Rollout.Proofs.Schema.Agreement
import Rollout.Proofs.Schema.Shape
import Rollout.Proofs.Text.Ascending
import Rollout.Proofs.Text.Trimmed
import Rollout.Proofs.Text.Units
import Rollout.Proofs.Variant.Parsed
import Rollout.Proofs.Variant.Rearranged
import Rollout.Random.Keystream
import Rollout.Random.Source
import Rollout.Schema.Check
import Rollout.Schema.Config
import Rollout.Text.Ascending
import Rollout.Text.Blank
import Rollout.Text.Hex
import Rollout.Text.Hidden
import Rollout.Text.Pieces
import Rollout.Text.Quoted
import Rollout.Text.Units
import Rollout.Trial
import Rollout.Url.Query
import Rollout.Variant
import Rollout.Yaml.Cursor
import Rollout.Yaml.Node
import Rollout.Yaml.Plain
import Rollout.Yaml.Reader
import Rollout.Yaml.Scalar
import Rollout.Yaml.Tag
import Rollout.Yaml.Token
import Rollout.Proofs.Url.Written
import Rollout.Proofs.Resolution.Requested
import Rollout.Proofs.Condition.Refused
import Rollout.Proofs.Command.Accepted
import Rollout.Proofs.Condition.Draw
import Rollout.Proofs.Resolution.Draws
import Rollout.Proofs.Fault.Reported
import Rollout.Proofs.Variant.Grammar
import Rollout.Proofs.Condition.Username
import Rollout.Proofs.Resolution.Sticky
import Rollout.Proofs.Resolution.Session
import Rollout.Proofs.Bucket.Polynomial
import Rollout.Proofs.Condition.Range
import Rollout.Proofs.Condition.Chance
import Rollout.Proofs.Condition.Natural
import Rollout.Proofs.Schema.Report
import Rollout.Proofs.Schema.Order
import Rollout.Proofs.Json.Grammar
import Rollout.Proofs.Yaml.Loaded
import Rollout.Proofs.Url.Listed
import Rollout.Proofs.Resolution.Absent
import Rollout.Proofs.Resolution.Respelled
import Rollout.Proofs.Resolution.Ending
