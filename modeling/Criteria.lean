import Criteria.Api.App
import Criteria.Api.Payload
import Criteria.Comparator
import Criteria.Condition
import Criteria.Connective
import Criteria.Context
import Criteria.Database.Assembly
import Criteria.Database.Error
import Criteria.Database.Layout
import Criteria.Database.Repository
import Criteria.Database.Session
import Criteria.Database.Statement
import Criteria.Database.Tables
import Criteria.Evaluation
import Criteria.Failure
import Criteria.Http.Layer
import Criteria.Http.MediaType
import Criteria.Http.Message
import Criteria.Http.Percent
import Criteria.Http.Target
import Criteria.Http.Template
import Criteria.Http.Token
import Criteria.Json.Basic
import Criteria.Json.Draft
import Criteria.Json.Printer
import Criteria.Json.Reader
import Criteria.Logging.Directive
import Criteria.Logging.Event
import Criteria.Logging.Filter
import Criteria.Logging.Level
import Criteria.Metrics
import Criteria.Number.Binary64
import Criteria.Number.Numeral
import Criteria.Number.Shortest
import Criteria.Repository
import Criteria.Rule.Basic
import Criteria.Rule.Combination
import Criteria.Rule.Json
import Criteria.RuleError
import Criteria.Service
import Criteria.Settings.Basic
import Criteria.Settings.Environment
import Criteria.Settings.FileTree
import Criteria.Settings.Files
import Criteria.Settings.Path
import Criteria.Settings.Toml
import Criteria.Settings.Toml.Line
import Criteria.Settings.Toml.Node
import Criteria.Settings.Toml.Scalar
import Criteria.Settings.Toml.Token
import Criteria.Settings.Value
import Criteria.Settings.VariableFile
import Criteria.Store
import Criteria.Text.Alphanumeric
import Criteria.Text.Blank
import Criteria.Text.Case
import Criteria.Text.CaseTable
import Criteria.Text.Hex
import Criteria.Text.Integer
import Criteria.Trace
import Criteria.Tree.Basic
import Criteria.Tree.Json
import Criteria.Tree.Parse
import Criteria.Tree.Printer
import Criteria.Tree.Split
import Criteria.Tree.Strict
import Criteria.Tree.Walk
import Criteria.Proofs.Chronicle
import Criteria.Proofs.Encoding
import Criteria.Proofs.Insertion
import Criteria.Proofs.Holding
import Criteria.Proofs.Operations
import Criteria.Proofs.History
import Criteria.Proofs.Listing
import Criteria.Proofs.Parsing
import Criteria.Proofs.Printing
import Criteria.Proofs.Deciding
import Criteria.Proofs.Knowledge
import Criteria.Proofs.Combining
import Criteria.Proofs.Joining
import Criteria.Proofs.Sharing
import Criteria.Proofs.Interleaving
import Criteria.Proofs.Serving
import Criteria.Proofs.FirstMatch
import Criteria.Proofs.Rendering
import Criteria.Proofs.Routing
import Criteria.Proofs.Exchanges
import Criteria.Proofs.Reading
import Criteria.Proofs.Stored
import Criteria.Proofs.Counting
import Criteria.Proofs.Decoding
import Criteria.Proofs.Unfolding
import Criteria.Proofs.Conservation
import Criteria.Proofs.Shape
import Criteria.Proofs.Respacing
import Criteria.Proofs.Pairing
import Criteria.Proofs.Faults
import Criteria.Proofs.Rounding
import Criteria.Proofs.Comparing
import Criteria.Proofs.Refusals
import Criteria.Proofs.Coherence
import Criteria.Proofs.Selecting
import Criteria.Proofs.Tracing
import Criteria.Proofs.Disclosing
import Criteria.Proofs.Measures
import Criteria.Proofs.Numbering
import Criteria.Proofs.Labelling
