import FeatureGate.Binary64.Basic
import FeatureGate.Binary64.Layout
import FeatureGate.Binary64.Literal
import FeatureGate.Binary64.Rounding
import FeatureGate.Binary64.Scaling
import FeatureGate.Binary64.Shortest
import FeatureGate.Config.Compile
import FeatureGate.Config.Error
import FeatureGate.Config.Field
import FeatureGate.Context.Basic
import FeatureGate.Context.Builder
import FeatureGate.Context.Canonical
import FeatureGate.Context.Identity
import FeatureGate.Diagnostic
import FeatureGate.Document.Entries
import FeatureGate.Document.Format
import FeatureGate.Json.Basic
import FeatureGate.Json.Render
import FeatureGate.Json.Token
import FeatureGate.Json.Tree
import FeatureGate.KeyMap
import FeatureGate.Manager.Assembly
import FeatureGate.Manager.Call
import FeatureGate.Manager.Error
import FeatureGate.Manager.Flags
import FeatureGate.Manager.Rules
import FeatureGate.Manager.Settings
import FeatureGate.Manager.Store
import FeatureGate.Proofs.Calls
import FeatureGate.Proofs.Canonical
import FeatureGate.Proofs.Coherence
import FeatureGate.Proofs.Comparison
import FeatureGate.Proofs.Compilations
import FeatureGate.Proofs.Decoding
import FeatureGate.Proofs.Dependence
import FeatureGate.Proofs.Documents
import FeatureGate.Proofs.Eager
import FeatureGate.Proofs.Equality
import FeatureGate.Proofs.ExactComparison
import FeatureGate.Proofs.Exactness
import FeatureGate.Proofs.FirstFault
import FeatureGate.Proofs.FirstKept
import FeatureGate.Proofs.FlagsAsRules
import FeatureGate.Proofs.Grammar
import FeatureGate.Proofs.Histories
import FeatureGate.Proofs.Identity
import FeatureGate.Proofs.Interleaving
import FeatureGate.Proofs.LazyWrites
import FeatureGate.Proofs.Loading
import FeatureGate.Proofs.Meaning
import FeatureGate.Proofs.NumberText
import FeatureGate.Proofs.Precedence
import FeatureGate.Proofs.PrintedIdentity
import FeatureGate.Proofs.Readers
import FeatureGate.Proofs.Reading
import FeatureGate.Proofs.Records
import FeatureGate.Proofs.RoundTrip
import FeatureGate.Proofs.Scaling
import FeatureGate.Proofs.Shortest
import FeatureGate.Proofs.Transparency
import FeatureGate.Proofs.Validation
import FeatureGate.Proofs.Warnings
import FeatureGate.Proofs.Widening
import FeatureGate.Proofs.Writes
import FeatureGate.Report
import FeatureGate.Rule.Feature
import FeatureGate.Rule.Operator
import FeatureGate.Rule.Serialized
import FeatureGate.Rule.Value
import FeatureGate.Sha256
import FeatureGate.Text.Blank
import FeatureGate.Text.Escaped
import FeatureGate.Text.Quoted
import FeatureGate.Yaml.Anchor
import FeatureGate.Yaml.Cursor
import FeatureGate.Yaml.Layout
import FeatureGate.Yaml.Node
import FeatureGate.Yaml.Scalar
import FeatureGate.Yaml.Tag
import FeatureGate.Yaml.Text.Block
import FeatureGate.Yaml.Text.Gap
import FeatureGate.Yaml.Text.Plain
import FeatureGate.Yaml.Text.Quoted
import FeatureGate.Yaml.Token
import FeatureGate.Yaml.Value
