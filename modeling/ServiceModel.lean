import ServiceModel.Text.Range
import ServiceModel.Text.Case
import ServiceModel.Text.Quoted
import ServiceModel.Naming.Words
import ServiceModel.Naming.Singular
import ServiceModel.Double.Shortest
import ServiceModel.Double.Read
import ServiceModel.Json.Print
import ServiceModel.Json.Read
import ServiceModel.Yaml.Lexer
import ServiceModel.Yaml.Node
import ServiceModel.Yaml.Scalar
import ServiceModel.Document.Read
import ServiceModel.Document.Reference
import ServiceModel.OpenApi.Description
import ServiceModel.OpenApi.Component
import ServiceModel.Guards
import ServiceModel.Build
import ServiceModel.OpenApi.Rules
import ServiceModel.Synthesis.Describe
import ServiceModel.Synthesis.Session
import ServiceModel.Service.Encode
import ServiceModel.Interfaces.Basic
import ServiceModel.Conversion
import ServiceModel.Service.Validation
import ServiceModel.Service.Decode
import ServiceModel.Main
import ServiceModel.Proofs.Build.Ensures
import ServiceModel.Proofs.Document.Within
import ServiceModel.Proofs.Synthesis.Calls
import ServiceModel.Proofs.Document.Chain
import ServiceModel.Proofs.Synthesis.Termination
import ServiceModel.Proofs.Synthesis.Session
import ServiceModel.Proofs.Build.Limit
import ServiceModel.Proofs.Synthesis.Limit
import ServiceModel.Proofs.Conversion.Limit
import ServiceModel.Proofs.Lists.Distinct
import ServiceModel.Proofs.Service.Fold
import ServiceModel.Proofs.Service.Fields
import ServiceModel.Proofs.OpenApi.Component
import ServiceModel.Proofs.Service.Validation
import ServiceModel.Proofs.Conversion.Outcome
import ServiceModel.Proofs.Synthesis.Settled
import ServiceModel.Proofs.Interfaces.Grouping
import ServiceModel.Proofs.Interfaces.Settled
import ServiceModel.Proofs.Conversion.Closure
import ServiceModel.Proofs.Interfaces.Alignment
import ServiceModel.Proofs.Document.Equality
import ServiceModel.Proofs.Text.Split
import ServiceModel.Proofs.Text.Range
import ServiceModel.Proofs.Service.Alike
import ServiceModel.Proofs.Build.Agree
import ServiceModel.Proofs.Document.Entries
import ServiceModel.Proofs.Document.Objects
import ServiceModel.Proofs.Document.Pairing
import ServiceModel.Proofs.Document.Mirror
import ServiceModel.Proofs.Document.Diagonal
import ServiceModel.Proofs.Document.Respan
import ServiceModel.Proofs.OpenApi.Pairing
import ServiceModel.Proofs.Synthesis.Keys
import ServiceModel.Proofs.Synthesis.Pairing
import ServiceModel.Proofs.Interfaces.SecurityPairing
import ServiceModel.Proofs.Interfaces.Pairing
import ServiceModel.Proofs.Conversion.Pairing
import ServiceModel.Proofs.Conversion.Provenance
import ServiceModel.Proofs.Conversion.Types
import ServiceModel.Proofs.Conversion.Size
import ServiceModel.Proofs.Conversion.Failures
import ServiceModel.Proofs.Conversion.Spans
import ServiceModel.Proofs.Interfaces.Reports
import ServiceModel.Proofs.Service.RoundTrip
import ServiceModel.Proofs.Text.Numeral
import ServiceModel.Proofs.Double.Read
import ServiceModel.Proofs.Yaml.Faults
import ServiceModel.Proofs.Yaml.Composer
import ServiceModel.Proofs.Yaml.Integers
import ServiceModel.Proofs.Yaml.Doubles
import ServiceModel.Proofs.Yaml.Numbers
import ServiceModel.Proofs.Yaml.Scalars
import ServiceModel.Proofs.Yaml.Strings
import ServiceModel.Proofs.Yaml.Lexing
import ServiceModel.Proofs.Yaml.Tokens
import ServiceModel.Proofs.Yaml.Flow
import ServiceModel.Proofs.Json.Notation
import ServiceModel.Proofs.Document.Reports
import ServiceModel.Proofs.Document.JsonTexts
import ServiceModel.Proofs.CommandLine.Reading
import ServiceModel.Proofs.CommandLine.Delivery
import ServiceModel.Proofs.Build.Concur
import ServiceModel.Proofs.Synthesis.Impartial
import ServiceModel.Proofs.Synthesis.Flattening
import ServiceModel.Proofs.Lists.Lookup
import ServiceModel.Proofs.Document.Replace
import ServiceModel.Proofs.Document.Reach
import ServiceModel.Proofs.Synthesis.Reach
import ServiceModel.Proofs.Interfaces.Reach
import ServiceModel.Proofs.Conversion.Reach
import ServiceModel.Proofs.Conversion.Reordering
import ServiceModel.Proofs.Build.Carry
import ServiceModel.Proofs.Document.Extension
import ServiceModel.Proofs.Interfaces.Extension
import ServiceModel.Proofs.Conversion.Extension
import ServiceModel.Proofs.Service.Erased
import ServiceModel.Proofs.Synthesis.Twins
import ServiceModel.Proofs.Synthesis.Origins
import ServiceModel.Proofs.Conversion.Folding
import ServiceModel.Proofs.Service.Same
import ServiceModel.Proofs.Document.Dedup
import ServiceModel.Proofs.Conversion.Dedup
import ServiceModel.Proofs.Text.Replace
import ServiceModel.Proofs.Document.Following
import ServiceModel.Proofs.Document.Pointers
import ServiceModel.Proofs.OpenApi.ComponentPointers
import ServiceModel.Proofs.Synthesis.Transparent
import ServiceModel.Proofs.Service.Places
import ServiceModel.Proofs.Synthesis.Coherence
import ServiceModel.Proofs.Interfaces.Methods
import ServiceModel.Proofs.Conversion.Coherence
import ServiceModel.Proofs.Conversion.Security
import ServiceModel.Proofs.Yaml.Lines
import ServiceModel.Proofs.Yaml.Blocks
import ServiceModel.Proofs.Yaml.Added
import ServiceModel.Proofs.Yaml.ReadsPlain
import ServiceModel.Proofs.Document.Requiring
import ServiceModel.Proofs.Synthesis.Requirements
import ServiceModel.Proofs.Text.Case
import ServiceModel.Proofs.Text.CaseMaps
import ServiceModel.Proofs.Text.Lowering
import ServiceModel.Proofs.Naming.Words
import ServiceModel.Proofs.Naming.Spellings
import ServiceModel.Proofs.Naming.Recasing
import ServiceModel.Proofs.Naming.Endings
import ServiceModel.Proofs.Naming.Singular
import ServiceModel.Proofs.Naming.Settled
import ServiceModel.Proofs.Text.Decoding
import ServiceModel.Proofs.Document.Numbers
import ServiceModel.Proofs.Interfaces.Responses
import ServiceModel.Proofs.Naming.Usable
import ServiceModel.Proofs.Conversion.Names
import ServiceModel.Proofs.Synthesis.Discipline
import ServiceModel.Proofs.Double.Normal
import ServiceModel.Proofs.Document.Values
import ServiceModel.Proofs.Lists.Firsts
import ServiceModel.Proofs.Synthesis.Enums
