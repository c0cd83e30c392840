import DateReviver.CommandLine.Arguments
import DateReviver.CommandLine.FileTree
import DateReviver.CommandLine.Host
import DateReviver.CommandLine.LogFilter
import DateReviver.CommandLine.Run
import DateReviver.Config
import DateReviver.Config.Setting
import DateReviver.Config.Token
import DateReviver.Double
import DateReviver.Emission
import DateReviver.Emptiness
import DateReviver.Error
import DateReviver.Generate
import DateReviver.Journal
import DateReviver.Json.Node
import DateReviver.Json.Numeral
import DateReviver.Json.Token
import DateReviver.Main
import DateReviver.OpenApi.Document
import DateReviver.OpenApi.MediaRange
import DateReviver.OpenApi.Reference
import DateReviver.OpenApi.Schema
import DateReviver.Operations
import DateReviver.OrderedMap
import DateReviver.Path
import DateReviver.Plan
import DateReviver.Planning
import DateReviver.Reading.Document
import DateReviver.Reading.Encoding
import DateReviver.Reading.Json
import DateReviver.Reading.Value
import DateReviver.Reading.Yaml
import DateReviver.Registry
import DateReviver.Text.Blank
import DateReviver.Text.Digits
import DateReviver.Text.Hex
import DateReviver.Text.LetterCase
import DateReviver.Text.Printable
import DateReviver.Text.Quoted
import DateReviver.TypeScript.Identifier
import DateReviver.TypeScript.Printer
import DateReviver.TypeScript.StringLiteral
import DateReviver.TypeScript.Syntax
import DateReviver.Yaml.Block
import DateReviver.Yaml.Character
import DateReviver.Yaml.Fold
import DateReviver.Yaml.Grammar
import DateReviver.Yaml.Layout
import DateReviver.Yaml.Names
import DateReviver.Yaml.Node
import DateReviver.Yaml.Plain
import DateReviver.Yaml.Quoted
import DateReviver.Yaml.Scalar
import DateReviver.Yaml.Tag
import DateReviver.Yaml.Token
import DateReviver.Yaml.TokenStream
import DateReviver.Proofs.Related
import DateReviver.Proofs.Emptiness.Search
import DateReviver.Proofs.Generation
import DateReviver.Proofs.Planning.Translation
import DateReviver.Proofs.Registry
import DateReviver.Proofs.Emission.Consultation
import DateReviver.Proofs.Session
import DateReviver.Proofs.Emptiness.Walk
import DateReviver.Proofs.Emptiness.Bookkeeping
import DateReviver.Proofs.Emptiness.Exactness
import DateReviver.Proofs.Planning.Inversion
import DateReviver.Proofs.Planning.Positions
import DateReviver.Proofs.Planning.Equations
import DateReviver.Proofs.TypeScript.Value
import DateReviver.Proofs.TypeScript.Execution
import DateReviver.Proofs.TypeScript.Fuel
import DateReviver.Proofs.Emission.Names
import DateReviver.Proofs.Emission.Places
import DateReviver.Proofs.Emission.Alias
import DateReviver.Proofs.Emission.Specification
import DateReviver.Proofs.Emission.Fitting
import DateReviver.Proofs.Emission.Guards
import DateReviver.Proofs.Emission.Iteration
import DateReviver.Proofs.Emission.Preservation
import DateReviver.Proofs.Emission.Functions
import DateReviver.Proofs.Emission.Success
import DateReviver.Proofs.Generate
import DateReviver.Proofs.Planning.Tidiness
import DateReviver.Proofs.Planning.Parts
import DateReviver.Proofs.Operations
import DateReviver.Proofs.Planning.Walk
import DateReviver.Proofs.Planning.Following
import DateReviver.Proofs.Failure
import DateReviver.Proofs.Planning.Involvement
import DateReviver.Proofs.Need
import DateReviver.Proofs.TypeScript.Occurrence
import DateReviver.Proofs.Conversion
import DateReviver.Proofs.NullSafety
import DateReviver.Proofs.Reading.Tidiness
import DateReviver.Proofs.Emission.Occurrences
import DateReviver.Proofs.Output
import DateReviver.Proofs.Closure
import DateReviver.Proofs.Distinctness
import DateReviver.Proofs.Emission.Scoping
import DateReviver.Proofs.Capture
import DateReviver.Proofs.Planning.Locality
import DateReviver.Proofs.Rearrangement
import DateReviver.Proofs.Confluence
import DateReviver.Proofs.Emission.Agreement
import DateReviver.Proofs.Planning.Repetition
import DateReviver.Proofs.Lifecycle
import DateReviver.Proofs.Quiescence
import DateReviver.Proofs.CommandLine.Files
import DateReviver.Proofs.CommandLine.Run
import DateReviver.Proofs.TypeScript.Identifier
import DateReviver.Proofs.TypeScript.Printed
import DateReviver.Proofs.Naming
import DateReviver.Proofs.Json.Spacing
import DateReviver.Proofs.Reading.Schema
import DateReviver.Proofs.Reading.Fields
import DateReviver.Proofs.Reading.Shape
import DateReviver.Proofs.Reading.Respelling
import DateReviver.Proofs.Reading.Meaning
import DateReviver.Proofs.Reading.Flaws
import DateReviver.Proofs.Reading.Document
import DateReviver.Proofs.TypeScript.Legibility
import DateReviver.Proofs.Legibility
import DateReviver.Proofs.TypeScript.Literal
import DateReviver.Proofs.Emission.Decision
import DateReviver.Proofs.Emptiness.Economy
import DateReviver.Proofs.Planning.Termination
import DateReviver.Proofs.Chronicle
import DateReviver.Proofs.Emission.Delegations
import DateReviver.Proofs.Discovery
import DateReviver.Proofs.Emission.Presence
import DateReviver.Proofs.Planning.Preorder
import DateReviver.Proofs.ReferenceOrder
import DateReviver.Proofs.TypeScript.SafeName
import DateReviver.Proofs.Emptiness.Stack
import DateReviver.Proofs.TypeScript.Replacement
import DateReviver.Proofs.Emission.Composition
