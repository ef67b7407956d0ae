import ElmBinding.Module.Title
import ElmBinding.Name.Namespace
import ElmBinding.Schema.Find
import ElmBinding.Schema.Merge
import ElmBinding.Schema.Scope
import ElmBinding.Sequence.Repetition
import ElmBinding.Sequence.Sorting
import ElmBinding.Text.Blank
import ElmBinding.Grammar.Attempt
import ElmBinding.Grammar.Pattern
import ElmBinding.Grammar.Reading
import ElmBinding.Grammar.Report
import ElmBinding.Source.Gap
import ElmBinding.Source.Rules
import ElmBinding.Schema.Error
import ElmBinding.Source.Comments
import ElmBinding.Source.Declarations
import ElmBinding.Schema.Linking
import ElmBinding.Source.Files
import ElmBinding.Source.Schemas
import ElmBinding.Naming.Binding
import ElmBinding.Naming.Error
import ElmBinding.Naming.Ledger
import ElmBinding.Schema.Slots
import ElmBinding.Module.Basic
import ElmBinding.Module.Build
import ElmBinding.Proofs.Name.FreeNames
import ElmBinding.Proofs.Name.PlainNames
import ElmBinding.Proofs.Sequence.Sorting
import ElmBinding.Proofs.Naming.Catalogs
import ElmBinding.Proofs.Naming.Ledgers
import ElmBinding.Proofs.Naming.Ownership
import ElmBinding.Proofs.Naming.PlainKeys
import ElmBinding.Proofs.Naming.Rearrangement
import ElmBinding.Proofs.Naming.Steps
import ElmBinding.Proofs.Schema.Clashes
import ElmBinding.Proofs.Schema.Linking
import ElmBinding.Proofs.Module.Definitions
import ElmBinding.Proofs.Module.Identifiers
import ElmBinding.Proofs.Module.Placements
import ElmBinding.Proofs.Module.Rearrangement
import ElmBinding.Proofs.Module.Records
import ElmBinding.Proofs.Module.Safety
import ElmBinding.Proofs.Module.Slots
import ElmBinding.Proofs.Module.Layout
import ElmBinding.Proofs.Module.Completeness
import ElmBinding.Proofs.Module.References
import ElmBinding.Proofs.Source.Oneofs
import ElmBinding.Proofs.Module.Fields
import ElmBinding.Proofs.Module.Closure
import ElmBinding.Proofs.Grammar.Texts
import ElmBinding.Proofs.Source.Bodies
import ElmBinding.Proofs.Schema.WellFormed
import ElmBinding.Proofs.Source.Names
import ElmBinding.Proofs.Module.Success
import ElmBinding.Proofs.Naming.Suffixes
import ElmBinding.Proofs.Module.Suffixes
import ElmBinding.Proofs.Name.Capitals
import ElmBinding.Proofs.Naming.Chronicles
import ElmBinding.Proofs.Naming.Predictions
import ElmBinding.Proofs.Naming.Foreign
import ElmBinding.Proofs.Schema.Packages
import ElmBinding.Proofs.Module.Qualifiers
import ElmBinding.Proofs.Schema.Order
import ElmBinding.Proofs.Module.FileOrder
import ElmBinding.Proofs.Schema.Coherence
import ElmBinding.Proofs.Source.Coherence
import ElmBinding.Proofs.Schema.Resolution
import ElmBinding.Proofs.Grammar.Taking
import ElmBinding.Proofs.Source.Tokens
import ElmBinding.Proofs.Source.Lexemes
import ElmBinding.Proofs.Outline.Basic
import ElmBinding.Proofs.Outline.Reading
import ElmBinding.Proofs.Source.Places
import ElmBinding.Proofs.Outline.Building
import ElmBinding.Proofs.Outline.Roundtrip
import ElmBinding.Proofs.Outline.Enumerations
import ElmBinding.Proofs.Name.Claims
import ElmBinding.Proofs.Grammar.Budgets
import ElmBinding.Proofs.Grammar.Parallel
import ElmBinding.Proofs.Naming.Calls
import ElmBinding.Proofs.Schema.Stripping
import ElmBinding.Proofs.Source.Footings
import ElmBinding.Proofs.Source.Harmless
import ElmBinding.Proofs.Source.Literals
import ElmBinding.Proofs.Source.SideBySide
import ElmBinding.Proofs.Source.Sketches
import ElmBinding.Proofs.Source.Transparency
import ElmBinding.Proofs.Source.Denotation
import ElmBinding.Proofs.Source.Numbers
import ElmBinding.Proofs.Source.Ranges
import ElmBinding.Proofs.Naming.Turns
import ElmBinding.Proofs.Schema.Hiding
import ElmBinding.Proofs.Module.Turns
import ElmBinding.Proofs.Module.MethodOrder
import ElmBinding.Proofs.Module.Contests
import ElmBinding.Proofs.Module.Unions
import ElmBinding.Proofs.Module.Imports
import ElmBinding.Proofs.Module.Collecting
import ElmBinding.Proofs.Module.Labels
import ElmBinding.Proofs.Text.CaseImages
import ElmBinding.Proofs.Name.ModuleNames
import ElmBinding.Proofs.Module.Titles
import ElmBinding.Proofs.Module.SelfImports
import ElmBinding.Proofs.Schema.Merging
import ElmBinding.Proofs.Schema.Indexing
import ElmBinding.Proofs.Sequence.Spans
import ElmBinding.Proofs.Source.Comments
import ElmBinding.Proofs.Naming.Registration
import ElmBinding.Proofs.Name.Words
import ElmBinding.Proofs.Name.Scans
import ElmBinding.Proofs.Name.Casing
import ElmBinding.Proofs.Naming.Lookups
