import SymbolPaths.Command.Arguments
import SymbolPaths.Command.Run
import SymbolPaths.Disk.Basic
import SymbolPaths.Disk.Path
import SymbolPaths.Failure
import SymbolPaths.Forest
import SymbolPaths.Grammar.Cache
import SymbolPaths.Grammar.Delay
import SymbolPaths.Grammar.Engine
import SymbolPaths.Grammar.Handle
import SymbolPaths.Grammar.Loader
import SymbolPaths.Grammar.Preload
import SymbolPaths.Grammar.Retry
import SymbolPaths.Grammar.Session
import SymbolPaths.Grammar.Source
import SymbolPaths.Http.Fetch
import SymbolPaths.Http.Host
import SymbolPaths.Http.Percent
import SymbolPaths.Http.Status
import SymbolPaths.Http.Url
import SymbolPaths.Json
import SymbolPaths.Language.Label
import SymbolPaths.Language.Registry
import SymbolPaths.Link
import SymbolPaths.Main
import SymbolPaths.Number.Binary64
import SymbolPaths.Number.Digit
import SymbolPaths.Proofs.Disk.Directory
import SymbolPaths.Proofs.Disk.Effect
import SymbolPaths.Proofs.Disk.Mirror
import SymbolPaths.Proofs.Disk.Place
import SymbolPaths.Proofs.Disk.Written
import SymbolPaths.Proofs.Forest
import SymbolPaths.Proofs.Grammar.Abort
import SymbolPaths.Proofs.Grammar.Acts
import SymbolPaths.Proofs.Grammar.Alone
import SymbolPaths.Proofs.Grammar.Attempts
import SymbolPaths.Proofs.Grammar.Backoff
import SymbolPaths.Proofs.Grammar.Cancellation
import SymbolPaths.Proofs.Grammar.Counterpart
import SymbolPaths.Proofs.Grammar.Downloads
import SymbolPaths.Proofs.Grammar.Engine
import SymbolPaths.Proofs.Grammar.Files
import SymbolPaths.Proofs.Grammar.Home
import SymbolPaths.Proofs.Grammar.InFlight
import SymbolPaths.Proofs.Grammar.Ledger
import SymbolPaths.Proofs.Grammar.Likeness
import SymbolPaths.Proofs.Grammar.Parts
import SymbolPaths.Proofs.Grammar.Persistence
import SymbolPaths.Proofs.Grammar.Preload
import SymbolPaths.Proofs.Grammar.Provenance
import SymbolPaths.Proofs.Grammar.Separation
import SymbolPaths.Proofs.Grammar.Session
import SymbolPaths.Proofs.Grammar.Sound
import SymbolPaths.Proofs.Grammar.Source
import SymbolPaths.Proofs.Grammar.Storage
import SymbolPaths.Proofs.Grammar.Traffic
import SymbolPaths.Proofs.Grammar.Turn
import SymbolPaths.Proofs.Grammar.Unheeded
import SymbolPaths.Proofs.Grammar.Writers
import SymbolPaths.Proofs.Link.Expression
import SymbolPaths.Proofs.Link.Grammar
import SymbolPaths.Proofs.Link.Reading
import SymbolPaths.Proofs.Link.Replacement
import SymbolPaths.Proofs.Link.Surroundings
import SymbolPaths.Proofs.Link.Symbol
import SymbolPaths.Proofs.Query.Completion
import SymbolPaths.Proofs.Settings.File
import SymbolPaths.Proofs.Settings.Form
import SymbolPaths.Proofs.Suggest.Edits
import SymbolPaths.Proofs.Suggest.Ranking
import SymbolPaths.Proofs.Suggest.Score
import SymbolPaths.Proofs.Symbol.Content
import SymbolPaths.Proofs.Symbol.Descent
import SymbolPaths.Proofs.Symbol.Links
import SymbolPaths.Proofs.Symbol.Margin
import SymbolPaths.Proofs.Symbol.Nesting
import SymbolPaths.Proofs.Symbol.Order
import SymbolPaths.Proofs.Symbol.Outline
import SymbolPaths.Proofs.Symbol.Path
import SymbolPaths.Proofs.Symbol.Search
import SymbolPaths.Proofs.Symbol.Traversal
import SymbolPaths.Proofs.TagPath
import SymbolPaths.Proofs.Text.Indentation
import SymbolPaths.Proofs.Text.Substitution
import SymbolPaths.Proofs.Yaml.Block
import SymbolPaths.Proofs.Yaml.Entries
import SymbolPaths.Proofs.Yaml.Layout
import SymbolPaths.Proofs.Yaml.Plain
import SymbolPaths.Proofs.Yaml.Quoted
import SymbolPaths.Proofs.Yaml.Written
import SymbolPaths.Query.Bundled
import SymbolPaths.Query.Pattern
import SymbolPaths.Settings.Basic
import SymbolPaths.Settings.File
import SymbolPaths.Settings.Key
import SymbolPaths.SourceTree
import SymbolPaths.Suggest.EditDistance
import SymbolPaths.Suggest.Ranking
import SymbolPaths.Symbol.File
import SymbolPaths.Symbol.Occurrence
import SymbolPaths.Symbol.Outline
import SymbolPaths.Symbol.Parse
import SymbolPaths.Symbol.Tree
import SymbolPaths.Table
import SymbolPaths.TagPath
import SymbolPaths.Text.Blank
import SymbolPaths.Text.Indentation
import SymbolPaths.Text.Lines
import SymbolPaths.Text.Substitution
import SymbolPaths.Text.Uppercase
import SymbolPaths.Text.Utf8
import SymbolPaths.Yaml.Character
import SymbolPaths.Yaml.Cursor
import SymbolPaths.Yaml.Document
import SymbolPaths.Yaml.Inline
import SymbolPaths.Yaml.Node
import SymbolPaths.Yaml.Property
import SymbolPaths.Yaml.Scalar.Block
import SymbolPaths.Yaml.Scalar.Folding
import SymbolPaths.Yaml.Scalar.Meaning
import SymbolPaths.Yaml.Scalar.Plain
import SymbolPaths.Yaml.Scalar.Quoted
import SymbolPaths.Yaml.Scalar.Written
