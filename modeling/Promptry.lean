import Promptry.Codec.Record
import Promptry.Engine.Basic
import Promptry.Engine.Metadata
import Promptry.Engine.Partials
import Promptry.Engine.Rendering
import Promptry.Engine.Settings
import Promptry.Error
import Promptry.Json.Basic
import Promptry.Json.Printer
import Promptry.Json.Reader
import Promptry.Lookup
import Promptry.Marker.Basic
import Promptry.Marker.ContentType
import Promptry.Marker.Segment
import Promptry.Message.Assembly
import Promptry.Message.Basic
import Promptry.Message.Codec
import Promptry.Message.Role
import Promptry.Number.Double
import Promptry.Number.Shortest
import Promptry.Prompt.Check
import Promptry.Prompt.Codec
import Promptry.Prompt.Config
import Promptry.Prompt.Context
import Promptry.Prompt.Metadata
import Promptry.Prompt.Name
import Promptry.Prompt.Source
import Promptry.Proofs.Codec.Message
import Promptry.Proofs.Codec.Prompt
import Promptry.Proofs.Codec.Recoding
import Promptry.Proofs.Codec.Record
import Promptry.Proofs.Codec.Stored
import Promptry.Proofs.Engine.Actions
import Promptry.Proofs.Engine.Closure
import Promptry.Proofs.Engine.Compiling
import Promptry.Proofs.Engine.Configs
import Promptry.Proofs.Engine.Declared
import Promptry.Proofs.Engine.Fixpoint
import Promptry.Proofs.Engine.Layers
import Promptry.Proofs.Engine.Redirection
import Promptry.Proofs.Engine.Resolving
import Promptry.Proofs.Engine.Rounds
import Promptry.Proofs.Engine.Saved
import Promptry.Proofs.Engine.Speech
import Promptry.Proofs.Engine.Strict
import Promptry.Proofs.Engine.Supply
import Promptry.Proofs.Engine.Tools
import Promptry.Proofs.Engine.Walk
import Promptry.Proofs.Except
import Promptry.Proofs.Marker.Cut
import Promptry.Proofs.Marker.Flow
import Promptry.Proofs.Marker.Lossless
import Promptry.Proofs.Marker.Medium
import Promptry.Proofs.Marker.Opening
import Promptry.Proofs.Marker.Part
import Promptry.Proofs.Marker.Quiet
import Promptry.Proofs.Marker.Scan
import Promptry.Proofs.Marker.Standing
import Promptry.Proofs.Message.Assembling
import Promptry.Proofs.Message.Conversation
import Promptry.Proofs.Message.History
import Promptry.Proofs.Message.Outline
import Promptry.Proofs.Message.WholeText
import Promptry.Proofs.Number.Rounding
import Promptry.Proofs.Prompt.Extensions
import Promptry.Proofs.Prompt.Fences
import Promptry.Proofs.Prompt.Fencing
import Promptry.Proofs.Prompt.Layering
import Promptry.Proofs.Prompt.Segments
import Promptry.Proofs.Schema.Draft
import Promptry.Proofs.Schema.Expansion
import Promptry.Proofs.Schema.Grammar
import Promptry.Proofs.Schema.Keys
import Promptry.Proofs.Schema.Meaning
import Promptry.Proofs.Schema.Nested
import Promptry.Proofs.Schema.Nodes
import Promptry.Proofs.Schema.Optional
import Promptry.Proofs.Schema.Reading
import Promptry.Proofs.Schema.Required
import Promptry.Proofs.Schema.Settled
import Promptry.Proofs.Schema.Validity
import Promptry.Proofs.Store.Atomicity
import Promptry.Proofs.Store.Changes
import Promptry.Proofs.Store.Confinement
import Promptry.Proofs.Store.Contents
import Promptry.Proofs.Store.Files
import Promptry.Proofs.Store.Fitting
import Promptry.Proofs.Store.Kinds
import Promptry.Proofs.Store.Listing
import Promptry.Proofs.Store.Loading
import Promptry.Proofs.Store.Locating
import Promptry.Proofs.Store.Naming
import Promptry.Proofs.Store.Order
import Promptry.Proofs.Store.Paging
import Promptry.Proofs.Store.Tree
import Promptry.Proofs.Table
import Promptry.Proofs.Template.Alike.Argument
import Promptry.Proofs.Template.Alike.Basic
import Promptry.Proofs.Template.Alike.Compiled
import Promptry.Proofs.Template.Alike.Content
import Promptry.Proofs.Template.Alike.Json
import Promptry.Proofs.Template.Alike.Literal
import Promptry.Proofs.Template.Alike.Path
import Promptry.Proofs.Template.Alike.Piece
import Promptry.Proofs.Template.Alike.Tag
import Promptry.Proofs.Template.Equality
import Promptry.Proofs.Template.Exact.Alone
import Promptry.Proofs.Template.Exact.Argument
import Promptry.Proofs.Template.Exact.Basic
import Promptry.Proofs.Template.Exact.Content
import Promptry.Proofs.Template.Exact.Literal
import Promptry.Proofs.Template.Exact.Path
import Promptry.Proofs.Template.Exact.Piece
import Promptry.Proofs.Template.Exact.Tag
import Promptry.Proofs.Template.Faults
import Promptry.Proofs.Template.Inclusion
import Promptry.Proofs.Template.Insertions
import Promptry.Proofs.Template.Nesting
import Promptry.Proofs.Template.Patterns
import Promptry.Proofs.Template.References
import Promptry.Proofs.Template.Rereading
import Promptry.Proofs.Template.Script
import Promptry.Proofs.Template.Search
import Promptry.Proofs.Template.Splice
import Promptry.Schema.FieldKey
import Promptry.Schema.Shorthand
import Promptry.Store.Address
import Promptry.Store.Basic
import Promptry.Store.Directory
import Promptry.Store.Fault
import Promptry.Store.Tree
import Promptry.Table
import Promptry.Template.DataVariables
import Promptry.Template.Expr
import Promptry.Template.Helper
import Promptry.Template.Path
import Promptry.Template.Piece
import Promptry.Template.References
import Promptry.Template.Render
import Promptry.Template.Scope
import Promptry.Template.Tag
import Promptry.Template.Tree
import Promptry.Text.Alphabet
import Promptry.Text.Blank
import Promptry.Text.Hex
import Promptry.Text.Numeral
import Promptry.Text.Quoted
import Promptry.Text.Upper
import Promptry.Yaml.Alphabet
import Promptry.Yaml.Cursor
import Promptry.Yaml.Event
import Promptry.Yaml.Json
import Promptry.Yaml.Node
import Promptry.Yaml.Printer
import Promptry.Yaml.Scalar.Block
import Promptry.Yaml.Scalar.Core
import Promptry.Yaml.Scalar.Folding
import Promptry.Yaml.Scalar.Plain
import Promptry.Yaml.Scalar.Quoted
import Promptry.Yaml.Token.Basic
import Promptry.Yaml.Token.Lexer
import Promptry.Yaml.Token.Tag
import Promptry.Yaml.Value
