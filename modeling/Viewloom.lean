import Viewloom.Cache
import Viewloom.Controller
import Viewloom.Controller.Directory
import Viewloom.Css.ClassName
import Viewloom.Css.Selector
import Viewloom.Css.Stylesheet
import Viewloom.Css.Token
import Viewloom.Digest.Sha256
import Viewloom.Error
import Viewloom.Extraction
import Viewloom.FileTree
import Viewloom.Html.Adoption
import Viewloom.Html.Builder
import Viewloom.Html.CharRef
import Viewloom.Html.Doctype
import Viewloom.Html.Document
import Viewloom.Html.EntityTable
import Viewloom.Html.Lexer
import Viewloom.Html.Mode.Body
import Viewloom.Html.Mode.Foreign
import Viewloom.Html.Mode.Head
import Viewloom.Html.Mode.Select
import Viewloom.Html.Mode.Table
import Viewloom.Html.TagSets
import Viewloom.Html.Tree
import Viewloom.Json.Basic
import Viewloom.Json.Codec
import Viewloom.Json.Read
import Viewloom.Json.Write
import Viewloom.Label.Names
import Viewloom.Label.Status
import Viewloom.Label.Words
import Viewloom.Markup.Basic
import Viewloom.Markup.Print
import Viewloom.Markup.Scope
import Viewloom.Module.Check
import Viewloom.Module.Compose
import Viewloom.Module.Utils
import Viewloom.Number.Binary
import Viewloom.Number.Shortest
import Viewloom.Options
import Viewloom.Page
import Viewloom.Path
import Viewloom.Proofs.Agreement
import Viewloom.Proofs.Assignments
import Viewloom.Proofs.Binding
import Viewloom.Proofs.Breaks
import Viewloom.Proofs.Caching
import Viewloom.Proofs.ControllerPaths
import Viewloom.Proofs.Declarations
import Viewloom.Proofs.Directories
import Viewloom.Proofs.Emission
import Viewloom.Proofs.Entries
import Viewloom.Proofs.Enumeration
import Viewloom.Proofs.Extraction
import Viewloom.Proofs.Files
import Viewloom.Proofs.FinalTemplates
import Viewloom.Proofs.Forest
import Viewloom.Proofs.Frames
import Viewloom.Proofs.Html.Adding
import Viewloom.Proofs.Html.Attributes
import Viewloom.Proofs.Html.Blank
import Viewloom.Proofs.Html.Closing
import Viewloom.Proofs.Html.Content
import Viewloom.Proofs.Html.Documents
import Viewloom.Proofs.Html.Fitting
import Viewloom.Proofs.Html.Growth
import Viewloom.Proofs.Html.Layout
import Viewloom.Proofs.Html.Leaves
import Viewloom.Proofs.Html.Modes
import Viewloom.Proofs.Html.Opening
import Viewloom.Proofs.Html.Parts
import Viewloom.Proofs.Html.Processing
import Viewloom.Proofs.Html.Reading
import Viewloom.Proofs.Html.References
import Viewloom.Proofs.Html.Regions
import Viewloom.Proofs.Html.Repetition
import Viewloom.Proofs.Html.Rereading
import Viewloom.Proofs.Html.Settled
import Viewloom.Proofs.Html.Stability
import Viewloom.Proofs.Html.Tokens
import Viewloom.Proofs.Html.Trees
import Viewloom.Proofs.Identifiers
import Viewloom.Proofs.Json.Codec
import Viewloom.Proofs.Json.RoundTrip
import Viewloom.Proofs.Labels
import Viewloom.Proofs.Locality
import Viewloom.Proofs.Markers
import Viewloom.Proofs.OpeningTags
import Viewloom.Proofs.Origins
import Viewloom.Proofs.Outline
import Viewloom.Proofs.Overriding
import Viewloom.Proofs.PageFiles
import Viewloom.Proofs.Pages
import Viewloom.Proofs.Places
import Viewloom.Proofs.PropertyNames
import Viewloom.Proofs.Publishing
import Viewloom.Proofs.Recompiling
import Viewloom.Proofs.References
import Viewloom.Proofs.Rendering
import Viewloom.Proofs.RequiredFiles
import Viewloom.Proofs.Resolution
import Viewloom.Proofs.Restoring
import Viewloom.Proofs.Runs
import Viewloom.Proofs.Scoping.ClassNames
import Viewloom.Proofs.Scoping.Escapes
import Viewloom.Proofs.Scoping.Grammar
import Viewloom.Proofs.Scoping.Idempotence
import Viewloom.Proofs.Scoping.Insertion
import Viewloom.Proofs.Scoping.Phase
import Viewloom.Proofs.Scoping.Pieces
import Viewloom.Proofs.Scoping.Selectors
import Viewloom.Proofs.Scoping.Structure
import Viewloom.Proofs.Script.Blocks
import Viewloom.Proofs.Script.Children
import Viewloom.Proofs.Script.ClassNames
import Viewloom.Proofs.Script.Declared
import Viewloom.Proofs.Script.Emitted
import Viewloom.Proofs.Script.Expressions
import Viewloom.Proofs.Script.Framings
import Viewloom.Proofs.Script.Imports
import Viewloom.Proofs.Script.Literals
import Viewloom.Proofs.Script.LooseOpenings
import Viewloom.Proofs.Script.Modules
import Viewloom.Proofs.Script.Nodes
import Viewloom.Proofs.Script.Numbers
import Viewloom.Proofs.Script.Objects
import Viewloom.Proofs.Script.Openings
import Viewloom.Proofs.Script.Phrases
import Viewloom.Proofs.Script.Reading
import Viewloom.Proofs.Script.Reflow
import Viewloom.Proofs.Script.Requirements
import Viewloom.Proofs.Script.Statements
import Viewloom.Proofs.Script.Templates
import Viewloom.Proofs.Script.Tokens
import Viewloom.Proofs.ShownTexts
import Viewloom.Proofs.SocketContent
import Viewloom.Proofs.SocketScope
import Viewloom.Proofs.Sockets
import Viewloom.Proofs.Spacing.Lines
import Viewloom.Proofs.Spacing.Parts
import Viewloom.Proofs.Spacing.Templates
import Viewloom.Proofs.Spacing.Texts
import Viewloom.Proofs.Standing
import Viewloom.Proofs.StyleObjects
import Viewloom.Proofs.Styles
import Viewloom.Proofs.Tags
import Viewloom.Proofs.Transparency
import Viewloom.Proofs.Trees
import Viewloom.Proofs.Trimming
import Viewloom.Proofs.Unmarked
import Viewloom.Proofs.Vacating
import Viewloom.Proofs.Values
import Viewloom.Proofs.Words
import Viewloom.Proofs.Writing
import Viewloom.Proofs.WrittenStrings
import Viewloom.Proxy
import Viewloom.Script.Element
import Viewloom.Script.Expression
import Viewloom.Script.Layout
import Viewloom.Script.Module
import Viewloom.Script.Number
import Viewloom.Script.Parser
import Viewloom.Script.Pattern
import Viewloom.Script.Print
import Viewloom.Script.Requires
import Viewloom.Script.Statement
import Viewloom.Script.Token
import Viewloom.Script.Tree
import Viewloom.Site
import Viewloom.Socket
import Viewloom.SortedMap
import Viewloom.Template.Basic
import Viewloom.Template.Binding
import Viewloom.Template.Conversion
import Viewloom.Template.Print
import Viewloom.Template.Style
import Viewloom.Text.Basic
import Viewloom.Text.Order
import Viewloom.Unicode.Alphabetic
import Viewloom.Unicode.Blank
import Viewloom.Unicode.CaseMap
import Viewloom.Unicode.Cased
import Viewloom.Unicode.Identifier
import Viewloom.Unicode.Lowercase
import Viewloom.Unicode.Numeric
import Viewloom.Unicode.Table
import Viewloom.Unicode.Uppercase
import Viewloom.View.Basic
import Viewloom.View.Compile
import Viewloom.View.Markers
import Viewloom.View.Render
