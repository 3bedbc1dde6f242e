import DoxPages.Assoc
import DoxPages.CommandLine.Arguments
import DoxPages.CommandLine.Run
import DoxPages.Config.Check
import DoxPages.Config.Error
import DoxPages.Config.Load
import DoxPages.Config.Merge
import DoxPages.Config.Options
import DoxPages.Config.Value
import DoxPages.Conversion.Convert
import DoxPages.Conversion.Generator
import DoxPages.Conversion.Pages
import DoxPages.Conversion.Session
import DoxPages.Description.Output
import DoxPages.Description.Render
import DoxPages.Description.Rule
import DoxPages.Docs.Builder
import DoxPages.Docs.Grouping
import DoxPages.Docs.Model
import DoxPages.Docs.Options
import DoxPages.Docs.Overload
import DoxPages.Docs.Prototype
import DoxPages.Docs.SectionKind
import DoxPages.Docs.Slug
import DoxPages.Files.Path
import DoxPages.Files.Tree
import DoxPages.Input.Error
import DoxPages.Input.Report
import DoxPages.Links.Linker
import DoxPages.Links.Table
import DoxPages.Links.TemplateArgs
import DoxPages.Log.Event
import DoxPages.Log.Reported
import DoxPages.Main
import DoxPages.Markup.Node
import DoxPages.Markup.Xml.Chars
import DoxPages.Markup.Xml.Token
import DoxPages.Markup.Xml.Tree
import DoxPages.Number.Binary64
import DoxPages.Number.Decimal
import DoxPages.Number.Shortest
import DoxPages.Page.CodeBlock
import DoxPages.Page.Compound
import DoxPages.Page.Index
import DoxPages.Page.Table
import DoxPages.Project.Basic
import DoxPages.Project.Discovery
import DoxPages.Project.Doxyfile
import DoxPages.Shell.Command
import DoxPages.Shell.Parser
import DoxPages.Shell.Process
import DoxPages.Shell.Run
import DoxPages.Shell.Utility
import DoxPages.Source.Load
import DoxPages.Source.Model
import DoxPages.Source.Read
import DoxPages.Text.Basic
import DoxPages.Text.Blank
import DoxPages.Text.LetterCase
import DoxPages.Text.Lines
import DoxPages.Text.Numeral
import DoxPages.Text.Quoted
import DoxPages.Text.Scan
import DoxPages.Text.Word
import DoxPages.Yaml.Cursor
import DoxPages.Yaml.Layout
import DoxPages.Yaml.Node
import DoxPages.Yaml.Numeral
import DoxPages.Yaml.Scalar
import DoxPages.Yaml.Schema
import DoxPages.Yaml.Tag
import DoxPages.Yaml.Timestamp
import DoxPages.Yaml.Token
import DoxPages.Yaml.Value
import DoxPages.Proofs.Links.Keeping
import DoxPages.Proofs.Text.Ink
import DoxPages.Proofs.Description.Ink
import DoxPages.Proofs.Description.Keeping
import DoxPages.Proofs.Docs.Slugs
import DoxPages.Proofs.Docs.Placement
import DoxPages.Proofs.Sorting
import DoxPages.Proofs.Docs.Ordered
import DoxPages.Proofs.Docs.GroupedPage
import DoxPages.Proofs.Page.Anchors
import DoxPages.Proofs.Docs.Calls
import DoxPages.Proofs.Docs.LinkIntegrity
import DoxPages.Proofs.Docs.Overloads
import DoxPages.Proofs.Docs.Declarations
import DoxPages.Proofs.Docs.Conversion
import DoxPages.Proofs.Docs.Reordering
import DoxPages.Proofs.Docs.CompoundOrder
import DoxPages.Proofs.Files.Tree
import DoxPages.Proofs.Files.Names
import DoxPages.Proofs.Conversion.Steps
import DoxPages.Proofs.Conversion.Pages
import DoxPages.Proofs.Conversion.Kept
import DoxPages.Proofs.Text.Cuts
import DoxPages.Proofs.Text.Split
import DoxPages.Proofs.Text.Strip
import DoxPages.Proofs.Text.Words
import DoxPages.Proofs.Links.TemplateArgs
import DoxPages.Proofs.Links.LevelSpans
import DoxPages.Proofs.Links.Patterns
import DoxPages.Proofs.Links.Edits
import DoxPages.Proofs.Links.Runs
import DoxPages.Proofs.Links.Sealed
import DoxPages.Proofs.Links.Relinking
import DoxPages.Proofs.Config.Layers
import DoxPages.Proofs.Config.Shapes
import DoxPages.Proofs.Config.Paths
import DoxPages.Proofs.Config.Entries
import DoxPages.Proofs.Config.LinkParts
import DoxPages.Proofs.Yaml.Keys
import DoxPages.Proofs.Files.Resolved
import DoxPages.Proofs.Project.Inheritance
import DoxPages.Proofs.Project.Search
import DoxPages.Proofs.Project.Usable
import DoxPages.Proofs.Project.Leaves
import DoxPages.Proofs.Project.Outputs
import DoxPages.Proofs.Files.Descent
import DoxPages.Proofs.Project.Nesting
import DoxPages.Proofs.Project.Ending
import DoxPages.Proofs.Conversion.Copies
import DoxPages.Proofs.Docs.Overflow
import DoxPages.Proofs.Docs.Buildable
import DoxPages.Proofs.Docs.FailedGrouping
import DoxPages.Proofs.Conversion.BadInput
import DoxPages.Proofs.Files.Regions
import DoxPages.Proofs.Log.Quiet
import DoxPages.Proofs.Source.Documents
import DoxPages.Proofs.Conversion.Confined
import DoxPages.Proofs.Conversion.Siblings
import DoxPages.Proofs.Docs.PageOrder
import DoxPages.Proofs.Description.Places
import DoxPages.Proofs.Description.Reports
import DoxPages.Proofs.Description.Behind
import DoxPages.Proofs.Description.Sheets
import DoxPages.Proofs.Description.Locality
import DoxPages.Proofs.Description.Suppression
import DoxPages.Proofs.Description.LinkLabels
import DoxPages.Proofs.Description.Breaks
import DoxPages.Proofs.Description.Unsupported
import DoxPages.Proofs.Description.Overflow
import DoxPages.Proofs.Description.Outline
import DoxPages.Proofs.Description.Sites
import DoxPages.Proofs.Description.Quotes
import DoxPages.Proofs.Docs.SlugAllocation
import DoxPages.Proofs.Text.Columns
import DoxPages.Proofs.Description.Rows
import DoxPages.Proofs.Description.Fences
import DoxPages.Proofs.Source.Faults
import DoxPages.Proofs.Source.Shape
import DoxPages.Proofs.Docs.TemplateHeaders
import DoxPages.Proofs.Docs.QualifiedNames
import DoxPages.Proofs.Page.Index
import DoxPages.Proofs.Page.Tables
import DoxPages.Proofs.Docs.Assignments
import DoxPages.Proofs.Docs.Literals
