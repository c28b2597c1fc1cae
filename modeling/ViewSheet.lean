import ViewSheet.Catalogue.Basic
import ViewSheet.Catalogue.Setter
import ViewSheet.Catalogue.Stock
import ViewSheet.Color
import ViewSheet.Cursor.Basic
import ViewSheet.Cursor.Bytes
import ViewSheet.Cursor.Number
import ViewSheet.Cursor.Sequence
import ViewSheet.DataBindings
import ViewSheet.Definition
import ViewSheet.Error
import ViewSheet.Font
import ViewSheet.Geometry
import ViewSheet.Journal
import ViewSheet.Main
import ViewSheet.NameMap
import ViewSheet.Number.Binary
import ViewSheet.Number.Decimal
import ViewSheet.Number.Power
import ViewSheet.Number.Shortest
import ViewSheet.Proofs.Advancing
import ViewSheet.Proofs.Ancestry
import ViewSheet.Proofs.Attaching
import ViewSheet.Proofs.Blame
import ViewSheet.Proofs.Braces
import ViewSheet.Proofs.Building
import ViewSheet.Proofs.Copying
import ViewSheet.Proofs.Cutting
import ViewSheet.Proofs.Descent
import ViewSheet.Proofs.Diagnosis
import ViewSheet.Proofs.Dispatch
import ViewSheet.Proofs.Documents
import ViewSheet.Proofs.Effects
import ViewSheet.Proofs.Enumeration
import ViewSheet.Proofs.Fonts
import ViewSheet.Proofs.Forest
import ViewSheet.Proofs.Grammar
import ViewSheet.Proofs.Hanging
import ViewSheet.Proofs.Hosting
import ViewSheet.Proofs.Independence
import ViewSheet.Proofs.Inheritance
import ViewSheet.Proofs.Integers
import ViewSheet.Proofs.Joining
import ViewSheet.Proofs.Layout
import ViewSheet.Proofs.LevelOrder
import ViewSheet.Proofs.LineEnds
import ViewSheet.Proofs.Lineage
import ViewSheet.Proofs.Listening
import ViewSheet.Proofs.Literals
import ViewSheet.Proofs.Loading
import ViewSheet.Proofs.Locality
import ViewSheet.Proofs.Lockstep
import ViewSheet.Proofs.Looping
import ViewSheet.Proofs.Mentions
import ViewSheet.Proofs.Mirroring
import ViewSheet.Proofs.Names
import ViewSheet.Proofs.Neighbours
import ViewSheet.Proofs.Nesting
import ViewSheet.Proofs.Numerals
import ViewSheet.Proofs.Occurrences
import ViewSheet.Proofs.Offsets
import ViewSheet.Proofs.OneLine
import ViewSheet.Proofs.Outline
import ViewSheet.Proofs.Overwriting
import ViewSheet.Proofs.PassOrder
import ViewSheet.Proofs.Passes
import ViewSheet.Proofs.Passing
import ViewSheet.Proofs.Pieces
import ViewSheet.Proofs.Placeholders
import ViewSheet.Proofs.Preorder
import ViewSheet.Proofs.Printing
import ViewSheet.Proofs.Reapplying
import ViewSheet.Proofs.Rebinding
import ViewSheet.Proofs.Rebuild
import ViewSheet.Proofs.Receiving
import ViewSheet.Proofs.References
import ViewSheet.Proofs.Refusals
import ViewSheet.Proofs.Registering
import ViewSheet.Proofs.Relining
import ViewSheet.Proofs.Renumbering
import ViewSheet.Proofs.Reporting
import ViewSheet.Proofs.Resolving
import ViewSheet.Proofs.Rooted
import ViewSheet.Proofs.Secrecy
import ViewSheet.Proofs.Session
import ViewSheet.Proofs.Setters
import ViewSheet.Proofs.Shapes
import ViewSheet.Proofs.Sizes
import ViewSheet.Proofs.Spelling
import ViewSheet.Proofs.StockSetters
import ViewSheet.Proofs.Stopping
import ViewSheet.Proofs.Substitution
import ViewSheet.Proofs.Telling
import ViewSheet.Proofs.Tree
import ViewSheet.Proofs.Turns
import ViewSheet.Proofs.Upkeep
import ViewSheet.Proofs.Veiling
import ViewSheet.Proofs.Wiring
import ViewSheet.Proofs.Writing
import ViewSheet.Reading
import ViewSheet.Scene.Attach
import ViewSheet.Scene.Basic
import ViewSheet.Scene.Configure
import ViewSheet.Scene.Load
import ViewSheet.Scene.Lookup
import ViewSheet.Scene.Update
import ViewSheet.Sheet.Block
import ViewSheet.Sheet.Body
import ViewSheet.Sheet.Declaration
import ViewSheet.Sheet.Document
import ViewSheet.Sheet.Hierarchy
import ViewSheet.Sheet.Placeholder
import ViewSheet.Studio.Arguments
import ViewSheet.Studio.Run
import ViewSheet.Studio.Tree
import ViewSheet.Text.Alphanumeric
import ViewSheet.Text.Blank
import ViewSheet.Text.Bytes
import ViewSheet.Text.Lines
import ViewSheet.Text.Printable
import ViewSheet.Text.Quoted
import ViewSheet.Text.Ranges
import ViewSheet.Text.Search
import ViewSheet.Text.Utf8
import ViewSheet.Text.Visible
import ViewSheet.Value
import ViewSheet.View.Basic
import ViewSheet.View.Class
import ViewSheet.View.Store
import ViewSheet.View.Summary
