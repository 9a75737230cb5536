import ThermalLabel.Escape
import ThermalLabel.Label.Config
import ThermalLabel.Json.Reader
import ThermalLabel.Json.Writer
import ThermalLabel.Script.Run
import ThermalLabel.Storage.Layout
import ThermalLabel.Environment
import ThermalLabel.Http.Service
import ThermalLabel.Log.Journal
import ThermalLabel.Value.Arithmetic
import ThermalLabel.Proofs.Label.Naming
import ThermalLabel.Proofs.Value.Whole
import ThermalLabel.Proofs.Label.Lines
import ThermalLabel.Proofs.Label.Emission
import ThermalLabel.Proofs.Script.Admission
import ThermalLabel.Proofs.Script.Reading
import ThermalLabel.Proofs.Script.Execution
import ThermalLabel.Proofs.Script.SettingsBlock
import ThermalLabel.Proofs.Script.Validation
import ThermalLabel.Proofs.Script.Composition
import ThermalLabel.Proofs.Label.Marks
import ThermalLabel.Proofs.Label.Unmarked
import ThermalLabel.Proofs.Label.Commands
import ThermalLabel.Proofs.Script.Commands
import ThermalLabel.Proofs.Template.Engine
import ThermalLabel.Proofs.Script.Positional
import ThermalLabel.Proofs.Template.Packaged
import ThermalLabel.Proofs.Template.Agreement
import ThermalLabel.Proofs.Number.Digits
import ThermalLabel.Proofs.Number.Rounding
import ThermalLabel.Proofs.Number.Numeral
import ThermalLabel.Proofs.Label.Dots
import ThermalLabel.Proofs.Http.Dots
import ThermalLabel.Proofs.Text.Split
import ThermalLabel.Proofs.Text.Unbroken
import ThermalLabel.Proofs.Json.Escapes
import ThermalLabel.Proofs.Json.Leaves
import ThermalLabel.Proofs.Json.Encodable
import ThermalLabel.Proofs.Json.Roundtrip
import ThermalLabel.Proofs.Json.Integers
import ThermalLabel.Proofs.Log.Extras
import ThermalLabel.Proofs.Log.Line
import ThermalLabel.Proofs.Log.Names
import ThermalLabel.Proofs.Log.File
import ThermalLabel.Proofs.Log.Journal
import ThermalLabel.Proofs.Value.Unbroken
import ThermalLabel.Proofs.Label.Unbroken
import ThermalLabel.Proofs.Label.Positions
import ThermalLabel.Proofs.Template.Unbroken
import ThermalLabel.Proofs.Script.Answers
import ThermalLabel.Proofs.Http.Notes
import ThermalLabel.Proofs.Http.Answers
import ThermalLabel.Proofs.Http.Accounts
import ThermalLabel.Proofs.Storage.Tree
import ThermalLabel.Proofs.Storage.Seeding
import ThermalLabel.Proofs.Text.Order
import ThermalLabel.Proofs.Script.Reordering
import ThermalLabel.Proofs.Number.Plain
import ThermalLabel.Proofs.Label.Plain
import ThermalLabel.Proofs.Label.Sources
import ThermalLabel.Proofs.Script.Texts
import ThermalLabel.Proofs.Script.Performs
import ThermalLabel.Proofs.Script.Separators
import ThermalLabel.Proofs.Label.Blocks
import ThermalLabel.Proofs.Script.Reach
import ThermalLabel.Proofs.Label.History
import ThermalLabel.Proofs.Number.Integer
import ThermalLabel.Proofs.Http.DotsReport
import ThermalLabel.Proofs.Environment
import ThermalLabel.Proofs.Script.Defaults
import ThermalLabel.Proofs.Http.Defaults
import ThermalLabel.Proofs.Label.Fields
import ThermalLabel.Proofs.Label.Placement
import ThermalLabel.Proofs.Template.Layout
import ThermalLabel.Proofs.Label.Greedy
import ThermalLabel.Proofs.Http.Listing
import ThermalLabel.Proofs.Http.Objects
import ThermalLabel.Proofs.Label.Fewest
import ThermalLabel.Proofs.Escape
import ThermalLabel.Proofs.Label.Nearest
import ThermalLabel.Proofs.Script.Interchange
import ThermalLabel.Proofs.Label.Progress
import ThermalLabel.Proofs.Script.Localisation
import ThermalLabel.Proofs.Number.Exact
import ThermalLabel.Proofs.Number.Order
import ThermalLabel.Proofs.Label.Range
import ThermalLabel.Proofs.Value.Exact
import ThermalLabel.Proofs.Label.Permissive
import ThermalLabel.Proofs.Label.Store.Calls
