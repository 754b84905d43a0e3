import FlatLiquid.Text.Blank
import FlatLiquid.Text.Word
import FlatLiquid.Text.Uppercase
import FlatLiquid.Text.Quoted
import FlatLiquid.Text.Replace
import FlatLiquid.Decimal.Format
import FlatLiquid.Decimal.Reading
import FlatLiquid.OrderedMap
import FlatLiquid.Json.Numeral
import FlatLiquid.Json.Quotation
import FlatLiquid.Json.Reading
import FlatLiquid.Schema.Definition
import FlatLiquid.Schema.Parsing
import FlatLiquid.Schema.Labels
import FlatLiquid.Schema.Presets
import FlatLiquid.Schema.Editing
import FlatLiquid.Statement.Flattening
import FlatLiquid.Template.ImageFilter
import FlatLiquid.Template.Unrolling
import FlatLiquid.Preview.Compile
import FlatLiquid.Schema.Cache
import FlatLiquid.Toml.Reading
import FlatLiquid.CommandLine.Directory
import FlatLiquid.Main
import FlatLiquid.Proofs.Statement.Delimiters
import FlatLiquid.Proofs.Template.SettingVariables
import FlatLiquid.Proofs.Schema.Editing
import FlatLiquid.Proofs.Json.Scanning
import FlatLiquid.Proofs.Json.Structures
import FlatLiquid.Proofs.Schema.Decoding
import FlatLiquid.Proofs.Decimal.Whole
import FlatLiquid.Proofs.Schema.Values
import FlatLiquid.Proofs.Schema.Rereading
import FlatLiquid.Proofs.Template.LoopShape
import FlatLiquid.Proofs.Template.Spans
import FlatLiquid.Proofs.Statement.BlockFields
import FlatLiquid.Proofs.Preview.Blocks
import FlatLiquid.Proofs.Schema.Caching
import FlatLiquid.Proofs.Preview.Accounting
import FlatLiquid.Proofs.Preview.Accessors
import FlatLiquid.Proofs.Preview.Limits
import FlatLiquid.Proofs.Schema.Overlay
import FlatLiquid.Proofs.CommandLine.Worlds
import FlatLiquid.Proofs.CommandLine.Products
import FlatLiquid.Proofs.Schema.Malformed
import FlatLiquid.Proofs.CommandLine.Delivery
import FlatLiquid.Proofs.Json.Restoring
import FlatLiquid.Proofs.Schema.Fitting
import FlatLiquid.Proofs.Schema.RoundTrip
import FlatLiquid.Proofs.Template.Matching
import FlatLiquid.Proofs.Template.Verbatim
import FlatLiquid.Proofs.Template.Substitution
import FlatLiquid.Proofs.Template.Rescanning
import FlatLiquid.Proofs.Schema.Location
import FlatLiquid.Proofs.Schema.Remainder
import FlatLiquid.Proofs.Template.LoopControl
import FlatLiquid.Proofs.Template.Tails
import FlatLiquid.Proofs.Statement.Literals
import FlatLiquid.Proofs.Template.Flattened
import FlatLiquid.Proofs.Template.ImageElements
import FlatLiquid.Proofs.Statement.Splitting
import FlatLiquid.Proofs.Schema.Presets
import FlatLiquid.Proofs.Schema.InitialValues
import FlatLiquid.Proofs.Schema.StoredForms
import FlatLiquid.Proofs.Schema.Resaving
import FlatLiquid.Proofs.Preview.Origins
import FlatLiquid.Proofs.Preview.Malformed
import FlatLiquid.Proofs.Template.QuotedRegions
import FlatLiquid.Proofs.Schema.Excerpts
