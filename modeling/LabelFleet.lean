import LabelFleet.Main
import LabelFleet.Markup.PrimitiveJson
import LabelFleet.Proofs.Canvas.Bounds
import LabelFleet.Proofs.Canvas.Decoding
import LabelFleet.Proofs.Canvas.Escaping
import LabelFleet.Proofs.Health.FanIn
import LabelFleet.Proofs.Markup.Drawing
import LabelFleet.Proofs.Markup.Tokenizing
import LabelFleet.Proofs.Health.Agreement
import LabelFleet.Printer.Bench
import LabelFleet.Proofs.Printer.History
import LabelFleet.Proofs.Printer.Sharing
import LabelFleet.Proofs.Text.Encoding
import LabelFleet.Proofs.Json.Strings
import LabelFleet.Proofs.Number.Decimals
import LabelFleet.Proofs.Printer.ReplyLines
import LabelFleet.Proofs.Printer.SettingsLine
import LabelFleet.Proofs.Printer.Replies
import LabelFleet.Proofs.Printer.Octets
import LabelFleet.Proofs.Printer.Groups
import LabelFleet.Proofs.Printer.IpText
import LabelFleet.Proofs.Printer.Addresses
import LabelFleet.Proofs.Text.Occurrences
import LabelFleet.Proofs.Markup.Marks
import LabelFleet.Proofs.Markup.Gaps
import LabelFleet.Proofs.Markup.Spacing
import LabelFleet.Proofs.Previewing
import LabelFleet.Proofs.Printing
import LabelFleet.Proofs.Printer.Deliveries
import LabelFleet.Proofs.Printer.Sessions
import LabelFleet.Proofs.Database.Nicknames
import LabelFleet.Proofs.Database.Outcomes
import LabelFleet.Printer.Site
import LabelFleet.Proofs.Serving
import LabelFleet.Proofs.Networks
import LabelFleet.Proofs.EmulatedFleets
import LabelFleet.Proofs.Text.Replacement
import LabelFleet.Proofs.Printer.Chunks
import LabelFleet.Proofs.CommandLine.Endings
import LabelFleet.Proofs.Config.Leaves
import LabelFleet.Proofs.Config.Merging
import LabelFleet.Proofs.Config.Variables
import LabelFleet.Proofs.Config.Layering
import LabelFleet.Proofs.Config.PlainFiles
import LabelFleet.Proofs.Canvas.Conservation
import LabelFleet.Proofs.Health.Latency
import LabelFleet.Proofs.Printer.ReplyLanguage
import LabelFleet.Proofs.Number.Rounding
import LabelFleet.Proofs.Number.Values
import LabelFleet.Proofs.Number.Shortest
import LabelFleet.Proofs.Number.Numerals
import LabelFleet.Proofs.Number.Arithmetic
import LabelFleet.Proofs.Json.Scaling
import LabelFleet.Proofs.Json.Numbers
import LabelFleet.Proofs.Json.Reading
import LabelFleet.Proofs.Printer.Fields
import LabelFleet.Proofs.Printer.SettingsLanguage
import LabelFleet.Proofs.Printer.Spellings
import LabelFleet.Proofs.Database.Rows
import LabelFleet.Proofs.Database.Servers
import LabelFleet.Proofs.Markup.ArgumentBytes
import LabelFleet.Proofs.Json.Documents
import LabelFleet.Proofs.Markup.PrimitiveObjects
import LabelFleet.Proofs.Number.Accuracy
import LabelFleet.Proofs.Number.FewDigits
import LabelFleet.Proofs.Database.Amounts
