import TextScan.Program.Run
import TextScan.Report.Query
import TextScan.Json.Reader
import TextScan.Xml.Reader
import TextScan.Xml.Written
import TextScan.Focus
import TextScan.Proofs.Json.RoundTrip
import TextScan.Proofs.Xml.Canonical
import TextScan.Proofs.Program.Agreement
import TextScan.Proofs.Xml.FirstFault
import TextScan.Proofs.Json.Levels
import TextScan.Proofs.Reading
import TextScan.Proofs.Text.Viable
import TextScan.Proofs.Json.Unfinished
import TextScan.Proofs.Json.Continuation
import TextScan.Proofs.Json.BreakingOff
import TextScan.Proofs.Json.FaultPosition
import TextScan.Proofs.Xml.Levels
import TextScan.Proofs.Xml.OpenElement
import TextScan.Proofs.Xml.BreakingOff
import TextScan.Proofs.Xml.FaultPosition
import TextScan.Proofs.Cursor.Scanned
import TextScan.Proofs.Program.Effect
import TextScan.Proofs.Program.Reaches
import TextScan.Proofs.Program.Slot
import TextScan.Proofs.Cursor.Bytes
import TextScan.Proofs.Program.Inside
import TextScan.Proofs.Report.Copies
import TextScan.Proofs.Xml.Log
import TextScan.Proofs.Text.Lines
import TextScan.Proofs.Text.Utf8
import TextScan.Proofs.Text.Location
import TextScan.Proofs.Text.LocationOrder
import TextScan.Proofs.Report.Excerpt
import TextScan.Proofs.Json.Spelled
import TextScan.Proofs.Xml.Continuation
import TextScan.Proofs.Json.ExtendedDocument
import TextScan.Proofs.Json.Recognised
import TextScan.Proofs.Unlimited
import TextScan.Proofs.Json.Termination
import TextScan.Proofs.Json.LoneSurrogate
import TextScan.Proofs.Xml.Termination
import TextScan.Proofs.Cursor.Bounded
import TextScan.Proofs.Cursor.Literal
import TextScan.Proofs.Cursor.Connectives
