import Taskbook.Main
import Taskbook.Scalar
import Taskbook.Proofs.Rows
import Taskbook.Proofs.Calendar.Date
import Taskbook.Proofs.Calendar.WallTime
import Taskbook.Proofs.Text.Digits
import Taskbook.Proofs.Text.Utf8
import Taskbook.Proofs.Text.Messages
import Taskbook.Proofs.Zone.Readings
import Taskbook.Proofs.Zone.Showings
import Taskbook.Proofs.Zone.Seasons
import Taskbook.Proofs.Due.Placing
import Taskbook.Proofs.Due.Extended
import Taskbook.Proofs.Due.Spelling
import Taskbook.Proofs.Due.Codec
import Taskbook.Proofs.Due.Fields
import Taskbook.Proofs.Due.Writing
import Taskbook.Proofs.Layout.Entries
import Taskbook.Proofs.Layout.Reading
import Taskbook.Proofs.Layout.Failures
import Taskbook.Proofs.Layout.LineMachine
import Taskbook.Proofs.Layout.Places
import Taskbook.Proofs.Layout.Beginnings
import Taskbook.Proofs.Layout.Diagnosis
import Taskbook.Proofs.Document.Entries
import Taskbook.Proofs.Document.Sound
import Taskbook.Proofs.Document.Writing
import Taskbook.Proofs.Document.RoundTrip
import Taskbook.Proofs.Session.Files
import Taskbook.Proofs.Session.Steps
import Taskbook.Proofs.Session.Conversion
import Taskbook.Proofs.Session.LocalConversion
import Taskbook.Proofs.Parser.Progress
import Taskbook.Proofs.Parser.Failures
import Taskbook.Proofs.Session.AllOrNothing
import Taskbook.Proofs.Parser.Ahead
import Taskbook.Proofs.Layout.Ahead
import Taskbook.Proofs.Layout.Breaks
import Taskbook.Proofs.Layout.Joining
import Taskbook.Proofs.Command.Listing
import Taskbook.Proofs.Command.Runs
import Taskbook.Proofs.Session.Failures
import Taskbook.Proofs.Command.Failures
import Taskbook.Proofs.Due.Stability
import Taskbook.Proofs.Document.Sameness
import Taskbook.Proofs.Due.Dates
import Taskbook.Proofs.Due.Forms
import Taskbook.Proofs.Due.Ways
import Taskbook.Proofs.Due.Zulu
import Taskbook.Proofs.Layout.Locations
import Taskbook.Proofs.Document.Zones
import Taskbook.Proofs.Parser.Rounds
import Taskbook.Proofs.Parser.Characters
import Taskbook.Proofs.Layout.Rounds
import Taskbook.Proofs.Session.Directories
import Taskbook.Proofs.Document.Descriptions
