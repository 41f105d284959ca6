import MentalMath.Answer
import MentalMath.Category
import MentalMath.Decimal.Binary
import MentalMath.Decimal.Shortest
import MentalMath.Document
import MentalMath.Fault
import MentalMath.Identifier
import MentalMath.Main
import MentalMath.Mistake
import MentalMath.Practice.Run
import MentalMath.Practice.Tracker
import MentalMath.Preferences
import MentalMath.Problem
import MentalMath.Problem.Arithmetic
import MentalMath.Problem.Choices
import MentalMath.Problem.Document
import MentalMath.Problem.Generator
import MentalMath.Proofs.History.Nesting
import MentalMath.Proofs.History.Totals
import MentalMath.Proofs.History.Window
import MentalMath.Proofs.Notebook.Browsing
import MentalMath.Proofs.Notebook.Entries
import MentalMath.Proofs.Notebook.Errand
import MentalMath.Proofs.Notebook.Interchange
import MentalMath.Proofs.Notebook.Labels
import MentalMath.Proofs.Notebook.Mirror
import MentalMath.Proofs.Notebook.Operation
import MentalMath.Proofs.Notebook.Race
import MentalMath.Proofs.Notebook.Table
import MentalMath.Proofs.Notebook.Tally
import MentalMath.Proofs.Practice.Apart
import MentalMath.Proofs.Practice.Call
import MentalMath.Proofs.Practice.Consistency
import MentalMath.Proofs.Practice.Effect
import MentalMath.Proofs.Practice.Independence
import MentalMath.Proofs.Practice.Ledger
import MentalMath.Proofs.Practice.Lifecycle
import MentalMath.Proofs.Practice.Operation
import MentalMath.Proofs.Practice.Persistence
import MentalMath.Proofs.Practice.Recording
import MentalMath.Proofs.Practice.Refusal
import MentalMath.Proofs.Practice.Sharing
import MentalMath.Proofs.Practice.Step
import MentalMath.Proofs.Practice.Timing
import MentalMath.Proofs.Problem.Choices
import MentalMath.Proofs.Problem.Drawn
import MentalMath.Proofs.Problem.Expression
import MentalMath.Proofs.Problem.Picking
import MentalMath.Proofs.Problem.Posed
import MentalMath.Proofs.Problem.Redraw
import MentalMath.Proofs.Problem.Spacing
import MentalMath.Proofs.Program
import MentalMath.Proofs.Random.Draw
import MentalMath.Proofs.Random.Reading
import MentalMath.Proofs.Session
import MentalMath.Proofs.Session.Conduct
import MentalMath.Proofs.Settings.Keeping
import MentalMath.Proofs.Settings.Loading
import MentalMath.Proofs.Settings.Operation
import MentalMath.Proofs.Settings.Table
import MentalMath.Proofs.Shell.Location
import MentalMath.Proofs.Shell.Practice
import MentalMath.Proofs.Shell.Script
import MentalMath.Proofs.Sorting
import MentalMath.Proofs.Storage.Agreement
import MentalMath.Proofs.Storage.Granting
import MentalMath.Proofs.Storage.Journal
import MentalMath.Proofs.Storage.Listing
import MentalMath.Proofs.Storage.Memory
import MentalMath.Proofs.Storage.Refusal
import MentalMath.Proofs.Storage.Relational.Disturbance
import MentalMath.Proofs.Storage.Relational.Overlap
import MentalMath.Proofs.Storage.Relational.Reading
import MentalMath.Proofs.Storage.Relational.Requests
import MentalMath.Proofs.Storage.Relational.RoundTrip
import MentalMath.Proofs.Storage.Relational.Sessions
import MentalMath.Proofs.Storage.Relational.Submission
import MentalMath.Proofs.Storage.Relational.Tables
import MentalMath.Proofs.Storage.Sequence
import MentalMath.Proofs.Storage.Sessions
import MentalMath.Proofs.Text.Numeral
import MentalMath.Proofs.Text.Order
import MentalMath.Proofs.Time.Calendar
import MentalMath.Proofs.Time.Order
import MentalMath.Proofs.Time.Running
import MentalMath.Proofs.Time.Stamp
import MentalMath.Proofs.Time.Stopwatch
import MentalMath.Random.Draw
import MentalMath.Random.Keystream
import MentalMath.Service.History
import MentalMath.Service.Notebook
import MentalMath.Service.Practice
import MentalMath.Service.Settings
import MentalMath.Session
import MentalMath.Shell.Desk
import MentalMath.Shell.Location
import MentalMath.Shell.Reply
import MentalMath.Shell.Report
import MentalMath.Shell.Table
import MentalMath.Shell.Terminal
import MentalMath.Shell.Usage.Command
import MentalMath.Shell.Usage.Error
import MentalMath.Shell.Usage.Help
import MentalMath.Shell.Usage.Parameter
import MentalMath.Shell.Usage.Reader
import MentalMath.Storage.Error
import MentalMath.Storage.Memory
import MentalMath.Storage.Program
import MentalMath.Storage.Relational.Archive
import MentalMath.Storage.Relational.Database
import MentalMath.Storage.Relational.Patch
import MentalMath.Storage.Relational.Row
import MentalMath.Storage.Request
import MentalMath.Text.Columns
import MentalMath.Text.Control
import MentalMath.Text.Cut
import MentalMath.Text.Emoji
import MentalMath.Text.Extending
import MentalMath.Text.Numeral
import MentalMath.Text.Quoted
import MentalMath.Text.Width
import MentalMath.Time.Calendar
import MentalMath.Time.Clock
import MentalMath.Time.Instant
import MentalMath.Time.Span
import MentalMath.Time.Stamp.Reader
import MentalMath.Time.Stamp.Writer
import MentalMath.Time.Stopwatch
import MentalMath.Time.Ticker
