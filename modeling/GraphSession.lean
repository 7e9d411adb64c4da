import GraphSession.Cache.Fetch
import GraphSession.Cache.Files
import GraphSession.Cache.Frequency
import GraphSession.Cache.Results
import GraphSession.Calendar.Moment
import GraphSession.Channel.Connector
import GraphSession.Channel.Pipe
import GraphSession.Channel.Socket
import GraphSession.Editor.Graph
import GraphSession.Editor.Wire
import GraphSession.Failure.Basic
import GraphSession.Failure.Notice
import GraphSession.Json.Basic
import GraphSession.Json.Decode
import GraphSession.Json.Mismatch
import GraphSession.Json.Reader
import GraphSession.Json.Tree
import GraphSession.Json.Writer
import GraphSession.NameSet
import GraphSession.Number.Double
import GraphSession.Number.Layout
import GraphSession.Number.Numeral
import GraphSession.Number.Shortest
import GraphSession.OrderedMap
import GraphSession.Output.Basic
import GraphSession.Output.Thumbnail
import GraphSession.Output.Wire
import GraphSession.Patch.Apply
import GraphSession.Patch.Frame
import GraphSession.Patch.InPlace
import GraphSession.Patch.Path
import GraphSession.Project.Basic
import GraphSession.Project.Equality
import GraphSession.Project.FaultDisplay
import GraphSession.Project.Submission
import GraphSession.Project.Wire
import GraphSession.Rehearsal.Gate
import GraphSession.Rehearsal.Scene
import GraphSession.Rehearsal.Script
import GraphSession.Rehearsal.Session
import GraphSession.Rehearsal.Task
import GraphSession.Remote.Call
import GraphSession.Remote.Exchange
import GraphSession.Remote.TaskAddress
import GraphSession.Schedule.Flight
import GraphSession.Schedule.Turn
import GraphSession.Session.Access
import GraphSession.Session.Basic
import GraphSession.Session.Calls
import GraphSession.Session.Connect
import GraphSession.Session.Lock
import GraphSession.Session.Question
import GraphSession.Session.Status
import GraphSession.Session.Sync
import GraphSession.Settings.Basic
import GraphSession.Settings.Document
import GraphSession.Settings.Variables
import GraphSession.Task.Calls
import GraphSession.Task.Desk
import GraphSession.Task.Monitor
import GraphSession.Task.State
import GraphSession.Text.Base64
import GraphSession.Text.Blank
import GraphSession.Text.Hexadecimal
import GraphSession.Text.Percent
import GraphSession.Text.Quoted
import GraphSession.Text.Split
import GraphSession.Text.Utf8
import GraphSession.Text.Visible
import GraphSession.Timer.Bus
import GraphSession.Timer.Event
import GraphSession.Timer.Running
import GraphSession.Timer.Watch
import GraphSession.Toml.Reader
import GraphSession.Toml.Scalar
import GraphSession.Toml.Text
import GraphSession.Toml.Value
import GraphSession.Toml.Writer
import GraphSession.Url.Address
import GraphSession.Url.Basic
import GraphSession.Url.Domain
import GraphSession.Url.Path
import GraphSession.Url.Punycode
import GraphSession.Url.Reader
import GraphSession.Proofs.Cache.Capacity
import GraphSession.Proofs.Cache.Collection
import GraphSession.Proofs.Cache.Course
import GraphSession.Proofs.Cache.Entries
import GraphSession.Proofs.Cache.Eviction
import GraphSession.Proofs.Cache.History
import GraphSession.Proofs.Cache.Reading
import GraphSession.Proofs.Channel.Delivery
import GraphSession.Proofs.Channel.Lines
import GraphSession.Proofs.Editor.Adoption
import GraphSession.Proofs.Editor.Correspondence
import GraphSession.Proofs.Editor.Edits
import GraphSession.Proofs.Editor.Occurrence
import GraphSession.Proofs.Editor.Survival
import GraphSession.Proofs.Files.Course
import GraphSession.Proofs.Files.Direct
import GraphSession.Proofs.Files.Overtaken
import GraphSession.Proofs.Files.Service
import GraphSession.Proofs.Json.Decoding
import GraphSession.Proofs.Json.Floats
import GraphSession.Proofs.Json.Numerals
import GraphSession.Proofs.Json.Reading
import GraphSession.Proofs.Json.Records
import GraphSession.Proofs.Json.Strings
import GraphSession.Proofs.Json.WellFormed
import GraphSession.Proofs.Maps.Entries
import GraphSession.Proofs.Output.Survival
import GraphSession.Proofs.Output.Thumbnail
import GraphSession.Proofs.Patch.Edits
import GraphSession.Proofs.Patch.Effect
import GraphSession.Proofs.Patch.Exchange
import GraphSession.Proofs.Patch.Fields
import GraphSession.Proofs.Patch.Grammar
import GraphSession.Proofs.Patch.Granularity
import GraphSession.Proofs.Patch.Locality
import GraphSession.Proofs.Patch.Outline
import GraphSession.Proofs.Patch.Rejection
import GraphSession.Proofs.Patch.Replay
import GraphSession.Proofs.Patch.Selectors
import GraphSession.Proofs.Patch.Skeleton
import GraphSession.Proofs.Patch.Survival
import GraphSession.Proofs.Patch.Verdict
import GraphSession.Proofs.Patch.WellFormed
import GraphSession.Proofs.Project.Alike
import GraphSession.Proofs.Project.Decoded
import GraphSession.Proofs.Project.Reply
import GraphSession.Proofs.Project.Routing
import GraphSession.Proofs.Project.Survival
import GraphSession.Proofs.Project.WellFormed
import GraphSession.Proofs.Remote.Endpoints
import GraphSession.Proofs.Remote.TaskAddress
import GraphSession.Proofs.Schedule.Flights
import GraphSession.Proofs.Schedule.Moments
import GraphSession.Proofs.Schedule.Places
import GraphSession.Proofs.Session.Change
import GraphSession.Proofs.Session.Content
import GraphSession.Proofs.Session.Course
import GraphSession.Proofs.Session.Exclusion
import GraphSession.Proofs.Session.Failure
import GraphSession.Proofs.Session.Order
import GraphSession.Proofs.Session.Problem
import GraphSession.Proofs.Session.Progress
import GraphSession.Proofs.Session.Record
import GraphSession.Proofs.Session.Rehearsal
import GraphSession.Proofs.Session.Seat
import GraphSession.Proofs.Session.SingleTask
import GraphSession.Proofs.Session.SlotState
import GraphSession.Proofs.Session.Syncing
import GraphSession.Proofs.Session.WriteBack
import GraphSession.Proofs.Settings.Document
import GraphSession.Proofs.Settings.Variables
import GraphSession.Proofs.Task.Admission
import GraphSession.Proofs.Task.Cancellation
import GraphSession.Proofs.Task.Course
import GraphSession.Proofs.Task.Ending
import GraphSession.Proofs.Task.Events
import GraphSession.Proofs.Task.Frames
import GraphSession.Proofs.Task.Intake
import GraphSession.Proofs.Task.Ledger
import GraphSession.Proofs.Task.Occupancy
import GraphSession.Proofs.Task.Rehearsal
import GraphSession.Proofs.Task.Release
import GraphSession.Proofs.Task.Silence
import GraphSession.Proofs.Task.Slot
import GraphSession.Proofs.Task.SlotState
import GraphSession.Proofs.Task.Stream
import GraphSession.Proofs.Task.Turn
import GraphSession.Proofs.Text.Base64
import GraphSession.Proofs.Text.Cutting
import GraphSession.Proofs.Text.Percent
import GraphSession.Proofs.Text.Utf8
import GraphSession.Proofs.Timer.Delivery
import GraphSession.Proofs.Timer.Nodes
import GraphSession.Proofs.Toml.Lines
import GraphSession.Proofs.Toml.Texts
import GraphSession.Proofs.Url.Components
import GraphSession.Proofs.Url.Query
import GraphSession.Proofs.Url.Reading
import GraphSession.Proofs.Url.Segments
import GraphSession.Proofs.Wire.Survival
