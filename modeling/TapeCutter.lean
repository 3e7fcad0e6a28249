import TapeCutter.AccessPoint
import TapeCutter.Board
import TapeCutter.Console
import TapeCutter.Controller.Event
import TapeCutter.Controller.State
import TapeCutter.Controller.Step
import TapeCutter.Dns.Header
import TapeCutter.Dns.Name
import TapeCutter.Dns.Query
import TapeCutter.Dns.Reply
import TapeCutter.Dns.Resolver
import TapeCutter.Fault
import TapeCutter.Firmware
import TapeCutter.Front
import TapeCutter.Interlock.Guard
import TapeCutter.Interlock.Observers
import TapeCutter.Json.Fields
import TapeCutter.Json.Literal
import TapeCutter.Json.Text
import TapeCutter.Json.Token
import TapeCutter.Json.Value
import TapeCutter.Log
import TapeCutter.Menu.Autorepeat
import TapeCutter.Menu.Dial
import TapeCutter.Menu.Row
import TapeCutter.Menu.Stick
import TapeCutter.Panel.Cable
import TapeCutter.Panel.Chip
import TapeCutter.Panel.Signal
import TapeCutter.Portal.Http
import TapeCutter.Portal.Page
import TapeCutter.Portal.Request
import TapeCutter.Portal.Route
import TapeCutter.Portal.Snapshot
import TapeCutter.Proofs.Console.Levels
import TapeCutter.Proofs.Console.Openings
import TapeCutter.Proofs.Controller.Calls
import TapeCutter.Proofs.Controller.History
import TapeCutter.Proofs.Controller.Interlude
import TapeCutter.Proofs.Controller.Job
import TapeCutter.Proofs.Controller.Pause
import TapeCutter.Proofs.Controller.Recall
import TapeCutter.Proofs.Controller.Stages
import TapeCutter.Proofs.Controller.Steering
import TapeCutter.Proofs.Controller.StopButton
import TapeCutter.Proofs.Controller.Switch
import TapeCutter.Proofs.Interlock.Memory
import TapeCutter.Proofs.Interlock.SharedLatch
import TapeCutter.Proofs.Interlock.Timeline
import TapeCutter.Proofs.Run.Course
import TapeCutter.Proofs.Screen.Locality
import TapeCutter.Run.Machine
import TapeCutter.Run.Status
import TapeCutter.Screen.Display
import TapeCutter.Screen.Draw
import TapeCutter.Screen.Font
import TapeCutter.Screen.Frame
import TapeCutter.Screen.Shape
import TapeCutter.Sequencer.Feedback
import TapeCutter.Sequencer.Outbox
import TapeCutter.Settings.Basic
import TapeCutter.Settings.File
import TapeCutter.Settings.Rules
import TapeCutter.StatusReport
import TapeCutter.Text.Bounded
import TapeCutter.Text.Decimal
import TapeCutter.Proofs.Front.Mirror
import TapeCutter.Proofs.Controller.Replay
import TapeCutter.Proofs.Controller.Scenes
import TapeCutter.Proofs.Controller.Hearing
import TapeCutter.Proofs.Front.Race
import TapeCutter.Proofs.Controller.Gleaning
import TapeCutter.Proofs.Controller.Moves
import TapeCutter.Proofs.Menu.Ring
import TapeCutter.Proofs.Controller.Tally
import TapeCutter.Proofs.Controller.Repetition
import TapeCutter.Proofs.Controller.Progress
import TapeCutter.Proofs.Clock.Shift
import TapeCutter.Proofs.Interlock.Independence
import TapeCutter.Proofs.Sequencer.Exchange
import TapeCutter.ControlLoop
import TapeCutter.Proofs.ControlLoop.Steps
import TapeCutter.Proofs.ControlLoop.Handover
import TapeCutter.Proofs.ControlLoop.Completion
import TapeCutter.Proofs.ControlLoop.Firmware
import TapeCutter.Proofs.Dns.Questions
import TapeCutter.Dns.Message
import TapeCutter.Proofs.Dns.Replies
import TapeCutter.Proofs.Dns.Service
import TapeCutter.Proofs.Portal.Visits
import TapeCutter.Proofs.Json.Formats
import TapeCutter.Proofs.Portal.Service
import TapeCutter.Proofs.Portal.CaptiveLoop
import TapeCutter.Proofs.Screen.Grid
import TapeCutter.Proofs.Panel.Recovery
import TapeCutter.Proofs.Front.Refusals
import TapeCutter.Proofs.Settings.Credentials
import TapeCutter.Proofs.Controller.Centring
import TapeCutter.Proofs.Dns.Lengths
import TapeCutter.Proofs.Dns.Dependence
import TapeCutter.Proofs.Portal.Parameters
import TapeCutter.Proofs.Screen.Regions
import TapeCutter.Proofs.Portal.StatusPage
import TapeCutter.Proofs.Settings.DeadZone
