import TapeMachine.CommandLine.Argument
import TapeMachine.CommandLine.Executor
import TapeMachine.CommandLine.Flag
import TapeMachine.CommandLine.Shape
import TapeMachine.CommandLine.Usage
import TapeMachine.Config.Atom
import TapeMachine.Config.Eval
import TapeMachine.Config.Language
import TapeMachine.Config.Loader
import TapeMachine.Config.Operator
import TapeMachine.Config.Parser
import TapeMachine.Config.Path
import TapeMachine.Config.Quoted
import TapeMachine.Config.Scope
import TapeMachine.Config.Term
import TapeMachine.Config.Token
import TapeMachine.Config.Value
import TapeMachine.Display.Tape
import TapeMachine.Files.Tree
import TapeMachine.Log.JournalKey
import TapeMachine.Log.Line
import TapeMachine.Log.Logger
import TapeMachine.Log.SpanName
import TapeMachine.Machine.Basic
import TapeMachine.Machine.Run
import TapeMachine.Machine.Tape
import TapeMachine.Main
import TapeMachine.Net.HostName
import TapeMachine.Net.Ip
import TapeMachine.Net.ListenAddress
import TapeMachine.Net.Network
import TapeMachine.Net.Port
import TapeMachine.Number.Binary
import TapeMachine.Number.Double
import TapeMachine.Number.Integer
import TapeMachine.Number.Shortest
import TapeMachine.Program.Basic
import TapeMachine.Program.Command
import TapeMachine.Proofs.Program.Balance
import TapeMachine.Proofs.Program.Resolve
import TapeMachine.Script.Arguments
import TapeMachine.Script.Compare
import TapeMachine.Script.Eval
import TapeMachine.Script.Format
import TapeMachine.Script.Host
import TapeMachine.Script.HostValue
import TapeMachine.Script.Library
import TapeMachine.Script.LineInput
import TapeMachine.Script.Literal
import TapeMachine.Script.Marks
import TapeMachine.Script.Members
import TapeMachine.Script.Names
import TapeMachine.Script.Operator
import TapeMachine.Script.Parser
import TapeMachine.Script.Session
import TapeMachine.Script.Source
import TapeMachine.Script.TextMembers
import TapeMachine.Script.Token
import TapeMachine.Script.Tree
import TapeMachine.Script.Value
import TapeMachine.Session.Run
import TapeMachine.Settings.Files
import TapeMachine.Settings.Mode
import TapeMachine.Settings.Values
import TapeMachine.Text.Bytes
import TapeMachine.Text.Case
import TapeMachine.Text.CodePointSet
import TapeMachine.Text.Duration
import TapeMachine.Text.Escapes
import TapeMachine.Text.Json
import TapeMachine.Text.JsonString
import TapeMachine.Text.Letter
import TapeMachine.Text.Pattern
import TapeMachine.Text.Printable
import TapeMachine.Text.Quoted
import TapeMachine.Text.Sink
import TapeMachine.Text.Spelling
import TapeMachine.Text.Truth
import TapeMachine.Text.Utf8
import TapeMachine.Tool.Execute
import TapeMachine.Tool.Options
import TapeMachine.Tool.Report
import TapeMachine.Trace.Writer
import TapeMachine.Viewer.Help
import TapeMachine.Viewer.Key
import TapeMachine.Viewer.Model
import TapeMachine.Viewer.Prompt
import TapeMachine.Viewer.View
import TapeMachine.Web.Frame
import TapeMachine.Web.Limits
import TapeMachine.Web.Page
import TapeMachine.Web.Route
import TapeMachine.Web.Screen
import TapeMachine.Web.Serve
import TapeMachine.Web.Server
import TapeMachine.Web.Slots
import TapeMachine.Web.Stream
import TapeMachine.Yaml.Node
import TapeMachine.Yaml.Scalar
import TapeMachine.Yaml.Timestamp
import TapeMachine.Proofs.Program.Load
import TapeMachine.Proofs.Machine.Step
import TapeMachine.Proofs.Machine.Run
import TapeMachine.Proofs.Machine.Call
import TapeMachine.Proofs.Machine.Range
import TapeMachine.Proofs.Machine.Extent
import TapeMachine.Proofs.Machine.Loops
import TapeMachine.Proofs.Machine.Cut
import TapeMachine.Proofs.Machine.Watch
import TapeMachine.Proofs.Machine.Chain
import TapeMachine.Proofs.Machine.Fault
import TapeMachine.Proofs.Text.Utf8
import TapeMachine.Proofs.Trace.Stream
import TapeMachine.Proofs.Machine.Queue
import TapeMachine.Proofs.Machine.Translation
import TapeMachine.Proofs.Machine.Sequence
import TapeMachine.Proofs.Machine.Supply
import TapeMachine.Proofs.Viewer.Autoplay
import TapeMachine.Proofs.Web.Handlers
import TapeMachine.Proofs.Web.Server
import TapeMachine.Proofs.Web.Frames
import TapeMachine.Proofs.CommandLine.Turn
import TapeMachine.Proofs.CommandLine.Table
import TapeMachine.Proofs.CommandLine.Flag
import TapeMachine.Proofs.CommandLine.Definition
import TapeMachine.Proofs.Machine.Halt
import TapeMachine.Proofs.Machine.Summary
import TapeMachine.Proofs.CommandLine.Segments
import TapeMachine.Proofs.Text.Sink
import TapeMachine.Proofs.Tool.Report
import TapeMachine.Proofs.Tool.Execute
import TapeMachine.Proofs.CommandLine.Join
import TapeMachine.Proofs.CommandLine.Usage
import TapeMachine.Proofs.CommandLine.ShownNames
import TapeMachine.Proofs.Text.Escapes
import TapeMachine.Proofs.Text.Layout
import TapeMachine.Proofs.Display.Columns
import TapeMachine.Proofs.Text.Parts
import TapeMachine.Proofs.Tool.Input
import TapeMachine.Proofs.Display.Output
import TapeMachine.Proofs.Tool.Shown
import TapeMachine.Proofs.Web.Json
import TapeMachine.Proofs.Viewer.Shown
import TapeMachine.Proofs.Display.Shown
import TapeMachine.Proofs.Display.Caret
import TapeMachine.Proofs.Viewer.Following
import TapeMachine.Proofs.Viewer.Delay
import TapeMachine.Proofs.Viewer.Windows
import TapeMachine.Proofs.Config.Loader
import TapeMachine.Proofs.Session.Run
import TapeMachine.Proofs.Text.Letter
import TapeMachine.Proofs.Config.Path
import TapeMachine.Proofs.Config.Schema
import TapeMachine.Proofs.Tool.Options
import TapeMachine.Proofs.Settings.Values
import TapeMachine.Proofs.Net.Ip
import TapeMachine.Proofs.Net.ListenAddress
import TapeMachine.Proofs.Tool.ProgramFile
import TapeMachine.Proofs.Text.Json
import TapeMachine.Proofs.Web.Screen
