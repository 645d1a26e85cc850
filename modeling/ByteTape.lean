import ByteTape.Brackets.Jumps
import ByteTape.Brackets.Scan
import ByteTape.Brackets.Table
import ByteTape.CommandLine
import ByteTape.CommandLine.Options
import ByteTape.Config
import ByteTape.Device
import ByteTape.Device.Buffer
import ByteTape.Device.Pipe
import ByteTape.Display.Canvas
import ByteTape.Display.Drawing
import ByteTape.Display.Grid
import ByteTape.Display.Keyboard
import ByteTape.Display.OutputPane
import ByteTape.Display.ProgramPane
import ByteTape.Display.Scene
import ByteTape.Display.Screen
import ByteTape.Display.Sitting
import ByteTape.Display.StatusBar
import ByteTape.Display.Style
import ByteTape.Display.TapePane
import ByteTape.Engine
import ByteTape.Failure
import ByteTape.Files
import ByteTape.Instruction
import ByteTape.Machine.Run
import ByteTape.Machine.State
import ByteTape.Machine.StopPlan
import ByteTape.Main
import ByteTape.Output.Column
import ByteTape.Output.Lines
import ByteTape.Program
import ByteTape.Program.Parse
import ByteTape.Proofs.Brackets.Balance
import ByteTape.Proofs.Brackets.Nesting
import ByteTape.Proofs.Brackets.Partners
import ByteTape.Proofs.Brackets.Walks
import ByteTape.Proofs.Brackets.Matching
import ByteTape.Proofs.Engine.History
import ByteTape.Proofs.Machine.Bounds
import ByteTape.Proofs.Machine.BracketFaults
import ByteTape.Proofs.Machine.Cancellation
import ByteTape.Proofs.Machine.Executions
import ByteTape.Proofs.Machine.JumpStrategies
import ByteTape.Proofs.Machine.LongerTapes
import ByteTape.Proofs.Machine.Observation
import ByteTape.Proofs.Machine.Record
import ByteTape.Proofs.Machine.Requests
import ByteTape.Proofs.Machine.Rules
import ByteTape.Proofs.Machine.Simulation
import ByteTape.Proofs.Machine.Steps
import ByteTape.Proofs.Machine.Trace
import ByteTape.Proofs.Machine.Turns
import ByteTape.Proofs.Machine.Views
import ByteTape.Proofs.Program.Acceptance
import ByteTape.Proofs.Source.Letters
import ByteTape.Proofs.Structure.Block
import ByteTape.Proofs.Structure.Echo
import ByteTape.Proofs.Structure.Equivalence
import ByteTape.Proofs.Structure.Evaluation
import ByteTape.Proofs.Structure.Product
import ByteTape.Proofs.Structure.Refinement
import ByteTape.Proofs.Structure.Sources
import ByteTape.Source.Location
import ByteTape.Source.Token
import ByteTape.Tape
import ByteTape.Text.Utf8
import ByteTape.Proofs.Device.Conservation
import ByteTape.Proofs.Device.Scripts
import ByteTape.Proofs.Machine.Following
import ByteTape.Proofs.Device.Pipes
import ByteTape.Proofs.Display.Frames
import ByteTape.Proofs.Display.ProgramPanes
import ByteTape.Proofs.Display.Scenes
import ByteTape.Proofs.Display.Screens
import ByteTape.Proofs.Display.Headless
import ByteTape.Proofs.Display.Status
import ByteTape.Proofs.Display.TapePanes
import ByteTape.Proofs.Source.Positions
import ByteTape.Proofs.Tape.Actions
import ByteTape.Proofs.Machine.Relocation
import ByteTape.Proofs.Program.Layout
import ByteTape.Proofs.Device.Supplies
import ByteTape.Proofs.Device.PlainPipes
import ByteTape.Proofs.CommandLine.Outcome
import ByteTape.Proofs.Output.Columns
import ByteTape.Proofs.Display.OutputPanes
