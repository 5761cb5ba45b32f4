import MapScript.CommandLine.Directory
import MapScript.Image.Assembly
import MapScript.Main
import MapScript.Proofs.Image.Assembly
import MapScript.Proofs.Image.Drafts
import MapScript.Proofs.Image.Reachability
import MapScript.Proofs.Image.Tables
import MapScript.Proofs.InstanceTable
import MapScript.Proofs.Interpreter.Effects
import MapScript.Proofs.Interpreter.Slices
import MapScript.Proofs.Machine.Advances
import MapScript.Proofs.Machine.Invariants
import MapScript.Proofs.Machine.Loads
import MapScript.Proofs.Machine.Runs
import MapScript.Proofs.Machine.Snapshots
import MapScript.Proofs.Machine.Transparency
import MapScript.Proofs.Text.Utf8
import MapScript.Proofs.Machine.Starts
import MapScript.Proofs.Machine.Requests
import MapScript.Proofs.Machine.Turns
import MapScript.Proofs.Machine.Isolation
import MapScript.Proofs.Machine.ScriptWaits
import MapScript.Proofs.Interpreter.Busyness
import MapScript.Proofs.Machine.Notifications
import MapScript.Proofs.Interpreter.Specials
import MapScript.Proofs.Machine.Ledger
import MapScript.Proofs.Image.Format
import MapScript.Proofs.Image.Cells
import MapScript.Proofs.Image.CheckedCode
import MapScript.Proofs.Image.CheckedParse
import MapScript.Proofs.Json.Lexing
import MapScript.Proofs.Json.Documents
import MapScript.Proofs.Json.Faithful
import MapScript.Proofs.Machine.SavedSnapshots
import MapScript.Proofs.Machine.Bystanders
import MapScript.Proofs.Machine.Terminating
import MapScript.Proofs.Machine.Delays
import MapScript.Proofs.Machine.Newcomers
import MapScript.Proofs.Interpreter.Hosts
import MapScript.Proofs.Machine.Departures
import MapScript.Proofs.Machine.Draining
import MapScript.Proofs.CommandLine.Recordings
import MapScript.Proofs.Interpreter.Faults
import MapScript.Proofs.Interpreter.Forms
import MapScript.Proofs.Interpreter.Kinds
import MapScript.Proofs.Interpreter.Iteration
import MapScript.Proofs.Machine.Limits
import MapScript.Proofs.Interpreter.StackEffects
import MapScript.Proofs.Machine.Lifecycle
import MapScript.Proofs.Machine.Replays
import MapScript.Proofs.Interpreter.Variables
import MapScript.Proofs.Interpreter.Draws
import MapScript.Proofs.Machine.Messages
import MapScript.Proofs.Text.Blank
import MapScript.Proofs.CommandLine.StartRequests
import MapScript.Proofs.Image.Encoding
import MapScript.Proofs.Image.SearchLength
