import VideoOutput.Bench
import VideoOutput.Main
import VideoOutput.Proofs.Effect
import VideoOutput.Proofs.Rig
import VideoOutput.Proofs.Consistency
import VideoOutput.Proofs.Cycle
import VideoOutput.Proofs.OutputFlag
import VideoOutput.Proofs.Grammar
import VideoOutput.Proofs.Reading
import VideoOutput.Proofs.Assembly
import VideoOutput.Proofs.Handles
import VideoOutput.Proofs.Refusal
import VideoOutput.Proofs.DataArea
import VideoOutput.Proofs.BlobLayout
import VideoOutput.Proofs.DraftBuffer
import VideoOutput.Proofs.ExtensionLayout
import VideoOutput.Proofs.RoundTrip
import VideoOutput.Proofs.Overflow
import VideoOutput.Proofs.Waiting
import VideoOutput.Proofs.Link
import VideoOutput.Proofs.Remembered
import VideoOutput.Proofs.Ledger
import VideoOutput.Proofs.Callbacks
import VideoOutput.Proofs.Delivery
import VideoOutput.Proofs.Schedule
import VideoOutput.Proofs.Restart
import VideoOutput.Proofs.Catalog
import VideoOutput.Proofs.InUse
import VideoOutput.Proofs.Offered
import VideoOutput.Proofs.HdmiAddress
import VideoOutput.Proofs.NameText
import VideoOutput.Proofs.LastWrites
import VideoOutput.Proofs.DraftedIdentity
import VideoOutput.Proofs.Ignored
import VideoOutput.Proofs.Recent
import VideoOutput.Proofs.Watched
import VideoOutput.Proofs.Access
import VideoOutput.Proofs.Naming
import VideoOutput.Proofs.Settled
import VideoOutput.Proofs.TableFaults
import VideoOutput.Proofs.Selection
import VideoOutput.Proofs.Geometries
import VideoOutput.Proofs.Recall
import VideoOutput.Proofs.Declarations
import VideoOutput.Proofs.CodeLists
import VideoOutput.Proofs.Corruption
import VideoOutput.Proofs.JsonText
import VideoOutput.Proofs.WrittenSettings
import VideoOutput.Proofs.SettingsReader
import VideoOutput.Proofs.SettingsText
import VideoOutput.Proofs.Numerals
import VideoOutput.Proofs.AddressText
import VideoOutput.Proofs.Variables
import VideoOutput.Proofs.UnknownNames
import VideoOutput.Proofs.Description
import VideoOutput.Proofs.DisplayCommand
import VideoOutput.Proofs.CommandLine
import VideoOutput.Proofs.LineReading
import VideoOutput.Proofs.FlagPlaces
