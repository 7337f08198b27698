import FleetBoard.Call.Context
import FleetBoard.CommandLine.Launch
import FleetBoard.Log.Relay
import FleetBoard.Log.Snapshot
import FleetBoard.Main
import FleetBoard.Proofs.Log.Channels
import FleetBoard.Server.Basic
import FleetBoard.Time.Bound
import FleetBoard.Proofs.Log.Reads
import FleetBoard.Proofs.Log.Turns
import FleetBoard.Proofs.Log.Verbatim
import FleetBoard.Proofs.Log.LivePath
import FleetBoard.Proofs.Usage.CacheRuns
import FleetBoard.Proofs.Usage.Expiry
import FleetBoard.Proofs.Usage.CacheSize
import FleetBoard.Proofs.Call.Endings
import FleetBoard.Proofs.Call.Guarded
import FleetBoard.Proofs.Call.Forest
import FleetBoard.Proofs.Call.Lineage
import FleetBoard.Proofs.Engine.Calls
import FleetBoard.Proofs.Fleet.FanOut
import FleetBoard.Proofs.Fleet.Listing
import FleetBoard.Proofs.Fleet.Partition
import FleetBoard.Proofs.Fleet.Share
import FleetBoard.Proofs.Fleet.Traffic
import FleetBoard.Proofs.Fleet.Schedules
import FleetBoard.Proofs.Fleet.Provenance
import FleetBoard.Proofs.Fleet.Strangers
import FleetBoard.Proofs.Fleet.OneByOne
import FleetBoard.Proofs.Fleet.CacheThrough
import FleetBoard.Proofs.Time.Calendar
import FleetBoard.Proofs.Time.Forms
import FleetBoard.Proofs.Time.Layouts
import FleetBoard.Proofs.Text.Trimming
import FleetBoard.Proofs.Time.Written
import FleetBoard.Proofs.Log.Timestamps
import FleetBoard.Proofs.Text.Utf8
import FleetBoard.Proofs.Text.Boundary
import FleetBoard.Proofs.Text.Lossy
import FleetBoard.Proofs.Json.Reading
import FleetBoard.Proofs.Time.Rfc3339
import FleetBoard.Proofs.Log.Lossless
import FleetBoard.Proofs.Log.LongestPrefix
import FleetBoard.Proofs.Log.Splitting
import FleetBoard.Proofs.Log.LongLines
import FleetBoard.Proofs.Server.Refusals
import FleetBoard.Proofs.Text.Words
import FleetBoard.Proofs.Log.Levels
import FleetBoard.Proofs.Time.Ends
import FleetBoard.Proofs.Log.Stamped
import FleetBoard.Proofs.Log.Checks
import FleetBoard.Proofs.Log.Outcomes
import FleetBoard.Proofs.Log.Colours
import FleetBoard.Proofs.Log.Overriding
import FleetBoard.Proofs.Text.Pieces
import FleetBoard.Proofs.Host.HostLists
import FleetBoard.Proofs.Engine.Selection
import FleetBoard.Proofs.Server.LogRequests
import FleetBoard.Proofs.Decimal.Doubles
import FleetBoard.Proofs.Decimal.Fractions
import FleetBoard.Proofs.Time.Lengths
import FleetBoard.Proofs.Time.Typed
import FleetBoard.Proofs.Time.Bounds
import FleetBoard.Proofs.Fleet.Registering
import FleetBoard.Proofs.Usage.Documents
