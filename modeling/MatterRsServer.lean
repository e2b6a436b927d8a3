import MatterRsServer.Lib.OrdMap
import MatterRsServer.Lib.Transition
import MatterRsServer.Lib.Interleaving
import MatterRsServer.Lib.Mirror
import MatterRsServer.Wire.Json
import MatterRsServer.Controller.Registry
import MatterRsServer.Controller.NodeManager
import MatterRsServer.Controller.Addr
import MatterRsServer.Controller.Commands
import MatterRsServer.Controller.Reporting
import MatterRsServer.Controller.NodeFiles
import MatterRsServer.Lib.Mutex
import MatterRsServer.Lib.Updates
import MatterRsServer.Controller.AllocLock
import MatterRsServer.Controller.EventStream
import MatterRsServer.Controller.Lifecycle
import MatterRsServer.Controller.InterviewCache
import MatterRsServer.Server.Handover
import MatterRsServer.Controller.Grace
import MatterRsServer.Lib.Text
import MatterRsServer.Lib.Base64
import MatterRsServer.Lib.Grouping
import MatterRsServer.Gen.Tables
import MatterRsServer.Stack.Tlv
import MatterRsServer.Stack.TlvJson
import MatterRsServer.Stack.TlvRead
import MatterRsServer.Stack.Reports
import MatterRsServer.Stack.Reassembly
import MatterRsServer.Stack.ChunkedList
import MatterRsServer.Lib.Replay
import MatterRsServer.Migrate.Jsdb
import MatterRsServer.Migrate.Compaction
import MatterRsServer.Stack.TlvWrite
import MatterRsServer.Stack.ReadWriteBack
import MatterRsServer.Stack.NamedRoundTrip
import MatterRsServer.Lib.Isolation
import MatterRsServer.Lib.HighWater
import MatterRsServer.Stack.ReportSink
import MatterRsServer.Stack.ReportIsolation
import MatterRsServer.Stack.CachedList
import MatterRsServer.Stack.Supervisor
import MatterRsServer.Stack.EventForwarding
import MatterRsServer.Lib.Outline
import MatterRsServer.Lib.Serial
import MatterRsServer.Controller.Steps
import MatterRsServer.Controller.ConfigChanges
import MatterRsServer.Controller.NodeIds
import MatterRsServer.Controller.ConfigWrites
import MatterRsServer.Controller.Credentials
import MatterRsServer.Server.Supervision
import MatterRsServer.Controller.Availability
import MatterRsServer.Lib.Faults
import MatterRsServer.Controller.StoredJson
import MatterRsServer.Controller.Storage
import MatterRsServer.Migrate.Decode
import MatterRsServer.Migrate.Convert
import MatterRsServer.Migrate.TaggedDocuments
import MatterRsServer.Migrate.FabricIndexes
import MatterRsServer.Migrate.Checks
import MatterRsServer.Migrate.Migration
import MatterRsServer.Controller.Allocation
import MatterRsServer.Migrate.Preservation
import MatterRsServer.Stack.Futures
import MatterRsServer.Stack.Cleanup
import MatterRsServer.Stack.Replacement
import MatterRsServer.Lib.FileSystem
import MatterRsServer.Controller.AtomicWrite
import MatterRsServer.Stack.Identity
import MatterRsServer.Controller.FabricLabel
import MatterRsServer.Controller.ServerInfo
import MatterRsServer.Stack.NamedAgrees
import MatterRsServer.Stack.TlvCalls
import MatterRsServer.Stack.Canonical
import MatterRsServer.Stack.Retagged
import MatterRsServer.Migrate.WalOrder
import MatterRsServer.Controller.AttributePath
import MatterRsServer.Gen.Build
import MatterRsServer.Lib.Inet
import MatterRsServer.Lib.InetText
import MatterRsServer.Lib.Result
import MatterRsServer.Stack.Addresses
import MatterRsServer.Controller.OnNetwork
import MatterRsServer.Stack.Targets
import MatterRsServer.Controller.AccessControl
import MatterRsServer.Stack.Interfaces
import MatterRsServer.Lib.Deeds
import MatterRsServer.Controller.Commissioning
import MatterRsServer.Lib.Call
import MatterRsServer.Migrate.Planning
import MatterRsServer.Gen.Idl
import MatterRsServer.Gen.IdlLines
import MatterRsServer.Gen.Members
import MatterRsServer.Gen.Blocks
import MatterRsServer.Gen.Extraction
import MatterRsServer.Gen.Completeness
import MatterRsServer.Lib.Der
import MatterRsServer.Stack.SerialNumbers
import MatterRsServer.Lib.Utf8
import MatterRsServer.Stack.Labels
import MatterRsServer.Lib.Hex
import MatterRsServer.Controller.ThreadDatasets
import MatterRsServer.Stack.Integers
import MatterRsServer.Stack.Responses
import MatterRsServer.Lib.Deadline
import MatterRsServer.Stack.Sweep
import MatterRsServer.Lib.Broadcast
import MatterRsServer.Server.Envelope
import MatterRsServer.Server.WebSocket
import MatterRsServer.Lib.Places
import MatterRsServer.Server.RequestLoop
import MatterRsServer.Server.OneStack
import MatterRsServer.Stack.Watchdog
import MatterRsServer.Stack.CommandArgs
import MatterRsServer.Stack.Window
import MatterRsServer.Controller.DeviceCommands
import MatterRsServer.Stack.Fabrics
import MatterRsServer.Stack.Reads
import MatterRsServer.Server.DeviceCalls
import MatterRsServer.Server.Commissioned
import MatterRsServer.Server.DeviceReads
import MatterRsServer.Server.Discovery
import MatterRsServer.Lib.BinarySearch
import MatterRsServer.Lib.FirstSeen
import MatterRsServer.Gen.Lookup
import MatterRsServer.Controller.Restart
import MatterRsServer.Controller.Lives
import MatterRsServer.Controller.EventRelay
import MatterRsServer.Controller.Vendors
import MatterRsServer.Controller.NodeAddresses
import MatterRsServer.Server.Logging
import MatterRsServer.Lib.Course
import MatterRsServer.Stack.Commission
