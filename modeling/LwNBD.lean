import LwNBD.Resumption.Rules
import LwNBD.Data.BigEndian
import LwNBD.Data.Slice
import LwNBD.Core.Uri
import LwNBD.Nbd.Refused
import LwNBD.Nbd.Bounds
import LwNBD.Nbd.Acknowledged
import LwNBD.Nbd.Stream
import LwNBD.Nbd.Framing
import LwNBD.Nbd.BlockDevice
import LwNBD.Nbd.ReadOnly
import LwNBD.Nbd.Phases
import LwNBD.Nbd.Selected
import LwNBD.Nbd.Isolation
import LwNBD.Nbd.Failures
import LwNBD.Nbd.Leaks
import LwNBD.Nbd.Callbacks
import LwNBD.Nbd.Haggling
import LwNBD.Nbd.Retries
import LwNBD.Nbd.SendFlags
import LwNBD.Nbd.Progress
import LwNBD.Nbd.Indices
import LwNBD.Nbd.Flags
import LwNBD.Nbd.Lookup
import LwNBD.Nbd.LongQueries
import LwNBD.Resumption.Only
import LwNBD.Plugins.Query
import LwNBD.Plugins.Params
import LwNBD.Plugins.Results
import LwNBD.Resumption.Count
import LwNBD.Data.Overlay
import LwNBD.Plugins.Mcman
import LwNBD.Plugins.Blocks
import LwNBD.Plugins.Pages
import LwNBD.Plugins.Erasure
import LwNBD.Resumption.Keeps
import LwNBD.Plugins.Geometry
import LwNBD.Plugins.Memory
import LwNBD.Plugins.Pieces
import LwNBD.Plugins.Builtin
import LwNBD.Plugins.Arguments
import LwNBD.Plugins.Instances
import LwNBD.Plugins.Echo
import LwNBD.Nbd.Exhaustion
import LwNBD.Plugins.Handles
import LwNBD.Core.Batch
import LwNBD.Plugins.File
import LwNBD.Plugins.Stalls
import LwNBD.Plugins.Descriptors
import LwNBD.Data.Ring
import LwNBD.Data.Runs
import LwNBD.Plugins.Tty
import LwNBD.Data.Path
import LwNBD.Plugins.Names
import LwNBD.Resumption.Twins
import LwNBD.Nbd.Secrets
import LwNBD.Plugins.Contents
import LwNBD.Nbd.Tcp
import LwNBD.Data.Blocks
import LwNBD.Data.Endless
import LwNBD.Servers.Chargen
import LwNBD.Resumption.Simulate
import LwNBD.Resumption.Yields
import LwNBD.Nbd.Sockets
import LwNBD.Nbd.Preinit
import LwNBD.Nbd.FileExport
import LwNBD.Nbd.CardExport
import LwNBD.Nbd.DriveExport
import LwNBD.Nbd.Service
import LwNBD.Nbd.Transfer
import LwNBD.Nbd.SpeakerExport
import LwNBD.Nbd.TerminalExport
import LwNBD.Data.Words
import LwNBD.Data.Swaps
import LwNBD.Xinetd.Config
import LwNBD.Xinetd.Threads
import LwNBD.Xinetd.Descriptors
import LwNBD.Xinetd.Streams
import LwNBD.Plugins.Faults
