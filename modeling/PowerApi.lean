import PowerApi.Transition
import PowerApi.Slots
import PowerApi.Bytes
import PowerApi.Msg
import PowerApi.CStrings
import PowerApi.RingBuffer
import PowerApi.Buffer
import PowerApi.BoundedFifo
import PowerApi.Queue
import PowerApi.ClientTable
import PowerApi.Connections
import PowerApi.Peers
import PowerApi.Commands
import PowerApi.Auth
import PowerApi.Task
import PowerApi.Subscribers
import PowerApi.TaskRegistry
import PowerApi.TaskRuns
import PowerApi.TaskInterval
import PowerApi.Conn
import PowerApi.Server
import PowerApi.Disconnect
import PowerApi.Receive
import PowerApi.Send
import PowerApi.ClientSocket
import PowerApi.Framing
import PowerApi.Provenance
import PowerApi.CpuService
import PowerApi.Service
import PowerApi.Answers
import PowerApi.Gone
import PowerApi.Links
import PowerApi.WaitList
import PowerApi.Calls
import PowerApi.SeqIds
import PowerApi.Waiting
import PowerApi.Removal
import PowerApi.Responses
import PowerApi.Clients
import PowerApi.Licence
import PowerApi.Authority
import PowerApi.Payloads
import PowerApi.Metadata
import PowerApi.Impersonation
import PowerApi.CpuReaders
import PowerApi.Leftovers
import PowerApi.Getters
import PowerApi.Startup
import PowerApi.Config
import PowerApi.Directory
import PowerApi.Governors
import PowerApi.KeyStore
import PowerApi.Settings
import PowerApi.ReadBuffer
import PowerApi.RangeRoundTrip
import PowerApi.Policies
import PowerApi.Frequencies
import PowerApi.Domains
import PowerApi.Arrays
import PowerApi.Writing
import PowerApi.Reading
import PowerApi.StatLines
import PowerApi.Usage
import PowerApi.CpuLines
import PowerApi.CpuAttributes
import PowerApi.Tables
import PowerApi.SocketLoop
import PowerApi.Ownership
import PowerApi.SocketFd
import PowerApi.Sampling
import PowerApi.ConfigItems
import PowerApi.ConfigValues
import PowerApi.UnknownKeys
import PowerApi.ConfigBuffers
import PowerApi.Crc
import PowerApi.Crc32
import PowerApi.DiskNames
import PowerApi.Greatest
import PowerApi.Rotation
import PowerApi.Logger
import PowerApi.WaitRuns
import PowerApi.PolicyArrays
import PowerApi.Traced
import PowerApi.InPlace
import PowerApi.Trims
import PowerApi.Substr
import PowerApi.Splitting
import PowerApi.ReadNums
import PowerApi.Conduit
import PowerApi.InOrder
import PowerApi.ConfigWatch
import PowerApi.Samples
import PowerApi.Pacing
import PowerApi.Locks
import PowerApi.Locking
import PowerApi.Rendezvous
import PowerApi.Handlers
import PowerApi.Remote
import PowerApi.Workers
import PowerApi.TaskThreads
import PowerApi.PerfLines
