import IpcMsq.Jam
import IpcMsq.Clients
import IpcMsq.Frames
import IpcMsq.Receive
import IpcMsq.Routing
import IpcMsq.Release
import IpcMsq.Mailbox
import IpcMsq.Semaphore
import IpcMsq.PingPong
import IpcMsq.Leak
import IpcMsq.Deadlock
import IpcMsq.Handlers
import IpcMsq.Wakeup
import IpcMsq.Files
import IpcMsq.Obtaining
import IpcMsq.SharedWindow
import IpcMsq.Descriptors
import IpcMsq.Counting
import IpcMsq.Service
import IpcMsq.Enables
import IpcMsq.Permits
import IpcMsq.Mutex
import IpcMsq.Overflow
import IpcMsq.Entries
import IpcMsq.StartUp
import IpcMsq.Probe
import IpcMsq.Dispatch
import IpcMsq.Retry
import IpcMsq.Names
import IpcMsq.Indices
import IpcMsq.KeyErrors
import IpcMsq.CoreOpen
