import SandboxTEE.Quota.Enforcement
import SandboxTEE.Socket.Ownership
import SandboxTEE.DebugStub.EscapedData
import SandboxTEE.DebugStub.RoundTrip
import SandboxTEE.Vmmap.ProtectVerdict
import SandboxTEE.HostDesc.Errors
import SandboxTEE.HostDesc.Positional
import SandboxTEE.HostDesc.RoundTrip
import SandboxTEE.Xcall.EnclaveStart
import SandboxTEE.Memory.RaceDetector
import SandboxTEE.Validator.RegisterDiscipline
import SandboxTEE.DynamicText.Delete
import SandboxTEE.DynamicText.CopyCode
import SandboxTEE.DynamicText.CreateFailure
import SandboxTEE.Loader.Regions
import SandboxTEE.Futex.HostTimeout
import SandboxTEE.Xcall.PassFds
import SandboxTEE.HostDesc.KeyedTransfer
import SandboxTEE.HostDesc.OpenFlags
import SandboxTEE.Loader.Contents
import SandboxTEE.Imc.RoundTrip
import SandboxTEE.Memory.Brk
import SandboxTEE.Startup.StackImage
import SandboxTEE.HostDesc.Credentials
import SandboxTEE.HostDir.Session
import SandboxTEE.Stdlib.TimeConvert
import SandboxTEE.Attestation.Certificates
import SandboxTEE.Runtime.EnvCleanser
import SandboxTEE.FaultInjection.Schedules
import SandboxTEE.Heap.Alignment
import SandboxTEE.Heap.ReservedPages
import SandboxTEE.DynamicText.Modify
import SandboxTEE.Pthread.Semaphore
import SandboxTEE.Pthread.Mutex
import SandboxTEE.Pthread.CondVar
import SandboxTEE.Pthread.RwLock
import SandboxTEE.Sync.MutexWaits
import SandboxTEE.Pthread.ThreadLife
import SandboxTEE.Pthread.ThreadStack
import SandboxTEE.Pthread.Tsd
import SandboxTEE.Xcall.ThreadMap
import SandboxTEE.Runtime.Getcwd
import SandboxTEE.PllLoader.Lookup
import SandboxTEE.Pthread.TlsLayout
import SandboxTEE.DebugStub.SocketTransport
import SandboxTEE.Irt.CodeDataAlloc
import SandboxTEE.DebugStub.PacketVector
import SandboxTEE.DebugStub.Registers
import SandboxTEE.DebugStub.Reception
import SandboxTEE.DebugStub.IpcTransport
import SandboxTEE.Stdlib.PrintFmt
import SandboxTEE.Heap.AlignedMalloc
import SandboxTEE.FaultInjection.TableGrowth
import SandboxTEE.Validator.InstBoundary
import SandboxTEE.Measurement.Agreement
import SandboxTEE.Measurement.Binding
