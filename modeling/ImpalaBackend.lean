import ImpalaBackend.Common.Status
import ImpalaBackend.Runtime.ErrorLog
import ImpalaBackend.Runtime.MemLimit
import ImpalaBackend.Util.Counter
import ImpalaBackend.Util.HighWaterMarkThreads
import ImpalaBackend.Rpc.ThriftClient
import ImpalaBackend.Pythia.Project
import ImpalaBackend.Service.FragmentExecState
import ImpalaBackend.Service.StatusReporting
