import ImpalaBackend.Runtime.ErrorLog

/-!
# A fragment's status and its reports

`FragmentExecState::UpdateStatus`, `Cancel` and `ReportStatusCb`
(`service/fragment-exec-state.cc`), one call at a time. The coordinator channel is given by
what it does during a report: whether the client cache hands out a connection, what each
`ReportExecStatus` call does (return a result or throw), and what `Reopen` returns. The plan
fragment executor is seen through its runtime state's error log and through
`executor_.Cancel()`, which is counted.
-/

namespace ImpalaBackend

structure TUniqueId where
  hi : Int
  lo : Int
  deriving DecidableEq, Repr

/-- The fields of `TReportExecStatusParams` that `ReportStatusCb` sets, apart from the constant
protocol version, the profile and the insert status. -/
structure TReportExecStatusParams where
  queryId : TUniqueId
  backendNum : Int
  fragmentInstanceId : TUniqueId
  status : TStatus
  done : Bool
  errorLog : List String
  deriving DecidableEq, Repr

/-- What one `coord->ReportExecStatus(res, params)` does: return `res.status`, or throw. -/
inductive RpcOutcome
  | returns (resStatus : TStatus)
  | transportException (what : String)
  | otherException (what : String)
  deriving DecidableEq, Repr

def RpcOutcome.isTransportException : RpcOutcome → Bool
  | .transportException _ => true
  | _ => false

/-- The coordinator channel during one report: `coord_status` from the client cache, the first
call, `coord.Reopen()`, and the retried call. -/
structure ChannelOutcome where
  clientStatus : Status
  firstCall : RpcOutcome
  reopenStatus : Status
  retryCall : RpcOutcome
  deriving DecidableEq, Repr

inductive ChannelEvent
  | reportExecStatus (params : TReportExecStatusParams)
  | reopen
  deriving DecidableEq, Repr

def ChannelEvent.sentParams : ChannelEvent → Option TReportExecStatusParams
  | .reportExecStatus params => some params
  | .reopen => none

/-- The status a `ReportExecStatus` that threw leaves in `rpc_status`. -/
def rpcError (coordHostport what : String) : Status :=
  .ofCode .INTERNAL_ERROR ("ReportExecStatus() to " ++ coordHostport ++ " failed:\n" ++ what)

/-- `rpc_status` after a call the outer `catch (TException&)` handles: every exception lands
there, a transport exception thrown by the retried call included. -/
def RpcOutcome.rpcStatus (coordHostport : String) : RpcOutcome → Status
  | .returns resStatus => .ofTStatus resStatus
  | .transportException what | .otherException what => rpcError coordHostport what

/-- `rpc_status` at the end of the nested `try` blocks. A failed `Reopen` returns early with
its status, to the same `UpdateStatus(rpc_status); executor_.Cancel()` that the final test
makes. -/
def ChannelOutcome.rpcStatus (coordHostport : String) (o : ChannelOutcome) : Status :=
  match o.firstCall with
  | .returns resStatus => .ofTStatus resStatus
  | .otherException what => rpcError coordHostport what
  | .transportException _ =>
    if o.reopenStatus.ok then o.retryCall.rpcStatus coordHostport else o.reopenStatus

/-- The calls the nested `try` blocks make on the channel. -/
def ChannelOutcome.channelCalls (params : TReportExecStatusParams) (o : ChannelOutcome) :
    List ChannelEvent :=
  match o.firstCall with
  | .returns _ | .otherException _ => [.reportExecStatus params]
  | .transportException _ =>
    .reportExecStatus params :: .reopen :: (if o.reopenStatus.ok then [.reportExecStatus params] else [])

/-- The first `ReportExecStatus` threw a `TTransportException` and `Reopen` succeeded, so the
call is made again with the same parameters. -/
def ChannelOutcome.retried (o : ChannelOutcome) : Bool :=
  o.firstCall.isTransportException && o.reopenStatus.ok

/-- `ImpalaServer::FragmentExecState`, the members the three functions read. -/
structure FragmentExecState where
  queryId : TUniqueId
  backendNum : Int
  fragmentInstanceId : TUniqueId
  /-- `coord_hostport_` as `operator<<` prints it -/
  coordHostport : String
  execStatus : Status
  /-- `executor_.runtime_state()` -/
  runtimeState : RuntimeState
  /-- how often `executor_.Cancel()` has run -/
  executorCancels : Nat
  deriving DecidableEq, Repr

namespace FragmentExecState

/-- `UpdateStatus(status)`: under `status_lock_` the first non-OK status wins; the call returns
`exec_status_`. -/
def updateStatus (f : FragmentExecState) (status : Status) : Status × FragmentExecState :=
  (f.execStatus.keep status, { f with execStatus := f.execStatus.keep status })

/-- `executor_.Cancel()` -/
def cancelExecutor (f : FragmentExecState) : FragmentExecState :=
  { f with executorCancels := f.executorCancels + 1 }

/-- `Cancel()`: `RETURN_IF_ERROR(exec_status_)`, then cancel the executor. -/
def cancel (f : FragmentExecState) : Status × FragmentExecState :=
  if f.execStatus.ok then (.OK, f.cancelExecutor) else (f.execStatus, f)

def reportParams (f : FragmentExecState) (execStatus : Status) (done : Bool)
    (errorLog : List String) : TReportExecStatusParams :=
  ⟨f.queryId, f.backendNum, f.fragmentInstanceId, execStatus.toTStatus, done, errorLog⟩

/-- The status a failed client acquisition passes to `UpdateStatus`. -/
def clientError (f : FragmentExecState) : Status :=
  .ofCode .INTERNAL_ERROR ("couldn't get a client for " ++ f.coordHostport)

/-- The part of `ReportStatusCb` after a client was obtained: take the unreported errors, build
the parameters from the status the call began with, and make the calls on the channel. -/
def sendReport (f : FragmentExecState) (execStatus : Status) (done : Bool) (o : ChannelOutcome) :
    FragmentExecState × List ChannelEvent :=
  ({ f with runtimeState := (f.runtimeState.getUnreportedErrors []).2 },
    o.channelCalls (f.reportParams execStatus done (f.runtimeState.getUnreportedErrors []).1))

/-- `ReportStatusCb(status, profile, done)` with no other thread, under the channel outcome
`o`: the state after the call, and the calls it made on the channel. -/
def reportStatusCb (f : FragmentExecState) (status : Status) (done : Bool) (o : ChannelOutcome) :
    FragmentExecState × List ChannelEvent :=
  let u := f.updateStatus status
  if o.clientStatus.ok then
    let r := u.2.sendReport u.1 done o
    if (o.rpcStatus f.coordHostport).ok then r
    else ((r.1.updateStatus (o.rpcStatus f.coordHostport)).2.cancelExecutor, r.2)
  else ((u.2.updateStatus u.2.clientError).2, [])

@[simp] theorem updateStatus_fst (f : FragmentExecState) (s : Status) :
    (f.updateStatus s).1 = f.execStatus.keep s := rfl

@[simp] theorem updateStatus_execStatus (f : FragmentExecState) (s : Status) :
    (f.updateStatus s).2.execStatus = f.execStatus.keep s := rfl

@[simp] theorem updateStatus_executorCancels (f : FragmentExecState) (s : Status) :
    (f.updateStatus s).2.executorCancels = f.executorCancels := rfl

@[simp] theorem updateStatus_runtimeState (f : FragmentExecState) (s : Status) :
    (f.updateStatus s).2.runtimeState = f.runtimeState := rfl

@[simp] theorem updateStatus_coordHostport (f : FragmentExecState) (s : Status) :
    (f.updateStatus s).2.coordHostport = f.coordHostport := rfl

@[simp] theorem cancelExecutor_execStatus (f : FragmentExecState) :
    f.cancelExecutor.execStatus = f.execStatus := rfl

@[simp] theorem cancelExecutor_executorCancels (f : FragmentExecState) :
    f.cancelExecutor.executorCancels = f.executorCancels + 1 := rfl

@[simp] theorem cancelExecutor_runtimeState (f : FragmentExecState) :
    f.cancelExecutor.runtimeState = f.runtimeState := rfl

@[simp] theorem reportParams_errorLog (f : FragmentExecState) (e : Status) (d : Bool)
    (l : List String) : (f.reportParams e d l).errorLog = l := rfl

@[simp] theorem sendReport_execStatus (f : FragmentExecState) (e : Status) (d : Bool)
    (o : ChannelOutcome) : (f.sendReport e d o).1.execStatus = f.execStatus := rfl

@[simp] theorem sendReport_executorCancels (f : FragmentExecState) (e : Status) (d : Bool)
    (o : ChannelOutcome) : (f.sendReport e d o).1.executorCancels = f.executorCancels := rfl

theorem cancel_of_ok {f : FragmentExecState} (h : f.execStatus.ok = true) :
    f.cancel = (.OK, f.cancelExecutor) := if_pos h

theorem cancel_of_not_ok {f : FragmentExecState} (h : f.execStatus.ok = false) :
    f.cancel = (f.execStatus, f) := if_neg (by simp [h])

theorem cancel_execStatus (f : FragmentExecState) : f.cancel.2.execStatus = f.execStatus := by
  unfold cancel; split <;> rfl

@[simp] theorem cancel_runtimeState (f : FragmentExecState) :
    f.cancel.2.runtimeState = f.runtimeState := by
  unfold cancel; split <;> rfl

theorem channelCalls_sentParams_eq (p : TReportExecStatusParams) (o : ChannelOutcome) :
    (o.channelCalls p).filterMap ChannelEvent.sentParams =
      List.replicate (if o.retried then 2 else 1) p := by
  unfold ChannelOutcome.channelCalls ChannelOutcome.retried
  cases o.firstCall with
  | transportException _ =>
    by_cases h : o.reopenStatus.ok <;> simp [ChannelEvent.sentParams, RpcOutcome.isTransportException, h]
  | _ => rfl

theorem channelCalls_sentParams (p : TReportExecStatusParams) (o : ChannelOutcome) :
    ∃ k, (k = 1 ∨ k = 2) ∧
      (o.channelCalls p).filterMap ChannelEvent.sentParams = List.replicate k p :=
  ⟨_, by split <;> simp, channelCalls_sentParams_eq p o⟩

/-- One report's calls on the channel: no call without a client; otherwise one
`ReportExecStatus`, and after a transport exception one `Reopen` and, if it succeeds, one
retry with the same parameters, which carry the status `UpdateStatus(status)` returned. -/
theorem reportStatusCb_channelCalls (f : FragmentExecState) (status : Status) (done : Bool)
    (o : ChannelOutcome) :
    ∃ params : TReportExecStatusParams,
      params.status = (f.execStatus.keep status).toTStatus ∧ params.done = done ∧
      (f.reportStatusCb status done o).2 =
        if o.clientStatus.ok then
          .reportExecStatus params ::
            (if o.firstCall.isTransportException then
              .reopen :: (if o.reopenStatus.ok then [.reportExecStatus params] else [])
            else [])
        else [] := by
  refine ⟨(f.updateStatus status).2.reportParams _ done
    (f.runtimeState.getUnreportedErrors []).1, rfl, rfl, ?_⟩
  unfold reportStatusCb sendReport ChannelOutcome.channelCalls RpcOutcome.isTransportException
  by_cases hc : o.clientStatus.ok
  · by_cases hr : (o.rpcStatus f.coordHostport).ok <;> cases o.firstCall <;> simp [hc, hr]
  · simp [hc]

theorem reportStatusCb_execStatus (f : FragmentExecState) (status : Status) (done : Bool)
    (o : ChannelOutcome) :
    ((o.clientStatus.ok && (o.rpcStatus f.coordHostport).ok) = true →
      (f.reportStatusCb status done o).1.execStatus = f.execStatus.keep status ∧
        (f.reportStatusCb status done o).1.executorCancels = f.executorCancels) ∧
    ((o.clientStatus.ok && (o.rpcStatus f.coordHostport).ok) = false →
      (f.reportStatusCb status done o).1.execStatus.ok = false ∧
        (f.reportStatusCb status done o).1.executorCancels =
          f.executorCancels + if o.clientStatus.ok then 1 else 0) := by
  unfold reportStatusCb
  by_cases hc : o.clientStatus.ok <;> by_cases hr : (o.rpcStatus f.coordHostport).ok <;>
    simp [hc, hr, clientError]

/-- A fragment whose coordinator client cannot be obtained records the error and keeps running:
the report returns with `exec_status_` non-OK and `executor_.Cancel()` never called. -/
theorem reportStatusCb_noClient_noCancel :
    reportStatusCb ⟨⟨0, 0⟩, 0, ⟨0, 1⟩, "coord:22000", .OK, RuntimeState.make 1024 .OK ⟨0, 0, false⟩, 0⟩
        .OK false ⟨.ofMsg "no client", .returns ⟨.OK, []⟩, .OK, .returns ⟨.OK, []⟩⟩ =
      (⟨⟨0, 0⟩, 0, ⟨0, 1⟩, "coord:22000",
        .ofCode .INTERNAL_ERROR "couldn't get a client for coord:22000",
        RuntimeState.make 1024 .OK ⟨0, 0, false⟩, 0⟩, []) := by
  decide

end FragmentExecState

end ImpalaBackend
