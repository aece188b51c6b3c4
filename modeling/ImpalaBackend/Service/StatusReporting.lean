import ImpalaBackend.Service.FragmentExecState

/-!
# Status reports under concurrent updates

Any number of threads call `UpdateStatus` and `Cancel`, each call one `status_lock_`
section, while the executor's one reporting thread makes its successive `ReportStatusCb`
calls. A report is cut at its own `UpdateStatus` calls: the first one, the client
acquisition together with the parameters and the channel calls (none of which touches
`exec_status_`), the failure's `UpdateStatus`, and `executor_.Cancel()`. The state records
every `UpdateStatus` with what it returned, and every call on the channel.
-/

namespace ImpalaBackend

/-- Where the reporting thread stands. -/
inductive ReporterPc
  | idle
  /-- `UpdateStatus(status)` returned `execStatus`; next, the client and the channel -/
  | connect (execStatus : Status) (done : Bool) (o : ChannelOutcome)
  /-- next, `UpdateStatus(status)`, then `executor_.Cancel()` if `cancelAfter` -/
  | updateStatus (status : Status) (cancelAfter : Bool)
  | cancelExecutor
  deriving DecidableEq, Repr

/-- A step of some thread. -/
inductive FragmentAction
  /-- another thread's `UpdateStatus(status)` -/
  | updateStatus (status : Status)
  /-- another thread's `Cancel()` -/
  | cancel
  /-- the reporter begins `ReportStatusCb(status, profile, done)`, under the channel outcome `o` -/
  | report (status : Status) (done : Bool) (o : ChannelOutcome)
  /-- the reporter's next step -/
  | reporter
  /-- another thread's `RuntimeState::LogError(error)` -/
  | logError (error : String)
  deriving DecidableEq, Repr

def FragmentAction.updateStatusArg : FragmentAction → Option Status
  | .updateStatus status => some status
  | _ => none

structure ReportingState where
  fragment : FragmentExecState
  reporter : ReporterPc
  /-- every `UpdateStatus` in lock order: its argument and what it returned -/
  updates : List (Status × Status)
  /-- every call on the coordinator channel -/
  channel : List ChannelEvent
  /-- the errors `GetUnreportedErrors` handed to each report that obtained a client, with the
  channel's outcome for that report -/
  batches : List (List String × ChannelOutcome)
  deriving DecidableEq, Repr

def sentStatuses (channel : List ChannelEvent) : List TStatus :=
  (channel.filterMap ChannelEvent.sentParams).map TReportExecStatusParams.status

@[simp] theorem sentStatuses_append (c c' : List ChannelEvent) :
    sentStatuses (c ++ c') = sentStatuses c ++ sentStatuses c' := by
  simp [sentStatuses]

theorem sentStatuses_channelCalls (p : TReportExecStatusParams) (o : ChannelOutcome) :
    ∀ z ∈ sentStatuses (o.channelCalls p), z = p.status := by
  obtain ⟨k, -, hk⟩ := FragmentExecState.channelCalls_sentParams p o
  intro z hz
  rw [sentStatuses, hk, List.map_replicate] at hz
  exact List.eq_of_mem_replicate hz

/-- Every `UpdateStatus` returned the first non-OK argument up to its own. -/
def ReturnsFirstError (updates : List (Status × Status)) : Prop :=
  ∀ i (h : i < updates.length),
    updates[i].2 = Status.firstNonOk ((updates.take (i + 1)).map Prod.fst)

theorem ReturnsFirstError.snoc {updates : List (Status × Status)} (h : ReturnsFirstError updates)
    (s : Status) :
    ReturnsFirstError (updates ++ [(s, (Status.firstNonOk (updates.map Prod.fst)).keep s)]) := by
  intro i hi
  rw [List.length_append, List.length_singleton] at hi
  rcases Nat.lt_or_ge i updates.length with hlt | hge
  · rw [List.getElem_append_left hlt, List.take_append_of_le_length hlt, h i hlt]
  · obtain rfl : i = updates.length := by omega
    rw [List.getElem_append_right (Nat.le_refl _), List.take_of_length_le (by simp),
      List.map_append, List.map_singleton, Status.firstNonOk_append_singleton]
    simp

namespace ReportingState

def init (f : FragmentExecState) : ReportingState := ⟨f, .idle, [], [], []⟩

/-- One `UpdateStatus(status)` section, recorded. -/
def update (s : ReportingState) (status : Status) : ReportingState :=
  { s with fragment := (s.fragment.updateStatus status).2,
           updates := s.updates ++ [(status, (s.fragment.updateStatus status).1)] }

def step (s : ReportingState) : FragmentAction → ReportingState
  | .updateStatus status => s.update status
  | .cancel => { s with fragment := s.fragment.cancel.2 }
  | .report status done o =>
    match s.reporter with
    | .idle => { s.update status with reporter := .connect (s.fragment.updateStatus status).1 done o }
    | _ => s
  | .reporter =>
    match s.reporter with
    | .idle => s
    | .connect e done o =>
      if o.clientStatus.ok then
        { s with fragment := (s.fragment.sendReport e done o).1,
                 channel := s.channel ++ (s.fragment.sendReport e done o).2,
                 batches := s.batches ++ [((s.fragment.runtimeState.getUnreportedErrors []).1, o)],
                 reporter := if (o.rpcStatus s.fragment.coordHostport).ok then .idle
                   else .updateStatus (o.rpcStatus s.fragment.coordHostport) true }
      else { s with reporter := .updateStatus s.fragment.clientError false }
    | .updateStatus status cancelAfter =>
      { s.update status with reporter := if cancelAfter then .cancelExecutor else .idle }
    | .cancelExecutor => { s with fragment := s.fragment.cancelExecutor, reporter := .idle }
  | .logError error =>
    { s with fragment := { s.fragment with
        runtimeState := (s.fragment.runtimeState.logError error).2 } }

def run (s : ReportingState) (acts : List FragmentAction) : ReportingState := acts.foldl step s

@[simp] theorem update_execStatus (s : ReportingState) (status : Status) :
    (s.update status).fragment.execStatus = s.fragment.execStatus.keep status := rfl

@[simp] theorem update_updates (s : ReportingState) (status : Status) :
    (s.update status).updates = s.updates ++ [(status, s.fragment.execStatus.keep status)] := rfl

@[simp] theorem update_channel (s : ReportingState) (status : Status) :
    (s.update status).channel = s.channel := rfl

/-- What a step can do: record one `UpdateStatus`, send the reports of one `connect` pc, or
leave `exec_status_`, the records and the channel alone; and where the reporter goes. -/
theorem step_cases (s : ReportingState) (a : FragmentAction) :
    (∃ status, (s.step a).fragment.execStatus = s.fragment.execStatus.keep status ∧
      (s.step a).updates = s.updates ++ [(status, s.fragment.execStatus.keep status)] ∧
      (s.step a).channel = s.channel ∧
      (∀ e d o, (s.step a).reporter = .connect e d o → e = s.fragment.execStatus.keep status ∨
        s.reporter = .connect e d o)) ∨
    (∃ e d o, s.reporter = .connect e d o ∧
      (s.step a).fragment.execStatus = s.fragment.execStatus ∧ (s.step a).updates = s.updates ∧
      (s.step a).channel = s.channel ++ o.channelCalls (s.fragment.reportParams e d
        (s.fragment.runtimeState.getUnreportedErrors []).1) ∧
      ∀ e' d' o', (s.step a).reporter ≠ .connect e' d' o') ∨
    ((s.step a).fragment.execStatus = s.fragment.execStatus ∧ (s.step a).updates = s.updates ∧
      (s.step a).channel = s.channel ∧
      ∀ e d o, (s.step a).reporter = .connect e d o → s.reporter = .connect e d o) := by
  cases a with
  | updateStatus status => exact .inl ⟨status, rfl, rfl, rfl, fun _ _ _ h => .inr h⟩
  | cancel => exact .inr (.inr ⟨FragmentExecState.cancel_execStatus _, rfl, rfl, fun _ _ _ h => h⟩)
  | report status done o =>
    cases h : s.reporter with
    | idle => refine .inl ⟨status, ?_, ?_, ?_, ?_⟩ <;> simp [step, h, eq_comm]
    | _ => exact .inr (.inr (by simp [step, h]))
  | reporter =>
    cases h : s.reporter with
    | idle => exact .inr (.inr (by simp [step, h]))
    | connect e done o =>
      by_cases hc : o.clientStatus.ok
      · refine .inr (.inl ⟨e, done, o, rfl, ?_⟩)
        by_cases hr : (o.rpcStatus s.fragment.coordHostport).ok <;>
          simp [step, h, hc, hr, FragmentExecState.sendReport]
      · exact .inr (.inr (by simp [step, h, hc]))
    | updateStatus status c =>
      cases c <;> refine .inl ⟨status, ?_, ?_, ?_, ?_⟩ <;> simp [step, h]
    | cancelExecutor => exact .inr (.inr (by simp [step, h]))
  | logError error => exact .inr (.inr ⟨rfl, rfl, rfl, fun _ _ _ h => h⟩)

/-- The reporter on its own refines the sequential call: from `idle`, one report and three
reporter steps end where `ReportStatusCb` run alone ends, with the same channel calls. -/
theorem run_report_alone (s : ReportingState) (h : s.reporter = .idle) (status : Status)
    (done : Bool) (o : ChannelOutcome) :
    (s.run [.report status done o, .reporter, .reporter, .reporter]).fragment =
        (s.fragment.reportStatusCb status done o).1 ∧
      (s.run [.report status done o, .reporter, .reporter, .reporter]).channel =
        s.channel ++ (s.fragment.reportStatusCb status done o).2 ∧
      (s.run [.report status done o, .reporter, .reporter, .reporter]).reporter = .idle := by
  by_cases hc : o.clientStatus.ok <;> by_cases hr : (o.rpcStatus s.fragment.coordHostport).ok <;>
    simp [run, step, update, h, hc, hr, FragmentExecState.reportStatusCb]

theorem step_updates (s : ReportingState) (a : FragmentAction) :
    ∃ new, (s.step a).updates = s.updates ++ new ∧
      a.updateStatusArg.toList.Sublist (new.map Prod.fst) := by
  cases a with
  | updateStatus status => exact ⟨_, rfl, by simp [FragmentAction.updateStatusArg]⟩
  | _ =>
    rcases step_cases s _ with ⟨_, -, hup, -⟩ | ⟨-, -, -, -, -, hup, -⟩ | ⟨-, hup, -⟩
    · exact ⟨_, hup, by simp [FragmentAction.updateStatusArg]⟩
    all_goals exact ⟨[], by rw [hup, List.append_nil], by simp [FragmentAction.updateStatusArg]⟩

theorem run_updates (s : ReportingState) (acts : List FragmentAction) :
    ∃ new, (s.run acts).updates = s.updates ++ new ∧
      (acts.filterMap FragmentAction.updateStatusArg).Sublist (new.map Prod.fst) := by
  induction acts generalizing s with
  | nil => exact ⟨[], by simp [run], List.Sublist.slnil⟩
  | cons a acts ih =>
    obtain ⟨n1, h1, s1⟩ := s.step_updates a
    obtain ⟨n2, h2, s2⟩ := ih (s.step a)
    refine ⟨n1 ++ n2, by rw [show s.run (a :: acts) = (s.step a).run acts from rfl, h2, h1,
      List.append_assoc], ?_⟩
    have hcons : (a :: acts).filterMap FragmentAction.updateStatusArg =
        a.updateStatusArg.toList ++ acts.filterMap FragmentAction.updateStatusArg := by
      cases h : a.updateStatusArg <;> simp [List.filterMap_cons, h]
    rw [hcons, List.map_append]
    exact s1.append s2

end ReportingState

/-- What holds in every reachable state: `exec_status_` is the first non-OK status passed to
`UpdateStatus`, each call returned it, the statuses sent are OK and then copies of it, and the
status a report began with is OK or the current one. -/
structure ReportInv (s : ReportingState) : Prop where
  status : s.fragment.execStatus = Status.firstNonOk (s.updates.map Prod.fst)
  returns : ReturnsFirstError s.updates
  sent : ChangesOnce Status.OK.toTStatus s.fragment.execStatus.toTStatus (sentStatuses s.channel)
  pending : ∀ e d o, s.reporter = .connect e d o →
    ChangesOnce Status.OK.toTStatus e.toTStatus (sentStatuses s.channel) ∧
      (e = .OK ∨ e = s.fragment.execStatus)

namespace ReportInv

theorem init {f : FragmentExecState} (hf : f.execStatus = .OK) :
    ReportInv (ReportingState.init f) :=
  ⟨hf, fun i h => absurd h (Nat.not_lt_zero _), ChangesOnce.nil, fun _ _ _ h => by cases h⟩

theorem pending_keep {e cur : Status} (status : Status) (h : e = .OK ∨ e = cur) :
    e = .OK ∨ e = cur.keep status := by
  rcases h with h | rfl
  · exact .inl h
  · cases hc : e.ok
    · exact .inr (Status.keep_of_not_ok hc status).symm
    · exact .inl (Status.ok_iff.mp hc)

theorem sent_keep {cur : Status} {sent : List TStatus} (status : Status)
    (h : ChangesOnce Status.OK.toTStatus cur.toTStatus sent) :
    ChangesOnce Status.OK.toTStatus (cur.keep status).toTStatus sent := by
  cases hc : cur.ok
  · rwa [Status.keep_of_not_ok hc]
  · rw [Status.ok_iff.mp hc] at h
    exact ChangesOnce.of_forall h.forall_of_self

theorem step {s : ReportingState} (hi : ReportInv s) (a : FragmentAction) :
    ReportInv (s.step a) := by
  rcases ReportingState.step_cases s a with
    ⟨status, hst, hup, hch, hpc⟩ | ⟨e, d, o, hr, hst, hup, hch, hpc⟩ | ⟨hst, hup, hch, hpc⟩
  · refine ⟨?_, ?_, ?_, fun e' d' o' h' => ?_⟩
    · rw [hst, hup, List.map_append, List.map_singleton, Status.firstNonOk_append_singleton,
        hi.status]
    · rw [hup, hi.status]; exact hi.returns.snoc status
    · rw [hst, hch]; exact sent_keep status hi.sent
    · rw [hch, hst]
      rcases hpc e' d' o' h' with rfl | hr
      · exact ⟨sent_keep status hi.sent, .inr rfl⟩
      · exact ⟨(hi.pending e' d' o' hr).1, pending_keep status (hi.pending e' d' o' hr).2⟩
  · obtain ⟨hsent, he⟩ := hi.pending e d o hr
    have hcalls := sentStatuses_channelCalls
      (s.fragment.reportParams e d (s.fragment.runtimeState.getUnreportedErrors []).1) o
    refine ⟨hst ▸ hup ▸ hi.status, hup ▸ hi.returns, ?_, fun e' d' o' h' => absurd h' (hpc e' d' o')⟩
    rw [hst, hch, sentStatuses_append]
    rcases he with rfl | rfl
    · exact ChangesOnce.of_forall fun z hz => by
        rcases List.mem_append.mp hz with hz | hz
        · exact hsent.forall_of_self z hz
        · exact hcalls z hz
    · exact hi.sent.append_of_forall hcalls
  · exact ⟨hst ▸ hup ▸ hi.status, hup ▸ hi.returns, hst ▸ hch ▸ hi.sent,
      fun e d o h => hst ▸ hch ▸ hi.pending e d o (hpc e d o h)⟩

theorem run {s : ReportingState} (hi : ReportInv s) (acts : List FragmentAction) :
    ReportInv (s.run acts) := by
  induction acts generalizing s with
  | nil => exact hi
  | cons a acts ih => exact ih (hi.step a)

end ReportInv

/-- Under every interleaving of `UpdateStatus` and `Cancel` calls with the reporter's successive
reports, and every channel outcome: `exec_status_` is the first non-OK status passed to
`UpdateStatus` (OK before there is one), every `UpdateStatus` returned it as it stood after the
call, and the reports sent carry OK and then only that first error. -/
theorem reporting_firstErrorSticks (f : FragmentExecState) (hf : f.execStatus = .OK)
    (acts : List FragmentAction) :
    (acts.filterMap FragmentAction.updateStatusArg).Sublist
        (((ReportingState.init f).run acts).updates.map Prod.fst) ∧
      ((ReportingState.init f).run acts).fragment.execStatus =
        Status.firstNonOk (((ReportingState.init f).run acts).updates.map Prod.fst) ∧
      ReturnsFirstError ((ReportingState.init f).run acts).updates ∧
      ChangesOnce Status.OK.toTStatus
        (Status.firstNonOk (((ReportingState.init f).run acts).updates.map Prod.fst)).toTStatus
        (sentStatuses ((ReportingState.init f).run acts).channel) := by
  have hi := (ReportInv.init hf).run acts
  obtain ⟨new, hnew, hsub⟩ := (ReportingState.init f).run_updates acts
  refine ⟨?_, hi.status, hi.returns, hi.status ▸ hi.sent⟩
  rwa [hnew, show (ReportingState.init f).updates = [] from rfl, List.nil_append]

theorem reporting_firstErrorSticks_twoReports :
    (⟨⟨0, 0⟩, 0, ⟨0, 1⟩, "coord:22000", .OK, RuntimeState.make 1024 .OK ⟨0, 0, false⟩, 0⟩ :
        FragmentExecState).execStatus = .OK ∧
      let f : FragmentExecState :=
        ⟨⟨0, 0⟩, 0, ⟨0, 1⟩, "coord:22000", .OK, RuntimeState.make 1024 .OK ⟨0, 0, false⟩, 0⟩
      let o : ChannelOutcome := ⟨.OK, .transportException "reset", .OK, .returns ⟨.OK, []⟩⟩
      let acts := [.report .OK false o, .updateStatus (.ofMsg "scan failed"), .reporter,
        .report .OK true o, .reporter]
      (acts.filterMap FragmentAction.updateStatusArg).Sublist
          (((ReportingState.init f).run acts).updates.map Prod.fst) ∧
        ((ReportingState.init f).run acts).fragment.execStatus =
          Status.firstNonOk (((ReportingState.init f).run acts).updates.map Prod.fst) ∧
        ReturnsFirstError ((ReportingState.init f).run acts).updates ∧
        ChangesOnce Status.OK.toTStatus
          (Status.firstNonOk (((ReportingState.init f).run acts).updates.map Prod.fst)).toTStatus
          (sentStatuses ((ReportingState.init f).run acts).channel) :=
  ⟨rfl, reporting_firstErrorSticks _ rfl _⟩

/-! ## Cancel -/

theorem ReportingState.step_execStatus_of_not_ok (s : ReportingState) (a : FragmentAction)
    (h : s.fragment.execStatus.ok = false) :
    (s.step a).fragment.execStatus = s.fragment.execStatus := by
  rcases step_cases s a with ⟨status, hst, -⟩ | ⟨-, -, -, -, hst, -⟩ | ⟨hst, -⟩
  · rw [hst, Status.keep_of_not_ok h]
  · exact hst
  · exact hst

theorem ReportingState.run_execStatus_of_not_ok (s : ReportingState)
    (h : s.fragment.execStatus.ok = false) (acts : List FragmentAction) :
    (s.run acts).fragment.execStatus = s.fragment.execStatus := by
  induction acts generalizing s with
  | nil => rfl
  | cons a acts ih =>
    have hs := s.step_execStatus_of_not_ok a h
    exact (ih (s.step a) (hs ▸ h)).trans hs

/-- `Cancel()` records nothing: it leaves `exec_status_` as it is, and signals `executor_.Cancel()`
and returns OK exactly when `exec_status_` is OK, so each call on an OK fragment signals again.
Once `exec_status_` is not OK it keeps its value through every later step, and a later `Cancel()`
returns it and changes nothing. -/
theorem reporting_cancelWhileOk (s : ReportingState) (acts : List FragmentAction) :
    (s.step .cancel).fragment.execStatus = s.fragment.execStatus ∧
      (s.step .cancel).fragment.executorCancels =
        s.fragment.executorCancels + (if s.fragment.execStatus.ok then 1 else 0) ∧
      s.fragment.cancel.1 = (if s.fragment.execStatus.ok then .OK else s.fragment.execStatus) ∧
      (s.fragment.execStatus.ok = false →
        (s.run acts).fragment.execStatus = s.fragment.execStatus ∧
          (s.run acts).fragment.cancel.1 = s.fragment.execStatus ∧
          (s.run acts).step .cancel = s.run acts) := by
  refine ⟨FragmentExecState.cancel_execStatus _, ?_, ?_, fun h => ?_⟩
  · cases hok : s.fragment.execStatus.ok <;> simp [ReportingState.step,
      FragmentExecState.cancel_of_ok, FragmentExecState.cancel_of_not_ok, hok]
  · cases hok : s.fragment.execStatus.ok <;>
      simp [FragmentExecState.cancel_of_ok, FragmentExecState.cancel_of_not_ok, hok]
  · have hrun := s.run_execStatus_of_not_ok h acts
    have hok : (s.run acts).fragment.execStatus.ok = false := hrun ▸ h
    rw [ReportingState.step, FragmentExecState.cancel_of_not_ok hok]
    exact ⟨hrun, hrun, rfl⟩

theorem reporting_cancelTwice :
    let f : FragmentExecState :=
      ⟨⟨0, 0⟩, 0, ⟨0, 1⟩, "coord:22000", .OK, RuntimeState.make 1024 .OK ⟨0, 0, false⟩, 0⟩
    f.cancel.1 = .OK ∧ ((ReportingState.init f).run [.cancel]).fragment.execStatus = .OK ∧
      ((ReportingState.init f).run [.cancel]).fragment.cancel.1 = .OK ∧
      ((ReportingState.init f).run [.cancel, .cancel]).fragment.executorCancels = 2 :=
  ⟨rfl, rfl, rfl, rfl⟩

/-! ## Who cancels the executor -/

/-- The reporter calls `executor_.Cancel()` only after an `UpdateStatus` with a non-OK status. -/
structure CancelInv (s : ReportingState) : Prop where
  pending : ∀ status, s.reporter = .updateStatus status true → status.ok = false
  cancelling : s.reporter = .cancelExecutor → s.fragment.execStatus.ok = false

namespace CancelInv

theorem init (f : FragmentExecState) : CancelInv (ReportingState.init f) :=
  ⟨fun _ h => (nomatch h), fun h => (nomatch h)⟩

theorem step {s : ReportingState} (hi : CancelInv s) (a : FragmentAction) :
    CancelInv (s.step a) := by
  cases a with
  | updateStatus status =>
    refine ⟨hi.pending, fun h => ?_⟩
    simp only [ReportingState.step, ReportingState.update_execStatus, Status.ok_keep,
      hi.cancelling h, Bool.false_and]
  | cancel =>
    refine ⟨hi.pending, fun h => ?_⟩
    show s.fragment.cancel.2.execStatus.ok = false
    rw [FragmentExecState.cancel_execStatus]; exact hi.cancelling h
  | report status done o =>
    cases hr : s.reporter with
    | idle => exact ⟨fun _ h => by simp [ReportingState.step, hr] at h,
        fun h => by simp [ReportingState.step, hr] at h⟩
    | _ => simpa [ReportingState.step, hr] using hi
  | reporter =>
    cases hr : s.reporter with
    | idle => simpa [ReportingState.step, hr] using hi
    | connect e done o =>
      by_cases hc : o.clientStatus.ok <;>
        by_cases hrpc : (o.rpcStatus s.fragment.coordHostport).ok <;>
        exact ⟨fun _ h => by
          simp [ReportingState.step, hr, hc, hrpc] at h <;> (subst h; simpa using hrpc),
          fun h => by simp [ReportingState.step, hr, hc, hrpc] at h⟩
    | updateStatus status c =>
      cases c
      · exact ⟨fun _ h => by simp [ReportingState.step, hr] at h,
          fun h => by simp [ReportingState.step, hr] at h⟩
      · exact ⟨fun _ h => by simp [ReportingState.step, hr] at h,
          fun _ => by simp [ReportingState.step, hr, hi.pending status hr]⟩
    | cancelExecutor => exact ⟨fun _ h => by simp [ReportingState.step, hr] at h,
        fun h => by simp [ReportingState.step, hr] at h⟩
  | logError error => exact ⟨hi.pending, hi.cancelling⟩

end CancelInv

namespace ReportingState

theorem execStatus_ok_of_run (s : ReportingState) (acts : List FragmentAction)
    (h : (s.run acts).fragment.execStatus.ok = true) : s.fragment.execStatus.ok = true := by
  cases hs : s.fragment.execStatus.ok
  · rw [s.run_execStatus_of_not_ok hs acts, hs] at h; exact h
  · rfl

theorem step_executorCancels_of_ok {s : ReportingState} (hi : CancelInv s) (a : FragmentAction)
    (h : s.fragment.execStatus.ok = true) :
    (s.step a).fragment.executorCancels =
      s.fragment.executorCancels + if a = .cancel then 1 else 0 := by
  cases a with
  | cancel => simp [step, FragmentExecState.cancel_of_ok h]
  | report status done o => cases hr : s.reporter <;> simp [step, hr, update]
  | reporter =>
    cases hr : s.reporter with
    | connect e done o => by_cases hc : o.clientStatus.ok <;> simp [step, hr, hc]
    | updateStatus status c => simp [step, hr, update]
    | cancelExecutor => simp [hi.cancelling hr] at h
    | idle => simp [step, hr]
  | _ => simp [step, update]

theorem run_executorCancels_of_ok {s : ReportingState} (hi : CancelInv s)
    (acts : List FragmentAction) (h : (s.run acts).fragment.execStatus.ok = true) :
    (s.run acts).fragment.executorCancels = s.fragment.executorCancels + acts.count .cancel := by
  induction acts generalizing s with
  | nil => rfl
  | cons a acts ih =>
    have hstep := (s.step a).execStatus_ok_of_run acts h
    rw [show s.run (a :: acts) = (s.step a).run acts from rfl, ih (hi.step a) h,
      step_executorCancels_of_ok hi a (s.execStatus_ok_of_run [a] hstep), List.count_cons]
    by_cases ha : a = .cancel <;> simp [ha]; omega

end ReportingState

/-- The reporting thread cancels the executor only after recording a failure: under every
interleaving of `UpdateStatus` and `Cancel` calls with the reporter's successive reports, and
every channel outcome, while `exec_status_` is OK `executor_.Cancel()` has run exactly once per
`Cancel()` call. -/
theorem reporting_executorCancels_of_ok (f : FragmentExecState) (acts : List FragmentAction)
    (h : ((ReportingState.init f).run acts).fragment.execStatus.ok = true) :
    ((ReportingState.init f).run acts).fragment.executorCancels =
      f.executorCancels + acts.count .cancel :=
  ReportingState.run_executorCancels_of_ok (CancelInv.init f) acts h

theorem reporting_executorCancels_of_ok_delivered :
    let f : FragmentExecState :=
      ⟨⟨0, 0⟩, 0, ⟨0, 1⟩, "coord:22000", .OK, RuntimeState.make 1024 .OK ⟨0, 0, false⟩, 0⟩
    let o : ChannelOutcome := ⟨.OK, .returns ⟨.OK, []⟩, .OK, .returns ⟨.OK, []⟩⟩
    let acts := [.cancel, .report .OK false o, .reporter, .cancel]
    ((ReportingState.init f).run acts).fragment.execStatus.ok = true ∧
      ((ReportingState.init f).run acts).fragment.executorCancels =
        f.executorCancels + acts.count .cancel :=
  ⟨rfl, reporting_executorCancels_of_ok _ _ rfl⟩

/-! ## The errors sent to the coordinator -/

def sentErrorLogs (channel : List ChannelEvent) : List (List String) :=
  (channel.filterMap ChannelEvent.sentParams).map TReportExecStatusParams.errorLog

@[simp] theorem sentErrorLogs_append (c c' : List ChannelEvent) :
    sentErrorLogs (c ++ c') = sentErrorLogs c ++ sentErrorLogs c' := by
  simp [sentErrorLogs]

theorem ReportingState.step_errorLog_cases (s : ReportingState) (a : FragmentAction) :
    ((s.step a).fragment.runtimeState = s.fragment.runtimeState ∧
      (s.step a).batches = s.batches ∧ (s.step a).channel = s.channel) ∨
    (∃ e, (s.step a).fragment.runtimeState =
        ((ErrorLogCall.logError e).apply s.fragment.runtimeState).2 ∧
      (s.step a).batches = s.batches ∧ (s.step a).channel = s.channel) ∨
    (∃ (p : TReportExecStatusParams) (o : ChannelOutcome),
      p.errorLog = (ErrorLogCall.getUnreportedErrors.apply s.fragment.runtimeState).1.reported ∧
      (s.step a).fragment.runtimeState =
        (ErrorLogCall.getUnreportedErrors.apply s.fragment.runtimeState).2 ∧
      (s.step a).batches = s.batches ++ [(p.errorLog, o)] ∧
      (s.step a).channel = s.channel ++ o.channelCalls p) := by
  cases a with
  | updateStatus status => exact .inl ⟨rfl, rfl, rfl⟩
  | cancel => exact .inl ⟨by simp [step], rfl, rfl⟩
  | report status done o => cases h : s.reporter <;> exact .inl (by simp [step, update, h])
  | reporter =>
    cases h : s.reporter with
    | connect e done o =>
      by_cases hc : o.clientStatus.ok
      · exact .inr (.inr ⟨s.fragment.reportParams e done
          (s.fragment.runtimeState.getUnreportedErrors []).1, o, rfl,
          by simp [step, h, hc, FragmentExecState.sendReport, ErrorLogCall.apply]⟩)
      · exact .inl (by simp [step, h, hc])
    | _ => exact .inl (by simp [step, update, h])
  | logError error => exact .inr (.inl ⟨error, rfl, rfl, rfl⟩)

/-- The reporter hands out the error log once and in order: the batches are the log between the
first watermark and the current one, and each batch was sent once, or twice for a retried call. -/
structure ErrorReportInv (rs0 : RuntimeState) (s : ReportingState) : Prop where
  watermark : s.fragment.runtimeState.unreportedErrorIdx ≤ s.fragment.runtimeState.errorLog.length
  grows : rs0.errorLog <+: s.fragment.runtimeState.errorLog
  handedOut : rs0.errorLog.take rs0.unreportedErrorIdx ++ (s.batches.map Prod.fst).flatten =
    s.fragment.runtimeState.errorLog.take s.fragment.runtimeState.unreportedErrorIdx
  sent : sentErrorLogs s.channel =
    s.batches.flatMap fun b => List.replicate (if b.2.retried then 2 else 1) b.1

namespace ErrorReportInv

theorem init {f : FragmentExecState}
    (hf : f.runtimeState.unreportedErrorIdx ≤ f.runtimeState.errorLog.length) :
    ErrorReportInv f.runtimeState (ReportingState.init f) :=
  ⟨hf, List.prefix_refl _, by simp [ReportingState.init], rfl⟩

theorem step {rs0 : RuntimeState} {s : ReportingState} (hi : ErrorReportInv rs0 s)
    (a : FragmentAction) : ErrorReportInv rs0 (s.step a) := by
  rcases ReportingState.step_errorLog_cases s a with
    ⟨hrs, hb, hch⟩ | ⟨e, hrs, hb, hch⟩ | ⟨p, o, hp, hrs, hb, hch⟩
  · exact ⟨hrs ▸ hi.watermark, hrs ▸ hi.grows, hrs ▸ hb ▸ hi.handedOut, hb ▸ hch ▸ hi.sent⟩
  · obtain ⟨w1, w2, -, w4⟩ := (ErrorLogCall.logError e).apply_watermark hi.watermark
    refine ⟨hrs ▸ w1, hrs ▸ hi.grows.trans w2, ?_, hb ▸ hch ▸ hi.sent⟩
    rw [hb, hrs, ← w4, ← hi.handedOut]
    simp [ErrorLogCall.apply, ErrorLogResult.reported]
  · obtain ⟨w1, w2, -, w4⟩ := ErrorLogCall.getUnreportedErrors.apply_watermark hi.watermark
    refine ⟨hrs ▸ w1, hrs ▸ hi.grows.trans w2, ?_, ?_⟩
    · rw [hb, hrs, ← w4, ← hi.handedOut, hp, List.map_append, List.flatten_append]
      simp
    · rw [hch, hb, sentErrorLogs_append, hi.sent, List.flatMap_append]
      simp [sentErrorLogs, FragmentExecState.channelCalls_sentParams_eq]

theorem run {rs0 : RuntimeState} {s : ReportingState} (hi : ErrorReportInv rs0 s)
    (acts : List FragmentAction) : ErrorReportInv rs0 (s.run acts) := by
  induction acts generalizing s with
  | nil => exact hi
  | cons a acts ih => exact ih (hi.step a)

end ErrorReportInv

/-- Under every interleaving of `LogError`, `UpdateStatus` and `Cancel` calls with the reporter's
successive reports, and every channel outcome: `GetUnreportedErrors` hands each report the
errors logged since the one before, so the error lists of the reports are the log up to its
watermark, each entry in exactly one of them and in log order; the log only grows; and each
report's list is sent once, and twice exactly when its first `ReportExecStatus` threw a
transport exception and `Reopen` succeeded. -/
theorem reporting_errorsSentOnce (f : FragmentExecState)
    (hf : f.runtimeState.unreportedErrorIdx ≤ f.runtimeState.errorLog.length)
    (acts : List FragmentAction) :
    f.runtimeState.errorLog <+: ((ReportingState.init f).run acts).fragment.runtimeState.errorLog ∧
      f.runtimeState.errorLog.take f.runtimeState.unreportedErrorIdx ++
          (((ReportingState.init f).run acts).batches.map Prod.fst).flatten =
        ((ReportingState.init f).run acts).fragment.runtimeState.errorLog.take
          ((ReportingState.init f).run acts).fragment.runtimeState.unreportedErrorIdx ∧
      sentErrorLogs ((ReportingState.init f).run acts).channel =
        ((ReportingState.init f).run acts).batches.flatMap
          fun b => List.replicate (if b.2.retried then 2 else 1) b.1 := by
  have hi := (ErrorReportInv.init hf).run acts
  exact ⟨hi.grows, hi.handedOut, hi.sent⟩

theorem reporting_errorsSentOnce_retried :
    let f : FragmentExecState :=
      ⟨⟨0, 0⟩, 0, ⟨0, 1⟩, "coord:22000", .OK, RuntimeState.make 1024 .OK ⟨0, 0, false⟩, 0⟩
    f.runtimeState.unreportedErrorIdx ≤ f.runtimeState.errorLog.length ∧
      let o : ChannelOutcome := ⟨.OK, .transportException "reset", .OK, .returns ⟨.OK, []⟩⟩
      let acts := [.logError "disk full", .report .OK false o, .logError "retry", .reporter]
      f.runtimeState.errorLog <+: ((ReportingState.init f).run acts).fragment.runtimeState.errorLog ∧
        f.runtimeState.errorLog.take f.runtimeState.unreportedErrorIdx ++
            (((ReportingState.init f).run acts).batches.map Prod.fst).flatten =
          ((ReportingState.init f).run acts).fragment.runtimeState.errorLog.take
            ((ReportingState.init f).run acts).fragment.runtimeState.unreportedErrorIdx ∧
        sentErrorLogs ((ReportingState.init f).run acts).channel =
          ((ReportingState.init f).run acts).batches.flatMap
            fun b => List.replicate (if b.2.retried then 2 else 1) b.1 :=
  ⟨by decide, reporting_errorsSentOnce _ (by decide) _⟩

end ImpalaBackend
