import ImpalaBackend.Runtime.ErrorLog

/-!
# The memory-limit path

`RuntimeState::SetMemLimitExceeded` and `RuntimeState::CheckQueryState`, run by any number of
threads at once. A thread's atomic steps are the `query_status_lock_` section, the message
build with its `LogError` (one `error_log_lock_` section; the tracker reads before it touch no
modelled state), and the unlocked read of `query_status_` at the end. `CheckQueryState`'s
tracker test and its locked read are one step: the test reads only the trackers, which the
schedule may report as it likes at each step. The history records what the threads did.
-/

namespace ImpalaBackend

/-- What the memory trackers report when a step reads them (`MemTracker` is not among the
sources). -/
structure MemTrackerView where
  anyLimitExceeded : Bool
  processLimitExceeded : Bool
  processUsage : String
  queryUsage : String

/-- The message `SetMemLimitExceeded` builds; `prettyBytes` is
`PrettyPrinter::Print(_, TCounterType::BYTES)`, not among the sources. -/
def memLimitExceededMsg (prettyBytes : Int → String) (trackerLabel : String)
    (failedAllocationSize : Int) (v : MemTrackerView) : String :=
  "Memory Limit Exceeded\n" ++
    (if failedAllocationSize ≠ 0 then
      "  " ++ trackerLabel ++ " could not allocate " ++ prettyBytes failedAllocationSize ++
        " without exceeding limit." ++ "\n"
    else "") ++
    (if v.processLimitExceeded then v.processUsage else v.queryUsage)

/-- The call a thread makes; the tracker is given by its label, the only field read. -/
inductive MemCall
  | setMemLimitExceeded (trackerLabel : String) (failedAllocationSize : Int)
  | checkQueryState

inductive MemPc
  | idle
  | checkQueryState
  | setMemLimitExceeded (trackerLabel : String) (failedAllocationSize : Int)
  | logError (trackerLabel : String) (failedAllocationSize : Int)
  | returnStatus
  | done (result : Status)
  deriving DecidableEq

def MemPc.afterAssign : MemPc → Bool
  | .logError .. | .returnStatus => true
  | _ => false

def MemPc.inSetMemLimitExceeded : MemPc → Bool
  | .setMemLimitExceeded .. | .logError .. | .returnStatus => true
  | _ => false

def MemCall.entry : MemCall → MemPc
  | setMemLimitExceeded l n => .setMemLimitExceeded l n
  | checkQueryState => .checkQueryState

inductive MemEvent
  | checkedLimit (tid : Nat) (anyLimitExceeded : Bool)
  | assignMemLimitExceeded (tid : Nat)
  | logError (tid : Nat) (msg : String)
  | returned (tid : Nat) (result : Status)
  deriving DecidableEq

def assigners : List MemEvent → List Nat
  | [] => []
  | .assignMemLimitExceeded t :: h => t :: assigners h
  | _ :: h => assigners h

def logCalls : List MemEvent → List (Nat × String)
  | [] => []
  | .logError t m :: h => (t, m) :: logCalls h
  | _ :: h => logCalls h

@[simp] theorem assigners_append (h h' : List MemEvent) :
    assigners (h ++ h') = assigners h ++ assigners h' := by
  induction h with
  | nil => rfl
  | cons e h ih => cases e <;> simp [assigners, ih]

@[simp] theorem logCalls_append (h h' : List MemEvent) :
    logCalls (h ++ h') = logCalls h ++ logCalls h' := by
  induction h with
  | nil => rfl
  | cons e h ih => cases e <;> simp [logCalls, ih]

theorem mem_of_mem_assigners {t : Nat} {h : List MemEvent} (ht : t ∈ assigners h) :
    .assignMemLimitExceeded t ∈ h := by
  induction h with
  | nil => simp [assigners] at ht
  | cons e h ih =>
    cases e with
    | assignMemLimitExceeded t' =>
      rcases List.mem_cons.mp ht with rfl | ht
      · exact List.mem_cons_self _ _
      · exact List.mem_cons_of_mem _ (ih ht)
    | _ => exact List.mem_cons_of_mem _ (ih ht)

/-- The status a history leaves: the initial one until a thread assigned. -/
def statusAfter (q0 : Status) (h : List MemEvent) : Status :=
  if assigners h = [] then q0 else .memLimitExceeded

/-- Every `returned` event carries the status that the events before it leave. -/
def ReturnsCurrent (q0 : Status) (h : List MemEvent) : Prop :=
  ∀ h₁ t r h₂, h = h₁ ++ .returned t r :: h₂ → r = statusAfter q0 h₁

theorem ReturnsCurrent.nil (q0 : Status) : ReturnsCurrent q0 [] := by
  intro h₁ t r h₂ he
  cases h₁ <;> simp at he

theorem ReturnsCurrent.snoc {q0 : Status} {h : List MemEvent} {e : MemEvent}
    (hr : ReturnsCurrent q0 h) (he : ∀ t r, e = .returned t r → r = statusAfter q0 h) :
    ReturnsCurrent q0 (h ++ [e]) := by
  intro h₁ t r h₂ heq
  rcases List.eq_nil_or_concat h₂ with rfl | ⟨L, b, rfl⟩
  · obtain ⟨rfl, he'⟩ := List.append_inj' heq rfl
    exact he t r (List.cons.inj he').1
  · rw [List.concat_eq_append, ← List.cons_append, ← List.append_assoc] at heq
    exact hr h₁ t r L (List.append_inj' heq rfl).1

structure MemLimitState where
  runtimeState : RuntimeState
  threads : Nat → MemPc
  history : List MemEvent

namespace MemLimitState

def next (s : MemLimitState) (tid : Nat) (pc : MemPc) (es : List MemEvent) : MemLimitState :=
  { s with threads := Function.update s.threads tid pc, history := s.history ++ es }

def init (rs : RuntimeState) (calls : List MemCall) : MemLimitState :=
  ⟨rs, fun t => (calls[t]?.map MemCall.entry).getD .idle, []⟩

/-- One atomic step of thread `tid`, the trackers reading `v`. -/
def step (prettyBytes : Int → String) (s : MemLimitState) (tid : Nat) (v : MemTrackerView) :
    MemLimitState :=
  let st := s.runtimeState.queryStatus
  match s.threads tid with
  | .idle | .done _ => s
  | .checkQueryState =>
    if v.anyLimitExceeded then s.next tid (.setMemLimitExceeded "" 0) [.checkedLimit tid true]
    else s.next tid (.done st) [.checkedLimit tid false, .returned tid st]
  | .setMemLimitExceeded l n =>
    if st.ok then
      { s.next tid (.logError l n) [.assignMemLimitExceeded tid] with
        runtimeState := { s.runtimeState with queryStatus := .memLimitExceeded } }
    else s.next tid (.done st) [.returned tid st]
  | .logError l n =>
    { s.next tid .returnStatus [.logError tid (memLimitExceededMsg prettyBytes l n v)] with
      runtimeState := (s.runtimeState.logError (memLimitExceededMsg prettyBytes l n v)).2 }
  | .returnStatus => s.next tid (.done st) [.returned tid st]

def run (prettyBytes : Int → String) (s : MemLimitState) :
    List (Nat × MemTrackerView) → MemLimitState
  | [] => s
  | (tid, v) :: sched => run prettyBytes (step prettyBytes s tid v) sched

def states (prettyBytes : Int → String) (s : MemLimitState) :
    List (Nat × MemTrackerView) → List MemLimitState
  | [] => [s]
  | (tid, v) :: sched => s :: states prettyBytes (step prettyBytes s tid v) sched

@[simp] theorem next_runtimeState (s : MemLimitState) (t : Nat) (pc : MemPc) (es : List MemEvent) :
    (s.next t pc es).runtimeState = s.runtimeState := rfl

@[simp] theorem next_history (s : MemLimitState) (t : Nat) (pc : MemPc) (es : List MemEvent) :
    (s.next t pc es).history = s.history ++ es := rfl

@[simp] theorem next_threads (s : MemLimitState) (t : Nat) (pc : MemPc) (es : List MemEvent) :
    (s.next t pc es).threads = Function.update s.threads t pc := rfl

/-- What one step of thread `tid` does, by the pc it stands at. -/
inductive MemStep (pb : Int → String) (s : MemLimitState) (tid : Nat) (v : MemTrackerView) :
    MemLimitState → Prop
  | idle (hpc : s.threads tid = .idle) : MemStep pb s tid v s
  | done {r : Status} (hpc : s.threads tid = .done r) : MemStep pb s tid v s
  | checkExceeded (hpc : s.threads tid = .checkQueryState) (hv : v.anyLimitExceeded = true) :
      MemStep pb s tid v (s.next tid (.setMemLimitExceeded "" 0) [.checkedLimit tid true])
  | checkReturns (hpc : s.threads tid = .checkQueryState) (hv : v.anyLimitExceeded = false) :
      MemStep pb s tid v (s.next tid (.done s.runtimeState.queryStatus)
        [.checkedLimit tid false, .returned tid s.runtimeState.queryStatus])
  | assign {l : String} {n : Int} (hpc : s.threads tid = .setMemLimitExceeded l n)
      (hq : s.runtimeState.queryStatus = .OK) :
      MemStep pb s tid v { s.next tid (.logError l n) [.assignMemLimitExceeded tid] with
        runtimeState := { s.runtimeState with queryStatus := .memLimitExceeded } }
  | setReturns {l : String} {n : Int} (hpc : s.threads tid = .setMemLimitExceeded l n)
      (hq : s.runtimeState.queryStatus.ok = false) :
      MemStep pb s tid v (s.next tid (.done s.runtimeState.queryStatus)
        [.returned tid s.runtimeState.queryStatus])
  | log {l : String} {n : Int} (hpc : s.threads tid = .logError l n) :
      MemStep pb s tid v
        { s.next tid .returnStatus [.logError tid (memLimitExceededMsg pb l n v)] with
          runtimeState := (s.runtimeState.logError (memLimitExceededMsg pb l n v)).2 }
  | returnStatus (hpc : s.threads tid = .returnStatus) :
      MemStep pb s tid v (s.next tid (.done s.runtimeState.queryStatus)
        [.returned tid s.runtimeState.queryStatus])

section Step

variable {pb : Int → String} {s : MemLimitState} {tid : Nat} {v : MemTrackerView}

theorem step_memStep (pb : Int → String) (s : MemLimitState) (tid : Nat) (v : MemTrackerView) :
    MemStep pb s tid v (step pb s tid v) := by
  cases h : s.threads tid with
  | idle => simp only [step, h]; exact .idle h
  | done r => simp only [step, h]; exact .done h
  | checkQueryState =>
    cases hv : v.anyLimitExceeded
    · simp only [step, h, hv]; exact .checkReturns h hv
    · simp only [step, h, hv]; exact .checkExceeded h hv
  | setMemLimitExceeded l n =>
    cases hq : s.runtimeState.queryStatus.ok
    · simp only [step, h, hq]; exact .setReturns h hq
    · simp only [step, h, hq]; exact .assign h (Status.ok_iff.mp hq)
  | logError l n => simp only [step, h]; exact .log h
  | returnStatus => simp only [step, h]; exact .returnStatus h

theorem step_threads_ne (pb : Int → String) (s : MemLimitState) {tid t : Nat} (v : MemTrackerView)
    (h : t ≠ tid) : (step pb s tid v).threads t = s.threads t := by
  have hs := step_memStep pb s tid v
  generalize step pb s tid v = s' at hs ⊢
  cases hs <;> simp [Function.update_noteq h]

theorem step_queryStatus (pb : Int → String) (s : MemLimitState) (tid : Nat) (v : MemTrackerView) :
    (step pb s tid v).runtimeState.queryStatus = s.runtimeState.queryStatus ∨
      (s.runtimeState.queryStatus = .OK ∧
        (step pb s tid v).runtimeState.queryStatus = .memLimitExceeded) := by
  have hs := step_memStep pb s tid v
  generalize step pb s tid v = s' at hs ⊢
  cases hs with
  | assign _ hq => exact .inr ⟨hq, rfl⟩
  | log _ => exact .inl (RuntimeState.logError_queryStatus _ _)
  | _ => exact .inl rfl

theorem states_eq_cons (pb : Int → String) (s : MemLimitState) (sched : List (Nat × MemTrackerView)) :
    ∃ rest, states pb s sched = s :: rest := by
  cases sched <;> exact ⟨_, rfl⟩

theorem states_queryStatus_of_not_ok (pb : Int → String) (sched : List (Nat × MemTrackerView))
    {s : MemLimitState} (h : s.runtimeState.queryStatus.ok = false) :
    ∀ s' ∈ states pb s sched, s'.runtimeState.queryStatus = s.runtimeState.queryStatus := by
  induction sched generalizing s with
  | nil => simp [states]
  | cons e sched ih =>
    have hs : (step pb s e.1 e.2).runtimeState.queryStatus = s.runtimeState.queryStatus := by
      rcases step_queryStatus pb s e.1 e.2 with h' | ⟨h', -⟩
      · exact h'
      · simp [h'] at h
    intro s' hs'
    simp only [states, List.mem_cons] at hs'
    rcases hs' with rfl | hs'
    · rfl
    · rw [ih (hs ▸ h) s' hs', hs]

theorem states_changesOnce (pb : Int → String) (sched : List (Nat × MemTrackerView))
    (s : MemLimitState) :
    ChangesOnce s.runtimeState.queryStatus .memLimitExceeded
      ((states pb s sched).map (·.runtimeState.queryStatus)) := by
  cases hq : s.runtimeState.queryStatus.ok
  · exact ChangesOnce.of_forall (by simpa using states_queryStatus_of_not_ok pb sched hq)
  · induction sched generalizing s with
    | nil => exact ⟨1, 0, by simp [states]⟩
    | cons e sched ih =>
      simp only [states, List.map_cons]
      rcases step_queryStatus pb s e.1 e.2 with h' | ⟨h, h'⟩
      · rw [← h']; exact (ih _ (h' ▸ hq)).cons_left
      · rw [h]
        refine ⟨1, (states pb (step pb s e.1 e.2) sched).length, ?_⟩
        have hall := states_queryStatus_of_not_ok pb sched (s := step pb s e.1 e.2) (by simp [h'])
        simp only [List.replicate_one, List.singleton_append, List.cons.injEq, true_and]
        exact List.eq_replicate_iff.mpr ⟨by simp, by simpa [h'] using hall⟩

end Step

end MemLimitState

/-- What holds of every state the threads reach from the runtime state `rs0`. -/
structure MemInv (rs0 : RuntimeState) (s : MemLimitState) : Prop where
  status : s.runtimeState.queryStatus = statusAfter rs0.queryStatus s.history
  fromOk : assigners s.history ≠ [] → rs0.queryStatus = .OK
  assignedOnce : (assigners s.history).length ≤ 1
  owner : ∀ t, (s.threads t).afterAssign → assigners s.history = [t]
  logOwner : ∀ t m, (t, m) ∈ logCalls s.history → assigners s.history = [t]
  loggedOnce : (logCalls s.history).length ≤ 1
  logPending : ∀ t l n, s.threads t = .logError l n → logCalls s.history = []
  errorLog : ∃ l, s.runtimeState.errorLog = rs0.errorLog ++ l ∧ l.length ≤ (logCalls s.history).length
  returns : ReturnsCurrent rs0.queryStatus s.history
  returnedDone : ∀ t r, .returned t r ∈ s.history → s.threads t = .done r
  sawLimit : ∀ t, .checkedLimit t true ∈ s.history →
    (s.threads t).inSetMemLimitExceeded ∨ ∃ r, s.threads t = .done r ∧ r.ok = false
  doneReturned : ∀ t r, s.threads t = .done r → .returned t r ∈ s.history

namespace MemInv

variable {rs0 : RuntimeState} {s : MemLimitState}

theorem init (rs0 : RuntimeState) (calls : List MemCall) :
    MemInv rs0 (MemLimitState.init rs0 calls) := by
  have entry : ∀ t, (MemLimitState.init rs0 calls).threads t = .idle ∨
      (MemLimitState.init rs0 calls).threads t = .checkQueryState ∨
      ∃ l n, (MemLimitState.init rs0 calls).threads t = .setMemLimitExceeded l n := by
    intro t
    simp only [MemLimitState.init]
    cases calls[t]? with
    | none => exact .inl rfl
    | some c => cases c <;> simp [MemCall.entry]
  refine ⟨by simp [MemLimitState.init, statusAfter, assigners], by simp [MemLimitState.init, assigners],
    by simp [MemLimitState.init, assigners], ?_, by simp [MemLimitState.init, logCalls],
    by simp [MemLimitState.init, logCalls], by simp [MemLimitState.init, logCalls],
    ⟨[], by simp [MemLimitState.init]⟩, ReturnsCurrent.nil _, by simp [MemLimitState.init],
    by simp [MemLimitState.init], fun t r h => ?_⟩
  · intro t ht
    rcases entry t with h | h | ⟨l, n, h⟩ <;> simp [h, MemPc.afterAssign] at ht
  · rcases entry t with h' | h' | ⟨l, n, h'⟩ <;> simp [h'] at h

theorem next (hi : MemInv rs0 s) {tid : Nat} {pc : MemPc} {es : List MemEvent}
    (hes : assigners es = [] ∧ logCalls es = [])
    (hpc : pc.afterAssign = false ∧ ∀ l n, pc ≠ .logError l n)
    (hret : ReturnsCurrent rs0.queryStatus (s.history ++ es))
    (hdone : ∀ t r, .returned t r ∈ s.history ++ es → Function.update s.threads tid pc t = .done r)
    (hsaw : ∀ t, .checkedLimit t true ∈ s.history ++ es →
      (Function.update s.threads tid pc t).inSetMemLimitExceeded ∨
        ∃ r, Function.update s.threads tid pc t = .done r ∧ r.ok = false)
    (hdoneRet : ∀ r, pc = .done r → .returned tid r ∈ es) :
    MemInv rs0 (s.next tid pc es) := by
  have hA : assigners (s.history ++ es) = assigners s.history := by simp [hes.1]
  have hL : logCalls (s.history ++ es) = logCalls s.history := by simp [hes.2]
  refine ⟨?_, ?_, ?_, ?_, ?_, ?_, ?_, ?_, hret, hdone, hsaw, ?_⟩ <;>
    simp only [MemLimitState.next_runtimeState, MemLimitState.next_history,
      MemLimitState.next_threads, hA, hL]
  · simpa [statusAfter, hA] using hi.status
  · exact hi.fromOk
  · exact hi.assignedOnce
  · intro t ht
    by_cases htid : t = tid
    · subst htid; simp [hpc.1] at ht
    · exact hi.owner t (by simpa [htid] using ht)
  · exact hi.logOwner
  · exact hi.loggedOnce
  · intro t l n ht
    by_cases htid : t = tid
    · subst htid; simp [hpc.2] at ht
    · exact hi.logPending t l n (by simpa [htid] using ht)
  · exact hi.errorLog
  · intro t r ht
    by_cases htid : t = tid
    · subst htid; exact List.mem_append_right _ (hdoneRet r (by simpa using ht))
    · exact List.mem_append_left _ (hi.doneReturned t r (by simpa [htid] using ht))

theorem ne_of_returned (hi : MemInv rs0 s) {tid t : Nat} {r : Status}
    (hrun : ∀ r', s.threads tid ≠ .done r') (h : .returned t r ∈ s.history) : t ≠ tid := by
  rintro rfl; exact hrun r (hi.returnedDone t r h)

theorem ne_of_checked (hi : MemInv rs0 s) {tid t : Nat} (hpc : s.threads tid = .checkQueryState)
    (h : .checkedLimit t true ∈ s.history) : t ≠ tid := by
  rintro rfl
  rcases hi.sawLimit t h with h' | ⟨r, h', -⟩ <;> simp [hpc, MemPc.inSetMemLimitExceeded] at h'

theorem returned_update (hi : MemInv rs0 s) {tid t : Nat} {r : Status}
    (hrun : ∀ r', s.threads tid ≠ .done r') (pc : MemPc) (h : .returned t r ∈ s.history) :
    Function.update s.threads tid pc t = .done r := by
  rw [Function.update_noteq (hi.ne_of_returned hrun h)]
  exact hi.returnedDone t r h

theorem sawLimit_update (hi : MemInv rs0 s) {tid t : Nat} {pc : MemPc}
    (hpc : pc.inSetMemLimitExceeded = true) (h : .checkedLimit t true ∈ s.history) :
    (Function.update s.threads tid pc t).inSetMemLimitExceeded ∨
      ∃ r, Function.update s.threads tid pc t = .done r ∧ r.ok = false := by
  by_cases htid : t = tid
  · subst htid; simp [hpc]
  · rw [Function.update_noteq htid]; exact hi.sawLimit t h

theorem doneReturned_update (hi : MemInv rs0 s) {tid : Nat} {pc : MemPc} {es : List MemEvent}
    (hpc : ∀ r, pc ≠ .done r) :
    ∀ t r, Function.update s.threads tid pc t = .done r → .returned t r ∈ s.history ++ es := by
  intro t r h
  by_cases htid : t = tid
  · subst htid; simp [hpc] at h
  · exact List.mem_append_left _ (hi.doneReturned t r (by simpa [htid] using h))

theorem status_ok (hi : MemInv rs0 s) (h : s.runtimeState.queryStatus.ok = true) :
    assigners s.history = [] := by
  by_contra hne
  rw [hi.status, statusAfter, if_neg hne] at h
  simp at h

theorem logger_assigned (hi : MemInv rs0 s) {t : Nat} {m : String} (h : (t, m) ∈ logCalls s.history) :
    .assignMemLimitExceeded t ∈ s.history :=
  mem_of_mem_assigners (by simp [hi.logOwner t m h])

theorem errorLog_le_one (hi : MemInv rs0 s) :
    ∃ l, s.runtimeState.errorLog = rs0.errorLog ++ l ∧ l.length ≤ 1 :=
  hi.errorLog.imp fun _ hl => ⟨hl.1, hl.2.trans hi.loggedOnce⟩

theorem checked_returns_not_ok (hi : MemInv rs0 s) {t : Nat} {r : Status}
    (hc : .checkedLimit t true ∈ s.history) (hr : .returned t r ∈ s.history) : r.ok = false := by
  rcases hi.sawLimit t hc with h | ⟨r', h, hr'⟩ <;> rw [hi.returnedDone t r hr] at h
  · simp [MemPc.inSetMemLimitExceeded] at h
  · cases h; exact hr'

theorem returned_eq (hi : MemInv rs0 s) {t : Nat} {r : Status} (hr : .returned t r ∈ s.history) :
    r = rs0.queryStatus ∨ (rs0.queryStatus = .OK ∧ r = .memLimitExceeded) := by
  obtain ⟨h₁, h₂, he⟩ := List.append_of_mem hr
  rw [hi.returns h₁ t r h₂ he, statusAfter]
  split_ifs with hA
  · exact .inl rfl
  · exact .inr ⟨hi.fromOk (by rw [he, assigners_append]; simp [hA]), rfl⟩

end MemInv

namespace MemLimitState

variable {pb : Int → String} {rs0 : RuntimeState} {s : MemLimitState} {tid : Nat}
  {v : MemTrackerView}

theorem inv_check_exceeded (hi : MemInv rs0 s) (hpc : s.threads tid = .checkQueryState) :
    MemInv rs0 (s.next tid (.setMemLimitExceeded "" 0) [.checkedLimit tid true]) := by
  refine hi.next (by simp [assigners, logCalls]) ⟨rfl, by simp⟩ (hi.returns.snoc (by simp)) ?_ ?_
    (by simp)
  · exact fun t r h => hi.returned_update (by simp [hpc]) _ (by simpa using h)
  · intro t h
    rcases List.mem_append.mp h with h | h
    · rw [Function.update_noteq (hi.ne_of_checked hpc h)]; exact hi.sawLimit t h
    · obtain rfl : t = tid := by simpa using h
      simp [MemPc.inSetMemLimitExceeded]

theorem inv_check_returns (hi : MemInv rs0 s) (hpc : s.threads tid = .checkQueryState) :
    MemInv rs0 (s.next tid (.done s.runtimeState.queryStatus)
      [.checkedLimit tid false, .returned tid s.runtimeState.queryStatus]) := by
  have hret := (hi.returns.snoc (e := .checkedLimit tid false) (by simp)).snoc
    (e := .returned tid s.runtimeState.queryStatus)
    (by simp [hi.status, statusAfter, assigners])
  refine hi.next (by simp [assigners, logCalls]) ⟨rfl, by simp⟩ (by simpa using hret) ?_ ?_
    (by simp)
  · intro t r h
    rcases List.mem_append.mp h with h | h
    · exact hi.returned_update (by simp [hpc]) _ h
    · obtain ⟨rfl, rfl⟩ : t = tid ∧ r = s.runtimeState.queryStatus := by simpa using h
      simp
  · intro t h
    rcases List.mem_append.mp h with h | h
    · rw [Function.update_noteq (hi.ne_of_checked hpc h)]; exact hi.sawLimit t h
    · simp at h

theorem inv_set_returns (hi : MemInv rs0 s) (hpc : (s.threads tid).inSetMemLimitExceeded = true)
    (hq : s.runtimeState.queryStatus.ok = false) :
    MemInv rs0 (s.next tid (.done s.runtimeState.queryStatus) [.returned tid s.runtimeState.queryStatus]) := by
  have hrun : ∀ r, s.threads tid ≠ .done r := by
    intro r h; simp [h, MemPc.inSetMemLimitExceeded] at hpc
  refine hi.next (by simp [assigners, logCalls]) ⟨rfl, by simp⟩
    (hi.returns.snoc (by simp [← hi.status])) ?_ ?_ (by simp)
  · intro t r h
    rcases List.mem_append.mp h with h | h
    · exact hi.returned_update hrun _ h
    · obtain ⟨rfl, rfl⟩ : t = tid ∧ r = s.runtimeState.queryStatus := by simpa using h
      simp
  · intro t h
    rcases List.mem_append.mp h with h | h
    · by_cases htid : t = tid
      · subst htid; exact .inr ⟨_, by simp, hq⟩
      · rw [Function.update_noteq htid]; exact hi.sawLimit t h
    · simp at h

theorem inv_assign (hi : MemInv rs0 s) {l : String} {n : Int}
    (hpc : s.threads tid = .setMemLimitExceeded l n) (hq : s.runtimeState.queryStatus = .OK) :
    MemInv rs0 { s.next tid (.logError l n) [.assignMemLimitExceeded tid] with
      runtimeState := { s.runtimeState with queryStatus := .memLimitExceeded } } := by
  have hA := hi.status_ok (by simp [hq])
  have hL : logCalls s.history = [] := by
    rcases hlc : logCalls s.history with _ | ⟨⟨t, m⟩, _⟩
    · rfl
    · have := hi.logOwner t m (by simp [hlc]); simp [hA] at this
  have hrun : ∀ r, s.threads tid ≠ .done r := by simp [hpc]
  refine ⟨?_, ?_, ?_, ?_, ?_, ?_, ?_, ?_, ?_, ?_, ?_, ?_⟩ <;>
    simp only [MemLimitState.next_history, MemLimitState.next_threads, assigners_append, logCalls_append,
      hA, hL, assigners, logCalls, List.nil_append, List.append_nil]
  · simp [statusAfter, assigners, hA]
  · intro; simpa [hi.status, statusAfter, hA] using hq
  · simp
  · intro t ht
    by_cases htid : t = tid
    · rw [htid]
    · have := hi.owner t (by simpa [htid] using ht); simp [hA] at this
  · simp
  · simp
  · simp
  · exact hi.errorLog.imp fun l hl => by simpa [hL] using hl
  · exact hi.returns.snoc (by simp)
  · exact fun t r h => hi.returned_update hrun _ (by simpa using h)
  · exact fun t h => hi.sawLimit_update rfl (by simpa using h)
  · exact hi.doneReturned_update (by simp)

theorem inv_log (hi : MemInv rs0 s) {l : String} {n : Int} (msg : String)
    (hpc : s.threads tid = .logError l n) :
    MemInv rs0 { s.next tid .returnStatus [.logError tid msg] with
      runtimeState := (s.runtimeState.logError msg).2 } := by
  have hA := hi.owner tid (by simp [hpc, MemPc.afterAssign])
  have hL := hi.logPending tid l n hpc
  have hrun : ∀ r, s.threads tid ≠ .done r := by simp [hpc]
  refine ⟨?_, ?_, ?_, ?_, ?_, ?_, ?_, ?_, ?_, ?_, ?_, ?_⟩ <;>
    simp only [MemLimitState.next_history, MemLimitState.next_threads, assigners_append, logCalls_append,
      hA, hL, assigners, logCalls, List.nil_append, List.append_nil, RuntimeState.logError_queryStatus]
  · simpa [statusAfter, hA] using hi.status
  · exact fun _ => hi.fromOk (by simp [hA])
  · simp
  · intro t ht
    by_cases htid : t = tid
    · rw [htid]
    · exact hA.symm.trans (hi.owner t (by simpa [htid] using ht))
  · intro t m h; obtain ⟨rfl, -⟩ := by simpa using h
    rfl
  · simp
  · intro t l' n' ht
    by_cases htid : t = tid
    · subst htid; simp at ht
    · have := hi.owner t (by simp [Function.update_noteq htid] at ht; simp [ht, MemPc.afterAssign])
      simp [hA] at this; exact absurd this.symm htid
  · obtain ⟨l0, hl0, hlen⟩ := hi.errorLog
    rw [hL] at hlen
    obtain rfl : l0 = [] := List.eq_nil_of_length_eq_zero (by simpa using hlen)
    rw [RuntimeState.logError_errorLog, hl0]
    split_ifs
    · exact ⟨[msg], by simp, by simp⟩
    · exact ⟨[], by simp, by simp⟩
  · exact hi.returns.snoc (by simp)
  · exact fun t r h => hi.returned_update hrun _ (by simpa using h)
  · exact fun t h => hi.sawLimit_update rfl (by simpa using h)
  · exact hi.doneReturned_update (by simp)

theorem step_inv (hi : MemInv rs0 s) : MemInv rs0 (step pb s tid v) := by
  have hs := step_memStep pb s tid v
  generalize step pb s tid v = s' at hs ⊢
  cases hs with
  | idle _ | done _ => exact hi
  | checkExceeded hpc _ => exact inv_check_exceeded hi hpc
  | checkReturns hpc _ => exact inv_check_returns hi hpc
  | assign hpc hq => exact inv_assign hi hpc hq
  | setReturns hpc hq => exact inv_set_returns hi (by simp [hpc, MemPc.inSetMemLimitExceeded]) hq
  | log hpc => exact inv_log hi _ hpc
  | returnStatus hpc =>
    have hA := hi.owner tid (by simp [hpc, MemPc.afterAssign])
    exact inv_set_returns hi (by simp [hpc, MemPc.inSetMemLimitExceeded])
      (by simp [hi.status, statusAfter, hA])

theorem states_inv (hi : MemInv rs0 s) (sched : List (Nat × MemTrackerView)) :
    ∀ s' ∈ states pb s sched, MemInv rs0 s' := by
  induction sched generalizing s with
  | nil => simpa [states] using hi
  | cons e sched ih =>
    intro s' hs'
    simp only [states, List.mem_cons] at hs'
    rcases hs' with rfl | hs'
    · exact hi
    · exact ih (step_inv hi) s' hs'

theorem run_mem_states (pb : Int → String) (s : MemLimitState) (sched : List (Nat × MemTrackerView)) :
    run pb s sched ∈ states pb s sched := by
  induction sched generalizing s with
  | nil => simp [run, states]
  | cons e sched ih => exact List.mem_cons_of_mem _ (ih _)

theorem run_inv (hi : MemInv rs0 s) (sched : List (Nat × MemTrackerView)) :
    MemInv rs0 (run pb s sched) :=
  states_inv hi sched _ (run_mem_states pb s sched)

end MemLimitState

/-! ## Every call returns

Each step of a thread that has not returned brings it closer to its return, whatever the
trackers report: a thread left to run alone returns within four of its own steps. -/

def MemPc.stepsLeft : MemPc → Nat
  | .checkQueryState => 4
  | .setMemLimitExceeded .. => 3
  | .logError .. => 2
  | .returnStatus => 1
  | .idle | .done _ => 0

/-- Where a thread running `c` can stand: a `SetMemLimitExceeded` inside its body, or returned
with a status that is not OK. -/
def MemCall.Running : MemCall → MemPc → Prop
  | .checkQueryState, pc => pc ≠ .idle
  | .setMemLimitExceeded .., pc => pc.inSetMemLimitExceeded ∨ ∃ r, pc = .done r ∧ r.ok = false

theorem MemCall.Running.ne_idle {c : MemCall} {pc : MemPc} (h : c.Running pc) : pc ≠ .idle := by
  cases c with
  | checkQueryState => exact h
  | setMemLimitExceeded =>
    rintro rfl
    rcases h with h | ⟨r, h, -⟩ <;> simp [MemPc.inSetMemLimitExceeded] at h

def CallsInv (calls : List MemCall) (s : MemLimitState) : Prop :=
  ∀ t (c : MemCall), calls[t]? = some c → c.Running (s.threads t)

namespace MemLimitState

variable {pb : Int → String} {rs0 : RuntimeState} {s : MemLimitState} {tid : Nat}
  {v : MemTrackerView} {calls : List MemCall}

theorem callsInv_init (rs0 : RuntimeState) (calls : List MemCall) :
    CallsInv calls (init rs0 calls) := by
  intro t c hc
  cases c <;> simp [init, hc, MemCall.entry, MemCall.Running, MemPc.inSetMemLimitExceeded]

theorem callsInv_step (hi : MemInv rs0 s) (hc : CallsInv calls s) :
    CallsInv calls (step pb s tid v) := by
  intro t c hct
  by_cases htid : t = tid
  · subst htid
    have hr := hc t c hct
    have hs := step_memStep pb s t v
    generalize step pb s t v = s' at hs ⊢
    cases hs with
    | idle _ | done _ => exact hr
    | checkReturns hpc _ =>
      cases c with
      | checkQueryState => simp [MemCall.Running]
      | setMemLimitExceeded =>
        rw [hpc] at hr
        rcases hr with h | ⟨r, h, -⟩ <;> simp [MemPc.inSetMemLimitExceeded] at h
    | setReturns _ hq => cases c <;> simp [MemCall.Running, hq]
    | returnStatus hpc =>
      -- only the thread that assigned `MEM_LIMIT_EXCEEDED` reaches its return step
      have hA := hi.owner t (by simp [hpc, MemPc.afterAssign])
      have hq : s.runtimeState.queryStatus.ok = false := by simp [hi.status, statusAfter, hA]
      cases c <;> simp [MemCall.Running, hq]
    | _ => cases c <;> simp [MemCall.Running, MemPc.inSetMemLimitExceeded]
  · rw [step_threads_ne pb s v htid]; exact hc t c hct

theorem states_callsInv (hi : MemInv rs0 s) (hc : CallsInv calls s)
    (sched : List (Nat × MemTrackerView)) : ∀ s' ∈ states pb s sched, CallsInv calls s' := by
  induction sched generalizing s with
  | nil => simpa [states] using hc
  | cons e sched ih =>
    intro s' hs'
    simp only [states, List.mem_cons] at hs'
    rcases hs' with rfl | hs'
    · exact hc
    · exact ih (step_inv hi) (callsInv_step hi hc) s' hs'

theorem step_stepsLeft (pb : Int → String) (s : MemLimitState) (tid : Nat) (v : MemTrackerView)
    (h : (s.threads tid).stepsLeft ≠ 0) :
    ((step pb s tid v).threads tid).stepsLeft < (s.threads tid).stepsLeft ∧
      (step pb s tid v).threads tid ≠ .idle := by
  have hs := step_memStep pb s tid v
  generalize step pb s tid v = s' at hs ⊢
  cases hs with
  | idle hpc | done hpc => simp [hpc, MemPc.stepsLeft] at h
  | _ => simp_all [MemPc.stepsLeft]

theorem step_of_done {r : Status} (h : s.threads tid = .done r) : step pb s tid v = s := by
  simp [step, h]

/-- A thread left to run alone returns once it has had as many steps as it has left. -/
theorem run_alone_done (pb : Int → String) (s : MemLimitState) {t : Nat}
    (vs : List MemTrackerView) (h : s.threads t ≠ .idle) (hvs : (s.threads t).stepsLeft ≤ vs.length) :
    ∃ r, (run pb s (vs.map (Prod.mk t))).threads t = .done r := by
  induction vs generalizing s with
  | nil => cases hs : s.threads t <;> simp_all [MemPc.stepsLeft, run]
  | cons v vs ih =>
    simp only [List.map_cons, run]
    by_cases h0 : (s.threads t).stepsLeft = 0
    · cases hs : s.threads t <;> simp_all [MemPc.stepsLeft, step_of_done]
    · obtain ⟨hlt, hne⟩ := step_stepsLeft pb s t v h0
      exact ih _ hne (by simp only [List.length_cons] at hvs; omega)

end MemLimitState

open MemLimitState in
/-- Racing `SetMemLimitExceeded` and `CheckQueryState` calls, under any tracker readings:
`query_status_` changes at most once, and only from OK to `MEM_LIMIT_EXCEEDED`; only the thread
that changed it calls `LogError`, so the log gains at most one entry; every call returns the
status its return step reads, which is `MEM_LIMIT_EXCEEDED` from the change on; a
`CheckQueryState` that saw a limit exceeded returns a status that is not OK, and a
`SetMemLimitExceeded` returns `MEM_LIMIT_EXCEEDED`, or the error already there. And every call
does return: from every state of the run, a thread of a call left to run alone returns within
four of its own steps, whatever the trackers report. -/
theorem setMemLimitExceeded_race (pb : Int → String) (rs : RuntimeState) (calls : List MemCall)
    (sched : List (Nat × MemTrackerView)) :
    ChangesOnce rs.queryStatus .memLimitExceeded
        ((states pb (init rs calls) sched).map (·.runtimeState.queryStatus)) ∧
      (rs.queryStatus ≠ .OK → ∀ s ∈ states pb (init rs calls) sched,
        s.runtimeState.queryStatus = rs.queryStatus) ∧
      (logCalls (run pb (init rs calls) sched).history).length ≤ 1 ∧
      (∀ t m, (t, m) ∈ logCalls (run pb (init rs calls) sched).history →
        .assignMemLimitExceeded t ∈ (run pb (init rs calls) sched).history) ∧
      (∃ l, (run pb (init rs calls) sched).runtimeState.errorLog = rs.errorLog ++ l ∧ l.length ≤ 1) ∧
      ReturnsCurrent rs.queryStatus (run pb (init rs calls) sched).history ∧
      (∀ t r, .checkedLimit t true ∈ (run pb (init rs calls) sched).history →
        .returned t r ∈ (run pb (init rs calls) sched).history → r.ok = false) ∧
      (∀ t l n r, calls[t]? = some (.setMemLimitExceeded l n) →
        .returned t r ∈ (run pb (init rs calls) sched).history →
          r = if rs.queryStatus.ok then .memLimitExceeded else rs.queryStatus) ∧
      ∀ s ∈ states pb (init rs calls) sched, ∀ t < calls.length, ∀ vs : List MemTrackerView,
        4 ≤ vs.length → ∃ r, .returned t r ∈ (run pb s (vs.map (Prod.mk t))).history := by
  have hi₀ := MemInv.init rs calls
  have hc₀ := callsInv_init rs calls
  have hrun := run_mem_states pb (init rs calls) sched
  have hi := states_inv hi₀ sched _ hrun
  refine ⟨states_changesOnce pb sched _,
    fun h => states_queryStatus_of_not_ok pb sched (by simpa [init, ← Status.ok_iff] using h),
    hi.loggedOnce, fun _ _ => hi.logger_assigned, hi.errorLog_le_one, hi.returns,
    fun _ _ => hi.checked_returns_not_ok, fun t l n r hcall hr => ?_,
    fun s hs t ht vs hvs => ?_⟩
  · -- a `SetMemLimitExceeded` thread that returned did so with a status that is not OK
    have hnot : r.ok = false := by
      rcases states_callsInv hi₀ hc₀ sched _ hrun t _ hcall with h | ⟨r', h, hr'⟩ <;>
        rw [hi.returnedDone t r hr] at h
      · simp [MemPc.inSetMemLimitExceeded] at h
      · cases h; exact hr'
    rcases hi.returned_eq hr with rfl | ⟨hq, rfl⟩
    · simp [hnot]
    · simp [hq]
  · have hne := (states_callsInv hi₀ hc₀ sched s hs t _ (List.getElem?_eq_getElem ht)).ne_idle
    obtain ⟨r, hr⟩ := run_alone_done pb s vs hne (le_trans (by
      cases s.threads t <;> simp [MemPc.stepsLeft]) hvs)
    exact ⟨r, (run_inv (states_inv hi₀ sched s hs) _).doneReturned t r hr⟩

end ImpalaBackend
