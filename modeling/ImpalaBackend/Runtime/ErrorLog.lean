import ImpalaBackend.Common.Status

/-!
# The RuntimeState error log

`runtime/runtime-state.cc`: the two constructors with `Init`, `LogError`, `GetUnreportedErrors`
and `ErrorLogIsEmpty`. Each of these runs whole under `error_log_lock_` (`LogError(Status)`
tests `ok()` on its argument, then takes the lock in `LogError(string)`), so an interleaving of
calls from several threads is a sequence of calls, and `runErrorLogCalls` runs every such
sequence. `LogError` compares the `size_t` size with the `int` `max_errors`; the usual
arithmetic conversions turn the `int` into `size_t`, which `sizeTOfInt` computes.
-/

namespace ImpalaBackend

/-- The fields of `TQueryOptions` that the modelled code reads (thrift `i32`s). -/
structure TQueryOptions where
  maxErrors : Int
  batchSize : Int
  disableCodegen : Bool
  deriving DecidableEq, Repr

/-- The state `RuntimeState` keeps for its error log and its query status. -/
structure RuntimeState where
  queryOptions : TQueryOptions
  errorLog : List String
  unreportedErrorIdx : Nat
  queryStatus : Status
  deriving DecidableEq, Repr

/-- The conversion of an `int` to `size_t`: the value modulo `2^64`. -/
def sizeTOfInt (i : Int) : Nat := (i % 2 ^ 64).toNat

theorem sizeTOfInt_of_nonneg {i : Int} (h : 0 ≤ i) (h' : i < 2 ^ 64) : sizeTOfInt i = i.toNat := by
  rw [sizeTOfInt, Int.emod_eq_of_lt h h']

theorem sizeTOfInt_neg_one : sizeTOfInt (-1) = 2 ^ 64 - 1 := by decide

/-- The clamps of `RuntimeState::Init`: a non-positive `max_errors` becomes 100, a
non-positive `batch_size` the default. -/
def TQueryOptions.clamp (defaultBatchSize : Int) (o : TQueryOptions) : TQueryOptions :=
  { o with
    maxErrors := if o.maxErrors ≤ 0 then 100 else o.maxErrors
    batchSize := if o.batchSize ≤ 0 then defaultBatchSize else o.batchSize }

theorem TQueryOptions.clamp_maxErrors_pos (b : Int) (o : TQueryOptions) :
    0 < (o.clamp b).maxErrors := by
  show 0 < if o.maxErrors ≤ 0 then 100 else o.maxErrors
  split <;> omega

namespace RuntimeState

/-- `RuntimeState::Init`. `createCodegen` is what `CreateCodegen()` returns; on a failure `Init`
returns before the clamps. `defaultBatchSize` is `DEFAULT_BATCH_SIZE`, not among the sources. -/
def init (defaultBatchSize : Int) (createCodegen : Status) (s : RuntimeState) :
    Status × RuntimeState :=
  if !s.queryOptions.disableCodegen && !createCodegen.ok then (createCodegen, s)
  else (.OK, { s with queryOptions := s.queryOptions.clamp defaultBatchSize })

/-- The server-side constructor: fresh log, OK status, then `Init` (its status only `DCHECK`ed). -/
def make (defaultBatchSize : Int) (createCodegen : Status) (queryOptions : TQueryOptions) :
    RuntimeState :=
  (init defaultBatchSize createCodegen ⟨queryOptions, [], 0, .OK⟩).2

/-- The planning-side constructor: sets `batch_size` and never calls `Init`. -/
def makeForPlanning (defaultBatchSize : Int) (queryOptions : TQueryOptions) : RuntimeState :=
  ⟨{ queryOptions with batchSize := defaultBatchSize }, [], 0, .OK⟩

/-- `LogError(const string&)`: appends while `error_log_.size() < max_errors`. -/
def logError (error : String) (s : RuntimeState) : Bool × RuntimeState :=
  if s.errorLog.length < sizeTOfInt s.queryOptions.maxErrors then
    (true, { s with errorLog := s.errorLog ++ [error] })
  else (false, s)

/-- `LogError(const Status&)` -/
def logErrorStatus (status : Status) (s : RuntimeState) : RuntimeState :=
  if status.ok then s else (logError status.getErrorMsg s).2

/-- `GetUnreportedErrors(new_errors)`: `assign` replaces the vector only when there is
something new. -/
def getUnreportedErrors (newErrors : List String) (s : RuntimeState) :
    List String × RuntimeState :=
  if s.unreportedErrorIdx < s.errorLog.length then
    (s.errorLog.drop s.unreportedErrorIdx, { s with unreportedErrorIdx := s.errorLog.length })
  else (newErrors, s)

/-- `ErrorLogIsEmpty()`, which returns `error_log_.size() > 0`. -/
def errorLogIsEmpty (s : RuntimeState) : Bool := decide (s.errorLog.length > 0)

@[simp] theorem make_errorLog (b : Int) (c : Status) (o : TQueryOptions) :
    (make b c o).errorLog = [] := by
  unfold make init; split <;> rfl

@[simp] theorem make_unreportedErrorIdx (b : Int) (c : Status) (o : TQueryOptions) :
    (make b c o).unreportedErrorIdx = 0 := by
  unfold make init; split <;> rfl

@[simp] theorem make_queryStatus (b : Int) (c : Status) (o : TQueryOptions) :
    (make b c o).queryStatus = .OK := by
  unfold make init; split <;> rfl

theorem init_maxErrors_pos (b : Int) {c : Status} (s : RuntimeState)
    (h : (init b c s).1.ok = true) : 0 < (init b c s).2.queryOptions.maxErrors := by
  unfold init at h ⊢
  split
  · simp_all
  · exact TQueryOptions.clamp_maxErrors_pos _ _

theorem logError_errorLog (e : String) (s : RuntimeState) :
    (logError e s).2.errorLog =
      if (logError e s).1 then s.errorLog ++ [e] else s.errorLog := by
  unfold logError; split <;> rfl

@[simp] theorem logError_unreportedErrorIdx (e : String) (s : RuntimeState) :
    (logError e s).2.unreportedErrorIdx = s.unreportedErrorIdx := by
  unfold logError; split <;> rfl

@[simp] theorem logError_queryOptions (e : String) (s : RuntimeState) :
    (logError e s).2.queryOptions = s.queryOptions := by
  unfold logError; split <;> rfl

@[simp] theorem logError_queryStatus (e : String) (s : RuntimeState) :
    (logError e s).2.queryStatus = s.queryStatus := by
  unfold logError; split <;> rfl

theorem logError_fst (e : String) (s : RuntimeState) :
    (logError e s).1 = decide (s.errorLog.length < sizeTOfInt s.queryOptions.maxErrors) := by
  unfold logError; split <;> simp_all

theorem getUnreportedErrors_eq (v : List String) {s : RuntimeState}
    (h : s.unreportedErrorIdx ≤ s.errorLog.length) :
    getUnreportedErrors v s =
      if s.unreportedErrorIdx = s.errorLog.length then (v, s)
      else (s.errorLog.drop s.unreportedErrorIdx, { s with unreportedErrorIdx := s.errorLog.length }) := by
  unfold getUnreportedErrors
  by_cases he : s.unreportedErrorIdx = s.errorLog.length
  · simp [he]
  · simp [he]; omega

theorem getUnreportedErrors_unreportedErrorIdx (v : List String) {s : RuntimeState}
    (h : s.unreportedErrorIdx ≤ s.errorLog.length) :
    (getUnreportedErrors v s).2.unreportedErrorIdx = (getUnreportedErrors v s).2.errorLog.length := by
  rw [getUnreportedErrors_eq v h]; split_ifs <;> simp_all

theorem errorLogIsEmpty_iff (s : RuntimeState) : s.errorLogIsEmpty = true ↔ s.errorLog ≠ [] := by
  simp [errorLogIsEmpty, List.length_pos]

end RuntimeState

inductive ErrorLogCall
  | logError (error : String)
  | logErrorStatus (status : Status)
  | getUnreportedErrors
  | errorLogIsEmpty
  deriving DecidableEq, Repr

inductive ErrorLogResult
  | accepted (b : Bool)
  | errors (newErrors : List String)
  | isEmpty (b : Bool)
  | none
  deriving DecidableEq, Repr

def ErrorLogResult.reported : ErrorLogResult → List String
  | .errors v => v
  | _ => []

namespace ErrorLogCall

/-- One call; `GetUnreportedErrors` gets a fresh empty vector, as `ReportStatusCb` gives it. -/
def apply : ErrorLogCall → RuntimeState → ErrorLogResult × RuntimeState
  | logError e, s => (.accepted (s.logError e).1, (s.logError e).2)
  | logErrorStatus st, s => (.none, s.logErrorStatus st)
  | getUnreportedErrors, s => (.errors (s.getUnreportedErrors []).1, (s.getUnreportedErrors []).2)
  | errorLogIsEmpty, s => (.isEmpty s.errorLogIsEmpty, s)

def messages : ErrorLogCall → List String
  | logError e => [e]
  | logErrorStatus st => if st.ok then [] else [st.getErrorMsg]
  | _ => []

end ErrorLogCall

def runErrorLogCalls : List ErrorLogCall → RuntimeState → List ErrorLogResult × RuntimeState
  | [], s => ([], s)
  | c :: cs, s => ((c.apply s).1 :: (runErrorLogCalls cs (c.apply s).2).1,
      (runErrorLogCalls cs (c.apply s).2).2)

namespace ErrorLogCall

abbrev cap (s : RuntimeState) : Nat := sizeTOfInt s.queryOptions.maxErrors

theorem apply_queryOptions (c : ErrorLogCall) (s : RuntimeState) :
    (c.apply s).2.queryOptions = s.queryOptions := by
  cases c with
  | logErrorStatus st => simp only [apply, RuntimeState.logErrorStatus]; split_ifs <;> simp
  | getUnreportedErrors => simp only [apply, RuntimeState.getUnreportedErrors]; split_ifs <;> rfl
  | _ => simp [apply]

theorem apply_watermark (c : ErrorLogCall) {s : RuntimeState}
    (h : s.unreportedErrorIdx ≤ s.errorLog.length) :
    let s' := (c.apply s).2
    s'.unreportedErrorIdx ≤ s'.errorLog.length ∧ s.errorLog <+: s'.errorLog ∧
      s.unreportedErrorIdx ≤ s'.unreportedErrorIdx ∧
      s.errorLog.take s.unreportedErrorIdx ++ (c.apply s).1.reported =
        s'.errorLog.take s'.unreportedErrorIdx := by
  cases c with
  | getUnreportedErrors =>
    simp only [apply, RuntimeState.getUnreportedErrors_eq [] h]
    split_ifs with he
    · simp [ErrorLogResult.reported, he]
    · simp [ErrorLogResult.reported, h]
  | errorLogIsEmpty => simp [apply, ErrorLogResult.reported, h]
  | logError e =>
    simp only [apply, RuntimeState.logError_errorLog, RuntimeState.logError_unreportedErrorIdx]
    split_ifs <;> simp [ErrorLogResult.reported, List.take_append_of_le_length h] <;> omega
  | logErrorStatus st =>
    simp only [apply, RuntimeState.logErrorStatus]
    split_ifs
    · simp [ErrorLogResult.reported, h]
    · simp only [RuntimeState.logError_errorLog, RuntimeState.logError_unreportedErrorIdx]
      split_ifs <;> simp [ErrorLogResult.reported, List.take_append_of_le_length h] <;> omega

theorem apply_errorLog (c : ErrorLogCall) {s : RuntimeState} (h : s.errorLog.length ≤ cap s) :
    (c.apply s).2.errorLog = s.errorLog ++ c.messages.take (cap s - s.errorLog.length) := by
  have step : ∀ e, (s.logError e).2.errorLog = s.errorLog ++ [e].take (cap s - s.errorLog.length) := by
    intro e
    rw [RuntimeState.logError_errorLog, RuntimeState.logError_fst]
    by_cases hl : s.errorLog.length < cap s
    · simp [hl, List.take_of_length_le (show [e].length ≤ cap s - s.errorLog.length by simp; omega)]
    · simp [hl, show cap s - s.errorLog.length = 0 by omega]
  cases c with
  | logError e => exact step e
  | logErrorStatus st =>
    simp only [apply, RuntimeState.logErrorStatus, messages]
    split_ifs
    · simp
    · exact step _
  | getUnreportedErrors =>
    simp only [apply, RuntimeState.getUnreportedErrors, messages]
    split_ifs <;> simp
  | errorLogIsEmpty => simp [apply, messages]

end ErrorLogCall

/-- The run lemma for the watermark: from a state whose watermark is under the size, every
sequence of calls hands out, in order, exactly the entries between the old and the new
watermark, and keeps the watermark under the size. -/
theorem runErrorLogCalls_watermark (calls : List ErrorLogCall) {s : RuntimeState}
    (h : s.unreportedErrorIdx ≤ s.errorLog.length) :
    let r := runErrorLogCalls calls s
    r.2.unreportedErrorIdx ≤ r.2.errorLog.length ∧ s.errorLog.length ≤ r.2.errorLog.length ∧
      s.unreportedErrorIdx ≤ r.2.unreportedErrorIdx ∧
      s.errorLog.take s.unreportedErrorIdx ++ (r.1.map ErrorLogResult.reported).flatten =
        r.2.errorLog.take r.2.unreportedErrorIdx := by
  induction calls generalizing s with
  | nil => simp [runErrorLogCalls, h]
  | cons c cs ih =>
    obtain ⟨h1, h2, h3, h4⟩ := c.apply_watermark h
    obtain ⟨i1, i2, i3, i4⟩ := ih h1
    refine ⟨i1, le_trans h2.length_le i2, le_trans h3 i3, ?_⟩
    simp only [runErrorLogCalls, List.map_cons, List.flatten_cons, ← List.append_assoc, h4, i4]

theorem runErrorLogCalls_append (calls calls' : List ErrorLogCall) (s : RuntimeState) :
    runErrorLogCalls (calls ++ calls') s =
      ((runErrorLogCalls calls s).1 ++ (runErrorLogCalls calls' (runErrorLogCalls calls s).2).1,
        (runErrorLogCalls calls' (runErrorLogCalls calls s).2).2) := by
  induction calls generalizing s with
  | nil => rfl
  | cons c cs ih => rw [List.cons_append, runErrorLogCalls, runErrorLogCalls, ih]; rfl

/-- Every error accepted into the log is handed out once and in log order. From a freshly built
`RuntimeState`, after any calls the watermark is under the size and the vectors handed out so
far are the log up to the watermark; one more `GetUnreportedErrors` hands out the rest, so that
the vectors handed out are then the whole log; after it, calls that accept nothing leave the
next one empty. -/
theorem runErrorLogCalls_handsOutOnce (s : RuntimeState)
    (hs : s.errorLog = [] ∧ s.unreportedErrorIdx = 0) (calls rest : List ErrorLogCall) :
    let r := runErrorLogCalls calls s
    r.2.unreportedErrorIdx ≤ r.2.errorLog.length ∧
      (r.1.map ErrorLogResult.reported).flatten = r.2.errorLog.take r.2.unreportedErrorIdx ∧
      (((runErrorLogCalls (calls ++ [.getUnreportedErrors]) s).1.map ErrorLogResult.reported).flatten =
        (runErrorLogCalls (calls ++ [.getUnreportedErrors]) s).2.errorLog) ∧
      let g := (ErrorLogCall.getUnreportedErrors.apply r.2).2
      ((runErrorLogCalls rest g).2.errorLog.length = g.errorLog.length →
        (ErrorLogCall.getUnreportedErrors.apply (runErrorLogCalls rest g).2).1 = .errors []) := by
  have h0 : s.unreportedErrorIdx ≤ s.errorLog.length := by simp [hs]
  obtain ⟨h1, -, -, h4⟩ := runErrorLogCalls_watermark calls h0
  have hg : (ErrorLogCall.getUnreportedErrors.apply (runErrorLogCalls calls s).2).2.unreportedErrorIdx =
      (ErrorLogCall.getUnreportedErrors.apply (runErrorLogCalls calls s).2).2.errorLog.length :=
    RuntimeState.getUnreportedErrors_unreportedErrorIdx [] h1
  refine ⟨h1, by simpa [hs] using h4, ?_, fun hlen => ?_⟩
  · -- the final `GetUnreportedErrors` moves the watermark to the end of the log
    have hrun : (runErrorLogCalls (calls ++ [.getUnreportedErrors]) s).2 =
        (ErrorLogCall.getUnreportedErrors.apply (runErrorLogCalls calls s).2).2 := by
      rw [runErrorLogCalls_append]; rfl
    obtain ⟨-, -, -, k4⟩ := runErrorLogCalls_watermark (calls ++ [.getUnreportedErrors]) h0
    rw [hrun] at k4 ⊢
    rw [hg, List.take_length] at k4
    simpa [hs] using k4
  · set g := (ErrorLogCall.getUnreportedErrors.apply (runErrorLogCalls calls s).2).2
    obtain ⟨j1, -, j3, -⟩ := runErrorLogCalls_watermark rest (le_of_eq hg)
    have hdone : (runErrorLogCalls rest g).2.unreportedErrorIdx =
        (runErrorLogCalls rest g).2.errorLog.length := by omega
    simp only [ErrorLogCall.apply, RuntimeState.getUnreportedErrors_eq [] j1, hdone, if_true]

theorem runErrorLogCalls_handsOutOnce_make :
    let s := RuntimeState.make 1024 .OK ⟨0, 0, false⟩
    (s.errorLog = [] ∧ s.unreportedErrorIdx = 0) ∧
      let calls := [.logError "a", .getUnreportedErrors, .logError "b"]
      let r := runErrorLogCalls calls s
      r.2.unreportedErrorIdx ≤ r.2.errorLog.length ∧
        (r.1.map ErrorLogResult.reported).flatten = r.2.errorLog.take r.2.unreportedErrorIdx ∧
        (((runErrorLogCalls (calls ++ [.getUnreportedErrors]) s).1.map
            ErrorLogResult.reported).flatten =
          (runErrorLogCalls (calls ++ [.getUnreportedErrors]) s).2.errorLog) ∧
        let g := (ErrorLogCall.getUnreportedErrors.apply r.2).2
        ((runErrorLogCalls [] g).2.errorLog.length = g.errorLog.length →
          (ErrorLogCall.getUnreportedErrors.apply (runErrorLogCalls [] g).2).1 = .errors []) :=
  ⟨⟨by simp, by simp⟩, runErrorLogCalls_handsOutOnce _ ⟨by simp, by simp⟩
    [.logError "a", .getUnreportedErrors, .logError "b"] []⟩

theorem runErrorLogCalls_errorLog (calls : List ErrorLogCall) {s : RuntimeState}
    (h : s.errorLog.length ≤ ErrorLogCall.cap s) :
    (runErrorLogCalls calls s).2.errorLog =
      s.errorLog ++ (calls.flatMap ErrorLogCall.messages).take
        (ErrorLogCall.cap s - s.errorLog.length) := by
  induction calls generalizing s with
  | nil => simp [runErrorLogCalls]
  | cons c cs ih =>
    have hc := c.apply_errorLog h
    have hcap : ErrorLogCall.cap (c.apply s).2 = ErrorLogCall.cap s := by
      simp only [ErrorLogCall.cap, c.apply_queryOptions]
    have hlen : (c.apply s).2.errorLog.length ≤ ErrorLogCall.cap (c.apply s).2 := by
      rw [hcap, hc, List.length_append, List.length_take]; omega
    simp only [runErrorLogCalls, ih hlen, hcap, hc, List.flatMap_cons, List.append_assoc,
      List.length_append, List.length_take, List.take_append_eq_append_take]
    congr 3
    omega

theorem RuntimeState.make_keepsFirstErrors (b : Int) (c : Status) (o : TQueryOptions)
    (hinit : o.disableCodegen = true ∨ c.ok = true) (hmax : o.maxErrors < 2 ^ 31)
    (calls : List ErrorLogCall) :
    (runErrorLogCalls calls (RuntimeState.make b c o)).2.errorLog =
      (calls.flatMap ErrorLogCall.messages).take (if o.maxErrors ≤ 0 then 100 else o.maxErrors.toNat) := by
  have hmake : (RuntimeState.make b c o).queryOptions = o.clamp b := by
    rcases hinit with h | h <;> simp [RuntimeState.make, RuntimeState.init, h]
  have hcap : ErrorLogCall.cap (RuntimeState.make b c o) =
      if o.maxErrors ≤ 0 then 100 else o.maxErrors.toNat := by
    rw [ErrorLogCall.cap, hmake]
    show sizeTOfInt (if o.maxErrors ≤ 0 then 100 else o.maxErrors) = _
    split
    · rfl
    · rw [sizeTOfInt_of_nonneg (by omega) (by omega)]
  rw [runErrorLogCalls_errorLog calls (by simp), hcap]
  simp

theorem RuntimeState.make_keepsFirstErrors_default :
    ((⟨0, 0, false⟩ : TQueryOptions).disableCodegen = true ∨ Status.OK.ok = true) ∧
      (⟨0, 0, false⟩ : TQueryOptions).maxErrors < 2 ^ 31 ∧
      (runErrorLogCalls [.logError "a", .logErrorStatus .OK]
          (RuntimeState.make 1024 .OK ⟨0, 0, false⟩)).2.errorLog =
        ([.logError "a", .logErrorStatus .OK].flatMap ErrorLogCall.messages).take
          (if (⟨0, 0, false⟩ : TQueryOptions).maxErrors ≤ 0 then 100
            else (⟨0, 0, false⟩ : TQueryOptions).maxErrors.toNat) :=
  ⟨.inr rfl, by decide, RuntimeState.make_keepsFirstErrors 1024 .OK _ (.inr rfl) (by decide) _⟩

/-- On the planning side `Init` never runs: a fresh log is reported as not empty, and with
`max_errors = -1` the cap is `2^64 - 1`, so the first message is accepted. -/
theorem errorLogIsEmpty_planning_negative_maxErrors :
    (RuntimeState.makeForPlanning 1024 ⟨-1, 0, false⟩).errorLog = [] ∧
      (RuntimeState.makeForPlanning 1024 ⟨-1, 0, false⟩).errorLogIsEmpty = false ∧
      (runErrorLogCalls [.logError "e"] (RuntimeState.makeForPlanning 1024 ⟨-1, 0, false⟩)).1 =
        [.accepted true] ∧
      (runErrorLogCalls [.logError "e"] (RuntimeState.makeForPlanning 1024 ⟨-1, 0, false⟩)).2.errorLog =
        ["e"] := by
  decide

end ImpalaBackend
