import ImpalaBackend.Common.Status

/-!
# Opening a Thrift connection

`ThriftClientImpl::Open` and `ThriftClientImpl::OpenWithRetry` (`rpc/thrift-client.cc`). The
retry loop is written over any `Open` on any client state, runs on fuel, and records each
attempt and each `SleepForMs`; its `uint32_t` try counter is a `UInt32`.
-/

namespace ImpalaBackend

/-- What `Open` reads and changes of a `ThriftClientImpl`. -/
structure ThriftClientImpl where
  ipaddress : String
  port : Int
  socketCreateStatus : Status
  transportIsOpen : Bool

/-- `Open()`. `transportOpen` is what `transport_->open()` does when called: `none` when it
opens, `some what` when it throws a `TTransportException` with `what()`. -/
def ThriftClientImpl.open (transportOpen : Option String) (c : ThriftClientImpl) :
    Status × ThriftClientImpl :=
  if !c.socketCreateStatus.ok then (c.socketCreateStatus, c)
  else if c.transportIsOpen then (.OK, c)
  else match transportOpen with
    | none => (.OK, { c with transportIsOpen := true })
    | some what => (.ofMsg ("Couldn't open transport for " ++ c.ipaddress ++ ":" ++
        toString c.port ++ "(" ++ what ++ ")"), c)

theorem ThriftClientImpl.open_of_transportIsOpen {c : ThriftClientImpl} (t : Option String)
    (hs : c.socketCreateStatus.ok = true) (ho : c.transportIsOpen = true) : c.open t = (.OK, c) := by
  simp [ThriftClientImpl.open, hs, ho]

theorem ThriftClientImpl.open_transport {c : ThriftClientImpl}
    (hs : c.socketCreateStatus.ok = true) (transportOpen : Option String) :
    (c.open transportOpen).1.ok = (c.open transportOpen).2.transportIsOpen ∧
      (c.open transportOpen).2 =
        if (c.open transportOpen).1.ok then { c with transportIsOpen := true } else c := by
  cases ho : c.transportIsOpen
  · cases transportOpen <;> simp [ThriftClientImpl.open, hs, ho]
  · cases c; simp_all [ThriftClientImpl.open]

inductive RetryEvent
  | attempt (status : Status)
  | sleepForMs (waitMs : UInt64)
  deriving DecidableEq

section OpenWithRetry

variable {σ : Type} (openCall : σ → Status × σ)

/-- The loop of `OpenWithRetry(num_tries, wait_ms)` with its counter `tryCount`; `openCall` is
`Open()` on the client state, `none` is running out of fuel. With `num_tries == 0` the counter
is never compared. -/
def openWithRetryLoop (numTries : UInt32) (waitMs : UInt64) :
    Nat → UInt32 → σ → Option (Status × List RetryEvent × σ)
  | 0, _, _ => none
  | fuel + 1, tryCount, s =>
    if (openCall s).1.ok then some ((openCall s).1, [.attempt (openCall s).1], (openCall s).2)
    else if numTries ≠ 0 ∧ tryCount + 1 = numTries then
      some ((openCall s).1, [.attempt (openCall s).1], (openCall s).2)
    else (openWithRetryLoop numTries waitMs fuel (tryCount + 1) (openCall s).2).map
      fun r => (r.1, .attempt (openCall s).1 :: .sleepForMs waitMs :: r.2.1, r.2.2)

/-- `OpenWithRetry(num_tries, wait_ms)` on at most `fuel` iterations. -/
def openWithRetry (numTries : UInt32) (waitMs : UInt64) (fuel : Nat) (s : σ) :
    Option (Status × List RetryEvent × σ) :=
  openWithRetryLoop openCall numTries waitMs fuel 0 s

def stateAt (s : σ) : Nat → σ
  | 0 => s
  | i + 1 => stateAt (openCall s).2 i

def outcomeAt (s : σ) (i : Nat) : Status := (openCall (stateAt openCall s i)).1

theorem outcomeAt_succ (s : σ) (i : Nat) :
    outcomeAt openCall s (i + 1) = outcomeAt openCall (openCall s).2 i := rfl

end OpenWithRetry

def retryTrace (f : Nat → Status) (waitMs : UInt64) (m : Nat) : List RetryEvent :=
  ((List.range m).map fun i => .attempt (f i)).intersperse (.sleepForMs waitMs)

theorem retryTrace_one (f : Nat → Status) (waitMs : UInt64) :
    retryTrace f waitMs 1 = [.attempt (f 0)] := rfl

theorem retryTrace_add_two (f : Nat → Status) (waitMs : UInt64) (m : Nat) :
    retryTrace f waitMs (m + 2) =
      .attempt (f 0) :: .sleepForMs waitMs :: retryTrace (fun i => f (i + 1)) waitMs (m + 1) := by
  simp only [retryTrace, List.range_succ_eq_map (m + 1), List.range_succ_eq_map m, List.map_cons,
    List.map_map, List.intersperse_cons₂, Function.comp_def, Nat.succ_eq_add_one]

def attemptsMade (f : Nat → Status) : Nat → Nat
  | 0 => 0
  | k + 1 => if (f 0).ok then 1 else attemptsMade (fun i => f (i + 1)) k + 1

theorem attemptsMade_of_not_ok (f : Nat → Status) (h : ∀ i, (f i).ok = false) :
    ∀ k, attemptsMade f k = k := by
  intro k
  induction k generalizing f with
  | zero => rfl
  | succ k ih => simp [attemptsMade, h 0, ih _ fun i => h (i + 1)]

theorem uint32_toNat_add_one (a : UInt32) (h : a.toNat + 1 < 2 ^ 32) :
    (a + 1).toNat = a.toNat + 1 := by
  simp only [UInt32.toNat, UInt32.add_def, BitVec.toNat_add]
  simp only [UInt32.toNat] at h
  show (a.toBitVec.toNat + 1) % 2 ^ 32 = _
  omega

theorem attemptsMade_spec (f : Nat → Status) {k : Nat} (hk : 0 < k) :
    1 ≤ attemptsMade f k ∧ attemptsMade f k ≤ k ∧
      (∀ i < attemptsMade f k - 1, (f i).ok = false) ∧
      ((f (attemptsMade f k - 1)).ok = true ∨ attemptsMade f k = k) := by
  induction k generalizing f with
  | zero => omega
  | succ k ih =>
    by_cases h0 : (f 0).ok
    · simp [attemptsMade, h0]
    · rcases Nat.eq_zero_or_pos k with rfl | hk'
      · simp [attemptsMade, h0]
      · obtain ⟨h1, h2, h3, h4⟩ := ih (fun i => f (i + 1)) hk'
        simp only [attemptsMade, h0, Bool.false_eq_true, if_false, Nat.add_sub_cancel]
        refine ⟨by omega, by omega, fun i hi => ?_, ?_⟩
        · cases i with
          | zero => simpa using h0
          | succ i => exact h3 i (by omega)
        · rcases h4 with h4 | h4
          · left; rwa [show attemptsMade (fun i => f (i + 1)) k = attemptsMade (fun i => f (i + 1)) k - 1 + 1 by omega]
          · right; omega

/-- The `i`-th `Open()` of a client, `transportOpen i` being what `transport_->open()` does
then; the state counts the attempts. -/
def ThriftClientImpl.openAttempt (transportOpen : Nat → Option String)
    (p : ThriftClientImpl × Nat) : Status × (ThriftClientImpl × Nat) :=
  ((p.1.open (transportOpen p.2)).1, ((p.1.open (transportOpen p.2)).2, p.2 + 1))

def ThriftClientImpl.openWithRetry (transportOpen : Nat → Option String) (numTries : UInt32)
    (waitMs : UInt64) (fuel : Nat) (c : ThriftClientImpl) :
    Option (Status × List RetryEvent × (ThriftClientImpl × Nat)) :=
  ImpalaBackend.openWithRetry (ThriftClientImpl.openAttempt transportOpen) numTries waitMs fuel (c, 0)

section Runs

variable {σ : Type} (openCall : σ → Status × σ) (waitMs : UInt64)

/-- With `k` tries left on the counter, the loop makes `attemptsMade` attempts, a sleep between
each two, and returns the last outcome. -/
theorem openWithRetryLoop_of_budget {k : Nat} (hk : 0 < k) :
    ∀ {numTries tryCount : UInt32} {fuel : Nat} (s : σ), numTries.toNat = tryCount.toNat + k →
      k ≤ fuel →
      openWithRetryLoop openCall numTries waitMs fuel tryCount s =
        some (outcomeAt openCall s (attemptsMade (outcomeAt openCall s) k - 1),
          retryTrace (outcomeAt openCall s) waitMs (attemptsMade (outcomeAt openCall s) k),
          stateAt openCall s (attemptsMade (outcomeAt openCall s) k)) := by
  induction k with
  | zero => omega
  | succ k ih =>
    intro numTries tryCount fuel s hn hf
    obtain ⟨fuel, rfl⟩ : ∃ f, fuel = f + 1 := ⟨fuel - 1, by omega⟩
    have h32 : numTries.toNat < 2 ^ 32 := numTries.toNat_lt_size
    have hsucc := uint32_toNat_add_one tryCount (by omega)
    by_cases hok : (openCall s).1.ok
    · simp [openWithRetryLoop, hok, attemptsMade, outcomeAt, stateAt, retryTrace_one]
    · rcases Nat.eq_zero_or_pos k with rfl | hk'
      · have hlast : numTries ≠ 0 ∧ tryCount + 1 = numTries :=
          ⟨fun h => by simp [h] at hn, UInt32.toNat.inj (by omega)⟩
        simp [openWithRetryLoop, hok, hlast, attemptsMade, outcomeAt, stateAt, retryTrace_one]
      · have hmore : ¬ (numTries ≠ 0 ∧ tryCount + 1 = numTries) := fun h => by
          have := congrArg UInt32.toNat h.2; omega
        have hm := (attemptsMade_spec (outcomeAt openCall (openCall s).2) hk').1
        have hA : attemptsMade (outcomeAt openCall s) (k + 1) =
            attemptsMade (outcomeAt openCall (openCall s).2) k + 1 := by
          show (if (openCall s).1.ok then 1 else _) = _
          rw [if_neg hok]; rfl
        obtain ⟨m, hm'⟩ : ∃ m, attemptsMade (outcomeAt openCall (openCall s).2) k = m + 1 :=
          ⟨_, (Nat.succ_pred_eq_of_pos hm).symm⟩
        rw [openWithRetryLoop, if_neg hok, if_neg hmore,
          ih hk' (openCall s).2 (by omega) (by omega), hA, hm', retryTrace_add_two]
        rfl

theorem openWithRetryLoop_unbounded :
    ∀ {fuel : Nat} {tryCount : UInt32} (s : σ) (r : Status × List RetryEvent × σ),
      openWithRetryLoop openCall 0 waitMs fuel tryCount s = some r ↔
        ∃ i < fuel, (outcomeAt openCall s i).ok = true ∧
          (∀ j < i, (outcomeAt openCall s j).ok = false) ∧
          r = (outcomeAt openCall s i, retryTrace (outcomeAt openCall s) waitMs (i + 1),
            stateAt openCall s (i + 1)) := by
  intro fuel
  induction fuel with
  | zero => simp [openWithRetryLoop]
  | succ fuel ih =>
    intro tryCount s r
    by_cases hok : (openCall s).1.ok
    · simp only [openWithRetryLoop, hok, if_true, Option.some.injEq]
      constructor
      · rintro rfl; exact ⟨0, by omega, hok, by simp, rfl⟩
      · rintro ⟨i, -, -, hb, rfl⟩
        cases i with
        | zero => rfl
        | succ i => have := hb 0 (by omega); simp [outcomeAt, stateAt, hok] at this
    · simp only [openWithRetryLoop, hok, ne_eq, not_true_eq_false, false_and, if_false,
        Bool.false_eq_true, Option.map_eq_some']
      constructor
      · rintro ⟨r', h1, rfl⟩
        obtain ⟨i, hi, hok', hb, rfl⟩ := (ih _ r').mp h1
        refine ⟨i + 1, by omega, hok', fun j hj => ?_, by rw [retryTrace_add_two]; rfl⟩
        cases j with
        | zero => simpa [outcomeAt, stateAt] using hok
        | succ j => exact hb j (by omega)
      · rintro ⟨i, hi, hok', hb, rfl⟩
        cases i with
        | zero => simp [outcomeAt, stateAt, hok] at hok'
        | succ i =>
          exact ⟨_, (ih _ _).mpr ⟨i, by omega, hok', fun j hj => hb (j + 1) (by omega), rfl⟩,
            by rw [retryTrace_add_two]; rfl⟩

/-- `OpenWithRetry(k, wait_ms)` for every behaviour of `Open`. With `k ≥ 1` it returns on any
fuel from `k` on, after `m = min(k, j)` attempts (`j` the position of the first success) with a
sleep between each two and none after the last, and returns the `m`-th outcome: OK when an
attempt succeeded, otherwise the failure of the `k`-th. With `k = 0` it returns exactly when an
attempt succeeds, right after it. -/
theorem openWithRetry_attempts (s : σ) :
    (∀ (numTries : UInt32) (fuel : Nat), numTries ≠ 0 → numTries.toNat ≤ fuel →
      let m := attemptsMade (outcomeAt openCall s) numTries.toNat
      openWithRetry openCall numTries waitMs fuel s =
          some (outcomeAt openCall s (m - 1),
            ((List.range m).map fun i => .attempt (outcomeAt openCall s i)).intersperse
              (.sleepForMs waitMs),
            stateAt openCall s m) ∧
        1 ≤ m ∧ m ≤ numTries.toNat ∧ (∀ i < m - 1, (outcomeAt openCall s i).ok = false) ∧
        ((outcomeAt openCall s (m - 1)).ok = true ∨ m = numTries.toNat)) ∧
    (∀ (fuel : Nat) (r : Status × List RetryEvent × σ),
      openWithRetry openCall 0 waitMs fuel s = some r ↔
        ∃ i < fuel, (outcomeAt openCall s i).ok = true ∧
          (∀ j < i, (outcomeAt openCall s j).ok = false) ∧
          r = (outcomeAt openCall s i,
            ((List.range (i + 1)).map fun i => .attempt (outcomeAt openCall s i)).intersperse
              (.sleepForMs waitMs),
            stateAt openCall s (i + 1))) := by
  refine ⟨fun numTries fuel h0 hf => ?_, fun fuel r => openWithRetryLoop_unbounded openCall waitMs s r⟩
  have hk : 0 < numTries.toNat := by
    rcases Nat.eq_zero_or_pos numTries.toNat with h | h
    · exact absurd (UInt32.toNat.inj (h.trans UInt32.toNat_zero.symm)) h0
    · exact h
  exact ⟨openWithRetryLoop_of_budget openCall waitMs hk s (by simp) hf,
    attemptsMade_spec _ hk⟩

theorem stateAt_succ' (s : σ) (i : Nat) :
    stateAt openCall s (i + 1) = (openCall (stateAt openCall s i)).2 := by
  induction i generalizing s with
  | zero => rfl
  | succ i ih => exact ih (openCall s).2

theorem openWithRetryLoop_eq_some (numTries : UInt32) :
    ∀ {fuel : Nat} {tryCount : UInt32} {s : σ} {r : Status × List RetryEvent × σ},
      openWithRetryLoop openCall numTries waitMs fuel tryCount s = some r →
        ∃ i, (∀ j < i, (outcomeAt openCall s j).ok = false) ∧ r.1 = outcomeAt openCall s i ∧
          r.2.2 = stateAt openCall s (i + 1) := by
  intro fuel
  induction fuel with
  | zero => intro _ _ _ h; cases h
  | succ fuel ih =>
    intro tryCount s r h
    simp only [openWithRetryLoop] at h
    split_ifs at h with h1 h2
    · cases h; exact ⟨0, by simp, rfl, rfl⟩
    · cases h; exact ⟨0, by simp, rfl, rfl⟩
    · obtain ⟨r', hr', rfl⟩ := Option.map_eq_some'.mp h
      obtain ⟨i, hi, h1', h2'⟩ := ih hr'
      refine ⟨i + 1, fun j hj => ?_, h1', h2'⟩
      cases j with
      | zero => simpa [outcomeAt, stateAt] using h1
      | succ j => exact hi j (by omega)

end Runs

theorem ThriftClientImpl.openAttempt_socketFailed (transportOpen : Nat → Option String)
    {c : ThriftClientImpl} (hs : c.socketCreateStatus.ok = false) (i n : Nat) :
    stateAt (openAttempt transportOpen) (c, n) i = (c, n + i) ∧
      outcomeAt (openAttempt transportOpen) (c, n) i = c.socketCreateStatus := by
  induction i generalizing n with
  | zero => simp [stateAt, outcomeAt, openAttempt, ThriftClientImpl.open, hs]
  | succ i ih =>
    have hstep : openAttempt transportOpen (c, n) = (c.socketCreateStatus, (c, n + 1)) := by
      simp [openAttempt, ThriftClientImpl.open, hs]
    simp only [stateAt, outcomeAt, hstep] at ih ⊢
    exact ⟨by rw [(ih (n + 1)).1, Nat.add_assoc, Nat.add_comm 1 i], (ih (n + 1)).2⟩

theorem ThriftClientImpl.openWithRetry_socketFailed (transportOpen : Nat → Option String)
    (waitMs : UInt64) (c : ThriftClientImpl) (hs : c.socketCreateStatus.ok = false) :
    (∀ (numTries : UInt32) (fuel : Nat), numTries ≠ 0 → numTries.toNat ≤ fuel →
      c.openWithRetry transportOpen numTries waitMs fuel =
        some (c.socketCreateStatus,
          retryTrace (fun _ => c.socketCreateStatus) waitMs numTries.toNat, (c, numTries.toNat))) ∧
      ∀ fuel, c.openWithRetry transportOpen 0 waitMs fuel = none := by
  have hout : outcomeAt (openAttempt transportOpen) (c, 0) = fun _ => c.socketCreateStatus :=
    funext fun i => (openAttempt_socketFailed transportOpen hs i 0).2
  refine ⟨fun numTries fuel h0 hf => ?_, fun fuel => ?_⟩
  · have hk : 0 < numTries.toNat := Nat.pos_of_ne_zero fun h =>
      h0 (UInt32.toNat.inj (h.trans UInt32.toNat_zero.symm))
    rw [ThriftClientImpl.openWithRetry, ImpalaBackend.openWithRetry,
      openWithRetryLoop_of_budget _ waitMs hk _ (by simp) hf, hout,
      attemptsMade_of_not_ok _ (fun _ => hs), (openAttempt_socketFailed transportOpen hs _ 0).1,
      Nat.zero_add]
  · rw [Option.eq_none_iff_forall_not_mem]
    intro r hr
    obtain ⟨i, -, hok, -⟩ := (openWithRetryLoop_unbounded _ waitMs _ r).mp hr
    rw [hout] at hok
    simp [hs] at hok

theorem ThriftClientImpl.openWithRetry_socketFailed_noCertificate :
    (⟨"10.0.0.1", 22000, .ofMsg "Failed to create socket: no certificate", false⟩ :
        ThriftClientImpl).socketCreateStatus.ok = false ∧
      let c : ThriftClientImpl :=
        ⟨"10.0.0.1", 22000, .ofMsg "Failed to create socket: no certificate", false⟩
      (∀ (numTries : UInt32) (fuel : Nat), numTries ≠ 0 → numTries.toNat ≤ fuel →
        c.openWithRetry (fun _ => none) numTries 100 fuel =
          some (c.socketCreateStatus,
            retryTrace (fun _ => c.socketCreateStatus) 100 numTries.toNat, (c, numTries.toNat))) ∧
        ∀ fuel, c.openWithRetry (fun _ => none) 0 100 fuel = none :=
  ⟨rfl, ThriftClientImpl.openWithRetry_socketFailed _ _ _ rfl⟩

theorem ThriftClientImpl.stateAt_openAttempt_of_fails {transportOpen : Nat → Option String}
    {c : ThriftClientImpl} (hs : c.socketCreateStatus.ok = true) :
    ∀ (i n : Nat), (∀ j < i, (outcomeAt (openAttempt transportOpen) (c, n) j).ok = false) →
      stateAt (openAttempt transportOpen) (c, n) i = (c, n + i) := by
  intro i
  induction i with
  | zero => intro n _; rfl
  | succ i ih =>
    intro n h
    have hstep :
        openAttempt transportOpen (c, n) = ((c.open (transportOpen n)).1, (c, n + 1)) := by
      have h0 : (c.open (transportOpen n)).1.ok = false := h 0 (by omega)
      have := (open_transport hs (transportOpen n)).2
      rw [h0, if_neg (by simp)] at this
      rw [openAttempt, this]
    show stateAt _ (openAttempt transportOpen (c, n)).2 i = _
    rw [hstep, ih (n + 1) fun j hj => by simpa [outcomeAt_succ, hstep] using h (j + 1) (by omega)]
    simp only [Nat.add_assoc, Nat.add_comm 1 i]

theorem ThriftClientImpl.openWithRetry_transport (transportOpen : Nat → Option String)
    (numTries : UInt32) (waitMs : UInt64) (c : ThriftClientImpl)
    (hs : c.socketCreateStatus.ok = true) :
    (numTries ≠ 0 → ∀ fuel, numTries.toNat ≤ fuel →
      ∃ r, c.openWithRetry transportOpen numTries waitMs fuel = some r) ∧
    ∀ fuel r, c.openWithRetry transportOpen numTries waitMs fuel = some r →
      r.1.ok = r.2.2.1.transportIsOpen ∧
        r.2.2.1 = if r.1.ok then { c with transportIsOpen := true } else c := by
  refine ⟨fun h0 fuel hf => ?_, fun fuel r h => ?_⟩
  · have hk : 0 < numTries.toNat := Nat.pos_of_ne_zero fun h =>
      h0 (UInt32.toNat.inj (h.trans UInt32.toNat_zero.symm))
    exact ⟨_, openWithRetryLoop_of_budget _ waitMs hk _ (by simp) hf⟩
  · obtain ⟨i, hi, h1, h2⟩ := openWithRetryLoop_eq_some _ waitMs _ h
    have hst := stateAt_openAttempt_of_fails hs i 0 hi
    rw [stateAt_succ', hst] at h2
    rw [outcomeAt, hst] at h1
    rw [h1, h2]
    exact open_transport hs _

theorem ThriftClientImpl.openWithRetry_transport_refusedTwice :
    (⟨"10.0.0.1", 22000, .OK, false⟩ : ThriftClientImpl).socketCreateStatus.ok = true ∧
      let c : ThriftClientImpl := ⟨"10.0.0.1", 22000, .OK, false⟩
      let t : Nat → Option String := fun i => if i < 2 then some "Connection refused" else none
      ((3 : UInt32) ≠ 0 → ∀ fuel, (3 : UInt32).toNat ≤ fuel →
        ∃ r, c.openWithRetry t 3 100 fuel = some r) ∧
      ∀ fuel r, c.openWithRetry t 3 100 fuel = some r →
        r.1.ok = r.2.2.1.transportIsOpen ∧
          r.2.2.1 = if r.1.ok then { c with transportIsOpen := true } else c :=
  ⟨rfl, ThriftClientImpl.openWithRetry_transport _ _ _ _ rfl⟩

end ImpalaBackend
