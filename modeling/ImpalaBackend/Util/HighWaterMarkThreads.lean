import ImpalaBackend.Util.Counter

/-!
# Racing calls on a high-water-mark counter

Any number of threads, each running one `Update`, `Set` or `TryUpdate` on one counter,
interleaved at their atomic steps: `UpdateAndFetch`, the load, the compare-and-swap, the store,
and `UpdateMax` (a compare-and-swap loop in `AtomicInt` that acts as one atomic maximum). The
state records every write to `current_value_` with its thread, in the order the writes took
effect, and every value the word has held.
-/

namespace ImpalaBackend

inductive HwmCall
  | update (delta : Int64)
  | set (v : Int64)
  | tryUpdate (delta max : Int64)

inductive HwmWrite
  | add (delta : Int64)
  | store (v : Int64)
  deriving DecidableEq

def HwmWrite.apply : HwmWrite → Int64 → Int64
  | add d, c => c + d
  | store v, _ => v

/-- The value of `current_value_` after the writes, from 0. -/
def applyWrites (ws : List (Nat × HwmWrite)) : Int64 := ws.foldl (fun c w => w.2.apply c) 0

/-- The writes of a call that returned `ret`: none for a `TryUpdate` that returned false. -/
def HwmCall.writesOnReturn : HwmCall → Option Bool → List HwmWrite
  | update d, _ => [.add d]
  | set v, _ => [.store v]
  | tryUpdate d _, ret => if ret = some false then [] else [.add d]

/-- Where a thread stands; `ret` is what the call returns, `none` for `void`. -/
inductive HwmPc
  | idle
  | update (delta : Int64)
  | set (v : Int64)
  | tryLoad (delta max : Int64)
  | tryCas (delta max old : Int64)
  | updateMax (newVal : Int64) (ret : Option Bool)
  | done (ret : Option Bool)

def HwmPc.isDone : HwmPc → Bool
  | done _ => true
  | _ => false

def HwmCall.entry : HwmCall → HwmPc
  | update d => .update d
  | set v => .set v
  | tryUpdate d m => .tryLoad d m

structure HwmState where
  counter : HighWaterMarkCounter
  threads : Nat → HwmPc
  writes : List (Nat × HwmWrite)
  held : List Int64

namespace HwmState

def init (calls : List HwmCall) : HwmState :=
  ⟨HighWaterMarkCounter.create, fun t => (calls[t]?.map HwmCall.entry).getD .idle, [], [0]⟩

def moveTo (s : HwmState) (tid : Nat) (pc : HwmPc) : HwmState :=
  { s with threads := Function.update s.threads tid pc }

def write (s : HwmState) (tid : Nat) (w : HwmWrite) (pc : HwmPc) : HwmState :=
  { counter := { s.counter with currentValue := w.apply s.counter.currentValue }
    threads := Function.update s.threads tid pc
    writes := s.writes ++ [(tid, w)]
    held := s.held ++ [w.apply s.counter.currentValue] }

def step (s : HwmState) (tid : Nat) : HwmState :=
  let cur := s.counter.currentValue
  match s.threads tid with
  | .idle | .done _ => s
  | .update d => s.write tid (.add d) (.updateMax (cur + d) none)
  | .set v => s.write tid (.store v) (.updateMax v none)
  | .tryLoad d m =>
    if (cur + d).val > m.val then s.moveTo tid (.done (some false)) else s.moveTo tid (.tryCas d m cur)
  | .tryCas d m old =>
    if cur = old then s.write tid (.add d) (.updateMax (old + d) (some true))
    else s.moveTo tid (.tryLoad d m)
  | .updateMax v r => { s.moveTo tid (.done r) with counter := s.counter.updateMax v }

def run (s : HwmState) : List Nat → HwmState
  | [] => s
  | tid :: sched => run (s.step tid) sched

end HwmState

def HwmCall.Returns : HwmCall → Option Bool → Prop
  | tryUpdate _ _, r => r ≠ none
  | _, r => r = none

/-- The pcs a thread running `c` can be at, with the writes it has made there. -/
def PcMatches : HwmCall → HwmPc → List HwmWrite → Prop
  | .update d, .update d', ws => d' = d ∧ ws = []
  | .set v, .set v', ws => v' = v ∧ ws = []
  | .tryUpdate d m, .tryLoad d' m', ws => d' = d ∧ m' = m ∧ ws = []
  | .tryUpdate d m, .tryCas d' m' _, ws => d' = d ∧ m' = m ∧ ws = []
  | c, .updateMax _ r, ws => ws = c.writesOnReturn r ∧ r ≠ some false ∧ c.Returns r
  | c, .done r, ws => ws = c.writesOnReturn r ∧ c.Returns r
  | _, _, _ => False

@[simp] theorem pcMatches_done (c : HwmCall) (r : Option Bool) (ws : List HwmWrite) :
    PcMatches c (.done r) ws ↔ ws = c.writesOnReturn r ∧ c.Returns r := by
  cases c <;> rfl

/-- A thread with no call stays idle and writes nothing. -/
def ThreadOk : Option HwmCall → HwmPc → List HwmWrite → Prop
  | none, pc, ws => pc = .idle ∧ ws = []
  | some c, pc, ws => PcMatches c pc ws

def writesOf (ws : List (Nat × HwmWrite)) (t : Nat) : List HwmWrite :=
  (ws.filter (fun w => w.1 = t)).map (·.2)

@[simp] theorem writesOf_nil (t : Nat) : writesOf [] t = [] := rfl

@[simp] theorem writesOf_append_self (ws : List (Nat × HwmWrite)) (t : Nat) (w : HwmWrite) :
    writesOf (ws ++ [(t, w)]) t = writesOf ws t ++ [w] := by
  simp [writesOf]

theorem writesOf_append_ne (ws : List (Nat × HwmWrite)) {t tid : Nat} (w : HwmWrite) (h : t ≠ tid) :
    writesOf (ws ++ [(tid, w)]) t = writesOf ws t := by
  simp [writesOf, Ne.symm h]

theorem applyWrites_append (ws : List (Nat × HwmWrite)) (tid : Nat) (w : HwmWrite) :
    applyWrites (ws ++ [(tid, w)]) = w.apply (applyWrites ws) := by
  simp [applyWrites, List.foldl_append]

/-- What holds of every state the threads reach from `HwmState.init calls`. -/
structure HwmInv (calls : List HwmCall) (s : HwmState) : Prop where
  current : s.counter.currentValue = applyWrites s.writes
  currentHeld : s.counter.currentValue ∈ s.held
  valueHeld : s.counter.value ∈ s.held
  pendingHeld : ∀ t v r, s.threads t = .updateMax v r → v ∈ s.held
  covered : ∀ h ∈ s.held, h.val ≤ s.counter.value.val ∨ ∃ t r, s.threads t = .updateMax h r
  heldFirst : s.held.head? = some 0
  thread : ∀ t, ThreadOk calls[t]? (s.threads t) (writesOf s.writes t)

namespace HwmInv

variable {calls : List HwmCall} {s : HwmState}

theorem init (calls : List HwmCall) : HwmInv calls (HwmState.init calls) := by
  refine ⟨rfl, by simp [HwmState.init, HighWaterMarkCounter.create],
    by simp [HwmState.init, HighWaterMarkCounter.create], ?_, ?_, rfl, ?_⟩
  · intro t v r h
    simp only [HwmState.init] at h
    cases hc : calls[t]? with
    | none => simp [hc] at h
    | some c => cases c <;> simp [hc, HwmCall.entry] at h
  · intro h hh
    left; simp_all [HwmState.init, HighWaterMarkCounter.create]
  · intro t
    simp only [HwmState.init, writesOf_nil]
    cases hc : calls[t]? with
    | none => simp [ThreadOk]
    | some c => cases c <;> simp [ThreadOk, PcMatches, HwmCall.entry]

theorem moveTo (hi : HwmInv calls s) {tid : Nat} {pc : HwmPc}
    (hold : ∀ v r, s.threads tid ≠ .updateMax v r) (hnew : ∀ v r, pc ≠ .updateMax v r)
    (hthread : ThreadOk calls[tid]? (s.threads tid) (writesOf s.writes tid) →
      ThreadOk calls[tid]? pc (writesOf s.writes tid)) :
    HwmInv calls (s.moveTo tid pc) := by
  have frame : ∀ t v r, Function.update s.threads tid pc t = .updateMax v r ↔
      s.threads t = .updateMax v r := by
    intro t v r
    by_cases ht : t = tid
    · subst ht; simp [hold, hnew]
    · simp [Function.update_noteq ht]
  refine ⟨hi.current, hi.currentHeld, hi.valueHeld, fun t v r h => hi.pendingHeld t v r
    ((frame t v r).mp h), fun h hh => ?_, hi.heldFirst, fun t => ?_⟩
  · simpa only [HwmState.moveTo, frame] using hi.covered h hh
  · by_cases ht : t = tid
    · subst ht; simpa [HwmState.moveTo] using hthread (hi.thread t)
    · simpa [HwmState.moveTo, Function.update_noteq ht] using hi.thread t

theorem write (hi : HwmInv calls s) {tid : Nat} {w : HwmWrite} {r : Option Bool}
    (hold : ∀ v r, s.threads tid ≠ .updateMax v r)
    (hthread : ThreadOk calls[tid]? (s.threads tid) (writesOf s.writes tid) →
      ThreadOk calls[tid]? (.updateMax (w.apply s.counter.currentValue) r)
        (writesOf s.writes tid ++ [w])) :
    HwmInv calls (s.write tid w (.updateMax (w.apply s.counter.currentValue) r)) := by
  refine ⟨?_, by simp [HwmState.write], by simp [HwmState.write, hi.valueHeld], ?_, ?_, ?_,
    fun t => ?_⟩
  · simp [HwmState.write, applyWrites_append, hi.current]
  · intro t v r' h
    by_cases ht : t = tid
    · subst ht; simp [HwmState.write] at h; simp [HwmState.write, h.1]
    · simp only [HwmState.write, Function.update_noteq ht] at h
      exact List.mem_append_left _ (hi.pendingHeld t v r' h)
  · intro h hh
    simp only [HwmState.write, List.mem_append, List.mem_singleton] at hh
    rcases hh with hh | rfl
    · rcases hi.covered h hh with hle | ⟨t, r', ht⟩
      · exact .inl hle
      · have : t ≠ tid := by rintro rfl; exact hold _ _ ht
        exact .inr ⟨t, r', by simp [HwmState.write, Function.update_noteq this, ht]⟩
    · exact .inr ⟨tid, r, by simp [HwmState.write]⟩
  · have := hi.heldFirst
    cases hh : s.held <;> simp_all [HwmState.write]
  · by_cases ht : t = tid
    · subst ht; simpa [HwmState.write] using hthread (hi.thread t)
    · simpa [HwmState.write, Function.update_noteq ht, writesOf_append_ne _ _ ht] using hi.thread t

theorem updateMax (hi : HwmInv calls s) {tid : Nat} {v : Int64} {r : Option Bool}
    (hpc : s.threads tid = .updateMax v r)
    (hthread : ThreadOk calls[tid]? (s.threads tid) (writesOf s.writes tid) →
      ThreadOk calls[tid]? (.done r) (writesOf s.writes tid)) :
    HwmInv calls { s.moveTo tid (.done r) with counter := s.counter.updateMax v } := by
  refine ⟨hi.current, hi.currentHeld, ?_, fun t v' r' h => ?_, fun h hh => ?_, hi.heldFirst,
    fun t => ?_⟩
  · rcases Int64.max_eq_or s.counter.value v with h | h <;>
      simp only [HighWaterMarkCounter.updateMax, h]
    · exact hi.valueHeld
    · exact hi.pendingHeld tid v r hpc
  · by_cases ht : t = tid
    · subst ht; simp [HwmState.moveTo] at h
    · simp only [HwmState.moveTo, Function.update_noteq ht] at h
      exact hi.pendingHeld t v' r' h
  · simp only [HighWaterMarkCounter.updateMax, Int64.val_max]
    rcases hi.covered h hh with hle | ⟨t, r', ht⟩
    · exact .inl (by omega)
    · by_cases htid : t = tid
      · subst htid; rw [hpc] at ht; cases ht; exact .inl (by omega)
      · exact .inr ⟨t, r', by simp [HwmState.moveTo, Function.update_noteq htid, ht]⟩
  · by_cases ht : t = tid
    · subst ht; simpa [HwmState.moveTo] using hthread (hi.thread t)
    · simpa [HwmState.moveTo, Function.update_noteq ht] using hi.thread t

end HwmInv

section Transitions

variable {c : Option HwmCall} {ws : List HwmWrite}

theorem ThreadOk.update {d x : Int64} (h : ThreadOk c (.update d) ws) :
    ThreadOk c (.updateMax x none) (ws ++ [.add d]) := by
  rcases c with _ | ⟨_ | _ | _⟩ <;>
    simp_all [ThreadOk, PcMatches, HwmCall.writesOnReturn, HwmCall.Returns]

theorem ThreadOk.set {v x : Int64} (h : ThreadOk c (.set v) ws) :
    ThreadOk c (.updateMax x none) (ws ++ [.store v]) := by
  rcases c with _ | ⟨_ | _ | _⟩ <;>
    simp_all [ThreadOk, PcMatches, HwmCall.writesOnReturn, HwmCall.Returns]

theorem ThreadOk.tryLoad_fail {d m : Int64} (h : ThreadOk c (.tryLoad d m) ws) :
    ThreadOk c (.done (some false)) ws := by
  rcases c with _ | ⟨_ | _ | _⟩ <;>
    simp_all [ThreadOk, PcMatches, HwmCall.writesOnReturn, HwmCall.Returns]

theorem ThreadOk.tryLoad_ok {d m o : Int64} (h : ThreadOk c (.tryLoad d m) ws) :
    ThreadOk c (.tryCas d m o) ws := by
  rcases c with _ | ⟨_ | _ | _⟩ <;> simp_all [ThreadOk, PcMatches]

theorem ThreadOk.tryCas_ok {d m o x : Int64} (h : ThreadOk c (.tryCas d m o) ws) :
    ThreadOk c (.updateMax x (some true)) (ws ++ [.add d]) := by
  rcases c with _ | ⟨_ | _ | _⟩ <;>
    simp_all [ThreadOk, PcMatches, HwmCall.writesOnReturn, HwmCall.Returns]

theorem ThreadOk.tryCas_fail {d m o : Int64} (h : ThreadOk c (.tryCas d m o) ws) :
    ThreadOk c (.tryLoad d m) ws := by
  rcases c with _ | ⟨_ | _ | _⟩ <;> simp_all [ThreadOk, PcMatches]

theorem ThreadOk.updateMax {v : Int64} {r : Option Bool} (h : ThreadOk c (.updateMax v r) ws) :
    ThreadOk c (.done r) ws := by
  rcases c with _ | ⟨_ | _ | _⟩ <;> simp_all [ThreadOk, PcMatches]

end Transitions

namespace HwmState

variable {calls : List HwmCall} {s : HwmState}

theorem step_inv (hi : HwmInv calls s) (tid : Nat) : HwmInv calls (s.step tid) := by
  cases h : s.threads tid with
  | idle => simpa [step, h] using hi
  | done r => simpa [step, h] using hi
  | update d =>
    simp only [step, h]
    exact hi.write (by simp [h]) (fun ht => by rw [h] at ht; exact ht.update)
  | set v =>
    simp only [step, h]
    exact hi.write (w := .store v) (by simp [h]) (fun ht => by rw [h] at ht; exact ht.set)
  | tryLoad d m =>
    simp only [step, h]
    split_ifs
    · exact hi.moveTo (by simp [h]) (by simp) (fun ht => by rw [h] at ht; exact ht.tryLoad_fail)
    · exact hi.moveTo (by simp [h]) (by simp) (fun ht => by rw [h] at ht; exact ht.tryLoad_ok)
  | tryCas d m o =>
    simp only [step, h]
    split_ifs with hc
    · subst hc
      exact hi.write (w := .add d) (by simp [h]) (fun ht => by rw [h] at ht; exact ht.tryCas_ok)
    · exact hi.moveTo (by simp [h]) (by simp) (fun ht => by rw [h] at ht; exact ht.tryCas_fail)
  | updateMax v r =>
    simp only [step, h]
    exact hi.updateMax h (fun ht => by rw [h] at ht; exact ht.updateMax)

theorem run_alone_update {tid : Nat} {d : Int64} (h : s.threads tid = .update d) :
    (s.run [tid, tid]).threads tid = .done none ∧ (s.run [tid, tid]).counter = s.counter.update d := by
  simp [run, step, h, write, moveTo, HighWaterMarkCounter.update, HwmWrite.apply]

theorem run_alone_set {tid : Nat} {v : Int64} (h : s.threads tid = .set v) :
    (s.run [tid, tid]).threads tid = .done none ∧ (s.run [tid, tid]).counter = s.counter.set v := by
  simp [run, step, h, write, moveTo, HighWaterMarkCounter.set, HwmWrite.apply]

/-- `TryUpdate` running alone computes `HighWaterMarkCounter.tryUpdate`: its compare-and-swap
succeeds at once. -/
theorem run_alone_tryUpdate {tid : Nat} {d m : Int64} (h : s.threads tid = .tryLoad d m) :
    let n := if (s.counter.tryUpdate d m).1 then 3 else 1
    (s.run (List.replicate n tid)).threads tid = .done (some (s.counter.tryUpdate d m).1) ∧
      (s.run (List.replicate n tid)).counter = (s.counter.tryUpdate d m).2 := by
  by_cases hc : (s.counter.currentValue + d).val > m.val
  · simp [HighWaterMarkCounter.tryUpdate, hc, run, step, h, moveTo]
  · simp [HighWaterMarkCounter.tryUpdate, hc, run, step, h, moveTo, write, HwmWrite.apply,
      List.replicate]

theorem run_inv (hi : HwmInv calls s) (sched : List Nat) : HwmInv calls (s.run sched) := by
  induction sched generalizing s with
  | nil => exact hi
  | cons tid sched ih => exact ih (step_inv hi tid)

end HwmState

namespace HwmInv

variable {calls : List HwmCall} {s : HwmState}

theorem writesOf_done (hi : HwmInv calls s) {t : Nat} (ht : t < calls.length) {r : Option Bool}
    (hr : s.threads t = .done r) : writesOf s.writes t = calls[t].writesOnReturn r := by
  have hok := hi.thread t
  simp only [List.getElem?_eq_getElem ht, ThreadOk, hr, pcMatches_done] at hok
  exact hok.1

theorem writer_lt (hi : HwmInv calls s) : ∀ w ∈ s.writes, w.1 < calls.length := by
  intro w hw
  by_contra hlt
  have hok := hi.thread w.1
  simp only [List.getElem?_eq_none (Nat.le_of_not_lt hlt), ThreadOk] at hok
  have : w.2 ∈ writesOf s.writes w.1 := List.mem_map.mpr ⟨w, by simp [hw], rfl⟩
  simp [hok.2] at this

theorem held_le (hi : HwmInv calls s) (hdone : ∀ t < calls.length, (s.threads t).isDone = true) :
    ∀ h ∈ s.held, h.val ≤ s.counter.value.val := by
  intro h hh
  rcases hi.covered h hh with hle | ⟨t, r, ht⟩
  · exact hle
  · by_cases hlt : t < calls.length
    · simpa [ht, HwmPc.isDone] using hdone t hlt
    · simpa [List.getElem?_eq_none (Nat.le_of_not_lt hlt), ThreadOk, ht] using hi.thread t

end HwmInv

/-- Racing `Update`, `Set` and `TryUpdate` calls on one new counter: once every call has
returned, `current_value()` is the result of the writes in the order they took effect, each call
having written exactly its own write once (a `TryUpdate` that returned false nothing), and
`value()` is the largest value `current_value_` has held, the first of them 0, so it is at least
`current_value()`. -/
theorem highWaterMark_race (calls : List HwmCall) (sched : List Nat)
    (hdone : ∀ t < calls.length, (((HwmState.init calls).run sched).threads t).isDone = true) :
    let s := (HwmState.init calls).run sched
    s.counter.currentValue = applyWrites s.writes ∧
      (∀ t (ht : t < calls.length) r, s.threads t = .done r →
        writesOf s.writes t = calls[t].writesOnReturn r) ∧
      (∀ w ∈ s.writes, w.1 < calls.length) ∧
      s.held.head? = some 0 ∧ s.counter.value ∈ s.held ∧
      (∀ h ∈ s.held, h.val ≤ s.counter.value.val) ∧
      s.counter.currentValue.val ≤ s.counter.value.val := by
  have hi := HwmState.run_inv (HwmInv.init calls) sched
  exact ⟨hi.current, fun t ht r => hi.writesOf_done ht, hi.writer_lt, hi.heldFirst, hi.valueHeld,
    hi.held_le hdone, hi.held_le hdone _ hi.currentHeld⟩

/-- The `Update`'s add lands between the `TryUpdate`'s load and its compare-and-swap, which
fails; the retry loads 3 and stores 4. -/
theorem highWaterMark_race_update_tryUpdate :
    (∀ t < [HwmCall.update 3, .tryUpdate 1 5].length,
      (((HwmState.init [.update 3, .tryUpdate 1 5]).run [1, 0, 1, 1, 1, 1, 0]).threads t).isDone =
        true) ∧
    let calls := [HwmCall.update 3, .tryUpdate 1 5]
    let s := (HwmState.init calls).run [1, 0, 1, 1, 1, 1, 0]
    s.counter.currentValue = applyWrites s.writes ∧
      (∀ t (ht : t < calls.length) r, s.threads t = .done r →
        writesOf s.writes t = calls[t].writesOnReturn r) ∧
      (∀ w ∈ s.writes, w.1 < calls.length) ∧
      s.held.head? = some 0 ∧ s.counter.value ∈ s.held ∧
      (∀ h ∈ s.held, h.val ≤ s.counter.value.val) ∧
      s.counter.currentValue.val ≤ s.counter.value.val :=
  ⟨by decide, highWaterMark_race _ _ (by decide)⟩

/-! ## A limit kept by `TryUpdate` -/

/-- Where a thread that only runs `TryUpdate` with a `max` of at most `limit` can stand: every
value it is about to write, or to give `UpdateMax`, is at most `limit`. -/
def HwmPc.WithinLimit (limit : Int64) : HwmPc → Prop
  | .idle | .done _ => True
  | .update _ | .set _ => False
  | .tryLoad _ m => m.val ≤ limit.val
  | .tryCas d m old => m.val ≤ limit.val ∧ (old + d).val ≤ limit.val
  | .updateMax v _ => v.val ≤ limit.val

/-- Both words of the counter stay within `limit`, and so does every pending write. -/
structure LimitInv (limit : Int64) (s : HwmState) : Prop where
  current : s.counter.currentValue.val ≤ limit.val
  peak : s.counter.value.val ≤ limit.val
  thread : ∀ t, (s.threads t).WithinLimit limit

namespace LimitInv

variable {limit : Int64} {s : HwmState}

theorem init {calls : List HwmCall} (hlimit : 0 ≤ limit.val)
    (hcalls : ∀ c ∈ calls, ∃ d m, c = .tryUpdate d m ∧ m.val ≤ limit.val) :
    LimitInv limit (HwmState.init calls) := by
  refine ⟨hlimit, hlimit, fun t => ?_⟩
  simp only [HwmState.init]
  cases hc : calls[t]? with
  | none => trivial
  | some c =>
    obtain ⟨d, m, rfl, hm⟩ := hcalls c (List.getElem?_mem hc)
    exact hm

theorem moveTo (hi : LimitInv limit s) {tid : Nat} {pc : HwmPc} (hpc : pc.WithinLimit limit) :
    LimitInv limit (s.moveTo tid pc) := by
  refine ⟨hi.current, hi.peak, fun t => ?_⟩
  by_cases ht : t = tid
  · subst ht; simpa [HwmState.moveTo] using hpc
  · simpa [HwmState.moveTo, Function.update_noteq ht] using hi.thread t

theorem write (hi : LimitInv limit s) {tid : Nat} {w : HwmWrite} {pc : HwmPc}
    (hw : (w.apply s.counter.currentValue).val ≤ limit.val) (hpc : pc.WithinLimit limit) :
    LimitInv limit (s.write tid w pc) := by
  refine ⟨hw, hi.peak, fun t => ?_⟩
  by_cases ht : t = tid
  · subst ht; simpa [HwmState.write] using hpc
  · simpa [HwmState.write, Function.update_noteq ht] using hi.thread t

theorem step (hi : LimitInv limit s) (tid : Nat) : LimitInv limit (s.step tid) := by
  have ht := hi.thread tid
  cases h : s.threads tid with
  | idle => simpa [HwmState.step, h] using hi
  | done r => simpa [HwmState.step, h] using hi
  | update d => rw [h] at ht; exact ht.elim
  | set v => rw [h] at ht; exact ht.elim
  | tryLoad d m =>
    rw [h] at ht
    simp only [HwmState.step, h]
    split_ifs with hc
    · exact hi.moveTo trivial
    · have hm : m.val ≤ limit.val := ht
      exact hi.moveTo ⟨ht, by omega⟩
  | tryCas d m o =>
    rw [h] at ht
    simp only [HwmState.step, h]
    split_ifs with hc
    · exact hi.write (by simpa [HwmWrite.apply, hc] using ht.2) ht.2
    · exact hi.moveTo ht.1
  | updateMax v r =>
    rw [h] at ht
    simp only [HwmState.step, h]
    have hv : v.val ≤ limit.val := ht
    refine ⟨hi.current, ?_, (hi.moveTo (show (HwmPc.done r).WithinLimit limit from trivial)).thread⟩
    simp only [HwmState.moveTo, HighWaterMarkCounter.updateMax, Int64.val_max]
    exact Int.max_le.mpr ⟨hi.peak, hv⟩

theorem run (hi : LimitInv limit s) (sched : List Nat) : LimitInv limit (s.run sched) := by
  induction sched generalizing s with
  | nil => exact hi
  | cons tid sched ih => exact ih (hi.step tid)

end LimitInv

/-- A limit kept with `TryUpdate` holds under any interleaving: when every call is a
`TryUpdate(delta, max)` with `max` at most `limit ≥ 0`, then in every state of every schedule
both `current_value()` and the high-water mark `value()` are at most `limit`, whatever the
deltas, their signs and their wrap-around. -/
theorem highWaterMark_tryUpdate_limit (calls : List HwmCall) (limit : Int64)
    (hlimit : 0 ≤ limit.val) (hcalls : ∀ c ∈ calls, ∃ d m, c = .tryUpdate d m ∧ m.val ≤ limit.val)
    (sched : List Nat) :
    ((HwmState.init calls).run sched).counter.currentValue.val ≤ limit.val ∧
      ((HwmState.init calls).run sched).counter.value.val ≤ limit.val :=
  let hi := (LimitInv.init hlimit hcalls).run sched
  ⟨hi.current, hi.peak⟩

theorem highWaterMark_tryUpdate_limit_racing :
    let calls := [HwmCall.tryUpdate 5 8, .tryUpdate 4 8]
    (0 ≤ (8 : Int64).val ∧ ∀ c ∈ calls, ∃ d m, c = .tryUpdate d m ∧ m.val ≤ (8 : Int64).val) ∧
      ((HwmState.init calls).run [0, 1, 0, 1, 0, 1]).counter.currentValue.val ≤ (8 : Int64).val ∧
      ((HwmState.init calls).run [0, 1, 0, 1, 0, 1]).counter.value.val ≤ (8 : Int64).val :=
  have hcalls : ∀ c ∈ [HwmCall.tryUpdate 5 8, .tryUpdate 4 8],
      ∃ d m, c = .tryUpdate d m ∧ m.val ≤ (8 : Int64).val := by
    intro c hc
    simp only [List.mem_cons, List.mem_singleton, List.not_mem_nil, or_false] at hc
    rcases hc with rfl | rfl <;> exact ⟨_, _, rfl, by decide⟩
  ⟨⟨by decide, hcalls⟩, highWaterMark_tryUpdate_limit _ 8 (by decide) hcalls _⟩

/-! ## Every call returns

`TryUpdate` loops only when another thread's write lands between its load and its
compare-and-swap. A thread left to run alone returns within four of its own steps, whatever
the state: a failed compare-and-swap, a fresh load, a successful one, and `UpdateMax`. -/

theorem HwmPc.isDone_iff {pc : HwmPc} : pc.isDone = true ↔ ∃ r, pc = .done r := by
  cases pc <;> simp [HwmPc.isDone]

theorem HwmInv.ne_idle {calls : List HwmCall} {s : HwmState} (hi : HwmInv calls s) {t : Nat}
    (ht : t < calls.length) : s.threads t ≠ .idle := by
  intro h
  have hok := hi.thread t
  rw [List.getElem?_eq_getElem ht, h] at hok
  generalize calls[t] = c at hok
  cases c <;> exact hok

namespace HwmState

theorem step_threads_ne (s : HwmState) {tid t : Nat} (h : t ≠ tid) :
    (s.step tid).threads t = s.threads t := by
  cases hs : s.threads tid <;> simp only [step, hs] <;> (try split_ifs) <;>
    simp [moveTo, write, Function.update_noteq h]

theorem run_append (s : HwmState) (a b : List Nat) : s.run (a ++ b) = (s.run a).run b := by
  induction a generalizing s with
  | nil => rfl
  | cons tid a ih => exact ih (s.step tid)

theorem run_done {s : HwmState} {t : Nat} {r : Option Bool} (h : s.threads t = .done r) :
    ∀ sched, (s.run sched).threads t = .done r := by
  intro sched
  induction sched generalizing s with
  | nil => exact h
  | cons tid sched ih =>
    refine ih ?_
    by_cases ht : t = tid
    · subst ht; simp [step, h]
    · rw [step_threads_ne s ht, h]

theorem run_alone_isDone (s : HwmState) {t : Nat} (h : s.threads t ≠ .idle) :
    ((s.run (List.replicate 4 t)).threads t).isDone = true := by
  cases hs : s.threads t with
  | idle => exact absurd hs h
  | done r => simp [run_done hs, HwmPc.isDone]
  | tryLoad d m =>
    -- the load finds the sum past `max`, or the compare-and-swap after it succeeds
    by_cases hm : (s.counter.currentValue + d).val > m.val <;>
      simp [run, step, hs, write, moveTo, HwmPc.isDone, List.replicate, hm]
  | tryCas d m o =>
    -- a stale compare-and-swap fails once, then the fresh load and its swap go through
    by_cases hc : s.counter.currentValue = o <;>
      by_cases hm : (s.counter.currentValue + d).val > m.val <;>
      simp [run, step, hs, write, moveTo, HwmPc.isDone, List.replicate, hc, hm]
  | _ => simp [run, step, hs, write, moveTo, HwmPc.isDone, List.replicate]

theorem run_finish {calls : List HwmCall} {s : HwmState} (hi : HwmInv calls s) (ts : List Nat)
    (hts : ∀ t ∈ ts, t < calls.length) :
    ∀ t ∈ ts, ((s.run (ts.flatMap fun t => List.replicate 4 t)).threads t).isDone = true := by
  induction ts generalizing s with
  | nil => intro t ht; cases ht
  | cons u ts ih =>
    intro t ht
    rw [List.flatMap_cons, run_append]
    rcases List.mem_cons.mp ht with rfl | ht
    · obtain ⟨r, hr⟩ := HwmPc.isDone_iff.mp
        (s.run_alone_isDone (hi.ne_idle (hts t (List.mem_cons_self _ _))))
      rw [run_done hr]
      rfl
    · exact ih (run_inv hi _) (fun t ht => hts t (List.mem_cons_of_mem _ ht)) t ht

end HwmState

/-- The calls cannot get stuck: from every state of every schedule, a thread left to run alone
returns within four of its own steps, so `TryUpdate` without contention does not loop, and
letting each thread in turn run alone returns every call. -/
theorem highWaterMark_calls_finish (calls : List HwmCall) (sched : List Nat) :
    let s := (HwmState.init calls).run sched
    (∀ t < calls.length, ((s.run (List.replicate 4 t)).threads t).isDone = true) ∧
      ∀ t < calls.length, ((s.run ((List.range calls.length).flatMap
        fun t => List.replicate 4 t)).threads t).isDone = true := by
  have hi := HwmState.run_inv (HwmInv.init calls) sched
  exact ⟨fun t ht => HwmState.run_alone_isDone _ (hi.ne_idle ht),
    fun t ht => HwmState.run_finish hi _ (fun t => List.mem_range.mp) t (List.mem_range.mpr ht)⟩

/-! ## A failed compare-and-swap

The other side of the progress result: `TryUpdate`'s compare-and-swap fails only when other
threads have written `current_value_` since the thread's load, so a retry always follows
another call's progress. -/

namespace HwmState

theorem step_writes (s : HwmState) (tid : Nat) :
    ∃ new, (s.step tid).writes = s.writes ++ new ∧ ∀ w ∈ new, w.1 = tid := by
  cases hs : s.threads tid with
  | idle | done _ => exact ⟨[], by simp [step, hs], by simp⟩
  | update d | set v => simp only [step, hs]; exact ⟨[(tid, _)], rfl, by simp⟩
  | tryLoad d m => exact ⟨[], by simp only [step, hs]; split_ifs <;> simp [moveTo], by simp⟩
  | tryCas d m o =>
    simp only [step, hs]
    split_ifs
    · exact ⟨[(tid, _)], rfl, by simp⟩
    · exact ⟨[], by simp [moveTo], by simp⟩
  | updateMax v r => exact ⟨[], by simp [step, hs, moveTo], by simp⟩

theorem run_writes (s : HwmState) (sched : List Nat) :
    ∃ new, (s.run sched).writes = s.writes ++ new ∧ ∀ w ∈ new, w.1 ∈ sched := by
  induction sched generalizing s with
  | nil => exact ⟨[], by simp [run], by simp⟩
  | cons tid sched ih =>
    obtain ⟨n1, h1, hw1⟩ := s.step_writes tid
    obtain ⟨n2, h2, hw2⟩ := ih (s.step tid)
    refine ⟨n1 ++ n2, by rw [run, h2, h1, List.append_assoc], fun w hw => ?_⟩
    rcases List.mem_append.mp hw with hw | hw
    · exact (hw1 w hw) ▸ List.mem_cons_self _ _
    · exact List.mem_cons_of_mem _ (hw2 w hw)

theorem run_threads_not_mem (s : HwmState) {t : Nat} {sched : List Nat} (h : t ∉ sched) :
    (s.run sched).threads t = s.threads t := by
  induction sched generalizing s with
  | nil => rfl
  | cons tid sched ih =>
    simp only [List.mem_cons, not_or] at h
    rw [run, ih _ h.2, step_threads_ne s h.1]

theorem step_tryCas_old {s : HwmState} {t : Nat} {d m old : Int64}
    (h : (s.step t).threads t = .tryCas d m old) : old = (s.step t).counter.currentValue := by
  cases hs : s.threads t <;> simp only [step, hs] at h ⊢ <;> (try split_ifs at h ⊢) <;>
    simp_all [moveTo, write]

end HwmState

/-- `TryUpdate` loops only under interference. Let thread `t` load `current_value_` (its step
at the end of `sched₀` brings it to its compare-and-swap), let the other threads run `sched`,
and let the compare-and-swap of `t` then fail: the writes since the load are not empty, and
none of them is by `t`. -/
theorem highWaterMark_casFails_afterWrite (calls : List HwmCall) (sched₀ sched : List Nat)
    (t : Nat) (d m old : Int64)
    (hload : ((HwmState.init calls).run (sched₀ ++ [t])).threads t = .tryCas d m old)
    (ht : t ∉ sched)
    (hfail : (((HwmState.init calls).run (sched₀ ++ t :: sched)).step t).threads t = .tryLoad d m) :
    ∃ new, ((HwmState.init calls).run (sched₀ ++ t :: sched)).writes =
        ((HwmState.init calls).run (sched₀ ++ [t])).writes ++ new ∧
      new ≠ [] ∧ ∀ w ∈ new, w.1 ≠ t := by
  have h₁ : (HwmState.init calls).run (sched₀ ++ [t]) =
      ((HwmState.init calls).run sched₀).step t := by
    rw [HwmState.run_append]; rfl
  have h₂ : (HwmState.init calls).run (sched₀ ++ t :: sched) =
      (((HwmState.init calls).run sched₀).step t).run sched := by
    rw [show sched₀ ++ t :: sched = sched₀ ++ [t] ++ sched by simp, HwmState.run_append, h₁]
  rw [h₁] at hload ⊢
  rw [h₂] at hfail ⊢
  set s₁ := ((HwmState.init calls).run sched₀).step t
  have hi₁ : HwmInv calls s₁ := HwmState.step_inv (HwmState.run_inv (HwmInv.init calls) sched₀) t
  obtain ⟨new, hnew, hw⟩ := s₁.run_writes sched
  refine ⟨new, hnew, fun hnil => ?_, fun w hwn hwt => ht (hwt ▸ hw w hwn)⟩
  -- with no write in between, the compare-and-swap finds the value it loaded
  have hcur : (s₁.run sched).counter.currentValue = old := calc
    (s₁.run sched).counter.currentValue = applyWrites (s₁.run sched).writes :=
      (HwmState.run_inv hi₁ sched).current
    _ = applyWrites s₁.writes := by rw [hnew, hnil, List.append_nil]
    _ = s₁.counter.currentValue := hi₁.current.symm
    _ = old := (HwmState.step_tryCas_old hload).symm
  have hthr : (s₁.run sched).threads t = .tryCas d m old := by
    rw [s₁.run_threads_not_mem ht, hload]
  simp [HwmState.step, hthr, hcur, HwmState.write] at hfail

theorem highWaterMark_casFails_afterWrite_update :
    ((HwmState.init [.tryUpdate 1 10, .update 2]).run ([] ++ [0])).threads 0 = .tryCas 1 10 0 ∧
      0 ∉ [1] ∧
      (((HwmState.init [.tryUpdate 1 10, .update 2]).run ([] ++ 0 :: [1])).step 0).threads 0 =
        .tryLoad 1 10 ∧
      ∃ new, ((HwmState.init [.tryUpdate 1 10, .update 2]).run ([] ++ 0 :: [1])).writes =
          ((HwmState.init [.tryUpdate 1 10, .update 2]).run ([] ++ [0])).writes ++ new ∧
        new ≠ [] ∧ ∀ w ∈ new, w.1 ≠ 0 :=
  have hload : ((HwmState.init [.tryUpdate 1 10, .update 2]).run ([] ++ [0])).threads 0 =
      .tryCas 1 10 0 := rfl
  have hfail : (((HwmState.init [.tryUpdate 1 10, .update 2]).run ([] ++ 0 :: [1])).step 0).threads 0 =
      .tryLoad 1 10 := rfl
  ⟨hload, by decide, hfail,
    highWaterMark_casFails_afterWrite _ [] [1] 0 1 10 0 hload (by decide) hfail⟩

end ImpalaBackend
