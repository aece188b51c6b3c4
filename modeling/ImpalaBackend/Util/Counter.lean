import Mathlib.Order.Basic
import Mathlib.Algebra.Group.Int
import Mathlib.Data.Int.Bitwise

/-!
# Profile counters

`RuntimeProfile::Counter`, `ScopedCounter` and `RuntimeProfile::HighWaterMarkCounter`
(`util/runtime-profile.h`), over `int64_t` as the hardware computes it: a two's-complement
value, with addition wrapping modulo `2^64` (what `AtomicInt<int64_t>` and plain `+` compile to;
the overflow is undefined in C++ and wraps on the machine).

A counter's `value_` is an `AtomicInt<int64_t>`: each `Update` is one atomic add, so the adds of
concurrent threads land one after another in some order. `Set(double)` stores the bits of a
`double` and is left out. The high-water-mark counter is modelled here one call at a time;
`HighWaterMarkThreads` splits its calls at their atomic steps.
-/

namespace ImpalaBackend

/-! ## `int64_t` -/

structure Int64 where
  val : Int
  ge_min : -2 ^ 63 ≤ val
  lt_max : val < 2 ^ 63
  deriving DecidableEq, Repr

namespace Int64

/-- The `int64_t` with the same low 64 bits as `x`. -/
def wrap (x : Int) : Int64 := ⟨(x + 2 ^ 63) % 2 ^ 64 - 2 ^ 63, by omega, by omega⟩

instance : Add Int64 := ⟨fun a b => wrap (a.val + b.val)⟩

instance (n : Nat) : OfNat Int64 n := ⟨wrap n⟩

instance : Neg Int64 := ⟨fun a => wrap (-a.val)⟩

/-- `INT64_MAX` -/
def maxValue : Int64 := ⟨2 ^ 63 - 1, by omega, by omega⟩

/-- `INT64_MIN` -/
def minValue : Int64 := ⟨-2 ^ 63, by omega, by omega⟩

/-- `std::max`, as `UpdateMax` computes it: `a < b ? b : a`. -/
def max (a b : Int64) : Int64 := if a.val < b.val then b else a

@[ext] theorem ext {a b : Int64} (h : a.val = b.val) : a = b := by
  cases a; cases b; cases h; rfl

@[simp] theorem val_zero : (0 : Int64).val = 0 := by decide

theorem val_wrap_of_mem {x : Int} (h : -2 ^ 63 ≤ x) (h' : x < 2 ^ 63) : (wrap x).val = x := by
  simp only [wrap]; omega

theorem val_add (a b : Int64) : (a + b).val = (a.val + b.val + 2 ^ 63) % 2 ^ 64 - 2 ^ 63 := rfl

theorem val_add_of_mem {a b : Int64} (h : -2 ^ 63 ≤ a.val + b.val) (h' : a.val + b.val < 2 ^ 63) :
    (a + b).val = a.val + b.val :=
  val_wrap_of_mem h h'

theorem val_neg (a : Int64) : (-a).val = (-a.val + 2 ^ 63) % 2 ^ 64 - 2 ^ 63 := rfl

theorem add_right_comm (a b c : Int64) : a + b + c = a + c + b :=
  ext (by simp only [val_add]; omega)

@[simp] theorem add_neg_cancel_right (a b : Int64) : a + -b + b = a := by
  have := a.ge_min; have := a.lt_max
  exact ext (by simp only [val_add, val_neg]; omega)

@[simp] theorem val_max (a b : Int64) : (a.max b).val = Max.max a.val b.val := by
  unfold Int64.max; split <;> omega

theorem max_eq_or (a b : Int64) : a.max b = a ∨ a.max b = b := by
  unfold Int64.max; split <;> simp

end Int64

/-! ## `RuntimeProfile::Counter` and `ScopedCounter` -/

/-- `RuntimeProfile::Counter`, its `value_`. -/
structure Counter where
  value : Int64
  deriving DecidableEq, Repr

namespace Counter

def update (delta : Int64) (c : Counter) : Counter := ⟨c.value + delta⟩

/-- `BitOr(delta)`: `value_ |= delta` on the two's-complement bits. -/
def bitOr (delta : Int64) (c : Counter) : Counter := ⟨Int64.wrap (c.value.val.lor delta.val)⟩

def set (value : Int64) (_ : Counter) : Counter := ⟨value⟩

/-- The `Update` calls of a run, in the order their atomic adds land. -/
def applyUpdates (c : Counter) (deltas : List Int64) : Counter :=
  deltas.foldl (fun c d => c.update d) c

@[simp] theorem applyUpdates_nil (c : Counter) : c.applyUpdates [] = c := rfl

@[simp] theorem applyUpdates_cons (c : Counter) (d : Int64) (ds : List Int64) :
    c.applyUpdates (d :: ds) = (c.update d).applyUpdates ds := rfl

theorem applyUpdates_perm (c : Counter) {ds ds' : List Int64} (h : ds.Perm ds') :
    c.applyUpdates ds = c.applyUpdates ds' :=
  h.foldl_eq' (fun x _ y _ c => congrArg Counter.mk (Int64.add_right_comm c.value x y)) c

/-- `ScopedCounter(counter, val)` updates its counter by `-1L * val` when it is built and by
`val` when it goes out of scope (with a `NULL` counter it does nothing): the deltas of its two
calls. -/
def scopedCounterDeltas (val : Int64) : Int64 × Int64 := (-val, val)

/-- The value after concurrent `Update` calls does not depend on the order in which their atomic
adds land, and a `ScopedCounter` leaves no trace on its counter: whatever `Update` calls other
threads make before, during and after its scope, the counter ends where those calls alone take
it. -/
theorem applyUpdates_scopedCounter (c : Counter) (val : Int64) (pre mid post : List Int64) :
    (∀ ds ds' : List Int64, ds.Perm ds' → c.applyUpdates ds = c.applyUpdates ds') ∧
      c.applyUpdates (pre ++ (scopedCounterDeltas val).1 :: mid ++
          (scopedCounterDeltas val).2 :: post) =
        c.applyUpdates (pre ++ mid ++ post) := by
  have hperm : (pre ++ -val :: mid ++ val :: post).Perm (-val :: val :: (pre ++ mid ++ post)) := by
    refine (List.perm_middle.trans (.cons _ ?_)).trans (.swap _ _ _)
    simp only [List.append_assoc, List.cons_append]
    exact List.perm_middle
  refine ⟨fun _ _ => applyUpdates_perm c, ?_⟩
  rw [scopedCounterDeltas, applyUpdates_perm c hperm]
  simp [update]

end Counter

/-! ## `RuntimeProfile::HighWaterMarkCounter`, one call at a time

`current_value_` and the high-water mark kept in the base counter's `value_`, each call as it
runs when no other thread touches the counter; `TryUpdate`'s compare-and-swap then succeeds at
once. -/

/-- The two atomic words of a `HighWaterMarkCounter`. -/
structure HighWaterMarkCounter where
  currentValue : Int64
  value : Int64
  deriving DecidableEq, Repr

namespace HighWaterMarkCounter

/-- `HighWaterMarkCounter(type)`: both words start at 0. -/
def create : HighWaterMarkCounter := ⟨0, 0⟩

/-- `value_.UpdateMax(v)` -/
def updateMax (v : Int64) (c : HighWaterMarkCounter) : HighWaterMarkCounter :=
  { c with value := c.value.max v }

/-- `Update(delta)`: `UpdateAndFetch` on `current_value_`, then `UpdateMax`. -/
def update (delta : Int64) (c : HighWaterMarkCounter) : HighWaterMarkCounter :=
  updateMax (c.currentValue + delta) { c with currentValue := c.currentValue + delta }

def set (v : Int64) (c : HighWaterMarkCounter) : HighWaterMarkCounter :=
  updateMax v { c with currentValue := v }

/-- `TryUpdate(delta, max)`: gives up when `old_val + delta > max`. -/
def tryUpdate (delta max : Int64) (c : HighWaterMarkCounter) : Bool × HighWaterMarkCounter :=
  if (c.currentValue + delta).val > max.val then (false, c)
  else (true, updateMax (c.currentValue + delta) { c with currentValue := c.currentValue + delta })

/-- Updates by 3, 2, -4 and 1 from a new counter: the mark stays at the peak 5. -/
example : ((((create.update 3).update 2).update (-4)).update 1) = ⟨2, 5⟩ := rfl

theorem tryUpdate_false {delta max : Int64} {c : HighWaterMarkCounter}
    (h : (c.tryUpdate delta max).1 = false) : (c.tryUpdate delta max).2 = c := by
  by_cases hc : (c.currentValue + delta).val > max.val
  · simp only [tryUpdate, if_pos hc]
  · simp only [tryUpdate, if_neg hc] at h; cases h

theorem tryUpdate_currentValue_le {delta max : Int64} {c : HighWaterMarkCounter}
    (h : (c.tryUpdate delta max).1 = true) : (c.tryUpdate delta max).2.currentValue.val ≤ max.val := by
  by_cases hc : (c.currentValue + delta).val > max.val
  · simp only [tryUpdate, if_pos hc] at h; cases h
  · simp only [tryUpdate, if_neg hc, updateMax]; omega

theorem tryUpdate_of_mem {delta max : Int64} {c : HighWaterMarkCounter}
    (h : -2 ^ 63 ≤ c.currentValue.val + delta.val) (h' : c.currentValue.val + delta.val < 2 ^ 63) :
    ((c.tryUpdate delta max).1 = true ↔ c.currentValue.val + delta.val ≤ max.val) ∧
      ((c.tryUpdate delta max).1 = true →
        (c.tryUpdate delta max).2.currentValue.val = c.currentValue.val + delta.val) := by
  have hv := Int64.val_add_of_mem h h'
  unfold tryUpdate
  split <;> simp [updateMax, hv] <;> omega

/-- At `current_value() = INT64_MAX`, `TryUpdate(1, 0)` wraps to `INT64_MIN`, passes the test
and returns true, although the exact sum `2^63` exceeds `max = 0`. -/
theorem tryUpdate_wraps_at_maxValue :
    (⟨Int64.maxValue, Int64.maxValue⟩ : HighWaterMarkCounter).tryUpdate 1 0 =
        (true, ⟨Int64.minValue, Int64.maxValue⟩) ∧
      Int64.maxValue.val + (1 : Int64).val > (0 : Int64).val := by
  decide

end HighWaterMarkCounter

end ImpalaBackend
