import Mathlib.Data.List.Basic
import Mathlib.Algebra.Group.Int

/-!
# Status values

`common/status.h` is not among the sources. A `Status` is OK or an error code with its
messages, the same data as the thrift `TStatus` it is converted to and from. `keep` is the
assignment `UpdateStatus` makes under its lock, so that the first non-OK status wins.
-/

namespace ImpalaBackend

inductive TStatusCode
  | OK | CANCELLED | ANALYSIS_ERROR | NOT_IMPLEMENTED_ERROR | RUNTIME_ERROR
  | MEM_LIMIT_EXCEEDED | INTERNAL_ERROR | RECOVERABLE_ERROR
  deriving DecidableEq, Repr

structure TStatus where
  statusCode : TStatusCode
  errorMsgs : List String
  deriving DecidableEq, Repr

inductive Status
  | OK
  | error (code : TStatusCode) (errorMsgs : List String)
  deriving DecidableEq, Repr

namespace Status

def ok : Status → Bool
  | OK => true
  | error .. => false

/-- `Status(const TStatus&)`: a status whose code is OK is OK. -/
def ofTStatus (t : TStatus) : Status :=
  if t.statusCode = .OK then OK else error t.statusCode t.errorMsgs

/-- `Status::SetTStatus` -/
def toTStatus : Status → TStatus
  | OK => ⟨.OK, []⟩
  | error code msgs => ⟨code, msgs⟩

/-- `Status(code, msg)` -/
def ofCode (code : TStatusCode) (msg : String) : Status := error code [msg]

/-- `Status(msg)`: the one-argument constructor reports an internal error. -/
def ofMsg (msg : String) : Status := error .INTERNAL_ERROR [msg]

/-- `Status::MEM_LIMIT_EXCEEDED` -/
def memLimitExceeded : Status := error .MEM_LIMIT_EXCEEDED ["Memory limit exceeded"]

/-- `Status::GetErrorMsg`: the messages on separate lines. -/
def getErrorMsg : Status → String
  | OK => ""
  | error _ msgs => "\n".intercalate msgs

/-- The assignment `UpdateStatus` makes under its lock: a non-OK `s` replaces an OK `cur`. -/
def keep (cur s : Status) : Status := if !s.ok && cur.ok then s else cur

def firstNonOk : List Status → Status
  | [] => OK
  | s :: ss => if s.ok then firstNonOk ss else s

@[simp] theorem ok_OK : OK.ok = true := rfl

@[simp] theorem ok_error (c : TStatusCode) (m : List String) : (error c m).ok = false := rfl

theorem ok_iff {s : Status} : s.ok = true ↔ s = OK := by
  cases s <;> simp

@[simp] theorem ok_ofCode (c : TStatusCode) (m : String) : (ofCode c m).ok = false := rfl

@[simp] theorem ok_ofMsg (m : String) : (ofMsg m).ok = false := rfl

@[simp] theorem ok_memLimitExceeded : memLimitExceeded.ok = false := rfl

theorem keep_of_ok {cur : Status} (h : cur.ok = true) (s : Status) :
    keep cur s = if s.ok then OK else s := by
  cases s <;> simp [keep, h, ok_iff.mp h]

theorem keep_of_not_ok {cur : Status} (h : cur.ok = false) (s : Status) : keep cur s = cur := by
  simp [keep, h]

@[simp] theorem ok_keep (cur s : Status) : (keep cur s).ok = (cur.ok && s.ok) := by
  cases hc : cur.ok
  · simp [keep_of_not_ok hc, hc]
  · cases hs : s.ok <;> simp [keep_of_ok hc, hs]

theorem keep_eq_self_or {cur s : Status} : keep cur s = cur ∨ (cur = OK ∧ keep cur s = s) := by
  cases cur <;> cases s <;> simp [keep]

theorem firstNonOk_append_singleton (ss : List Status) (s : Status) :
    firstNonOk (ss ++ [s]) = keep (firstNonOk ss) s := by
  induction ss with
  | nil => cases s <;> rfl
  | cons t ts ih =>
    cases ht : t.ok
    · simp [firstNonOk, ht, keep_of_not_ok]
    · simp [firstNonOk, ht, ih]

end Status

/-- `xs` holds `x` for a while and then only `y`: a value that changed at most once,
from `x` to `y`. -/
def ChangesOnce {α : Type} (x y : α) (xs : List α) : Prop :=
  ∃ a b, xs = List.replicate a x ++ List.replicate b y

section ChangesOnce

variable {α : Type} {x y : α} {xs : List α}

theorem ChangesOnce.nil : ChangesOnce x y [] := ⟨0, 0, rfl⟩

theorem ChangesOnce.of_forall (h : ∀ z ∈ xs, z = x) : ChangesOnce x y xs :=
  ⟨xs.length, 0, by simpa using List.eq_replicate_iff.mpr ⟨rfl, h⟩⟩

theorem ChangesOnce.cons_left (h : ChangesOnce x y xs) : ChangesOnce x y (x :: xs) := by
  obtain ⟨a, b, rfl⟩ := h
  exact ⟨a + 1, b, rfl⟩

theorem ChangesOnce.append_right (h : ChangesOnce x y xs) : ChangesOnce x y (xs ++ [y]) := by
  obtain ⟨a, b, rfl⟩ := h
  exact ⟨a, b + 1, by simp [List.replicate_succ']⟩

theorem ChangesOnce.append_of_forall {ys : List α} (h : ChangesOnce x y xs)
    (hys : ∀ z ∈ ys, z = y) : ChangesOnce x y (xs ++ ys) := by
  obtain ⟨a, b, rfl⟩ := h
  refine ⟨a, b + ys.length, ?_⟩
  rw [List.replicate_add, ← List.eq_replicate_iff.mpr ⟨rfl, hys⟩, List.append_assoc]

theorem ChangesOnce.forall_of_self (h : ChangesOnce x x xs) : ∀ z ∈ xs, z = x := by
  obtain ⟨a, b, rfl⟩ := h
  intro z hz
  rcases List.mem_append.mp hz with hz | hz <;> exact List.eq_of_mem_replicate hz

end ChangesOnce

end ImpalaBackend
