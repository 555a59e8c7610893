import AurixVoice.Library.Dict
import AurixVoice.Types
import Mathlib.Algebra.BigOperators.Group.List.Basic
import Mathlib.Algebra.GroupWithZero.Nat

/-!
The usage meter of `usage.rs` and the flushes of its deltas, by any number of threads. A call is cut where it
has let go of the map; a lookup of `record_at` that finds no counter changes nothing, so it adds in one step.
A metric is only compared, and counters do not overflow.
-/

namespace AurixVoice.Metering

open List

variable {M : Type} [DecidableEq M]

structure UsageKey (M : Type) where
  appId : AppId
  channelId : Option ChannelId
  bucket : ℤ
  metric : M
  deriving DecidableEq

structure UsageDelta (M : Type) where
  key : UsageKey M
  value : ℕ
  deriving DecidableEq

def appBucketSecs : ℤ := 300

def bucketStart (instant secs : ℤ) : ℤ := instant - instant % max secs 1

/-- The calls under way: `drain` with the keys it has yet to remove, the flush it serves, and `restore`. -/
inductive Task (M : Type)
  | drain (keys : List (UsageKey M)) (out : List (UsageDelta M))
  | flush (deltas : List (UsageDelta M))
  | restore (deltas : List (UsageDelta M))

inductive Event (M : Type)
  | recordAt (appId : AppId) (channelId : Option ChannelId) (metric : M) (value : ℕ) (instant : ℤ)
  | flushOnce (keys : List (UsageKey M))
  | run (i : ℕ) (stored : Bool)

def Event.recorded : Event M → List (UsageDelta M)
  | .recordAt app channel metric value instant => [⟨⟨app, channel, bucketStart instant appBucketSecs, metric⟩, value⟩]
  | _ => []

structure UsageMeter (M : Type) where
  counters : Dict (UsageKey M) ℕ
  tasks : List (Task M)
  written : List (UsageDelta M)

namespace UsageMeter

def new : UsageMeter M := ⟨.empty, [], []⟩

variable (m : UsageMeter M)

def add (d : UsageDelta M) : UsageMeter M :=
  { m with counters := m.counters.set d.key ((m.counters.find d.key).getD 0 + d.value) }

def proceed (stored : Bool) : Task M → UsageMeter M
  | .drain [] out => if out = [] then m else { m with tasks := .flush out :: m.tasks }
  | .drain (key :: keys) out =>
    match m.counters.find key with
    | none => { m with tasks := .drain keys out :: m.tasks }
    | some value =>
      { m with
        counters := m.counters.erase key
        tasks := .drain keys (if 0 < value then out ++ [⟨key, value⟩] else out) :: m.tasks }
  | .flush deltas =>
    if stored then { m with written := deltas ++ m.written } else { m with tasks := .restore deltas :: m.tasks }
  | .restore [] => m
  | .restore (d :: deltas) => { m.add d with tasks := .restore deltas :: m.tasks }

def step (e : Event M) : UsageMeter M :=
  match e with
  | .recordAt .. => e.recorded.foldl (fun m d => if d.value = 0 then m else m.add d) m
  | .flushOnce keys => { m with tasks := .drain keys [] :: m.tasks }
  | .run i stored =>
    match m.tasks[i]? with
    | none => m
    | some task => proceed { m with tasks := m.tasks.eraseIdx i } stored task

end UsageMeter

def amount (key : UsageKey M) (ds : List (UsageDelta M)) : ℕ := (ds.map fun d => if d.key = key then d.value else 0).sum

def Task.amount (key : UsageKey M) : Task M → ℕ
  | .drain _ ds | .flush ds | .restore ds => Metering.amount key ds

namespace UsageMeter

variable (m : UsageMeter M) (key : UsageKey M)

def pending : ℕ := (m.counters.find key).getD 0

/-- Drained and not restored: stored in the database, or still held by a call. -/
def drained : ℕ := amount key m.written + (m.tasks.map (Task.amount key)).sum

lemma amount_append (ds es : List (UsageDelta M)) : amount key (ds ++ es) = amount key ds + amount key es := by
  rw [amount, map_append, sum_append]
  rfl

lemma pending_add (d : UsageDelta M) : (m.add d).pending key = m.pending key + amount key [d] := by
  by_cases h : d.key = key
  · simp [pending, add, amount, h]
  · simp [pending, add, amount, h, Ne.symm h]

lemma balance_proceed (stored : Bool) (task : Task M) :
    (m.proceed stored task).drained key + (m.proceed stored task).pending key =
      m.drained key + task.amount key + m.pending key := by
  cases task with
  | drain keys out =>
    cases keys with
    | nil =>
      by_cases hout : out = []
      · simp [proceed, hout, Task.amount, amount]
      · simp only [proceed, hout, if_false, drained, pending, Task.amount, map_cons, sum_cons]
        omega
    | cons k keys =>
      cases hfind : m.counters.find k with
      | none =>
        simp only [proceed, hfind, drained, pending, Task.amount, map_cons, sum_cons]
        omega
      | some value =>
        have hout : amount key (if 0 < value then out ++ [⟨k, value⟩] else out) =
            amount key out + amount key [⟨k, value⟩] := by
          split
          · exact amount_append ..
          · obtain rfl : value = 0 := by omega
            simp [amount]
        have herase : ((m.counters.erase k).find key).getD 0 + amount key [⟨k, value⟩] = m.pending key := by
          by_cases h : k = key
          · simp [pending, amount, ← h, hfind]
          · simp [pending, amount, h, Ne.symm h]
        simp only [proceed, hfind, drained, Task.amount, map_cons, sum_cons, hout]
        rw [← herase]
        dsimp only [pending]
        omega
  | flush deltas =>
    cases stored
    · simp only [proceed, Bool.false_eq_true, if_false, drained, pending, Task.amount, map_cons, sum_cons]
      omega
    · simp only [proceed, if_true, drained, pending, Task.amount, amount_append]
      omega
  | restore deltas =>
    cases deltas with
    | nil => simp [proceed, Task.amount, amount]
    | cons d deltas =>
      have hadd := m.pending_add key d
      have hcons := amount_append key [d] deltas
      simp only [proceed, add, drained, pending, Task.amount, map_cons, sum_cons, singleton_append] at hadd hcons ⊢
      omega

lemma balance_step (e : Event M) :
    (m.step e).drained key + (m.step e).pending key = m.drained key + m.pending key + amount key e.recorded := by
  cases e with
  | recordAt app channel metric value instant =>
    simp only [step, Event.recorded, foldl_cons, foldl_nil]
    split
    next hzero => simp [amount, hzero]
    · rw [pending_add, ← add_assoc]
      rfl
  | flushOnce keys => simp [step, Event.recorded, drained, pending, Task.amount, amount]
  | run i stored =>
    rw [step]
    cases htask : m.tasks[i]? with
    | none => rfl
    | some task =>
      obtain ⟨hi, rfl⟩ := List.getElem?_eq_some_iff.mp htask
      have hsum := ((getElem_cons_eraseIdx_perm hi).map (Task.amount key)).sum_eq
      rw [map_cons, sum_cons] at hsum
      dsimp only
      rw [balance_proceed, drained, drained, ← hsum, add_assoc _ (sum _), add_comm (sum _)]
      rfl

theorem usage_conserved (key : UsageKey M) (es : List (Event M)) :
    (es.foldl step new).drained key + (es.foldl step new).pending key = amount key (es.flatMap Event.recorded) := by
  suffices h : ∀ m : UsageMeter M, (es.foldl step m).drained key + (es.foldl step m).pending key =
      m.drained key + m.pending key + amount key (es.flatMap Event.recorded) by
    rw [h new, show new.drained key + new.pending key = 0 from rfl, zero_add]
  induction es with
  | nil => exact fun m => rfl
  | cons e es ih =>
    intro m
    rw [foldl_cons, ih, balance_step, flatMap_cons, amount_append, add_assoc]

end UsageMeter

end AurixVoice.Metering
