import Mathlib.Data.Nat.Basic
import Mathlib.Tactic.Common

/-! A key of a store with expiry: the value and the millisecond it is gone. -/

namespace AurixVoice

structure ExpiringCell (α : Type) where
  entry : Option (α × ℕ)

namespace ExpiringCell

variable {α : Type} {now now' : ℕ}

def empty : ExpiringCell α := ⟨none⟩

def get (c : ExpiringCell α) (now : ℕ) : Option α := (c.entry.filter fun e => now < e.2).map Prod.fst

def setEx (now secs : ℕ) (value : α) : ExpiringCell α := ⟨some (value, now + 1000 * secs)⟩

/-- `TTL key`: the seconds left, rounded, or -2 without the key. -/
def ttl (c : ExpiringCell α) (now : ℕ) : ℤ :=
  match c.entry.filter fun e => now < e.2 with
  | none => -2
  | some e => ((e.2 - now + 500) / 1000 : ℕ)

def setNxEx (c : ExpiringCell α) (now secs : ℕ) (value : α) : Bool × ExpiringCell α :=
  if (c.get now).isSome then (false, c) else (true, setEx now secs value)

variable {c : ExpiringCell α} {v : α}

lemma get_eq_some : c.get now = some v ↔ ∃ t, c.entry = some (v, t) ∧ now < t := by
  simp only [get, Option.map_eq_some_iff, Option.filter_eq_some_iff, decide_eq_true_eq, Prod.exists]
  exact exists_comm.trans (by simp)

lemma get_setEx {secs : ℕ} : (setEx now secs v).get now' = if now' < now + 1000 * secs then some v else none := by
  unfold get setEx
  split <;> simp_all

lemma get_setEx_self {secs : ℕ} (hsecs : 0 < secs) : (setEx now secs v).get now = some v := by
  rw [get_setEx, if_pos (by omega)]

lemma get_of_le (hle : now ≤ now') (h : c.get now' = some v) : c.get now = some v := by
  obtain ⟨t, ht, hlt⟩ := get_eq_some.mp h
  exact get_eq_some.mpr ⟨t, ht, by omega⟩

lemma get_eq_none_of_le (hle : now ≤ now') (h : c.get now = none) : c.get now' = none := by
  cases hlater : c.get now' with
  | none => rfl
  | some => rw [get_of_le hle hlater] at h; cases h

end ExpiringCell

end AurixVoice
