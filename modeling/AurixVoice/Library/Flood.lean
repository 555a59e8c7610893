import Mathlib.Algebra.GroupWithZero.Nat
import Mathlib.Data.Multiset.Bind

/-!
Messages that are consumed one at a time, in any order, each sending out messages of a smaller rank: a run
that has nothing left in flight has consumed the spread of those it started with.
-/

namespace AurixVoice.Flood

open Multiset

structure Net (M : Type) where
  next : M → List M
  rank : M → ℕ
  decreases : ∀ m, ∀ m' ∈ next m, rank m' < rank m

namespace Net

variable {M : Type} (net : Net M)

def spreadUpTo : ℕ → M → List M
  | 0, m => [m]
  | n + 1, m => m :: (net.next m).flatMap (spreadUpTo n)

def spread (m : M) : List M := net.spreadUpTo (net.rank m) m

lemma spreadUpTo_eq {n : ℕ} {m : M} (h : net.rank m ≤ n) : net.spreadUpTo n m = net.spread m := by
  induction n using Nat.strong_induction_on generalizing m with
  | _ n ih =>
    unfold spread
    cases n with
    | zero =>
      have hzero : net.rank m = 0 := Nat.le_zero.mp h
      rw [hzero]
    | succ n =>
      cases hr : net.rank m with
      | zero =>
        have hnil : net.next m = [] := by
          apply List.eq_nil_iff_forall_not_mem.mpr
          intro m' hm'
          have := net.decreases m m' hm'
          omega
        simp [spreadUpTo, hnil]
      | succ k =>
        simp only [spreadUpTo, List.cons.injEq, true_and]
        apply List.flatMap_congr
        intro m' hm'
        have hlt := net.decreases m m' hm'
        rw [ih n (Nat.lt_succ_self n) (by omega), ih k (by omega) (by omega)]

lemma spread_eq (m : M) : net.spread m = m :: (net.next m).flatMap net.spread := by
  rw [← net.spreadUpTo_eq (Nat.le_succ (net.rank m)), spreadUpTo]
  congr 1
  apply List.flatMap_congr
  intro m' hm'
  exact net.spreadUpTo_eq (net.decreases m m' hm').le

lemma spread_forall {P : M → Prop} (hnext : ∀ m, P m → ∀ m' ∈ net.next m, P m') {m : M} (hm : P m) :
    ∀ m' ∈ net.spread m, P m' := by
  induction hr : net.rank m using Nat.strong_induction_on generalizing m with
  | _ r ih =>
    subst hr
    rw [spread_eq]
    intro m' hm'
    rcases List.mem_cons.mp hm' with rfl | hm'
    · exact hm
    · obtain ⟨k, hk, hin⟩ := List.mem_flatMap.mp hm'
      exact ih (net.rank k) (net.decreases m k hk) (hnext m hm k hk) rfl m' hin

lemma countP_spread (p : M → Bool) (m : M) :
    (net.spread m).countP p =
      (if p m then 1 else 0) + ((net.next m).map fun m' => (net.spread m').countP p).sum := by
  rw [spread_eq, List.countP_cons, List.countP_flatMap, add_comm]
  rfl

structure State (M : Type) where
  inflight : Multiset M
  consumed : Multiset M

inductive Step : State M → State M → Prop
  | consume (m : M) (rest consumed : Multiset M) :
      Step ⟨m ::ₘ rest, consumed⟩ ⟨rest + net.next m, m ::ₘ consumed⟩

def Run : State M → State M → Prop := Relation.ReflTransGen net.Step

def total (s : State M) : Multiset M := s.consumed + s.inflight.bind fun m => net.spread m

lemma step_total {s s' : State M} (h : net.Step s s') : net.total s' = net.total s := by
  cases h with
  | consume m rest =>
    have hnext : ((net.next m : Multiset M).bind fun m' => (net.spread m' : Multiset M)) =
        ((net.next m).flatMap net.spread : List M) := coe_bind _ _
    simp only [total, add_bind, cons_bind, hnext]
    rw [net.spread_eq m, ← cons_coe, cons_add, cons_add, add_cons]
    rw [add_comm (rest.bind _)]

lemma run_total {s s' : State M} (h : net.Run s s') : net.total s' = net.total s := by
  induction h with
  | refl => rfl
  | tail _ hstep ih => exact (net.step_total hstep).trans ih

lemma run_consumed_le {s s' : State M} (h : net.Run s s') : s'.consumed ≤ net.total s := by
  rw [← net.run_total h]
  exact le_add_right _ _

lemma run_finished {s s' : State M} (h : net.Run s s') (hdone : s'.inflight = 0) : s'.consumed = net.total s := by
  rw [← net.run_total h, total, hdone, zero_bind, add_zero]

lemma run_finishes (s : State M) : ∃ s', net.Run s s' ∧ s'.inflight = 0 := by
  induction hn : (net.total s).card - s.consumed.card using Nat.strong_induction_on generalizing s with
  | _ n ih =>
    obtain ⟨inflight, consumed⟩ := s
    rcases empty_or_exists_mem inflight with rfl | ⟨m, hm⟩
    · exact ⟨_, .refl, rfl⟩
    · obtain ⟨rest, rfl⟩ := exists_cons_of_mem hm
      have hstep : net.Step ⟨m ::ₘ rest, consumed⟩ ⟨rest + net.next m, m ::ₘ consumed⟩ :=
        .consume m rest consumed
      have htotal := net.step_total hstep
      have hle : (m ::ₘ consumed).card ≤ (net.total ⟨m ::ₘ rest, consumed⟩).card := by
        rw [← htotal]
        exact card_le_card (le_add_right _ _)
      rw [card_cons] at hle
      obtain ⟨s', hrun, hdone⟩ := ih _ (by
        rw [htotal, card_cons]
        dsimp only at hn
        omega) _ rfl
      exact ⟨s', .head hstep hrun, hdone⟩

end Net

end AurixVoice.Flood
