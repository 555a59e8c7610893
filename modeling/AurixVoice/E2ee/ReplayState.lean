import AurixVoice.E2ee.Primitives
import AurixVoice.Library.BitWindow

namespace AurixVoice.E2ee

structure ReplayState where
  highest : Option UInt32
  window : BitVec 128
  deriving DecidableEq

namespace ReplayState

def new : ReplayState := ⟨none, 0⟩

def accept (r : ReplayState) (counter : UInt32) : Bool × ReplayState :=
  match r.highest with
  | none => (true, ⟨some counter, 1⟩)
  | some h =>
    if h < counter then
      let shift := (counter - h).toNat
      let window := if replayWindow ≤ shift then 0 else r.window <<< shift
      (true, ⟨some counter, window ||| 1#128⟩)
    else
      let age := (h - counter).toNat
      if replayWindow ≤ age then (false, r)
      else
        let bit := 1#128 <<< age
        if r.window &&& bit ≠ 0 then (false, r) else (true, ⟨r.highest, r.window ||| bit⟩)

lemma toNat_sub_le {a b : UInt32} (h : b ≤ a) : (a - b).toNat = a.toNat - b.toNat :=
  UInt32.toNat_sub_of_le a b h

def lift (r : ReplayState) : BitWindow 128 := ⟨r.highest.map UInt32.toNat, r.window⟩

lemma lift_accept (r : ReplayState) (n : UInt32) : r.lift.accept n.toNat = ((r.accept n).1, (r.accept n).2.lift) := by
  cases hh : r.highest with
  | none => simp [BitWindow.accept, lift, accept, hh]
  | some h =>
    have hlift : r.lift.highest = some h.toNat := by simp [lift, hh]
    simp only [BitWindow.accept, hlift, accept, hh, UInt32.lt_iff_toNat_lt]
    by_cases hlt : h.toNat < n.toNat
    · have hsub : (n - h).toNat = n.toNat - h.toNat :=
        toNat_sub_le (UInt32.le_iff_toNat_le.mpr hlt.le)
      simp only [hlt, if_true, hsub, lift, replayWindow, Option.map_some]
      rfl
    · have hsub : (h - n).toNat = h.toNat - n.toNat :=
        toNat_sub_le (UInt32.le_iff_toNat_le.mpr (not_lt.mp hlt))
      simp only [hlt, if_false, hsub, replayWindow]
      by_cases hage : 128 ≤ h.toNat - n.toNat
      · simp [hage]
      · have hmask := BitWindow.and_mask_eq_zero_iff r.window (not_le.mp hage)
        cases hbit : r.window.getLsbD (h.toNat - n.toNat) <;> simp [lift, hage, hbit, hmask, hh]

lemma lift_injective : Function.Injective lift := by
  rintro ⟨h, window⟩ ⟨h', window'⟩ heq
  obtain ⟨hhighest, hwindow⟩ := BitWindow.mk.inj heq
  exact congrArg₂ mk (Option.map_injective (fun _ _ => UInt32.toNat_inj.mp) hhighest) hwindow

def Seen (r : ReplayState) (counter : UInt32) : Prop := (BitWindow.sliding 128).Seen r.lift counter.toNat

variable {r : ReplayState} {counter : UInt32}

lemma accept_of_seen (h : r.Seen counter) : r.accept counter = (false, r) := by
  obtain ⟨hverdict, hnext⟩ := Prod.mk.inj ((lift_accept r counter).symm.trans h.refused)
  exact Prod.ext hverdict (lift_injective hnext)

lemma accept_iff (r : ReplayState) (counter : UInt32) : (r.accept counter).1 = true ↔ ¬ r.Seen counter := by
  have hverdict : ((BitWindow.sliding 128).accept r.lift counter.toNat).1 = (r.accept counter).1 :=
    congrArg Prod.fst (lift_accept r counter)
  rw [← hverdict, SlidingWindow.accept_iff, Seen]

lemma lift_next (r : ReplayState) (n : UInt32) :
    ((BitWindow.sliding 128).accept r.lift n.toNat).2 = (r.accept n).2.lift := congrArg Prod.snd (lift_accept r n)

lemma seen_accept (r : ReplayState) (counter : UInt32) : (r.accept counter).2.Seen counter := by
  rw [Seen, ← lift_next]
  exact SlidingWindow.seen_accept _ _

lemma Seen.accept (h : r.Seen counter) (next : UInt32) : (r.accept next).2.Seen counter := by
  rw [Seen, ← lift_next]
  exact SlidingWindow.Seen.accept h _

end ReplayState

end AurixVoice.E2ee
