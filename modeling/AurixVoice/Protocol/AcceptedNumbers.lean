import AurixVoice.E2ee.ReplayState
import AurixVoice.Protocol.ReplayWindow

/-! The three anti-replay windows: a number is accepted once, and while less than the width behind the highest. -/

namespace AurixVoice.Protocol

variable {σ τ ι : Type}

structure Fed (σ ι : Type) where
  window : σ
  accepted : List ι

def Fed.feed (accept : σ → ι → Bool × σ) (f : Fed σ ι) (n : ι) : Fed σ ι :=
  ⟨(accept f.window n).2, if (accept f.window n).1 then n :: f.accepted else f.accepted⟩

def IsHighest (accepted : List ℕ) (h : ℕ) : Prop := h ∈ accepted ∧ ∀ m ∈ accepted, m ≤ h

def Acceptable (width : ℕ) (accepted : List ℕ) (n : ℕ) : Prop :=
  n ∉ accepted ∧ ∀ h, IsHighest accepted h → (h : ℤ) - width < n

variable {accepted : List ℕ}

lemma exists_isHighest (h : accepted ≠ []) : ∃ top, IsHighest accepted top := by
  induction accepted with
  | nil => exact absurd rfl h
  | cons n rest ih =>
    by_cases hrest : rest = []
    · exact ⟨n, by simp [IsHighest, hrest]⟩
    · obtain ⟨top, hmem, hmax⟩ := ih hrest
      refine ⟨max n top, ?_, fun m hm => ?_⟩
      · rcases le_total n top with hle | hle
        · rw [max_eq_right hle]
          exact List.mem_cons_of_mem _ hmem
        · rw [max_eq_left hle]
          exact List.mem_cons_self
      · rcases List.mem_cons.mp hm with rfl | hm
        · exact le_max_left _ _
        · exact (hmax m hm).trans (le_max_right _ _)

lemma acceptable_iff_fresh {width : ℕ} {n : ℕ} :
    Acceptable width accepted n ↔ SlidingWindow.Fresh width accepted n := by
  constructor
  · rintro ⟨hnew, hnear⟩ m hm
    obtain ⟨top, htop⟩ := exists_isHighest (List.ne_nil_of_mem hm)
    have hle := htop.2 m hm
    have hlt := hnear top htop
    refine ⟨?_, by omega⟩
    rintro rfl
    exact hnew hm
  · intro hfresh
    refine ⟨hfresh.not_mem, fun top htop => ?_⟩
    have hlt := (hfresh top htop.1).2
    omega

variable (W : SlidingWindow τ) (lift : σ → τ) (num : ι → ℕ) {accept : σ → ι → Bool × σ}

lemma tracks_fed (hverdict : ∀ s n, (W.accept (lift s) (num n)).1 = (accept s n).1)
    (hnext : ∀ s n, (W.accept (lift s) (num n)).2 = lift (accept s n).2) {f : Fed σ ι}
    (hf : W.Tracks (lift f.window) (f.accepted.map num)) (ns : List ι) :
    W.Tracks (lift (ns.foldl (Fed.feed accept) f).window) ((ns.foldl (Fed.feed accept) f).accepted.map num) := by
  induction ns generalizing f with
  | nil => exact hf
  | cons n ns ih =>
    apply ih
    have hn := hf.next (num n)
    rw [hverdict, hnext] at hn
    simp only [Fed.feed]
    split_ifs with haccept
    · rwa [if_pos haccept] at hn
    · rwa [if_neg haccept] at hn

lemma accept_fed_iff (hverdict : ∀ s n, (W.accept (lift s) (num n)).1 = (accept s n).1)
    (hnext : ∀ s n, (W.accept (lift s) (num n)).2 = lift (accept s n).2) {s : σ} (hs : W.highest (lift s) = none)
    (ns : List ι) (n : ι) :
    (accept (ns.foldl (Fed.feed accept) ⟨s, []⟩).window n).1 = true ↔
      Acceptable W.width ((ns.foldl (Fed.feed accept) ⟨s, []⟩).accepted.map num) (num n) := by
  have htracks := tracks_fed W lift num hverdict hnext (f := ⟨s, []⟩) (SlidingWindow.tracks_nil hs) ns
  rw [acceptable_iff_fresh, ← htracks.accept_iff, hverdict]

theorem windows_accept_fresh_numbers :
    (∀ (ns : List UInt64) (n : UInt64),
      let fed := ns.foldl (Fed.feed fun w n => ReplayWindow.checkAndUpdateU64 w n.toNat) ⟨default, []⟩
      (fed.window.checkAndUpdateU64 n.toNat).1 = true ↔
        Acceptable 64 (fed.accepted.map UInt64.toNat) n.toNat) ∧
    (∀ (ns : List UInt64) (n : UInt64),
      let fed := ns.foldl (Fed.feed fun w n => WideReplayWindow.checkAndUpdateU64 w n.toNat) ⟨default, []⟩
      (fed.window.checkAndUpdateU64 n.toNat).1 = true ↔
        Acceptable 4096 (fed.accepted.map UInt64.toNat) n.toNat) ∧
    ∀ (ns : List UInt32) (n : UInt32),
      let fed := ns.foldl (Fed.feed E2ee.ReplayState.accept) ⟨.new, []⟩
      (fed.window.accept n).1 = true ↔ Acceptable 128 (fed.accepted.map UInt32.toNat) n.toNat := by
  refine ⟨fun ns n => ?_, fun ns n => ?_, fun ns n => ?_⟩
  · exact accept_fed_iff ReplayWindow.sliding id UInt64.toNat (fun _ _ => rfl) (fun _ _ => rfl) rfl ns n
  · exact accept_fed_iff WideReplayWindow.sliding id UInt64.toNat (fun _ _ => rfl) (fun _ _ => rfl) rfl ns n
  · have hlift := E2ee.ReplayState.lift_accept
    exact accept_fed_iff (BitWindow.sliding 128) E2ee.ReplayState.lift UInt32.toNat
      (fun r n => congrArg Prod.fst (hlift r n)) (fun r n => congrArg Prod.snd (hlift r n)) rfl ns n

end AurixVoice.Protocol
