import AurixVoice.Web.SealHistory

namespace AurixVoice.Web.SealHistory

open E2ee List

def sealedBy (seals : List Seal) (side : Side) (secret : Secret) : ℕ :=
  seals.countP fun e => e.side = side ∧ e.secret = secret

structure Tracks (seals : List Seal) (secrets : List Secret) (side : Side) (own : Option OwnKey)
    (pending : List Secret) : Prop where
  counter : ∀ k, own = some k → k.counter = UInt32.ofNat (sealedBy seals side k.secret)
  nodup : ((own.map OwnKey.secret).toList ++ pending).Nodup
  drawn : ∀ s ∈ (own.map OwnKey.secret).toList ++ pending, s ∈ secrets
  unused : ∀ s ∈ pending, sealedBy seals side s = 0

namespace Tracks

variable {seals : List Seal} {secrets : List Secret} {side : Side} {own : Option OwnKey} {pending : List Secret}

lemma sealedBy_self (seals : List Seal) (side : Side) (secret : Secret) (counter : UInt32) :
    sealedBy (⟨side, secret, counter⟩ :: seals) side secret = sealedBy seals side secret + 1 := by
  simp [sealedBy]

lemma sealedBy_other {e : Seal} {s : Secret} (h : e.side = side → e.secret ≠ s) :
    sealedBy (e :: seals) side s = sealedBy seals side s := by
  apply countP_cons_of_neg
  simp only [decide_eq_true_eq]
  exact fun heq => h heq.1 heq.2

lemma sealed {k : OwnKey} (h : Tracks seals secrets side (some k) pending) :
    Tracks (⟨side, k.secret, k.counter⟩ :: seals) secrets side (some { k with counter := k.counter + 1 })
      pending where
  counter := by
    rintro k' hk'
    obtain rfl := Option.some.inj hk'
    rw [sealedBy_self, h.counter k rfl, UInt32.ofNat_add]
    rfl
  nodup := h.nodup
  drawn := h.drawn
  unused := by
    intro s hs
    have hne : k.secret ≠ s := by
      rintro rfl
      exact (nodup_cons.mp h.nodup).1 hs
    rw [sealedBy_other fun _ => hne]
    exact h.unused s hs

lemma sealed_by_other {e : Seal} (hside : e.side ≠ side) (h : Tracks seals secrets side own pending) :
    Tracks (e :: seals) secrets side own pending where
  counter := by
    intro k hk
    rw [sealedBy_other fun heq => absurd heq hside]
    exact h.counter k hk
  nodup := h.nodup
  drawn := h.drawn
  unused := by
    intro s hs
    rw [sealedBy_other fun heq => absurd heq hside]
    exact h.unused s hs

lemma install {generation : UInt8} {secret : Secret} (h : Tracks seals secrets side own (secret :: pending)) :
    Tracks seals secrets side (some ⟨generation, secret, 0⟩) pending where
  counter := by
    rintro k hk
    obtain rfl := Option.some.inj hk
    rw [h.unused secret mem_cons_self]
    rfl
  nodup := (nodup_append.mp h.nodup).2.1
  drawn s hs := h.drawn s (mem_append_right _ hs)
  unused s hs := h.unused s (mem_cons_of_mem secret hs)

lemma fewer {fewer : List Secret} (hsub : fewer.Sublist pending) (h : Tracks seals secrets side own pending) :
    Tracks seals secrets side own fewer where
  counter := h.counter
  nodup := h.nodup.sublist (hsub.append_left _)
  drawn s hs := h.drawn s ((hsub.append_left _).subset hs)
  unused s hs := h.unused s (hsub.subset hs)

lemma sealedBy_undrawn {secret : Secret} (hseals : ∀ e ∈ seals, e.secret ∈ secrets) (hnew : secret ∉ secrets) :
    sealedBy seals side secret = 0 := by
  apply countP_eq_zero.mpr
  intro e he
  simp only [decide_eq_true_eq]
  rintro ⟨-, rfl⟩
  exact hnew (hseals e he)

lemma draw {secret : Secret} (hseals : ∀ e ∈ seals, e.secret ∈ secrets) (hnew : secret ∉ secrets)
    (h : Tracks seals secrets side own pending) : Tracks seals (secret :: secrets) side own (pending ++ [secret]) where
  counter := h.counter
  nodup := by
    rw [← append_assoc, nodup_append]
    refine ⟨h.nodup, nodup_singleton secret, ?_⟩
    rintro s hs s' hs' rfl
    rw [mem_singleton] at hs'
    exact hnew (hs' ▸ h.drawn s hs)
  drawn := by
    intro s hs
    rw [← append_assoc, mem_append, mem_singleton] at hs
    rcases hs with hs | rfl
    · exact mem_cons_of_mem secret (h.drawn s hs)
    · exact mem_cons_self
  unused := by
    intro s hs
    rcases mem_append.mp hs with hs | hs
    · exact h.unused s hs
    · rw [mem_singleton.mp hs]
      exact sealedBy_undrawn hseals hnew

lemma none_nil : Tracks seals secrets side none [] := ⟨nofun, nodup_nil, nofun, nofun⟩

end Tracks

end AurixVoice.Web.SealHistory
