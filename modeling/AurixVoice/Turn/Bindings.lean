import AurixVoice.Turn.Expiry
import AurixVoice.Turn.PermissionTable

namespace AurixVoice.Turn

open ChannelBinding List

namespace Allocation

structure Paired (a : Allocation) : Prop where
  numbers : (a.channelBindings.map ChannelBinding.number).Nodup
  peers : (a.channelBindings.map peerAddr).Nodup
  few : a.channelBindings.length ≤ maxChannels

variable {a a' : Allocation} {number : UInt16} {peer : SocketAddr} {now : ℤ}

lemma Paired.sublist (h : a.Paired) (hsub : a'.channelBindings.Sublist a.channelBindings) : a'.Paired where
  numbers := h.numbers.sublist (hsub.map _)
  peers := h.peers.sublist (hsub.map _)
  few := hsub.length_le.trans h.few

lemma Paired.prune (h : a.Paired) (now : ℤ) : (a.prune now).Paired := h.sublist filter_sublist

lemma map_renew {β : Type} (f : ChannelBinding → β) (hf : ∀ b e, f { b with expiresAt := e } = f b)
    (number : UInt16) (expiresAt : ℤ) (bs : List ChannelBinding) : (renew number expiresAt bs).map f = bs.map f := by
  induction bs with
  | nil => rfl
  | cons b bs ih =>
    rw [renew]
    split
    · rw [map_cons, map_cons, hf]
    · rw [map_cons, map_cons, ih]

lemma Paired.addChannelBinding (h : a.Paired) (number : UInt16) (peer : SocketAddr) (now : ℤ) :
    (a.addChannelBinding number peer now).2.Paired := by
  have hpruned := h.prune now
  unfold Allocation.addChannelBinding
  dsimp only
  split
  · exact hpruned
  next hfree =>
    split
    · constructor
      · exact (map_renew ChannelBinding.number (fun _ _ => rfl) ..).symm ▸ hpruned.numbers
      · exact (map_renew peerAddr (fun _ _ => rfl) ..).symm ▸ hpruned.peers
      · have hlength := congrArg length (map_renew ChannelBinding.number (fun _ _ => rfl) number
          (now + seconds channelLifetimeSecs) (a.prune now).channelBindings)
        rw [length_map, length_map] at hlength
        exact hlength.trans_le hpruned.few
    next hnew =>
      split
      · exact hpruned
      · have hnumber : number ∉ (a.prune now).channelBindings.map ChannelBinding.number := by
          simpa using hnew
        have hpeer : peer ∉ (a.prune now).channelBindings.map peerAddr := by
          intro hmem
          obtain ⟨b, hb, rfl⟩ := mem_map.mp hmem
          exact hnumber (mem_map.mpr ⟨b, hb, (conflict_eq_none_iff.mp hfree b hb).mpr rfl⟩)
        constructor
        · simpa [permit, nodup_append, hpruned.numbers] using hnumber
        · simpa [permit, nodup_append, hpruned.peers] using hpeer
        · simp only [permit, length_append, length_singleton]
          omega

lemma Paired.serve (h : a.Paired) (r : ℤ × Request) : (a.serve r).Paired := by
  obtain ⟨now, r⟩ := r
  cases r with
  | createPermission peers => exact h.sublist (bindings_addPermissions a now peers)
  | channelBind number peer => exact h.addChannelBinding number peer now

lemma map_find?_eq_some_iff {β γ : Type} [DecidableEq β] {f : ChannelBinding → β} {g : ChannelBinding → γ}
    {p : ChannelBinding → Bool} {bs : List ChannelBinding} (h : (bs.map f).Nodup) {x : β} {y : γ} :
    (bs.find? fun b => f b = x && p b).map g = some y ↔ ∃ b ∈ bs, f b = x ∧ g b = y ∧ p b = true := by
  rw [Option.map_eq_some_iff]
  constructor
  · rintro ⟨b, hfind, hy⟩
    have hsome := find?_some hfind
    obtain ⟨hx, hp⟩ : f b = x ∧ p b = true := by simpa using hsome
    exact ⟨b, mem_of_find?_eq_some hfind, hx, hy, hp⟩
  · rintro ⟨b, hb, rfl, hy, hp⟩
    have hfound : (bs.find? fun c => f c = f b && p c).isSome = true :=
      find?_isSome.mpr ⟨b, hb, by simpa using hp⟩
    obtain ⟨c, hc⟩ := Option.isSome_iff_exists.mp hfound
    have hsome := find?_some hc
    have hkey : f c = f b := by simp at hsome; exact hsome.1
    obtain rfl := inj_on_of_nodup_map h (mem_of_find?_eq_some hc) hb hkey
    exact ⟨c, hc, hy⟩

/-- After every run of requests, at whatever times, the bindings pair numbers with peers one to one. -/
theorem bindings_partial_bijection (client : ClientKey) (relayAddr : SocketAddr) (username realm : Bytes)
    (lifetimeSecs start : ℤ) (requests : List (ℤ × Request)) :
    (requests.foldl serve (new client relayAddr username realm lifetimeSecs start)).Paired ∧
      ∀ now number peer,
        ((requests.foldl serve (new client relayAddr username realm lifetimeSecs start)).getChannelBinding number
            now).map peerAddr = some peer ↔
          (requests.foldl serve (new client relayAddr username realm lifetimeSecs start)).getChannelForPeer peer
            now = some number := by
  have hnew : (new client relayAddr username realm lifetimeSecs start).Paired :=
    ⟨nodup_nil, nodup_nil, Nat.zero_le _⟩
  have h := Traces.foldl_invariant Paired (fun _ r h => h.serve r) requests hnew
  refine ⟨h, fun now number peer => ?_⟩
  rw [getChannelBinding, map_find?_eq_some_iff h.numbers, getChannelForPeer, map_find?_eq_some_iff h.peers]
  exact exists_congr fun b => and_congr_right fun _ => and_left_comm

end Allocation

namespace TurnHandler

variable (suite : TurnSuite)

lemma paired_step (h : TurnHandler) (s : Env × Event) (hall : h.allocations.All fun _ a => a.Paired) :
    (h.next suite s).allocations.All fun _ a => a.Paired := by
  intro client a' ha'
  obtain hnil | ⟨a, ha, hchange⟩ := evolves_step suite h s.1 s.2 client a' ha'
  · constructor <;> simp [hnil]
  · have h := hall client a ha
    cases hchange with
    | kept _ hbind => exact h.sublist (hbind ▸ .refl _)
    | permitted peers => exact h.sublist (Allocation.bindings_addPermissions a s.1.now peers)
    | bound number peer => exact h.addChannelBinding number peer s.1.now

/-- Whatever reaches the server and whenever, what a client sends on a channel goes to the one peer whose
data it is handed on that channel. -/
theorem channels_paired (realm authSecret : Bytes) (minPort maxPort : UInt16) (maxAllocations : UInt32)
    (allocationLifetime : ℤ) (relay : RelayAddressing) (run : List (Env × Event)) :
    (run.foldl (next suite) (new realm authSecret minPort maxPort maxAllocations allocationLifetime
      relay)).allocations.All fun _ a => a.Paired ∧ ∀ now number peer,
        (a.getChannelBinding number now).map peerAddr = some peer ↔ a.getChannelForPeer peer now = some number := by
  intro client a ha
  have h : a.Paired := Traces.foldl_invariant _ (paired_step suite) run (fun _ _ h => by cases h) client a ha
  refine ⟨h, fun now number peer => ?_⟩
  rw [Allocation.getChannelBinding, Allocation.map_find?_eq_some_iff h.numbers, Allocation.getChannelForPeer,
    Allocation.map_find?_eq_some_iff h.peers]
  exact exists_congr fun b => and_congr_right fun _ => and_left_comm

end TurnHandler

end AurixVoice.Turn
