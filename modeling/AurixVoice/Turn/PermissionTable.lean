import AurixVoice.Turn.Expiry

/-! The size of a permission table: `add_channel_binding` installs its permission without the check on it. -/

namespace AurixVoice.Turn

open List

namespace Allocation

open Traces

def unexpired (a : Allocation) (now : ℤ) : Finset IpAddr :=
  a.permissions.keys.filter fun ip => a.hasPermission ip now = true

lemma mem_unexpired {a : Allocation} {now : ℤ} {ip : IpAddr} :
    ip ∈ a.unexpired now ↔ ∃ exp, a.permissions.find ip = some exp ∧ now < exp := by
  rw [unexpired, Finset.mem_filter, Dict.mem_keys_iff, hasPermission]
  cases hfind : a.permissions.find ip with
  | none | some => simp

section

variable (a : Allocation) (now : ℤ) (ip : IpAddr)

lemma keys_prune : (a.prune now).permissions.keys = a.unexpired now := by
  ext ip
  rw [Dict.mem_keys_iff, mem_unexpired, prune, Dict.find_filterValues]
  cases hfind : a.permissions.find ip with
  | none | some => simp

lemma find_prune : ((a.prune now).permissions.find ip).isNone = true ↔ ip ∉ a.unexpired now := by
  rw [← keys_prune, Dict.mem_keys, Option.isNone_iff_eq_none, Option.not_isSome_iff_eq_none]

lemma keys_permit (now : ℤ) : (a.permit ip now).permissions.keys = insert ip a.permissions.keys := rfl

end

def granted (ips : Finset IpAddr) : List SocketAddr → List SocketAddr
  | [] => []
  | peer :: peers =>
    if peer.ip ∉ ips ∧ maxPermissions ≤ ips.card then [] else peer :: granted (insert peer.ip ips) peers

lemma find_permit_prune (a : Allocation) (ip : IpAddr) (now : ℤ) (j : IpAddr) :
    (((a.prune now).permit ip now).prune now).permissions.find j =
      if j = ip then some (now + seconds permissionLifetimeSecs) else (a.prune now).permissions.find j := by
  have hlater : now < now + seconds permissionLifetimeSecs := by
    simp only [seconds, permissionLifetimeSecs]
    omega
  simp only [prune, permit, Dict.find_filterValues, Dict.find_set]
  by_cases hj : j = ip
  · simp [hj, hlater]
  · simp only [hj, if_false, Option.filter_filter, Bool.and_self]

lemma unexpired_permit_prune (a : Allocation) (ip : IpAddr) (now : ℤ) :
    ((a.prune now).permit ip now).unexpired now = insert ip (a.unexpired now) := by
  ext j
  rw [← keys_prune, Dict.mem_keys, find_permit_prune, Finset.mem_insert, ← keys_prune, Dict.mem_keys]
  by_cases hj : j = ip <;> simp [hj]

lemma find_addPermissions (now : ℤ) (peers : List SocketAddr) (a : Allocation) :
    ((a.addPermissions now peers).1 = true ↔ granted (a.unexpired now) peers = peers) ∧
      ∀ ip, ((a.addPermissions now peers).2.prune now).permissions.find ip =
        if ip ∈ (granted (a.unexpired now) peers).map SocketAddr.ip then
          some (now + seconds permissionLifetimeSecs)
        else (a.prune now).permissions.find ip := by
  induction peers generalizing a with
  | nil => simp [addPermissions, granted]
  | cons peer peers ih =>
    rw [addPermissions, granted, addPermission]
    simp only [find_prune, keys_prune]
    by_cases hfull : peer.ip ∉ a.unexpired now ∧ maxPermissions ≤ (a.unexpired now).card
    · rw [if_pos hfull, if_pos hfull]
      simp [prune, filter_filter]
    · rw [if_neg hfull, if_neg hfull]
      obtain ⟨hall, hfind⟩ := ih ((a.prune now).permit peer.ip now)
      rw [unexpired_permit_prune] at hall hfind
      refine ⟨by simpa using hall, fun ip => ?_⟩
      rw [hfind, find_permit_prune]
      by_cases hip : ip = peer.ip <;> simp [hip]

lemma granted_eq_iff (ips : Finset IpAddr) (peers : List SocketAddr) :
    granted ips peers = peers ↔ (ips ∪ (peers.map SocketAddr.ip).toFinset).card ≤ maxPermissions ∨
      ∀ peer ∈ peers, peer.ip ∈ ips := by
  induction peers generalizing ips with
  | nil => simp [granted]
  | cons peer peers ih =>
    have hunion : ips ∪ ((peer :: peers).map SocketAddr.ip).toFinset =
        insert peer.ip ips ∪ (peers.map SocketAddr.ip).toFinset := by
      simp
    rw [granted, hunion]
    by_cases hold : peer.ip ∈ ips
    · simp [hold, Finset.insert_eq_of_mem, ih]
    · have hcard := Finset.card_insert_of_notMem hold
      have hsub : insert peer.ip ips ⊆ insert peer.ip ips ∪ (peers.map SocketAddr.ip).toFinset :=
        Finset.subset_union_left
      have hle := Finset.card_le_card hsub
      by_cases hfull : maxPermissions ≤ ips.card
      · rw [if_pos ⟨hold, hfull⟩]
        refine iff_of_false (cons_ne_nil _ _).symm ?_
        rintro (hfits | hall)
        · omega
        · exact hold (hall peer mem_cons_self)
      · simp only [hold, hfull, and_false, if_false, cons.injEq, true_and, ih, forall_mem_cons, false_and,
          or_false, or_iff_left_iff_imp]
        intro hrest
        have hsame : insert peer.ip ips ∪ (peers.map SocketAddr.ip).toFinset = insert peer.ip ips := by
          apply Finset.union_eq_left.mpr
          intro ip hip
          obtain ⟨p, hp, rfl⟩ := mem_map.mp (mem_toFinset.mp hip)
          exact hrest p hp
        rw [hsame]
        omega

/-- At no time are more than `MAX_PERMISSIONS` permissions in force. -/
def Bounded (a : Allocation) : Prop := ∀ t, (a.unexpired t).card ≤ maxPermissions

lemma exists_unexpired_eq_keys (a : Allocation) : ∃ t, a.unexpired t = a.permissions.keys := by
  have hbelow : ∃ t : ℤ, ∀ ip ∈ a.permissions.keys, ∀ exp, a.permissions.find ip = some exp → t < exp := by
    induction a.permissions.keys using Finset.induction with
    | empty => exact ⟨0, fun ip hip => absurd hip (Finset.notMem_empty ip)⟩
    | insert ip ips hnew ih =>
      obtain ⟨t, ht⟩ := ih
      refine ⟨min t ((a.permissions.find ip).getD 0 - 1), fun ip' hip' exp hexp => ?_⟩
      obtain rfl | hip' := Finset.mem_insert.mp hip'
      · rw [hexp, Option.getD_some]
        omega
      · have := ht ip' hip' exp hexp
        omega
  obtain ⟨t, ht⟩ := hbelow
  refine ⟨t, Finset.ext fun ip => ?_⟩
  rw [mem_unexpired, Dict.mem_keys_iff]
  constructor
  · exact fun ⟨exp, hexp, _⟩ => ⟨exp, hexp⟩
  · exact fun ⟨exp, hexp⟩ => ⟨exp, hexp, ht ip (Dict.mem_keys_iff.mpr ⟨exp, hexp⟩) exp hexp⟩

lemma bounded_iff (a : Allocation) : a.Bounded ↔ a.permissions.keys.card ≤ maxPermissions := by
  constructor
  · intro h
    obtain ⟨t, ht⟩ := a.exists_unexpired_eq_keys
    exact ht ▸ h t
  · intro h t
    exact (Finset.card_filter_le _ _).trans h

lemma Bounded.prune {a : Allocation} (h : a.Bounded) (now : ℤ) : (a.prune now).Bounded := by
  rw [bounded_iff, keys_prune]
  exact h now

lemma bounded_permit_prune_iff {a : Allocation} (h : a.Bounded) (ip : IpAddr) (now : ℤ) :
    ((a.prune now).permit ip now).Bounded ↔
      ip ∈ a.unexpired now ∨ (a.unexpired now).card < maxPermissions := by
  rw [bounded_iff, keys_permit, keys_prune]
  by_cases hip : ip ∈ a.unexpired now
  · rw [Finset.insert_eq_of_mem hip]
    exact iff_of_true (h now) (.inl hip)
  · rw [Finset.card_insert_of_notMem hip]
    simp only [hip, false_or]
    omega

lemma Bounded.addPermission {a : Allocation} (h : a.Bounded) (ip : IpAddr) (now : ℤ) :
    (a.addPermission ip now).2.Bounded := by
  unfold Allocation.addPermission
  dsimp only
  split
  · exact h.prune now
  next hroom =>
    rw [find_prune, keys_prune] at hroom
    rw [bounded_permit_prune_iff h]
    by_cases hip : ip ∈ a.unexpired now
    · exact .inl hip
    · exact .inr (by have := not_and.mp hroom hip; omega)

lemma Bounded.addPermissions {a : Allocation} (h : a.Bounded) (now : ℤ) (peers : List SocketAddr) :
    (a.addPermissions now peers).2.Bounded := by
  induction peers generalizing a with
  | nil => exact h
  | cons peer peers ih =>
    have hone := h.addPermission peer.ip now
    rw [Allocation.addPermissions]
    split
    next heq => exact heq ▸ hone
    next a' heq =>
      rw [heq] at hone
      exact ih hone

/-- Binding `number` to `peer` succeeds: among the bindings in force each has both or neither, and
there is one already or room for it. -/
def Binds (a : Allocation) (now : ℤ) (number : UInt16) (peer : SocketAddr) : Prop :=
  (∀ b ∈ a.channelBindings, now < b.expiresAt → (b.number = number ↔ b.peerAddr = peer)) ∧
    ((∃ b ∈ a.channelBindings, now < b.expiresAt ∧ b.number = number) ∨
      (a.channelBindings.filter fun b => now < b.expiresAt).length < maxChannels)

lemma conflict_eq_none_iff {number : UInt16} {peer : SocketAddr} {bs : List ChannelBinding} :
    conflict number peer bs = none ↔ ∀ b ∈ bs, (b.number = number ↔ b.peerAddr = peer) := by
  induction bs with
  | nil => simp [conflict]
  | cons b bs ih =>
    rw [conflict, forall_mem_cons, ← ih]
    by_cases hnumber : b.number = number <;> by_cases hpeer : b.peerAddr = peer <;> simp [hnumber, hpeer]

lemma permissions_addChannelBinding (a : Allocation) (number : UInt16) (peer : SocketAddr) (now : ℤ) :
    (a.Binds now number peer ∧
        (a.addChannelBinding number peer now).2.permissions = ((a.prune now).permit peer.ip now).permissions) ∨
      (¬ a.Binds now number peer ∧
        (a.addChannelBinding number peer now).2.permissions = (a.prune now).permissions) := by
  have hfree : conflict number peer (a.prune now).channelBindings = none ↔
      ∀ b ∈ a.channelBindings, now < b.expiresAt → (b.number = number ↔ b.peerAddr = peer) := by
    rw [conflict_eq_none_iff]
    simp [prune]
  have hany : ((a.prune now).channelBindings.any fun b => b.number = number) = true ↔
      ∃ b ∈ a.channelBindings, now < b.expiresAt ∧ b.number = number := by
    simp [prune]
  unfold addChannelBinding
  dsimp only
  cases hconflict : conflict number peer (a.prune now).channelBindings with
  | some =>
    refine .inr ⟨fun hbinds => ?_, rfl⟩
    rw [hfree.mpr hbinds.1] at hconflict
    cases hconflict
  | none =>
    dsimp only
    split
    next hbound => exact .inl ⟨⟨hfree.mp hconflict, .inl (hany.mp hbound)⟩, rfl⟩
    next hbound =>
      split
      next hfull =>
        refine .inr ⟨fun hbinds => ?_, rfl⟩
        obtain hold | hroom := hbinds.2
        · exact hbound (hany.mpr hold)
        · exact absurd hroom (not_lt.mpr hfull)
      next hroom => exact .inl ⟨⟨hfree.mp hconflict, .inr (not_le.mp hroom)⟩, rfl⟩

inductive Request
  | createPermission (peers : List SocketAddr)
  | channelBind (number : UInt16) (peer : SocketAddr)

def serve (a : Allocation) : ℤ × Request → Allocation
  | (now, .createPermission peers) => (a.addPermissions now peers).2
  | (now, .channelBind number peer) => (a.addChannelBinding number peer now).2

/-- A channel is bound to a peer only while the peer's address has a permission in force, or the table
has room for one. -/
def Roomy (a : Allocation) : ℤ × Request → Prop
  | (_, .createPermission _) => True
  | (now, .channelBind number peer) =>
    a.Binds now number peer → peer.ip ∈ a.unexpired now ∨ (a.unexpired now).card < maxPermissions

lemma bounded_serve_iff {a : Allocation} (h : a.Bounded) (r : ℤ × Request) : (a.serve r).Bounded ↔ a.Roomy r := by
  obtain ⟨now, r⟩ := r
  cases r with
  | createPermission peers => exact iff_of_true (h.addPermissions now peers) trivial
  | channelBind number peer =>
    rw [serve, Roomy, bounded_iff]
    obtain ⟨hbinds, hperm⟩ | ⟨hbinds, hperm⟩ := a.permissions_addChannelBinding number peer now
    · rw [hperm, ← bounded_iff, bounded_permit_prune_iff h]
      exact ⟨fun hroom _ => hroom, fun hroom => hroom hbinds⟩
    · rw [hperm, ← bounded_iff]
      exact iff_of_true (h.prune now) fun hyes => absurd hyes hbinds

lemma bounded_new (client : ClientKey) (relayAddr : SocketAddr) (username realm : Bytes) (lifetimeSecs now : ℤ) :
    (new client relayAddr username realm lifetimeSecs now).Bounded := by
  rw [bounded_iff]
  exact Nat.zero_le _

/-- The table of a new allocation stays within its bound along a run of requests at any times if and
only if every channel bound on the way finds its peer permitted or the table with room. -/
theorem permissions_bounded_iff (client : ClientKey) (relayAddr : SocketAddr) (username realm : Bytes)
    (lifetimeSecs now : ℤ) (requests : List (ℤ × Request)) :
    Meets serve (fun a r => (a.serve r).Bounded)
        (new client relayAddr username realm lifetimeSecs now) requests ↔
      Meets serve Roomy (new client relayAddr username realm lifetimeSecs now) requests :=
  meets_next_iff Bounded (fun _ r h => bounded_serve_iff h r) (bounded_new _ _ _ _ _ _)

lemma bindings_addPermissions (a : Allocation) (now : ℤ) (peers : List SocketAddr) :
    (a.addPermissions now peers).2.channelBindings.Sublist a.channelBindings := by
  induction peers generalizing a with
  | nil => exact Sublist.refl _
  | cons peer peers ih =>
    have hone : (a.addPermission peer.ip now).2.channelBindings.Sublist a.channelBindings := by
      unfold addPermission
      dsimp only
      split <;> exact filter_sublist
    rw [addPermissions]
    split
    next heq => exact heq ▸ hone
    next a' heq =>
      rw [heq] at hone
      exact (ih a').trans hone

lemma not_bounded_of_full {a : Allocation} (hnone : a.permissions = .empty) (hunbound : a.channelBindings = [])
    {peers : List SocketAddr} (hnodup : (peers.map SocketAddr.ip).Nodup) (hlength : peers.length = maxPermissions)
    {peer : SocketAddr} (hnew : peer.ip ∉ peers.map SocketAddr.ip) (number : UInt16) (now : ℤ) :
    ¬ ((a.serve (now, .createPermission peers)).serve (now, .channelBind number peer)).Bounded := by
  have hempty : a.unexpired now = ∅ := by rw [unexpired, hnone]; rfl
  have hcard : (peers.map SocketAddr.ip).toFinset.card = maxPermissions := by
    rw [toFinset_card_of_nodup hnodup, length_map, hlength]
  have hgranted : granted (a.unexpired now) peers = peers := by
    rw [granted_eq_iff, hempty, Finset.empty_union, hcard]
    exact .inl (le_refl _)
  have htable : (a.serve (now, .createPermission peers)).unexpired now = (peers.map SocketAddr.ip).toFinset := by
    ext ip
    rw [← keys_prune, Dict.mem_keys, serve, (find_addPermissions now peers a).2, hgranted, mem_toFinset]
    by_cases hip : ip ∈ peers.map SocketAddr.ip
    · simp only [hip, if_true, Option.isSome_some]
    · simp only [hip, if_false, iff_false, prune, hnone]
      exact Bool.false_ne_true
  have hstill : (a.serve (now, .createPermission peers)).channelBindings = [] :=
    sublist_nil.mp (hunbound ▸ bindings_addPermissions a now peers)
  have hbounded : (a.serve (now, .createPermission peers)).Bounded := by
    apply Bounded.addPermissions
    rw [bounded_iff, hnone]
    exact Nat.zero_le _
  rw [bounded_serve_iff hbounded]
  intro hroomy
  obtain hold | hroom := hroomy (by simp [Binds, hstill, maxChannels])
  · rw [htable, mem_toFinset] at hold
    exact hnew hold
  · rw [htable, hcard] at hroom
    exact absurd hroom (lt_irrefl _)

def crowdStart : Allocation :=
  new ⟨TurnHandler.demoClient, .udp⟩ (.v4 (Vector.replicate 4 1) 49152) [] [] 600 0

def crowdPeer (i : ℕ) : SocketAddr := .v4 #v[203, 0, 113, UInt8.ofNat i] 5000

def crowd (n : ℕ) : List SocketAddr := (range n).map crowdPeer

lemma crowdPeer_inj {i j : ℕ} (hi : i < 256) (hj : j < 256) (h : (crowdPeer i).ip = (crowdPeer j).ip) : i = j := by
  have hbyte : UInt8.ofNat i = UInt8.ofNat j := by simpa [crowdPeer, SocketAddr.ip] using h
  have hnat := congrArg UInt8.toNat hbyte
  rwa [UInt8.toNat_ofNat_of_lt' hi, UInt8.toNat_ofNat_of_lt' hj] at hnat

lemma nodup_crowd {n : ℕ} (hn : n ≤ 256) : ((crowd n).map SocketAddr.ip).Nodup := by
  rw [crowd, map_map]
  apply Nodup.map_on _ nodup_range
  intro i hi j hj h
  exact crowdPeer_inj ((mem_range.mp hi).trans_le hn) ((mem_range.mp hj).trans_le hn) h

theorem permissions_exceed_bound :
    ¬ ((crowdStart.serve (0, .createPermission (crowd 64))).serve (0, .channelBind 0x4000 (crowdPeer 64))).Bounded := by
  apply not_bounded_of_full rfl rfl (nodup_crowd (by decide))
  · rfl
  · rw [crowd, map_map]
    intro hold
    obtain ⟨i, hi, heq⟩ := mem_map.mp hold
    have hlt := mem_range.mp hi
    have hsame := crowdPeer_inj (by omega) (by decide) heq
    omega

end Allocation

end AurixVoice.Turn
