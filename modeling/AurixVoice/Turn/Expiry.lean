import AurixVoice.Library.Traces
import AurixVoice.Turn.Handler

/-! What reaches a peer: ChannelData under a live binding, which may outlive the permission and the allocation. -/

namespace AurixVoice.Turn

open List hiding Vector

namespace TurnHandler

variable {suite : TurnSuite} {peer : SocketAddr} {a : Allocation} (h : TurnHandler)

def Live (h : TurnHandler) (now : ℤ) (client : ClientKey) (peer : SocketAddr) : Prop :=
  ∃ a, h.allocations.find client = some a ∧ a.isExpired now = false ∧ a.hasPermission peer.ip now = true

def channelData : Event → Option (ClientKey × Bytes)
  | .datagram src _ data => if 4 ≤ data.length ∧ isChannelData data then some (⟨src, .udp⟩, data) else none
  | .tcpFrame src frame => if isChannelData frame then some (⟨src, .tcp⟩, frame) else none
  | _ => none

def namedBinding (h : TurnHandler) (now : ℤ) (client : ClientKey) (data : Bytes) :
    Option (Allocation × ChannelBinding) :=
  if data.length < 4 + (getU16 (data.drop 2)).1.toNat ∨ !isChannelNumber (getU16 data).1 then none
  else (h.allocations.find client).bind fun a => (a.getChannelBinding (getU16 data).1 now).map fun b => (a, b)

lemma handleChannelData_eq (env : Env) (data : Bytes) (client : ClientKey) :
    h.handleChannelData env data client = match h.namedBinding env.now client data with
      | none => (h, [])
      | some (a, b) =>
        (h.setAllocation client (a.relayedOut (getU16 (data.drop 2)).1.toNat),
          [.toPeer client b.peerAddr ((data.drop 4).take (getU16 (data.drop 2)).1.toNat)]) := by
  unfold handleChannelData namedBinding
  split
  · rw [if_pos (.inl (by omega))]
  · dsimp only
    split
    · rfl
    · cases h.allocations.find client with
      | none => rfl
      | some a =>
        cases hbinding : a.getChannelBinding (getU16 data).1 env.now with
        | none | some => simp [hbinding]

/-- A ChannelData frame on a live binding comes while the allocation is live and the bound peer has a
permission: what `handle_send_indication` checks. -/
def Guarded (h : TurnHandler) (step : Env × Event) : Prop :=
  ∀ client data a b, channelData step.2 = some (client, data) →
    h.namedBinding step.1.now client data = some (a, b) →
    a.isExpired step.1.now = false ∧ a.hasPermission b.peerAddr.ip step.1.now = true

/-- What this step relays to peers, it relays under a live allocation and a live permission. -/
def RelaysLive (suite : TurnSuite) (h : TurnHandler) (step : Env × Event) : Prop :=
  ∀ client peer payload, .toPeer client peer payload ∈ (h.step suite step.1 step.2).2 →
    h.Live step.1.now client peer

variable {data : Bytes}

lemma namedBinding_spec {h : TurnHandler} {now : ℤ} {client : ClientKey} {b : ChannelBinding}
    (hnamed : h.namedBinding now client data = some (a, b)) :
    h.allocations.find client = some a ∧ b ∈ a.channelBindings := by
  unfold namedBinding at hnamed
  split at hnamed
  · cases hnamed
  · obtain ⟨a', hfind, hbinding⟩ := Option.bind_eq_some_iff.mp hnamed
    obtain ⟨b', hmem, heq⟩ := Option.map_eq_some_iff.mp hbinding
    obtain ⟨rfl, rfl⟩ := Prod.mk.inj heq
    exact ⟨hfind, mem_of_find?_eq_some hmem⟩

lemma step_channelData {h : TurnHandler} {env : Env} {e : Event} {client : ClientKey}
    (hdata : channelData e = some (client, data)) : h.step suite env e = h.handleChannelData env data client := by
  cases e with
  | datagram | tcpFrame =>
    rw [channelData] at hdata
    split at hdata
    next hchannel =>
      obtain ⟨rfl, rfl⟩ := Prod.mk.inj (Option.some.inj hdata)
      rw [step, if_pos hchannel]
    · cases hdata
  | _ => cases hdata

inductive Changes (now : ℤ) (a : Allocation) : Allocation → Prop
  | kept {a' : Allocation} (hperm : a'.permissions = a.permissions) (hbind : a'.channelBindings = a.channelBindings) :
      Changes now a a'
  | permitted (peers : List SocketAddr) : Changes now a (a.addPermissions now peers).2
  | bound (number : UInt16) (peer : SocketAddr) : Changes now a (a.addChannelBinding number peer now).2

def Evolves (now : ℤ) (h h' : TurnHandler) : Prop :=
  ∀ client a', h'.allocations.find client = some a' →
    a'.channelBindings = [] ∨ ∃ a, h.allocations.find client = some a ∧ Changes now a a'

lemma evolves_of_allocations {now : ℤ} {h h' : TurnHandler} (heq : h'.allocations = h.allocations) :
    Evolves now h h' := by
  intro client a ha
  rw [heq] at ha
  exact .inr ⟨a, ha, .kept rfl rfl⟩

lemma Evolves.refl (now : ℤ) (h : TurnHandler) : Evolves now h h := evolves_of_allocations rfl

lemma evolves_setAllocation {now : ℤ} {h : TurnHandler} {client : ClientKey} {a' : Allocation}
    (hnew : a'.channelBindings = [] ∨ ∃ a, h.allocations.find client = some a ∧ Changes now a a') :
    Evolves now h (h.setAllocation client a') := by
  intro other b hb
  rw [setAllocation, Dict.find_set] at hb
  split at hb
  next hsame =>
    obtain rfl := Option.some.inj hb
    exact hsame ▸ hnew
  · exact .inr ⟨b, hb, .kept rfl rfl⟩

lemma bindRelaySocket_allocations (canBind : UInt16 → Bool) (n : ℕ) (h : TurnHandler) :
    (bindRelaySocket canBind n h).2.allocations = h.allocations := by
  induction n generalizing h with
  | zero => rfl
  | succ n ih =>
    rw [bindRelaySocket]
    split
    rename_i p h' hpick
    have hsame : h'.allocations = h.allocations := by
      have hpicked := congrArg (fun pick => pick.2.allocations) hpick
      rw [← hpicked]
      split <;> rfl
    split
    · rw [ih, hsame]
    · split
      · exact hsame
      · rw [ih, hsame]

lemma evolves_removeAllocation (now : ℤ) (h : TurnHandler) (client : ClientKey) :
    Evolves now h (h.removeAllocation client) := by
  unfold removeAllocation
  cases h.allocations.find client with
  | none => exact .refl now h
  | some =>
    intro other b hb
    exact .inr ⟨b, (Dict.of_find_erase hb).2, .kept rfl rfl⟩

lemma ownAllocation_find {h : TurnHandler} {auth : Authenticated} {client : ClientKey}
    (hown : h.ownAllocation auth client = .ok a) : h.allocations.find client = some a := by
  unfold ownAllocation at hown
  cases hfind : h.allocations.find client with
  | none => rw [hfind] at hown; cases hown
  | some =>
    rw [hfind] at hown
    dsimp only at hown
    split at hown
    · cases hown
    · rw [Except.ok.inj hown]

structure Outcome (now : ℤ) (h : TurnHandler) (r : TurnHandler × List Output) : Prop where
  evolves : Evolves now h r.1
  relays : ∀ client peer payload, .toPeer client peer payload ∈ r.2 → h.Live now client peer

lemma Evolves.silent {now : ℤ} {h h' : TurnHandler} (hevolves : Evolves now h h') : Outcome now h (h', []) :=
  ⟨hevolves, fun _ _ _ hmem => nomatch hmem⟩

lemma Evolves.reply {now : ℤ} {h h' : TurnHandler} (hevolves : Evolves now h h') (client : ClientKey)
    (data : Bytes) : Outcome now h (h', [.toClient client data]) := by
  refine ⟨hevolves, fun _ _ _ hmem => ?_⟩
  cases mem_singleton.mp hmem

lemma Outcome.silent {now : ℤ} {h : TurnHandler} : Outcome now h (h, []) := (Evolves.refl now h).silent

lemma Outcome.reply {now : ℤ} {h : TurnHandler} (client : ClientKey) (data : Bytes) :
    Outcome now h (h, [.toClient client data]) := (Evolves.refl now h).reply client data

variable (env : Env) (msg : StunMessage) (client : ClientKey) (raw : Bytes) (now : ℤ)

lemma outcome_allocate (sink : ClientSink) (raw : Bytes) :
    Outcome env.now h (h.handleAllocateRequest suite env msg client sink raw) := by
  unfold handleAllocateRequest
  split
  · exact .reply _ _
  · split
    · exact .reply _ _
    · dsimp only
      have hbind := bindRelaySocket_allocations env.canBind (min ((h.maxPort - h.minPort).toNat + 1) 256) h
      split
      next heq =>
        rw [heq] at hbind
        exact (evolves_of_allocations hbind).reply _ _
      next heq =>
        rw [heq] at hbind
        apply Evolves.reply
        intro other b hb
        rw [setAllocation, Dict.find_set] at hb
        split at hb
        · obtain rfl := Option.some.inj hb
          exact .inl rfl
        · rw [hbind] at hb
          exact .inr ⟨b, hb, .kept rfl rfl⟩

lemma outcome_refresh : Outcome env.now h (h.handleRefreshRequest suite env msg client raw) := by
  unfold handleRefreshRequest
  split
  · exact .reply _ _
  · split
    · exact .reply _ _
    next a hown =>
      apply Evolves.reply
      split
      · exact evolves_removeAllocation _ _ _
      · exact evolves_setAllocation (.inr ⟨a, ownAllocation_find hown, .kept rfl rfl⟩)

lemma outcome_createPermission : Outcome env.now h (h.handleCreatePermission suite env msg client raw) := by
  unfold handleCreatePermission
  split
  · exact .reply _ _
  · dsimp only
    split
    · exact .reply _ _
    · split
      · exact .reply _ _
      next a hown =>
        split
        · exact .reply _ _
        · have hnew : Changes env.now a _ := .permitted (msg.getAllXorAddresses .xorPeerAddress)
          split <;>
          next heq =>
            rw [heq] at hnew
            exact (evolves_setAllocation (.inr ⟨a, ownAllocation_find hown, hnew⟩)).reply _ _

lemma outcome_channelBind : Outcome env.now h (h.handleChannelBind suite env msg client raw) := by
  unfold handleChannelBind
  split
  · exact .reply _ _
  · dsimp only
    split
    next number peer _ _ =>
      split
      · exact .reply _ _
      · split
        · exact .reply _ _
        next a hown =>
          split
          · exact .reply _ _
          · have hnew : Changes env.now a _ := .bound number peer
            split <;>
            next heq =>
              rw [heq] at hnew
              exact (evolves_setAllocation (.inr ⟨a, ownAllocation_find hown, hnew⟩)).reply _ _
    · exact .reply _ _

lemma outcome_sendIndication : Outcome env.now h (h.handleSendIndication env msg client) := by
  unfold handleSendIndication
  split
  · split
    · exact .silent
    · split
      · exact .silent
      next a hfind =>
        split
        · exact .silent
        next hlive =>
          refine ⟨evolves_setAllocation (.inr ⟨a, hfind, .kept rfl rfl⟩), fun client' peer payload hmem => ?_⟩
          obtain ⟨rfl, rfl, -⟩ : client' = client ∧ peer = _ ∧ payload = _ := by simpa using hmem
          exact ⟨a, hfind, by simpa using hlive⟩
  · exact .silent

lemma outcome_stunMessage (src : SocketAddr) (sink : ClientSink) (raw : Bytes) :
    Outcome env.now h (h.handleStunMessage suite env msg src sink raw) := by
  unfold handleStunMessage
  split
  · exact .silent
  · split
    · exact .reply _ _
    · exact outcome_allocate _ _ _ _ _ _
    · exact outcome_refresh _ _ _ _ _
    · exact outcome_createPermission _ _ _ _ _
    · exact outcome_channelBind _ _ _ _ _
    · exact outcome_sendIndication _ _ _ _
    · exact .silent

lemma evolves_taskEnds (h : TurnHandler) (port : UInt16) : Evolves now h (h.taskEnds port) := by
  unfold taskEnds
  split
  · exact .refl now h
  · exact evolves_of_allocations rfl

lemma outcome_peerDatagram (port : UInt16) (peer : SocketAddr) (data : Bytes) :
    Outcome env.now h (h.handlePeerDatagram suite env port peer data) := by
  unfold handlePeerDatagram
  split
  · exact .silent
  · split
    · exact .silent
    · split
      · exact (evolves_taskEnds _ _ _).silent
      next a hfind =>
        split
        · exact .silent
        · apply Evolves.reply
          exact evolves_setAllocation (.inr ⟨a, hfind, .kept rfl rfl⟩)

lemma evolves_cleanup : Evolves now h (h.cleanupExpired now) := by
  intro client a ha
  rw [cleanupExpired, Dict.find_filterValues] at ha
  obtain ⟨hfind, -⟩ := Option.filter_eq_some_iff.mp ha
  exact .inr ⟨a, hfind, .kept rfl rfl⟩

lemma outcome_step {h : TurnHandler} {env : Env} {e : Event} (hdata : channelData e = none) :
    Outcome env.now h (h.step suite env e) := by
  cases e with
  | datagram =>
    rw [channelData] at hdata
    split at hdata
    · cases hdata
    next hchannel =>
      rw [step, if_neg hchannel]
      split
      · exact .silent
      · split
        · exact .silent
        · exact outcome_stunMessage _ _ _ _ _ _
  | tcpFrame =>
    rw [channelData] at hdata
    split at hdata
    · cases hdata
    next hchannel =>
      rw [step, if_neg hchannel]
      split
      · exact .silent
      · exact outcome_stunMessage _ _ _ _ _ _
  | peerDatagram => exact outcome_peerDatagram _ _ _ _ _
  | tcpClosed => exact (evolves_removeAllocation _ _ _).silent
  | taskEnds => exact (evolves_taskEnds _ _ _).silent
  | cleanup => exact (evolves_cleanup _ _).silent

variable (suite : TurnSuite) (h : TurnHandler)

lemma evolves_step (env : Env) (e : Event) : Evolves env.now h (h.step suite env e).1 := by
  cases hdata : channelData e with
  | none => exact (outcome_step hdata).evolves
  | some =>
    rw [step_channelData hdata, handleChannelData_eq]
    split
    · exact .refl _ h
    next a b hnamed => exact evolves_setAllocation (.inr ⟨a, (namedBinding_spec hnamed).1, .kept rfl rfl⟩)

lemma relaysLive_iff_guarded (step : Env × Event) : h.RelaysLive suite step ↔ h.Guarded step := by
  obtain ⟨env, e⟩ := step
  cases hdata : channelData e with
  | none =>
    constructor
    · intro _ client data a b hsome
      rw [hdata] at hsome
      cases hsome
    · exact fun _ => (outcome_step hdata).relays
  | some frame =>
    obtain ⟨client, data⟩ := frame
    have hstep : h.step suite env e = h.handleChannelData env data client := step_channelData hdata
    rw [handleChannelData_eq] at hstep
    constructor
    · intro hlive client' data' a b hsome hnamed
      obtain ⟨rfl, rfl⟩ := Prod.mk.inj (Option.some.inj (hdata.symm.trans hsome))
      have hfind := (namedBinding_spec hnamed).1
      rw [hnamed] at hstep
      obtain ⟨a', hfind', hlive'⟩ := hlive client b.peerAddr _ (by rw [hstep]; exact mem_singleton_self _)
      obtain rfl := Option.some.inj (hfind.symm.trans hfind')
      exact hlive'
    · intro hguarded client' peer payload hmem
      rw [hstep] at hmem
      cases hnamed : h.namedBinding env.now client data with
      | none => rw [hnamed] at hmem; cases hmem
      | some ab =>
        obtain ⟨a, b⟩ := ab
        rw [hnamed] at hmem
        obtain ⟨rfl, rfl, -⟩ : client' = client ∧ peer = b.peerAddr ∧ payload = _ := by simpa using hmem
        exact ⟨a, (namedBinding_spec hnamed).1, hguarded _ _ a b hdata hnamed⟩

end TurnHandler

namespace Allocation

def outlives : ℤ := seconds (channelLifetimeSecs - permissionLifetimeSecs)

def Permitted (t : ℤ) (a : Allocation) : Prop :=
  ∀ b ∈ a.channelBindings, b.expiresAt ≤ t + seconds channelLifetimeSecs ∧
    (b.expiresAt - outlives ≤ t ∨
      ∃ exp, a.permissions.find b.peerAddr.ip = some exp ∧ b.expiresAt - outlives ≤ exp)

variable {t : ℤ} {a : Allocation} {b : ChannelBinding} {peer : SocketAddr} {bs : List ChannelBinding} {now : ℤ}

lemma Permitted.prune (h : a.Permitted t) (hle : t ≤ now) : (a.prune now).Permitted now := by
  intro b hb
  obtain ⟨hend, hperm⟩ := h b (mem_filter.mp hb).1
  refine ⟨by omega, ?_⟩
  obtain hold | ⟨exp, hfind, hexp⟩ := hperm
  · exact .inl (by omega)
  · by_cases hlive : now < exp
    · refine .inr ⟨exp, ?_, hexp⟩
      rw [Allocation.prune, Dict.find_filterValues, hfind]
      simp [hlive]
    · exact .inl (by omega)

lemma Permitted.permit (h : a.Permitted now) (ip : IpAddr) : (a.permit ip now).Permitted now := by
  intro b hb
  obtain ⟨hend, hperm⟩ := h b hb
  refine ⟨hend, ?_⟩
  by_cases hip : b.peerAddr.ip = ip
  · refine .inr ⟨now + seconds permissionLifetimeSecs, by simp [Allocation.permit, hip], ?_⟩
    simp only [outlives, seconds, channelLifetimeSecs, permissionLifetimeSecs] at hend ⊢
    omega
  · refine hperm.imp_right fun ⟨exp, hfind, hexp⟩ => ⟨exp, ?_, hexp⟩
    simp [Allocation.permit, hip, hfind]

lemma Permitted.addPermission (h : a.Permitted t) (hle : t ≤ now) (ip : IpAddr) :
    (a.addPermission ip now).2.Permitted now := by
  unfold Allocation.addPermission
  dsimp only
  split
  · exact h.prune hle
  · exact (h.prune hle).permit ip

lemma Permitted.addPermissions (h : a.Permitted t) (hle : t ≤ now) (peers : List SocketAddr) :
    (a.addPermissions now peers).2.Permitted now ∨ (a.addPermissions now peers).2 = a := by
  induction peers generalizing t a with
  | nil => exact .inr rfl
  | cons peer peers ih =>
    left
    have hone := h.addPermission hle peer.ip
    rw [addPermissions]
    split
    next heq =>
      rw [heq] at hone
      exact hone
    next a' heq =>
      rw [heq] at hone
      obtain hmore | hsame := ih hone (le_refl now)
      · exact hmore
      · rw [hsame]
        exact hone

variable {number : UInt16}

lemma mem_renew {expiresAt : ℤ} (h : b ∈ renew number expiresAt bs) :
    b ∈ bs ∨ ∃ b' ∈ bs, b'.number = number ∧ b = { b' with expiresAt := expiresAt } := by
  induction bs with
  | nil => cases h
  | cons b₀ bs ih =>
    rw [renew] at h
    split at h
    next hnumber =>
      obtain rfl | h := mem_cons.mp h
      · exact .inr ⟨b₀, mem_cons_self, hnumber, rfl⟩
      · exact .inl (mem_cons_of_mem _ h)
    · obtain rfl | h := mem_cons.mp h
      · exact .inl mem_cons_self
      · exact (ih h).imp (mem_cons_of_mem _) fun ⟨b', hb', hrest⟩ => ⟨b', mem_cons_of_mem _ hb', hrest⟩

lemma peerAddr_of_conflict (h : conflict number peer bs = none) (hb : b ∈ bs)
    (hnumber : b.number = number) : b.peerAddr = peer := by
  induction bs with
  | nil => cases hb
  | cons b₀ bs ih =>
    rw [conflict] at h
    split at h
    · cases h
    next hnone =>
      split at h
      · cases h
      · obtain rfl | hb := mem_cons.mp hb
        · by_contra hpeer
          exact hnone ⟨hnumber, hpeer⟩
        · exact ih h hb

lemma permitted_permit_bound (h : a.Permitted now)
    (hbs : ∀ b ∈ bs, b ∈ a.channelBindings ∨ (b.peerAddr = peer ∧ b.expiresAt = now + seconds channelLifetimeSecs)) :
    (({ a with channelBindings := bs } : Allocation).permit peer.ip now).Permitted now := by
  intro b hb
  obtain hold | ⟨rfl, hend⟩ := hbs b hb
  · exact (h.permit peer.ip) b hold
  · refine ⟨by omega, .inr ⟨now + seconds permissionLifetimeSecs, by simp [permit], ?_⟩⟩
    simp only [outlives, seconds, channelLifetimeSecs, permissionLifetimeSecs] at hend ⊢
    omega

lemma Permitted.addChannelBinding (h : a.Permitted t) (hle : t ≤ now) (number : UInt16)
    (peer : SocketAddr) : (a.addChannelBinding number peer now).2.Permitted now := by
  have hpruned := h.prune hle
  unfold Allocation.addChannelBinding
  dsimp only
  split
  · exact hpruned
  next hfree =>
    split
    · apply permitted_permit_bound hpruned
      intro b hb
      obtain hold | ⟨b', hb', hnumber, hb⟩ := mem_renew hb
      · exact .inl hold
      · have hpeer := peerAddr_of_conflict hfree hb' hnumber
        exact .inr (hb ▸ ⟨hpeer, rfl⟩)
    · split
      · exact hpruned
      · apply permitted_permit_bound hpruned
        intro b hb
        obtain hold | hnew := mem_append.mp hb
        · exact .inl hold
        · obtain rfl := mem_singleton.mp hnew
          exact .inr ⟨rfl, rfl⟩

lemma Permitted.mono {a' : Allocation} (h : a.Permitted t) (hle : t ≤ now)
    (hperm : a'.permissions = a.permissions) (hbind : a'.channelBindings = a.channelBindings) : a'.Permitted now := by
  intro b hb
  rw [hbind] at hb
  obtain ⟨hend, hlast⟩ := h b hb
  refine ⟨by omega, ?_⟩
  rw [hperm]
  exact hlast.imp_left fun hold => by omega

lemma Permitted.hasPermission (h : a.Permitted t) (hle : t ≤ now) (hb : b ∈ a.channelBindings)
    (hnow : now < b.expiresAt - outlives) : a.hasPermission b.peerAddr.ip now = true := by
  obtain ⟨-, hold | ⟨exp, hfind, hexp⟩⟩ := h b hb
  · omega
  · simp only [Allocation.hasPermission, hfind, decide_eq_true_eq]
    omega

end Allocation

namespace TurnHandler

open Traces
open StunMessage (text)

variable (suite : TurnSuite)

def next (h : TurnHandler) (s : Env × Event) : TurnHandler := (h.step suite s.1 s.2).1

variable {h : TurnHandler}

lemma permitted_step {t : ℤ} (hp : h.allocations.All fun _ a => a.Permitted t) (s : Env × Event) (hle : t ≤ s.1.now)
    : (h.next suite s).allocations.All fun _ a => a.Permitted s.1.now := by
  intro client a' ha'
  obtain hnil | ⟨a, ha, hchange⟩ := evolves_step suite h s.1 s.2 client a' ha'
  · intro b hb
    rw [hnil] at hb
    cases hb
  · have hold := hp client a ha
    cases hchange with
    | kept hperm hbind => exact hold.mono hle hperm hbind
    | permitted peers =>
      obtain hnew | hsame := hold.addPermissions hle peers
      · exact hnew
      · rw [hsame]
        exact hold.mono hle rfl rfl
    | bound number peer => exact hold.addChannelBinding hle number peer

def Recent (h : TurnHandler) (s : Env × Event) : Prop :=
  ∀ client data a b, channelData s.2 = some (client, data) → h.namedBinding s.1.now client data = some (a, b) →
    a.isExpired s.1.now = false ∧ s.1.now < b.expiresAt - Allocation.outlives

lemma guarded_of_recent {t : ℤ} (hp : h.allocations.All fun _ a => a.Permitted t) {run : List (Env × Event)}
    (hclock : (run.map fun s => s.1.now).Pairwise (· ≤ ·)) (hfirst : ∀ s ∈ run, t ≤ s.1.now)
    (hrecent : Meets (next suite) Recent h run) : Meets (next suite) Guarded h run := by
  induction run generalizing t h with
  | nil => trivial
  | cons s run ih =>
    obtain ⟨hle, hfirst⟩ := forall_mem_cons.mp hfirst
    rw [map_cons, pairwise_cons] at hclock
    refine ⟨?_, ih (permitted_step suite hp s hle) hclock.2 ?_ hrecent.2⟩
    · intro client data a b hdata hnamed
      obtain ⟨hlive, hsoon⟩ := hrecent.1 client data a b hdata hnamed
      exact ⟨hlive, (hp client a (namedBinding_spec hnamed).1).hasPermission hle (namedBinding_spec hnamed).2 hsoon⟩
    · intro s' hs'
      exact hclock.1 _ (mem_map_of_mem hs')

lemma meets_relaysLive_iff (h : TurnHandler) (run : List (Env × Event)) :
    Meets (next suite) (RelaysLive suite) h run ↔ Meets (next suite) Guarded h run := by
  have htrue : Meets (next suite) (fun _ _ => True) h run := meets_of_forall (fun _ _ => trivial) h run
  exact meets_iff (fun _ => True) (fun _ _ _ _ => trivial) (fun h s _ _ => relaysLive_iff_guarded suite h s) htrue
    trivial

theorem expired_relay_nothing_iff (realm authSecret : Bytes) (minPort maxPort : UInt16) (maxAllocations : UInt32)
    (allocationLifetime : ℤ) (relay : RelayAddressing) (run : List (Env × Event))
    (hclock : (run.map fun s => s.1.now).Pairwise (· ≤ ·)) :
    let start := new realm authSecret minPort maxPort maxAllocations allocationLifetime relay
    (Meets (next suite) (RelaysLive suite) start run ↔ Meets (next suite) Guarded start run) ∧
    (Meets (next suite) Recent start run → Meets (next suite) Guarded start run) := by
  refine ⟨meets_relaysLive_iff suite _ run, fun hrecent => ?_⟩
  cases run with
  | nil => trivial
  | cons s =>
    apply guarded_of_recent suite (t := s.1.now) _ hclock _ hrecent
    · intro client a ha
      cases ha
    · rw [map_cons, pairwise_cons] at hclock
      intro s' hs'
      obtain rfl | hs' := mem_cons.mp hs'
      · exact le_refl _
      · exact hclock.1 _ (mem_map_of_mem hs')

/-! One client binds a channel at once after its allocation of a minute, and sends on it later. -/

def demoStart : TurnHandler :=
  new (text "r") [] 50000 50000 4 60 ⟨some ⟨.v4 (Vector.replicate 4 0), some (.v4 #v[192, 0, 2, 1])⟩, none⟩

def demoEnv (secs : ℤ) : Env := ⟨seconds secs, fun _ => true, Vector.replicate 12 0⟩

def demoClient : SocketAddr := .v4 #v[198, 51, 100, 7] 4000
def demoPeer : SocketAddr := .v4 #v[203, 0, 113, 9] 5000

def demoRaw (m : StunMessage) : Bytes :=
  let username := text "9999:u"
  let m := ((m.addAttribute .username username).addAttribute .realm (text "r")).addAttribute .nonce
    (demoStart.nonce .masks 0)
  let key := stunLongTermKey .masks username (text "r") (turnPasswordForUsername .masks [] username)
  m.encodeWithIntegrity .masks key

def demoSigned (m : StunMessage) : Event := .datagram demoClient (.v4 #v[192, 0, 2, 1]) (demoRaw m)

def demoAllocate : Event :=
  demoSigned ((StunMessage.new .allocateRequest (Vector.replicate 12 1)).addAttribute .requestedTransport [17, 0, 0, 0])

def demoBind : Event :=
  demoSigned (((StunMessage.new .channelBindRequest (Vector.replicate 12 2)).addAttribute .channelNumber
    [0x40, 0, 0, 0]).addXorAddress .xorPeerAddress demoPeer)

def demoData : Event := .datagram demoClient (.v4 #v[192, 0, 2, 1]) [0x40, 0, 0, 1, 7]

def demoBound : TurnHandler :=
  [(demoEnv 0, demoAllocate), (demoEnv 0, demoBind)].foldl (next .masks) demoStart

theorem channelData_relayed_after_expiry :
    (demoBound.step .masks (demoEnv 90) demoData).2 = [.toPeer ⟨demoClient, .udp⟩ demoPeer [7]] ∧
    (demoBound.allocations.find ⟨demoClient, .udp⟩).map (fun a => a.isExpired (seconds 90)) = some true ∧
    ((demoBound.next .masks (demoEnv 90, demoData)).step .masks (demoEnv 360) demoData).2 =
      [.toPeer ⟨demoClient, .udp⟩ demoPeer [7]] ∧
    ((demoBound.next .masks (demoEnv 90, demoData)).allocations.find ⟨demoClient, .udp⟩).map
      (fun a => a.hasPermission demoPeer.ip (seconds 360)) = some false := by
  decide +kernel

theorem expired_relay_nothing_demo :
    Meets (next .masks) (RelaysLive .masks) demoStart
      [(demoEnv 0, demoAllocate), (demoEnv 0, demoBind), (demoEnv 10, demoData)] := by
  have hmeets := expired_relay_nothing_iff .masks (text "r") [] 50000 50000 4 60
    ⟨some ⟨.v4 (Vector.replicate 4 0), some (.v4 #v[192, 0, 2, 1])⟩, none⟩
    [(demoEnv 0, demoAllocate), (demoEnv 0, demoBind), (demoEnv 10, demoData)] (by decide +kernel)
  apply hmeets.1.mpr
  apply hmeets.2
  have hallocate : channelData demoAllocate = none := by decide +kernel
  have hbind : channelData demoBind = none := by decide +kernel
  have hnamed : (demoBound.namedBinding (seconds 10) ⟨demoClient, .udp⟩ [0x40, 0, 0, 1, 7]).map
      (fun ab => (ab.1.isExpired (seconds 10), decide (seconds 10 < ab.2.expiresAt - Allocation.outlives))) =
      some (false, true) := by decide +kernel
  refine ⟨?_, ?_, ?_, trivial⟩
  · intro client data a b hdata
    cases hdata
  · intro client data a b hdata
    cases hdata
  · intro client data a b hdata hfound
    obtain ⟨rfl, rfl⟩ := Prod.mk.inj (Option.some.inj hdata)
    have hboth := (congrArg (Option.map _) hfound).symm.trans hnamed
    change a.isExpired (seconds 10) = false ∧ seconds 10 < b.expiresAt - Allocation.outlives
    simpa using hboth

end TurnHandler

end AurixVoice.Turn
