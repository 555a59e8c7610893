import AurixVoice.Turn.PermissionTable
import AurixVoice.Turn.Reencode

/-! What a CreatePermission request leaves: the peers added before one is refused stay. -/

namespace AurixVoice.Turn

open StunMessage

namespace Allocation

/-- Granting the peers as a whole, or nothing: they fit, or are all there already, or the table is full
and those in front of the first new one have just been refreshed. -/
def WholeOrNone (a : Allocation) (now : ℤ) (peers : List SocketAddr) : Prop :=
  (a.unexpired now ∪ (peers.map SocketAddr.ip).toFinset).card ≤ maxPermissions ∨
    (∀ peer ∈ peers, peer.ip ∈ a.unexpired now) ∨
    (maxPermissions ≤ (a.unexpired now).card ∧
      ∀ peer ∈ peers.takeWhile fun p => p.ip ∈ a.unexpired now,
        a.permissions.find peer.ip = some (now + seconds permissionLifetimeSecs))

lemma granted_of_full {ips : Finset IpAddr} (hfull : maxPermissions ≤ ips.card) (peers : List SocketAddr) :
    granted ips peers = peers.takeWhile fun p => p.ip ∈ ips := by
  induction peers with
  | nil => rfl
  | cons peer peers ih =>
    rw [granted]
    by_cases hold : peer.ip ∈ ips
    · simp [hold, Finset.insert_eq_of_mem, ih]
    · simp [hold, hfull]

lemma exists_granted_of_room {ips : Finset IpAddr} (hroom : ips.card < maxPermissions) {peers : List SocketAddr}
    (hrefused : granted ips peers ≠ peers) : ∃ peer ∈ granted ips peers, peer.ip ∉ ips := by
  induction peers with
  | nil => exact absurd rfl hrefused
  | cons peer peers ih =>
    rw [granted, if_neg fun h => by omega] at hrefused ⊢
    by_cases hold : peer.ip ∈ ips
    · rw [Finset.insert_eq_of_mem hold] at hrefused ⊢
      obtain ⟨p, hp, hnew⟩ := ih fun heq => hrefused (by rw [heq])
      exact ⟨p, List.mem_cons_of_mem _ hp, hnew⟩
    · exact ⟨peer, List.mem_cons_self, hold⟩

variable (a : Allocation) (now : ℤ) (peers : List SocketAddr)

lemma find_prune_eq_some_iff {now exp : ℤ} (hexp : now < exp) (ip : IpAddr) :
    (a.prune now).permissions.find ip = some exp ↔ a.permissions.find ip = some exp := by
  rw [prune, Dict.find_filterValues, Option.filter_eq_some_iff]
  simp [hexp]

lemma prune_addPermissions_iff :
    ((a.addPermissions now peers).2.prune now).permissions = (a.prune now).permissions ↔
      ∀ peer ∈ granted (a.unexpired now) peers,
        (a.prune now).permissions.find peer.ip = some (now + seconds permissionLifetimeSecs) := by
  have hfind := (find_addPermissions now peers a).2
  constructor
  · intro hsame peer hpeer
    rw [← hsame, hfind, if_pos (List.mem_map_of_mem hpeer)]
  · intro hfresh
    apply Dict.ext
    intro ip
    rw [hfind]
    split
    next hip =>
      obtain ⟨peer, hpeer, rfl⟩ := List.mem_map.mp hip
      exact (hfresh peer hpeer).symm
    · rfl

lemma wholeOrNone_iff :
    a.WholeOrNone now peers ↔ (a.addPermissions now peers).1 = true ∨
      ((a.addPermissions now peers).2.prune now).permissions = (a.prune now).permissions := by
  have hlater : now < now + seconds permissionLifetimeSecs := by
    simp only [seconds, permissionLifetimeSecs]
    omega
  rw [WholeOrNone, ← or_assoc, ← granted_eq_iff, (find_addPermissions now peers a).1, prune_addPermissions_iff]
  by_cases hall : granted (a.unexpired now) peers = peers
  · simp only [hall, true_or]
  · simp only [hall, false_or]
    by_cases hfull : maxPermissions ≤ (a.unexpired now).card
    · simp only [hfull, true_and, granted_of_full hfull, find_prune_eq_some_iff a hlater]
    · simp only [hfull, false_and, false_iff]
      intro hfresh
      obtain ⟨peer, hpeer, hnew⟩ := exists_granted_of_room (not_le.mp hfull) hall
      have hnone := (find_prune a now peer.ip).mpr hnew
      rw [hfresh peer hpeer] at hnone
      cases hnone

end Allocation

namespace TurnHandler

variable (suite : TurnSuite)

def Answers (out : List Output) (t : StunMessageType) : Prop :=
  ∃ client data, out = [.toClient client data] ∧ (getU16 data).1 = t.toU16

lemma answers_encode_iff (client : ClientKey) (m : StunMessage) (t : StunMessageType) :
    Answers [.toClient client (m.encode suite)] t ↔ m.msgType.toU16 = t.toU16 := by
  simp [Answers, encode_eq, header]

lemma answers_encodeWithIntegrity_iff (client : ClientKey) (m : StunMessage) (key : Bytes) (t : StunMessageType) :
    Answers [.toClient client (m.encodeWithIntegrity suite key)] t ↔ m.msgType.toU16 = t.toU16 := by
  simp [Answers, encodeWithIntegrity_eq, header]

/-- Every allocation of the one is an allocation of the other, with the same permissions in force. -/
def SamePermissions (now : ℤ) (h h' : TurnHandler) : Prop :=
  ∀ client, (h'.allocations.find client).map (fun a => (a.prune now).permissions) =
    (h.allocations.find client).map fun a => (a.prune now).permissions

/-- The request is authentic, for the client's own allocation `a`, and its peers are of the family of
the relay address. -/
def Reaches (h : TurnHandler) (env : Env) (msg : StunMessage) (client : ClientKey) (raw : Bytes) (a : Allocation) :
    Prop :=
  ∃ auth, h.authenticate suite env.now msg raw = .ok auth ∧ h.ownAllocation auth client = .ok a ∧
    ∀ peer ∈ msg.getAllXorAddresses .xorPeerAddress, peer.isIpv4 = a.relayAddr.isIpv4

variable {h : TurnHandler} {env : Env} {msg : StunMessage} {client : ClientKey} {raw : Bytes}

section

variable (hreq : msg.msgType = .createPermissionRequest) (key : Bytes) (code : ℕ) (reason : String)
include hreq

lemma answers_sendError_iff (t : StunMessageType) :
    Answers (sendError suite msg client key code reason) t ↔ StunMessageType.createPermissionErrorResponse.toU16 =
      t.toU16 := by
  rw [sendError, answers_encodeWithIntegrity_iff]
  simp only [addSoftware, addErrorCode, addAttribute, hreq]
  rfl

lemma not_answers_sendError : ¬ Answers (sendError suite msg client key code reason) .createPermissionResponse := by
  rw [answers_sendError_iff suite hreq]
  decide

lemma not_answers_sendAuthError (f : AuthFailure) :
    ¬ Answers (h.sendAuthError suite env.now msg client f) .createPermissionResponse := by
  rw [sendAuthError, answers_encode_iff]
  cases f <;>
    simp only [authErrorMessage, addSoftware, addErrorCode, addAttribute, StunMessage.new, hreq] <;>
    decide

end

lemma reaches_unique {a a' : Allocation} (ha : Reaches suite h env msg client raw a)
    (ha' : Reaches suite h env msg client raw a') : a' = a := by
  obtain ⟨auth, hauth, hown, -⟩ := ha
  obtain ⟨auth', hauth', hown', -⟩ := ha'
  obtain rfl : auth = auth' := by simpa [hauth] using hauth'
  simpa [hown] using hown'.symm

lemma handleCreatePermission_refused (hreq : msg.msgType = .createPermissionRequest)
    (hout : ∀ a, Reaches suite h env msg client raw a → msg.getAllXorAddresses .xorPeerAddress = []) :
    (h.handleCreatePermission suite env msg client raw).1 = h ∧
      ¬ Answers (h.handleCreatePermission suite env msg client raw).2 .createPermissionResponse := by
  unfold handleCreatePermission
  split
  · exact ⟨rfl, not_answers_sendAuthError suite hreq _⟩
  next auth hauth =>
    dsimp only
    split
    · exact ⟨rfl, not_answers_sendError suite hreq _ _ _⟩
    next hsome =>
      split
      · exact ⟨rfl, not_answers_sendError suite hreq _ _ _⟩
      next a hown =>
        split
        · exact ⟨rfl, not_answers_sendError suite hreq _ _ _⟩
        next hfamily =>
          have hempty := hout a ⟨auth, hauth, hown, by simpa using hfamily⟩
          exact absurd (by simp [hempty]) hsome

lemma handleCreatePermission_served (hreq : msg.msgType = .createPermissionRequest) {a : Allocation}
    (hreaches : Reaches suite h env msg client raw a) (hsome : msg.getAllXorAddresses .xorPeerAddress ≠ []) :
    (h.handleCreatePermission suite env msg client raw).1 =
        h.setAllocation client (a.addPermissions env.now (msg.getAllXorAddresses .xorPeerAddress)).2 ∧
      (Answers (h.handleCreatePermission suite env msg client raw).2 .createPermissionResponse ↔
        (a.addPermissions env.now (msg.getAllXorAddresses .xorPeerAddress)).1 = true) ∧
      (Answers (h.handleCreatePermission suite env msg client raw).2 .createPermissionErrorResponse ↔
        (a.addPermissions env.now (msg.getAllXorAddresses .xorPeerAddress)).1 = false) := by
  obtain ⟨auth, hauth, hown, hfamily⟩ := hreaches
  have hne : StunMessageType.createPermissionResponse.toU16 ≠ StunMessageType.createPermissionErrorResponse.toU16 := by
    decide
  unfold handleCreatePermission
  simp only [hauth, hown, List.isEmpty_iff, hsome, if_false]
  rw [if_neg (by simpa using hfamily)]
  split
  next heq =>
    rw [heq, confirm, answers_encodeWithIntegrity_iff, answers_encodeWithIntegrity_iff]
    exact ⟨rfl, iff_of_true rfl rfl, iff_of_false hne Bool.noConfusion⟩
  next heq =>
    rw [heq, answers_sendError_iff suite hreq, answers_sendError_iff suite hreq]
    exact ⟨rfl, iff_of_false hne.symm Bool.noConfusion, iff_of_true rfl rfl⟩

lemma samePermissions_setAllocation_iff {now : ℤ} {a a' : Allocation} (ha : h.allocations.find client = some a) :
    SamePermissions now h (h.setAllocation client a') ↔ (a'.prune now).permissions = (a.prune now).permissions := by
  constructor
  · intro hsame
    have hclient := hsame client
    simpa [setAllocation, ha] using hclient
  · intro hsame client'
    by_cases hc : client' = client
    · simp [setAllocation, hc, ha, hsame]
    · simp [setAllocation, hc]

/-- Answered with an error, the request leaves the permissions in force as they were, and with success
every peer has a permission made just now: if and only if the table it comes to can take it as a
whole or takes none of it. -/
theorem createPermission_whole_iff (h : TurnHandler) (env : Env) (msg : StunMessage) (client : ClientKey) (raw : Bytes)
    (hreq : msg.msgType = .createPermissionRequest) :
    ((Answers (h.handleCreatePermission suite env msg client raw).2 .createPermissionErrorResponse →
        SamePermissions env.now h (h.handleCreatePermission suite env msg client raw).1) ∧
      (Answers (h.handleCreatePermission suite env msg client raw).2 .createPermissionResponse →
        ∃ a, (h.handleCreatePermission suite env msg client raw).1.allocations.find client = some a ∧
          ∀ peer ∈ msg.getAllXorAddresses .xorPeerAddress,
            a.permissions.find peer.ip = some (env.now + seconds permissionLifetimeSecs))) ↔
      ∀ a, Reaches suite h env msg client raw a →
        a.WholeOrNone env.now (msg.getAllXorAddresses .xorPeerAddress) := by
  by_cases hout : ∀ a, Reaches suite h env msg client raw a → msg.getAllXorAddresses .xorPeerAddress = []
  · obtain ⟨hstay, hanswer⟩ := handleCreatePermission_refused suite hreq hout
    rw [hstay]
    refine iff_of_true ⟨fun _ _ => rfl, fun hyes => absurd hyes hanswer⟩ fun a ha => ?_
    rw [hout a ha]
    exact .inr (.inl fun peer hpeer => absurd hpeer List.not_mem_nil)
  · push Not at hout
    obtain ⟨a, hreaches, hsome⟩ := hout
    have hfind : h.allocations.find client = some a := ownAllocation_find hreaches.choose_spec.2.1
    have hlater : env.now < env.now + seconds permissionLifetimeSecs := by
      simp only [seconds, permissionLifetimeSecs]
      omega
    obtain ⟨hstate, hsuccess, herror⟩ := handleCreatePermission_served suite hreq hreaches hsome
    have honly : (∀ a, Reaches suite h env msg client raw a →
        a.WholeOrNone env.now (msg.getAllXorAddresses .xorPeerAddress)) ↔
        a.WholeOrNone env.now (msg.getAllXorAddresses .xorPeerAddress) :=
      ⟨fun hall => hall a hreaches, fun hone a' ha' => reaches_unique suite hreaches ha' ▸ hone⟩
    rw [honly, hstate, hsuccess, herror, samePermissions_setAllocation_iff hfind, Allocation.wholeOrNone_iff]
    constructor
    · rintro ⟨hkept, -⟩
      cases hok : (a.addPermissions env.now (msg.getAllXorAddresses .xorPeerAddress)).1 with
      | true => exact .inl rfl
      | false => exact .inr (hkept hok)
    · intro hwhole
      refine ⟨fun hno => hwhole.resolve_left (by simp [hno]), fun hok =>
        ⟨(a.addPermissions env.now (msg.getAllXorAddresses .xorPeerAddress)).2, by simp [setAllocation],
          fun peer hpeer => ?_⟩⟩
      obtain ⟨hall, hpermissions⟩ := Allocation.find_addPermissions env.now (msg.getAllXorAddresses .xorPeerAddress) a
      rw [← Allocation.find_prune_eq_some_iff _ hlater, hpermissions, hall.mp hok, if_pos (List.mem_map_of_mem hpeer)]

/-! A table with room for one more address, and a request for two. -/

def demoAllocated : TurnHandler := demoStart.next .masks (demoEnv 0, demoAllocate)

def demoCrowd : Finset IpAddr := ⟨↑((Allocation.crowd 63).map SocketAddr.ip), Allocation.nodup_crowd (by decide)⟩

def demoCrowded : TurnHandler :=
  { demoAllocated with allocations := demoAllocated.allocations.mapValues fun a =>
      { a with permissions := .tabulate demoCrowd fun _ => some (seconds 300) } }

def demoRequest (peers : List SocketAddr) : StunMessage :=
  peers.foldl (fun m peer => m.addXorAddress .xorPeerAddress peer)
    (StunMessage.new .createPermissionRequest (Vector.replicate 12 3))

def answerType : Output → Option UInt16
  | .toClient _ data => some (getU16 data).1
  | .toPeer .. => none

lemma answers_of_answerType {out : List Output} {t : StunMessageType}
    (h : out.map answerType = [some t.toU16]) : Answers out t := by
  obtain ⟨o, rfl, ho⟩ := List.map_eq_singleton_iff.mp h
  cases o with
  | toClient client data => exact ⟨client, data, rfl, Option.some.inj ho⟩
  | toPeer => cases ho

def newcomer (i : UInt8) : SocketAddr := .v4 #v[203, 0, 113, 100 + i] 5000

theorem refused_request_installs :
    (demoCrowded.step .masks (demoEnv 1) (demoSigned (demoRequest [newcomer 0, newcomer 1]))).2.map
        answerType = [some StunMessageType.createPermissionErrorResponse.toU16] ∧
      (demoCrowded.allocations.find ⟨demoClient, .udp⟩).map (fun a => a.hasPermission (newcomer 0).ip (seconds 1)) =
        some false ∧
      ((demoCrowded.step .masks (demoEnv 1) (demoSigned (demoRequest [newcomer 0, newcomer 1]))).1.allocations.find
        ⟨demoClient, .udp⟩).map (fun a => a.hasPermission (newcomer 0).ip (seconds 1)) = some true := by
  decide +kernel

def demoTwo : Bytes := demoRaw (demoRequest [newcomer 0, newcomer 1])

def demoServed (msg : StunMessage) : TurnHandler × List Output :=
  demoAllocated.handleCreatePermission .masks (demoEnv 1) msg ⟨demoClient, .udp⟩ demoTwo

theorem createPermission_whole_one : ∃ msg, StunMessage.decode demoTwo = .ok msg ∧
    (Answers (demoServed msg).2 .createPermissionErrorResponse →
      SamePermissions (seconds 1) demoAllocated (demoServed msg).1) ∧
    Answers (demoServed msg).2 .createPermissionResponse ∧
    ∃ a, (demoServed msg).1.allocations.find ⟨demoClient, .udp⟩ = some a ∧
      ∀ peer ∈ [newcomer 0, newcomer 1], a.permissions.find peer.ip = some (seconds 301) := by
  have hread : (StunMessage.decode demoTwo).toOption.map (fun msg => (msg.msgType,
      msg.getAllXorAddresses .xorPeerAddress, (demoServed msg).2.map answerType)) =
      some (.createPermissionRequest, [newcomer 0, newcomer 1],
        [some StunMessageType.createPermissionResponse.toU16]) := by decide +kernel
  have hfits : (demoAllocated.allocations.find ⟨demoClient, .udp⟩).all (fun a =>
      (a.unexpired (seconds 1) ∪ ([newcomer 0, newcomer 1].map SocketAddr.ip).toFinset).card ≤ maxPermissions) =
      true := by decide +kernel
  cases hmsg : StunMessage.decode demoTwo with
  | error => simp [hmsg, Except.toOption] at hread
  | ok msg =>
    simp only [hmsg, Except.toOption, Option.map_some, Option.some.injEq, Prod.mk.injEq] at hread
    obtain ⟨htype, hpeers, hanswer⟩ := hread
    have hyes : Answers (demoServed msg).2 .createPermissionResponse := answers_of_answerType hanswer
    have hmain := (createPermission_whole_iff .masks demoAllocated (demoEnv 1) msg ⟨demoClient, .udp⟩ demoTwo
      htype).mpr ?_
    · rw [hpeers] at hmain
      exact ⟨msg, rfl, hmain.1, hyes, hmain.2 hyes⟩
    · rintro a ⟨auth, -, hown, -⟩
      rw [ownAllocation_find hown] at hfits
      rw [hpeers]
      exact .inl (of_decide_eq_true hfits)

end TurnHandler

end AurixVoice.Turn
