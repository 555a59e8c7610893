import AurixVoice.Media.BoundAddresses

/-! What a node that requires packet authentication may take for the traffic of a session. -/

namespace AurixVoice.Media

open Protocol MediaNode MediaSession Function Option

variable (suite : Suite) {Addr : Type}

structure Guard where
  keys : MediaKeys
  replay : ReplayWindow
  lastBindMs : Int64

namespace MediaSession

def guard (s : MediaSession Addr) : Guard := ⟨s.keys, s.replay, s.lastBindMs⟩

def BoundTo (s : MediaSession Addr) : PacketSource Addr → Prop
  | .udp addr => s.endpoint = some (.udp addr)
  | .tunnel t => ∃ bound, s.endpoint = some (.tunnel bound) ∧ bound.id = t.id
  | .link l => s.endpoint = some (.link l)

end MediaSession

variable [DecidableEq Addr]

namespace MediaNode

def guard (n : MediaNode Addr) (id : SessionId) : Option Guard :=
  (n.sessionsById.find id).map MediaSession.guard

variable {s : MediaSession Addr}

omit [DecidableEq Addr] in
lemma guard_eq_some {n : MediaNode Addr} {id : SessionId}
    (h : n.sessionsById.find id = some s) : n.guard id = some s.guard := by
  rw [guard, h, map_some]

omit [DecidableEq Addr] in
lemma guard_of_set {n n' : MediaNode Addr} {id : SessionId}
    (hset : n'.sessionsById = n.sessionsById.set id s) (other : SessionId) :
    n'.guard other = if other = id then some s.guard else n.guard other := by
  rw [guard, hset, Dict.find_set]
  split
  · rfl
  · rfl

variable {user : UserId} {g : Guard} (n : MediaNode Addr)

lemma unregister_rest (old : Option Addr) :
    (n.unregister old).sessionsById = n.sessionsById ∧ (n.unregister old).requirePacketAuth = n.requirePacketAuth := by
  cases old <;> exact ⟨rfl, rfl⟩

/-- A session that moves keeps all but its endpoint. -/
lemma moved_spec (id : SessionId) (s : MediaSession Addr) (source : PacketSource Addr) :
    ∃ s', s'.guard = s.guard ∧ (n.moved id s source).sessionsById = n.sessionsById.set id s' ∧
      (n.moved id s source).requirePacketAuth = n.requirePacketAuth := by
  cases source with
  | udp addr =>
    exact ⟨{ s with endpoint := some (.udp addr) }, rfl,
      unregister_rest (n.put id _) ((releaseDisplaced s.endpoint).filter (· ≠ addr))⟩
  | tunnel t => exact ⟨(s.setTunnel t).2, rfl, unregister_rest (n.put id _) (s.setTunnel t).1⟩
  | link l =>
    have hlink : (s.setLink l).2.guard = s.guard := by
      unfold setLink
      split <;> rfl
    refine ⟨_, hlink, ?_⟩
    rw [moved, (unregister_rest _ _).1, (unregister_rest _ _).2]
    unfold claim
    split <;> exact ⟨rfl, rfl⟩

/-- Nothing that guards a session changes but by the session's end. -/
def Keeps (n n' : MediaNode Addr) : Prop :=
  n'.requirePacketAuth = n.requirePacketAuth ∧ ∀ id g, n'.guard id = some g → n.guard id = some g

omit [DecidableEq Addr] in
lemma Keeps.refl : Keeps n n := ⟨rfl, fun _ _ h => h⟩

omit [DecidableEq Addr] in
lemma keeps_of_set {n n' : MediaNode Addr} {id : SessionId} {old : MediaSession Addr}
    (hfound : n.sessionsById.find id = some old) (hsame : s.guard = old.guard)
    (hset : n'.sessionsById = n.sessionsById.set id s) (hauth : n'.requirePacketAuth = n.requirePacketAuth) :
    Keeps n n' := by
  refine ⟨hauth, fun other g hg => ?_⟩
  rw [guard_of_set hset] at hg
  split at hg
  next h => rwa [h, guard_eq_some hfound, ← hsame]
  · exact hg

lemma keeps_teardownSession (id : SessionId) : Keeps n (n.teardownSession id) := by
  unfold teardownSession
  split
  · exact .refl n
  · refine ⟨(unregister_rest _ _).2, fun other g hg => ?_⟩
    rw [guard, (unregister_rest _ _).1, Dict.find_erase] at hg
    split at hg
    · cases hg
    · exact hg

lemma keeps_replaceUser (user : UserId) : Keeps n (n.replaceUser user) := by
  unfold replaceUser
  split
  · exact .refl n
  · exact keeps_teardownSession _ _

lemma keeps_destroySession (id : SessionId) : Keeps n (n.destroySession id) := by
  unfold destroySession
  split
  · exact .refl n
  · exact keeps_teardownSession _ _

lemma keeps_dropEndpoint (id : SessionId) : Keeps n (n.dropEndpoint id) := by
  unfold dropEndpoint
  split
  · exact .refl n
  next session hfound =>
    obtain ⟨hset, hauth⟩ := unregister_rest (n.put id session.clearEndpoint.2) session.clearEndpoint.1
    exact keeps_of_set (s := session.clearEndpoint.2) hfound rfl hset hauth

def creates (n : MediaNode Addr) : Event Addr → Option SessionId
  | .createSession id user _ _ room =>
    if room && ((n.replaceUser user).sessionsById.find id).isNone then some id else none
  | .adoptSession id user _ _ room =>
    if (n.sessionsById.find id).isNone && (room && ((n.replaceUser user).sessionsById.find id).isNone) then
      some id
    else none
  | .datagram _ _ _ | .destroySession _ | .timeout _ | .closeTunnel _ | .linkClosed _ | .attachWebrtc _
  | .webrtcConnected _ _ | .webrtcDisconnected _ => none

def GuardFrom (n : MediaNode Addr) (created : Option SessionId) (id : SessionId) (g : Guard) : Prop :=
  (created = some id ∧ g.replay = default) ∨ (created ≠ some id ∧ n.guard id = some g)

omit [DecidableEq Addr] in
lemma GuardFrom.kept {n : MediaNode Addr} {created : Option SessionId} {id : SessionId}
    (hcreated : created = none) (h : n.guard id = some g) : GuardFrom n created id g := by
  refine .inr ⟨?_, h⟩
  rw [hcreated]
  exact (some_ne_none id).symm

lemma guard_createSession {n : MediaNode Addr} {id other : SessionId} {ssrc : UInt32} {mediaKey : Vector UInt8 32}
    {room : Bool} (h : (n.createSession suite id user ssrc mediaKey room).guard other = some g) :
    GuardFrom n (n.creates (.createSession id user ssrc mediaKey room)) other g := by
  have hreplaced := (keeps_replaceUser n user).2 other g
  simp only [createSession] at h
  by_cases hfree : (room && ((n.replaceUser user).sessionsById.find id).isNone) = true
  · have hcreate : ¬ (!room || ((n.replaceUser user).sessionsById.find id).isSome) = true := by
      simpa [isNone_iff_eq_none] using hfree
    have hcreated : n.creates (.createSession id user ssrc mediaKey room) = some id := if_pos hfree
    rw [if_neg hcreate, guard_of_set rfl] at h
    split at h
    next hid =>
      obtain rfl := some.inj h
      exact .inl ⟨hid ▸ hcreated, rfl⟩
    next hid =>
      refine .inr ⟨?_, hreplaced h⟩
      rw [hcreated]
      exact fun heq => hid (some.inj heq).symm
  · have hkeep : (!room || ((n.replaceUser user).sessionsById.find id).isSome) = true := by
      rw [Bool.and_eq_true, not_and, Bool.not_eq_true, isNone_eq_false_iff] at hfree
      cases room with
      | false => rfl
      | true => simpa using hfree rfl
    have hcreated : n.creates (.createSession id user ssrc mediaKey room) = none := if_neg hfree
    rw [if_pos hkeep] at h
    exact .kept hcreated (hreplaced h)

lemma requirePacketAuth_createSession (id : SessionId) (user : UserId) (ssrc : UInt32) (mediaKey : Vector UInt8 32)
    (room : Bool) : (n.createSession suite id user ssrc mediaKey room).requirePacketAuth = n.requirePacketAuth := by
  rw [← (keeps_replaceUser n user).1]
  simp only [createSession]
  split <;> rfl

variable {e : Event Addr}

lemma guard_step {n : MediaNode Addr} (hcontrol : ∀ data source now, e ≠ .datagram data source now) :
    (n.step suite e).requirePacketAuth = n.requirePacketAuth ∧
      ∀ id g, (n.step suite e).guard id = some g → GuardFrom n (n.creates e) id g := by
  have hkept : ∀ {n'}, n.creates e = none → Keeps n n' → n'.requirePacketAuth = n.requirePacketAuth ∧
      ∀ id g, n'.guard id = some g → GuardFrom n (n.creates e) id g :=
    fun hnone h => ⟨h.1, fun id g hg => .kept hnone (h.2 id g hg)⟩
  cases e with
  | datagram data source now => exact absurd rfl (hcontrol data source now)
  | createSession id user ssrc mediaKey room =>
    exact ⟨requirePacketAuth_createSession suite n id user ssrc mediaKey room, fun _ _ => guard_createSession suite⟩
  | adoptSession id user ssrc mediaKey room =>
    simp only [step, adoptSession]
    cases hfound : n.sessionsById.find id with
    | some => exact hkept (by simp [creates, hfound]) (.refl n)
    | none =>
      have hcreates : n.creates (.adoptSession id user ssrc mediaKey room) =
          n.creates (.createSession id user ssrc mediaKey room) := by
        simp [creates, hfound]
      rw [hcreates]
      exact ⟨requirePacketAuth_createSession suite n id user ssrc mediaKey room, fun _ _ => guard_createSession suite⟩
  | destroySession id | timeout id => exact hkept rfl (keeps_destroySession n id)
  | closeTunnel tunnel =>
    apply hkept rfl
    simp only [step, closeTunnel]
    split
    · exact .refl n
    next session hfound =>
      have hsame : (session.clearTunnel tunnel).guard = session.guard := by
        unfold clearTunnel
        split <;> rfl
      exact keeps_of_set hfound hsame rfl rfl
  | linkClosed link =>
    apply hkept rfl
    simp only [step, linkClosed]
    split
    · exact .refl n
    split
    · exact .refl n
    next session hfound =>
      have hsame : (session.clearLink link).guard = session.guard := by
        unfold clearLink
        split <;> rfl
      exact keeps_of_set hfound hsame rfl rfl
  | attachWebrtc id | webrtcDisconnected id => exact hkept rfl (keeps_dropEndpoint n id)
  | webrtcConnected id remote =>
    apply hkept rfl
    simp only [step, webrtcConnected]
    split
    · exact .refl n
    next session hfound =>
      obtain ⟨s', hsame, hset, hauth⟩ := moved_spec n id session (.udp remote)
      exact keeps_of_set hfound hsame hset hauth

end MediaNode

structure History where
  accepted : List ℕ
  binds : List Int64

structure Recorded (Addr : Type) where
  node : MediaNode Addr
  history : SessionId → History

namespace Recorded

open MediaNode (Event)

def init (requirePacketAuth : Bool) : Recorded Addr := ⟨.init requirePacketAuth, fun _ => ⟨[], []⟩⟩

def record (s : Recorded Addr) (e : Event Addr) : SessionId → History :=
  match e with
  | .datagram data source now =>
    match (s.node.routeFrom suite data source now).1 with
    | .ok (.bound id unixMs) =>
      update s.history id { s.history id with binds := unixMs :: (s.history id).binds }
    | .ok (.passedOn id packet) =>
      update s.history id
        { s.history id with accepted := packet.header.sequence.toNat :: (s.history id).accepted }
    | .error _ => s.history
  | e =>
    match s.node.creates e with
    | some id => update s.history id ⟨[], []⟩
    | none => s.history

def step (s : Recorded Addr) (e : Event Addr) : Recorded Addr := ⟨s.node.step suite e, s.record suite e⟩

structure Remembered (s : Recorded Addr) : Prop where
  auth : s.node.requirePacketAuth = true
  tracks : ∀ id g, s.node.guard id = some g → ReplayWindow.sliding.Tracks g.replay (s.history id).accepted
  binds : ∀ id g, s.node.guard id = some g → ∀ m ∈ (s.history id).binds, m ≤ g.lastBindMs

variable {suite} {s : Recorded Addr} {data : Bytes} {source : PacketSource Addr} {n : MediaNode Addr} {now : Int64}

lemma Remembered.passedOn (h : s.Remembered) {id : SessionId} {opened : AurixPacket}
    (hrouted : (s.node.routeFrom suite data source now).1 = .ok (.passedOn id opened)) :
    ∃ packet session, AurixPacket.decode suite data = .ok packet ∧
      s.node.sessionsById.find id = some session ∧ s.node.Claims id session source ∧
      packet.openPacket suite session.keys = (true, opened) ∧
      SlidingWindow.Fresh ReplayWindow.sliding.width (s.history id).accepted opened.header.sequence.toNat ∧
      (s.node.routeFrom suite data source now).2 =
        s.node.put id (session.acceptSequence opened.header.sequence).2 := by
  obtain ⟨packet, hdecode, session, hresolve, hpassed⟩ := routeFrom_passedOn suite hrouted
  obtain ⟨hfound, hclaims⟩ := resolve_ok hresolve
  rcases hpassed with ⟨hopens, haccepts, hnext⟩ | ⟨hplain, -⟩
  · have htracks := h.tracks id session.guard (guard_eq_some hfound)
    exact ⟨packet, session, hdecode, hfound, hclaims, hopens, (htracks.accept_iff _).mp haccepts, hnext⟩
  · rw [h.auth] at hplain
    cases hplain

lemma Remembered.bound (h : s.Remembered) {id : SessionId} {unixMs : Int64}
    (hrouted : (s.node.routeFrom suite data source now).1 = .ok (.bound id unixMs)) :
    ∃ packet session, AurixPacket.decode suite data = .ok packet ∧
      s.node.sessionsById.find id = some session ∧ packet.verifyAuth suite session.keys = true ∧
      (∀ m ∈ (s.history id).binds, m < unixMs) ∧
      (s.node.routeFrom suite data source now).2 =
        s.node.moved id { session with lastBindMs := unixMs } source := by
  obtain ⟨packet, session, hdecode, haccepts, hmoved⟩ := routeFrom_bound suite hrouted
  refine ⟨packet, session, hdecode, haccepts.found, haccepts.verified, ?_, hmoved⟩
  intro m hm
  have hle := h.binds id session.guard (guard_eq_some haccepts.found) m hm
  exact Int64.lt_of_le_of_lt hle haccepts.newer

def Fits (g : Guard) (history : History) : Prop :=
  ReplayWindow.sliding.Tracks g.replay history.accepted ∧ ∀ m ∈ history.binds, m ≤ g.lastBindMs

omit [DecidableEq Addr] in
lemma remembered_iff : s.Remembered ↔
    s.node.requirePacketAuth = true ∧ ∀ id g, s.node.guard id = some g → Fits g (s.history id) :=
  ⟨fun h => ⟨h.auth, fun id g hg => ⟨h.tracks id g hg, h.binds id g hg⟩⟩,
    fun h => ⟨h.1, fun id g hg => (h.2 id g hg).1, fun id g hg => (h.2 id g hg).2⟩⟩

omit [DecidableEq Addr] in
lemma Remembered.of_update {s' : Recorded Addr} (h : s.Remembered) (id : SessionId) (guard : Guard)
    (history : History) (hauth : s'.node.requirePacketAuth = s.node.requirePacketAuth)
    (hguard : ∀ other, s'.node.guard other = if other = id then some guard else s.node.guard other)
    (hhistory : s'.history = update s.history id history) (hfits : Fits guard history) : s'.Remembered := by
  obtain ⟨hrequired, hold⟩ := remembered_iff.mp h
  refine remembered_iff.mpr ⟨hauth.trans hrequired, fun other g hg => ?_⟩
  rw [hguard] at hg
  rw [hhistory]
  split at hg
  next heq => rwa [heq, update_self, ← some.inj hg]
  next hne =>
    rw [update_of_ne hne]
    exact hold other g hg

lemma Remembered.datagram (h : s.Remembered) (data : Bytes) (source : PacketSource Addr) (now : Int64) :
    (s.step suite (.datagram data source now)).Remembered := by
  cases hrouted : (s.node.routeFrom suite data source now).1 with
  | error =>
    have hstep : s.step suite (.datagram data source now) = s := by
      simp [step, record, hrouted, MediaNode.step, routeFrom_error suite hrouted]
    rwa [hstep]
  | ok routed =>
    cases routed with
    | bound id unixMs =>
      obtain ⟨packet, session, -, hfound, -, hnewer, hmoved⟩ := h.bound hrouted
      obtain ⟨s', hsame, hset, hauth⟩ := moved_spec s.node id { session with lastBindMs := unixMs } source
      rw [← hmoved] at hset hauth
      refine h.of_update id ⟨session.keys, session.replay, unixMs⟩
        ⟨(s.history id).accepted, unixMs :: (s.history id).binds⟩ hauth ?_ ?_ ⟨?_, ?_⟩
      · intro other
        rw [step, MediaNode.step, guard_of_set hset, hsame]
        rfl
      · simp [step, record, hrouted]
      · exact h.tracks id session.guard (guard_eq_some hfound)
      · intro m hm
        rcases List.mem_cons.mp hm with rfl | hm
        · exact Int64.le_refl _
        · exact Int64.le_of_lt (hnewer m hm)
    | passedOn id opened =>
      obtain ⟨packet, session, -, hfound, -, -, hfresh, hnext⟩ := h.passedOn hrouted
      have hold := guard_eq_some hfound
      refine h.of_update id
        ⟨session.keys, (session.replay.checkAndUpdate opened.header.sequence).2, session.lastBindMs⟩
        ⟨opened.header.sequence.toNat :: (s.history id).accepted, (s.history id).binds⟩ ?_ ?_ ?_ ⟨?_, ?_⟩
      · rw [step, MediaNode.step, hnext, put]
      · exact guard_of_set (congrArg sessionsById hnext)
      · simp only [step, record, hrouted]
      · exact ((h.tracks id session.guard hold).accept hfresh).2
      · exact h.binds id session.guard hold

lemma Remembered.control (h : s.Remembered)
    (hcontrol : ∀ data source now, e ≠ .datagram data source now) : (s.step suite e).Remembered := by
  have hhistory : (s.step suite e).history = match s.node.creates e with
      | some id => update s.history id ⟨[], []⟩
      | none => s.history := by
    cases e with
    | datagram data source now => exact absurd rfl (hcontrol data source now)
    | _ => rfl
  have hkept : ∀ id, s.node.creates e ≠ some id → (s.step suite e).history id = s.history id := by
    intro id hne
    rw [hhistory]
    cases hcreates : s.node.creates e with
    | none => rfl
    | some =>
      rw [hcreates] at hne
      exact update_of_ne (fun heq => hne (congrArg some heq.symm)) _ _
  have hreset : ∀ id, s.node.creates e = some id → (s.step suite e).history id = ⟨[], []⟩ := by
    intro id hcreates
    rw [hhistory, hcreates]
    exact update_self _ _ _
  obtain ⟨hrequired, hfits⟩ := remembered_iff.mp h
  obtain ⟨hauth, hfrom⟩ := guard_step suite hcontrol
  refine remembered_iff.mpr ⟨hauth.trans hrequired, fun id g hguard => ?_⟩
  obtain ⟨hcreates, hreplay⟩ | ⟨hne, hold⟩ := hfrom id g hguard
  · rw [hreset id hcreates, Fits, hreplay]
    exact ⟨SlidingWindow.tracks_nil rfl, fun m hm => absurd hm List.not_mem_nil⟩
  · rw [hkept id hne]
    exact hfits id g hold

lemma Remembered.step (h : s.Remembered) (e : Event Addr) : (s.step suite e).Remembered := by
  by_cases hdatagram : ∃ data source now, e = .datagram data source now
  · obtain ⟨data, source, now, rfl⟩ := hdatagram
    exact h.datagram data source now
  · exact h.control fun data source now heq => hdatagram ⟨data, source, now, heq⟩

omit [DecidableEq Addr] in
lemma remembered_init : (init true : Recorded Addr).Remembered where
  auth := rfl
  tracks _ _ hg := nomatch hg
  binds _ _ hg := nomatch hg

lemma remembered_run (es : List (Event Addr)) : (es.foldl (step suite) (init true)).Remembered :=
  Traces.foldl_invariant Remembered (fun _ e h => h.step e) es remembered_init

lemma node_run (requirePacketAuth : Bool) (es : List (Event Addr)) :
    (es.foldl (step suite) (init requirePacketAuth)).node =
      es.foldl (MediaNode.step suite) (.init requirePacketAuth) :=
  (List.foldl_hom node fun _ _ => rfl).symm

omit [DecidableEq Addr] in
lemma boundTo_of_claims (hsound : s.node.view.Sound) {id : SessionId}
    {session : MediaSession Addr} (hfound : s.node.sessionsById.find id = some session) :
    ∀ {source}, s.node.Claims id session source → session.BoundTo source := by
  intro source hclaims
  cases source with
  | udp addr =>
    obtain ⟨found, hfound', hend⟩ := view_addr.mp (hsound addr id hclaims)
    obtain rfl := some.inj (hfound.symm.trans hfound')
    exact hend
  | tunnel t =>
    obtain ⟨bound, hbound, hid⟩ := map_eq_some_iff.mp hclaims.2
    exact ⟨bound, endpoint_of_tunnel hbound, hid⟩
  | link l => exact MediaSession.endpoint_of_link hclaims.2

lemma verifyAuth_of_openPacket {p q : AurixPacket} {keys : MediaKeys}
    (h : p.openPacket suite keys = (true, q)) : p.verifyAuth suite keys = true := by
  by_contra hnot
  rw [AurixPacket.openPacket_of_not_verifyAuth (Bool.not_eq_true _ ▸ hnot)] at h
  cases h

lemma bound_of_path_change {id : SessionId} {session session' : MediaSession Addr}
    (hfound : n.sessionsById.find id = some session)
    (hnext : (n.routeFrom suite data source now).2.sessionsById.find id = some session')
    (hmoves : session'.endpoint ≠ session.endpoint) :
    ∃ unixMs, (n.routeFrom suite data source now).1 = .ok (.bound id unixMs) := by
  cases hrouted : (n.routeFrom suite data source now).1 with
  | error =>
    rw [routeFrom_error suite hrouted, hfound] at hnext
    exact absurd (congrArg endpoint (some.inj hnext)).symm hmoves
  | ok routed =>
    cases routed with
    | bound other unixMs =>
      obtain ⟨packet, moved, -, -, hstep⟩ := routeFrom_bound suite hrouted
      by_cases hid : id = other
      · exact ⟨unixMs, by rw [hid]⟩
      · obtain ⟨s', -, hset, -⟩ := moved_spec n other { moved with lastBindMs := unixMs } source
        rw [hstep, hset, Dict.find_set, if_neg hid, hfound] at hnext
        exact absurd (congrArg endpoint (some.inj hnext)).symm hmoves
    | passedOn =>
      obtain ⟨packet, -, passed, hresolve, hpassed | ⟨-, hsame⟩⟩ := routeFrom_passedOn suite hrouted
      · have hother := (resolve_ok hresolve).1
        rw [hpassed.2.2, put, Dict.find_set] at hnext
        split at hnext
        next hid =>
          rw [hid, hother] at hfound
          obtain rfl := some.inj hfound
          exact absurd (congrArg endpoint (some.inj hnext)).symm hmoves
        · rw [hfound] at hnext
          exact absurd (congrArg endpoint (some.inj hnext)).symm hmoves
      · rw [hsame, hfound] at hnext
        exact absurd (congrArg endpoint (some.inj hnext)).symm hmoves

def plainAudio : AurixPacket := .new (.new .audio 0 0 5) [1]

def boundSession : List (Event ℕ) :=
  [.createSession 1 11 5 (sampleKey 1) true,
    .datagram (bindPacket .masks 1 5 100 0 (.derive .masks (sampleKey 1).toList)) (.udp 10) 100]

end Recorded

end AurixVoice.Media
