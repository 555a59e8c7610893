import AurixVoice.Cascade.Envelope
import AurixVoice.Library.Traces

/-! How often a node takes one envelope while its peers come and go; windows are kept per allowed address. -/

namespace AurixVoice.Cascade

open Protocol (Bytes Suite MediaKeys AurixPacket WideReplayWindow wideReplayWindow)
open SlidingWindow (Fresh)

namespace CascadeNode

variable {Addr : Type} [LinearOrder Addr] (suite : Suite) (form : AddrForm Addr) (keys : MediaKeys)

inductive Event (Addr : Type)
  | setDynamicPeers (peers : Finset Addr)
  | addPeer (channel : ChannelId) (peer : Addr)
  | setChannelRoute (channel : ChannelId) (route : ChannelRoute Addr)
  | received (data : Bytes) (src : Addr)
  | hello (data : Bytes) (remote : Addr)

def step (n : CascadeNode Addr) : Event Addr → CascadeNode Addr
  | .setDynamicPeers peers => n.setDynamicPeers peers
  | .addPeer channel peer => (n.addPeer suite form channel peer).2
  | .setChannelRoute channel route => n.setChannelRoute suite channel route
  | .received data src => (n.receive suite form keys data src).2
  | .hello data remote => (n.authenticateHello suite form keys data remote).2

def envelopeId (data : Bytes) : Option (UInt32 × UInt64) :=
  match envelope suite keys data with
  | .error _ => none
  | .ok e => some (e.header.ssrc, counterOf e.header)

def content (data : Bytes) : Except AurixError (Inbound Addr) :=
  match openEnvelope suite keys data with
  | .error e => .error e
  | .ok (_, sender, hop, inner) => classify form sender hop inner

def checked (n : CascadeNode Addr) : Option (Addr × UInt64) → CascadeNode Addr
  | none => n
  | some (a, counter) =>
    { n with window := Function.update n.window a ((n.window a).checkAndUpdateU64 counter.toNat).2 }

def ifAllowed (n : CascadeNode Addr) (a : Addr) (counter : UInt64) : Option (Addr × UInt64) :=
  if a ∈ n.relay.allowedPeers then some (a, counter) else none

def receivedCheck (n : CascadeNode Addr) (data : Bytes) (src : Addr) : Option (Addr × UInt64) :=
  match openEnvelope suite keys data with
  | .error _ => none
  | .ok (counter, _) => n.ifAllowed src counter

def helloCheck (n : CascadeNode Addr) (data : Bytes) (remote : Addr) : Option (Addr × UInt64) :=
  match openEnvelope suite keys data with
  | .error _ => none
  | .ok (counter, _, _, inner) =>
    match CascadeControl.fromPacket form inner with
    | .ok (some (.hello addr)) =>
      if form.ip (form.canonical remote) ≠ form.ip (form.canonical addr) then none
      else n.ifAllowed (form.canonical addr) counter
    | _ => none

def checks (n : CascadeNode Addr) : Event Addr → Option (Addr × UInt64)
  | .received data src => n.receivedCheck suite keys data src
  | .hello data remote => n.helloCheck suite form keys data remote
  | _ => none

variable {suite form keys}

lemma replayCheck_node (form : AddrForm Addr) (n : CascadeNode Addr) (src : Addr) (counter : UInt64) :
    (n.replayCheck form src counter).2 = n.checked (n.ifAllowed src counter) := by
  unfold replayCheck ifAllowed
  by_cases hsrc : src ∈ n.relay.allowedPeers
  · rw [if_neg (not_not.mpr hsrc), if_pos hsrc]
    dsimp only
    split <;> rfl
  · rw [if_pos hsrc, if_neg hsrc]
    rfl

variable {counter : UInt64} {e : Event Addr} (n : CascadeNode Addr) (data : Bytes) {src : Addr}

lemma replayCheck_ok {n : CascadeNode Addr} :
    (n.replayCheck form src counter).1 = .ok () ↔
      src ∈ n.relay.allowedPeers ∧ ((n.window src).checkAndUpdateU64 counter.toNat).1 = true := by
  unfold replayCheck
  by_cases hsrc : src ∈ n.relay.allowedPeers
  · rw [if_neg (not_not.mpr hsrc)]
    dsimp only
    split <;> simp [*]
  · simp [hsrc]

variable {a : Addr}

lemma ifAllowed_eq_some {n : CascadeNode Addr} {b : Addr} {c : UInt64} :
    n.ifAllowed a counter = some (b, c) ↔ a ∈ n.relay.allowedPeers ∧ a = b ∧ counter = c := by
  unfold ifAllowed
  split <;> simp [*]

lemma authenticate_node (form : AddrForm Addr) (n : CascadeNode Addr) (data : Bytes) (src : Addr) :
    (n.authenticate suite form keys data src).2 = n.checked (n.receivedCheck suite keys data src) := by
  unfold authenticate receivedCheck
  cases openEnvelope suite keys data with
  | error => split <;> rfl
  | ok opened =>
    obtain ⟨counter, sender, hop, inner⟩ := opened
    dsimp only
    by_cases hsrc : src ∈ n.relay.allowedPeers
    · rw [if_neg (not_not.mpr hsrc), ← replayCheck_node form]
      rcases n.replayCheck form src counter with ⟨e | done, n'⟩ <;> rfl
    · rw [if_pos hsrc, ifAllowed, if_neg hsrc]
      rfl

lemma authenticate_ok {n : CascadeNode Addr} {data : Bytes} :
    (∃ inbound, (n.authenticate suite form keys data src).1 = .ok inbound) ↔
      ∃ counter, n.receivedCheck suite keys data src = some (src, counter) ∧
        ((n.window src).checkAndUpdateU64 counter.toNat).1 = true ∧
        ∃ inbound, content suite form keys data = .ok inbound := by
  unfold authenticate receivedCheck content
  cases openEnvelope suite keys data with
  | error => split <;> simp
  | ok opened =>
    obtain ⟨counter, sender, hop, inner⟩ := opened
    have hcheck : (n.replayCheck form src counter).1 = .ok () ↔
        src ∈ n.relay.allowedPeers ∧ ((n.window src).checkAndUpdateU64 counter.toNat).1 = true := replayCheck_ok
    by_cases hsrc : src ∈ n.relay.allowedPeers
    · simp only [hsrc, true_and] at hcheck
      simp only [ifAllowed_eq_some, hsrc, true_and, exists_eq_left', ← hcheck]
      rcases n.replayCheck form src counter with ⟨e | done, n'⟩ <;> simp
    · simp [hsrc, ifAllowed_eq_some]

lemma authenticateHello_node (remote : Addr) :
    (n.authenticateHello suite form keys data remote).2 =
      n.checked (n.helloCheck suite form keys data remote) := by
  unfold authenticateHello helloCheck
  cases openEnvelope suite keys data with
  | error => rfl
  | ok opened =>
    obtain ⟨counter, sender, hop, inner⟩ := opened
    dsimp only
    rcases CascadeControl.fromPacket form inner with e | _ | ⟨nonce | nonce | addr⟩
    · rfl
    · rfl
    · rfl
    · rfl
    · dsimp only
      split
      · rfl
      · rw [← replayCheck_node form]
        rcases n.replayCheck form (form.canonical addr) counter with ⟨e | done, n'⟩ <;> rfl

lemma headerSize_le_of_openEnvelope {data : Bytes} {opened : UInt64 × UserId × Option UInt8 × AurixPacket}
    (h : openEnvelope suite keys data = .ok opened) : Protocol.headerSize ≤ data.length := by
  unfold openEnvelope envelope at h
  split at h
  · cases h
  next e henvelope =>
    split at henvelope
    · cases henvelope
    next p hp =>
      obtain ⟨-, hwire, -⟩ := AurixPacket.wire_of_decodeBounded hp
      rw [← hwire, AurixPacket.length_wire]
      omega

def guards (n : CascadeNode Addr) : Finset Addr × (Addr → WideReplayWindow) := (n.relay.allowedPeers, n.window)

lemma guards_forwardInbound (src : Addr) (inbound : InboundRelay) :
    (n.forwardInbound suite keys src inbound).2.guards = n.guards := by
  unfold forwardInbound
  split
  · rfl
  · split <;> rfl

omit [LinearOrder Addr] in
lemma guards_handleUdpControl (n : CascadeNode Addr) (src : Addr) (control : CascadeControl Addr) :
    (n.handleUdpControl suite form keys src control).2.guards = n.guards := by
  cases control <;> rfl

lemma guards_receive (src : Addr) :
    (n.receive suite form keys data src).2.guards =
      (n.checked (n.receivedCheck suite keys data src)).guards := by
  unfold receive
  by_cases hshort : data.length < Protocol.headerSize
  · -- the loop skips what is too short to be decoded
    rw [if_pos hshort, receivedCheck]
    cases hopen : openEnvelope suite keys data with
    | error => rfl
    | ok => exact absurd (headerSize_le_of_openEnvelope hopen) (not_le.mpr hshort)
  · rw [if_neg hshort, ← authenticate_node form]
    rcases n.authenticate suite form keys data src with ⟨e | inbound | control, n'⟩
    · rfl
    · exact guards_forwardInbound n' src inbound
    · exact guards_handleUdpControl n' src control

lemma guards_setChannelRoute (channel : ChannelId) (route : ChannelRoute Addr) :
    (n.setChannelRoute suite channel route).guards = n.guards := by
  unfold setChannelRoute CascadeRelay.setChannelRoute guards
  dsimp only
  split <;> rfl

lemma guards_addPeer (channel : ChannelId) (peer : Addr) :
    (n.addPeer suite form channel peer).2.guards = n.guards := by
  unfold addPeer
  split <;> rfl

lemma guards_step (he : ∀ peers, e ≠ .setDynamicPeers peers) :
    (n.step suite form keys e).guards = (n.checked (n.checks suite form keys e)).guards := by
  cases e with
  | setDynamicPeers peers => exact absurd rfl (he peers)
  | addPeer channel peer => exact guards_addPeer n channel peer
  | setChannelRoute channel route => exact guards_setChannelRoute n channel route
  | received data src => exact guards_receive n data src
  | hello data remote => exact congrArg guards (authenticateHello_node n data remote)

lemma allowed_of_checks {n : CascadeNode Addr} (h : n.checks suite form keys e = some (a, counter)) :
    a ∈ n.relay.allowedPeers := by
  cases e with
  | setDynamicPeers | addPeer | setChannelRoute => cases h
  | received =>
    simp only [checks, receivedCheck] at h
    split at h
    · cases h
    · obtain ⟨hsrc, rfl, -⟩ := ifAllowed_eq_some.mp h
      exact hsrc
  | hello =>
    simp only [checks, helloCheck] at h
    repeat' split at h
    all_goals try cases h
    obtain ⟨haddr, rfl, -⟩ := ifAllowed_eq_some.mp h
    exact haddr

end CascadeNode

/-- A node with the relay ssrc and counter of every envelope `authenticate` let through, and with the
counters each address got past its window since the address was last allowed. -/
structure Taken (Addr : Type) where
  node : CascadeNode Addr
  accepted : List (UInt32 × UInt64)
  since : Addr → List ℕ

namespace Taken

open CascadeNode

variable {Addr : Type} [LinearOrder Addr] (suite : Suite) (form : AddrForm Addr) (keys : MediaKeys)

def init (staticPeers : Finset Addr) (relaySsrc : UInt32) (secs : UInt64) : Taken Addr :=
  ⟨.new staticPeers relaySsrc secs, [], fun _ => []⟩

def accepts (s : Taken Addr) : Event Addr → Option (UInt32 × UInt64)
  | .received data src =>
    match (s.node.authenticate suite form keys data src).1 with
    | .ok _ => envelopeId suite keys data
    | .error _ => none
  | _ => none

def passed (s : Taken Addr) : Option (Addr × UInt64) → Addr → List ℕ
  | none => s.since
  | some (a, counter) => Function.update s.since a
      (if ((s.node.window a).checkAndUpdateU64 counter.toNat).1 then counter.toNat :: s.since a
      else s.since a)

def recorded (s : Taken Addr) : Event Addr → Addr → List ℕ
  | .setDynamicPeers _ => fun a => if a ∈ s.node.relay.allowedPeers then s.since a else []
  | e => s.passed (s.node.checks suite form keys e)

def step (s : Taken Addr) (e : Event Addr) : Taken Addr where
  node := s.node.step suite form keys e
  accepted := (s.accepts suite form keys e).toList ++ s.accepted
  since := s.recorded suite form keys e

/-- An envelope taken before arrives again with sound content, and the window of the address it comes
from does not cover its counter. -/
def Uncovered (s : Taken Addr) : Event Addr → Prop
  | .received data src => ∃ id ∈ s.accepted, envelopeId suite keys data = some id ∧
      src ∈ s.node.relay.allowedPeers ∧ Fresh wideReplayWindow (s.since src) id.2.toNat ∧
      ∃ inbound, content suite form keys data = .ok inbound
  | _ => False

def Tracked (s : Taken Addr) : Prop :=
  ∀ a ∈ s.node.relay.allowedPeers, WideReplayWindow.sliding.Tracks (s.node.window a) (s.since a)

variable {suite form keys}

omit [LinearOrder Addr] in
lemma tracked_init (staticPeers : Finset Addr) (relaySsrc : UInt32) (secs : UInt64) :
    (init staticPeers relaySsrc secs).Tracked :=
  fun _ _ => SlidingWindow.tracks_nil rfl

variable {s : Taken Addr} {data : Bytes} {counter : UInt64}

lemma Tracked.setDynamicPeers (h : s.Tracked) (peers : Finset Addr) :
    (s.step suite form keys (.setDynamicPeers peers)).Tracked := by
  intro a _
  change WideReplayWindow.sliding.Tracks
    (if a ∈ s.node.relay.allowedPeers then s.node.window a else default)
    (if a ∈ s.node.relay.allowedPeers then s.since a else [])
  split
  next ha => exact h a ha
  · exact SlidingWindow.tracks_nil rfl

lemma Tracked.checked (h : s.Tracked) {check : Option (Addr × UInt64)}
    (hcheck : ∀ a counter, check = some (a, counter) → a ∈ s.node.relay.allowedPeers)
    (ha : a ∈ s.node.relay.allowedPeers) :
    WideReplayWindow.sliding.Tracks ((s.node.checked check).window a) (s.passed check a) := by
  rcases check with _ | ⟨b, counter⟩
  · exact h a ha
  · have hb := (h b (hcheck b counter rfl)).next counter.toNat
    simp only [CascadeNode.checked, passed, Function.update_apply]
    split
    · exact hb
    · exact h a ha

lemma Tracked.step (h : s.Tracked) (e : Event Addr) : (s.step suite form keys e).Tracked := by
  by_cases he : ∃ peers, e = .setDynamicPeers peers
  · obtain ⟨peers, rfl⟩ := he
    exact h.setDynamicPeers peers
  · have he : ∀ peers, e ≠ .setDynamicPeers peers := fun peers hpeers => he ⟨peers, hpeers⟩
    have hguards : (s.node.step suite form keys e).guards =
        (s.node.checked (s.node.checks suite form keys e)).guards := guards_step s.node he
    have hpeers : (s.node.step suite form keys e).relay.allowedPeers = s.node.relay.allowedPeers :=
      (congrArg Prod.fst hguards).trans (by cases s.node.checks suite form keys e <;> rfl)
    have hwindow : (s.node.step suite form keys e).window =
        (s.node.checked (s.node.checks suite form keys e)).window := congrArg Prod.snd hguards
    have hsince : s.recorded suite form keys e = s.passed (s.node.checks suite form keys e) := by
      cases e with
      | setDynamicPeers peers => exact absurd rfl (he peers)
      | addPeer | setChannelRoute | received | hello => rfl
    intro a ha
    have ha : a ∈ s.node.relay.allowedPeers := hpeers ▸ ha
    change WideReplayWindow.sliding.Tracks ((s.node.step suite form keys e).window a)
      (s.recorded suite form keys e a)
    rw [hwindow, hsince]
    exact h.checked (fun b counter hb => allowed_of_checks hb) ha

lemma envelopeId_of_openEnvelope {inner : UserId × Option UInt8 × AurixPacket}
    (h : openEnvelope suite keys data = .ok (counter, inner)) :
    ∃ ssrc, envelopeId suite keys data = some (ssrc, counter) := by
  unfold openEnvelope at h
  unfold envelopeId
  cases he : envelope suite keys data with
  | error => simp [he] at h
  | ok =>
    simp only [he] at h
    split at h
    · cases h
    · obtain ⟨rfl, -⟩ := Prod.mk.inj (Except.ok.inj h)
      exact ⟨_, rfl⟩

lemma receivedCheck_eq_some {n : CascadeNode Addr} :
    n.receivedCheck suite keys data src = some (a, counter) ↔
      src ∈ n.relay.allowedPeers ∧ src = a ∧ ∃ inner, openEnvelope suite keys data = .ok (counter, inner) := by
  unfold receivedCheck
  split
  · simp [*]
  · simp [ifAllowed_eq_some, *]

lemma Tracked.accepts_iff (h : s.Tracked) {id : UInt32 × UInt64} :
    s.accepts suite form keys (.received data src) = some id ↔
      envelopeId suite keys data = some id ∧ src ∈ s.node.relay.allowedPeers ∧
        Fresh wideReplayWindow (s.since src) id.2.toNat ∧
        ∃ inbound, content suite form keys data = .ok inbound := by
  have haccepts : s.accepts suite form keys (.received data src) = some id ↔
      (∃ inbound, (s.node.authenticate suite form keys data src).1 = .ok inbound) ∧
        envelopeId suite keys data = some id := by
    simp only [accepts]
    split <;> simp [*]
  have hfresh : ∀ n, src ∈ s.node.relay.allowedPeers →
      (((s.node.window src).checkAndUpdateU64 n).1 = true ↔ Fresh wideReplayWindow (s.since src) n) :=
    fun n hsrc => (h src hsrc).accept_iff n
  rw [haccepts, authenticate_ok]
  constructor
  · rintro ⟨⟨counter, hcheck, haccept, hcontent⟩, hid⟩
    obtain ⟨hsrc, -, inner, hopen⟩ := receivedCheck_eq_some.mp hcheck
    obtain ⟨ssrc, hssrc⟩ := envelopeId_of_openEnvelope hopen
    obtain rfl : (ssrc, counter) = id := Option.some.inj (hssrc.symm.trans hid)
    exact ⟨hid, hsrc, (hfresh _ hsrc).mp haccept, hcontent⟩
  · rintro ⟨hid, hsrc, hwindow, hcontent⟩
    have hopen : ∃ opened, openEnvelope suite keys data = .ok opened := by
      obtain ⟨inbound, hinbound⟩ := hcontent
      unfold content at hinbound
      split at hinbound
      · cases hinbound
      · exact ⟨_, ‹_›⟩
    obtain ⟨⟨counter, inner⟩, hopen⟩ := hopen
    obtain ⟨ssrc, hssrc⟩ := envelopeId_of_openEnvelope hopen
    obtain rfl : (ssrc, counter) = id := Option.some.inj (hssrc.symm.trans hid)
    exact ⟨⟨counter, receivedCheck_eq_some.mpr ⟨hsrc, rfl, inner, hopen⟩, (hfresh _ hsrc).mpr hwindow, hcontent⟩, hid⟩

lemma Tracked.uncovered_iff (h : s.Tracked) (e : Event Addr) :
    (∀ id ∈ s.accepts suite form keys e, id ∉ s.accepted) ↔ ¬ s.Uncovered suite form keys e := by
  cases e with
  | setDynamicPeers | addPeer | setChannelRoute | hello => simp [accepts, Uncovered]
  | received =>
    simp only [Option.mem_def, h.accepts_iff, Uncovered]
    push Not
    constructor
    · exact fun hnew id hid henvelope hsrc hfresh inbound hinbound =>
        hnew id ⟨henvelope, hsrc, hfresh, inbound, hinbound⟩ hid
    · rintro hnew id ⟨henvelope, hsrc, hfresh, inbound, hinbound⟩ hid
      exact hnew id hid henvelope hsrc hfresh inbound hinbound

theorem accepted_once_iff (suite : Suite) (form : AddrForm Addr) (keys : MediaKeys)
    (staticPeers : Finset Addr) (relaySsrc : UInt32) (secs : UInt64) (es : List (Event Addr)) :
    (es.foldl (step suite form keys) (init staticPeers relaySsrc secs)).accepted.Nodup ↔
      Traces.Meets (step suite form keys) (fun s e => ¬ s.Uncovered suite form keys e)
        (init staticPeers relaySsrc secs) es := by
  have hinit := tracked_init staticPeers relaySsrc secs
  have hall : Traces.Meets (step suite form keys) (fun _ _ => True) (init staticPeers relaySsrc secs) es :=
    Traces.meets_of_forall (fun _ _ => trivial) _ es
  rw [Traces.nodup_iff_meets accepted (accepts suite form keys) (fun _ _ => rfl) List.nodup_nil]
  exact Traces.meets_iff Tracked (fun s e hs _ => hs.step e) (fun s e hs _ => hs.uncovered_iff e) hall hinit

def portForm : AddrForm ℕ where
  new _ port := port.toNat
  ip _ := [10, 0, 0, 1]
  port a := UInt16.ofNat a
  canonical a := a
  display a := toString a

def sampleEnvelope : Bytes :=
  (AurixPacket.relayEnvelope .masks AurixPacket.sampleAudio 9 21474836481 3).sealPacket .masks
    AurixPacket.sampleKeys

def peerReturns : List (Event ℕ) :=
  [.setDynamicPeers {7}, .received sampleEnvelope 7, .received sampleEnvelope 7, .setDynamicPeers ∅,
    .setDynamicPeers {7}, .received sampleEnvelope 7]

theorem returning_peer_replayed :
    (peerReturns.foldl (step .masks portForm AurixPacket.sampleKeys) (init ∅ 1 0)).accepted =
      [(9, 21474836481), (9, 21474836481)] := by
  decide +kernel

end Taken

end AurixVoice.Cascade
