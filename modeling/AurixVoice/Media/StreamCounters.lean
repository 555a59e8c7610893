import AurixVoice.Media.SealedStreams

namespace AurixVoice.Media

open Protocol Traces Function Forwarded Option List
open UInt32 (ofNat)

variable (suite : Suite)

lemma Delivery.nonceFields_parts (d : Delivery) (p : AurixPacket) :
    (d.parts p).1.nonceFields = p.header.nonceFields := by
  unfold parts
  split
  · rfl
  · split
    · rw [PacketHeader.nonceFields_setAudioCodec, AurixPacket.nonceFields_downlinkPartsWith]
    · rw [AurixPacket.nonceFields_downlinkPartsWith]

lemma loudest_nodup (heard : List (ChannelId × Delivery)) : ((loudest heard).map fun c => c.2.receiver).Nodup := by
  let best := heard.foldl keepLoudest .empty
  have hbest : best.All fun id c => c.2.receiver = id := by
    apply foldl_invariant (fun d : Dict SessionId (ChannelId × Delivery) => d.All fun id c => c.2.receiver = id)
    · intro d c hd
      unfold keepLoudest
      split
      · split
        · exact hd
        · exact hd.set rfl
      · exact hd.set rfl
    · intro id c hc
      cases hc
  have hkeys : (loudest heard).map (fun c => c.2.receiver) = best.entries.map Prod.fst := by
    rw [loudest, List.map_map]
    apply map_congr_left
    rintro ⟨id, c⟩ hc
    exact hbest id c (Dict.mem_entries.mp hc)
  rw [hkeys]
  exact best.nodup_entries_keys

structure Label where
  stream : Stream
  packetType : PacketType
  ssrc : UInt32
  sequence : UInt32
  timestamp : UInt32

def Label.nonceFields (l : Label) : PacketType × UInt32 × UInt32 × UInt32 :=
  (l.packetType, l.ssrc, l.sequence, l.timestamp)

variable {h : PacketHeader} {l : Label}

lemma Label.ssrc_eq (heq : h.nonceFields = l.nonceFields) : h.ssrc = l.ssrc :=
  congrArg (fun f => f.2.1) heq

lemma Label.sequence_eq (heq : h.nonceFields = l.nonceFields) : h.sequence = l.sequence :=
  congrArg (fun f => f.2.2.1) heq

namespace StreamEvent

def receivers : StreamEvent → List SessionId
  | .routeAudio _ _ _ receivers | .routeRelayed _ _ receivers =>
    receivers.deliveries.map Delivery.receiver
  | .routeWebrtc _ _ _ _ _ heard => (loudest heard).map fun c => c.2.receiver
  | .inject _ _ _ receivers toSelf => (receivers.deliveries ++ toSelf.toList).map Delivery.receiver
  | .emitMix id _ _ _ _ => [id]
  | .create _ _ _ _ | .close _ | .clientAudio _ _ | .clientOther _ | .relay _ _ _ => []

/-- A participant who hears its own voice in the channel does not ask for it a second time. -/
def Once : StreamEvent → Prop
  | .inject _ _ _ receivers toSelf => ∀ d ∈ toSelf, d.receiver ∉ receivers.deliveries.map Delivery.receiver
  | _ => True

instance : DecidablePred Once := by
  intro e
  unfold Once
  split <;> infer_instance

lemma Once.nodup {e : StreamEvent} (h : e.Once) : e.receivers.Nodup := by
  cases e with
  | routeAudio sender packet payload receivers | routeRelayed origin packet receivers =>
    exact receivers.nodup
  | routeWebrtc sender rtpSeq rtpTime payload e2ee heard => exact loudest_nodup heard
  | emitMix id => exact nodup_singleton id
  | create | close | clientAudio | clientOther | relay => exact nodup_nil
  | inject channel source payload receivers toSelf =>
    cases toSelf with
    | none =>
      simp only [StreamEvent.receivers, toList_none, append_nil]
      exact receivers.nodup
    | some own =>
      simp only [StreamEvent.receivers, toList_some, map_append, map_cons, map_nil]
      apply nodup_append.mpr
      refine ⟨receivers.nodup, nodup_singleton _, ?_⟩
      intro id hid other hother heq
      obtain rfl := mem_singleton.mp hother
      exact h own rfl (heq ▸ hid)

end StreamEvent

namespace Remote

structure Counted (r : Remote) : Prop where
  numbered : r.forwarded.Numbered
  nodup : r.inFlight.Nodup
  sent : ∀ x ∈ r.inFlight, x ∈ r.forwarded.given

variable {r : Remote} {frame : AudioFrame} {channels : ℕ}

lemma mem_inFlight_send {x : UInt32} (h : x ∈ (r.send frame channels).inFlight) :
    x = r.forwarded.number frame ∨ x ∈ r.inFlight :=
  (mem_append.mp h).imp_left eq_of_mem_replicate

lemma Counted.send (hr : r.Counted) (hslot : r.forwarded.HasSlot frame) (hone : channels ≤ 1) :
    (r.send frame channels).Counted where
  numbered := step_numbered _ _ hr.numbered hslot
  nodup := by
    refine nodup_append.mpr ⟨nodup_replicate.mpr hone, hr.nodup, ?_⟩
    intro x hx y hy heq
    have hgiven := hr.sent y hy
    rw [← heq, eq_of_mem_replicate hx] at hgiven
    exact number_not_given hr.numbered hslot hgiven
  sent x hx := by
    simp only [Remote.send, given_step]
    rcases mem_inFlight_send hx with rfl | hx
    · exact mem_cons_self
    · exact mem_cons_of_mem _ (hr.sent x hx)

lemma Counted.receive (hr : r.Counted) (number : UInt32) : (r.receive number).Counted where
  numbered := hr.numbered
  nodup := hr.nodup.erase number
  sent x hx := hr.sent x (mem_of_mem_erase hx)

def Routed (r : Remote) (seq : UInt32) : Prop := seq ∈ r.forwarded.given ∧ seq ∉ r.inFlight

variable {seq : UInt32}

lemma Routed.send (h : r.Routed seq) (hr : r.Counted) (hslot : r.forwarded.HasSlot frame) :
    (r.send frame channels).Routed seq := by
  refine ⟨?_, fun hmem => ?_⟩
  · simp only [Remote.send, given_step]
    exact mem_cons_of_mem _ h.1
  · rcases mem_inFlight_send hmem with rfl | hmem
    · exact number_not_given hr.numbered hslot h.1
    · exact h.2 hmem

lemma Routed.receive (h : r.Routed seq) (number : UInt32) : (r.receive number).Routed seq :=
  ⟨h.1, fun hmem => h.2 (mem_of_mem_erase hmem)⟩

end Remote

namespace StreamNode

def label (n : StreamNode) : StreamEvent → Option Label
  | .clientAudio key packet =>
    let u := n.clients key
    some ⟨.uplink, packet.header.packetType, u.ssrc, u.next, packet.header.timestamp⟩
  | .routeAudio id packet _ _ => (n.senderOf id packet).map fun s =>
      ⟨.forwarded s.key, packet.header.packetType, packet.header.ssrc,
        (n.senders s.key).number (.uplink packet.header.sequence packet.header.timestamp),
        packet.header.timestamp⟩
  | .routeWebrtc id rtpSeq rtpTime _ _ _ => (n.sessions.find id).map fun s =>
      ⟨.forwarded s.key, .audio, s.ssrc, (n.senders s.key).number (webrtcFrame rtpSeq rtpTime), rtpTime⟩
  | .routeRelayed origin packet _ =>
    if packet.header.sequence ∈ (n.remotes origin).inFlight then
      some ⟨.relayed origin, packet.header.packetType, packet.header.ssrc, packet.header.sequence,
        packet.header.timestamp⟩
    else none
  | .inject channel source _ _ _ =>
    let v := source.stream suite channel
    some ⟨.voice v, .audio, v.1, (n.engine.clock v).sequence, (n.engine.clock v).timestamp⟩
  | .emitMix id channel _ _ _ => (n.sessions.find id).map fun _ =>
      ⟨.mix channel, .audio, channelMixSsrc suite channel, n.hub.sequence id channel,
        n.hub.sequence id channel * frameSamples⟩
  | .create _ _ _ _ | .close _ | .clientOther _ | .relay _ _ _ => none

def keyOf (n : StreamNode) (id : SessionId) : Option ℕ := (n.sessions.find id).map KeyedSession.key

def keys (n : StreamNode) : StreamEvent → List ℕ
  | .clientAudio key _ => if key < n.drawn then [key] else []
  | e => e.receivers.filterMap n.keyOf

def Handed (n : StreamNode) (key : ℕ) (seq : UInt32) : Stream → Prop
  | .uplink => ∃ i < (n.clients key).sent, seq = (n.clients key).start + ofNat i
  | .forwarded sender => sender < n.drawn ∧ seq ∈ (n.senders sender).given
  | .voice v => ∃ i < n.voiced v, seq = ofNat i
  | .mix channel => ∀ id s, n.sessions.find id = some s → s.key = key →
      ∃ i < n.mixed (id, channel), seq = ofNat i
  | .relayed origin => (n.remotes origin).Routed seq

/-- No counter wraps, a late frame has a timestamp that is missing, and another node relays a frame
here for one channel. -/
def NumberFree (n : StreamNode) : StreamEvent → Prop
  | .clientAudio key _ => (n.clients key).sent < 2 ^ 32
  | .routeAudio id packet _ _ => ∀ s ∈ n.senderOf id packet,
      (n.senders s.key).HasSlot (.uplink packet.header.sequence packet.header.timestamp)
  | .routeWebrtc id rtpSeq rtpTime _ _ _ => ∀ s ∈ n.sessions.find id,
      (n.senders s.key).HasSlot (webrtcFrame rtpSeq rtpTime)
  | .relay origin frame channels => (n.remotes origin).forwarded.HasSlot frame ∧ channels ≤ 1
  | .inject channel source _ _ _ => n.voiced (source.stream suite channel) < 2 ^ 32
  | .emitMix id channel _ _ _ => n.mixed (id, channel) < 2 ^ 32
  | .create _ _ _ _ | .close _ | .clientOther _ | .routeRelayed _ _ _ => True

instance (n : StreamNode) : DecidablePred (n.NumberFree suite) := by
  intro e
  unfold NumberFree
  split <;> infer_instance

structure Counted (n : StreamNode) : Prop where
  key_lt : ∀ id s, n.sessions.find id = some s → s.key < n.drawn
  key_inj : ∀ id s id' s', n.sessions.find id = some s → n.sessions.find id' = some s' →
    s.key = s'.key → id = id'
  numbered : ∀ key, (n.senders key).Numbered
  relayed : ∀ origin, (n.remotes origin).Counted
  voiced : ∀ v, (n.engine.clock v).sequence = ofNat (n.voiced v)
  mixed : ∀ id channel, n.hub.sequence id channel = ofNat (n.mixed (id, channel))

variable {suite} {n : StreamNode} {s : KeyedSession} {e : StreamEvent} {x : SealedPacket} {seq : UInt32}
  {id : SessionId} {packet : AurixPacket}

lemma senderOf_eq_some (h : n.senderOf id packet = some s) : n.sessions.find id = some s :=
  (filter_eq_some_iff.mp h).1

variable {key : ℕ}

lemma keyOf_eq_some (h : n.keyOf id = some key) : ∃ s, n.sessions.find id = some s ∧ s.key = key :=
  map_eq_some_iff.mp h

lemma Counted.keyOf_inj (hn : n.Counted) {id' : SessionId} (h : n.keyOf id = some key)
    (h' : n.keyOf id' = some key) : id = id' := by
  obtain ⟨s, hs, hkey⟩ := keyOf_eq_some h
  obtain ⟨s', hs', hkey'⟩ := keyOf_eq_some h'
  exact hn.key_inj id s id' s' hs hs' (hkey.trans hkey'.symm)

lemma Counted.nodup_keys (hn : n.Counted) (he : e.Once) : (n.keys e).Nodup := by
  unfold keys
  split
  · split
    · exact nodup_singleton _
    · exact nodup_nil
  · apply Nodup.filterMap _ he.nodup
    intro id id' key h h'
    exact hn.keyOf_inj h h'

lemma Counted.lt_of_mem_keys (hn : n.Counted) (h : key ∈ n.keys e) : key < n.drawn := by
  unfold keys at h
  split at h
  · split at h
    next hlt => exact mem_singleton.mp h ▸ hlt
    · cases h
  · obtain ⟨id, -, hid⟩ := mem_filterMap.mp h
    obtain ⟨s, hs, rfl⟩ := keyOf_eq_some hid
    exact hn.key_lt id s hs

lemma map_key_deliver (n : StreamNode) (stream : Stream) (copies : List (AurixPacket × Delivery)) :
    (n.deliver stream copies).map SealedPacket.key =
      (copies.map fun c => c.2.receiver).filterMap n.keyOf := by
  rw [deliver, map_filterMap, filterMap_map]
  apply filterMap_congr
  intro c hc
  simp only [sealFor, Option.map_map, comp_apply, keyOf]
  rfl

lemma map_receiver_copies (receivers : FanOut) (p : AurixPacket) :
    (receivers.copies p).map (fun c => c.2.receiver) = receivers.deliveries.map Delivery.receiver := by
  rw [FanOut.copies, List.map_map]
  rfl

lemma map_key_emitted (n : StreamNode) (e : StreamEvent) :
    List.Sublist ((n.emitted suite e).map SealedPacket.key) (n.keys e) := by
  cases e with
  | create | close | clientOther | relay => exact nil_sublist _
  | clientAudio =>
    simp only [emitted, keys]
    split
    · exact Sublist.refl _
    · exact nil_sublist _
  | routeAudio =>
    simp only [emitted]
    split
    · exact nil_sublist _
    · rw [map_key_deliver, map_receiver_copies]
      exact Sublist.refl _
  | routeWebrtc =>
    simp only [emitted]
    split
    · exact nil_sublist _
    · rw [map_key_deliver, List.map_map]
      exact Sublist.refl _
  | routeRelayed =>
    simp only [emitted]
    split
    · rw [map_key_deliver, map_receiver_copies]
      exact Sublist.refl _
    · exact nil_sublist _
  | inject =>
    rw [emitted, map_key_deliver, map_append, map_receiver_copies, List.map_map]
    simp only [keys, StreamEvent.receivers, map_append]
    exact Sublist.refl _
  | emitMix id =>
    simp only [emitted, keys, StreamEvent.receivers]
    split
    · exact nil_sublist _
    next s hs =>
      have hkey : n.keyOf id = some s.key := congrArg (Option.map _) hs
      simp [hkey]

lemma key_mem_keys (h : x ∈ n.emitted suite e) : x.key ∈ n.keys e :=
  (n.map_key_emitted e).subset (mem_map_of_mem h)

variable {stream : Stream}

lemma mem_deliver {copies : List (AurixPacket × Delivery)}
    {nonce : PacketType × UInt32 × UInt32 × UInt32} (hcopies : ∀ c ∈ copies, c.1.header.nonceFields = nonce)
    (h : x ∈ n.deliver stream copies) : x.stream = stream ∧ x.header.nonceFields = nonce := by
  obtain ⟨c, hc, hseal⟩ := mem_filterMap.mp h
  obtain ⟨r, hr, rfl⟩ := map_eq_some_iff.mp hseal
  exact ⟨rfl, (c.2.nonceFields_parts c.1).trans (hcopies c hc)⟩

lemma mem_deliver_copies {receivers : FanOut} {p : AurixPacket} (h : x ∈ n.deliver stream (receivers.copies p)) :
    x.stream = stream ∧ x.header.nonceFields = p.header.nonceFields := by
  apply mem_deliver _ h
  intro c hc
  obtain ⟨d, -, rfl⟩ := mem_map.mp hc
  rfl

lemma nonceFields_routed (p : AurixPacket) (number : UInt32) :
    (p.routed number).header.nonceFields =
      (p.header.packetType, p.header.ssrc, number, p.header.timestamp) := by
  have hnonce := p.nonceFields_takeAudioLevel
  simp only [PacketHeader.nonceFields, Prod.mk.injEq] at hnonce
  obtain ⟨htype, hssrc, -, hts⟩ := hnonce
  simp [PacketHeader.nonceFields, AurixPacket.routed, htype, hssrc, hts]

lemma nonceFields_routedAudio (n : StreamNode) (s : KeyedSession) (packet : AurixPacket) (payload : Option Bytes) :
    (n.routedAudio s packet payload).header.nonceFields =
      (packet.header.packetType, packet.header.ssrc,
        (n.senders s.key).number (.uplink packet.header.sequence packet.header.timestamp),
        packet.header.timestamp) := by
  cases payload with
  | none => exact nonceFields_routed _ _
  | some => exact (PacketHeader.nonceFields_setAudioCodec _ _).trans (nonceFields_routed _ _)

lemma nonceFields_webrtcAudio (n : StreamNode) (s : KeyedSession) (rtpSeq : Option UInt32)
    (rtpTime : UInt32) (payload : Bytes) (e2ee : Bool) (channel : ChannelId) :
    (n.webrtcAudio suite s rtpSeq rtpTime payload e2ee channel).header.nonceFields =
      (.audio, s.ssrc, (n.senders s.key).number (webrtcFrame rtpSeq rtpTime), rtpTime) := by
  cases e2ee <;> rfl

lemma mem_emitted (h : x ∈ n.emitted suite e) :
    ∃ l, n.label suite e = some l ∧ x.stream = l.stream ∧ x.header.nonceFields = l.nonceFields := by
  cases e with
  | create | close | clientOther | relay => cases h
  | clientAudio =>
    simp only [emitted] at h
    split at h
    · obtain rfl := mem_singleton.mp h
      exact ⟨_, rfl, rfl, rfl⟩
    · cases h
  | routeAudio =>
    simp only [emitted] at h
    split at h
    · cases h
    next s hs =>
      obtain ⟨hstream, hnonce⟩ := mem_deliver_copies h
      rw [nonceFields_routedAudio] at hnonce
      exact ⟨_, congrArg (Option.map _) hs, hstream, hnonce⟩
  | routeWebrtc id rtpSeq rtpTime payload e2ee =>
    simp only [emitted] at h
    split at h
    · cases h
    next s hs =>
      refine ⟨_, congrArg (Option.map _) hs, mem_deliver ?_ h⟩
      intro c hc
      obtain ⟨d, -, rfl⟩ := mem_map.mp hc
      exact n.nonceFields_webrtcAudio s rtpSeq rtpTime payload e2ee d.1
  | routeRelayed origin packet =>
    simp only [emitted] at h
    split at h
    next hflight =>
      obtain ⟨hstream, hnonce⟩ := mem_deliver_copies h
      exact ⟨_, if_pos hflight, hstream, hnonce.trans packet.nonceFields_takeAudioLevel⟩
    · cases h
  | inject =>
    refine ⟨_, rfl, mem_deliver ?_ h⟩
    intro c hc
    rcases mem_append.mp hc with hc | hc
    all_goals
      obtain ⟨d, -, rfl⟩ := mem_map.mp hc
      rfl
  | emitMix id channel codec =>
    simp only [emitted] at h
    split at h
    · cases h
    next s hs =>
      obtain rfl := mem_singleton.mp h
      refine ⟨_, congrArg (Option.map _) hs, rfl, ?_⟩
      exact (AurixPacket.nonceFields_downlinkPartsWith _ _ _ _).trans (PacketHeader.nonceFields_setAudioCodec _ codec)

lemma eq_of_mem_keys {sender : ℕ} (h : key ∈ n.keys (.clientAudio sender packet)) : key = sender := by
  simp only [keys] at h
  split at h
  · exact mem_singleton.mp h
  · cases h

lemma find_of_mem_keys {channel : ChannelId} {codec : AudioCodec} {frame : Bytes}
    {volume : Float32} (h : key ∈ n.keys (.emitMix id channel codec frame volume)) :
    ∃ s, n.sessions.find id = some s ∧ s.key = key := by
  obtain ⟨other, hother, hkey⟩ := mem_filterMap.mp h
  obtain rfl := mem_singleton.mp hother
  exact keyOf_eq_some hkey

lemma ofNat_inj {i j : ℕ} (hi : i < 2 ^ 32) (hj : j < 2 ^ 32) (h : ofNat i = ofNat j) : i = j := by
  have hzero : (0 : UInt32) + ofNat i = 0 + ofNat j := by rw [h]
  exact number_inj hi hj hzero

lemma label_routeRelayed {origin : ℕ} {receivers : FanOut}
    (hl : n.label suite (.routeRelayed origin packet receivers) = some l) :
    packet.header.sequence ∈ (n.remotes origin).inFlight ∧
      l.stream = .relayed origin ∧ l.sequence = packet.header.sequence := by
  simp only [label] at hl
  split at hl
  next hflight =>
    obtain rfl := some.inj hl
    exact ⟨hflight, rfl, rfl⟩
  · cases hl

lemma not_handed (hn : n.Counted) (hfree : n.NumberFree suite e) (hl : n.label suite e = some l)
    (hkey : key ∈ n.keys e) : ¬ n.Handed key l.sequence l.stream := by
  cases e with
  | create | close | clientOther | relay => cases hl
  | clientAudio =>
    obtain rfl := some.inj hl
    obtain rfl := eq_of_mem_keys hkey
    rintro ⟨i, hi, heq⟩
    have hfree : (n.clients key).sent < 2 ^ 32 := hfree
    have := number_inj hfree (by omega) heq
    omega
  | routeAudio id =>
    obtain ⟨s, hs, rfl⟩ := map_eq_some_iff.mp hl
    exact fun hhanded => number_not_given (hn.numbered s.key) (hfree s hs) hhanded.2
  | routeWebrtc id =>
    obtain ⟨s, hs, rfl⟩ := map_eq_some_iff.mp hl
    exact fun hhanded => number_not_given (hn.numbered s.key) (hfree s hs) hhanded.2
  | routeRelayed =>
    obtain ⟨hflight, hstream, hseq⟩ := label_routeRelayed hl
    rw [hstream, hseq]
    exact fun hhanded => hhanded.2 hflight
  | inject channel source =>
    obtain rfl := some.inj hl
    simp only [Handed, hn.voiced]
    rintro ⟨i, hi, heq⟩
    have hfree : n.voiced (source.stream suite channel) < 2 ^ 32 := hfree
    have := ofNat_inj hfree (by omega) heq
    omega
  | emitMix id channel =>
    obtain ⟨s, hs, rfl⟩ := map_eq_some_iff.mp hl
    obtain ⟨t, ht, htkey⟩ := find_of_mem_keys hkey
    simp only [Handed, hn.mixed]
    intro hhanded
    obtain ⟨i, hi, heq⟩ := hhanded id t ht htkey
    have hfree : n.mixed (id, channel) < 2 ^ 32 := hfree
    have := ofNat_inj hfree (by omega) heq
    omega

variable {frame : AudioFrame}

lemma Counted.numberFor (hn : n.Counted) (hslot : (n.senders key).HasSlot frame) :
    (n.numberFor key frame).Counted := by
  refine ⟨hn.key_lt, hn.key_inj, fun other => ?_, hn.relayed, hn.voiced, hn.mixed⟩
  simp only [StreamNode.numberFor, update_apply]
  split
  · exact step_numbered _ _ (hn.numbered key) hslot
  · exact hn.numbered other

lemma Handed.numberFor (h : n.Handed key seq stream) (sender : ℕ) (frame : AudioFrame) :
    (n.numberFor sender frame).Handed key seq stream := by
  cases stream with
  | forwarded other =>
    refine ⟨h.1, ?_⟩
    simp only [StreamNode.numberFor, update_apply]
    split
    next heq =>
      rw [given_step, ← heq]
      exact mem_cons_of_mem _ h.2
    · exact h.2
  | uplink | voice | mix | relayed => exact h

lemma handed_numberFor (hs : s.key < n.drawn) (frame : AudioFrame) (key : ℕ) :
    (n.numberFor s.key frame).Handed key ((n.senders s.key).number frame) (.forwarded s.key) := by
  refine ⟨hs, ?_⟩
  simp only [numberFor, update_self, given_step]
  exact mem_cons_self

lemma Counted.setRemote (hn : n.Counted) (origin : ℕ) {r : Remote} (hr : r.Counted) :
    (n.setRemote origin r).Counted := by
  refine ⟨hn.key_lt, hn.key_inj, hn.numbered, fun other => ?_, hn.voiced, hn.mixed⟩
  simp only [StreamNode.setRemote, update_apply]
  split
  · exact hr
  · exact hn.relayed other

lemma Handed.setRemote (h : n.Handed key seq stream) {origin : ℕ} {r : Remote}
    (hr : (n.remotes origin).Routed seq → r.Routed seq) : (n.setRemote origin r).Handed key seq stream := by
  cases stream with
  | relayed other =>
    simp only [Handed, StreamNode.setRemote, update_apply]
    split
    next heq =>
      subst heq
      exact hr h
    · exact h
  | uplink | forwarded | voice | mix => exact h

lemma sequence_forgetSession (hub : MixHub) (id other : SessionId) (channel : ChannelId) :
    (hub.forgetSession id).sequence other channel = if other = id then 0 else hub.sequence other channel := by
  unfold MixHub.forgetSession MixHub.sequence
  simp only [Dict.find_tabulate, Finset.mem_filter, Dict.mem_keys]
  by_cases hid : other = id
  · simp [hid]
  · cases hub.sequences.find (other, channel) <;> simp [hid]

lemma lt_update_succ {α : Type} [DecidableEq α] {f : α → ℕ} {a : α} {i : ℕ} (h : i < f a) (b : α) :
    i < update f b (f b + 1) a := by
  rw [update_apply]
  split
  next heq =>
    subst heq
    omega
  · exact h

lemma Counted.create (hn : n.Counted) (id : SessionId) (ssrc audioSeq start : UInt32) :
    (n.next suite (.create id ssrc audioSeq start)).Counted := by
  simp only [next]
  split
  · exact hn
  · refine ⟨?_, ?_, ?_, hn.relayed, hn.voiced, hn.mixed⟩
    · intro other s hs
      rcases Dict.of_find_set hs with ⟨-, rfl⟩ | ⟨-, hs⟩
      · exact Nat.lt_succ_self _
      · exact (hn.key_lt other s hs).trans (Nat.lt_succ_self _)
    · intro a s b t hs ht hkey
      rcases Dict.of_find_set hs with ⟨rfl, rfl⟩ | ⟨-, hs'⟩ <;>
        rcases Dict.of_find_set ht with ⟨rfl, rfl⟩ | ⟨-, ht'⟩
      · rfl
      · exact absurd hkey (hn.key_lt b t ht').ne'
      · exact absurd hkey (hn.key_lt a s hs').ne
      · exact hn.key_inj a s b t hs' ht' hkey
    · intro key
      simp only [update_apply]
      split
      · exact init_numbered audioSeq
      · exact hn.numbered key

lemma Counted.next (hn : n.Counted) (hfree : n.NumberFree suite e) : (n.next suite e).Counted := by
  cases e with
  | clientAudio | clientOther =>
    exact ⟨hn.key_lt, hn.key_inj, hn.numbered, hn.relayed, hn.voiced, hn.mixed⟩
  | routeAudio | routeWebrtc =>
    simp only [next]
    split
    · exact hn
    next s hs => exact hn.numberFor (hfree s hs)
  | relay origin => exact hn.setRemote origin ((hn.relayed origin).send hfree.1 hfree.2)
  | routeRelayed origin => exact hn.setRemote origin ((hn.relayed origin).receive _)
  | create => exact hn.create _ _ _ _
  | close id =>
    refine ⟨?_, ?_, hn.numbered, hn.relayed, hn.voiced, ?_⟩
    · exact fun other s hs => hn.key_lt other s (Dict.of_find_erase hs).2
    · exact fun a s b t hs ht => hn.key_inj a s b t (Dict.of_find_erase hs).2 (Dict.of_find_erase ht).2
    · intro other channel
      simp only [next, sequence_forgetSession]
      split
      · rfl
      · exact hn.mixed other channel
  | inject channel source =>
    refine ⟨hn.key_lt, hn.key_inj, hn.numbered, hn.relayed, ?_, hn.mixed⟩
    intro v
    simp only [next, TtsEngine.playFrame, TtsEngine.clock, Dict.find_set, update_apply]
    split
    · have hclock := hn.voiced (source.stream suite channel)
      simp only [TtsEngine.clock] at hclock
      rw [getD_some, StreamClock.next, hclock, UInt32.ofNat_add]
      rfl
    · exact hn.voiced v
  | emitMix id channel =>
    simp only [next]
    split
    · refine ⟨hn.key_lt, hn.key_inj, hn.numbered, hn.relayed, hn.voiced, ?_⟩
      intro other ch
      have hmixed := hn.mixed id channel
      simp only [MixHub.sequence] at hmixed
      simp only [MixHub.emitTo, MixHub.sequence, Dict.find_set, update_apply]
      split
      · rw [getD_some, hmixed, UInt32.ofNat_add]
        rfl
      · exact hn.mixed other ch
    · exact hn

lemma Handed.sendFrom (h : n.Handed key seq stream) (sender : ℕ) : (n.sendFrom sender).Handed key seq stream := by
  cases stream with
  | uplink =>
    obtain ⟨i, hi, heq⟩ := h
    simp only [Handed, StreamNode.sendFrom, update_apply]
    split
    next hkey =>
      subst hkey
      exact ⟨i, hi.trans (Nat.lt_succ_self _), heq⟩
    · exact ⟨i, hi, heq⟩
  | forwarded | voice | mix | relayed => exact h

lemma Handed.next (hn : n.Counted) (hfree : n.NumberFree suite e) (hkey : key < n.drawn)
    (h : n.Handed key seq stream) : (n.next suite e).Handed key seq stream := by
  cases e with
  | clientAudio sender | clientOther sender => exact h.sendFrom sender
  | routeAudio | routeWebrtc =>
    simp only [StreamNode.next]
    split
    · exact h
    next s _ => exact h.numberFor s.key _
  | relay origin => exact h.setRemote fun hr => hr.send (hn.relayed origin) hfree.1
  | routeRelayed => exact h.setRemote fun hr => hr.receive _
  | create id ssrc audioSeq =>
    simp only [StreamNode.next]
    split
    · exact h
    · cases stream with
      | uplink => simpa only [Handed, update_of_ne hkey.ne] using h
      | voice | relayed => exact h
      | forwarded sender =>
        refine ⟨h.1.trans (Nat.lt_succ_self _), ?_⟩
        simpa only [update_of_ne h.1.ne] using h.2
      | mix =>
        intro other s hs hsk
        rcases Dict.of_find_set hs with ⟨-, rfl⟩ | ⟨-, hs⟩
        · exact absurd hsk hkey.ne'
        · exact h other s hs hsk
  | close id =>
    cases stream with
    | uplink | voice | relayed | forwarded => exact h
    | mix =>
      intro other s hs hsk
      obtain ⟨hne, hs⟩ := Dict.of_find_erase hs
      simp only [StreamNode.next, if_neg hne]
      exact h other s hs hsk
  | inject =>
    cases stream with
    | voice =>
      obtain ⟨i, hi, heq⟩ := h
      exact ⟨i, lt_update_succ hi _, heq⟩
    | uplink | forwarded | mix | relayed => exact h
  | emitMix =>
    simp only [StreamNode.next]
    split
    · cases stream with
      | mix =>
        intro other s hs hsk
        obtain ⟨i, hi, heq⟩ := h other s hs hsk
        exact ⟨i, lt_update_succ hi _, heq⟩
      | uplink | forwarded | voice | relayed => exact h
    · exact h

lemma handed_of_label (hn : n.Counted) (hl : n.label suite e = some l) (hkey : key ∈ n.keys e) :
    (n.next suite e).Handed key l.sequence l.stream := by
  cases e with
  | create | close | clientOther | relay => cases hl
  | clientAudio =>
    obtain rfl := some.inj hl
    obtain rfl := eq_of_mem_keys hkey
    simp only [Handed, next, sendFrom, update_self]
    exact ⟨_, Nat.lt_succ_self _, rfl⟩
  | routeAudio id =>
    obtain ⟨s, hs, rfl⟩ := map_eq_some_iff.mp hl
    simp only [next, hs]
    exact handed_numberFor (hn.key_lt id s (senderOf_eq_some hs)) _ key
  | routeWebrtc id =>
    obtain ⟨s, hs, rfl⟩ := map_eq_some_iff.mp hl
    simp only [next, hs]
    exact handed_numberFor (hn.key_lt id s hs) _ key
  | routeRelayed origin =>
    obtain ⟨hflight, hstream, hseq⟩ := label_routeRelayed hl
    have hr := hn.relayed origin
    rw [hstream, hseq]
    simp only [Handed, next, setRemote, update_self]
    exact ⟨hr.sent _ hflight, hr.nodup.not_mem_erase⟩
  | inject =>
    obtain rfl := some.inj hl
    simp only [Handed, next, update_self, hn.voiced]
    exact ⟨_, Nat.lt_succ_self _, rfl⟩
  | emitMix id =>
    obtain ⟨s, hs, rfl⟩ := map_eq_some_iff.mp hl
    obtain ⟨t, ht, htkey⟩ := find_of_mem_keys hkey
    simp only [next, hs, isSome_some, if_true, Handed, hn.mixed]
    intro other r hr hrkey
    obtain rfl := hn.key_inj other r id t hr ht (hrkey.trans htkey.symm)
    simp only [update_self]
    exact ⟨_, Nat.lt_succ_self _, rfl⟩

lemma drawn_next (n : StreamNode) (e : StreamEvent) : n.drawn ≤ (n.next suite e).drawn := by
  cases e with
  | create =>
    simp only [next]
    split
    · exact le_refl _
    · exact Nat.le_succ _
  | routeAudio | routeWebrtc | emitMix =>
    simp only [next]
    split <;> exact le_refl _
  | close | clientAudio | clientOther | relay | routeRelayed | inject => exact le_refl _

lemma counted_init (starts : ℕ → UInt32) : (init starts).Counted where
  key_lt _ _ h := by cases h
  key_inj _ _ _ _ h := by cases h
  numbered _ := init_numbered 0
  relayed origin := ⟨init_numbered (starts origin), nodup_nil, nofun⟩
  voiced _ := rfl
  mixed _ _ := rfl

/-- The start of the counter that numbers a microphone's stream, and how many numbers it has used. -/
def range (n : StreamNode) (key : ℕ) : Stream → Option (UInt32 × ℕ)
  | .uplink => some ((n.clients key).start, (n.clients key).sent)
  | .forwarded sender => some ((n.senders sender).start, (n.senders sender).used)
  | .relayed origin => some ((n.remotes origin).forwarded.start, (n.remotes origin).forwarded.used)
  | .voice _ | .mix _ => none

/-- The ranges of the two counters do not overlap. -/
def Disjoint (n : StreamNode) (key : ℕ) (a b : Stream) : Prop :=
  ∃ r ∈ n.range key a, ∃ t ∈ n.range key b, r.2 ≤ (t.1 - r.1).toNat ∧ t.2 ≤ (r.1 - t.1).toNat

instance (n : StreamNode) (key : ℕ) (a b : Stream) : Decidable (n.Disjoint key a b) :=
  inferInstanceAs (Decidable (∃ r ∈ n.range key a, ∃ t ∈ n.range key b,
    r.2 ≤ (t.1 - r.1).toNat ∧ t.2 ≤ (r.1 - t.1).toNat))

lemma Handed.mem_range (hn : n.Counted) (h : n.Handed key seq stream) {r : UInt32 × ℕ}
    (hr : n.range key stream = some r) : ∃ i < r.2, seq = r.1 + ofNat i := by
  cases stream with
  | uplink =>
    obtain rfl := some.inj hr
    exact h
  | forwarded sender =>
    obtain rfl := some.inj hr
    exact (hn.numbered sender).given seq h.2
  | relayed origin =>
    obtain rfl := some.inj hr
    exact (hn.relayed origin).numbered.given seq h.1
  | voice | mix => cases hr

lemma ranges_disjoint {a b : UInt32} {m k i j : ℕ} (hm : m ≤ (b - a).toNat) (hk : k ≤ (a - b).toNat)
    (hi : i < m) (hj : j < k) : a + ofNat i ≠ b + ofNat j := by
  intro heq
  have hnat := congrArg UInt32.toNat heq
  have ha := a.toNat_lt
  have hb := b.toNat_lt
  simp only [UInt32.toNat_add, UInt32.toNat_sub, UInt32.toNat_ofNat'] at *
  omega

/-- Counters with disjoint ranges have handed out no common number. -/
lemma Disjoint.handed_ne (hn : n.Counted) {a b : Stream} (h : n.Disjoint key a b) {x y : UInt32}
    (hx : n.Handed key x a) (hy : n.Handed key y b) : x ≠ y := by
  obtain ⟨r, hr, t, ht, hrt, htr⟩ := h
  obtain ⟨i, hi, rfl⟩ := hx.mem_range hn hr
  obtain ⟨j, hj, rfl⟩ := hy.mem_range hn ht
  exact ranges_disjoint hrt htr hi hj

end StreamNode

end AurixVoice.Media
