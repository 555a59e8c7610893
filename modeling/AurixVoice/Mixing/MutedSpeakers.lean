import AurixVoice.Library.Traces
import AurixVoice.Mixing.SharedMix

namespace AurixVoice.Mixing

open Media (Mix LiveChannel LiveSession Sessions Origin Acoustics exactly FrameGates MediaChannel Participant
  ReceiverPrefs)
open Dict MixHub OpusMixer Pushing Option List

variable {P D : Type}

namespace OpusMixer

def Holds (m : OpusMixer D) (x : Sample) : Prop := ∃ ssrc s, m.senders.find ssrc = some s ∧ x ∈ s.queue

def Clean (m : OpusMixer D) (user : UserId) (n : ℕ) : Prop :=
  ∀ x, m.Holds x → x.speaker = some user → x.frame < n

variable {m : OpusMixer D} {frame : Frame} {mix : Mix ℚ D} {pcm : List (Int16 × Int16)} {now : ℕ} {x : Sample}

lemma mem_enqueue {queue added : List Sample} (h : x ∈ enqueue queue added) : x ∈ queue ∨ x ∈ added := by
  exact mem_append.mp (mem_of_mem_drop h)

lemma holds_pushOpus (h : (m.pushOpus frame mix pcm now).Holds x) :
    m.Holds x ∨ x.speaker = frame.speaker ∧ x.frame = frame.number := by
  unfold pushOpus at h
  split at h
  · exact .inl h
  · obtain ⟨ssrc, s, hs, hx⟩ := h
    rcases of_find_set hs with ⟨-, rfl⟩ | ⟨-, hs⟩
    · dsimp only at hx
      rcases mem_enqueue hx with hold | hnew
      · cases hfind : m.senders.find frame.ssrc with
        | none => simp [hfind] at hold
        | some old =>
          rw [hfind] at hold
          exact .inl ⟨frame.ssrc, old, hfind, hold⟩
      · obtain ⟨_, -, rfl⟩ := mem_map.mp hnew
        exact .inr ⟨rfl, rfl⟩
    · exact .inl ⟨ssrc, s, hs, hx⟩

lemma find_pushOpus_empty (s : Int16 × Int16) (h : frame.payload ≠ []) :
    (pushOpus ⟨.empty⟩ frame mix [s] now).senders.find frame.ssrc =
      some ⟨[⟨s.1, s.2, frame.speaker, frame.number⟩], mix, now⟩ := by
  simp [pushOpus, h, enqueue, maxQueueSamples, frameSamples]

variable {ssrc : UInt32}

lemma find_of_retained {s : SenderState D} (h : (m.retained now).find ssrc = some s) :
    m.senders.find ssrc = some s := by
  rw [retained, find_filterValues] at h
  exact (filter_eq_some_iff.mp h).1

lemma holds_mixFrame (h : (m.mixFrame now).2.Holds x) : m.Holds x := by
  obtain ⟨ssrc, s, hs, hx⟩ := h
  obtain ⟨old, hold, rfl⟩ := map_eq_some_iff.mp hs
  exact ⟨ssrc, old, find_of_retained hold, mem_of_mem_drop hx⟩

lemma holds_of_part {part : Part D} (h : (m.mixFrame now).1.find ssrc = some part)
    (hx : x ∈ part.samples) : m.Holds x := by
  simp only [mixFrame, parts, find_tabulate] at h
  split at h
  · obtain ⟨s, hs, hpart⟩ := bind_eq_some_iff.mp h
    split at hpart
    · cases hpart
    · obtain rfl := some.inj hpart
      exact ⟨ssrc, s, find_of_retained hs, mem_of_mem_take hx⟩
  · cases h

end OpusMixer

namespace MixHub

def mixerOf (h : MixHub D) (slot : Slot) : OpusMixer D := ((h.nodes.find slot).map MixNode.mixer).getD ⟨.empty⟩

variable {h hub : MixHub D} {slot other : Slot}

lemma mixerOf_node {opens : Slot → Bool} (hnode : h.node opens slot = some hub) (other : Slot) :
    hub.mixerOf other = h.mixerOf other := by
  unfold node at hnode
  split_ifs at hnode with hin hfull hopens
  · rw [some.inj hnode]
  · obtain rfl := some.inj hnode
    by_cases hs : other = slot
    · subst hs
      have hnone : h.nodes.find other = none := by
        rw [← not_isSome_iff_eq_none, ← h.nodes.mem_keys]
        exact hin
      simp [mixerOf, hnone]
    · simp [mixerOf, hs]

lemma mixerOf_subscribe (h : MixHub D) (slot : Slot) (session : SessionId) (other : Slot) :
    (h.subscribe slot session).mixerOf other = h.mixerOf other ∧
      (h.unsubscribe slot session).mixerOf other = h.mixerOf other := by
  by_cases hs : other = slot
  · subst hs
    cases hfind : h.nodes.find other <;> simp [mixerOf, subscribe, unsubscribe, hfind]
  · simp [mixerOf, subscribe, unsubscribe, hs]

lemma mixerOf_assign (h : MixHub D) (session : SessionId) (channel : ChannelId) (slot other : Slot) :
    (h.assign session channel slot).mixerOf other = h.mixerOf other := by
  unfold assign
  rw [(mixerOf_subscribe ..).1]
  split
  · exact (mixerOf_subscribe ..).2
  · rfl

lemma mixerOf_feed_of_ne (f : Feed) (mix : Mix ℚ D) (hne : other ≠ slot) :
    (h.feed f slot mix).mixerOf other = h.mixerOf other := by simp [mixerOf, feed, hne]

lemma mixerOf_feed (f : Feed) (mix : Mix ℚ D) (hslot : slot ∈ h.nodes.keys) :
    (h.feed f slot mix).mixerOf slot =
      (h.mixerOf slot).pushOpus f.frame mix (f.decoded slot) f.now := by
  obtain ⟨n, hn⟩ := mem_keys_iff.mp hslot
  simp [mixerOf, feed, hn]

end MixHub

namespace Pushing

open MixHub (Feed)

variable {c : LiveChannel P} {sessions : Sessions} {sharedOk : Bool} {f : Feed} {st : Pushing D}
  {r : SessionId × Mix ℚ D} {rs : List (SessionId × Mix ℚ D)} {slot : Slot} {session : SessionId}

variable (st : Pushing D)

lemma mixerOf_serve (mix : Mix ℚ D) (other : Slot) (hslot : slot ∈ st.hub.nodes.keys) :
    (st.serve f slot mix).hub.mixerOf other = st.hub.mixerOf other ∨
      other = slot ∧ ∃ mix', (st.serve f slot mix).hub.mixerOf other =
        (st.hub.mixerOf other).pushOpus f.frame mix' (f.decoded other) f.now := by
  have hfeed : ∀ fed, (st.hub.feed f slot fed).mixerOf other = st.hub.mixerOf other ∨
      other = slot ∧ ∃ mix', (st.hub.feed f slot fed).mixerOf other =
        (st.hub.mixerOf other).pushOpus f.frame mix' (f.decoded other) f.now := by
    intro fed
    by_cases he : other = slot
    · subst he
      exact .inr ⟨rfl, fed, mixerOf_feed f fed hslot⟩
    · exact .inl (mixerOf_feed_of_ne f fed he)
  unfold serve
  split
  · split
    · exact .inl rfl
    · exact hfeed _
  · exact hfeed _

lemma mixerOf_turn_cases (slot : Slot) :
    (st.turn c sessions sharedOk f r).hub.mixerOf slot = st.hub.mixerOf slot ∨
      slot = st.hub.slotFor c sessions sharedOk r ∧ ∃ mix, (st.turn c sessions sharedOk f r).hub.mixerOf slot =
        (st.hub.mixerOf slot).pushOpus f.frame mix (f.decoded slot) f.now := by
  cases hnode : st.hub.node f.opens (st.hub.slotFor c sessions sharedOk r) with
  | none =>
    rw [turn_eq_of_none hnode]
    exact .inl rfl
  | some hub =>
    rw [turn_eq hnode, ← mixerOf_node hnode slot,
      ← mixerOf_assign hub r.1 c.channelId (st.hub.slotFor c sessions sharedOk r) slot]
    apply mixerOf_serve
    rw [keys_assign]
    exact (node_spec hnode).1

lemma mixerOf_turn (hne : slot ≠ st.hub.slotFor c sessions sharedOk r) :
    (st.turn c sessions sharedOk f r).hub.mixerOf slot = st.hub.mixerOf slot :=
  (mixerOf_turn_cases st slot).resolve_right fun h => hne h.1

lemma holds_turn {x : Sample} (h : ((st.turn c sessions sharedOk f r).hub.mixerOf slot).Holds x) :
    (st.hub.mixerOf slot).Holds x ∨ x.speaker = f.frame.speaker ∧ x.frame = f.frame.number := by
  rcases mixerOf_turn_cases st slot with hsame | ⟨-, mix, hfed⟩
  · exact .inl (hsame ▸ h)
  · rw [hfed] at h
    exact holds_pushOpus h

lemma mixerOf_turn_shared (hslot : Slot.shared c.channelId ∈ st.hub.nodes.keys) :
    (st.turn c sessions sharedOk f r).hub.mixerOf (.shared c.channelId) =
      if st.sharedFed = false ∧ st.hub.slotFor c sessions sharedOk r = .shared c.channelId then
        (st.hub.mixerOf (.shared c.channelId)).pushOpus f.frame ⟨1, none⟩ (f.decoded (.shared c.channelId)) f.now
      else st.hub.mixerOf (.shared c.channelId) := by
  by_cases hshared : st.hub.slotFor c sessions sharedOk r = .shared c.channelId
  · have hnode : st.hub.node f.opens (st.hub.slotFor c sessions sharedOk r) = some st.hub := by
      rw [hshared]
      exact node_of_mem hslot
    have hin : Slot.shared c.channelId ∈
        (st.hub.assign r.1 c.channelId (.shared c.channelId)).nodes.keys := by
      rw [keys_assign]
      exact hslot
    rw [turn_eq hnode, hshared]
    by_cases hfed : st.sharedFed = true
    · simp only [serve, hfed, if_true, Bool.true_eq_false, false_and, if_false]
      exact mixerOf_assign ..
    · rw [if_pos ⟨Bool.eq_false_iff.mpr hfed, rfl⟩, ← mixerOf_assign st.hub r.1 c.channelId (.shared _)]
      simp only [serve, hfed, if_false, Bool.false_eq_true]
      exact mixerOf_feed f _ hin
  · rw [if_neg fun h => hshared h.2]
    exact mixerOf_turn st (symm hshared)

section

variable (hunity : st.FedAtUnity c.channelId) (hslot : Slot.shared c.channelId ∈ st.hub.nodes.keys)
include hunity hslot

lemma mixerOf_turns_of_fed (hfed : st.sharedFed = true) :
    (rs.foldl (turn c sessions sharedOk f) st).hub.mixerOf (.shared c.channelId) =
      st.hub.mixerOf (.shared c.channelId) := by
  induction rs generalizing st with
  | nil => rfl
  | cons r rs ih =>
    obtain ⟨hnext, hstays⟩ := turn_shared (f := f) st r hunity hslot
    rw [foldl_cons, ih _ hnext (keys_turn st r hslot) (hstays.mpr (.inl hfed)), mixerOf_turn_shared st hslot,
      if_neg fun h => by simp [hfed] at h]

lemma mixerOf_turns_shared (hidle : st.sharedFed = false)
    (hfed : (rs.foldl (turn c sessions sharedOk f) st).sharedFed = true) :
    (rs.foldl (turn c sessions sharedOk f) st).hub.mixerOf (.shared c.channelId) =
      (st.hub.mixerOf (.shared c.channelId)).pushOpus f.frame ⟨1, none⟩ (f.decoded (.shared c.channelId)) f.now := by
  induction rs generalizing st with
  | nil => rw [foldl_nil, hidle] at hfed; cases hfed
  | cons r rs ih =>
    obtain ⟨hnext, hturn⟩ := turn_shared (f := f) st r hunity hslot
    rw [foldl_cons] at hfed ⊢
    have hkeys : Slot.shared c.channelId ∈ (st.turn c sessions sharedOk f r).hub.nodes.keys := keys_turn st r hslot
    by_cases hshared : st.hub.slotFor c sessions sharedOk r = .shared c.channelId
    · rw [mixerOf_turns_of_fed _ hnext hkeys (hturn.mpr (.inr hshared)), mixerOf_turn_shared st hslot,
        if_pos ⟨hidle, hshared⟩]
    · have hstill : (st.turn c sessions sharedOk f r).sharedFed = false := by
        rw [Bool.eq_false_iff]
        intro h
        rcases hturn.mp h with h | h
        · rw [hidle] at h
          cases h
        · exact hshared h
      rw [ih _ hnext hkeys hstill hfed, mixerOf_turn_shared st hslot, if_neg fun h => hshared h.2]

end

lemma subscribed_turn (h : (st.turn c sessions sharedOk f r).hub.subscribed slot session = true) :
    st.hub.subscribed slot session = true ∨ session = r.1 ∧ slot = st.hub.slotFor c sessions sharedOk r := by
  cases hnode : st.hub.node f.opens (st.hub.slotFor c sessions sharedOk r) with
  | none =>
    rw [turn_eq_of_none hnode] at h
    exact .inl h
  | some =>
    rw [(turn_of_node hnode).2.2] at h
    rw [← (node_spec hnode).2.2.2]
    exact subscribed_of_assign h

lemma own_turn {channel : ChannelId}
    (h : st.hub.assignments.find (session, channel) = some (.privateTo session channel)) :
    (st.turn c sessions sharedOk f r).hub.assignments.find (session, channel) =
      some (.privateTo session channel) := by
  cases hnode : st.hub.node f.opens (st.hub.slotFor c sessions sharedOk r) with
  | none =>
    rw [turn_eq_of_none hnode]
    exact h
  | some =>
    rw [(turn_of_node hnode).1, find_assign, (node_spec hnode).2.2.1]
    split
    next hkey =>
      obtain ⟨rfl, rfl⟩ := Prod.mk.inj hkey
      simp [slotFor, h]
    · exact h

end Pushing

lemma MixHub.splitMixed_invariant {c : LiveChannel P} {sessions : Sessions} {f : MixHub.Feed}
    {copies : List (SessionId × Mix ℚ D)} {h : MixHub D} (I : MixHub D → Prop) (hstart : I h)
    (hturn : ∀ (st : Pushing D) r, r ∈ copies → MixHub.isMixed c sessions r = true → I st.hub →
      I (st.turn c sessions true f r).hub) :
    I (h.splitMixed c sessions true false f copies).2.hub := by
  have hall : ∀ (rs : List (SessionId × Mix ℚ D)) (st : Pushing D),
      (∀ r ∈ rs, r ∈ copies ∧ isMixed c sessions r = true) → I st.hub →
      I (rs.foldl (turn c sessions true f) st).hub := by
    intro rs
    induction rs with
    | nil => exact fun _ _ hst => hst
    | cons r rs ih =>
      intro st hrs hst
      obtain ⟨hr, hmixed⟩ := hrs r mem_cons_self
      exact ih _ (fun q hq => hrs q (mem_cons_of_mem _ hq)) (hturn st r hr hmixed hst)
  unfold splitMixed
  split
  · exact hstart
  · rw [partition_eq_filter_filter]
    exact hall _ _ (fun r hr => mem_filter.mp hr) hstart

section
variable {h : MixHub D} {sessions : Sessions} {focusGain : LiveSession → ChannelId → ℚ} {slot other : Slot}
  {now : ℕ} {session : SessionId}

lemma MixHub.tick_spec (h : MixHub D) (sessions : Sessions) (focusGain : LiveSession → ChannelId → ℚ)
    (slot : Slot) (now : ℕ) :
    (h.tick sessions focusGain slot now).2.assignments = h.assignments ∧
      (∀ other session, (h.tick sessions focusGain slot now).2.subscribed other session = true →
        h.subscribed other session = true) ∧
      ∀ other x, ((h.tick sessions focusGain slot now).2.mixerOf other).Holds x → (h.mixerOf other).Holds x := by
  unfold tick
  cases hn : h.nodes.find slot with
  | none => exact ⟨rfl, fun _ _ hs => hs, fun _ _ hx => hx⟩
  | some n =>
    have hnode : ∀ n' : MixNode D, n'.subscribers ⊆ n.subscribers →
        (∀ x, n'.mixer.Holds x → n.mixer.Holds x) →
        (∀ other session, ({ h with nodes := h.nodes.set slot n' } : MixHub D).subscribed other session = true →
          h.subscribed other session = true) ∧
        ∀ other x, (({ h with nodes := h.nodes.set slot n' } : MixHub D).mixerOf other).Holds x →
          (h.mixerOf other).Holds x := by
      intro n' hsub hholds
      constructor
      · intro other session hs
        by_cases ho : other = slot
        · subst ho
          simp only [subscribed, find_set, if_true, any_some, decide_eq_true_eq, hn] at hs ⊢
          exact hsub hs
        · simpa [subscribed, ho] using hs
      · intro other x hx
        by_cases ho : other = slot
        · subst ho
          simp only [mixerOf, find_set, if_true, map_some, getD_some, hn] at hx ⊢
          exact hholds x hx
        · simpa [mixerOf, ho] using hx
    dsimp only
    split
    · exact ⟨rfl, hnode _ subset_rfl fun _ hx => holds_mixFrame hx⟩
    · exact ⟨rfl, hnode _ (Finset.filter_subset _ _) fun _ hx => holds_mixFrame hx⟩

lemma MixHub.of_mem_tick {x : MixHub.Sealed D} (hx : x ∈ (h.tick sessions focusGain slot now).1) :
    x.channel = slot.channel ∧ h.subscribed slot x.session = true ∧
      serves sessions slot.channel x.session = true ∧ (sessions x.session).bound = true ∧
      ∀ ssrc part, x.parts.find ssrc = some part → ∀ y ∈ part.samples, (h.mixerOf slot).Holds y := by
  unfold tick at hx
  cases hn : h.nodes.find slot with
  | none =>
    rw [hn] at hx
    cases hx
  | some =>
    rw [hn] at hx
    dsimp only at hx
    split at hx
    · cases hx
    · obtain ⟨s, hs, rfl⟩ := mem_map.mp hx
      simp only [mem_filter, mem_ascending, Finset.mem_filter] at hs
      obtain ⟨⟨hsub, hserves⟩, hbound⟩ := hs
      refine ⟨rfl, by simp [subscribed, hn, hsub], hserves, hbound, ?_⟩
      intro ssrc part hpart y hy
      have hheld := holds_of_part hpart hy
      simpa [mixerOf, hn] using hheld

end

structure World (P D : Type) where
  sessions : Sessions
  channels : Dict ChannelId (LiveChannel P)
  hub : MixHub D
  frames : ℕ

structure Spoken where
  origin : Origin
  sender : UserId
  gates : FrameGates ℚ
  ssrc : UInt32
  payload : List UInt8
  now : ℕ
  opens : Slot → Bool
  decoded : Slot → List (Int16 × Int16)

def Spoken.feed (s : Spoken) (number : ℕ) : MixHub.Feed :=
  ⟨⟨some s.sender, number, s.ssrc, s.payload⟩, s.now, s.opens, s.decoded⟩

inductive Event
  | prefs (session : SessionId) (prefs : ReceiverPrefs ℚ)
  | frame (channel : ChannelId) (spoken : Spoken)
  | tick (slot : Slot) (now : ℕ)

namespace World

variable (ac : Acoustics ℚ P D) (w : World P D)

def mayRoute (c : LiveChannel P) (s : Spoken) : Bool :=
  match s.origin with
  | .uplink => c.canTransmit s.sender
  | .relayed _ => true

def setPrefs (session : SessionId) (prefs : ReceiverPrefs ℚ) : World P D :=
  { w with sessions := Function.update w.sessions session { w.sessions session with prefs := prefs } }

def speak (c : LiveChannel P) (s : Spoken) : World P D :=
  let copies := c.copies w.sessions ac s.gates s.origin s.sender
  { w with
    hub := (w.hub.splitMixed c w.sessions true false (s.feed w.frames) copies).2.hub
    frames := w.frames + 1 }

def tick (slot : Slot) (now : ℕ) : List (MixHub.Sealed D) × MixHub D :=
  w.hub.tick w.sessions (fun s channel => s.prefs.focusGain ac channel) slot now

def step : Event → World P D
  | .prefs session prefs => w.setPrefs session prefs
  | .frame channel s =>
    match w.channels.find channel with
    | none => w
    | some c => if mayRoute c s then w.speak ac c s else w
  | .tick slot now => { w with hub := (w.tick ac slot now).2 }

def sealed : Event → List (MixHub.Sealed D)
  | .prefs .. | .frame .. => []
  | .tick slot now => (w.tick ac slot now).1

def Mutes (session : SessionId) (channel : ChannelId) (user : UserId) : Prop :=
  (w.sessions session).prefs.gainFor ac user channel = none

structure Fresh : Prop where
  keyed : ∀ k c, w.channels.find k = some c → c.channelId = k
  hosts : ∀ k c, w.channels.find k = some c → c.Hosts w.sessions
  idle : w.hub = ⟨.empty, .empty⟩

structure Valid : Prop where
  keyed : ∀ k c, w.channels.find k = some c → c.channelId = k
  hosts : ∀ k c, w.channels.find k = some c → c.Hosts w.sessions
  alone : ∀ session other channel, w.hub.subscribed (.privateTo other channel) session = true → other = session
  past : ∀ slot x, (w.hub.mixerOf slot).Holds x → x.frame < w.frames

variable {ac w}

lemma Fresh.valid (h : w.Fresh) : w.Valid where
  keyed := h.keyed
  hosts := h.hosts
  alone session other channel hsub := by
    rw [h.idle] at hsub
    cases hsub
  past slot x hx := by
    rw [h.idle] at hx
    obtain ⟨ssrc, s, hs, -⟩ := hx
    cases hs

lemma setPrefs_sessions (w : World P D) (changed : SessionId) (prefs : ReceiverPrefs ℚ) (session : SessionId) :
    { (w.setPrefs changed prefs).sessions session with prefs := (w.sessions session).prefs } =
      w.sessions session := by
  simp only [setPrefs, Function.update_apply]
  split
  next he => rw [he]
  · rfl

variable {c : LiveChannel P} {s : Spoken} {r : SessionId × Mix ℚ D}

lemma hosts_setPrefs {session : SessionId} {prefs : ReceiverPrefs ℚ} (h : c.Hosts w.sessions) :
    c.Hosts (w.setPrefs session prefs).sessions := by
  intro user s hs
  rw [← h user s hs, ← w.setPrefs_sessions session prefs s]

lemma Valid.speak (h : w.Valid) : (w.speak ac c s).Valid where
  keyed := h.keyed
  hosts := h.hosts
  alone := by
    apply splitMixed_invariant fun hub : MixHub D =>
      ∀ session other channel, hub.subscribed (.privateTo other channel) session = true → other = session
    · exact h.alone
    · intro st r _ _ hst session other channel hsub
      rcases subscribed_turn st hsub with hold | ⟨rfl, hslot⟩
      · exact hst session other channel hold
      · rcases st.hub.slotFor_eq_or c w.sessions true r with hshared | hown
        · rw [hshared] at hslot
          cases hslot
        · rw [hown] at hslot
          exact (Slot.privateTo.inj hslot).1
  past := by
    apply splitMixed_invariant fun hub : MixHub D =>
      ∀ slot x, (hub.mixerOf slot).Holds x → x.frame < w.frames + 1
    · exact fun slot x hx => Nat.lt_succ_of_lt (h.past slot x hx)
    · intro st r _ _ hst slot x hx
      rcases holds_turn st hx with hold | ⟨-, hnumber⟩
      · exact hst slot x hold
      · rw [hnumber]
        exact Nat.lt_succ_self _

lemma Valid.step (h : w.Valid) (e : Event) : (w.step ac e).Valid := by
  cases e with
  | prefs =>
    exact ⟨h.keyed, fun k c hc => hosts_setPrefs (h.hosts k c hc), h.alone, h.past⟩
  | frame =>
    rw [World.step]
    split
    · exact h
    · split
      · exact h.speak
      · exact h
  | tick slot now =>
    obtain ⟨-, hsub, hholds⟩ := w.hub.tick_spec w.sessions (fun s channel => s.prefs.focusGain ac channel) slot now
    exact ⟨h.keyed, h.hosts, fun session other channel hs => h.alone session other channel (hsub _ _ hs),
      fun slot x hx => h.past slot x (hholds slot x hx)⟩

structure MixedListener (c : LiveChannel P) (sessions : Sessions) (listener : UserId) (session : SessionId) :
    Prop where
  member : c.participants.find listener = some session
  native : (sessions session).transport = .aurx
  active : (sessions session).active = true
  mixed : c.wantsMix (sessions session) = true
  listens : c.canTransmit listener = false

variable {listener : UserId} {other : SessionId}

lemma mixedListener_setPrefs (changed : SessionId) (prefs : ReceiverPrefs ℚ) :
    MixedListener c (w.setPrefs changed prefs).sessions listener other ↔
      MixedListener c w.sessions listener other := by
  have hsame := w.setPrefs_sessions changed prefs other
  have hnative := congrArg LiveSession.transport hsame
  have hactive := congrArg LiveSession.active hsame
  have hmixed : c.wantsMix ((w.setPrefs changed prefs).sessions other) = c.wantsMix (w.sessions other) := by
    rw [← hsame]
    rfl
  constructor
  · exact fun h => ⟨h.member, hnative ▸ h.native, hactive ▸ h.active, hmixed ▸ h.mixed, h.listens⟩
  · exact fun h => ⟨h.member, hnative.trans h.native, hactive.trans h.active, hmixed.trans h.mixed, h.listens⟩

lemma sessions_frame (w : World P D) (k : ChannelId) (s : Spoken) :
    (w.step ac (.frame k s)).sessions = w.sessions := by
  rw [step]
  split
  · rfl
  · split <;> rfl

variable (w) in
/-- The receiver hears the shared mixer, and somebody else can feed the user's frames to it. -/
def Exposed (session : SessionId) (channel : ChannelId) (user : UserId) : Prop :=
  serves w.sessions channel session = true ∧ (w.sessions session).bound = true ∧
    w.hub.subscribed (.shared channel) session = true ∧
    ∃ c, w.channels.find channel = some c ∧ c.supportsSharedMix = true ∧
      ∃ listener other, MixedListener c w.sessions listener other ∧ listener ≠ user ∧ other ≠ session ∧
        w.hub.assignments.find (other, channel) ≠ some (.privateTo other channel)

variable (w) in
structure Sheltered (n : ℕ) (session : SessionId) (channel : ChannelId) (user : UserId) (hub : MixHub D) :
    Prop where
  own : (hub.mixerOf (.privateTo session channel)).Clean user n
  apart : hub.subscribed (.shared channel) session = true → (hub.mixerOf (.shared channel)).Clean user n ∧
    ∀ c, w.channels.find channel = some c → c.supportsSharedMix = true → ∀ listener other,
      MixedListener c w.sessions listener other → listener ≠ user → other ≠ session →
      hub.assignments.find (other, channel) = some (.privateTo other channel)

variable {n : ℕ} {session : SessionId} {channel : ChannelId} {user : UserId}

lemma isUniform_of_mutes (h : w.Mutes ac session channel user) : (w.sessions session).prefs.isUniform = false := by
  rw [Bool.eq_false_iff]
  intro huniform
  simp only [ReceiverPrefs.isUniform, decide_eq_true_eq] at huniform
  obtain ⟨hmuted, hin, -, hblocked, hby⟩ := huniform
  simp [Mutes, ReceiverPrefs.gainFor, hmuted, hin, hblocked, hby] at h

lemma slotFor_of_mutes (h : w.Mutes ac session channel user) (hub : MixHub D) (c : LiveChannel P)
    (mix : Mix ℚ D) : hub.slotFor c w.sessions true (session, mix) = .privateTo session c.channelId := by
  simp [slotFor, isUniform_of_mutes h]

variable {slot : Slot} {number : ℕ}

lemma clean_turn_of_speaker (st : Pushing D) (hne : s.sender ≠ user) (h : (st.hub.mixerOf slot).Clean user n) :
    ((st.turn c w.sessions true (s.feed number) r).hub.mixerOf slot).Clean user n := by
  intro x hx hspeaker
  rcases holds_turn st hx with hold | ⟨hfed, -⟩
  · exact h x hold hspeaker
  · rw [hspeaker] at hfed
    exact absurd (some.inj hfed).symm hne

lemma speaks_of_mayRoute (h : mayRoute c s = true) : Speaks c s.sender s.origin := by
  cases horigin : s.origin with
  | uplink =>
    rw [mayRoute, horigin] at h
    exact h
  | relayed => trivial

lemma slotFor_ne_shared {hub : MixHub D} (hvalid : w.Valid) (hmutes : w.Mutes ac session c.channelId user)
    (hc : w.channels.find c.channelId = some c) (hroute : mayRoute c s = true) (hsender : s.sender = user)
    (hr : r ∈ c.copies w.sessions ac s.gates s.origin s.sender) (hmixed : MixHub.isMixed c w.sessions r = true)
    (h : w.Sheltered n session c.channelId user hub) (hsub : hub.subscribed (.shared c.channelId) session = true) :
    hub.slotFor c w.sessions true r ≠ .shared c.channelId := by
  intro hslot
  unfold slotFor at hslot
  dsimp only at hslot
  split at hslot
  next hcond =>
    simp only [true_and, Bool.and_eq_true, Bool.not_eq_true', decide_eq_true_eq] at hcond
    obtain ⟨⟨⟨⟨hshared, -⟩, hlistens⟩, huniform⟩, hfree⟩ := hcond
    obtain ⟨listener, hmember, -⟩ := LiveChannel.member_of_mem_copies hr
    simp only [isMixed, Bool.and_eq_true, decide_eq_true_eq] at hmixed
    have hlistener : MixedListener c w.sessions listener r.1 :=
      ⟨hmember, hmixed.1.1, hmixed.1.2, hmixed.2, hvalid.hosts _ _ hc _ _ hmember ▸ hlistens⟩
    refine hfree ((h.apart hsub).2 c hc hshared listener r.1 hlistener ?_ ?_)
    · rw [← hvalid.hosts _ _ hc _ _ hmember, ← hsender]
      exact ne_sender_of_mem_copies (hvalid.hosts _ _ hc) hshared (speaks_of_mayRoute hroute) hr
    · rintro rfl
      rw [isUniform_of_mutes hmutes] at huniform
      cases huniform
  · cases hslot

lemma Sheltered.turn {st : Pushing D} (h : w.Sheltered n session channel user st.hub)
    (hvalid : w.Valid) (hmutes : w.Mutes ac session channel user) (hc : w.channels.find c.channelId = some c)
    (hroute : mayRoute c s = true) (hr : r ∈ c.copies w.sessions ac s.gates s.origin s.sender)
    (hmixed : MixHub.isMixed c w.sessions r = true) :
    w.Sheltered n session channel user (st.turn c w.sessions true (s.feed number) r).hub := by
  have hslots := st.hub.slotFor_eq_or c w.sessions true r
  -- The turn of the receiver itself is only for frames of others.
  have hself : s.sender = user → c.channelId = channel → r.1 ≠ session := by
    rintro hsender rfl rfl
    obtain ⟨-, -, hgain⟩ := LiveChannel.member_of_mem_copies hr
    exact hgain (hsender ▸ hmutes)
  constructor
  · by_cases hsender : s.sender = user
    · rw [mixerOf_turn]
      · exact h.own
      · rcases hslots with hslot | hslot
        · rw [hslot]
          exact nofun
        · rw [hslot]
          intro he
          obtain ⟨hsession, hchannel⟩ := Slot.privateTo.inj he
          exact hself hsender hchannel.symm hsession.symm
    · exact clean_turn_of_speaker st hsender h.own
  · intro hsub
    have hbefore : st.hub.subscribed (.shared channel) session = true := by
      rcases subscribed_turn st hsub with hold | ⟨rfl, hslot⟩
      · exact hold
      · rw [slotFor_of_mutes hmutes st.hub c r.2] at hslot
        cases hslot
    obtain ⟨hclean, hnone⟩ := h.apart hbefore
    refine ⟨?_, fun c' hc' hshared listener other hlistener hne hother =>
      own_turn st (hnone c' hc' hshared listener other hlistener hne hother)⟩
    by_cases hsender : s.sender = user
    · rw [mixerOf_turn]
      · exact hclean
      · intro he
        by_cases hchannel : c.channelId = channel
        · subst hchannel
          exact slotFor_ne_shared hvalid hmutes hc hroute hsender hr hmixed h hbefore he.symm
        · rcases hslots with hslot | hslot
          · rw [hslot] at he
            exact hchannel (Slot.shared.inj he).symm
          · rw [hslot] at he
            cases he
    · exact clean_turn_of_speaker st hsender hclean

lemma Sheltered.step (h : w.Sheltered n session channel user w.hub) (hvalid : w.Valid)
    (hmutes : w.Mutes ac session channel user) (e : Event) :
    (w.step ac e).Sheltered n session channel user (w.step ac e).hub := by
  cases e with
  | prefs changed prefs =>
    refine ⟨h.own, fun hsub => ⟨(h.apart hsub).1, ?_⟩⟩
    intro c hc hshared listener other hlistener hne hother
    exact (h.apart hsub).2 c hc hshared listener other ((mixedListener_setPrefs changed prefs).mp hlistener) hne hother
  | frame k s =>
    rw [World.step]
    split
    · exact h
    next c hc =>
      obtain rfl := hvalid.keyed k c hc
      split
      next hroute =>
        have hhub := splitMixed_invariant (f := s.feed w.frames)
          (fun hub => w.Sheltered n session channel user hub) h
          fun st r hr hmixed hst => hst.turn hvalid hmutes hc hroute hr hmixed
        exact ⟨hhub.own, hhub.apart⟩
      · exact h
  | tick slot now =>
    obtain ⟨hassign, hsub, hholds⟩ :=
      w.hub.tick_spec w.sessions (fun s channel => s.prefs.focusGain ac channel) slot now
    refine ⟨fun x hx => h.own x (hholds _ x hx), fun hs => ?_⟩
    obtain ⟨hclean, hnone⟩ := h.apart (hsub _ _ hs)
    exact ⟨fun x hx => hclean x (hholds _ x hx), fun c hc hshared listener other hlistener hne hother =>
      hassign ▸ hnone c hc hshared listener other hlistener hne hother⟩

/-- A packet of the receiver's mix holds audio of the user that was pushed as the `n`-th frame or later. -/
def Leaks (n : ℕ) (session : SessionId) (channel : ChannelId) (user : UserId) (x : MixHub.Sealed D) : Prop :=
  x.session = session ∧ x.channel = channel ∧ ∃ ssrc part, x.parts.find ssrc = some part ∧
    ∃ y ∈ part.samples, y.speaker = some user ∧ n ≤ y.frame

variable (ac w) in
/-- Whatever happens while the receiver mutes the user, nothing the user says from now on is in its mix. -/
def Silenced (session : SessionId) (channel : ChannelId) (user : UserId) : Prop :=
  ∀ es, Traces.Meets (step ac) (fun w e => (w.step ac e).Mutes ac session channel user) w es →
    ∀ x ∈ Traces.outputs (step ac) (sealed ac) w es, ¬ Leaks w.frames session channel user x

lemma not_leaks_of_sheltered (h : w.Sheltered n session channel user w.hub) (hvalid : w.Valid) (e : Event) :
    ∀ x ∈ w.sealed ac e, ¬ Leaks n session channel user x := by
  rintro x hx ⟨rfl, rfl, ssrc, part, hpart, y, hy, hspeaker, hn⟩
  cases e with
  | prefs | frame => cases hx
  | tick slot =>
    obtain ⟨hchannel, hsub, -, -, hheld⟩ := of_mem_tick hx
    have hold := hheld ssrc part hpart y hy
    cases slot with
    | shared k =>
      obtain rfl : x.channel = k := hchannel
      exact absurd ((h.apart hsub).1 y hold hspeaker) (by omega)
    | privateTo other k =>
      obtain rfl : x.channel = k := hchannel
      obtain rfl := hvalid.alone _ _ _ hsub
      exact absurd (h.own y hold hspeaker) (by omega)

lemma silenced_of_invariant (I : World P D → Prop) (hstart : I w) (hmutes : w.Mutes ac session channel user)
    (hstep : ∀ v e, I v → v.Mutes ac session channel user → I (v.step ac e))
    (hsafe : ∀ v e, I v → ∀ x ∈ v.sealed ac e, ¬ Leaks w.frames session channel user x) :
    w.Silenced ac session channel user := by
  intro es hes
  rw [Traces.forall_outputs_iff]
  have hiff : Traces.Meets (step ac) (fun v e => ∀ x ∈ v.sealed ac e, ¬ Leaks w.frames session channel user x)
      w es ↔ Traces.Meets (step ac) (fun _ _ => True) w es :=
    Traces.meets_iff (fun v => I v ∧ v.Mutes ac session channel user)
      (fun v e hv hnext => ⟨hstep v e hv.1 hv.2, hnext⟩)
      (fun v e hv _ => iff_of_true (hsafe v e hv.1) trivial) hes ⟨hstart, hmutes⟩
  exact hiff.mpr (Traces.meets_of_forall (fun _ _ => trivial) _ _)

lemma silenced_of_not_exposed (hvalid : w.Valid) (hmutes : w.Mutes ac session channel user)
    (h : ¬ w.Exposed session channel user) : w.Silenced ac session channel user := by
  by_cases hreach : serves w.sessions channel session = true ∧ (w.sessions session).bound = true
  · apply silenced_of_invariant (fun v => v.Valid ∧ v.Sheltered w.frames session channel user v.hub) _ hmutes
    · exact fun v e hv hmutes => ⟨hv.1.step e, hv.2.step hv.1 hmutes e⟩
    · exact fun v e hv => not_leaks_of_sheltered hv.2 hv.1 e
    · refine ⟨hvalid, fun x hx _ => hvalid.past _ x hx, fun hsub => ⟨fun x hx _ => hvalid.past _ x hx, ?_⟩⟩
      intro c hc hshared listener other hlistener hne hother
      by_contra hfree
      exact h ⟨hreach.1, hreach.2, hsub, c, hc, hshared, listener, other, hlistener, hne, hother, hfree⟩
  · apply silenced_of_invariant
      (fun v => ¬ (serves v.sessions channel session = true ∧ (v.sessions session).bound = true)) hreach hmutes
    · intro v e hv _ hnext
      apply hv
      cases e with
      | prefs changed prefs =>
        rw [serves, ← v.setPrefs_sessions changed prefs session]
        exact hnext
      | frame =>
        rw [sessions_frame] at hnext
        exact hnext
      | tick => exact hnext
    · rintro v e hv x hx ⟨rfl, rfl, -⟩
      cases e with
      | prefs | frame => cases hx
      | tick =>
        obtain ⟨hchannel, -, hserves, hbound, -⟩ := of_mem_tick hx
        exact hv ⟨hchannel ▸ hserves, hbound⟩

def plainPrefs : ReceiverPrefs ℚ := ⟨∅, ∅, .empty, ∅, ∅, none, 1⟩

def outcry (user : UserId) (now : ℕ) : Spoken where
  origin := .relayed none
  sender := user
  gates := ⟨1, 1, fun _ => none, fun _ => none⟩
  ssrc := 0
  payload := [0]
  now := now
  opens _ := true
  decoded _ := [(0, 0)]

lemma exists_idle (m : OpusMixer D) : ∃ now, ∀ ssrc, (m.retained now).find ssrc = none := by
  refine ⟨m.senders.keys.sup (fun ssrc => ((m.senders.find ssrc).map SenderState.lastSeen).getD 0) + senderIdle, ?_⟩
  intro ssrc
  rw [retained, find_filterValues, filter_eq_none_iff]
  intro s hs
  have hle : s.lastSeen ≤
      m.senders.keys.sup fun ssrc => ((m.senders.find ssrc).map SenderState.lastSeen).getD 0 := by
    have hsup := Finset.le_sup (f := fun ssrc => ((m.senders.find ssrc).map SenderState.lastSeen).getD 0)
      (mem_keys_iff.mpr ⟨s, hs⟩)
    simpa [hs] using hsup
  simp only [decide_eq_true_eq, not_lt]
  omega

variable {now : ℕ}

lemma tick_idle {node : MixNode D} (hnode : w.hub.nodes.find slot = some node)
    (hidle : ∀ ssrc, (node.mixer.retained now).find ssrc = none) :
    w.step ac (.tick slot now) =
      { w with hub := { w.hub with nodes := w.hub.nodes.set slot ⟨⟨.empty⟩, node.subscribers⟩ } } := by
  have hempty : node.mixer.retained now = .empty := ext hidle
  have hframe : node.mixer.mixFrame now = (.empty, ⟨.empty⟩) := by
    rw [mixFrame, hempty]
    refine Prod.ext (ext fun _ => rfl) ?_
    exact congrArg OpusMixer.mk (ext fun _ => rfl)
  simp only [step, tick, MixHub.tick, hnode, hframe]
  rfl

lemma exists_sealed {s : SenderState D} {y : Sample} {ys : List Sample}
    (hsub : w.hub.subscribed slot session = true) (hserves : serves w.sessions slot.channel session = true)
    (hbound : (w.sessions session).bound = true) (hs : (w.hub.mixerOf slot).senders.find ssrc = some s)
    (hqueue : s.queue = y :: ys) (hseen : now - s.lastSeen < senderIdle) :
    ∃ x ∈ w.sealed ac (.tick slot now), x.session = session ∧ x.channel = slot.channel ∧
      ∃ part, x.parts.find ssrc = some part ∧ y ∈ part.samples := by
  obtain ⟨node, hnode, hmem⟩ := (any_eq_true _ _).mp hsub
  have hretained : (node.mixer.retained now).find ssrc = some s := by
    rw [retained, find_filterValues]
    simp only [mixerOf, hnode, map_some, getD_some] at hs
    simp [hs, hseen]
  have hpart : (node.mixer.mixFrame now).1.find ssrc = some ⟨s.mix, s.queue.take frameSamples⟩ := by
    have hkey : ssrc ∈ (node.mixer.retained now).keys := mem_keys_iff.mpr ⟨s, hretained⟩
    simp only [mixFrame, parts, find_tabulate, if_pos hkey, hretained, bind_some]
    simp [hqueue]
  have hsome : (node.mixer.mixFrame now).1.keys ≠ ∅ := by
    intro hempty
    have hkey := mem_keys_iff.mpr ⟨_, hpart⟩
    rw [hempty] at hkey
    exact Finset.notMem_empty _ hkey
  refine ⟨⟨session, slot.channel, mixVolume slot ((w.sessions session).prefs.focusGain ac slot.channel),
    (node.mixer.mixFrame now).1⟩, ?_, rfl, rfl, _, hpart, ?_⟩
  · simp only [sealed, tick, MixHub.tick, hnode]
    rw [if_neg hsome]
    refine mem_map.mpr ⟨session, ?_, rfl⟩
    simp only [mem_filter, mem_ascending, Finset.mem_filter]
    exact ⟨⟨by simpa using hmem, hserves⟩, hbound⟩
  · rw [hqueue]
    exact mem_cons_self

section
variable {distance : P → P → ℚ} {bearing : P → P → D} {ac : Acoustics ℚ P D} (hac : ac = exactly distance bearing)
include hac

lemma admits_outcry {sessions : Sessions} (hne : listener ≠ user) (hplain : (sessions other).prefs = plainPrefs) :
    Admits ac (outcry user now).gates sessions channel user listener other := by
  have hgain : uniformGain ac (outcry user now).gates sessions channel other = 1 := by
    simp [uniformGain, hplain, plainPrefs, ReceiverPrefs.focusGain, outcry, hac, exactly]
  refine ⟨hne, ?_, ?_⟩
  · rw [hgain]
    decide +kernel
  · intro gate hgate
    cases hgate

lemma outcry_leaks (now : ℕ) (hosts : c.Hosts w.sessions)
    (hc : w.channels.find c.channelId = some c) (hshared : c.supportsSharedMix = true)
    (hmutes : w.Mutes ac session c.channelId user)
    (hserves : serves w.sessions c.channelId session = true) (hbound : (w.sessions session).bound = true)
    (hsub : w.hub.subscribed (.shared c.channelId) session = true)
    (hempty : w.hub.mixerOf (.shared c.channelId) = ⟨.empty⟩) (hlistener : MixedListener c w.sessions listener other)
    (hne : listener ≠ user) (hplain : (w.sessions other).prefs = plainPrefs)
    (hfree : w.hub.assignments.find (other, c.channelId) ≠ some (.privateTo other c.channelId)) :
    ∃ x ∈ (w.step ac (.frame c.channelId (outcry user now))).sealed
        ac (.tick (.shared c.channelId) now),
      Leaks w.frames session c.channelId user x := by
  have huniform : (w.sessions other).prefs.isUniform = true := by
    rw [hplain]
    rfl
  have he : Eligible c w.sessions listener other :=
    ⟨hlistener.member, hlistener.native, hlistener.active, hlistener.mixed, hlistener.listens, huniform⟩
  let copies := mixedCopies c w.sessions ac (outcry user now).gates (outcry user now).origin user
  let start : Pushing D := ⟨w.hub, false, [], fun _ => none⟩
  let done := copies.foldl (turn c w.sessions true ((outcry user now).feed w.frames)) start
  have hstep : w.step ac (.frame c.channelId (outcry user now)) =
      { w with hub := done.hub, frames := w.frames + 1 } := by
    simp only [step, hc, mayRoute, outcry, if_true, speak]
    simp [splitMixed, mayMix_of_wantsMix he.member he.mixed, done, copies, start, mixedCopies, push, outcry]
  have hopen := mem_keys_of_subscribed hsub
  have hnodup := nodup_mixedCopies hosts ac (outcry user now).gates (outcry user now).origin user
  have hfed : done.sharedFed = true := by
    apply (turns_shared (f := (outcry user now).feed w.frames) start rfl hopen hnodup).2.mpr
    have hspeaks : Speaks c user (outcry user now).origin := trivial
    refine .inr ((exists_shared_iff hac w.hub hosts hshared hspeaks fun _ => rfl).mpr ?_)
    exact ⟨listener, other, he, hfree, admits_outcry hac hne hplain⟩
  have hmixer : done.hub.mixerOf (.shared c.channelId) =
      pushOpus ⟨.empty⟩ ⟨some user, w.frames, 0, [0]⟩ ⟨1, none⟩ [(0, 0)] now := by
    rw [← hempty]
    exact mixerOf_turns_shared start rfl hopen rfl hfed
  have hstays : done.hub.subscribed (.shared c.channelId) session = true := by
    rw [← hsub]
    apply (turns_other _).2
    intro hmem
    obtain ⟨copy, hcopy, rfl⟩ := mem_map.mp hmem
    obtain ⟨-, -, hgain⟩ := LiveChannel.member_of_mem_copies (mem_filter.mp hcopy).1
    exact hgain hmutes
  rw [hstep]
  have hqueued : (done.hub.mixerOf (.shared c.channelId)).senders.find 0 =
      some ⟨[⟨0, 0, some user, w.frames⟩], ⟨1, none⟩, now⟩ := by
    rw [hmixer]
    exact find_pushOpus_empty (0, 0) (cons_ne_nil _ _)
  have hseen : now - now < senderIdle := by simp [senderIdle]
  obtain ⟨x, hx, hsession, hchannel, part, hpart, hy⟩ :=
    exists_sealed (w := { w with hub := done.hub, frames := w.frames + 1 }) hstays hserves hbound hqueued rfl hseen
  exact ⟨x, hx, hsession, hchannel, 0, part, hpart, _, hy, rfl, le_rfl⟩

lemma not_silenced_of_exposed (hvalid : w.Valid) (hmutes : w.Mutes ac session channel user)
    (h : w.Exposed session channel user) : ¬ w.Silenced ac session channel user := by
  obtain ⟨hserves, hbound, hsub, c, hc, hshared, listener, other, hlistener, hne, hother, hfree⟩ := h
  obtain rfl := hvalid.keyed _ _ hc
  obtain ⟨node, hnode, hmem⟩ := (any_eq_true _ _).mp hsub
  obtain ⟨now, hidle⟩ := exists_idle node.mixer
  intro hsilenced
  let quiet : World P D := (w.setPrefs other plainPrefs).step ac (.tick (.shared c.channelId) now)
  have hquiet : quiet = { w.setPrefs other plainPrefs with
      hub := { w.hub with nodes := w.hub.nodes.set (.shared c.channelId) ⟨⟨.empty⟩, node.subscribers⟩ } } :=
    tick_idle hnode hidle
  have hsession : quiet.sessions session = w.sessions session := by
    exact Function.update_of_ne hother.symm _ _
  have hquietSub : quiet.hub.subscribed (.shared c.channelId) session = true := by
    rw [hquiet]
    simpa [subscribed] using hmem
  have hkept : quiet.Mutes ac session c.channelId user := by
    rw [Mutes, hsession]
    exact hmutes
  have hquietServes : serves quiet.sessions c.channelId session = true := by
    rw [serves, hsession]
    exact hserves
  have hquietListener : MixedListener c quiet.sessions listener other := by
    exact (mixedListener_setPrefs other plainPrefs).mpr hlistener
  have hplain : (quiet.sessions other).prefs = plainPrefs := by
    rw [hquiet]
    simp [setPrefs]
  have hempty : quiet.hub.mixerOf (.shared c.channelId) = ⟨.empty⟩ := by
    rw [hquiet]
    simp [mixerOf]
  have hquietFree : quiet.hub.assignments.find (other, c.channelId) ≠ some (.privateTo other c.channelId) := by
    rw [hquiet]
    exact hfree
  obtain ⟨x, hx, hleaks⟩ := outcry_leaks (w := quiet) hac now (hquiet ▸ hosts_setPrefs (hvalid.hosts _ _ hc))
    (hquiet ▸ hc) hshared hkept hquietServes (hsession ▸ hbound) hquietSub hempty hquietListener hne hplain
    hquietFree
  have hframes : quiet.frames = w.frames := by
    rfl
  refine hsilenced [.prefs other plainPrefs, .tick (.shared c.channelId) now,
    .frame c.channelId (outcry user now), .tick (.shared c.channelId) now] ?_ x ?_ (hframes ▸ hleaks)
  · have hfirst : (w.setPrefs other plainPrefs).Mutes ac session c.channelId user := by
      have hupdate : (w.setPrefs other plainPrefs).sessions session = w.sessions session :=
        Function.update_of_ne hother.symm _ _
      rw [Mutes, hupdate]
      exact hmutes
    have hlast : (quiet.step ac (.frame c.channelId (outcry user now))).Mutes ac session c.channelId user := by
      rw [Mutes, sessions_frame]
      exact hkept
    exact ⟨hfirst, hkept, hlast, hlast, trivial⟩
  · simp only [Traces.outputs, mem_append]
    exact .inr (.inr (.inr (.inl hx)))

end

end World

namespace Sample

def mutingOne : ReceiverPrefs ℚ := ⟨{1}, ∅, .empty, ∅, ∅, none, 1 / 5⟩

def quiet : World Unit Unit where
  sessions := session
  channels := empty.set 7 (stage none ⟨0, none, none⟩)
  hub := ⟨.empty, .empty⟩
  frames := 0

lemma quiet_fresh : quiet.Fresh where
  keyed k c h := by
    simp only [quiet, find_set, find_empty] at h
    split_ifs at h with hk
    obtain rfl := some.inj h
    exact hk.symm
  hosts k c h := by
    simp only [quiet, find_set, find_empty] at h
    split_ifs at h
    obtain rfl := some.inj h
    exact stage_hosts _ _
  idle := rfl

lemma mutes_one {w : World Unit Unit} (h : (w.sessions 2).prefs = mutingOne) : w.Mutes flat 2 7 1 := by
  rw [World.Mutes, h]
  rfl

def greeting : Spoken where
  origin := .uplink
  sender := 1
  gates := ⟨1, 1, fun _ => none, fun _ => none⟩
  ssrc := 5
  payload := [1]
  now := 0
  opens _ := true
  decoded _ := [(0, 0)]

lemma ascending_eq {s : Finset UserId} {users : List UserId} (hs : s = users.toFinset) (hnodup : users.Nodup)
    (hsorted : users.Pairwise (· ≤ ·)) : ascending s = users := by
  rw [hs]
  exact (toFinset_sort _ hnodup).mpr hsorted

lemma copies_greeting : (stage none ⟨0, none, none⟩).copies session flat greeting.gates .uplink 1 =
    [(2, ⟨1, none⟩), (3, ⟨1, none⟩)] := by
  have hkeys : ascending (stage none ⟨0, none, none⟩).participants.keys = [1, 2, 3] :=
    ascending_eq (by decide) (by decide) (by decide)
  have hentries : (stage none ⟨0, none, none⟩).participants.entries = [(1, 1), (2, 2), (3, 3)] := by
    unfold entries
    rw [hkeys]
    rfl
  have hparticipants : ((stage none ⟨0, none, none⟩).routing session).participants =
      [⟨1, (session 1).prefs⟩, ⟨2, (session 2).prefs⟩, ⟨3, (session 3).prefs⟩] :=
    congrArg (map fun e : UserId × SessionId => (⟨e.1, (session e.2).prefs⟩ : Participant ℚ)) hentries
  rw [LiveChannel.copies, receivers_eq (stage_shares _ _) (one_speaks _ _), MediaChannel.applyReceiverPrefs,
    MediaChannel.allOthersFullVolume, hparticipants]
  decide +kernel

def overheard : World Unit Unit := [Event.frame 7 greeting, .prefs 2 mutingOne].foldl (World.step flat) quiet

lemma overheard_hub : overheard.hub =
    ((⟨.empty, .empty⟩ : MixHub Unit).push (stage none ⟨0, none, none⟩) session true (greeting.feed 0)
      [(2, ⟨1, none⟩), (3, ⟨1, none⟩)]).hub := by
  change ((⟨.empty, .empty⟩ : MixHub Unit).splitMixed (stage none ⟨0, none, none⟩) session true false
    (greeting.feed 0) ((stage none ⟨0, none, none⟩).copies session flat greeting.gates .uplink 1)).2.hub = _
  rw [copies_greeting]
  rfl

end Sample

end AurixVoice.Mixing
