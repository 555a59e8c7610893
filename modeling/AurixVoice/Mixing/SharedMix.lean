import AurixVoice.Mixing.Assignments

namespace AurixVoice.Mixing

open Media (Mix LiveChannel LiveSession Sessions Origin Acoustics exactly FrameGates MediaChannel Participant)
open MixHub List

variable {P D : Type}

namespace Pushing

open MixHub (Feed)

variable {c : LiveChannel P} {sessions : Sessions} {sharedOk : Bool} {f : Feed} {st : Pushing D}
  {r : SessionId × Mix ℚ D} {rs : List (SessionId × Mix ℚ D)} {slot : Slot} {session : SessionId}
  {channel : ChannelId}

def entersAt (st : Pushing D) (focusGain : ℚ) (session : SessionId) (channel : ChannelId) : Option ℚ :=
  (st.hub.assignments.find (session, channel)).bind fun slot =>
    if st.hub.subscribed slot session then
      (st.fed slot).map fun mix => mix.volume * mixVolume slot focusGain
    else none

def FedAtUnity (st : Pushing D) (channel : ChannelId) : Prop :=
  st.fed (.shared channel) = if st.sharedFed then some ⟨1, none⟩ else none

lemma fed_serve_private (st : Pushing D) (mix : Mix ℚ D) (other : Slot) :
    (st.serve f (.privateTo session channel) mix).fed other =
      if other = .privateTo session channel then some mix else st.fed other := by
  simp [serve, feed, Function.update_apply]

lemma fedAtUnity_serve (st : Pushing D) (h : st.FedAtUnity channel) (mix : Mix ℚ D)
    (hslot : slot = .shared channel ∨ slot = .privateTo session channel) :
    (st.serve f slot mix).FedAtUnity channel ∧
      ((st.serve f slot mix).sharedFed = true ↔ st.sharedFed = true ∨ slot = .shared channel) := by
  unfold FedAtUnity at h ⊢
  rcases hslot with rfl | rfl
  · by_cases hfed : st.sharedFed = true
    · simp only [serve, hfed, if_true] at h ⊢
      exact ⟨h, by simp⟩
    · simp [serve, hfed, feed]
  · refine ⟨?_, by simp [serve, feed]⟩
    exact h

lemma fed_serve_of_ne (h : Slot.privateTo session channel ≠ slot) (mix : Mix ℚ D) :
    (st.serve f slot mix).fed (.privateTo session channel) = st.fed (.privateTo session channel) := by
  cases slot with
  | shared =>
    by_cases hfed : st.sharedFed = true <;> simp [serve, hfed, feed]
  | privateTo => rw [fed_serve_private, if_neg h]

variable (st : Pushing D)

lemma turn_shared (r : SessionId × Mix ℚ D) (hunity : st.FedAtUnity c.channelId)
    (hslot : Slot.shared c.channelId ∈ st.hub.nodes.keys) :
    (st.turn c sessions sharedOk f r).FedAtUnity c.channelId ∧
      ((st.turn c sessions sharedOk f r).sharedFed = true ↔
        st.sharedFed = true ∨ st.hub.slotFor c sessions sharedOk r = .shared c.channelId) := by
  have hcases := st.hub.slotFor_eq_or c sessions sharedOk r
  cases hnode : st.hub.node f.opens (st.hub.slotFor c sessions sharedOk r) with
  | some =>
    rw [turn_eq hnode]
    apply fedAtUnity_serve _ _ _ hcases
    exact hunity
  | none =>
    rw [turn_eq_of_none hnode]
    refine ⟨hunity, ⟨.inl, ?_⟩⟩
    rintro (hfed | hshared)
    · exact hfed
    · rw [hshared, node_of_mem hslot] at hnode
      cases hnode

lemma turns_shared (hunity : st.FedAtUnity c.channelId) (hslot : Slot.shared c.channelId ∈ st.hub.nodes.keys)
    (hnodup : (rs.map Prod.fst).Nodup) :
    (rs.foldl (turn c sessions sharedOk f) st).FedAtUnity c.channelId ∧
      ((rs.foldl (turn c sessions sharedOk f) st).sharedFed = true ↔
        st.sharedFed = true ∨ ∃ r ∈ rs, st.hub.slotFor c sessions sharedOk r = .shared c.channelId) := by
  induction rs generalizing st with
  | nil => exact ⟨hunity, by simp⟩
  | cons r rs ih =>
    rw [map_cons, nodup_cons] at hnodup
    obtain ⟨hnext, hfed⟩ := turn_shared (f := f) st r hunity hslot
    obtain ⟨hend, hends⟩ := ih (st.turn c sessions sharedOk f r) hnext (keys_turn st r hslot) hnodup.2
    refine ⟨hend, ?_⟩
    -- The receivers still to come are assigned as they were before this turn.
    have hsame : ∀ q ∈ rs, (st.turn c sessions sharedOk f r).hub.slotFor c sessions sharedOk q =
        st.hub.slotFor c sessions sharedOk q := by
      intro q hq
      have hne : q.1 ≠ r.1 := fun he => hnodup.1 (he ▸ mem_map_of_mem hq)
      exact slotFor_congr ((turn_other hne).1 _)
    rw [foldl_cons, hends, hfed, exists_mem_cons_iff, or_assoc]
    refine or_congr_right (or_congr_right ?_)
    constructor
    · rintro ⟨q, hq, hshared⟩
      exact ⟨q, hq, hsame q hq ▸ hshared⟩
    · rintro ⟨q, hq, hshared⟩
      exact ⟨q, hq, (hsame q hq).trans hshared⟩

lemma fed_turns_of_notMem (h : session ∉ rs.map Prod.fst) :
    (rs.foldl (turn c sessions sharedOk f) st).fed (.privateTo session channel) =
      st.fed (.privateTo session channel) := by
  induction rs generalizing st with
  | nil => rfl
  | cons r rs ih =>
    rw [map_cons, mem_cons, not_or] at h
    rw [foldl_cons, ih _ h.2]
    cases hnode : st.hub.node f.opens (st.hub.slotFor c sessions sharedOk r) with
    | none => rw [turn_eq_of_none hnode]
    | some =>
      rw [turn_eq hnode]
      apply fed_serve_of_ne
      rcases st.hub.slotFor_eq_or c sessions sharedOk r with hslot | hslot
      · rw [hslot]
        exact nofun
      · rw [hslot]
        exact fun he => h.1 (Slot.privateTo.inj he).1

lemma turns_private {mix : Mix ℚ D} (hr : (session, mix) ∈ rs) (hnodup : (rs.map Prod.fst).Nodup)
    (hslot : Slot.privateTo session c.channelId ∈ st.hub.nodes.keys)
    (hown : st.hub.assignments.find (session, c.channelId) = some (.privateTo session c.channelId)) :
    (rs.foldl (turn c sessions sharedOk f) st).fed (.privateTo session c.channelId) = some mix := by
  induction rs generalizing st with
  | nil => cases hr
  | cons r rs ih =>
    rw [map_cons, nodup_cons] at hnodup
    rw [foldl_cons]
    rcases mem_cons.mp hr with rfl | hlater
    · rw [fed_turns_of_notMem _ hnodup.1]
      have hself : st.hub.slotFor c sessions sharedOk (session, mix) = .privateTo session c.channelId := by
        simp [slotFor, hown]
      rw [turn_eq (hself ▸ node_of_mem hslot), hself, fed_serve_private, if_pos rfl]
    · have hne : session ≠ r.1 := fun he => hnodup.1 (he ▸ mem_map_of_mem hlater)
      exact ih _ hlater hnodup.2 (keys_turn st r hslot) (((turn_other hne).1 _).trans hown)

lemma turns_stay (hnodup : (rs.map Prod.fst).Nodup) (hslot : slot ∈ st.hub.nodes.keys)
    (hassigned : st.hub.assignments.find (session, c.channelId) = some slot)
    (hsubscribed : st.hub.subscribed slot session = true)
    (hstays : ∀ mix, (session, mix) ∈ rs → st.hub.slotFor c sessions sharedOk (session, mix) = slot) :
    (rs.foldl (turn c sessions sharedOk f) st).hub.assignments.find (session, c.channelId) = some slot ∧
      (rs.foldl (turn c sessions sharedOk f) st).hub.subscribed slot session = true := by
  induction rs generalizing st with
  | nil => exact ⟨hassigned, hsubscribed⟩
  | cons r rs ih =>
    rw [map_cons, nodup_cons] at hnodup
    rw [foldl_cons]
    by_cases hself : session = r.1
    · subst hself
      obtain ⟨hassign, hsubscribe⟩ := turns_other (c := c) (f := f) hnodup.1
      rw [hassign, hsubscribe]
      have hr := hstays r.2 mem_cons_self
      have hnow := turn_self (f := f) (hr ▸ hslot)
      rw [hr] at hnow
      exact hnow
    · obtain ⟨hassign, hsubscribe⟩ := turn_other (c := c) (f := f) hself
      apply ih _ hnodup.2 (keys_turn st r hslot) ((hassign _).trans hassigned) ((hsubscribe _).trans hsubscribed)
      intro mix hmix
      rw [← hstays mix (mem_cons_of_mem _ hmix)]
      exact slotFor_congr (hassign _)

end Pushing

structure Eligible (c : LiveChannel P) (sessions : Sessions) (user : UserId) (session : SessionId) : Prop where
  member : c.participants.find user = some session
  native : (sessions session).transport = .aurx
  active : (sessions session).active = true
  mixed : c.wantsMix (sessions session) = true
  listens : c.canTransmit user = false
  uniform : (sessions session).prefs.isUniform = true

/-- The router takes a frame of a local sender only if they may transmit. -/
def Speaks (c : LiveChannel P) (sender : UserId) : Origin → Prop
  | .uplink => c.canTransmit sender = true
  | .relayed _ => True

section
variable (ac : Acoustics ℚ P D) (gates : FrameGates ℚ) (sessions : Sessions) (channel : ChannelId)

def uniformGain (session : SessionId) : ℚ := (sessions session).prefs.focusGain ac channel * gates.duck

/-- The frame of another speaker is audible at that gain and the stream cap leaves it to the receiver. -/
def Admits (sender user : UserId) (session : SessionId) : Prop :=
  user ≠ sender ∧ 1 / 1000 < uniformGain ac gates sessions channel session ∧
    ∀ gate ∈ gates.cap user, 0 < gate (uniformGain ac gates sessions channel session * gates.level)

end

def mixedCopies (c : LiveChannel P) (sessions : Sessions) (ac : Acoustics ℚ P D) (gates : FrameGates ℚ)
    (origin : Origin) (sender : UserId) : List (SessionId × Mix ℚ D) :=
  (c.copies sessions ac gates origin sender).filter (isMixed c sessions)

lemma nodup_mixedCopies {c : LiveChannel P} {sessions : Sessions} (hosts : c.Hosts sessions)
    (ac : Acoustics ℚ P D) (gates : FrameGates ℚ) (origin : Origin) (sender : UserId) :
    ((mixedCopies c sessions ac gates origin sender).map Prod.fst).Nodup :=
  (LiveChannel.nodup_copies hosts).sublist (filter_sublist.map _)

section
variable {c : LiveChannel P} {sessions : Sessions} {distance : P → P → ℚ} {bearing : P → P → D}
  {gates : FrameGates ℚ} {origin : Origin} {sender user : UserId} {session : SessionId}

lemma receivers_eq (hmix : c.supportsSharedMix = true) (hspeaks : Speaks c sender origin) (ac : Acoustics ℚ P D) :
    c.receivers sessions ac gates origin sender = (c.routing sessions).applyReceiverPrefs ac gates sender
      ((c.routing sessions).allOthersFullVolume ac sender) := by
  have htype : c.config.channelType = .team ∨ c.config.channelType = .command := by
    simp only [LiveChannel.supportsSharedMix, Bool.and_eq_true, decide_eq_true_eq] at hmix
    exact hmix.1
  cases origin with
  | uplink =>
    rw [LiveChannel.receivers, MediaChannel.getReceiversForAudio]
    congr 1
    have hconfig : (c.routing sessions).config = c.config := rfl
    rw [MediaChannel.routedReceivers, hconfig]
    rcases htype with htype | htype
    · rw [htype]
    · have hallowed : (((c.routing sessions).getRole sender).canSpeak ||
          (c.config.commandSpeakers.map fun s => decide (sender ∈ s)).getD false) = true := by
        simp only [Speaks, LiveChannel.canTransmit, htype, decide_true] at hspeaks
        split_ifs at hspeaks
        rw [Bool.or_eq_true] at hspeaks ⊢
        refine hspeaks.imp id ?_
        cases c.config.commandSpeakers <;> simp
      rw [htype]
      exact if_pos hallowed
  | relayed =>
    rw [LiveChannel.receivers, MediaChannel.getReceiversForRelayedAudio]
    rcases htype with htype | htype <;> simp only [LiveChannel.routing, htype]

lemma ne_sender_of_mem_copies (hosts : c.Hosts sessions) (hmix : c.supportsSharedMix = true)
    (hspeaks : Speaks c sender origin) {ac : Acoustics ℚ P D} {copy : SessionId × Mix ℚ D}
    (h : copy ∈ c.copies sessions ac gates origin sender) : (sessions copy.1).userId ≠ sender := by
  obtain ⟨r, hr, hfind, -⟩ := LiveChannel.mem_copies.mp h
  rw [receivers_eq hmix hspeaks] at hr
  obtain ⟨q, hq, hheard⟩ := mem_filterMap.mp hr
  obtain ⟨p, -, hne, rfl⟩ := (MediaChannel.mem_allOthersFullVolume ac).mp hq
  rw [hosts _ _ hfind, MediaChannel.heardAs_fst ac hheard]
  exact hne

section

variable {ac : Acoustics ℚ P D} (hac : ac = exactly distance bearing)
include hac

lemma gainFor_of_uniform {prefs : Media.ReceiverPrefs ℚ} (h : prefs.isUniform = true) (channel : ChannelId) :
    prefs.gainFor ac sender channel = some (prefs.focusGain ac channel) := by
  simp only [Media.ReceiverPrefs.isUniform, decide_eq_true_eq] at h
  obtain ⟨hmuted, hin, hgain, hblocked, hby⟩ := h
  have hfind : prefs.gain.find sender = none := by
    rw [← Option.not_isSome_iff_eq_none, ← prefs.gain.mem_keys, hgain]
    exact Finset.notMem_empty _
  simp [Media.ReceiverPrefs.gainFor, hmuted, hin, hblocked, hby, hfind, hac, exactly]

lemma receivedVolume_of_uniform {p : Participant ℚ} (h : p.prefs.isUniform = true)
    (hprefs : p.prefs = (sessions session).prefs) (hambient : gates.ambient p.userId = none) :
    (c.routing sessions).receivedVolume ac gates sender p (Mix.unity ac) =
      if 1 / 1000 < uniformGain ac gates sessions c.channelId session ∧
          ∀ gate ∈ gates.cap p.userId, 0 < gate (uniformGain ac gates sessions c.channelId session * gates.level)
      then some (uniformGain ac gates sessions c.channelId session) else none := by
  have hgain : (c.routing sessions).channelId = c.channelId := rfl
  rw [MediaChannel.receivedVolume, gainFor_of_uniform hac h, hambient, hgain, hprefs]
  have hvolume : ac.mul (ac.mul (Mix.unity (D := D) ac).volume ((sessions session).prefs.focusGain ac c.channelId))
      gates.duck = uniformGain ac gates sessions c.channelId session := by
    simp [hac, exactly, Mix.unity, uniformGain]
  dsimp only
  rw [hvolume]
  generalize uniformGain ac gates sessions c.channelId session = v
  cases hcap : gates.cap p.userId with
  | none => simp [Media.audible, hac, exactly]
  | some gate =>
    by_cases hv : 1 / 1000 < v <;> by_cases hg : 0 < gate (v * gates.level) <;>
      simp_all [Media.audible, exactly]

variable {mix : Mix ℚ D}

section

variable (hosts : c.Hosts sessions) (hmix : c.supportsSharedMix = true) (hspeaks : Speaks c sender origin)
  (hambient : ∀ user, gates.ambient user = none) (he : Eligible c sessions user session)
include hosts hmix hspeaks hambient he

lemma mem_copies_of_eligible :
    (session, mix) ∈ c.copies sessions ac gates origin sender ↔
      Admits ac gates sessions c.channelId sender user session ∧
        mix = ⟨uniformGain ac gates sessions c.channelId session, none⟩ := by
  have hheard : ∀ p : Participant ℚ, p.prefs = (sessions session).prefs → p.userId = user → user ≠ sender →
      ∀ q, (c.routing sessions).heardAs ac gates sender (p, .unity ac) = some q ↔
        Admits ac gates sessions c.channelId sender user session ∧
          q = (p, ⟨uniformGain ac gates sessions c.channelId session, none⟩) := by
    intro p hprefs huser hne q
    have huniform : p.prefs.isUniform = true := by
      rw [hprefs]
      exact he.uniform
    rw [MediaChannel.heardAs, receivedVolume_of_uniform hac huniform hprefs (hambient _), huser, Admits]
    split
    next hopen =>
      rw [Option.map_some, Option.some_inj, and_iff_right ⟨hne, hopen⟩, eq_comm]
      rfl
    next hclosed => exact iff_of_false (fun h => by cases h) fun h => hclosed h.1.2
  rw [LiveChannel.mem_copies, receivers_eq hmix hspeaks]
  simp only [MediaChannel.applyReceiverPrefs, mem_filterMap, MediaChannel.mem_allOthersFullVolume]
  constructor
  · rintro ⟨q, ⟨r, ⟨p, hp, hne, rfl⟩, hq⟩, hfind, rfl⟩
    obtain ⟨⟨u, s⟩, hentry, rfl⟩ := mem_map.mp hp
    rw [Dict.mem_entries] at hentry
    rw [MediaChannel.heardAs_fst _ hq] at hfind
    have hu : u = user := (hosts _ _ hfind).symm.trans (hosts _ _ he.member)
    have hs : s = session := Option.some.inj (hentry.symm.trans hfind)
    subst hu hs
    obtain ⟨hadmits, rfl⟩ := (hheard _ rfl rfl hne q).mp hq
    exact ⟨hadmits, rfl⟩
  · rintro ⟨hadmits, rfl⟩
    refine ⟨(⟨user, (sessions session).prefs⟩, _), ⟨_, ⟨⟨user, (sessions session).prefs⟩, ?_, hadmits.1, rfl⟩,
      (hheard _ rfl rfl hadmits.1 _).mpr ⟨hadmits, rfl⟩⟩, he.member, rfl⟩
    exact mem_map.mpr ⟨(user, session), Dict.mem_entries.mpr he.member, rfl⟩

lemma mem_mixedCopies_of_eligible :
    (session, mix) ∈ mixedCopies c sessions ac gates origin sender ↔
      Admits ac gates sessions c.channelId sender user session ∧
        mix = ⟨uniformGain ac gates sessions c.channelId session, none⟩ := by
  rw [mixedCopies, mem_filter, mem_copies_of_eligible hac hosts hmix hspeaks hambient he, and_iff_left]
  simp [isMixed, he.native, he.active, he.mixed]

end

lemma exists_shared_iff (h : MixHub D) (hosts : c.Hosts sessions) (hmix : c.supportsSharedMix = true)
    (hspeaks : Speaks c sender origin) (hambient : ∀ user, gates.ambient user = none) :
    (∃ r ∈ mixedCopies c sessions ac gates origin sender,
      h.slotFor c sessions true r = .shared c.channelId) ↔
    ∃ user session, Eligible c sessions user session ∧
      h.assignments.find (session, c.channelId) ≠ some (.privateTo session c.channelId) ∧
      Admits ac gates sessions c.channelId sender user session := by
  constructor
  · rintro ⟨⟨session, mix⟩, hr, hslot⟩
    simp only [mixedCopies, isMixed, mem_filter, Bool.and_eq_true, decide_eq_true_eq] at hr
    obtain ⟨hcopy, ⟨hnative, hactive⟩, hmixed⟩ := hr
    unfold slotFor at hslot
    dsimp only at hslot
    split at hslot
    next hcond =>
      simp only [Bool.and_eq_true, Bool.not_eq_true', decide_eq_true_eq] at hcond
      obtain ⟨⟨⟨-, hlistens⟩, huniform⟩, hfree⟩ := hcond
      obtain ⟨r, -, hmember, -⟩ := LiveChannel.mem_copies.mp hcopy
      have he : Eligible c sessions r.1.userId session :=
        ⟨hmember, hnative, hactive, hmixed, hosts _ _ hmember ▸ hlistens, huniform⟩
      exact ⟨_, session, he, hfree, ((mem_copies_of_eligible hac hosts hmix hspeaks hambient he).mp hcopy).1⟩
    · cases hslot
  · rintro ⟨user, session, he, hfree, hadmits⟩
    refine ⟨(session, _), (mem_mixedCopies_of_eligible hac hosts hmix hspeaks hambient he).mpr ⟨hadmits, rfl⟩, ?_⟩
    simp [slotFor, hmix, hosts _ _ he.member, he.listens, he.uniform, hfree]

end

lemma mayMix_of_wantsMix (hmember : c.participants.find user = some session)
    (hmixed : c.wantsMix (sessions session) = true) : c.mayMix sessions = true := by
  simp only [LiveChannel.wantsMix, LiveChannel.mayMix, Bool.or_eq_true, Bool.and_eq_true] at hmixed ⊢
  rcases hmixed with hmode | ⟨hlisteners, -⟩
  · exact .inr (any_eq_true.mpr ⟨(user, session), Dict.mem_entries.mpr hmember, hmode⟩)
  · exact .inl hlisteners

end

structure ServedBy (h : MixHub D) (session : SessionId) (channel : ChannelId) (slot : Slot) : Prop where
  assigned : h.assignments.find (session, channel) = some slot
  subscribed : h.subscribed slot session = true

def heardThrough (h : MixHub D) (c : LiveChannel P) (sessions : Sessions) (ac : Acoustics ℚ P D)
    (decodeAudioLevel : UInt8 → ℚ) (origin : Origin) (sender : UserId) (f : MixHub.Feed) (session : SessionId) :
    Option ℚ :=
  let gates := c.frameGates sessions decodeAudioLevel origin sender f.now
  (h.splitMixed c sessions true false f (c.copies sessions ac gates origin sender)).2.entersAt
    ((sessions session).prefs.focusGain ac c.channelId) session c.channelId

section
variable {c : LiveChannel P} {sessions : Sessions} {distance : P → P → ℚ} {bearing : P → P → D}
  {decodeAudioLevel : UInt8 → ℚ} {origin : Origin} {sender user : UserId} {session : SessionId}
  {f : MixHub.Feed} {h : MixHub D} {ac : Acoustics ℚ P D}

lemma ambient_frameGates (hmix : c.supportsSharedMix = true) (now : ℕ) (user : UserId) :
    (c.frameGates sessions decodeAudioLevel origin sender now).ambient user = none := by
  simp only [LiveChannel.supportsSharedMix, Bool.and_eq_true, Option.isNone_iff_eq_none] at hmix
  simp [LiveChannel.frameGates, LiveChannel.gateOf, hmix.2]

lemma heardThrough_eq (he : Eligible c sessions user session) :
    heardThrough h c sessions ac decodeAudioLevel origin sender f session =
      (h.push c sessions true f (mixedCopies c sessions ac
        (c.frameGates sessions decodeAudioLevel origin sender f.now) origin sender)).entersAt
        ((sessions session).prefs.focusGain ac c.channelId) session c.channelId := by
  simp [heardThrough, mixedCopies, splitMixed, mayMix_of_wantsMix he.member he.mixed]

lemma entersAt_of_served {st : Pushing D} {slot : Slot} {focusGain : ℚ} {channel : ChannelId}
    (hassigned : st.hub.assignments.find (session, channel) = some slot)
    (hsubscribed : st.hub.subscribed slot session = true) :
    st.entersAt focusGain session channel =
      (st.fed slot).map fun mix => mix.volume * mixVolume slot focusGain := by
  simp [Pushing.entersAt, hassigned, hsubscribed]

section

variable {gates : FrameGates ℚ} (hac : ac = exactly distance bearing)
  (hgates : c.frameGates sessions decodeAudioLevel origin sender f.now = gates) (hosts : c.Hosts sessions)
  (hmix : c.supportsSharedMix = true) (hspeaks : Speaks c sender origin) (he : Eligible c sessions user session)
include hac hgates hosts hmix hspeaks he

lemma heardThrough_shared (hserved : ServedBy h session c.channelId (.shared c.channelId)) :
    ∃ fed : Bool, (fed = true ↔ ∃ user session, Eligible c sessions user session ∧
        h.assignments.find (session, c.channelId) ≠ some (.privateTo session c.channelId) ∧
        Admits ac gates sessions c.channelId sender user session) ∧
      heardThrough h c sessions ac decodeAudioLevel origin sender f session =
        if fed then some ((sessions session).prefs.focusGain ac c.channelId) else none := by
  have hambient := hgates ▸ ambient_frameGates hmix f.now
  rw [heardThrough_eq he, hgates, push, ← exists_shared_iff hac h hosts hmix hspeaks hambient]
  have hopen := mem_keys_of_subscribed hserved.subscribed
  have hnodup := nodup_mixedCopies hosts ac gates origin sender
  have hstays : ∀ mix, (session, mix) ∈ mixedCopies c sessions ac gates origin sender →
      h.slotFor c sessions true (session, mix) = .shared c.channelId := by
    intro mix hcopy
    obtain ⟨-, rfl⟩ := (mem_mixedCopies_of_eligible hac hosts hmix hspeaks hambient he).mp hcopy
    simp [slotFor, hmix, hosts _ _ he.member, he.listens, he.uniform, hserved.assigned]
  obtain ⟨hunity, hfed⟩ := Pushing.turns_shared (f := f) ⟨h, false, [], fun _ => none⟩ rfl hopen hnodup
  obtain ⟨hassigned, hsubscribed⟩ := Pushing.turns_stay (f := f) ⟨h, false, [], fun _ => none⟩ hnodup hopen
    hserved.assigned hserved.subscribed hstays
  refine ⟨_, hfed.trans (or_iff_right Bool.false_ne_true), ?_⟩
  rw [entersAt_of_served hassigned hsubscribed, hunity]
  split <;> simp [mixVolume]

lemma heardThrough_own (hserved : ServedBy h session c.channelId (.privateTo session c.channelId)) :
    ∃ fed : Bool, (fed = true ↔ Admits ac gates sessions c.channelId sender user session) ∧
      heardThrough h c sessions ac decodeAudioLevel origin sender f session =
        if fed then some (uniformGain ac gates sessions c.channelId session) else none := by
  have hambient := hgates ▸ ambient_frameGates hmix f.now
  rw [heardThrough_eq he, hgates, push]
  have hopen := mem_keys_of_subscribed hserved.subscribed
  have hnodup := nodup_mixedCopies hosts ac gates origin sender
  have hstays : ∀ mix, (session, mix) ∈ mixedCopies c sessions ac gates origin sender →
      h.slotFor c sessions true (session, mix) = .privateTo session c.channelId := by
    simp [slotFor, hserved.assigned]
  obtain ⟨hassigned, hsubscribed⟩ := Pushing.turns_stay (f := f) ⟨h, false, [], fun _ => none⟩ hnodup hopen
    hserved.assigned hserved.subscribed hstays
  rw [entersAt_of_served hassigned hsubscribed]
  by_cases hadmits : Admits ac gates sessions c.channelId sender user session
  · have hcopy := (mem_mixedCopies_of_eligible hac hosts hmix hspeaks hambient he).mpr ⟨hadmits, rfl⟩
    refine ⟨true, iff_of_true rfl hadmits, ?_⟩
    rw [Pushing.turns_private _ hcopy hnodup hopen hserved.assigned]
    simp [mixVolume]
  · refine ⟨false, iff_of_false Bool.false_ne_true hadmits, ?_⟩
    rw [Pushing.fed_turns_of_notMem]
    · rfl
    · intro hmem
      obtain ⟨⟨_, mix⟩, hcopy, rfl⟩ := mem_map.mp hmem
      exact hadmits ((mem_mixedCopies_of_eligible hac hosts hmix hspeaks hambient he).mp hcopy).1

end

/-- Through the shared mixer a receiver hears each speaker at its focus gain alone, as soon as any other
member hears them through it. That is what a mixer of its own gives it if and only if the speaker is not
ducked and its own gates let them through, or nobody is served the frame by the shared mixer. -/
theorem shared_mix_agrees_iff (c : LiveChannel P) (sessions : Sessions) (distance : P → P → ℚ) (bearing : P → P → D)
    (decodeAudioLevel : UInt8 → ℚ) (origin : Origin) (sender user : UserId) (session : SessionId) (f : MixHub.Feed)
    (shared own : MixHub D) (hosts : c.Hosts sessions) (hmix : c.supportsSharedMix = true)
    (hspeaks : Speaks c sender origin) (he : Eligible c sessions user session)
    (hshared : ServedBy shared session c.channelId (.shared c.channelId))
    (hown : ServedBy own session c.channelId (.privateTo session c.channelId)) :
    heardThrough shared c sessions (exactly distance bearing) decodeAudioLevel origin sender f session =
        heardThrough own c sessions (exactly distance bearing) decodeAudioLevel origin sender f session ↔
      (c.frameGates sessions decodeAudioLevel origin sender f.now).duck = 1 ∧
          Admits (exactly distance bearing) (c.frameGates sessions decodeAudioLevel origin sender f.now)
            sessions c.channelId sender user session ∨
        ∀ other t, Eligible c sessions other t →
          shared.assignments.find (t, c.channelId) ≠ some (.privateTo t c.channelId) →
          ¬ Admits (exactly distance bearing) (c.frameGates sessions decodeAudioLevel origin sender f.now)
            sessions c.channelId sender other t := by
  obtain ⟨sharedFed, hsharedFed, hsharedEq⟩ := heardThrough_shared (f := f) rfl rfl hosts hmix hspeaks he hshared
  obtain ⟨ownFed, hownFed, hownEq⟩ := heardThrough_own (f := f) rfl rfl hosts hmix hspeaks he hown
  rw [hsharedEq, hownEq]
  by_cases hadmits : Admits (exactly distance bearing)
      (c.frameGates sessions decodeAudioLevel origin sender f.now) sessions c.channelId sender user session
  · have hfree : shared.assignments.find (session, c.channelId) ≠ some (.privateTo session c.channelId) := by
      simp [hshared.assigned]
    rw [hsharedFed.mpr ⟨user, session, he, hfree, hadmits⟩, hownFed.mpr hadmits, if_pos rfl, if_pos rfl,
      Option.some_inj, or_iff_left fun hnone => hnone user session he hfree hadmits, and_iff_left hadmits]
    have hpos : (sessions session).prefs.focusGain (exactly distance bearing) c.channelId ≠ 0 := by
      intro hzero
      have haudible := hadmits.2.1
      rw [uniformGain, hzero, zero_mul] at haudible
      exact absurd haudible (by decide +kernel)
    rw [uniformGain, eq_comm, mul_eq_left₀ hpos]
  · rw [Bool.eq_false_iff.mpr fun hfed => hadmits (hownFed.mp hfed), if_neg Bool.false_ne_true,
      or_iff_right fun h => hadmits h.2]
    constructor
    · intro hnone other t hother hfree hothers
      rw [hsharedFed.mpr ⟨other, t, hother, hfree, hothers⟩, if_pos rfl] at hnone
      cases hnone
    · intro hnone
      rw [if_neg]
      intro hfed
      obtain ⟨other, t, hother, hfree, hothers⟩ := hsharedFed.mp hfed
      exact hnone other t hother hfree hothers

end

namespace Sample

def flat : Acoustics ℚ Unit Unit := exactly (fun _ _ => 0) fun _ _ => ()

def session (user : UserId) : LiveSession where
  userId := user
  prefs := ⟨∅, ∅, .empty, ∅, ∅, none, 1 / 5⟩
  transport := .aurx
  downlinkMode := .streams
  active := true
  bound := true
  e2eeCapable := false
  channels := [7]
  ambient := .empty
  streamCap := .empty
  audioLevel := 0
  isSpeaking := true

def stage (ducking : Option Media.DuckingConfig) (envelope : Media.DuckEnvelope) : LiveChannel Unit where
  channelId := 7
  config := ⟨.team, none, none, none⟩
  ambient := none
  audience := some ⟨true, 0⟩
  ducking := ducking
  e2ee := false
  participants := ((Dict.empty.set 1 1).set 2 2).set 3 3
  participantRoles := (Dict.empty.set 1 .speaker)
  remote := .empty
  priority := ∅
  envelope := envelope
  positions := .empty

def hub (slot : Slot) : MixHub Unit where
  nodes := Dict.empty.set slot ⟨⟨.empty⟩, {2}⟩
  assignments := Dict.empty.set (2, 7) slot

def feed : MixHub.Feed where
  frame := ⟨some 1, 0, 5, [1]⟩
  now := 0
  opens _ := true
  decoded _ := []

variable (ducking : Option Media.DuckingConfig)

section

variable (envelope : Media.DuckEnvelope)

lemma stage_hosts : (stage ducking envelope).Hosts session := by
  intro user s h
  simp only [stage, Dict.find_set, Dict.find_empty] at h
  split_ifs at h <;> obtain rfl := Option.some.inj h <;> simp_all [session]

lemma eligible_two : Eligible (stage ducking envelope) session 2 2 where
  member := rfl
  native := rfl
  active := rfl
  mixed := rfl
  listens := rfl
  uniform := by decide

lemma stage_shares : (stage ducking envelope).supportsSharedMix = true := rfl

lemma one_speaks : Speaks (stage ducking envelope) 1 .uplink :=
  show (stage ducking envelope).canTransmit 1 = true from rfl

end

lemma served_two (slot : Slot) : ServedBy (hub slot) 2 7 slot :=
  ⟨rfl, by simp [subscribed, hub]⟩

theorem shared_mix_agrees_unducked :
    heardThrough (hub (.shared 7)) (stage none ⟨0, none, none⟩) session flat (fun _ => 1) .uplink 1 feed 2 =
      heardThrough (hub (.privateTo 2 7)) (stage none ⟨0, none, none⟩) session flat (fun _ => 1) .uplink 1 feed 2 :=
  (shared_mix_agrees_iff (stage none ⟨0, none, none⟩) session (fun _ _ => 0) (fun _ _ => ()) (fun _ => 1)
    .uplink 1 2 2 feed (hub (.shared 7)) (hub (.privateTo 2 7)) (stage_hosts _ _) (stage_shares _ _) (one_speaks _ _)
    (eligible_two _ _) (served_two _) (served_two _)).mpr
      (.inl ⟨by decide +kernel, by decide, by decide +kernel, by decide +kernel⟩)

def ducked : LiveChannel Unit := stage (some ⟨1 / 4, 60, 400, 250, false⟩) ⟨1, some 0, some 250⟩

lemma admits_ducked : Admits flat (ducked.frameGates session (fun _ => 1) .uplink 1 feed.now) session 7 1 2 2 :=
  ⟨by decide, by decide +kernel, by decide +kernel⟩

theorem shared_mix_not_ducked :
    heardThrough (hub (.shared 7)) ducked session flat (fun _ => 1) .uplink 1 feed 2 = some 1 ∧
      heardThrough (hub (.privateTo 2 7)) ducked session flat (fun _ => 1) .uplink 1 feed 2 = some (1 / 4) := by
  constructor
  · obtain ⟨fed, hfed, hheard⟩ := heardThrough_shared (f := feed) rfl rfl (stage_hosts _ _) (stage_shares _ _)
      (one_speaks _ _) (eligible_two _ _) (served_two (.shared 7))
    exact hheard.trans (by rw [hfed.mpr ⟨2, 2, eligible_two _ _, by decide, admits_ducked⟩]; rfl)
  · obtain ⟨fed, hfed, hheard⟩ := heardThrough_own (f := feed) rfl rfl (stage_hosts _ _) (stage_shares _ _)
      (one_speaks _ _) (eligible_two _ _) (served_two (.privateTo 2 7))
    exact hheard.trans (by rw [hfed.mpr admits_ducked]; decide +kernel)

end Sample

end AurixVoice.Mixing
