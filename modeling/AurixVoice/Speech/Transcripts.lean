import AurixVoice.Media.Routing

/-! Who is sent a transcript, by the gateway's index of members, against who is sent the audio by the media node. -/

namespace AurixVoice.Speech

open Media (Acoustics ChannelType FrameGates MediaChannel ReceiverPrefs Participant)
open Media.MediaChannel List

structure Original where
  text : String
  language : Option String
  deriving DecidableEq

structure Transcript where
  channelId : ChannelId
  userId : UserId
  text : String
  language : Option String
  words : List String
  original : Option Original
  deriving DecidableEq

structure ConnectionInfo where
  userId : UserId
  appId : AppId
  channels : List ChannelId
  transcripts : Bool
  language : Option String
  speech : Bool
  deriving DecidableEq

structure MediaSession (W : Type) where
  prefs : ReceiverPrefs W
  isActive : Bool

structure Room (W P : Type) where
  routing : MediaChannel W P
  textRadius : Option W

structure Gateway (W P : Type) where
  connections : Dict SessionId ConnectionInfo
  channelMembers : ChannelId → List SessionId
  sessions : Dict SessionId (MediaSession W)
  channels : Dict ChannelId (Room W P)

structure TranslationService where
  enabled : Bool
  maxLanguagesPerChannel : ℕ

structure Translation where
  text : String
  sourceLanguage : Option String

def primaryLanguage (tag : String) : List Char := tag.toList.takeWhile (· ≠ '-')

def sameLanguage (a b : String) : Bool := primaryLanguage a = primaryLanguage b

def needsTranslation (source : Option String) (target : String) : Bool :=
  !source.any fun s => sameLanguage s target

def TranslationService.selectTargets (tr : TranslationService) (requested : List String) : List String :=
  let precedes (a b : String) : Bool :=
    let (m, n) := (requested.count a, requested.count b)
    n < m || (m = n && decide (a ≤ b))
  (requested.dedup.mergeSort precedes).take (max tr.maxLanguagesPerChannel 1)

structure TranslationListener where
  sessionId : SessionId
  target : String
  speech : Bool

structure Delivery where
  sessionId : SessionId
  transcript : Transcript
  spoken : Bool

section
variable {W P D : Type} (ac : Acoustics W P D) (tr : TranslationService) (g : Gateway W P)
  (app : AppId) (t : Transcript)

def Room.textReaches (room : Room W P) (sender receiver : UserId) : Bool :=
  if sender = receiver then true
  else
    match room.textRadius with
    | none => true
    | some radius =>
      match room.routing.positions.find sender, room.routing.positions.find receiver with
      | some a, some b => ac.le (ac.distance a b) radius
      | _, _ => false

namespace Gateway

def hears (sid : SessionId) (id : ChannelId) (speaker : UserId) : Bool :=
  (g.sessions.find sid).any fun s => (s.prefs.gainFor ac speaker id).isSome

def reader (sid : SessionId) : Option ConnectionInfo :=
  (g.connections.find sid).filter fun conn =>
    conn.appId = app && conn.transcripts &&
      (conn.userId = t.userId || g.hears ac sid t.channelId t.userId) &&
      (g.channels.find t.channelId).all fun room => room.textReaches ac t.userId conn.userId

def readers : List (SessionId × ConnectionInfo) :=
  (g.channelMembers t.channelId).filterMap fun sid => (g.reader ac app t sid).map fun conn => (sid, conn)

end Gateway

def ConnectionInfo.translatesInto (conn : ConnectionInfo) (t : Transcript) : Option String :=
  conn.language.filter fun target =>
    tr.enabled && decide (conn.userId ≠ t.userId) && needsTranslation t.language target

namespace Gateway

def requested : List TranslationListener :=
  (g.readers ac app t).filterMap fun r =>
    (r.2.translatesInto tr t).map fun target => ⟨r.1, target, r.2.speech⟩

def targets : List String :=
  tr.selectTargets ((g.requested ac tr app t).map TranslationListener.target)

def originals : List SessionId :=
  ((g.readers ac app t).filter fun r => (r.2.translatesInto tr t).isNone).map Prod.fst ++
    ((g.requested ac tr app t).filter fun l => l.target ∉ g.targets ac tr app t).map
      TranslationListener.sessionId

def translated : List TranslationListener :=
  (g.requested ac tr app t).filter fun l => l.target ∈ g.targets ac tr app t

end Gateway

def Transcript.payload (t : Transcript) (target : String) : Option Translation → Transcript × Bool
  | none => (t, false)
  | some translation =>
    let detected := t.language.or translation.sourceLanguage
    if t.language.isNone && translation.sourceLanguage.any fun s => sameLanguage s target then
      ({ t with language := detected }, false)
    else
      ({ t with
        original := some ⟨t.text, detected⟩
        text := translation.text
        language := some target
        words := [] }, true)

namespace Gateway

def stillReads (l : TranslationListener) : Bool :=
  ((g.connections.find l.sessionId).any fun conn =>
    conn.appId = app && conn.transcripts && decide (t.channelId ∈ conn.channels) &&
      conn.language = some l.target) && g.hears ac l.sessionId t.channelId t.userId

def deliverTranslations (targets : List String)
    (translate : String → Option Translation) (listeners : List TranslationListener) : List Delivery :=
  targets.flatMap fun target =>
    let (payload, speak) := t.payload target (translate target)
    ((listeners.filter fun l => l.target = target).filter (g.stillReads ac app t)).map fun l =>
      ⟨l.sessionId, payload, speak && l.speech && (g.sessions.find l.sessionId).any MediaSession.isActive⟩

/-- All that is sent of a transcript: the original and, when the translator has answered and the gateway
has become `later`, the translations. -/
def deliverTranscript (later : Gateway W P) (app : AppId) (t : Transcript)
    (translate : String → Option Translation) : List Delivery × List Delivery :=
  ((g.originals ac tr app t).map fun sid => ⟨sid, t, false⟩,
    later.deliverTranslations ac app t (g.targets ac tr app t) translate (g.translated ac tr app t))

def hearers (gates : FrameGates W) (t : Transcript) : List UserId :=
  match g.channels.find t.channelId with
  | none => []
  | some room =>
    if (room.routing.participant t.userId).isSome then
      users (room.routing.getReceiversForAudio ac gates t.userId)
    else users (room.routing.getReceiversForRelayedAudio ac gates t.userId)

def OnlyHearers (gates : FrameGates W) (t : Transcript) (sent : List Delivery) : Prop :=
  ∀ d ∈ sent, ∃ conn, g.connections.find d.sessionId = some conn ∧
    (conn.userId = t.userId ∨ conn.userId ∈ g.hearers ac gates t)

end Gateway

def whisperReceiver (c : MediaChannel W P) (speaker : UserId) : Option UserId :=
  match c.config.whisperTarget with
  | some target => some target
  | none => ((c.participants.filter fun p => p.userId ≠ speaker).head?).map Participant.userId

def commands (c : MediaChannel W P) (speaker : UserId) : Bool :=
  (c.getRole speaker).canSpeak || (c.config.commandSpeakers.map fun s => decide (speaker ∈ s)).getD false

/-- The member is on this node and hears the speaker at some gain. A whisper of a speaker of this node is
for its target only, and nobody hears a speaker of this node who may not command. -/
structure Reached (c : MediaChannel W P) (gates : FrameGates W) (speaker user : UserId) : Prop where
  other : user ≠ speaker
  takes : ∃ p ∈ c.participants, p.userId = user ∧ c.Takes ac gates speaker p
  whispered : (c.participant speaker).isSome → c.config.channelType = .whisper →
    whisperReceiver c speaker = some user
  commanded : (c.participant speaker).isSome → c.config.channelType = .command → commands c speaker = true

def Placeless (c : MediaChannel W P) : Prop :=
  c.config.channelType = .team ∨ c.config.channelType = .command ∨ c.config.channelType = .whisper

section Hearers

variable {c : MediaChannel W P} {gates : FrameGates W} {speaker user : UserId}

lemma mem_first_heard (htype : c.config.channelType = .whisper) (htarget : c.config.whisperTarget = none) :
    user ∈ users (c.getReceiversForAudio ac gates speaker) ↔
      user ≠ speaker ∧ (∃ p ∈ c.participants, p.userId = user ∧ c.Takes ac gates speaker p) ∧
        whisperReceiver c speaker = some user := by
  have hroute : c.routedReceivers ac speaker = (c.allOthersFullVolume ac speaker).take 1 := by
    unfold routedReceivers
    rw [htype, htarget]
  rw [getReceiversForAudio, mem_users_applyReceiverPrefs, hroute]
  unfold whisperReceiver allOthersFullVolume
  rw [htarget]
  cases hothers : c.participants.filter fun p => p.userId ≠ speaker with
  | nil => simp
  | cons p =>
    have hp : p ∈ c.participants ∧ p.userId ≠ speaker := by
      have hmem : p ∈ c.participants.filter fun p => p.userId ≠ speaker := hothers ▸ mem_cons_self
      simpa using mem_filter.mp hmem
    simp only [map_cons, take_succ_cons, take_zero, mem_singleton, head?_cons, Option.map_some, Option.some.injEq]
    constructor
    · rintro ⟨r, rfl, rfl, htakes⟩
      exact ⟨hp.2, ⟨p, hp.1, rfl, htakes⟩, rfl⟩
    · rintro ⟨-, ⟨q, hq, hid, htakes⟩, rfl⟩
      obtain rfl := inj_on_of_nodup_map c.nodup hq hp.1 hid
      exact ⟨(q, .unity ac), rfl, rfl, htakes⟩

lemma mem_audio_iff (htype : Placeless c) (hlocal : (c.participant speaker).isSome) :
    user ∈ users (c.getReceiversForAudio ac gates speaker) ↔ Reached ac c gates speaker user := by
  rcases htype with htype | htype | htype
  · have hroute : c.getReceiversForAudio ac gates speaker =
        c.applyReceiverPrefs ac gates speaker (c.allOthersFullVolume ac speaker) := by
      unfold getReceiversForAudio routedReceivers
      rw [htype]
    rw [hroute, mem_allOthers_heard]
    exact ⟨fun h => ⟨h.1, h.2, by simp [htype], by simp [htype]⟩, fun h => ⟨h.other, h.takes⟩⟩
  · have hroute : c.getReceiversForAudio ac gates speaker = c.applyReceiverPrefs ac gates speaker
        (if commands c speaker then c.allOthersFullVolume ac speaker else []) := by
      unfold getReceiversForAudio routedReceivers
      rw [htype]
      rfl
    rw [hroute]
    cases hcommands : commands c speaker with
    | true =>
      rw [if_pos rfl, mem_allOthers_heard]
      exact ⟨fun h => ⟨h.1, h.2, by simp [htype], fun _ _ => hcommands⟩, fun h => ⟨h.other, h.takes⟩⟩
    | false =>
      constructor
      · intro h
        cases h
      · intro h
        rw [h.commanded hlocal htype] at hcommands
        cases hcommands
  · cases htarget : c.config.whisperTarget with
    | none =>
      rw [mem_first_heard ac htype htarget]
      exact ⟨fun h => ⟨h.1, h.2.1, fun _ _ => h.2.2, by simp [htype]⟩,
        fun h => ⟨h.other, h.takes, h.whispered hlocal htype⟩⟩
    | some target =>
      have hreceiver : whisperReceiver c speaker = some target := by
        unfold whisperReceiver
        rw [htarget]
      rw [mem_whispered ac htype htarget]
      constructor
      · rintro ⟨rfl, hne, htakes⟩
        exact ⟨hne, htakes, fun _ _ => hreceiver, by simp [htype]⟩
      · intro h
        have heq := h.whispered hlocal htype
        rw [hreceiver] at heq
        obtain rfl := Option.some.inj heq
        exact ⟨rfl, h.other, h.takes⟩

lemma mem_relayed_iff (htype : Placeless c) (hremote : ¬(c.participant speaker).isSome) :
    user ∈ users (c.getReceiversForRelayedAudio ac gates speaker) ↔
      Reached ac c gates speaker user := by
  have hroute : c.getReceiversForRelayedAudio ac gates speaker =
      c.applyReceiverPrefs ac gates speaker (c.allOthersFullVolume ac speaker) := by
    unfold getReceiversForRelayedAudio
    rcases htype with htype | htype | htype <;> rw [htype]
  rw [hroute, mem_allOthers_heard]
  exact ⟨fun h => ⟨h.1, h.2, fun hlocal => absurd hlocal hremote, fun hlocal => absurd hlocal hremote⟩,
    fun h => ⟨h.other, h.takes⟩⟩

lemma mem_hearers_iff {g : Gateway W P} {t : Transcript}
    (htype : ∀ room, g.channels.find t.channelId = some room → Placeless room.routing) :
    user ∈ g.hearers ac gates t ↔
      ∃ room, g.channels.find t.channelId = some room ∧ Reached ac room.routing gates t.userId user := by
  unfold Gateway.hearers
  cases hroom : g.channels.find t.channelId with
  | none => simp
  | some room =>
    have hplaceless := htype room hroom
    dsimp only
    split
    next hlocal =>
      rw [mem_audio_iff ac hplaceless hlocal]
      simp
    next hremote =>
      rw [mem_relayed_iff ac hplaceless hremote]
      simp

end Hearers

section Readers

variable {ac tr g app t} {later : Gateway W P} {sid : SessionId}
  {conn : ConnectionInfo}

lemma mem_readers : (sid, conn) ∈ g.readers ac app t ↔
    sid ∈ g.channelMembers t.channelId ∧ g.reader ac app t sid = some conn := by
  simp only [Gateway.readers, mem_filterMap, Option.map_eq_some_iff, Prod.mk.injEq]
  constructor
  · rintro ⟨sid', hmember, conn', hconn, rfl, rfl⟩
    exact ⟨hmember, hconn⟩
  · rintro ⟨hmember, hconn⟩
    exact ⟨sid, hmember, conn, hconn, rfl, rfl⟩

lemma find_of_reader (h : g.reader ac app t sid = some conn) : g.connections.find sid = some conn :=
  (Option.filter_eq_some_iff.mp h).1

/-- The connection of somebody else than the speaker that gets the transcript: of the tenant, with transcripts on,
by no block or mute of its session deaf to the speaker, and within the text radius. -/
structure Reads (ac : Acoustics W P D) (g : Gateway W P) (app : AppId) (t : Transcript) (sid : SessionId)
    (conn : ConnectionInfo) : Prop where
  connected : g.connections.find sid = some conn
  other : conn.userId ≠ t.userId
  tenant : conn.appId = app
  wanted : conn.transcripts = true
  hears : ∃ s, g.sessions.find sid = some s ∧ s.prefs.gainFor ac t.userId t.channelId ≠ none
  near : ∀ room, g.channels.find t.channelId = some room → room.textReaches ac t.userId conn.userId = true

lemma reads_iff : Reads ac g app t sid conn ↔ g.reader ac app t sid = some conn ∧ conn.userId ≠ t.userId := by
  simp only [Gateway.reader, Gateway.hears, Option.filter_eq_some_iff, Bool.and_eq_true, Bool.or_eq_true,
    decide_eq_true_eq, Option.any_eq_true, Option.all_eq_true, Option.isSome_iff_ne_none]
  constructor
  · rintro ⟨hconn, hother, htenant, hwanted, hhears, hnear⟩
    exact ⟨⟨hconn, ⟨⟨htenant, hwanted⟩, .inr hhears⟩, hnear⟩, hother⟩
  · rintro ⟨⟨hconn, ⟨⟨htenant, hwanted⟩, hhears⟩, hnear⟩, hother⟩
    exact ⟨hconn, hother, htenant, hwanted, hhears.resolve_left hother, hnear⟩

lemma other_of_translatesInto {target : String} (h : conn.translatesInto tr t = some target) :
    conn.userId ≠ t.userId := by
  simp only [ConnectionInfo.translatesInto, Option.filter_eq_some_iff, Bool.and_eq_true, decide_eq_true_eq] at h
  exact h.2.1.2

lemma mem_requested {l : TranslationListener} : l ∈ g.requested ac tr app t ↔
    ∃ conn, (l.sessionId, conn) ∈ g.readers ac app t ∧ conn.translatesInto tr t = some l.target ∧
      l.speech = conn.speech := by
  simp only [Gateway.requested, mem_filterMap, Option.map_eq_some_iff]
  constructor
  · rintro ⟨⟨sid, conn⟩, hreader, target, htarget, rfl⟩
    exact ⟨conn, hreader, htarget, rfl⟩
  · rintro ⟨conn, hreader, htarget, hspeech⟩
    refine ⟨(l.sessionId, conn), hreader, l.target, htarget, ?_⟩
    rw [← hspeech]

lemma mem_originals : sid ∈ g.originals ac tr app t ↔
    ∃ conn, (sid, conn) ∈ g.readers ac app t ∧
      ∀ target, conn.translatesInto tr t = some target → target ∉ g.targets ac tr app t := by
  simp only [Gateway.originals, mem_append, mem_map, mem_filter, decide_eq_true_eq, Option.isNone_iff_eq_none]
  constructor
  · rintro (⟨⟨sid', conn⟩, ⟨hreader, hnone⟩, rfl⟩ | ⟨l, ⟨hrequested, hcapped⟩, rfl⟩)
    · refine ⟨conn, hreader, fun target htarget => ?_⟩
      rw [hnone] at htarget
      cases htarget
    · obtain ⟨conn, hreader, htarget, -⟩ := mem_requested.mp hrequested
      refine ⟨conn, hreader, fun target h => ?_⟩
      rw [htarget] at h
      obtain rfl := Option.some.inj h
      exact hcapped
  · rintro ⟨conn, hreader, hcapped⟩
    cases htarget : conn.translatesInto tr t with
    | none => exact .inl ⟨(sid, conn), ⟨hreader, htarget⟩, rfl⟩
    | some target =>
      exact .inr ⟨⟨sid, target, conn.speech⟩, ⟨mem_requested.mpr ⟨conn, hreader, htarget, rfl⟩,
        hcapped target htarget⟩, rfl⟩

lemma exists_translation {translate : String → Option Translation} :
    (∃ d ∈ later.deliverTranslations ac app t (g.targets ac tr app t) translate (g.translated ac tr app t),
      d.sessionId = sid) ↔
    ∃ l ∈ g.translated ac tr app t, l.sessionId = sid ∧ later.stillReads ac app t l = true := by
  simp only [Gateway.deliverTranslations, mem_flatMap, mem_map, mem_filter, decide_eq_true_eq]
  constructor
  · rintro ⟨d, ⟨target, -, l, ⟨⟨hl, -⟩, hreads⟩, rfl⟩, rfl⟩
    exact ⟨l, hl, rfl, hreads⟩
  · rintro ⟨l, hl, rfl, hreads⟩
    have htarget : l.target ∈ g.targets ac tr app t := by
      simpa using (mem_filter.mp hl).2
    exact ⟨_, ⟨l.target, htarget, l, ⟨⟨hl, rfl⟩, hreads⟩, rfl⟩, rfl⟩

lemma find_of_stillReads {l : TranslationListener} (h : later.stillReads ac app t l = true) :
    ∃ conn, later.connections.find l.sessionId = some conn := by
  obtain ⟨conn, hconn, -⟩ := (Option.any_eq_true _ _).mp (Bool.and_eq_true_iff.mp h).1
  exact ⟨conn, hconn⟩

end Readers

variable {ac tr g} in
/-- The transcript and its translations go to the speaker and to those who are sent the audio, if and
only if every member that reads the one or the other is on the media node, hears the speaker at some
gain, and is the target of a whisper. -/
theorem transcripts_reach_hearers_iff {later : Gateway W P} {app : AppId} {t : Transcript}
    {gates gates' : FrameGates W} {translate : String → Option Translation}
    (htype : ∀ room, g.channels.find t.channelId = some room → Placeless room.routing)
    (htype' : ∀ room, later.channels.find t.channelId = some room → Placeless room.routing) :
    let sent := g.deliverTranscript ac tr later app t translate
    g.OnlyHearers ac gates t sent.1 ∧ later.OnlyHearers ac gates' t sent.2 ↔
      (∀ sid ∈ g.channelMembers t.channelId, ∀ conn, Reads ac g app t sid conn →
        (∀ target, conn.translatesInto tr t = some target → target ∉ g.targets ac tr app t) →
        ∃ room, g.channels.find t.channelId = some room ∧
          Reached ac room.routing gates t.userId conn.userId) ∧
      ∀ sid ∈ g.channelMembers t.channelId, ∀ conn target, Reads ac g app t sid conn →
        conn.translatesInto tr t = some target → target ∈ g.targets ac tr app t →
        later.stillReads ac app t ⟨sid, target, conn.speech⟩ = true →
        ∀ conn', later.connections.find sid = some conn' → conn'.userId ≠ t.userId →
          ∃ room, later.channels.find t.channelId = some room ∧
            Reached ac room.routing gates' t.userId conn'.userId := by
  intro sent
  apply and_congr
  · constructor
    · intro h sid hmember conn hreads hkept
      obtain ⟨hreader, hother⟩ := reads_iff.mp hreads
      have hsent : sid ∈ g.originals ac tr app t :=
        mem_originals.mpr ⟨conn, mem_readers.mpr ⟨hmember, hreader⟩, hkept⟩
      obtain ⟨conn', hconn', hhears⟩ := h ⟨sid, t, false⟩ (mem_map_of_mem hsent)
      obtain rfl := Option.some.inj ((find_of_reader hreader).symm.trans hconn')
      exact (mem_hearers_iff ac htype).mp (hhears.resolve_left hother)
    · intro h d hd
      obtain ⟨sid, hsent, rfl⟩ := mem_map.mp hd
      obtain ⟨conn, hread, hkept⟩ := mem_originals.mp hsent
      obtain ⟨hmember, hreader⟩ := mem_readers.mp hread
      refine ⟨conn, find_of_reader hreader, ?_⟩
      by_cases hother : conn.userId = t.userId
      · exact .inl hother
      · exact .inr ((mem_hearers_iff ac htype).mpr (h sid hmember conn (reads_iff.mpr ⟨hreader, hother⟩) hkept))
  · constructor
    · intro h sid hmember conn target hreader htarget hpicked hreads conn' hconn' hother
      have hlistener : ⟨sid, target, conn.speech⟩ ∈ g.translated ac tr app t := by
        have hread := mem_readers.mpr ⟨hmember, (reads_iff.mp hreader).1⟩
        exact mem_filter.mpr ⟨mem_requested.mpr ⟨conn, hread, htarget, rfl⟩, decide_eq_true hpicked⟩
      obtain ⟨d, hd, rfl⟩ := exists_translation.mpr ⟨_, hlistener, rfl, hreads⟩
      obtain ⟨conn'', hconn'', hhears⟩ := h d hd
      obtain rfl := Option.some.inj (hconn'.symm.trans hconn'')
      exact (mem_hearers_iff ac htype').mp (hhears.resolve_left hother)
    · intro h d hd
      obtain ⟨l, hl, hsid, hreads⟩ := exists_translation.mp ⟨d, hd, rfl⟩
      obtain ⟨hrequested, hpicked⟩ := mem_filter.mp hl
      obtain ⟨conn, hread, htarget, hspeech⟩ := mem_requested.mp hrequested
      obtain ⟨hmember, hreader⟩ := mem_readers.mp hread
      obtain ⟨conn', hconn'⟩ := find_of_stillReads hreads
      rw [← hsid]
      refine ⟨conn', hconn', ?_⟩
      by_cases hother : conn'.userId = t.userId
      · exact .inl hother
      · refine .inr ((mem_hearers_iff ac htype').mpr ?_)
        apply h l.sessionId hmember conn l.target
          (reads_iff.mpr ⟨hreader, other_of_translatesInto htarget⟩) htarget (of_decide_eq_true hpicked) _ conn' hconn'
          hother
        rw [← hspeech]
        exact hreads

end

namespace Sample

open Media.SplitChannel (flat openGates member)

def conn (user : UserId) (language : Option String) : ConnectionInfo := ⟨user, 7, [10], true, language, false⟩

lemma nodup_three : ([1, 2, 3] : List UserId).Nodup := by decide

def gateway (muted : Finset UserId) : Gateway ℕ Unit where
  connections := ((Dict.empty.set 1 (conn 1 none)).set 2 (conn 2 (some "de"))).set 3 (conn 3 none)
  channelMembers _ := [1, 2, 3]
  sessions := ((Dict.empty.set 1 ⟨(member 1 ∅).prefs, true⟩).set 2 ⟨(member 2 ∅).prefs, true⟩).set 3
    ⟨(member 3 muted).prefs, true⟩
  channels := Dict.empty.set 10
    ⟨{ channelId := 10
       config := ⟨.whisper, none, none, some 2⟩
       participants := [member 1 ∅, member 2 ∅, member 3 muted]
       nodup := nodup_three
       roles := .empty
       positions := .empty }, none⟩

def said : Transcript := ⟨10, 1, "hello", some "en", [], none⟩

def translator : TranslationService := ⟨true, 1⟩

lemma placeless_gateway {muted : Finset UserId} {room : Room ℕ Unit}
    (h : (gateway muted).channels.find said.channelId = some room) : Placeless room.routing := by
  cases h
  exact .inr (.inr rfl)

lemma targets_gateway : (gateway {1}).targets flat translator 7 said = ["de"] := by
  have hrequested :
      ((gateway {1}).requested flat translator 7 said).map TranslationListener.target = ["de"] := by decide
  rw [Gateway.targets, hrequested]
  simp [TranslationService.selectTargets, translator]

theorem transcripts_reach_hearers_muted :
    let sent := (gateway {1}).deliverTranscript flat translator (gateway {1}) 7 said fun _ => none
    (gateway {1}).OnlyHearers flat openGates said sent.1 ∧
      (gateway {1}).OnlyHearers flat openGates said sent.2 := by
  refine (transcripts_reach_hearers_iff (fun _ => placeless_gateway) fun _ => placeless_gateway).mpr ⟨?_, ?_⟩
  · intro sid hsid conn hreads hkept
    obtain ⟨hreader, hother⟩ := reads_iff.mp hreads
    simp only [gateway, mem_cons, not_mem_nil, or_false] at hsid
    rcases hsid with rfl | rfl | rfl
    · cases hreader
      exact absurd rfl hother
    · cases hreader
      exact absurd (targets_gateway ▸ mem_singleton_self "de") (hkept "de" (by decide))
    · cases hreader
  · intro sid hsid conn target hreads htarget _ _ conn' hconn' _
    have hreader := (reads_iff.mp hreads).1
    simp only [gateway, mem_cons, not_mem_nil, or_false] at hsid
    rcases hsid with rfl | rfl | rfl
    · cases hreader
      cases htarget
    · cases hconn'
      refine ⟨_, rfl, by decide, ⟨member 2 ∅, by simp, rfl, by decide⟩, fun _ _ => rfl, fun _ h => by cases h⟩
    · cases hreader

theorem whisper_captioned :
    ¬ (gateway ∅).OnlyHearers flat openGates said
      ((gateway ∅).deliverTranscript flat translator (gateway ∅) 7 said fun _ => none).1 := by
  intro h
  have hsent : (3 : SessionId) ∈ (gateway ∅).originals flat translator 7 said := by decide
  obtain ⟨conn, hconn, hhears⟩ := h ⟨3, said, false⟩ (mem_map_of_mem hsent)
  cases hconn
  revert hhears
  decide

end Sample

end AurixVoice.Speech
