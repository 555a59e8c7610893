import AurixVoice.Sfu.Rooms

/-! The indexes of a media node along its runs. A join is regular while a refused one has nothing to undo. -/

namespace AurixVoice

open Dict
open Option (bind_eq_some_iff isSome_iff_exists some)

namespace Channel.MediaChannel

open Media (ChannelRole)

variable {V P : Type} {c : MediaChannel V P}

def HasRoom (c : MediaChannel V P) (user : UserId) (role : ChannelRole) (hints : JoinHints) : Prop :=
  let audience := c.config.audience.getD default
  c.participantCount < c.config.maxParticipants ∧
    ¬ (role.canSpeak = true ∧ 0 < audience.maxSpeakers ∧
      audience.maxSpeakers.toNat ≤ c.slotsHeld user hints ∧ audience.speakerAdmission = .reject)

variable {role : ChannelRole} {config : ChannelConfig V} {a : Admission} {hints : JoinHints} {session : MediaSession}
  {env : Env}

lemma admitJoin_of_hasRoom
    (h : c.HasRoom session.userId role hints) : ∃ a, (c.admitJoin env session role hints).1 = .ok a := by
  obtain ⟨hplace, hslot⟩ := h
  unfold admitJoin
  rw [reserveSlot, if_neg (UInt32.not_le.mpr hplace)]
  dsimp only
  split
  next hclaim =>
    exfalso
    apply hslot
    unfold claimSpeakerSlot at hclaim
    split at hclaim
    · cases hclaim
    next hspeaks =>
      split at hclaim
      next hfull =>
        refine ⟨by simpa using hspeaks, hfull.1, hfull.2, ?_⟩
        split at hclaim
        · assumption
        · cases hclaim
        · split at hclaim <;> cases hclaim
      · cases hclaim
  · exact ⟨_, rfl⟩

lemma participants_admitJoin (h : Sound config c) (hok : (c.admitJoin env session role hints).1 = .ok a) :
    (c.admitJoin env session role hints).2.participants = c.participants.set session.userId session := by
  obtain ⟨e, heq⟩ | ⟨count, entered, demoted, c', -, hclaim, heq⟩ := c.admitJoin_cases env session role hints
  · rw [heq] at hok
    cases hok
  · have hslotted : Slotted config { c with participantCount := count } :=
      ⟨h.config_eq, h.members, h.room, h.spoken, h.slots, h.effective⟩
    obtain ⟨base, hbase⟩ := claimed_of_claimSpeakerSlot hslotted hclaim
    have hsame : c'.participants = c.participants := by
      rw [hbase.result]
      exact hbase.grants.participants
    rw [heq]
    exact congrArg (set · session.userId session) hsame

lemma find_addParticipantWith (h : Sound config c)
    (hok : (c.addParticipantWith env session role hints).1 = .ok a) (user : UserId) :
    (c.addParticipantWith env session role hints).2.participants.find user =
      if user = session.userId then some session else c.participants.find user := by
  by_cases happ : session.appId = c.appId
  · rw [addParticipantWith_eq happ] at hok ⊢
    rw [participants_admitJoin (h.removeParticipant session.userId) hok, find_set, participants_removeParticipant,
      find_erase]
    split <;> rfl
  · rw [addParticipantWith, if_pos happ] at hok
    cases hok

lemma addParticipantWith_error {e : AurixError} (hnew : c.participants.find session.userId = none)
    (herr : (c.addParticipantWith env session role hints).1 = .error e) :
    (c.addParticipantWith env session role hints).2 = c := by
  by_cases happ : session.appId = c.appId
  · rw [addParticipantWith_eq happ, removeParticipant, hnew] at herr ⊢
    exact admitJoin_error herr
  · rw [addParticipantWith, if_pos happ]

lemma addParticipantWith_of_hasRoom (happ : c.appId = session.appId)
    (hroom : (c.removeParticipant session.userId).2.HasRoom session.userId role hints) :
    ∃ a, (c.addParticipantWith env session role hints).1 = .ok a := by
  rw [addParticipantWith_eq happ.symm]
  exact admitJoin_of_hasRoom hroom

end Channel.MediaChannel

namespace Sfu

open Channel
open Media (ChannelRole)

variable {V P : Type} {hash : ChannelId → UInt32} {s : SfuNode V P}

structure SameSessions (s s' : SfuNode V P) : Prop where
  byId : s'.sessionsById = s.sessionsById
  byUser : s'.sessionsByUser = s.sessionsByUser
  count : s'.activeParticipantCount = s.activeParticipantCount
  options : s'.options = s.options

lemma SameSessions.trans {s₁ s₂ s₃ : SfuNode V P} (h : SameSessions s₁ s₂) (h' : SameSessions s₂ s₃) :
    SameSessions s₁ s₃ :=
  ⟨h'.byId.trans h.byId, h'.byUser.trans h.byUser, h'.count.trans h.count, h'.options.trans h.options⟩

lemma sameSessions_keepOrDrop (hash : ChannelId → UInt32) (s : SfuNode V P) (id : ChannelId)
    (c : MediaChannel V P) : SameSessions s (s.keepOrDrop hash id c) ∧ (s.keepOrDrop hash id c).joined = s.joined := by
  unfold SfuNode.keepOrDrop
  split <;> exact ⟨⟨rfl, rfl, rfl, rfl⟩, rfl⟩

section
variable {live : SessionId → Option MediaSession} {session : MediaSession}

lemma update_filter_eq_without (joined : MediaSession → List ChannelId) (session : MediaSession) (id : ChannelId) :
    Function.update joined session ((joined session).filter (· ≠ id)) = Rooms.without joined session [id] := by
  congr 1
  apply List.filter_congr
  simp

section

variable (h : Rooms hash s live s.joined) (hlive : live session.sessionId = some session) (env : Env)
include h hlive

lemma removeFromChannel_spec (id : ChannelId) :
    Rooms hash (s.removeFromChannel hash env id session).2 live (Rooms.without s.joined session [id]) ∧
      (s.removeFromChannel hash env id session).2.joined = Rooms.without s.joined session [id] ∧
      SameSessions s (s.removeFromChannel hash env id session).2 := by
  unfold SfuNode.removeFromChannel
  rw [update_filter_eq_without]
  dsimp only
  cases hc : s.channels.find id with
  | none => exact ⟨(h.leave_unhosted hc).congr rfl rfl (fun _ => rfl), rfl, ⟨rfl, rfl, rfl, rfl⟩⟩
  | some c =>
    obtain ⟨config, hsound⟩ := h.sound id c hc
    have hremoved := hsound.removeParticipant session.userId
    have hparticipants : ((c.removeParticipant session.userId).2.admitWaiting env).2.participants =
        c.participants.erase session.userId :=
      (MediaChannel.participants_admitWaiting hremoved env).trans
        (c.participants_removeParticipant session.userId)
    obtain ⟨hsessions, hjoined⟩ := sameSessions_keepOrDrop hash
      { s with joined := Rooms.without s.joined session [id] } id
      ((c.removeParticipant session.userId).2.admitWaiting env).2
    have hleft := h.leave { s with joined := Rooms.without s.joined session [id] } rfl rfl rfl hlive hc
      ⟨config, hremoved.admitWaiting env⟩ hparticipants
    exact ⟨hleft, hjoined, ⟨hsessions.byId, hsessions.byUser, hsessions.count, hsessions.options⟩⟩

lemma foldl_removeFromChannel_spec (ids : List ChannelId) :
    let s' := ids.foldl (fun s id => (s.removeFromChannel hash env id session).2) s
    Rooms hash s' live (Rooms.without s.joined session ids) ∧
      s'.joined = Rooms.without s.joined session ids ∧ SameSessions s s' := by
  induction ids generalizing s with
  | nil => exact ⟨(Rooms.without_nil s.joined session).symm ▸ h, (Rooms.without_nil s.joined session).symm,
      ⟨rfl, rfl, rfl, rfl⟩⟩
  | cons id ids ih =>
    obtain ⟨hrooms, hjoined, hsessions⟩ := removeFromChannel_spec h hlive env id
    rw [← hjoined] at hrooms
    obtain ⟨hrooms', hjoined', hsessions'⟩ := ih hrooms
    rw [hjoined, Rooms.without_without] at hrooms' hjoined'
    exact ⟨hrooms', hjoined', hsessions.trans hsessions'⟩

end

lemma without_joined (joined : MediaSession → List ChannelId) (session : MediaSession) :
    Rooms.without joined session (joined session) session = [] := by
  apply List.eq_nil_iff_forall_not_mem.mpr
  intro id hid
  obtain ⟨hmem, hleft⟩ := Rooms.mem_without.mp hid
  exact hleft rfl hmem

variable {joined : MediaSession → List ChannelId}

lemma without_of_ne {other : MediaSession} (hne : other ≠ session)
    (left : List ChannelId) : Rooms.without joined session left other = joined other :=
  Function.update_of_ne hne _ _

lemma teardownSession_spec (h : Rooms hash s s.sessionsById.find s.joined)
    (hlive : s.sessionsById.find session.sessionId = some session) (env : Env) :
    let s' := s.teardownSession hash env session
    Rooms hash s' s'.sessionsById.find s'.joined ∧
      s'.sessionsById = s.sessionsById.erase session.sessionId ∧ s'.sessionsByUser = s.sessionsByUser ∧
      s'.activeParticipantCount = s.activeParticipantCount - 1 ∧ s'.options = s.options := by
  intro s'
  have hstart : Rooms hash { s with sessionsById := s.sessionsById.erase session.sessionId } s.sessionsById.find
      s.joined := h.congr rfl rfl fun _ => rfl
  obtain ⟨hrooms, hjoined, hsessions⟩ := foldl_removeFromChannel_spec hstart hlive env (s.joined session)
  have hs' : s' = _ := if_neg (not_not.mpr hlive)
  rw [hs']
  refine ⟨?_, hsessions.byId, hsessions.byUser, congrArg (· - 1) hsessions.count, hsessions.options⟩
  have hforget := hrooms.forget hlive (without_joined s.joined session)
    (fun sid => congrArg (find · sid) hsessions.byId) (fun other _ => congrFun hjoined other)
  exact hforget.congr rfl rfl fun _ => rfl

lemma foldl_expireFromChannel_spec (h : Rooms hash s live joined)
    (hlive : live session.sessionId = some session) (ids : List ChannelId) :
    let s' := ids.foldl (SfuNode.expireFromChannel hash session) s
    Rooms hash s' live (Rooms.without joined session ids) ∧ s'.joined = s.joined ∧ SameSessions s s' := by
  induction ids generalizing s joined with
  | nil => exact ⟨(Rooms.without_nil joined session).symm ▸ h, rfl, ⟨rfl, rfl, rfl, rfl⟩⟩
  | cons id ids ih =>
    have hone : Rooms hash (SfuNode.expireFromChannel hash session s id) live (Rooms.without joined session [id]) ∧
        (SfuNode.expireFromChannel hash session s id).joined = s.joined ∧
        SameSessions s (SfuNode.expireFromChannel hash session s id) := by
      unfold SfuNode.expireFromChannel
      cases hc : s.channels.find id with
      | none => exact ⟨h.leave_unhosted hc, rfl, ⟨rfl, rfl, rfl, rfl⟩⟩
      | some c =>
        obtain ⟨config, hsound⟩ := h.sound id c hc
        obtain ⟨hsessions, hjoined⟩ := sameSessions_keepOrDrop hash s id (c.removeParticipant session.userId).2
        exact ⟨h.leave s rfl rfl rfl hlive hc ⟨config, hsound.removeParticipant session.userId⟩
          (c.participants_removeParticipant session.userId), hjoined, hsessions⟩
    obtain ⟨hrooms, hjoined, hsessions⟩ := hone
    obtain ⟨hrooms', hjoined', hsessions'⟩ := ih hrooms
    rw [Rooms.without_without] at hrooms'
    exact ⟨hrooms', hjoined'.trans hjoined, hsessions.trans hsessions'⟩

end

def UserIndex (byUser : Dict UserId MediaSession) (byId : Dict SessionId MediaSession) : Prop :=
  ∀ user session, byUser.find user = some session ↔
    session.userId = user ∧ byId.find session.sessionId = some session

namespace UserIndex

variable {byUser : Dict UserId MediaSession} {byId : Dict SessionId MediaSession} {session : MediaSession}

lemma erase (h : UserIndex byUser byId) (hlive : byId.find session.sessionId = some session) :
    UserIndex (byUser.erase session.userId) (byId.erase session.sessionId) := by
  have hfound := (h session.userId session).mpr ⟨rfl, hlive⟩
  intro user other
  rw [find_erase, find_erase]
  constructor
  · intro hother
    split at hother
    · cases hother
    next hne =>
      obtain ⟨huser, hbyId⟩ := (h user other).mp hother
      refine ⟨huser, ?_⟩
      rw [if_neg]
      · exact hbyId
      · intro heq
        rw [heq, hlive] at hbyId
        exact hne (huser.symm.trans (some.inj hbyId ▸ rfl))
  · rintro ⟨huser, hbyId⟩
    split at hbyId
    · cases hbyId
    next hne =>
      have hother := (h user other).mpr ⟨huser, hbyId⟩
      rw [if_neg]
      · exact hother
      · intro heq
        rw [heq, hfound] at hother
        exact hne (some.inj hother ▸ rfl)

lemma set (h : UserIndex byUser byId) (huser : byUser.find session.userId = none)
    (hid : byId.find session.sessionId = none) :
    UserIndex (byUser.set session.userId session) (byId.set session.sessionId session) := by
  intro user other
  rw [find_set, find_set]
  constructor
  · intro hother
    split at hother
    next heq =>
      obtain rfl := some.inj hother
      exact ⟨heq.symm, if_pos rfl⟩
    · obtain ⟨huser', hbyId⟩ := (h user other).mp hother
      refine ⟨huser', ?_⟩
      rw [if_neg]
      · exact hbyId
      · intro heq
        rw [heq, hid] at hbyId
        cases hbyId
  · rintro ⟨huser', hbyId⟩
    split at hbyId
    · obtain rfl := some.inj hbyId
      rw [if_pos huser'.symm]
    · have hother := (h user other).mpr ⟨huser', hbyId⟩
      rw [if_neg]
      · exact hother
      · intro heq
        rw [heq, huser] at hother
        cases hother

end UserIndex

lemma forgetUser_eq (h : UserIndex s.sessionsByUser s.sessionsById) {session : MediaSession}
    (hlive : s.sessionsById.find session.sessionId = some session) (s' : SfuNode V P)
    (hbyUser : s'.sessionsByUser = s.sessionsByUser) :
    s'.forgetUser session = { s' with sessionsByUser := s.sessionsByUser.erase session.userId } := by
  have hfound := (h session.userId session).mpr ⟨rfl, hlive⟩
  unfold SfuNode.forgetUser
  rw [hbyUser, hfound]
  simp

lemma card_keys_erase {K U : Type} [DecidableEq K] {d : Dict K U} {k : K} {v : U} (h : d.find k = some v) :
    (d.erase k).keys.card + 1 = d.keys.card :=
  Finset.card_erase_add_one (mem_keys_iff.mpr ⟨v, h⟩)

lemma card_keys_set {K U : Type} [DecidableEq K] {d : Dict K U} {k : K} (v : U) (h : d.find k = none) :
    (d.set k v).keys.card = d.keys.card + 1 := by
  apply Finset.card_insert_of_notMem
  rw [mem_keys, h]
  exact Bool.false_ne_true

structure Indexed (hash : ChannelId → UInt32) (s : SfuNode V P) : Prop where
  rooms : Rooms hash s s.sessionsById.find s.joined
  users : UserIndex s.sessionsByUser s.sessionsById
  counted : s.activeParticipantCount.toNat = s.sessionsById.keys.card
  capacity : s.activeParticipantCount ≤ s.options.maxParticipants

namespace Indexed

lemma new (options : SfuOptions) : Indexed hash (SfuNode.new options : SfuNode V P) where
  rooms :=
    { keyed := fun _ _ h => by cases h
      alone := fun _ _ _ _ h => by cases h
      hashed := fun _ _ h => by cases h
      sound := fun _ _ h => by cases h
      listed := fun _ _ h => by cases h
      present := fun _ _ _ _ h => by cases h
      occupied := fun _ _ h => by cases h
      pinned := fun _ h => by cases h }
  users user session := by
    constructor
    · intro h
      cases h
    · rintro ⟨-, h⟩
      cases h
  counted := rfl
  capacity := UInt32.le_iff_toNat_le.mpr (Nat.zero_le _)

variable {s' : SfuNode V P}

section

variable (h : Indexed hash s) (env : Env) (sid : SessionId) (session : MediaSession) (keyError : Option AurixError)
  (id : ChannelId)
include h

lemma of_sameSessions (hsame : SameSessions s s') (hrooms : Rooms hash s' s.sessionsById.find s'.joined) :
    Indexed hash s' where
  rooms := by
    rw [hsame.byId]
    exact hrooms
  users := by
    rw [hsame.byUser, hsame.byId]
    exact h.users
  counted := by
    rw [hsame.count, hsame.byId]
    exact h.counted
  capacity := by
    rw [hsame.count, hsame.options]
    exact h.capacity

lemma of_erase {session : MediaSession} (hlive : s.sessionsById.find session.sessionId = some session)
    (hbyId : s'.sessionsById = s.sessionsById.erase session.sessionId)
    (hbyUser : s'.sessionsByUser = s.sessionsByUser.erase session.userId)
    (hcount : s'.activeParticipantCount = s.activeParticipantCount - 1) (hoptions : s'.options = s.options)
    (hrooms : Rooms hash s' s'.sessionsById.find s'.joined) :
    Indexed hash s' ∧ s'.activeParticipantCount < s'.options.maxParticipants := by
  have hcard := card_keys_erase hlive
  have hcounted := h.counted
  have hcapacity := UInt32.le_iff_toNat_le.mp h.capacity
  have hsub : s'.activeParticipantCount.toNat = s.activeParticipantCount.toNat - 1 := by
    rw [hcount, toNat_sub_one (by omega)]
  have hlt : s'.activeParticipantCount < s'.options.maxParticipants := by
    rw [UInt32.lt_iff_toNat_lt, hsub, hoptions]
    omega
  refine ⟨⟨hrooms, ?_, ?_, UInt32.le_of_lt hlt⟩, hlt⟩
  · rw [hbyUser, hbyId]
    exact h.users.erase hlive
  · rw [hsub, hbyId]
    omega

lemma teardown {session : MediaSession} (hlive : s.sessionsById.find session.sessionId = some session) (env : Env) :
    let s' := SfuNode.teardownSession hash
      { s with sessionsByUser := s.sessionsByUser.erase session.userId } env session
    Indexed hash s' ∧ s'.sessionsById = s.sessionsById.erase session.sessionId ∧
      s'.sessionsByUser = s.sessionsByUser.erase session.userId ∧
      s'.activeParticipantCount < s'.options.maxParticipants := by
  have hstart : Rooms hash { s with sessionsByUser := s.sessionsByUser.erase session.userId }
      s.sessionsById.find s.joined := h.rooms.congr rfl rfl fun _ => rfl
  obtain ⟨hrooms, hbyId, hbyUser, hcount, hoptions⟩ := teardownSession_spec hstart hlive env
  obtain ⟨hindexed, hlt⟩ := h.of_erase hlive hbyId hbyUser hcount hoptions hrooms
  exact ⟨hindexed, hbyId, hbyUser, hlt⟩

lemma destroySession : Indexed hash (s.destroySession hash env sid).2 := by
  unfold SfuNode.destroySession
  cases hfind : s.sessionsById.find sid with
  | none => exact h
  | some session =>
    have hlive := hfind
    rw [← h.rooms.keyed sid session hfind] at hlive
    dsimp only
    rw [forgetUser_eq h.users hlive s rfl]
    exact (h.teardown hlive env).1

lemma expireSession : Indexed hash (s.expireSession hash sid) := by
  unfold SfuNode.expireSession
  cases hfind : s.sessionsById.find sid with
  | none => exact h
  | some session =>
    have hsid := h.rooms.keyed sid session hfind
    have hlive := hfind
    rw [← hsid] at hlive
    dsimp only
    rw [forgetUser_eq h.users hlive { s with sessionsById := s.sessionsById.erase sid } rfl, ← hsid]
    have hstart : Rooms hash { s with
        sessionsById := s.sessionsById.erase session.sessionId
        sessionsByUser := s.sessionsByUser.erase session.userId } s.sessionsById.find s.joined :=
      h.rooms.congr rfl rfl fun _ => rfl
    obtain ⟨hrooms, hjoined, hsessions⟩ := foldl_expireFromChannel_spec hstart hlive (s.joined session)
    have hforget := hrooms.forget hlive (without_joined s.joined session)
      (fun sid => congrArg (find · sid) hsessions.byId)
      (fun other hne => (congrFun hjoined other).trans (without_of_ne hne _).symm)
    refine (h.of_erase hlive ?_ ?_ ?_ ?_ ?_).1
    · exact hsessions.byId
    · exact hsessions.byUser
    · exact congrArg (· - 1) hsessions.count
    · exact hsessions.options
    · exact hforget.congr rfl rfl fun _ => rfl

lemma evictUser {session : MediaSession}
    (hown : ∀ other, s.sessionsById.find session.sessionId = some other → other.userId = session.userId) :
    let s' := s.evictUser hash env session.userId
    Indexed hash s' ∧ s'.sessionsByUser.find session.userId = none ∧
      s'.sessionsById.find session.sessionId = none := by
  unfold SfuNode.evictUser
  cases hold : s.sessionsByUser.find session.userId with
  | none =>
    refine ⟨h, hold, ?_⟩
    cases hid : s.sessionsById.find session.sessionId with
    | none => rfl
    | some other =>
      have hsid := h.rooms.keyed _ other hid
      have huser := (h.users session.userId other).mpr ⟨hown other hid, hsid ▸ hid⟩
      rw [hold] at huser
      cases huser
  | some old =>
    obtain ⟨huser, hlive⟩ := (h.users session.userId old).mp hold
    obtain ⟨hindexed, hbyId, hbyUser, -⟩ := h.teardown hlive env
    rw [huser] at hindexed hbyId hbyUser
    refine ⟨hindexed, ?_, ?_⟩
    · rw [hbyUser, find_erase, if_pos rfl]
    · rw [hbyId, find_erase]
      split
      · rfl
      next hne =>
        cases hid : s.sessionsById.find session.sessionId with
        | none => rfl
        | some other =>
          have hsame := h.rooms.alone _ _ _ _ hid hlive ((hown other hid).trans huser.symm)
          exact absurd (hsame ▸ h.rooms.keyed _ other hid).symm hne

lemma openSession {session : MediaSession} (huser : s.sessionsByUser.find session.userId = none)
    (hid : s.sessionsById.find session.sessionId = none) : Indexed hash (s.openSession session keyError).2 := by
  unfold SfuNode.openSession
  cases hcount : reserveSlot s.activeParticipantCount s.options.maxParticipants with
  | none => exact h
  | some =>
    cases keyError with
    | some =>
      have hback := MediaChannel.reserveSlot_sub_one hcount
      dsimp only
      rw [hback]
      exact h
    | none =>
      obtain ⟨hreserved, hlimit⟩ := toNat_of_reserveSlot hcount
      have hothers : ∀ sid other, s.sessionsById.find sid = some other → other.userId ≠ session.userId := by
        intro sid other hother heq
        have hsid := h.rooms.keyed sid other hother
        have hfound := (h.users session.userId other).mpr ⟨heq, hsid ▸ hother⟩
        rw [huser] at hfound
        cases hfound
      have hrooms := h.rooms.add hid hothers (fun _ => rfl)
      constructor
      · exact hrooms.congr rfl rfl fun _ => rfl
      · exact h.users.set huser hid
      · have hcard := card_keys_set session hid
        have hcounted := h.counted
        dsimp only
        omega
      · rw [UInt32.le_iff_toNat_le]
        omega

lemma createSessionWithSsrc
    (hown : ∀ other, s.sessionsById.find session.sessionId = some other → other.userId = session.userId) :
    Indexed hash (s.createSessionWithSsrc hash env session keyError).2 := by
  obtain ⟨hevicted, huser, hid⟩ := h.evictUser env hown
  exact hevicted.openSession keyError huser hid

lemma adoptSession : Indexed hash (s.adoptSession hash env session keyError).2 := by
  unfold SfuNode.adoptSession
  split
  · exact h
  next hnew =>
    apply h.createSessionWithSsrc
    intro other hother
    rw [hother] at hnew
    exact absurd rfl hnew

lemma removeFromChannel {session : MediaSession} (hlive : s.sessionsById.find session.sessionId = some session) :
    Indexed hash (s.removeFromChannel hash env id session).2 := by
  obtain ⟨hrooms, hjoined, hsessions⟩ := removeFromChannel_spec h.rooms hlive env id
  apply h.of_sameSessions hsessions
  rw [hjoined]
  exact hrooms

lemma leaveChannel : Indexed hash (s.leaveChannel hash env sid id).2 := by
  unfold SfuNode.leaveChannel
  cases hfind : s.sessionsById.find sid with
  | none => exact h
  | some session => exact h.removeFromChannel env id (h.rooms.keyed sid session hfind ▸ hfind)

lemma kickUserFromChannel (user : UserId) (id : ChannelId) :
    Indexed hash (s.kickUserFromChannel hash env user id).2 := by
  unfold SfuNode.kickUserFromChannel
  cases hfind : s.sessionsByUser.find user with
  | none => exact h
  | some session => exact h.removeFromChannel env id ((h.users user session).mp hfind).2

end

lemma free_of_checkChannelSlot {id : ChannelId} (h : s.checkChannelSlot hash id = none) (existing : ChannelId)
    (hexisting : s.channelsByHash.find (hash id) = some existing) : existing = id := by
  unfold SfuNode.checkChannelSlot at h
  split at h
  · cases h
  · split at h
    · cases h
    next hcollision =>
      rw [hexisting] at hcollision
      simpa using hcollision

lemma sound_channelEntry (h : Indexed hash s) (id : ChannelId) (app : AppId) (config : ChannelConfig V) :
    ∃ config', (s.channelEntry id app config).Sound config' := by
  unfold SfuNode.channelEntry
  cases hc : s.channels.find id with
  | none => exact ⟨config, MediaChannel.sound_new id app config⟩
  | some c => exact h.rooms.sound id c hc

lemma find_channelEntry (id : ChannelId) (app : AppId) (config : ChannelConfig V) (user : UserId) :
    (s.channelEntry id app config).participants.find user =
      (s.channels.find id).bind fun c => c.participants.find user := by
  unfold SfuNode.channelEntry
  cases s.channels.find id <;> rfl

variable {config : ChannelConfig V}

lemma set_channelEntry {id : ChannelId} {app : AppId} (hc : (s.channels.find id).isSome) :
    { s with channels := s.channels.set id (s.channelEntry id app config) } = s := by
  obtain ⟨c, hc⟩ := isSome_iff_exists.mp hc
  have hsame : s.channels.set id (s.channelEntry id app config) = s.channels := by
    apply ext
    intro other
    rw [find_set, SfuNode.channelEntry, hc]
    split
    next heq =>
      rw [heq, hc]
      rfl
    · rfl
  rw [hsame]

lemma isSome_of_appId {id : ChannelId} {app : AppId}
    (happ : (s.channelEntry id app config).appId ≠ app) : (s.channels.find id).isSome := by
  unfold SfuNode.channelEntry at happ
  cases hc : s.channels.find id with
  | none =>
    rw [hc] at happ
    exact absurd rfl happ
  | some => rfl

section

variable (h : Indexed hash s) (id : ChannelId)
include h

lemma pinChannel (app : AppId) (config : ChannelConfig V) : Indexed hash (s.pinChannel hash id app config).2 := by
  unfold SfuNode.pinChannel
  cases hslot : s.checkChannelSlot hash id with
  | some => exact h
  | none =>
    dsimp only
    split
    next happ =>
      rw [set_channelEntry (isSome_of_appId happ)]
      exact h
    · refine h.of_sameSessions ⟨rfl, rfl, rfl, rfl⟩ ?_
      have hregisters : Rooms.Registers hash s { s with
          channels := s.channels.set id (s.channelEntry id app config)
          pinnedChannels := s.pinnedChannels.set id ((s.pinnedChannels.find id).getD 0 + 1)
          channelsByHash :=
            if (s.channels.find id).isNone then s.channelsByHash.set (hash id) id else s.channelsByHash } id
          (s.channelEntry id app config) := ⟨rfl, rfl, free_of_checkChannelSlot hslot⟩
      refine h.rooms.register hregisters ⟨h.sound_channelEntry id app config, fun _ _ _ _ _ => Iff.rfl, ?_, ?_⟩ ?_ ?_
      · intro sid session hsession
        rw [find_channelEntry, h.rooms.listed sid session hsession]
        simp [bind_eq_some_iff]
      · intro user session hfound
        rw [find_channelEntry] at hfound
        obtain ⟨c, hc, hfound⟩ := bind_eq_some_iff.mp hfound
        exact h.rooms.present id c user session hc hfound
      · right
        rw [find_set, if_pos rfl]
        rfl
      · intro id' hne
        rw [find_set, if_neg hne]

lemma unpinChannel : Indexed hash (s.unpinChannel hash id) := by
  unfold SfuNode.unpinChannel
  cases hpin : s.pinnedChannels.find id with
  | none => exact h
  | some =>
    have hpinned := h.rooms.pinned id (hpin ▸ rfl)
    obtain ⟨c, hc⟩ := isSome_iff_exists.mp hpinned
    dsimp only
    split
    · refine h.of_sameSessions ⟨rfl, rfl, rfl, rfl⟩ (h.rooms.congr rfl rfl ?_)
      intro id'
      rw [find_set]
      split
      next heq =>
        rw [heq, hpin]
        rfl
      · rfl
    · rw [hc]
      obtain ⟨hsessions, hjoined⟩ := sameSessions_keepOrDrop hash
        { s with pinnedChannels := s.pinnedChannels.erase id } id c
      apply h.of_sameSessions ⟨hsessions.byId, hsessions.byUser, hsessions.count, hsessions.options⟩
      rw [hjoined]
      refine h.rooms.keepOrDrop { s with pinnedChannels := s.pinnedChannels.erase id } rfl rfl ?_ hc
        ⟨h.rooms.sound id c hc, fun _ _ _ _ _ => Iff.rfl, ?_, fun _ _ => h.rooms.present id c _ _ hc⟩
      · intro id' hne
        rw [find_erase, if_neg hne]
      · intro sid session hsession
        rw [h.rooms.listed sid session hsession]
        simp [hc]

lemma enter {session : MediaSession} (hlive : s.sessionsById.find session.sessionId = some session) {id : ChannelId}
    (hslot : s.checkChannelSlot hash id = none) {channel : MediaChannel V P} (hsound : ∃ config, channel.Sound config)
    (hmembers : ∀ user, channel.participants.find user = if user = session.userId then some session
      else (s.channels.find id).bind fun c => c.participants.find user) :
    Indexed hash { s with
      channels := s.channels.set id channel
      joined := Function.update s.joined session
        (if id ∈ s.joined session then s.joined session else s.joined session ++ [id])
      channelsByHash :=
        if (s.channels.find id).isNone then s.channelsByHash.set (hash id) id else s.channelsByHash } := by
  refine h.of_sameSessions ⟨rfl, rfl, rfl, rfl⟩ ?_
  have hjoined : ∀ other id', id' ∈ Function.update s.joined session
      (if id ∈ s.joined session then s.joined session else s.joined session ++ [id]) other ↔
        id' ∈ s.joined other ∨ other = session ∧ id' = id := by
    intro other id'
    by_cases hother : other = session
    · subst hother
      rw [Function.update_self]
      split
      next hmem => exact ⟨.inl, fun hcase => hcase.elim (fun hold => hold) fun heq => heq.2 ▸ hmem⟩
      · simp
    · simp [hother]
  refine h.rooms.register ⟨rfl, rfl, free_of_checkChannelSlot hslot⟩ ⟨hsound, ?_, ?_, ?_⟩ ?_ fun _ _ => rfl
  · intro sid other hother id' hne
    rw [hjoined]
    simp [hne]
  · intro sid other hother
    rw [hjoined, hmembers, h.rooms.listed sid other hother]
    split
    next huser =>
      have hsame := h.rooms.alone _ _ _ _ hother hlive huser
      simp [hsame]
    next huser =>
      have hne : other ≠ session := fun heq => huser (heq ▸ rfl)
      simp [hne, bind_eq_some_iff]
  · intro user other hfound
    rw [hmembers] at hfound
    split at hfound
    next huser =>
      obtain rfl := some.inj hfound
      exact ⟨huser.symm, hlive⟩
    · obtain ⟨c, hc, hfound⟩ := bind_eq_some_iff.mp hfound
      exact h.rooms.present id c user other hc hfound
  · left
    refine ⟨session.userId, mem_keys_iff.mpr ⟨session, ?_⟩⟩
    rw [hmembers, if_pos rfl]

end

/-- A join that cannot be refused after it made the channel or took a membership away. -/
def RegularJoin (s : SfuNode V P) (session : MediaSession) (id : ChannelId) (config : ChannelConfig V)
    (role : ChannelRole) (hints : JoinHints) : Prop :=
  let channel := s.channelEntry id session.appId config
  (s.channels.find id).isNone ∨ (channel.participants.find session.userId).isSome →
    (channel.removeParticipant session.userId).2.HasRoom session.userId role hints

lemma joinChannelWith (h : Indexed hash s) (env : Env) (sid : SessionId) (id : ChannelId)
    (config : ChannelConfig V) (role : ChannelRole) (hints : JoinHints)
    (hregular : ∀ session, s.sessionsById.find sid = some session → RegularJoin s session id config role hints) :
    Indexed hash (s.joinChannelWith hash env sid id config role hints).2 := by
  unfold SfuNode.joinChannelWith
  cases hfind : s.sessionsById.find sid with
  | none => exact h
  | some session =>
    have hlive : s.sessionsById.find session.sessionId = some session := h.rooms.keyed sid session hfind ▸ hfind
    dsimp only
    split
    · exact h
    · cases hslot : s.checkChannelSlot hash id with
      | some => exact h
      | none =>
        dsimp only
        split
        next happ =>
          rw [set_channelEntry (isSome_of_appId happ)]
          exact h
        next happ =>
          obtain ⟨config', hsound⟩ := h.sound_channelEntry id session.appId config
          cases hresult : (s.channelEntry id session.appId config).addParticipantWith env session role hints with
          | mk result channel =>
            have hresult₁ : _ = result := congrArg Prod.fst hresult
            have hresult₂ : _ = channel := congrArg Prod.snd hresult
            cases result with
            | error =>
              dsimp only
              -- neither new nor a member, or there was room
              have hold : ¬ ((s.channels.find id).isNone ∨
                  ((s.channelEntry id session.appId config).participants.find session.userId).isSome) := by
                intro hcase
                have hroom := hregular session hfind hcase
                obtain ⟨a, ha⟩ : ∃ a, ((s.channelEntry id session.appId config).addParticipantWith env session
                    role hints).1 = .ok a := MediaChannel.addParticipantWith_of_hasRoom (not_not.mp happ) hroom
                rw [hresult₁] at ha
                cases ha
              obtain ⟨hknown, hstranger⟩ := not_or.mp hold
              have hsame := MediaChannel.addParticipantWith_error (Option.not_isSome_iff_eq_none.mp hstranger) hresult₁
              rw [← hresult₂, hsame, set_channelEntry (by simpa [Option.isSome_iff_ne_none] using hknown)]
              exact h
            | ok =>
              apply h.enter hlive hslot
              · rw [← hresult₂]
                exact ⟨config', hsound.addParticipantWith env session role hints⟩
              · intro user
                rw [← hresult₂, MediaChannel.find_addParticipantWith hsound hresult₁, find_channelEntry]

end Indexed

/-- The calls of the node's registry, and the cleanup with the sessions it found stale. -/
inductive Event (V : Type)
  | create (env : Env) (session : MediaSession) (keyError : Option AurixError)
  | adopt (env : Env) (session : MediaSession) (keyError : Option AurixError)
  | destroy (env : Env) (sid : SessionId)
  | timeout (stale : List SessionId)
  | join (env : Env) (sid : SessionId) (id : ChannelId) (config : ChannelConfig V) (role : ChannelRole)
      (hints : JoinHints)
  | leave (env : Env) (sid : SessionId) (id : ChannelId)
  | kick (env : Env) (user : UserId) (id : ChannelId)
  | pin (id : ChannelId) (app : AppId) (config : ChannelConfig V)
  | unpin (id : ChannelId)

def step (hash : ChannelId → UInt32) (s : SfuNode V P) : Event V → SfuNode V P
  | .create env session keyError => (s.createSessionWithSsrc hash env session keyError).2
  | .adopt env session keyError => (s.adoptSession hash env session keyError).2
  | .destroy env sid => (s.destroySession hash env sid).2
  | .timeout stale => stale.foldl (SfuNode.expireSession hash) s
  | .join env sid id config role hints => (s.joinChannelWith hash env sid id config role hints).2
  | .leave env sid id => (s.leaveChannel hash env sid id).2
  | .kick env user id => (s.kickUserFromChannel hash env user id).2
  | .pin id app config => (s.pinChannel hash id app config).2
  | .unpin id => s.unpinChannel hash id

/-- No id of another user's session is created anew, and no join is refused too late. -/
def Regular (s : SfuNode V P) : Event V → Prop
  | .create _ session _ =>
    ∀ other, s.sessionsById.find session.sessionId = some other → other.userId = session.userId
  | .join _ sid id config role hints =>
    ∀ session, s.sessionsById.find sid = some session → Indexed.RegularJoin s session id config role hints
  | _ => True

lemma Indexed.step (h : Indexed hash s) (e : Event V) (hregular : Regular s e) :
    Indexed hash (Sfu.step hash s e) := by
  cases e with
  | create env session keyError => exact h.createSessionWithSsrc env session keyError hregular
  | adopt env session keyError => exact h.adoptSession env session keyError
  | destroy env sid => exact h.destroySession env sid
  | timeout stale => exact Traces.foldl_invariant (Indexed hash) (fun _ sid hs => hs.expireSession sid) stale h
  | join env sid id config role hints => exact h.joinChannelWith env sid id config role hints hregular
  | leave env sid id => exact h.leaveChannel env sid id
  | kick env user id => exact h.kickUserFromChannel env user id
  | pin id app config => exact h.pinChannel id app config
  | unpin id => exact h.unpinChannel id

structure Consistent (hash : ChannelId → UInt32) (s : SfuNode V P) : Prop where
  counted : s.activeParticipantCount.toNat = s.sessionsById.keys.card
  capacity : s.activeParticipantCount ≤ s.options.maxParticipants
  hashed : ∀ id ∈ s.channels.keys, s.channelsByHash.find (hash id) = some id
  listed : ∀ sid session, s.sessionsById.find sid = some session → ∀ id, id ∈ s.joined session ↔
    ∃ c, s.channels.find id = some c ∧ c.participants.find session.userId = some session
  members : ∀ id c user session, s.channels.find id = some c → c.participants.find user = some session →
    session.userId = user ∧ s.sessionsById.find session.sessionId = some session
  kept : ∀ id, id ∈ s.channels.keys ↔
    (∃ c, s.channels.find id = some c ∧ c.participants.keys.Nonempty) ∨ id ∈ s.pinnedChannels.keys

lemma Indexed.consistent (h : Indexed hash s) : Consistent hash s where
  counted := h.counted
  capacity := h.capacity
  hashed id hid := by
    obtain ⟨c, hc⟩ := mem_keys_iff.mp hid
    exact h.rooms.hashed id c hc
  listed := h.rooms.listed
  members := h.rooms.present
  kept id := by
    rw [mem_keys, mem_keys]
    constructor
    · intro hid
      obtain ⟨c, hc⟩ := isSome_iff_exists.mp hid
      exact (h.rooms.occupied id c hc).imp_left fun hsome => ⟨c, hc, hsome⟩
    · rintro (⟨c, hc, -⟩ | hpin)
      · exact hc ▸ rfl
      · exact h.rooms.pinned id hpin

/-- After every regular run the counter is the number of sessions and within its limit, every live
channel is found by its hash, sessions and channels list each other, and no channel is kept without a
participant or a pin. -/
theorem sfu_indexes_consistent (hash : ChannelId → UInt32) (options : SfuOptions) (events : List (Event V))
    (h : Traces.Meets (step hash) Regular (SfuNode.new options : SfuNode V P) events) :
    Consistent hash (events.foldl (step hash) (SfuNode.new options : SfuNode V P)) := by
  have hindexed := Traces.meets_invariant (Indexed hash) (fun s e hs hregular => hs.step e hregular) h
    (Indexed.new options)
  exact hindexed.consistent

namespace Sample

def options : SfuOptions := ⟨10, 10, 4, 1⟩

def session : MediaSession := { sessionId := 1, userId := 2, appId := 7, ssrc := 5 }

def takenElsewhere : JoinHints := { priority := false, remoteSpeakers := 1 }

def joins (role : ChannelRole) : List (Event Unit) :=
  [.create MediaChannel.quietEnv session none,
    .join MediaChannel.quietEnv 1 9 MediaChannel.oneSlot role takenElsewhere]

theorem sfu_indexes_consistent_listener :
    Consistent (fun _ => 3) ((joins .listener).foldl (step fun _ => 3) (SfuNode.new options : SfuNode Unit Unit)) := by
  apply sfu_indexes_consistent
  refine ⟨?_, ?_, trivial⟩
  · intro other hother
    cases hother
  · intro joiner hjoiner _
    obtain rfl : session = joiner := some.inj hjoiner
    refine ⟨by decide, ?_⟩
    rintro ⟨hspeaks, -⟩
    cases hspeaks

def joinAs (role : ChannelRole) (s : SfuNode Unit Unit) : SfuNode Unit Unit :=
  step (fun _ => 3) s (.join MediaChannel.quietEnv 1 9 MediaChannel.oneSlot role takenElsewhere)

def joined (role : ChannelRole) : SfuNode Unit Unit := (joins role).foldl (step fun _ => 3) (SfuNode.new options)

theorem refused_join_leaves_channel :
    (joined .speaker).channels.keys = {9} ∧ (joined .speaker).channelsByHash.find 3 = none ∧
      (joined .speaker).pinnedChannels.keys = ∅ ∧ (joined .speaker).joined session = [] ∧
      ¬ Consistent (fun _ => 3) (joined .speaker) ∧
      (joinAs .listener (joined .speaker)).joined session = [9] ∧
      (joinAs .listener (joined .speaker)).channelsByHash.find 3 = none ∧
      (joinAs .speaker (joined .listener)).joined session = [9] ∧
      ((joinAs .speaker (joined .listener)).channels.find 9).map (fun c => c.participants.keys) = some ∅ := by
  have hkeys : (joined .speaker).channels.keys = {9} := by decide +kernel
  have hhash : (joined .speaker).channelsByHash.find 3 = none := by decide +kernel
  refine ⟨hkeys, hhash, by decide +kernel, by decide +kernel, ?_, by decide +kernel, by decide +kernel,
    by decide +kernel, by decide +kernel⟩
  intro hconsistent
  have hfound := hconsistent.hashed 9 (hkeys ▸ Finset.mem_singleton_self 9)
  cases hfound

end Sample

end Sfu

end AurixVoice
