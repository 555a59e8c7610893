import AurixVoice.Library.Dict
import AurixVoice.Library.Traces
import AurixVoice.Types

/-!
Joins and leaves as the WebSocket layer records them. A request is handled whole; what the checks, the
media node and the database answer is an input.
-/

namespace AurixVoice.Participants

open Function

structure ConnectionInfo where
  userId : UserId
  appId : AppId
  channels : List ChannelId
  deriving DecidableEq

structure ChannelMembershipRow where
  channelId : ChannelId
  userId : UserId
  sessionId : SessionId
  hasLeft : Bool
  deriving DecidableEq

inductive ServerEvent
  | channelActivated (channelId : ChannelId)
  | channelDeactivated (channelId : ChannelId)
  | participantLeft (channelId : ChannelId) (userId : UserId) (sessionId : SessionId) (reason : String)
  deriving DecidableEq

structure State where
  connections : Dict SessionId ConnectionInfo
  channelMembers : ChannelId → Finset SessionId
  memberships : List ChannelMembershipRow
  activeParticipants : ChannelId → ℕ
  published : List ServerEvent

namespace State

variable (s : State)

def publish (e : ServerEvent) : State := { s with published := s.published ++ [e] }

def updateParticipantCount (id : ChannelId) (delta : ℤ) : ℕ × State :=
  let count := (max 0 ((s.activeParticipants id : ℤ) + delta)).toNat
  (count, { s with activeParticipants := update s.activeParticipants id count })

def indexJoin (id : ChannelId) (sid : SessionId) : State :=
  { s with
    channelMembers := update s.channelMembers id (insert sid (s.channelMembers id))
    connections := s.connections.modify sid fun conn =>
      if id ∈ conn.channels then conn else { conn with channels := conn.channels ++ [id] } }

def indexLeave (id : ChannelId) (sid : SessionId) : State :=
  { s with
    channelMembers := update s.channelMembers id ((s.channelMembers id).erase sid)
    connections := s.connections.modify sid fun conn =>
      { conn with channels := conn.channels.filter (· ≠ id) } }

def closeRows (close : ChannelMembershipRow → Bool) : State :=
  { s with memberships := s.memberships.map fun row => if close row then { row with hasLeft := true } else row }

/-- `admitted`: the rate limit, the token, the quota, the channel and the media node let the session in.
`persisted`: the membership row could be inserted. -/
def channelJoin (sid : SessionId) (id : ChannelId) (admitted persisted : Bool) : State :=
  match s.connections.find sid with
  | none => s
  | some conn =>
    if admitted ∧ persisted then
      let row : ChannelMembershipRow := ⟨id, conn.userId, sid, false⟩
      let s := { s with memberships := s.memberships ++ [row] }
      let s := s.indexJoin id sid
      let (count, s) := s.updateParticipantCount id 1
      if count = 1 then s.publish (.channelActivated id) else s
    else s

def leaveChannelFull (sid : SessionId) (id : ChannelId) (reason : String) : State :=
  match s.connections.find sid with
  | none => s
  | some conn =>
    let wasMember := sid ∈ s.channelMembers id
    let s := s.indexLeave id sid
    if wasMember then
      let s := s.closeRows fun row => row.channelId = id ∧ row.sessionId = sid
      let (count, s) := s.updateParticipantCount id (-1)
      let s := s.publish (.participantLeft id conn.userId sid reason)
      if count = 0 then s.publish (.channelDeactivated id) else s
    else s

def sessionsOfUser (app : AppId) (user : UserId) : List SessionId :=
  (s.connections.entries.filter fun e => e.2.appId = app ∧ e.2.userId = user).map Prod.fst

def kickFromChannel (app : AppId) (id : ChannelId) (user : UserId) : State :=
  let s := s.closeRows fun row => row.channelId = id ∧ row.userId = user
  (s.sessionsOfUser app user).foldl (fun s sid => s.leaveChannelFull sid id "kicked") s

def cleanupConnection (sid : SessionId) (reason : String) : State :=
  let channels := ((s.connections.find sid).map (·.channels)).getD []
  let s := channels.foldl (fun s id => s.leaveChannelFull sid id reason) s
  let s := { s with connections := s.connections.erase sid }
  s.closeRows fun row => row.sessionId = sid

def openSession (sid : SessionId) (user : UserId) (app : AppId) : State :=
  if (s.connections.find sid).isSome then s
  else { s with connections := s.connections.set sid ⟨user, app, []⟩ }

end State

inductive Event
  | openSession (sid : SessionId) (user : UserId) (app : AppId)
  | channelJoin (sid : SessionId) (id : ChannelId) (admitted persisted : Bool)
  | channelLeave (sid : SessionId) (id : ChannelId)
  | kick (app : AppId) (id : ChannelId) (user : UserId)
  | disconnect (sid : SessionId) (reason : String)

def step (s : State) : Event → State
  | .openSession sid user app => s.openSession sid user app
  | .channelJoin sid id admitted persisted => s.channelJoin sid id admitted persisted
  | .channelLeave sid id => s.leaveChannelFull sid id "voluntary"
  | .kick app id user => s.kickFromChannel app id user
  | .disconnect sid reason => s.cleanupConnection sid reason

namespace State

def Covers (s : State) : Prop := ∀ id, (s.channelMembers id).card ≤ s.activeParticipants id

def Exact (s : State) : Prop := ∀ id, s.activeParticipants id = (s.channelMembers id).card

def Moves (s s' : State) : Prop :=
  ∀ id, s'.activeParticipants id + (s.channelMembers id).card =
    s.activeParticipants id + (s'.channelMembers id).card

variable {s t : State} {admitted persisted : Bool}

lemma Moves.rfl : s.Moves s := fun _ => refl _

lemma Moves.trans {u : State} (h : s.Moves t) (h' : t.Moves u) : s.Moves u := by
  intro id
  have := h id
  have := h' id
  omega

lemma Moves.covers (h : s.Moves t) (hs : s.Covers) : t.Covers := by
  intro id
  have := h id
  have := hs id
  omega

lemma Moves.exact_iff (h : s.Moves t) : t.Exact ↔ s.Exact := by
  refine forall_congr' fun id => ?_
  have := h id
  omega

lemma moves_of_eq (hmembers : t.channelMembers = s.channelMembers)
    (hactive : t.activeParticipants = s.activeParticipants) : s.Moves t := by
  intro id
  rw [hmembers, hactive]

lemma moves_leaveChannelFull (hs : s.Covers) (sid : SessionId) (id : ChannelId) (reason : String) :
    s.Moves (s.leaveChannelFull sid id reason) := by
  unfold leaveChannelFull
  split
  · exact .rfl
  · dsimp only
    split_ifs with hmember hcount
    all_goals intro other
    all_goals by_cases hid : other = id
    iterate 2
      · subst hid
        have hcard := Finset.card_erase_add_one hmember
        have := hs other
        simp only [publish, updateParticipantCount, closeRows, indexLeave, update_self]
        omega
      · simp [publish, updateParticipantCount, closeRows, indexLeave, hid]
    · simp [indexLeave, hid, Finset.erase_eq_of_notMem hmember]
    · simp [indexLeave, hid]

lemma moves_foldl_leave {α : Type} (leave : State → α → State)
    (hleave : ∀ (s : State) (a : α), s.Covers → s.Moves (leave s a)) (as : List α) (hs : s.Covers) :
    s.Moves (as.foldl leave s) := by
  induction as generalizing s with
  | nil => exact .rfl
  | cons a as ih =>
    have hfirst := hleave s a hs
    exact hfirst.trans (ih (hfirst.covers hs))

lemma moves_kickFromChannel (hs : s.Covers) (app : AppId) (id : ChannelId) (user : UserId) :
    s.Moves (s.kickFromChannel app id user) := by
  have hrows : s.Moves (s.closeRows fun row => row.channelId = id ∧ row.userId = user) :=
    moves_of_eq rfl rfl
  refine hrows.trans (moves_foldl_leave _ (fun s sid hs => ?_) _ (hrows.covers hs))
  exact moves_leaveChannelFull hs sid id "kicked"

lemma moves_cleanupConnection (hs : s.Covers) (sid : SessionId) (reason : String) :
    s.Moves (s.cleanupConnection sid reason) := by
  refine (moves_foldl_leave (fun s id => s.leaveChannelFull sid id reason) (fun s id hs => ?_) _ hs).trans
    (moves_of_eq rfl rfl)
  exact moves_leaveChannelFull hs sid id reason

lemma moves_openSession (s : State) (sid : SessionId) (user : UserId) (app : AppId) :
    s.Moves (s.openSession sid user app) := by
  unfold openSession
  split
  · exact .rfl
  · exact moves_of_eq rfl rfl

def Joins (s : State) (sid : SessionId) (admitted persisted : Bool) : Prop :=
  (s.connections.find sid).isSome ∧ admitted ∧ persisted

instance (s : State) (sid : SessionId) (admitted persisted : Bool) : Decidable (s.Joins sid admitted persisted) := by
  unfold Joins
  infer_instance

variable {sid : SessionId}

lemma channelJoin_refused (h : ¬s.Joins sid admitted persisted) (id : ChannelId) :
    s.channelJoin sid id admitted persisted = s := by
  unfold channelJoin
  unfold Joins at h
  split
  · rfl
  · next conn hconn =>
    rw [hconn, Option.isSome_some] at h
    exact if_neg fun hok => h ⟨rfl, hok⟩

lemma channelJoin_counts (h : s.Joins sid admitted persisted) (id : ChannelId) :
    (s.channelJoin sid id admitted persisted).channelMembers =
        update s.channelMembers id (insert sid (s.channelMembers id)) ∧
      (s.channelJoin sid id admitted persisted).activeParticipants =
        update s.activeParticipants id (s.activeParticipants id + 1) := by
  obtain ⟨hconn, hok⟩ := h
  obtain ⟨conn, hconn⟩ := Option.isSome_iff_exists.mp hconn
  have hcount : (max 0 ((s.activeParticipants id : ℤ) + 1)).toNat = s.activeParticipants id + 1 := by omega
  simp only [channelJoin, hconn, if_pos hok, updateParticipantCount, indexJoin, hcount]
  split
  · exact ⟨rfl, rfl⟩
  · exact ⟨rfl, rfl⟩

lemma covers_channelJoin (hs : s.Covers) (sid : SessionId) (id : ChannelId) (admitted persisted : Bool) :
    (s.channelJoin sid id admitted persisted).Covers := by
  by_cases h : s.Joins sid admitted persisted
  · obtain ⟨hmembers, hactive⟩ := channelJoin_counts h id
    intro other
    rw [hmembers, hactive]
    by_cases hid : other = id
    · subst hid
      have := hs other
      have := Finset.card_insert_le sid (s.channelMembers other)
      simp only [update_self]
      omega
    · simpa [hid] using hs other
  · rw [channelJoin_refused h]
    exact hs

lemma moves_channelJoin {id : ChannelId} (h : s.Joins sid admitted persisted → sid ∉ s.channelMembers id) :
    s.Moves (s.channelJoin sid id admitted persisted) := by
  by_cases hj : s.Joins sid admitted persisted
  · obtain ⟨hmembers, hactive⟩ := channelJoin_counts hj id
    intro other
    rw [hmembers, hactive]
    by_cases hid : other = id
    · subst hid
      have := Finset.card_insert_of_notMem (h hj)
      simp only [update_self]
      omega
    · simp [hid]
  · rw [channelJoin_refused hj]
    exact .rfl

lemma not_exact_of_repeated {id : ChannelId} (hs : s.Covers) (hj : s.Joins sid admitted persisted)
    (hmember : sid ∈ s.channelMembers id) : ¬(s.channelJoin sid id admitted persisted).Exact := by
  obtain ⟨hmembers, hactive⟩ := channelJoin_counts hj id
  intro hexact
  have h := hexact id
  have := hs id
  rw [hmembers, hactive, update_self, update_self, Finset.insert_eq_of_mem hmember] at h
  omega

end State

/-- No join that is let in is of a channel the session is already in. -/
def FirstJoin (s : State) : Event → Prop
  | .channelJoin sid id admitted persisted => s.Joins sid admitted persisted → sid ∉ s.channelMembers id
  | _ => True

variable {s : State} (e : Event)

lemma moves_step {e : Event} (hs : s.Covers) (h : FirstJoin s e) : s.Moves (step s e) := by
  cases e with
  | openSession sid user app => exact s.moves_openSession sid user app
  | channelJoin => exact State.moves_channelJoin h
  | channelLeave sid id => exact State.moves_leaveChannelFull hs sid id "voluntary"
  | kick app id user => exact State.moves_kickFromChannel hs app id user
  | disconnect sid reason => exact State.moves_cleanupConnection hs sid reason

lemma repeated_of_not_firstJoin {e : Event} (h : ¬FirstJoin s e) :
    ∃ sid id admitted persisted, e = .channelJoin sid id admitted persisted ∧
      s.Joins sid admitted persisted ∧ sid ∈ s.channelMembers id := by
  cases e with
  | channelJoin sid id admitted persisted =>
    obtain ⟨hj, hmember⟩ := Classical.not_imp.mp h
    exact ⟨sid, id, admitted, persisted, rfl, hj, not_not.mp hmember⟩
  | openSession | channelLeave | kick | disconnect => exact absurd trivial h

lemma covers_step (hs : s.Covers) : (step s e).Covers := by
  by_cases h : FirstJoin s e
  · exact (moves_step hs h).covers hs
  · obtain ⟨sid, id, admitted, persisted, rfl, _⟩ := repeated_of_not_firstJoin h
    exact State.covers_channelJoin hs sid id admitted persisted

lemma exact_of_exact_step (hs : s.Covers) (h : (step s e).Exact) : s.Exact := by
  by_cases hfirst : FirstJoin s e
  · exact (moves_step hs hfirst).exact_iff.mp h
  · obtain ⟨sid, id, admitted, persisted, rfl, hj, hmember⟩ := repeated_of_not_firstJoin hfirst
    exact absurd h (State.not_exact_of_repeated hs hj hmember)

lemma exact_step_iff (hs : s.Covers) (hexact : s.Exact) : (step s e).Exact ↔ FirstJoin s e := by
  constructor
  · intro h
    by_contra hfirst
    obtain ⟨sid, id, admitted, persisted, rfl, hj, hmember⟩ := repeated_of_not_firstJoin hfirst
    exact State.not_exact_of_repeated hs hj hmember h
  · exact fun hfirst => (moves_step hs hfirst).exact_iff.mpr hexact

def initial : State where
  connections := .empty
  channelMembers _ := ∅
  memberships := []
  activeParticipants _ := 0
  published := []

/-- After a run every counter is the number of sessions in its channel if and only if no session was let
into a channel it was already in. -/
theorem participants_counted_iff (events : List Event) :
    (∀ id, (events.foldl step initial).activeParticipants id =
        ((events.foldl step initial).channelMembers id).card) ↔
      Traces.Meets step FirstJoin initial events :=
  Traces.foldl_iff_meets State.Covers State.Exact (fun _ e => covers_step e)
    (fun _ e => exact_of_exact_step e) (fun _ e => exact_step_iff e) (fun _ => le_rfl) (fun _ => rfl)

namespace Sample

def joinedTwice : List Event :=
  [.openSession 7 1 2, .channelJoin 7 9 true true, .channelJoin 7 9 true true, .channelLeave 7 9]

theorem empty_channel_counted :
    (joinedTwice.foldl step initial).channelMembers 9 = ∅ ∧
      (joinedTwice.foldl step initial).activeParticipants 9 = 1 := by
  decide +kernel

end Sample

end AurixVoice.Participants
