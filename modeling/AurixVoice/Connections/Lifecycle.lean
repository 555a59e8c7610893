import AurixVoice.Library.Traces
import AurixVoice.Types
import Mathlib.Data.List.Nodup

/-! The connection table of a node and the tasks on its entries; what is done under one lock is one step. -/

namespace AurixVoice.Connections

structure ValidatedToken where
  userId : UserId
  appId : AppId
  deriving DecidableEq

structure ConnectionInfo where
  userId : UserId
  appId : AppId
  resumeTokenHash : List UInt8
  detachedSince : Option ℕ
  generation : ℕ
  closing : Option String
  deriving DecidableEq

def ConnectionInfo.tryClaim (conn : ConnectionInfo) (presented : List UInt8) (jwt : ValidatedToken) :
    Option ConnectionInfo :=
  if conn.detachedSince = none ∨ conn.closing ≠ none ∨ conn.userId ≠ jwt.userId ∨
      conn.appId ≠ jwt.appId ∨ presented ≠ conn.resumeTokenHash then none
  else some { conn with detachedSince := none, generation := conn.generation + 1 }

variable {conn : ConnectionInfo}

lemma ConnectionInfo.tryClaim_eq_some {conn' : ConnectionInfo} {presented : List UInt8}
    {jwt : ValidatedToken} (h : conn.tryClaim presented jwt = some conn') :
    conn.detachedSince ≠ none ∧
      conn' = { conn with detachedSince := none, generation := conn.generation + 1 } := by
  unfold tryClaim at h
  split at h
  · cases h
  · next hcond =>
    cases h
    exact ⟨fun hd => hcond (.inl hd), rfl⟩

inductive Disconnect
  | clientClose
  | dropped
  deriving DecidableEq

structure Slot where
  entry : Option ConnectionInfo
  opened : Bool
  sockets : ℕ
  parking : ℕ
  resuming : ℕ
  cleaning : ℕ
  timers : List ℕ
  cleanups : ℕ
  deriving DecidableEq

namespace Slot

variable (s : Slot)

def unused : Slot where
  entry := none
  opened := false
  sockets := 0
  parking := 0
  resuming := 0
  cleaning := 0
  timers := []
  cleanups := 0

def startCleanup : Slot :=
  { s with cleaning := s.cleaning + 1, cleanups := s.cleanups + 1 }

def openSession (jwt : ValidatedToken) (resumeHash : List UInt8) : Slot :=
  if s.opened then s
  else { s with
    opened := true
    sockets := s.sockets + 1
    entry := some {
      userId := jwt.userId, appId := jwt.appId, resumeTokenHash := resumeHash
      detachedSince := none, generation := 0, closing := none } }

def socketEnds (disconnect : Disconnect) (graceZero : Bool) : Slot :=
  if s.sockets = 0 then s
  else
    let s := { s with sockets := s.sockets - 1 }
    match s.entry.map (·.closing), disconnect with
    | some (some _), _ => s.startCleanup
    | none, _ => s.startCleanup
    | some none, .dropped =>
      if graceZero then s.startCleanup else { s with parking := s.parking + 1 }
    | some none, .clientClose => s.startCleanup

def detach (now : ℕ) : Slot :=
  if s.parking = 0 then s
  else
    let s := { s with parking := s.parking - 1 }
    match s.entry with
    | none => s
    | some conn =>
      { s with
        entry := some { conn with detachedSince := some now, generation := conn.generation + 1 }
        timers := (conn.generation + 1) :: s.timers }

def graceElapsed (generation : ℕ) : Slot :=
  if generation ∈ s.timers then
    let s := { s with timers := s.timers.erase generation }
    match s.entry with
    | none => s
    | some conn =>
      if conn.detachedSince ≠ none ∧ conn.generation = generation then
        { s with entry := some { conn with detachedSince := none } }.startCleanup
      else s
  else s

/-- `take_detached`, and the cleanup that its callers start when it has ended the detached state. -/
def takeDetached : Slot :=
  match s.entry with
  | none => s
  | some conn =>
    if conn.detachedSince = none then s
    else
      { s with
        entry := some { conn with detachedSince := none, generation := conn.generation + 1 }
        }.startCleanup

/-- `request_close` up to where it lets go of the entry; `takeDetached` is what it does next. -/
def requestClose (reason : String) : Slot :=
  { s with entry := s.entry.map fun conn => { conn with closing := some reason } }

def claimResume (presented : List UInt8) (jwt : ValidatedToken) : Slot :=
  match s.entry.bind (·.tryClaim presented jwt) with
  | none => s
  | some conn => { s with entry := some conn, resuming := s.resuming + 1 }

/-- The claimed connection is upgraded: `reattach_session`, or the cleanup of a session whose media
session died meanwhile. -/
def reattach (mediaActive : Bool) (resumeHash : List UInt8) : Slot :=
  if s.resuming = 0 then s
  else
    let s := { s with resuming := s.resuming - 1 }
    match s.entry, mediaActive with
    | some conn, true =>
      { s with entry := some { conn with resumeTokenHash := resumeHash }, sockets := s.sockets + 1 }
    | _, _ => s.startCleanup

def abandon : Slot :=
  { s with resuming := s.resuming - 1 }

def finishCleanup : Slot :=
  if s.cleaning = 0 then s else { s with cleaning := s.cleaning - 1, entry := none }

end Slot

/-- What can happen to one session. The replacement of a session by a later one of its user is a
`takeDetached`, followed by the two steps of `request_close` where the session was not detached. -/
inductive Action
  | openSession (jwt : ValidatedToken) (resumeHash : List UInt8)
  | socketEnds (disconnect : Disconnect) (graceZero : Bool)
  | detach (now : ℕ)
  | graceElapsed (generation : ℕ)
  | takeDetached
  | requestClose (reason : String)
  | claimResume (presented : List UInt8) (jwt : ValidatedToken)
  | reattach (mediaActive : Bool) (resumeHash : List UInt8)
  | abandon
  | finishCleanup

def Slot.act (s : Slot) : Action → Slot
  | .openSession jwt resumeHash => s.openSession jwt resumeHash
  | .socketEnds disconnect graceZero => s.socketEnds disconnect graceZero
  | .detach now => s.detach now
  | .graceElapsed generation => s.graceElapsed generation
  | .takeDetached => s.takeDetached
  | .requestClose reason => s.requestClose reason
  | .claimResume presented jwt => s.claimResume presented jwt
  | .reattach mediaActive resumeHash => s.reattach mediaActive resumeHash
  | .abandon => s.abandon
  | .finishCleanup => s.finishCleanup

abbrev Table := SessionId → Slot

structure Event where
  session : SessionId
  action : Action

def step (table : Table) (e : Event) : Table :=
  Function.update table e.session ((table e.session).act e.action)

namespace Slot

def owners (s : Slot) : ℕ := s.sockets + s.parking + s.resuming + s.cleaning

structure Tracked (s : Slot) (conn : ConnectionInfo) : Prop where
  attached : conn.detachedSince = none → s.owners = 1
  detached : conn.detachedSince ≠ none → s.owners = 0 ∧ conn.generation ∈ s.timers
  timers_le : ∀ g ∈ s.timers, g ≤ conn.generation
  timers_stale : conn.detachedSince = none → conn.generation ∉ s.timers
  cleanups_eq : s.cleanups = s.cleaning

structure Owned (s : Slot) : Prop where
  timers_nodup : s.timers.Nodup
  unopened : s.opened = false → s.entry = none ∧ s.timers = [] ∧ s.cleanups = 0
  gone : s.entry = none → s.owners = 0 ∧ s.cleanups ≤ 1
  tracked : ∀ conn, s.entry = some conn → s.Tracked conn

lemma owned_unused : unused.Owned where
  timers_nodup := List.nodup_nil
  unopened _ := ⟨rfl, rfl, rfl⟩
  gone _ := ⟨rfl, Nat.zero_le _⟩
  tracked _ h := nomatch h

variable {s : Slot}

lemma Owned.of_tracked (hentry : s.entry = some conn) (hopened : s.opened = true)
    (hnodup : s.timers.Nodup) (h : s.Tracked conn) : s.Owned where
  timers_nodup := hnodup
  unopened hf := by rw [hopened] at hf; cases hf
  gone hn := by rw [hentry] at hn; cases hn
  tracked c hc := by rw [hentry] at hc; cases hc; exact h

lemma Owned.of_attached (hentry : s.entry = some conn) (hdet : conn.detachedSince = none)
    (hopened : s.opened = true) (hnodup : s.timers.Nodup) (howners : s.owners = 1)
    (hcleanups : s.cleanups = s.cleaning) (htimers : ∀ g ∈ s.timers, g < conn.generation) : s.Owned :=
  .of_tracked hentry hopened hnodup ⟨fun _ => howners, fun hd => absurd hdet hd, fun g hg => (htimers g hg).le,
    fun _ hg => (htimers _ hg).false, hcleanups⟩

lemma Tracked.timers_lt (h : s.Tracked conn) (hdet : conn.detachedSince = none) :
    ∀ g ∈ s.timers, g < conn.generation := by
  intro g hg
  have hne : g ≠ conn.generation := fun heq => h.timers_stale hdet (heq ▸ hg)
  exact lt_of_le_of_ne (h.timers_le g hg) hne

section

variable (h : s.Owned)
include h

lemma Owned.opened_of_entry (hentry : s.entry = some conn) : s.opened = true := by
  by_contra hf
  have hnone := (h.unopened (by simpa using hf)).1
  rw [hentry] at hnone
  cases hnone

lemma Owned.entry_of_owner (hpos : 0 < s.owners) :
    ∃ conn, s.entry = some conn ∧ conn.detachedSince = none ∧ s.owners = 1 ∧ s.cleanups = s.cleaning ∧
      ∀ g ∈ s.timers, g < conn.generation := by
  cases hentry : s.entry with
  | none =>
    have := (h.gone hentry).1
    omega
  | some conn =>
    have ht := h.tracked conn hentry
    have hdet : conn.detachedSince = none := by
      by_contra hd
      have := (ht.detached hd).1
      omega
    exact ⟨conn, rfl, hdet, ht.attached hdet, ht.cleanups_eq, ht.timers_lt hdet⟩

lemma owned_openSession (jwt : ValidatedToken) (hash : List UInt8) : (s.openSession jwt hash).Owned := by
  unfold openSession
  split
  · exact h
  · next hopened =>
    obtain ⟨hentry, htimers, hcleanups⟩ := h.unopened (by simpa using hopened)
    have howners := (h.gone hentry).1
    unfold owners at howners
    refine .of_attached rfl rfl rfl h.timers_nodup ?_ ?_ (by simp [htimers])
    · simp only [owners]
      omega
    · simp only
      omega

lemma owned_socketEnds (disconnect : Disconnect) (graceZero : Bool) : (s.socketEnds disconnect graceZero).Owned := by
  unfold socketEnds
  split
  · exact h
  · next hsockets =>
    obtain ⟨conn, hentry, hdet, howners, hcleanups, htimers⟩ := h.entry_of_owner (by unfold owners; omega)
    unfold owners at howners
    -- the socket task is the only owner, and it hands over to a cleanup or to `detach`
    have hclean : ({ s with sockets := s.sockets - 1 }.startCleanup).Owned := by
      refine .of_attached hentry hdet (h.opened_of_entry hentry) h.timers_nodup ?_ ?_ htimers
      · simp only [owners, startCleanup]
        omega
      · simp only [startCleanup]
        omega
    have hpark : ({ s with sockets := s.sockets - 1, parking := s.parking + 1 } : Slot).Owned := by
      refine .of_attached hentry hdet (h.opened_of_entry hentry) h.timers_nodup ?_ hcleanups htimers
      simp only [owners]
      omega
    dsimp only
    split
    · exact hclean
    · exact hclean
    · split
      · exact hclean
      · exact hpark
    · exact hclean

lemma owned_detach (now : ℕ) : (s.detach now).Owned := by
  unfold detach
  split
  · exact h
  · next hparking =>
    obtain ⟨conn, hentry, hdet, howners, hcleanups, htimers⟩ := h.entry_of_owner (by unfold owners; omega)
    unfold owners at howners
    have hfresh : conn.generation + 1 ∉ s.timers := by
      intro hmem
      have := htimers _ hmem
      omega
    simp only [hentry]
    refine .of_tracked rfl (h.opened_of_entry hentry) (List.nodup_cons.mpr ⟨hfresh, h.timers_nodup⟩) ?_
    constructor
    · exact fun hd => nomatch hd
    · intro _
      refine ⟨?_, List.mem_cons_self⟩
      simp only [owners]
      omega
    · intro g hg
      rcases List.mem_cons.mp hg with rfl | hg
      · exact le_rfl
      · exact ((htimers g hg).trans (Nat.lt_succ_self _)).le
    · exact fun hd => nomatch hd
    · exact hcleanups

lemma owned_graceElapsed (generation : ℕ) : (s.graceElapsed generation).Owned := by
  unfold graceElapsed
  split
  · next hmem =>
    have hnodup : (s.timers.erase generation).Nodup := h.timers_nodup.erase _
    cases hentry : s.entry with
    | none =>
      refine ⟨hnodup, fun hf => ?_, fun _ => h.gone hentry, fun conn hc => ?_⟩
      · obtain ⟨_, htimers, hcleanups⟩ := h.unopened hf
        exact ⟨rfl, by simp [htimers], hcleanups⟩
      · cases hc
    | some conn =>
      have ht := h.tracked conn hentry
      have hle : ∀ g ∈ s.timers.erase generation, g ≤ conn.generation :=
        fun g hg => ht.timers_le g (List.mem_of_mem_erase hg)
      dsimp only
      split
      · next hdue =>
        -- the timer that owned the detached entry hands over to its cleanup
        obtain ⟨hdet, rfl⟩ := hdue
        have howners := (ht.detached hdet).1
        have hcleanups := ht.cleanups_eq
        unfold owners at howners
        refine .of_attached rfl rfl (h.opened_of_entry hentry) hnodup ?_ ?_ fun g hg => ?_
        · simp only [owners, startCleanup]
          omega
        · simp only [startCleanup]
          omega
        · exact lt_of_le_of_ne (hle g hg) fun heq => h.timers_nodup.not_mem_erase (heq ▸ hg)
      · next hstale =>
        refine .of_tracked rfl (h.opened_of_entry hentry) hnodup ?_
        refine ⟨ht.attached, fun hd => ⟨(ht.detached hd).1, ?_⟩, hle, fun hd hg => ?_, ht.cleanups_eq⟩
        · have hne : conn.generation ≠ generation := fun heq => hstale ⟨hd, heq⟩
          exact (List.mem_erase_of_ne hne).mpr (ht.detached hd).2
        · exact ht.timers_stale hd (List.mem_of_mem_erase hg)
  · exact h

lemma owned_takeDetached : s.takeDetached.Owned := by
  unfold takeDetached
  cases hentry : s.entry with
  | none => exact h
  | some conn =>
    have ht := h.tracked conn hentry
    dsimp only
    split
    · exact h
    · next hdet =>
      have howners := (ht.detached hdet).1
      have hcleanups := ht.cleanups_eq
      unfold owners at howners
      refine .of_attached rfl rfl (h.opened_of_entry hentry) h.timers_nodup ?_ ?_
        fun g hg => Nat.lt_succ_of_le (ht.timers_le g hg)
      · simp only [owners, startCleanup]
        omega
      · simp only [startCleanup]
        omega

lemma owned_requestClose (reason : String) : (s.requestClose reason).Owned := by
  cases hentry : s.entry with
  | none =>
    have heq : s.requestClose reason = s := by
      cases s
      simp_all [requestClose]
    rw [heq]
    exact h
  | some conn =>
    have ht := h.tracked conn hentry
    have hentry' : (s.requestClose reason).entry = some { conn with closing := some reason } := by
      simp [requestClose, hentry]
    refine .of_tracked hentry' (h.opened_of_entry hentry) h.timers_nodup ?_
    exact ⟨ht.attached, ht.detached, ht.timers_le, ht.timers_stale, ht.cleanups_eq⟩

lemma owned_claimResume (presented : List UInt8) (jwt : ValidatedToken) : (s.claimResume presented jwt).Owned := by
  unfold claimResume
  split
  · exact h
  · next conn' hclaim =>
    obtain ⟨conn, hentry, hclaim⟩ := Option.bind_eq_some_iff.mp hclaim
    obtain ⟨hdet, rfl⟩ := ConnectionInfo.tryClaim_eq_some hclaim
    have ht := h.tracked conn hentry
    have howners := (ht.detached hdet).1
    unfold owners at howners
    refine .of_attached rfl rfl (h.opened_of_entry hentry) h.timers_nodup ?_ ht.cleanups_eq
      fun g hg => Nat.lt_succ_of_le (ht.timers_le g hg)
    simp only [owners]
    omega

lemma owned_reattach (mediaActive : Bool) (hash : List UInt8) : (s.reattach mediaActive hash).Owned := by
  unfold reattach
  split
  · exact h
  · next hresuming =>
    obtain ⟨conn, hentry, hdet, howners, hcleanups, htimers⟩ := h.entry_of_owner (by unfold owners; omega)
    unfold owners at howners
    simp only [hentry]
    cases mediaActive with
    | true =>
      refine .of_attached rfl hdet (h.opened_of_entry hentry) h.timers_nodup ?_ hcleanups htimers
      simp only [owners]
      omega
    | false =>
      refine .of_attached rfl hdet (h.opened_of_entry hentry) h.timers_nodup ?_ ?_ htimers
      · simp only [owners, startCleanup]
        omega
      · simp only [startCleanup]
        omega

lemma owned_finishCleanup : s.finishCleanup.Owned := by
  unfold finishCleanup
  split
  · exact h
  · next hcleaning =>
    obtain ⟨conn, hentry, -, howners, hcleanups, -⟩ := h.entry_of_owner (by unfold owners; omega)
    unfold owners at howners
    refine ⟨h.timers_nodup, fun hf => ?_, fun _ => ⟨?_, ?_⟩, fun _ hc => nomatch hc⟩
    · have hopened := h.opened_of_entry hentry
      rw [hopened] at hf
      cases hf
    · simp only [owners]
      omega
    · simp only
      omega

end

def Keeps (s : Slot) (a : Action) : Prop :=
  a = .abandon → s.resuming = 0

lemma owned_act {a : Action} (h : s.Owned) (hkeeps : s.Keeps a) : (s.act a).Owned := by
  cases a with
  | openSession jwt hash => exact owned_openSession h jwt hash
  | socketEnds disconnect graceZero => exact owned_socketEnds h disconnect graceZero
  | detach now => exact owned_detach h now
  | graceElapsed generation => exact owned_graceElapsed h generation
  | takeDetached => exact owned_takeDetached h
  | requestClose reason => exact owned_requestClose h reason
  | claimResume presented jwt => exact owned_claimResume h presented jwt
  | reattach mediaActive hash => exact owned_reattach h mediaActive hash
  | abandon =>
    have hresuming : s.resuming = 0 := hkeeps rfl
    have heq : s.act .abandon = s := by
      cases s
      simp_all [act, abandon]
    rw [heq]
    exact h
  | finishCleanup => exact owned_finishCleanup h

lemma graceElapsed_stale {generation : ℕ} (hentry : s.entry = some conn)
    (hstale : conn.detachedSince = none ∨ conn.generation ≠ generation) :
    s.graceElapsed generation = { s with timers := s.timers.erase generation } := by
  have hnot : ¬(conn.detachedSince ≠ none ∧ conn.generation = generation) := by
    rintro ⟨hd, hg⟩
    rcases hstale with hn | hn
    · exact hd hn
    · exact hn hg
  unfold graceElapsed
  split
  · simp [hentry, hnot]
  · next hmem => rw [List.erase_of_not_mem hmem]

end Slot

/-- The slot is owned by a task that attaches or serves a socket, by the timer of its current
generation, or by a cleanup. -/
def Slot.HasOwner (s : Slot) (conn : ConnectionInfo) : Prop :=
  0 < s.sockets + s.parking + s.resuming ∨
    (conn.detachedSince ≠ none ∧ conn.generation ∈ s.timers) ∨ 0 < s.cleaning

instance (s : Slot) (conn : ConnectionInfo) : Decidable (s.HasOwner conn) := by
  unfold Slot.HasOwner
  infer_instance

lemma Slot.Tracked.hasOwner {s : Slot} (h : s.Tracked conn) : s.HasOwner conn := by
  unfold HasOwner
  by_cases hdet : conn.detachedSince = none
  · have howners := h.attached hdet
    unfold owners at howners
    omega
  · exact .inr (.inl ⟨hdet, (h.detached hdet).2⟩)

def initial : Table := fun _ => .unused

/-- No step loses a connection that has claimed a detached session before it has reattached it. -/
def ClaimsKept (table : Table) (e : Event) : Prop :=
  (table e.session).Keeps e.action

lemma owned_step {table : Table} {e : Event} (h : ∀ sid, (table sid).Owned)
    (hkept : ClaimsKept table e) : ∀ sid, (step table e sid).Owned := by
  intro sid
  unfold step
  by_cases hsid : sid = e.session
  · subst hsid
    rw [Function.update_self]
    exact Slot.owned_act (h e.session) hkept
  · rw [Function.update_of_ne hsid]
    exact h sid

lemma owned_run {events : List Event} (hkept : Traces.Meets step ClaimsKept initial events)
    (sid : SessionId) : (events.foldl step initial sid).Owned :=
  Traces.meets_invariant (fun table => ∀ sid, (table sid).Owned)
    (fun _ _ h hk => owned_step h hk) hkept (fun _ => Slot.owned_unused) sid

/-- Along every run in which no claimed connection is lost, every entry of the table has an owner, a
stale timer leaves entry and tasks alone, all timers of an attached session are stale, and no session is
cleaned up twice. -/
theorem no_orphaned_sessions (events : List Event) (hkept : Traces.Meets step ClaimsKept initial events)
    (sid : SessionId) :
    let s := events.foldl step initial sid
    (∀ conn, s.entry = some conn → s.HasOwner conn ∧
      (conn.detachedSince = none → ∀ g ∈ s.timers, g < conn.generation) ∧
      ∀ g, conn.detachedSince = none ∨ conn.generation ≠ g →
        s.graceElapsed g = { s with timers := s.timers.erase g }) ∧
      s.cleanups ≤ 1 := by
  intro s
  have h : s.Owned := owned_run hkept sid
  constructor
  · intro conn hentry
    have ht := h.tracked conn hentry
    exact ⟨ht.hasOwner, ht.timers_lt, fun g hstale => Slot.graceElapsed_stale hentry hstale⟩
  · cases hentry : s.entry with
    | none => exact (h.gone hentry).2
    | some conn =>
      have ht := h.tracked conn hentry
      have hcleanups := ht.cleanups_eq
      by_cases hdet : conn.detachedSince = none
      · have howners := ht.attached hdet
        unfold Slot.owners at howners
        omega
      · have howners := (ht.detached hdet).1
        unfold Slot.owners at howners
        omega

namespace Sample

def jwt : ValidatedToken where
  userId := 1
  appId := 2

def claimed : List Event :=
  [⟨7, .openSession jwt [1]⟩, ⟨7, .socketEnds .dropped false⟩, ⟨7, .detach 0⟩,
    ⟨7, .claimResume [1] jwt⟩]

theorem no_orphaned_sessions_resumed :
    let s := (claimed ++ ([⟨7, .reattach true [2]⟩, ⟨7, .graceElapsed 1⟩] : List Event)).foldl step initial 7
    (∀ conn, s.entry = some conn → s.HasOwner conn ∧
      (conn.detachedSince = none → ∀ g ∈ s.timers, g < conn.generation) ∧
      ∀ g, conn.detachedSince = none ∨ conn.generation ≠ g →
        s.graceElapsed g = { s with timers := s.timers.erase g }) ∧
      s.cleanups ≤ 1 := by
  apply no_orphaned_sessions
  simp [claimed, Traces.Meets, ClaimsKept, Slot.Keeps]

theorem claimed_session_orphaned :
    let s := (claimed ++ ([⟨7, .abandon⟩, ⟨7, .graceElapsed 1⟩, ⟨7, .requestClose "banned"⟩,
      ⟨7, .takeDetached⟩] : List Event)).foldl step initial 7
    ∃ conn, s.entry = some conn ∧ ¬s.HasOwner conn ∧ s.timers = [] ∧ s.cleanups = 0 := by
  decide

end Sample

end AurixVoice.Connections
