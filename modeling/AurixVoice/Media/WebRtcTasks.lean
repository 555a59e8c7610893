import AurixVoice.Library.Traces
import AurixVoice.Types

/-!
The WebRTC manager of a node and its session tasks, which a later `attach_webrtc` does not stop. What runs
between two awaits is one step.
-/

namespace AurixVoice.Media.WebRtc

open Function List
open Option (map_some some)

variable {Addr : Type}

structure SessionHandle where
  task : ℕ
  iceUfrag : String
  deriving DecidableEq

structure SessionTask where
  sessionId : SessionId
  connected : Bool
  ended : Bool
  exited : Bool
  deriving DecidableEq

inductive WebRtcMediaEvent (Addr : Type)
  | connected (sessionId : SessionId) (remote : Addr)
  | disconnected (sessionId : SessionId)
  deriving DecidableEq

def WebRtcMediaEvent.sessionId : WebRtcMediaEvent Addr → SessionId
  | connected sid _ => sid
  | disconnected sid => sid

structure Node (Addr : Type) where
  sessions : SessionId → Option SessionHandle
  ufragMap : String → Option SessionId
  addrMap : Addr → Option SessionId
  tasks : ℕ → Option SessionTask
  spawned : ℕ
  events : List (ℕ × WebRtcMediaEvent Addr)
  endpoint : SessionId → Option Addr
  sessionsByAddr : Addr → Option SessionId
  latest : SessionId → Option ℕ
  learnt : List (ℕ × Addr)
  bound : List (ℕ × Addr)

namespace Node

variable [DecidableEq Addr] (s : Node Addr)

def removeSession (sid : SessionId) : Node Addr :=
  { s with
    sessions := update s.sessions sid none
    ufragMap := match s.sessions sid with
      | some handle => update s.ufragMap handle.iceUfrag none
      | none => s.ufragMap
    addrMap := fun a => if s.addrMap a = some sid then none else s.addrMap a }

def clearEndpoint (sid : SessionId) : Node Addr :=
  { s with
    endpoint := update s.endpoint sid none
    sessionsByAddr := match s.endpoint sid with
      | some addr => update s.sessionsByAddr addr none
      | none => s.sessionsByAddr }

def createSession (sid : SessionId) (ufrag : String) : Node Addr :=
  { s with
    sessions := update s.sessions sid (some ⟨s.spawned, ufrag⟩)
    ufragMap := update s.ufragMap ufrag (some sid)
    tasks := update s.tasks s.spawned (some ⟨sid, false, false, false⟩)
    spawned := s.spawned + 1
    latest := update s.latest sid (some s.spawned) }

/-- Without `ufrag` the offer is refused. ICE credentials in use are not drawn again. -/
def attachWebrtc (sid : SessionId) (ufrag : Option String) : Node Addr :=
  if ∃ u ∈ ufrag, s.ufragMap u ≠ none then s
  else
    let s := if (s.sessions sid).isSome then s.removeSession sid else s
    let s := s.clearEndpoint sid
    match ufrag with
    | some u => s.createSession sid u
    | none => { s with latest := update s.latest sid none }

/-- A packet from `src`; `ufrag` is the local part of its USERNAME where it is a STUN request. -/
def handlePacket (src : Addr) (ufrag : Option String) : Node Addr :=
  if ((s.addrMap src).bind s.sessions).isSome then s
  else match ufrag.bind s.ufragMap with
    | none => s
    | some sid =>
      match s.sessions sid with
      | none => s
      | some handle =>
        { s with
          addrMap := update s.addrMap src (some sid)
          learnt := (handle.task, src) :: s.learnt }

/-- The task sees ICE and DTLS connected; `remote` is an address of its session, if there is one. -/
def taskConnects (k : ℕ) (remote : Option Addr) : Node Addr :=
  match s.tasks k with
  | none => s
  | some t =>
    if t.connected ∨ t.ended ∨ ∃ a ∈ remote, s.addrMap a ≠ some t.sessionId then s
    else
      { s with
        tasks := update s.tasks k (some { t with connected := true })
        events := s.events ++ (remote.map fun a => (k, .connected t.sessionId a)).toList }

def taskEnds (k : ℕ) : Node Addr :=
  match s.tasks k with
  | none => s
  | some t =>
    if t.ended then s
    else
      { s with
        tasks := update s.tasks k (some { t with ended := true })
        events := s.events ++ [(k, .disconnected t.sessionId)] }

/-- The end of `session_task`, which removes what the manager holds under its session. -/
def taskExits (k : ℕ) : Node Addr :=
  match s.tasks k with
  | none => s
  | some t =>
    if ¬t.ended ∨ t.exited then s
    else
      { s.removeSession t.sessionId with
        tasks := update s.tasks k (some { t with exited := true }) }

def bindEndpoint (k : ℕ) (sid : SessionId) (remote : Addr) : Node Addr :=
  let byAddr := match s.endpoint sid with
    | some old => if old ≠ remote then update s.sessionsByAddr old none else s.sessionsByAddr
    | none => s.sessionsByAddr
  { s with
    endpoint := update s.endpoint sid (some remote)
    sessionsByAddr := update byAddr remote (some sid)
    bound := (k, remote) :: s.bound }

def handleEvent : Node Addr :=
  match s.events with
  | [] => s
  | (k, .connected sid remote) :: rest => { s with events := rest }.bindEndpoint k sid remote
  | (_, .disconnected sid) :: rest => { s with events := rest }.clearEndpoint sid

end Node

inductive Event (Addr : Type)
  | attachWebrtc (sid : SessionId) (ufrag : Option String)
  | packet (src : Addr) (ufrag : Option String)
  | connects (task : ℕ) (remote : Option Addr)
  | ends (task : ℕ)
  | exits (task : ℕ)
  | handleEvent

def step [DecidableEq Addr] (s : Node Addr) : Event Addr → Node Addr
  | .attachWebrtc sid ufrag => s.attachWebrtc sid ufrag
  | .packet src ufrag => s.handlePacket src ufrag
  | .connects k remote => s.taskConnects k remote
  | .ends k => s.taskEnds k
  | .exits k => s.taskExits k
  | .handleEvent => s.handleEvent

namespace Node

structure Listed (s : Node Addr) (sid : SessionId) : Prop where
  ufrags : ∀ u, s.ufragMap u = some sid ↔ (s.sessions sid).map (·.iceUfrag) = some u
  addrs : ∀ a, s.addrMap a = some sid ↔ ∃ h, s.sessions sid = some h ∧ (h.task, a) ∈ s.learnt
  task : ∀ h, s.sessions sid = some h → ∃ t, s.tasks h.task = some t ∧ t.sessionId = sid

structure Named (s : Node Addr) : Prop where
  tasks : ∀ k t, s.tasks k = some t → k < s.spawned
  learnt : ∀ p ∈ s.learnt, p.1 < s.spawned
  bound : ∀ p ∈ s.bound, p.1 < s.spawned
  events : ∀ p ∈ s.events, ∃ t, s.tasks p.1 = some t ∧ t.sessionId = p.2.sessionId ∧
    (p.2 = .disconnected p.2.sessionId → t.ended = true)
  latest : ∀ sid k, s.latest sid = some k → ∃ t, s.tasks k = some t ∧ t.sessionId = sid

def Running (s : Node Addr) (k : ℕ) : Prop := ∃ t, s.tasks k = some t ∧ t.ended = false

def boundBy (s : Node Addr) (k : ℕ) : Option Addr := (s.bound.find? fun p => p.1 = k).map Prod.snd

def Serves (s : Node Addr) (sid : SessionId) : Prop :=
  ∀ k, s.latest sid = some k → s.Running k →
    (s.sessions sid).map (·.task) = some k ∧ s.endpoint sid = s.boundBy k

structure Consistent (s : Node Addr) : Prop where
  named : s.Named
  listed : ∀ sid, s.Listed sid
  serves : ∀ sid, s.Serves sid

variable {s : Node Addr} {k : ℕ} {s' : Node Addr} {ufrag : String}

lemma Named.latest_lt (h : s.Named) {sid : SessionId} (hk : s.latest sid = some k) : k < s.spawned := by
  obtain ⟨t, ht, _⟩ := h.latest sid k hk
  exact h.tasks k t ht

lemma boundBy_eq_none (h : s.Named) (hk : s.spawned ≤ k) : s.boundBy k = none := by
  unfold boundBy
  rw [Option.map_eq_none_iff, find?_eq_none]
  intro p hp heq
  have := h.bound p hp
  simp only [decide_eq_true_eq] at heq
  omega

lemma listed_removeSession (h : ∀ sid, s.Listed sid) (gone sid : SessionId) : (s.removeSession gone).Listed sid := by
  have hl := h sid
  by_cases hsid : sid = gone
  · subst hsid
    refine ⟨fun u => ?_, fun a => ?_, fun handle hh => ?_⟩
    · have hu := hl.ufrags u
      cases hh : s.sessions sid with
      | none => simpa [removeSession, hh] using hu
      | some handle =>
        rw [hh, map_some, some.injEq] at hu
        by_cases heq : u = handle.iceUfrag
        · simp [removeSession, hh, heq]
        · have hne : s.ufragMap u ≠ some sid := fun hc => heq (hu.mp hc).symm
          simp [removeSession, hh, update_of_ne heq, hne]
    · by_cases ha : s.addrMap a = some sid <;> simp [removeSession, ha]
    · simp [removeSession] at hh
  · have hsessions : (s.removeSession gone).sessions sid = s.sessions sid := by
      simp [removeSession, hsid]
    refine ⟨fun u => ?_, fun a => ?_, fun handle hh => hl.task handle (hsessions ▸ hh)⟩
    · rw [hsessions, ← hl.ufrags u]
      cases hh : s.sessions gone with
      | none => simp [removeSession, hh]
      | some handle =>
        have hgone : s.ufragMap handle.iceUfrag = some gone :=
          ((h gone).ufrags handle.iceUfrag).mpr (by rw [hh]; rfl)
        by_cases heq : u = handle.iceUfrag
        · subst heq
          have hne : gone ≠ sid := symm hsid
          simp [removeSession, hh, hgone, hne]
        · simp [removeSession, hh, update_of_ne heq]
    · rw [hsessions]
      refine trans ?_ (hl.addrs a)
      by_cases ha : s.addrMap a = some gone
      · have hne : gone ≠ sid := symm hsid
        simp [removeSession, ha, hne]
      · simp [removeSession, ha]

lemma listed_of_tasks (h : ∀ sid, s.Listed sid) (hsessions : s'.sessions = s.sessions)
    (hufrags : s'.ufragMap = s.ufragMap) (haddrs : s'.addrMap = s.addrMap) (hlearnt : s'.learnt = s.learnt)
    (htasks : ∀ k t, s.tasks k = some t → ∃ t', s'.tasks k = some t' ∧ t'.sessionId = t.sessionId) (sid : SessionId) :
    s'.Listed sid := by
  refine ⟨fun u => ?_, fun a => ?_, fun handle hh => ?_⟩
  · rw [hufrags, hsessions]
    exact (h sid).ufrags u
  · rw [haddrs, hsessions, hlearnt]
    exact (h sid).addrs a
  · rw [hsessions] at hh
    obtain ⟨t, ht, hsid⟩ := (h sid).task handle hh
    obtain ⟨t', ht', heq⟩ := htasks _ t ht
    exact ⟨t', ht', heq.trans hsid⟩

lemma listed_createSession {gone : SessionId} (hn : s.Named) (h : ∀ sid, s.Listed sid) (hgone : s.sessions gone = none)
    (hfresh : s.ufragMap ufrag = none) (sid : SessionId) : (s.createSession gone ufrag).Listed sid := by
  have hl := h sid
  by_cases hsid : sid = gone
  · subst hsid
    have hnoUfrag : ∀ u, s.ufragMap u ≠ some sid := by
      intro u hu
      have := (hl.ufrags u).mp hu
      rw [hgone] at this
      cases this
    have hnoAddr : ∀ a, s.addrMap a ≠ some sid := by
      intro a ha
      obtain ⟨handle, hh, _⟩ := (hl.addrs a).mp ha
      rw [hgone] at hh
      cases hh
    have hnotLearnt : ∀ a, (s.spawned, a) ∉ s.learnt :=
      fun a hmem => absurd (hn.learnt _ hmem) (lt_irrefl _)
    refine ⟨fun u => ?_, fun a => ?_, fun handle hh => ?_⟩
    · by_cases hu : u = ufrag
      · simp [createSession, hu]
      · simp [createSession, update_of_ne hu, hnoUfrag u, Ne.symm hu]
    · simp [createSession, hnoAddr a, hnotLearnt a]
    · simp only [createSession, update_self, some.injEq] at hh
      subst hh
      exact ⟨_, update_self .., rfl⟩
  · have hsessions : (s.createSession gone ufrag).sessions sid = s.sessions sid := by
      simp [createSession, hsid]
    refine ⟨fun u => ?_, fun a => ?_, fun handle hh => ?_⟩
    · rw [hsessions, ← hl.ufrags u]
      by_cases hu : u = ufrag
      · have hne : gone ≠ sid := symm hsid
        simp [createSession, hu, hfresh, hne]
      · simp [createSession, update_of_ne hu]
    · rw [hsessions]
      exact hl.addrs a
    · rw [hsessions] at hh
      obtain ⟨t, ht, heq⟩ := hl.task handle hh
      have hne : handle.task ≠ s.spawned := by
        have := hn.tasks _ t ht
        omega
      exact ⟨t, by simp [createSession, update_of_ne hne, ht], heq⟩

lemma Serves.congr {sid : SessionId} (h : s.Serves sid) (hlatest : s'.latest sid = s.latest sid)
    (hsessions : s'.sessions sid = s.sessions sid) (hendpoint : s'.endpoint sid = s.endpoint sid)
    (hrunning : ∀ k, s.latest sid = some k → s'.Running k → s.Running k)
    (hbound : ∀ k, s.latest sid = some k → s'.boundBy k = s.boundBy k) : s'.Serves sid := by
  intro k hk hrun
  rw [hlatest] at hk
  rw [hsessions, hendpoint, hbound k hk]
  exact h k hk (hrunning k hk hrun)

lemma named_createSession {sid : SessionId} (h : s.Named) : (s.createSession sid ufrag).Named := by
  have hkeep : ∀ k t, s.tasks k = some t → (s.createSession sid ufrag).tasks k = some t := by
    intro k t ht
    have hne : k ≠ s.spawned := by
      have := h.tasks k t ht
      omega
    simp [createSession, update_of_ne hne, ht]
  refine ⟨fun k t ht => ?_, fun p hp => ?_, fun p hp => ?_, fun p hp => ?_, fun other k hk => ?_⟩
  · by_cases hkn : k = s.spawned
    · simp [createSession, hkn]
    · simp only [createSession, update_of_ne hkn] at ht
      have := h.tasks k t ht
      simp only [createSession]
      omega
  · exact Nat.lt_succ_of_lt (h.learnt p hp)
  · exact Nat.lt_succ_of_lt (h.bound p hp)
  · obtain ⟨t, ht, hrest⟩ := h.events p hp
    exact ⟨t, hkeep _ t ht, hrest⟩
  · by_cases hsid : other = sid
    · subst hsid
      simp only [createSession, update_self, some.injEq] at hk
      subst hk
      exact ⟨_, update_self .., rfl⟩
    · simp only [createSession, update_of_ne hsid] at hk
      obtain ⟨t, ht, heq⟩ := h.latest other k hk
      exact ⟨t, hkeep k t ht, heq⟩

lemma consistent_of_task {t t' : SessionTask} {events : List (ℕ × WebRtcMediaEvent Addr)} (h : s.Consistent)
    (ht : s.tasks k = some t) (hsid : t'.sessionId = t.sessionId) (hended : t.ended = true → t'.ended = true)
    (hevents : ∀ p ∈ events, p ∈ s.events ∨
      p.1 = k ∧ p.2.sessionId = t.sessionId ∧ (p.2 = .disconnected p.2.sessionId → t'.ended = true)) :
    Consistent { s with tasks := update s.tasks k (some t'), events } := by
  have hkeep : ∀ j u, s.tasks j = some u → ∃ u', update s.tasks k (some t') j = some u' ∧
      u'.sessionId = u.sessionId ∧ (u.ended = true → u'.ended = true) := by
    intro j u hu
    by_cases hj : j = k
    · subst hj
      rw [ht] at hu
      cases hu
      exact ⟨t', update_self .., hsid, hended⟩
    · exact ⟨u, by rw [update_of_ne hj, hu], rfl, id⟩
  refine ⟨⟨fun j u hu => ?_, h.named.learnt, h.named.bound, fun p hp => ?_, fun sid j hj => ?_⟩, ?_, fun sid => ?_⟩
  · by_cases hj : j = k
    · exact hj ▸ h.named.tasks k t ht
    · exact h.named.tasks j u ((update_of_ne hj ..).symm.trans hu)
  · rcases hevents p hp with hp | ⟨rfl, hpsid, hdis⟩
    · obtain ⟨u, hu, hus, hud⟩ := h.named.events p hp
      obtain ⟨u', hu', hus', hud'⟩ := hkeep _ u hu
      exact ⟨u', hu', hus'.trans hus, fun hd => hud' (hud hd)⟩
    · exact ⟨t', update_self .., hsid.trans hpsid.symm, hdis⟩
  · obtain ⟨u, hu, hus⟩ := h.named.latest sid j hj
    obtain ⟨u', hu', hus', _⟩ := hkeep j u hu
    exact ⟨u', hu', hus'.trans hus⟩
  · refine listed_of_tasks h.listed rfl rfl rfl rfl fun j u hu => ?_
    obtain ⟨u', hu', hus', _⟩ := hkeep j u hu
    exact ⟨u', hu', hus'⟩
  · refine (h.serves sid).congr rfl rfl rfl (fun j hj hrun => ?_) fun _ _ => rfl
    obtain ⟨u, hu, _⟩ := h.named.latest sid j hj
    obtain ⟨u', hu', hlive⟩ := hrun
    obtain ⟨v, hv, _, hvd⟩ := hkeep j u hu
    obtain rfl := some.inj (hu'.symm.trans hv)
    refine ⟨u, hu, ?_⟩
    by_contra hd
    have := hvd (by simpa using hd)
    rw [hlive] at this
    cases this

lemma consistent_taskConnects (h : s.Consistent) (k : ℕ) (remote : Option Addr) :
    (s.taskConnects k remote).Consistent := by
  unfold taskConnects
  split
  · exact h
  next t ht =>
  split
  · exact h
  refine consistent_of_task h ht rfl id fun p hp => ?_
  rcases mem_append.mp hp with hp | hp
  · exact .inl hp
  · cases remote with
    | none => cases hp
    | some =>
      cases mem_singleton.mp hp
      exact .inr ⟨rfl, rfl, fun hd => nomatch hd⟩

lemma consistent_taskEnds (h : s.Consistent) (k : ℕ) : (s.taskEnds k).Consistent := by
  unfold taskEnds
  split
  · exact h
  next t ht =>
  split
  · exact h
  refine consistent_of_task h ht rfl (fun _ => rfl) fun p hp => ?_
  rcases mem_append.mp hp with hp | hp
  · exact .inl hp
  · cases mem_singleton.mp hp
    exact .inr ⟨rfl, rfl, fun _ => rfl⟩

/-- A later task of the session is running. -/
def Replaced (s : Node Addr) (sid : SessionId) (k : ℕ) : Prop :=
  ∃ j, s.latest sid = some j ∧ j ≠ k ∧ s.Running j

lemma not_running_of_ended {sid : SessionId} {j : ℕ} {t : SessionTask} (ht : s.tasks k = some t)
    (hended : t.ended = true) (hlast : ¬ s.Replaced sid k) (hj : s.latest sid = some j) : ¬ s.Running j := by
  rintro ⟨u, hu, hlive⟩
  have hne : j ≠ k := by
    rintro rfl
    rw [ht] at hu
    cases hu
    rw [hended] at hlive
    cases hlive
  exact hlast ⟨j, hj, hne, u, hu, hlive⟩

lemma consistent_taskExits (h : s.Consistent) (hlast : ∀ t, s.tasks k = some t → ¬s.Replaced t.sessionId k) :
    (s.taskExits k).Consistent := by
  unfold taskExits
  split
  · exact h
  next t ht =>
  split
  · exact h
  next hexit =>
  rw [not_or, not_not] at hexit
  have hremoved : (s.removeSession t.sessionId).Consistent := by
    refine ⟨⟨h.named.tasks, h.named.learnt, h.named.bound, h.named.events, h.named.latest⟩,
      listed_removeSession h.listed _, fun sid => ?_⟩
    by_cases hsid : sid = t.sessionId
    · -- the session's latest task is this one, which has ended, or it has ended too
      intro j hj hrun
      exact absurd hrun (not_running_of_ended ht hexit.1 (hlast t ht) (hsid ▸ hj))
    · exact (h.serves sid).congr rfl (by simp [removeSession, hsid]) rfl (fun j _ hj => hj) fun j _ => rfl
  exact consistent_of_task hremoved ht rfl id fun p hp => .inl hp

variable [DecidableEq Addr]

lemma listed_clearEndpoint (h : ∀ sid, s.Listed sid) (gone sid : SessionId) : (s.clearEndpoint gone).Listed sid :=
  ⟨(h sid).ufrags, (h sid).addrs, (h sid).task⟩

lemma consistent_attachWebrtc (h : s.Consistent) (sid : SessionId) (ufrag : Option String) :
    (s.attachWebrtc sid ufrag).Consistent := by
  unfold attachWebrtc
  split
  · exact h
  next hfresh =>
  -- first the session's entries go
  obtain ⟨r, hr⟩ : ∃ r, (if (s.sessions sid).isSome then s.removeSession sid else s) = r := ⟨_, rfl⟩
  have hnamed : r.Named := by
    rw [← hr]
    split
    · exact ⟨h.named.tasks, h.named.learnt, h.named.bound, h.named.events, h.named.latest⟩
    · exact h.named
  have hlisted : ∀ other, r.Listed other := by
    rw [← hr]
    split
    · exact listed_removeSession h.listed sid
    · exact h.listed
  have hgone : r.sessions sid = none := by
    rw [← hr]
    split
    · simp [removeSession]
    · next hnone => simpa using hnone
  have hufrag : ∀ u, s.ufragMap u = none → r.ufragMap u = none := by
    intro u hu
    rw [← hr]
    split
    · cases hh : s.sessions sid with
      | none => simpa [removeSession, hh] using hu
      | some handle =>
        by_cases heq : u = handle.iceUfrag
        · simp [removeSession, hh, heq]
        · simp [removeSession, hh, update_of_ne heq, hu]
    · exact hu
  have hothers : ∀ other, other ≠ sid → r.Serves other := by
    intro other hne
    rw [← hr]
    split
    · refine (h.serves other).congr rfl (by simp [removeSession, hne]) rfl (fun k _ hk => hk) fun k _ => rfl
    · exact h.serves other
  simp only [hr]
  -- then the endpoint
  have hclear : ∀ other, other ≠ sid → (r.clearEndpoint sid).Serves other := fun other hne =>
    (hothers other hne).congr rfl rfl (by simp [clearEndpoint, hne]) (fun k _ hk => hk) fun k _ => rfl
  have hnamed' : (r.clearEndpoint sid).Named :=
    ⟨hnamed.tasks, hnamed.learnt, hnamed.bound, hnamed.events, hnamed.latest⟩
  have hlisted' := listed_clearEndpoint hlisted sid
  cases ufrag with
  | none =>
    refine ⟨⟨hnamed.tasks, hnamed.learnt, hnamed.bound, hnamed.events, fun other k hk => ?_⟩,
      fun other => ⟨(hlisted' other).ufrags, (hlisted' other).addrs, (hlisted' other).task⟩,
      fun other => ?_⟩
    · by_cases hne : other = sid
      · simp [hne] at hk
      · simp only [update_of_ne hne] at hk
        exact hnamed.latest other k hk
    · by_cases hne : other = sid
      · intro k hk
        simp [hne] at hk
      · exact (hclear other hne).congr (by simp [hne]) rfl rfl (fun k _ hk => hk) fun k _ => rfl
  | some u =>
    have hu : s.ufragMap u = none := by
      by_contra hused
      exact hfresh ⟨u, rfl, hused⟩
    refine ⟨named_createSession hnamed', listed_createSession hnamed' hlisted' hgone (hufrag u hu), fun other => ?_⟩
    by_cases hne : other = sid
    · subst hne
      intro k hk _
      simp only [createSession, update_self, some.injEq] at hk
      subst hk
      refine ⟨by simp [createSession], ?_⟩
      have hnone : (r.clearEndpoint other).boundBy (r.clearEndpoint other).spawned = none :=
        boundBy_eq_none hnamed' le_rfl
      exact (update_self ..).trans hnone.symm
    · refine (hclear other hne).congr (by simp [createSession, hne]) (by simp [createSession, hne]) rfl
        (fun k hk hrun => ?_) fun k _ => rfl
      obtain ⟨t, ht, hended⟩ := hrun
      have hk' : k ≠ r.spawned := by
        have := hnamed'.latest_lt hk
        exact ne_of_lt this
      refine ⟨t, ?_, hended⟩
      simpa [createSession, clearEndpoint, update_of_ne hk'] using ht

lemma consistent_handlePacket (h : s.Consistent) (src : Addr) (ufrag : Option String) :
    (s.handlePacket src ufrag).Consistent := by
  unfold handlePacket
  split
  · exact h
  next hunknown =>
  split
  · exact h
  next sid hsid =>
  split
  · exact h
  next handle hhandle =>
  -- an address under a session that has its handle is never learnt again
  have hsrc : ∀ other, s.addrMap src ≠ some other := by
    intro other ha
    obtain ⟨handle', hh', _⟩ := ((h.listed other).addrs src).mp ha
    simp [ha, hh'] at hunknown
  have hspawned : handle.task < s.spawned := by
    obtain ⟨t, ht, _⟩ := (h.listed sid).task handle hhandle
    exact h.named.tasks _ t ht
  refine ⟨⟨h.named.tasks, fun p hp => ?_, h.named.bound, h.named.events, h.named.latest⟩,
    fun other => ⟨(h.listed other).ufrags, fun a => ?_, (h.listed other).task⟩,
    fun other => (h.serves other).congr rfl rfl rfl (fun k _ hk => hk) fun k _ => rfl⟩
  · rcases mem_cons.mp hp with rfl | hp
    · exact hspawned
    · exact h.named.learnt p hp
  · have hl := (h.listed other).addrs a
    by_cases ha : a = src
    · subst ha
      simp only [update_self, some.injEq]
      constructor
      · rintro rfl
        exact ⟨handle, hhandle, mem_cons_self⟩
      · rintro ⟨handle', hh', hmem⟩
        rcases mem_cons.mp hmem with heq | hmem
        · -- the two handles are of one task, so of one session
          have htask : handle'.task = handle.task := congrArg Prod.fst heq
          obtain ⟨t, ht, rfl⟩ := (h.listed sid).task handle hhandle
          obtain ⟨t', ht', rfl⟩ := (h.listed other).task handle' hh'
          rw [htask, ht] at ht'
          cases ht'
          rfl
        · exact absurd (hl.mpr ⟨handle', hh', hmem⟩) (hsrc other)
    · simp [hl, ha]

lemma consistent_handleEvent (h : s.Consistent)
    (hlast : ∀ p ∈ s.events.head?, ¬s.Replaced p.2.sessionId p.1) : s.handleEvent.Consistent := by
  unfold handleEvent
  split
  · exact h
  · next k sid remote rest heq =>
    have hlast' : ¬s.Replaced sid k := hlast (k, .connected sid remote) (by rw [heq]; rfl)
    have hsub : ∀ p ∈ rest, p ∈ s.events := fun p hp => heq ▸ mem_cons_of_mem _ hp
    obtain ⟨t, ht, htsid, _⟩ := h.named.events (k, .connected sid remote) (by rw [heq]; exact mem_cons_self)
    refine ⟨⟨h.named.tasks, h.named.learnt, fun p hp => ?_, fun p hp => h.named.events p (hsub p hp),
      h.named.latest⟩, fun other => ⟨(h.listed other).ufrags, (h.listed other).addrs, (h.listed other).task⟩,
      fun other => ?_⟩
    · rcases mem_cons.mp hp with rfl | hp
      · exact h.named.tasks _ t ht
      · exact h.named.bound p hp
    · by_cases hsid : other = sid
      · subst hsid
        intro j hj hrun
        have hjk : j = k := by
          by_contra hne
          exact hlast' ⟨j, hj, hne, hrun⟩
        subst hjk
        refine ⟨(h.serves other j hj hrun).1, ?_⟩
        simp [bindEndpoint, boundBy]
      · refine (h.serves other).congr rfl rfl (by simp [bindEndpoint, hsid]) (fun j _ hj => hj) fun j hj => ?_
        have hne : k ≠ j := by
          rintro rfl
          obtain ⟨u, hu, hus⟩ := h.named.latest other k hj
          rw [ht] at hu
          cases hu
          exact hsid (hus.symm.trans htsid)
        simp [bindEndpoint, boundBy, hne]
  · next k sid rest heq =>
    have hlast' : ¬s.Replaced sid k := hlast (k, .disconnected sid) (by rw [heq]; rfl)
    have hsub : ∀ p ∈ rest, p ∈ s.events := fun p hp => heq ▸ mem_cons_of_mem _ hp
    obtain ⟨t, ht, _, hended⟩ := h.named.events (k, .disconnected sid) (by rw [heq]; exact mem_cons_self)
    refine ⟨⟨h.named.tasks, h.named.learnt, h.named.bound, fun p hp => h.named.events p (hsub p hp),
      h.named.latest⟩, fun other => ⟨(h.listed other).ufrags, (h.listed other).addrs, (h.listed other).task⟩,
      fun other => ?_⟩
    by_cases hsid : other = sid
    · subst hsid
      exact fun j hj hrun => absurd hrun (not_running_of_ended ht (hended rfl) hlast' hj)
    · exact (h.serves other).congr rfl rfl (by simp [clearEndpoint, hsid]) (fun j _ hj => hj) fun j _ => rfl

end Node

def initial : Node Addr where
  sessions _ := none
  ufragMap _ := none
  addrMap _ := none
  tasks _ := none
  spawned := 0
  events := []
  endpoint _ := none
  sessionsByAddr _ := none
  latest _ := none
  learnt := []
  bound := []

lemma consistent_initial : (initial : Node Addr).Consistent where
  named := ⟨fun _ _ h => (nomatch h), fun _ h => (nomatch h), fun _ h => (nomatch h),
    fun _ h => (nomatch h), fun _ _ h => (nomatch h)⟩
  listed sid := ⟨fun u => by simp [initial], fun a => by simp [initial], fun _ h => (nomatch h)⟩
  serves _ _ h := nomatch h

variable [DecidableEq Addr]

/-- No task exits, and no event of a task is handled, while a later task of its session runs. -/
def NotReplaced (s : Node Addr) : Event Addr → Prop
  | .exits k => ∀ t, s.tasks k = some t → ¬s.Replaced t.sessionId k
  | .handleEvent => ∀ p ∈ s.events.head?, ¬s.Replaced p.2.sessionId p.1
  | _ => True

lemma consistent_step {s : Node Addr} {e : Event Addr} (h : s.Consistent) (hlast : NotReplaced s e) :
    (step s e).Consistent := by
  cases e with
  | attachWebrtc sid ufrag => exact Node.consistent_attachWebrtc h sid ufrag
  | packet src ufrag => exact Node.consistent_handlePacket h src ufrag
  | connects k remote => exact Node.consistent_taskConnects h k remote
  | ends k => exact Node.consistent_taskEnds h k
  | exits => exact Node.consistent_taskExits h hlast
  | handleEvent => exact Node.consistent_handleEvent h hlast

/-- While the task of the latest attach runs, the session, ufrag and address maps hold what is its own,
and the endpoint is the one its `Connected` event bound. -/
theorem latest_task_serves (events : List (Event Addr)) (hlast : Traces.Meets step NotReplaced initial events)
    (sid : SessionId) (k : ℕ) :
    let s := events.foldl step initial
    s.latest sid = some k → s.Running k →
      ∃ h, s.sessions sid = some h ∧ h.task = k ∧
        (∀ u, s.ufragMap u = some sid ↔ u = h.iceUfrag) ∧
        (∀ a, s.addrMap a = some sid ↔ (k, a) ∈ s.learnt) ∧ s.endpoint sid = s.boundBy k := by
  intro s hk hrun
  have hs : s.Consistent :=
    Traces.meets_invariant Node.Consistent (fun _ _ => consistent_step) hlast consistent_initial
  obtain ⟨htask, hendpoint⟩ := hs.serves sid k hk hrun
  obtain ⟨h, hh, rfl⟩ := Option.map_eq_some_iff.mp htask
  refine ⟨h, hh, rfl, fun u => ?_, fun a => ?_, hendpoint⟩
  · rw [(hs.listed sid).ufrags u, hh, map_some, some.injEq, eq_comm]
  · rw [(hs.listed sid).addrs a, hh]
    simp

namespace Sample

def attachedTwice : List (Event ℕ) :=
  [.attachWebrtc 7 (some "a"), .attachWebrtc 7 (some "b"), .packet 5 (some "b"), .connects 1 (some 5),
    .handleEvent]

theorem latest_task_serves_second :
    let s := attachedTwice.foldl step initial
    ∃ h, s.sessions 7 = some h ∧ h.task = 1 ∧ (∀ u, s.ufragMap u = some 7 ↔ u = h.iceUfrag) ∧
      (∀ a, s.addrMap a = some 7 ↔ (1, a) ∈ s.learnt) ∧ s.endpoint 7 = s.boundBy 1 := by
  refine latest_task_serves attachedTwice ?_ 7 1 (by decide) ⟨⟨7, true, false, false⟩, by decide, rfl⟩
  simp only [attachedTwice, Traces.Meets, NotReplaced, true_and, and_true]
  rintro p hp ⟨j, hj, hne, _⟩
  have hp' : some (1, WebRtcMediaEvent.connected 7 5) = some p := hp
  obtain rfl := some.inj hp'
  have hj' : some 1 = some j := hj
  exact hne (some.inj hj').symm

theorem replaced_task_clears_successor :
    let s := (attachedTwice ++ ([.ends 0, .handleEvent, .exits 0] : List (Event ℕ))).foldl step initial
    s.latest 7 = some 1 ∧ s.Running 1 ∧ s.sessions 7 = none ∧ s.ufragMap "b" = none ∧ s.addrMap 5 = none ∧
      s.endpoint 7 = none := by
  refine ⟨by decide, ⟨⟨7, true, false, false⟩, by decide, rfl⟩, ?_⟩
  decide

end Sample

end AurixVoice.Media.WebRtc
