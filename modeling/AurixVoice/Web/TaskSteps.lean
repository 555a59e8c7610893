import AurixVoice.Library.Traces
import AurixVoice.Web.Members
import AurixVoice.Web.TaskHistory

namespace AurixVoice.Web.TaskHistory

open E2ee Traces E2eeGroup List

def heard (h : TaskHistory) : List Inbound :=
  h.processed.map Processed.message ++ match h.running with | some (.inbound m _) => [m] | _ => []

def Heard (h : TaskHistory) (u : UserId) (c : ChannelId) : Prop :=
  ∃ m ∈ h.heard, m.user = u ∧ m.channel = c ∧ h.departed u c < m.receivedAt

structure Sound (h : TaskHistory) : Prop where
  departed_lt : ∀ u c, h.departed u c < h.now
  received_lt : ∀ m ∈ h.received, m.receivedAt < h.now
  queued : ∀ m, Task.inbound m ∈ h.queue → m ∈ h.received
  running : ∀ m pc, h.running = some (.inbound m pc) →
    m ∈ h.received ∧ (m.channel ∈ h.group.channelSet ∨ m.receivedAt ≤ h.departed m.user m.channel)
  processed : ∀ p ∈ h.processed, p.message ∈ h.received ∧ p.time < h.now
  members : Members (fun u c => c ∈ h.group.channelSet ∧ h.Heard u c) h.group.peers
  given : ∀ g ∈ h.given, g.time < h.now ∧ ∃ p ∈ h.processed, p.message.user = g.user ∧
    g.departed p.message.channel < p.message.receivedAt ∧ p.time < g.time

lemma init_sound (identity : IdentityKey) (secret : Secret) : (init identity secret).Sound where
  departed_lt _ _ := one_pos
  received_lt := nofun
  queued := nofun
  running := nofun
  processed := nofun
  members := nofun
  given := nofun

variable {h : TaskHistory} {u : UserId} {e : GroupEvent} {g : E2eeGroup} {queue : List Task} {pc : RotateAwait}

lemma Heard.mono {h' : TaskHistory} {c : ChannelId} (hheard : h.heard ⊆ h'.heard)
    (hdeparted : h'.departed u c = h.departed u c) (hu : h.Heard u c) : h'.Heard u c := by
  obtain ⟨m, hm, hmu, hmc, hlt⟩ := hu
  exact ⟨m, hheard hm, hmu, hmc, hdeparted ▸ hlt⟩

variable (crypto : Crypto)

lemma departed_of_departs {c : ChannelId} (hD : h.Departs u c e) :
    (h.step crypto e).departed u c = h.now := if_pos hD

lemma departed_of_not {c : ChannelId} (hD : ¬ h.Departs u c e) :
    (h.step crypto e).departed u c = h.departed u c := if_neg hD

section

variable (hh : h.Sound) (coins : Coins) (c : ChannelId)
include hh

lemma departed_step_lt (e : GroupEvent) (u : UserId) (c : ChannelId) : (h.step crypto e).departed u c < h.now + 1 := by
  have := hh.departed_lt u c
  by_cases hD : h.Departs u c e
  · rw [departed_of_departs crypto hD]
    omega
  · rw [departed_of_not crypto hD]
    omega

lemma Sound.depart {sent : List Outgoing} (hact : h.act crypto e = { h with group := g, sent := sent })
    (hchannels : ∀ u c, c ∈ h.group.channelSet → ¬ h.Departs u c e → c ∈ g.channelSet)
    (hmembers : Members (fun u c => (c ∈ h.group.channelSet ∧ h.Heard u c) ∧ ¬ h.Departs u c e) g.peers) :
    (h.step crypto e).Sound := by
  have hrunning : (h.step crypto e).running = h.running := by simp only [step, hact]
  have hreceived : (h.step crypto e).received = h.received := by simp only [step, hact]
  have hprocessed : (h.step crypto e).processed = h.processed := by simp only [step, hact]
  have hgroup : (h.step crypto e).group = g := by simp only [step, hact]
  have hqueue : (h.step crypto e).queue = h.queue := by simp only [step, hact]
  have hgiven : (h.step crypto e).given = h.given := by simp only [step, hact]
  refine ⟨departed_step_lt crypto hh e, ?_, by rw [hqueue, hreceived]; exact hh.queued, ?_, ?_, ?_, ?_⟩
  · intro m hm
    rw [hreceived] at hm
    exact Nat.lt_succ_of_lt (hh.received_lt m hm)
  · intro m pc hpc
    rw [hrunning] at hpc
    obtain ⟨hm, hor⟩ := hh.running m pc hpc
    rw [hreceived, hgroup]
    refine ⟨hm, ?_⟩
    by_cases hD : h.Departs m.user m.channel e
    · right
      rw [departed_of_departs crypto hD]
      exact (hh.received_lt m hm).le
    · rw [departed_of_not crypto hD]
      exact hor.imp_left fun hc => hchannels _ _ hc hD
  · intro p hp
    rw [hprocessed] at hp
    obtain ⟨hm, hlt⟩ := hh.processed p hp
    exact ⟨hreceived ▸ hm, Nat.lt_succ_of_lt hlt⟩
  · rw [hgroup]
    refine hmembers.mono ?_
    rintro u c ⟨⟨hc, hheard⟩, hD⟩
    refine ⟨hchannels u c hc hD, hheard.mono ?_ (departed_of_not crypto hD)⟩
    unfold heard
    rw [hprocessed, hrunning]
    exact List.Subset.refl _
  · intro g hg
    rw [hgiven] at hg
    obtain ⟨hlt, hex⟩ := hh.given g hg
    rw [hprocessed]
    exact ⟨Nat.lt_succ_of_lt hlt, hex⟩

lemma joined_sound : (h.step crypto (.joined c)).Sound := by
  have hpeers : (h.group.joined c).2.peers = h.group.peers := by
    unfold joined
    split <;> rfl
  refine hh.depart crypto rfl ?_ ?_
  · intro u d hd _
    unfold joined
    split
    · exact hd
    · exact Finset.mem_insert_of_mem hd
  · rw [hpeers]
    exact hh.members.mono fun u d hP => ⟨hP, id⟩

lemma rejoined_sound (members : Finset UserId) : (h.step crypto (.rejoined coins c members)).Sound := by
  refine hh.depart crypto rfl (fun u d hd _ => channelSet_rejoined coins c members hd) ?_
  refine (members_rejoined coins c members hh.members).mono ?_
  rintro u d ⟨hP, hstay⟩
  refine ⟨hP, ?_⟩
  rintro ⟨rfl, hd, hu⟩
  exact hstay ⟨rfl, hd, hu⟩

lemma left_sound : (h.step crypto (.left coins c)).Sound := by
  refine hh.depart crypto rfl ?_ ?_
  · intro u d hd hne
    rw [channelSet_left]
    exact Finset.mem_erase.mpr ⟨hne, hd⟩
  · by_cases hc : c ∈ h.group.channelSet
    · exact members_left coins c hc hh.members
    · rw [left, if_pos hc]
      refine hh.members.mono fun u d hP => ⟨hP, ?_⟩
      rintro rfl
      exact hc hP.1

lemma peerLeft_sound (u : UserId) : (h.step crypto (.peerLeft c u)).Sound := by
  by_cases hc : c ∈ h.group.channelSet
  · refine hh.depart crypto (if_neg (not_not.mpr hc)) ?_ (members_peerLeft hh.members c u)
    intro v d hd _
    rwa [channelSet_peerLeft]
  · refine hh.depart crypto (if_pos hc) (fun v d hd _ => hd) ?_
    refine hh.members.mono fun v d hP => ⟨hP, ?_⟩
    rintro ⟨rfl, -⟩
    exact hc hP.1

lemma reset_sound : (h.step crypto (.reset coins)).Sound :=
  hh.depart crypto rfl (fun _ _ _ hstay => absurd trivial hstay) (members_reset coins)

end

lemma Sound.members_or (hh : h.Sound) (m : Inbound) :
    Members (fun u c => c ∈ h.group.channelSet ∧
      (h.Heard u c ∨ u = m.user ∧ c = m.channel ∧ h.departed u c < m.receivedAt)) h.group.peers :=
  hh.members.mono fun _ _ hP => ⟨hP.1, .inl hP.2⟩

lemma Sound.inbound (hh : h.Sound) {m : Inbound} {p : E2eeGroup.Progress InboundAwait}
    (hact : h.act crypto e = ({ h with queue := queue } : TaskHistory).advanceInbound m p)
    (hD : ∀ u c, ¬ h.Departs u c e) (hqueue : queue ⊆ h.queue) (hm : m ∈ h.received)
    (hrun : ∀ m' pc, h.running = some (.inbound m' pc) → m' = m)
    (hchannel : ∀ pc, p.2 = .inl pc → m.channel ∈ h.group.channelSet ∨ m.receivedAt ≤ h.departed m.user m.channel)
    (hset : p.1.channelSet = h.group.channelSet) (hmembers : Members (fun u c => c ∈ h.group.channelSet ∧
      (h.Heard u c ∨ u = m.user ∧ c = m.channel ∧ h.departed u c < m.receivedAt)) p.1.peers) :
    (h.step crypto e).Sound := by
  obtain ⟨g, next⟩ := p
  obtain ⟨hgroup, hreceived, hqueue', hgiven⟩ : (h.step crypto e).group = g ∧
      (h.step crypto e).received = h.received ∧ (h.step crypto e).queue = queue ∧
      (h.step crypto e).given = h.given := by
    cases next <;> simp only [step, hact, advanceInbound, and_self]
  have hprocessed : ∀ q ∈ (h.step crypto e).processed, q ∈ h.processed ∨ q = ⟨m, h.now⟩ := by
    cases next <;> simp only [step, hact, advanceInbound]
    · exact fun q hq => .inl hq
    · exact fun q hq => (mem_cons.mp hq).symm
  have hkept : h.processed ⊆ (h.step crypto e).processed := by
    cases next <;> simp only [step, hact, advanceInbound]
    · exact List.Subset.refl _
    · exact subset_cons_self _ _
  have hself : m ∈ (h.step crypto e).heard := by
    cases next <;> simp [heard, step, hact, advanceInbound]
  have hheard : h.heard ⊆ (h.step crypto e).heard := by
    intro x hx
    rcases mem_append.mp hx with hx | hx
    · obtain ⟨q, hq, rfl⟩ := mem_map.mp hx
      exact mem_append_left _ (mem_map_of_mem (hkept hq))
    · split at hx
      next m' pc hpc =>
        rw [mem_singleton.mp hx, hrun m' pc hpc]
        exact hself
      · cases hx
  have hdeparted : ∀ u c, (h.step crypto e).departed u c = h.departed u c :=
    fun u c => departed_of_not crypto (hD u c)
  refine ⟨departed_step_lt crypto hh e, ?_, ?_, ?_, ?_, ?_, ?_⟩
  · intro x hx
    rw [hreceived] at hx
    exact Nat.lt_succ_of_lt (hh.received_lt x hx)
  · intro x hx
    rw [hqueue'] at hx
    rw [hreceived]
    exact hh.queued x (hqueue hx)
  · intro x pc hpc
    cases next <;> simp only [step, hact, advanceInbound] at hpc <;> cases hpc
    rw [hreceived, hgroup, hset, hdeparted]
    exact ⟨hm, hchannel pc rfl⟩
  · intro q hq
    rw [hreceived]
    rcases hprocessed q hq with hq | rfl
    · exact ⟨(hh.processed q hq).1, Nat.lt_succ_of_lt (hh.processed q hq).2⟩
    · exact ⟨hm, Nat.lt_succ_self _⟩
  · rw [hgroup, hset]
    refine hmembers.mono ?_
    rintro u c ⟨hc, hu | ⟨rfl, rfl, hlt⟩⟩
    · exact ⟨hc, hu.mono hheard (hdeparted u c)⟩
    · exact ⟨hc, m, hself, rfl, rfl, by rwa [hdeparted]⟩
  · intro y hy
    rw [hgiven] at hy
    obtain ⟨hlt, q, hq, hex⟩ := hh.given y hy
    exact ⟨Nat.lt_succ_of_lt hlt, q, hkept hq, hex⟩

lemma heard_of_idle (hidle : ∀ m pc, h.running ≠ some (.inbound m pc)) :
    h.heard = h.processed.map Processed.message := by
  unfold heard
  split
  next m pc hpc => exact absurd hpc (hidle m pc)
  · rw [append_nil]

section

variable (hh : h.Sound)
include hh

lemma given_sound (hidle : ∀ m pc, h.running ≠ some (.inbound m pc)) {peer : PeerEntry}
    (hu : h.group.peers.find u = some peer) :
    ∃ p ∈ h.processed, p.message.user = u ∧ h.departed u p.message.channel < p.message.receivedAt ∧
      p.time < h.now := by
  obtain ⟨⟨c, hc⟩, hall⟩ := hh.members u peer hu
  obtain ⟨-, m, hm, hmu, rfl, hlt⟩ := hall c hc
  rw [heard_of_idle hidle] at hm
  obtain ⟨p, hp, rfl⟩ := mem_map.mp hm
  exact ⟨p, hp, hmu, hlt, (hh.processed p hp).2⟩

lemma Sound.rotation {p : E2eeGroup.Progress RotateAwait}
    (hact : h.act crypto e = ({ h with queue := queue } : TaskHistory).advanceRotate p)
    (hD : ∀ u c, ¬ h.Departs u c e) (hqueue : queue ⊆ h.queue) (hidle : ∀ m pc, h.running ≠ some (.inbound m pc))
    (hset : p.1.channelSet = h.group.channelSet)
    (hmembers : Members (fun u c => c ∈ h.group.channelSet ∧ h.Heard u c) p.1.peers)
    (hwraps : ∀ pc u, p.2 = .inl pc → wrapsFor pc = some u → ∃ peer, h.group.peers.find u = some peer) :
    (h.step crypto e).Sound := by
  obtain ⟨g, next⟩ := p
  obtain ⟨hgroup, hreceived, hqueue', hprocessed⟩ : (h.step crypto e).group = g ∧
      (h.step crypto e).received = h.received ∧ (h.step crypto e).queue = queue ∧
      (h.step crypto e).processed = h.processed := by
    cases next <;> simp only [step, hact, advanceRotate, and_self]
  have hidle' : ∀ m pc, (h.step crypto e).running ≠ some (.inbound m pc) := by
    intro m pc hpc
    cases next <;> simp only [step, hact, advanceRotate] at hpc <;> cases hpc
  have hdeparted : ∀ u c, (h.step crypto e).departed u c = h.departed u c :=
    fun u c => departed_of_not crypto (hD u c)
  refine ⟨departed_step_lt crypto hh e, ?_, ?_, fun m pc hpc => absurd hpc (hidle' m pc), ?_, ?_, ?_⟩
  · intro m hm
    rw [hreceived] at hm
    exact Nat.lt_succ_of_lt (hh.received_lt m hm)
  · intro m hm
    rw [hqueue'] at hm
    rw [hreceived]
    exact hh.queued m (hqueue hm)
  · intro q hq
    rw [hprocessed] at hq
    rw [hreceived]
    exact ⟨(hh.processed q hq).1, Nat.lt_succ_of_lt (hh.processed q hq).2⟩
  · rw [hgroup, hset]
    refine hmembers.mono ?_
    rintro u c ⟨hc, hu⟩
    refine ⟨hc, hu.mono ?_ (hdeparted u c)⟩
    rw [heard_of_idle hidle, heard_of_idle hidle', hprocessed]
    exact List.Subset.refl _
  · intro y hy
    rw [hprocessed]
    have hold : ∀ y ∈ h.given, y.time < h.now + 1 ∧ ∃ p ∈ h.processed, p.message.user = y.user ∧
        y.departed p.message.channel < p.message.receivedAt ∧ p.time < y.time := by
      intro y hy
      exact ⟨Nat.lt_succ_of_lt (hh.given y hy).1, (hh.given y hy).2⟩
    cases next with
    | inr =>
      simp only [step, hact, advanceRotate] at hy
      exact hold y hy
    | inl pc =>
      simp only [step, hact, advanceRotate] at hy
      rcases mem_append.mp hy with hy | hy
      · obtain ⟨u, hu, rfl⟩ := Option.map_eq_some_iff.mp (Option.mem_toList.mp hy)
        obtain ⟨peer, hpeer⟩ := hwraps pc u rfl hu
        exact ⟨Nat.lt_succ_self _, given_sound hh hidle hpeer⟩
      · exact hold y hy

lemma Sound.enqueue {received : List Inbound}
    (hact : h.act crypto e = { h with queue := queue, received := received }) (hD : ∀ u c, ¬ h.Departs u c e)
    (hkept : h.received ⊆ received) (hreceived : ∀ m ∈ received, m.receivedAt < h.now + 1)
    (hqueue : ∀ m, Task.inbound m ∈ queue → m ∈ received) : (h.step crypto e).Sound := by
  have hdeparted : ∀ u c, (h.step crypto e).departed u c = h.departed u c :=
    fun u c => departed_of_not crypto (hD u c)
  have hheard : h.heard ⊆ (h.step crypto e).heard := by
    simp only [heard, step, hact]
    exact List.Subset.refl _
  refine ⟨departed_step_lt crypto hh e, ?_, ?_, ?_, ?_, ?_, ?_⟩
  · simpa only [step, hact] using hreceived
  · simpa only [step, hact] using hqueue
  · intro m pc hpc
    simp only [step, hact] at hpc
    obtain ⟨hm, hor⟩ := hh.running m pc hpc
    rw [hdeparted]
    simp only [step, hact]
    exact ⟨hkept hm, hor⟩
  · intro p hp
    simp only [step, hact] at hp ⊢
    exact ⟨hkept (hh.processed p hp).1, Nat.lt_succ_of_lt (hh.processed p hp).2⟩
  · have hgroup : (h.step crypto e).group = h.group := by simp only [step, hact]
    rw [hgroup]
    exact hh.members.mono fun u c hP => ⟨hP.1, hP.2.mono hheard (hdeparted u c)⟩
  · intro g hg
    simp only [step, hact] at hg ⊢
    exact ⟨Nat.lt_succ_of_lt (hh.given g hg).1, (hh.given g hg).2⟩

lemma receive_sound (c : ChannelId) (u : UserId) (body : Body) : (h.step crypto (.receive c u body)).Sound := by
  by_cases hc : c ∈ h.group.channelSet
  · refine hh.enqueue crypto (if_neg (not_not.mpr hc)) (fun _ _ => id) (subset_cons_self _ _) ?_ ?_
    · intro m hm
      rcases mem_cons.mp hm with rfl | hm
      · exact Nat.lt_succ_self _
      · exact Nat.lt_succ_of_lt (hh.received_lt m hm)
    · intro m hm
      rcases mem_append.mp hm with hm | hm
      · exact mem_cons_of_mem _ (hh.queued m hm)
      · cases mem_singleton.mp hm
        exact mem_cons_self
  · exact hh.enqueue crypto (if_pos hc) (fun _ _ => id) (List.Subset.refl _)
      (fun m hm => Nat.lt_succ_of_lt (hh.received_lt m hm)) hh.queued

lemma requestRotate_sound (force : Bool) : (h.step crypto (.requestRotate force)).Sound := by
  refine hh.enqueue crypto rfl (fun _ _ => id) (List.Subset.refl _)
    (fun m hm => Nat.lt_succ_of_lt (hh.received_lt m hm)) ?_
  intro m hm
  rcases mem_append.mp hm with hm | hm
  · exact hh.queued m hm
  · cases mem_singleton.mp hm

lemma idle_sound (hact : h.act crypto e = h) (hD : ∀ u c, ¬ h.Departs u c e) : (h.step crypto e).Sound :=
  hh.enqueue crypto hact hD (List.Subset.refl _) (fun m hm => Nat.lt_succ_of_lt (hh.received_lt m hm)) hh.queued

end

lemma nextWrap_peer {coins : Coins} {us : List UserId} {out : List Outgoing} (h : g.nextWrap coins us out = .inl pc)
    (hu : wrapsFor pc = some u) : ∃ peer, g.peers.find u = some peer := by
  cases us with
  | nil => cases h
  | cons =>
    simp only [nextWrap] at h
    split at h
    · cases h
      cases hu
    next w hw =>
      cases h
      obtain ⟨peer, hpeer, hmap⟩ := Option.bind_eq_some_iff.mp hw
      obtain ⟨c, -, rfl⟩ := Option.map_eq_some_iff.mp hmap
      cases hu
      exact ⟨peer, hpeer⟩

lemma resumeRotate_wraps {coins : Coins} {pc' : RotateAwait} (h : (g.resumeRotate crypto coins pc).2 = .inl pc')
    (hu : wrapsFor pc' = some u) : ∃ peer, g.peers.find u = some peer := by
  cases pc with
  | setOwnKey | ownKeySet => cases h; cases hu
  | installed | wrapped => exact nextWrap_peer h hu
  | wrap =>
    simp only [resumeRotate] at h
    split at h
    · cases h
    · cases h
      cases hu

variable (hh : h.Sound) (coins : Coins)
include hh

lemma start_sound (hok : h.Timely crypto (.start coins)) : (h.step crypto (.start coins)).Sound := by
  cases hrunning : h.running with
  | some => exact idle_sound crypto hh (by simp [act, hrunning]) fun _ _ => id
  | none =>
    cases hqueue : h.queue with
    | nil => exact idle_sound crypto hh (by simp [act, hrunning, hqueue]) fun _ _ => id
    | cons task queue =>
      have hidle : ∀ m pc, h.running ≠ some (.inbound m pc) := by simp [hrunning]
      have hsub : queue ⊆ h.queue := hqueue ▸ subset_cons_self _ _
      cases task with
      | rotate force =>
        obtain ⟨hmembers, hset⟩ := members_startRotate coins force hh.members
        refine hh.rotation crypto (by simp only [act, hrunning, hqueue]) (fun _ _ => id) hsub hidle hset hmembers ?_
        intro pc u hpc hu
        unfold startRotate at hpc
        split at hpc <;> cases hpc
        cases hu
      | inbound m =>
        have henters : h.group.EntersAtStart m → m.channel ∈ h.group.channelSet ∧
            (h.Heard m.user m.channel ∨
              m.user = m.user ∧ m.channel = m.channel ∧ h.departed m.user m.channel < m.receivedAt) := by
          intro henters
          exact ⟨henters.1, .inr ⟨rfl, rfl, hok m ⟨hrunning, ⟨queue, hqueue⟩, henters⟩⟩⟩
        obtain ⟨hmembers, hset⟩ := members_startInbound (hh.members_or m) henters
        refine hh.inbound crypto (by simp only [act, hrunning, hqueue]) (fun _ _ => id) hsub
          (hh.queued m (hqueue ▸ mem_cons_self)) (fun m' pc hpc => absurd hpc (hidle m' pc)) ?_ hset hmembers
        intro pc hpc
        left
        by_contra hno
        rw [startInbound, if_pos hno] at hpc
        cases hpc

lemma resume_sound (hok : h.Timely crypto (.resume coins)) : (h.step crypto (.resume coins)).Sound := by
  cases hrunning : h.running with
  | none => exact idle_sound crypto hh (by simp [act, hrunning]) fun _ _ => id
  | some r =>
    cases r with
    | rotate pc =>
      obtain ⟨hmembers, hset⟩ := members_resumeRotate crypto coins hh.members pc
      have hact : h.act crypto (.resume coins) = h.advanceRotate (h.group.resumeRotate crypto coins pc) := by
        simp [act, hrunning]
      exact hh.rotation crypto hact (fun _ _ => id) (List.Subset.refl _) (by simp [hrunning]) hset hmembers
        fun pc' u => resumeRotate_wraps crypto
    | inbound m pc =>
      obtain ⟨hm, hchannel⟩ := hh.running m pc hrunning
      have henters : h.group.EntersAt m crypto pc → m.channel ∈ h.group.channelSet ∧
          (h.Heard m.user m.channel ∨
            m.user = m.user ∧ m.channel = m.channel ∧ h.departed m.user m.channel < m.receivedAt) := by
        intro henters
        have hlt := hok m ⟨pc, hrunning, henters⟩
        exact ⟨hchannel.resolve_right (by omega), .inr ⟨rfl, rfl, hlt⟩⟩
      obtain ⟨hmembers, hset⟩ :=
        members_resumeInbound crypto coins (hh.members_or m) henters
      have hact : h.act crypto (.resume coins) = h.advanceInbound m (h.group.resumeInbound m crypto coins pc) := by
        simp only [act, hrunning]
      refine hh.inbound crypto hact (fun _ _ => id) (List.Subset.refl _) hm ?_ (fun _ _ => hchannel) hset hmembers
      intro m' pc' hpc'
      rw [hrunning] at hpc'
      cases hpc'
      rfl

lemma step_sound (hok : h.Timely crypto e) : (h.step crypto e).Sound := by
  cases e with
  | receive c u body => exact receive_sound crypto hh c u body
  | requestRotate force => exact requestRotate_sound crypto hh force
  | start coins => exact start_sound crypto hh coins hok
  | resume coins => exact resume_sound crypto hh coins hok
  | joined c => exact joined_sound crypto hh c
  | rejoined coins c members => exact rejoined_sound crypto hh coins c members
  | left coins c => exact left_sound crypto hh coins c
  | peerLeft c u => exact peerLeft_sound crypto hh c u
  | reset coins => exact reset_sound crypto hh coins

end AurixVoice.Web.TaskHistory
