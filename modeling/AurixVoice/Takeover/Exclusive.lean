import AurixVoice.Library.Traces
import AurixVoice.Takeover.Carried

/-! The owner of a session that was taken over: only a claim, the session's end there or its own release change it. -/

namespace AurixVoice.Takeover

open List Option

variable {H : Type}

def Phase.isDone : Phase H → Bool
  | .done => true
  | _ => false

lemma Phase.attached_of_isDone {phase : Phase H} (h : phase.isDone = true) : phase.attached = true := by
  cases phase with
  | done => rfl
  | _ => cases h

namespace Cluster

variable {s s' : Cluster H}

lemma getElem?_setPhase (s : Cluster H) (i j : ℕ) (phase : Phase H) :
    (s.setPhase i phase).runs[j]? = s.runs[j]?.map fun r => if i = j then { r with phase := phase } else r :=
  getElem?_modify _ _ _ _

structure Follows (r r' : Run H) : Prop where
  node : r'.node = r.node
  fenced : r'.fenced = false → r.fenced = false
  inFlight : r'.phase.inFlight = true → r.phase.inFlight = true
  done : r'.phase.isDone = true → r.phase.isDone = true ∨ r.phase.inFlight = true

lemma Follows.refl (r : Run H) : Follows r r := ⟨rfl, id, id, .inl⟩

def Held (r : Run H) : Prop := r.phase.inFlight = true ∨ r.phase.isDone = true

variable {i : ℕ} {r : Run H} {previous : Option NodeId}

lemma Follows.held {r' : Run H} (h : Follows r r') (hr : Held r') : Held r := by
  obtain hr | hr := hr
  · exact .inl (h.inFlight hr)
  · exact (h.done hr).symm

structure Exclusive (s : Cluster H) : Prop where
  owner : ∀ (i : ℕ) r, s.runs[i]? = some r → Held r → r.fenced = false → s.store.getSessionNode = some r.node
  conn : ∀ (i : ℕ) r, s.runs[i]? = some r → r.phase.attached = true → r.fenced = false →
    (s.conns r.node).isSome = true
  alone : ∀ (i j : ℕ) r r', s.runs[i]? = some r → s.runs[j]? = some r' → i ≠ j → r'.node = r.node →
    r.phase.inFlight = true → ¬ (r'.phase.inFlight = true ∨ (r'.phase.isDone = true ∧ r'.fenced = false))

lemma Exclusive.not_held (h : Exclusive s) {j : ℕ} {r' : Run H} (hr : s.runs[i]? = some r)
    (hr' : s.runs[j]? = some r') (hne : i ≠ j) (hnode : r'.node = r.node) (hflight : r.phase.inFlight = true)
    (hfenced : r'.fenced = false) : ¬ Held r' := by
  intro hheld
  apply h.alone i j r r' hr hr' hne hnode hflight
  obtain hheld | hheld := hheld
  · exact .inl hheld
  · exact .inr ⟨hheld, hfenced⟩

lemma Exclusive.next (h : Exclusive s)
    (hruns : ∀ (i : ℕ) r', s'.runs[i]? = some r' → Held r' → ∃ r, s.runs[i]? = some r ∧ Follows r r')
    (howner : ∀ (i : ℕ) r', s'.runs[i]? = some r' → Held r' → r'.fenced = false →
      s.store.getSessionNode = some r'.node → s'.store.getSessionNode = some r'.node)
    (hconn : ∀ (i : ℕ) r', s'.runs[i]? = some r' → r'.phase.attached = true → r'.fenced = false →
      (s'.conns r'.node).isSome = true) : Exclusive s' where
  owner i r' hr' hheld hfenced := by
    obtain ⟨r, hr, hfollows⟩ := hruns i r' hr' hheld
    apply howner i r' hr' hheld hfenced
    rw [hfollows.node]
    exact h.owner i r hr (hfollows.held hheld) (hfollows.fenced hfenced)
  conn := hconn
  alone i j r r' hr hr' hne hnode hflight hboth := by
    have hheld : Held r' := hboth.imp id And.left
    obtain ⟨r₀, hr₀, hfollows⟩ := hruns i r hr (.inl hflight)
    obtain ⟨r₀', hr₀', hfollows'⟩ := hruns j r' hr' hheld
    have hsame : r₀'.node = r₀.node := by rw [← hfollows.node, ← hfollows'.node, hnode]
    apply h.alone i j r₀ r₀' hr₀ hr₀' hne hsame (hfollows.inFlight hflight)
    obtain hflight' | ⟨hdone, hfenced⟩ := hboth
    · exact .inl (hfollows'.inFlight hflight')
    · obtain hdone | hflight' := hfollows'.done hdone
      · exact .inr ⟨hdone, hfollows'.fenced hfenced⟩
      · exact .inl hflight'

lemma Exclusive.frame (h : Exclusive s) (hruns : s'.runs = s.runs)
    (howner : s'.store.getSessionNode = s.store.getSessionNode)
    (hconns : ∀ node, (s.conns node).isSome = true → (s'.conns node).isSome = true) : Exclusive s' := by
  apply h.next
  · intro i r hr _
    rw [hruns] at hr
    exact ⟨r, hr, .refl r⟩
  · intro i r _ _ _ hr
    rw [howner]
    exact hr
  · intro i r hr hattached hfenced
    rw [hruns] at hr
    exact hconns _ (h.conn i r hr hattached hfenced)

lemma isSome_update {conns : NodeId → Option (Conn H)} {node other : NodeId} {conn : Conn H}
    (h : (conns other).isSome = true) : (Function.update conns node (some conn) other).isSome = true := by
  rw [Function.update_apply]
  split
  · rfl
  · exact h

lemma Exclusive.setPhase (h : Exclusive s) (hr : s.runs[i]? = some r) {phase : Phase H}
    (hflight : phase.inFlight = true → r.phase.inFlight = true)
    (hdone : phase.isDone = true → r.phase.isDone = true ∨ r.phase.inFlight = true)
    (hattached : phase.attached = true → r.fenced = false → (s.conns r.node).isSome = true) :
    Exclusive (s.setPhase i phase) := by
  have hcases : ∀ (j : ℕ) r', (s.setPhase i phase).runs[j]? = some r' →
      (j = i ∧ r' = { r with phase := phase }) ∨ (j ≠ i ∧ s.runs[j]? = some r') := by
    intro j r' hr'
    rw [getElem?_setPhase] at hr'
    obtain ⟨r₀, hr₀, rfl⟩ := map_eq_some_iff.mp hr'
    by_cases hij : i = j
    · subst hij
      rw [hr] at hr₀
      obtain rfl := some.inj hr₀
      exact .inl ⟨rfl, if_pos rfl⟩
    · right
      refine ⟨symm hij, ?_⟩
      rw [if_neg hij]
      exact hr₀
  apply h.next
  · intro j r' hr' _
    obtain ⟨rfl, rfl⟩ | ⟨-, hr'⟩ := hcases j r' hr'
    · exact ⟨r, hr, rfl, id, hflight, hdone⟩
    · exact ⟨r', hr', .refl r'⟩
  · exact fun _ _ _ _ _ => id
  · intro j r' hr' hat hfenced
    obtain ⟨rfl, rfl⟩ | ⟨-, hr'⟩ := hcases j r' hr'
    · exact hattached hat hfenced
    · exact h.conn j r' hr' hat hfenced

lemma Exclusive.setPhase_idle (h : Exclusive s) (hr : s.runs[i]? = some r) {phase : Phase H}
    (hflight : phase.inFlight = false) (hdone : phase.isDone = false) (hattached : phase.attached = false) :
    Exclusive (s.setPhase i phase) := by
  apply h.setPhase hr
  · rw [hflight]
    exact nofun
  · rw [hdone]
    exact nofun
  · rw [hattached]
    exact nofun

lemma Exclusive.of_fence (h : Exclusive s) (p : Run H → Bool) (hruns : s'.runs = (s.fence p).runs)
    (howner : ∀ r : Run H, p r = false → s.store.getSessionNode = some r.node → s'.store.getSessionNode = some r.node)
    (hconn : ∀ r : Run H, p r = false → r.phase.attached = true → (s.conns r.node).isSome = true →
      (s'.conns r.node).isSome = true) : Exclusive s' := by
  have hcases : ∀ (i : ℕ) r', s'.runs[i]? = some r' → ∃ r, s.runs[i]? = some r ∧ Follows r r' ∧
      (r'.fenced = false → r' = r ∧ p r = false) := by
    intro i r' hr'
    rw [hruns, Cluster.fence, getElem?_map] at hr'
    obtain ⟨r, hr, rfl⟩ := map_eq_some_iff.mp hr'
    refine ⟨r, hr, ?_⟩
    split
    · exact ⟨⟨rfl, fun hf => (by cases hf), id, .inl⟩, fun hf => (by cases hf)⟩
    next hnot => exact ⟨.refl r, fun _ => ⟨rfl, Bool.eq_false_iff.mpr hnot⟩⟩
  apply h.next
  · intro i r' hr' _
    obtain ⟨r, hr, hfollows, -⟩ := hcases i r' hr'
    exact ⟨r, hr, hfollows⟩
  · intro i r' hr' _ hfenced
    obtain ⟨r, -, -, hkept⟩ := hcases i r' hr'
    obtain ⟨rfl, hp⟩ := hkept hfenced
    exact howner r' hp
  · intro i r' hr' hattached hfenced
    obtain ⟨r, hr, -, hkept⟩ := hcases i r' hr'
    obtain ⟨rfl, hp⟩ := hkept hfenced
    exact hconn r' hp hattached (h.conn i r' hr hattached hfenced)

lemma Exclusive.dropLocal (h : Exclusive s) (node : NodeId) : Exclusive (s.dropLocal node) := by
  refine h.of_fence _ rfl (fun _ _ => id) fun r hp hattached hconn => ?_
  have hne : r.node ≠ node := by
    rintro rfl
    simp [hattached] at hp
  have hconns : (s.dropLocal node).conns r.node = s.conns r.node := Function.update_of_ne hne _ _
  rw [hconns]
  exact hconn

lemma Exclusive.evictMigrated (h : Exclusive s) (node : NodeId) : Exclusive (s.evictMigrated node) := by
  unfold Cluster.evictMigrated
  split
  · exact h
  · exact h.dropLocal node

/-- A claim finds its node without a connection for the session and without another run between its own claim
and its end. -/
def ClaimsAlone (s : Cluster H) (i : ℕ) : Prop :=
  ∀ r previous, s.runs[i]? = some r → r.phase = .claiming previous →
    s.conns r.node = none ∧
      ∀ (j : ℕ) r', s.runs[j]? = some r' → j ≠ i → r'.node = r.node → r'.phase.inFlight = false

variable (h : Exclusive s) (node : NodeId)
include h

lemma Exclusive.claim (hr : s.runs[i]? = some r) (hphase : r.phase = .claiming previous) (halone : s.ClaimsAlone i)
    (fault : Fault) : Exclusive (s.claim i r previous fault) := by
  obtain ⟨hnone, hothers⟩ := halone r previous hr hphase
  unfold Cluster.claim
  dsimp only
  split
  · exact h.setPhase_idle hr rfl rfl rfl
  next hwon =>
    obtain ⟨-, hok⟩ := not_or.mp hwon
    have howner := MirrorStore.owner_claimSession (not_not.mp hok)
    generalize hnext : (if fault = .answered then Phase.claimed previous else .failed) = phase
    have hidle : phase.isDone = false ∧ phase.attached = false := by
      rw [← hnext]
      split <;> exact ⟨rfl, rfl⟩
    -- the claimant is as the claim left it, the others are fenced unless they are its node's
    have hcases : ∀ (j : ℕ) r', ((s.runs.map fun other => if decide (other.node ≠ r.node) then
          { other with fenced := true } else other).modify i fun r =>
            { r with phase := phase, fenced := false })[j]? = some r' →
        (j = i ∧ r' = { r with phase := phase, fenced := false }) ∨
          (j ≠ i ∧ ∃ r₀, s.runs[j]? = some r₀ ∧ r'.node = r₀.node ∧ r'.phase = r₀.phase ∧
            (r'.fenced = false → r₀.fenced = false ∧ r₀.node = r.node)) := by
      intro j r' hr'
      rw [getElem?_modify, getElem?_map, Option.map_eq_map, Option.map_map] at hr'
      obtain ⟨r₀, hr₀, rfl⟩ := map_eq_some_iff.mp hr'
      by_cases hij : i = j
      · subst hij
        rw [hr] at hr₀
        obtain rfl := some.inj hr₀
        simp
      · right
        refine ⟨symm hij, r₀, hr₀, ?_⟩
        by_cases hnode : r₀.node = r.node <;> simp [hij, hnode]
    refine ⟨?_, ?_, ?_⟩
    · intro j r' hr' _ hfenced
      obtain ⟨rfl, rfl⟩ | ⟨-, r₀, -, hnode, -, hkept⟩ := hcases j r' hr'
      · exact howner
      · rw [hnode, (hkept hfenced).2]
        exact howner
    · intro j r' hr' hattached hfenced
      obtain ⟨rfl, rfl⟩ | ⟨-, r₀, hr₀, hnode, hsame, hkept⟩ := hcases j r' hr'
      · rw [hidle.2] at hattached
        cases hattached
      · rw [hnode]
        exact h.conn j r₀ hr₀ (hsame ▸ hattached) (hkept hfenced).1
    · intro j k r' r'' hr' hr'' hne hnode hflight hboth
      obtain ⟨rfl, rfl⟩ | ⟨hji, r₁, hr₁, hnode₁, hphase₁, -⟩ := hcases j r' hr'
      · obtain ⟨rfl, -⟩ | ⟨hki, r₂, hr₂, hnode₂, hphase₂, hkept⟩ := hcases k r'' hr''
        · exact hne rfl
        · obtain hflight' | ⟨hdone, hfenced⟩ := hboth
          · rw [hphase₂, hothers k r₂ hr₂ hki (hnode₂ ▸ hnode)] at hflight'
            cases hflight'
          · have hattached : r₂.phase.attached = true := hphase₂ ▸ Phase.attached_of_isDone hdone
            have hconn := h.conn k r₂ hr₂ hattached (hkept hfenced).1
            rw [(hkept hfenced).2, hnone] at hconn
            cases hconn
      · obtain ⟨rfl, rfl⟩ | ⟨hki, r₂, hr₂, hnode₂, hphase₂, hkept⟩ := hcases k r'' hr''
        · rw [hphase₁, hothers j r₁ hr₁ hji (hnode₁ ▸ hnode.symm)] at hflight
          cases hflight
        · apply h.alone j k r₁ r₂ hr₁ hr₂ hne (by rw [← hnode₁, ← hnode₂, hnode]) (hphase₁ ▸ hflight)
          rw [← hphase₂]
          exact hboth.imp id fun hdone => ⟨hdone.1, (hkept hdone.2).1⟩

lemma Exclusive.store {store : MirrorStore H} (hkept : ∀ (i : ℕ) r, s.runs[i]? = some r → Held r → r.fenced = false →
      s.store.getSessionNode = some r.node → store.getSessionNode = some r.node) :
    Exclusive { s with store := store } := by
  apply h.next
  · exact fun i r hr _ => ⟨r, hr, .refl r⟩
  · exact hkept
  · exact h.conn

lemma Exclusive.writeSessionMirror (hash : H) (ttl : ℕ) :
    Exclusive { s with store := (s.store.writeSessionMirror node hash ttl).2 } :=
  h.store fun _ _ _ _ _ howner => MirrorStore.owner_writeSessionMirror howner hash ttl

lemma Exclusive.release (hr : s.runs[i]? = some r) (hphase : r.phase = .releasing previous) (fault : Fault) :
    Exclusive (s.release i r previous fault) := by
  have hfailed : Exclusive (s.setPhase i .failed) := h.setPhase_idle hr rfl rfl rfl
  unfold Cluster.release
  split
  · exact hfailed
  · apply hfailed.store
    intro j r' hr' hheld hfenced howner
    rw [getElem?_setPhase] at hr'
    obtain ⟨r₀, hr₀, rfl⟩ := map_eq_some_iff.mp hr'
    by_cases hij : i = j
    · rw [if_pos hij] at hheld
      obtain hheld | hheld := hheld <;> cases hheld
    · rw [if_neg hij] at hheld hfenced howner ⊢
      -- the other runs of the node hold nothing, so whoever owns the session is another node
      have hne : r₀.node ≠ r.node := fun hnode =>
        h.not_held hr hr₀ hij hnode (by rw [hphase]; rfl) hfenced hheld
      have hother := MirrorStore.releaseSessionClaim_other howner hne previous
      rw [hother]
      exact howner

lemma Exclusive.runDelete (fault : Fault) : Exclusive (s.runDelete node fault) := by
  unfold Cluster.runDelete
  dsimp only
  split
  · exact h.frame rfl rfl fun _ => id
  next hdeleted =>
    refine h.of_fence _ rfl (fun r hp howner => ?_) fun _ _ _ => id
    have hother := MirrorStore.releaseSessionClaim_other howner (of_decide_eq_false hp) none
    rw [MirrorStore.deleteSessionMirror, hother] at hdeleted
    simp at hdeleted

lemma Exclusive.runTask (task : Task H) (fault : Fault) : Exclusive (s.runTask task fault) := by
  cases task with
  | write node hash =>
    unfold Cluster.runTask runWrite
    dsimp only
    have hstore : Exclusive (if fault = .lostBefore then s else
        { s with store := (s.store.writeSessionMirror node hash s.ttlSecs).2 }) := by
      split
      · exact h
      · exact h.writeSessionMirror node hash s.ttlSecs
    split
    · exact hstore.frame rfl rfl fun _ => id
    · exact hstore
  | evict node => exact h.evictMigrated node
  | delete node => exact h.runDelete node fault
  | teardown node => exact h.dropLocal node

lemma Exclusive.hosted (hosted : NodeId → Bool) : Exclusive { s with hosted := hosted } :=
  h.frame rfl rfl fun _ => id

lemma Exclusive.connStep (hs : ConnStep s s') : Exclusive s' := by
  obtain ⟨conns, more, rfl, hconns, -⟩ := hs
  exact h.frame rfl rfl fun node hconn => (hconns node).trans hconn

lemma Exclusive.stepRun (hr : s.runs[i]? = some r) (halone : s.ClaimsAlone i) (input : Input) :
    Exclusive (s.stepRun i r input) := by
  have hmove : ∀ {s' : Cluster H} {phase : Phase H}, Exclusive s' → s'.runs[i]? = some r →
      r.phase.inFlight = true → phase.attached = false → Exclusive (s'.setPhase i phase) := by
    intro s' phase h' hr' hflight hattached
    apply h'.setPhase hr'
    · exact fun _ => hflight
    · exact fun _ => .inr hflight
    · rw [hattached]
      exact fun hat => by cases hat
  have hinsert : r.phase.inFlight = true → Exclusive ((s.insertConn r.node r.fresh).setPhase i .restoring) := by
    intro hflight
    have hconn : Exclusive (s.insertConn r.node r.fresh) := h.frame rfl rfl fun _ => isSome_update
    apply hconn.setPhase hr
    · exact fun _ => hflight
    · exact fun hd => by cases hd
    · simp [insertConn]
  have hstay : ∀ {s' : Cluster H} {r' : Run H} {phase : Phase H}, Exclusive s' → s'.runs[i]? = some r' →
      r'.phase.inFlight = true → r'.phase.attached = true → Exclusive (s'.setPhase i phase) := by
    intro s' r' phase h' hr' hflight hattached
    apply h'.setPhase hr'
    · exact fun _ => hflight
    · exact fun _ => .inr hflight
    · exact fun _ => h'.conn i r' hr' hattached
  unfold Cluster.stepRun
  cases hphase : r.phase with
  | reading => exact h.setPhase_idle hr rfl rfl rfl
  | claiming => exact h.claim hr hphase halone input.fault
  | claimed =>
    have hclose := connStep_requestClose s r.node
    have hclosed := h.connStep hclose
    have hr' := hclose.runs.symm ▸ hr
    unfold adopt
    dsimp only
    split
    · exact h.connStep (connStep_takeDetached s r.node)
    · split
      · exact hmove hclosed hr' (by rw [hphase]; rfl) rfl
      · exact (hmove hclosed hr' (by rw [hphase]; rfl) rfl).hosted _
  | adopted =>
    dsimp only
    split
    · exact hinsert (by rw [hphase]; rfl)
    · exact hmove h hr (by rw [hphase]; rfl) rfl
    · exact (hmove h hr (by rw [hphase]; rfl) rfl).hosted _
  | creating =>
    dsimp only
    split
    · exact (hmove h hr (by rw [hphase]; rfl) rfl).hosted _
    · exact hinsert (by rw [hphase]; rfl)
  | releasing => exact h.release hr hphase input.fault
  | restoring => exact hstay h hr (by rw [hphase]; rfl) (by rw [hphase]; rfl)
  | mirroring hash =>
    apply hstay
    · split
      · exact h
      · exact h.writeSessionMirror r.node hash s.ttlSecs
    · split <;> exact hr
    · rw [hphase]
      rfl
    · rw [hphase]
      rfl
  | evicting =>
    obtain ⟨r', hr', hsame⟩ := exists_run_evictMigrated hr r.node
    exact hstay (h.evictMigrated r.node) hr' (by rw [hsame, hphase]; rfl) (by rw [hsame, hphase]; rfl)
  | finishing => exact (hstay h hr (by rw [hphase]; rfl) (by rw [hphase]; rfl)).frame rfl rfl fun _ => id
  | done | failed => exact h

lemma Exclusive.crash : Exclusive (s.crash node) := by
  apply (h.dropLocal node).next
  · intro i r' hr' hheld
    rw [Cluster.crash, getElem?_map] at hr'
    obtain ⟨r, hr, rfl⟩ := map_eq_some_iff.mp hr'
    refine ⟨r, hr, ?_⟩
    split
    next hnode =>
      rw [if_pos hnode] at hheld
      obtain hheld | hheld := hheld <;> cases hheld
    · exact .refl r
  · exact fun _ _ _ _ _ => id
  · intro i r' hr' hattached hfenced
    rw [Cluster.crash, getElem?_map] at hr'
    obtain ⟨r, hr, rfl⟩ := map_eq_some_iff.mp hr'
    split at hattached
    · cases hattached
    next hnode =>
      rw [if_neg hnode] at hfenced ⊢
      exact (h.dropLocal node).conn i r hr hattached hfenced

lemma Exclusive.openSession (fresh : H) : Exclusive (s.openSession node fresh) := by
  unfold Cluster.openSession
  split
  · exact h
  · exact h.frame rfl rfl fun _ => isSome_update

lemma Exclusive.reattach (i : ℕ) (fresh : H) : Exclusive (s.reattach i fresh) := by
  unfold Cluster.reattach
  split
  · exact h
  · dsimp only
    split
    · exact h.frame rfl rfl fun _ => id
    · split
      · exact h.frame rfl rfl fun _ => isSome_update
      · exact h.frame rfl rfl fun _ => id

end Cluster

variable [DecidableEq H]

/-- No claim of a node crosses another takeover of that node, and the owner's key does not expire. -/
def Alone (s : Cluster H) : Event H → Prop
  | .tick ms => MirrorStore.getSessionNode { s.store with now := s.store.now + ms } = s.store.getSessionNode
  | .run i _ => s.ClaimsAlone i
  | _ => True

lemma Cluster.Exclusive.step {s : Cluster H} (h : s.Exclusive) (e : Event H) (halone : Alone s e) :
    (step s e).Exclusive := by
  cases e with
  | tick => exact h.frame rfl halone fun _ => id
  | «open» node fresh => exact h.openSession node fresh
  | dropped node => exact h.connStep (connStep_dropped s node)
  | logout | abandon | mirror => exact h.frame rfl rfl fun _ => id
  | requestClose node => exact h.connStep (connStep_requestClose s node)
  | graceTimer node => exact h.connStep (connStep_takeDetached s node)
  | mediaTimeout => exact h.hosted _
  | crash node => exact h.crash node
  | claimResume node presented ofUser =>
    obtain ⟨new, hstep, -⟩ := connStep_claimResume s node presented ofUser
    have hasked : Exclusive { s with resuming := s.resuming ++ new } := h.frame rfl rfl fun _ => id
    exact hasked.connStep hstep
  | reattach i fresh => exact h.reattach i fresh
  | task i fault =>
    unfold Takeover.step
    dsimp only
    split
    · exact h
    · have hrest : Exclusive { s with tasks := s.tasks.eraseIdx i } := h.frame rfl rfl fun _ => id
      exact hrest.runTask _ fault
  | takeover =>
    unfold Takeover.step
    dsimp only
    split
    · apply h.next
      · intro i r hr hheld
        rw [getElem?_append] at hr
        split at hr
        · exact ⟨r, hr, .refl r⟩
        · obtain rfl := mem_singleton.mp (mem_of_getElem? hr)
          obtain hheld | hheld := hheld <;> cases hheld
      · exact fun _ _ _ _ _ => id
      · intro i r hr hattached hfenced
        rw [getElem?_append] at hr
        split at hr
        · exact h.conn i r hr hattached hfenced
        · obtain rfl := mem_singleton.mp (mem_of_getElem? hr)
          cases hattached
    · exact h
  | run i input =>
    unfold Takeover.step
    dsimp only
    split
    · exact h
    next r hr => exact h.stepRun hr halone input

theorem takeover_owner {s : Cluster H} (hs : s.runs = []) (events : List (Event H))
    (hrun : Traces.Meets step Alone s events) (r : Run H) (hr : r ∈ (events.foldl step s).runs)
    (hdone : r.phase = .done) (hfenced : r.fenced = false) :
    (events.foldl step s).store.getSessionNode = some r.node := by
  have hnone : ∀ (i : ℕ) (r : Run H), s.runs[i]? ≠ some r := by simp [hs]
  have hstart : s.Exclusive := ⟨fun i r hr => absurd hr (hnone i r), fun i r hr => absurd hr (hnone i r),
    fun i _ r _ hr => absurd hr (hnone i r)⟩
  have hinv := Traces.meets_invariant Cluster.Exclusive (fun s e h halone => h.step e halone) hrun hstart
  obtain ⟨i, hi⟩ := mem_iff_getElem?.mp hr
  exact hinv.owner i r hi (.inr (by rw [hdone]; rfl)) hfenced

namespace Sample

def well : Input := ⟨.answered, false, .migrated⟩

def taken : List (Event ℕ) := .takeover 2 10 20 true :: replicate 7 (.run 0 well)

lemma claimsAlone_single {s : Cluster ℕ} {r : Run ℕ} (hruns : s.runs = [r])
    (h : ∀ previous, r.phase = .claiming previous → s.conns r.node = none) : s.ClaimsAlone 0 := by
  intro r' previous hr' hphase
  rw [hruns] at hr'
  obtain rfl := some.inj hr'
  refine ⟨h previous hphase, ?_⟩
  intro j other hother hne
  rw [hruns] at hother
  obtain ⟨n, rfl⟩ := Nat.exists_eq_succ_of_ne_zero hne
  cases hother

theorem takeover_owner_taken : Traces.Meets step Alone mirrored taken ∧
    ∃ r ∈ (taken.foldl step mirrored).runs, r.phase = .done ∧ r.fenced = false ∧
      (taken.foldl step mirrored).store.getSessionNode = some r.node := by
  have hrun : Traces.Meets step Alone mirrored taken := by
    refine ⟨trivial, ?_, ?_, ?_, ?_, ?_, ?_, ?_, trivial⟩
    · exact claimsAlone_single rfl fun _ h => by cases h
    · exact claimsAlone_single rfl fun _ _ => rfl
    all_goals exact claimsAlone_single rfl fun _ h => by cases h
  have hmem : (⟨2, 10, 20, .done, false⟩ : Run ℕ) ∈ (taken.foldl step mirrored).runs := mem_of_getElem? (i := 0) rfl
  exact ⟨hrun, _, hmem, rfl, rfl, takeover_owner rfl taken hrun _ hmem rfl rfl⟩

def crossed : List (Event ℕ) :=
  [.takeover 2 10 20 true, .takeover 2 10 30 true, .run 1 well] ++ replicate 7 (.run 0 well) ++
    replicate 3 (.run 1 well)

theorem failed_run_takes_ownership : ∃ r ∈ (crossed.foldl step mirrored).runs, r.node = 2 ∧ r.phase = .done ∧
    r.fenced = false ∧ (crossed.foldl step mirrored).store.getSessionNode = some 1 := by
  have hmem : (⟨2, 10, 20, .done, false⟩ : Run ℕ) ∈ (crossed.foldl step mirrored).runs := mem_of_getElem? (i := 0) rfl
  exact ⟨_, hmem, rfl, rfl, rfl, rfl⟩

end Sample

end AurixVoice.Takeover
