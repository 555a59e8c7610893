import AurixVoice.Library.Traces
import AurixVoice.Takeover.Carried

/-! Sessions closed by their owner: nobody can claim them unless a mirror built before is written after. -/

namespace AurixVoice.Takeover

open Function List

variable {H : Type}

def Task.isWrite : Task H → Bool
  | .write _ _ => true
  | _ => false

namespace Cluster

variable {s s' : Cluster H}

structure Settled (s : Cluster H) : Prop where
  mirror : s.store.getSessionMirror = none
  writes : ∀ t ∈ s.tasks, t.isWrite = false
  conns : ∀ node, (s.conns node).isSome = true → Task.teardown node ∈ s.tasks
  runs : ∀ r ∈ s.runs, r.phase.inFlight = false

lemma Settled.buildMirror (h : Settled s) {node : NodeId} (hquiet : Task.teardown node ∉ s.tasks) :
    s.conns node = none := by
  cases hconn : s.conns node with
  | none => rfl
  | some => exact absurd (h.conns node (by rw [hconn]; rfl)) hquiet

lemma Settled.frame (h : Settled s) (hmirror : s'.store.getSessionMirror = none)
    (htasks : ∃ more, s'.tasks = s.tasks ++ more ∧ ∀ t ∈ more, t.isWrite = false)
    (hconns : ∀ node, (s'.conns node).isSome = true → (s.conns node).isSome = true) (hruns : s'.runs = s.runs) :
    Settled s' := by
  obtain ⟨more, htasks, hmore⟩ := htasks
  refine ⟨hmirror, ?_, ?_, ?_⟩
  · intro t ht
    rw [htasks] at ht
    obtain ht | ht := mem_append.mp ht
    · exact h.writes t ht
    · exact hmore t ht
  · intro node hconn
    rw [htasks]
    exact mem_append_left _ (h.conns node (hconns node hconn))
  · rw [hruns]
    exact h.runs

lemma Settled.connStep (h : Settled s) (hs : ConnStep s s') : Settled s' := by
  obtain ⟨conns, more, rfl, hconns, hmore⟩ := hs
  refine h.frame h.mirror ⟨more, rfl, fun t ht => ?_⟩ (fun node hconn => (hconns node).symm.trans hconn) rfl
  obtain ⟨node, rfl⟩ := hmore t ht
  rfl

lemma Settled.reattach (h : Settled s) (i : ℕ) (fresh : H)
    (hquiet : ∀ node presented, s.resuming[i]? = some (node, presented) → Task.teardown node ∉ s.tasks) :
    Settled (s.reattach i fresh) := by
  unfold Cluster.reattach
  split
  · exact h
  next node presented hresuming =>
    have hnone := h.buildMirror (hquiet node presented hresuming)
    dsimp only
    rw [hnone]
    have hrest : Settled { s with resuming := s.resuming.eraseIdx i, issued := s.issued ++ [fresh] } :=
      h.frame h.mirror ⟨[], (append_nil _).symm, fun _ ht => by cases ht⟩ (fun _ => id) rfl
    exact hrest.connStep (connStep_startCleanup _ node)

lemma Settled.mirrorSession (h : Settled s) {node : NodeId} (hquiet : Task.teardown node ∉ s.tasks) :
    Settled (s.mirrorSession node) := by
  apply h.frame
  · exact h.mirror
  · refine ⟨[], ?_, fun _ ht => by cases ht⟩
    rw [Cluster.mirrorSession, Cluster.buildMirror, h.buildMirror hquiet]
    rfl
  · exact fun _ => id
  · rfl

lemma Settled.dropLocal {node : NodeId} (hmirror : s.store.getSessionMirror = none)
    (hwrites : ∀ t ∈ s.tasks, t.isWrite = false)
    (hconns : ∀ other, other ≠ node → (s.conns other).isSome = true → Task.teardown other ∈ s.tasks)
    (hruns : ∀ r ∈ s.runs, r.phase.inFlight = false) : Settled (s.dropLocal node) := by
  refine ⟨hmirror, hwrites, ?_, ?_⟩
  · intro other hconn
    have hupdate : (update s.conns node none other).isSome = true := hconn
    rw [update_apply] at hupdate
    split at hupdate
    · cases hupdate
    next hne => exact hconns other hne hupdate
  · intro r hr
    obtain ⟨r₀, hr₀, rfl⟩ := mem_map.mp hr
    have hidle := hruns r₀ hr₀
    split <;> exact hidle

variable (h : Settled s) (node : NodeId)
include h

lemma Settled.evictMigrated : Settled (s.evictMigrated node) := by
  unfold Cluster.evictMigrated
  split
  · exact h
  · exact .dropLocal h.mirror h.writes (fun other _ => h.conns other) h.runs

lemma Settled.runDelete (fault : Fault) : Settled (s.runDelete node fault) := by
  have hnext : ∀ t ∈ [if fault = .answered && !(s.store.deleteSessionMirror node).1 then Task.evict node
      else (.teardown node : Task H)], t.isWrite = false := by
    intro t ht
    rw [mem_singleton.mp ht]
    split <;> rfl
  unfold Cluster.runDelete
  dsimp only
  split
  · exact h.frame h.mirror ⟨_, rfl, hnext⟩ (fun _ => id) rfl
  · have hdeleted : Settled
        { s with
          store := (s.store.deleteSessionMirror node).2
          tasks := s.tasks ++ [if fault = .answered && !(s.store.deleteSessionMirror node).1 then Task.evict node
            else .teardown node]
          closed := s.closed || decide (s.store.getSessionNode = some node) } :=
      h.frame (MirrorStore.mirror_releaseSessionClaim h.mirror none) ⟨_, rfl, hnext⟩ (fun _ => id) rfl
    refine ⟨hdeleted.mirror, hdeleted.writes, hdeleted.conns, ?_⟩
    intro r hr
    obtain ⟨r₀, hr₀, rfl⟩ := mem_map.mp hr
    have hidle := h.runs r₀ hr₀
    split <;> exact hidle

lemma Settled.task {i : ℕ} {task : Task H} (htask : s.tasks[i]? = some task) (fault : Fault) :
    Settled (runTask { s with tasks := s.tasks.eraseIdx i } task fault) := by
  have hwrites : ∀ t ∈ s.tasks.eraseIdx i, t.isWrite = false := fun t ht => h.writes t (mem_of_mem_eraseIdx ht)
  have hkept : ∀ t, t ≠ task → t ∈ s.tasks → t ∈ s.tasks.eraseIdx i := by
    intro t hne ht
    obtain ⟨j, hj⟩ := mem_iff_getElem?.mp ht
    refine mem_eraseIdx_iff_getElem?.mpr ⟨j, ?_, hj⟩
    rintro rfl
    rw [htask] at hj
    exact hne (Option.some.inj hj).symm
  have hrest : (∀ node, task ≠ .teardown node) → Settled { s with tasks := s.tasks.eraseIdx i } := fun hne =>
    ⟨h.mirror, hwrites, fun node hconn => hkept _ (symm (hne node)) (h.conns node hconn), h.runs⟩
  cases task with
  | write =>
    have hwrite := h.writes _ (mem_of_getElem? htask)
    cases hwrite
  | evict node => exact (hrest (fun _ heq => by cases heq)).evictMigrated node
  | delete node => exact (hrest (fun _ heq => by cases heq)).runDelete node fault
  | teardown node =>
    have hothers : ∀ other, other ≠ node → (s.conns other).isSome = true →
        Task.teardown other ∈ s.tasks.eraseIdx i := by
      intro other hne hconn
      apply hkept
      · intro heq
        exact hne (Task.teardown.inj heq)
      · exact h.conns other hconn
    exact dropLocal (s := { s with tasks := s.tasks.eraseIdx i }) h.mirror hwrites hothers h.runs

lemma Settled.setPhase (i : ℕ) {phase : Phase H} (hidle : phase.inFlight = false) : Settled (s.setPhase i phase) := by
  refine ⟨h.mirror, h.writes, h.conns, ?_⟩
  intro r hr
  obtain ⟨j, hj⟩ := mem_iff_getElem?.mp hr
  rw [Cluster.setPhase, getElem?_modify, Option.map_eq_map] at hj
  obtain ⟨r₀, hr₀, rfl⟩ := Option.map_eq_some_iff.mp hj
  have hold := h.runs r₀ (mem_of_getElem? hr₀)
  split
  · exact hidle
  · exact hold

lemma Settled.stepRun {i : ℕ} {r : Run H} (hr : s.runs[i]? = some r) (input : Input) :
    Settled (s.stepRun i r input) := by
  have hidle := h.runs r (mem_of_getElem? hr)
  unfold Cluster.stepRun
  cases hphase : r.phase with
  | reading => exact h.setPhase i rfl
  | claiming previous =>
    have hrefused : s.store.claimSession r.node (previous.getD r.node) s.ttlSecs = (.error .notMirrored, s.store) :=
      MirrorStore.claimSession_of_no_mirror h.mirror _ _
    unfold claim
    dsimp only
    rw [hrefused, if_pos (.inr (by simp))]
    exact h.setPhase i rfl
  | done => exact h
  | failed => exact h
  | _ =>
    rw [hphase] at hidle
    cases hidle

lemma Settled.crash : Settled (s.crash node) := by
  have hlocal : Settled (s.dropLocal node) := .dropLocal h.mirror h.writes (fun other _ => h.conns other) h.runs
  refine ⟨hlocal.mirror, ?_, ?_, ?_⟩
  · exact fun t ht => h.writes t (mem_filter.mp ht).1
  · intro other hconn
    have hupdate : (update s.conns node none other).isSome = true := hconn
    rw [update_apply] at hupdate
    split at hupdate
    · cases hupdate
    next hne => exact mem_filter.mpr ⟨h.conns other hupdate, decide_eq_true hne⟩
  · intro r hr
    obtain ⟨r₀, hr₀, rfl⟩ := mem_map.mp hr
    have hold := hlocal.runs r₀ hr₀
    split
    · rfl
    · exact hold

end Cluster

variable [DecidableEq H]

/-- A close finds no mirror on its way, no other connection and no takeover past its claim, and no mirror is
built while the node still tears the session down. -/
def Quiet (s : Cluster H) : Event H → Prop
  | .task i _ => ∀ node, s.tasks[i]? = some (.delete node) → s.store.getSessionNode = some node →
      (∀ t ∈ s.tasks, t.isWrite = false) ∧ (∀ other, other ≠ node → s.conns other = none) ∧
        ∀ r ∈ s.runs, r.phase.inFlight = false
  | .mirror node => Task.teardown node ∉ s.tasks
  | .reattach i _ => ∀ node presented, s.resuming[i]? = some (node, presented) → Task.teardown node ∉ s.tasks
  | _ => True

namespace Cluster

variable {s : Cluster H}

lemma Settled.step (h : Settled s) (hopened : s.opened = true) (e : Event H) (hquiet : Quiet s e) :
    Settled (step s e) := by
  cases e with
  | tick ms =>
    have hgone : MirrorStore.getSessionMirror { s.store with now := s.store.now + ms } = none :=
      ExpiringCell.get_eq_none_of_le (Nat.le_add_right _ _) h.mirror
    exact ⟨hgone, h.writes, h.conns, h.runs⟩
  | «open» =>
    rw [Takeover.step, openSession, if_pos hopened]
    exact h
  | dropped node => exact h.connStep (connStep_dropped s node)
  | logout node => exact h.connStep (connStep_startCleanup s node)
  | requestClose node => exact h.connStep (connStep_requestClose s node)
  | graceTimer node => exact h.connStep (connStep_takeDetached s node)
  | mediaTimeout | abandon => exact ⟨h.mirror, h.writes, h.conns, h.runs⟩
  | crash node => exact h.crash node
  | claimResume node presented ofUser =>
    obtain ⟨new, hstep, -⟩ := connStep_claimResume s node presented ofUser
    have hasked : Settled { s with resuming := s.resuming ++ new } := ⟨h.mirror, h.writes, h.conns, h.runs⟩
    exact hasked.connStep hstep
  | reattach i fresh => exact h.reattach i fresh hquiet
  | mirror => exact h.mirrorSession hquiet
  | task i fault =>
    unfold Takeover.step
    dsimp only
    split
    · exact h
    next task htask => exact h.task htask fault
  | takeover node presented fresh ofUser =>
    have hrefused : s.takeoverCandidate node presented ofUser = false := by
      simp [takeoverCandidate, h.mirror]
    unfold Takeover.step
    dsimp only
    rw [hrefused]
    exact h
  | run i input =>
    unfold Takeover.step
    dsimp only
    split
    · exact h
    next r hr => exact h.stepRun hr input

lemma settled_of_delete {i : ℕ} {node : NodeId} {fault : Fault} (htask : s.tasks[i]? = some (.delete node))
    (howner : s.store.getSessionNode = some node) (hquiet : Quiet s (.task i fault))
    (hran : fault ≠ .lostBefore) : Settled (step s (.task i fault)) := by
  obtain ⟨hwrites, hconns, hruns⟩ := hquiet node htask howner
  have hdelete : s.store.deleteSessionMirror node = (true, { s.store with owner := .empty, mirror := .empty }) := by
    unfold MirrorStore.deleteSessionMirror MirrorStore.releaseSessionClaim
    rw [howner, Option.any_some, if_neg (by simp)]
  have hstep : step s (.task i fault) = fence
      { s with
        store := { s.store with owner := .empty, mirror := .empty }
        tasks := s.tasks.eraseIdx i ++ [.teardown node]
        closed := s.closed || decide (s.store.getSessionNode = some node) }
      fun r => r.node = node := by
    unfold step
    dsimp only
    rw [htask]
    dsimp only [runTask, runDelete]
    rw [hdelete]
    cases fault with
    | lostBefore => exact absurd rfl hran
    | answered | lostAfter => rfl
  rw [hstep]
  refine ⟨rfl, ?_, ?_, ?_⟩
  · intro t ht
    obtain ht | ht := mem_append.mp ht
    · exact hwrites t (mem_of_mem_eraseIdx ht)
    · rw [mem_singleton.mp ht]
      rfl
  · intro other hconn
    have hsome : (s.conns other).isSome = true := hconn
    by_cases hne : other = node
    · rw [hne]
      exact mem_append_right _ mem_cons_self
    · rw [hconns other hne] at hsome
      cases hsome
  · intro r hr
    obtain ⟨r₀, hr₀, rfl⟩ := mem_map.mp hr
    have hidle := hruns r₀ hr₀
    split <;> exact hidle

end Cluster

theorem closed_not_taken_over {s : Cluster H} (hopened : s.opened = true) (hopen : s.closed = false)
    (events : List (Event H)) (hrun : Traces.Meets step Quiet s events)
    (hclosed : (events.foldl step s).closed = true) (node expected : NodeId) (ttlSecs : ℕ) :
    ((events.foldl step s).store.claimSession node expected ttlSecs).1 = .error .notMirrored := by
  have hinv : (events.foldl step s).opened = true ∧
      ((events.foldl step s).closed = true → (events.foldl step s).Settled) := by
    apply Traces.meets_invariant (fun s => s.opened = true ∧ (s.closed = true → s.Settled)) _ hrun
    · refine ⟨hopened, fun h => ?_⟩
      rw [hopen] at h
      cases h
    · rintro s e ⟨hopened, hsettled⟩ hquiet
      refine ⟨opened_step hopened e, fun h => ?_⟩
      cases hbefore : s.closed with
      | true => exact (hsettled hbefore).step hopened e hquiet
      | false =>
        obtain ⟨i, node, fault, rfl, htask, howner, hran⟩ := closes_of_closed_step hbefore h
        exact Cluster.settled_of_delete htask howner hquiet hran
  have hmirror := (hinv.2 hclosed).mirror
  rw [MirrorStore.claimSession_of_no_mirror hmirror]

namespace Sample

def leaving : List (Event ℕ) := [.logout 1, .task 0 .answered, .task 0 .answered]

def overtaking : List (Event ℕ) := [.mirror 1, .logout 1, .task 1 .answered, .task 0 .answered]

theorem closed_not_taken_over_leaving : Traces.Meets step Quiet mirrored leaving ∧
    (leaving.foldl step mirrored).closed = true ∧
      ((leaving.foldl step mirrored).store.claimSession 2 1 120).1 = .error .notMirrored := by
  have hrun : Traces.Meets step Quiet mirrored leaving := by
    refine ⟨trivial, ?_, ?_, trivial⟩
    · intro node htask _
      obtain rfl := Task.delete.inj (Option.some.inj htask)
      refine ⟨?_, ?_, ?_⟩
      · intro t ht
        rw [mem_singleton.mp ht]
        rfl
      · intro other hne
        have hnone : update (fun _ => none) 1 (some ⟨10, false, false⟩) other = (none : Option (Conn ℕ)) :=
          update_of_ne hne _ _
        exact hnone
      · intro r hr
        cases hr
    · intro node htask
      cases htask
  exact ⟨hrun, rfl, closed_not_taken_over rfl rfl leaving hrun rfl 2 1 120⟩

theorem late_mirror_taken_over : (overtaking.foldl step mirrored).closed = true ∧
    ((overtaking.foldl step mirrored).store.claimSession 2 1 120).1 = .ok () := by
  decide +kernel

end Sample

end AurixVoice.Takeover
