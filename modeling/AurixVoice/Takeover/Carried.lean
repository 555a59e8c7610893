import AurixVoice.Takeover.Cluster

namespace AurixVoice.Takeover

open Cluster

variable {H : Type}

def Phase.ended : Phase H → Bool
  | .done | .failed => true
  | _ => false

namespace Cluster

variable {s s' s'' : Cluster H} {closes : Prop}

structure Carries (s s' : Cluster H) (closes : Prop) : Prop where
  opened : s'.opened = s.opened
  issued : s'.issued = s.issued
  current : s'.current = s.current
  admitted : s'.admitted = s.admitted
  closed : s'.closed = true → s.closed = true ∨ closes
  runs : ∀ (i : ℕ) r', s'.runs[i]? = some r' → ∃ r, s.runs[i]? = some r ∧ r'.presented = r.presented ∧
    r'.fresh = r.fresh ∧ (r'.phase.ended = false → r.phase.ended = false)

lemma Carries.trans (h : Carries s s' closes) (h' : Carries s' s'' closes) : Carries s s'' closes where
  opened := h'.opened.trans h.opened
  issued := h'.issued.trans h.issued
  current := h'.current.trans h.current
  admitted := h'.admitted.trans h.admitted
  closed hclosed := (h'.closed hclosed).elim h.closed .inr
  runs i r'' hr'' := by
    obtain ⟨r', hr', hpresented', hfresh', hended'⟩ := h'.runs i r'' hr''
    obtain ⟨r, hr, hpresented, hfresh, hended⟩ := h.runs i r' hr'
    exact ⟨r, hr, hpresented'.trans hpresented, hfresh'.trans hfresh, fun h => hended (hended' h)⟩

lemma Carries.outside (store : MirrorStore H) (hosted : NodeId → Bool) (conns : NodeId → Option (Conn H))
    (resuming : List (NodeId × H)) (tasks : List (Task H)) :
    Carries s { s with store := store, hosted := hosted, conns := conns, resuming := resuming, tasks := tasks }
      closes :=
  ⟨rfl, rfl, rfl, rfl, .inl, fun _ r hr => ⟨r, hr, rfl, rfl, id⟩⟩

lemma Carries.refl (s : Cluster H) (closes : Prop) : Carries s s closes :=
  .outside s.store s.hosted s.conns s.resuming s.tasks

variable {f : Run H → Run H}

lemma carries_map (hpresented : ∀ r, (f r).presented = r.presented) (hfresh : ∀ r, (f r).fresh = r.fresh)
    (hended : ∀ r, (f r).phase.ended = false → r.phase.ended = false) :
    Carries s { s with runs := s.runs.map f } closes where
  opened := rfl
  issued := rfl
  current := rfl
  admitted := rfl
  closed := .inl
  runs i r' hr' := by
    have hmap : (s.runs.map f)[i]? = some r' := hr'
    rw [List.getElem?_map] at hmap
    obtain ⟨r, hr, rfl⟩ := Option.map_eq_some_iff.mp hmap
    exact ⟨r, hr, hpresented r, hfresh r, hended r⟩

lemma carries_fence (p : Run H → Bool) : Carries s (s.fence p) closes := by
  apply carries_map
  · intro r
    split <;> rfl
  · intro r
    split <;> rfl
  · intro r
    split <;> exact id

lemma carries_modify {i : ℕ} {r : Run H} (hr : s.runs[i]? = some r) (hlive : r.phase.ended = false)
    (hpresented : (f r).presented = r.presented) (hfresh : (f r).fresh = r.fresh) :
    Carries s { s with runs := s.runs.modify i f } closes where
  opened := rfl
  issued := rfl
  current := rfl
  admitted := rfl
  closed := .inl
  runs j r' hr' := by
    have hmodify : (s.runs.modify i f)[j]? = some r' := hr'
    rw [List.getElem?_modify, Option.map_eq_map] at hmodify
    obtain ⟨r₀, hr₀, rfl⟩ := Option.map_eq_some_iff.mp hmodify
    refine ⟨r₀, hr₀, ?_⟩
    by_cases hij : i = j
    · subst hij
      rw [hr] at hr₀
      obtain rfl := Option.some.inj hr₀
      rw [if_pos rfl]
      exact ⟨hpresented, hfresh, fun _ => hlive⟩
    · rw [if_neg hij]
      exact ⟨rfl, rfl, id⟩

lemma carries_setPhase {i : ℕ} {r : Run H} (hr : s.runs[i]? = some r) (hlive : r.phase.ended = false)
    (phase : Phase H) : Carries s (s.setPhase i phase) closes := carries_modify hr hlive rfl rfl

lemma exists_run_fence {i : ℕ} {r : Run H} (hr : s.runs[i]? = some r) (p : Run H → Bool) :
    ∃ r', (s.fence p).runs[i]? = some r' ∧ r'.phase = r.phase := by
  rw [fence, List.getElem?_map, hr]
  refine ⟨_, rfl, ?_⟩
  dsimp only
  split <;> rfl

lemma exists_run_evictMigrated {i : ℕ} {r : Run H} (hr : s.runs[i]? = some r) (node : NodeId) :
    ∃ r', (s.evictMigrated node).runs[i]? = some r' ∧ r'.phase = r.phase := by
  unfold evictMigrated
  split
  · exact ⟨r, hr, rfl⟩
  · exact exists_run_fence hr _

lemma carries_dropLocal (node : NodeId) : Carries s (s.dropLocal node) closes :=
  (Carries.outside _ _ _ _ _).trans (carries_fence _)

lemma carries_evictMigrated (node : NodeId) : Carries s (s.evictMigrated node) closes := by
  unfold evictMigrated
  split
  · exact .refl s closes
  · exact carries_dropLocal node

lemma carries_crash (node : NodeId) : Carries s (s.crash node) closes := by
  have hlocal : Carries s (s.dropLocal node) closes := carries_dropLocal node
  have hruns : Carries (s.dropLocal node) { s.dropLocal node with
      runs := (s.dropLocal node).runs.map fun r =>
        if r.node = node then { r with phase := .failed } else r } closes := by
    apply carries_map
    · intro r
      split <;> rfl
    · intro r
      split <;> rfl
    · intro r
      split
      · intro h
        cases h
      · exact id
  exact hlocal.trans (hruns.trans (Carries.outside _ _ _ _ _))

/-- A call on a connection changes no more than its entry and the cleanups to come. -/
def ConnStep (s s' : Cluster H) : Prop :=
  ∃ conns more, s' = { s with conns := conns, tasks := s.tasks ++ more } ∧
    (∀ node, (conns node).isSome = (s.conns node).isSome) ∧ ∀ t ∈ more, ∃ node, t = Task.delete node

lemma ConnStep.carries (h : ConnStep s s') : Carries s s' closes := by
  obtain ⟨conns, more, rfl, -⟩ := h
  exact .outside _ _ _ s.resuming _

lemma ConnStep.runs (h : ConnStep s s') : s'.runs = s.runs := by
  obtain ⟨conns, more, rfl, -⟩ := h
  rfl

lemma ConnStep.resuming (h : ConnStep s s') : s'.resuming = s.resuming := by
  obtain ⟨conns, more, rfl, -⟩ := h
  rfl

lemma ConnStep.refl (s : Cluster H) : ConnStep s s :=
  ⟨s.conns, [], by rw [List.append_nil], fun _ => rfl, nofun⟩

lemma isSome_update_conn {node : NodeId} {conn : Conn H} (hconn : s.conns node = some conn) (conn' : Conn H)
    (other : NodeId) : (Function.update s.conns node (some conn') other).isSome = (s.conns other).isSome := by
  rw [Function.update_apply]
  split
  next heq =>
    rw [heq, hconn]
    rfl
  · rfl

section
variable (s) (node : NodeId)

lemma connStep_startCleanup : ConnStep s (s.startCleanup node) :=
  ⟨s.conns, [.delete node], rfl, fun _ => rfl, fun _ ht => ⟨node, List.mem_singleton.mp ht⟩⟩

lemma connStep_dropped : ConnStep s (s.dropped node) := by
  unfold dropped
  split
  · exact connStep_startCleanup s node
  next conn hconn =>
    split
    · exact connStep_startCleanup s node
    · exact ⟨_, [], by rw [List.append_nil], isSome_update_conn hconn _, nofun⟩

lemma connStep_takeDetached : ConnStep s (s.takeDetached node) := by
  unfold takeDetached
  split
  · exact .refl s
  next conn hconn =>
    split
    · exact ⟨_, [.delete node], rfl, isSome_update_conn hconn _, fun _ ht => ⟨node, List.mem_singleton.mp ht⟩⟩
    · exact .refl s

lemma connStep_requestClose : ConnStep s (s.requestClose node) := by
  unfold requestClose
  split
  · exact .refl s
  next conn hconn =>
    obtain ⟨conns, more, heq, hconns, hmore⟩ := connStep_takeDetached
      { s with conns := Function.update s.conns node (some { conn with closing := true }) } node
    exact ⟨conns, more, heq, fun other => (hconns other).trans (isSome_update_conn hconn _ other), hmore⟩

/-- A claim succeeds with the token whose hash the detached connection has. -/
lemma connStep_claimResume [DecidableEq H] (presented : H) (ofUser : Bool) :
    ∃ new, ConnStep { s with resuming := s.resuming ++ new } (s.claimResume node presented ofUser) ∧
      ∀ a ∈ new, new = [a] ∧ ∃ conn, s.conns node = some conn ∧ conn.detached = true ∧
        a.2 = conn.resumeHash := by
  unfold claimResume
  split
  · exact ⟨[], by rw [List.append_nil]; exact .refl s, nofun⟩
  next conn hconn =>
    split
    · exact ⟨[], by rw [List.append_nil]; exact .refl s, nofun⟩
    next hchecks =>
      refine ⟨[(node, presented)], ⟨_, [], by rw [List.append_nil], isSome_update_conn hconn _, nofun⟩, ?_⟩
      intro a ha
      obtain rfl := List.mem_singleton.mp ha
      simp only [Bool.or_eq_true, not_or, ne_eq, decide_eq_true_eq, not_not] at hchecks
      exact ⟨rfl, conn, hconn, by simpa using hchecks.1.1.1, hchecks.2⟩

end

section
variable {i : ℕ} {r : Run H} (hr : s.runs[i]? = some r) (hlive : r.phase.ended = false)

include hr hlive

variable (previous : Option NodeId) (fault : Fault)

lemma carries_claim : Carries s (s.claim i r previous fault) closes := by
  unfold claim
  dsimp only
  split
  · exact carries_setPhase hr hlive _
  · generalize hwon : (fence _ _ : Cluster H) = won
    have hfenced : Carries s won closes := by
      rw [← hwon]
      exact (Carries.outside _ _ _ _ _).trans (carries_fence _)
    obtain ⟨r', hr', hphase⟩ : ∃ r', won.runs[i]? = some r' ∧ r'.phase = r.phase := hwon ▸ exists_run_fence hr _
    refine hfenced.trans (carries_modify hr' (hphase ▸ hlive) rfl rfl)

lemma carries_release : Carries s (s.release i r previous fault) closes := by
  unfold release
  split
  · exact carries_setPhase hr hlive _
  · exact (carries_setPhase hr hlive _).trans (Carries.outside _ _ _ _ _)

lemma carries_writeMirror (hash : H) (fault : Fault) : Carries s (s.writeMirror i r hash fault) closes := by
  unfold writeMirror
  split
  · exact carries_setPhase hr hlive _
  · exact (carries_setPhase hr hlive _).trans (Carries.outside _ s.hosted s.conns s.resuming s.tasks)

lemma carries_stepRun (input : Input) (hopen : r.phase ≠ .finishing) : Carries s (s.stepRun i r input) closes := by
  have hinsert : Carries s ((s.insertConn r.node r.fresh).setPhase i .restoring) closes :=
    (carries_setPhase hr hlive _).trans (Carries.outside s.store s.hosted _ s.resuming s.tasks)
  have hgiveUp : ∀ previous, Carries s (s.giveUp i r previous) closes := fun previous =>
    (carries_setPhase hr hlive _).trans (Carries.outside _ _ _ _ _)
  unfold stepRun
  cases hphase : r.phase with
  | reading | restoring => exact carries_setPhase hr hlive _
  | claiming previous => exact carries_claim hr hlive previous input.fault
  | claimed =>
    have hclose := connStep_requestClose s r.node
    have hr' := hclose.runs.symm ▸ hr
    unfold adopt
    dsimp only
    split
    · exact (connStep_takeDetached s r.node).carries
    · apply hclose.carries.trans
      split
      · exact carries_setPhase hr' hlive _
      · exact (carries_setPhase hr' hlive _).trans (Carries.outside _ _ _ _ _)
  | adopted previous =>
    dsimp only
    split
    · exact hinsert
    · exact carries_setPhase hr hlive _
    · exact hgiveUp previous
  | creating previous =>
    dsimp only
    split
    · exact hgiveUp previous
    · exact hinsert
  | releasing previous => exact carries_release hr hlive previous input.fault
  | mirroring hash => exact carries_writeMirror hr hlive hash input.fault
  | evicting =>
    have hevicted : Carries s (s.evictMigrated r.node) closes := carries_evictMigrated r.node
    obtain ⟨r', hr', hsame⟩ := exists_run_evictMigrated hr r.node
    exact hevicted.trans (carries_setPhase hr' (hsame ▸ hlive) _)
  | finishing => exact absurd hphase hopen
  | done | failed => exact .refl s closes

end

lemma carries_runTask (task : Task H) (fault : Fault) :
    Carries s (s.runTask task fault)
      (∃ node, task = .delete node ∧ s.store.getSessionNode = some node ∧ fault ≠ .lostBefore) := by
  cases task with
  | write =>
    unfold runTask runWrite
    dsimp only
    split
    · split <;> exact Carries.outside _ _ _ _ _
    · split
      · exact .refl s _
      · exact Carries.outside _ _ _ _ _
  | evict node => exact carries_evictMigrated node
  | delete node =>
    unfold runTask runDelete
    dsimp only
    split
    · exact Carries.outside _ _ _ _ _
    next hran =>
      refine Carries.trans ?_ (carries_fence _)
      refine ⟨rfl, rfl, rfl, rfl, ?_, fun _ r hr => ⟨r, hr, rfl, rfl, id⟩⟩
      intro hclosed
      obtain hclosed | howner := Bool.or_eq_true_iff.mp hclosed
      · exact .inl hclosed
      · refine .inr ⟨node, rfl, of_decide_eq_true howner, ?_⟩
        rintro rfl
        simp at hran
  | teardown node => exact carries_dropLocal node

end Cluster

variable [DecidableEq H] {s : Cluster H}

def Rotates (s : Cluster H) : Event H → Prop
  | .open _ _ | .reattach _ _ | .takeover _ _ _ _ => True
  | .run i _ => ∃ r, s.runs[i]? = some r ∧ r.phase = .finishing
  | _ => False

def Closes (s : Cluster H) (e : Event H) : Prop :=
  ∃ i node fault, e = .task i fault ∧ s.tasks[i]? = some (.delete node) ∧
    s.store.getSessionNode = some node ∧ fault ≠ .lostBefore

lemma carries_step (h : ¬ Rotates s e) : s.Carries (step s e) (Closes s e) := by
  cases e with
  | tick | logout | mediaTimeout | abandon | mirror => exact .outside _ _ _ _ _
  | «open» | reattach | takeover => exact absurd trivial h
  | dropped node => exact (connStep_dropped s node).carries
  | requestClose node => exact (connStep_requestClose s node).carries
  | graceTimer node => exact (connStep_takeDetached s node).carries
  | crash node => exact carries_crash node
  | claimResume node presented ofUser =>
    obtain ⟨new, hstep, -⟩ := connStep_claimResume s node presented ofUser
    exact (Carries.outside _ _ _ _ s.tasks).trans hstep.carries
  | task i fault =>
    unfold step
    dsimp only
    split
    · exact .refl s _
    next task htask =>
      have hrun := carries_runTask (s := { s with tasks := s.tasks.eraseIdx i }) task fault
      refine ⟨hrun.opened, hrun.issued, hrun.current, hrun.admitted, ?_, hrun.runs⟩
      intro hclosed
      obtain hclosed | ⟨node, rfl, howner, hran⟩ := hrun.closed hclosed
      · exact .inl hclosed
      · exact .inr ⟨i, node, fault, rfl, htask, howner, hran⟩
  | run i input =>
    unfold step
    dsimp only
    split
    · exact .refl s _
    next r hr =>
      have hopen : r.phase ≠ .finishing := fun hphase => h ⟨r, hr, hphase⟩
      cases hended : r.phase.ended with
      | false => exact carries_stepRun hr hended input hopen
      | true =>
        unfold stepRun
        cases hphase : r.phase with
        | done => exact .refl s _
        | failed => exact .refl s _
        | _ =>
          rw [hphase] at hended
          cases hended

lemma marks_of_rotates (h : Rotates s e) :
    (step s e).closed = s.closed ∧ (s.opened = true → (step s e).opened = true) := by
  cases e with
  | «open» =>
    unfold step openSession
    dsimp only
    split
    · exact ⟨rfl, id⟩
    · exact ⟨rfl, fun _ => rfl⟩
  | reattach =>
    unfold step reattach
    dsimp only
    split
    · exact ⟨rfl, id⟩
    · split
      · exact ⟨rfl, id⟩
      · split <;> exact ⟨rfl, id⟩
  | takeover =>
    unfold step
    dsimp only
    split <;> exact ⟨rfl, id⟩
  | run =>
    obtain ⟨r, hr, hphase⟩ := h
    unfold step
    dsimp only
    rw [hr]
    dsimp only [stepRun]
    rw [hphase]
    exact ⟨rfl, id⟩
  | _ => exact h.elim

lemma opened_step (hopened : s.opened = true) (e : Event H) : (step s e).opened = true := by
  by_cases h : Rotates s e
  · exact (marks_of_rotates h).2 hopened
  · exact (carries_step h).opened.trans hopened

lemma closes_of_closed_step (hopen : s.closed = false) (hclosed : (step s e).closed = true) : Closes s e := by
  by_cases h : Rotates s e
  · rw [(marks_of_rotates h).1, hopen] at hclosed
    cases hclosed
  · obtain hbefore | hcloses := (carries_step h).closed hclosed
    · rw [hopen] at hbefore
      cases hbefore
    · exact hcloses

end AurixVoice.Takeover
