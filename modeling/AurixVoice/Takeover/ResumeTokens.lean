import AurixVoice.Library.Traces
import AurixVoice.Takeover.Carried
import Mathlib.Data.List.Nodup

/-!
Copies of the hash of an old resume token stay behind in mirrors and connections; a token is good for one resume
as long as none of them is consulted and no two attempts overlap.
-/

namespace AurixVoice.Takeover

open List

variable {H : Type}

namespace Cluster

/-- The resumes and takeovers under way, by their place in the state. -/
def UnderWay (s : Cluster H) : ℕ ⊕ ℕ → Prop
  | .inl i => i < s.resuming.length
  | .inr i => ∃ r, s.runs[i]? = some r ∧ r.phase.ended = false

/-- At most one attempt is under way, with the token handed out last. -/
structure TokensOnce (s : Cluster H) : Prop where
  nodup : s.admitted.Nodup
  issued : ∀ h ∈ s.admitted, h ∈ s.issued
  unopened : s.opened = false → s.current = none
  current : ∀ h, s.current = some h → h ∈ s.issued ∧ h ∉ s.admitted
  resuming : ∀ a ∈ s.resuming, s.current = some a.2
  runs : ∀ (i : ℕ) r, s.runs[i]? = some r → r.phase.ended = false →
    s.current = some r.presented ∧ r.fresh ∈ s.issued ∧ r.fresh ∉ s.admitted ∧ r.fresh ≠ r.presented
  single : ∀ a b, s.UnderWay a → s.UnderWay b → a = b

/-- No resume and no takeover is under way. -/
def Idle (s : Cluster H) : Prop := s.resuming = [] ∧ ∀ r ∈ s.runs, r.phase.ended = true

variable {s s' : Cluster H}

lemma Idle.not_running (hidle : s.Idle) (i : ℕ) : ¬ s.UnderWay (.inr i) := by
  rintro ⟨r, hr, hlive⟩
  rw [hidle.2 r (mem_of_getElem? hr)] at hlive
  cases hlive

lemma UnderWay.carried {closes : Prop} (hc : s.Carries s' closes) (hresuming : s'.resuming.Sublist s.resuming)
    {a : ℕ ⊕ ℕ} (ha : s'.UnderWay a) : s.UnderWay a := by
  cases a with
  | inl i => exact lt_of_lt_of_le ha hresuming.length_le
  | inr i =>
    obtain ⟨r', hr', hlive⟩ := ha
    obtain ⟨r, hr, -, -, hended⟩ := hc.runs i r' hr'
    exact ⟨r, hr, hended hlive⟩

namespace TokensOnce

variable (h : TokensOnce s)
include h

lemma opened {hash : H} (hcurrent : s.current = some hash) : s.opened = true := by
  by_contra hnot
  rw [h.unopened (Bool.eq_false_iff.mpr hnot)] at hcurrent
  cases hcurrent

lemma carried {closes : Prop} (hc : s.Carries s' closes) (hresuming : s'.resuming.Sublist s.resuming) :
    TokensOnce s' := by
  refine ⟨?_, ?_, ?_, ?_, ?_, ?_, fun a b ha hb => h.single a b (ha.carried hc hresuming) (hb.carried hc hresuming)⟩
  · rw [hc.admitted]
    exact h.nodup
  · rw [hc.admitted, hc.issued]
    exact h.issued
  · rw [hc.opened, hc.current]
    exact h.unopened
  · rw [hc.current, hc.issued, hc.admitted]
    exact h.current
  · rw [hc.current]
    exact fun a ha => h.resuming a (hresuming.subset ha)
  · intro i r' hr' hlive
    obtain ⟨r, hr, hpresented, hfresh, hended⟩ := hc.runs i r' hr'
    rw [hc.current, hc.issued, hc.admitted, hpresented, hfresh]
    exact h.runs i r hr (hended hlive)

lemma issue (fresh : H) : TokensOnce { s with issued := s.issued ++ [fresh] } where
  nodup := h.nodup
  issued k hk := mem_append_left _ (h.issued k hk)
  unopened := h.unopened
  current k hk := ⟨mem_append_left _ (h.current k hk).1, (h.current k hk).2⟩
  resuming := h.resuming
  runs i r hr hlive := (h.runs i r hr hlive).imp_right fun ⟨hissued, hrest⟩ => ⟨mem_append_left _ hissued, hrest⟩
  single := h.single

/-- The latest token is spent for a new one, and no other attempt is left under way. -/
lemma rotate {presented fresh : H} (hcurrent : s.current = some presented) (hissued : fresh ∈ s'.issued)
    (hspent : fresh ∉ s.admitted) (hne : fresh ≠ presented) (hopened : s'.opened = true)
    (hkept : ∀ k ∈ s.issued, k ∈ s'.issued) (hadmitted : s'.admitted = s.admitted ++ [presented])
    (hnext : s'.current = some fresh) (hidle : ∀ a, ¬ s'.UnderWay a) : TokensOnce s' := by
  obtain ⟨hpissued, hpspent⟩ := h.current presented hcurrent
  refine ⟨?_, ?_, ?_, ?_, ?_, ?_, fun a b ha => absurd ha (hidle a)⟩
  · rw [hadmitted]
    refine nodup_append.mpr ⟨h.nodup, List.nodup_singleton _, ?_⟩
    intro k hk k' hk' heq
    rw [heq, mem_singleton.mp hk'] at hk
    exact hpspent hk
  · intro k hk
    rw [hadmitted] at hk
    obtain hk | hk := mem_append.mp hk
    · exact hkept k (h.issued k hk)
    · exact mem_singleton.mp hk ▸ hkept presented hpissued
  · intro hno
    rw [hopened] at hno
    cases hno
  · intro k hk
    obtain rfl := Option.some.inj (hnext.symm.trans hk)
    refine ⟨hissued, fun hmem => ?_⟩
    rw [hadmitted] at hmem
    obtain hmem | hmem := mem_append.mp hmem
    · exact hspent hmem
    · exact hne (mem_singleton.mp hmem)
  · intro a ha
    obtain ⟨i, hi, -⟩ := mem_iff_getElem.mp ha
    exact absurd hi (hidle (.inl i))
  · exact fun i r hr hlive => absurd ⟨r, hr, hlive⟩ (hidle (.inr i))

lemma openSession (node : NodeId) {fresh : H} (hnew : fresh ∉ s.issued) : TokensOnce (s.openSession node fresh) := by
  unfold Cluster.openSession
  split
  · exact h
  next hnot =>
    have hnone := h.unopened (Bool.eq_false_iff.mpr hnot)
    refine ⟨h.nodup, (h.issue fresh).issued, fun hno => (by cases hno), ?_, ?_, ?_, h.single⟩
    · intro k hk
      obtain rfl := Option.some.inj hk
      exact ⟨mem_append_right _ mem_cons_self, fun hmem => hnew (h.issued fresh hmem)⟩
    · intro a ha
      cases hnone.symm.trans (h.resuming a ha)
    · intro i r hr hlive
      cases hnone.symm.trans (h.runs i r hr hlive).1

lemma reattach (i : ℕ) {fresh : H} (hnew : fresh ∉ s.issued) : TokensOnce (s.reattach i fresh) := by
  unfold Cluster.reattach
  split
  · exact h
  next node presented hresuming =>
    have hlt : i < s.resuming.length := (List.getElem?_eq_some_iff.mp hresuming).1
    have hcurrent := h.resuming _ (mem_of_getElem? hresuming)
    have hrest : s.resuming.eraseIdx i = [] := by
      by_contra hsome
      have hlen := length_eraseIdx_of_lt hlt
      have hpos := length_pos_iff.mpr hsome
      cases h.single (.inl 0) (.inl 1) (show 0 < _ by omega) (show 1 < _ by omega)
    have hfailed : TokensOnce (Cluster.startCleanup
        { s with resuming := s.resuming.eraseIdx i, issued := s.issued ++ [fresh] } node) :=
      (h.issue fresh).carried (.outside _ _ _ _ _ : Carries _ _ False) (eraseIdx_sublist _ i)
    dsimp only
    split
    · exact hfailed
    · split
      · have hpresented := (h.current presented hcurrent).1
        refine h.rotate hcurrent (mem_append_right _ mem_cons_self) (fun hmem => hnew (h.issued fresh hmem)) ?_
          (h.opened hcurrent) (fun _ => mem_append_left _) rfl rfl ?_
        · rintro rfl
          exact hnew hpresented
        · rintro (j | j) hj
          · have hj : j < (s.resuming.eraseIdx i).length := hj
            rw [hrest] at hj
            cases hj
          · cases h.single (.inl i) (.inr j) hlt hj
      · exact hfailed

lemma complete {i : ℕ} {r : Run H} (hr : s.runs[i]? = some r) (hlive : r.phase.ended = false) :
    TokensOnce (s.complete i r) := by
  obtain ⟨hcurrent, hissued, hspent, hne⟩ := h.runs i r hr hlive
  refine h.rotate hcurrent hissued hspent hne (h.opened hcurrent) (fun _ => id) rfl rfl ?_
  rintro (j | j) hj
  · cases h.single (.inr i) (.inl j) ⟨r, hr, hlive⟩ hj
  · obtain ⟨r', hr', hlive'⟩ := hj
    have hmodify : (s.setPhase i .done).runs[j]? = some r' := hr'
    rw [setPhase, getElem?_modify, Option.map_eq_map] at hmodify
    obtain ⟨r₀, hr₀, rfl⟩ := Option.map_eq_some_iff.mp hmodify
    split at hlive'
    · cases hlive'
    next hij => exact hij (Sum.inr.inj (h.single (.inr i) (.inr j) ⟨r, hr, hlive⟩ ⟨r₀, hr₀, hlive'⟩))

/-- A token is found on a detached connection. -/
lemma asked (hidle : s.Idle) {a : NodeId × H} (hcurrent : s.current = some a.2) :
    TokensOnce { s with resuming := s.resuming ++ [a] } := by
  rw [hidle.1, nil_append]
  refine ⟨h.nodup, h.issued, h.unopened, h.current, ?_, h.runs, ?_⟩
  · intro b hb
    rw [mem_singleton.mp hb]
    exact hcurrent
  · have hfirst (b : ℕ ⊕ ℕ) (hb : UnderWay { s with resuming := [a] } b) : b = .inl 0 := by
      cases b with
      | inl i => exact congrArg _ (Nat.lt_one_iff.mp hb)
      | inr i => exact absurd hb (hidle.not_running i)
    exact fun b c hb hc => (hfirst b hb).trans (hfirst c hc).symm

/-- A token is found in the mirror. -/
lemma takeover (hidle : s.Idle) (node : NodeId) {presented fresh : H} (hcurrent : s.current = some presented)
    (hnew : fresh ∉ s.issued) :
    TokensOnce { s with
      runs := s.runs ++ [⟨node, presented, fresh, .reading, false⟩]
      issued := s.issued ++ [fresh] } := by
  -- only the run that has just been started is not at its end
  have hlast (i : ℕ) (r : Run H)
      (hr : (s.runs ++ [(⟨node, presented, fresh, .reading, false⟩ : Run H)])[i]? = some r)
      (hlive : r.phase.ended = false) : i = s.runs.length ∧ r = ⟨node, presented, fresh, .reading, false⟩ := by
    rw [getElem?_append] at hr
    split at hr
    · exact absurd ⟨r, hr, hlive⟩ (hidle.not_running i)
    · have hlt : i - s.runs.length < 1 := (List.getElem?_eq_some_iff.mp hr).1
      exact ⟨by omega, mem_singleton.mp (mem_of_getElem? hr)⟩
  have hissued := h.issue fresh
  refine ⟨h.nodup, hissued.issued, h.unopened, hissued.current, h.resuming, ?_, ?_⟩
  · intro i r hr hlive
    obtain ⟨-, rfl⟩ := hlast i r hr hlive
    refine ⟨hcurrent, mem_append_right _ mem_cons_self, fun hmem => hnew (h.issued fresh hmem), ?_⟩
    exact fun heq : fresh = presented => hnew (heq ▸ (h.current presented hcurrent).1)
  · rintro (i | i) (j | j) hi hj
    · exact h.single (.inl i) (.inl j) hi hj
    · exact absurd hi (hidle.1 ▸ Nat.not_lt_zero i)
    · exact absurd hj (hidle.1 ▸ Nat.not_lt_zero j)
    · obtain ⟨r, hr, hlive⟩ := hi
      obtain ⟨r', hr', hlive'⟩ := hj
      rw [(hlast i r hr hlive).1, (hlast j r' hr' hlive').1]

end TokensOnce

lemma resuming_stepRun (i : ℕ) (r : Run H) (input : Input) : (s.stepRun i r input).resuming = s.resuming := by
  have hclose := (connStep_requestClose s r.node).resuming
  unfold stepRun
  cases r.phase with
  | reading | restoring | releasing | done | failed | finishing | mirroring =>
    dsimp only [release, writeMirror]
    try split
    all_goals rfl
  | claiming =>
    unfold claim
    dsimp only
    split <;> rfl
  | claimed =>
    unfold adopt
    dsimp only
    split
    · exact (connStep_takeDetached s r.node).resuming
    · split <;> exact hclose
  | adopted | creating =>
    dsimp only
    split <;> rfl
  | evicting =>
    unfold evictMigrated
    dsimp only
    split <;> rfl

lemma resuming_runTask (task : Task H) (fault : Fault) : (s.runTask task fault).resuming = s.resuming := by
  cases task with
  | write =>
    unfold runTask runWrite
    dsimp only
    split <;> split <;> rfl
  | evict =>
    unfold runTask evictMigrated
    dsimp only
    split <;> rfl
  | delete =>
    unfold runTask runDelete
    dsimp only
    split <;> rfl
  | teardown => rfl

end Cluster

variable [DecidableEq H]

/-- The token generator does not repeat itself. -/
def Generated (s : Cluster H) : Event H → Prop
  | .open _ fresh | .reattach _ fresh | .takeover _ _ fresh _ => fresh ∉ s.issued
  | _ => True

instance (s : Cluster H) : DecidablePred (Generated s) := by
  intro e
  unfold Generated
  split <;> infer_instance

instance (s : Cluster H) : Decidable s.Idle := inferInstanceAs (Decidable (_ ∧ _))

/-- A token is checked while no other attempt is under way, and the copy it is checked against has been
rotated: the node's own connection is the one the last token was handed out on, and the mirror is asked
only after the write that follows the last rotation has run. -/
def ChecksRotated (s : Cluster H) : Event H → Prop
  | .claimResume node _ _ => ∀ conn, s.conns node = some conn → conn.detached = true →
      s.Idle ∧ s.current = some conn.resumeHash
  | .takeover node _ _ _ => s.conns node = none →
      s.Idle ∧ ∀ hash, s.store.getSessionMirror = some hash → s.current = some hash
  | _ => True

namespace Cluster

variable {s s' : Cluster H}

/-- Only a claim adds to what is resuming. -/
lemma resuming_step {e : Event H} (hrotates : ¬ Rotates s e)
    (hclaim : ∀ node presented ofUser, e ≠ .claimResume node presented ofUser) :
    (step s e).resuming.Sublist s.resuming := by
  cases e with
  | «open» | reattach | takeover => exact absurd trivial hrotates
  | claimResume => exact absurd rfl (hclaim _ _ _)
  | tick | logout | mediaTimeout | mirror => exact Sublist.refl _
  | dropped node => exact (connStep_dropped s node).resuming ▸ Sublist.refl _
  | requestClose node => exact (connStep_requestClose s node).resuming ▸ Sublist.refl _
  | graceTimer node => exact (connStep_takeDetached s node).resuming ▸ Sublist.refl _
  | crash => exact filter_sublist
  | abandon i => exact eraseIdx_sublist _ i
  | task =>
    unfold step
    dsimp only
    split
    · exact Sublist.refl _
    · rw [resuming_runTask]
  | run =>
    unfold step
    dsimp only
    split
    · exact Sublist.refl _
    · rw [resuming_stepRun]

lemma TokensOnce.step (h : s.TokensOnce) (e : Event H) (hnew : Generated s e) (hchecks : ChecksRotated s e) :
    (Takeover.step s e).TokensOnce := by
  by_cases hrotates : Rotates s e
  · cases e with
    | «open» node => exact h.openSession node hnew
    | reattach i => exact h.reattach i hnew
    | takeover node presented =>
      unfold Takeover.step
      dsimp only
      split
      next hcandidate =>
        simp only [takeoverCandidate, Bool.and_eq_true, decide_eq_true_eq, Option.isNone_iff_eq_none] at hcandidate
        obtain ⟨⟨hnone, -⟩, hmirror⟩ := hcandidate
        obtain ⟨hidle, hrotated⟩ := hchecks hnone
        exact h.takeover hidle node (hrotated presented hmirror) hnew
      · exact h
    | run =>
      obtain ⟨r, hr, hphase⟩ := hrotates
      unfold Takeover.step
      dsimp only
      rw [hr]
      dsimp only [stepRun]
      rw [hphase]
      exact h.complete hr (by rw [hphase]; rfl)
    | _ => exact hrotates.elim
  · by_cases hclaim : ∃ node presented ofUser, e = .claimResume node presented ofUser
    · obtain ⟨node, presented, ofUser, rfl⟩ := hclaim
      obtain ⟨new, hstep, hfound⟩ := connStep_claimResume s node presented ofUser
      have hasked : TokensOnce { s with resuming := s.resuming ++ new } := by
        cases new with
        | nil =>
          rw [append_nil]
          exact h
        | cons a rest =>
          obtain ⟨hsingle, conn, hconn, hdetached, hhash⟩ := hfound a mem_cons_self
          obtain ⟨hidle, hcurrent⟩ := hchecks conn hconn hdetached
          rw [hsingle]
          exact h.asked hidle (hhash ▸ hcurrent)
      exact hasked.carried (hstep.carries : Carries _ _ False) (hstep.resuming ▸ Sublist.refl _)
    · apply h.carried (carries_step hrotates)
      exact resuming_step hrotates fun node presented ofUser heq => hclaim ⟨node, presented, ofUser, heq⟩

end Cluster

theorem resume_tokens_single_use {s : Cluster H} (hs : Unopened s) (events : List (Event H))
    (hrun : Traces.Meets step (fun s e => Generated s e ∧ ChecksRotated s e) s events) :
    (events.foldl step s).admitted.Nodup := by
  have hstart : s.TokensOnce := by
    obtain ⟨-, -, -, -, hresuming, -, hruns, -, -, -, hcurrent, hadmitted⟩ := hs
    refine ⟨?_, ?_, fun _ => hcurrent, ?_, ?_, ?_, ?_⟩
    · rw [hadmitted]
      exact nodup_nil
    · simp [hadmitted]
    · simp [hcurrent]
    · simp [hresuming]
    · simp [hruns]
    · rintro (i | i) b ha
      · simp [Cluster.UnderWay, hresuming] at ha
      · simp [Cluster.UnderWay, hruns] at ha
  exact (Traces.meets_invariant Cluster.TokensOnce (fun s e h hok => h.step e hok.1 hok.2) hrun hstart).nodup

namespace Sample

def unopened : Cluster ℕ where
  ttlSecs := 120
  store := ⟨0, .empty, .empty⟩
  hosted _ := false
  conns _ := none
  resuming := []
  tasks := []
  runs := []
  opened := false
  closed := false
  issued := []
  current := none
  admitted := []

lemma unopened_unopened : Unopened unopened := by
  constructor <;> first | rfl | exact fun _ => rfl

def resumed : List (Event ℕ) :=
  [.open 1 10, .mirror 1, .task 0 .answered, .dropped 1, .claimResume 1 10 true, .reattach 0 20]

def reused : List (Event ℕ) :=
  resumed ++ .takeover 2 10 30 true :: replicate 7 (.run 0 ⟨.answered, false, .migrated⟩)

/-- The mirror with the new hash is written before node 2 is asked, first with the spent token. -/
def rotated : List (Event ℕ) :=
  resumed ++ [.task 0 .answered, .takeover 2 10 30 true, .takeover 2 20 30 true] ++
    replicate 7 (.run 0 ⟨.answered, false, .migrated⟩)

theorem resume_tokens_single_use_resumed : (rotated.foldl step unopened).admitted = [10, 20] ∧
    (rotated.foldl step unopened).admitted.Nodup := by
  refine ⟨rfl, resume_tokens_single_use unopened_unopened rotated ?_⟩
  refine ⟨⟨by decide, trivial⟩, ⟨trivial, trivial⟩, ⟨trivial, trivial⟩, ⟨trivial, trivial⟩, ⟨trivial, ?_⟩,
    ⟨by decide, trivial⟩, ⟨trivial, trivial⟩, ⟨by decide, ?_⟩, ⟨by decide, ?_⟩, ?_⟩
  · rintro conn ⟨⟩ -
    exact ⟨by decide, rfl⟩
  · exact fun _ => ⟨by decide, fun _ h => h ▸ rfl⟩
  · exact fun _ => ⟨by decide, fun _ h => h ▸ rfl⟩
  · refine ⟨?_, ?_, ?_, ?_, ?_, ?_, ?_, trivial⟩ <;> exact ⟨trivial, trivial⟩

theorem token_resumed_and_taken_over : Traces.Meets step Generated unopened reused ∧
    (reused.foldl step unopened).admitted = [10, 10] := by
  refine ⟨?_, rfl⟩
  refine ⟨by decide, trivial, trivial, trivial, trivial, by decide, by decide, ?_⟩
  exact ⟨trivial, trivial, trivial, trivial, trivial, trivial, trivial, trivial⟩

end Sample

end AurixVoice.Takeover
