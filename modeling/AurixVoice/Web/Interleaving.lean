import AurixVoice.Web.TaskSteps

namespace AurixVoice.Web.TaskHistory

open E2ee Traces

variable (crypto : Crypto) {h : TaskHistory}

lemma advanceInbound_received (h : TaskHistory) (m : Inbound) (p : E2eeGroup.Progress InboundAwait) :
    (h.advanceInbound m p).received = h.received ∧ (h.advanceInbound m p).given = h.given := by
  obtain ⟨g, next⟩ := p
  cases next <;> exact ⟨rfl, rfl⟩

lemma advanceRotate_received (h : TaskHistory) (p : E2eeGroup.Progress RotateAwait) :
    (h.advanceRotate p).received = h.received ∧
      ∀ g ∈ (h.advanceRotate p).given, g ∈ h.given ∨ g.departed = h.departed g.user := by
  obtain ⟨g, next⟩ := p
  cases next with
  | inr => exact ⟨rfl, fun g hg => .inl hg⟩
  | inl =>
    refine ⟨rfl, ?_⟩
    intro g hg
    rcases List.mem_append.mp hg with hg | hg
    · obtain ⟨u, -, rfl⟩ := Option.map_eq_some_iff.mp (Option.mem_toList.mp hg)
      exact .inr rfl
    · exact .inl hg

lemma act_history (h : TaskHistory) (e : GroupEvent) :
    (∀ m ∈ (h.act crypto e).received, m ∈ h.received ∨ m.receivedAt = h.now) ∧
      ∀ g ∈ (h.act crypto e).given, g ∈ h.given ∨ g.departed = h.departed g.user := by
  cases e with
  | receive =>
    simp only [act]
    split
    · exact ⟨fun m hm => .inl hm, fun g hg => .inl hg⟩
    · refine ⟨?_, fun g hg => .inl hg⟩
      intro m hm
      rcases List.mem_cons.mp hm with rfl | hm
      · exact .inr rfl
      · exact .inl hm
  | start coins =>
    simp only [act]
    split
    next m queue _ _ =>
      obtain ⟨hreceived, hgiven⟩ := advanceInbound_received { h with queue := queue } m (h.group.startInbound m)
      rw [hreceived, hgiven]
      exact ⟨fun m hm => .inl hm, fun g hg => .inl hg⟩
    next force queue _ _ =>
      obtain ⟨hreceived, hgiven⟩ :=
        advanceRotate_received { h with queue := queue } (h.group.startRotate coins force)
      rw [hreceived]
      exact ⟨fun m hm => .inl hm, hgiven⟩
    · exact ⟨fun m hm => .inl hm, fun g hg => .inl hg⟩
  | resume coins =>
    simp only [act]
    split
    · exact ⟨fun m hm => .inl hm, fun g hg => .inl hg⟩
    · obtain ⟨hreceived, hgiven⟩ := advanceInbound_received h _ (h.group.resumeInbound _ crypto coins _)
      rw [hreceived, hgiven]
      exact ⟨fun m hm => .inl hm, fun g hg => .inl hg⟩
    · obtain ⟨hreceived, hgiven⟩ := advanceRotate_received h (h.group.resumeRotate crypto coins _)
      rw [hreceived]
      exact ⟨fun m hm => .inl hm, hgiven⟩
  | peerLeft =>
    simp only [act]
    split <;> exact ⟨fun m hm => .inl hm, fun g hg => .inl hg⟩
  | _ => exact ⟨fun m hm => .inl hm, fun g hg => .inl hg⟩

structure Follows (s h : TaskHistory) : Prop where
  now_le : s.now ≤ h.now
  received : ∀ m ∈ h.received, m.receivedAt < s.now → m ∈ s.received
  departed : ∀ u c, s.departed u c ≤ h.departed u c
  given : ∀ g ∈ h.given, s.now ≤ g.time → ∀ c, s.departed g.user c ≤ g.departed c

lemma Follows.refl (hh : h.Sound) : Follows h h where
  now_le := le_refl _
  received _ hm _ := hm
  departed _ _ := le_refl _
  given g hg hle := absurd (hh.given g hg).1 (by omega)

lemma Follows.step {s : TaskHistory} (hs : Follows s h) (hh : h.Sound) (e : GroupEvent) :
    Follows s (h.step crypto e) := by
  obtain ⟨hreceived, hgiven⟩ := act_history crypto h e
  have hnow := hs.now_le
  refine ⟨Nat.le_succ_of_le hnow, ?_, ?_, ?_⟩
  · intro m hm hlt
    rcases hreceived m hm with hm | heq
    · exact hs.received m hm hlt
    · omega
  · intro u c
    refine (hs.departed u c).trans ?_
    by_cases hD : h.Departs u c e
    · rw [departed_of_departs crypto hD]
      exact (hh.departed_lt u c).le
    · rw [departed_of_not crypto hD]
  · intro g hg hle c
    rcases hgiven g hg with hg | heq
    · exact hs.given g hg hle c
    · rw [heq]
      exact hs.departed g.user c

/-- Whenever no task runs, every peer is known in joined channels only; and once a user has departed
from all shared channels, a rotation gives them a key only after a message that was received later. -/
theorem interleavings_tolerated (identity : IdentityKey) (secret : Secret) (before es : List GroupEvent)
    (hes : Meets (step crypto) (Timely crypto) (init identity secret) (before ++ es)) :
    let s := before.foldl (step crypto) (init identity secret)
    let s' := es.foldl (step crypto) s
    (s'.running = none → ∀ u peer, s'.group.peers.find u = some peer →
      peer.channels.Nonempty ∧ peer.channels ⊆ s'.group.channelSet) ∧
    ∀ u, s.Departed u → ∀ g ∈ s'.given, g.user = u → s.now ≤ g.time →
      ∃ p ∈ s'.processed, p.message.user = u ∧ s.now ≤ p.message.receivedAt ∧ p.time < g.time := by
  intro s s'
  obtain ⟨hbefore, hafter⟩ := (meets_append _ _ _ _ _).mp hes
  have hs : s.Sound :=
    meets_invariant Sound (fun h e hh hok => step_sound crypto hh hok) hbefore (init_sound identity secret)
  have hs' : s'.Sound ∧ Follows s s' := by
    refine meets_invariant (fun h => h.Sound ∧ Follows s h) ?_ hafter ⟨hs, .refl hs⟩
    intro h e hh hok
    exact ⟨step_sound crypto hh.1 hok, hh.2.step crypto hh.1 e⟩
  refine ⟨?_, ?_⟩
  · intro _ u peer hu
    obtain ⟨hne, hall⟩ := hs'.1.members u peer hu
    exact ⟨hne, fun c hc => (hall c hc).1⟩
  · rintro u hgone g hg rfl hle
    obtain ⟨-, p, hp, hpu, hlt, htime⟩ := hs'.1.given g hg
    refine ⟨p, hp, hpu, ?_, htime⟩
    by_contra hearly
    have hmem := hs'.2.received p.message (hs'.1.processed p hp).1 (by omega)
    have hdeparted := hgone p.message hmem hpu
    have hlater := hs'.2.given g hg hle p.message.channel
    omega

def sampleInit : TaskHistory := init (.fromBytes .masks (Vector.replicate 32 255))
    (Vector.replicate 32 5)

def sampleCoins : Coins := .sorted (Vector.replicate 32 9)

def sampleHello : Body := .hello (List.replicate 32 1)

def sampleRun : List GroupEvent :=
  [.receive 7 2 sampleHello, .start sampleCoins, .resume sampleCoins, .resume sampleCoins,
    .requestRotate true, .start sampleCoins, .resume sampleCoins, .resume sampleCoins, .resume sampleCoins]

theorem interleavings_tolerated_sample :
    let s := [.joined 7, .peerLeft 7 2].foldl (step .masks) sampleInit
    let s' := sampleRun.foldl (step .masks) s
    s'.given.map Given.user = [2] ∧ s.Departed 2 ∧
      ∀ g ∈ s'.given, g.user = 2 → s.now ≤ g.time →
        ∃ p ∈ s'.processed, p.message.user = 2 ∧ s.now ≤ p.message.receivedAt ∧ p.time < g.time := by
  intro s s'
  have hgone : s.Departed 2 := nofun
  refine ⟨by decide +kernel, hgone, ?_⟩
  refine (interleavings_tolerated .masks _ _ [.joined 7, .peerLeft 7 2] sampleRun ?_).2 2 hgone
  refine ⟨fun _ => False.elim, fun _ => False.elim, fun _ => False.elim, ?_, ?_, ?_, fun _ => False.elim, ?_, ?_,
    ?_, ?_, trivial⟩
  · rintro m ⟨-, -, -, bytes, pk, -, -, peer, hpeer, -⟩
    cases hpeer
  · rintro m ⟨pc, hpc, -⟩
    cases hpc
    decide
  · rintro m ⟨pc, hpc, henters⟩
    cases hpc
    cases henters
  · rintro m ⟨-, ⟨queue, hqueue⟩, -⟩
    cases hqueue
  all_goals
    rintro m ⟨pc, hpc, -⟩
    cases hpc

theorem departed_user_entered_again :
    let s := [.joined 7, .receive 7 2 sampleHello, .start sampleCoins, .peerLeft 7 2].foldl (step .masks) sampleInit
    let s' := [.resume sampleCoins, .resume sampleCoins, .requestRotate true, .start sampleCoins,
      .resume sampleCoins, .resume sampleCoins, .resume sampleCoins].foldl (step .masks) s
    s.Departed 2 ∧ (∀ m ∈ s'.received, m.receivedAt < s.now) ∧ ∃ g ∈ s'.given, g.user = 2 ∧ s.now ≤ g.time := by
  decide +kernel

end AurixVoice.Web.TaskHistory
