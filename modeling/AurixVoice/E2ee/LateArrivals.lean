import AurixVoice.E2ee.HistoryFacts

/-! Which secrets a late arrival is given: a rotation wraps a new one, replies wrap the current one. -/

namespace AurixVoice.E2ee.History

open Traces
open Vector (replicate)

variable (crypto : Crypto)

/-- No peer is answered while a rotation is pending, as it is from the time the peer is learned. -/
def AnswersRotated (h : History) (e : Coins × GroupOp) : Prop :=
  ∀ u, h.group.Rewraps crypto u e.2 → h.group.rotationPending = false

/-- Once no rotation is pending, the current secret is younger than every peer's identity key here. -/
def Rotated (h : History) : Prop :=
  h.group.rotationPending = false → ∀ u pk, h.group.known u = some pk → h.learned u < h.born

def Postdated (h : History) : Prop := ∀ w ∈ h.wraps, w.learnedAt < w.bornAt

variable {h : History}

lemma rotate_pending (h : History) (coins : Coins) :
    (h.step crypto (coins, .rotate true)).group.rotationPending = false := by
  obtain ⟨hdue, -⟩ | ⟨-, hrotate⟩ := Group.rotate_cases crypto h.group coins true
  · cases hdue
  · change (h.group.rotate crypto coins true).2.rotationPending = false
    rw [hrotate]
    exact (Group.wrapAll_fresh crypto h.group coins).2.2.1

lemma step_rotated (e : Coins × GroupOp) (hh : h.Consistent crypto) (hr : h.Rotated) : (h.step crypto e).Rotated := by
  intro hpending u pk hknown
  obtain ⟨hdrew, hborn⟩ | ⟨hdrew, hborn⟩ := step_born crypto h e
  · have hsame : (h.step crypto e).group.known u = h.group.known u :=
      (Group.apply_drew crypto hdrew).2.2.1 u
    rw [hborn, step_learned crypto hsame]
    exact hh.learned_lt u
  · -- the call has asked for no rotation, so it has left every peer's key as it was
    have hkeep : h.group.KeepsKey (h.step crypto e).group := Group.apply_keepsKey crypto hdrew
    have hsame : (h.step crypto e).group.known u = h.group.known u := by
      by_contra hne
      exact absurd (hkeep.changed u hne) (by simp [hpending])
    rw [hborn, step_learned crypto hsame]
    exact hr (hkeep.settled hpending) u pk (hsame.symm.trans hknown)

lemma step_postdated {e : Coins × GroupOp} (hh : h.Consistent crypto) (hr : h.Rotated)
    (hp : h.Postdated) (hok : h.AnswersRotated crypto e) : (h.step crypto e).Postdated := by
  intro w hw
  obtain hold | ⟨hborn, -, hlearned, hknown, hcause⟩ := step_wraps crypto hw
  · exact hp w hold
  · rw [hborn, hlearned]
    obtain ⟨-, he⟩ | ⟨hdrew, he⟩ := step_born crypto h e
    · rw [he]
      exact hh.learned_lt w.user
    · rw [he]
      have hanswer := hcause.resolve_left (by simp [hdrew])
      exact hr (hok w.user hanswer) w.user w.publicKey hknown

lemma not_opens_of_sealed_before (hh : h.Consistent crypto) (hp : h.Postdated)
    (hnodup : h.secrets.Nodup) (hmac : Unforgeable crypto h.secrets) {w : Wrap} (hw : w ∈ h.wraps)
    {f : SealedFrame} (hf : f ∈ h.frames) (hbefore : f.sealedAt < w.learnedAt) : ¬ w.Opens crypto f := by
  rintro ⟨plain, hopen⟩
  obtain ⟨hdraw, hsealed, counter, plain', hframe⟩ := hh.frames f hf
  have hlate := hp w hw
  rw [hframe] at hopen
  exact not_opens_of_born_ne crypto hnodup hmac (hh.wraps w hw).1 hdraw (by omega) _ _ _ _ _ hopen

/-- In every run that answers no peer while a rotation is pending, every wrapped secret is younger
than the peer's arrival, and opens no frame sealed before it. -/
theorem wrapped_secrets_postdate_arrival (identity : IdentityKey) (secret : Secret) (es : List (Coins × GroupOp))
    (hes : Meets (step crypto) (AnswersRotated crypto) (init crypto identity secret) es) :
    let h := es.foldl (step crypto) (init crypto identity secret)
    (∀ w ∈ h.wraps, w.learnedAt < w.bornAt) ∧
      (h.secrets.Nodup → Unforgeable crypto h.secrets →
        ∀ w ∈ h.wraps, ∀ f ∈ h.frames, f.sealedAt < w.learnedAt → ¬ w.Opens crypto f) := by
  intro h
  have hinit : (init crypto identity secret).Rotated ∧ (init crypto identity secret).Postdated :=
    ⟨fun _ _ _ hknown => (by cases hknown), fun _ hw => (by cases hw)⟩
  have hinv : h.Consistent crypto ∧ h.Rotated ∧ h.Postdated := by
    refine meets_invariant (fun h => h.Consistent crypto ∧ h.Rotated ∧ h.Postdated) ?_ hes
      ⟨init_consistent crypto identity secret, hinit⟩
    rintro s e ⟨hs, hr, hp⟩ hok
    exact ⟨step_consistent crypto e hs, step_rotated crypto e hs hr, step_postdated crypto hs hr hp hok⟩
  obtain ⟨hconsistent, -, hpostdated⟩ := hinv
  refine ⟨hpostdated, ?_⟩
  intro hnodup hmac w hw f hf hbefore
  exact not_opens_of_sealed_before crypto hconsistent hpostdated hnodup hmac hw hf hbefore

def sampleIdentity : IdentityKey := .fromBytes .masks (replicate 32 255)

def sampleKey : PublicKey := replicate 32 1

lemma sampleKey_wrappable : sampleIdentity.wrappable .masks sampleKey = true := by
  decide +kernel

theorem wrapped_secrets_postdate_arrival_sample :
    let es : List (Coins × GroupOp) :=
      [(.sorted (replicate 32 0), .joined 7), (.sorted (replicate 32 0), .encrypt [1]),
        (.sorted (replicate 32 0), .hello 7 2 sampleKey),
        (.sorted (replicate 32 3), .rotate true),
        (.sorted (replicate 32 0), .hello 7 2 sampleKey)]
    let h := es.foldl (step .masks) (init .masks sampleIdentity (replicate 32 5))
    (∀ w ∈ h.wraps, w.learnedAt < w.bornAt) ∧
      ∀ w ∈ h.wraps, ∀ f ∈ h.frames, f.sealedAt < w.learnedAt → ¬ w.Opens .masks f := by
  intro es h
  have hsecrets : h.secrets = [replicate 32 3, replicate 32 5] := rfl
  have hmeets : Meets (step .masks) (AnswersRotated .masks)
      (init .masks sampleIdentity (replicate 32 5)) es := by
    refine ⟨fun _ hr => hr.elim, fun _ hr => hr.elim, ?_, fun _ hr => hr.elim, ?_, trivial⟩
    · rintro u ⟨-, -, hknown, -⟩
      cases hknown
    · exact fun _ _ => rotate_pending .masks _ _
  obtain ⟨hlate, hlocked⟩ := wrapped_secrets_postdate_arrival .masks _ _ es hmeets
  refine ⟨hlate, hlocked ?_ ?_⟩
  · decide
  · rw [hsecrets]
    apply masks_unforgeable
    simp

lemma hello_of_known_wraps {c : ChannelId} {u : UserId} {pk : PublicKey} (coins : Coins)
    (hc : c ∈ h.group.channels) (hk : h.group.known u = some pk) (hw : h.group.identity.wrappable crypto pk = true) :
    ⟨u, pk, h.group.key.generation, h.group.secret, h.born, h.learned u⟩ ∈
      (h.step crypto (coins, .hello c u pk)).wraps := by
  obtain ⟨c', wrapped, hreply⟩ := Group.onHello_of_known crypto coins hc hk hw
  have hkeep := Group.onHello_keepsKey crypto h.group coins c u pk
  have hm : Outgoing.senderKey c' u h.group.key.generation wrapped ∈
      (h.group.apply crypto coins (.hello c u pk)).1.out := by
    simp [Group.apply, hreply, replyOut]
  have hknown : (h.group.onHello crypto coins c u pk).2.known u = h.group.known u :=
    (Group.apply_out crypto hm).2.1
  apply List.mem_append_left
  apply List.mem_filterMap.mpr
  refine ⟨_, hm, ?_⟩
  simp [wrapOf, hknown, hk, hkeep.secret]

theorem second_hello_opens_earlier_frame :
    let es : List (Coins × GroupOp) :=
      [(.sorted (replicate 32 0), .joined 7), (.sorted (replicate 32 0), .encrypt [1]),
        (.sorted (replicate 32 0), .hello 7 2 sampleKey),
        (.sorted (replicate 32 0), .hello 7 2 sampleKey)]
    let h := es.foldl (step .masks) (init .masks sampleIdentity (replicate 32 5))
    ∃ w ∈ h.wraps, ∃ f ∈ h.frames, w.bornAt < w.learnedAt ∧ f.sealedAt < w.learnedAt ∧ w.Opens .masks f := by
  intro es h
  let h' := (es.take 3).foldl (step .masks) (init .masks sampleIdentity (replicate 32 5))
  have hlearned : h'.learned 2 = 3 := rfl
  have hlast : ⟨2, sampleKey, 0, replicate 32 5, 0, h'.learned 2⟩ ∈ h.wraps :=
    hello_of_known_wraps .masks (.sorted (replicate 32 0)) (h := h') (by decide) rfl sampleKey_wrappable
  refine ⟨_, hlast, ⟨_, 0, replicate 32 5, 0, 2⟩, List.mem_singleton.mpr rfl, ?_, ?_, [1], ?_⟩
  · exact Nat.zero_lt_succ 2
  · exact Nat.lt_succ_self 2
  · exact SenderKey.openFrame_sealFrame _ 0 [1]

end AurixVoice.E2ee.History
