import AurixVoice.E2ee.History

namespace AurixVoice.E2ee

variable (crypto : Crypto)

namespace Group

lemma wrapAll_fresh (g : Group) (coins : Coins) :
    let g' := (wrapAll crypto coins (coins.users g.peers.keys) (g.fresh crypto coins)).2
    g'.secret = coins.secret ∧ g'.key = .derive crypto (g.key.generation + 1) coins.secret ∧
      g'.rotationPending = false ∧ ∀ u, g'.known u = g.known u := by
  obtain ⟨hkeep, hknown⟩ := wrapAll_keepsKey crypto coins (coins.users g.peers.keys) (g.fresh crypto coins)
  refine ⟨hkeep.secret, hkeep.key, ?_, hknown⟩
  exact wrapAll_pending crypto coins _ _

variable {g : Group} {op : GroupOp} {coins : Coins}

lemma apply_keepsKey (h : (g.apply crypto coins op).1.drew = false) : KeepsKey g (g.apply crypto coins op).2 := by
  cases op with
  | joined c => exact joined_keepsKey g c
  | rejoined c members => exact rejoined_keepsKey g coins c members
  | left c => exact left_keepsKey g coins c
  | reset => exact reset_keepsKey g
  | peerLeft c u => exact peerLeft_keepsKey g c u
  | hello c u pk => exact onHello_keepsKey crypto g coins c u pk
  | senderKey c u pk generation wrapped => exact onSenderKey_keepsKey crypto g coins c u pk generation wrapped
  | rotate force =>
    obtain ⟨-, hrotate⟩ | ⟨hdue, -⟩ := rotate_cases crypto g coins force
    · simp only [apply, hrotate]
      exact .refl g
    · exact absurd (hdue.symm.trans h) (by decide)
  | encrypt plain => exact encrypt_keepsKey crypto g plain
  | decrypt u frame => exact decrypt_keepsKey crypto g u frame

lemma apply_drew (h : (g.apply crypto coins op).1.drew = true) :
    (g.apply crypto coins op).2.secret = coins.secret ∧
      (g.apply crypto coins op).2.key = .derive crypto (g.key.generation + 1) coins.secret ∧
      (∀ u, (g.apply crypto coins op).2.known u = g.known u) ∧ (g.apply crypto coins op).1.frame = none := by
  cases op with
  | rotate force =>
    obtain ⟨hdue, -⟩ | ⟨-, hrotate⟩ := rotate_cases crypto g coins force
    · exact absurd (hdue.symm.trans h) (by decide)
    · obtain ⟨hs, hk, -, hknown⟩ := wrapAll_fresh crypto g coins
      simp only [apply, hrotate]
      exact ⟨hs, hk, hknown, trivial⟩
  | _ => cases h

lemma apply_frame {frame : Bytes} (h : (g.apply crypto coins op).1.frame = some frame) :
    ∃ counter plain, frame = g.key.sealFrame crypto counter plain := by
  cases op with
  | encrypt plain => exact ⟨g.counter, plain, (Option.some.inj h).symm⟩
  | _ => cases h

lemma replyOut_mem {r : Except AurixError (List Outgoing × Option PeerChange)} {m : Outgoing}
    (h : m ∈ replyOut r) : ∃ out change, r = .ok (out, change) ∧ m ∈ out := by
  cases r with
  | error => cases h
  | ok reply => exact ⟨reply.1, reply.2, rfl, h⟩

lemma apply_out {c : ChannelId} {u : UserId} {generation : UInt8} {wrapped : Bytes}
    (h : Outgoing.senderKey c u generation wrapped ∈ (g.apply crypto coins op).1.out) :
    generation = (g.apply crypto coins op).2.key.generation ∧
      (g.apply crypto coins op).2.known u = g.known u ∧
      ((g.apply crypto coins op).1.drew = true ∨ g.Rewraps crypto u op) := by
  cases op with
  | joined =>
    simp only [apply, joined] at h
    split at h <;> simp at h
  | rejoined =>
    simp only [apply, rejoined, joined] at h
    split at h
    · simp at h
    · simp at h
  | hello c' v pk =>
    have hkey := (onHello_keepsKey crypto g coins c' v pk).key
    obtain ⟨out, change, hok, hm⟩ := replyOut_mem h
    obtain ⟨⟨_, _, heq⟩, hc, hk, hwrap, hk'⟩ := onHello_out crypto hok hm
    cases heq
    exact ⟨by rw [apply, hkey], hk'.trans hk.symm, .inr ⟨rfl, hc, hk, hwrap⟩⟩
  | senderKey c' v pk generation' wrapped' =>
    have hkey := (onSenderKey_keepsKey crypto g coins c' v pk generation' wrapped').key
    obtain ⟨out, change, hok, hm⟩ := replyOut_mem h
    obtain ⟨⟨_, _, heq⟩, hc, hk, hwrap, hneeds, hunwrap, hk'⟩ := onSenderKey_out crypto hok hm
    cases heq
    exact ⟨by rw [apply, hkey], hk'.trans hk.symm, .inr ⟨rfl, hc, hk, hwrap, hneeds, hunwrap⟩⟩
  | rotate force =>
    obtain ⟨hdue, -⟩ | ⟨hdue, hrotate⟩ := rotate_cases crypto g coins force
    · simp [apply, rotateWraps, hdue] at h
    · obtain ⟨-, hkey, -, hknown⟩ := wrapAll_fresh crypto g coins
      simp only [apply, rotateWraps, hdue, ↓reduceIte] at h
      obtain ⟨_, _, _, _, heq, -⟩ := wrapAll_out crypto h
      cases heq
      refine ⟨?_, ?_, .inl hdue⟩
      · change _ = (g.rotate crypto coins force).2.key.generation
        rw [hrotate, hkey]
        rfl
      · simp [apply, hrotate, hknown]
  | _ => cases h

end Group

namespace History

structure Consistent (h : History) : Prop where
  born_lt : h.born < h.now
  learned_lt : ∀ u, h.learned u < h.now
  derived : h.group.key = .derive crypto h.group.key.generation h.group.secret
  current : (h.born, h.group.secret) ∈ h.draws
  wraps : ∀ w ∈ h.wraps, (w.bornAt, w.secret) ∈ h.draws ∧ w.bornAt ≤ h.born
  frames : ∀ f ∈ h.frames, (f.bornAt, f.secret) ∈ h.draws ∧ f.bornAt < f.sealedAt ∧
    ∃ counter plain, f.frame =
      (SenderKey.derive crypto f.generation f.secret).sealFrame crypto counter plain

lemma init_consistent (identity : IdentityKey) (secret : Secret) :
    (init crypto identity secret).Consistent crypto where
  born_lt := zero_lt_one
  learned_lt _ := zero_lt_one
  derived := rfl
  current := List.mem_singleton.mpr rfl
  wraps w hw := by cases hw
  frames f hf := by cases hf

lemma step_draws_subset (h : History) (e : Coins × GroupOp) : h.draws ⊆ (h.step crypto e).draws := by
  intro d hd
  simp only [step]
  split
  · exact List.mem_cons_of_mem _ hd
  · exact hd

lemma step_born (h : History) (e : Coins × GroupOp) :
    ((h.group.apply crypto e.1 e.2).1.drew = true ∧ (h.step crypto e).born = h.now) ∨
      ((h.group.apply crypto e.1 e.2).1.drew = false ∧ (h.step crypto e).born = h.born) := by
  cases hd : (h.group.apply crypto e.1 e.2).1.drew with
  | true => exact .inl ⟨rfl, by simp [step, hd]⟩
  | false => exact .inr ⟨rfl, by simp [step, hd]⟩

variable {h : History} (e : Coins × GroupOp)

lemma born_le_step (hh : h.Consistent crypto) : h.born ≤ (h.step crypto e).born := by
  have hb := hh.born_lt
  obtain ⟨-, he⟩ | ⟨-, he⟩ := step_born crypto h e <;> omega

lemma step_learned {e : Coins × GroupOp} {u : UserId} (hk : (h.step crypto e).group.known u = h.group.known u) :
    (h.step crypto e).learned u = h.learned u := if_pos hk

lemma step_current (hh : h.Consistent crypto) :
    ((h.step crypto e).born, (h.step crypto e).group.secret) ∈ (h.step crypto e).draws := by
  cases hd : (h.group.apply crypto e.1 e.2).1.drew with
  | true =>
    have hs := (Group.apply_drew crypto hd).1
    simp [step, hd, hs]
  | false =>
    have hs := (Group.apply_keepsKey crypto hd).secret
    simpa [step, hd, hs] using hh.current

lemma step_derived (hh : h.Consistent crypto) :
    (h.step crypto e).group.key =
      .derive crypto (h.step crypto e).group.key.generation (h.step crypto e).group.secret := by
  change (h.group.apply crypto e.1 e.2).2.key = .derive crypto (h.group.apply crypto e.1 e.2).2.key.generation
    (h.group.apply crypto e.1 e.2).2.secret
  cases hd : (h.group.apply crypto e.1 e.2).1.drew with
  | true =>
    obtain ⟨hs, hk, -⟩ := Group.apply_drew crypto hd
    rw [hs, hk]
    rfl
  | false =>
    have hkeep := Group.apply_keepsKey crypto hd
    rw [hkeep.secret, hkeep.key]
    exact hh.derived

lemma step_wraps {e : Coins × GroupOp} {w : Wrap} (hw : w ∈ (h.step crypto e).wraps) :
    w ∈ h.wraps ∨
      (w.bornAt = (h.step crypto e).born ∧ w.secret = (h.step crypto e).group.secret ∧
        w.learnedAt = h.learned w.user ∧ h.group.known w.user = some w.publicKey ∧
        ((h.group.apply crypto e.1 e.2).1.drew = true ∨ h.group.Rewraps crypto w.user e.2)) := by
  rcases List.mem_append.mp hw with hnew | hold
  · obtain ⟨m, hm, hwrap⟩ := List.mem_filterMap.mp hnew
    cases m with
    | hello => cases hwrap
    | senderKey =>
      obtain ⟨-, hknown, hcause⟩ := Group.apply_out crypto hm
      obtain ⟨pk, hpk, rfl⟩ := Option.map_eq_some_iff.mp hwrap
      exact .inr ⟨rfl, rfl, step_learned crypto hknown, hknown.symm.trans hpk, hcause⟩
  · exact .inl hold

lemma step_frames {e : Coins × GroupOp} {f : SealedFrame} (hh : h.Consistent crypto)
    (hf : f ∈ (h.step crypto e).frames) :
    f ∈ h.frames ∨
      (f.bornAt = h.born ∧ f.secret = h.group.secret ∧ f.sealedAt = h.now ∧
        ∃ counter plain, f.frame =
          (SenderKey.derive crypto f.generation f.secret).sealFrame crypto counter plain) := by
  simp only [step] at hf
  split at hf
  · exact .inl hf
  next frame hframe =>
    rcases List.mem_cons.mp hf with rfl | hf
    · cases hd : (h.group.apply crypto e.1 e.2).1.drew with
      | true =>
        have hnone := (Group.apply_drew crypto hd).2.2.2
        cases hnone.symm.trans hframe
      | false =>
        have hkeep := Group.apply_keepsKey crypto hd
        obtain ⟨counter, plain, rfl⟩ := Group.apply_frame crypto hframe
        refine .inr ⟨rfl, hkeep.secret, rfl, counter, plain, ?_⟩
        simp only [hkeep.key, hkeep.secret]
        rw [← hh.derived]
    · exact .inl hf

lemma step_consistent (hh : h.Consistent crypto) : (h.step crypto e).Consistent crypto where
  born_lt := by
    have hb := hh.born_lt
    change (h.step crypto e).born < h.now + 1
    obtain ⟨-, he⟩ | ⟨-, he⟩ := step_born crypto h e <;> omega
  learned_lt u := by
    have hl := hh.learned_lt u
    by_cases hk : (h.step crypto e).group.known u = h.group.known u
    · rw [step_learned crypto hk]
      exact Nat.lt_succ_of_lt hl
    · exact (if_neg hk).trans_lt (Nat.lt_succ_self h.now)
  derived := step_derived crypto e hh
  current := step_current crypto e hh
  wraps w hw := by
    obtain hold | ⟨hb, hs, -⟩ := step_wraps crypto hw
    · obtain ⟨hdraw, hle⟩ := hh.wraps w hold
      exact ⟨step_draws_subset crypto h e hdraw, hle.trans (born_le_step crypto e hh)⟩
    · rw [hb, hs]
      exact ⟨step_current crypto e hh, le_refl _⟩
  frames f hf := by
    obtain hold | ⟨hb, hs, ht, hseal⟩ := step_frames crypto hh hf
    · obtain ⟨hd, hrest⟩ := hh.frames f hold
      exact ⟨step_draws_subset crypto h e hd, hrest⟩
    · refine ⟨step_draws_subset crypto h e ?_, ?_, hseal⟩
      · rw [hb, hs]
        exact hh.current
      · rw [hb, ht]
        exact hh.born_lt

lemma secret_ne_of_born_ne {t t' : ℕ} {s s' : Secret} (hnodup : h.secrets.Nodup) (hd : (t, s) ∈ h.draws)
    (hd' : (t', s') ∈ h.draws) (hne : t ≠ t') : s ≠ s' := by
  intro heq
  have hpair := List.inj_on_of_nodup_map hnodup hd hd' heq
  exact hne (congrArg Prod.fst hpair)

lemma not_opens_of_born_ne (hnodup : h.secrets.Nodup) (hmac : Unforgeable crypto h.secrets) {t t' : ℕ}
    {s s' : Secret} (hd : (t, s) ∈ h.draws) (hd' : (t', s') ∈ h.draws) (hne : t ≠ t') (generation generation' : UInt8)
    (counter : UInt32) (plain plain' : Bytes) :
    (SenderKey.derive crypto generation s).openFrame crypto
      ((SenderKey.derive crypto generation' s').sealFrame crypto counter plain) ≠ .ok plain' := by
  apply hmac s (List.mem_map_of_mem hd) s' (List.mem_map_of_mem hd')
  exact secret_ne_of_born_ne hnodup hd hd' hne

end History

end AurixVoice.E2ee
