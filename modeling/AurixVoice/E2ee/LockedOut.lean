import AurixVoice.E2ee.HistoryFacts

/-! A dropped identity is locked out by the next rotation; `Dropped` is what a run keeps from the drop on. -/

namespace AurixVoice.E2ee.History

open Traces
open Vector (replicate)

variable (crypto : Crypto)

structure Dropped (u : UserId) (pk : PublicKey) (d : ℕ) (h : History) : Prop where
  consistent : h.Consistent crypto
  past : d < h.now
  due : h.group.rotationPending = true ∨ d < h.born
  wraps : ∀ w ∈ h.wraps, w.user = u → w.publicKey = pk → w.bornAt ≤ d

variable {h : History} {e : Coins × GroupOp} {u : UserId} {pk : PublicKey} {d : ℕ}

lemma known_of_drew (u : UserId) (hd : (h.group.apply crypto e.1 e.2).1.drew = true) :
    (h.step crypto e).group.known u = h.group.known u :=
  (Group.apply_drew crypto hd).2.2.1 u

lemma keepsKey_of_not_drew (hd : (h.group.apply crypto e.1 e.2).1.drew = false) :
    h.group.KeepsKey (h.step crypto e).group := Group.apply_keepsKey crypto hd

lemma drop_pending (hknown : h.group.known u = some pk) (hdrop : (h.step crypto e).group.known u ≠ some pk) :
    (h.step crypto e).group.rotationPending = true := by
  cases hd : (h.group.apply crypto e.1 e.2).1.drew with
  | true => exact absurd ((known_of_drew crypto u hd).trans hknown) hdrop
  | false => exact (keepsKey_of_not_drew crypto hd).changed u (hknown ▸ hdrop)

lemma drop_dropped (hh : h.Consistent crypto) (hknown : h.group.known u = some pk)
    (hdrop : (h.step crypto e).group.known u ≠ some pk) : (h.step crypto e).Dropped crypto u pk h.now where
  consistent := step_consistent crypto e hh
  past := Nat.lt_succ_self h.now
  due := .inl (drop_pending crypto hknown hdrop)
  wraps := by
    intro w hw _ _
    have hstep := step_consistent crypto e hh
    have hborn : (h.step crypto e).born < h.now + 1 := hstep.born_lt
    have hle := (hstep.wraps w hw).2
    omega

lemma step_dropped (h : History) (e : Coins × GroupOp) (hd : h.Dropped crypto u pk d)
    (hnot : h.group.known u ≠ some pk) :
    (h.step crypto e).Dropped crypto u pk d where
  consistent := step_consistent crypto e hd.consistent
  past := Nat.lt_succ_of_lt hd.past
  due := by
    obtain ⟨-, hborn⟩ | ⟨hdrew, hborn⟩ := step_born crypto h e
    · exact .inr (hborn ▸ hd.past)
    · rw [hborn]
      exact hd.due.imp_left (keepsKey_of_not_drew crypto hdrew).pending
  wraps := by
    intro w hw hu hpk
    obtain hold | ⟨-, -, -, hknown, -⟩ := step_wraps crypto hw
    · exact hd.wraps w hold hu hpk
    · exact absurd (hu ▸ hpk ▸ hknown) hnot

lemma rotate_renews (hd : h.Dropped crypto u pk d) (coins : Coins) (force : Bool) :
    d < (h.step crypto (coins, .rotate force)).born := by
  have hpast := hd.past
  rcases hd.due with hpending | hborn
  · have hdrew : (h.group.apply crypto coins (.rotate force)).1.drew = true := by
      simp [Group.apply, hpending]
    obtain ⟨-, he⟩ | ⟨hfalse, -⟩ := step_born crypto h (coins, .rotate force)
    · omega
    · exact absurd (hdrew.symm.trans hfalse) (by decide)
  · exact hborn.trans_le (born_le_step crypto _ hd.consistent)

lemma dropped_not_opens (hd : h.Dropped crypto u pk d) (hborn : d < h.born) (hnodup : h.secrets.Nodup)
    (hmac : Unforgeable crypto h.secrets) {w : Wrap} (hw : w ∈ h.wraps) (hu : w.user = u) (hpk : w.publicKey = pk)
    (plain plain' : Bytes) :
    (SenderKey.derive crypto w.generation w.secret).openFrame crypto
      (h.group.encrypt crypto plain).1 ≠ .ok plain' := by
  have hle := hd.wraps w hw hu hpk
  have hdraw := (hd.consistent.wraps w hw).1
  change SenderKey.openFrame crypto _ (h.group.key.sealFrame crypto h.group.counter plain) ≠ _
  rw [hd.consistent.derived]
  exact not_opens_of_born_ne crypto hnodup hmac hdraw hd.consistent.current (by omega) _ _ _ _ _

/-- Whatever step drops an identity leaves a rotation pending, and after the next `rotate` no frame
opens with a sender key ever wrapped for that identity, until it is learned again. -/
theorem departed_identity_locked_out (identity : IdentityKey) (secret : Secret)
    (before : List (Coins × GroupOp)) (e : Coins × GroupOp) (u : UserId) (pk : PublicKey) :
    let h := before.foldl (step crypto) (init crypto identity secret)
    h.group.known u = some pk → (h.step crypto e).group.known u ≠ some pk →
    (h.step crypto e).group.rotationPending = true ∧
      ∀ (mid : List (Coins × GroupOp)) (coins : Coins) (force : Bool) (rest : List (Coins × GroupOp)),
        let es := mid ++ (coins, .rotate force) :: rest
        let h' := es.foldl (step crypto) (h.step crypto e)
        Meets (step crypto) (fun s _ => s.group.known u ≠ some pk) (h.step crypto e) es →
        h'.secrets.Nodup → Unforgeable crypto h'.secrets →
        ∀ w ∈ h'.wraps, w.user = u → w.publicKey = pk → ∀ plain plain',
          (SenderKey.derive crypto w.generation w.secret).openFrame crypto
            (h'.group.encrypt crypto plain).1 ≠ .ok plain' := by
  intro h hknown hdrop
  refine ⟨drop_pending crypto hknown hdrop, ?_⟩
  intro mid coins force rest es h' hes hnodup hmac w hw hu hpk plain plain'
  have hh : h.Consistent crypto :=
    foldl_invariant (Consistent crypto) (fun s e hs => step_consistent crypto e hs) before
      (init_consistent crypto identity secret)
  obtain ⟨hmid, hnot, hrest⟩ := (meets_append _ _ _ _ _).mp hes
  have hbefore := meets_invariant (Dropped crypto u pk h.now) (step_dropped crypto) hmid
    (drop_dropped crypto hh hknown hdrop)
  have hafter := meets_invariant
    (fun s => s.Dropped crypto u pk h.now ∧ h.now < s.born)
    (fun s e hs hn => ⟨step_dropped crypto s e hs.1 hn,
      hs.2.trans_le (born_le_step crypto e hs.1.consistent)⟩) hrest
    ⟨step_dropped crypto _ _ hbefore hnot, rotate_renews crypto hbefore coins force⟩
  rw [← List.foldl_cons, ← List.foldl_append] at hafter
  exact dropped_not_opens crypto hafter.1 hafter.2 hnodup hmac hw hu hpk plain plain'

theorem departed_identity_locked_out_sample :
    let pk : PublicKey := replicate 32 1
    let before : List (Coins × GroupOp) :=
      [(.sorted (replicate 32 0), .joined 7), (.sorted (replicate 32 0), .hello 7 2 pk),
        (.sorted (replicate 32 3), .rotate true)]
    let h := before.foldl (step .masks)
      (init .masks (.fromBytes .masks (replicate 32 255)) (replicate 32 5))
    let dropped := h.step .masks (.sorted (replicate 32 0), .reset)
    let h' := dropped.step .masks (.sorted (replicate 32 4), .rotate false)
    dropped.group.rotationPending = true ∧
      ∀ w ∈ h'.wraps, w.user = 2 → w.publicKey = pk → ∀ plain plain',
        (SenderKey.derive .masks w.generation w.secret).openFrame .masks
          (h'.group.encrypt .masks plain).1 ≠ .ok plain' := by
  intro pk before h dropped h'
  have hknown : h.group.known 2 = some pk :=
    known_of_drew .masks (h := (before.take 2).foldl (step .masks) (init .masks _ _))
      (e := (.sorted (replicate 32 3), .rotate true)) 2 rfl
  have hsecrets : h'.secrets = [replicate 32 4, replicate 32 3, replicate 32 5] := rfl
  have hgone : dropped.group.known 2 ≠ some pk := nofun
  obtain ⟨hpending, hlocked⟩ := departed_identity_locked_out .masks _ _ before
    (.sorted (replicate 32 0), .reset) 2 pk hknown hgone
  refine ⟨hpending, hlocked [] (.sorted (replicate 32 4)) false [] ⟨hgone, trivial⟩ ?_ ?_⟩
  · change h'.secrets.Nodup
    decide
  · change Unforgeable .masks h'.secrets
    rw [hsecrets]
    apply masks_unforgeable
    simp

end AurixVoice.E2ee.History
