import AurixVoice.E2ee.Group

namespace AurixVoice.E2ee

variable (crypto : Crypto)

def PeerKeys.Seals (keys : PeerKeys) (frame plain : Bytes) : Prop :=
  ∃ e ∈ keys.generations, ∃ counter, frame = e.1.sealFrame crypto counter plain

/-- `plain` is what `decrypt` returns for `frame` as a frame of `u`, and one of the sender keys of `u`
sealed it. -/
def Group.Speaks (g : Group) (u : UserId) (frame plain : Bytes) : Prop :=
  (g.decrypt crypto u frame).1 = .ok plain ∧
    ∃ peer, g.peers.find u = some peer ∧ peer.keys.Seals crypto frame plain

variable {crypto}

lemma PeerKeys.seals_of_openFrame {keys : PeerKeys} {frame plain : Bytes}
    (h : (keys.openFrame crypto frame).1 = .ok plain) : keys.Seals crypto frame plain := by
  rcases openFrame_cases crypto keys frame with ⟨e, heq⟩ | ⟨key, replay, _, plain', -, hmem, hopen, -, heq⟩
  · rw [heq] at h
    cases h
  · rw [heq] at h
    obtain rfl : plain' = plain := Except.ok.inj h
    exact ⟨_, hmem, (SenderKey.openFrame_eq_ok_iff key frame plain').mp hopen⟩

lemma PeerKeys.Seals.ne {keys : PeerKeys} {frame plain : Bytes} (h : keys.Seals crypto frame plain) :
    frame ≠ plain := by
  obtain ⟨e, -, counter, hframe⟩ := h
  intro heq
  have hlen : (e.1.sealFrame crypto counter plain).length = plain.length + frameOverhead :=
    SenderKey.sealFrame_length ..
  rw [← hframe, heq] at hlen
  simp only [frameOverhead, frameHeaderLen, frameTagLen] at hlen
  omega

lemma Group.decrypt_eq_ok {g g' : Group} {u : UserId} {frame plain : Bytes}
    (h : g.decrypt crypto u frame = (.ok plain, g')) : g.Speaks crypto u frame plain := by
  refine ⟨congrArg Prod.fst h, ?_⟩
  unfold decrypt at h
  split at h
  · cases congrArg Prod.fst h
  next peer hpeer => exact ⟨peer, hpeer, PeerKeys.seals_of_openFrame (congrArg Prod.fst h)⟩

lemma Group.Speaks.ne {g : Group} {u : UserId} {frame plain : Bytes} (h : g.Speaks crypto u frame plain) :
    frame ≠ plain := by
  obtain ⟨-, peer, -, hseals⟩ := h
  exact hseals.ne

end AurixVoice.E2ee
