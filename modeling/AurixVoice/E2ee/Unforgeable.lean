import AurixVoice.E2ee.SenderKey

namespace AurixVoice.E2ee

/-- HMAC as it is specified: no frame sealed under one of the secrets passes the authentication of
a sender key derived from another. -/
def Unforgeable (crypto : Crypto) (secrets : List Secret) : Prop :=
  ∀ s ∈ secrets, ∀ s' ∈ secrets, s ≠ s' → ∀ generation generation' counter plain plain',
    (SenderKey.derive crypto generation s).openFrame crypto
      ((SenderKey.derive crypto generation' s').sealFrame crypto counter plain) ≠ .ok plain'

namespace SenderKey

lemma sealFrame_inj {crypto : Crypto} {k k' : SenderKey} {counter counter' : UInt32} {plain plain' : Bytes}
    (h : k.sealFrame crypto counter plain = k'.sealFrame crypto counter' plain') :
    ∃ body, k.tag crypto body = k'.tag crypto body := by
  refine ⟨k.header counter ++ aes256Ctr crypto k.enc (k.iv counter) plain, ?_⟩
  obtain ⟨hbody, htag⟩ := List.append_inj' h (by simp only [tag_length])
  rw [htag, hbody]

lemma masks_tag (k : SenderKey) (body : Bytes) : (k.tag .masks body).getD 0 0 = k.auth[0] ^^^ body.getD 0 0 := by
  simp [tag, Crypto.masks, pad32, frameTagLen]

lemma masks_auth (generation : UInt8) (s : Secret) :
    (derive .masks generation s).auth[0] = s[0] ^^^ (infoAuth ++ [1]).getD 0 0 := by
  simp [derive, hkdfSha256, hkdfBlocks, Crypto.masks, pad32]

end SenderKey

lemma masks_unforgeable {secrets : List Secret}
    (h : ∀ s ∈ secrets, ∀ s' ∈ secrets, s[0] = s'[0] → s = s') : Unforgeable .masks secrets := by
  intro s hs s' hs' hne generation generation' counter plain plain' hopen
  obtain ⟨counter', hseal⟩ := (SenderKey.openFrame_eq_ok_iff _ _ _).mp hopen
  obtain ⟨body, htag⟩ := SenderKey.sealFrame_inj hseal
  have hfirst := congrArg (fun tag : Bytes => tag.getD 0 0) htag
  simp only [SenderKey.masks_tag, SenderKey.masks_auth, UInt8.xor_left_inj] at hfirst
  exact hne (h s hs s' hs' hfirst.symm)

end AurixVoice.E2ee
