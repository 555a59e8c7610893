import AurixVoice.E2ee.Primitives
import Mathlib.Data.Vector.Defs

namespace AurixVoice.E2ee

open List hiding Vector

variable (crypto : Crypto)

structure SenderKey where
  generation : UInt8
  enc : Vector UInt8 32
  auth : Vector UInt8 32
  salt : Vector UInt8 12
  deriving DecidableEq

namespace SenderKey

def derive (generation : UInt8) (secret : Secret) : SenderKey where
  generation := generation
  enc := hkdfSha256 crypto [] secret.toList infoEnc 32
  auth := hkdfSha256 crypto [] secret.toList infoAuth 32
  salt := hkdfSha256 crypto [] secret.toList infoSalt 12

def iv (k : SenderKey) (counter : UInt32) : Vector UInt8 16 :=
  ⟨(zipWith (· ^^^ ·) (k.generation :: beBytes counter ++ replicate 11 0)
    (k.salt.toList ++ replicate 4 0)).toArray, by simp [beBytes]⟩

def header (k : SenderKey) (counter : UInt32) : Bytes := k.generation :: beBytes counter

def tag (k : SenderKey) (body : Bytes) : Bytes := (crypto.hmac k.auth.toList body).toList.take frameTagLen

def sealFrame (k : SenderKey) (counter : UInt32) (plain : Bytes) : Bytes :=
  let out := k.header counter ++ aes256Ctr crypto k.enc (k.iv counter) plain
  out ++ k.tag crypto out

def peek (frame : Bytes) : Option (UInt8 × UInt32) :=
  if frame.length < frameOverhead then none
  else match frame with
    | g :: a :: b :: c :: d :: _ => some (g, fromBeBytes a b c d)
    | _ => none

def openFrame (k : SenderKey) (frame : Bytes) : Except AurixError Bytes :=
  match peek frame with
  | none => .error (.encryption "E2EE frame too short")
  | some (generation, counter) =>
    if generation ≠ k.generation then .error (.encryption "E2EE frame generation mismatch")
    else
      let body := frame.take (frame.length - frameTagLen)
      if k.tag crypto body ≠ frame.drop (frame.length - frameTagLen) then
        .error (.encryption "E2EE frame failed authentication")
      else .ok (aes256Ctr crypto k.enc (k.iv counter) (body.drop frameHeaderLen))

variable {crypto} (k : SenderKey) (counter : UInt32) (plain : Bytes)

@[simp] lemma tag_length (body : Bytes) : (k.tag crypto body).length = 10 := by
  simp [tag, frameTagLen]

lemma sealFrame_length : (k.sealFrame crypto counter plain).length = plain.length + frameOverhead := by
  simp only [sealFrame, header, beBytes, length_append, length_cons, length_nil,
    aes256Ctr_length, tag_length, frameOverhead, frameHeaderLen, frameTagLen]
  omega

lemma peek_sealFrame : peek (k.sealFrame crypto counter plain) = some (k.generation, counter) := by
  have hl : ¬ (k.sealFrame crypto counter plain).length < frameOverhead := by
    rw [sealFrame_length]; omega
  unfold peek
  rw [if_neg hl]
  simp only [sealFrame, header, beBytes, cons_append, fromBeBytes_beBytes]

variable {generation : UInt8}

lemma peek_eq_some {frame : Bytes} {counter : UInt32} (h : peek frame = some (generation, counter)) :
    15 ≤ frame.length ∧ frame.take 5 = generation :: beBytes counter := by
  unfold peek at h
  split at h
  · cases h
  next hl =>
    refine ⟨by simpa [frameOverhead, frameHeaderLen, frameTagLen] using hl, ?_⟩
    split at h
    · obtain ⟨rfl, rfl⟩ := h
      simp [beBytes_fromBeBytes]
    · cases h

lemma openFrame_sealFrame : k.openFrame crypto (k.sealFrame crypto counter plain) = .ok plain := by
  have hl : (k.sealFrame crypto counter plain).length = plain.length + frameOverhead :=
    sealFrame_length k counter plain
  have hbody : (k.sealFrame crypto counter plain).length - frameTagLen =
      (k.header counter ++ aes256Ctr crypto k.enc (k.iv counter) plain).length := by
    simp only [hl, frameOverhead, frameTagLen, frameHeaderLen, header, beBytes, length_append,
      length_cons, length_nil, aes256Ctr_length]
    omega
  simp only [openFrame, peek_sealFrame, ne_eq, not_true_eq_false, ↓reduceIte, hbody]
  simp only [sealFrame, take_left, drop_left, not_true_eq_false, ↓reduceIte]
  simp [header, beBytes, frameHeaderLen]

lemma openFrame_eq_ok_iff (frame plain : Bytes) :
    k.openFrame crypto frame = .ok plain ↔ ∃ counter, frame = k.sealFrame crypto counter plain := by
  constructor
  · intro h
    unfold openFrame at h
    split at h
    · cases h
    next generation counter hpeek =>
      obtain ⟨hlen, htake⟩ := peek_eq_some hpeek
      split at h
      · cases h
      next hgen =>
        obtain rfl : generation = k.generation := by simpa using hgen
        dsimp only at h
        split at h
        · cases h
        next htag =>
          simp only [ne_eq, not_not] at htag
          simp only [Except.ok.injEq, frameTagLen, frameHeaderLen] at h htag
          refine ⟨counter, ?_⟩
          have hbody : frame.take (frame.length - 10) =
              k.header counter ++ aes256Ctr crypto k.enc (k.iv counter) plain := by
            rw [← h, aes256Ctr_involutive, header, ← htake]
            have hmin : min 5 (frame.length - 10) = 5 := by omega
            conv_lhs => rw [← take_append_drop 5 (frame.take (frame.length - 10))]
            rw [take_take, hmin]
          rw [← take_append_drop (frame.length - 10) frame, ← htag, hbody]
          rfl
  · rintro ⟨counter, rfl⟩
    exact openFrame_sealFrame k counter plain

end SenderKey

structure IdentityKey where
  secret : Secret
  publicKey : PublicKey
  deriving DecidableEq

namespace IdentityKey

def fromBytes (secret : Secret) : IdentityKey := ⟨secret, crypto.publicKey secret⟩

def wasContributory (shared : Vector UInt8 32) : Bool := shared ≠ Vector.replicate 32 0

def wrapKeys (id : IdentityKey) (peer sender recipient : PublicKey) :
    Except AurixError (Vector UInt8 32 × Vector UInt8 32) :=
  let shared := crypto.diffieHellman id.secret peer
  if !wasContributory shared then .error (.encryption "low-order X25519 public key")
  else
    let salt := sender.toList ++ recipient.toList
    .ok (hkdfSha256 crypto salt shared.toList infoWrapEnc 32,
      hkdfSha256 crypto salt shared.toList infoWrapAuth 32)

def wrapIv (nonce : Bytes) : Vector UInt8 16 := Vector.ofFn fun i => nonce.getD i 0

def wrapTag (auth : Vector UInt8 32) (generation : UInt8) (nonce ct : Bytes) : Bytes :=
  (crypto.hmac auth.toList (generation :: (nonce ++ ct))).toList.take wrapTagLen

def wrap (id : IdentityKey) (nonce : Vector UInt8 12) (recipient : PublicKey) (generation : UInt8)
    (secret : Secret) : Except AurixError Bytes :=
  match id.wrapKeys crypto recipient id.publicKey recipient with
  | .error e => .error e
  | .ok (enc, auth) =>
    let ct := aes256Ctr crypto enc (wrapIv nonce.toList) secret.toList
    .ok (nonce.toList ++ ct ++ wrapTag crypto auth generation nonce.toList ct)

def unwrap (id : IdentityKey) (sender : PublicKey) (generation : UInt8) (wrapped : Bytes) :
    Except AurixError Secret :=
  if wrapped.length ≠ wrappedKeyLen then .error (.encryption "wrapped key has a wrong length")
  else match id.wrapKeys crypto sender sender id.publicKey with
    | .error e => .error e
    | .ok (enc, auth) =>
      let nonce := wrapped.take wrapNonceLen
      let ct := (wrapped.drop wrapNonceLen).take secretLen
      let tag := (wrapped.drop wrapNonceLen).drop secretLen
      if wrapTag crypto auth generation nonce ct ≠ tag then
        .error (.encryption "wrapped key failed authentication")
      else
        let plain := aes256Ctr crypto enc (wrapIv nonce) ct
        .ok (Vector.ofFn fun i => plain.getD i 0)

def wrappable (id : IdentityKey) (recipient : PublicKey) : Bool :=
  wasContributory (crypto.diffieHellman id.secret recipient)

variable {crypto} {recipient : PublicKey} {secret : Secret} {nonce : Vector UInt8 12} {id : IdentityKey}

lemma wrap_eq_error (h : id.wrappable crypto recipient = false) :
    id.wrap crypto nonce recipient generation secret =
      .error (.encryption "low-order X25519 public key") := by
  simp only [wrappable] at h
  simp [wrap, wrapKeys, h]

lemma wrap_eq_ok (nonce : Vector UInt8 12) (generation : UInt8) (secret : Secret)
    (h : id.wrappable crypto recipient = true) :
    ∃ wrapped, id.wrap crypto nonce recipient generation secret = .ok wrapped := by
  simp only [wrappable] at h
  simp [wrap, wrapKeys, h]

lemma unwrap_wrap {sender receiver : IdentityKey} {wrapped : Bytes}
    (hsame : crypto.diffieHellman receiver.secret sender.publicKey =
      crypto.diffieHellman sender.secret receiver.publicKey)
    (h : sender.wrap crypto nonce receiver.publicKey generation secret = .ok wrapped) :
    receiver.unwrap crypto sender.publicKey generation wrapped = .ok secret := by
  have hkeys : receiver.wrapKeys crypto sender.publicKey sender.publicKey receiver.publicKey =
      sender.wrapKeys crypto receiver.publicKey sender.publicKey receiver.publicKey := by
    simp [wrapKeys, hsame]
  unfold wrap at h
  cases hw : sender.wrapKeys crypto receiver.publicKey sender.publicKey receiver.publicKey with
  | error => simp [hw] at h
  | ok keys =>
    simp only [hw, Except.ok.injEq] at h
    subst h
    have hnonce : nonce.toList.length = wrapNonceLen := by simp [wrapNonceLen]
    have htake : ∀ ct rest : Bytes, (nonce.toList ++ ct ++ rest).take wrapNonceLen = nonce.toList := by
      intro ct rest
      rw [append_assoc, ← hnonce, take_left]
    have hdrop : ∀ ct rest : Bytes, (nonce.toList ++ ct ++ rest).drop wrapNonceLen = ct ++ rest := by
      intro ct rest
      rw [append_assoc, ← hnonce, drop_left]
    have hct : (aes256Ctr crypto keys.1 (wrapIv nonce.toList) secret.toList).length = secretLen := by
      simp [secretLen]
    have htag : (wrapTag crypto keys.2 generation nonce.toList
        (aes256Ctr crypto keys.1 (wrapIv nonce.toList) secret.toList)).length = wrapTagLen := by
      simp [wrapTag, wrapTagLen]
    have hlen : (nonce.toList ++ aes256Ctr crypto keys.1 (wrapIv nonce.toList) secret.toList ++
        wrapTag crypto keys.2 generation nonce.toList
          (aes256Ctr crypto keys.1 (wrapIv nonce.toList) secret.toList)).length = wrappedKeyLen := by
      rw [length_append, length_append, hnonce, hct, htag, wrappedKeyLen]
    unfold unwrap
    rw [if_neg (by rw [hlen]; simp), hkeys, hw]
    simp only [htake, hdrop]
    rw [← hct, take_left, drop_left]
    simp only [ne_eq, not_true_eq_false, ↓reduceIte, aes256Ctr_involutive, Except.ok.injEq]
    simp [getD_eq_getElem?_getD]

end IdentityKey

end AurixVoice.E2ee
