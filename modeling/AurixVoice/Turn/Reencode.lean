import AurixVoice.Turn.Walk

namespace AurixVoice.Turn

open StunAttributeType
open List hiding Vector

namespace StunMessage

variable (suite : TurnSuite)

def header (m : StunMessage) (len : ℕ) : Bytes :=
  putU16 m.msgType.toU16 ++ putU16 (UInt16.ofNat len) ++ putU32 stunMagicCookie ++ m.transactionId.toList

def kept (m : StunMessage) : List StunAttribute := m.attributes.filter fun a => !isTrailer a

def body (m : StunMessage) : Bytes := m.kept.flatMap encodeAttribute

variable (m : StunMessage) (len : ℕ) (rest : Bytes)

@[simp] lemma length_header : (m.header len).length = 20 := by
  simp [header]

lemma encodeBase_eq : m.encodeBase = m.header m.body.length ++ m.body := rfl

lemma take_two_header : (m.header len ++ rest).take 2 = putU16 m.msgType.toU16 := take_left' (length_putU16 _)

lemma drop_four_header :
    (m.header len ++ rest).drop 4 = putU32 stunMagicCookie ++ (m.transactionId.toList ++ rest) := by
  simp only [header, append_assoc]
  rw [← append_assoc (putU16 _) (putU16 _)]
  exact drop_left' (by simp)

lemma setLength_header (len' : ℕ) : setLength (m.header len ++ rest) len' = m.header len' ++ rest := by
  rw [setLength, take_two_header, drop_four_header]
  simp [header]

lemma drop_header : (m.header len ++ rest).drop stunHeaderSize = rest := drop_left' (m.length_header len)

def fingerprintOf (buf : Bytes) : Bytes := putU32 (suite.crc32 buf ^^^ stunFingerprintXor)

lemma appendFingerprint_header :
    appendFingerprint suite (m.header len ++ rest) = m.header (rest.length + 8) ++ (rest ++
      chunk fingerprint.toU16 (fingerprintOf suite (m.header (rest.length + 8) ++ rest)) []) := by
  have hlen : (m.header len ++ rest).length - stunHeaderSize + 8 = rest.length + 8 := by
    simp [stunHeaderSize]
  simp only [appendFingerprint, hlen, setLength_header, chunk, fingerprintOf, length_putU32, append_assoc, append_nil]
  rfl

def integrityOf (m : StunMessage) (key : Bytes) : Bytes :=
  (suite.hmacSha1 key (m.header (m.body.length + 24) ++ m.body)).toList

lemma encode_eq : m.encode suite = m.header (m.body.length + 8) ++ (m.body ++
    chunk fingerprint.toU16 (fingerprintOf suite (m.header (m.body.length + 8) ++ m.body)) []) := by
  rw [encode, encodeBase_eq, appendFingerprint_header]

def signed (m : StunMessage) (key : Bytes) : Bytes :=
  m.body ++ chunk messageIntegrity.toU16 (m.integrityOf suite key) []

lemma length_signed (key : Bytes) : (m.signed suite key).length = m.body.length + 24 := by
  simp [signed, chunk, integrityOf]

lemma encodeWithIntegrity_eq (key : Bytes) :
    m.encodeWithIntegrity suite key = m.header (m.body.length + 32) ++ (m.signed suite key ++
      chunk fingerprint.toU16
        (fingerprintOf suite (m.header (m.body.length + 32) ++ m.signed suite key)) []) := by
  have hlen : (m.header m.body.length ++ m.body).length - stunHeaderSize + 24 = m.body.length + 24 := by
    simp [stunHeaderSize]
  have hsigned : m.header (m.body.length + 24) ++ m.body ++ putU16 messageIntegrity.toU16 ++
      putU16 20 ++ (suite.hmacSha1 key (m.header (m.body.length + 24) ++ m.body)).toList =
      m.header (m.body.length + 24) ++ m.signed suite key := by
    simp only [signed, chunk, integrityOf, Vector.length_toList, append_assoc, append_nil]
    rfl
  simp only [encodeWithIntegrity, encodeBase_eq, hlen, setLength_header]
  rw [hsigned, appendFingerprint_header, length_signed]

lemma decode_header {rest : Bytes} (hfits : rest.length < 2 ^ 16) (halign : rest.length % 4 = 0) :
    decode (m.header rest.length ++ rest) =
      (decodeAttributes false rest).map fun attributes => ⟨m.msgType, m.transactionId, attributes⟩ := by
  have hsize : (m.header rest.length ++ rest).length = stunHeaderSize + rest.length := by simp [stunHeaderSize]
  have hmsgLen : (UInt16.ofNat rest.length).toNat = rest.length := by
    rw [UInt16.toNat_ofNat', Nat.mod_eq_of_lt hfits]
  have htype : (getU16 (m.header rest.length ++ rest)).1 = m.msgType.toU16 := by simp [header, append_assoc]
  have hlen : (getU16 ((m.header rest.length ++ rest).drop 2)).1.toNat = rest.length := by
    simp only [header, append_assoc]
    rw [drop_left' (length_putU16 _), getU16_put, hmsgLen]
  have hcookie : (AurixVoice.getU32 ((m.header rest.length ++ rest).drop 4)).1 = stunMagicCookie := by
    rw [drop_four_header, getU32_put]
  have hid : pad 12 ((m.header rest.length ++ rest).drop 8) = m.transactionId := by
    rw [← drop_drop (i := 4) (j := 4), drop_four_header, drop_left' (by simp), pad_append]
  unfold decode
  rw [if_neg (by omega)]
  rw [hcookie, if_neg (not_not.mpr rfl), htype, StunMessageType.fromU16_toU16]
  dsimp only
  rw [hlen, if_neg (not_not.mpr halign), if_neg (not_not.mpr hsize), drop_header, hid]
  cases decodeAttributes false rest <;> rfl

end StunMessage

namespace StunMessage

variable (suite : TurnSuite)

lemma whole_replicate {value : Bytes} (h : value.length < 2 ^ 16) :
    Whole value (replicate (padding value.length) 0) := ⟨h, length_replicate⟩

variable {attrs trailers : List StunAttribute} {m : StunMessage}

lemma skips_flatMap {wanted : UInt16} (hlt : ∀ a ∈ attrs, a.value.length < 2 ^ 16)
    (hne : ∀ a ∈ attrs, a.attrType ≠ wanted) : Skips wanted (attrs.flatMap encodeAttribute) := by
  induction attrs with
  | nil => exact .nil
  | cons a attrs ih =>
    obtain ⟨ha, hlt⟩ := forall_mem_cons.mp hlt
    obtain ⟨hat, hne⟩ := forall_mem_cons.mp hne
    exact .cons hat (whole_replicate ha) (ih hlt hne)

lemma decodeAttributes_flatMap (hlt : ∀ a ∈ attrs, a.value.length < 2 ^ 16)
    (hne : ∀ a ∈ attrs, a.attrType ≠ messageIntegrity.toU16) (tail : Bytes) :
    decodeAttributes false (attrs.flatMap encodeAttribute ++ tail) =
      (decodeAttributes false tail).map (attrs ++ ·) := by
  induction attrs with
  | nil =>
    rw [flatMap_nil, nil_append]
    cases decodeAttributes false tail <;> rfl
  | cons a attrs ih =>
    obtain ⟨ha, hlt⟩ := forall_mem_cons.mp hlt
    obtain ⟨hat, hne⟩ := forall_mem_cons.mp hne
    have hchunk : encodeAttribute a = chunk a.attrType a.value (replicate (padding a.value.length) 0) := rfl
    have hseen : (false || decide (a.attrType = messageIntegrity.toU16)) = false := by simp [hat]
    rw [flatMap_cons, append_assoc, hchunk, decodeAttributes_chunk _ _ (whole_replicate ha), hseen, ih hlt hne]
    cases decodeAttributes false tail <;> rfl

lemma length_flatMap_mod : (attrs.flatMap encodeAttribute).length % 4 = 0 := by
  induction attrs with
  | nil => rfl
  | cons =>
    simp only [flatMap_cons, length_append, encodeAttribute, length_putU16, length_replicate, padding]
    omega

lemma kept_attrType {a : StunAttribute} (ha : a ∈ m.kept) :
    a.attrType ≠ messageIntegrity.toU16 ∧ a.attrType ≠ fingerprint.toU16 := by
  have hkept := (mem_filter.mp ha).2
  simpa [isTrailer] using hkept

def Bounded (m : StunMessage) : Prop := ∀ a ∈ m.attributes, a.value.length < 2 ^ 16

lemma bounded_of_decode {data : Bytes} (h : decode data = .ok m) : m.Bounded := by
  obtain ⟨-, -, -, -, -, -, hattrs⟩ := decode_eq_ok_iff.mp h
  exact fun a ha => (decodeAttributes_spec hattrs a ha).1

lemma Bounded.kept (h : m.Bounded) : ∀ a ∈ m.kept, a.value.length < 2 ^ 16 :=
  fun a ha => h a (mem_filter.mp ha).1

lemma Bounded.skips_integrity (h : m.Bounded) : Skips messageIntegrity.toU16 m.body :=
  skips_flatMap h.kept fun _ ha => (kept_attrType ha).1

lemma Bounded.skips_fingerprint (h : m.Bounded) : Skips fingerprint.toU16 m.body :=
  skips_flatMap h.kept fun _ ha => (kept_attrType ha).2

lemma whole_fingerprint (buf : Bytes) : Whole (fingerprintOf suite buf) [] := by
  constructor <;> simp [fingerprintOf, padding]

lemma whole_integrity (m : StunMessage) (key : Bytes) : Whole (m.integrityOf suite key) [] := by
  constructor <;> simp [integrityOf, padding]

lemma decodeAttributes_nil (seen : Bool) : decodeAttributes seen [] = .ok [] := by
  rw [decodeAttributes]
  rfl

lemma verifyFingerprint_append (m : StunMessage) {rest : Bytes} (hskips : Skips fingerprint.toU16 rest) :
    verifyFingerprint suite (m.header (rest.length + 8) ++ (rest ++ chunk fingerprint.toU16
      (fingerprintOf suite (m.header (rest.length + 8) ++ rest)) [])) = true := by
  generalize hfp : fingerprintOf suite (m.header (rest.length + 8) ++ rest) = fp
  have hwhole : Whole fp [] := hfp ▸ whole_fingerprint suite _
  have hoff : findAttributeOffset (m.header (rest.length + 8) ++ (rest ++ chunk
      fingerprint.toU16 fp [])) fingerprint.toU16 = some (20 + rest.length) := by
    have hfound := findFrom_chunk fingerprint.toU16 fingerprint.toU16 (20 + rest.length) hwhole []
    rw [if_pos rfl, append_nil] at hfound
    rw [findAttributeOffset, drop_header, hskips.findFrom]
    exact hfound
  have hfour : fp.length = 4 := by rw [← hfp]; exact length_putU32 _
  have htake : (m.header (rest.length + 8) ++ (rest ++ chunk fingerprint.toU16 fp [])).take
      (20 + rest.length) = m.header (rest.length + 8) ++ rest := by
    rw [← append_assoc]
    exact take_left' (by simp)
  have hdrop : (m.header (rest.length + 8) ++ (rest ++ chunk fingerprint.toU16 fp [])).drop
      (20 + rest.length + 4) = fp := by
    rw [← append_assoc, ← drop_drop, drop_left' (by simp), chunk, append_nil]
    exact drop_left' (by simp)
  unfold verifyFingerprint
  rw [hoff]
  dsimp only
  rw [if_neg (by simp [chunk, hfour]; omega), htake, hdrop]
  have hlen : 20 + rest.length - stunHeaderSize + 8 = rest.length + 8 := by simp [stunHeaderSize]
  have hget := getU32_put (suite.crc32 (m.header (rest.length + 8) ++ rest) ^^^ stunFingerprintXor) []
  rw [append_nil] at hget
  rw [hlen, setLength_header, ← hfp, fingerprintOf, hget, decide_eq_true_eq]

lemma verifyIntegrity_signed (h : m.Bounded) (key : Bytes) (len : ℕ) (tail : Bytes) :
    verifyIntegrity suite (m.header len ++ (m.signed suite key ++ tail)) key = true := by
  have hwhole : Whole (m.integrityOf suite key) [] := whole_integrity suite m key
  have hoff : findAttributeOffset (m.header len ++ (m.signed suite key ++ tail))
      messageIntegrity.toU16 = some (20 + m.body.length) := by
    rw [findAttributeOffset, drop_header, signed, append_assoc, h.skips_integrity.findFrom,
      findFrom_chunk _ _ _ hwhole, if_pos rfl]
    rfl
  have htag : (m.integrityOf suite key).length = 20 := by simp [integrityOf]
  have hinput : ((m.header len ++ (m.signed suite key ++ tail)).take (20 + m.body.length)).drop 4 =
      putU32 stunMagicCookie ++ (m.transactionId.toList ++ m.body) := by
    have hbody : (m.header len ++ (m.signed suite key ++ tail)).take (20 + m.body.length) =
        m.header len ++ m.body := by
      rw [signed, append_assoc, ← append_assoc]
      exact take_left' (by simp)
    rw [hbody, drop_four_header]
  have hvalue : ((m.header len ++ (m.signed suite key ++ tail)).drop (20 + m.body.length + 4)).take 20 =
      m.integrityOf suite key := by
    rw [signed, chunk, append_nil]
    simp only [append_assoc]
    rw [← append_assoc (m.header len), ← drop_drop, drop_left' (by simp),
      ← append_assoc (putU16 _) (putU16 _), drop_left' (by simp)]
    exact take_left' htag
  unfold verifyIntegrity
  rw [hoff]
  dsimp only
  rw [if_neg (by simp [length_signed]; omega), take_two_header, hinput, hvalue, decide_eq_true_eq, integrityOf]
  have hlen : 20 + m.body.length - stunHeaderSize + 24 = m.body.length + 24 := by simp [stunHeaderSize]
  rw [hlen]
  simp only [header, append_assoc]

lemma zipWith_xor_cancel {n : ℕ} (a mask : Vector UInt8 n) :
    Vector.zipWith (· ^^^ ·) (Vector.zipWith (· ^^^ ·) a mask) mask = a := by
  apply Vector.ext
  intro i hi
  simp only [Vector.getElem_zipWith, UInt8.xor_assoc, UInt8.xor_self, UInt8.xor_zero]

lemma decodeXorAddress_encodeXorAddress (m : StunMessage) (addr : SocketAddr) :
    m.decodeXorAddress (m.encodeXorAddress addr) = some (.new addr.ip addr.port) := by
  have hport : ∀ port : UInt16, port ^^^ portMask ^^^ portMask = port := by
    intro port
    rw [UInt16.xor_assoc, UInt16.xor_self, UInt16.xor_zero]
  -- the octets stand behind the family and the port
  have hdrop : ∀ (family : UInt8) (port : UInt16) (octets : Bytes),
      (([0, family] ++ putU16 port ++ octets).drop 2 = putU16 port ++ octets) ∧
      ([0, family] ++ putU16 port ++ octets).drop 4 = octets := by
    intro family port octets
    refine ⟨rfl, ?_⟩
    exact drop_left' (by simp)
  have hpad : ∀ {n : ℕ} (v : Vector UInt8 n), pad n v.toList = v := fun v => by simpa using pad_append v []
  cases addr with
  | v4 ip port =>
    obtain ⟨htwo, hfour⟩ := hdrop 1 (port ^^^ portMask) (Vector.zipWith (· ^^^ ·) ip cookie).toList
    unfold decodeXorAddress encodeXorAddress
    rw [if_neg (by simp), htwo, hfour, getU16_put]
    simp only [hpad, zipWith_xor_cancel, hport]
    rfl
  | v6 ip port =>
    obtain ⟨htwo, hfour⟩ := hdrop 2 (port ^^^ portMask) (Vector.zipWith (· ^^^ ·) ip m.addressMask).toList
    unfold decodeXorAddress encodeXorAddress
    rw [if_neg (by simp), htwo, hfour, getU16_put]
    simp only [hpad, zipWith_xor_cancel, hport]
    simp [SocketAddr.ip, SocketAddr.port]

lemma kept_append_trailers (m : StunMessage) (h : ∀ a ∈ trailers, isTrailer a = true) :
    kept ⟨m.msgType, m.transactionId, m.kept ++ trailers⟩ = m.kept := by
  have hdropped : trailers.filter (fun a => !isTrailer a) = [] := by
    apply filter_eq_nil_iff.mpr
    intro a ha
    simp [h a ha]
  simp [kept, hdropped]

lemma decode_with_trailers (h : m.Bounded) {tail : Bytes} (htail : decodeAttributes false tail = .ok trailers)
    (htrailers : ∀ a ∈ trailers, isTrailer a = true) (halign : tail.length % 4 = 0)
    (hfits : m.body.length + tail.length < 2 ^ 16) :
    ∃ m', decode (m.header (m.body.length + tail.length) ++ (m.body ++ tail)) = .ok m' ∧
      m'.msgType = m.msgType ∧ m'.transactionId = m.transactionId ∧ m'.kept = m.kept := by
  have hmod : m.body.length % 4 = 0 := length_flatMap_mod
  have hlen : (m.body ++ tail).length = m.body.length + tail.length := length_append
  have hattrs : decodeAttributes false (m.body ++ tail) = .ok (m.kept ++ trailers) := by
    rw [body, decodeAttributes_flatMap h.kept (fun _ ha => (kept_attrType ha).1), htail]
    rfl
  have hdecode := decode_header m (show (m.body ++ tail).length < 2 ^ 16 by omega) (by omega)
  rw [hattrs, hlen] at hdecode
  exact ⟨_, hdecode, rfl, rfl, m.kept_append_trailers htrailers⟩

lemma decodeAttributes_fingerprint (seen : Bool) {fp : Bytes} (h : Whole fp []) :
    decodeAttributes seen (chunk fingerprint.toU16 fp []) =
      .ok [⟨fingerprint.toU16, fp⟩] := by
  have hchunk := decodeAttributes_chunk seen fingerprint.toU16 h []
  rw [append_nil, decodeAttributes_nil] at hchunk
  rw [hchunk]
  cases seen <;> rfl

lemma length_fingerprint (buf : Bytes) : (chunk fingerprint.toU16 (fingerprintOf suite buf) []).length = 8 := by
  simp [chunk, fingerprintOf]

lemma decode_encode (h : m.Bounded) (hfits : m.body.length + 8 < 2 ^ 16) :
    ∃ m', decode (m.encode suite) = .ok m' ∧ m'.msgType = m.msgType ∧ m'.transactionId = m.transactionId ∧
      m'.kept = m.kept := by
  rw [encode_eq]
  have hlen := length_fingerprint suite (m.header (m.body.length + 8) ++ m.body)
  have hdecode := decode_with_trailers h
    (decodeAttributes_fingerprint false (whole_fingerprint suite (m.header (m.body.length + 8) ++ m.body)))
    (by simp [isTrailer]) (by rw [hlen]) (by exact hfits)
  rwa [hlen] at hdecode

lemma decode_encodeWithIntegrity (h : m.Bounded) (key : Bytes) (hfits : m.body.length + 32 < 2 ^ 16) :
    ∃ m', decode (m.encodeWithIntegrity suite key) = .ok m' ∧ m'.msgType = m.msgType ∧
      m'.transactionId = m.transactionId ∧ m'.kept = m.kept := by
  have hfp := whole_fingerprint suite (m.header (m.body.length + 32) ++ m.signed suite key)
  have hlen := length_fingerprint suite (m.header (m.body.length + 32) ++ m.signed suite key)
  rw [encodeWithIntegrity_eq]
  generalize fingerprintOf suite (m.header (m.body.length + 32) ++ m.signed suite key) = fp at hfp hlen ⊢
  have htail : decodeAttributes false (chunk messageIntegrity.toU16 (m.integrityOf suite key) [] ++
      chunk fingerprint.toU16 fp []) =
      .ok [⟨messageIntegrity.toU16, m.integrityOf suite key⟩,
        ⟨fingerprint.toU16, fp⟩] := by
    rw [decodeAttributes_chunk _ _ (whole_integrity suite m key), decodeAttributes_fingerprint _ hfp]
    rfl
  have hsize : (chunk messageIntegrity.toU16 (m.integrityOf suite key) [] ++
      chunk fingerprint.toU16 fp []).length = 32 := by
    rw [length_append, hlen]
    simp [chunk, integrityOf]
  have hdecode := decode_with_trailers h htail (by simp [isTrailer]) (by rw [hsize]) (by rw [hsize]; exact hfits)
  rw [hsize] at hdecode
  rwa [signed, append_assoc]

lemma length_encode (m : StunMessage) : (m.encode suite).length = stunHeaderSize + (m.body.length + 8) := by
  rw [encode_eq, length_append, length_append, length_fingerprint, length_header, stunHeaderSize]

lemma length_encodeWithIntegrity (m : StunMessage) (key : Bytes) :
    (m.encodeWithIntegrity suite key).length = stunHeaderSize + (m.body.length + 32) := by
  rw [encodeWithIntegrity_eq, length_append, length_append, length_fingerprint, length_header,
    length_signed, stunHeaderSize]

lemma Bounded.skips_fingerprint_signed (h : m.Bounded) (key : Bytes) :
    Skips fingerprint.toU16 (m.signed suite key) := by
  apply h.skips_fingerprint.append
  rw [← append_nil (chunk _ _ _)]
  exact .cons (by decide) (whole_integrity suite m key) .nil

/-- A request with a padded attribute, signed and fingerprinted by another party. -/
def relayed : StunMessage :=
  ⟨.bindingRequest, Vector.replicate 12 7, [⟨6, [97, 98, 99]⟩, ⟨8, replicate 20 9⟩, ⟨0x8028, [1, 2, 3, 4]⟩]⟩

end StunMessage

end AurixVoice.Turn
