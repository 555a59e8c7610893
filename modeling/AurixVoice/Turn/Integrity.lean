import AurixVoice.Turn.Handler
import AurixVoice.Turn.Walk

namespace AurixVoice.Turn

open StunAttributeType
open List hiding Vector

namespace StunMessage

def sansFingerprint (m : StunMessage) : StunMessage :=
  { m with attributes := m.attributes.filter fun a => a.attrType ≠ fingerprint.toU16 }

variable {t : StunAttributeType} (m : StunMessage)

@[simp] lemma msgType_sansFingerprint : m.sansFingerprint.msgType = m.msgType := rfl

@[simp] lemma transactionId_sansFingerprint : m.sansFingerprint.transactionId = m.transactionId := rfl

section

variable (h : t ≠ .fingerprint)
include h

lemma toU16_ne_fingerprint : t.toU16 ≠ fingerprint.toU16 := by
  cases t <;> first | decide | exact absurd rfl h

@[simp] lemma getAttribute_sansFingerprint : m.sansFingerprint.getAttribute t = m.getAttribute t := by
  unfold getAttribute sansFingerprint
  rw [find?_filter]
  congr 1
  funext a
  by_cases ha : a.attrType = t.toU16
  · simp [ha, toU16_ne_fingerprint h]
  · simp [ha]

@[simp] lemma getXorAddress_sansFingerprint : m.sansFingerprint.getXorAddress t = m.getXorAddress t := by
  rw [getXorAddress, getAttribute_sansFingerprint m h]
  rfl

@[simp] lemma getAllXorAddresses_sansFingerprint : m.sansFingerprint.getAllXorAddresses t = m.getAllXorAddresses t := by
  unfold getAllXorAddresses sansFingerprint
  rw [filter_filter]
  congr 2
  funext a
  by_cases ha : a.attrType = t.toU16
  · simp [ha, toU16_ne_fingerprint h]
  · simp [ha]

@[simp] lemma getU32_sansFingerprint : m.sansFingerprint.getU32 t = m.getU32 t := by
  rw [getU32, getAttribute_sansFingerprint m h, getU32]

@[simp] lemma getString_sansFingerprint : m.sansFingerprint.getString t = m.getString t := by
  rw [getString, getAttribute_sansFingerprint m h, getString]

end

end StunMessage

open StunMessage

namespace TurnHandler

variable (suite : TurnSuite) (h : TurnHandler) (m : StunMessage) (client : ClientKey)

@[simp] lemma authenticate_sansFingerprint (now : ℤ) (m : StunMessage) (raw : Bytes) :
    h.authenticate suite now m.sansFingerprint raw = h.authenticate suite now m raw := by
  simp [authenticate]

@[simp] lemma sendAuthError_sansFingerprint (now : ℤ) (m : StunMessage) (client : ClientKey) (failure : AuthFailure) :
    h.sendAuthError suite now m.sansFingerprint client failure = h.sendAuthError suite now m client failure := rfl

@[simp] lemma sendError_sansFingerprint (key : Bytes) (code : ℕ) (reason : String) :
    sendError suite m.sansFingerprint client key code reason = sendError suite m client key code reason := rfl

@[simp] lemma confirm_sansFingerprint (auth : Authenticated) (msgType : StunMessageType) :
    confirm suite m.sansFingerprint client auth msgType = confirm suite m client auth msgType := rfl

@[simp] lemma checkAllocate_sansFingerprint (auth : Authenticated) (m : StunMessage) (client : ClientKey) :
    h.checkAllocate auth m.sansFingerprint client = h.checkAllocate auth m client := by
  simp [checkAllocate]

@[simp] lemma refreshLifetime_sansFingerprint : h.refreshLifetime m.sansFingerprint = h.refreshLifetime m := by
  rw [refreshLifetime, getU32_sansFingerprint m (by decide), refreshLifetime]

lemma handleStunMessage_sansFingerprint (env : Env) (m : StunMessage) (src : SocketAddr) (sink : ClientSink)
    (raw : Bytes) :
    h.handleStunMessage suite env m.sansFingerprint src sink raw = h.handleStunMessage suite env m src sink raw := by
  unfold handleStunMessage
  split
  · rfl
  simp only [msgType_sansFingerprint]
  cases m.msgType with
  | allocateRequest => simp [handleAllocateRequest]
  | refreshRequest => simp [handleRefreshRequest]
  | createPermissionRequest => simp [handleCreatePermission]
  | channelBindRequest => simp [handleChannelBind]
  | sendIndication => simp [handleSendIndication]
  | _ => rfl

lemma handleStunMessage_congr {raw raw' : Bytes}
    (hmac : ∀ key, verifyIntegrity suite raw' key = verifyIntegrity suite raw key)
    (hcrc : verifyFingerprint suite raw' = verifyFingerprint suite raw) (h : TurnHandler) (env : Env)
    (m : StunMessage) (src : SocketAddr) (sink : ClientSink) :
    h.handleStunMessage suite env m src sink raw' = h.handleStunMessage suite env m src sink raw := by
  have hauth : h.authenticate suite env.now m raw' = h.authenticate suite env.now m raw := by
    simp [authenticate, hmac]
  simp [handleStunMessage, hcrc, handleAllocateRequest, handleRefreshRequest, handleCreatePermission,
    handleChannelBind, hauth]

end TurnHandler

def attributeLength (raw : Bytes) (off : ℕ) : ℕ := (attributeHeader (raw.drop off)).2.1

structure AgreeThrough (n : ℕ) (raw raw' : Bytes) : Prop where
  le : n ≤ raw.length
  le' : n ≤ raw'.length
  msgType : raw'.take 2 = raw.take 2
  covered : (raw'.take n).drop 4 = (raw.take n).drop 4

variable {n mi : ℕ} {raw raw' tail before : Bytes} {attrs : List StunAttribute} {m : StunMessage}

lemma AgreeThrough.slice (h : AgreeThrough n raw raw') {i j : ℕ} (hi : 4 ≤ i) (hj : j ≤ n) :
    (raw'.take j).drop i = (raw.take j).drop i := by
  have hsplit : ∀ bytes : Bytes, (bytes.take j).drop i = (((bytes.take n).drop 4).take (j - 4)).drop (i - 4) := by
    intro bytes
    have hstart : 4 + (i - 4) = i := by omega
    simp only [drop_take, drop_drop, take_take, hstart]
    congr 1
    omega
  rw [hsplit, hsplit, h.covered]

lemma take_drop_eq_drop_take (bytes : Bytes) (i k : ℕ) : (bytes.drop i).take k = (bytes.take (i + k)).drop i := by
  rw [drop_take, Nat.add_sub_cancel_left]

lemma findFrom_here {wanted : UInt16} (h : 4 ≤ tail.length) (ht : (attributeHeader tail).1 = wanted) (i : ℕ) :
    findFrom wanted i tail = some i := by
  rw [findFrom, dif_neg (not_lt.mpr h)]
  exact if_pos ht

lemma decodeAttributes_integrity (h : 4 ≤ tail.length) (ht : (attributeHeader tail).1 = messageIntegrity.toU16) :
    decodeAttributes false tail = .ok attrs ↔
      (attributeHeader tail).2.1 ≤ (attributeHeader tail).2.2.length ∧
      ∃ later, decodeAttributes true
          ((attributeHeader tail).2.2.drop ((attributeHeader tail).2.1 + padding (attributeHeader tail).2.1)) =
          .ok later ∧
        attrs = ⟨messageIntegrity.toU16,
          (attributeHeader tail).2.2.take (attributeHeader tail).2.1⟩ :: later := by
  rw [decodeAttributes, dif_neg (not_lt.mpr h)]
  dsimp only
  rw [ht]
  by_cases hfits : (attributeHeader tail).2.2.length < (attributeHeader tail).2.1
  · rw [if_pos hfits]
    simp [not_le.mpr hfits]
  · rw [if_neg hfits]
    have hseen : (false || decide (messageIntegrity.toU16 = messageIntegrity.toU16)) = true := by simp
    rw [hseen]
    cases decodeAttributes true
      ((attributeHeader tail).2.2.drop ((attributeHeader tail).2.1 + padding (attributeHeader tail).2.1)) with
    | error e => simp
    | ok => simp [not_lt.mp hfits, eq_comm]

structure AtIntegrity (raw : Bytes) (mi : ℕ) (before : Bytes) : Prop where
  skips : Skips messageIntegrity.toU16 before
  offset : mi = stunHeaderSize + before.length
  split : raw.drop stunHeaderSize = before ++ raw.drop mi
  four_le : 4 ≤ (raw.drop mi).length
  attrType : (attributeHeader (raw.drop mi)).1 = messageIntegrity.toU16

lemma exists_atIntegrity (h : findAttributeOffset raw messageIntegrity.toU16 = some mi) :
    ∃ before, AtIntegrity raw mi before := by
  obtain ⟨before, tail, hsplit, hoff, hskips, hfour, htype⟩ := findFrom_eq_some h
  have htail : raw.drop mi = tail := by
    rw [hoff, ← drop_drop, hsplit, drop_left]
  exact ⟨before, hskips, hoff, htail ▸ hsplit, htail ▸ hfour, htail ▸ htype⟩

section

variable (h : AtIntegrity raw mi before)
include h

lemma AtIntegrity.find : findAttributeOffset raw messageIntegrity.toU16 = some mi := by
  rw [findAttributeOffset, h.split, h.skips.findFrom, ← h.offset]
  exact findFrom_here h.four_le h.attrType mi

lemma AtIntegrity.attributes :
    ∃ attrs : List StunAttribute, ∀ raw', AtIntegrity raw' mi before → ∀ m, decode raw' = .ok m →
      attributeLength raw' mi ≤ (raw'.drop (mi + 4)).length ∧
      m.sansFingerprint.attributes = attrs ++
        [⟨messageIntegrity.toU16, (raw'.drop (mi + 4)).take (attributeLength raw' mi)⟩] := by
  obtain ⟨attrs, -, hattrs⟩ := h.skips.decodeAttributes
  refine ⟨attrs.filter fun a => a.attrType ≠ fingerprint.toU16, fun raw' h' m hdecode => ?_⟩
  obtain ⟨-, -, -, -, -, -, hall⟩ := decode_eq_ok_iff.mp hdecode
  rw [h'.split, hattrs] at hall
  cases htail : decodeAttributes false (raw'.drop mi) with
  | error => rw [htail] at hall; cases hall
  | ok own =>
    rw [htail] at hall
    have hall : attrs ++ own = m.attributes := Except.ok.inj hall
    obtain ⟨hfits, later, hlater, rfl⟩ := (decodeAttributes_integrity h'.four_le h'.attrType).mp htail
    have hbody : (attributeHeader (raw'.drop mi)).2.2 = raw'.drop (mi + 4) := by
      simp [attributeHeader, getU16]
    have hnone : later.filter (fun a => a.attrType ≠ fingerprint.toU16) = [] := by
      apply filter_eq_nil_iff.mpr
      intro a ha
      simp [(decodeAttributes_spec hlater a ha).2 rfl]
    rw [hbody] at hfits hall
    refine ⟨hfits, ?_⟩
    rw [sansFingerprint, ← hall, filter_append, filter_cons_of_pos rfl, hnone]
    rfl

lemma AtIntegrity.agree (hagree : AgreeThrough n raw raw') (hn : mi + 4 ≤ n) :
    AtIntegrity raw' mi before ∧ attributeLength raw' mi = attributeLength raw mi := by
  have hmi : 20 ≤ mi := by
    rw [h.offset, stunHeaderSize]
    omega
  have hle' := hagree.le'
  have htype : (getU16 (raw'.drop mi)).1 = (getU16 (raw.drop mi)).1 := by
    rw [getU16, getU16, take_drop_eq_drop_take, take_drop_eq_drop_take, hagree.slice (by omega) (by omega)]
  have hlen : (getU16 (getU16 (raw'.drop mi)).2).1 = (getU16 (getU16 (raw.drop mi)).2).1 := by
    simp only [getU16, drop_drop]
    rw [take_drop_eq_drop_take, take_drop_eq_drop_take, hagree.slice (by omega) (by omega)]
  have hbefore : (raw'.drop stunHeaderSize).take before.length = before := by
    have hown : (raw.drop stunHeaderSize).take before.length = before := by rw [h.split, take_left]
    rw [take_drop_eq_drop_take, ← h.offset, hagree.slice (by rw [stunHeaderSize]; omega) (by omega), h.offset,
      ← take_drop_eq_drop_take, hown]
  refine ⟨⟨h.skips, h.offset, ?_, by rw [length_drop]; omega, ?_⟩, ?_⟩
  · have hsplit := take_append_drop before.length (raw'.drop stunHeaderSize)
    rw [hbefore, drop_drop, ← h.offset] at hsplit
    exact hsplit.symm
  · simp only [attributeHeader, htype]
    exact h.attrType
  · simp [attributeLength, attributeHeader, hlen]

end

lemma AtIntegrity.verifyIntegrity_eq (suite : TurnSuite) (h : AtIntegrity raw mi before)
    (hagree : AgreeThrough n raw raw') (hn : mi + 24 ≤ n) (key : Bytes) :
    verifyIntegrity suite raw' key = verifyIntegrity suite raw key := by
  have hle := hagree.le
  have hle' := hagree.le'
  obtain ⟨h', -⟩ := h.agree hagree (by omega)
  have htag : (raw'.drop (mi + 4)).take 20 = (raw.drop (mi + 4)).take 20 := by
    rw [take_drop_eq_drop_take, take_drop_eq_drop_take, hagree.slice (by omega) (by omega)]
  unfold verifyIntegrity
  rw [h.find, h'.find]
  dsimp only
  rw [if_neg (by omega), if_neg (by omega), hagree.msgType, hagree.slice (le_refl 4) (by omega), htag]

lemma decodeAttributes_seen_set {rest : Bytes} (b : UInt8) (h : ∃ later, decodeAttributes true rest = .ok later) :
    ∃ later, decodeAttributes true (rest.set 0 b) = .ok later := by
  obtain ⟨later, hlater⟩ := h
  by_cases hlen : rest.length < 4
  · refine ⟨[], ?_⟩
    rw [decodeAttributes, dif_pos (by rw [length_set]; exact hlen)]
  · -- the attribute at the front only changes its type
    have hsame : (attributeHeader (rest.set 0 b)).2 = (attributeHeader rest).2 := by
      cases rest with
      | nil | cons => rfl
    rw [decodeAttributes, dif_neg hlen] at hlater
    rw [decodeAttributes, dif_neg (by rw [length_set]; exact hlen)]
    dsimp only at hlater ⊢
    rw [hsame]
    split at hlater
    · cases hlater
    next hfits =>
      rw [if_neg hfits]
      rw [Bool.true_or] at hlater ⊢
      split at hlater
      · cases hlater
      · exact ⟨_, rfl⟩

lemma pad_congr {bytes bytes' : Bytes} (h : bytes'.take n = bytes.take n) : pad n bytes' = pad n bytes := by
  apply Vector.ext
  intro i hi
  have hbyte := congrArg (fun l : Bytes => l[i]?) h
  simp only [getElem?_take, hi, ↓reduceIte] at hbyte
  simp [pad, hbyte]

lemma decode_of_header (hdecode : decode raw = .ok m) (hlen : raw'.length = raw.length)
    (hhead : raw'.take stunHeaderSize = raw.take stunHeaderSize)
    (hattrs : decodeAttributes false (raw'.drop stunHeaderSize) = .ok attrs) :
    decode raw' = .ok { m with attributes := attrs } := by
  obtain ⟨hsize, hcookie, htype, hid, halign, htotal, -⟩ := decode_eq_ok_iff.mp hdecode
  have hslice : ∀ i k, i + k ≤ stunHeaderSize → (raw'.drop i).take k = (raw.drop i).take k := by
    intro i k hik
    have hcut : ∀ bytes : Bytes, (bytes.drop i).take k = ((bytes.take stunHeaderSize).drop i).take k := by
      intro bytes
      rw [drop_take, take_take]
      congr 1
      omega
    rw [hcut raw', hhead, ← hcut raw]
  have htype' : (getU16 raw').1 = (getU16 raw).1 := by
    exact congrArg (fun l => UInt16.ofNat (ofBe l)) (hslice 0 2 (by decide))
  have hlen' : (getU16 (raw'.drop 2)).1 = (getU16 (raw.drop 2)).1 := by
    rw [getU16, getU16, hslice 2 2 (by decide)]
  have hcookie' : (getU32 (raw'.drop 4)).1 = (getU32 (raw.drop 4)).1 := by
    rw [getU32, getU32, hslice 4 4 (by decide)]
  have hid' : pad 12 (raw'.drop 8) = pad 12 (raw.drop 8) := pad_congr (hslice 8 12 (by decide))
  apply decode_eq_ok_iff.mpr
  refine ⟨by rwa [hlen], hcookie'.trans hcookie, by rwa [htype'], by rwa [hid'], by rwa [hlen'], ?_, hattrs⟩
  rw [hlen, hlen']
  exact htotal

lemma attributeHeader_set (rest : Bytes) (k : ℕ) (b : UInt8) :
    attributeHeader (rest.set (4 + k) b) =
      ((attributeHeader rest).1, (attributeHeader rest).2.1, (attributeHeader rest).2.2.set k b) := by
  have htwo : (rest.set (4 + k) b).drop 2 = (rest.drop 2).set (2 + k) b := by
    rw [drop_set, if_neg (by omega)]
    congr 1
    omega
  have hfour : ((rest.drop 2).set (2 + k) b).drop 2 = ((rest.drop 2).drop 2).set k b := by
    rw [drop_set, if_neg (by omega)]
    congr 1
    omega
  simp only [attributeHeader, getU16]
  rw [htwo, hfour, take_set_of_le (by omega), take_set_of_le (by omega)]

section

variable (h : AtIntegrity raw mi before)
include h

lemma AtIntegrity.decodeAttributes_set (hok : ∃ own, decodeAttributes false (raw.drop mi) = .ok own) (b : UInt8) :
    ∃ own, decodeAttributes false ((raw.set (mi + 4 + attributeLength raw mi) b).drop mi) = .ok own := by
  obtain ⟨own, hown⟩ := hok
  obtain ⟨hfits, later, hlater, -⟩ := (decodeAttributes_integrity h.four_le h.attrType).mp hown
  have hbody : (attributeHeader (raw.drop mi)).2.2 = raw.drop (mi + 4) := by
    simp only [attributeHeader, getU16, drop_drop]
  rw [hbody] at hfits hlater
  have hset : (raw.set (mi + 4 + attributeLength raw mi) b).drop mi =
      (raw.drop mi).set (4 + attributeLength raw mi) b := by
    rw [drop_set, if_neg (by omega)]
    congr 1
    omega
  have hheader : attributeHeader ((raw.drop mi).set (4 + attributeLength raw mi) b) =
      (messageIntegrity.toU16, attributeLength raw mi,
        (raw.drop (mi + 4)).set (attributeLength raw mi) b) := by
    rw [attributeHeader_set, h.attrType, hbody, attributeLength]
  have hlater' : ∃ later', decodeAttributes true (((raw.drop (mi + 4)).set (attributeLength raw mi) b).drop
      (attributeLength raw mi + padding (attributeLength raw mi))) = .ok later' := by
    rw [drop_set]
    split
    · exact ⟨later, hlater⟩
    · -- no padding: the byte belongs to the type of the next attribute
      have hzero : attributeLength raw mi - (attributeLength raw mi + padding (attributeLength raw mi)) = 0 := by
        omega
      rw [hzero]
      exact decodeAttributes_seen_set b ⟨later, hlater⟩
  obtain ⟨later', hlater'⟩ := hlater'
  refine ⟨_, (decodeAttributes_integrity ?_ ?_).mpr ⟨?_, later', ?_, rfl⟩⟩
  · rw [hset, length_set]
    exact h.four_le
  · rw [hset, hheader]
  · rw [hset, hheader]
    rw [length_set]
    exact hfits
  · rw [hset, hheader]
    exact hlater'

lemma AtIntegrity.decode_set (hdecode : decode raw = .ok m) (b : UInt8) :
    ∃ m', decode (raw.set (mi + 4 + attributeLength raw mi) b) = .ok m' := by
  have hmi := h.offset
  obtain ⟨attrs, -, hskipped⟩ := h.skips.decodeAttributes
  obtain ⟨-, -, -, -, -, -, hattrs⟩ := decode_eq_ok_iff.mp hdecode
  rw [h.split, hskipped] at hattrs
  have hok : ∃ own, decodeAttributes false (raw.drop mi) = .ok own := by
    cases htail : decodeAttributes false (raw.drop mi) with
    | error => rw [htail] at hattrs; cases hattrs
    | ok own => exact ⟨own, rfl⟩
  obtain ⟨own, hown⟩ := h.decodeAttributes_set hok b
  generalize hn : mi + 4 + attributeLength raw mi = n at hown ⊢
  have hbefore : (raw.set n b).drop stunHeaderSize = before ++ (raw.set n b).drop mi := by
    have htake : ((raw.set n b).drop stunHeaderSize).take before.length = before := by
      rw [take_drop_eq_drop_take, take_set_of_le (by omega), ← take_drop_eq_drop_take, h.split, take_left]
    have hsplit := take_append_drop before.length ((raw.set n b).drop stunHeaderSize)
    rw [htake, drop_drop, ← hmi] at hsplit
    exact hsplit.symm
  have hall : decodeAttributes false ((raw.set n b).drop stunHeaderSize) = .ok (attrs ++ own) := by
    rw [hbefore, hskipped, hown]
    rfl
  exact ⟨_, decode_of_header hdecode length_set (take_set_of_le (by omega)) hall⟩

lemma AtIntegrity.short_integrity (suite : TurnSuite) {key : Bytes}
    (hverify : verifyIntegrity suite raw key = true) (hshort : attributeLength raw mi < 20) :
    ∃ b, AgreeThrough (mi + 4 + attributeLength raw mi) raw (raw.set (mi + 4 + attributeLength raw mi) b) ∧
      verifyIntegrity suite (raw.set (mi + 4 + attributeLength raw mi) b) key = false := by
  generalize hn : mi + 4 + attributeLength raw mi = n
  unfold verifyIntegrity at hverify
  rw [h.find] at hverify
  dsimp only at hverify
  split at hverify
  · cases hverify
  have htag := of_decide_eq_true hverify
  have hlt : n < raw.length := by omega
  refine ⟨raw[n] + 1, ?_, ?_⟩
  · exact ⟨by omega, by rw [length_set]; omega, take_set_of_le (by omega), by rw [take_set_of_le (le_refl n)]⟩
  · have hagree : AgreeThrough n raw (raw.set n (raw[n] + 1)) :=
      ⟨by omega, by rw [length_set]; omega, take_set_of_le (by omega),
        by rw [take_set_of_le (le_refl n)]⟩
    obtain ⟨h', -⟩ := h.agree hagree (by omega)
    unfold verifyIntegrity
    rw [h'.find]
    dsimp only
    rw [if_neg (by rw [length_set]; omega), decide_eq_false_iff_not, hagree.msgType,
      hagree.slice (Nat.le_refl 4) (by omega), htag]
    intro hsame
    have hbyte := congrArg (fun l : Bytes => l[n - (mi + 4)]?) hsame
    have hidx : n - (mi + 4) < 20 := by omega
    have hback : mi + 4 + (n - (mi + 4)) = n := by omega
    simp only [getElem?_take, hidx, ↓reduceIte, getElem?_drop, hback, getElem?_set_self hlt,
      getElem?_eq_getElem hlt, Option.some.injEq] at hbyte
    have hne : raw[n] ≠ raw[n] + 1 := by
      intro heq
      have hnat := congrArg UInt8.toNat heq
      simp at hnat
      omega
    exact hne hbyte

lemma AtIntegrity.sansFingerprint_eq
    (hagree : AgreeThrough (mi + 4 + attributeLength raw mi) raw raw') {m' : StunMessage}
    (hdecode : decode raw = .ok m) (hdecode' : decode raw' = .ok m') : m'.sansFingerprint = m.sansFingerprint := by
  have hmi : 20 ≤ mi := by
    rw [h.offset, stunHeaderSize]
    omega
  obtain ⟨h', hsame⟩ := h.agree hagree (by omega)
  obtain ⟨attrs, hattrs⟩ := h.attributes
  obtain ⟨-, hown⟩ := hattrs raw h m hdecode
  obtain ⟨-, hown'⟩ := hattrs raw' h' m' hdecode'
  obtain ⟨-, -, htype, hid, -, -, -⟩ := decode_eq_ok_iff.mp hdecode
  obtain ⟨-, -, htype', hid', -, -, -⟩ := decode_eq_ok_iff.mp hdecode'
  have hvalue : (raw'.drop (mi + 4)).take (attributeLength raw' mi) =
      (raw.drop (mi + 4)).take (attributeLength raw mi) := by
    rw [hsame, take_drop_eq_drop_take, take_drop_eq_drop_take, hagree.slice (by omega) (by omega)]
  have hmsgType : m'.msgType = m.msgType := by
    have hfirst : (getU16 raw').1 = (getU16 raw).1 := by rw [getU16, getU16, hagree.msgType]
    rw [hfirst, htype] at htype'
    exact (Option.some.inj htype').symm
  have htransaction : m'.transactionId = m.transactionId := by
    rw [hid, hid']
    apply pad_congr
    rw [take_drop_eq_drop_take, take_drop_eq_drop_take, hagree.slice (by omega) (by omega)]
  have hattributes : m'.sansFingerprint.attributes = m.sansFingerprint.attributes := by
    rw [hown, hown', hvalue]
  simp only [sansFingerprint, mk.injEq] at hattributes ⊢
  exact ⟨hmsgType, htransaction, hattributes⟩

end

/-- No message that agrees with `raw` through its integrity value is verified, read or handled in
another way; the fingerprint is checked apart. -/
def CoveredByIntegrity (suite : TurnSuite) (raw : Bytes) (m : StunMessage) (mi : ℕ) : Prop :=
  ∀ raw' m', AgreeThrough (mi + 4 + attributeLength raw mi) raw raw' → decode raw' = .ok m' →
    (∀ key, verifyIntegrity suite raw' key = verifyIntegrity suite raw key) ∧
    m'.sansFingerprint = m.sansFingerprint ∧
    ∀ (h : TurnHandler) (env : Env) (src : SocketAddr) (sink : ClientSink),
      verifyFingerprint suite raw' = verifyFingerprint suite raw →
      h.handleStunMessage suite env m' src sink raw' = h.handleStunMessage suite env m src sink raw

lemma covered_of_full_length (suite : TurnSuite) (hdecode : decode raw = .ok m)
    (hfind : findAttributeOffset raw messageIntegrity.toU16 = some mi)
    (hlen : 20 ≤ attributeLength raw mi) : CoveredByIntegrity suite raw m mi := by
  intro raw' m' hagree hdecode'
  obtain ⟨before, hat⟩ := exists_atIntegrity hfind
  have hverify := hat.verifyIntegrity_eq suite hagree (by omega)
  have hsans := hat.sansFingerprint_eq hagree hdecode hdecode'
  refine ⟨hverify, hsans, fun h env src sink hcrc => ?_⟩
  rw [← TurnHandler.handleStunMessage_sansFingerprint suite h env m', hsans,
    TurnHandler.handleStunMessage_sansFingerprint]
  exact TurnHandler.handleStunMessage_congr suite hverify hcrc h env m src sink

theorem integrity_covers_iff (suite : TurnSuite) {raw : Bytes} {m : StunMessage} {mi : ℕ} (hdecode : decode raw = .ok m)
    (hfind : findAttributeOffset raw messageIntegrity.toU16 = some mi) :
    (20 ≤ attributeLength raw mi → CoveredByIntegrity suite raw m mi) ∧
    ∀ key, verifyIntegrity suite raw key = true →
      (CoveredByIntegrity suite raw m mi ↔ 20 ≤ attributeLength raw mi) := by
  refine ⟨covered_of_full_length suite hdecode hfind, fun key hverify =>
    ⟨fun hcovered => ?_, covered_of_full_length suite hdecode hfind⟩⟩
  by_contra hshort
  obtain ⟨before, hat⟩ := exists_atIntegrity hfind
  obtain ⟨b, hagree, hrefused⟩ := hat.short_integrity suite hverify (not_le.mp hshort)
  obtain ⟨m', hdecode'⟩ := hat.decode_set hdecode b
  have hsame := (hcovered _ m' hagree hdecode').1 key
  rw [hrefused, hverify] at hsame
  cases hsame

def signedRequest : Bytes :=
  [0, 1, 0, 24, 0x21, 0x12, 0xA4, 0x42, 0, 0, 0, 0, 0, 0, 0, 0, 0, 0, 0, 0, 0, 8, 0, 20] ++
    ([0, 1, 0, 24, 0x21, 0x12, 0xA4, 0x42] ++ replicate 12 0)

theorem integrity_covers_signedRequest :
    CoveredByIntegrity .masks signedRequest
      ⟨.bindingRequest, Vector.replicate 12 0, [⟨8, [0, 1, 0, 24, 0x21, 0x12, 0xA4, 0x42] ++ replicate 12 0⟩]⟩ 20 :=
  ((integrity_covers_iff .masks (by decide +kernel) (by decide +kernel)).2 [] (by decide +kernel)).mpr
    (by decide +kernel)

def emptyIntegrity (b : UInt8) : Bytes :=
  [0, 3, 0, 24, 0x21, 0x12, 0xA4, 0x42, 0, 0, 0, 0, 0, 0, 0, 0, 0, 0, 0, 0, 0, 8, 0, 0, b, 0, 0, 16] ++
    replicate 16 0

theorem emptyIntegrity_not_covered :
    AgreeThrough 24 (emptyIntegrity 0) (emptyIntegrity 1) ∧
    (decode (emptyIntegrity 0)).isOk = true ∧ decode (emptyIntegrity 1) = decode (emptyIntegrity 0) ∧
    findAttributeOffset (emptyIntegrity 0) messageIntegrity.toU16 = some 20 ∧
    20 + 4 + attributeLength (emptyIntegrity 0) 20 = 24 ∧
    verifyIntegrity .masks (emptyIntegrity 0) [0, 3, 0, 8, 0x21, 0x12, 0xA4, 0x42] = true ∧
    verifyIntegrity .masks (emptyIntegrity 1) [0, 3, 0, 8, 0x21, 0x12, 0xA4, 0x42] = false := by
  refine ⟨⟨by decide, by decide, rfl, rfl⟩, ?_⟩
  decide +kernel

end AurixVoice.Turn
