import AurixVoice.Turn.Stun

/-! The two walks over the attributes of a message, described attribute by attribute. -/

namespace AurixVoice.Turn

open StunAttributeType List

def chunk (attrType : UInt16) (value padded : Bytes) : Bytes :=
  putU16 attrType ++ putU16 (UInt16.ofNat value.length) ++ value ++ padded

structure Whole (value padded : Bytes) : Prop where
  value_lt : value.length < 2 ^ 16
  padded_length : padded.length = padding value.length

variable {padded rest before : Bytes} {wanted : UInt16} (t : UInt16) {value : Bytes}

lemma length_chunk (h : Whole value padded) :
    (chunk t value padded).length = 4 + value.length + padding value.length := by
  simp only [chunk, length_append, length_putU16, h.padded_length]

lemma attributeHeader_chunk (h : value.length < 2 ^ 16) (padded tail : Bytes) :
    attributeHeader (chunk t value padded ++ tail) = (t, value.length, value ++ (padded ++ tail)) := by
  have hlen : (UInt16.ofNat value.length).toNat = value.length := by
    rw [UInt16.toNat_ofNat', Nat.mod_eq_of_lt h]
  simp [attributeHeader, chunk, append_assoc, hlen]

lemma not_short_chunk (value padded tail : Bytes) : ¬ (chunk t value padded ++ tail).length < 4 := by
  simp only [chunk, length_append, length_putU16]
  omega

lemma drop_whole (h : Whole value padded) (tail : Bytes) :
    (value ++ (padded ++ tail)).drop (value.length + padding value.length) = tail := by
  rw [← append_assoc]
  apply drop_left'
  rw [length_append, h.padded_length]

lemma findFrom_chunk (wanted t : UInt16) (i : ℕ) (h : Whole value padded) (tail : Bytes) :
    findFrom wanted i (chunk t value padded ++ tail) =
      if t = wanted then some i else findFrom wanted (i + (chunk t value padded).length) tail := by
  rw [findFrom, dif_neg (not_short_chunk t value padded tail), attributeHeader_chunk t h.value_lt]
  simp [drop_whole h, length_chunk t h, ← add_assoc]

def keep (seen : Bool) (t : UInt16) (value : Bytes) (later : List StunAttribute) : List StunAttribute :=
  if seen && t ≠ fingerprint.toU16 then later else ⟨t, value⟩ :: later

lemma decodeAttributes_chunk (seen : Bool) (t : UInt16) (h : Whole value padded) (tail : Bytes) :
    decodeAttributes seen (chunk t value padded ++ tail) =
      (decodeAttributes (seen || t = messageIntegrity.toU16) tail).map (keep seen t value) := by
  rw [decodeAttributes, dif_neg (not_short_chunk t value padded tail), attributeHeader_chunk t h.value_lt]
  have hfits : ¬ (value ++ (padded ++ tail)).length < value.length := by
    rw [length_append]
    omega
  simp only [hfits, ↓reduceIte, drop_whole h, take_left]
  cases decodeAttributes (seen || decide (t = messageIntegrity.toU16)) tail <;> rfl

lemma header_append (h : 4 ≤ rest.length) :
    putU16 (attributeHeader rest).1 ++ putU16 (UInt16.ofNat (attributeHeader rest).2.1) ++
      (attributeHeader rest).2.2 = rest := by
  have hrest : 2 ≤ (getU16 rest).2.length := by
    simp only [getU16, length_drop]
    omega
  simp only [attributeHeader, UInt16.ofNat_toNat, append_assoc]
  rw [put_getU16 hrest, put_getU16 (by omega)]

lemma attributeHeader_length_lt (rest : Bytes) : (attributeHeader rest).2.1 < 2 ^ 16 :=
  UInt16.toNat_lt _

lemma exists_chunk (h : 4 ≤ rest.length)
    (hfull : (attributeHeader rest).2.1 + padding (attributeHeader rest).2.1 ≤ (attributeHeader rest).2.2.length) :
    ∃ value padded, Whole value padded ∧ value.length = (attributeHeader rest).2.1 ∧
      rest = chunk (attributeHeader rest).1 value padded ++
        (attributeHeader rest).2.2.drop ((attributeHeader rest).2.1 + padding (attributeHeader rest).2.1) := by
  have hlt := attributeHeader_length_lt rest
  have happend := header_append h
  generalize attributeHeader rest = attr at hfull hlt happend ⊢
  obtain ⟨t, al, body⟩ := attr
  dsimp only at hfull hlt happend ⊢
  have hvalue : (body.take al).length = al := by
    rw [length_take]
    omega
  refine ⟨body.take al, (body.drop al).take (padding al), ⟨by rw [hvalue]; exact hlt, ?_⟩, hvalue, ?_⟩
  · rw [hvalue, length_take, length_drop]
    omega
  · rw [chunk, hvalue, append_assoc, append_assoc, ← drop_drop, take_append_drop, take_append_drop, happend]

inductive Skips (wanted : UInt16) : Bytes → Prop
  | nil : Skips wanted []
  | cons {t : UInt16} {value padded rest : Bytes} (hne : t ≠ wanted) (hwhole : Whole value padded)
      (hrest : Skips wanted rest) : Skips wanted (chunk t value padded ++ rest)

lemma Skips.findFrom (h : Skips wanted before) (i : ℕ) (tail : Bytes) :
    findFrom wanted i (before ++ tail) = Turn.findFrom wanted (i + before.length) tail := by
  induction h generalizing i with
  | nil => rfl
  | cons hne hwhole _ ih =>
    rw [append_assoc, findFrom_chunk _ _ _ hwhole, if_neg hne, ih, length_append, add_assoc]

lemma Skips.append {after : Bytes} (h : Skips wanted before) (h' : Skips wanted after) :
    Skips wanted (before ++ after) := by
  induction h with
  | nil => exact h'
  | cons hne hwhole _ ih =>
    rw [append_assoc]
    exact .cons hne hwhole ih

lemma findFrom_eq_some {i off : ℕ} (h : findFrom wanted i rest = some off) :
    ∃ before tail, rest = before ++ tail ∧ off = i + before.length ∧ Skips wanted before ∧
      4 ≤ tail.length ∧ (attributeHeader tail).1 = wanted := by
  fun_induction findFrom wanted i rest with
  | case1 => cases h
  | case2 i rest hlen _ hfound =>
    exact ⟨[], rest, rfl, (Option.some.inj h).symm, .nil, not_lt.mp hlen, hfound⟩
  | case3 i rest hlen attr hother ih =>
    obtain ⟨before, tail, hrest, hoff, hskips, htail, htype⟩ := ih h
    -- something follows the attribute, so all of it and of its padding is there
    have hfull : attr.2.1 + padding attr.2.1 ≤ attr.2.2.length := by
      have hlength := congrArg length hrest
      rw [length_append, length_drop] at hlength
      omega
    obtain ⟨value, padded, hwhole, hvalue, hsplit⟩ := exists_chunk (not_lt.mp hlen) hfull
    refine ⟨chunk attr.1 value padded ++ before, tail, ?_, ?_, .cons hother hwhole hskips, htail, htype⟩
    · rw [append_assoc, ← hrest]
      exact hsplit
    · rw [hoff, length_append, length_chunk _ hwhole, hvalue]
      simp only [attr]
      omega

lemma Skips.decodeAttributes (h : Skips messageIntegrity.toU16 before) :
    ∃ attrs : List StunAttribute, (∀ a ∈ attrs, a.attrType ≠ messageIntegrity.toU16) ∧
      ∀ tail, Turn.decodeAttributes false (before ++ tail) =
        (Turn.decodeAttributes false tail).map (attrs ++ ·) := by
  induction h with
  | nil =>
    refine ⟨[], by simp, fun tail => ?_⟩
    rw [nil_append]
    cases Turn.decodeAttributes false tail <;> rfl
  | @cons t value padded rest hne hwhole hrest ih =>
    obtain ⟨attrs, hattrs, hdecode⟩ := ih
    refine ⟨⟨t, value⟩ :: attrs, ?_, fun tail => ?_⟩
    · intro a ha
      obtain rfl | ha := mem_cons.mp ha
      · exact hne
      · exact hattrs a ha
    · rw [append_assoc, decodeAttributes_chunk _ _ hwhole]
      have hseen : (false || decide (t = messageIntegrity.toU16)) = false := by simp [hne]
      rw [hseen, hdecode]
      cases Turn.decodeAttributes false tail <;> rfl

lemma decodeAttributes_spec {seen : Bool} {attrs : List StunAttribute} (h : decodeAttributes seen rest = .ok attrs) :
    ∀ a ∈ attrs, a.value.length < 2 ^ 16 ∧ (seen = true → a.attrType = fingerprint.toU16) := by
  fun_induction decodeAttributes seen rest generalizing attrs with
  | case1 =>
    cases h
    simp
  | case2 => cases h
  | case3 => cases h
  | case4 seen rest hlen attr _ ignored seen' later hlater =>
    rename_i ih
    have hall : ∀ a ∈ later, a.value.length < 2 ^ 16 ∧ (seen = true → a.attrType = fingerprint.toU16) := by
      intro a ha
      obtain ⟨hlt, htype⟩ := ih hlater a ha
      exact ⟨hlt, fun hseen => htype (by simp [seen', hseen])⟩
    have hlt := attributeHeader_length_lt rest
    obtain rfl := Except.ok.inj h
    intro a ha
    split at ha
    · exact hall a ha
    next hkept =>
      obtain rfl | ha := mem_cons.mp ha
      · refine ⟨?_, fun hseen => by simpa [ignored, hseen] using hkept⟩
        rw [length_take]
        exact lt_of_le_of_lt (min_le_left _ _) hlt
      · exact hall a ha

lemma StunMessage.decode_eq_ok_iff {data : Bytes} {m : StunMessage} :
    StunMessage.decode data = .ok m ↔
      stunHeaderSize ≤ data.length ∧ (AurixVoice.getU32 (data.drop 4)).1 = stunMagicCookie ∧
      StunMessageType.fromU16 (getU16 data).1 = some m.msgType ∧ m.transactionId = pad 12 (data.drop 8) ∧
      (getU16 (data.drop 2)).1.toNat % 4 = 0 ∧ data.length = stunHeaderSize + (getU16 (data.drop 2)).1.toNat ∧
      decodeAttributes false (data.drop stunHeaderSize) = .ok m.attributes := by
  constructor
  · intro h
    unfold decode at h
    split at h
    · cases h
    rename_i hlen
    dsimp only at h
    split at h
    · cases h
    rename_i hcookie
    split at h
    · cases h
    rename_i msgType htype
    split at h
    · cases h
    rename_i halign
    split at h
    · cases h
    rename_i hsize
    split at h
    · cases h
    rename_i attributes hattrs
    obtain rfl := Except.ok.inj h
    exact ⟨not_lt.mp hlen, not_not.mp hcookie, htype, rfl, not_not.mp halign, not_not.mp hsize, hattrs⟩
  · rintro ⟨hlen, hcookie, htype, hid, halign, hsize, hattrs⟩
    unfold StunMessage.decode
    rw [if_neg (not_lt.mpr hlen)]
    rw [if_neg (not_not.mpr hcookie), htype]
    dsimp only
    rw [if_neg (not_not.mpr halign), if_neg (not_not.mpr hsize), hattrs, ← hid]

end AurixVoice.Turn
