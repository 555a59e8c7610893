import AurixVoice.E2ee.Group

/-! What one member has yet to receive from another, and what its record and its keys will be then. -/

namespace AurixVoice.E2ee

open List Finset

inductive Wire
  | hello (channelId : ChannelId)
  | senderKey (channelId : ChannelId) (generation : UInt8) (wrapped : Bytes)
  | left (channelId : ChannelId)
  deriving DecidableEq

namespace Wire

def channel : Wire → ChannelId
  | hello c | senderKey c _ _ | left c => c

def isNotice : Wire → Bool
  | left _ => true
  | hello _ | senderKey .. => false

def onto (record : Finset ChannelId) : Wire → Finset ChannelId
  | hello c | senderKey c _ _ => insert c record
  | left c => record.erase c

end Wire

def recorded (record : Finset ChannelId) (queue : List Wire) : Finset ChannelId := queue.foldl Wire.onto record

variable {record record' channels channels' : Finset ChannelId} {queue : List Wire} {m : Wire} {c d : ChannelId}

lemma recorded_append (p : List Wire) : recorded record (queue ++ p) = recorded (recorded record queue) p := by
  simp [recorded, foldl_append]

lemma mem_onto_congr (h : c ∈ record ↔ c ∈ record') : c ∈ m.onto record ↔ c ∈ m.onto record' := by
  cases m <;> simp [Wire.onto, h]

lemma mem_recorded_congr (h : c ∈ record ↔ c ∈ record') : c ∈ recorded record queue ↔ c ∈ recorded record' queue := by
  induction queue generalizing record record' with
  | nil => exact h
  | cons m queue ih => exact ih (mem_onto_congr h)

lemma recorded_subset (h : record ⊆ record') : recorded record queue ⊆ recorded record' queue := by
  induction queue generalizing record record' with
  | nil => exact h
  | cons m queue ih =>
    apply ih
    cases m with
    | hello c | senderKey c => exact insert_subset_insert c h
    | left c => exact erase_subset_erase c h

lemma announced_of_mem_recorded (h : c ∈ recorded record queue) :
    c ∈ record ∨ ∃ m ∈ queue, m.channel = c ∧ m.isNotice = false := by
  induction queue generalizing record with
  | nil => exact .inl h
  | cons m queue ih =>
    rcases ih h with hm | ⟨m', hm', hc⟩
    · cases m with
      | hello =>
        rcases mem_insert.mp hm with rfl | hm
        · exact .inr ⟨.hello c, mem_cons_self, rfl, rfl⟩
        · exact .inl hm
      | senderKey d generation wrapped =>
        rcases mem_insert.mp hm with rfl | hm
        · exact .inr ⟨.senderKey c generation wrapped, mem_cons_self, rfl, rfl⟩
        · exact .inl hm
      | left => exact .inl (mem_of_mem_erase hm)
    · exact .inr ⟨m', mem_cons_of_mem _ hm', hc⟩

def Lasts (channels record : Finset ChannelId) (queue : List Wire) : Prop :=
  ∀ p, p <+: queue → (recorded record p ∩ channels).Nonempty

lemma Lasts.now (h : Lasts channels record queue) : (record ∩ channels).Nonempty := h [] nil_prefix

lemma Lasts.finally (h : Lasts channels record queue) : (recorded record queue ∩ channels).Nonempty :=
  h queue (prefix_refl _)

lemma Lasts.of_append {p : List Wire} (h : Lasts channels record (queue ++ p)) : Lasts channels record queue :=
  fun _ hp => h _ (hp.trans (prefix_append _ _))

lemma Lasts.cons (hnow : (record ∩ channels).Nonempty) (h : Lasts channels (m.onto record) queue) :
    Lasts channels record (m :: queue) := by
  intro p hp
  rcases prefix_cons_iff.mp hp with rfl | ⟨p', rfl, hp'⟩
  · exact hnow
  · exact h p' hp'

lemma Lasts.mono (h : Lasts channels record queue)
    (hle : ∀ p, recorded record p ∩ channels ⊆ recorded record' p ∩ channels') : Lasts channels' record' queue :=
  fun p hp => (h p hp).mono (hle p)

variable {carried : UInt8 → Bytes → Prop} {held held' : Prop}

def Wire.keeps (channels : Finset ChannelId) (carried : UInt8 → Bytes → Prop) (record : Finset ChannelId)
    (held : Prop) : Wire → Prop
  | hello _ => held
  | senderKey c generation wrapped => if c ∈ channels then carried generation wrapped else held
  | left c => held ∧ (record.erase c ∩ channels).Nonempty

def Keyed (channels : Finset ChannelId) (carried : UInt8 → Bytes → Prop) :
    Finset ChannelId → Prop → List Wire → Prop
  | _, held, [] => held
  | record, held, m :: queue =>
    Keyed channels carried (m.onto record) (m.keeps channels carried record held) queue

lemma keyed_concat :
    Keyed channels carried record held (queue ++ [m]) ↔
      m.keeps channels carried (recorded record queue) (Keyed channels carried record held queue) := by
  induction queue generalizing record held with
  | nil => exact Iff.rfl
  | cons m' queue ih => exact ih

lemma Wire.keeps_imp (hrec : (m.onto record ∩ channels).Nonempty → (m.onto record' ∩ channels').Nonempty)
    (hkey : ∀ c generation wrapped, m = .senderKey c generation wrapped → (c ∈ channels ↔ c ∈ channels'))
    (hheld : held → held') (h : m.keeps channels carried record held) : m.keeps channels' carried record' held' := by
  cases m with
  | hello => exact hheld h
  | senderKey c generation wrapped =>
    simp only [keeps, hkey c generation wrapped rfl] at h ⊢
    split_ifs at h ⊢
    · exact h
    · exact hheld h
  | left => exact ⟨hheld h.1, hrec h.2⟩

lemma Keyed.imp
    (hrec : ∀ p, p <+: queue → (recorded record p ∩ channels).Nonempty → (recorded record' p ∩ channels').Nonempty)
    (hkey : ∀ c generation wrapped, Wire.senderKey c generation wrapped ∈ queue → (c ∈ channels ↔ c ∈ channels'))
    (hheld : held → held') (h : Keyed channels carried record held queue) :
    Keyed channels' carried record' held' queue := by
  induction queue generalizing record record' held held' with
  | nil => exact hheld h
  | cons m queue ih =>
    have hafter : ∀ p, p <+: queue → (recorded (m.onto record) p ∩ channels).Nonempty →
        (recorded (m.onto record') p ∩ channels').Nonempty :=
      fun p hp => hrec (m :: p) (cons_prefix_cons.mpr ⟨rfl, hp⟩)
    refine ih hafter (fun c g w hm => hkey c g w (mem_cons_of_mem _ hm)) ?_ h
    refine Wire.keeps_imp (hafter [] nil_prefix) ?_ hheld
    rintro c g w rfl
    exact hkey c g w mem_cons_self

lemma Keyed.imp_held (hheld : held → held') (h : Keyed channels carried record held queue) :
    Keyed channels carried record held' queue :=
  h.imp (fun _ _ => id) (fun _ _ _ _ => Iff.rfl) hheld

lemma Keyed.nonempty (h : Keyed channels carried record held queue)
    (hheld : held → (record ∩ channels).Nonempty) : (recorded record queue ∩ channels).Nonempty := by
  induction queue generalizing record held with
  | nil => exact hheld h
  | cons m queue ih =>
    refine ih h ?_
    have hmore : ∀ d, (record ∩ channels).Nonempty → (insert d record ∩ channels).Nonempty :=
      fun d hn => hn.mono (inter_subset_inter_right (subset_insert d record))
    cases m with
    | hello c => exact fun hh => hmore c (hheld hh)
    | senderKey c =>
      intro hh
      simp only [Wire.keeps] at hh
      split_ifs at hh with hc
      · exact ⟨c, mem_inter.mpr ⟨mem_insert_self c record, hc⟩⟩
      · exact hmore c (hheld hh)
    | left => exact fun hh => hh.2

end AurixVoice.E2ee
