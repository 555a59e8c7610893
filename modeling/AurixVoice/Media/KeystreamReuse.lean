import AurixVoice.Media.StreamCounters

namespace AurixVoice.Media

open Protocol Traces StreamNode List

variable (suite : Suite)

structure SealLog where
  node : StreamNode
  seals : List SealedPacket

namespace SealLog

def init (starts : ℕ → UInt32) : SealLog := ⟨.init starts, []⟩

def step (s : SealLog) (e : StreamEvent) : SealLog :=
  ⟨s.node.next suite e, s.node.emitted suite e ++ s.seals⟩

/-- A stream shares its SSRC with no other one under the keys it is sealed for, unless both carry what
a participant says and their counters have covered disjoint ranges: the client's own numbers, this
node's when it forwards or echoes the SSRC, and another node's when it relays it. -/
def Apart (s : SealLog) (e : StreamEvent) : Prop :=
  ∀ l ∈ s.node.label suite e, ∀ y ∈ s.seals, y.key ∈ s.node.keys e → y.stream ≠ l.stream →
    y.header.ssrc ≠ l.ssrc ∨ (s.node.next suite e).Disjoint y.key y.stream l.stream

def Careful (s : SealLog) (e : StreamEvent) : Prop :=
  s.node.NumberFree suite e ∧ s.Apart suite e ∧ e.Once

instance (s : SealLog) (e : StreamEvent) : Decidable (s.Careful suite e) := by
  unfold Careful Apart
  infer_instance

def nonce (x : SealedPacket) : ℕ × PacketType × UInt32 × UInt32 × UInt32 := (x.key, x.header.nonceFields)

structure Unique (s : SealLog) : Prop where
  counted : s.node.Counted
  key_lt : ∀ y ∈ s.seals, y.key < s.node.drawn
  handed : ∀ y ∈ s.seals, s.node.Handed y.key y.header.sequence y.stream
  nodup : (s.seals.map nonce).Nodup

variable {suite} {e : StreamEvent} {s : SealLog}

lemma Unique.new (h : s.Unique) (he : s.Careful suite e)
    {x y : SealedPacket} (hx : x ∈ s.node.emitted suite e) (hy : y ∈ s.seals) : nonce x ≠ nonce y := by
  intro heq
  obtain ⟨hkey, hnonce⟩ := Prod.mk.inj heq
  obtain ⟨l, hl, hstream, hlabel⟩ := mem_emitted hx
  have hmem : y.key ∈ s.node.keys e := hkey ▸ key_mem_keys hx
  have hsame : y.header.nonceFields = l.nonceFields := hnonce.symm.trans hlabel
  have hhanded := h.handed y hy
  by_cases hother : y.stream = l.stream
  · -- the counter of the stream never gives this number out twice
    rw [hother, Label.sequence_eq hsame] at hhanded
    exact not_handed h.counted he.1 hl hmem hhanded
  · rcases he.2.1 l hl y hy hmem hother with hssrc | hdisjoint
    · exact hssrc (Label.ssrc_eq hsame)
    · have hold := hhanded.next h.counted he.1 (h.key_lt y hy)
      have hnew := handed_of_label h.counted hl hmem
      exact hdisjoint.handed_ne (h.counted.next he.1) hold hnew (Label.sequence_eq hsame)

lemma Unique.emitted_nodup (h : s.Unique) (he : s.Careful suite e) : ((s.node.emitted suite e).map nonce).Nodup := by
  apply List.Nodup.of_map Prod.fst
  rw [map_map]
  exact (h.counted.nodup_keys he.2.2).sublist (s.node.map_key_emitted e)

lemma Unique.step (h : s.Unique) (he : s.Careful suite e) : (s.step suite e).Unique where
  counted := h.counted.next he.1
  key_lt := by
    intro y hy
    apply lt_of_lt_of_le _ (s.node.drawn_next e)
    rcases mem_append.mp hy with hy | hy
    · exact h.counted.lt_of_mem_keys (key_mem_keys hy)
    · exact h.key_lt y hy
  handed := by
    intro y hy
    rcases mem_append.mp hy with hy | hy
    · obtain ⟨l, hl, hstream, hlabel⟩ := mem_emitted hy
      rw [hstream, Label.sequence_eq hlabel]
      exact handed_of_label h.counted hl (key_mem_keys hy)
    · exact (h.handed y hy).next h.counted he.1 (h.key_lt y hy)
  nodup := by
    simp only [SealLog.step, map_append]
    apply nodup_append.mpr
    refine ⟨h.emitted_nodup he, h.nodup, ?_⟩
    intro a ha b hb
    obtain ⟨x, hx, rfl⟩ := mem_map.mp ha
    obtain ⟨y, hy, rfl⟩ := mem_map.mp hb
    exact h.new he hx hy

lemma unique_init (starts : ℕ → UInt32) : (init starts).Unique where
  counted := counted_init starts
  key_lt _ h := by cases h
  handed _ h := by cases h
  nodup := nodup_nil

def levelled (sequence timestamp : UInt32) : AurixPacket :=
  .new (((PacketHeader.new .audio sequence timestamp 5).setFlag .e2ee).setFlag .energy) [30, 7]

def toReceiver (id : SessionId) : Delivery := ⟨id, 1.0, none, none⟩

def onlyTo (id : SessionId) : FanOut := ⟨[toReceiver id], nodup_singleton id⟩

def talk : List StreamEvent :=
  [.create 1 5 0 100, .create 2 6 0 200, .clientAudio 0 (levelled 100 0),
    .routeAudio 1 (levelled 100 0) none ⟨[toReceiver 1, toReceiver 2], by decide⟩,
    .relay 0 (.uplink 40 0) 1, .routeRelayed 0 (levelled 300 960) (onlyTo 1),
    .inject 4 .system [1] (onlyTo 1) none, .emitMix 2 4 .opus [2] 1.0]

def Reuses (seals : List SealedPacket) : Prop :=
  ∃ x ∈ seals, ∃ y ∈ seals, x.key = y.key ∧ x.header.nonceFields = y.header.nonceFields ∧ x.body ≠ y.body

def translatedMix : List StreamEvent :=
  [.create 1 5 0 100, .inject 4 (.listener 1) [1] (onlyTo 1) none, .emitMix 1 4 .opus [2] 1.0]

def echoed : List StreamEvent :=
  [.create 1 5 0 0, .clientAudio 0 (levelled 0 0), .routeAudio 1 (levelled 0 0) none (onlyTo 1)]

instance (seals : List SealedPacket) : Decidable (Reuses seals) :=
  inferInstanceAs (Decidable (∃ x ∈ seals, ∃ y ∈ seals,
    x.key = y.key ∧ x.header.nonceFields = y.header.nonceFields ∧ x.body ≠ y.body))

end SealLog

end AurixVoice.Media
