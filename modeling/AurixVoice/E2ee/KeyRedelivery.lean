import AurixVoice.E2ee.PeerKeys
import AurixVoice.Library.Traces

/-!
Runs of one sender's `PeerKeys`. The replay window lives in the entry of its generation, so it is only as
old as the last delivery of that generation's key.
-/

namespace AurixVoice.E2ee

open Traces

variable (crypto : Crypto)

inductive PeerKeysOp
  | insert (key : SenderKey)
  | openFrame (frame : Bytes)

structure Received where
  keys : PeerKeys
  accepted : List (UInt8 × UInt32)

namespace Received

def init : Received := ⟨.empty, []⟩

def step (s : Received) : PeerKeysOp → Received
  | .insert key => ⟨s.keys.insert key, s.accepted⟩
  | .openFrame frame =>
    match s.keys.openFrame crypto frame, SenderKey.peek frame with
    | (.ok _, keys), some number => ⟨keys, number :: s.accepted⟩
    | (_, keys), _ => ⟨keys, s.accepted⟩

def FreshGeneration (s : Received) : PeerKeysOp → Prop
  | .insert key => ∀ counter, (key.generation, counter) ∉ s.accepted
  | .openFrame _ => True

structure Guarded (s : Received) : Prop where
  distinct : s.keys.Distinct
  seen : ∀ e ∈ s.keys.generations, ∀ counter,
    (e.1.generation, counter) ∈ s.accepted → e.2.Seen counter
  nodup : s.accepted.Nodup

lemma init_guarded : init.Guarded :=
  ⟨by simp [init, PeerKeys.empty, PeerKeys.Distinct], by simp [init, PeerKeys.empty], by simp [init]⟩

variable {crypto}

lemma insert_guarded {s : Received} {key : SenderKey} (h : s.Guarded)
    (hfresh : s.FreshGeneration (.insert key)) : (s.step crypto (.insert key)).Guarded where
  distinct := PeerKeys.insert_distinct h.distinct key
  seen := by
    intro e he counter hc
    rcases PeerKeys.mem_insert he with rfl | ⟨hm, _⟩
    · exact absurd hc (hfresh counter)
    · exact h.seen e hm counter hc
  nodup := h.nodup

lemma openFrame_guarded {s : Received} (h : s.Guarded) (frame : Bytes) :
    (s.step crypto (.openFrame frame)).Guarded := by
  rcases s.keys.openFrame_cases crypto frame with ⟨e, he⟩ | hok
  · simp only [step, he]
    exact h
  · obtain ⟨key, replay, counter, plain, hpeek, hmem, _, hnot, hopen⟩ := hok
    have hnew : (key.generation, counter) ∉ s.accepted := fun hc =>
      hnot (h.seen (key, replay) hmem counter hc)
    simp only [step, hopen, hpeek]
    refine ⟨?_, ?_, List.nodup_cons.mpr ⟨hnew, h.nodup⟩⟩
    · rw [PeerKeys.Distinct, PeerKeys.setReplay_generations]
      exact h.distinct
    · intro e he c hc
      -- the entry the frame was opened with has just recorded its counter, the others are as before
      rcases PeerKeys.mem_setReplay h.distinct he with ⟨hgen, hreplay⟩ | ⟨hgen, he'⟩
      · rw [hreplay]
        rcases List.mem_cons.mp hc with hc | hc
        · obtain ⟨_, rfl⟩ := Prod.mk.inj hc
          exact replay.seen_accept c
        · rw [hgen] at hc
          exact (h.seen (key, replay) hmem c hc).accept counter
      · rcases List.mem_cons.mp hc with hc | hc
        · exact absurd (Prod.mk.inj hc).1 hgen
        · exact h.seen e he' c hc

lemma step_guarded (s : Received) (op : PeerKeysOp) (h : s.Guarded) (hok : s.FreshGeneration op) :
    (s.step crypto op).Guarded := by
  cases op with
  | insert => exact insert_guarded h hok
  | openFrame frame => exact openFrame_guarded h frame

theorem accepted_at_most_once (ops : List PeerKeysOp)
    (h : Meets (step crypto) FreshGeneration init ops) : (ops.foldl (step crypto) init).accepted.Nodup :=
  (meets_invariant Guarded step_guarded h init_guarded).nodup

def sampleKey : SenderKey := .derive .masks 1 (Vector.replicate 32 7)

def sampleFrame : Bytes := sampleKey.sealFrame .masks 0 [0xf8, 0xff]

theorem accepted_at_most_once_sample :
    ([.insert sampleKey, .openFrame sampleFrame, .openFrame sampleFrame].foldl
      (step .masks) init).accepted.Nodup :=
  accepted_at_most_once _ ⟨by simp [FreshGeneration, init], trivial, trivial, trivial⟩

lemma foldl_insert_openFrame (key : SenderKey) (counter : UInt32) (plain : Bytes) (s : Received)
    (hkeys : s.keys.insert key = ⟨[(key, .new)]⟩) :
    [.insert key, .openFrame (key.sealFrame crypto counter plain)].foldl (step crypto) s =
      ⟨⟨[(key, (ReplayState.new.accept counter).2)]⟩, (key.generation, counter) :: s.accepted⟩ := by
  simp [step, hkeys, PeerKeys.openFrame, SenderKey.peek_sealFrame, SenderKey.openFrame_sealFrame,
    PeerKeys.setReplay, ReplayState.accept, ReplayState.new]

theorem redelivered_key_reopens :
    ¬ ([.insert sampleKey, .openFrame sampleFrame, .insert sampleKey, .openFrame sampleFrame].foldl
      (step .masks) init).accepted.Nodup := by
  have hfirst : PeerKeys.empty.insert sampleKey = ⟨[(sampleKey, .new)]⟩ := by
    simp [PeerKeys.insert, PeerKeys.empty, keptGenerations]
  have hagain (replay : ReplayState) :
      (PeerKeys.mk [(sampleKey, replay)]).insert sampleKey = ⟨[(sampleKey, .new)]⟩ := by
    simp [PeerKeys.insert, keptGenerations]
  change ¬ ([.insert sampleKey, .openFrame sampleFrame].foldl (step .masks)
    ([.insert sampleKey, .openFrame sampleFrame].foldl (step .masks) init)).accepted.Nodup
  rw [sampleFrame, foldl_insert_openFrame _ _ _ init hfirst, foldl_insert_openFrame _ _ _ _ (hagain _)]
  simp

end Received

end AurixVoice.E2ee
