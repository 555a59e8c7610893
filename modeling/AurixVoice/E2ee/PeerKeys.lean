import AurixVoice.E2ee.ReplayState
import AurixVoice.E2ee.SenderKey

namespace AurixVoice.E2ee

open List

variable (crypto : Crypto)

structure PeerKeys where
  generations : List (SenderKey × ReplayState)
  deriving DecidableEq

namespace PeerKeys

def empty : PeerKeys := ⟨[]⟩

def insert (p : PeerKeys) (key : SenderKey) : PeerKeys :=
  let kept := p.generations.filter (fun e => e.1.generation ≠ key.generation) ++ [(key, .new)]
  ⟨kept.drop (kept.length - keptGenerations)⟩

def isEmpty (p : PeerKeys) : Bool := p.generations.isEmpty

def hasGeneration (p : PeerKeys) (generation : UInt8) : Bool :=
  p.generations.any fun e => e.1.generation = generation

def setReplay (generation : UInt8) (replay : ReplayState) :
    List (SenderKey × ReplayState) → List (SenderKey × ReplayState)
  | [] => []
  | e :: es =>
    if e.1.generation = generation then (e.1, replay) :: es else e :: setReplay generation replay es

def openFrame (p : PeerKeys) (frame : Bytes) : Except AurixError Bytes × PeerKeys :=
  match SenderKey.peek frame with
  | none => (.error (.encryption "E2EE frame too short"), p)
  | some (generation, counter) =>
    match p.generations.find? (fun e => e.1.generation = generation) with
    | none => (.error (.encryption "no key for this E2EE generation"), p)
    | some (key, replay) =>
      match key.openFrame crypto frame with
      | .error e => (.error e, p)
      | .ok plain =>
        let p' : PeerKeys := ⟨setReplay generation (replay.accept counter).2 p.generations⟩
        if (replay.accept counter).1 then (.ok plain, p')
        else (.error (.encryption "replayed E2EE frame"), p')

def Distinct (p : PeerKeys) : Prop := (p.generations.map fun e => e.1.generation).Nodup

variable {p : PeerKeys} {e : SenderKey × ReplayState} {es : List (SenderKey × ReplayState)}

lemma mem_insert {key : SenderKey} (h : e ∈ (p.insert key).generations) :
    e = (key, .new) ∨ (e ∈ p.generations ∧ e.1.generation ≠ key.generation) := by
  have he := mem_of_mem_drop h
  simp only [mem_append, mem_filter, decide_eq_true_eq, mem_singleton] at he
  exact he.symm

lemma insert_distinct (h : p.Distinct) (key : SenderKey) : (p.insert key).Distinct := by
  simp only [Distinct, insert, map_drop]
  refine Nodup.sublist (drop_sublist _ _) ?_
  rw [map_append, nodup_append]
  refine ⟨h.sublist (filter_sublist.map _), by simp, ?_⟩
  intro g hg g' hg'
  simp only [mem_map, mem_filter, decide_eq_true_eq, mem_singleton] at hg hg'
  obtain ⟨e, ⟨_, hne⟩, rfl⟩ := hg
  obtain ⟨e', rfl, rfl⟩ := hg'
  exact hne

lemma setReplay_generations (generation : UInt8) (replay : ReplayState) (es : List (SenderKey × ReplayState)) :
    (setReplay generation replay es).map (fun e => e.1.generation) = es.map fun e => e.1.generation := by
  induction es with
  | nil => rfl
  | cons e es ih =>
    by_cases he : e.1.generation = generation
    · simp [setReplay, he]
    · simp [setReplay, he, ih]

lemma mem_setReplay {generation : UInt8} {replay : ReplayState} (hd : (es.map fun e => e.1.generation).Nodup)
    (h : e ∈ setReplay generation replay es) :
    (e.1.generation = generation ∧ e.2 = replay) ∨ (e.1.generation ≠ generation ∧ e ∈ es) := by
  induction es with
  | nil => cases h
  | cons e₀ es ih =>
    rw [map_cons, nodup_cons] at hd
    by_cases he : e₀.1.generation = generation
    · simp only [setReplay, he, ↓reduceIte, mem_cons] at h
      rcases h with rfl | h
      · exact .inl ⟨he, rfl⟩
      · refine .inr ⟨fun hg => hd.1 ?_, mem_cons_of_mem _ h⟩
        rw [he, ← hg]
        exact mem_map_of_mem h
    · simp only [setReplay, he, ↓reduceIte, mem_cons] at h
      rcases h with rfl | h
      · exact .inr ⟨he, mem_cons_self⟩
      · exact (ih hd.2 h).imp_right fun ⟨hne, hm⟩ => ⟨hne, mem_cons_of_mem _ hm⟩

lemma setReplay_of_find {key : SenderKey} {replay : ReplayState}
    (h : es.find? (fun e => e.1.generation = key.generation) = some (key, replay)) (next : ReplayState) :
    setReplay key.generation replay es = es ∧
      (setReplay key.generation next es).find? (fun e => e.1.generation = key.generation) = some (key, next) := by
  induction es with
  | nil => cases h
  | cons e es ih =>
    by_cases he : e.1.generation = key.generation
    · simp only [find?_cons, he, decide_true, Option.some.injEq] at h
      simp [setReplay, h]
    · simp only [find?_cons, he, decide_false] at h
      simp [setReplay, he, ih h]

lemma openFrame_cases (p : PeerKeys) (frame : Bytes) :
    (∃ e, p.openFrame crypto frame = (.error e, p)) ∨
    ∃ key replay counter plain,
      SenderKey.peek frame = some (key.generation, counter) ∧ (key, replay) ∈ p.generations ∧
      key.openFrame crypto frame = .ok plain ∧ ¬ replay.Seen counter ∧
      p.openFrame crypto frame =
        (.ok plain, ⟨setReplay key.generation (replay.accept counter).2 p.generations⟩) := by
  unfold openFrame
  cases hpeek : SenderKey.peek frame with
  | none => exact .inl ⟨_, rfl⟩
  | some gc =>
    obtain ⟨generation, counter⟩ := gc
    dsimp only
    cases hfind : p.generations.find? (fun e => e.1.generation = generation) with
    | none => exact .inl ⟨_, rfl⟩
    | some kr =>
      obtain ⟨key, replay⟩ := kr
      have hmem := mem_of_find?_eq_some hfind
      have hgen : key.generation = generation := by simpa using find?_some hfind
      subst hgen
      dsimp only
      cases hopen : key.openFrame crypto frame with
      | error => exact .inl ⟨_, rfl⟩
      | ok plain =>
        dsimp only
        by_cases hs : replay.Seen counter
        · left
          rw [ReplayState.accept_of_seen hs, (setReplay_of_find hfind replay).1]
          exact ⟨_, rfl⟩
        · right
          refine ⟨key, replay, counter, plain, rfl, hmem, hopen, hs, ?_⟩
          rw [if_pos ((ReplayState.accept_iff replay counter).mpr hs)]

end PeerKeys

end AurixVoice.E2ee
