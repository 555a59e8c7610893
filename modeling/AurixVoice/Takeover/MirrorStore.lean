import AurixVoice.Library.ExpiringCell
import AurixVoice.Types

/-! The owner and the mirror of one session in the shared store. Each function is a script, so it runs at once. -/

namespace AurixVoice.Takeover

abbrev NodeId := Uuid

inductive TakeoverRefused
  | notMirrored
  | denied
  | raced
  deriving DecidableEq

structure MirrorStore (M : Type) where
  now : ℕ
  owner : ExpiringCell NodeId
  mirror : ExpiringCell M

namespace MirrorStore

variable {M : Type} (s : MirrorStore M) (node : NodeId)

def getSessionNode : Option NodeId := s.owner.get s.now

def getSessionMirror : Option M := s.mirror.get s.now

def writeSessionMirror (mirror : M) (ttlSecs : ℕ) : Bool × MirrorStore M :=
  if s.getSessionNode.any (· ≠ node) then (false, s)
  else (true,
    { s with
      owner := .setEx s.now (max ttlSecs 1) node
      mirror := .setEx s.now (max ttlSecs 1) mirror })

def claimSession (expected : NodeId) (ttlSecs : ℕ) : Except TakeoverRefused Unit × MirrorStore M :=
  if s.getSessionMirror.isNone then (.error .notMirrored, s)
  else if s.getSessionNode.any fun owner => owner ≠ expected ∧ owner ≠ node then (.error .raced, s)
  else (.ok (), { s with owner := .setEx s.now (max ttlSecs 1) node })

def releaseSessionClaim (previous : Option NodeId) : Bool × MirrorStore M :=
  if s.getSessionNode.any (· ≠ node) then (false, s)
  else
    match previous with
    | none => (true, { s with owner := .empty, mirror := .empty })
    | some previous =>
      let ttl := s.mirror.ttl s.now
      if 0 < ttl then (true, { s with owner := .setEx s.now ttl.toNat previous })
      else (true, { s with owner := .empty, mirror := .empty })

def deleteSessionMirror : Bool × MirrorStore M := s.releaseSessionClaim node none

variable {s node}

lemma owner_writeSessionMirror {other : NodeId} (h : s.getSessionNode = some other) (m : M) (ttl : ℕ) :
    (s.writeSessionMirror node m ttl).2.getSessionNode = some other := by
  unfold writeSessionMirror
  rw [h, Option.any_some]
  split
  · exact h
  next heq =>
    have hsame : other = node := by simpa using heq
    rw [hsame]
    exact ExpiringCell.get_setEx_self (by omega)

lemma owner_claimSession {expected : NodeId} {ttl : ℕ} (h : (s.claimSession node expected ttl).1 = .ok ()) :
    (s.claimSession node expected ttl).2.getSessionNode = some node := by
  unfold claimSession at h ⊢
  split at h
  · cases h
  next hmirror =>
    split at h
    · cases h
    next howner =>
      rw [if_neg hmirror, if_neg howner]
      exact ExpiringCell.get_setEx_self (by omega)

lemma releaseSessionClaim_other {other : NodeId} (h : s.getSessionNode = some other) (hne : other ≠ node)
    (previous : Option NodeId) : s.releaseSessionClaim node previous = (false, s) := by
  unfold releaseSessionClaim
  rw [h, Option.any_some, if_pos (by simpa using hne)]

lemma claimSession_of_no_mirror (h : s.getSessionMirror = none) (expected : NodeId) (ttl : ℕ) :
    s.claimSession node expected ttl = (.error .notMirrored, s) := by
  unfold claimSession
  rw [h, if_pos Option.isNone_none]

lemma mirror_releaseSessionClaim (h : s.getSessionMirror = none) (previous : Option NodeId) :
    (s.releaseSessionClaim node previous).2.getSessionMirror = none := by
  unfold releaseSessionClaim
  split
  · exact h
  · split
    · rfl
    · dsimp only
      split
      · exact h
      · rfl

end MirrorStore

end AurixVoice.Takeover
