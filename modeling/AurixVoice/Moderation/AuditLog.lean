import AurixVoice.Protocol.Header

/-! The hash-chained audit log of `audit.rs`. The hash and what `serde_json` makes of the details are parameters. -/

namespace AurixVoice.Moderation

open Protocol (Bytes)

variable {Action Details : Type}

structure AuditCall (Action Details : Type) where
  appId : Option AppId
  actorId : UserId
  action : Action
  targetType : Bytes
  targetId : Bytes
  details : Details
  ipAddress : Option Bytes
  timestamp : ℤ
  deriving DecidableEq

structure AuditLogEntry (Action Details : Type) extends AuditCall Action Details where
  previousHash : Bytes
  hash : Bytes

variable (sha256 : Bytes → Bytes) (toVec : Details → Bytes)

def computeAuditHash (previousHash data : Bytes) : Bytes := sha256 (previousHash ++ data)

def hashedData (c : AuditCall Action Details) : Bytes :=
  toVec c.details ++ toBe 16 c.actorId.bits.toNat ++ c.targetType ++ c.targetId

def entryOf (last : Bytes) (c : AuditCall Action Details) : AuditLogEntry Action Details :=
  { c with previousHash := last, hash := computeAuditHash sha256 last (hashedData toVec c) }

def genesis : Bytes := "genesis".toUTF8.toList

/-- The entries that reach storage in a run of `log` calls, given with whether the queue takes each; the
hash moves on when an entry is dropped, too. -/
def storedFrom (last : Bytes) : List (AuditCall Action Details × Bool) → List (AuditLogEntry Action Details)
  | [] => []
  | (c, queued) :: calls =>
    let entry := entryOf sha256 toVec last c
    (if queued then [entry] else []) ++ storedFrom entry.hash calls

def Chained (previous : Bytes) : List (AuditLogEntry Action Details) → Prop
  | [] => True
  | entry :: entries => entry.previousHash = previous ∧ Chained entry.hash entries

lemma storedFrom_of_dropped (last : Bytes) {calls : List (AuditCall Action Details × Bool)}
    (h : ∀ call ∈ calls, call.2 = false) : storedFrom sha256 toVec last calls = [] := by
  induction calls generalizing last with
  | nil => rfl
  | cons call calls ih =>
    obtain ⟨hcall, hcalls⟩ := List.forall_mem_cons.mp h
    simp [storedFrom, hcall, ih _ hcalls]

lemma chained_storedFrom (last : Bytes) {before after : List (AuditCall Action Details × Bool)}
    (hbefore : ∀ call ∈ before, call.2 = true) (hafter : ∀ call ∈ after, call.2 = false) :
    Chained last (storedFrom sha256 toVec last (before ++ after)) := by
  induction before generalizing last with
  | nil =>
    rw [List.nil_append, storedFrom_of_dropped sha256 toVec last hafter]
    trivial
  | cons call calls ih =>
    obtain ⟨hcall, hcalls⟩ := List.forall_mem_cons.mp hbefore
    simp only [List.cons_append, storedFrom, hcall, if_true]
    exact ⟨rfl, ih _ hcalls⟩

/-- The chain is unbroken if no entry is stored after one that was dropped; and two entries are told
apart by their hash behind the same previous hash if and only if what is hashed of them differs. -/
theorem audit_log_tamper_evident (hsha : Function.Injective sha256)
    (before after : List (AuditCall Action Details × Bool)) :
    ((∀ call ∈ before, call.2 = true) → (∀ call ∈ after, call.2 = false) →
      Chained genesis (storedFrom sha256 toVec genesis (before ++ after))) ∧
    ∀ (last : Bytes) (c c' : AuditCall Action Details),
      (c ≠ c' → (entryOf sha256 toVec last c).hash ≠ (entryOf sha256 toVec last c').hash) ↔
        (c ≠ c' → toVec c.details ++ toBe 16 c.actorId.bits.toNat ++ c.targetType ++ c.targetId ≠
          toVec c'.details ++ toBe 16 c'.actorId.bits.toNat ++ c'.targetType ++ c'.targetId) := by
  refine ⟨chained_storedFrom sha256 toVec genesis, fun last c c' => ?_⟩
  have hhash : (entryOf sha256 toVec last c).hash = (entryOf sha256 toVec last c').hash ↔
      hashedData toVec c = hashedData toVec c' := by
    rw [entryOf, entryOf, computeAuditHash, computeAuditHash, hsha.eq_iff, List.append_cancel_left_eq]
  exact imp_congr_right fun _ => not_congr hhash

def ban (targetType targetId : String) (timestamp : ℤ) : AuditCall String Bytes :=
  ⟨none, 7, "user_banned", targetType.toUTF8.toList, targetId.toUTF8.toList, [], none, timestamp⟩

theorem audit_log_broken :
    ¬ Chained genesis (storedFrom id id genesis
      [(ban "user" "12" 0, true), (ban "user" "13" 1, false), (ban "user" "14" 2, true)]) ∧
    ban "user" "12" 0 ≠ ban "user1" "2" 5 ∧
    (entryOf id id genesis (ban "user" "12" 0)).hash = (entryOf id id genesis (ban "user1" "2" 5)).hash := by
  refine ⟨fun h => ?_, by decide +kernel, by decide +kernel⟩
  exact absurd h.2.1 (by decide +kernel)

theorem audit_log_kept :
    Chained genesis (storedFrom id id genesis ([(ban "user" "12" 0, true), (ban "user" "13" 1, true)] ++
      [(ban "user" "14" 2, false)])) ∧
    (entryOf id id genesis (ban "user" "12" 0)).hash ≠ (entryOf id id genesis (ban "user" "13" 0)).hash := by
  have h := audit_log_tamper_evident id (id : Bytes → Bytes) Function.injective_id
    [(ban "user" "12" 0, true), (ban "user" "13" 1, true)] [(ban "user" "14" 2, false)]
  exact ⟨h.1 (by simp) (by simp),
    (h.2 genesis (ban "user" "12" 0) (ban "user" "13" 0)).mpr (fun _ => by decide +kernel) (by decide +kernel)⟩

end AurixVoice.Moderation
