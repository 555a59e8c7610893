import Mathlib.Algebra.Group.Nat.Defs
import Mathlib.Data.Nat.Basic
import Mathlib.Order.Basic
import Mathlib.Tactic.Common

namespace AurixVoice

structure Uuid where
  bits : BitVec 128
  deriving DecidableEq

instance : LinearOrder Uuid :=
  LinearOrder.lift' (fun u => u.bits.toNat) (fun u v h => by
    cases u; cases v; simpa [BitVec.toNat_eq] using h)

instance (n : ℕ) : OfNat Uuid n := ⟨⟨BitVec.ofNat 128 n⟩⟩

abbrev UserId := Uuid
abbrev ChannelId := Uuid
abbrev SessionId := Uuid
abbrev AppId := Uuid
abbrev MediaNodeId := Uuid

def Uuid.hyphenated (u : Uuid) : String :=
  String.ofList ((List.range 32).flatMap fun i =>
    let digit := Nat.digitChar (u.bits.toNat / 16 ^ (31 - i) % 16)
    if i ∈ [8, 12, 16, 20] then ['-', digit] else [digit])

inductive AurixError
  | encryption (message : String)
  | validation (message : String)
  | transport (message : String)
  | authenticationFailed (message : String)
  | authorizationDenied (message : String)
  | sessionNotFound (message : String)
  | stunTurn (message : String)
  | channelFull (message : String)
  | channelNotFound (message : String)
  | channelLimitExceeded (message : String)
  | mediaNodeUnavailable (message : String)
  | userNotFound (message : String)
  | internal (message : String)
  | tokenExpired
  | tokenInvalid (message : String)
  | tokenReused
  | redis (message : String)
  deriving DecidableEq, Repr

end AurixVoice
