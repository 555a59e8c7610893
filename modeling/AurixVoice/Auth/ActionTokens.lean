import AurixVoice.Library.Dict
import AurixVoice.Library.ExpiringCell
import AurixVoice.Library.Traces
import AurixVoice.Types

/-! One-time action tokens, and the registry in which the first use of a token claims its `jti`. -/

namespace AurixVoice.Auth

inductive ActionKind
  | login
  | join
  | kick
  | mute
  | unmute
  deriving DecidableEq

namespace ActionKind

def asStr : ActionKind → String
  | login => "login"
  | join => "join"
  | kick => "kick"
  | mute => "mute"
  | unmute => "unmute"

def needsChannel (a : ActionKind) : Bool := a ≠ login

def needsTarget : ActionKind → Bool
  | kick | mute | unmute => true
  | login | join => false

end ActionKind

structure ActionTokenSpec where
  action : ActionKind
  userId : UserId
  appId : AppId
  channelId : Option ChannelId
  targetUserId : Option UserId
  ttlSecs : ℤ

structure ActionClaims where
  typ : String
  act : ActionKind
  sub : UserId
  appId : AppId
  channelId : Option ChannelId
  targetUserId : Option UserId
  exp : ℕ
  iat : ℕ
  jti : String
  deriving DecidableEq

def actionTokenTyp : String := "aurix/action"

def generateActionToken (hasEncodingKey : Bool) (spec : ActionTokenSpec) (now : ℕ) (jti : String) :
    Except AurixError ActionClaims :=
  if ¬hasEncodingKey then
    .error (.authenticationFailed "No encoding key configured for token generation")
  else if spec.action.needsChannel ∧ spec.channelId = none then
    .error (.validation ("action '" ++ spec.action.asStr ++ "' requires channel_id"))
  else if spec.action.needsTarget ∧ spec.targetUserId = none then
    .error (.validation ("action '" ++ spec.action.asStr ++ "' requires target_user_id"))
  else .ok {
    typ := actionTokenTyp, act := spec.action, sub := spec.userId, appId := spec.appId
    channelId := spec.channelId, targetUserId := spec.targetUserId
    exp := now + (max spec.ttlSecs 1).toNat, iat := now, jti := jti }

variable {now : ℕ}

lemma generateActionToken_key {hasKey : Bool} {spec : ActionTokenSpec} {jti : String} {claims : ActionClaims}
    (h : generateActionToken hasKey spec now jti = .ok claims) : claims.appId = spec.appId ∧ claims.jti = jti := by
  unfold generateActionToken at h
  split_ifs at h
  cases h
  exact ⟨rfl, rfl⟩

def leeway : ℕ := 30

inductive JwtError
  | expiredSignature
  | invalidSignature
  | invalidToken
  | other

/-- `jsonwebtoken::decode` at a leeway and a time, with a key that has signed the given claims. -/
abbrev Decode := List ActionClaims → ℕ → ℕ → ActionClaims → Except JwtError ActionClaims

/-- What is assumed of the library: no claims but the signed ones pass, and none after the leeway. -/
def Decode.Sound (decode : Decode) : Prop := ∀ signed leeway now token claims,
  decode signed leeway now token = .ok claims → claims ∈ signed ∧ now ≤ claims.exp + leeway

def JwtError.toAurix : JwtError → AurixError
  | expiredSignature => .tokenExpired
  | invalidSignature => .tokenInvalid "Invalid signature"
  | invalidToken => .tokenInvalid "Malformed token"
  | other => .tokenInvalid "Token validation failed"

variable (decode : Decode)

def decodeVerified (signed : List ActionClaims) (now : ℕ) (token : ActionClaims) :
    Except AurixError ActionClaims := (decode signed leeway now token).mapError JwtError.toAurix

def validateActionToken (signed : List ActionClaims) (now : ℕ) (token : ActionClaims) :
    Except AurixError ActionClaims := do
  let claims ← decodeVerified decode signed now token
  if claims.typ ≠ actionTokenTyp then
    .error (.tokenInvalid "Not an action token")
  else if claims.act.needsChannel ∧ claims.channelId = none then
    .error (.tokenInvalid "Action token lacks channel_id")
  else if claims.act.needsTarget ∧ claims.targetUserId = none then
    .error (.tokenInvalid "Action token lacks target_user_id")
  else if claims.jti.isEmpty then
    .error (.tokenInvalid "Action token lacks jti")
  else .ok claims

def verify (signed : List ActionClaims) (now : ℕ) (token : ActionClaims) (expected : List ActionKind) :
    Except AurixError ActionClaims := do
  let v ← validateActionToken decode signed now token
  if v.act ∉ expected then
    .error (.authorizationDenied
      ("Action token authorises '" ++ v.act.asStr ++ "', not this operation"))
  else .ok v

lemma exists_of_bind_eq_ok {ε α β : Type} {x : Except ε α} {f : α → Except ε β} {b : β} (h : x >>= f = .ok b) :
    ∃ a, x = .ok a ∧ f a = .ok b := by
  cases x with
  | error => cases h
  | ok a => exact ⟨a, rfl, h⟩

section

variable {decode} {v token : ActionClaims} {signed : List ActionClaims} (hdecode : decode.Sound)
include hdecode

lemma decodeVerified_ok (h : decodeVerified decode signed now token = .ok v) : v ∈ signed ∧ now ≤ v.exp + leeway := by
  unfold decodeVerified at h
  cases hlib : decode signed leeway now token with
  | error =>
    rw [hlib] at h
    cases h
  | ok =>
    rw [hlib] at h
    cases h
    exact hdecode signed leeway now token v hlib

lemma validateActionToken_ok (h : validateActionToken decode signed now token = .ok v) :
    v ∈ signed ∧ now ≤ v.exp + leeway := by
  obtain ⟨claims, hdec, h⟩ := exists_of_bind_eq_ok h
  split_ifs at h
  cases h
  exact decodeVerified_ok hdecode hdec

lemma verify_ok {expected : List ActionKind} (h : verify decode signed now token expected = .ok v) :
    v ∈ signed ∧ now ≤ v.exp + leeway := by
  obtain ⟨claims, hval, h⟩ := exists_of_bind_eq_ok h
  split_ifs at h
  cases h
  exact validateActionToken_ok hdecode hval

end

structure PendingClaim where
  appId : AppId
  jti : String
  exp : ℕ
  deriving DecidableEq

def pending (v : ActionClaims) : PendingClaim where
  appId := v.appId
  jti := v.jti
  exp := v.exp

def PendingClaim.key (claim : PendingClaim) : String :=
  "action:" ++ claim.appId.hyphenated ++ ":" ++ claim.jti

inductive Registry
  | node (entries : Dict String ℕ)
  | redis (keys : String → ExpiringCell ℕ)

def pruned (entries : Dict String ℕ) (now : ℕ) : Dict String ℕ :=
  entries.filterValues fun expiry => now < expiry

def claimLocal (entries : Dict String ℕ) (now : ℕ) (key : String) (ttlSecs : ℕ) : Bool × Dict String ℕ :=
  let entries := if 4096 < entries.keys.card then pruned entries now else entries
  match entries.find key with
  | some expiry =>
    if expiry ≤ now then (true, entries.set key (now + ttlSecs)) else (false, entries)
  | none => (true, entries.set key (now + ttlSecs))

def claimOnce (keys : String → ExpiringCell ℕ) (now : ℕ) (key : String) (ttlSecs : ℕ) :
    Bool × (String → ExpiringCell ℕ) :=
  let redisKey := "once:" ++ key
  let (fresh, cell) := (keys redisKey).setNxEx (1000 * now) (max ttlSecs 1) 1
  (fresh, Function.update keys redisKey cell)

inductive StoreFault
  | unreached
  | lost
  deriving DecidableEq

def Registry.claim (registry : Registry) (now : ℕ) (key : String) (ttlSecs : ℕ)
    (fault : Option StoreFault) : Except AurixError Bool × Registry :=
  match registry, fault with
  | .node entries, _ =>
    let (fresh, entries) := claimLocal entries now key ttlSecs
    (.ok fresh, .node entries)
  | .redis keys, none =>
    let (fresh, keys) := claimOnce keys now key ttlSecs
    (.ok fresh, .redis keys)
  | .redis keys, some .unreached => (.error (.redis "claim_once: timed out"), .redis keys)
  | .redis keys, some .lost =>
    (.error (.redis "claim_once: timed out"), .redis (claimOnce keys now key ttlSecs).2)

def consume (registry : Registry) (now : ℕ) (claim : PendingClaim) (fault : Option StoreFault) :
    Except AurixError Unit × Registry :=
  let ttl := max (claim.exp - now) 1 + 60
  let (result, registry) := registry.claim now claim.key ttl fault
  match result with
  | .ok true => (.ok (), registry)
  | .ok false => (.error .tokenReused, registry)
  | .error e => (.error e, registry)

def Registry.prune (registry : Registry) (now : ℕ) : Registry :=
  match registry with
  | .node entries => .node (pruned entries now)
  | .redis keys => .redis keys

namespace Registry

def Holds (registry : Registry) (key : String) (t : ℕ) : Prop :=
  match registry with
  | .node entries => ∃ expiry, entries.find key = some expiry ∧ t < expiry
  | .redis keys => ((keys ("once:" ++ key)).get (1000 * t)).isSome

variable {registry : Registry} {t ttlSecs : ℕ} {key' : String} {fault : Option StoreFault} {key : String}

lemma holds_prune (hle : now ≤ t) (h : registry.Holds key t) : (registry.prune now).Holds key t := by
  cases registry with
  | redis => exact h
  | node =>
    obtain ⟨expiry, hfind, hlt⟩ := h
    refine ⟨expiry, ?_, hlt⟩
    have hkept : now < expiry := by omega
    simp [pruned, hfind, hkept]

lemma find_claimLocal (entries : Dict String ℕ) (now : ℕ) (key : String) (ttlSecs : ℕ) :
    ∃ base : Dict String ℕ, (base = entries ∨ base = pruned entries now) ∧
      ((claimLocal entries now key ttlSecs = (false, base) ∧
          ∃ expiry, base.find key = some expiry ∧ now < expiry) ∨
        (claimLocal entries now key ttlSecs = (true, base.set key (now + ttlSecs)) ∧
          ∀ expiry, base.find key = some expiry → expiry ≤ now)) := by
  refine ⟨if 4096 < entries.keys.card then pruned entries now else entries, ?_, ?_⟩
  · split
    · exact .inr rfl
    · exact .inl rfl
  · unfold claimLocal
    generalize (if 4096 < entries.keys.card then pruned entries now else entries) = base
    dsimp only
    cases hfind : base.find key with
    | none => exact .inr ⟨rfl, fun _ he => nomatch he⟩
    | some expiry =>
      by_cases hle : expiry ≤ now
      · refine .inr ⟨by simp [hle], fun e he => ?_⟩
        cases he
        exact hle
      · exact .inl ⟨by simp [hle], expiry, rfl, by omega⟩

lemma holds_claimOnce {keys : String → ExpiringCell ℕ} (hle : now ≤ t)
    (h : Holds (.redis keys) key' t) : Holds (.redis (claimOnce keys now key ttlSecs).2) key' t := by
  unfold claimOnce ExpiringCell.setNxEx
  have hnow : 1000 * now ≤ 1000 * t := by omega
  obtain ⟨v, hv⟩ := Option.isSome_iff_exists.mp h
  simp only [Holds]
  by_cases hkey : "once:" ++ key' = "once:" ++ key
  · rw [hkey] at hv ⊢
    rw [Function.update_self, if_pos (by rw [ExpiringCell.get_of_le hnow hv]; rfl)]
    simp [hv]
  · rw [Function.update_of_ne hkey]
    simp [hv]

lemma holds_claim (hle : now ≤ t) (h : registry.Holds key' t) :
    (registry.claim now key ttlSecs fault).2.Holds key' t := by
  cases registry with
  | node entries =>
    obtain ⟨base, hbase, hclaim⟩ := find_claimLocal entries now key ttlSecs
    have hheld : Holds (.node base) key' t := by
      rcases hbase with rfl | rfl
      · exact h
      · exact holds_prune hle h
    obtain ⟨expiry, hfind, hlt⟩ := hheld
    rcases hclaim with ⟨hc, _⟩ | ⟨hc, hold⟩
    · simp only [claim, hc]
      exact ⟨expiry, hfind, hlt⟩
    · simp only [claim, hc]
      refine ⟨expiry, ?_, hlt⟩
      have hne : key' ≠ key := by
        rintro rfl
        have := hold expiry hfind
        omega
      simp [hne, hfind]
  | redis =>
    cases fault with
    | none => exact holds_claimOnce hle h
    | some fault =>
      cases fault with
      | unreached => exact h
      | lost => exact holds_claimOnce hle h

lemma claim_ok_true (h : (registry.claim now key ttlSecs fault).1 = .ok true) :
    ¬registry.Holds key now ∧
      ∀ t < now + ttlSecs, (registry.claim now key ttlSecs fault).2.Holds key t := by
  cases registry with
  | node entries =>
    obtain ⟨base, hbase, hclaim⟩ := find_claimLocal entries now key ttlSecs
    rcases hclaim with ⟨hc, _⟩ | ⟨hc, hold⟩
    · simp only [claim, hc] at h
      cases h
    · constructor
      · intro hheld
        have hheld : Holds (.node base) key now := by
          rcases hbase with rfl | rfl
          · exact hheld
          · exact holds_prune le_rfl hheld
        obtain ⟨expiry, hfind, hlt⟩ := hheld
        have := hold expiry hfind
        omega
      · intro t ht
        simp only [claim, hc]
        exact ⟨now + ttlSecs, by simp, ht⟩
  | redis =>
    cases fault with
    | some fault => cases fault <;> cases h
    | none =>
      simp only [claim, claimOnce, ExpiringCell.setNxEx, Holds] at h ⊢
      split at h
      · cases h
      · next hget =>
        refine ⟨hget, fun t ht => ?_⟩
        rw [if_neg hget, Function.update_self, ExpiringCell.get_setEx, if_pos (by omega)]
        rfl

variable {claim : PendingClaim}

lemma holds_consume (hle : now ≤ t) (h : registry.Holds key t) :
    (consume registry now claim fault).2.Holds key t := by
  have hclaim : ∀ ttl, (registry.claim now claim.key ttl fault).2.Holds key t :=
    fun _ => holds_claim hle h
  unfold consume
  dsimp only
  split <;> exact hclaim _

lemma consume_ok (h : (consume registry now claim fault).1 = .ok ()) :
    ¬registry.Holds claim.key now ∧
      ∀ t < claim.exp + 60, (consume registry now claim fault).2.Holds claim.key t := by
  unfold consume at h ⊢
  dsimp only at h ⊢
  split at h
  · next hres =>
    obtain ⟨hfree, hheld⟩ := claim_ok_true hres
    exact ⟨hfree, fun t ht => hheld t (by omega)⟩
  · cases h
  · cases h

end Registry

/-- The service with what it has signed and verified. `consumed` are the uses of tokens that came at
most 30 seconds after a verification. -/
structure Service where
  now : ℕ
  signed : List ActionClaims
  verified : List (PendingClaim × ℕ)
  registry : Registry
  consumed : List (AppId × String)

def Service.RecentlyVerified (s : Service) (claim : PendingClaim) : Prop :=
  ∃ p ∈ s.verified, p.1 = claim ∧ s.now ≤ p.2 + 30

instance (s : Service) (claim : PendingClaim) : Decidable (s.RecentlyVerified claim) := by
  unfold Service.RecentlyVerified
  infer_instance

inductive Event
  | tick (seconds : ℕ)
  | mint (hasEncodingKey : Bool) (spec : ActionTokenSpec) (jti : String)
  | verify (token : ActionClaims) (expected : List ActionKind)
  | consume (claim : PendingClaim) (fault : Option StoreFault)
  | prune

namespace Service

/-- A UUID is drawn once, so a `jti` that was signed before is not drawn again. -/
def mint (s : Service) (hasEncodingKey : Bool) (spec : ActionTokenSpec) (jti : String) : Service :=
  if ∃ c ∈ s.signed, c.jti = jti then s
  else match generateActionToken hasEncodingKey spec s.now jti with
    | .ok claims => { s with signed := claims :: s.signed }
    | .error _ => s

def verifyToken (s : Service) (token : ActionClaims) (expected : List ActionKind) : Service :=
  match verify decode s.signed s.now token expected with
  | .ok v => { s with verified := (pending v, s.now) :: s.verified }
  | .error _ => s

def consumeClaim (s : Service) (claim : PendingClaim) (fault : Option StoreFault) : Service :=
  let (result, registry) := consume s.registry s.now claim fault
  let s' := { s with registry := registry }
  if result = .ok () ∧ s.RecentlyVerified claim then
    { s' with consumed := (claim.appId, claim.jti) :: s'.consumed }
  else s'

end Service

def step (s : Service) : Event → Service
  | .tick seconds => { s with now := s.now + seconds }
  | .mint hasEncodingKey spec jti => s.mint hasEncodingKey spec jti
  | .verify token expected => s.verifyToken decode token expected
  | .consume claim fault => s.consumeClaim claim fault
  | .prune => { s with registry := s.registry.prune s.now }

namespace Service

structure Remembers (s : Service) : Prop where
  unique : ∀ c ∈ s.signed, ∀ d ∈ s.signed, c.jti = d.jti → c = d
  verified_signed : ∀ p ∈ s.verified,
    ∃ c ∈ s.signed, p.1 = pending c ∧ p.2 ≤ c.exp + leeway
  held : ∀ u ∈ s.consumed, ∃ c ∈ s.signed, u = (c.appId, c.jti) ∧
    ∀ t, s.now ≤ t → t < c.exp + 60 → s.registry.Holds (pending c).key t
  nodup : s.consumed.Nodup

variable {decode} {s : Service}

section

variable (h : s.Remembers)
include h

lemma remembers_tick (seconds : ℕ) : ({ s with now := s.now + seconds } : Service).Remembers := by
  refine ⟨h.unique, h.verified_signed, fun u hu => ?_, h.nodup⟩
  obtain ⟨c, hc, heq, hheld⟩ := h.held u hu
  exact ⟨c, hc, heq, fun t hle => hheld t (le_trans (Nat.le_add_right _ _) hle)⟩

lemma remembers_mint (hasKey : Bool) (spec : ActionTokenSpec) (jti : String) : (s.mint hasKey spec jti).Remembers := by
  unfold mint
  split_ifs with hused
  · exact h
  cases hgen : generateActionToken hasKey spec s.now jti with
  | error => exact h
  | ok claims =>
    have hjti := (generateActionToken_key hgen).2
    have hnew : ∀ c ∈ s.signed, c.jti ≠ claims.jti :=
      fun c hc heq => hused ⟨c, hc, heq.trans hjti⟩
    refine ⟨?_, fun p hp => ?_, fun u hu => ?_, h.nodup⟩
    · intro c hc d hd heq
      rcases List.mem_cons.mp hc with hc' | hc'
      · rcases List.mem_cons.mp hd with hd' | hd'
        · exact hc'.trans hd'.symm
        · exact absurd (heq.symm.trans (congrArg _ hc')) (hnew d hd')
      · rcases List.mem_cons.mp hd with hd' | hd'
        · exact absurd (heq.trans (congrArg _ hd')) (hnew c hc')
        · exact h.unique c hc' d hd' heq
    · obtain ⟨c, hc, hp⟩ := h.verified_signed p hp
      exact ⟨c, List.mem_cons_of_mem _ hc, hp⟩
    · obtain ⟨c, hc, hu⟩ := h.held u hu
      exact ⟨c, List.mem_cons_of_mem _ hc, hu⟩

lemma remembers_verifyToken (hdecode : decode.Sound) (token : ActionClaims)
    (expected : List ActionKind) : (s.verifyToken decode token expected).Remembers := by
  unfold verifyToken
  split
  · next v hv =>
    obtain ⟨hsigned, hfresh⟩ := verify_ok hdecode hv
    refine ⟨h.unique, fun p hp => ?_, h.held, h.nodup⟩
    rcases List.mem_cons.mp hp with rfl | hp
    · exact ⟨v, hsigned, rfl, hfresh⟩
    · exact h.verified_signed p hp
  · exact h

lemma remembers_prune : ({ s with registry := s.registry.prune s.now } : Service).Remembers := by
  refine ⟨h.unique, h.verified_signed, fun u hu => ?_, h.nodup⟩
  obtain ⟨c, hc, heq, hheld⟩ := h.held u hu
  exact ⟨c, hc, heq, fun t hle hlt => Registry.holds_prune hle (hheld t hle hlt)⟩

lemma Remembers.of_recentlyVerified
    (hrecent : s.RecentlyVerified claim) : ∃ c ∈ s.signed, claim = pending c ∧ s.now ≤ claim.exp + 60 := by
  obtain ⟨p, hp, rfl, hnow⟩ := hrecent
  obtain ⟨c, hc, heq, hle⟩ := h.verified_signed p hp
  have hexp : p.1.exp = c.exp := congrArg PendingClaim.exp heq
  refine ⟨c, hc, heq, ?_⟩
  unfold leeway at hle
  omega

lemma remembers_consumeClaim {fault : Option StoreFault}
    (htime : s.RecentlyVerified claim → s.now ≠ claim.exp + 60) : (s.consumeClaim claim fault).Remembers := by
  -- whatever the answer, the records that stand survive the call
  have hkept : ∀ u ∈ s.consumed, ∃ c ∈ s.signed, u = (c.appId, c.jti) ∧ ∀ t, s.now ≤ t → t < c.exp + 60 →
      (consume s.registry s.now claim fault).2.Holds (pending c).key t := by
    intro u hu
    obtain ⟨c, hc, heq, hheld⟩ := h.held u hu
    exact ⟨c, hc, heq, fun t hle hlt => Registry.holds_consume hle (hheld t hle hlt)⟩
  unfold consumeClaim
  dsimp only
  split_ifs with hused
  · obtain ⟨hok, hrecent⟩ := hused
    obtain ⟨c, hc, rfl, hnow⟩ := h.of_recentlyVerified hrecent
    have hlt : s.now < c.exp + 60 := lt_of_le_of_ne hnow (htime hrecent)
    obtain ⟨hfree, hheld⟩ := Registry.consume_ok hok
    refine ⟨h.unique, h.verified_signed, fun u hu => ?_, List.nodup_cons.mpr ⟨fun hmem => ?_, h.nodup⟩⟩
    · rcases List.mem_cons.mp hu with rfl | hu
      · exact ⟨c, hc, rfl, fun t _ ht => hheld t ht⟩
      · exact hkept u hu
    · -- an earlier use of the token would still be on record
      obtain ⟨d, hd, heq, hstands⟩ := h.held _ hmem
      have hcd : c = d := h.unique c hc d hd (congrArg Prod.snd heq)
      subst hcd
      exact hfree (hstands s.now le_rfl hlt)
  · exact ⟨h.unique, h.verified_signed, hkept, h.nodup⟩

end

end Service

/-- No use of a token falls into the 60th second after its expiry. A use can come so late only when it
follows by 30 seconds a verification in the last second of the leeway. -/
def BeforeLastSecond (s : Service) : Event → Prop
  | .consume claim _ => s.RecentlyVerified claim → s.now ≠ claim.exp + 60
  | _ => True

lemma remembers_step {s : Service} {e : Event} (hdecode : decode.Sound) (h : s.Remembers)
    (htime : BeforeLastSecond s e) : (step decode s e).Remembers := by
  cases e with
  | tick seconds => exact Service.remembers_tick h seconds
  | mint hasKey spec jti => exact Service.remembers_mint h hasKey spec jti
  | verify token expected => exact Service.remembers_verifyToken h hdecode token expected
  | consume => exact Service.remembers_consumeClaim h htime
  | prune => exact Service.remembers_prune h

def initial (now : ℕ) (registry : Registry) : Service where
  now := now
  signed := []
  verified := []
  registry := registry
  consumed := []

lemma remembers_initial (now : ℕ) (registry : Registry) : (initial now registry).Remembers where
  unique _ hc := nomatch hc
  verified_signed _ hp := nomatch hp
  held _ hu := nomatch hu
  nodup := List.nodup_nil

theorem tokens_used_once (hdecode : decode.Sound) (now : ℕ) (registry : Registry) (events : List Event)
    (htime : Traces.Meets (step decode) BeforeLastSecond (initial now registry) events) :
    (events.foldl (step decode) (initial now registry)).consumed.Nodup :=
  (Traces.meets_invariant Service.Remembers (fun _ _ => remembers_step decode hdecode) htime
    (remembers_initial now registry)).nodup

namespace Sample

def spec : ActionTokenSpec where
  action := .login
  userId := 1
  appId := 2
  channelId := none
  targetUserId := none
  ttlSecs := 100

def token : ActionClaims where
  typ := actionTokenTyp
  act := .login
  sub := 1
  appId := 2
  channelId := none
  targetUserId := none
  exp := 1100
  iat := 1000
  jti := "a"

def usedTwice (wait : ℕ) : List Event :=
  [.mint true spec "a", .verify token [.login], .consume (pending token) none, .tick 130, .prune,
    .verify token [.login], .tick wait, .consume (pending token) none]

/-- The tests of the library's version 9.3.1. -/
def jsonwebtoken : Decode := fun signed leeway now token =>
  if token ∉ signed then .error .invalidSignature
  else if token.exp < now - leeway then .error .expiredSignature
  else .ok token

lemma jsonwebtoken_sound : jsonwebtoken.Sound := by
  intro signed leeway now token claims h
  unfold jsonwebtoken at h
  split_ifs at h with hsigned hexp
  cases h
  exact ⟨hsigned, by omega⟩

theorem tokens_used_once_node :
    ((usedTwice 29).foldl (step jsonwebtoken) (initial 1000 (.node Dict.empty))).consumed.Nodup := by
  apply tokens_used_once jsonwebtoken jsonwebtoken_sound
  simp only [Traces.Meets, usedTwice, BeforeLastSecond]
  decide +kernel

theorem token_used_again :
    ¬((usedTwice 30).foldl (step jsonwebtoken) (initial 1000 (.node Dict.empty))).consumed.Nodup ∧
      ¬((usedTwice 30).foldl (step jsonwebtoken) (initial 1000 (.redis fun _ => .empty))).consumed.Nodup := by
  decide +kernel

end Sample

end AurixVoice.Auth
