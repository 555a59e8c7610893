import AurixVoice.Channel.Admission
import AurixVoice.Library.Traces

namespace AurixVoice.Channel

open Media (ChannelRole)
open Dict Option Finset

lemma maxBy_mem {α : Type} {cmp : α → α → Ordering} {xs : List α} {x : α} (h : maxBy cmp xs = some x) : x ∈ xs := by
  have hfold : ∀ (ys : List α) (best : α),
      ys.foldl (fun best y => if cmp best y = .gt then best else y) best ∈ best :: ys := by
    intro ys
    induction ys with
    | nil => exact fun best => List.mem_cons_self
    | cons y ys ih =>
      intro best
      rw [List.foldl_cons]
      split
      · exact List.mem_cons.mpr ((List.mem_cons.mp (ih best)).imp_right (List.mem_cons_of_mem y))
      · exact List.mem_cons_of_mem best (ih y)
  cases xs with
  | nil => cases h
  | cons y ys =>
    obtain rfl := some.inj h
    exact hfold ys y

lemma toNat_add_one {n : UInt32} {m : ℕ} (h : n.toNat < m) (hm : m < 2 ^ 32) : (n + 1).toNat = n.toNat + 1 := by
  rw [UInt32.toNat_add, UInt32.toNat_one]
  omega

lemma toNat_sub_one {n : UInt32} (h : 0 < n.toNat) : (n - 1).toNat = n.toNat - 1 :=
  UInt32.toNat_sub_of_le n 1 (UInt32.le_iff_toNat_le.mpr h)

lemma toNat_of_reserveSlot {count max reserved : UInt32} (h : reserveSlot count max = some reserved) :
    reserved.toNat = count.toNat + 1 ∧ reserved.toNat ≤ max.toNat := by
  unfold reserveSlot at h
  split at h
  · cases h
  next hlt =>
    obtain rfl := some.inj h
    rw [UInt32.le_iff_toNat_le, not_le] at hlt
    rw [toNat_add_one hlt max.toNat_lt]
    exact ⟨rfl, hlt⟩

namespace MediaChannel

variable {V P : Type}

def speaking (c : MediaChannel V P) : ℕ := c.participantRoles.count fun r => r.role.canSpeak

def maxSpeakers (c : MediaChannel V P) : UInt32 :=
  (c.config.audience.map AudienceConfig.maxSpeakers).getD 0

def Privileged (c : MediaChannel V P) (user : UserId) : Prop :=
  user ∈ c.priority ∨ (c.participantRoles.find user).any (fun r => r.granted.canModerate) = true

instance (c : MediaChannel V P) (user : UserId) : Decidable (c.Privileged user) :=
  inferInstanceAs (Decidable (_ ∨ _))

structure Slotted (config : ChannelConfig V) (c : MediaChannel V P) : Prop where
  config_eq : c.config = config
  members : c.participantRoles.keys = c.participants.keys
  room : c.participants.keys.card ≤ config.maxParticipants.toNat
  spoken : c.localSpeakers.toNat = c.speaking
  slots : 0 < c.maxSpeakers → c.speaking ≤ c.maxSpeakers.toNat
  effective : c.participantRoles.All fun _ r => r.role = r.granted ∨ r.role = .listener

structure Sound (config : ChannelConfig V) (c : MediaChannel V P) : Prop extends Slotted config c where
  counted : c.participantCount.toNat = c.participants.keys.card

variable {config : ChannelConfig V} {c : MediaChannel V P}

lemma speaking_le (h : Slotted config c) : c.speaking ≤ c.participants.keys.card := by
  rw [← h.members]
  exact count_le_card _ _

lemma card_lt (h : Slotted config c) : c.participants.keys.card < 2 ^ 32 :=
  lt_of_le_of_lt h.room config.maxParticipants.toNat_lt

lemma speaking_eq (h : Slotted config c) :
    (c.participants.keys.filter fun user => (c.getRole user).canSpeak = true).card = c.speaking := by
  rw [← h.members, speaking, count]
  congr 1
  apply filter_congr
  intro user _
  unfold getRole
  cases c.participantRoles.find user <;> simp [ChannelRole.canSpeak]

lemma keys_set_of_find {K U : Type} [DecidableEq K] {d : Dict K U} {k : K} {v : U} (h : d.find k = some v)
    (w : U) : (d.set k w).keys = d.keys := insert_eq_of_mem (mem_keys_iff.mpr ⟨v, h⟩)

variable {r r' entered : LocalRole} {c₁ c₂ c₃ c' : MediaChannel V P} {idleMs : ℤ} {victim : UserId}

lemma Slotted.setRole (h : Slotted config c) {user : UserId} {speakers : UInt32}
    (hr : c.participantRoles.find user = some r) (hcount : speakers.toNat + (if r.role.canSpeak then 1 else 0) =
      c.localSpeakers.toNat + (if r'.role.canSpeak then 1 else 0))
    (hlimit : r'.role.canSpeak → !r.role.canSpeak → 0 < c.maxSpeakers → c.speaking < c.maxSpeakers.toNat)
    (heffective : r'.role = r'.granted ∨ r'.role = .listener) :
    Slotted config
      { c with localSpeakers := speakers, participantRoles := c.participantRoles.set user r' } := by
  have hbefore : c.speaking = _ := count_eq_erase _ _ user
  have hafter : speaking
      { c with localSpeakers := speakers, participantRoles := c.participantRoles.set user r' } = _ :=
    count_set _ _ user r'
  rw [hr, any_some] at hbefore
  have hspoken := h.spoken
  constructor
  · exact h.config_eq
  · exact (keys_set_of_find hr r').trans h.members
  · exact h.room
  · change speakers.toNat = _
    omega
  · intro hmax
    have hslots := h.slots hmax
    rw [hafter]
    change _ ≤ c.maxSpeakers.toNat
    cases hr' : r'.role.canSpeak with
    | false =>
      rw [if_neg Bool.false_ne_true]
      omega
    | true =>
      rw [if_pos rfl]
      cases hold : r.role.canSpeak with
      | false =>
        have hlt := hlimit hr' (by simp [hold]) hmax
        omega
      | true =>
        rw [hold, if_pos rfl] at hbefore
        omega
  · exact h.effective.set heffective

lemma Slotted.demoteLocked (h : Slotted config c) (env : Env) (user : UserId) :
    Slotted config (c.demoteLocked env user) := by
  unfold MediaChannel.demoteLocked
  cases hr : c.participantRoles.find user with
  | none => exact h
  | some r =>
    apply h.setRole hr
    · have hpos : r.role.canSpeak = true → 0 < c.localSpeakers.toNat := by
        intro hspeaks
        have hbefore : c.speaking = _ := count_eq_erase _ _ user
        rw [hr, any_some, if_pos hspeaks] at hbefore
        rw [h.spoken]
        omega
      cases hspeaks : r.role.canSpeak with
      | false => simp [ChannelRole.canSpeak]
      | true =>
        have := hpos hspeaks
        simp only [if_true, toNat_sub_one this, ChannelRole.canSpeak]
        simp
        omega
    · intro hspeaks
      simp [ChannelRole.canSpeak] at hspeaks
    · exact .inr rfl

lemma speaking_demoteLocked (env : Env) {user : UserId} (hr : c.participantRoles.find user = some r)
    (hspeaks : r.role.canSpeak = true) : (c.demoteLocked env user).speaking + 1 = c.speaking := by
  have hbefore : c.speaking = _ := count_eq_erase _ _ user
  rw [hr, any_some, if_pos hspeaks] at hbefore
  rw [hbefore, demoteLocked, hr]
  simp [speaking, count_set, ChannelRole.canSpeak]

lemma Slotted.admitLocked (h : Slotted config c) (env : Env) (user : UserId)
    (hfree : 0 < c.maxSpeakers → c.speaking < c.maxSpeakers.toNat) : Slotted config (c.admitLocked env user) := by
  unfold MediaChannel.admitLocked
  cases hr : c.participantRoles.find user with
  | none => exact h
  | some r =>
    apply h.setRole hr
    · have hroom : r.role.canSpeak = false → c.localSpeakers.toNat < c.participants.keys.card := by
        intro hsilent
        rw [h.spoken, ← h.members]
        apply card_lt_card
        apply filter_ssubset.mpr
        exact ⟨user, mem_keys_iff.mpr ⟨r, hr⟩, by simp [hr, hsilent]⟩
      have hkept := h.effective user r hr
      cases hspeaks : r.role.canSpeak with
      | false =>
        cases hgranted : r.granted.canSpeak with
        | false => simp
        | true => simp [toNat_add_one (hroom hspeaks) (card_lt h)]
      | true =>
        have hgranted : r.granted.canSpeak = true := by
          rcases hkept with hkept | hkept
          · rw [← hkept]
            exact hspeaks
          · rw [hkept] at hspeaks
            cases hspeaks
        simp [hgranted]
    · exact fun _ _ hmax => hfree hmax
    · exact .inl rfl

structure SameGrants (c c' : MediaChannel V P) : Prop where
  config_eq : c'.config = c.config
  priority : c'.priority = c.priority
  participants : c'.participants = c.participants
  count : c'.participantCount = c.participantCount
  granted : ∀ user, (c'.participantRoles.find user).map LocalRole.granted =
    (c.participantRoles.find user).map LocalRole.granted

lemma SameGrants.refl (c : MediaChannel V P) : SameGrants c c :=
  ⟨rfl, rfl, rfl, rfl, fun _ => rfl⟩

lemma SameGrants.trans (h : SameGrants c₁ c₂) (h' : SameGrants c₂ c₃) : SameGrants c₁ c₃ :=
  ⟨h'.config_eq.trans h.config_eq, h'.priority.trans h.priority, h'.participants.trans h.participants,
    h'.count.trans h.count, fun user => (h'.granted user).trans (h.granted user)⟩

lemma SameGrants.privileged (h : SameGrants c c') (user : UserId) : c'.Privileged user ↔ c.Privileged user := by
  have hany (c : MediaChannel V P) : (c.participantRoles.find user).any (fun r => r.granted.canModerate) =
      ((c.participantRoles.find user).map LocalRole.granted).any ChannelRole.canModerate := by
    cases c.participantRoles.find user <;> rfl
  rw [Privileged, Privileged, h.priority, hany, hany, h.granted]

lemma sameGrants_setRole {user : UserId} (hr : c.participantRoles.find user = some r)
    (hgranted : r'.granted = r.granted) (speakers : UInt32) :
    SameGrants c
      { c with localSpeakers := speakers, participantRoles := c.participantRoles.set user r' } := by
  refine ⟨rfl, rfl, rfl, rfl, ?_⟩
  intro other
  rw [find_set]
  split
  next heq => rw [heq, hr, map_some, map_some, hgranted]
  · rfl

section

variable (c : MediaChannel V P) (env : Env) (user : UserId)

lemma sameGrants_demoteLocked : SameGrants c (c.demoteLocked env user) := by
  unfold demoteLocked
  cases hr : c.participantRoles.find user with
  | none => exact .refl c
  | some =>
    apply sameGrants_setRole hr
    rfl

lemma sameGrants_admitLocked : SameGrants c (c.admitLocked env user) := by
  unfold admitLocked
  cases hr : c.participantRoles.find user with
  | none => exact .refl c
  | some =>
    apply sameGrants_setRole hr
    rfl

end

lemma idleSpeaker_spec {env : Env} (h : c.idleSpeaker env idleMs = some victim) :
    victim ∉ c.priority ∧ ∃ r, c.participantRoles.find victim = some r ∧ r.role = .speaker := by
  obtain ⟨idle, hidle, rfl⟩ := map_eq_some_iff.mp h
  obtain ⟨⟨user, r⟩, hmem, hcandidate⟩ := List.mem_filterMap.mp (maxBy_mem hidle)
  unfold idleCandidate at hcandidate
  split at hcandidate
  next hplain =>
    obtain ⟨session, -, hsilent⟩ := bind_eq_some_iff.mp hcandidate
    dsimp only at hsilent
    split at hsilent
    · obtain rfl := some.inj hsilent
      exact ⟨hplain.2, r, mem_entries.mp hmem, hplain.1⟩
    · cases hsilent
  · cases hcandidate

lemma not_privileged_of_idleSpeaker (h : Slotted config c) {env : Env}
    (hvictim : c.idleSpeaker env idleMs = some victim) : ¬ c.Privileged victim := by
  obtain ⟨hpriority, r, hr, hrole⟩ := idleSpeaker_spec hvictim
  rintro (hflag | hmoderates)
  · exact hpriority hflag
  · rw [hr, any_some] at hmoderates
    rcases h.effective victim r hr with hkept | hkept
    · rw [← hkept, hrole] at hmoderates
      cases hmoderates
    · rw [hrole] at hkept
      cases hkept

lemma demoted_of_idleSpeaker (h : Slotted config c) {env : Env} (hvictim : c.idleSpeaker env idleMs = some victim) :
    0 < c.maxSpeakers → (c.demoteLocked env victim).speaking < c.maxSpeakers.toNat := by
  intro hmax
  obtain ⟨-, r, hr, hrole⟩ := idleSpeaker_spec hvictim
  have hyield := speaking_demoteLocked env hr (by rw [hrole]; rfl)
  have := h.slots hmax
  omega

lemma speaking_lt_of_speakerCount (h : Slotted config c) {n : ℕ} (hcount : c.speakerCount < n) : c.speaking < n := by
  unfold speakerCount at hcount
  have := h.spoken
  omega

lemma maxSpeakers_eq_of_sameGrants (h : SameGrants c c') : c'.maxSpeakers = c.maxSpeakers := by
  unfold maxSpeakers
  rw [h.config_eq]

lemma Slotted.admitLoop (env : Env) (queue : List UserId) (h : Slotted config c) :
    Slotted config (c.admitLoop env c.maxSpeakers queue).2 ∧
      SameGrants c (c.admitLoop env c.maxSpeakers queue).2 := by
  induction queue generalizing c with
  | nil => exact ⟨h, .refl c⟩
  | cons user queue ih =>
    unfold admitLoop
    split
    · exact ⟨h, .refl c⟩
    next hfree =>
      have hgrants := sameGrants_admitLocked c env user
      have hadmitted := h.admitLocked env user fun hmax =>
        speaking_lt_of_speakerCount h (not_le.mp fun hfull => hfree ⟨hmax, hfull⟩)
      obtain ⟨hrest, hkept⟩ := ih hadmitted
      rw [maxSpeakers_eq_of_sameGrants hgrants] at hrest hkept
      exact ⟨hrest, hgrants.trans hkept⟩

lemma getRole_admitLocked (h : Slotted config c) (env : Env) {user : UserId} (waiting : UserId)
    (hspeaks : (c.getRole user).canSpeak = true) : (c.admitLocked env waiting).getRole user = c.getRole user := by
  unfold getRole at hspeaks ⊢
  unfold admitLocked
  cases hr : c.participantRoles.find waiting with
  | none => rfl
  | some r =>
    rw [find_set]
    split
    next heq =>
      rw [heq, hr] at hspeaks ⊢
      rcases h.effective waiting r hr with hkept | hkept
      · exact hkept.symm
      · simp [hkept, ChannelRole.canSpeak] at hspeaks
    · rfl

lemma getRole_demoteLocked (env : Env) {user : UserId} (hne : user ≠ victim) :
    (c.demoteLocked env victim).getRole user = c.getRole user := by
  unfold getRole demoteLocked
  cases hr : c.participantRoles.find victim with
  | none => rfl
  | some =>
    rw [find_set, if_neg hne]

lemma userId_of_roleChange {user : UserId} {observers : Option (List UserId)} {change : RoleChange}
    (h : c.roleChange user observers = some change) : change.userId = user := by
  obtain ⟨session, -, rfl⟩ := map_eq_some_iff.mp h
  rfl

def GrantSpeaks (c : MediaChannel V P) (user : UserId) : Prop :=
  ((c.participantRoles.find user).map LocalRole.granted).any ChannelRole.canSpeak = true

lemma SameGrants.grantSpeaks (h : SameGrants c c') {user : UserId}
    (hspeaks : c.GrantSpeaks user) : c'.GrantSpeaks user := by
  rw [GrantSpeaks, h.granted]
  exact hspeaks

lemma grantSpeaks_of_mem_waitingQueue {env : Env} {wantingOnly : Bool} {user : UserId}
    (h : user ∈ c.waitingQueue env wantingOnly) : c.GrantSpeaks user := by
  obtain ⟨entry, hentry, rfl⟩ := List.mem_map.mp h
  obtain ⟨⟨user, r⟩, hmem, rfl⟩ := List.mem_map.mp (List.mem_mergeSort.mp hentry)
  obtain ⟨hfind, hwants⟩ := List.mem_filter.mp hmem
  have hslot : r.wantsSlot = true := (of_decide_eq_true hwants).1
  rw [GrantSpeaks, mem_entries.mp hfind]
  exact (Bool.and_eq_true_iff.mp hslot).2

structure Rotates (config : ChannelConfig V) (c : MediaChannel V P) (changes : List RoleChange)
    (c' : MediaChannel V P) : Prop where
  slotted : Slotted config c'
  grants : SameGrants c c'
  keeps : ∀ user, c.Privileged user → (c.getRole user).canSpeak = true → c'.getRole user = c.getRole user
  spares : ∀ change ∈ changes, change.role = .listener → ¬ c.Privileged change.userId

lemma Rotates.nil (h : Slotted config c) : Rotates config c [] c :=
  ⟨h, .refl c, fun _ _ _ => rfl, fun _ hmem => absurd hmem List.not_mem_nil⟩

lemma Rotates.append {xs ys : List RoleChange} (h : Rotates config c₁ xs c₂) (h' : Rotates config c₂ ys c₃) :
    Rotates config c₁ (xs ++ ys) c₃ := by
  constructor
  · exact h'.slotted
  · exact h.grants.trans h'.grants
  · intro user hprivileged hspeaks
    have hfirst := h.keeps user hprivileged hspeaks
    rw [h'.keeps user ((h.grants.privileged user).mpr hprivileged) (hfirst ▸ hspeaks), hfirst]
  · intro change hmem hlistener
    rcases List.mem_append.mp hmem with hmem | hmem
    · exact h.spares change hmem hlistener
    · rw [← h.grants.privileged]
      exact h'.spares change hmem hlistener

section

variable (h : Slotted config c)
include h

lemma rotates_admitLockedAnnounced (env : Env) {user : UserId}
    (hfree : 0 < c.maxSpeakers → c.speaking < c.maxSpeakers.toNat) (hspeaks : c.GrantSpeaks user) :
    Rotates config c (c.admitLockedAnnounced env user).1.toList (c.admitLockedAnnounced env user).2 := by
  constructor
  · exact h.admitLocked env user hfree
  · exact sameGrants_admitLocked c env user
  · intro other _ hother
    exact getRole_admitLocked h env user hother
  · intro change hmem hlistener
    -- the announced role is the granted one, which may speak
    obtain ⟨session, -, rfl⟩ := map_eq_some_iff.mp (mem_toList.mp hmem)
    unfold GrantSpeaks at hspeaks
    cases hr : c.participantRoles.find user with
    | none => simp [hr] at hspeaks
    | some r =>
      have hgranted : (c.admitLocked env user).getRole user = r.granted := by
        simp [getRole, admitLocked, hr]
      simp only [hgranted] at hlistener
      rw [hr, map_some, any_some, hlistener] at hspeaks
      cases hspeaks

lemma rotates_demoteLockedAnnounced {env : Env} (hvictim : c.idleSpeaker env idleMs = some victim) :
    Rotates config c (c.demoteLockedAnnounced env victim).1.toList
      (c.demoteLockedAnnounced env victim).2 := by
  have hplain := not_privileged_of_idleSpeaker h hvictim
  constructor
  · exact h.demoteLocked env victim
  · exact sameGrants_demoteLocked c env victim
  · intro user hprivileged _
    exact getRole_demoteLocked env fun heq => hplain (heq ▸ hprivileged)
  · intro change hmem _
    rw [userId_of_roleChange (mem_toList.mp hmem)]
    exact hplain

lemma rotates_rotateLoop (env : Env) {audience : AudienceConfig} (queue : List UserId)
    (haudience : c.config.audience = some audience) (hqueue : ∀ user ∈ queue, c.GrantSpeaks user) :
    Rotates config c (c.rotateLoop env audience queue).1 (c.rotateLoop env audience queue).2 := by
  induction queue generalizing c with
  | nil => exact .nil h
  | cons waiting queue ih =>
    have hmax : c.maxSpeakers = audience.maxSpeakers := by simp [maxSpeakers, haudience]
    have hspeaks := hqueue waiting List.mem_cons_self
    have hrest : ∀ {changes : List RoleChange} {c' : MediaChannel V P}, Rotates config c changes c' →
        Rotates config c (changes ++ (c'.rotateLoop env audience queue).1)
          (c'.rotateLoop env audience queue).2 := by
      intro changes c' hfirst
      apply hfirst.append
      apply ih hfirst.slotted (hfirst.grants.config_eq ▸ haudience)
      exact fun user huser => hfirst.grants.grantSpeaks (hqueue user (List.mem_cons_of_mem _ huser))
    unfold rotateLoop
    split
    next hfree =>
      apply hrest
      exact rotates_admitLockedAnnounced h env (fun _ => hmax ▸ speaking_lt_of_speakerCount h hfree) hspeaks
    · dsimp only
      split
      · exact .nil h
      next victim hvictim =>
        have hdemoted := rotates_demoteLockedAnnounced h hvictim
        apply hrest
        apply hdemoted.append
        apply rotates_admitLockedAnnounced hdemoted.slotted env
        · intro hpositive
          rw [maxSpeakers_eq_of_sameGrants hdemoted.grants] at hpositive ⊢
          exact demoted_of_idleSpeaker h hvictim hpositive
        · exact hdemoted.grants.grantSpeaks hspeaks

lemma rotates_rotateIdleSpeakers (env : Env) :
    Rotates config c (c.rotateIdleSpeakers env).1 (c.rotateIdleSpeakers env).2 := by
  unfold rotateIdleSpeakers
  split
  · exact .nil h
  next audience haudience =>
    split
    · exact .nil h
    · exact rotates_rotateLoop h env _ haudience fun user => grantSpeaks_of_mem_waitingQueue

lemma Slotted.removeParticipant (user : UserId) : Slotted config (c.removeParticipant user).2 := by
  unfold MediaChannel.removeParticipant
  cases hsession : c.participants.find user with
  | none => exact h
  | some =>
    have hbefore : c.speaking = _ := count_eq_erase _ _ user
    have hspoken := h.spoken
    constructor
    · exact h.config_eq
    · exact congrArg (Finset.erase · user) h.members
    · exact (card_erase_le).trans h.room
    · change UInt32.toNat (if _ then _ else _) = count _ (c.participantRoles.erase user)
      split
      next hspeaks =>
        rw [if_pos hspeaks] at hbefore
        rw [toNat_sub_one (by omega)]
        omega
      next hsilent =>
        rw [if_neg hsilent] at hbefore
        omega
    · intro hmax
      have := h.slots hmax
      change count _ (c.participantRoles.erase user) ≤ c.maxSpeakers.toNat
      omega
    · exact h.effective.erase user

end

lemma Sound.removeParticipant (h : Sound config c) (user : UserId) : Sound config (c.removeParticipant user).2 := by
  refine ⟨h.toSlotted.removeParticipant user, ?_⟩
  have hcounted := h.counted
  unfold MediaChannel.removeParticipant
  cases hsession : c.participants.find user with
  | none => exact hcounted
  | some session =>
    have hmem : user ∈ c.participants.keys := mem_keys_iff.mpr ⟨session, hsession⟩
    have hpos : 0 < c.participants.keys.card := card_pos.mpr ⟨user, hmem⟩
    change (c.participantCount - 1).toNat = (c.participants.keys.erase user).card
    rw [card_erase_of_mem hmem, toNat_sub_one (by omega), hcounted]

lemma find_removeParticipant (c : MediaChannel V P) (user : UserId) :
    (c.removeParticipant user).2.participants.find user = none := by
  unfold removeParticipant
  cases hsession : c.participants.find user with
  | none => exact hsession
  | some => exact if_pos rfl

variable {session : MediaSession}

lemma addParticipantWith_eq (happ : session.appId = c.appId) (env : Env) (role : ChannelRole)
    (hints : JoinHints) : c.addParticipantWith env session role hints =
      (c.removeParticipant session.userId).2.admitJoin env session role hints := by
  unfold addParticipantWith
  rw [if_neg (not_not.mpr happ)]
  split
  · rfl
  next hnew => rw [removeParticipant, not_isSome_iff_eq_none.mp hnew]

lemma reserveSlot_sub_one {count max reserved : UInt32} (h : reserveSlot count max = some reserved) :
    reserved - 1 = count := by
  apply UInt32.toNat_inj.mp
  obtain ⟨hreserved, -⟩ := toNat_of_reserveSlot h
  rw [toNat_sub_one (by omega)]
  omega

/-- A join fails and changes nothing, or it enters with what it has claimed. -/
lemma admitJoin_cases (c : MediaChannel V P) (env : Env) (session : MediaSession) (role : ChannelRole)
    (hints : JoinHints) :
    (∃ e, c.admitJoin env session role hints = (.error e, c)) ∨
      ∃ count entered demoted c', reserveSlot c.participantCount c.config.maxParticipants = some count ∧
        MediaChannel.claimSpeakerSlot { c with participantCount := count } env (c.config.audience.getD default)
          session.userId role hints = some (entered, demoted, c') ∧
        c.admitJoin env session role hints =
          (.ok ⟨entered.role, entered.waitingSince.isSome, demoted⟩, c'.enter session entered hints.priority) := by
  unfold admitJoin
  cases hcount : reserveSlot c.participantCount c.config.maxParticipants with
  | none => exact .inl ⟨_, rfl⟩
  | some count =>
    dsimp only
    cases hclaim : claimSpeakerSlot { c with participantCount := count } env (c.config.audience.getD default)
        session.userId role hints with
    | none =>
      rw [reserveSlot_sub_one hcount]
      exact .inl ⟨_, rfl⟩
    | some claimed => exact .inr ⟨count, claimed.1, claimed.2.1, claimed.2.2, rfl, hclaim, rfl⟩

/-- A claim leaves the channel as it is, or takes a slot of it or of what a demotion makes of it. -/
lemma claimSpeakerSlot_cases {env : Env} {audience : AudienceConfig} {user : UserId} {role : ChannelRole}
    {hints : JoinHints} {demoted : Option RoleChange}
    (hclaim : c.claimSpeakerSlot env audience user role hints = some (entered, demoted, c')) :
    entered.granted = role ∧
      ((c' = c ∧ entered.role.canSpeak = false ∧ (entered.role = role ∨ entered.role = .listener)) ∨
        (entered.role = role ∧ role.canSpeak = true ∧
          (c' = c.takeSlot ∧ ¬ (0 < audience.maxSpeakers ∧ audience.maxSpeakers.toNat ≤ c.slotsHeld user hints) ∨
            ∃ idleMs victim, c.idleSpeaker env idleMs = some victim ∧ c' = (c.demoteLocked env victim).takeSlot))) := by
  unfold claimSpeakerSlot at hclaim
  split at hclaim
  next hsilent =>
    rw [Bool.not_eq_true'] at hsilent
    cases hclaim
    exact ⟨rfl, .inl ⟨rfl, hsilent, .inl rfl⟩⟩
  next hspeaks =>
    have hspeaks : role.canSpeak = true := by simpa using hspeaks
    split at hclaim
    · split at hclaim
      · cases hclaim
      · cases hclaim
        exact ⟨rfl, .inl ⟨rfl, rfl, .inr rfl⟩⟩
      · split at hclaim
        · cases hclaim
          exact ⟨rfl, .inl ⟨rfl, rfl, .inr rfl⟩⟩
        next victim hvictim =>
          cases hclaim
          exact ⟨rfl, .inr ⟨rfl, hspeaks, .inr ⟨_, victim, hvictim, rfl⟩⟩⟩
    next hfree =>
      cases hclaim
      exact ⟨rfl, .inr ⟨rfl, hspeaks, .inl ⟨rfl, hfree⟩⟩⟩

structure Claimed (config : ChannelConfig V) (c base c' : MediaChannel V P) (entered : LocalRole) : Prop where
  slotted : Slotted config base
  grants : SameGrants c base
  result : c' = { base with
    localSpeakers := if entered.role.canSpeak then base.localSpeakers + 1 else base.localSpeakers }
  free : entered.role.canSpeak = true → 0 < base.maxSpeakers → base.speaking < base.maxSpeakers.toNat
  effective : entered.role = entered.granted ∨ entered.role = .listener

lemma claimed_of_claimSpeakerSlot (h : Slotted config c) {env : Env} {user : UserId} {role : ChannelRole}
    {hints : JoinHints} {demoted : Option RoleChange}
    (hclaim : c.claimSpeakerSlot env (c.config.audience.getD default) user role hints = some (entered, demoted, c')) :
    ∃ base, Claimed config c base c' entered := by
  have hmax : (c.config.audience.getD default).maxSpeakers = c.maxSpeakers := by
    unfold maxSpeakers
    cases c.config.audience <;> rfl
  obtain ⟨rfl, ⟨rfl, hsilent, heffective⟩ | ⟨hrole, hspeaks, hslot⟩⟩ := claimSpeakerSlot_cases hclaim
  · exact ⟨c', h, .refl c', by simp [hsilent], by simp [hsilent], heffective⟩
  rw [← hrole] at hspeaks
  obtain ⟨rfl, hfree⟩ | ⟨idleMs, victim, hvictim, rfl⟩ := hslot
  · refine ⟨c, h, .refl c, by simp [takeSlot, hspeaks], ?_, .inl hrole⟩
    intro _ hpositive
    rw [hmax] at hfree
    have hspoken := h.spoken
    have hheld := not_le.mp fun hfull => hfree ⟨hpositive, hfull⟩
    unfold slotsHeld at hheld
    omega
  · have hgrants := sameGrants_demoteLocked c env victim
    refine ⟨c.demoteLocked env victim, h.demoteLocked env victim, hgrants, ?_, ?_, .inl hrole⟩
    · simp [takeSlot, hspeaks]
    · rw [maxSpeakers_eq_of_sameGrants hgrants]
      exact fun _ => demoted_of_idleSpeaker h hvictim

lemma Slotted.enter {base : MediaChannel V P} (h : Claimed config c base c' entered)
    (priority : Bool) (hnew : c.participants.find session.userId = none)
    (hroom : c.participants.keys.card + 1 ≤ config.maxParticipants.toNat) :
    Slotted config (c'.enter session entered priority) := by
  have hbase := h.slotted
  have hparticipants := h.grants.participants
  have hfresh : session.userId ∉ base.participantRoles.keys := by
    rw [hbase.members, hparticipants, mem_keys_iff, hnew]
    rintro ⟨_, h⟩
    cases h
  have hunroled : base.participantRoles.find session.userId = none := by
    rw [← not_isSome_iff_eq_none, ← mem_keys]
    exact hfresh
  have hbefore : base.speaking = _ := count_eq_erase _ _ session.userId
  rw [hunroled] at hbefore
  have hafter : (c'.enter session entered priority).speaking = base.speaking +
      if entered.role.canSpeak then 1 else 0 := by
    rw [hbefore, h.result]
    exact count_set _ _ _ _
  have hle := speaking_le hbase
  have hspoken := hbase.spoken
  rw [hparticipants] at hle
  constructor
  · rw [← hbase.config_eq, h.result]
    rfl
  · rw [h.result]
    exact congrArg (insert session.userId) hbase.members
  · rw [h.result]
    apply le_trans (card_insert_le _ _)
    rw [hparticipants]
    exact hroom
  · rw [hafter, ← hspoken, h.result]
    have := config.maxParticipants.toNat_lt
    change UInt32.toNat (if _ then _ else _) = _
    cases hspeaks : entered.role.canSpeak with
    | false => simp
    | true => simp [toNat_add_one (n := base.localSpeakers) (m := c.participants.keys.card + 1) (by omega) (by omega)]
  · intro hpositive
    have hlimit : (c'.enter session entered priority).maxSpeakers = base.maxSpeakers := by
      rw [h.result]
      rfl
    rw [hlimit] at hpositive ⊢
    rw [hafter]
    have hslots := hbase.slots hpositive
    cases hspeaks : entered.role.canSpeak with
    | false => simpa using hslots
    | true => exact h.free hspeaks hpositive
  · rw [h.result]
    exact hbase.effective.set h.effective

section

variable (h : Sound config c) (env : Env)
include h

lemma Sound.admitJoin (role : ChannelRole) (hints : JoinHints)
    (hnew : c.participants.find session.userId = none) : Sound config (c.admitJoin env session role hints).2 := by
  obtain ⟨e, heq⟩ | ⟨count, entered, demoted, c', hcount, hclaim, heq⟩ := c.admitJoin_cases env session role hints
  · rwa [heq]
  · obtain ⟨hreserved, hlimit⟩ := toNat_of_reserveSlot hcount
    have hcounted := h.counted
    have hmax := congrArg ChannelConfig.maxParticipants h.config_eq
    have hslotted : Slotted config { c with participantCount := count } :=
      ⟨h.config_eq, h.members, h.room, h.spoken, h.slots, h.effective⟩
    obtain ⟨base, hbase⟩ := claimed_of_claimSpeakerSlot hslotted hclaim
    rw [heq]
    refine ⟨Slotted.enter hbase hints.priority hnew ?_, ?_⟩
    · change c.participants.keys.card + 1 ≤ _
      rw [← hmax]
      omega
    · have hkeys : (c'.enter session entered hints.priority).participants.keys =
          insert session.userId c.participants.keys := by
        rw [hbase.result]
        change insert session.userId base.participants.keys = _
        rw [hbase.grants.participants]
      have hfresh : session.userId ∉ c.participants.keys := by
        rw [mem_keys, hnew]
        decide
      rw [hkeys, card_insert_of_notMem hfresh, ← hcounted, ← hreserved, hbase.result]
      exact congrArg UInt32.toNat hbase.grants.count

lemma Sound.addParticipantWith (session : MediaSession) (role : ChannelRole) (hints : JoinHints) :
    Sound config (c.addParticipantWith env session role hints).2 := by
  by_cases happ : session.appId = c.appId
  · rw [addParticipantWith_eq happ]
    exact (h.removeParticipant session.userId).admitJoin env role hints (find_removeParticipant c session.userId)
  · rwa [MediaChannel.addParticipantWith, if_pos happ]

lemma Sound.of_sameGrants (hslotted : Slotted config c') (hgrants : SameGrants c c') : Sound config c' := by
  refine ⟨hslotted, ?_⟩
  rw [hgrants.count, hgrants.participants]
  exact h.counted

lemma Sound.noteSpeakAttempt (user : UserId) : Sound config (c.noteSpeakAttempt env user) := by
  unfold MediaChannel.noteSpeakAttempt
  cases hr : c.participantRoles.find user with
  | none => exact h
  | some r =>
    dsimp only
    split
    · have hcount : c.localSpeakers.toNat + (if r.role.canSpeak then 1 else 0) =
          c.localSpeakers.toNat + (if r.role.canSpeak then 1 else 0) := rfl
      refine ⟨h.toSlotted.setRole hr hcount ?_ ?_, h.counted⟩
      · intro hspeaks hsilent
        simp [hspeaks] at hsilent
      · exact h.effective user r hr
    · exact h

lemma Sound.admitWaiting : Sound config (c.admitWaiting env).2 := by
  obtain ⟨hslotted, hgrants⟩ := h.toSlotted.admitLoop env (c.waitingQueue env false)
  exact h.of_sameGrants hslotted hgrants

lemma Sound.rotateIdleSpeakers : Sound config (c.rotateIdleSpeakers env).2 := by
  have hrotates := rotates_rotateIdleSpeakers h.toSlotted env
  exact h.of_sameGrants hrotates.slotted hrotates.grants

end

structure SameLocals (c c' : MediaChannel V P) : Prop where
  config_eq : c'.config = c.config
  participants : c'.participants = c.participants
  participantRoles : c'.participantRoles = c.participantRoles
  participantCount : c'.participantCount = c.participantCount
  localSpeakers : c'.localSpeakers = c.localSpeakers

lemma Sound.of_sameLocals (h : Sound config c) (hsame : SameLocals c c') : Sound config c' := by
  cases c
  cases c'
  obtain ⟨rfl, rfl, rfl, rfl, rfl⟩ := hsame
  exact ⟨⟨h.config_eq, h.members, h.room, h.spoken, h.slots, h.effective⟩, h.counted⟩

lemma sameLocals_refreshPair {sp : Space V P} {radius : V} {user : UserId} {pose : P}
    {st : MediaChannel V P × List RosterChange} {other : UserId × P} (h : SameLocals c st.1) :
    SameLocals c (refreshPair sp radius user pose st other).1 := by
  unfold refreshPair
  dsimp only
  split
  · exact h
  · split
    · exact h
    · split
      · exact h
      · exact ⟨h.config_eq, h.participants, h.participantRoles, h.participantCount, h.localSpeakers⟩

lemma sameLocals_refreshVisibility (h : SameLocals c c') (sp : Space V P) (user : UserId) :
    SameLocals c (c'.refreshVisibility sp user).1 := by
  unfold refreshVisibility
  split
  · exact h
  next radius _ =>
    split
    · exact h
    · split
      · exact h
      next pose _ =>
        have hpair : ∀ (st : MediaChannel V P × List RosterChange) (other : UserId × P), SameLocals c st.1 →
            SameLocals c (refreshPair sp radius user pose st other).1 :=
          fun _ _ => sameLocals_refreshPair
        exact Traces.foldl_invariant (fun st : MediaChannel V P × List RosterChange => SameLocals c st.1)
          hpair c'.positions.entries h

variable (c : MediaChannel V P) (sp : Space V P) (user : UserId)

lemma sameLocals_updatePosition (pose : P) : SameLocals c (c.updatePosition sp user pose).1 := by
  apply sameLocals_refreshVisibility
  exact ⟨rfl, rfl, rfl, rfl, rfl⟩

lemma sameLocals_addRemote (participant : RemoteParticipant) : SameLocals c (c.addRemote sp user participant).1 := by
  unfold addRemote
  dsimp only
  split
  · exact ⟨rfl, rfl, rfl, rfl, rfl⟩
  · split
    · apply sameLocals_refreshVisibility
      exact ⟨rfl, rfl, rfl, rfl, rfl⟩
    · exact ⟨rfl, rfl, rfl, rfl, rfl⟩

lemma sameLocals_setRemoteRole (role : ChannelRole) : SameLocals c (c.setRemoteRole user role).2 := by
  unfold setRemoteRole
  split <;> exact ⟨rfl, rfl, rfl, rfl, rfl⟩

lemma sameLocals_setPriority (priority : Bool) : SameLocals c (c.setPriority user priority).2 := by
  unfold setPriority
  split
  · exact ⟨rfl, rfl, rfl, rfl, rfl⟩
  · split <;> exact ⟨rfl, rfl, rfl, rfl, rfl⟩

end MediaChannel

inductive Event (P : Type)
  | join (env : Env) (session : MediaSession) (role : ChannelRole) (hints : JoinHints)
  | leave (user : UserId)
  | admitWaiting (env : Env)
  | rotateIdleSpeakers (env : Env)
  | noteSpeakAttempt (env : Env) (user : UserId)
  | setPriority (user : UserId) (priority : Bool)
  | addRemote (user : UserId) (participant : RemoteParticipant)
  | removeRemote (user : UserId)
  | setRemoteRole (user : UserId) (role : ChannelRole)
  | updatePosition (user : UserId) (pose : P)

variable {V P : Type}

def step (sp : Space V P) (c : MediaChannel V P) : Event P → MediaChannel V P
  | .join env session role hints => (c.addParticipantWith env session role hints).2
  | .leave user => (c.removeParticipant user).2
  | .admitWaiting env => (c.admitWaiting env).2
  | .rotateIdleSpeakers env => (c.rotateIdleSpeakers env).2
  | .noteSpeakAttempt env user => c.noteSpeakAttempt env user
  | .setPriority user priority => (c.setPriority user priority).2
  | .addRemote user participant => (c.addRemote sp user participant).1
  | .removeRemote user => (c.removeRemote user).2
  | .setRemoteRole user role => (c.setRemoteRole user role).2
  | .updatePosition user pose => (c.updatePosition sp user pose).1

namespace MediaChannel

variable {config : ChannelConfig V} {c : MediaChannel V P}

lemma sound_new (channelId : ChannelId) (appId : AppId) (config : ChannelConfig V) :
    Sound config (new channelId appId config : MediaChannel V P) :=
  ⟨⟨rfl, rfl, Nat.zero_le _, rfl, fun _ => Nat.zero_le _, fun _ _ h => by cases h⟩, rfl⟩

lemma Sound.step (h : Sound config c) (sp : Space V P) (e : Event P) : Sound config (Channel.step sp c e) := by
  cases e with
  | join env session role hints => exact h.addParticipantWith env session role hints
  | leave user => exact h.removeParticipant user
  | admitWaiting env => exact h.admitWaiting env
  | rotateIdleSpeakers env => exact h.rotateIdleSpeakers env
  | noteSpeakAttempt env user => exact h.noteSpeakAttempt env user
  | setPriority user priority => exact h.of_sameLocals (sameLocals_setPriority c user priority)
  | addRemote user participant => exact h.of_sameLocals (sameLocals_addRemote c sp user participant)
  | removeRemote => exact h.of_sameLocals ⟨rfl, rfl, rfl, rfl, rfl⟩
  | setRemoteRole user role => exact h.of_sameLocals (sameLocals_setRemoteRole c user role)
  | updatePosition user pose => exact h.of_sameLocals (sameLocals_updatePosition c sp user pose)

/-- Along every run of a new channel the counters are the numbers of members and of members that may
speak, neither is above its limit (`max_speakers` of 0 is none), and a rotation takes no privileged
member's slot. -/
theorem speaker_slots_respected (sp : Space V P) (channelId : ChannelId) (appId : AppId) (config : ChannelConfig V)
    (events : List (Event P)) :
    let c := events.foldl (Channel.step sp) (new channelId appId config)
    c.participantCount.toNat = c.participants.keys.card ∧
      c.localSpeakers.toNat =
        (c.participants.keys.filter fun user => (c.getRole user).canSpeak = true).card ∧
      c.participantCount ≤ config.maxParticipants ∧
      (∀ audience, config.audience = some audience → 0 < audience.maxSpeakers →
        c.localSpeakers ≤ audience.maxSpeakers) ∧
      ∀ env,
        (∀ user ∈ c.participants.keys, c.Privileged user → (c.getRole user).canSpeak = true →
          (c.rotateIdleSpeakers env).2.getRole user = c.getRole user) ∧
        ∀ change ∈ (c.rotateIdleSpeakers env).1, change.role = .listener →
          ¬ c.Privileged change.userId := by
  intro c
  have h : Sound config c := Traces.foldl_invariant (Sound config) (fun _ e hs => hs.step sp e) events
    (sound_new channelId appId config)
  refine ⟨h.counted, ?_, ?_, ?_, ?_⟩
  · rw [speaking_eq h.toSlotted]
    exact h.spoken
  · rw [UInt32.le_iff_toNat_le, h.counted]
    exact h.room
  · intro audience haudience hpositive
    have hmax : c.maxSpeakers = audience.maxSpeakers := by
      rw [maxSpeakers, h.config_eq, haudience]
      rfl
    rw [UInt32.le_iff_toNat_le, h.spoken, ← hmax]
    exact h.slots (hmax ▸ hpositive)
  · intro env
    have hrotates := rotates_rotateIdleSpeakers h.toSlotted env
    exact ⟨fun user _ => hrotates.keeps user, hrotates.spares⟩

end MediaChannel

end AurixVoice.Channel
