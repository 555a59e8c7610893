import AurixVoice.Library.Traces
import AurixVoice.Web.KeyCounters

namespace AurixVoice.Web.SealHistory

open E2ee Traces MediaClient

/-- The side that is to seal is the only one that has sealed under its key, and has not used up its
counters. -/
def SoleSealer (h : SealHistory) (e : MediaEvent) : Prop :=
  ∀ side ∈ h.sealer e, ∀ own ∈ (h.client.frames side).own,
    (∀ s ∈ h.seals, s.secret = own.secret → s.side = side) ∧ sealedBy h.seals side own.secret < 2 ^ 32

instance (h : SealHistory) (e : MediaEvent) : Decidable (h.SoleSealer e) :=
  inferInstanceAs (Decidable (∀ side ∈ h.sealer e, ∀ own ∈ (h.client.frames side).own,
    (∀ s ∈ h.seals, s.secret = own.secret → s.side = side) ∧ sealedBy h.seals side own.secret < 2 ^ 32))

def inboxKeys (inbox : List WorkerMessage) : List Secret :=
  inbox.filterMap fun msg => match msg with | .ownKey _ secret => some secret | _ => none

def installKeys (c : MediaClient) : List Secret :=
  match c.group with
  | none => []
  | some (_, secret) => if c.installing then [secret] else []

def pending (c : MediaClient) : Side → List Secret
  | .page => installKeys c
  | .worker => inboxKeys c.inbox ++ installKeys c

structure Counted (h : SealHistory) : Prop where
  tracks : ∀ side, Tracks h.seals h.secrets side (h.client.frames side).own (pending h.client side)
  below : ∀ e ∈ h.seals, e.counter.toNat < sealedBy h.seals e.side e.secret
  drawn : ∀ e ∈ h.seals, e.secret ∈ h.secrets
  nodup : (h.seals.map fun e => (e.secret, e.counter)).Nodup

lemma init_counted : init.Counted where
  tracks side := by cases side <;> exact .none_nil
  below := nofun
  drawn := nofun
  nodup := List.nodup_nil

variable (crypto : Crypto)

def bump (k : OwnKey) : OwnKey := { k with counter := k.counter + 1 }

variable {h h' : SealHistory} {e : MediaEvent} {secret : Secret} (c : MediaClient) (f : FrameCrypto) (data : Bytes)
  (msg : WorkerMessage) (side : Side)

lemma encrypt_own : (f.encrypt crypto data).2.own = f.own.map bump := by
  unfold FrameCrypto.encrypt
  cases hown : f.own with
  | none => simp [hown]
  | some => rfl

lemma transformSend_own :
    (f.transformSend crypto data).2.own = if f.mode = .encrypt then f.own.map bump else f.own := by
  unfold FrameCrypto.transformSend
  cases hmode : f.mode with
  | plain | hold => simp
  | encrypt =>
    by_cases hown : f.own.isNone
    · simp [Option.isNone_iff_eq_none.mp hown]
    · simp [hown, encrypt_own]

structure Carries (h : SealHistory) (e : MediaEvent) : Prop where
  own : ∀ side, ((h.apply crypto e).frames side).own =
    if h.sealer e = some side then (h.client.frames side).own.map bump else (h.client.frames side).own
  pending : ∀ side, pending (h.apply crypto e) side = pending h.client side
  draws : h.draws e = []

lemma encoded_carries (h : SealHistory) (data : Bytes) : h.Carries crypto (.encoded data) := by
  refine ⟨fun side => ?_, fun side => ?_, rfl⟩
  all_goals
    by_cases hstarted : h.webrtcStarted
    · cases hapi : h.client.api with
      | none => simp [apply, sealer, sendEncoded, hstarted, hapi]
      | some api =>
        cases api <;> cases side <;>
          simp [apply, sealer, sendEncoded, frames, pending, installKeys, hstarted, hapi, transformSend_own]
    · simp [apply, sealer, hstarted]

lemma captured_carries (h : SealHistory) (opus : Bytes) : h.Carries crypto (.captured opus) := by
  refine ⟨fun side => ?_, fun side => ?_, rfl⟩
  all_goals
    by_cases haurx : h.onAurx
    · cases hgroup : h.client.group with
      | none => simp [apply, sealer, sendCaptured, haurx, hgroup]
      | some =>
        cases side <;>
          simp [apply, sealer, sendCaptured, frames, pending, installKeys, haurx, hgroup, encrypt_own]
    · simp [apply, sealer, haurx]

lemma below_sealed {seals : List Seal} (hbelow : ∀ e ∈ seals, e.counter.toNat < sealedBy seals e.side e.secret)
    {s : Seal} (hs : s.counter.toNat = sealedBy seals s.side s.secret) :
    ∀ e ∈ s :: seals, e.counter.toNat < sealedBy (s :: seals) e.side e.secret := by
  intro e he
  rcases List.mem_cons.mp he with rfl | he
  · have hself : sealedBy (e :: seals) e.side e.secret = sealedBy seals e.side e.secret + 1 :=
      Tracks.sealedBy_self seals e.side e.secret e.counter
    omega
  · have hle : sealedBy seals e.side e.secret ≤ sealedBy (s :: seals) e.side e.secret :=
      (List.sublist_cons_self s seals).countP_le
    exact lt_of_lt_of_le (hbelow e he) hle

lemma nodup_sealed {seals : List Seal} (hbelow : ∀ e ∈ seals, e.counter.toNat < sealedBy seals e.side e.secret)
    (hnodup : (seals.map fun e => (e.secret, e.counter)).Nodup) {s : Seal}
    (hs : s.counter.toNat = sealedBy seals s.side s.secret)
    (honly : ∀ e ∈ seals, e.secret = s.secret → e.side = s.side) :
    ((s :: seals).map fun e => (e.secret, e.counter)).Nodup := by
  rw [List.map_cons, List.nodup_cons]
  refine ⟨?_, hnodup⟩
  intro hmem
  obtain ⟨e, he, heq⟩ := List.mem_map.mp hmem
  obtain ⟨hsecret, hcounter⟩ := Prod.mk.inj heq
  have hlt := hbelow e he
  rw [hsecret, honly e he hsecret, hcounter, hs] at hlt
  exact lt_irrefl _ hlt

lemma Carries.counted (hc : h.Carries crypto e) (hh : h.Counted) (hok : h.SoleSealer e) :
    (h.step crypto e).Counted := by
  have hsecrets : (h.step crypto e).secrets = h.secrets := by simp [step, hc.draws]
  have hpending : ∀ side, SealHistory.pending (h.step crypto e).client side = SealHistory.pending h.client side :=
    hc.pending
  cases hseal : h.sealing e with
  | none =>
    have hseals : (h.step crypto e).seals = h.seals := by simp [step, hseal]
    refine ⟨?_, by rw [hseals]; exact hh.below, by rw [hseals, hsecrets]; exact hh.drawn,
      by rw [hseals]; exact hh.nodup⟩
    intro side
    have hown : ((h.step crypto e).client.frames side).own = (h.client.frames side).own := by
      refine (hc.own side).trans ?_
      split
      next hside =>
        simp only [sealing, hside, Option.bind_some, Option.map_eq_none_iff] at hseal
        rw [hseal]
        rfl
      · rfl
    rw [hseals, hsecrets, hown, hpending]
    exact hh.tracks side
  | some =>
    obtain ⟨side, hside, hown⟩ := Option.bind_eq_some_iff.mp hseal
    obtain ⟨k, hk, rfl⟩ := Option.map_eq_some_iff.mp hown
    obtain ⟨honly, hlt⟩ := hok side hside k hk
    have hseals : (h.step crypto e).seals = ⟨side, k.secret, k.counter⟩ :: h.seals := by simp [step, hseal]
    have htracks := hh.tracks side
    rw [hk] at htracks
    have hcounter : k.counter.toNat = sealedBy h.seals side k.secret := by
      rw [htracks.counter k rfl, UInt32.toNat_ofNat']
      exact Nat.mod_eq_of_lt hlt
    refine ⟨?_, by rw [hseals]; exact below_sealed hh.below hcounter, ?_,
      by rw [hseals]; exact nodup_sealed hh.below hh.nodup hcounter honly⟩
    · intro side'
      have hown : ((h.step crypto e).client.frames side').own =
          if h.sealer e = some side' then (h.client.frames side').own.map bump else (h.client.frames side').own :=
        hc.own side'
      rw [hseals, hsecrets, hpending, hown, hside]
      by_cases heq : side = side'
      · subst heq
        rw [if_pos rfl, hk]
        exact htracks.sealed
      · rw [if_neg fun h => heq (Option.some.inj h)]
        exact (hh.tracks side').sealed_by_other heq
    · rw [hseals, hsecrets]
      intro e he
      rcases List.mem_cons.mp he with rfl | he
      · exact htracks.drawn k.secret (List.mem_append_left _ (List.mem_singleton.mpr rfl))
      · exact hh.drawn e he

lemma Counted.unsealed (hh : h.Counted) (hseals : h'.seals = h.seals) (hsecrets : h.secrets ⊆ h'.secrets)
    (htracks : ∀ side, Tracks h.seals h'.secrets side (h'.client.frames side).own (pending h'.client side)) :
    h'.Counted where
  tracks := by rwa [hseals]
  below := by rw [hseals]; exact hh.below
  drawn := by rw [hseals]; exact fun e he => hsecrets (hh.drawn e he)
  nodup := by rw [hseals]; exact hh.nodup

lemma Counted.keeps (hh : h.Counted) (hseals : h'.seals = h.seals) (hsecrets : h'.secrets = h.secrets)
    (hown : ∀ side, (h'.client.frames side).own = (h.client.frames side).own)
    (hpending : ∀ side, (pending h'.client side).Sublist (pending h.client side)) : h'.Counted := by
  apply hh.unsealed hseals (hsecrets ▸ List.Subset.refl _)
  intro side
  rw [hsecrets, hown]
  exact (hh.tracks side).fewer (hpending side)

lemma dropE2ee_own : (c.dropE2ee.frames side).own = (c.frames side).own := by
  unfold dropE2ee
  split <;> cases side <;> rfl

lemma dropE2ee_pending : (pending c.dropE2ee side).Sublist (pending c side) := by
  unfold dropE2ee
  split
  · have hnil : (installKeys { c with group := none, installing := false }).Sublist (installKeys c) :=
      List.nil_sublist _
    cases side
    · exact hnil
    · exact hnil.append_left _
  · exact List.Sublist.refl _

lemma installKeys_post : installKeys (c.post msg) = installKeys c := by
  simp [installKeys]

lemma frames_post : (c.post msg).frames side = c.frames side := by
  cases side
  · exact post_page c msg
  · exact post_worker c msg

lemma inboxKeys_append (inbox : List WorkerMessage) (msg : WorkerMessage) :
    inboxKeys (inbox ++ [msg]) = inboxKeys inbox ++ inboxKeys [msg] := List.filterMap_append

section

variable (hh : h.Counted)
include hh

lemma setE2eeMode_counted (mode : E2eeMode) : (h.step crypto (.setE2eeMode mode)).Counted := by
  refine hh.keeps rfl rfl ?_ ?_
  · intro side
    simp only [step, apply, setE2eeMode]
    split
    · rfl
    · rw [frames_post]
      cases side
      · split <;> rfl
      · rfl
  · intro side
    simp only [step, apply, setE2eeMode]
    split
    · exact List.Sublist.refl _
    · cases side
      · simp only [pending, installKeys_post]
        exact List.Sublist.refl _
      · simp only [pending, post]
        split
        · simp [inboxKeys, installKeys]
        · exact List.Sublist.refl _

lemma Counted.idle (hseals : h'.seals = h.seals) (hsecrets : h'.secrets = h.secrets) (hclient : h'.client = h.client) :
    h'.Counted := by
  refine hh.keeps hseals hsecrets ?_ ?_ <;> intro side <;> rw [hclient]

lemma rotate_counted (hfresh : (h.draws (.rotate secret) ++ h.secrets).Nodup) :
    (h.step crypto (.rotate secret)).Counted := by
  cases hgroup : h.client.group with
  | none => exact hh.idle rfl (by simp [step, draws, hgroup]) (by simp [step, apply, rotate, hgroup])
  | some g =>
    by_cases hinst : h.client.installing
    · exact hh.idle rfl (by simp [step, draws, hinst]) (by simp [step, apply, rotate, hgroup, hinst])
    · have hdraws : h.draws (.rotate secret) = [secret] := by simp [draws, hgroup, hinst]
      have hclient : (h.step crypto (.rotate secret)).client =
          { h.client with group := some (g.1 + 1, secret), installing := true } := by
        simp [step, apply, rotate, hgroup, hinst]
      have hnone : installKeys h.client = [] := by simp [installKeys, hgroup, hinst]
      rw [hdraws] at hfresh
      have hsecrets : (h.step crypto (.rotate secret)).secrets = secret :: h.secrets := by simp [step, hdraws]
      refine hh.unsealed rfl (by rw [hsecrets]; exact List.subset_cons_self _ _) ?_
      intro side
      have htracks := (hh.tracks side).draw hh.drawn (List.nodup_cons.mp hfresh).1
      rw [hsecrets, hclient]
      cases side
      · rw [pending, hnone] at htracks
        exact htracks
      · rw [pending, hnone, List.append_nil] at htracks
        exact htracks

lemma derived_counted : (h.step crypto .derived).Counted := by
  cases hgroup : h.client.group with
  | none => exact hh.idle rfl rfl (by simp [step, apply, derived, hgroup])
  | some g =>
    by_cases hinst : h.client.installing
    · have hclient : (h.step crypto .derived).client = h.client.installOwnKey g.1 g.2 := by
        simp [step, apply, derived, hgroup, hinst]
      have hone : installKeys h.client = [g.2] := by simp [installKeys, hgroup, hinst]
      refine hh.unsealed rfl (List.Subset.refl _) ?_
      intro side
      have htracks := hh.tracks side
      have hnone : installKeys { h.client with page := h.client.page.setOwnKey g.1 g.2, installing := false } = [] := by
        simp [installKeys, hgroup]
      rw [hclient, installOwnKey, frames_post]
      cases side
      · rw [pending, installKeys_post, hnone]
        rw [pending, hone] at htracks
        exact htracks.install
      · rw [pending, hone] at htracks
        rw [pending, installKeys_post, hnone, List.append_nil, post]
        split
        · rw [inboxKeys_append]
          exact htracks
        · exact htracks.fewer (List.sublist_append_left _ _)
    · exact hh.idle rfl rfl (by simp [step, apply, derived, hgroup, hinst])

lemma workerNext_counted : (h.step crypto .workerNext).Counted := by
  cases hinbox : h.client.inbox with
  | nil => exact hh.idle rfl rfl (by simp [step, apply, workerNext, hinbox])
  | cons msg inbox =>
    have hclient : (h.step crypto .workerNext).client =
        { h.client with worker := h.client.worker.onMessage crypto msg, inbox := inbox } := by
      simp [step, apply, workerNext, hinbox]
    refine hh.unsealed rfl (List.Subset.refl _) ?_
    intro side
    have htracks := hh.tracks side
    rw [hclient]
    cases side with
    | page => exact htracks
    | worker =>
      rw [pending, hinbox] at htracks
      cases msg with
      | ownKey => exact Tracks.install htracks
      | mode | peerKey | forgetPeer | layout => exact htracks

lemma ensureE2ee_counted {api : Option TransformApi} (hfresh : (h.draws (.ensureE2ee api secret) ++ h.secrets).Nodup) :
    (h.step crypto (.ensureE2ee api secret)).Counted := by
  by_cases hgroup : h.client.group.isSome
  · exact hh.idle rfl (by simp [step, draws, hgroup]) (by simp [step, apply, ensureE2ee, hgroup])
  · have hdraws : h.draws (.ensureE2ee api secret) = [secret] := by simp [draws, hgroup]
    have hclient : (h.step crypto (.ensureE2ee api secret)).client =
        ({ h.client with api := api, group := some (0, secret), page := .new, worker := .new, inbox := [] } :
          MediaClient).installOwnKey 0 secret := by
      simp [step, apply, ensureE2ee, hgroup]
    rw [hdraws] at hfresh
    have hsecrets : (h.step crypto (.ensureE2ee api secret)).secrets = secret :: h.secrets := by
      simp [step, hdraws]
    have hfirst : ∀ side, Tracks h.seals (secret :: h.secrets) side none [secret] := by
      intro side
      exact Tracks.none_nil.draw hh.drawn (List.nodup_cons.mp hfresh).1
    refine hh.unsealed rfl (by rw [hsecrets]; exact List.subset_cons_self _ _) ?_
    intro side
    rw [hsecrets, hclient, installOwnKey, frames_post]
    cases side
    · rw [pending, installKeys_post]
      exact (hfirst .page).install
    · rw [pending, installKeys_post, post]
      split
      · exact hfirst .worker
      · exact .none_nil

lemma step_counted (hfresh : (h.draws e ++ h.secrets).Nodup) (hok : h.SoleSealer e) : (h.step crypto e).Counted := by
  cases e with
  | encoded data => exact (encoded_carries crypto h data).counted crypto hh hok
  | captured opus => exact (captured_carries crypto h opus).counted crypto hh hok
  | dropE2ee => exact hh.keeps rfl rfl (dropE2ee_own h.client) (dropE2ee_pending h.client)
  | startMedia path =>
    by_cases hpath : path = .webrtc
    · have happly : (h.step crypto (.startMedia path)).client = h.client.dropE2ee := if_pos hpath
      refine hh.keeps rfl rfl ?_ ?_ <;> rw [happly]
      · exact dropE2ee_own h.client
      · exact dropE2ee_pending h.client
    · have happly : (h.step crypto (.startMedia path)).client = h.client := if_neg hpath
      refine hh.keeps rfl rfl ?_ ?_ <;> rw [happly] <;> intro side
      · rfl
      · exact List.Sublist.refl _
  | setE2eeMode mode => exact setE2eeMode_counted crypto hh mode
  | ensureE2ee => exact ensureE2ee_counted crypto hh hfresh
  | rotate => exact rotate_counted crypto hh hfresh
  | derived => exact derived_counted crypto hh
  | workerNext => exact workerNext_counted crypto hh

end

theorem frame_counters_unique (es : List MediaEvent) (hes : Meets (step crypto) SoleSealer init es)
    (hsecrets : (es.foldl (step crypto) init).secrets.Nodup) :
    ((es.foldl (step crypto) init).seals.map fun s => (s.secret, s.counter)).Nodup := by
  have hinv : (es.foldl (step crypto) init).secrets.Nodup → (es.foldl (step crypto) init).Counted := by
    refine meets_invariant (fun h => h.secrets.Nodup → h.Counted) ?_ hes fun _ => init_counted
    intro h e hh hok hnodup
    have hnodup' : (h.draws e ++ h.secrets).Nodup := hnodup
    exact step_counted crypto (hh (List.nodup_append.mp hnodup').2.1) hnodup' hok
  exact (hinv hsecrets).nodup

theorem frame_counters_unique_sample :
    let es : List MediaEvent :=
      [.ensureE2ee (some .script) (Vector.replicate 32 5), .workerNext, .setE2eeMode .encrypt, .workerNext,
        .startMedia .webrtc, .encoded [1], .encoded [2], .startMedia .websocket,
        .rotate (Vector.replicate 32 6), .derived, .captured [3], .captured [4]]
    let h := es.foldl (step .masks) init
    h.seals.length = 4 ∧ (h.seals.map fun s => (s.secret, s.counter)).Nodup := by
  intro es h
  refine ⟨by decide, frame_counters_unique .masks es ?_ (by decide)⟩
  refine ⟨?_, ?_, ?_, ?_, ?_, ?_, ?_, ?_, ?_, ?_, ?_, ?_, trivial⟩ <;> decide

theorem path_switch_reuses_counter :
    let es : List MediaEvent :=
      [.ensureE2ee (some .script) (Vector.replicate 32 5), .workerNext, .setE2eeMode .encrypt, .workerNext,
        .startMedia .webrtc, .encoded [1], .startMedia .websocket, .captured [2]]
    let h := es.foldl (step .masks) init
    h.secrets.Nodup ∧ ¬ (h.seals.map fun s => (s.secret, s.counter)).Nodup := by
  decide

end AurixVoice.Web.SealHistory
