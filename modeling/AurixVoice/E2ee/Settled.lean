import AurixVoice.E2ee.LinkSteps

namespace AurixVoice.E2ee

open Network List Function

variable {crypto : Crypto} {ids : UserId → IdentityKey}

variable (crypto ids) in
structure Network.Tracks (s : Network) : Prop where
  sound : ∀ u, (s.groups u).Sound crypto ids u
  linked : ∀ u v, u ≠ v → Linked crypto ids u v (s.groups u) (s.groups v) (s.queue u v) (s.queue v u)

namespace Network

variable {s : Network} {u v : UserId} {g : Group} {sent : UserId → List Wire} {coins : Coins}

lemma tracks_start (secrets : UserId → Secret) : (start crypto ids secrets).Tracks crypto ids where
  sound u := Group.Sound.new (secrets u)
  linked u v _ := by
    have hnone : ∀ w, (Group.new crypto (ids w) (secrets w)).record = fun _ => ∅ := fun w => rfl
    have hhalf : ∀ a b, Half crypto ids a b (Group.new crypto (ids a) (secrets a))
        (Group.new crypto (ids b) (secrets b)) [] [] := by
      intro a b
      refine ⟨nofun, ?_, fun hlasts _ => ?_⟩
      · simp [hnone, recorded]
      · have hnow := hlasts.now
        simp [hnone] at hnow
    exact ⟨hhalf u v, hhalf v u, fun c hc => by simp [start, Group.new] at hc⟩

/-- After an act of `u` only its own links have to be looked at. -/
lemma tracks_act (hsound : ∀ w, w ≠ u → (s.groups w).Sound crypto ids w) (hrest : ∀ a b, a ≠ b → a ≠ u → b ≠ u →
      Linked crypto ids a b (s.groups a) (s.groups b) (s.queue a b) (s.queue b a)) (hg : g.Sound crypto ids u)
    (hlinked : ∀ v, v ≠ u → Linked crypto ids u v g (s.groups v) (s.queue u v ++ sent v) (s.queue v u)) :
    (s.act u g sent).Tracks crypto ids := by
  refine ⟨fun w => ?_, fun a b hab => ?_⟩
  · by_cases hw : w = u
    · subst hw
      simpa [act] using hg
    · simpa [Network.act, hw] using hsound w hw
  · by_cases ha : a = u
    · subst ha
      simpa [act, hab.symm] using hlinked b hab.symm
    · by_cases hb : b = u
      · subst hb
        simpa [act, ha] using (hlinked a ha).symm
      · simpa [Network.act, ha, hb] using hrest a b hab ha hb

section

variable (h : s.Tracks crypto ids)
include h

lemma Tracks.act (hg : g.Sound crypto ids u)
    (hlinked : ∀ v, v ≠ u → Linked crypto ids u v g (s.groups v) (s.queue u v ++ sent v) (s.queue v u)) :
    (s.act u g sent).Tracks crypto ids :=
  tracks_act (fun w _ => h.sound w) (fun a b hab _ _ => h.linked a b hab) hg hlinked

lemma Tracks.act_taken {m : Wire} {q : List Wire} (hqueue : s.queue u v = m :: q) (hg : g.Sound crypto ids v)
    (hothers : ∀ w, w ≠ v → w ≠ u → Linked crypto ids v w g (s.groups w) (s.queue v w ++ sent w) (s.queue w v))
    (huv : u ≠ v) (hsender : Linked crypto ids v u g (s.groups u) (s.queue v u ++ sent u) q) :
    ((s.take u v 0).act v g sent).Tracks crypto ids := by
  refine tracks_act (fun w _ => h.sound w) (fun a b hab ha hb => ?_) hg fun w hw => ?_
  · simpa [take, ha, hb] using h.linked a b hab
  · by_cases hwu : w = u
    · subst hwu
      simpa [take, hqueue, huv] using hsender
    · simpa [take, hwu, hw] using hothers w hw hwu

lemma tracks_join {c : ChannelId} (latecomers : Finset UserId)
    (hheeds : s.Heeds (.join u c latecomers)) : (s.step crypto (.join u c latecomers)).Tracks crypto ids := by
  have hsound := (h.sound u).joined c
  by_cases hc : c ∈ (s.groups u).channels
  · simp only [step, Group.joined, hc, if_true, flatMap_nil] at hsound ⊢
    refine h.act hsound fun v hv => ?_
    rw [append_nil]
    exact h.linked u v hv.symm
  · simp only [step, Group.joined, hc, if_false] at hsound ⊢
    refine h.act hsound fun v hv => ?_
    have hreaches : c ∈ (s.groups v).channels →
        (decide (v ≠ u) && (decide (c ∈ s.channels v) || decide (v ∈ latecomers))) = true := by
      intro hmem
      have hmem' : c ∈ s.channels v := hmem
      simp [hv, hmem']
    simpa only [flatMap_cons, flatMap_nil, append_nil, Outgoing.wires] using
      (h.linked u v hv.symm).joined (hheeds hc v) (h.sound u).shared hc hreaches

lemma tracks_leave {c : ChannelId} (hheeds : s.Heeds (.leave u c coins)) :
    (s.step crypto (.leave u c coins)).Tracks crypto ids := by
  by_cases hc : c ∈ (s.groups u).channels
  · have hc' : ¬ c ∉ s.channels u := not_not.mpr hc
    simp only [step, if_neg hc']
    refine h.act ((h.sound u).left coins c) fun v hv => ?_
    have hnoticed : s.isNoticed u c v = true ↔ c ∈ s.channels v ∨ ∃ m ∈ s.queue u v, m.channel = c := by
      simp [isNoticed, hv]
    exact (h.linked u v hv.symm).left (h.sound v).shared hc (hheeds hc v hv) (h.sound u).shared hnoticed
  · have hc' : c ∉ s.channels u := hc
    simp only [step, if_pos hc']
    exact h

lemma tracks_rotate (hids : Agreeing crypto ids) {force : Bool}
    (hheeds : s.Heeds (.rotate u force coins)) : (s.step crypto (.rotate u force coins)).Tracks crypto ids := by
  by_cases hturn : (force || (s.groups u).rotationPending) = true
  · have hfresh := (h.sound u).fresh coins
    have hrotate := Group.rotate_allWrappable ((h.sound u).allWrappable hids) coins (fun _ => false) force
    cases hr : (s.groups u).rotate crypto coins force with
    | mk result g =>
      have hsent : ∀ v, ∃ out, result = .ok out ∧ ((s.groups u).fresh crypto coins).SameRecords g ∧
          out.flatMap (Outgoing.wires (fun _ => false) v) =
            ((s.groups u).fresh crypto coins).keyFor crypto coins v := by
        intro v
        have hv := hrotate v hturn
        rwa [hr] at hv
      obtain ⟨out, rfl, hsame, -⟩ := hsent u
      simp only [step, hr]
      refine h.act (hfresh.of_same hsame) fun v hv => ?_
      obtain ⟨out', hout', -, hkeys⟩ := hsent v
      obtain rfl : out = out' := by simpa using hout'
      rw [hkeys]
      have hlink := h.linked u v hv.symm
      cases hfind : (s.groups u).peers.find v with
      | none =>
        -- nothing is sent, and what is not on record asks for no key
        have hnone : ((s.groups u).fresh crypto coins).keyFor crypto coins v = [] := by
          have hfind' : ((s.groups u).fresh crypto coins).peers.find v = none := hfind
          simp [Group.keyFor, hfind']
        rw [hnone, append_nil]
        have hempty : (s.groups u).record v = ∅ := Group.record_of_none hfind
        have hlink' : Linked crypto ids u v ((s.groups u).fresh crypto coins) (s.groups v) (s.queue u v)
            (s.queue v u) := by
          refine ⟨⟨hlink.there.opens, hlink.there.present, fun hlasts => ?_⟩,
            ⟨hlink.back.opens, hlink.back.present, hlink.back.keyed⟩, hlink.seen⟩
          have hnow := hlasts.now
          have hempty' : ((s.groups u).fresh crypto coins).record v = ∅ := hempty
          simp [hempty'] at hnow
        exact hlink'.of_same hsame.sameFor
      | some =>
        exact Linked.sent hids hfresh ⟨hlink.back.opens, hlink.back.present, hlink.back.keyed⟩ hlink.there.opens
          hlink.there.present hlink.seen hfind hsame (hheeds hturn v)
  · have hsame : (s.groups u).rotate crypto coins force = (.ok [], s.groups u) := by
      simp [Group.rotate, hturn]
    simp only [step, hsame, flatMap_nil]
    refine h.act (h.sound u) fun v hv => ?_
    rw [append_nil]
    exact h.linked u v hv.symm

lemma tracks_deliver (hids : Agreeing crypto ids) {position : ℕ} (hheeds : s.Heeds (.deliver u v position coins)) :
    (s.step crypto (.deliver u v position coins)).Tracks crypto ids := by
  obtain ⟨rfl, hrouted⟩ := hheeds
  by_cases huv : u = v
  · simp only [step, huv, if_true]
    exact h
  cases hqueue : s.queue u v with
  | nil =>
    simp only [step, huv, if_false, hqueue, getElem?_nil]
    exact h
  | cons m =>
    have hnext : s.isNext u v 0 m = true := by simp [isNext]
    simp only [step, huv, if_false, hqueue, getElem?_cons_zero, hnext, if_true]
    rw [(h.sound u).identity]
    have hlink := h.linked v u (symm huv)
    rw [hqueue] at hlink
    have hroute : (s.groups v).answers u m = true → s.Routed v u coins (m.onto ((s.groups v).record u)) :=
      hrouted m (by rw [hqueue]; rfl)
    obtain ⟨hsound, hothers⟩ := Group.receive_bystander (m := m) hids (h.sound v) coins
      fun c generation wrapped hm => hlink.back.opens c generation wrapped (by rw [hm]; exact mem_cons_self)
    refine h.act_taken hqueue hsound (fun w hw hwu => ?_) huv (hlink.received hids (h.sound v) hroute)
    rw [(hothers w hwu).2, append_nil]
    exact (h.linked v w hw.symm).of_same (hothers w hwu).1

lemma tracks_encrypt (plain : Bytes) : (s.step crypto (.encrypt u plain)).Tracks crypto ids := by
  refine h.act ((h.sound u).encrypt plain) fun v hv => ?_
  rw [append_nil]
  exact (h.linked u v hv.symm).encrypt (h.sound u) plain

lemma tracks_decrypt (frame : Bytes) : (s.step crypto (.decrypt v u frame)).Tracks crypto ids := by
  simp only [step]
  split_ifs with hahead
  · exact h
  · refine h.act ((h.sound v).decrypt u frame) fun w hw => ?_
    rw [append_nil]
    by_cases hwu : w = u
    · subst hwu
      exact (h.linked v w hw.symm).decrypt (by simpa using hahead)
    · refine (h.linked v w hw.symm).of_same ?_
      have hrest := Group.decrypt_rest (g := s.groups v) (u := u) crypto frame
      exact .of_find (by rw [hrest]) (by rw [hrest]) (by rw [hrest]) (fun hp => by rwa [hrest] at hp)
        (by rw [Group.find_decrypt, if_neg hwu])

end

lemma tracks_step (hids : Agreeing crypto ids) (s : Network) (e : Event) (h : s.Tracks crypto ids)
    (hheeds : s.Heeds e) : (s.step crypto e).Tracks crypto ids := by
  cases e with
  | join u c latecomers => exact tracks_join h latecomers hheeds
  | leave => exact tracks_leave h hheeds
  | deliver => exact tracks_deliver h hids hheeds
  | rotate => exact tracks_rotate h hids hheeds
  | encrypt u plain => exact tracks_encrypt h plain
  | decrypt v u frame => exact tracks_decrypt h frame

variable {members : Finset UserId}

section

variable (h : s.Tracks crypto ids) (hs : s.Settled members) (hu : u ∈ members) (hv : v ∈ members) (huv : u ≠ v)
  (hrec : ((s.groups u).record v).Nonempty)
include h hs hu hv huv hrec

lemma Tracks.holds : (s.groups v).Holds u (s.groups u).key (s.groups u).counter := by
  have hlink := h.linked u v huv
  rw [hs.arrived u hu v hv, hs.arrived v hv u hu] at hlink
  have hlasts : Lasts (s.groups u).channels ((s.groups u).record v) [] := by
    intro p hp
    obtain rfl : p = [] := prefix_nil.mp hp
    rw [recorded, foldl_nil, Finset.inter_eq_left.mpr ((h.sound u).shared.record_subset v)]
    exact hrec
  rcases hlink.there.keyed hlasts (hs.rotated u hu) with hkeyed | ⟨c, -, hmem⟩
  · exact hkeyed
  · cases hmem

lemma Tracks.holds_both :
    (s.groups v).Holds u (s.groups u).key (s.groups u).counter ∧
      (s.groups u).Holds v (s.groups v).key (s.groups v).counter := by
  have hheld := h.holds hs hu hv huv hrec
  exact ⟨hheld, h.holds hs hv hu huv.symm (hheld.record_nonempty (h.sound v).shared)⟩

end

def actor : Event → UserId
  | .join u _ _ | .leave u _ _ | .rotate u _ _ | .encrypt u _ => u
  | .deliver _ v _ _ | .decrypt v _ _ => v

lemma groups_step_of_ne {e : Event} (h : actor e ≠ u) : (s.step crypto e).groups u = s.groups u := by
  cases e with
  | join | encrypt => exact update_of_ne (symm h) _ _
  | leave =>
    simp only [step]
    split_ifs
    · exact update_of_ne (symm h) _ _
    · rfl
  | deliver w w' position =>
    simp only [step]
    split_ifs
    · rfl
    · cases (s.queue w w')[position]? with
      | none => rfl
      | some =>
        dsimp only
        split_ifs
        · exact update_of_ne (symm h) _ _
        · rfl
  | rotate =>
    simp only [step]
    split <;> exact update_of_ne (symm h) _ _
  | decrypt =>
    simp only [step]
    split_ifs
    · rfl
    · exact update_of_ne (symm h) _ _

lemma groups_foldl_of_ne {events : List Event} (h : ∀ e ∈ events, actor e ≠ u) (s : Network) :
    (events.foldl (step crypto) s).groups u = s.groups u := by
  induction events generalizing s with
  | nil => rfl
  | cons e events ih =>
    rw [foldl_cons, ih fun e' he' => h e' (mem_cons_of_mem _ he')]
    exact groups_step_of_ne (h e mem_cons_self)

end Network

theorem settled_members_decrypt (hids : Agreeing crypto ids) (secrets : UserId → Secret) (events : List Event)
    (hrun : Traces.Meets (step crypto) Network.Heeds (start crypto ids secrets) events) (members : Finset UserId)
    (s : Network) (hs : s = events.foldl (step crypto) (start crypto ids secrets)) (hsettled : s.Settled members)
    (u v : UserId) (hu : u ∈ members) (hv : v ∈ members) (huv : u ≠ v) (hshare : s.Share u v) (plain : Bytes) :
    ((s.groups v).decrypt crypto u ((s.groups u).encrypt crypto plain).1).1 = .ok plain := by
  have htracks : s.Tracks crypto ids := by
    rw [hs]
    exact Traces.meets_invariant (Tracks crypto ids) (tracks_step hids) hrun (tracks_start secrets)
  obtain ⟨c, hcu, hcv⟩ := hshare
  have hseen := (htracks.linked u v huv).seen c hcu hcv
  rw [hsettled.arrived u hu v hv, hsettled.arrived v hv u hu] at hseen
  refine Group.decrypt_of_holds crypto ?_ plain
  rcases hseen with hrec | hrec
  · exact (htracks.holds_both hsettled hu hv huv ⟨c, hrec⟩).1
  · exact (htracks.holds_both hsettled hv hu huv.symm ⟨c, hrec⟩).2

namespace Sample

def ann : UserId := 1
def bob : UserId := 2
def lobby : ChannelId := 10
def team : ChannelId := 11

def constants : Crypto where
  hmac _ _ := Vector.replicate 32 1
  sha256 _ := Vector.replicate 32 1
  keystream _ _ _ := 0
  publicKey secret := secret
  diffieHellman _ _ := Vector.replicate 32 1

lemma nodup_ann_bob : [ann, bob].Nodup := by decide

def coins : Coins where
  secret := Vector.replicate 32 7
  nonce _ := Vector.replicate 12 0
  users s := if s ⊆ {ann, bob} then [ann, bob].filter (· ∈ s) else ascending s
  users_nodup s := by
    split_ifs
    · exact nodup_ann_bob.filter _
    · exact nodup_ascending s
  mem_users s u := by
    split_ifs with h
    · rw [mem_filter, decide_eq_true_eq]
      refine ⟨And.right, fun hu => ⟨?_, hu⟩⟩
      simpa using h hu
    · exact mem_ascending
  channel s := if lobby ∈ s then some lobby else if team ∈ s then some team else (ascending s).head?
  channel_eq_none s := by
    split_ifs with hlobby hteam
    · simpa using Finset.ne_empty_of_mem hlobby
    · simpa using Finset.ne_empty_of_mem hteam
    · exact (Coins.sorted (Vector.replicate 32 7)).channel_eq_none s
  mem_of_channel s c h := by
    split_ifs at h with hlobby hteam
    · exact Option.some.inj h ▸ hlobby
    · exact Option.some.inj h ▸ hteam
    · exact (Coins.sorted (Vector.replicate 32 7)).mem_of_channel s c h

def identities (_ : UserId) : IdentityKey := .fromBytes constants (Vector.replicate 32 1)

lemma contributory_constants : IdentityKey.wasContributory (Vector.replicate 32 1) = true := by decide

lemma agreeing_identities : Agreeing constants identities :=
  ⟨fun _ _ => rfl, fun _ _ => contributory_constants⟩

def dawn : Network := .start constants identities fun _ => Vector.replicate 32 5

def meeting : List Event :=
  [.join ann lobby ∅, .join bob lobby ∅, .deliver bob ann 0 coins, .rotate ann false coins,
    .deliver ann bob 0 coins, .rotate bob false coins, .deliver bob ann 0 coins]

def met (n : ℕ) : Network := (meeting.take n).foldl (step constants) dawn

lemma channels_met_stranger (n : ℕ) {v : UserId} (ha : v ≠ ann) (hb : v ≠ bob) : (met n).channels v = ∅ := by
  have hactors : ∀ e ∈ meeting, actor e = ann ∨ actor e = bob := by
    simp [meeting, actor]
  have hothers : ∀ e ∈ meeting.take n, actor e ≠ v := by
    intro e he
    rcases hactors e (mem_of_mem_take he) with h | h
    · rw [h]
      exact symm ha
    · rw [h]
      exact symm hb
  rw [channels, met, groups_foldl_of_ne hothers]
  rfl

lemma heeds_quiet_delivery {s : Network} {u v : UserId} {coins : Coins}
    (h : ((s.queue u v)[0]?).all (fun m => !(s.groups v).answers u m) = true) : s.Heeds (.deliver u v 0 coins) := by
  refine ⟨rfl, fun m hm hanswers => ?_⟩
  rw [hm] at h
  simp [hanswers] at h

lemma heeds_rotation (n : ℕ) {u v : UserId} {c : ChannelId} (hmembers : {u, v} = ({ann, bob} : Finset UserId))
    (hchannel : coins.channel (((met n).groups u).record v) = some c) (hc : c ∈ (met n).channels v)
    (hself : coins.channel (((met n).groups u).record u) = none) : (met n).Heeds (.rotate u false coins) := by
  intro _ w hshare d hd
  by_cases hw : w = v
  · subst hw
    obtain rfl : c = d := Option.some.inj (hchannel.symm.trans hd)
    exact hc
  · by_cases hwu : w = u
    · subst hwu
      rw [hself] at hd
      cases hd
    · -- nobody else is in a channel
      obtain ⟨e, -, he⟩ := hshare
      have hout : w ∉ ({ann, bob} : Finset UserId) := by simp [← hmembers, hw, hwu]
      simp only [Finset.mem_insert, Finset.mem_singleton, not_or] at hout
      rw [channels_met_stranger n hout.1 hout.2] at he
      cases he

lemma meets_meeting : Traces.Meets (step constants) Network.Heeds dawn meeting := by
  refine ⟨fun _ v generation wrapped => nofun, ?_, ?_, ?_, ?_, ?_, ?_, trivial⟩
  · change (met 1).Heeds (.join bob lobby ∅)
    have hempty : ∀ v, (met 1).queue v bob = [] := by
      intro v
      by_cases hv : v = ann
      · subst hv
        decide +kernel
      · simp [met, meeting, step, act, hv, dawn, start]
    intro _ v generation wrapped
    rw [hempty v]
    exact nofun
  · exact heeds_quiet_delivery (by decide +kernel)
  · exact heeds_rotation (v := bob) (c := lobby) 3 rfl (by decide +kernel) (by decide +kernel) (by decide +kernel)
  · exact heeds_quiet_delivery (by decide +kernel)
  · exact heeds_rotation (v := ann) (c := lobby) 5 (Finset.pair_comm _ _) (by decide +kernel) (by decide +kernel)
      (by decide +kernel)
  · exact heeds_quiet_delivery (by decide +kernel)

theorem settled_members_decrypt_meeting :
    (met 7).Settled {ann, bob} ∧ (met 7).Share ann bob ∧
      (((met 7).groups bob).decrypt constants ann (((met 7).groups ann).encrypt constants [1, 2, 3]).1).1 =
        .ok [1, 2, 3] := by
  have hsettled : (met 7).Settled {ann, bob} := ⟨by decide +kernel, by decide +kernel⟩
  have hshare : (met 7).Share ann bob := ⟨lobby, by decide +kernel, by decide +kernel⟩
  exact ⟨hsettled, hshare, settled_members_decrypt agreeing_identities _ meeting meets_meeting {ann, bob} (met 7) rfl
    hsettled ann bob (by decide) (by decide) (by decide) hshare [1, 2, 3]⟩

def parting : List Event :=
  meeting ++ [.join bob team ∅, .join ann team ∅, .deliver ann bob 0 coins, .deliver bob ann 0 coins,
    .leave ann lobby coins, .deliver ann bob 0 coins, .rotate ann false coins]

def parted : Network := parting.foldl (step constants) dawn

theorem members_lost_after_leave :
    parted.Settled {ann, bob} ∧ parted.Share ann bob ∧
      ((parted.groups bob).decrypt constants ann ((parted.groups ann).encrypt constants [1, 2, 3]).1).1 =
        .error (.encryption "no key for this E2EE generation") ∧
      ((parted.groups ann).decrypt constants bob ((parted.groups bob).encrypt constants [1, 2, 3]).1).1 =
        .error (.encryption "unknown E2EE sender") := by
  refine ⟨⟨by decide +kernel, by decide +kernel⟩, ⟨team, by decide +kernel, by decide +kernel⟩, ?_, ?_⟩
  · decide +kernel
  · decide +kernel

end Sample

end AurixVoice.E2ee
