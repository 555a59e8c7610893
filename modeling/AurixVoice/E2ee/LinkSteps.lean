import AurixVoice.E2ee.Links

namespace AurixVoice.E2ee

open E2ee.Group Finset List

variable {crypto : Crypto} {ids : UserId → IdentityKey} {u v : UserId} {gu gv : Group} {quv qvu : List Wire}
  {c : ChannelId} {coins : Coins}

lemma erase_nonempty {s : Finset ChannelId} (hs : s.Nonempty) (hne : s ≠ {c}) : (s.erase c).Nonempty := by
  rw [nonempty_iff_ne_empty]
  intro hempty
  rcases (erase_eq_empty_iff s c).mp hempty with h | h
  · exact hs.ne_empty h
  · exact hne h

lemma recorded_erase_inter (record channels : Finset ChannelId) (p : List Wire) :
    recorded (record.erase c) p ∩ channels.erase c = (recorded record p ∩ channels).erase c := by
  ext d
  by_cases hd : d = c
  · simp [hd]
  · have hsame : d ∈ recorded (record.erase c) p ↔ d ∈ recorded record p := mem_recorded_congr (by simp [hd])
    simp [hsame, hd]

section joined

lemma Half.of_greeted (h : Half crypto ids u v gu gv quv qvu) :
    Half crypto ids u v gu gv (quv ++ [.hello c]) qvu where
  opens d g w hm := by
    rcases mem_append.mp hm with hm | hm
    · exact h.opens d g w hm
    · simp at hm
  present := h.present
  keyed hlasts hp := (h.keyed hlasts hp).imp_left keyed_concat.mpr

variable (hkeys : ∀ generation wrapped, Wire.senderKey c generation wrapped ∉ qvu)
include hkeys

lemma greeting_of_lasts {record channels : Finset ChannelId} (hc : c ∉ record)
    (h : Lasts (insert c channels) record qvu) : Lasts channels record qvu ∨ Wire.hello c ∈ qvu := by
  by_cases hlasts : Lasts channels record qvu
  · exact .inl hlasts
  · right
    simp only [Lasts, not_forall] at hlasts
    obtain ⟨p, hp, hnone⟩ := hlasts
    obtain ⟨d, hd⟩ := h p hp
    obtain ⟨hrec, hd⟩ := mem_inter.mp hd
    have hdc : d = c := by
      refine (mem_insert.mp hd).resolve_right fun hmem => ?_
      exact hnone ⟨d, mem_inter.mpr ⟨hrec, hmem⟩⟩
    subst hdc
    obtain hmem | ⟨m, hm, hchan, hnotice⟩ := announced_of_mem_recorded hrec
    · exact absurd hmem hc
    · have hqueue := hp.subset hm
      cases m with
      | hello d' =>
        obtain rfl : d' = d := hchan
        exact hqueue
      | senderKey d' generation wrapped =>
        obtain rfl : d' = d := hchan
        exact absurd hqueue (hkeys generation wrapped)
      | left => cases hnotice

lemma Half.joined (h : Half crypto ids u v gu gv quv qvu) (hs : gu.Shared) (hc : c ∉ gu.channels) :
    Half crypto ids u v { gu with channels := insert c gu.channels } gv quv qvu where
  opens := h.opens
  present := h.present
  keyed hlasts hp := by
    have hnew : c ∉ gu.record v := fun hmem => hc (hs.record_subset v hmem)
    rcases greeting_of_lasts hkeys hnew hlasts with hlasts | hhello
    · refine (h.keyed hlasts hp).imp_right ?_
      rintro ⟨d, hd, hhello⟩
      exact ⟨d, mem_insert_of_mem hd, hhello⟩
    · exact .inr ⟨c, mem_insert_self c _, hhello⟩

lemma Half.joined_by_other (h : Half crypto ids v u gv gu qvu quv) :
    Half crypto ids v u gv { gu with channels := insert c gu.channels } qvu quv where
  opens := h.opens
  present := h.present.trans (subset_insert _ _)
  keyed hlasts hp := by
    refine (h.keyed hlasts hp).imp_left ?_
    refine Keyed.imp (fun p _ hn => hn.mono (inter_subset_inter_left (subset_insert _ _))) ?_ id
    intro d generation wrapped hm
    have hd : d ≠ c := by
      rintro rfl
      exact hkeys generation wrapped hm
    simp [hd]

lemma Linked.joined (h : Linked crypto ids u v gu gv quv qvu) (hs : gu.Shared) (hc : c ∉ gu.channels)
    {reaches : Bool} (hreaches : c ∈ gv.channels → reaches = true) :
    Linked crypto ids u v { gu with channels := insert c gu.channels } gv
      (quv ++ if reaches then [.hello c] else []) qvu := by
  have hthere := h.there.joined hkeys hs hc
  have hback := h.back.joined_by_other hkeys
  cases reaches with
  | false =>
    have hout : c ∉ gv.channels := fun hmem => by simpa using hreaches hmem
    simp only [Bool.false_eq_true, if_false, append_nil]
    refine ⟨hthere, hback, fun d hd hdv => ?_⟩
    rcases mem_insert.mp hd with rfl | hd
    · exact absurd hdv hout
    · exact h.seen d hd hdv
  | true =>
    simp only [if_true]
    have hmore : recorded (gv.record u) (quv ++ [.hello c]) = insert c (recorded (gv.record u) quv) := by
      rw [recorded_append]
      rfl
    refine ⟨hthere.of_greeted, hback.of_more ?_, fun d hd hdv => ?_⟩
    · rw [hmore]
      exact insert_subset (mem_insert_self c _) hback.present
    · rw [hmore]
      rcases mem_insert.mp hd with rfl | hd
      · exact .inr (mem_insert_self d _)
      · exact (h.seen d hd hdv).imp id mem_insert_of_mem

end joined

section left

lemma Keyed.noticed {carried : UInt8 → Bytes → Prop} {key : SenderKey} {counter : UInt32}
    (h : Keyed gv.channels carried (gv.record u) (gv.Holds u key counter) quv) (hv : gv.Shared)
    (hne : recorded (gv.record u) quv ∩ gv.channels ≠ {c}) (noticed : Bool) :
    Keyed gv.channels carried (gv.record u) (gv.Holds u key counter)
      (quv ++ if noticed then [.left c] else []) := by
  cases noticed with
  | false => simpa using h
  | true =>
    have hsome := h.nonempty fun hh => by
      rw [inter_eq_left.mpr (hv.record_subset u)]
      exact hh.record_nonempty hv
    have herase := erase_nonempty hsome hne
    rw [← erase_inter] at herase
    exact keyed_concat.mpr ⟨h, herase⟩

lemma recorded_noticed {noticed : Bool} (hv : gv.Shared)
    (hnoticed : noticed = true ↔ c ∈ gv.channels ∨ ∃ m ∈ quv, m.channel = c) :
    recorded (gv.record u) (quv ++ if noticed then [.left c] else []) = (recorded (gv.record u) quv).erase c := by
  cases noticed with
  | true =>
    rw [recorded_append]
    rfl
  | false =>
    have habsent : ¬ (c ∈ gv.channels ∨ ∃ m ∈ quv, m.channel = c) := fun h => by simpa using hnoticed.mpr h
    have hnot : c ∉ recorded (gv.record u) quv := by
      intro hmem
      rcases announced_of_mem_recorded hmem with hmem | ⟨m, hm, hchan, -⟩
      · exact habsent (.inl (hv.record_subset u hmem))
      · exact habsent (.inr ⟨m, hm, hchan⟩)
    rw [erase_eq_of_notMem hnot]
    simp

variable {noticed : Bool} (hv : gv.Shared) (hc : c ∈ gu.channels)
  (hkeeps : (∃ d, d ≠ c ∧ d ∈ gu.channels ∧ d ∈ gv.channels) → KeepsTracks u v gu gv quv qvu c)
include hv hc hkeeps

lemma Half.left (h : Half crypto ids u v gu gv quv qvu) :
    Half crypto ids u v (gu.left coins c) gv (quv ++ if noticed then [.left c] else []) qvu where
  opens d generation wrapped hm := by
    rcases mem_append.mp hm with hm | hm
    · exact h.opens d generation wrapped hm
    · cases noticed <;> simp at hm
  present := by
    rw [record_left coins hc]
    exact (recorded_subset (erase_subset _ _)).trans h.present
  keyed hlasts hp := by
    rw [record_left coins hc, channels_left coins hc] at hlasts
    have hbefore : Lasts gu.channels (gu.record v) qvu := hlasts.mono fun p => by
      rw [recorded_erase_inter]
      exact erase_subset _ _
    -- a channel that is still shared is on record, so the condition applies
    obtain ⟨d, hd⟩ := hlasts.finally
    rw [recorded_erase_inter] at hd
    obtain ⟨hdc, hd⟩ := mem_erase.mp hd
    obtain ⟨hrec, hdu⟩ := mem_inter.mp hd
    have htracks := hkeeps ⟨d, hdc, hdu, h.present hrec⟩
    have hkey := left_keepsKey gu coins c
    rw [hkey.key, counter_left, channels_left coins hc]
    rcases h.keyed hbefore (hkey.settled hp) with hkeyed | ⟨d', hd', hhello⟩
    · exact .inl (hkeyed.noticed hv htracks.other noticed)
    · refine .inr ⟨d', mem_erase.mpr ⟨?_, hd'⟩, hhello⟩
      intro hdc'
      simpa [Wire.isNotice] using htracks.arrived _ hhello hdc'

lemma Half.left_by_other (h : Half crypto ids v u gv gu qvu quv) (hu : gu.Shared)
    (hnoticed : noticed = true ↔ c ∈ gv.channels ∨ ∃ m ∈ quv, m.channel = c) :
    Half crypto ids v u gv (gu.left coins c) qvu (quv ++ if noticed then [.left c] else []) where
  opens := h.opens
  present := by
    rw [recorded_noticed hv hnoticed, channels_left coins hc]
    exact erase_subset_erase c h.present
  keyed hlasts hp := by
    obtain ⟨d, hd⟩ := hlasts.finally
    rw [recorded_noticed hv hnoticed] at hd
    obtain ⟨hrec, hdv⟩ := mem_inter.mp hd
    obtain ⟨hdc, hrec⟩ := mem_erase.mp hrec
    have htracks := hkeeps ⟨d, hdc, h.present hrec, hdv⟩
    rcases h.keyed hlasts.of_append hp with hkeyed | ⟨d', hd', hhello⟩
    · left
      rw [channels_left coins hc, record_left coins hc]
      refine hkeyed.imp (fun p hp' hn => ?_) (fun d' generation wrapped hm => ?_) fun hh => ?_
      · rw [recorded_erase_inter]
        exact erase_nonempty hn (htracks.own p hp')
      · have hne : d' ≠ c := fun hdc' => by simpa [Wire.isNotice] using htracks.arrived _ hm hdc'
        simp [hne]
      · have hne : gu.record v ≠ {c} := by
          have hnow := htracks.own [] nil_prefix
          rwa [recorded, foldl_nil, inter_eq_left.mpr (hu.record_subset v)] at hnow
        exact hh.left coins hc (erase_nonempty (hh.record_nonempty hu) hne)
    · exact .inr ⟨d', hd', mem_append_left _ hhello⟩

lemma Linked.left (h : Linked crypto ids u v gu gv quv qvu) (hu : gu.Shared)
    (hnoticed : noticed = true ↔ c ∈ gv.channels ∨ ∃ m ∈ quv, m.channel = c) :
    Linked crypto ids u v (gu.left coins c) gv (quv ++ if noticed then [.left c] else []) qvu := by
  refine ⟨h.there.left hv hc hkeeps, h.back.left_by_other hv hc hkeeps hu hnoticed, fun d hd hdv => ?_⟩
  rw [channels_left coins hc] at hd
  obtain ⟨hdc, hd⟩ := mem_erase.mp hd
  rw [record_left coins hc, recorded_noticed hv hnoticed]
  have hsame : d ∈ recorded ((gu.record v).erase c) qvu ↔ d ∈ recorded (gu.record v) qvu :=
    mem_recorded_congr (by simp [hdc])
  rw [hsame, mem_erase]
  exact (h.seen d hd hdv).imp id fun hmem => ⟨hdc, hmem⟩

end left

section sent

lemma Linked.sent (hids : Agreeing crypto ids) {g' : Group} (hs : gu.Sound crypto ids u)
    (hback : Half crypto ids v u gv gu qvu quv)
    (hopens : ∀ c generation wrapped, Wire.senderKey c generation wrapped ∈ quv →
      ∃ secret, (ids v).unwrap crypto (ids u).publicKey generation wrapped = .ok secret)
    (hpresent : recorded (gu.record v) qvu ⊆ gv.channels)
    (hseen : ∀ c ∈ gu.channels, c ∈ gv.channels → c ∈ recorded (gu.record v) qvu ∨ c ∈ recorded (gv.record u) quv)
    {peer : Peer} (hfind : gu.peers.find v = some peer) (hsame : gu.SameRecords g')
    (hrouted : (∃ d, d ∈ gu.channels ∧ d ∈ gv.channels) → ∀ c, coins.channel (gu.record v) = some c →
      c ∈ gv.channels) :
    Linked crypto ids u v g' gv (quv ++ gu.keyFor crypto coins v) qvu := by
  obtain ⟨c, wrapped, hkey, hchan, hcarries⟩ := hs.keyFor hids hfind coins
  have hmore : recorded (gv.record u) (quv ++ [.senderKey c gu.key.generation wrapped]) =
      insert c (recorded (gv.record u) quv) := by
    rw [recorded_append]
    rfl
  have hc : c ∈ gu.channels := hs.shared.record_subset v (coins.mem_of_channel _ _ hchan)
  rw [hkey]
  refine of_same ⟨?_, ?_, ?_⟩ hsame.sameFor
  · exact Half.of_sent hopens hpresent hcarries fun hshare => hrouted hshare c hchan
  · refine hback.of_more ?_
    rw [hmore]
    exact insert_subset hc hback.present
  · intro d hd hdv
    rw [hmore]
    exact (hseen d hd hdv).imp id mem_insert_of_mem

end sent

section received

variable {g' : Group} {m : Wire} {q : List Wire}

lemma Half.absorbed (h : Half crypto ids v u gv gu (m :: q) quv) (hchannels : g'.channels = gu.channels)
    (hrecord : g'.record v ∩ gu.channels = m.onto (gu.record v) ∩ gu.channels)
    (hheld : m.keeps gu.channels (Carries crypto (ids u) (ids v).publicKey gv.key) (gu.record v)
      (gu.Holds v gv.key gv.counter) → g'.Holds v gv.key gv.counter) :
    Half crypto ids v u gv g' q quv where
  opens d generation wrapped hm := h.opens d generation wrapped (mem_cons_of_mem _ hm)
  present := by
    rw [hchannels]
    exact h.present
  keyed hlasts hp := by
    refine (h.keyed hlasts hp).imp_left fun hkeyed => ?_
    rw [hchannels]
    refine Keyed.imp (fun p _ hn => ?_) (fun _ _ _ _ => Iff.rfl) hheld hkeyed
    obtain ⟨d, hd⟩ := hn
    obtain ⟨hrec, hdu⟩ := mem_inter.mp hd
    have hsame : d ∈ g'.record v ↔ d ∈ m.onto (gu.record v) := by
      simpa [hdu] using Finset.ext_iff.mp hrecord d
    exact ⟨d, mem_inter.mpr ⟨(mem_recorded_congr hsame).mpr hrec, hdu⟩⟩

lemma Half.present_absorbed (h : Half crypto ids u v gu gv quv (m :: q)) (hsub : g'.record v ⊆ m.onto (gu.record v)) :
    recorded (g'.record v) q ⊆ gv.channels :=
  (recorded_subset hsub).trans h.present

lemma Half.consumed (h : Half crypto ids u v gu gv quv (m :: q)) (hchannels : g'.channels = gu.channels)
    (hsub : g'.record v ⊆ m.onto (gu.record v)) (hkey : g'.key = gu.key) (hcounter : g'.counter = gu.counter)
    (hquiet : g'.rotationPending = false → gu.rotationPending = false ∧
      ((g'.record v ∩ gu.channels).Nonempty → (gu.record v ∩ gu.channels).Nonempty) ∧
      ∀ d ∈ gu.channels, m ≠ .hello d) :
    Half crypto ids u v g' gv quv q where
  opens := h.opens
  present := h.present_absorbed hsub
  keyed hlasts hp := by
    obtain ⟨hpend, hnow, hno⟩ := hquiet hp
    rw [hchannels] at hlasts
    have hbefore : Lasts gu.channels (gu.record v) (m :: q) := by
      refine Lasts.cons (hnow hlasts.now) (hlasts.mono fun p => ?_)
      exact inter_subset_inter_right (recorded_subset hsub)
    rw [hkey, hcounter, hchannels]
    refine (h.keyed hbefore hpend).imp_right ?_
    rintro ⟨d, hd, hhello⟩
    rcases mem_cons.mp hhello with hm | hmem
    · exact absurd hm.symm (hno d hd)
    · exact ⟨d, hd, hmem⟩

lemma Linked.seen_absorbed (h : Linked crypto ids u v gu gv quv (m :: q)) (hchannels : g'.channels = gu.channels)
    (hrecord : g'.record v ∩ gu.channels = m.onto (gu.record v) ∩ gu.channels) (d : ChannelId) (hd : d ∈ g'.channels)
    (hdv : d ∈ gv.channels) : d ∈ recorded (g'.record v) q ∨ d ∈ recorded (gv.record u) quv := by
  rw [hchannels] at hd
  have hsame : d ∈ g'.record v ↔ d ∈ m.onto (gu.record v) := by
    simpa [hd] using Finset.ext_iff.mp hrecord d
  exact (h.seen d hd hdv).imp_left (mem_recorded_congr hsame).mpr

lemma Linked.ignored (h : Linked crypto ids u v gu gv quv (m :: q)) (hm : m.isNotice = false)
    (hc : m.channel ∉ gu.channels) : Linked crypto ids u v gu gv quv q := by
  have honto : m.onto (gu.record v) = insert m.channel (gu.record v) := by
    cases m with
    | hello | senderKey => rfl
    | left => cases hm
  have hrecord : gu.record v ∩ gu.channels = m.onto (gu.record v) ∩ gu.channels := by
    rw [honto, insert_inter_of_notMem hc]
  refine ⟨h.there.consumed rfl ?_ rfl rfl fun hp => ⟨hp, id, ?_⟩, h.back.absorbed rfl hrecord ?_,
    h.seen_absorbed rfl hrecord⟩
  · rw [honto]
    exact subset_insert _ _
  · rintro d hd rfl
    exact hc hd
  · cases m with
    | hello => exact id
    | senderKey d =>
      have hd : d ∉ gu.channels := hc
      intro hkeeps
      rwa [Wire.keeps, if_neg hd] at hkeeps
    | left => cases hm

lemma Linked.peerLeft (h : Linked crypto ids u v gu gv quv (.left c :: q)) :
    Linked crypto ids u v (gu.peerLeft c v) gv quv q := by
  have hkey := peerLeft_keepsKey gu c v
  have hrecord : (gu.peerLeft c v).record v = (gu.record v).erase c := record_peerLeft
  refine ⟨h.there.consumed channels_peerLeft hrecord.subset hkey.key counter_peerLeft
      fun hp => ⟨hkey.settled hp, ?_, ?_⟩,
    h.back.absorbed channels_peerLeft (by rw [hrecord]; rfl) ?_,
    h.seen_absorbed channels_peerLeft (by rw [hrecord]; rfl)⟩
  · rw [hrecord]
    exact fun hn => hn.mono (inter_subset_inter_right (erase_subset _ _))
  · exact fun _ _ => nofun
  · rintro ⟨hheld, hn⟩
    exact hheld.peerLeft (hn.mono inter_subset_left)

variable {peer : Peer}

section

variable (g : Group) (c : ChannelId)

lemma Group.record_noted (hfind : g.peers.find v = some peer) :
    (g.noted c v peer).record v = insert c (g.record v) := by
  rw [record_of_find hfind]
  simp [noted, record]

lemma Group.record_met (pk : PublicKey) (hfind : g.peers.find v = none) :
    (g.met c v pk).record v = insert c (g.record v) := by
  rw [record_of_none hfind]
  simp [met, record]

lemma Group.record_addKey (v : UserId) (key : SenderKey) : (g.addKey v key).record v = g.record v := by
  cases hfind : g.peers.find v with
  | none => simp [addKey, hfind]
  | some => simp [addKey, record, hfind]

lemma Group.addKey_rest (v : UserId) (key : SenderKey) :
    g.addKey v key = { g with peers := (g.addKey v key).peers } := by
  unfold addKey
  cases g.peers.find v <;> rfl

end

lemma Group.holds_addKey {g : Group} {key : SenderKey} {counter : UInt32} (hfind : g.peers.find v = some peer) :
    (g.addKey v key).Holds v key counter := by
  have hfind' : (g.addKey v key).peers.find v = some { peer with keys := peer.keys.insert key } := by
    simp [addKey, hfind]
  exact holds_of_insert hfind' rfl

variable (hids : Agreeing crypto ids)
include hids

lemma Linked.hello (h : Linked crypto ids u v gu gv quv (.hello c :: q)) (hs : gu.Sound crypto ids u)
    (hc : c ∈ gu.channels) (hrouted : (gu.peers.find v).isSome = true → (∃ d, d ∈ gu.channels ∧ d ∈ gv.channels) →
      ∀ d, coins.channel (insert c (gu.record v)) = some d → d ∈ gv.channels) :
    Linked crypto ids u v (gu.receive crypto coins v (ids v).publicKey (.hello c)).2 gv
      (quv ++ (gu.receive crypto coins v (ids v).publicKey (.hello c)).1.flatMap
        (Outgoing.wires (fun _ => false) v)) q := by
  cases hfind : gu.peers.find v with
  | none =>
    have hmet : (gu.met c v (ids v).publicKey).record v = insert c (gu.record v) := record_met gu c _ hfind
    simp only [receive, onHello_of_none hc hfind, replies, flatMap_nil, append_nil]
    refine ⟨h.there.consumed rfl hmet.subset rfl rfl nofun, h.back.absorbed rfl (by rw [hmet]; rfl) ?_,
      h.seen_absorbed rfl (by rw [hmet]; rfl)⟩
    intro hheld
    obtain ⟨peer, -, hsome, -⟩ : gu.Holds v gv.key gv.counter := hheld
    rw [hfind] at hsome
    cases hsome
  | some peer =>
    have hpk := hs.publicKey_eq hfind
    have hnoted := record_noted gu c hfind
    have hsound := hs.noted hc hfind
    obtain ⟨out, hout, hsame, hwires⟩ := answer_allWrappable (hsound.allWrappable hids) coins
      (fun _ => false) none v v
    simp only [receive, ← hpk, onHello_of_find hc hfind, hout, replies, hwires, if_true]
    have hfind' : (gu.noted c v peer).peers.find v = some { peer with channels := insert c peer.channels } := by
      simp [noted]
    refine sent hids hsound ?_ h.there.opens ?_ ?_ hfind' hsame ?_
    · refine h.back.absorbed rfl (by rw [hnoted]; rfl) fun hheld => ?_
      exact Holds.of_keys hheld hfind hfind' rfl
    · exact h.there.present_absorbed hnoted.subset
    · exact h.seen_absorbed rfl (by rw [hnoted]; rfl)
    · rw [hnoted]
      exact hrouted (by rw [hfind]; rfl)

lemma Linked.senderKey {generation : UInt8} {wrapped : Bytes}
    (h : Linked crypto ids u v gu gv quv (.senderKey c generation wrapped :: q)) (hs : gu.Sound crypto ids u)
    (hc : c ∈ gu.channels) (hrouted : gu.needsOurKey v = true → (∃ d, d ∈ gu.channels ∧ d ∈ gv.channels) →
      ∀ d, coins.channel (insert c (gu.record v)) = some d → d ∈ gv.channels) :
    Linked crypto ids u v (gu.receive crypto coins v (ids v).publicKey (.senderKey c generation wrapped)).2 gv
      (quv ++ (gu.receive crypto coins v (ids v).publicKey (.senderKey c generation wrapped)).1.flatMap
        (Outgoing.wires (fun _ => false) v)) q := by
  obtain ⟨secret, hopen⟩ := h.back.opens c generation wrapped mem_cons_self
  have hopen' : gu.identity.unwrap crypto (ids v).publicKey generation wrapped = .ok secret := by
    rw [hs.identity]
    exact hopen
  have hcarried : ∀ g : Group, (g.peers.find v).isSome = true →
      Wire.keeps gu.channels (Carries crypto (ids u) (ids v).publicKey gv.key) (gu.record v)
        (gu.Holds v gv.key gv.counter) (.senderKey c generation wrapped) →
      (g.addKey v (.derive crypto generation secret)).Holds v gv.key gv.counter := by
    intro g hsome hkeeps
    rw [Wire.keeps, if_pos hc] at hkeeps
    obtain ⟨secret', hsecret', hkey⟩ := hkeeps
    obtain rfl : secret = secret' := Except.ok.inj (hopen.symm.trans hsecret')
    obtain ⟨peer, hfind⟩ := Option.isSome_iff_exists.mp hsome
    rw [hkey]
    exact holds_addKey hfind
  cases hfind : gu.peers.find v with
  | none =>
    have hmet : ((gu.met c v (ids v).publicKey).addKey v (.derive crypto generation secret)).record v =
        insert c (gu.record v) := by
      rw [record_addKey, record_met gu c _ hfind]
    simp only [receive, onSenderKey_of_none hc hfind hopen', replies, flatMap_nil, append_nil]
    have hrest := addKey_rest (gu.met c v (ids v).publicKey) v (.derive crypto generation secret)
    refine ⟨h.there.consumed (by rw [hrest]; rfl) hmet.subset (by rw [hrest]; rfl) (by rw [hrest]; rfl) ?_,
      h.back.absorbed (by rw [hrest]; rfl) (by rw [hmet]; rfl) (hcarried _ (by simp [met])),
      h.seen_absorbed (by rw [hrest]; rfl) (by rw [hmet]; rfl)⟩
    intro hp
    rw [hrest] at hp
    cases hp
  | some peer =>
    have hpk := hs.publicKey_eq hfind
    have hnoted : ((gu.noted c v peer).addKey v (.derive crypto generation secret)).record v =
        insert c (gu.record v) := by
      rw [record_addKey, record_noted gu c hfind]
    have hrest := addKey_rest (gu.noted c v peer) v (.derive crypto generation secret)
    have hchannels : ((gu.noted c v peer).addKey v (.derive crypto generation secret)).channels = gu.channels := by
      rw [hrest]
      rfl
    have hback := h.back.absorbed hchannels (by rw [hnoted]; rfl) (hcarried (gu.noted c v peer) (by simp [noted]))
    have hseen := h.seen_absorbed hchannels (by rw [hnoted]; rfl)
    simp only [receive, ← hpk, onSenderKey_of_find hc hfind (hpk ▸ hopen')]
    by_cases hnone : peer.sentGeneration.isNone = true
    · have hsound := (hs.noted hc hfind).addKey v (.derive crypto generation secret)
      obtain ⟨out, hout, hsame, hwires⟩ := answer_allWrappable (hsound.allWrappable hids) coins
        (fun _ => false) none v v
      obtain ⟨peer', hfind'⟩ := find_of_record_nonempty (u := v) (by rw [hnoted]; exact insert_nonempty _ _)
      simp only [hnone, if_true, hout, replies, hwires]
      refine sent hids hsound hback h.there.opens (h.there.present_absorbed hnoted.subset) hseen hfind' hsame ?_
      rw [hnoted, hchannels]
      exact hrouted (by simpa [needsOurKey, hfind] using hnone)
    · simp only [hnone, Bool.false_eq_true, if_false, replies, flatMap_nil, append_nil]
      refine ⟨h.there.consumed hchannels hnoted.subset (by rw [hrest]; rfl) (by rw [hrest]; rfl)
        fun hp => ⟨?_, fun _ => ?_, fun _ _ h => by cases h⟩, hback, hseen⟩
      · rw [hrest] at hp
        exact hp
      · rw [inter_eq_left.mpr (hs.shared.record_subset v), record_of_find hfind]
        exact (hs.shared v peer hfind).1

lemma Linked.received (h : Linked crypto ids u v gu gv quv (m :: q)) (hs : gu.Sound crypto ids u)
    (hrouted : gu.answers v m = true → (∃ d, d ∈ gu.channels ∧ d ∈ gv.channels) →
      ∀ d, coins.channel (m.onto (gu.record v)) = some d → d ∈ gv.channels) :
    Linked crypto ids u v (gu.receive crypto coins v (ids v).publicKey m).2 gv
      (quv ++ (gu.receive crypto coins v (ids v).publicKey m).1.flatMap (Outgoing.wires (fun _ => false) v)) q := by
  cases m with
  | hello c =>
    by_cases hc : c ∈ gu.channels
    · exact h.hello hids hs hc fun hsome => hrouted (by simp [answers, hc, hsome])
    · simpa [receive, onHello, hc, replies] using h.ignored rfl hc
  | senderKey c =>
    by_cases hc : c ∈ gu.channels
    · exact h.senderKey hids hs hc fun hneeds => hrouted (by simp [answers, hc, hneeds])
    · simpa [receive, onSenderKey, hc, replies] using h.ignored rfl hc
  | left => simpa [receive] using h.peerLeft

end received

section bystanders

variable {g : Group} {peer : Peer} {w : UserId}

lemma Group.SameFor.of_find {g' : Group} (hchannels : g'.channels = g.channels) (hkey : g'.key = g.key)
    (hcounter : g'.counter = g.counter) (hpending : g'.rotationPending = false → g.rotationPending = false)
    (hfind : g'.peers.find w = g.peers.find w) : g.SameFor w g' :=
  ⟨hchannels, hkey, hcounter, hpending, by simp only [Group.record, hfind], fun _ _ hh => hh.of_find hfind⟩

lemma Group.SameFor.trans {g₁ g₂ g₃ : Group} (h : g₁.SameFor w g₂) (h' : g₂.SameFor w g₃) : g₁.SameFor w g₃ where
  channels := h'.channels.trans h.channels
  key := h'.key.trans h.key
  counter := h'.counter.trans h.counter
  pending hp := h.pending (h'.pending hp)
  record := h'.record.trans h.record
  holds key counter hh := h'.holds key counter (h.holds key counter hh)

lemma Group.noted_sameFor (hw : w ≠ v) : g.SameFor w (g.noted c v peer) :=
  .of_find rfl rfl rfl id (by simp [noted, hw])

lemma Group.met_sameFor (hw : w ≠ v) (pk : PublicKey) : g.SameFor w (g.met c v pk) :=
  .of_find rfl rfl rfl nofun (by simp [met, hw])

lemma Group.addKey_sameFor (hw : w ≠ v) (key : SenderKey) : g.SameFor w (g.addKey v key) := by
  have hrest := addKey_rest g v key
  refine .of_find (by rw [hrest]) (by rw [hrest]) (by rw [hrest]) (fun hp => by rwa [hrest] at hp) ?_
  unfold addKey
  cases g.peers.find v <;> simp [hw]

lemma Group.peerLeft_sameFor (hw : w ≠ v) : g.SameFor w (g.peerLeft c v) := by
  have hkey := peerLeft_keepsKey g c v
  exact .of_find channels_peerLeft hkey.key counter_peerLeft hkey.settled (find_peerLeft_of_ne hw)

variable (hids : Agreeing crypto ids) (hs : g.Sound crypto ids u) (coins : Coins)
include hids hs

lemma Group.answer_bystander (v : UserId) (change : Option PeerChange) :
    (g.answer crypto coins v change).2.Sound crypto ids u ∧ ∀ w, w ≠ v →
      g.SameFor w (g.answer crypto coins v change).2 ∧
      (replies (g.answer crypto coins v change).1).flatMap (Outgoing.wires (fun _ => false) w) = [] := by
  have hanswer := answer_allWrappable (hs.allWrappable hids) coins (fun _ => false) change v
  obtain ⟨_, -, hsame, -⟩ := hanswer v
  refine ⟨hs.of_same hsame, fun w hw => ⟨hsame.sameFor, ?_⟩⟩
  obtain ⟨out, hout, -, hwires⟩ := hanswer w
  rw [hout, replies, hwires, if_neg hw]

lemma Group.receive_bystander {m : Wire} (hopens : ∀ c generation wrapped, m = .senderKey c generation wrapped →
      ∃ secret, (ids u).unwrap crypto (ids v).publicKey generation wrapped = .ok secret) :
    (g.receive crypto coins v (ids v).publicKey m).2.Sound crypto ids u ∧ ∀ w, w ≠ v →
      g.SameFor w (g.receive crypto coins v (ids v).publicKey m).2 ∧
      (g.receive crypto coins v (ids v).publicKey m).1.flatMap (Outgoing.wires (fun _ => false) w) = [] := by
  have hsame : ∀ w, g.SameFor w g := fun w => .of_find rfl rfl rfl id rfl
  cases m with
  | left c => exact ⟨hs.peerLeft c v, fun w hw => ⟨peerLeft_sameFor hw, rfl⟩⟩
  | hello c =>
    by_cases hc : c ∈ g.channels
    · cases hfind : g.peers.find v with
      | none =>
        simp only [receive, onHello_of_none hc hfind]
        exact ⟨hs.met hc v, fun w hw => ⟨met_sameFor hw _, rfl⟩⟩
      | some peer =>
        have hpk := hs.publicKey_eq hfind
        simp only [receive, ← hpk, onHello_of_find hc hfind]
        obtain ⟨hsound, hrest⟩ := answer_bystander hids (hs.noted hc hfind) coins v none
        exact ⟨hsound, fun w hw => ⟨(noted_sameFor hw).trans (hrest w hw).1, (hrest w hw).2⟩⟩
    · simp only [receive, onHello, hc, not_false_eq_true, if_true]
      exact ⟨hs, fun w _ => ⟨hsame w, rfl⟩⟩
  | senderKey c generation wrapped =>
    by_cases hc : c ∈ g.channels
    · obtain ⟨secret, hopen⟩ := hopens c generation wrapped rfl
      rw [← hs.identity] at hopen
      cases hfind : g.peers.find v with
      | none =>
        simp only [receive, onSenderKey_of_none hc hfind hopen]
        exact ⟨(hs.met hc v).addKey v _, fun w hw =>
          ⟨(met_sameFor hw _).trans (addKey_sameFor hw _), rfl⟩⟩
      | some peer =>
        have hpk := hs.publicKey_eq hfind
        have hsound := (hs.noted hc hfind).addKey v (.derive crypto generation secret)
        have hadded : ∀ w, w ≠ v →
            g.SameFor w ((g.noted c v peer).addKey v (.derive crypto generation secret)) :=
          fun w hw => (noted_sameFor hw).trans (addKey_sameFor hw _)
        simp only [receive, ← hpk, onSenderKey_of_find hc hfind (hpk ▸ hopen)]
        split_ifs
        · obtain ⟨hsound', hrest⟩ := answer_bystander hids hsound coins v none
          exact ⟨hsound', fun w hw => ⟨(hadded w hw).trans (hrest w hw).1, (hrest w hw).2⟩⟩
        · exact ⟨hsound, fun w hw => ⟨hadded w hw, rfl⟩⟩
    · simp only [receive, onSenderKey, hc, not_false_eq_true, if_true]
      exact ⟨hs, fun w _ => ⟨hsame w, rfl⟩⟩

end bystanders

section frames

lemma UInt32.lt_succ_of_lt {n k : UInt32} (hn : n < rotateAtCounter) (hk : k < n) : k < n + 1 := by
  have hn' := UInt32.lt_iff_toNat_lt.mp hn
  have hk' := UInt32.lt_iff_toNat_lt.mp hk
  have hmax : rotateAtCounter.toNat = 2147483648 := rfl
  rw [UInt32.lt_iff_toNat_lt, UInt32.toNat_add]
  simp only [UInt32.toNat_one]
  omega

lemma Linked.encrypt (h : Linked crypto ids u v gu gv quv qvu) (hs : gu.Sound crypto ids u) (plain : Bytes) :
    Linked crypto ids u v (gu.encrypt crypto plain).2 gv quv qvu := by
  refine ⟨⟨h.there.opens, h.there.present, fun hlasts hp => ?_⟩, ⟨h.back.opens, h.back.present, h.back.keyed⟩, h.seen⟩
  have hpend : gu.rotationPending = false := by
    simp only [Group.encrypt, Bool.or_eq_false_iff] at hp
    exact hp.1
  refine (h.there.keyed hlasts hpend).imp_left (Keyed.imp_held ?_)
  rintro ⟨peer, replay, hfind, hkey, hnew⟩
  exact ⟨peer, replay, hfind, hkey, fun n hn => UInt32.lt_succ_of_lt (hs.early hpend) (hnew n hn)⟩

lemma Group.Holds.decrypt {g sender : Group} (h : g.Holds v sender.key sender.counter) {frame : Bytes}
    (hahead : sender.isAhead frame = false) : (g.decrypt crypto v frame).2.Holds v sender.key sender.counter := by
  obtain ⟨peer, replay, hfind, hkey, hnew⟩ := h
  have hafter : (g.decrypt crypto v frame).2.peers.find v =
      some { peer with keys := (peer.keys.openFrame crypto frame).2 } := by
    simp [find_decrypt, hfind]
  obtain ⟨next, hnext, hcase⟩ := PeerKeys.find_openFrame crypto frame hkey
  refine ⟨_, next, hafter, hnext, ?_⟩
  obtain rfl | ⟨counter, hpeek, rfl⟩ := hcase
  · exact hnew
  · have hold : counter < sender.counter := by
      simpa [isAhead, hpeek] using hahead
    exact ReplayState.highest_accept_lt hold hnew

lemma Linked.decrypt (h : Linked crypto ids u v gu gv quv qvu) {frame : Bytes}
    (hahead : gv.isAhead frame = false) : Linked crypto ids u v (gu.decrypt crypto v frame).2 gv quv qvu := by
  have hrecord : (gu.decrypt crypto v frame).2.record v = gu.record v := by
    cases hfind : gu.peers.find v with
    | none => rw [record_of_none hfind, record_of_none (by simp [find_decrypt, hfind])]
    | some peer =>
      have hafter : (gu.decrypt crypto v frame).2.peers.find v =
          some { peer with keys := (peer.keys.openFrame crypto frame).2 } := by
        simp [find_decrypt, hfind]
      rw [record_of_find hfind, record_of_find hafter]
  have hrest := decrypt_rest (g := gu) (u := v) crypto frame
  refine ⟨⟨h.there.opens, ?_, ?_⟩, ⟨h.back.opens, ?_, ?_⟩, ?_⟩
  · rw [hrecord]
    exact h.there.present
  · rw [hrecord, hrest]
    exact h.there.keyed
  · rw [hrest]
    exact h.back.present
  · intro hlasts hp
    rw [hrecord]
    refine (h.back.keyed hlasts hp).imp ?_ ?_
    · intro hkeyed
      have hchannels : (gu.decrypt crypto v frame).2.channels = gu.channels := by rw [hrest]
      rw [hchannels]
      exact hkeyed.imp_held fun hheld => hheld.decrypt hahead
    · exact id
  · rw [hrecord, hrest]
    exact h.seen

end frames

end AurixVoice.E2ee
