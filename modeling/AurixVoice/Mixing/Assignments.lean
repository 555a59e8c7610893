import AurixVoice.Mixing.MixHub

namespace AurixVoice.Mixing

open Media (Mix LiveChannel Sessions)

variable {P D : Type}

namespace MixHub

def subscribed (h : MixHub D) (slot : Slot) (session : SessionId) : Bool :=
  (h.nodes.find slot).any fun n => decide (session ∈ n.subscribers)

variable {h hub : MixHub D} {slot other : Slot} {session joined : SessionId} {channel : ChannelId}

lemma mem_keys_of_subscribed (h : hub.subscribed slot session = true) : slot ∈ hub.nodes.keys := by
  obtain ⟨n, hn, -⟩ := (Option.any_eq_true _ _).mp h
  exact Dict.mem_keys_iff.mpr ⟨n, hn⟩

lemma subscribed_subscribe_self (hslot : slot ∈ h.nodes.keys) :
    (h.subscribe slot session).subscribed slot session = true := by
  obtain ⟨n, hn⟩ := Dict.mem_keys_iff.mp hslot
  simp [subscribed, subscribe, hn]

lemma subscribed_of_ne (hne : (other, session) ≠ (slot, joined)) :
    (h.subscribe slot joined).subscribed other session = h.subscribed other session ∧
      (h.unsubscribe slot joined).subscribed other session = h.subscribed other session := by
  by_cases hs : other = slot
  · subst hs
    have hsession : session ≠ joined := fun he => hne (he ▸ rfl)
    cases hfind : h.nodes.find other <;> simp [subscribed, subscribe, unsubscribe, hfind, hsession]
  · simp [subscribed, subscribe, unsubscribe, hs]

lemma subscribed_unsubscribe_self : (h.unsubscribe slot session).subscribed slot session = false := by
  cases hfind : h.nodes.find slot <;> simp [subscribed, unsubscribe, hfind]

lemma keys_assign (h : MixHub D) (session : SessionId) (channel : ChannelId) (slot : Slot) :
    (h.assign session channel slot).nodes.keys = h.nodes.keys := by
  unfold assign
  dsimp only
  split <;> rfl

lemma find_assign (h : MixHub D) (session : SessionId) (channel : ChannelId) (slot : Slot)
    (key : SessionId × ChannelId) :
    (h.assign session channel slot).assignments.find key =
      if key = (session, channel) then some slot else h.assignments.find key := by
  unfold assign
  dsimp only
  split <;> rfl

lemma subscribed_assign_self (hslot : slot ∈ h.nodes.keys) :
    (h.assign session channel slot).subscribed slot session = true := by
  unfold assign
  dsimp only
  split <;> exact subscribed_subscribe_self hslot

lemma subscribed_assign_of_ne (hne : session ≠ joined) :
    (h.assign joined channel slot).subscribed other session = h.subscribed other session := by
  have hpair : ∀ s : Slot, (other, session) ≠ (s, joined) := fun s he => hne (congrArg Prod.snd he)
  unfold assign
  dsimp only
  split
  · rw [(subscribed_of_ne (hpair _)).1, (subscribed_of_ne (hpair _)).2]
    rfl
  · rw [(subscribed_of_ne (hpair _)).1]
    rfl

lemma subscribed_of_assign (hsub : (h.assign joined channel slot).subscribed other session = true) :
    h.subscribed other session = true ∨ session = joined ∧ other = slot := by
  by_cases hpair : (other, session) = (slot, joined)
  · obtain ⟨rfl, rfl⟩ := Prod.mk.inj hpair
    exact .inr ⟨rfl, rfl⟩
  · left
    unfold assign at hsub
    rw [(subscribed_of_ne hpair).1] at hsub
    split at hsub
    next previous _ =>
      by_cases hprevious : (other, session) = (previous, joined)
      · obtain ⟨rfl, rfl⟩ := Prod.mk.inj hprevious
        rw [subscribed_unsubscribe_self] at hsub
        cases hsub
      · rwa [(subscribed_of_ne hprevious).2] at hsub
    · exact hsub

lemma subscribed_feed (f : Feed) (mix : Mix ℚ D) :
    (h.feed f slot mix).subscribed other session = h.subscribed other session := by
  by_cases hs : other = slot
  · subst hs
    cases hfind : h.nodes.find other <;> simp [subscribed, feed, hfind]
  · simp [subscribed, feed, hs]

lemma node_spec {opens : Slot → Bool} (hnode : h.node opens slot = some hub) :
    slot ∈ hub.nodes.keys ∧ h.nodes.keys ⊆ hub.nodes.keys ∧ hub.assignments = h.assignments ∧
      ∀ other session, hub.subscribed other session = h.subscribed other session := by
  unfold node at hnode
  split_ifs at hnode with hin hfull hopens
  · obtain rfl := Option.some.inj hnode
    exact ⟨hin, subset_rfl, rfl, fun _ _ => rfl⟩
  · obtain rfl := Option.some.inj hnode
    refine ⟨Finset.mem_insert_self _ _, Finset.subset_insert _ _, rfl, ?_⟩
    intro other session
    by_cases hs : other = slot
    · subst hs
      have hnone : h.nodes.find other = none := by
        rw [← Option.not_isSome_iff_eq_none, ← h.nodes.mem_keys]
        exact hin
      simp [subscribed, hnone]
    · simp [subscribed, hs]

lemma node_of_mem {opens : Slot → Bool} (hslot : slot ∈ h.nodes.keys) : h.node opens slot = some h :=
  if_pos hslot

lemma slotFor_eq_or (h : MixHub D) (c : LiveChannel P) (sessions : Sessions) (sharedOk : Bool)
    (r : SessionId × Mix ℚ D) :
    h.slotFor c sessions sharedOk r = .shared c.channelId ∨
      h.slotFor c sessions sharedOk r = .privateTo r.1 c.channelId := by
  unfold slotFor
  dsimp only
  split
  · exact .inl rfl
  · exact .inr rfl

lemma slotFor_congr {c : LiveChannel P} {sessions : Sessions} {sharedOk : Bool} {r : SessionId × Mix ℚ D}
    (hfind : hub.assignments.find (r.1, c.channelId) = h.assignments.find (r.1, c.channelId)) :
    hub.slotFor c sessions sharedOk r = h.slotFor c sessions sharedOk r := by
  unfold slotFor
  rw [hfind]

end MixHub

namespace Pushing

open MixHub (Feed)

variable {c : LiveChannel P} {sessions : Sessions} {sharedOk : Bool} {f : Feed} {st : Pushing D}
  {r : SessionId × Mix ℚ D} {rs : List (SessionId × Mix ℚ D)} {slot : Slot} {session : SessionId}

lemma serve_hub (st : Pushing D) (slot : Slot) (mix : Mix ℚ D) :
    (st.serve f slot mix).hub.assignments = st.hub.assignments ∧
      (st.serve f slot mix).hub.nodes.keys = st.hub.nodes.keys ∧
      ∀ other session, (st.serve f slot mix).hub.subscribed other session = st.hub.subscribed other session := by
  unfold serve
  split
  · split
    · exact ⟨rfl, rfl, fun _ _ => rfl⟩
    · exact ⟨rfl, rfl, fun _ _ => MixHub.subscribed_feed _ _⟩
  · exact ⟨rfl, rfl, fun _ _ => MixHub.subscribed_feed _ _⟩

lemma turn_eq {hub : MixHub D} (hnode : st.hub.node f.opens (st.hub.slotFor c sessions sharedOk r) = some hub) :
    st.turn c sessions sharedOk f r =
      { st with hub := hub.assign r.1 c.channelId (st.hub.slotFor c sessions sharedOk r) }.serve f
        (st.hub.slotFor c sessions sharedOk r) r.2 := by
  rw [turn, hnode]

lemma turn_eq_of_none (hnode : st.hub.node f.opens (st.hub.slotFor c sessions sharedOk r) = none) :
    st.turn c sessions sharedOk f r = { st with leftovers := st.leftovers ++ [r] } := by
  rw [turn, hnode]

lemma turn_of_node {hub : MixHub D} (hnode : st.hub.node f.opens (st.hub.slotFor c sessions sharedOk r) = some hub) :
    (st.turn c sessions sharedOk f r).hub.assignments =
        (hub.assign r.1 c.channelId (st.hub.slotFor c sessions sharedOk r)).assignments ∧
      (st.turn c sessions sharedOk f r).hub.nodes.keys = hub.nodes.keys ∧
      ∀ slot session, (st.turn c sessions sharedOk f r).hub.subscribed slot session =
        (hub.assign r.1 c.channelId (st.hub.slotFor c sessions sharedOk r)).subscribed slot session := by
  rw [turn_eq hnode]
  obtain ⟨hassign, hkeys, hsubscribed⟩ := serve_hub (f := f)
    { st with hub := hub.assign r.1 c.channelId (st.hub.slotFor c sessions sharedOk r) }
    (st.hub.slotFor c sessions sharedOk r) r.2
  exact ⟨hassign, hkeys.trans (MixHub.keys_assign ..), hsubscribed⟩

lemma turn_other (hne : session ≠ r.1) :
    (∀ channel, (st.turn c sessions sharedOk f r).hub.assignments.find (session, channel) =
        st.hub.assignments.find (session, channel)) ∧
      ∀ slot, (st.turn c sessions sharedOk f r).hub.subscribed slot session =
        st.hub.subscribed slot session := by
  cases hnode : st.hub.node f.opens (st.hub.slotFor c sessions sharedOk r) with
  | none =>
    rw [turn_eq_of_none hnode]
    exact ⟨fun _ => rfl, fun _ => rfl⟩
  | some =>
    obtain ⟨-, -, hassigned, hsubscribed⟩ := MixHub.node_spec hnode
    obtain ⟨hassign, -, hturn⟩ := turn_of_node hnode
    refine ⟨fun channel => ?_, fun slot => ?_⟩
    · have hkey : (session, channel) ≠ (r.1, c.channelId) := fun he => hne (congrArg Prod.fst he)
      rw [hassign, MixHub.find_assign, if_neg hkey, hassigned]
    · rw [hturn, MixHub.subscribed_assign_of_ne hne, hsubscribed]

lemma turns_other (h : session ∉ rs.map Prod.fst) :
    (∀ channel, (rs.foldl (turn c sessions sharedOk f) st).hub.assignments.find (session, channel) =
        st.hub.assignments.find (session, channel)) ∧
      ∀ slot, (rs.foldl (turn c sessions sharedOk f) st).hub.subscribed slot session =
        st.hub.subscribed slot session := by
  induction rs generalizing st with
  | nil => exact ⟨fun _ => rfl, fun _ => rfl⟩
  | cons r rs ih =>
    rw [List.map_cons, List.mem_cons, not_or] at h
    obtain ⟨hassign, hsubscribed⟩ := ih h.2
    exact ⟨fun channel => (hassign channel).trans ((turn_other h.1).1 channel),
      fun slot => (hsubscribed slot).trans ((turn_other h.1).2 slot)⟩

lemma turn_self (hslot : st.hub.slotFor c sessions sharedOk r ∈ st.hub.nodes.keys) :
    (st.turn c sessions sharedOk f r).hub.assignments.find (r.1, c.channelId) =
        some (st.hub.slotFor c sessions sharedOk r) ∧
      (st.turn c sessions sharedOk f r).hub.subscribed (st.hub.slotFor c sessions sharedOk r) r.1 = true := by
  obtain ⟨hassign, -, hturn⟩ := turn_of_node (f := f) (MixHub.node_of_mem hslot)
  rw [hassign, hturn, MixHub.find_assign, if_pos rfl]
  exact ⟨rfl, MixHub.subscribed_assign_self hslot⟩

lemma keys_turn (st : Pushing D) (r : SessionId × Mix ℚ D) :
    st.hub.nodes.keys ⊆ (st.turn c sessions sharedOk f r).hub.nodes.keys := by
  cases hnode : st.hub.node f.opens (st.hub.slotFor c sessions sharedOk r) with
  | none => rw [turn_eq_of_none hnode]
  | some => exact (turn_of_node hnode).2.1 ▸ (MixHub.node_spec hnode).2.1

end Pushing

end AurixVoice.Mixing
