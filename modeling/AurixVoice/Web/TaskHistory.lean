import AurixVoice.Web.GroupTasks

/-! Runs of the browser's group with the times of messages, departures and keys given. -/

namespace AurixVoice.Web

open E2ee

inductive GroupEvent
  | receive (c : ChannelId) (u : UserId) (body : Body)
  | requestRotate (force : Bool)
  | start (coins : Coins)
  | resume (coins : Coins)
  | joined (c : ChannelId)
  | rejoined (coins : Coins) (c : ChannelId) (members : Finset UserId)
  | left (coins : Coins) (c : ChannelId)
  | peerLeft (c : ChannelId) (u : UserId)
  | reset (coins : Coins)

structure Processed where
  message : Inbound
  time : ℕ

structure Given where
  user : UserId
  time : ℕ
  departed : ChannelId → ℕ

structure TaskHistory where
  group : E2eeGroup
  queue : List Task
  running : Option Running
  sent : List Outgoing
  now : ℕ
  received : List Inbound
  processed : List Processed
  departed : UserId → ChannelId → ℕ
  given : List Given

namespace TaskHistory

def init (identity : IdentityKey) (secret : Secret) : TaskHistory where
  group := .create identity secret
  queue := []
  running := none
  sent := []
  now := 1
  received := []
  processed := []
  departed _ _ := 0
  given := []

def Departs (h : TaskHistory) (u : UserId) (c : ChannelId) : GroupEvent → Prop
  | .peerLeft c' u' => c = c' ∧ u = u'
  | .rejoined _ c' members => c = c' ∧ c ∈ h.group.channelSet ∧ u ∉ members
  | .left _ c' => c = c'
  | .reset _ => True
  | _ => False

instance (h : TaskHistory) (u : UserId) (c : ChannelId) : DecidablePred (h.Departs u c)
  | .peerLeft c' u' => inferInstanceAs (Decidable (c = c' ∧ u = u'))
  | .rejoined _ c' members => inferInstanceAs (Decidable (c = c' ∧ c ∈ h.group.channelSet ∧ u ∉ members))
  | .left _ c' => inferInstanceAs (Decidable (c = c'))
  | .reset _ => inferInstanceAs (Decidable True)
  | .receive .. | .requestRotate _ | .start _ | .resume _ | .joined _ => inferInstanceAs (Decidable False)

def advanceInbound (h : TaskHistory) (m : Inbound) : E2eeGroup.Progress InboundAwait → TaskHistory
  | (g, .inl pc) => { h with group := g, running := some (.inbound m pc) }
  | (g, .inr out) =>
    { h with group := g, running := none, sent := h.sent ++ out, processed := ⟨m, h.now⟩ :: h.processed }

def wrapsFor : RotateAwait → Option UserId
  | .wrap w _ _ => some w.user
  | _ => none

def advanceRotate (h : TaskHistory) : E2eeGroup.Progress RotateAwait → TaskHistory
  | (g, .inl pc) =>
    { h with
      group := g, running := some (.rotate pc)
      given := ((wrapsFor pc).map fun u => ⟨u, h.now, h.departed u⟩).toList ++ h.given }
  | (g, .inr out) => { h with group := g, running := none, sent := h.sent ++ out }

variable (crypto : Crypto)

def act (h : TaskHistory) : GroupEvent → TaskHistory
  | .receive c u body =>
    if c ∉ h.group.channelSet then h
    else { h with
      queue := h.queue ++ [.inbound ⟨c, u, body, h.now⟩], received := ⟨c, u, body, h.now⟩ :: h.received }
  | .requestRotate force => { h with queue := h.queue ++ [.rotate force] }
  | .start coins =>
    match h.running, h.queue with
    | none, .inbound m :: queue => ({ h with queue := queue } : TaskHistory).advanceInbound m (h.group.startInbound m)
    | none, .rotate force :: queue =>
      ({ h with queue := queue } : TaskHistory).advanceRotate (h.group.startRotate coins force)
    | _, _ => h
  | .resume coins =>
    match h.running with
    | none => h
    | some (.inbound m pc) => h.advanceInbound m (h.group.resumeInbound m crypto coins pc)
    | some (.rotate pc) => h.advanceRotate (h.group.resumeRotate crypto coins pc)
  | .joined c => { h with group := (h.group.joined c).2, sent := h.sent ++ (h.group.joined c).1 }
  | .rejoined coins c members =>
    { h with
      group := (h.group.rejoined coins c members).2, sent := h.sent ++ (h.group.rejoined coins c members).1.1 }
  | .left coins c => { h with group := (h.group.left coins c).2 }
  | .peerLeft c u => if c ∉ h.group.channelSet then h else { h with group := (h.group.peerLeft c u).2 }
  | .reset coins => { h with group := (h.group.reset coins).2 }

def step (h : TaskHistory) (e : GroupEvent) : TaskHistory :=
  { h.act crypto e with
    now := h.now + 1
    departed := fun u c => if h.Departs u c e then h.now else h.departed u c }

def Enters (h : TaskHistory) (m : Inbound) : GroupEvent → Prop
  | .start _ => h.running = none ∧ (∃ queue, h.queue = .inbound m :: queue) ∧ h.group.EntersAtStart m
  | .resume _ => ∃ pc, h.running = some (.inbound m pc) ∧ h.group.EntersAt m crypto pc
  | _ => False

/-- The sender of a message is entered only if no departure of theirs from its channel was processed
since the message was received. -/
def Timely (h : TaskHistory) (e : GroupEvent) : Prop :=
  ∀ m, h.Enters crypto m e → h.departed m.user m.channel < m.receivedAt

/-- All messages of `u` so far were received before the user's last departure from their channels. -/
def Departed (h : TaskHistory) (u : UserId) : Prop :=
  ∀ m ∈ h.received, m.user = u → m.receivedAt ≤ h.departed u m.channel

instance (h : TaskHistory) (u : UserId) : Decidable (h.Departed u) :=
  inferInstanceAs (Decidable (∀ m ∈ h.received, m.user = u → m.receivedAt ≤ h.departed u m.channel))

end TaskHistory

end AurixVoice.Web
