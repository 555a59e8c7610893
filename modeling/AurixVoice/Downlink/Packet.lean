import AurixVoice.E2ee.Primitives
import AurixVoice.Library.Dict

namespace AurixVoice.Downlink

open E2ee

inductive AudioCodec
  | opus
  | pcmu
  | pcma
  deriving DecidableEq

structure IncomingAudio where
  senderSsrc : UInt32
  sequence : UInt32
  channelHash : UInt32
  codec : AudioCodec
  mixed : Bool
  e2ee : Bool
  payload : Bytes
  deriving DecidableEq

def synthSsrcFlag : UInt32 := 0x80000000

def sourceSsrc (ssrc : UInt32) : UInt32 := ssrc &&& ~~~synthSsrcFlag

def ssrcHolders (rosters : List (Dict UserId UInt32)) (ssrc : UInt32) : Finset UserId :=
  (rosters.flatMap fun roster => (roster.entries.filter fun p => p.2 = ssrc).map Prod.fst).toFinset

lemma mem_ssrcHolders {rosters : List (Dict UserId UInt32)} {ssrc : UInt32} {u : UserId}
    (h : u ∈ ssrcHolders rosters ssrc) : ∃ roster ∈ rosters, roster.find u = some ssrc := by
  simp only [ssrcHolders, List.mem_toFinset, List.mem_flatMap, List.mem_map, List.mem_filter, decide_eq_true_eq] at h
  obtain ⟨roster, hroster, ⟨v, s⟩, ⟨hp, rfl⟩, rfl⟩ := h
  exact ⟨roster, hroster, Dict.mem_entries.mp hp⟩

structure WireFrame where
  ssrc : UInt32
  sequence : UInt32
  codec : AudioCodec
  stereo : Bool
  payload : Bytes
  deriving DecidableEq

def IncomingAudio.wireFrame (audio : IncomingAudio) (stereo : Bool) (payload : Bytes) : WireFrame :=
  ⟨audio.senderSsrc, audio.sequence, audio.codec, stereo, payload⟩

structure Playback (Client : Type) where
  client : Client
  received : Bytes
  played : Bytes

end AurixVoice.Downlink
