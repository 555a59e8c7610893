import AurixVoice.Library.Dict
import AurixVoice.Types

namespace AurixVoice.Cascade

abbrev MediaNodeId := Uuid

inductive LinkCost
  | unknown
  | unconfirmed
  | confirmed (rttMs : UInt32) (tcp : Bool)
  deriving DecidableEq

def unknownLinkMs : UInt32 := 150
def tcpPenaltyMs : UInt32 := 100
def unconfirmedLinkMs : UInt32 := 10000
def rankBucketMs : UInt32 := 25
def relayGainMs : UInt32 := 30

def saturatingAdd (a b : UInt32) : UInt32 := if a + b < a then UInt32.ofNat (2 ^ 32 - 1) else a + b

def saturatingSub (a b : UInt32) : UInt32 := if a < b then 0 else a - b

namespace LinkCost

def ms : LinkCost → UInt32
  | unknown => unknownLinkMs
  | unconfirmed => unconfirmedLinkMs
  | confirmed rttMs tcp => saturatingAdd rttMs (if tcp then tcpPenaltyMs else 0)

def isUnconfirmed (c : LinkCost) : Bool := c = unconfirmed

end LinkCost

structure LinkMatrix where
  links : Dict (MediaNodeId × MediaNodeId) (UInt32 × Bool)
  reporters : Finset MediaNodeId

namespace LinkMatrix

def new : LinkMatrix := ⟨.empty, ∅⟩

def cost (m : LinkMatrix) (a b : MediaNodeId) : LinkCost :=
  if a = b then .confirmed 0 false
  else match m.links.find (a, b), m.links.find (b, a) with
    | none, none => if a ∈ m.reporters ∧ b ∈ m.reporters then .unconfirmed else .unknown
    | some l, none => .confirmed l.1 l.2
    | none, some l => .confirmed l.1 l.2
    | some x, some y =>
      let cx := LinkCost.confirmed x.1 x.2
      let cy := LinkCost.confirmed y.1 y.2
      if cy.ms ≤ cx.ms then cx else cy

end LinkMatrix

end AurixVoice.Cascade
