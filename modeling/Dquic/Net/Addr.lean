import Dquic.Frame.Wire

/-!
# Addresses of endpoints

`EndpointAddr` of `qbase/src/net/addr.rs`: an endpoint is reached directly or through an agent.
-/

namespace Dquic

/-- `Kind`. -/
inductive EndpointKind
  | direct
  | mediate
  deriving DecidableEq, Repr

/-- An address, or the agent in front of the outer address of an endpoint. -/
inductive EndpointAddr
  | direct (addr : SocketAddr)
  | mediate (agent outer : SocketAddr)
  deriving DecidableEq, Repr

namespace EndpointAddr

def kind : EndpointAddr → EndpointKind
  | direct _ => .direct
  | mediate _ _ => .mediate

/-- `addr`: the outer address. -/
def addr : EndpointAddr → SocketAddr
  | direct addr => addr
  | mediate _ outer => outer

end EndpointAddr

end Dquic
