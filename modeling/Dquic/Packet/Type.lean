import Dquic.Basic

/-!
# Packet types

`Type` of `qbase/src/packet/type.rs`: long packets of version 1, version negotiation, and 1-RTT
packets with their spin bit.
-/

namespace Dquic

inductive V1Type
  | initial
  | zeroRtt
  | handshake
  | retry
  deriving DecidableEq, Repr

inductive LongType
  | versionNegotiation
  | v1 (ty : V1Type)
  deriving DecidableEq, Repr

inductive PacketType
  | long (ty : LongType)
  | short (spin : Bool)
  deriving DecidableEq, Repr

end Dquic
