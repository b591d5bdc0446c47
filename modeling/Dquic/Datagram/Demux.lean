import Dquic.Datagram.Stun
import Dquic.Packet.Header

/-!
# Datagrams

`qbase/src/datagram`: one UDP socket carries QUIC packets, STUN messages and forwarded packets.
-/

namespace Dquic

open Lib Lib.Nom

/-! ### Types -/

/-- `v0::Type`. -/
inductive V0Type
  | stun (ty : Stun.MessageType)
  | forward (family : Family) (src dst : EndpointKind)
  deriving DecidableEq, Repr

/-- `datagram::Type`. -/
inductive DatagramType
  | raw
  | v0 (ty : V0Type)
  deriving DecidableEq, Repr

/-- `be_forward_type`. -/
def beForwardType (first : Nat) : FieldParser V0Type :=
  if first &&& 0b11100000 ≠ 0b01100000 then Nom.fail .verify
  else do
    let encoded ← beUint 1
    if encoded >>> 4 ≠ 0 ∨ encoded &&& 0b1000 = 0 then Nom.fail .verify
    else pure (.forward (.ofByte (encoded &&& 0b0100)) (.ofByte (encoded &&& 0b0010)) (.ofByte (encoded &&& 0b0001)))

def beTypeOf (first : Nat) : FieldParser DatagramType :=
  if first &&& 0x40 = 0 then Nom.fail .verify
  else if first &&& 0x80 = 0 then
    if first &&& 0x20 = 0 then pure .raw
    else do
      let ty ← beForwardType first
      pure (.v0 ty)
  else do
    let quicVersion ← beUint 4
    if quicVersion ≠ 0 ∨ first &&& 0x3f = 0 then pure .raw
    else do
      let ty ← Stun.beStunType first
      pure (.v0 (.stun ty))

/-- `be_datagram_type`. Of a raw datagram nothing is consumed. -/
def beDatagramType : FieldParser DatagramType := fun original =>
  match (do let first ← beUint 1; beTypeOf first : FieldParser DatagramType) original with
  | .ok (.raw, _) => .ok (.raw, original)
  | out => out

/-- `put_v0_type`, with the byte drawn at random. -/
def putV0Type (random : UInt8) : V0Type → Bytes
  | .stun ty => ((0b11000000 : UInt8) ||| (1 : UInt8) <<< 1 ||| ty.toByte) :: (toBE 4 0 ++ (toBE 2 0 ++ toBE 2 0))
  | .forward family src dst =>
    [0b01100000 ||| (random &&& 0b00011111),
      (1 : UInt8) <<< 3 ||| family.toByte <<< 2 ||| src.toByte <<< 1 ||| dst.toByte]

def putDatagramType (random : UInt8) : DatagramType → Bytes
  | .raw => []
  | .v0 ty => putV0Type random ty

/-! ### Forwarded packets -/

inductive DatagramError
  | invalidDatagramType
  | invalidStunType
  | invalidStunMessage
  | invalidForwardDatagram
  deriving DecidableEq, Repr

def Pathway.datagramType (p : Pathway) : V0Type := .forward p.localAddr.family p.localAddr.kind p.remoteAddr.kind

/-- `forward::Payload`: a datagram and where in it the forwarded packet starts. -/
structure ForwardPayload where
  bytes : Bytes
  rawOffset : Nat
  lt : rawOffset < bytes.length
  deriving DecidableEq, Repr

namespace ForwardPayload

/-- `new`, with its assertion. -/
def new (bytes : Bytes) (rawOffset : Nat) : Option ForwardPayload :=
  if h : rawOffset < bytes.length then some ⟨bytes, rawOffset, h⟩ else none

def raw (p : ForwardPayload) : Bytes := p.bytes.drop p.rawOffset

/-- `into_raw`. -/
def intoRaw (p : ForwardPayload) : Bytes := p.raw

/-- The header is written into the headroom of a packet. Writing past a slice panics, and so does a rest of it. -/
def fromRaw (random : UInt8) (pathway : Pathway) (bytes : Bytes) (rawOffset : Nat) :
    Option (Except DatagramError ForwardPayload) :=
  let source := pathway.localAddr
  let destination := pathway.remoteAddr
  let family := source.family
  if hlt : rawOffset < bytes.length then
    if source.addr.family ≠ family ∨ destination.family ≠ family ∨ destination.addr.family ≠ family then
      some (.error .invalidForwardDatagram)
    else do
      let sourceSize ← source.encodingSize
      let destinationSize ← destination.encodingSize
      let headerLen := 2 + sourceSize + destinationSize
      if hroom : rawOffset < headerLen then some (.error .invalidForwardDatagram)
      else
        let headroom := (bytes.take rawOffset).drop (rawOffset - headerLen)
        let header := putDatagramType random (.v0 pathway.datagramType) ++ putPathway pathway
        if hfit : header.length = headroom.length then
          some (.ok ⟨header ++ bytes.drop rawOffset, headerLen, by
            rw [List.length_append, hfit]
            simp only [headroom, List.length_drop, List.length_take]
            omega⟩)
        else none
  else some (.error .invalidForwardDatagram)

end ForwardPayload

/-! ### Datagrams -/

inductive Datagram
  | stun (id : Stun.TransactionId) (message : Stun.Message)
  | forward (pathway : Pathway) (payload : ForwardPayload)
  | raw (bytes : Bytes)
  deriving DecidableEq, Repr

def beStun (ty : Stun.MessageType) (input : Bytes) : Except DatagramError Datagram :=
  match Stun.beTransactionId input with
  | .error _ => .error .invalidStunMessage
  | .ok (id, input) =>
    match Stun.beStunMessage ty input with
    | .error _ => .error .invalidStunMessage
    | .ok (message, remain) => if remain = [] then .ok (.stun id message) else .error .invalidStunMessage

def beForward (bytes : Bytes) (family : Family) (src dst : EndpointKind) (input : Bytes) :
    Option (Except DatagramError Datagram) :=
  match bePathway family src dst input with
  | .error _ => some (.error .invalidForwardDatagram)
  | .ok (pathway, raw) =>
    if raw = [] then some (.error .invalidForwardDatagram)
    else do
      let rawOffset ← checkedSub bytes.length raw.length
      let payload ← ForwardPayload.new bytes rawOffset
      some (.ok (.forward pathway payload))

def beDatagram (bytes : Bytes) : Option (Except DatagramError Datagram) :=
  match beDatagramType bytes with
  | .error _ => some (.error .invalidDatagramType)
  | .ok (.v0 (.stun ty), input) => some (beStun ty input)
  | .ok (.v0 (.forward family src dst), input) => beForward bytes family src dst input
  | .ok (.raw, _) => some (.ok (.raw bytes))

def putDatagram (random : UInt8) : Datagram → Bytes
  | .stun id message =>
    putDatagramType random (.v0 (.stun message.messageType)) ++ (id.val ++ Stun.putStunMessage message)
  | .forward pathway payload =>
    putDatagramType random (.v0 pathway.datagramType) ++ (putPathway pathway ++ payload.raw)
  | .raw bytes => bytes

/-! ### Every input is answered -/

lemma yields_beSocketAddr (family : Family) (s : Bytes) : Yields Set.univ (beSocketAddr family) s := by
  apply (yields_beUintComplete (Set.mem_univ _) 2 s).bind
  intro port r _
  cases family with
  | v4 => exact (yields_beUintComplete (Set.mem_univ _) 4 r).bind fun _ r _ => .pure _ r
  | v6 => exact (yields_beUintComplete (Set.mem_univ _) 16 r).bind fun _ r _ => .pure _ r

lemma yields_beEndpointAddr (family : Family) (kind : EndpointKind) (s : Bytes) :
    Yields Set.univ (beEndpointAddr family kind) s := by
  cases kind with
  | direct => exact (yields_beSocketAddr family s).bind fun _ r _ => .pure _ r
  | mediate =>
    exact (yields_beSocketAddr family s).bind fun _ r _ => (yields_beSocketAddr family r).bind fun _ r _ => .pure _ r

lemma yields_bePathway (family : Family) (localKind remoteKind : EndpointKind) (s : Bytes) :
    Yields Set.univ (bePathway family localKind remoteKind) s :=
  (yields_beEndpointAddr family localKind s).bind fun _ r _ =>
    (yields_beEndpointAddr family remoteKind r).bind fun _ r _ => .pure _ r

lemma yields_beForwardType (first : Nat) (s : Bytes) : Yields Set.univ (beForwardType first) s := by
  unfold beForwardType
  split
  · exact yields_fail (Set.mem_univ _) s
  · apply (yields_beUint 1 s).bind
    intro encoded r _
    split
    · exact yields_fail (Set.mem_univ _) r
    · exact .pure _ r

lemma yields_beStunType (first : Nat) (s : Bytes) : Yields Set.univ (Stun.beStunType first) s := by
  unfold Stun.beStunType
  split
  · exact yields_fail (Set.mem_univ _) s
  · split
    · exact yields_fail (Set.mem_univ _) s
    · apply (yields_beUint 2 s).bind
      intro reserved r _
      apply (yields_beUint 2 r).bind
      intro datagramVersion r' _
      split
      · exact yields_fail (Set.mem_univ _) r'
      · exact .pure _ r'

lemma yields_beTypeOf (first : Nat) (s : Bytes) : Yields Set.univ (beTypeOf first) s := by
  unfold beTypeOf
  split
  · exact yields_fail (Set.mem_univ _) s
  · split
    · split
      · exact .pure _ s
      · exact (yields_beForwardType first s).bind fun _ r _ => .pure _ r
    · apply (yields_beUint 4 s).bind
      intro quicVersion r _
      split
      · exact .pure _ r
      · exact (yields_beStunType first r).bind fun _ r _ => .pure _ r

lemma beDatagramType_append {bytes input : Bytes} {ty : DatagramType} (h : beDatagramType bytes = .ok (ty, input)) :
    ∃ used, bytes = used ++ input := by
  have hyields : Yields Set.univ (do let first ← beUint 1; beTypeOf first : FieldParser DatagramType) bytes :=
    (yields_beUint 1 bytes).bind fun first r _ => yields_beTypeOf first r
  unfold beDatagramType at h
  split at h
  · cases h
    exact ⟨[], rfl⟩
  · exact hyields.exists_append h

lemma exists_beDatagram (bytes : Bytes) : ∃ result, beDatagram bytes = some result := by
  unfold beDatagram
  cases htype : beDatagramType bytes with
  | error e => exact ⟨_, rfl⟩
  | ok out =>
    obtain ⟨ty, input⟩ := out
    obtain ⟨used, hused⟩ := beDatagramType_append htype
    cases ty with
    | raw => exact ⟨_, rfl⟩
    | v0 ty =>
      cases ty with
      | stun ty => exact ⟨_, rfl⟩
      | forward family src dst =>
        dsimp only
        unfold beForward
        cases hpath : bePathway family src dst input with
        | error e => exact ⟨_, rfl⟩
        | ok out =>
          obtain ⟨pathway, raw⟩ := out
          obtain ⟨used', hused'⟩ := (yields_bePathway family src dst input).exists_append hpath
          dsimp only
          by_cases hraw : raw = []
          · rw [if_pos hraw]
            exact ⟨_, rfl⟩
          · -- the payload is a proper end of the datagram, since it is not empty
            have hpos := List.length_pos_of_ne_nil hraw
            have hlen : bytes.length = used.length + (used'.length + raw.length) := by
              rw [hused, hused', List.length_append, List.length_append]
            rw [if_neg hraw, checkedSub_of_le (by omega), some_bind, ForwardPayload.new,
              dif_pos (by omega)]
            exact ⟨_, rfl⟩

end Dquic
