import Dquic.Packet.Header

/-!
# Reading packets from a datagram

`be_packet` of `qbase/src/packet/io.rs` and `PacketReader` of `qbase/src/packet.rs`. A datagram is
cut into the packets it holds, up to its end or the first error.
-/

namespace Dquic

open Lib Nom

structure DataPacket where
  header : DataHeader
  bytes : Bytes
  offset : Nat
  deriving DecidableEq, Repr

inductive Packet
  | vn (h : LongHeader VersionNegotiation)
  | retry (h : LongHeader Retry)
  | data (p : DataPacket)
  deriving DecidableEq, Repr

/-- `be_payload`, with the datagram that is left. -/
def bePayload (ty : PacketType) (datagram : Bytes) (remainLen : Nat) :
    Option (Except PacketError (Bytes × Nat) × Bytes) := do
  let offset ← checkedSub datagram.length remainLen
  match lengthData (datagram.drop offset) with
  | .error (.incomplete needed) => some (.error (.incompleteHeader ty needed), datagram)
  | .error _ => none
  | .ok (payload, remain) =>
    if payload.length < 20 then some (.error (.underSampling ty payload.length), datagram)
    else do
      let packetLength ← checkedSub datagram.length remain.length
      let payloadOffset ← checkedSub packetLength payload.length
      some (.ok (datagram.take packetLength, payloadOffset), datagram.drop packetLength)

def beDataPacket (header : LongDataHeader) (ty : PacketType) (datagram : Bytes) (remainLen : Nat) :
    Option (Except PacketError Packet × Bytes) := do
  match ← bePayload ty datagram remainLen with
  | (.ok (bytes, offset), datagram) => some (.ok (.data ⟨.long header, bytes, offset⟩), datagram)
  | (.error e, datagram) => some (.error e, datagram)

/-- The packet that a header belongs to, where `remain` is what follows the header. -/
def beBody (ty : PacketType) (datagram remain : Bytes) : Header → Option (Except PacketError Packet × Bytes)
  | .vn h => some (.ok (.vn h), [])
  | .retry h => some (.ok (.retry h), [])
  | .initial h => beDataPacket (.initial h) ty datagram remain.length
  | .zeroRtt h => beDataPacket (.zeroRtt h) ty datagram remain.length
  | .handshake h => beDataPacket (.handshake h) ty datagram remain.length
  | .oneRtt h =>
    if remain.length < 20 then some (.error (.underSampling ty remain.length), datagram)
    else do
      let offset ← checkedSub datagram.length remain.length
      some (.ok (.data ⟨.short h, datagram, offset⟩), [])

def bePacket (datagram : Bytes) (dcidLen : Nat) : Option (Except PacketError Packet × Bytes) :=
  match bePacketType datagram with
  | .error (.incomplete needed) => some (.error (.incompleteType needed), datagram)
  | .error (.error e) => some (.error e, datagram)
  | .error (.failure _) => none
  | .ok (ty, remain) =>
    match beHeader ty dcidLen remain with
    | .error (.incomplete needed) => some (.error (.incompleteHeader ty needed), datagram)
    | .error _ => none
    | .ok (header, remain) => beBody ty datagram remain header

structure PacketReader where
  rawBytes : Bytes
  dcidLen : Nat
  deriving DecidableEq, Repr

namespace PacketReader

def next (r : PacketReader) : Option (Option (Except PacketError Packet) × PacketReader) :=
  if r.rawBytes = [] then some (none, r)
  else do
    match ← bePacket r.rawBytes r.dcidLen with
    | (.ok packet, rest) => some (some (.ok packet), { r with rawBytes := rest })
    | (.error e, _) => some (some (.error e), { r with rawBytes := [] })

/-- All packets that the iterator yields. It runs out of fuel with `none`. -/
def packets : Nat → PacketReader → Option (List (Except PacketError Packet))
  | 0, _ => none
  | fuel + 1, r => do
    match ← r.next with
    | (none, _) => some []
    | (some item, r) =>
      let items ← packets fuel r
      some (item :: items)

end PacketReader

variable {dcidLen : Nat} {used datagram remain : Bytes}

lemma checkedSub_append (used remain : Bytes) :
    checkedSub (used ++ remain).length remain.length = some used.length := by
  rw [List.length_append, checkedSub_of_le (Nat.le_add_left _ _), Nat.add_sub_cancel]

lemma bePayload_of_ok (ty : PacketType) {head payload rest : Bytes}
    (hok : lengthData (head ++ payload ++ rest) = .ok (payload, rest)) (hsample : 20 ≤ payload.length) :
    bePayload ty (used ++ (head ++ payload ++ rest)) (head ++ payload ++ rest).length =
      some (.ok (used ++ head ++ payload, (used ++ head).length), rest) := by
  have hsplit : used ++ (head ++ payload ++ rest) = (used ++ head ++ payload) ++ rest := by
    simp only [List.append_assoc]
  unfold bePayload
  simp only [checkedSub_append, List.drop_left, some_bind, hok]
  rw [if_neg (not_lt.mpr hsample), hsplit, checkedSub_append, some_bind, checkedSub_append, some_bind,
    List.take_left, List.drop_left]

end Dquic
