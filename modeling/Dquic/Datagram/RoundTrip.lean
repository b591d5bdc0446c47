import Dquic.Datagram.Demux

/-!
# Demultiplexing is faithful

A packet comes back raw whatever its protected bits are, and messages and forwarded packets come
back as they were written.
-/

namespace Dquic

open Lib Lib.Nom

/-! ### Packets -/

/-- The packets that are sent with a version or with the spin bit zero. -/
def Header.Sent : Header → Prop
  | vn _ => False
  | retry _ => True
  | initial _ => True
  | zeroRtt _ => True
  | handshake _ => True
  | oneRtt h => h.spin = false

variable {first : UInt8} {rest used : Bytes} {pathway : Pathway}

lemma parses_beTypeOf {ty : DatagramType} (h : Parses (beTypeOf first.toNat) used rest ty) :
    Parses (do let first ← beUint 1; beTypeOf first : FieldParser DatagramType) (first :: used) rest ty :=
  Parses.bind (parses_beU8 first (used ++ rest)) h

lemma beDatagram_raw (h : Parses (beTypeOf first.toNat) used rest .raw) :
    beDatagram (first :: (used ++ rest)) = some (.ok (.raw (first :: (used ++ rest)))) := by
  have htype : beDatagramType (first :: (used ++ rest)) = .ok (.raw, first :: (used ++ rest)) := by
    have hrun : (do let first ← beUint 1; beTypeOf first : FieldParser DatagramType) (first :: (used ++ rest)) =
      .ok (.raw, rest) := parses_beTypeOf h
    unfold beDatagramType
    rw [hrun]
  unfold beDatagram
  rw [htype]

lemma parses_beDatagramType {ty : V0Type} (h : Parses (beTypeOf first.toNat) used rest (.v0 ty)) :
    Parses beDatagramType (first :: used) rest (.v0 ty) := by
  unfold Parses beDatagramType
  rw [show _ = Except.ok (DatagramType.v0 ty, rest) from parses_beTypeOf h]

lemma beDatagram_long (hfixed : first.toNat &&& 0x40 ≠ 0) (hform : first.toNat &&& 0x80 ≠ 0) (tail : Bytes) :
    beDatagram (first :: (toBE 4 1 ++ tail)) = some (.ok (.raw (first :: (toBE 4 1 ++ tail)))) := by
  apply beDatagram_raw
  unfold beTypeOf
  rw [if_neg hfixed, if_neg hform]
  apply Parses.bind_nil (parses_beUint (by decide) tail)
  rw [if_pos (Or.inl one_ne_zero)]
  exact Parses.pure _ tail

lemma beDatagram_short (hfixed : first.toNat &&& 0x40 ≠ 0) (hform : first.toNat &&& 0x80 = 0)
    (hforward : first.toNat &&& 0x20 = 0) (tail : Bytes) :
    beDatagram (first :: tail) = some (.ok (.raw (first :: tail))) := by
  have hparses : Parses (beTypeOf first.toNat) [] tail .raw := by
    unfold beTypeOf
    rw [if_neg hfixed, if_pos hform, if_pos hforward]
    exact Parses.pure _ tail
  exact beDatagram_raw hparses

lemma beDatagram_v1 (ty : V1Type) (bits mask : UInt8) (tail : Bytes) :
    ∀ packet, packet = (PacketType.long (.v1 ty)).protect bits mask (0x80 ||| 0x40 ||| ty.toByte) :: (toBE 4 1 ++ tail) →
      beDatagram packet = some (.ok (.raw packet)) := by
  rintro packet rfl
  apply beDatagram_long
  · rw [PacketType.protect_and (show (0x0f : UInt8).toNat &&& 0x40 = 0 by decide)]
    cases ty <;> decide
  · rw [PacketType.protect_and (show (0x0f : UInt8).toNat &&& 0x80 = 0 by decide)]
    cases ty <;> decide

/-- A packet as the library writes it: the header, its first byte protected, and what follows it. -/
def Header.datagram (header : Header) (bits mask : UInt8) (payload : Bytes) : Option Bytes := do
  let bytes ← header.put
  match bytes with
  | [] => none
  | first :: tail => some (header.packetType.protect bits mask first :: (tail ++ payload))

lemma beDatagram_header {header : Header} (h : header.Sent) {bits mask : UInt8} {payload packet : Bytes}
    (hpacket : header.datagram bits mask payload = some packet) : beDatagram packet = some (.ok (.raw packet)) := by
  obtain ⟨bytes, hput, hpacket⟩ := of_bind hpacket
  -- long headers of version 1 differ in what follows the version only
  have hlong : ∀ {α : Type} (ty : V1Type) (l : LongHeader α) (specific : Bytes), header.packetType = .long (.v1 ty) →
      bytes = l.put ty specific → beDatagram packet = some (.ok (.raw packet)) := by
    intro α ty l specific hty hbytes
    subst hbytes
    cases hpacket
    apply beDatagram_v1 ty bits mask (putConnectionId l.dcid ++ (putConnectionId l.scid ++ specific) ++ payload)
    rw [hty]
    exact congrArg _ (List.append_assoc _ _ _)
  cases header with
  | vn l => exact h.elim
  | retry l =>
    cases hput
    exact hlong .retry l _ rfl rfl
  | initial l =>
    obtain ⟨len, -, hput⟩ := of_bind hput
    cases hput
    exact hlong .initial l _ rfl rfl
  | zeroRtt l =>
    cases hput
    exact hlong .zeroRtt l _ rfl rfl
  | handshake l =>
    cases hput
    exact hlong .handshake l _ rfl rfl
  | oneRtt s =>
    cases hput
    rw [show s.spin = false from h] at hpacket
    cases hpacket
    rw [show (Header.oneRtt s).packetType = .short s.spin from rfl]
    apply beDatagram_short
    · rw [PacketType.protect_and (show (0x1f : UInt8).toNat &&& 0x40 = 0 by decide)]
      decide
    · rw [PacketType.protect_and (show (0x1f : UInt8).toNat &&& 0x80 = 0 by decide)]
      decide
    · rw [PacketType.protect_and (show (0x1f : UInt8).toNat &&& 0x20 = 0 by decide)]
      decide

/-! ### Messages -/

lemma parses_beStunType (ty : Stun.MessageType) (rest : Bytes) :
    Parses beDatagramType (putDatagramType 0 (.v0 (.stun ty))) rest (.v0 (.stun ty)) := by
  apply parses_beDatagramType
  unfold beTypeOf
  rw [if_neg (by cases ty <;> decide), if_neg (by cases ty <;> decide)]
  apply Parses.bind (parses_beUint (by decide) _)
  rw [if_neg (by cases ty <;> decide)]
  refine Parses.map ?_
  unfold Stun.beStunType
  rw [if_neg (by cases ty <;> decide)]
  have hty : Stun.MessageType.ofByte (((0b11000000 : UInt8) ||| (1 : UInt8) <<< 1 ||| ty.toByte).toNat &&& 1) = some ty := by
    cases ty <;> rfl
  rw [hty]
  apply Parses.bind (parses_beUint (by decide) _)
  apply Parses.bind_nil (parses_beUint (by decide) _)
  rw [if_neg (by decide)]
  exact Parses.pure _ rest

lemma beDatagram_stun (random : UInt8) (id : Stun.TransactionId) {message : Stun.Message} (h : message.Encodable) :
    beDatagram (putDatagram random (.stun id message)) = some (.ok (.stun id message)) := by
  have htype := parses_beStunType message.messageType (id.val ++ Stun.putStunMessage message)
  have hid : Parses Stun.beTransactionId id.val (Stun.putStunMessage message) id := parses_takeArray id _
  have hmessage := (Stun.parses_beStunMessage h).all
  unfold Parses at htype hid
  unfold beDatagram
  rw [show beDatagramType (putDatagram random (.stun id message)) = _ from htype]
  dsimp only [beStun]
  rw [hid]
  dsimp only
  rw [hmessage]
  rfl

/-! ### Forwarded packets -/

lemma parses_beForwardType (random : UInt8) (family : Family) (src dst : EndpointKind) (rest : Bytes) :
    Parses beDatagramType (putDatagramType random (.v0 (.forward family src dst))) rest (.v0 (.forward family src dst)) := by
  have hmarker : ∀ {k : Nat}, (0b00011111 : UInt8).toNat &&& k = 0 →
      ((0b01100000 : UInt8) ||| (random &&& 0b00011111)).toNat &&& k = (0b01100000 : UInt8).toNat &&& k := by
    intro k hk
    exact or_and_and hk _ _
  apply parses_beDatagramType
  unfold beTypeOf
  rw [hmarker (by decide), if_neg (by decide), hmarker (by decide), if_pos (by decide), hmarker (by decide),
    if_neg (by decide)]
  refine Parses.map ?_
  unfold beForwardType
  rw [hmarker (by decide), if_neg (by decide)]
  apply Parses.bind_nil (parses_beU8 _ rest)
  have hencoded : ¬(((1 : UInt8) <<< 3 ||| family.toByte <<< 2 ||| src.toByte <<< 1 ||| dst.toByte).toNat >>> 4 ≠ 0 ∨
      ((1 : UInt8) <<< 3 ||| family.toByte <<< 2 ||| src.toByte <<< 1 ||| dst.toByte).toNat &&& 0b1000 = 0) := by
    cases family <;> cases src <;> cases dst <;> decide
  rw [if_neg hencoded]
  cases family <;> cases src <;> cases dst <;> exact Parses.pure _ rest

lemma beDatagram_forward (random : UInt8) (h : pathway.Uniform) {raw : Bytes} (hraw : raw ≠ []) :
    ∃ payload, beDatagram (putDatagramType random (.v0 pathway.datagramType) ++ (putPathway pathway ++ raw)) =
      some (.ok (.forward pathway.unscoped payload)) ∧ payload.raw = raw := by
  have htype := parses_beForwardType random pathway.localAddr.family pathway.localAddr.kind pathway.remoteAddr.kind
    (putPathway pathway ++ raw)
  have hpath := parses_bePathway h raw
  unfold Parses at htype hpath
  have hpos := List.length_pos_of_ne_nil hraw
  set header := putDatagramType random (.v0 pathway.datagramType) with hheader
  have hlen : (header ++ (putPathway pathway ++ raw)).length = (header ++ putPathway pathway).length + raw.length := by
    rw [← List.append_assoc, List.length_append]
  have hsub : (header ++ (putPathway pathway ++ raw)).length - raw.length = (header ++ putPathway pathway).length := by
    rw [hlen, Nat.add_sub_cancel]
  have hlt : (header ++ putPathway pathway).length < (header ++ (putPathway pathway ++ raw)).length := by
    rw [hlen]
    omega
  refine ⟨⟨header ++ (putPathway pathway ++ raw), (header ++ putPathway pathway).length, hlt⟩, ?_, ?_⟩
  · unfold beDatagram
    rw [show beDatagramType (header ++ (putPathway pathway ++ raw)) = _ from htype]
    dsimp only [beForward]
    rw [hpath]
    dsimp only
    rw [if_neg hraw, checkedSub_of_le (by rw [hlen]; omega), hsub, some_bind,
      ForwardPayload.new, dif_pos hlt]
    rfl
  · unfold ForwardPayload.raw
    dsimp only
    rw [← List.append_assoc, List.drop_left]

lemma fromRaw_eq_ok (random : UInt8) (h : pathway.Uniform) {bytes : Bytes} {rawOffset : Nat}
    (hroom : (putDatagramType random (.v0 pathway.datagramType) ++ putPathway pathway).length ≤ rawOffset)
    (hlt : rawOffset < bytes.length) :
    ∃ encoded, ForwardPayload.fromRaw random pathway bytes rawOffset = some (.ok encoded) ∧
      encoded.bytes = putDatagramType random (.v0 pathway.datagramType) ++ (putPathway pathway ++ bytes.drop rawOffset) ∧
      encoded.intoRaw = bytes.drop rawOffset := by
  obtain ⟨header, hheader⟩ : ∃ header, header = putDatagramType random (.v0 pathway.datagramType) ++ putPathway pathway :=
    ⟨_, rfl⟩
  rw [← hheader] at hroom
  rw [← List.append_assoc, ← hheader]
  have hlen : 2 + (putEndpointAddr pathway.localAddr).length + (putEndpointAddr pathway.remoteAddr).length =
      header.length := by
    rw [hheader, List.length_append, putPathway, List.length_append, Nat.add_assoc]
    rfl
  have hfit : header.length = ((bytes.take rawOffset).drop (rawOffset - header.length)).length := by
    rw [List.length_drop, List.length_take]
    omega
  have hoffset : header.length < (header ++ bytes.drop rawOffset).length := by
    rw [List.length_append, List.length_drop]
    omega
  refine ⟨⟨header ++ bytes.drop rawOffset, header.length, hoffset⟩, ?_, rfl, List.drop_left⟩
  unfold ForwardPayload.fromRaw
  simp only [h.1.encodingSize, h.2.encodingSize, some_bind, hlen, ← hheader]
  rw [dif_pos hlt, if_neg (by rw [h.1.2, h.2.1, h.2.2]; simp), dif_neg (not_lt.mpr hroom), dif_pos hfit]

/-- Packets come back raw, and everything else as it was written. A forwarded pathway comes back without the flow labels
and scopes of its addresses, and no datagram leads to a panic. -/
theorem beDatagram_faithful (random : UInt8) :
    (∀ header : Header, header.Sent → ∀ bits mask payload packet, header.datagram bits mask payload = some packet →
      beDatagram packet = some (.ok (.raw packet))) ∧
    (∀ id message, message.Encodable →
      beDatagram (putDatagram random (.stun id message)) = some (.ok (.stun id message))) ∧
    (∀ pathway : Pathway, pathway.Uniform →
      (∀ payload, ∃ payload',
        beDatagram (putDatagram random (.forward pathway payload)) = some (.ok (.forward pathway.unscoped payload')) ∧
          payload'.intoRaw = payload.intoRaw) ∧
      (∀ bytes rawOffset, rawOffset < bytes.length →
        (putDatagramType random (.v0 pathway.datagramType) ++ putPathway pathway).length ≤ rawOffset →
        ∃ encoded payload, ForwardPayload.fromRaw random pathway bytes rawOffset = some (.ok encoded) ∧
          encoded.intoRaw = bytes.drop rawOffset ∧
          beDatagram encoded.bytes = some (.ok (.forward pathway.unscoped payload)) ∧
          payload.intoRaw = bytes.drop rawOffset) ∧
      (pathway.unscoped = pathway ↔ pathway.Plain)) ∧
    ∀ bytes, ∃ result, beDatagram bytes = some result := by
  refine ⟨?_, ?_, ?_, exists_beDatagram⟩
  · intro header h bits mask payload packet hpacket
    exact beDatagram_header h hpacket
  · intro id message h
    exact beDatagram_stun random id h
  · intro pathway h
    refine ⟨?_, ?_, Pathway.unscoped_eq_self⟩
    · intro payload
      have hraw : payload.raw ≠ [] := by
        rw [← List.length_pos_iff, ForwardPayload.raw, List.length_drop]
        exact Nat.sub_pos_of_lt payload.lt
      exact beDatagram_forward random h hraw
    · intro bytes rawOffset hlt hroom
      obtain ⟨encoded, hencoded, hbytes, hraw⟩ := fromRaw_eq_ok random h hroom hlt
      have hne : bytes.drop rawOffset ≠ [] := by
        rw [← List.length_pos_iff, List.length_drop]
        exact Nat.sub_pos_of_lt hlt
      obtain ⟨payload, hpayload, hsame⟩ := beDatagram_forward random h hne
      exact ⟨encoded, payload, hencoded, hraw, hbytes ▸ hpayload, hsame⟩

/-- A handshake packet under a mask, a request with an address, and a packet forwarded behind four bytes of spare room. -/
theorem beDatagram_faithful_each :
    (∃ packet, (Header.handshake ⟨.fromSlice [1, 2], .fromSlice [], ⟨⟩⟩).datagram 1 0xff [0, 9] = some packet ∧
      beDatagram packet = some (.ok (.raw packet))) ∧
    beDatagram (putDatagram 7 (.stun ⟨List.replicate 16 3, rfl⟩ (.request ⟨[.changeRequest 3, .mappedAddress (.v4 5 6)]⟩))) =
      some (.ok (.stun ⟨List.replicate 16 3, rfl⟩ (.request ⟨[.changeRequest 3, .mappedAddress (.v4 5 6)]⟩))) ∧
    ∃ encoded payload, ForwardPayload.fromRaw 7 ⟨.direct (.v4 5 6), .mediate (.v4 7 8) (.v4 9 10)⟩
        (List.replicate 24 0 ++ [0x40, 1]) 24 = some (.ok encoded) ∧ encoded.intoRaw = [0x40, 1] ∧
      beDatagram encoded.bytes = some (.ok (.forward ⟨.direct (.v4 5 6), .mediate (.v4 7 8) (.v4 9 10)⟩ payload)) ∧
      payload.intoRaw = [0x40, 1] :=
  ⟨⟨_, rfl, (beDatagram_faithful 7).1 (.handshake ⟨.fromSlice [1, 2], .fromSlice [], ⟨⟩⟩) trivial 1 0xff [0, 9] _ rfl⟩,
    (beDatagram_faithful 7).2.1 _ _ (by decide),
    ((beDatagram_faithful 7).2.2.1 ⟨.direct (.v4 5 6), .mediate (.v4 7 8) (.v4 9 10)⟩ (by decide)).2.1
      (List.replicate 24 0 ++ [0x40, 1]) 24 (by decide) (by decide)⟩

/-- A scope does not come back from the wire. -/
theorem beDatagram_forward_scoped :
    ¬∀ (pathway : Pathway) (payload : ForwardPayload), pathway.Uniform → ∃ payload',
      beDatagram (putDatagram 0 (.forward pathway payload)) = some (.ok (.forward pathway payload')) ∧
        payload'.intoRaw = payload.intoRaw := by
  intro h
  have huniform : Pathway.Uniform ⟨.direct (.v6 1 443 0 2), .direct (.v6 2 443 0 0)⟩ := by decide
  obtain ⟨payload', hpayload', -⟩ := h _ ⟨[0x40], 0, by decide⟩ huniform
  obtain ⟨payload, hpayload, -⟩ := beDatagram_forward 0 huniform (List.cons_ne_nil (0x40 : UInt8) [])
  have hsame := Datagram.forward.inj (Except.ok.inj (Option.some.inj (hpayload.symm.trans hpayload')))
  exact absurd hsame.1 (by decide)

end Dquic
