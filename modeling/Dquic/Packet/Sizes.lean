import Dquic.Packet.Buffer

/-!
# Declared sizes

What frames declare as their size against what is written for them, and the window of a packet
that the declared size is compared with.
-/

namespace Dquic

open Lib

namespace VarInt

lemma encodingSize_eq_one {v : VarInt} (h : v.val < 2 ^ 6) : v.encodingSize = 1 := if_pos h

lemma encodingSize_fromU32 {n : Nat} (h : n < 2 ^ 32) : (fromU32 n).encodingSize = sizeOf n :=
  congrArg sizeOf (Nat.mod_eq_of_lt h)

end VarInt

@[simp] lemma length_putFrameType (fty : FrameType) : (putFrameType fty).length = fty.toVarInt.encodingSize :=
  length_putVarint fty.toVarInt

@[simp] lemma length_putConnectionId (cid : ConnectionId) : (putConnectionId cid).length = 1 + cid.bytes.length := by
  rw [putConnectionId, List.length_append, length_toBE]

lemma AckFrame.length_putRanges (ranges : List (VarInt × VarInt)) : (putRanges ranges).length = rangesSize ranges := by
  induction ranges with
  | nil => rfl
  | cons r ranges ih =>
    rw [putRanges, List.flatMap_cons, List.length_append, ← putRanges, ih, rangesSize, rangesSize, List.map_cons,
      List.sum_cons, List.length_append, length_putVarint, length_putVarint]

lemma AckFrame.length_putEcn (ecn : Option EcnCounts) : (putEcn ecn).length = ecnSize ecn := by
  cases ecn with
  | none => rfl
  | some e => simp only [putEcn, ecnSize, EcnCounts.encodingSize, List.length_append, length_putVarint, add_assoc]

lemma AckFrame.rangesSize_le (ranges : List (VarInt × VarInt)) : rangesSize ranges ≤ ranges.length * 16 := by
  induction ranges with
  | nil => exact le_rfl
  | cons r ranges ih =>
    have hgap := r.1.encodingSize_le
    have hack := r.2.encodingSize_le
    unfold rangesSize at ih ⊢
    rw [List.map_cons, List.sum_cons, List.length_cons]
    omega

lemma AckFrame.ecnSize_le (ecn : Option EcnCounts) : ecnSize ecn ≤ if ecn.isSome then 24 else 0 := by
  cases ecn with
  | none => exact le_rfl
  | some e =>
    have h0 := e.ect0.encodingSize_le
    have h1 := e.ect1.encodingSize_le
    have hce := e.ce.encodingSize_le
    rw [ecnSize, EcnCounts.encodingSize, Option.isSome_some, if_pos rfl]
    omega

lemma length_putReason {reason : String} {room : Nat} (hroom : (utf8 reason).length ≤ room)
    (hlen : (utf8 reason).length < 2 ^ 32) :
    (putReason room reason).length = VarInt.sizeOf (utf8 reason).length + (utf8 reason).length := by
  unfold putReason
  dsimp only
  rw [min_eq_left hroom, List.take_length, List.length_append, length_putVarint, VarInt.encodingSize_fromU32 hlen]

/-! ### The type of a frame takes one byte, or four -/

lemma FrameType.size_ack (ecn : Ecn) : (FrameType.ack ecn).toVarInt.encodingSize = 1 := by
  cases ecn <;> rfl

lemma FrameType.size_stream (hasOffset : Bool) (len : Len) (fin : Bool) :
    (FrameType.stream hasOffset len fin).toVarInt.encodingSize = 1 := by
  cases hasOffset <;> cases len <;> cases fin <;> rfl

lemma DatagramFrame.size_frameType (f : DatagramFrame) : f.frameType.toVarInt.encodingSize = 1 := by
  unfold frameType
  cases f.encodeLen <;> rfl

lemma FrameType.size_addAddress_le (family : Family) : (FrameType.addAddress family).toVarInt.encodingSize ≤ 4 := by
  cases family <;> decide

lemma FrameType.size_punchMeNow_le (family : Family) : (FrameType.punchMeNow family).toVarInt.encodingSize ≤ 4 := by
  cases family <;> decide

lemma ErrorKind.size_le (kind : ErrorKind) : kind.toVarInt.encodingSize ≤ 2 := by
  have hall : ∀ n < 256, (VarInt.fromU32 (0x0100 ||| n)).encodingSize ≤ 2 := by decide +kernel
  cases kind with
  | crypto alert => exact hall alert.toNat alert.toNat_lt
  | _ => decide

namespace Frame

/-- The frames whose declared sizes are right: lengths that fit the bytes that are counted for them. -/
def WellSized : Frame Bytes → Prop
  | ack f => f.ranges.length < 2 ^ 62
  | close (.app f) => (utf8 f.reason).length < 2 ^ 32 ∧
      f.errorCode.encodingSize + VarInt.sizeOf (utf8 f.reason).length ≤ 10
  | close (.quic f) => (utf8 f.reason).length < 2 ^ 32 ∧ f.frameType.toVarInt.val < 2 ^ 6
  | newToken f => f.token.length < 2 ^ 6
  | stream f _ => f.lenBit = .explicit → f.length < 2 ^ 32
  | crypto f data => f.length.val = data.length
  | _ => True

/-- Exactly the declared size is written, and at most the declared maximum. -/
def Exact (frame : Frame Bytes) (bytes : Bytes) : Prop :=
  ∃ size, frame.encodingSize = some size ∧ bytes.length = size + frame.payload.length ∧ size ≤ frame.maxEncodingSize

lemma exact_streamCtl (f : StreamCtlFrame) : (streamCtl f).Exact f.put := by
  refine ⟨f.encodingSize, rfl, ?_, ?_⟩
  · cases f with
    | maxStreams f =>
      cases f <;>
        simp [StreamCtlFrame.put, MaxStreamsFrame.put, StreamCtlFrame.encodingSize, payload,
          MaxStreamsFrame.encodingSize, MaxStreamsFrame.frameType] <;> rfl
    | streamsBlocked f =>
      cases f <;>
        simp [StreamCtlFrame.put, StreamsBlockedFrame.put, StreamCtlFrame.encodingSize, payload,
          StreamsBlockedFrame.encodingSize, StreamsBlockedFrame.frameType] <;> rfl
    | _ =>
      simp [StreamCtlFrame.put, StreamCtlFrame.encodingSize, payload, add_assoc]
      rfl
  · change f.encodingSize ≤ f.maxEncodingSize
    cases f with
    | maxData f => exact Nat.add_le_add_left f.maxData.encodingSize_le 1
    | dataBlocked f => exact Nat.add_le_add_left f.limit.encodingSize_le 1
    | resetStream f =>
      have hid := f.streamId.raw.encodingSize_le
      have hcode := f.appErrorCode.encodingSize_le
      have hsize := f.finalSize.encodingSize_le
      simp only [StreamCtlFrame.encodingSize, StreamCtlFrame.maxEncodingSize, StreamId.encodingSize]
      omega
    | stopSending f =>
      have hid := f.streamId.raw.encodingSize_le
      have hcode := f.appErrCode.encodingSize_le
      simp only [StreamCtlFrame.encodingSize, StreamCtlFrame.maxEncodingSize, StreamId.encodingSize]
      omega
    | maxStreamData f =>
      have hid := f.streamId.raw.encodingSize_le
      have hmax := f.maxStreamData.encodingSize_le
      simp only [StreamCtlFrame.encodingSize, StreamCtlFrame.maxEncodingSize, StreamId.encodingSize]
      omega
    | maxStreams f | streamsBlocked f =>
      cases f with
      | bi n | uni n => exact Nat.add_le_add_left n.encodingSize_le 1
    | streamDataBlocked f =>
      have hid := f.streamId.raw.encodingSize_le
      have hmax := f.maximumStreamData.encodingSize_le
      simp only [StreamCtlFrame.encodingSize, StreamCtlFrame.maxEncodingSize, StreamId.encodingSize]
      omega

variable {bytes data : Bytes} {f : ConnectionCloseFrame} {room size : Nat} {frame : Frame Bytes}

lemma exact_ack {f : AckFrame} (hb : f.put = some bytes) : (ack f).Exact bytes := by
  unfold AckFrame.put at hb
  obtain ⟨count, hcount, hb⟩ := of_bind hb
  cases hb
  refine ⟨1 + f.largest.encodingSize + f.delay.encodingSize + count.encodingSize + f.firstRange.encodingSize +
    AckFrame.rangesSize f.ranges + AckFrame.ecnSize f.ecn, ?_, ?_, ?_⟩
  · rw [encodingSize, AckFrame.encodingSize, hcount]
    rfl
  · have htype : f.frameType.toVarInt.encodingSize = 1 := FrameType.size_ack _
    simp only [List.length_append, length_putFrameType, length_putVarint, AckFrame.length_putRanges,
      AckFrame.length_putEcn, htype, payload, List.length_nil]
    omega
  · have hlargest := f.largest.encodingSize_le
    have hdelay := f.delay.encodingSize_le
    have hcount := count.encodingSize_le
    have hfirst := f.firstRange.encodingSize_le
    have hranges := AckFrame.rangesSize_le f.ranges
    have hecn := AckFrame.ecnSize_le f.ecn
    simp only [maxEncodingSize, AckFrame.maxEncodingSize]
    omega

/-- A close frame is a head and then the reason, and together they take what the frame declares. -/
lemma close_parts (h : (close f : Frame Bytes).WellSized) : ∃ (head : Bytes) (reason : String),
    (utf8 reason).length < 2 ^ 32 ∧ (∀ room, f.put room = head ++ putReason (room - head.length) reason) ∧
    f.encodingSize = some (head.length + VarInt.sizeOf (utf8 reason).length + (utf8 reason).length) ∧
    head.length + VarInt.sizeOf (utf8 reason).length + (utf8 reason).length ≤ f.maxEncodingSize := by
  cases f with
  | app f =>
    have hhead : (putFrameType (ConnectionCloseFrame.app f).frameType ++ putVarint f.errorCode).length =
        1 + f.errorCode.encodingSize := by
      rw [List.length_append, length_putFrameType, length_putVarint]
      rfl
    refine ⟨_, f.reason, h.1, fun _ => rfl, ?_, ?_⟩
    · rw [hhead, ConnectionCloseFrame.encodingSize, VarInt.fromU64_of_lt (lt_trans h.1 (by decide))]
      rfl
    · have hsize := h.2
      rw [hhead, ConnectionCloseFrame.maxEncodingSize]
      omega
  | quic f =>
    have hhead : (putFrameType (ConnectionCloseFrame.quic f).frameType ++
        (putVarint f.errorKind.toVarInt ++ putVarint f.frameType.toVarInt)).length = 1 + f.errorKind.toVarInt.encodingSize + 1 := by
      rw [List.length_append, List.length_append, length_putFrameType, length_putVarint, length_putVarint,
        VarInt.encodingSize_eq_one h.2, ← add_assoc]
      rfl
    refine ⟨_, f.reason, h.1, fun _ => rfl, ?_, ?_⟩
    · rw [hhead, ConnectionCloseFrame.encodingSize, VarInt.fromU64_of_lt (lt_trans h.1 (by decide))]
      rfl
    · have hkind := f.errorKind.size_le
      have hsize : VarInt.sizeOf (utf8 f.reason).length ≤ 8 := by
        unfold VarInt.sizeOf
        split_ifs <;> decide
      rw [hhead, ConnectionCloseFrame.maxEncodingSize]
      omega

lemma exact_close (h : (close f : Frame Bytes).WellSized) (hroom : (f.put room).length ≤ room) :
    (close f).Exact (f.put room) := by
  obtain ⟨head, reason, hlen, hput, hsize, hmax⟩ := close_parts h
  rw [hput] at hroom ⊢
  refine ⟨_, hsize, ?_, hmax⟩
  rw [List.length_append, length_putReason (reason_le_room hroom) hlen, ← add_assoc]
  rfl

lemma length_put_stream (f : StreamFrame) (data : Bytes) :
    (f.put data).length = 1 + f.id.encodingSize + (if f.offset.val ≠ 0 then f.offset.encodingSize else 0) +
      (if f.lenBit = .explicit then (VarInt.fromU32 f.length).encodingSize else 0) + data.length := by
  have htype : f.frameType.toVarInt.encodingSize = 1 := FrameType.size_stream _ _ _
  simp only [StreamFrame.put, List.length_append, length_putFrameType, htype, length_putStreamid]
  split_ifs <;> simp only [length_putVarint, List.length_nil] <;> omega

lemma exact_stream {f : StreamFrame} (h : (stream f data).WellSized) : (stream f data).Exact (f.put data) := by
  have hid := f.id.raw.encodingSize_le
  have hoffset := f.offset.encodingSize_le
  have hput := length_put_stream f data
  cases hlen : f.lenBit with
  | explicit =>
    refine ⟨1 + f.id.encodingSize + (if f.offset.val ≠ 0 then f.offset.encodingSize else 0) + VarInt.sizeOf f.length,
      ?_, ?_, ?_⟩
    · rw [encodingSize, StreamFrame.encodingSize, hlen, if_pos rfl, VarInt.fromU64_of_lt (lt_trans (h hlen) (by decide))]
      rfl
    · rw [hput, hlen, if_pos rfl, VarInt.encodingSize_fromU32 (h hlen)]
      rfl
    · have hsize := (VarInt.fromU32 f.length).encodingSize_le
      rw [VarInt.encodingSize_fromU32 (h hlen)] at hsize
      simp only [maxEncodingSize, streamFrameMaxEncodingSize, StreamId.encodingSize]
      split_ifs <;> omega
  | omitted =>
    refine ⟨1 + f.id.encodingSize + (if f.offset.val ≠ 0 then f.offset.encodingSize else 0) + 0, ?_, ?_, ?_⟩
    · rw [encodingSize, StreamFrame.encodingSize, hlen, if_neg (by decide)]
      rfl
    · simp only [hput, hlen, reduceCtorEq, if_false]
      rfl
    · simp only [maxEncodingSize, streamFrameMaxEncodingSize, StreamId.encodingSize]
      split_ifs <;> omega

lemma exact_crypto {f : CryptoFrame} (hb : f.put data = some bytes) : (crypto f data).Exact bytes := by
  unfold CryptoFrame.put at hb
  obtain ⟨_, _, hb⟩ := of_bind hb
  cases hb
  have hoffset := f.offset.encodingSize_le
  have hlength := f.length.encodingSize_le
  refine ⟨_, rfl, ?_, ?_⟩
  · simp only [List.length_append, length_putFrameType, length_putVarint, payload, ← add_assoc]
    rfl
  · simp only [maxEncodingSize]
    omega

lemma exact_datagram (f : DatagramFrame) (data : Bytes) : (datagram f data).Exact (f.put data) := by
  have htype := f.size_frameType
  have hlen := f.len.encodingSize_le
  refine ⟨_, rfl, ?_, ?_⟩
  · simp only [DatagramFrame.put, DatagramFrame.encodingSize, List.length_append, length_putFrameType, htype, payload]
    split_ifs <;> simp only [length_putVarint, List.length_nil] <;> omega
  · simp only [DatagramFrame.encodingSize, maxEncodingSize]
    split_ifs <;> omega

lemma exact_addAddress (f : AddAddressFrame) : (addAddress f).Exact f.put := by
  refine ⟨_, rfl, ?_, ?_⟩
  · simp only [AddAddressFrame.put, List.length_append, length_putFrameType, length_putVarint, length_putSocketAddr,
      payload, List.length_nil]
    omega
  · have htype := FrameType.size_addAddress_le f.address.family
    have hseq := f.seqNum.encodingSize_le
    have haddr : f.address.encodingSize ≤ 2 + 16 := f.address.encodingSize_le
    have htire := f.tire.encodingSize_le
    have hnat := f.natType.toVarInt.encodingSize_le
    simp only [maxEncodingSize]
    omega

lemma exact_punchMeNow (f : PunchMeNowFrame) : (punchMeNow f).Exact f.put := by
  refine ⟨_, rfl, ?_, ?_⟩
  · simp only [PunchMeNowFrame.put, List.length_append, length_putFrameType, length_putVarint, length_putSocketAddr,
      payload, List.length_nil]
    omega
  · have htype := FrameType.size_punchMeNow_le f.address.family
    have hlocal := f.localSeq.encodingSize_le
    have hremote := f.remoteSeq.encodingSize_le
    have haddr := f.address.encodingSize_le
    have htire := f.tire.encodingSize_le
    have hnat := f.natType.toVarInt.encodingSize_le
    simp only [maxEncodingSize]
    omega

lemma exact_of_putFrame (h : frame.WellSized) (hput : putFrame room frame = some bytes) : frame.Exact bytes := by
  obtain ⟨hout, hroom⟩ := putFrame_eq_some hput
  cases frame with
  | ack f => exact exact_ack hout
  | close f =>
    cases hout
    exact exact_close h hroom
  | newToken f =>
    cases hout
    refine ⟨_, rfl, ?_, le_rfl⟩
    have hlen : (VarInt.fromU32 f.token.length).encodingSize = 1 := by
      rw [VarInt.encodingSize_fromU32 (lt_trans h (by decide))]
      exact if_pos h
    simp only [NewTokenFrame.put, List.length_append, length_putFrameType, length_putVarint, hlen, payload, ← add_assoc]
    rfl
  | newConnectionId f =>
    cases hout
    have hseq := f.sequence.encodingSize_le
    have hretire := f.retirePriorTo.encodingSize_le
    have hid := f.id.len_le
    have htoken := f.resetToken.property
    refine ⟨_, rfl, ?_, ?_⟩
    · simp only [NewConnectionIdFrame.put, List.length_append, length_putFrameType, length_putVarint,
        length_putConnectionId, htoken, payload, ← add_assoc]
      rfl
    · unfold maxCidSize at hid
      simp only [maxEncodingSize]
      omega
  | retireConnectionId f =>
    cases hout
    refine ⟨_, rfl, ?_, Nat.add_le_add_left f.sequence.encodingSize_le 1⟩
    simp only [List.length_append, length_putFrameType, length_putVarint, payload]
    rfl
  | pathChallenge | pathResponse =>
    cases hout
    refine ⟨_, rfl, ?_, le_rfl⟩
    simp only [List.length_append, length_putFrameType, payload]
    rfl
  | streamCtl f =>
    cases hout
    exact exact_streamCtl f
  | stream f data =>
    cases hout
    exact exact_stream h
  | crypto f data => exact exact_crypto hout
  | datagram f data =>
    cases hout
    exact exact_datagram f data
  | addAddress f =>
    cases hout
    exact exact_addAddress f
  | removeAddress f =>
    cases hout
    refine ⟨_, rfl, ?_, Nat.add_le_add (by decide) f.seqNum.encodingSize_le⟩
    simp only [List.length_append, length_putFrameType, length_putVarint, payload]
    rfl
  | punchMeNow f =>
    cases hout
    exact exact_punchMeNow f
  | punchHello f | punchDone f =>
    cases hout
    refine ⟨_, rfl, ?_, ?_⟩
    · simp only [List.length_append, length_putFrameType, length_putVarint, payload, ← add_assoc]
      rfl
    · exact Nat.add_le_add (Nat.add_le_add (Nat.add_le_add (by decide) f.localSeq.encodingSize_le)
        f.remoteSeq.encodingSize_le) f.probeId.encodingSize_le
  | _ =>
    cases hout
    exact ⟨1, rfl, rfl, le_rfl⟩

lemma bytes_room (h : ∀ f, frame ≠ close f) (room room' : Nat) : frame.bytes room = frame.bytes room' := by
  cases frame with
  | close f => exact absurd rfl (h f)
  | _ => rfl

lemma exists_bytes_of_wellSized (h : frame.WellSized) (room : Nat) : ∃ bytes, frame.bytes room = some bytes := by
  cases frame with
  | ack f =>
    rw [bytes, AckFrame.put, VarInt.fromU64_of_lt h]
    exact ⟨_, rfl⟩
  | crypto f data =>
    have hlen : f.length.val = data.length := h
    rw [bytes, CryptoFrame.put, debugAssert_of hlen]
    exact ⟨_, rfl⟩
  | _ => exact ⟨_, rfl⟩

lemma length_close_le (h : (close f : Frame Bytes).WellSized) (hsize : (close f : Frame Bytes).encodingSize = some size)
    (hroom : size ≤ room) : (f.put room).length ≤ room := by
  obtain ⟨head, reason, hlen, hput, hdeclared, -⟩ := close_parts h
  cases hdeclared.symm.trans hsize
  rw [hput, List.length_append, length_putReason (by omega) hlen]
  omega

lemma putFrame_of_size_le (h : frame.WellSized) (hsize : frame.encodingSize = some size)
    (hroom : size + frame.payload.length ≤ room) :
    ∃ bytes, putFrame room frame = some bytes ∧ bytes.length = size + frame.payload.length := by
  have hput : ∃ bytes, putFrame room frame = some bytes := by
    by_cases hclose : ∃ f, frame = close f
    · obtain ⟨f, rfl⟩ := hclose
      exact ⟨_, putFrame_of_bytes rfl (length_close_le h hsize hroom)⟩
    · push Not at hclose
      obtain ⟨bytes, hbytes⟩ := exists_bytes_of_wellSized h room
      -- written to a buffer of just its length it has the declared size
      have hexact := exact_of_putFrame h (putFrame_of_bytes ((bytes_room hclose bytes.length room).trans hbytes) le_rfl)
      obtain ⟨size', hsize', hlen, _⟩ := hexact
      cases hsize.symm.trans hsize'
      exact ⟨bytes, putFrame_of_bytes hbytes (hlen ▸ hroom)⟩
  obtain ⟨bytes, hput⟩ := hput
  obtain ⟨size', hsize', hlen, _⟩ := exact_of_putFrame h hput
  cases hsize.symm.trans hsize'
  exact ⟨bytes, hput, hlen⟩

lemma exists_encodingSize (h : frame.WellSized) : ∃ size, frame.encodingSize = some size := by
  cases frame with
  | ack f =>
    rw [encodingSize, AckFrame.encodingSize, VarInt.fromU64_of_lt h]
    exact ⟨_, rfl⟩
  | close f =>
    obtain ⟨head, reason, -, -, hsize, -⟩ := close_parts h
    exact ⟨_, hsize⟩
  | stream f data =>
    obtain ⟨size, hsize, _⟩ := exact_stream h
    exact ⟨size, hsize⟩
  | _ => exact ⟨_, rfl⟩

end Frame

namespace PacketBuffer

lemma forFrame_out (b : PacketBuffer) (fty : FrameType) : (b.forFrame fty).out = b.out := by
  unfold forFrame
  split
  · rfl
  · rfl

lemma forFrame_forFrame (b : PacketBuffer) (fty fty' : FrameType) :
    (b.forFrame fty).forFrame fty' = b.forFrame fty' := by
  unfold forFrame
  split
  · rfl
  · rfl

variable {b : PacketBuffer} {frame : Frame Bytes}

lemma putSlice_of_le {bytes : Bytes} (h : bytes.length ≤ b.remainingMut) :
    b.putSlice bytes = some { b with
      room := b.room - bytes.length, out := b.out ++ bytes, nwrote := b.nwrote + bytes.length } := by
  unfold putSlice
  rw [debugAssert_of h]
  rfl

end PacketBuffer

end Dquic
