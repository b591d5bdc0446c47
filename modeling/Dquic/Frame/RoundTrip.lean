import Dquic.Frame.Parsers

/-!
# Frames are read back as they were written

For each frame its parser consumes what was written behind the type, and gives the frame back.
`Frame.WellFormed` says which frames that holds for.
-/

namespace Dquic

open Lib Lib.Nom

variable {replaceInvalid : Bytes → String}

variable {fty : FrameType} {room : Nat} {data rest : Bytes}

lemma parses_beFrameType (h : fty.OnWire) (rest : Bytes) : Parses beFrameType (putFrameType fty) rest fty := by
  have hv := parses_beVarint (ε := NomErrorKind) fty.toVarInt rest
  unfold Parses at hv
  unfold Parses beFrameType putFrameType
  simp only [hv, FrameType.ofVarInt_toVarInt h]

/-! ### Frames of a few integers -/

def MaxStreamsFrame.count : MaxStreamsFrame → VarInt
  | bi maxStreams => maxStreams
  | uni maxStreams => maxStreams

def MaxStreamsFrame.dir : MaxStreamsFrame → Dir
  | bi _ => .bi
  | uni _ => .uni

lemma parses_maxStreamsFrameWithDir {f : MaxStreamsFrame} (h : f.count.val ≤ maxStreamsLimit) (rest : Bytes) :
    Parses (maxStreamsFrameWithDir f.dir) (putVarint f.count) rest f := by
  apply Parses.bind_nil (parses_beVarint f.count _)
  rw [if_neg (not_lt.mpr h)]
  cases f with
  | bi | uni => exact Parses.pure _ rest

/-! ### Frames with ranges, ids, addresses and texts -/

lemma parses_beRanges (ranges : List (VarInt × VarInt)) (rest : Bytes) :
    Parses (beRanges ranges.length) (AckFrame.putRanges ranges) rest ranges := by
  induction ranges with
  | nil => exact Parses.pure [] rest
  | cons r ranges ih =>
    rw [AckFrame.putRanges, List.flatMap_cons, List.append_assoc]
    apply Parses.bind (parses_beVarint r.1 _)
    apply Parses.bind (parses_beVarint r.2 _)
    exact ih.map

lemma parses_beEcn (ecn : Option EcnCounts) (rest : Bytes) :
    Parses (beEcn (if ecn.isSome then .exist else .none)) (AckFrame.putEcn ecn) rest ecn := by
  cases ecn with
  | none => exact Parses.pure none rest
  | some e =>
    have hcounts : Parses beEcnCounts (AckFrame.putEcn (some e)) rest e := by
      apply Parses.bind (parses_beVarint e.ect0 _)
      apply Parses.bind (parses_beVarint e.ect1 _)
      exact (parses_beVarint e.ce rest).map
    exact hcounts.map

lemma parses_ackFrameWithEcn (f : AckFrame) {count : VarInt} (hcount : count.val = f.ranges.length) (rest : Bytes) :
    Parses (ackFrameWithEcn (if f.ecn.isSome then .exist else .none))
      (putVarint f.largest ++ (putVarint f.delay ++ (putVarint count ++
        (putVarint f.firstRange ++ (AckFrame.putRanges f.ranges ++ AckFrame.putEcn f.ecn))))) rest f := by
  apply Parses.bind (parses_beVarint f.largest _)
  apply Parses.bind (parses_beVarint f.delay _)
  apply Parses.bind (parses_beVarint count _)
  apply Parses.bind (parses_beVarint f.firstRange _)
  rw [hcount]
  apply Parses.bind (parses_beRanges f.ranges _)
  exact (parses_beEcn f.ecn rest).map

namespace Frame

/-- The frames that the parser gives back: types and lengths that fit their fields on the wire, values that the parser
does not refuse, addresses without a scope, and data of the declared length. -/
def WellFormed : Frame Bytes → Prop
  | ack f => f.ranges.length < 2 ^ 62
  | close (.app f) => (utf8 f.reason).length < 2 ^ 32
  | close (.quic f) => (∃ fty, f.frameType = .v1 fty ∧ fty.OnWire) ∧ (utf8 f.reason).length < 2 ^ 32
  | newToken f => f.token.length < 2 ^ 32
  | newConnectionId f => f.retirePriorTo.val ≤ f.sequence.val ∧ f.id.bytes ≠ []
  | streamCtl (.maxStreams f) => f.count.val ≤ maxStreamsLimit
  | stream f data => f.length = data.length ∧ f.offset.val + f.length ≤ varintMax ∧
      (f.lenBit = .explicit → f.length < 2 ^ 32)
  | crypto f data => f.length.val = data.length ∧ f.offset.val + f.offset.val ≤ varintMax
  | datagram f data => f.len.val = data.length
  | addAddress f => f.address.Plain
  | punchMeNow f => f.address.Plain
  | _ => True

def OmitsLength : Frame Bytes → Prop
  | stream f _ => f.lenBit = .omitted
  | datagram f _ => f.encodeLen = false
  | _ => False

/-- The bytes are the type of the frame and a body that its parser reads as the frame. -/
def Reads (replaceInvalid : Bytes → String) (frame : Frame Bytes) (bytes : Bytes) : Prop :=
  ∃ body, bytes = putFrameType frame.frameType ++ body ∧ ∀ rest, (frame.OmitsLength → rest = []) →
    Parses (completeFrame replaceInvalid frame.frameType) body rest frame

lemma frameType_onWire (frame : Frame Bytes) : frame.frameType.OnWire := by
  cases frame with
  | close f => cases f <;> trivial
  | streamCtl f =>
    cases f with
    | maxStreams f | streamsBlocked f => cases f <;> trivial
    | _ => trivial
  | datagram f data =>
    cases h : f.encodeLen with
    | true => exact Or.inr (if_pos h)
    | false => exact Or.inl (if_neg (by rw [h]; decide))
  | _ => trivial

variable {bytes : Bytes} {frame : Frame Bytes}

lemma reads_ack {f : AckFrame} (hb : f.put = some bytes) : (ack f).Reads replaceInvalid bytes := by
  unfold AckFrame.put at hb
  obtain ⟨count, hcount, hb⟩ := of_bind hb
  have hval : count.val = f.ranges.length := by
    unfold VarInt.fromU64 at hcount
    split at hcount
    · cases hcount
      rfl
    · cases hcount
  cases hb
  exact ⟨_, rfl, fun rest _ => (parses_ackFrameWithEcn f hval rest).map⟩

lemma beFrame_of_reads (h : frame.Reads replaceInvalid bytes) {packetType : PacketType}
    (hbelongs : frame.frameType.belongsTo packetType = true) (hrest : frame.OmitsLength → rest = []) :
    beFrame replaceInvalid (bytes ++ rest) packetType = some (.ok (bytes.length, frame, frame.frameType)) := by
  obtain ⟨body, rfl, hbody⟩ := h
  have htype : beFrameType (putFrameType frame.frameType ++ body ++ rest) = .ok (frame.frameType, body ++ rest) := by
    rw [List.append_assoc]
    exact parses_beFrameType frame.frameType_onWire (body ++ rest)
  have hpayload : completeFrame replaceInvalid frame.frameType (body ++ rest) = .ok (frame, rest) := hbody rest hrest
  unfold beFrame
  rw [htype]
  dsimp only
  rw [if_pos hbelongs, hpayload]
  have hlen : (putFrameType frame.frameType ++ body ++ rest).length - rest.length =
      (putFrameType frame.frameType ++ body).length := by
    rw [List.length_append, Nat.add_sub_cancel]
  rw [← hlen]

end Frame

end Dquic
