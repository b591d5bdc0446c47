import Dquic.Packet.Reader
import Dquic.Packet.Tail

/-!
# Sealed packets

`Packet::seal` completes the header: the length of the packet number in the first byte, and the
length of a long packet in the two bytes that were left for it.
-/

namespace Dquic

open Lib Nom

/-- `SpecificBits::from_pn`. -/
def PacketNumber.specificBits (pn : PacketNumber) : UInt8 := UInt8.ofNat (pn.size - 1)

/-- `seal` up to the keys. -/
def Encrypt.Packet.sealing (p : Encrypt.Packet) (bytes : Bytes) : Option Bytes := do
  p.layout bytes.length
  let pnOffset ← p.header.pnOffset
  let bytes := bytes.modifyHead (· ||| p.pn.2.specificBits)
  if p.header.isLong then do
    let length := bytes.length - pnOffset
    debugAssert (length < 16384)
    some (bytes.take (pnOffset - 2) ++ toBE 2 (0x4000 ||| length) ++ bytes.drop pnOffset)
  else some bytes

/-- What the keys may make of a packet: other bytes from the packet number on, and other protected bits. -/
def Protects (ty : PacketType) (pnOffset : Nat) (before after : Bytes) : Prop :=
  ∃ (first mask : UInt8) (head body body' : Bytes), before = first :: (head ++ body) ∧ head.length + 1 = pnOffset ∧
    body'.length = body.length ∧ after = (first ^^^ (mask &&& ty.protectedBits)) :: (head ++ body')

def DataHeader.toHeader : DataHeader → Header
  | long (.initial h) => .initial h
  | long (.zeroRtt h) => .zeroRtt h
  | long (.handshake h) => .handshake h
  | short h => .oneRtt h

/-- The connection id of a short header has the length that the reader takes. -/
def DataHeader.Knows (dcidLen : Nat) : DataHeader → Prop
  | long _ => True
  | short h => h.dcid.bytes.length = dcidLen

/-! ### Reading the header -/

lemma ofByte_protect (ty : V1Type) (bits mask : UInt8) :
    V1Type.ofByte ((PacketType.long (.v1 ty)).protect bits mask (0x80 ||| 0x40 ||| ty.toByte)).toNat = .ok ty := by
  unfold V1Type.ofByte
  rw [PacketType.protect_and (show (0x0f : UInt8).toNat &&& 0x40 = 0 by decide),
    PacketType.protect_and (show (0x0f : UInt8).toNat &&& 0x30 = 0 by decide)]
  cases ty <;> rfl

lemma parses_bePacketType_long (ty : V1Type) (bits mask : UInt8) (rest : Bytes) :
    Parses bePacketType ((PacketType.long (.v1 ty)).protect bits mask (0x80 ||| 0x40 ||| ty.toByte) :: toBE 4 1) rest
      (.long (.v1 ty)) := by
  have hform : ((PacketType.long (.v1 ty)).protect bits mask (0x80 ||| 0x40 ||| ty.toByte)).toNat &&& 0x80 ≠ 0 := by
    rw [PacketType.protect_and (show (0x0f : UInt8).toNat &&& 0x80 = 0 by decide)]
    cases ty <;> decide
  apply Parses.bind (parses_beU8 _ (toBE 4 1 ++ rest))
  rw [if_neg hform]
  have hlong : Parses (parseLongType
      ((PacketType.long (.v1 ty)).protect bits mask (0x80 ||| 0x40 ||| ty.toByte)).toNat) (toBE 4 1) rest (.v1 ty) := by
    apply Parses.bind_nil (parses_beUint (by decide) rest)
    rw [ofByte_protect]
    exact Parses.pure _ rest
  exact hlong.map (f := PacketType.long)

lemma parses_bePacketType_short (spin : Bool) (bits mask : UInt8) (rest : Bytes) :
    Parses bePacketType [(PacketType.short spin).protect bits mask (if spin then 0x40 ||| 0x20 else 0x40)] rest
      (.short spin) := by
  apply Parses.bind_nil (parses_beU8 _ rest)
  rw [PacketType.protect_and (show (0x1f : UInt8).toNat &&& 0x80 = 0 by decide),
    PacketType.protect_and (show (0x1f : UInt8).toNat &&& 0x20 = 0 by decide)]
  cases spin <;> exact Parses.pure _ rest

variable {rest bytes body after head sealed : Bytes} {dcidLen pnOffset : Nat} {header : DataHeader} {first : UInt8}
  {p : Encrypt.Packet}

lemma parses_beHeader_long {α : Type} (h : LongHeader α) {ty : V1Type} {specific : Bytes} {header : Header}
    (dcidLen : Nat) (hspecific : Parses (beLongHeader h.dcid h.scid (.v1 ty)) specific rest header) :
    Parses (beHeader (.long (.v1 ty)) dcidLen) (putConnectionId h.dcid ++ (putConnectionId h.scid ++ specific)) rest
      header :=
  (parses_beConnectionId h.dcid _).bind ((parses_beConnectionId h.scid _).bind hspecific)

/-- The bytes of a header are its type, of which the first byte may be protected, and what is read behind it. -/
lemma exists_reads (hput : header.put = some bytes) (hknows : header.Knows dcidLen) :
    ∃ (first : UInt8) (version fields : Bytes), bytes = first :: (version ++ fields) ∧
      (∀ bits mask rest, Parses bePacketType (header.packetType.protect bits mask first :: version) rest
        header.packetType) ∧ ∀ rest, Parses (beHeader header.packetType dcidLen) fields rest header.toHeader := by
  cases header with
  | short h =>
    cases hput
    refine ⟨_, [], h.dcid.bytes, rfl, fun bits mask rest => ?_, fun rest => ?_⟩
    · exact parses_bePacketType_short h.spin bits mask rest
    · have hdcid := (parses_take (ε := NomErrorKind) h.dcid.bytes rest)
      rw [show h.dcid.bytes.length = dcidLen from hknows] at hdcid
      have hone : Parses (beOneRttHeader h.spin dcidLen) h.dcid.bytes rest h := by
        apply hdcid.bind_nil
        rw [if_neg (not_lt.mpr h.dcid.len_le), ConnectionId.fromSlice_bytes]
        exact Parses.pure _ rest
      exact hone.map (f := Header.oneRtt)
  | long h =>
    cases h with
    | initial h =>
      obtain ⟨len, hlen, hput⟩ := of_bind hput
      cases hput
      have hval : len.val = h.specific.token.length := by
        unfold VarInt.fromU64 at hlen
        split at hlen
        · cases hlen
          rfl
        · cases hlen
      refine ⟨_, toBE 4 1, _, rfl, fun bits mask rest => ?_, fun rest => ?_⟩
      · exact parses_bePacketType_long .initial bits mask rest
      · have htoken := parses_lengthData hval (fun rest => parses_beVarint len rest) rest
        exact parses_beHeader_long h dcidLen ((htoken.map (f := Initial.mk)).map (f := fun i => Header.initial ⟨h.dcid, h.scid, i⟩))
    | zeroRtt h =>
      cases hput
      refine ⟨_, toBE 4 1, _, rfl, fun bits mask rest => ?_, fun rest => ?_⟩
      · exact parses_bePacketType_long .zeroRtt bits mask rest
      · exact parses_beHeader_long h dcidLen ((Parses.pure _ rest).map (f := fun z => Header.zeroRtt ⟨h.dcid, h.scid, z⟩))
    | handshake h =>
      cases hput
      refine ⟨_, toBE 4 1, _, rfl, fun bits mask rest => ?_, fun rest => ?_⟩
      · exact parses_bePacketType_long .handshake bits mask rest
      · exact parses_beHeader_long h dcidLen ((Parses.pure _ rest).map (f := fun z => Header.handshake ⟨h.dcid, h.scid, z⟩))

/-! ### Reading a packet -/

lemma parses_lengthData_two (h : body.length < 2 ^ 14) (rest : Bytes) :
    Parses lengthData (toBE 2 (0x4000 ||| body.length) ++ body) rest body := by
  let len : VarInt := ⟨body.length, h.trans (by norm_num)⟩
  have hvarint : ∀ rest, Parses (beVarint : FieldParser VarInt) (toBE 2 (1 * 2 ^ 14 ||| len.val)) rest len :=
    fun rest => parses_prefixed (p := 1) (m := 1) (by decide) (by decide) h rest
  rw [show 0x4000 = 1 * 2 ^ 14 by norm_num]
  exact parses_lengthData rfl hvarint rest

lemma bePacket_of_reads {version fields : Bytes}
    (hty : ∀ bits mask rest, Parses bePacketType (header.packetType.protect bits mask first :: version) rest
      header.packetType)
    (hheader : ∀ rest, Parses (beHeader header.packetType dcidLen) fields rest header.toHeader) (bits mask : UInt8)
    (remain : Bytes) :
    bePacket (header.packetType.protect bits mask first :: (version ++ fields) ++ remain) dcidLen =
      beBody header.packetType (header.packetType.protect bits mask first :: (version ++ fields) ++ remain) remain
        header.toHeader := by
  have htype : bePacketType (header.packetType.protect bits mask first :: (version ++ fields) ++ remain) =
      .ok (header.packetType, fields ++ remain) := by
    rw [List.cons_append, List.append_assoc]
    exact hty bits mask (fields ++ remain)
  have hfields : beHeader header.packetType dcidLen (fields ++ remain) = .ok (header.toHeader, remain) := hheader remain
  unfold bePacket
  rw [htype]
  dsimp only
  rw [hfields]

/-- A packet as it is sent: the header with its first byte protected, the length of a long packet, and the rest. -/
inductive Sent (header : DataHeader) : Bytes → Nat → Prop
  | long {first bits mask : UInt8} {front body : Bytes} : header.isLong = true →
      header.put = some (first :: front) → 20 ≤ body.length → body.length < 2 ^ 14 →
      Sent header (header.packetType.protect bits mask first :: (front ++ toBE 2 (0x4000 ||| body.length) ++ body))
        (front.length + 3)
  | short {first bits mask : UInt8} {front body : Bytes} : header.isLong = false →
      header.put = some (first :: front) → 20 ≤ body.length →
      Sent header (header.packetType.protect bits mask first :: (front ++ body)) (front.length + 1)

lemma beBody_long (h : LongDataHeader) (ty : PacketType) (datagram remain : Bytes) :
    beBody ty datagram remain (DataHeader.long h).toHeader = beDataPacket h ty datagram remain.length := by
  cases h <;> rfl

/-- The reader gives back a packet that was sent, with the offset of its packet number. A short packet is the last one. -/
lemma bePacket_of_sent (h : Sent header bytes pnOffset) (hknows : header.Knows dcidLen)
    (hlast : header.isLong = false → rest = []) :
    bePacket (bytes ++ rest) dcidLen = some (.ok (.data ⟨header, bytes, pnOffset⟩), rest) := by
  cases h with
  | @long first bits mask front body hlong hput hsample hlength =>
    obtain ⟨first', version, fields, hbytes, hty, hheader⟩ := exists_reads hput hknows
    cases hbytes
    have hlen : lengthData (toBE 2 (0x4000 ||| body.length) ++ body ++ rest) = .ok (body, rest) :=
      parses_lengthData_two hlength rest
    have hoffset : (header.packetType.protect bits mask first :: (version ++ fields) ++
        toBE 2 (0x4000 ||| body.length)).length = (version ++ fields).length + 3 := by
      rw [List.length_append, List.length_cons, length_toBE]
    have hsplit : header.packetType.protect bits mask first ::
          (version ++ fields ++ toBE 2 (0x4000 ||| body.length) ++ body) ++ rest =
        header.packetType.protect bits mask first :: (version ++ fields) ++
          (toBE 2 (0x4000 ||| body.length) ++ body ++ rest) := by
      simp only [List.cons_append, List.append_assoc]
    rw [hsplit, bePacket_of_reads hty hheader]
    cases header with
    | long h =>
      rw [beBody_long, beDataPacket, bePayload_of_ok _ hlen hsample, hoffset]
      rfl
    | short h => cases hlong
  | @short first bits mask front body hshort hput hsample =>
    obtain ⟨first', version, fields, hbytes, hty, hheader⟩ := exists_reads hput hknows
    cases hbytes
    rw [hlast hshort, List.append_nil, ← List.cons_append, bePacket_of_reads hty hheader]
    cases header with
    | long h => cases hshort
    | short h =>
      unfold DataHeader.toHeader beBody
      dsimp only
      rw [if_neg (not_lt.mpr hsample), checkedSub_append]
      rfl

/-! ### What is sealed -/

lemma specificBits_and (ty : PacketType) (pn : PacketNumber) : pn.specificBits &&& ty.protectedBits = pn.specificBits := by
  have hlong : ∀ n < 4, UInt8.ofNat n &&& 0x0f = UInt8.ofNat n := by decide
  have hshort : ∀ n < 4, UInt8.ofNat n &&& 0x1f = UInt8.ofNat n := by decide
  have hsize : pn.size - 1 < 4 := by cases pn <;> simp [PacketNumber.size]
  cases ty with
  | long ty => exact hlong _ hsize
  | short spin => exact hshort _ hsize

lemma protect_specificBits (ty : PacketType) (pn : PacketNumber) (mask first : UInt8) :
    (first ||| pn.specificBits) ^^^ (mask &&& ty.protectedBits) = ty.protect pn.specificBits mask first := by
  rw [PacketType.protect, specificBits_and]

lemma Protects.cut {ty : PacketType} (h : Protects ty pnOffset (first :: (head ++ body)) after)
    (hlen : head.length + 1 = pnOffset) :
    ∃ mask body', body'.length = body.length ∧ after = (first ^^^ (mask &&& ty.protectedBits)) :: (head ++ body') := by
  obtain ⟨first', mask, head', body₀, body', hbefore, hlen', hbody, rfl⟩ := h
  obtain ⟨rfl, hsplit⟩ := List.cons.inj hbefore
  obtain ⟨rfl, rfl⟩ := List.append_inj hsplit (by omega)
  exact ⟨mask, body', hbody, rfl⟩

lemma Encrypt.Packet.sealing_eq_some {front : Bytes} (hput : p.header.put = some (first :: front))
    (h : p.sealing (first :: (front ++ ((if p.header.isLong then [0, 0] else []) ++ rest))) = some sealed) :
    20 ≤ rest.length ∧ (p.header.isLong = true → rest.length < 2 ^ 14 ∧
      sealed = (first ||| p.pn.2.specificBits) :: (front ++ toBE 2 (0x4000 ||| rest.length) ++ rest)) ∧
    (p.header.isLong = false → sealed = (first ||| p.pn.2.specificBits) :: (front ++ rest)) := by
  obtain ⟨_, hlayout, h⟩ := of_bind h
  obtain ⟨pnOffset, hoffset, h⟩ := of_bind h
  obtain ⟨pnOffset', hoffset', hassert⟩ := of_bind hlayout
  cases hoffset.symm.trans hoffset'
  have hleast := (of_debugAssert hassert).2.2
  obtain ⟨size, hsize, hsum⟩ := of_bind hoffset
  obtain ⟨bytes, hput', hlen⟩ := DataHeader.exists_put hsize
  cases hput.symm.trans hput'
  cases hsum
  cases hlong : p.header.isLong with
  | true =>
    simp only [hlong, if_true, List.length_cons, List.length_append, List.length_nil, List.modifyHead_cons] at h hleast hlen
    obtain ⟨_, hbound, h⟩ := of_bind h
    have hrest : front.length + (2 + rest.length) + 1 - (size + 2) = rest.length := by omega
    have hbound' := of_debugAssert hbound
    rw [hrest] at hbound' h
    refine ⟨by omega, fun _ => ⟨hbound', ?_⟩, fun hno => by cases hno⟩
    cases h
    rw [← hlen, Nat.add_sub_cancel, List.take_succ_cons, List.take_left, List.cons_append, List.cons_append,
      show front.length + 1 + 2 = (front ++ [0, 0]).length + 1 by simp, List.drop_succ_cons, ← List.append_assoc front,
      List.drop_left]
  | false =>
    simp only [hlong, List.length_cons, List.length_append, List.nil_append, List.modifyHead_cons, add_zero,
      Bool.false_eq_true, if_false] at h hleast hlen
    refine ⟨by omega, fun hyes => (by cases hyes), fun _ => ?_⟩
    cases h
    rfl

lemma DataHeader.put_eq_cons (h : header.put = some bytes) : ∃ first front, bytes = first :: front := by
  cases header with
  | short h' =>
    cases h
    exact ⟨_, _, rfl⟩
  | long h' =>
    cases h' with
    | initial h' =>
      obtain ⟨len, -, h⟩ := of_bind h
      cases h
      exact ⟨_, _, rfl⟩
    | zeroRtt | handshake =>
      cases h
      exact ⟨_, _, rfl⟩

lemma sent_of_protects {payload tag : Bytes} (hhead : p.header.head p.pn.2 = some head)
    (hoffset : p.header.pnOffset = some pnOffset) (hsealed : p.sealing (head ++ payload ++ tag) = some sealed)
    (hprotects : Protects p.header.packetType pnOffset sealed after) :
    Sent p.header after pnOffset ∧ after.length = (head ++ payload ++ tag).length := by
  obtain ⟨bytes, hput, hhead⟩ := of_bind hhead
  obtain ⟨first, front, rfl⟩ := DataHeader.put_eq_cons hput
  obtain ⟨size, hsize, hsum⟩ := of_bind hoffset
  obtain ⟨bytes', hput', hlen⟩ := DataHeader.exists_put hsize
  cases hput.symm.trans hput'
  cases hhead
  cases hsum
  rw [List.length_cons] at hlen
  have hsplit : first :: front ++ ((if p.header.isLong = true then [0, 0] else []) ++ toBE p.pn.2.size p.pn.2.truncated) ++
      payload ++ tag = first :: (front ++ ((if p.header.isLong = true then [0, 0] else []) ++
        (toBE p.pn.2.size p.pn.2.truncated ++ payload ++ tag))) := by
    simp only [List.cons_append, List.append_assoc]
  rw [hsplit] at hsealed ⊢
  generalize toBE p.pn.2.size p.pn.2.truncated ++ payload ++ tag = rest at hsealed ⊢
  obtain ⟨hsample, hlong, hshort⟩ := Encrypt.Packet.sealing_eq_some hput hsealed
  cases hform : p.header.isLong with
  | true =>
    obtain ⟨hbound, rfl⟩ := hlong hform
    rw [hform, if_pos rfl] at hprotects
    have hfront : (front ++ toBE 2 (0x4000 ||| rest.length)).length + 1 = size + 2 := by
      rw [List.length_append, length_toBE]
      omega
    obtain ⟨mask, body, hbody, rfl⟩ := hprotects.cut hfront
    rw [protect_specificBits, ← hbody, ← hlen]
    refine ⟨.long hform hput (hbody ▸ hsample) (hbody ▸ hbound), ?_⟩
    simp only [List.length_cons, List.length_append, length_toBE, if_true, List.length_nil]
    omega
  | false =>
    obtain rfl := hshort hform
    rw [hform, if_neg Bool.false_ne_true] at hprotects
    obtain ⟨mask, body, hbody, rfl⟩ := hprotects.cut hlen
    rw [protect_specificBits, ← hlen]
    refine ⟨.short hform hput (hbody ▸ hsample), ?_⟩
    simp only [List.length_cons, List.length_append, Bool.false_eq_true, if_false, List.nil_append, hbody]

end Dquic
