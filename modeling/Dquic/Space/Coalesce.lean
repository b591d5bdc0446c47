import Dquic.Packet.Seal
import Dquic.Space.FullSize

/-!
# Packets in one datagram

The packets of a datagram are sealed in place, from the last one to the first.
-/

namespace Dquic

open Lib Nom PacketBuffer

/-! ### Packets begin with their header -/

/-- The packet begins with its header, and its bytes go up to its cursor. -/
structure Dumped.Headed (d : Dumped) : Prop where
  head : ∃ head payload, d.packet.header.head d.packet.pn.2 = some head ∧ d.out = head ++ payload
  length : d.out.length = d.packet.cursor
  tag : d.packet.tagLen = 16

variable {d : Dumped} {content : PacketContent} {datagramLen offset : Nat} {packets : List Dumped}

lemma Dumped.Headed.padding {d' : Dumped} (h : d.Headed) {bytesLen amount : Nat}
    (hpad : d.padding bytesLen amount = some d') : d'.Headed := by
  obtain ⟨packet, hpacket, hd'⟩ := of_bind hpad
  obtain ⟨_, -, hpacket⟩ := of_bind hpacket
  obtain ⟨head, payload, hhead, hout⟩ := h.head
  cases hd'
  have hlen := h.length
  split_ifs at hpacket with hpos
  · cases hpacket
    refine ⟨⟨head, payload ++ List.replicate amount 0, hhead, ?_⟩, ?_, h.tag⟩
    · rw [hout, List.append_assoc]
    · rw [List.length_append, List.length_replicate, hlen]
  · cases hpacket
    obtain rfl : amount = 0 := Nat.eq_zero_of_not_pos hpos
    refine ⟨⟨head, payload, hhead, ?_⟩, ?_, h.tag⟩
    · rw [hout, List.replicate_zero, List.append_nil]
    · rw [List.replicate_zero, List.append_nil, hlen]

lemma Encrypt.Packet.headed_of_assemble {header : DataHeader} {n : Nat} (hn : header.pnOffset = some n)
    {pn : Nat × PacketNumber} {credit : Nat} {frames : List (Frame Unit)} {sources : List Source}
    {a : Encrypt.Assembled}
    (ha : (Encrypt.Packet.new header pn 16).assemble datagramLen offset credit content frames sources = some a)
    {size minSize : Nat} (hpoll : a.poll = some (size, minSize)) (hpos : 0 < size) :
    a.packet.pn = pn ∧ a.out.length = a.packet.cursor ∧
      ∃ head payload, header.head pn.2 = some head ∧ a.out = head ++ payload := by
  have hoffset := Encrypt.Packet.offset_le_of_assemble ha
  rcases Encrypt.Packet.assemble_cases hn pn hoffset credit content frames sources with
    ⟨a', ha', -, hzero⟩ | ⟨result, log, b, hassemble, -, -, -, head, payload, hhead, hout, hlen⟩
  · cases ha'.symm.trans ha
    cases hzero.symm.trans hpoll
    exact absurd hpos (lt_irrefl 0)
  · rw [hassemble] at ha
    unfold Encrypt.Packet.settle at ha
    by_cases hwritten : 0 < result.written
    · rw [if_pos hwritten] at ha
      obtain ⟨⟨padding, b'⟩, hfill, ha⟩ := of_bind ha
      obtain ⟨k, -, -, hout', hnwrote, -⟩ := fillSample_eq_some hfill
      cases ha
      refine ⟨rfl, ?_, head, payload ++ List.replicate k 0, hhead, ?_⟩
      · change b'.out.length = b'.nwrote
        rw [hout', hnwrote, List.length_append, List.length_replicate, hlen]
      · change b'.out = _
        rw [hout', hout, List.append_assoc]
    · rw [if_neg hwritten] at ha
      cases ha
      exact ⟨rfl, hlen, head, payload, hhead, hout⟩

lemma Space.headed_of_pollDump {epoch : Epoch} {s : Space epoch}
    (h : s.pollDump datagramLen offset content = some (some d)) : d.Headed := by
  obtain ⟨header, pn, a, size, minSize, hbegins, ha, hpoll, hpos, hpad⟩ := pollDump_eq_some h
  obtain ⟨-, n, hn⟩ := s.proper header pn (packet_of_begins hbegins).1
  have hfits := Encrypt.Packet.fits_of_assemble hn (Encrypt.Packet.offset_le_of_assemble ha) ha
  obtain ⟨hpn, hlen, hhead⟩ := Encrypt.Packet.headed_of_assemble hn ha hpoll hpos
  have hd : (⟨epoch, offset, a, a.packet, size, a.out, a.log⟩ : Dumped).Headed := by
    refine ⟨?_, hlen, hfits.tag⟩
    rw [hfits.header, hpn]
    exact hhead
  unfold pad at hpad
  split_ifs at hpad
  · exact hd.padding hpad
  · cases hpad
    exact hd

namespace Spaces

variable {spaces : Spaces} {datagramLen : Nat} {content : PacketContent} {epochs : List Epoch} {offset n : Nat}
  {minSize : Option Nat} {packets : List Dumped}

lemma Dumps.headed (h : Dumps spaces datagramLen content epochs offset minSize n packets) : ∀ d ∈ packets, d.Headed := by
  induction h with
  | nil => exact fun d hd => absurd hd List.not_mem_nil
  | absent _ _ ih => exact ih
  | silent _ _ _ ih => exact ih
  | packet _ hpoll _ hpad _ _ ih =>
    intro e he
    rcases List.mem_cons.mp he with rfl | he
    · have hd := Space.headed_of_pollDump hpoll
      unfold Dumped.padLast at hpad
      split_ifs at hpad
      · exact hd.padding hpad
      · cases hpad
        exact hd
    · exact ih e he

lemma Dumps.layout (h : Dumps spaces datagramLen content epochs offset minSize n packets) :
    ∀ d ∈ packets, d.packet.layout d.size = some () := by
  induction h with
  | nil => exact fun d hd => absurd hd List.not_mem_nil
  | absent _ _ ih => exact ih
  | silent _ _ _ ih => exact ih
  | packet _ _ _ _ _ hlayout ih =>
    intro e he
    rcases List.mem_cons.mp he with rfl | he
    · exact hlayout
    · exact ih e he

lemma Dumps.exists_sealing (h : Dumps spaces datagramLen content epochs offset minSize n packets) (hd : d ∈ packets)
    (hshort : d.size < 2 ^ 14) {tag : Bytes} (htag : tag.length = 16) :
    ∃ sealed, d.packet.sealing (d.out ++ tag) = some sealed := by
  have hheaded := h.headed d hd
  have hlayout := h.layout d hd
  obtain ⟨pnOffset, hoffset, hassert⟩ := of_bind hlayout
  obtain ⟨hframes, hsize, hleast⟩ := of_debugAssert hassert
  have hlen : (d.out ++ tag).length = d.size := by
    rw [hsize, Encrypt.Packet.len, if_neg (Nat.ne_of_gt hframes), List.length_append, hheaded.length, htag, hheaded.tag]
  have hbound : (d.out ++ tag).length - pnOffset < 16384 := by
    norm_num at hshort
    omega
  unfold Encrypt.Packet.sealing
  rw [hlen, hlayout, hoffset]
  simp only [some_bind, List.length_modifyHead, debugAssert_of hbound]
  split_ifs
  · exact ⟨_, rfl⟩
  · exact ⟨_, rfl⟩

lemma Dumps.long_first (h : Dumps spaces datagramLen content epochs offset minSize n packets)
    (hepochs : epochs.IsSuffix Epoch.all) : packets.Pairwise fun d _ => d.packet.header.isLong = true := by
  obtain ⟨-, -, hsub, hall⟩ := h.laid
  have horder : Epoch.all.Pairwise fun epoch _ => epoch ≠ .data := by decide
  have hpairs := horder.sublist (hsub.trans hepochs.sublist)
  rw [List.pairwise_map] at hpairs
  refine hpairs.imp_of_mem fun {d _} hd _ hdata => ?_
  have hheader := (hall d hd).1
  cases hh : d.packet.header with
  | long h => rfl
  | short h =>
    rw [hh] at hheader
    exact absurd hheader.symm hdata

end Spaces

/-! ### The datagram that is sent -/

/-- What becomes of a packet: it is sealed with any bytes in the place of its tag, and protected. -/
def Dumped.Wire (d : Dumped) (bytes : Bytes) : Prop :=
  ∃ tag sealed pnOffset, tag.length = 16 ∧ d.packet.sealing (d.out ++ tag) = some sealed ∧
    d.packet.header.pnOffset = some pnOffset ∧ Protects d.packet.header.packetType pnOffset sealed bytes

/-- The bytes of the packet in a datagram whose packets start at `offset`. -/
def Dumped.slice (d : Dumped) (offset : Nat) (wire : Bytes) : Bytes := (wire.drop (d.offset - offset)).take d.size

/-- The packet as it is read, with the offset of its packet number. -/
def Dumped.read (d : Dumped) (bytes : Bytes) : Except PacketError Packet :=
  .ok (.data ⟨d.packet.header, bytes, d.packet.header.pnOffset.getD 0⟩)

lemma Contiguous.offset_le (h : Contiguous offset packets) (hd : d ∈ packets) : offset ≤ d.offset := by
  induction packets generalizing offset with
  | nil => cases hd
  | cons e rest ih =>
    rcases List.mem_cons.mp hd with rfl | hd
    · exact h.1.ge
    · exact (Nat.le_add_right _ _).trans (ih h.2 hd)

lemma Contiguous.end_le (h : Contiguous offset packets) (hd : d ∈ packets) :
    d.offset + d.size ≤ offset + (packets.map Dumped.size).sum := by
  induction packets generalizing offset with
  | nil => cases hd
  | cons e rest ih =>
    rw [List.map_cons, List.sum_cons]
    rcases List.mem_cons.mp hd with rfl | hd
    · rw [h.1]
      omega
    · have hle := ih h.2 hd
      omega

lemma packets_of_sent {dcidLen : Nat} {wire : Bytes} (hcontiguous : Contiguous offset packets)
    (hlen : wire.length = (packets.map Dumped.size).sum)
    (hlong : packets.Pairwise fun d _ => d.packet.header.isLong = true)
    (hsent : ∀ d ∈ packets, 0 < d.size ∧ d.packet.header.Knows dcidLen ∧
      ∃ pnOffset, d.packet.header.pnOffset = some pnOffset ∧ Sent d.packet.header (d.slice offset wire) pnOffset)
    (fuel : Nat) (hfuel : wire.length < fuel) :
    PacketReader.packets fuel ⟨wire, dcidLen⟩ = some (packets.map fun d => d.read (d.slice offset wire)) := by
  induction packets generalizing offset wire fuel with
  | nil =>
    obtain rfl := List.eq_nil_of_length_eq_zero hlen
    cases fuel with
    | zero => cases hfuel
    | succ fuel => rfl
  | cons d rest ih =>
    obtain ⟨hoffset, hrest⟩ := hcontiguous
    obtain ⟨hfirst, hmore⟩ := List.pairwise_cons.mp hlong
    obtain ⟨hpos, hknows, pnOffset, hpn, hsealed⟩ := hsent d List.mem_cons_self
    rw [List.map_cons, List.sum_cons] at hlen
    have hslice : d.slice offset wire = wire.take d.size := by
      rw [Dumped.slice, hoffset, Nat.sub_self, List.drop_zero]
    -- the slices behind the first packet, seen from its end
    have htail : ∀ e ∈ rest, e.slice offset wire = e.slice (offset + d.size) (wire.drop d.size) := by
      intro e he
      have hle := hrest.offset_le he
      rw [Dumped.slice, Dumped.slice, List.drop_drop]
      congr 2
      omega
    have hlast : d.packet.header.isLong = false → wire.drop d.size = [] := by
      intro hshort
      apply List.drop_eq_nil_of_le
      cases rest with
      | nil =>
        rw [List.map_nil, List.sum_nil] at hlen
        omega
      | cons e rest => cases hshort.symm.trans (hfirst e List.mem_cons_self)
    rw [hslice] at hsealed
    have hread := bePacket_of_sent hsealed hknows hlast
    rw [List.take_append_drop] at hread
    have hnext : PacketReader.next ⟨wire, dcidLen⟩ =
        some (some (.ok (.data ⟨d.packet.header, wire.take d.size, pnOffset⟩)), ⟨wire.drop d.size, dcidLen⟩) := by
      have hne : wire ≠ [] := by
        rintro rfl
        simp only [List.length_nil] at hlen
        omega
      unfold PacketReader.next
      rw [if_neg hne, hread]
      rfl
    cases fuel with
    | zero => cases hfuel
    | succ fuel =>
      have hdrop : (wire.drop d.size).length = wire.length - d.size := List.length_drop
      have hitems := @ih (offset + d.size) (wire.drop d.size) hrest (by omega) hmore
        (fun e he => htail e he ▸ hsent e (List.mem_cons_of_mem _ he)) fuel (by omega)
      have hmap : (rest.map fun e => e.read (e.slice offset wire)) =
          rest.map fun e => e.read (e.slice (offset + d.size) (wire.drop d.size)) :=
        List.map_congr_left fun e he => by rw [htail e he]
      rw [PacketReader.packets, hnext, some_bind]
      dsimp only
      rw [hitems, List.map_cons, hmap, hslice, Dumped.read, hpn]
      rfl

/-- Every packet of a datagram can be sealed if its length can be written. However the packets are sealed and protected,
the datagram is read as the packets that were assembled, in their order: the same headers and bytes, each with the offset
of its packet number, and nothing else. -/
theorem coalesced_packets_split {spaces : Spaces} {datagramLen offset n dcidLen : Nat} {content : PacketContent}
    {epochs : List Epoch} {minSize : Option Nat} {packets : List Dumped} {wire : Bytes}
    (hepochs : epochs.IsSuffix Epoch.all)
    (hpoll : spaces.pollDumpAt datagramLen content epochs offset minSize = some (n, packets)) (hlen : wire.length = n)
    (hwire : ∀ d ∈ packets, d.Wire (d.slice offset wire)) (hdcid : ∀ d ∈ packets, d.packet.header.Knows dcidLen) :
    (∀ d ∈ packets, d.size < 2 ^ 14 → ∀ tag : Bytes, tag.length = 16 →
      ∃ sealed, d.packet.sealing (d.out ++ tag) = some sealed) ∧
    (∀ d ∈ packets, (d.slice offset wire).length = d.size ∧ ∃ pnOffset, d.packet.header.pnOffset = some pnOffset) ∧
    ∀ fuel, n < fuel →
      PacketReader.packets fuel ⟨wire, dcidLen⟩ = some (packets.map fun d => d.read (d.slice offset wire)) := by
  have hdumps := Spaces.dumps_of_pollDumpAt hpoll
  obtain ⟨hsum, hcontiguous, -, hall⟩ := hdumps.laid
  refine ⟨fun d hd hshort tag htag => hdumps.exists_sealing hd hshort htag, fun d hd => ⟨?_, ?_⟩, fun fuel hfuel => ?_⟩
  · have hstart := hcontiguous.offset_le hd
    have hend := hcontiguous.end_le hd
    rw [Dumped.slice, List.length_take, List.length_drop]
    omega
  · obtain ⟨_, _, pnOffset, -, -, hpn, -⟩ := hwire d hd
    exact ⟨pnOffset, hpn⟩
  · refine packets_of_sent hcontiguous (hlen.trans hsum) (hdumps.long_first hepochs) (fun d hd => ?_) fuel (hlen ▸ hfuel)
    obtain ⟨tag, sealed, pnOffset, -, hsealed, hpn, hprotects⟩ := hwire d hd
    obtain ⟨head, payload, hhead, hout⟩ := (hdumps.headed d hd).head
    rw [hout] at hsealed
    exact ⟨(hall d hd).2, hdcid d hd, pnOffset, hpn, (sent_of_protects hhead hpn hsealed hprotects).1⟩

lemma nil_length_le : ([] : Bytes).length ≤ maxCidSize := Nat.zero_le _

/-- A handshake space with a PING, without connection ids. -/
def handshakePing : Space .handshake where
  hasCapacity := true
  quota := 1200
  packet := some (.long (.handshake ⟨⟨[], nil_length_le⟩, ⟨[], nil_length_le⟩, ⟨⟩⟩), 0, .u16 0)
  sources := [(Frame.ping).source trivial]
  proper header pn h := by
    cases h
    exact ⟨rfl, 9, rfl⟩

/-- A data space with a PING, without connection ids. -/
def dataPing : Space .data where
  hasCapacity := true
  quota := 1200
  packet := some (.short ⟨false, ⟨[], nil_length_le⟩⟩, 0, .u16 0)
  sources := [(Frame.ping).source trivial]
  proper header pn h := by
    cases h
    exact ⟨rfl, 1, rfl⟩

/-- The two packets of 29 and 21 bytes, with other protected bits and other bytes behind their headers. -/
theorem coalesced_packets_split_pings : ∃ packets wire,
    (Spaces.of none (some handshakePing) (some dataPing)).pollDumpAt 1200 .effectivePayload Epoch.all 0 none =
      some (50, packets) ∧
    packets.map Dumped.size = [29, 21] ∧
    PacketReader.packets 51 ⟨wire, 0⟩ = some (packets.map fun d => d.read (d.slice 0 wire)) := by
  let wire : Bytes := [0xee, 0, 0, 0, 1, 0, 0, 0x40, 20] ++ List.replicate 20 7 ++ 0x5f :: List.replicate 20 9
  have hpoll : ∃ d₁ d₂, (Spaces.of none (some handshakePing) (some dataPing)).pollDumpAt 1200 .effectivePayload Epoch.all
        0 none = some (50, [d₁, d₂]) ∧
      d₁.size = 29 ∧ d₂.size = 21 ∧ d₁.Wire (d₁.slice 0 wire) ∧ d₂.Wire (d₂.slice 0 wire) ∧
      d₁.packet.header.Knows 0 ∧ d₂.packet.header.Knows 0 := by
    refine ⟨_, _, rfl, rfl, rfl, ?_, ?_, trivial, rfl⟩
    · exact ⟨List.replicate 16 0, _, 9, rfl, rfl, rfl,
        0xe1, 0x0f, [0, 0, 0, 1, 0, 0, 0x40, 20], _, List.replicate 20 7, rfl, rfl, rfl, rfl⟩
    · exact ⟨List.replicate 16 0, _, 1, rfl, rfl, rfl, 0x41, 0x1e, [], _, List.replicate 20 9, rfl, rfl, rfl, rfl⟩
  obtain ⟨d₁, d₂, hpoll, hsize₁, hsize₂, hwire₁, hwire₂, hknows₁, hknows₂⟩ := hpoll
  have hwire : ∀ d ∈ [d₁, d₂], d.Wire (d.slice 0 wire) := by
    rintro d (_ | ⟨_, _ | ⟨_, hd⟩⟩)
    · exact hwire₁
    · exact hwire₂
    · cases hd
  have hknows : ∀ d ∈ [d₁, d₂], d.packet.header.Knows 0 := by
    rintro d (_ | ⟨_, _ | ⟨_, hd⟩⟩)
    · exact hknows₁
    · exact hknows₂
    · cases hd
  have hsplit := coalesced_packets_split List.suffix_rfl hpoll (show wire.length = 50 from rfl) hwire hknows
  exact ⟨[d₁, d₂], wire, hpoll, by rw [List.map_cons, List.map_cons, hsize₁, hsize₂]; rfl, hsplit.2.2 51 (by decide)⟩

end Dquic
