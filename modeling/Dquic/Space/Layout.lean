import Dquic.Space.Assemble

/-!
# Packets that can be sealed

The paddings of the data space and of the datagram stay behind the packets and inside the
datagram, so that every packet has the layout that `seal` asserts.
-/

namespace Dquic

open Lib

/-- The packet has its layout inside the bytes that remain, and was inside its quota when it was assembled. -/
structure Dumped.Sealable (d : Dumped) (quota bytesLen : Nat) : Prop where
  header : d.packet.header.epoch = d.epoch
  size : d.size = d.packet.len
  frames : 0 < d.packet.info.nframes
  sample : ∃ n, d.packet.header.pnOffset = some n ∧ n + 20 ≤ d.size
  total : d.size ≤ bytesLen
  credit : d.assembled.packet.info.inFlight = true → d.assembled.packet.len ≤ quota

namespace Dumped.Sealable

variable {d : Dumped} {quota bytesLen : Nat}

lemma padding (h : d.Sealable quota bytesLen) {amount : Nat} (hroom : d.size + amount ≤ bytesLen) :
    ∃ d', d.padding bytesLen amount = some d' ∧ d'.Sealable quota bytesLen ∧ d'.size = d.size + amount ∧
      d'.epoch = d.epoch ∧ d'.offset = d.offset := by
  obtain ⟨n, hn, hsample⟩ := h.sample
  have hlen : d.packet.len = d.packet.cursor + d.packet.tagLen := if_neg (Nat.ne_of_gt h.frames)
  unfold Dumped.padding Encrypt.Packet.padding
  rw [debugAssert_of (h.size ▸ hroom)]
  simp only [some_bind]
  by_cases hamount : 0 < amount
  · rw [if_pos hamount]
    refine ⟨_, rfl, ⟨h.header, ?_, Nat.succ_pos _, ⟨n, hn, hsample.trans (Nat.le_add_right _ _)⟩, hroom, h.credit⟩, rfl, rfl, rfl⟩
    change d.size + amount = d.packet.cursor + amount + d.packet.tagLen
    rw [h.size, hlen]
    omega
  · obtain rfl : amount = 0 := Nat.eq_zero_of_not_pos hamount
    rw [if_neg hamount]
    exact ⟨_, rfl, ⟨h.header, h.size, h.frames, ⟨n, hn, hsample⟩, hroom, h.credit⟩, rfl, rfl, rfl⟩

lemma padLast (h : d.Sealable quota bytesLen) {n amount : Nat} (hroom : d.size + amount ≤ bytesLen)
    (hn : d.size + n ≤ bytesLen) :
    ∃ d', d.padLast n bytesLen amount = some d' ∧ d'.Sealable quota bytesLen ∧ d'.epoch = d.epoch ∧ d'.offset = d.offset ∧
      d'.size + n ≤ bytesLen := by
  unfold Dumped.padLast
  split_ifs with hzero
  · obtain ⟨d', hpad, hd', hsize, hepoch, hoffset⟩ := h.padding hroom
    exact ⟨d', hpad, hd', hepoch, hoffset, by omega⟩
  · exact ⟨d, rfl, h, rfl, rfl, hn⟩

lemma layout (h : d.Sealable quota bytesLen) : d.packet.layout d.size = some () := by
  obtain ⟨n, hn, hsample⟩ := h.sample
  unfold Encrypt.Packet.layout
  rw [hn]
  exact debugAssert_of ⟨h.frames, h.size, by omega⟩

end Dumped.Sealable

/-- The sources do not leave a short packet with a closed window. -/
def Start.Open (start : Start) (datagramLen : Nat) (content : PacketContent) : Prop :=
  ∀ p ∈ start.space.begins datagramLen,
    (Encrypt.Packet.new p.1 p.2 16).Open datagramLen start.offset start.space.quota content [] start.space.sources

instance (start : Start) (datagramLen : Nat) (content : PacketContent) : Decidable (start.Open datagramLen content) :=
  inferInstanceAs (Decidable (∀ p ∈ start.space.begins datagramLen, _))

/-- The assembly of the packet panics. -/
def Start.Panics (start : Start) (datagramLen : Nat) (content : PacketContent) : Prop :=
  ∃ p ∈ start.space.begins datagramLen, (Encrypt.Packet.new p.1 p.2 16).assemble datagramLen start.offset
    start.space.quota content [] start.space.sources = none

namespace Space

variable {epoch : Epoch} {s : Space epoch} {datagramLen offset : Nat}

lemma pad_sealable {d : Dumped} {quota minSize : Nat} (h : d.Sealable quota (datagramLen - d.offset))
    (hmin : minSize ≤ datagramLen - d.offset) :
    ∃ d', pad datagramLen d minSize = some d' ∧ d'.Sealable quota (datagramLen - d.offset) ∧ d'.epoch = d.epoch ∧
      d'.offset = d.offset := by
  unfold pad
  split_ifs with hdata
  · have htotal := h.total
    have hroom : d.size + (minSize - d.size) ≤ datagramLen - d.offset := by omega
    obtain ⟨d', hpad, hd', -, hepoch, hoffset⟩ := h.padding hroom
    exact ⟨d', hpad, hd', hepoch, hoffset⟩
  · exact ⟨d, rfl, h, rfl, rfl⟩

/-- A space leaves nothing, or a packet that can be sealed, unless the assembly of its packet panics. -/
theorem pollDump_cases (need : Option Nat) (content : PacketContent) (hoffset : offset ≤ datagramLen) :
    (s.pollDump datagramLen offset content = none ∧ (⟨epoch, s, offset, need⟩ : Start).Panics datagramLen content) ∨
    s.pollDump datagramLen offset content = some none ∨
    ∃ d, s.pollDump datagramLen offset content = some (some d) ∧ d.Sealable s.quota (datagramLen - offset) ∧
      d.epoch = epoch ∧ d.offset = offset ∧ s.begins datagramLen ≠ none := by
  unfold pollDump
  cases hbegins : s.begins datagramLen with
  | none => exact Or.inr (Or.inl rfl)
  | some p =>
    obtain ⟨header, pn⟩ := p
    obtain ⟨hpacket, -⟩ := packet_of_begins hbegins
    obtain ⟨hepoch, n, hn⟩ := s.proper header pn hpacket
    cases ha : (Encrypt.Packet.new header pn 16).assemble datagramLen offset s.quota content [] s.sources with
    | none => exact Or.inl ⟨by simp only [ha, Option.bind_eq_bind, Option.bind_none], (header, pn), hbegins, ha⟩
    | some a =>
      right
      have hfits := Encrypt.Packet.fits_of_assemble hn hoffset ha
      simp only [ha, some_bind]
      cases hpoll : a.poll with
      | none => exact Or.inl rfl
      | some r =>
        obtain ⟨size, minSize⟩ := r
        dsimp only
        split_ifs with hzero
        · exact Or.inl rfl
        · obtain ⟨hsize, hframes, hsample, hleast⟩ := hfits.ready size minSize hpoll (Nat.pos_of_ne_zero hzero)
          have hd : (⟨epoch, offset, a, a.packet, size, a.out, a.log⟩ : Dumped).Sealable s.quota (datagramLen - offset) :=
            ⟨hfits.header ▸ hepoch, hsize, hframes, ⟨n, hfits.header ▸ hn, hsample⟩, hsize ▸ hfits.total, hfits.credit⟩
          obtain ⟨d, hpad, hd', hepoch, hoff⟩ := pad_sealable hd hleast
          rw [hpad]
          exact Or.inr ⟨d, rfl, hd', hepoch, hoff, Option.some_ne_none _⟩

lemma sealable_of_pollDump {d : Dumped} {content : PacketContent} (hoffset : offset ≤ datagramLen)
    (h : s.pollDump datagramLen offset content = some (some d)) :
    d.Sealable s.quota (datagramLen - offset) ∧ d.epoch = epoch ∧ d.offset = offset ∧ s.begins datagramLen ≠ none := by
  rcases pollDump_cases (s := s) none content hoffset with ⟨hnone, -⟩ | hnone | ⟨d', hd', hall⟩
  · cases hnone.symm.trans h
  · cases hnone.symm.trans h
  · cases hd'.symm.trans h
    exact hall

end Space

lemma adjustMinSize_fits {minSize : Option Nat} {epoch : Epoch} {pktlen offset datagramLen : Nat}
    (hmin : offset + minSize.getD 0 ≤ datagramLen) (hlen : offset + pktlen ≤ datagramLen)
    (hinitial : epoch = .initial → 0 < pktlen → offset + 1200 ≤ datagramLen) :
    offset + pktlen + (adjustMinSize minSize epoch pktlen).getD 0 ≤ datagramLen := by
  unfold adjustMinSize
  split_ifs with h
  · have := hinitial h.1 h.2
    simp only [Option.map_some, Option.getD_some]
    omega
  · cases minSize with
    | none =>
      simp only [Option.map_none, Option.getD_none]
      omega
    | some size =>
      simp only [Option.map_some, Option.getD_some] at hmin ⊢
      omega

namespace Spaces

/-- A datagram with an Initial packet can reach 1200 bytes from where the packet starts. -/
def InitialFits (spaces : Spaces) (datagramLen offset : Nat) : Prop :=
  ∀ space, spaces .initial = some space → space.begins datagramLen ≠ none → offset + 1200 ≤ datagramLen

variable {spaces : Spaces} {datagramLen : Nat} {content : PacketContent}

/-- Every packet can be sealed, from any space on. Only the first space may be the initial one. -/
theorem pollDumpAt_sealable {epochs : List Epoch} {offset : Nat} {minSize : Option Nat} (hoffset : offset ≤ datagramLen)
    (hmin : offset + minSize.getD 0 ≤ datagramLen) (hfirst : Epoch.initial ∉ epochs.tail)
    (hroom : Epoch.initial ∈ epochs → spaces.InitialFits datagramLen offset)
    (hopen : ∀ start ∈ spaces.starts datagramLen content epochs offset minSize,
      start.offset ≤ datagramLen → ¬ start.Panics datagramLen content) :
    ∃ n packets, spaces.pollDumpAt datagramLen content epochs offset minSize = some (n, packets) ∧
      offset + n ≤ datagramLen ∧ (packets ≠ [] → 0 < n) ∧
      ∀ d ∈ packets, offset ≤ d.offset ∧ ∃ space, spaces d.epoch = some space ∧
        d.Sealable space.quota (datagramLen - d.offset) := by
  induction epochs generalizing offset minSize with
  | nil => exact ⟨0, [], rfl, hoffset, fun h => absurd rfl h, fun d hd => absurd hd List.not_mem_nil⟩
  | cons epoch rest ih =>
    have hrest : Epoch.initial ∉ rest.tail := fun h => hfirst (List.mem_of_mem_tail h)
    have hnone : ∀ o : Nat, Epoch.initial ∈ rest → spaces.InitialFits datagramLen o := fun o h => absurd h hfirst
    unfold pollDumpAt
    unfold starts at hopen
    cases hspace : spaces epoch with
    | none =>
      rw [hspace] at hopen
      exact ih hoffset hmin hrest (hnone offset) hopen
    | some space =>
      rw [hspace] at hopen
      rcases Space.pollDump_cases (s := space) minSize content hoffset with
        ⟨-, hpanics⟩ | hpoll | ⟨d, hpoll, hd, hepoch, hoff, hbegins⟩
      · exact absurd hpanics (hopen _ List.mem_cons_self hoffset)
      · simp only [hpoll, some_bind] at hopen ⊢
        have hmin' : offset + (adjustMinSize minSize epoch 0).getD 0 ≤ datagramLen :=
          adjustMinSize_fits hmin hoffset fun _ h => absurd h (lt_irrefl 0)
        exact ih hoffset hmin' hrest (hnone offset) fun start hs => hopen start (List.mem_cons_of_mem _ hs)
      · simp only [hpoll, some_bind] at hopen ⊢
        have htotal := hd.total
        have hend : offset + d.size ≤ datagramLen := by omega
        have hmin' : offset + d.size + (adjustMinSize minSize epoch d.size).getD 0 ≤ datagramLen := by
          apply adjustMinSize_fits hmin hend
          rintro rfl _
          exact hroom List.mem_cons_self space hspace hbegins
        obtain ⟨n, packets, hmore, hn, hpos, hall⟩ := ih hend hmin' hrest (hnone _)
          fun start hs => hopen start (List.mem_cons_of_mem _ hs)
        have hrem : d.size + (adjustMinSize minSize epoch d.size).getD 0 ≤ datagramLen - offset := by omega
        obtain ⟨d', hlast, hd', hepoch', hoff', hsum⟩ := hd.padLast hrem (n := n) (by omega)
        obtain ⟨m, hm, hsample⟩ := hd'.sample
        have hend' : offset + d'.size ≤ datagramLen := by omega
        simp only [hmore, some_bind, hlast, debugAssert_of hend', hd'.layout]
        refine ⟨d'.size + n, d' :: packets, rfl, by omega, fun _ => by omega, ?_⟩
        intro e he
        cases List.mem_cons.mp he with
        | inl he =>
          rw [he, hoff', hepoch', hoff, hepoch]
          exact ⟨le_rfl, space, hspace, hd'⟩
        | inr he =>
          obtain ⟨hle, hsealable⟩ := hall e he
          exact ⟨by omega, hsealable⟩

lemma initialFits_zero (spaces : Spaces) (datagramLen : Nat) : spaces.InitialFits datagramLen 0 := by
  intro space _ hbegins
  obtain ⟨p, hp⟩ := Option.ne_none_iff_exists'.mp hbegins
  have hlong := (Space.packet_of_begins hp).2 rfl
  omega

end Spaces

end Dquic
