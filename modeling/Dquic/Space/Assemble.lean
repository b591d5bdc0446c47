import Dquic.Packet.Encrypt

/-!
# Assembling a datagram

`poll_dump` of `qtransport/src/space.rs` and `space/data.rs`, and `Spaces::poll_dump_at` of
`space/assemble.rs`: the spaces are polled in order, each behind the packet before it, and the
last packet is padded to what the datagram still needs.
-/

namespace Dquic

open Lib

inductive Epoch
  | initial
  | handshake
  | data
  deriving DecidableEq, Repr

/-- `EPOCHS`. -/
def Epoch.all : List Epoch := [initial, handshake, data]

lemma Epoch.mem_all (epoch : Epoch) : epoch ∈ Epoch.all := by cases epoch <;> decide

def DataHeader.epoch : DataHeader → Epoch
  | long (.initial _) => .initial
  | long (.handshake _) => .handshake
  | long (.zeroRtt _) => .data
  | short _ => .data

/-- What a space has when it is polled: whether its journal can take a packet, the quota that it reads, the header and
number of its next packet if it has keys, and the sources. -/
structure Space (epoch : Epoch) where
  hasCapacity : Bool
  quota : Nat
  packet : Option (DataHeader × (Nat × PacketNumber))
  sources : List Source
  proper : ∀ header pn, packet = some (header, pn) → header.epoch = epoch ∧ ∃ n, header.pnOffset = some n

/-- A packet that waits to be sealed: where it starts, what `assemble` returned, and what it is now. -/
structure Dumped where
  epoch : Epoch
  offset : Nat
  assembled : Encrypt.Assembled
  packet : Encrypt.Packet
  size : Nat
  out : Bytes
  log : List (Frame Bytes)

def Dumped.padding (d : Dumped) (bytesLen amount : Nat) : Option Dumped := do
  let packet ← d.packet.padding bytesLen amount
  some { d with
    packet := packet, size := d.size + amount, out := d.out ++ List.replicate amount 0
    log := d.log ++ List.replicate amount .padding }

def Dumped.padLast (d : Dumped) (n bytesLen need : Nat) : Option Dumped :=
  if n = 0 then d.padding bytesLen need else some d

namespace Space

variable {epoch : Epoch}

/-- The packet that the space begins. Initial packets need a datagram and a quota of 1200 bytes. -/
def begins (s : Space epoch) (datagramLen : Nat) : Option (DataHeader × (Nat × PacketNumber)) :=
  if s.hasCapacity = false ∨ epoch = .initial ∧ (datagramLen < 1200 ∨ s.quota < 1200) then none else s.packet

variable {datagramLen : Nat} {s : Space epoch}

lemma packet_of_begins {header : DataHeader} {pn : Nat × PacketNumber} (h : s.begins datagramLen = some (header, pn)) :
    s.packet = some (header, pn) ∧ (epoch = .initial → 1200 ≤ datagramLen ∧ 1200 ≤ s.quota) := by
  unfold begins at h
  split at h
  · cases h
  · rename_i hno
    push Not at hno
    exact ⟨h, fun he => hno.2 he⟩

/-- Only the data space pads to the least size of the packet. -/
def pad (datagramLen : Nat) (d : Dumped) (minSize : Nat) : Option Dumped :=
  if d.epoch = .data then d.padding (datagramLen - d.offset) (minSize - d.size) else some d

def pollDump (s : Space epoch) (datagramLen offset : Nat) (content : PacketContent) : Option (Option Dumped) :=
  match s.begins datagramLen with
  | none => some none
  | some (header, pn) => do
    let a ← (Encrypt.Packet.new header pn 16).assemble datagramLen offset s.quota content [] s.sources
    match a.poll with
    | none => some none
    | some (size, minSize) =>
      if size = 0 then some none
      else do
        let d ← pad datagramLen ⟨epoch, offset, a, a.packet, size, a.out, a.log⟩ minSize
        some (some d)

lemma pollDump_eq_some {offset : Nat} {content : PacketContent} {d : Dumped}
    (h : s.pollDump datagramLen offset content = some (some d)) : ∃ header pn a size minSize,
      s.begins datagramLen = some (header, pn) ∧
      (Encrypt.Packet.new header pn 16).assemble datagramLen offset s.quota content [] s.sources = some a ∧
      a.poll = some (size, minSize) ∧ 0 < size ∧
      pad datagramLen ⟨epoch, offset, a, a.packet, size, a.out, a.log⟩ minSize = some d := by
  unfold pollDump at h
  cases hbegins : s.begins datagramLen with
  | none =>
    rw [hbegins] at h
    cases h
  | some p =>
    obtain ⟨header, pn⟩ := p
    rw [hbegins] at h
    obtain ⟨a, ha, h⟩ := of_bind h
    cases hpoll : a.poll with
    | none =>
      rw [hpoll] at h
      cases h
    | some r =>
      obtain ⟨size, minSize⟩ := r
      rw [hpoll] at h
      dsimp only at h
      split_ifs at h with hzero
      · cases h
      · obtain ⟨d', hpad, hd'⟩ := of_bind h
        cases hd'
        exact ⟨header, pn, a, size, minSize, rfl, ha, hpoll, Nat.pos_of_ne_zero hzero, hpad⟩

end Space

/-- What the datagram still needs behind a packet of this length. -/
def adjustMinSize (minSize : Option Nat) (epoch : Epoch) (pktlen : Nat) : Option Nat :=
  (if epoch = .initial ∧ 0 < pktlen then some 1200 else minSize).map fun size => size - pktlen

abbrev Spaces := (epoch : Epoch) → Option (Space epoch)

namespace Spaces

def of (i : Option (Space .initial)) (h : Option (Space .handshake)) (d : Option (Space .data)) : Spaces
  | .initial => i
  | .handshake => h
  | .data => d

variable (spaces : Spaces) (datagramLen : Nat) (content : PacketContent)

/-- The packets of the datagram from `offset` on, and their length. -/
def pollDumpAt : List Epoch → Nat → Option Nat → Option (Nat × List Dumped)
  | [], _, _ => some (0, [])
  | epoch :: rest, offset, minSize =>
    match spaces epoch with
    | none => pollDumpAt rest offset minSize
    | some space => do
      match ← space.pollDump datagramLen offset content with
      | none => pollDumpAt rest offset (adjustMinSize minSize epoch 0)
      | some d => do
        let minSize := adjustMinSize minSize epoch d.size
        let (n, packets) ← pollDumpAt rest (offset + d.size) minSize
        let d ← d.padLast n (datagramLen - offset) (minSize.getD 0)
        debugAssert (offset + d.size ≤ datagramLen)
        d.packet.layout d.size
        some (d.size + n, d :: packets)

def pollDump (offset : Nat) : Option (Nat × List Dumped) := pollDumpAt spaces datagramLen content Epoch.all offset none

variable {spaces datagramLen content}

variable (spaces datagramLen content) in
/-- How the packets of a datagram come about: a space is not installed, leaves nothing, or leaves a packet, which is
padded if none follows. -/
inductive Dumps : List Epoch → Nat → Option Nat → Nat → List Dumped → Prop
  | nil {offset : Nat} {minSize : Option Nat} : Dumps [] offset minSize 0 []
  | absent {epoch : Epoch} {rest : List Epoch} {offset n : Nat} {minSize : Option Nat} {packets : List Dumped} :
      spaces epoch = none → Dumps rest offset minSize n packets → Dumps (epoch :: rest) offset minSize n packets
  | silent {epoch : Epoch} {rest : List Epoch} {offset n : Nat} {minSize : Option Nat} {packets : List Dumped}
      {space : Space epoch} : spaces epoch = some space → space.pollDump datagramLen offset content = some none →
      Dumps rest offset (adjustMinSize minSize epoch 0) n packets → Dumps (epoch :: rest) offset minSize n packets
  | packet {epoch : Epoch} {rest : List Epoch} {offset n : Nat} {minSize : Option Nat} {packets : List Dumped}
      {space : Space epoch} {d d' : Dumped} : spaces epoch = some space →
      space.pollDump datagramLen offset content = some (some d) →
      Dumps rest (offset + d.size) (adjustMinSize minSize epoch d.size) n packets →
      d.padLast n (datagramLen - offset) ((adjustMinSize minSize epoch d.size).getD 0) = some d' →
      offset + d'.size ≤ datagramLen → d'.packet.layout d'.size = some () →
      Dumps (epoch :: rest) offset minSize (d'.size + n) (d' :: packets)

variable {epochs : List Epoch} {minSize : Option Nat} {n offset : Nat} {packets : List Dumped}

lemma dumps_of_pollDumpAt (h : pollDumpAt spaces datagramLen content epochs offset minSize = some (n, packets)) :
    Dumps spaces datagramLen content epochs offset minSize n packets := by
  induction epochs generalizing offset minSize n packets with
  | nil =>
    cases h
    exact .nil
  | cons epoch rest ih =>
    unfold pollDumpAt at h
    split at h
    · next hspace => exact .absent hspace (ih h)
    · next space hspace =>
      simp only [Option.bind_eq_bind, Option.bind_eq_some_iff] at h
      obtain ⟨polled, hpoll, h⟩ := h
      cases polled with
      | none => exact .silent hspace hpoll (ih h)
      | some d =>
        simp only [Option.bind_eq_some_iff] at h
        obtain ⟨⟨m, behind⟩, hrest, d', hpad, _, hfits, _, hlayout, hn⟩ := h
        cases hn
        exact .packet hspace hpoll (ih hrest) hpad (of_debugAssert hfits) hlayout

lemma size_padLast {d d' : Dumped} {bytesLen need : Nat} (h : d.padLast n bytesLen need = some d') (hn : n ≠ 0) :
    d'.size = d.size := by
  unfold Dumped.padLast at h
  rw [if_neg hn] at h
  rw [Option.some.inj h]

lemma Dumps.le (h : Dumps spaces datagramLen content epochs offset minSize n packets) :
    n = 0 ∨ offset + n ≤ datagramLen := by
  induction h with
  | nil => exact Or.inl rfl
  | absent _ _ ih => exact ih
  | silent _ _ _ ih => exact ih
  | @packet _ _ offset m _ _ _ d d' _ _ _ hpad hle _ ih =>
    rcases ih with hzero | hbehind
    · omega
    · -- nothing is padded in front of other packets
      by_cases hm : m = 0
      · omega
      · rw [size_padLast hpad hm] at hle ⊢
        omega

end Spaces

/-- A data space that sends these frames with a connection id of eight bytes, a packet number of two and a quota. -/
def shortSpace (quota : Nat) (sources : List Source) : Space .data where
  hasCapacity := true
  quota := quota
  packet := some (.short ⟨false, ⟨List.replicate 8 0, by decide⟩⟩, 0, .u16 0)
  sources := sources
  proper header pn h := by
    cases h
    exact ⟨rfl, 9, rfl⟩

def initialSpace (sources : List Source) : Space .initial where
  hasCapacity := true
  quota := 1200
  packet := some (.long (.initial ⟨⟨List.replicate 8 0, by decide⟩, ⟨List.replicate 8 0, by decide⟩, ⟨[]⟩⟩), 0, .u16 0)
  sources := sources
  proper header pn h := by
    cases h
    exact ⟨rfl, 26, rfl⟩

/-- Where a space is polled, and what the datagram needs from there on. -/
structure Start where
  epoch : Epoch
  space : Space epoch
  offset : Nat
  minSize : Option Nat

def Spaces.starts (spaces : Spaces) (datagramLen : Nat) (content : PacketContent) : List Epoch → Nat → Option Nat → List Start
  | [], _, _ => []
  | epoch :: rest, offset, minSize =>
    match spaces epoch with
    | none => starts spaces datagramLen content rest offset minSize
    | some space => ⟨epoch, space, offset, minSize⟩ ::
      match space.pollDump datagramLen offset content with
      | none => []
      | some none => starts spaces datagramLen content rest offset (adjustMinSize minSize epoch 0)
      | some (some d) =>
        starts spaces datagramLen content rest (offset + d.size) (adjustMinSize minSize epoch d.size)

end Dquic
