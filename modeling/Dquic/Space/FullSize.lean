import Dquic.Space.Layout

/-!
# Datagrams of full size

A datagram with an Initial packet has 1200 bytes, and no other datagram is padded. What is missing
is handed from space to space, and the last packet takes all of it.
-/

namespace Dquic

open Lib

/-! ### The cursor -/

/-- `poll_dump` of a space with the cursor, which it moves behind its packet. -/
def Space.pollDumpCursor {epoch : Epoch} (s : Space epoch) (datagramLen position : Nat) (content : PacketContent) :
    Option (Option Dumped × Nat) := do
  match ← s.pollDump datagramLen position content with
  | none => some (none, position)
  | some d => some (some d, position + d.size)

namespace Spaces

variable (spaces : Spaces) (datagramLen : Nat) (content : PacketContent)

/-- `poll_dump_at` with the cursor. -/
def pollDumpCursorAt : List Epoch → Nat → Option Nat → Option ((Nat × List Dumped) × Nat)
  | [], position, _ => some ((0, []), position)
  | epoch :: rest, position, minSize =>
    match spaces epoch with
    | none => pollDumpCursorAt rest position minSize
    | some space => do
      let offset := position
      match ← space.pollDumpCursor datagramLen position content with
      | (none, position) => pollDumpCursorAt rest position (adjustMinSize minSize epoch 0)
      | (some d, position) => do
        let minSize := adjustMinSize minSize epoch d.size
        let ((n, packets), position) ← pollDumpCursorAt rest position minSize
        let d ← d.padLast n (datagramLen - offset) (minSize.getD 0)
        let position := if n = 0 then offset + d.size else position
        debugAssert (offset + d.size ≤ datagramLen)
        d.packet.layout d.size
        some ((d.size + n, d :: packets), position)

def pollDumpCursor (position : Nat) : Option ((Nat × List Dumped) × Nat) :=
  pollDumpCursorAt spaces datagramLen content Epoch.all position none

variable {spaces datagramLen content}

lemma pollDumpCursorAt_eq (epochs : List Epoch) (offset : Nat) (minSize : Option Nat) :
    spaces.pollDumpCursorAt datagramLen content epochs offset minSize =
      (spaces.pollDumpAt datagramLen content epochs offset minSize).map fun out => (out, offset + out.1) := by
  induction epochs generalizing offset minSize with
  | nil => rfl
  | cons epoch rest ih =>
    unfold pollDumpCursorAt pollDumpAt Space.pollDumpCursor
    cases spaces epoch with
    | none => exact ih offset minSize
    | some space =>
      dsimp only
      cases space.pollDump datagramLen offset content with
      | none => rfl
      | some polled =>
        cases polled with
        | none => exact ih offset _
        | some d =>
          simp only [some_bind, ih]
          cases spaces.pollDumpAt datagramLen content rest (offset + d.size) (adjustMinSize minSize epoch d.size) with
          | none => rfl
          | some out =>
            obtain ⟨n, packets⟩ := out
            simp only [Option.map_some, some_bind]
            cases hpad : d.padLast n (datagramLen - offset) ((adjustMinSize minSize epoch d.size).getD 0) with
            | none => rfl
            | some d' =>
              -- the cursor is moved again only behind padding
              have hcursor : (if n = 0 then offset + d'.size else offset + d.size + n) = offset + (d'.size + n) := by
                split_ifs with hn
                · rw [hn, add_zero]
                · rw [size_padLast hpad hn, add_assoc]
              simp only [some_bind, hcursor]
              cases debugAssert (offset + d'.size ≤ datagramLen) with
              | none => rfl
              | some _ =>
                simp only [some_bind]
                cases d'.packet.layout d'.size <;> rfl

end Spaces

/-! ### Where the packets are -/

def Contiguous : Nat → List Dumped → Prop
  | _, [] => True
  | offset, d :: packets => d.offset = offset ∧ Contiguous (offset + d.size) packets

def Spaces.Leaves (spaces : Spaces) (datagramLen : Nat) (content : PacketContent) (d : Dumped) : Prop :=
  ∃ space, spaces d.epoch = some space ∧ space.pollDump datagramLen d.offset content = some (some d)

namespace Spaces

variable {spaces : Spaces} {datagramLen : Nat} {content : PacketContent} {epochs : List Epoch} {offset n : Nat}
  {minSize : Option Nat} {packets : List Dumped}

lemma padLast_zero (d : Dumped) (h : d.packet.len ≤ datagramLen) : d.padLast n datagramLen 0 = some d := by
  unfold Dumped.padLast
  split
  · unfold Dumped.padding Encrypt.Packet.padding
    rw [debugAssert_of (by exact h), if_neg (lt_irrefl 0)]
    simp
  · rfl

lemma padLast_cases {d d' : Dumped} {bytesLen need : Nat} (h : d.padLast n bytesLen need = some d') :
    d'.epoch = d.epoch ∧ d'.offset = d.offset ∧ d'.packet.header = d.packet.header ∧
      d'.size = d.size + if n = 0 then need else 0 := by
  unfold Dumped.padLast at h
  split_ifs at h with hn
  · obtain ⟨packet, hpad, hd'⟩ := of_bind h
    obtain ⟨_, -, hpacket⟩ := of_bind hpad
    cases hd'
    refine ⟨rfl, rfl, ?_, by rw [if_pos hn]⟩
    split_ifs at hpacket <;> cases hpacket <;> rfl
  · cases h
    exact ⟨rfl, rfl, rfl, by rw [if_neg hn, add_zero]⟩

lemma Dumps.laid (h : Dumps spaces datagramLen content epochs offset minSize n packets) :
    n = (packets.map Dumped.size).sum ∧ Contiguous offset packets ∧ (packets.map Dumped.epoch).Sublist epochs ∧
      ∀ d ∈ packets, d.packet.header.epoch = d.epoch ∧ 0 < d.size := by
  induction h with
  | nil => exact ⟨rfl, trivial, .slnil, fun d hd => absurd hd List.not_mem_nil⟩
  | absent _ _ ih | silent _ _ _ ih =>
    obtain ⟨hsum, hcontiguous, hsub, hall⟩ := ih
    exact ⟨hsum, hcontiguous, hsub.cons _, hall⟩
  | @packet epoch rest offset m minSize packets space d d' _ hpoll hrest hpad hle _ ih =>
    obtain ⟨hsealable, hepoch, hoff, -⟩ := Space.sealable_of_pollDump (by omega) hpoll
    obtain ⟨hepoch', hoff', hheader, hsize⟩ := padLast_cases hpad
    obtain ⟨k, -, hsample⟩ := hsealable.sample
    obtain ⟨hsum, hcontiguous, hsub, hall⟩ := ih
    refine ⟨?_, ⟨hoff'.trans hoff, ?_⟩, ?_, ?_⟩
    · rw [List.map_cons, List.sum_cons, hsum]
    · -- a packet that was padded is the last one
      by_cases hm : m = 0
      · have hnil : packets = [] := by
          cases packets with
          | nil => rfl
          | cons e more =>
            have hpos := (hall e List.mem_cons_self).2
            rw [List.map_cons, List.sum_cons] at hsum
            omega
        rw [hnil]
        trivial
      · rw [size_padLast hpad hm]
        exact hcontiguous
    · rw [List.map_cons, hepoch', hepoch]
      exact hsub.cons_cons _
    · intro e he
      rcases List.mem_cons.mp he with rfl | he
      · rw [hepoch', hepoch, hheader]
        exact ⟨hsealable.header.trans hepoch, by omega⟩
      · exact hall e he

lemma Dumps.leaves (h : Dumps spaces datagramLen content epochs offset minSize n packets)
    (hmin : minSize = none) (hfirst : Epoch.initial ∉ epochs) : ∀ d ∈ packets, spaces.Leaves datagramLen content d := by
  induction h with
  | nil => exact fun d hd => absurd hd List.not_mem_nil
  | absent _ _ ih => exact ih hmin fun h => hfirst (List.mem_cons_of_mem _ h)
  | silent _ _ _ ih =>
    have hepoch := List.ne_of_not_mem_cons hfirst
    refine ih ?_ fun h => hfirst (List.mem_cons_of_mem _ h)
    rw [hmin, adjustMinSize, if_neg fun h => hepoch h.1.symm, Option.map_none]
  | @packet epoch rest offset m minSize packets space d d' hspace hpoll hrest hpad hle _ ih =>
    have hepoch := List.ne_of_not_mem_cons hfirst
    have hnone : adjustMinSize minSize epoch d.size = none := by
      rw [hmin, adjustMinSize, if_neg fun h => hepoch h.1.symm, Option.map_none]
    obtain ⟨hsealable, hepoch', hoff, -⟩ := Space.sealable_of_pollDump (by omega) hpoll
    have htotal := hsealable.total
    rw [hnone, Option.getD_none, padLast_zero d (hsealable.size ▸ htotal)] at hpad
    cases hpad
    intro e he
    rcases List.mem_cons.mp he with rfl | he
    · subst hepoch'
      exact ⟨space, hspace, hoff.symm ▸ hpoll⟩
    · exact ih hnone (fun h => hfirst (List.mem_cons_of_mem _ h)) e he

lemma Dumps.filled (h : Dumps spaces datagramLen content epochs offset minSize n packets)
    (hmin : minSize = some (datagramLen - offset)) (hfirst : Epoch.initial ∉ epochs) :
    n = 0 ∨ offset + n = datagramLen := by
  induction h with
  | nil => exact Or.inl rfl
  | absent _ _ ih => exact ih hmin fun h => hfirst (List.mem_cons_of_mem _ h)
  | silent _ _ _ ih =>
    have hepoch := List.ne_of_not_mem_cons hfirst
    refine ih ?_ fun h => hfirst (List.mem_cons_of_mem _ h)
    rw [hmin, adjustMinSize, if_neg fun h => hepoch h.1.symm, Option.map_some, Nat.sub_zero]
  | @packet epoch rest offset m minSize packets space d d' _ hpoll hrest hpad hle _ ih =>
    have hepoch := List.ne_of_not_mem_cons hfirst
    obtain ⟨hsealable, -, -, -⟩ := Space.sealable_of_pollDump (by omega) hpoll
    have htotal := hsealable.total
    have hneed : adjustMinSize minSize epoch d.size = some (datagramLen - (offset + d.size)) := by
      rw [hmin, adjustMinSize, if_neg fun h => hepoch h.1.symm, Option.map_some, Nat.sub_sub]
    have hsize := (padLast_cases hpad).2.2.2
    rw [hneed, Option.getD_some] at hsize
    right
    rcases ih hneed fun h => hfirst (List.mem_cons_of_mem _ h) with hzero | hend
    · rw [if_pos hzero] at hsize
      omega
    · split_ifs at hsize <;> omega

lemma pollDump_cases (hlen : datagramLen ≤ 1200) (h : spaces.pollDump datagramLen content 0 = some (n, packets)) :
    ((∃ d ∈ packets, d.epoch = .initial) ∧ n = 1200) ∨
    ((∀ d ∈ packets, d.epoch ≠ .initial) ∧ ∀ d ∈ packets, spaces.Leaves datagramLen content d) := by
  have hrest : ∀ {offset n : Nat} {packets : List Dumped},
      Dumps spaces datagramLen content [.handshake, .data] offset none n packets →
      (∀ d ∈ packets, d.epoch ≠ .initial) ∧ ∀ d ∈ packets, spaces.Leaves datagramLen content d := by
    intro offset n packets hdumps
    refine ⟨fun d hd hinitial => ?_, hdumps.leaves rfl (by decide)⟩
    have hmem := hdumps.laid.2.2.1.subset (List.mem_map_of_mem hd)
    rw [hinitial] at hmem
    exact absurd hmem (by decide)
  cases dumps_of_pollDumpAt h with
  | absent _ hdumps | silent _ _ hdumps => exact Or.inr (hrest hdumps)
  | @packet _ _ _ m _ packets space d d' _ hpoll hdumps hpad hle _ =>
    left
    obtain ⟨hsealable, hepoch, -, hbegins⟩ := Space.sealable_of_pollDump (Nat.zero_le _) hpoll
    obtain ⟨p, hp⟩ := Option.ne_none_iff_exists'.mp hbegins
    have hlong := ((Space.packet_of_begins hp).2 rfl).1
    obtain ⟨k, -, hsample⟩ := hsealable.sample
    have htotal := hsealable.total
    have hneed : adjustMinSize none .initial d.size = some (datagramLen - (0 + d.size)) := by
      rw [adjustMinSize, if_pos ⟨rfl, by omega⟩, Option.map_some]
      congr 1
      omega
    obtain ⟨hepoch', -, -, hsize⟩ := padLast_cases hpad
    refine ⟨⟨d', List.mem_cons_self, hepoch'.trans hepoch⟩, ?_⟩
    rw [hneed, Option.getD_some] at hsize
    rcases hdumps.filled hneed (by decide) with hzero | hend
    · rw [if_pos hzero] at hsize
      omega
    · split_ifs at hsize <;> omega

end Spaces

/-- A datagram of at most 1200 bytes: a call returns unless the assembly of a packet panics, so that no padding is asked
for beyond the buffer. The packets follow each other from the start to the cursor, and their lengths add up to what is
returned. That is 1200 bytes if one of them is an Initial packet; otherwise each is as its space left it. -/
theorem datagram_full_size (spaces : Spaces) (datagramLen : Nat) (content : PacketContent) (hlen : datagramLen ≤ 1200) :
    ((∀ start ∈ spaces.starts datagramLen content Epoch.all 0 none, ¬ start.Panics datagramLen content) →
      ∃ out, spaces.pollDumpCursor datagramLen content 0 = some out) ∧
    ∀ n packets position, spaces.pollDumpCursor datagramLen content 0 = some ((n, packets), position) →
      n = (packets.map Dumped.size).sum ∧ Contiguous 0 packets ∧ position = n ∧
      (∀ d ∈ packets, d.packet.header.epoch = d.epoch) ∧
      ((∃ d ∈ packets, d.epoch = .initial) → n = 1200) ∧
      ((∀ d ∈ packets, d.epoch ≠ .initial) → ∀ d ∈ packets, spaces.Leaves datagramLen content d) := by
  have hcursor : spaces.pollDumpCursor datagramLen content 0 =
      (spaces.pollDump datagramLen content 0).map fun out => (out, 0 + out.1) := Spaces.pollDumpCursorAt_eq _ _ _
  rw [hcursor]
  constructor
  · intro hpanics
    obtain ⟨n, packets, hpoll, -⟩ := Spaces.pollDumpAt_sealable (Nat.zero_le datagramLen) (Nat.zero_le _) (by decide)
      (fun _ => spaces.initialFits_zero datagramLen) fun start hs _ => hpanics start hs
    exact ⟨_, Option.map_eq_some_iff.mpr ⟨_, hpoll, rfl⟩⟩
  · intro n packets position hdump
    obtain ⟨out, hpoll, hout⟩ := Option.map_eq_some_iff.mp hdump
    cases hout
    obtain ⟨hsum, hcontiguous, -, hall⟩ := (Spaces.dumps_of_pollDumpAt hpoll).laid
    refine ⟨hsum, hcontiguous, Nat.zero_add _, fun d hd => (hall d hd).1, ?_, ?_⟩
    · rintro ⟨d, hd, hinitial⟩
      rcases Spaces.pollDump_cases hlen hpoll with ⟨-, hfull⟩ | ⟨hno, -⟩
      · exact hfull
      · exact absurd hinitial (hno d hd)
    · intro hno
      rcases Spaces.pollDump_cases hlen hpoll with ⟨⟨d, hd, hinitial⟩, -⟩ | ⟨-, hleaves⟩
      · exact absurd hinitial (hno d hd)
      · exact hleaves

/-- A PING in an Initial packet is padded to the whole datagram. -/
theorem datagram_full_size_ping :
    ∃ n packets, (Spaces.of (some (initialSpace [(Frame.ping).source trivial])) none none).pollDumpCursor 1200
        .effectivePayload 0 = some ((n, packets), n) ∧ n = 1200 ∧ packets.map Dumped.epoch = [.initial] := by
  have hsome : ((Spaces.of (some (initialSpace [(Frame.ping).source trivial])) none none).pollDumpCursor 1200
      .effectivePayload 0).map (fun out => out.1.2.map Dumped.epoch) = some [.initial] := by
    decide +kernel
  obtain ⟨⟨⟨n, packets⟩, position⟩, hdump, hepochs⟩ := Option.map_eq_some_iff.mp hsome
  obtain ⟨-, -, hposition, -, hfull, -⟩ :=
    (datagram_full_size _ 1200 .effectivePayload le_rfl).2 n packets position hdump
  refine ⟨n, packets, hposition ▸ hdump, hfull ?_, hepochs⟩
  have hmem : Epoch.initial ∈ packets.map Dumped.epoch := by
    rw [show packets.map Dumped.epoch = [.initial] from hepochs]
    exact List.mem_cons_self
  exact List.mem_map.mp hmem

end Dquic
