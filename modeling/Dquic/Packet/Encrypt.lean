import Dquic.Packet.Window

/-!
# A packet after its sources

`Packet::assemble`: the header is written, the sources are polled, and a packet with frames is
padded to the sample of header protection.
-/

namespace Dquic

open Lib

namespace PacketBuffer

variable {b : PacketBuffer}

lemma Sound.fillSample {k : Bounds} (h : b.Sound k) (hframes : 0 < b.info.nframes) (hopen : b.Short → b.nwrote < b.stop) :
    ∃ n b', b.fillSample = some (List.replicate n .padding, b') ∧ b'.nwrote = b.nwrote + n ∧
      b'.out = b.out ++ List.replicate n 0 ∧ b'.minSize = b.minSize ∧ b'.finished = b.finished ∧ 0 < b'.info.nframes ∧
      (0 < n → b.Short) ∧ k.pnOffset + 20 ≤ b'.nwrote + 16 ∧ b'.nwrote + 16 ≤ k.total ∧
      (b'.info.inFlight = true → b'.nwrote + 16 ≤ k.credit) := by
  have htag := h.tag
  have hpn := h.pnOffset
  have htotal := h.total
  have hleast := h.least
  have hbase := h.base
  have hframed := h.framed hframes
  by_cases hshort : b.nwrote + b.tagLen < b.pnOffset + 20
  · have hs : b.Short := ⟨hframes, hshort⟩
    have hflight := h.flight (h.short hs)
    have hroom : b.pnOffset + 4 + 16 - (b.nwrote + b.tagLen) ≤ b.remainingMut := by
      unfold remainingMut
      rcases h.window with hshut | hwindow
      · exact absurd (hopen hs) (not_lt.mpr hshut)
      · omega
    have hlen : (List.replicate (b.pnOffset + 4 + 16 - (b.nwrote + b.tagLen)) 0 : Bytes).length ≤ b.remainingMut := by
      rwa [List.length_replicate]
    unfold PacketBuffer.fillSample
    dsimp only
    rw [debugAssert_of hroom, some_bind, if_pos (by omega), putSlice_of_le hlen]
    refine ⟨_, _, rfl, ?_, rfl, rfl, rfl, Nat.succ_pos _, fun _ => hs, ?_, ?_, fun _ => ?_⟩ <;>
      simp only [List.length_replicate] <;> omega
  · have hzero : b.pnOffset + 4 + 16 - (b.nwrote + b.tagLen) = 0 := by omega
    unfold PacketBuffer.fillSample
    dsimp only
    rw [hzero, debugAssert_of (Nat.zero_le _), some_bind, if_neg (lt_irrefl 0)]
    refine ⟨0, b, rfl, rfl, ?_, rfl, rfl, hframes, fun hn => absurd hn (lt_irrefl 0), ?_, hframed, ?_⟩
    · exact (List.append_nil _).symm
    · omega
    · intro hf
      exact (h.flight hf).1

lemma open_of_fillSample {b' : PacketBuffer} {padding : List (Frame Bytes)} (h : b.fillSample = some (padding, b'))
    (hshort : b.Short) : b.nwrote < b.stop := by
  obtain ⟨_, hroom, -⟩ := of_bind h
  have hle := of_debugAssert hroom
  have hlt := hshort.2
  unfold remainingMut at hle
  omega

lemma begin_cases {header : DataHeader} {n : Nat} (hpn : header.pnOffset = some n) (pn : PacketNumber) (b : PacketBuffer) :
    (∃ b', b.begin header pn = some (false, b')) ∨
    ∃ head : Bytes, header.head pn = some head ∧ head.length = n + pn.size ∧ head.length ≤ b.remainingMut ∧
      n + 20 ≤ b.nwrote + b.room ∧ b.begin header pn = some (true, { b with
        info := { b.info with pktype := header.packetType }, pnOffset := n, minSize := n + 20
        room := b.room - head.length, out := b.out ++ head, nwrote := b.nwrote + head.length }) := by
  obtain ⟨size, hsize, hsum⟩ := of_bind hpn
  obtain ⟨bytes, hput, hlen⟩ := DataHeader.exists_put hsize
  have hhead : (bytes ++ ((if header.isLong then [0, 0] else []) ++ toBE pn.size pn.truncated)).length = n + pn.size := by
    obtain rfl := Option.some.inj hsum
    rw [List.length_append, List.length_append, length_toBE, hlen]
    split_ifs <;> simp only [List.length_cons, List.length_nil] <;> omega
  unfold PacketBuffer.begin
  simp only [hpn, some_bind]
  split
  · exact Or.inl ⟨_, rfl⟩
  · rename_i hno
    push Not at hno
    have hfit := hno.1
    rw [← hhead] at hfit
    rw [hput, some_bind, putSlice_of_le hfit]
    refine Or.inr ⟨_, ?_, hhead, hfit, hno.2, rfl⟩
    rw [DataHeader.head, hput]
    rfl

end PacketBuffer

namespace Encrypt

open PacketBuffer

variable {datagramLen offset n credit : Nat} {header : DataHeader} {b : PacketBuffer} {p : Packet}
  {pn : Nat × PacketNumber} {content : PacketContent} {frames : List (Frame Unit)} {sources : List Source}

lemma Packet.window_new_eq (header : DataHeader) (pn : Nat × PacketNumber) (hoffset : offset ≤ datagramLen)
    (credit : Nat) (frames : List (Frame Unit)) :
    (Packet.new header pn 16).window datagramLen offset credit frames =
      ((PacketBuffer.new (datagramLen - offset) credit frames header.packetType 0 16).scope (1200 - offset)).begin
        header pn.2 := by
  have hroom : checkedSub datagramLen (offset + 0) = some (datagramLen - offset) := checkedSub_of_le hoffset
  unfold Packet.window Packet.new
  dsimp only
  rw [hroom]
  rfl

lemma Packet.window_new (hpn : header.pnOffset = some n) (pn : Nat × PacketNumber) (hoffset : offset ≤ datagramLen)
    (credit : Nat) (frames : List (Frame Unit)) :
    (∃ b, (Packet.new header pn 16).window datagramLen offset credit frames = some (false, b)) ∨
    ∃ b, (Packet.new header pn 16).window datagramLen offset credit frames = some (true, b) ∧
      b.Sound ⟨datagramLen - offset, credit, n⟩ ∧ b.info = .new header.packetType ∧ b.nwrote = n + pn.2.size ∧
      b.out.length = b.nwrote ∧ header.head pn.2 = some b.out := by
  rw [window_new_eq header pn hoffset]
  rcases begin_cases hpn pn.2
    ((PacketBuffer.new (datagramLen - offset) credit frames header.packetType 0 16).scope (1200 - offset)) with
    hno | ⟨head, hwritten, hhead, hfit, hleast, hbegin⟩
  · exact Or.inl hno
  · refine Or.inr ⟨_, hbegin, ?_, rfl, ?_, ?_, hwritten⟩
    · have hpos : 0 < pn.2.size := by
        cases pn.2 <;> exact Nat.succ_pos _
      have hroom : head.length ≤ datagramLen - offset := hfit.trans (min_le_right _ _)
      change n + 20 ≤ 0 + (datagramLen - offset) at hleast
      have hnone : ¬ 0 < (PacketMeta.new header.packetType).nframes := lt_irrefl 0
      refine ⟨?_, rfl, rfl, rfl, le_rfl, ?_, ?_, fun h => absurd h hnone, ?_, fun h => absurd h.1 hnone, Or.inr ?_⟩
      · change 0 + head.length + (datagramLen - offset - head.length) = datagramLen - offset
        omega
      · change n + 20 ≤ datagramLen - offset
        omega
      · change n + 1 ≤ 0 + head.length
        omega
      · intro hflight
        cases hflight
      · change n + 20 ≤ 0 + (datagramLen - offset) - 16 + 16
        omega
    · exact (zero_add _).trans hhead
    · change ([] ++ head).length = 0 + head.length
      rw [List.nil_append, zero_add]

/-- What the packet is after it was assembled: inside the datagram, inside the credit if it is in flight, and if it is
ready long enough to be sampled, with room up to its least size. -/
structure Assembled.Fits (a : Assembled) (header : DataHeader) (k : Bounds) : Prop where
  header : a.packet.header = header
  tag : a.packet.tagLen = 16
  total : a.packet.len ≤ k.total
  credit : a.packet.info.inFlight = true → a.packet.len ≤ k.credit
  ready : ∀ size minSize, a.poll = some (size, minSize) → 0 < size →
    size = a.packet.len ∧ 0 < a.packet.info.nframes ∧ k.pnOffset + 20 ≤ size ∧ minSize ≤ k.total

/-- A short packet was not left with a closed window by its sources. -/
def Packet.Open (p : Packet) (datagramLen offset credit : Nat) (content : PacketContent) (frames : List (Frame Unit))
    (sources : List Source) : Prop :=
  ∀ b ∈ p.polled datagramLen offset credit content frames sources, b.Short → b.nwrote < b.stop

instance (p : Packet) (datagramLen offset credit : Nat) (content : PacketContent) (frames : List (Frame Unit))
    (sources : List Source) : Decidable (p.Open datagramLen offset credit content frames sources) :=
  inferInstanceAs (Decidable (∀ b ∈ p.polled datagramLen offset credit content frames sources, _))

lemma Packet.len_take (htag : p.tagLen = 16) (h : 0 < b.info.nframes) : (p.take b).len = b.nwrote + 16 := by
  have hlen : (p.take b).len = b.nwrote + p.tagLen := if_neg (Nat.ne_of_gt h)
  rw [hlen, htag]

lemma Packet.len_take_le (htag : p.tagLen = 16) (h : 0 < b.info.nframes → b.nwrote + 16 ≤ n) : (p.take b).len ≤ n := by
  by_cases hnframes : 0 < b.info.nframes
  · rw [Packet.len_take htag hnframes]
    exact h hnframes
  · have hlen : (p.take b).len = 0 := if_pos (Nat.eq_zero_of_not_pos hnframes)
    rw [hlen]
    exact Nat.zero_le n

lemma Packet.settle_fits {k : Bounds} {result : PollDump} {log : List (Frame Bytes)} (h : b.Sound k)
    (hframes : 0 < result.written → 0 < b.info.nframes) (hopen : 0 < result.written → b.Short → b.nwrote < b.stop) :
    ∃ a, (Packet.new header pn 16).settle result log b = some a ∧ a.Fits header k := by
  unfold Packet.settle
  by_cases hpos : 0 < result.written
  · obtain ⟨n, b', hfill, -, -, hmin, -, hnframes, -, hsample, htotal, hcredit⟩ := h.fillSample (hframes hpos) (hopen hpos)
    have hlen := Packet.len_take (p := Packet.new header pn 16) rfl hnframes
    simp only [if_pos hpos, hfill, some_bind]
    refine ⟨_, rfl, rfl, rfl, ?_, ?_, ?_⟩
    · rwa [hlen]
    · intro hflight
      rw [hlen]
      exact hcredit hflight
    · intro size minSize hpoll _
      cases result with
      | pending => cases hpoll
      | ready r =>
        cases hpoll
        refine ⟨rfl, hnframes, ?_, ?_⟩
        · rwa [hlen]
        · exact hmin ▸ h.least
  · simp only [if_neg hpos, some_bind]
    refine ⟨_, rfl, rfl, rfl, ?_, ?_, ?_⟩
    · exact Packet.len_take_le rfl h.framed
    · intro hflight
      exact Packet.len_take_le rfl fun _ => (h.flight hflight).1
    · intro size minSize hpoll hsize
      cases result with
      | pending => cases hpoll
      | ready r =>
        cases hpoll
        exact absurd hsize (lt_irrefl 0)

lemma Packet.assemble_cases (hpn : header.pnOffset = some n) (pn : Nat × PacketNumber) (hoffset : offset ≤ datagramLen)
    (credit : Nat) (content : PacketContent) (frames : List (Frame Unit)) (sources : List Source) :
    (∃ a, (Packet.new header pn 16).assemble datagramLen offset credit content frames sources = some a ∧
      a.Fits header ⟨datagramLen - offset, credit, n⟩ ∧ a.poll = some (0, 0)) ∨
    ∃ result log b, (Packet.new header pn 16).assemble datagramLen offset credit content frames sources =
        (Packet.new header pn 16).settle result log b ∧
      (Packet.new header pn 16).polled datagramLen offset credit content frames sources = some b ∧
      b.Sound ⟨datagramLen - offset, credit, n⟩ ∧ (0 < result.written → 0 < b.info.nframes) ∧
      ∃ head payload, header.head pn.2 = some head ∧ b.out = head ++ payload ∧ b.out.length = b.nwrote := by
  unfold Packet.assemble
  rw [if_neg (by exact Bool.false_ne_true)]
  rcases Packet.window_new hpn pn hoffset credit frames with ⟨b, hwindow⟩ | ⟨b, hwindow, hsound, -, -, hlen, hhead⟩
  · left
    simp only [hwindow, some_bind]
    refine ⟨_, rfl, ⟨rfl, rfl, Nat.zero_le _, ?_, ?_⟩, rfl⟩
    · intro hflight
      cases hflight
    · intro size minSize hpoll hsize
      cases hpoll
      exact absurd hsize (lt_irrefl 0)
  · right
    have hobey : ∀ s ∈ sources, Obeys Step s := fun s _ => obeys_step s
    obtain ⟨result, log, b', hassemble, hlog, hframes⟩ := exists_logged_assemble hobey b content
    obtain ⟨payload, hout, hnwrote⟩ := out_of_logged hlog
    refine ⟨result, log, b', ?_, ?_, hsound.logged hlog, hframes, b.out, payload, hhead, hout, ?_⟩
    · simp only [hwindow, some_bind, if_true, hassemble]
    · simp only [Packet.polled, hwindow, some_bind, if_true, hassemble]
    · rw [hout, List.length_append, hlen, hnwrote]

/-- What was assembled is inside the window, whatever the sources did. -/
theorem Packet.fits_of_assemble (hpn : header.pnOffset = some n) (hoffset : offset ≤ datagramLen) {a : Assembled}
    (h : (Packet.new header pn 16).assemble datagramLen offset credit content frames sources = some a) :
    a.Fits header ⟨datagramLen - offset, credit, n⟩ := by
  rcases Packet.assemble_cases hpn pn hoffset credit content frames sources with
    ⟨a', ha', hfits, -⟩ | ⟨result, log, b, hassemble, -, hsound, hframes, -⟩
  · cases ha'.symm.trans h
    exact hfits
  · rw [hassemble] at h
    have hopen : 0 < result.written → b.Short → b.nwrote < b.stop := by
      intro hpos hshort
      unfold Packet.settle at h
      rw [if_pos hpos] at h
      obtain ⟨⟨padding, b'⟩, hfill, -⟩ := of_bind h
      exact open_of_fillSample hfill hshort
    have hsettle : ∃ a, (Packet.new header pn 16).settle result log b = some a ∧
        a.Fits header ⟨datagramLen - offset, credit, n⟩ := Packet.settle_fits hsound hframes hopen
    obtain ⟨a', ha', hfits⟩ := hsettle
    cases ha'.symm.trans h
    exact hfits

end Encrypt

end Dquic
