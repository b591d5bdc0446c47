import Dquic.Send.Packages
import Dquic.Space.Assemble

/-!
# Frames without a length in a datagram

A packet whose last frame goes on to its end is full: it was assembled up to the datagram or up to
the quota that its space has read.
-/

namespace Dquic

open Lib PacketBuffer

/-- The packet is its header and its frames, and is full if the last one goes on to the end. -/
structure Dumped.Whole (d : Dumped) (quota bytesLen : Nat) : Prop where
  size : d.size = d.packet.len
  length : d.out.length + 16 = d.size
  encoded : ∃ n, d.packet.header.pnOffset = some n ∧ ∃ head payload : Bytes, head.length = n + d.packet.pn.2.size ∧
    d.out = head ++ payload ∧ Encodes d.log payload
  last : (∀ f ∈ d.log, ¬ f.OmitsLength) ∨
    ∃ front frame, d.log = front ++ [frame] ∧ (∀ f ∈ front, ¬ f.OmitsLength) ∧ frame.OmitsLength ∧ frame.Packed ∧
      frame.frameType.belongsTo d.packet.header.packetType = true ∧ d.size = min bytesLen quota

lemma Encrypt.Packet.padding_eq_some {p p' : Encrypt.Packet} {bytesLen amount : Nat}
    (h : p.padding bytesLen amount = some p') :
    p.len + amount ≤ bytesLen ∧ p'.header = p.header ∧ p'.pn = p.pn ∧ (0 < p.len → p'.len = p.len + amount) := by
  obtain ⟨_, hroom, h⟩ := of_bind h
  refine ⟨of_debugAssert hroom, ?_⟩
  split_ifs at h with hpos
  · cases h
    refine ⟨rfl, rfl, fun hlen => ?_⟩
    rw [Encrypt.Packet.len_eq_of_pos hlen]
    change p.cursor + amount + p.tagLen = _
    omega
  · cases h
    exact ⟨rfl, rfl, fun _ => by omega⟩

namespace Dumped.Whole

variable {d d' : Dumped} {quota bytesLen : Nat}

lemma padding (h : d.Whole quota bytesLen) {amount : Nat} (hpad : d.padding bytesLen amount = some d')
    (hno : (∃ f ∈ d.log, f.OmitsLength) → amount = 0) :
    d'.Whole quota bytesLen ∧ d'.epoch = d.epoch ∧ d'.offset = d.offset ∧ d'.packet.header = d.packet.header := by
  obtain ⟨packet, hpacket, hd'⟩ := of_bind hpad
  obtain ⟨-, hheader, hpn, hlen⟩ := Encrypt.Packet.padding_eq_some hpacket
  cases hd'
  have hsize := h.size
  have hlength := h.length
  obtain ⟨n, hn, head, payload, hhead, hout, henc⟩ := h.encoded
  refine ⟨⟨?_, ?_, ⟨n, ?_, head, payload ++ List.replicate amount 0, ?_, ?_, henc.append (.padding amount)⟩, ?_⟩, rfl, rfl, hheader⟩
  · rw [hlen (by omega), hsize]
  · dsimp only
    rw [List.length_append, List.length_replicate]
    omega
  · rw [hheader, hn]
  · rw [hpn, hhead]
  · rw [hout, List.append_assoc]
  · rcases h.last with hnone | ⟨front, frame, hlog, hfront, homits, hpacked, hbelongs, hfull⟩
    · left
      intro f hf
      cases List.mem_append.mp hf with
      | inl hf => exact hnone f hf
      | inr hf =>
        rw [List.eq_of_mem_replicate hf]
        exact id
    · have hmem : frame ∈ d.log := by
        rw [hlog]
        exact List.mem_append_right _ List.mem_cons_self
      obtain rfl : amount = 0 := hno ⟨frame, hmem, homits⟩
      rw [hheader]
      exact Or.inr ⟨front, frame, (List.append_nil _).trans hlog, hfront, homits, hpacked, hbelongs, hfull⟩

end Dumped.Whole

namespace Space

variable {epoch : Epoch} {s : Space epoch} {datagramLen offset : Nat} {content : PacketContent} {d : Dumped}

end Space

namespace Spaces

variable {spaces : Spaces} {datagramLen : Nat} {content : PacketContent}

end Spaces

end Dquic
