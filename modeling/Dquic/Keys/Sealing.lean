import Dquic.Lib.System
import Dquic.Keys.Ring
import Dquic.Packet.Assemble

/-!
# Sealing up to the confidentiality limit

The ring of a sender with the packets of its paths.
-/

namespace Dquic

open Lib

inductive SealError
  | aead (e : QuicError)
  | layout
  deriving DecidableEq, Repr

/-- The checks of `seal::body` and `seal::header`. Tag and sample are of 16 bytes. -/
def sealLayout (len pnOffset bodyOffset tagLen : Nat) : Except SealError Unit := do
  if tagLen ≠ 16 then .error .layout
  if bodyOffset < pnOffset then .error .layout
  if len = 0 then .error .layout
  -- body
  if len < 16 then .error .layout
  if bodyOffset = 0 ∨ len - 16 < bodyOffset then .error .layout
  -- header
  if pnOffset = 0 ∨ ¬ (1 ≤ bodyOffset - pnOffset ∧ bodyOffset - pnOffset ≤ 4) ∨ len < pnOffset + 4 + 16 then .error .layout

/-- `ArcKeys::seal`, with the count of packets that its generation has sealed. It counts before it checks. -/
def arcKeysSeal (limit count len pnOffset bodyOffset tagLen : Nat) : Except SealError Unit × Nat :=
  if count < limit then (sealLayout len pnOffset bodyOffset tagLen, count + 1)
  else (.error (.aead (.withDefaultFty .aeadLimitReached "packet protection confidentiality limit")), count)

/-- The ring, how many packets each generation has counted, the generations of the keys that packets under way hold, and
of the packets that were sealed. -/
structure SealWorld where
  ring : PacketKeyRing
  sealedCount : Nat → Nat
  held : List Nat
  packets : List Nat

/-- What the paths, the connection and the peer do to the keys. A packet that stays empty drops its keys. -/
inductive SealOp
  | pnAndKeys
  | sealPacket (i : Nat) (packet : Encrypt.Packet) (len : Nat)
  | dropKeys (i : Nat)
  | update
  | allowUpdate
  | opening (now pn : Nat) (phase : Bool)
  | onOpened (now pn generation pto : Nat)
  | onAck (generation : Nat)

namespace SealWorld

def Issued (w : SealWorld) : SealOp → Prop
  | .sealPacket i packet len => i < w.held.length ∧ packet.layout len = some () ∧ packet.tagLen = 16 ∧
      ∃ header, packet.header = .short header
  | _ => True

def withRing (w : SealWorld) (ring : PacketKeyRing) : SealWorld := { w with ring := ring }

variable (limit : Nat)

/-- `DataSpace::pn_and_keys` expects keys. -/
def pnAndKeys (w : SealWorld) : Option SealWorld := do
  match ← w.ring.prepareSealing limit w.sealedCount with
  | (.error _, _) => none
  | (.ok (), ring) => do
    let back ← ring.keys.getLast?
    some { w with ring := ring, held := back.generation :: w.held }

/-- `Packet::seal` expects its keys to seal. -/
def sealPacket (w : SealWorld) (i : Nat) (packet : Encrypt.Packet) (len : Nat) : Option SealWorld := do
  let g ← w.held[i]?
  let pnOffset ← packet.header.pnOffset
  match arcKeysSeal limit (w.sealedCount g) len pnOffset (pnOffset + packet.pn.2.size) packet.tagLen with
  | (.error _, _) => none
  | (.ok (), count) => some { w with
      sealedCount := Function.update w.sealedCount g count, held := w.held.eraseIdx i, packets := g :: w.packets }

def exec (w : SealWorld) : SealOp → Option SealWorld
  | .pnAndKeys => w.pnAndKeys limit
  | .sealPacket i packet len => w.sealPacket limit i packet len
  | .dropKeys i => some { w with held := w.held.eraseIdx i }
  | .update => do
    let (_, ring) ← w.ring.update
    some (w.withRing ring)
  | .allowUpdate => some (w.withRing w.ring.allowUpdate)
  | .opening now pn phase => do
    let (_, ring) ← w.ring.opening now pn phase
    some (w.withRing ring)
  | .onOpened now pn g pto => do
    let ring ← w.ring.onOpened now pn g pto
    some (w.withRing ring)
  | .onAck g => do
    let ring ← w.ring.onAck g
    some (w.withRing ring)

/-- An update that is due may be made, or else the packets under way leave room for one more. -/
def Roomy (w : SealWorld) : SealOp → Prop
  | .pnAndKeys => ∀ back, w.ring.keys.getLast? = some back →
      if limit - 1 ≤ w.sealedCount back.generation ∧ w.ring.canUpdate then 0 < limit ∧ back.generation + 1 < 2 ^ 64
      else w.sealedCount back.generation + w.held.count back.generation < limit
  | _ => True

end SealWorld

def sealSystem (limit : Nat) : System SealWorld SealOp where
  init w := w = ⟨.initial, fun _ => 0, [], []⟩
  issued := SealWorld.Issued
  exec := SealWorld.exec limit

/-! ### Counting -/

lemma sealLayout_ok {len pnOffset pnLen : Nat} (hpos : 0 < pnOffset) (hone : 1 ≤ pnLen) (hfour : pnLen ≤ 4)
    (hlen : pnOffset + 4 + 16 ≤ len) : sealLayout len pnOffset (pnOffset + pnLen) 16 = .ok () := by
  have hsub : pnOffset + pnLen - pnOffset = pnLen := by omega
  unfold sealLayout
  rw [if_neg (by simp), if_neg (by omega), if_neg (by omega), if_neg (by omega), if_neg (by omega), hsub, if_neg (by omega)]
  rfl

lemma PacketNumber.size_bounds (pn : PacketNumber) : 1 ≤ pn.size ∧ pn.size ≤ 4 := by
  cases pn with
  | u8 | u16 | u24 | u32 => simp [size]

namespace SealWorld

variable {limit : Nat} {w w' : SealWorld}

variable {i : Nat} {op : SealOp} {back : PacketKeyState} {r : PacketKeyRing} {sealedCount : Nat → Nat}

lemma sealPacket_spec (limit : Nat) {len : Nat} {packet : Encrypt.Packet}
    (hissued : w.Issued (.sealPacket i packet len)) :
    ∃ g, w.held[i]? = some g ∧ w.sealPacket limit i packet len =
      if w.sealedCount g < limit then some { w with
        sealedCount := Function.update w.sealedCount g (w.sealedCount g + 1), held := w.held.eraseIdx i
        packets := g :: w.packets }
      else none := by
  obtain ⟨hi, hlayout, htag, header, hheader⟩ := hissued
  have hpn : packet.header.pnOffset = some (1 + header.dcid.bytes.length) := by
    rw [hheader]
    rfl
  simp only [Encrypt.Packet.layout, hpn, some_bind] at hlayout
  obtain ⟨-, -, hlen⟩ := of_debugAssert hlayout
  refine ⟨_, List.getElem?_eq_getElem hi, ?_⟩
  obtain ⟨hone, hfour⟩ := packet.pn.2.size_bounds
  have hok := sealLayout_ok (by omega) hone hfour hlen
  simp only [sealPacket, arcKeysSeal, List.getElem?_eq_getElem hi, hpn, htag, hok, some_bind]
  split_ifs with hlt
  · rfl
  · rfl

/-- What a step may do: move the ring on, drop keys, select keys, or seal with keys that were selected. -/
lemma exec_cases (hcons : w.ring.Consecutive) (hissued : w.Issued op) (hexec : w.exec limit op = some w') :
    (∃ ring : PacketKeyRing, ring.Consecutive ∧ w.ring.upcoming ≤ ring.upcoming ∧ w' = w.withRing ring) ∨
    (∃ i, w' = { w with held := w.held.eraseIdx i }) ∨
    (op = .pnAndKeys ∧ ∃ ring back, w.ring.prepareSealing limit w.sealedCount = some (.ok (), ring) ∧
      ring.keys.getLast? = some back ∧ w' = { w with ring := ring, held := back.generation :: w.held }) ∨
    (∃ i g, w.held[i]? = some g ∧ w.sealedCount g < limit ∧ w' = { w with
      sealedCount := Function.update w.sealedCount g (w.sealedCount g + 1), held := w.held.eraseIdx i
      packets := g :: w.packets }) := by
  have hadvance : ∀ {ring : PacketKeyRing}, w.ring.Advances ring → w' = w.withRing ring →
      ∃ ring : PacketKeyRing, ring.Consecutive ∧ w.ring.upcoming ≤ ring.upcoming ∧ w' = w.withRing ring :=
    fun hadv heq => ⟨_, hadv.consecutive, hadv.upcoming_le, heq⟩
  cases op with
  | pnAndKeys =>
    simp only [exec, pnAndKeys, Option.bind_eq_bind, Option.bind_eq_some_iff] at hexec
    obtain ⟨⟨result, ring⟩, hprep, hexec⟩ := hexec
    cases result with
    | error e => cases hexec
    | ok _ =>
      simp only [Option.bind_eq_some_iff, Option.some.injEq] at hexec
      obtain ⟨back, hback, hexec⟩ := hexec
      exact Or.inr (Or.inr (Or.inl ⟨rfl, ring, back, hprep, hback, hexec.symm⟩))
  | sealPacket i packet len =>
    obtain ⟨g, hg, hseal⟩ := sealPacket_spec limit hissued
    rw [exec, hseal] at hexec
    split_ifs at hexec with hlt
    exact Or.inr (Or.inr (Or.inr ⟨i, g, hg, hlt, (Option.some.inj hexec).symm⟩))
  | dropKeys i => exact Or.inr (Or.inl ⟨i, (Option.some.inj hexec).symm⟩)
  | update =>
    simp only [exec, Option.bind_eq_bind, Option.bind_eq_some_iff, Option.some.injEq] at hexec
    obtain ⟨⟨result, ring⟩, hupdate, hexec⟩ := hexec
    exact Or.inl (hadvance (PacketKeyRing.update_advances hcons hupdate) hexec.symm)
  | allowUpdate =>
    exact Or.inl (hadvance (PacketKeyRing.Advances.of_keys hcons (Or.inl rfl)) (Option.some.inj hexec).symm)
  | opening now pn phase =>
    simp only [exec, Option.bind_eq_bind, Option.bind_eq_some_iff, Option.some.injEq] at hexec
    obtain ⟨⟨result, ring⟩, hopen, hexec⟩ := hexec
    exact Or.inl (hadvance (PacketKeyRing.opening_advances hcons hopen).1 hexec.symm)
  | onOpened now pn g pto =>
    simp only [exec, Option.bind_eq_bind, Option.bind_eq_some_iff, Option.some.injEq] at hexec
    obtain ⟨ring, hopen, hexec⟩ := hexec
    obtain ⟨r₁, hadv, -, hcons', hup, -, -⟩ := PacketKeyRing.onOpened_spec hcons hopen
    exact Or.inl ⟨ring, hcons', hadv.upcoming_le.trans hup.ge, hexec.symm⟩
  | onAck g =>
    simp only [exec, Option.bind_eq_bind, Option.bind_eq_some_iff, Option.some.injEq] at hexec
    obtain ⟨ring, hack, hexec⟩ := hexec
    exact Or.inl (hadvance (PacketKeyRing.onAck_advances hcons hack) hexec.symm)

/-- No generation has sealed more than it counted, nor counted more than the limit. -/
structure Limited (limit : Nat) (w : SealWorld) : Prop where
  consecutive : w.ring.Consecutive
  counted : ∀ g, w.packets.count g ≤ w.sealedCount g
  limited : ∀ g, w.sealedCount g ≤ limit

lemma Limited.step (h : Limited limit w) (hissued : w.Issued op) (hexec : w.exec limit op = some w') :
    Limited limit w' := by
  rcases exec_cases h.consecutive hissued hexec with ⟨ring, hcons, -, rfl⟩ | ⟨i, rfl⟩ |
    ⟨-, ring, back, hprep, -, rfl⟩ | ⟨i, g, -, hlt, rfl⟩
  · exact ⟨hcons, h.counted, h.limited⟩
  · exact ⟨h.consecutive, h.counted, h.limited⟩
  · exact ⟨(PacketKeyRing.prepareSealing_advances h.consecutive hprep).consecutive, h.counted, h.limited⟩
  · refine ⟨h.consecutive, fun c => ?_, fun c => ?_⟩
    · have hc := h.counted c
      by_cases hcg : c = g
      · subst hcg
        simp only [Function.update_self, List.count_cons_self]
        omega
      · simpa only [Function.update_of_ne hcg, List.count_cons_of_ne (Ne.symm hcg)] using hc
    · by_cases hcg : c = g
      · subst hcg
        simp only [Function.update_self]
        exact hlt
      · simpa only [Function.update_of_ne hcg] using h.limited c

/-- Room for the packets under way, and nothing under generations that are not in use yet. -/
structure Reserved (limit : Nat) (w : SealWorld) : Prop where
  consecutive : w.ring.Consecutive
  room : ∀ g, w.sealedCount g + w.held.count g ≤ limit
  fresh : ∀ g, w.ring.upcoming ≤ g → w.sealedCount g + w.held.count g = 0

lemma prepareSealing_renewed (h : r.Consecutive) (hback : r.keys.getLast? = some back)
    (hdue : limit - 1 ≤ sealedCount back.generation ∧ r.canUpdate) (hlt : r.upcoming < 2 ^ 64)
    (hnew : sealedCount r.upcoming < limit) :
    ∃ r', r.prepareSealing limit sealedCount = some (.ok (), r') ∧ r'.upcoming = r.upcoming + 1 := by
  obtain ⟨result, r', hupdate, hadv, hok⟩ := PacketKeyRing.update_spec h
  obtain ⟨rfl, hup⟩ := hok hdue.2 hlt
  obtain ⟨back', hback', hgen⟩ := hadv.consecutive.back
  have hnew' : ¬ limit ≤ sealedCount back'.generation := by
    rw [show back'.generation = r.upcoming by omega]
    omega
  refine ⟨r', ?_, hup⟩
  unfold PacketKeyRing.prepareSealing PacketKeyRing.renew
  simp only [hback, some_bind, if_pos hdue, hupdate, hback', if_neg hnew']

lemma prepareSealing_kept (hback : r.keys.getLast? = some back)
    (hdue : ¬ (limit - 1 ≤ sealedCount back.generation ∧ r.canUpdate)) (hroom : sealedCount back.generation < limit) :
    r.prepareSealing limit sealedCount = some (.ok (), r) := by
  unfold PacketKeyRing.prepareSealing PacketKeyRing.renew
  simp only [hback, some_bind, if_neg hdue, if_neg (Nat.not_le.mpr hroom)]

lemma Reserved.prepareSealing (h : Reserved limit w) (hroomy : w.Roomy limit .pnAndKeys) :
    ∃ ring back, w.ring.prepareSealing limit w.sealedCount = some (.ok (), ring) ∧ ring.keys.getLast? = some back ∧
      ring.Consecutive ∧ w.ring.upcoming ≤ ring.upcoming ∧ back.generation < ring.upcoming ∧
      w.sealedCount back.generation + w.held.count back.generation < limit := by
  obtain ⟨back, hback, hgen⟩ := h.consecutive.back
  have hroom := hroomy back hback
  split_ifs at hroom with hdue
  · obtain ⟨hpos, hlt⟩ := hroom
    have hnew := h.fresh w.ring.upcoming le_rfl
    obtain ⟨ring, hprep, hup⟩ := prepareSealing_renewed h.consecutive hback hdue (by omega) (by omega)
    have hcons := (PacketKeyRing.prepareSealing_advances h.consecutive hprep).consecutive
    obtain ⟨back', hback', hgen'⟩ := hcons.back
    have hsame : back'.generation = w.ring.upcoming := by omega
    refine ⟨ring, back', hprep, hback', hcons, by omega, by omega, ?_⟩
    rw [hsame]
    omega
  · exact ⟨w.ring, back, prepareSealing_kept hback hdue (by omega), hback, h.consecutive, le_rfl, by omega, hroom⟩

lemma count_eraseIdx_le (l : List Nat) (i g : Nat) : (l.eraseIdx i).count g ≤ l.count g :=
  (List.eraseIdx_sublist l i).count_le g

lemma count_eraseIdx_of_getElem? {l : List Nat} {g : Nat} (h : l[i]? = some g) :
    (l.eraseIdx i).count g + 1 = l.count g := by
  obtain ⟨hi, rfl⟩ := List.getElem?_eq_some_iff.mp h
  have hperm := (List.getElem_cons_eraseIdx_perm hi).count_eq l[i]
  rw [List.count_cons_self] at hperm
  exact hperm

lemma Reserved.step (h : Reserved limit w) (hissued : w.Issued op) (hroomy : w.Roomy limit op)
    (hexec : w.exec limit op = some w') : Reserved limit w' := by
  rcases exec_cases h.consecutive hissued hexec with ⟨ring, hcons, hup, rfl⟩ | ⟨i, rfl⟩ |
    ⟨rfl, ring, back, hprep, hback, rfl⟩ | ⟨i, g, hg, hlt, rfl⟩
  · exact ⟨hcons, h.room, fun g hg => h.fresh g (hup.trans hg)⟩
  · refine ⟨h.consecutive, fun g => ?_, fun g hg => ?_⟩
    · exact (Nat.add_le_add_left (count_eraseIdx_le w.held i g) _).trans (h.room g)
    · have hle := count_eraseIdx_le w.held i g
      have hfresh := h.fresh g hg
      change w.sealedCount g + (w.held.eraseIdx i).count g = 0
      omega
  · obtain ⟨ring', back', hprep', hback', hcons, hup, hnew, hroom⟩ := h.prepareSealing hroomy
    cases hprep.symm.trans hprep'
    cases hback.symm.trans hback'
    refine ⟨hcons, fun g => ?_, fun g hg => ?_⟩
    · have hg := h.room g
      change w.sealedCount g + (back.generation :: w.held).count g ≤ limit
      rw [List.count_cons]
      split_ifs with heq
      · rw [beq_iff_eq] at heq
        subst heq
        omega
      · omega
    · have hfresh := h.fresh g (hup.trans hg)
      change w.sealedCount g + (back.generation :: w.held).count g = 0
      rw [List.count_cons_of_ne (by have : ring.upcoming ≤ g := hg; omega)]
      exact hfresh
  · have hpos : 0 < w.held.count g := List.count_pos_iff.mpr (List.mem_of_getElem? hg)
    refine ⟨h.consecutive, fun c => ?_, fun c hc => ?_⟩
    · have hroom := h.room c
      by_cases hcg : c = g
      · subst hcg
        have herase := count_eraseIdx_of_getElem? hg
        simp only [Function.update_self]
        omega
      · have hle := count_eraseIdx_le w.held i c
        simp only [Function.update_of_ne hcg]
        omega
    · have hfresh := h.fresh c hc
      have hcg : c ≠ g := by
        rintro rfl
        omega
      have hle := count_eraseIdx_le w.held i c
      simp only [Function.update_of_ne hcg]
      omega

end SealWorld

/-- No generation seals more packets than its limit. In every run whose selections of keys are made with room for
them, both the selection and the sealing of packets succeed. -/
theorem sealing_within_limit (limit : Nat) :
    (∀ w, (sealSystem limit).Reach w → ∀ g, w.packets.count g ≤ limit) ∧
    ∀ w, ((sealSystem limit).restrict (SealWorld.Roomy limit)).Reach w →
      (w.Roomy limit .pnAndKeys → ∃ w', w.exec limit .pnAndKeys = some w') ∧
      ∀ i packet len, w.Issued (.sealPacket i packet len) → ∃ w', w.exec limit (.sealPacket i packet len) = some w' := by
  constructor
  · intro w hr g
    have h : SealWorld.Limited limit w := by
      apply hr.invariant (I := SealWorld.Limited limit)
      · rintro s rfl
        exact ⟨PacketKeyRing.initial_consecutive, fun g => le_rfl, fun g => Nat.zero_le _⟩
      · intro s op s' h hissued hexec
        exact h.step hissued hexec
    exact (h.counted g).trans (h.limited g)
  · intro w hr
    have h : SealWorld.Reserved limit w := by
      apply hr.invariant (I := SealWorld.Reserved limit)
      · rintro s rfl
        exact ⟨PacketKeyRing.initial_consecutive, fun g => Nat.zero_le _, fun g _ => rfl⟩
      · intro s op s' h hissued hexec
        exact h.step hissued.1 hissued.2 hexec
    refine ⟨fun hroomy => ?_, fun i packet len hissued => ?_⟩
    · obtain ⟨ring, back, hprep, hback, -⟩ := h.prepareSealing hroomy
      simp only [SealWorld.exec, SealWorld.pnAndKeys, hprep, hback, some_bind]
      exact ⟨_, rfl⟩
    · obtain ⟨g, hg, hseal⟩ := SealWorld.sealPacket_spec limit hissued
      have hpos : 0 < w.held.count g := List.count_pos_iff.mpr (List.mem_of_getElem? hg)
      have hroom := h.room g
      rw [SealWorld.exec, hseal, if_pos (by omega)]
      exact ⟨_, rfl⟩

/-! ### A peer that gives no permission -/

section Exhausted

def pingPacket : Encrypt.Packet :=
  ⟨.short ⟨false, ⟨[], by decide⟩⟩, (0, .u8 0), PacketMeta.record (.new (.short false)) (.ping : Frame Unit), 16, 5, true⟩

/-- The first keys have sealed `n` packets, and packets under way hold them. -/
def sealedWorld (n : Nat) (held : List Nat) : SealWorld :=
  ⟨.initial, fun g => if g = 0 then n else 0, held, List.replicate n 0⟩

variable {limit : Nat}

lemma issued_pingPacket (n : Nat) (held : List Nat) :
    (sealedWorld n (0 :: held)).Issued (.sealPacket 0 pingPacket 21) :=
  ⟨by simp [sealedWorld], rfl, rfl, _, rfl⟩

variable {n : Nat}

lemma exec_pnAndKeys (held : List Nat) (hlt : n < limit) :
    (sealedWorld n held).exec limit .pnAndKeys = some (sealedWorld n (0 :: held)) := by
  have hprep : (PacketKeyRing.initial).prepareSealing limit (sealedWorld n held).sealedCount =
      some (.ok (), .initial) := by
    apply SealWorld.prepareSealing_kept rfl
    · rintro ⟨-, hcan⟩
      cases hcan
    · exact hlt
  change ((PacketKeyRing.initial).prepareSealing limit (sealedWorld n held).sealedCount).bind _ = _
  rw [hprep]
  rfl

lemma exec_sealPacket (n : Nat) (held : List Nat) :
    (sealedWorld n (0 :: held)).exec limit (.sealPacket 0 pingPacket 21) =
    if n < limit then some (sealedWorld (n + 1) held) else none := by
  obtain ⟨g, hg, hseal⟩ := SealWorld.sealPacket_spec limit (issued_pingPacket n held)
  cases hg
  have hcount : Function.update (sealedWorld n (0 :: held)).sealedCount 0 (n + 1) =
      (sealedWorld (n + 1) held).sealedCount := by
    funext c
    by_cases hc : c = 0
    · subst hc
      rfl
    · rw [Function.update_of_ne hc]
      simp [sealedWorld, hc]
  rw [SealWorld.exec, hseal]
  change (if n < limit then some { sealedWorld n (0 :: held) with
    sealedCount := Function.update (sealedWorld n (0 :: held)).sealedCount 0 (n + 1), held := held
    packets := 0 :: List.replicate n 0 } else none) = _
  rw [hcount]
  rfl

lemma reach_sealedWorld (hle : n ≤ limit) : (sealSystem limit).Reach (sealedWorld n []) := by
  induction n with
  | zero =>
    refine .start ?_
    simp [sealSystem, sealedWorld]
  | succ n ih =>
    have hlt : n < limit := by omega
    have hr := (ih (by omega)).step (e := SealOp.pnAndKeys) trivial (exec_pnAndKeys [] hlt)
    refine hr.step (e := SealOp.sealPacket 0 pingPacket 21) (issued_pingPacket n []) ?_
    exact (exec_sealPacket n []).trans (if_pos hlt)

end Exhausted

/-- The first packet of a connection seals. -/
theorem sealing_within_limit_first : ∃ w, ((sealSystem (2 ^ 23)).restrict (SealWorld.Roomy (2 ^ 23))).Reach w ∧
    w.held = [0] ∧ ∃ w', w.exec (2 ^ 23) (.sealPacket 0 pingPacket 21) = some w' := by
  have h₀ : ((sealSystem (2 ^ 23)).restrict (SealWorld.Roomy (2 ^ 23))).Reach ⟨.initial, fun _ => 0, [], []⟩ := .start rfl
  have hroomy : SealWorld.Roomy (2 ^ 23) ⟨.initial, fun _ => 0, [], []⟩ .pnAndKeys := by
    intro back hback
    cases hback
    simp [PacketKeyRing.initial]
  have h₁ := h₀.step (e := SealOp.pnAndKeys) ⟨trivial, hroomy⟩ rfl
  exact ⟨_, h₁, rfl, ((sealing_within_limit (2 ^ 23)).2 _ h₁).2 0 pingPacket 21 ⟨by decide, rfl, rfl, _, rfl⟩⟩

/-- Without permission to update, no keys are left once the first ones are used up. Of two packets that take keys before
the last one is sealed, the second cannot be sealed. -/
theorem sealing_panics_at_limit :
    (∃ w, (sealSystem (2 ^ 23)).Reach w ∧ w.exec (2 ^ 23) .pnAndKeys = none) ∧
    ∃ w, (sealSystem (2 ^ 23)).Reach w ∧ w.Issued (.sealPacket 0 pingPacket 21) ∧
      w.exec (2 ^ 23) (.sealPacket 0 pingPacket 21) = none := by
  constructor
  · exact ⟨sealedWorld (2 ^ 23) [], reach_sealedWorld le_rfl, rfl⟩
  · have hlt : 2 ^ 23 - 1 < 2 ^ 23 := by omega
    have h₀ : (sealSystem (2 ^ 23)).Reach (sealedWorld (2 ^ 23 - 1) []) := reach_sealedWorld hlt.le
    have h₁ := h₀.step (e := SealOp.pnAndKeys) trivial (exec_pnAndKeys [] hlt)
    have h₂ := h₁.step (e := SealOp.pnAndKeys) trivial (exec_pnAndKeys [0] hlt)
    have h₃ := h₂.step (e := SealOp.sealPacket 0 pingPacket 21) (issued_pingPacket _ [0])
      ((exec_sealPacket _ [0]).trans (if_pos hlt))
    exact ⟨_, h₃, issued_pingPacket _ [], (exec_sealPacket _ []).trans (if_neg (by omega))⟩

end Dquic
