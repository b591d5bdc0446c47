import Dquic.Journal.Sent

/-!
# What happens to one record

Every operation of the journal but reserving and sealing goes record by record: it replaces or
removes the record of one packet number, moves its deadline along, and may empty its slots.
-/

namespace Dquic

instance : Std.TransCmp compareDeadline :=
  inferInstanceAs (Std.TransCmp (compareLex (compareOn Prod.fst) (compareOn Prod.snd)))

lemma compareDeadline_eq_iff {a b : Nat × Nat} : compareDeadline a b = .eq ↔ a = b := by
  simp [compareDeadline, compareLex, compareOn, Ordering.then_eq_eq, Prod.ext_iff]

instance : Std.LawfulEqCmp compareDeadline where
  eq_of_compare := compareDeadline_eq_iff.mp

namespace SentJournal

variable {φ : Type} {j j' : SentJournal φ} {pn : Nat} {p : SentPacket}

lemma getElem?_packets_insert (t : Std.TreeMap Nat SentPacket) (pn k : Nat) (p : SentPacket) :
    (t.insert pn p)[k]? = if k = pn then some p else t[k]? := by
  rw [Std.TreeMap.getElem?_insert]
  simp only [compare_eq_iff_eq, eq_comm (a := pn)]

lemma packets_insert_cases {t : Std.TreeMap Nat SentPacket} {n k : Nat} {q r : SentPacket}
    (h : (t.insert n q)[k]? = some r) : k = n ∧ r = q ∨ k ≠ n ∧ t[k]? = some r := by
  rw [getElem?_packets_insert] at h
  by_cases hk : k = n
  · rw [if_pos hk] at h
    exact .inl ⟨hk, (Option.some.inj h).symm⟩
  · rw [if_neg hk] at h
    exact .inr ⟨hk, h⟩

lemma getElem?_packets_erase (t : Std.TreeMap Nat SentPacket) (pn k : Nat) :
    (t.erase pn)[k]? = if k = pn then none else t[k]? := by
  rw [Std.TreeMap.getElem?_erase]
  simp only [compare_eq_iff_eq, eq_comm (a := pn)]

def Due (j : SentJournal φ) : Prop :=
  ∀ t pn, (t, pn) ∈ j.deadlines ↔ ∃ p, j.packets[pn]? = some p ∧ p.state.deadline = some t

/-- The record of `pn` becomes `new`, and the slots of `freed` are empty. -/
structure Touched (j j' : SentJournal φ) (pn : Nat) (new : Option SentPacket) (freed : Range) : Prop where
  packets : ∀ k, j'.packets[k]? = if k = pn then new else j.packets[k]?
  slots : ∀ k, j'.frames.slot k = if freed.Mem k then none else j.frames.slot k
  next : j'.frames.next = j.frames.next
  nextPn : j'.nextPn = j.nextPn
  due : j'.Due

def noRange : Range := ⟨0, 0⟩

lemma not_mem_noRange (i : Nat) : ¬noRange.Mem i := fun h => Nat.not_lt_zero i h.2

variable {new : Option SentPacket} {t : Nat}

lemma Due.exchange (hdue : j.Due) (hp : j.packets[pn]? = some p)
    (hpackets : ∀ k, j'.packets[k]? = if k = pn then new else j.packets[k]?)
    (hdeadlines : ∀ t k, (t, k) ∈ j'.deadlines ↔
      (k = pn ∧ ∃ q, new = some q ∧ q.state.deadline = some t) ∨
        (t, k) ∈ j.deadlines ∧ ¬(k = pn ∧ p.state.deadline = some t)) :
    j'.Due := by
  intro t k
  rw [hdeadlines, hpackets, hdue]
  by_cases hk : k = pn
  · subst hk
    simp only [hp, true_and, if_true, Option.some.injEq, exists_eq_left']
    constructor
    · rintro (hnew | ⟨hold, hnot⟩)
      · exact hnew
      · exact absurd hold hnot
    · exact Or.inl
  · simp [hk]

lemma Due.deadline (hdue : j.Due) (hp : j.packets[pn]? = some p) :
    (t, pn) ∈ j.deadlines ↔ p.state.deadline = some t := by
  rw [hdue]
  simp [hp]

lemma removePacket_eq (hdue : j.Due) (hp : j.packets[pn]? = some p) (state : SentPacketState) :
    ∃ j', j.removePacket pn state = some ({ p with state := state }, j') ∧ j'.frames = j.frames ∧
      j'.skippedPns = j.skippedPns ∧ Touched j j' pn none noRange := by
  unfold removePacket
  rw [hp]
  refine ⟨_, rfl, rfl, rfl, ?_, ?_, rfl, rfl, ?_⟩
  · exact fun k => getElem?_packets_erase j.packets pn k
  · exact fun k => (if_neg (not_mem_noRange k)).symm
  · apply hdue.exchange hp (fun k => getElem?_packets_erase j.packets pn k)
    intro t k
    dsimp only
    cases hstate : p.state.deadline with
    | none => simp
    | some deadline =>
      simp only [Std.TreeSet.mem_erase, ne_eq, compareDeadline_eq_iff, Prod.mk.injEq, Option.some.injEq]
      simp only [reduceCtorEq, false_and, exists_false, and_false, false_or]
      constructor
      · rintro ⟨hne, hmem⟩
        exact ⟨hmem, fun h => hne ⟨h.2, h.1.symm⟩⟩
      · rintro ⟨hmem, hne⟩
        exact ⟨fun h => hne ⟨h.2.symm, h.1⟩, hmem⟩

lemma Due.restate (hdue : j.Due) (hp : j.packets[pn]? = some p) {state : SentPacketState}
    (hstate : state.deadline = some t) {deadlines : Std.TreeSet (Nat × Nat) compareDeadline}
    (hdeadlines : ∀ u k, (u, k) ∈ deadlines ↔ (u = t ∧ k = pn) ∨ (u, k) ∈ j.deadlines ∧ k ≠ pn) :
    Touched j { j with packets := j.packets.insert pn { p with state := state }, deadlines := deadlines } pn
      (some { p with state := state }) noRange := by
  refine ⟨?_, ?_, rfl, rfl, ?_⟩
  · exact fun k => getElem?_packets_insert j.packets pn k _
  · exact fun k => (if_neg (not_mem_noRange k)).symm
  · intro u k
    change (u, k) ∈ deadlines ↔ ∃ q, (j.packets.insert pn { p with state := state })[k]? = some q ∧ _
    rw [hdeadlines, getElem?_packets_insert]
    by_cases hk : k = pn
    · subst hk
      simp only [and_true, ne_eq, not_true_eq_false, and_false, or_false, if_true, Option.some.injEq, exists_eq_left', hstate]
      exact eq_comm
    · rw [hdue]
      simp [hk]

lemma Touched.freed {j₁ : SentJournal φ} {freed : Range} (ht : Touched j j₁ pn new noRange)
    (hpackets : j'.packets = j₁.packets) (hdeadlines : j'.deadlines = j₁.deadlines) (hpn : j'.nextPn = j₁.nextPn)
    (hnext : j'.frames.next = j.frames.next)
    (hslots : ∀ k, j'.frames.slot k = if freed.Mem k then none else j.frames.slot k) : Touched j j' pn new freed where
  packets := hpackets ▸ ht.packets
  slots := hslots
  next := hnext
  nextPn := hpn.trans ht.nextPn
  due t k := by
    rw [hdeadlines, hpackets]
    exact ht.due t k

lemma Touched.replace {freed : Range} (ht : Touched j j' pn new freed) (hnone : new = none) {q : SentPacket}
    (hq : q.state.deadline = none) :
    Touched j { j' with packets := j'.packets.insert pn q } pn (some q) freed where
  packets k := by
    change (j'.packets.insert pn q)[k]? = _
    rw [getElem?_packets_insert, ht.packets]
    by_cases hk : k = pn
    · rw [if_pos hk, if_pos hk]
    · rw [if_neg hk, if_neg hk, if_neg hk]
  slots := ht.slots
  next := ht.next
  nextPn := ht.nextPn
  due t k := by
    change (t, k) ∈ j'.deadlines ↔ ∃ p, (j'.packets.insert pn q)[k]? = some p ∧ _
    rw [ht.due t k, getElem?_packets_insert, ht.packets]
    by_cases hk : k = pn
    · simp [hk, hnone, hq]
    · simp [hk]

lemma Due.erase (hdue : j.Due) (hp : j.packets[pn]? = some p) (hstate : p.state.deadline = none) :
    Touched j { j with packets := j.packets.erase pn } pn none noRange := by
  refine ⟨fun k => getElem?_packets_erase j.packets pn k, fun k => (if_neg (not_mem_noRange k)).symm, rfl, rfl, ?_⟩
  apply hdue.exchange hp (fun k => getElem?_packets_erase j.packets pn k)
  intro t k
  simp [hstate]

lemma Due.fly (hdue : j.Due) (hp : j.packets[pn]? = some p) (hstate : p.state.deadline = none)
    (retransAt expireAfter : Nat) :
    Touched j { j with packets := j.packets.insert pn { p with state := .flighting retransAt expireAfter },
                       deadlines := j.deadlines.insert (retransAt, pn) } pn
      (some { p with state := .flighting retransAt expireAfter }) noRange := by
  apply hdue.restate hp rfl
  intro u k
  have hnot : (u, pn) ∉ j.deadlines := by
    rw [hdue.deadline hp, hstate]
    exact nofun
  simp only [Std.TreeSet.mem_insert, compareDeadline_eq_iff, Prod.mk.injEq]
  constructor
  · rintro (⟨rfl, rfl⟩ | hmem)
    · exact .inl ⟨rfl, rfl⟩
    · refine .inr ⟨hmem, ?_⟩
      rintro rfl
      exact hnot hmem
  · rintro (⟨rfl, rfl⟩ | ⟨hmem, -⟩)
    · exact .inl ⟨rfl, rfl⟩
    · exact .inr hmem

lemma Due.expire (hdue : j.Due) (hp : j.packets[pn]? = some p) {retransAt expireAfter : Nat}
    (hstate : p.state = .flighting retransAt expireAfter) :
    Touched j { j with packets := j.packets.insert pn { p with state := .retransmitted expireAfter },
                       deadlines := (j.deadlines.erase (retransAt, pn)).insert (expireAfter, pn) } pn
      (some { p with state := .retransmitted expireAfter }) noRange := by
  apply hdue.restate hp rfl
  intro u k
  have honly : (u, pn) ∈ j.deadlines → u = retransAt := by
    rw [hdue.deadline hp, hstate]
    exact fun h => (Option.some.inj h).symm
  simp only [Std.TreeSet.mem_insert, Std.TreeSet.mem_erase, ne_eq, compareDeadline_eq_iff, Prod.mk.injEq]
  constructor
  · rintro (⟨rfl, rfl⟩ | ⟨hne, hmem⟩)
    · exact .inl ⟨rfl, rfl⟩
    · refine .inr ⟨hmem, ?_⟩
      rintro rfl
      exact hne ⟨(honly hmem).symm, rfl⟩
  · rintro (⟨rfl, rfl⟩ | ⟨hmem, hne⟩)
    · exact .inl ⟨rfl, rfl⟩
    · exact .inr ⟨fun h => hne h.2.symm, hmem⟩

/-! ### How much is left to do -/

def rank : Option SentPacket → Nat
  | some p =>
    match p.state with
    | .flighting _ _ => 2
    | .retransmitted _ => 1
    | _ => 0
  | none => 0

def work (j : SentJournal φ) : Nat := ∑ pn ∈ Finset.range j.nextPn, rank j.packets[pn]?

lemma rank_le (p : Option SentPacket) : rank p ≤ 2 := by
  unfold rank
  split
  · split <;> decide
  · decide

lemma work_le (j : SentJournal φ) : j.work ≤ 2 * j.nextPn := by
  have hsum := Finset.sum_le_card_nsmul (Finset.range j.nextPn) (fun pn => rank j.packets[pn]?) 2 (fun _ _ => rank_le _)
  rw [Finset.card_range, smul_eq_mul, mul_comm] at hsum
  exact hsum

lemma Touched.work_lt {freed : Range} (ht : Touched j j' pn new freed) (hlt : pn < j.nextPn)
    (hrank : rank new < rank j.packets[pn]?) : j'.work < j.work := by
  unfold work
  rw [ht.nextPn]
  apply Finset.sum_lt_sum
  · intro k _
    rw [ht.packets]
    by_cases hk : k = pn
    · rw [if_pos hk, hk]
      exact hrank.le
    · rw [if_neg hk]
  · refine ⟨pn, Finset.mem_range.mpr hlt, ?_⟩
    rw [ht.packets, if_pos rfl]
    exact hrank

end SentJournal

end Dquic
