import Dquic.Journal.Kept

/-!
# What the owners of frames are told

A frame is known by its position among all frames ever given to the journal.
-/

namespace Dquic

inductive Fate
  | acked
  | lost
  | cancelled
  deriving DecidableEq, Repr

namespace Fate

def histories : List (List Fate) := [[], [.lost], [.acked], [.lost, .acked], [.cancelled]]

/-- Each fate is told once at most, and none contradicts an earlier one. -/
structure Consistent (told : List Fate) : Prop where
  acked_once : told.count .acked ≤ 1
  lost_once : told.count .lost ≤ 1
  cancelled_once : told.count .cancelled ≤ 1
  after_acked : told.Pairwise (fun a b => a = .acked → b ≠ .lost ∧ b ≠ .cancelled)
  after_cancelled : told.Pairwise (fun a b => a = .cancelled → b ≠ .acked ∧ b ≠ .lost)

lemma consistent_of_mem {told : List Fate} (h : told ∈ histories) : Consistent told := by
  have hall : ∀ l ∈ histories, l.count .acked ≤ 1 ∧ l.count .lost ≤ 1 ∧ l.count .cancelled ≤ 1 ∧
      l.Pairwise (fun a b => a = .acked → b ≠ .lost ∧ b ≠ .cancelled) ∧
      l.Pairwise (fun a b => a = .cancelled → b ≠ .acked ∧ b ≠ .lost) := by decide
  obtain ⟨hacked, hlost, hcancelled, hafter, hafter'⟩ := hall told h
  exact ⟨hacked, hlost, hcancelled, hafter, hafter'⟩

end Fate

def SentPacketState.told : SentPacketState → List Fate
  | .retransmitted _ => [.lost]
  | _ => []

/-- All frames given to the journal, the packet numbers sealed with them, those submitted or cancelled, and what was
told about frames, each with its position. -/
structure JournalHistory (φ : Type) where
  given : List φ
  sealedPns : List Nat
  finished : List Nat
  log : List (Fate × φ × Nat)

namespace JournalHistory

variable {φ : Type}

def tell (h : JournalHistory φ) (fate : Fate) (frames : List (φ × Nat)) : JournalHistory φ :=
  { h with log := h.log ++ frames.map (fun f => (fate, f)) }

/-- What was told about the frame at a position, from the first to the last. -/
def told (h : JournalHistory φ) (i : Nat) : List Fate := (h.log.filter (fun e => e.2.2 = i)).map Prod.fst

def give (h : JournalHistory φ) (pn : Nat) (frames : List φ) : JournalHistory φ :=
  { h with given := h.given ++ frames, sealedPns := pn :: h.sealedPns }

def finish (h : JournalHistory φ) (pn : Nat) : JournalHistory φ := { h with finished := pn :: h.finished }

lemma tell_nil (h : JournalHistory φ) (fate : Fate) : h.tell fate [] = h := by
  unfold tell
  rw [List.map_nil, List.append_nil]

lemma tell_append (h : JournalHistory φ) (fate : Fate) (fs gs : List (φ × Nat)) :
    h.tell fate (fs ++ gs) = (h.tell fate fs).tell fate gs := by
  unfold tell
  rw [List.map_append, List.append_assoc]

lemma told_tell {h : JournalHistory φ} {fate : Fate} {frames : List (φ × Nat)} {start n : Nat}
    (hframes : frames.map Prod.snd = List.range' start n) (i : Nat) :
    (h.tell fate frames).told i = h.told i ++ if start ≤ i ∧ i < start + n then [fate] else [] := by
  have hfilter : ∀ (frames : List (φ × Nat)) (start n : Nat), frames.map Prod.snd = List.range' start n →
      ((frames.map (fun f => (fate, f))).filter (fun e => e.2.2 = i)).map Prod.fst =
        if start ≤ i ∧ i < start + n then [fate] else [] := by
    intro frames
    induction frames with
    | nil =>
      intro start n hn
      have hzero : n = 0 := by simpa using congrArg List.length hn.symm
      rw [if_neg (by omega)]
      rfl
    | cons f frames ih =>
      intro start n hn
      cases n with
      | zero => cases hn
      | succ n =>
        rw [List.map_cons, List.range'_succ, List.cons.injEq] at hn
        have hrest := ih (start + 1) n hn.2
        by_cases hi : f.2 = i
        · rw [List.map_cons, List.filter_cons_of_pos (by simpa using hi), List.map_cons, hrest,
            if_neg (by omega), if_pos (by omega)]
        · rw [List.map_cons, List.filter_cons_of_neg (by simpa using hi), hrest]
          by_cases hin : start ≤ i ∧ i < start + (n + 1)
          · rw [if_pos (by omega), if_pos hin]
          · rw [if_neg (by omega), if_neg hin]
  change ((h.log ++ frames.map (fun f => (fate, f))).filter _).map Prod.fst = _
  rw [List.filter_append, List.map_append, hfilter frames start n hframes]
  rfl

end JournalHistory

namespace SentJournal

variable {φ : Type}

/-- A record that was submitted has a deadline. One that was not is pending, or was acknowledged early. -/
def Stage (finished : List Nat) (pn : Nat) (p : SentPacket) : Prop :=
  (pn ∈ finished ∧ p.state.deadline ≠ none) ∨ (pn ∉ finished ∧ (p.state = .pending ∨ p.state = .acked))

structure Agrees (j : SentJournal (φ × Nat)) (h : JournalHistory φ) : Prop where
  due : j.Due
  next : j.frames.next = h.given.length
  labelled : ∀ i f, j.frames.slot i = some f → f.2 = i ∧ h.given[i]? = some f.1
  bound : ∀ (pn : Nat) (p : SentPacket), j.packets[pn]? = some p → pn < j.nextPn
  filled : ∀ (pn : Nat) (p : SentPacket), j.packets[pn]? = some p → ∀ i, p.frameRange.Mem i → (j.frames.slot i).isSome
  disjoint : ∀ (pn : Nat) (p : SentPacket) (pn' : Nat) (p' : SentPacket) i, j.packets[pn]? = some p → j.packets[pn']? = some p' →
    p.frameRange.Mem i → p'.frameRange.Mem i → pn = pn'
  finished_lt : ∀ pn ∈ h.finished, pn < j.nextPn
  stage : ∀ (pn : Nat) (p : SentPacket), j.packets[pn]? = some p → Stage h.finished pn p
  reserved : ∀ pn < j.nextPn, pn ∉ h.sealedPns → pn ∉ h.finished →
    ∃ p : SentPacket, j.packets[pn]? = some p ∧ p.state = .pending ∧ p.frameRange.stop ≤ p.frameRange.start
  known : ∀ e ∈ h.log, h.given[e.2.2]? = some e.2.1
  told : ∀ (pn : Nat) (p : SentPacket), j.packets[pn]? = some p → ∀ i, p.frameRange.Mem i → h.told i = p.state.told
  histories : ∀ i, h.told i ∈ Fate.histories

namespace Agrees

variable {j j' : SentJournal (φ × Nat)} {h h' : JournalHistory φ} {pn : Nat} {p : SentPacket}

lemma told_of_le (ha : j.Agrees h) {i : Nat} (hi : h.given.length ≤ i) : h.told i = [] := by
  unfold JournalHistory.told
  rw [List.map_eq_nil_iff, List.filter_eq_nil_iff]
  intro e he hei
  have hknown := ha.known e he
  rw [of_decide_eq_true hei, List.getElem?_eq_none hi] at hknown
  cases hknown

lemma finished (ha : j.Agrees h) (hp : j.packets[pn]? = some p) (hstate : p.state.deadline ≠ none) :
    pn ∈ h.finished := by
  rcases ha.stage pn p hp with ⟨hin, -⟩ | ⟨-, hpending | hacked⟩
  · exact hin
  · exact absurd (by rw [hpending]; rfl) hstate
  · exact absurd (by rw [hacked]; rfl) hstate

lemma unfinished (ha : j.Agrees h) (hp : j.packets[pn]? = some p) (hnot : pn ∉ h.finished) :
    p.state = .pending ∨ p.state = .acked := by
  rcases ha.stage pn p hp with ⟨hin, -⟩ | ⟨-, hstate⟩
  · exact absurd hin hnot
  · exact hstate

lemma kept (ha : j.Agrees h) : j.Kept := ⟨ha.due, ha.bound, ha.filled, ha.disjoint⟩

lemma framesOf (ha : j.Agrees h) (hp : j.packets[pn]? = some p) :
    (∀ f ∈ j.framesOf p, h.given[f.2]? = some f.1) ∧
      ∀ fate i, (h.tell fate (j.framesOf p)).told i = h.told i ++ if p.frameRange.Mem i then [fate] else [] := by
  obtain ⟨-, -, -, -, -, hlen, hfs⟩ := ha.kept.takeSlots hp
  have hlabel : ∀ k f, (j.framesOf p)[k]? = some f → f.2 = p.frameRange.start + k ∧ h.given[f.2]? = some f.1 := by
    intro k f hk
    obtain ⟨hlt, -⟩ := List.getElem?_eq_some_iff.mp hk
    obtain ⟨heq, hgiven⟩ := ha.labelled _ f ((hfs k (by omega)).trans hk)
    exact ⟨heq, heq ▸ hgiven⟩
  have hrange : (j.framesOf p).map Prod.snd = List.range' p.frameRange.start (p.frameRange.stop - p.frameRange.start) := by
    apply List.ext_getElem?
    intro k
    rw [List.getElem?_map]
    by_cases hk : k < (j.framesOf p).length
    · obtain ⟨heq, -⟩ := hlabel k _ (List.getElem?_eq_getElem hk)
      rw [List.getElem?_eq_getElem hk, List.getElem?_range' (by omega)]
      simp [heq]
    · rw [List.getElem?_eq_none (by omega), List.getElem?_eq_none (by rw [List.length_range']; omega)]
      rfl
  constructor
  · intro f hf
    obtain ⟨k, hk⟩ := List.getElem?_of_mem hf
    exact (hlabel k f hk).2
  · intro fate i
    have hmem : (p.frameRange.start ≤ i ∧ i < p.frameRange.start + (p.frameRange.stop - p.frameRange.start)) ↔
        p.frameRange.Mem i := by
      unfold Range.Mem
      omega
    rw [JournalHistory.told_tell hrange]
    simp only [hmem]

lemma touched (ha : j.Agrees h) (hp : j.packets[pn]? = some p) {new : Option SentPacket} {freed : Range}
    (ht : Touched j j' pn new freed) (hfreed : ∀ i, freed.Mem i → p.frameRange.Mem i)
    (hgiven : h'.given = h.given) (hsealed : h'.sealedPns = h.sealedPns)
    (hothers : ∀ k, k ≠ pn → (k ∈ h'.finished ↔ k ∈ h.finished))
    (hdone : pn ∈ h'.sealedPns ∨ pn ∈ h'.finished)
    (hknown : ∀ e ∈ h'.log, h.given[e.2.2]? = some e.2.1)
    (htold : ∀ i, if p.frameRange.Mem i then h'.told i ∈ Fate.histories else h'.told i = h.told i)
    (hnew : ∀ q, new = some q → Stage h'.finished pn q ∧
      ∀ i, q.frameRange.Mem i → p.frameRange.Mem i ∧ ¬freed.Mem i ∧ h'.told i = q.state.told) :
    j'.Agrees h' := by
  have hother : ∀ (k : Nat) (q : SentPacket), k ≠ pn → j'.packets[k]? = some q →
      j.packets[k]? = some q ∧ ∀ i, q.frameRange.Mem i → ¬p.frameRange.Mem i := by
    intro k q hk hq
    rw [ht.packets, if_neg hk] at hq
    exact ⟨hq, fun i hi hpi => hk (ha.disjoint k q pn p i hq hp hi hpi)⟩
  have hself : ∀ q, j'.packets[pn]? = some q → new = some q := by
    intro q hq
    rwa [ht.packets, if_pos rfl] at hq
  have hkept : j'.Kept := ha.kept.touched hp ht hfreed
    (fun q hq i hi => ⟨((hnew q hq).2 i hi).1, ((hnew q hq).2 i hi).2.1⟩)
  exact
    { hkept with
      next := by rw [ht.next, hgiven, ha.next]
      labelled := fun i f hf => by
        rw [ht.slots] at hf
        split at hf
        · cases hf
        · rw [hgiven]
          exact ha.labelled i f hf
      finished_lt := fun k hk => by
        rw [ht.nextPn]
        by_cases hkpn : k = pn
        · exact hkpn ▸ ha.bound pn p hp
        · exact ha.finished_lt k ((hothers k hkpn).mp hk)
      stage := fun k q hq => by
        by_cases hk : k = pn
        · subst hk
          exact (hnew q (hself q hq)).1
        · have hstage := ha.stage k q (hother k q hk hq).1
          unfold Stage at hstage ⊢
          simp only [hothers k hk]
          exact hstage
      reserved := fun k hlt hns hnf => by
        have hk : k ≠ pn := by
          rintro rfl
          exact hdone.elim hns hnf
        rw [ht.packets, if_neg hk]
        rw [ht.nextPn] at hlt
        exact ha.reserved k hlt (hsealed ▸ hns) (fun hf => hnf ((hothers k hk).mpr hf))
      known := fun e he => by
        rw [hgiven]
        exact hknown e he
      told := fun k q hq i hi => by
        by_cases hk : k = pn
        · subst hk
          exact ((hnew q (hself q hq)).2 i hi).2.2
        · obtain ⟨hold, hdisj⟩ := hother k q hk hq
          have hsame := htold i
          rw [if_neg (hdisj i hi)] at hsame
          rw [hsame]
          exact ha.told k q hold i hi
      histories := fun i => by
        have hi := htold i
        split at hi
        · exact hi
        · rw [hi]
          exact ha.histories i }

end Agrees

end SentJournal

end Dquic
