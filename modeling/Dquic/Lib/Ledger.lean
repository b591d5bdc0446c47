import Mathlib.Tactic

/-!
# Issued items and the reports about them

Items are issued one after another and each is known by its position, so that equal items stay
apart. Reports, good or bad, name a position and may come in any order and repeatedly.
-/

namespace Dquic.Lib

structure Ledger (α : Type*) where
  issued : List α
  acked : List Nat
  lost : List Nat

namespace Ledger

variable {α : Type*}

def empty : Ledger α := ⟨[], [], []⟩

def push (l : Ledger α) (a : α) : Ledger α := { l with issued := l.issued ++ [a] }

def ack (l : Ledger α) (j : Nat) : Ledger α := { l with acked := j :: l.acked }

def lose (l : Ledger α) (j : Nat) : Ledger α := { l with lost := j :: l.lost }

def Acked (l : Ledger α) (a : α) : Prop := ∃ j ∈ l.acked, l.issued[j]? = some a

/-- Some position of the item was not reported yet. -/
def Open (l : Ledger α) (a : α) : Prop := ∃ j, l.issued[j]? = some a ∧ j ∉ l.acked ∧ j ∉ l.lost

def Settled (l : Ledger α) : Prop := ∀ j < l.issued.length, j ∈ l.acked ∨ j ∈ l.lost

structure Wf (l : Ledger α) : Prop where
  acked : ∀ j ∈ l.acked, j < l.issued.length
  lost : ∀ j ∈ l.lost, j < l.issued.length

variable {l : Ledger α} {a b : α} {j : Nat}

lemma wf_empty : (empty : Ledger α).Wf := ⟨by simp [empty], by simp [empty]⟩

lemma Wf.push (h : l.Wf) (a : α) : (l.push a).Wf := by
  constructor
  · intro j hj
    have hlt := h.acked j hj
    simp only [Ledger.push, List.length_append, List.length_singleton]
    omega
  · intro j hj
    have hlt := h.lost j hj
    simp only [Ledger.push, List.length_append, List.length_singleton]
    omega

lemma Wf.ack (h : l.Wf) (hj : l.issued[j]? = some a) : (l.ack j).Wf := by
  obtain ⟨hlt, -⟩ := List.getElem?_eq_some_iff.mp hj
  refine ⟨fun k hk => ?_, h.lost⟩
  cases List.mem_cons.mp hk with
  | inl hkj => exact hkj ▸ hlt
  | inr hk => exact h.acked k hk

lemma Wf.lose (h : l.Wf) (hj : l.issued[j]? = some a) : (l.lose j).Wf := by
  obtain ⟨hlt, -⟩ := List.getElem?_eq_some_iff.mp hj
  refine ⟨h.acked, fun k hk => ?_⟩
  cases List.mem_cons.mp hk with
  | inl hkj => exact hkj ▸ hlt
  | inr hk => exact h.lost k hk

lemma getElem?_push (hj : j < l.issued.length) : (l.push a).issued[j]? = l.issued[j]? :=
  List.getElem?_append_left hj

lemma getElem?_push_of_some (hj : l.issued[j]? = some b) : (l.push a).issued[j]? = some b := by
  obtain ⟨hlt, -⟩ := List.getElem?_eq_some_iff.mp hj
  rw [getElem?_push hlt, hj]

lemma Acked.mem (h : l.Acked a) : a ∈ l.issued := by
  obtain ⟨j, -, hj⟩ := h
  exact List.mem_of_getElem? hj

@[simp] lemma mem_push : b ∈ (l.push a).issued ↔ b ∈ l.issued ∨ b = a := by simp [push]

lemma Wf.acked_push (h : l.Wf) : (l.push a).Acked b ↔ l.Acked b := by
  constructor
  · rintro ⟨j, hj, hb⟩
    rw [getElem?_push (h.acked j hj)] at hb
    exact ⟨j, hj, hb⟩
  · rintro ⟨j, hj, hb⟩
    exact ⟨j, hj, getElem?_push_of_some hb⟩

lemma acked_ack (hj : l.issued[j]? = some a) : (l.ack j).Acked b ↔ l.Acked b ∨ b = a := by
  constructor
  · rintro ⟨k, hk, hb⟩
    change l.issued[k]? = some b at hb
    cases List.mem_cons.mp hk with
    | inl hkj =>
      rw [hkj, hj] at hb
      exact .inr (Option.some.inj hb).symm
    | inr hk => exact .inl ⟨k, hk, hb⟩
  · rintro (⟨k, hk, hb⟩ | rfl)
    · exact ⟨k, List.mem_cons_of_mem _ hk, hb⟩
    · exact ⟨j, by simp [ack], hj⟩

lemma Wf.open_push (h : l.Wf) : (l.push a).Open a := by
  refine ⟨l.issued.length, by simp [Ledger.push], fun hj => ?_, fun hj => ?_⟩
  · exact lt_irrefl _ (h.acked _ hj)
  · exact lt_irrefl _ (h.lost _ hj)

lemma Open.push (h : l.Open b) : (l.push a).Open b := by
  obtain ⟨j, hj, hacked, hlost⟩ := h
  exact ⟨j, getElem?_push_of_some hj, hacked, hlost⟩

lemma Open.ack (h : l.Open b) (hj : l.issued[j]? = some a) (hne : b ≠ a) : (l.ack j).Open b := by
  obtain ⟨k, hk, hacked, hlost⟩ := h
  refine ⟨k, hk, fun hmem => ?_, hlost⟩
  cases List.mem_cons.mp hmem with
  | inl hkj =>
    rw [hkj, hj] at hk
    exact hne (Option.some.inj hk).symm
  | inr hmem => exact hacked hmem

lemma Open.lose (h : l.Open b) (hj : l.issued[j]? = some a) (hne : b ≠ a) : (l.lose j).Open b := by
  obtain ⟨k, hk, hacked, hlost⟩ := h
  refine ⟨k, hk, hacked, fun hmem => ?_⟩
  cases List.mem_cons.mp hmem with
  | inl hkj =>
    rw [hkj, hj] at hk
    exact hne (Option.some.inj hk).symm
  | inr hmem => exact hlost hmem

lemma Settled.not_open (h : l.Settled) : ¬l.Open a := by
  rintro ⟨j, hj, hacked, hlost⟩
  obtain ⟨hlt, -⟩ := List.getElem?_eq_some_iff.mp hj
  exact (h j hlt).elim hacked hlost

end Ledger

end Dquic.Lib
