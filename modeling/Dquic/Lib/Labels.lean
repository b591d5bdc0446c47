import Mathlib.Tactic

/-!
# Labels that grow along an order

Positions of a linear order carry natural numbers as labels, which do not decrease along the
order.
-/

namespace Dquic.Lib

variable {α : Type*} [LinearOrder α]

structure Graded (carried observed : α → ℕ → Prop) : Prop where
  carried_of_observed : ∀ p a, observed p a → carried p a
  mono : ∀ p q a b, carried p a → carried q b → p ≤ q → a ≤ b
  gradual : ∀ p a, carried p (a + 2) → ∃ q, observed q (a + 1)

namespace Graded

variable {carried observed : α → ℕ → Prop}

variable {a b : ℕ} {p q : α}

lemma lt_of_lt (h : Graded carried observed) (hp : carried p a) (hq : carried q b) (hlt : a < b) : p < q := by
  by_contra hle
  have hba := h.mono q p b a hq hp (not_lt.mp hle)
  omega

lemma exists_observed_lt (h : Graded carried observed) (hp : carried p (a + 2)) : ∃ q < p, observed q (a + 1) := by
  obtain ⟨q, hq⟩ := h.gradual p a hp
  exact ⟨q, h.lt_of_lt (h.carried_of_observed q _ hq) hp (by omega), hq⟩

/-- The largest label observed up to a position is its label or the one before it. -/
theorem label_cases (h : Graded carried observed) (hp : carried p a) (hq : observed q b) (hle : q ≤ p)
    (hmax : ∀ q ≤ p, ∀ c, observed q c → c ≤ b) : a = b ∨ a = b + 1 := by
  have hba : b ≤ a := h.mono q p b a (h.carried_of_observed q b hq) hp hle
  rcases Nat.lt_or_ge a (b + 2) with hlt | hge
  · omega
  · -- then the label before `a` was observed before the position, and it is above `b`
    obtain ⟨c, rfl⟩ : ∃ c, a = c + 2 := ⟨a - 2, by omega⟩
    obtain ⟨q', hlt, hobs⟩ := h.exists_observed_lt hp
    have hcb := hmax q' hlt.le _ hobs
    omega

/-- Positions up to which only labels below `b` are observed carry no label above `b`, or above the first two. -/
theorem label_le (h : Graded carried observed) (hp : carried p a) (hlt : ∀ q ≤ p, ∀ c, observed q c → c < b) :
    a ≤ max b 1 := by
  by_contra hgt
  obtain ⟨c, rfl⟩ : ∃ c, a = c + 2 := ⟨a - 2, by omega⟩
  obtain ⟨q, hqp, hobs⟩ := h.exists_observed_lt hp
  have hcb := hlt q hqp.le _ hobs
  omega

/-- One more position carries a label. -/
theorem carry (h : Graded carried observed) (hle : ∀ q b, carried q b → q ≤ p → b ≤ a)
    (hge : ∀ q b, carried q b → p ≤ q → a ≤ b) (hgradual : ∀ b, a = b + 2 → ∃ q, observed q (b + 1)) :
    Graded (fun q b => (q = p ∧ b = a) ∨ carried q b) observed where
  carried_of_observed q b hq := Or.inr (h.carried_of_observed q b hq)
  mono := by
    rintro q r b c (⟨rfl, rfl⟩ | hq) (⟨rfl, rfl⟩ | hr) hqr
    · exact le_rfl
    · exact hge r c hr hqr
    · exact hle q b hq hqr
    · exact h.mono q r b c hq hr hqr
  gradual := by
    rintro q b (⟨rfl, hb⟩ | hq)
    · exact hgradual b hb.symm
    · exact h.gradual q b hq

/-- One more of the labelled positions is observed. -/
theorem observe (h : Graded carried observed) (hp : carried p a) :
    Graded carried (fun q b => (q = p ∧ b = a) ∨ observed q b) where
  carried_of_observed := by
    rintro q b (⟨rfl, rfl⟩ | hq)
    · exact hp
    · exact h.carried_of_observed q b hq
  mono := h.mono
  gradual q b hq := by
    obtain ⟨r, hr⟩ := h.gradual q b hq
    exact ⟨r, Or.inr hr⟩

end Graded

end Dquic.Lib
