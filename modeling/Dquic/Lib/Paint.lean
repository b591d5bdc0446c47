import Mathlib.Data.List.Perm.Subperm
import Mathlib.Tactic

/-!
# Painted lines

A line of positions is painted by a list of marks: a mark colours everything from its offset on,
and later marks of the list paint over earlier ones.
-/

namespace Dquic.Lib

/-- A breakpoint: the positions from `offset` on have colour `color`. -/
structure Mark (κ : Type*) where
  offset : Nat
  color : κ
  deriving DecidableEq, Repr

variable {κ : Type*}

/-- The colour of position `b` on a line of ground colour `d` painted by the marks `l`. -/
def paintAt (d : κ) (l : List (Mark κ)) (b : Nat) : κ :=
  l.foldl (fun acc m => if m.offset ≤ b then m.color else acc) d

def lastColor (d : κ) (l : List (Mark κ)) : κ :=
  l.foldl (fun _ m => m.color) d

def Increasing (l : List (Mark κ)) : Prop :=
  l.Pairwise (fun m n => m.offset < n.offset)

@[simp] lemma paintAt_nil (d : κ) (b : Nat) : paintAt d [] b = d := rfl

@[simp] lemma paintAt_cons (d : κ) (m : Mark κ) (l : List (Mark κ)) (b : Nat) :
    paintAt d (m :: l) b = paintAt (if m.offset ≤ b then m.color else d) l b := rfl

lemma paintAt_append (d : κ) (l r : List (Mark κ)) (b : Nat) :
    paintAt d (l ++ r) b = paintAt (paintAt d l b) r b := by
  simp [paintAt, List.foldl_append]

@[simp] lemma lastColor_nil (d : κ) : lastColor d [] = d := rfl

@[simp] lemma lastColor_cons (d : κ) (m : Mark κ) (l : List (Mark κ)) :
    lastColor d (m :: l) = lastColor m.color l := rfl

lemma lastColor_append (d : κ) (l r : List (Mark κ)) :
    lastColor d (l ++ r) = lastColor (lastColor d l) r := by
  simp [lastColor, List.foldl_append]

variable {b n : Nat} {d c : κ} {l : List (Mark κ)}

lemma paintAt_of_lt (h : ∀ m ∈ l, b < m.offset) : paintAt d l b = d := by
  induction l with
  | nil => rfl
  | cons m l ih =>
    have hm : ¬m.offset ≤ b := Nat.not_le.mpr (h m (by simp))
    rw [paintAt_cons, if_neg hm]
    exact ih (fun n hn => h n (by simp [hn]))

lemma increasing_append {r : List (Mark κ)} :
    Increasing (l ++ r) ↔ Increasing l ∧ Increasing r ∧ ∀ m ∈ l, ∀ n ∈ r, m.offset < n.offset :=
  List.pairwise_append

lemma Increasing.forall_le {m : Mark κ} (h : Increasing (m :: l)) : ∀ n ∈ m :: l, m.offset ≤ n.offset :=
  List.forall_mem_cons.mpr ⟨le_rfl, fun n hn => ((List.pairwise_cons.mp h).1 n hn).le⟩

lemma Increasing.paintAt_of_lt {m : Mark κ} (h : Increasing (m :: l)) (hb : b < m.offset) : paintAt d (m :: l) b = d :=
  Lib.paintAt_of_lt (fun n hn => lt_of_lt_of_le hb (h.forall_le n hn))

lemma paintAt_of_le (h : ∀ m ∈ l, m.offset ≤ b) : paintAt d l b = lastColor d l := by
  induction l generalizing d with
  | nil => rfl
  | cons m l ih =>
    rw [paintAt_cons, if_pos (h m (by simp)), lastColor_cons]
    exact ih (fun n hn => h n (by simp [hn]))

lemma paintAt_of_const (h : ∀ m ∈ l, m.color = c) (b : Nat) : paintAt c l b = c := by
  induction l with
  | nil => rfl
  | cons m l ih =>
    rw [paintAt_cons, h m (by simp), ite_self]
    exact ih (fun n hn => h n (by simp [hn]))

lemma paintAt_map {κ' : Type*} (f : κ → κ') (d : κ) (l : List (Mark κ)) (b : Nat) :
    paintAt (f d) (l.map (fun m => ⟨m.offset, f m.color⟩)) b = f (paintAt d l b) := by
  induction l generalizing d with
  | nil => rfl
  | cons m l ih =>
    rw [List.map_cons, paintAt_cons, paintAt_cons, ← ih]
    split <;> rfl

lemma paintAt_eq_ground_or (d : κ) (l : List (Mark κ)) (b : Nat) :
    (paintAt d l b = d ∧ ∀ m ∈ l, b < m.offset) ∨
      ∃ m ∈ l, m.offset ≤ b ∧ m.color = paintAt d l b := by
  induction l generalizing d with
  | nil => simp
  | cons m l ih =>
    rw [paintAt_cons]
    by_cases hm : m.offset ≤ b
    · rw [if_pos hm]
      rcases ih m.color with ⟨h, -⟩ | ⟨n, hn, hle, hc⟩
      · exact .inr ⟨m, by simp, hm, h.symm⟩
      · exact .inr ⟨n, by simp [hn], hle, hc⟩
    · rw [if_neg hm]
      rcases ih d with ⟨h, hlt⟩ | ⟨n, hn, hle, hc⟩
      · refine .inl ⟨h, fun n hn => ?_⟩
        rcases List.mem_cons.mp hn with rfl | hn
        · omega
        · exact hlt n hn
      · exact .inr ⟨n, by simp [hn], hle, hc⟩

lemma Increasing.length_le (h : Increasing l) (hn : ∀ m ∈ l, m.offset ≤ n) : l.length ≤ n + 1 := by
  have hnodup : (l.map Mark.offset).Nodup :=
    List.Pairwise.map _ (fun _ _ h => Nat.ne_of_lt h) h
  have hsub : l.map Mark.offset ⊆ List.range (n + 1) := by
    intro x hx
    obtain ⟨m, hm, rfl⟩ := List.mem_map.mp hx
    exact List.mem_range.mpr (Nat.lt_succ_of_le (hn m hm))
  simpa using (hnodup.subperm hsub).length_le

lemma paintAt_run {m : Mark κ} (hm : m.color = c) (hl : ∀ n ∈ l, n.color = c ∧ m.offset ≤ n.offset) :
    paintAt d (m :: l) b = paintAt d [m] b := by
  by_cases hb : m.offset ≤ b
  · simp only [paintAt_cons, if_pos hb, hm, paintAt_nil]
    exact paintAt_of_const (fun n hn => (hl n hn).1) b
  · simp only [paintAt_cons, if_neg hb, paintAt_nil]
    exact paintAt_of_lt (fun n hn => by have := (hl n hn).2; omega)

/-- Painting the interval from `s` to `e` in colour `c`. The marks `A` lie before the interval,
`X` in it and `Z₁ ++ Z₂` behind it. They are replaced by `H`, which paints like `A` and then `c`, by a
mark `E` restoring the colour behind the interval where that is needed, and by `Z₂`. -/
theorem paintAt_splice {pre : κ} {A X Z₁ Z₂ H E : List (Mark κ)} {s e : Nat} (hse : s ≤ e) (hA : ∀ a ∈ A, a.offset < s)
    (hX : e < n → ∀ x ∈ X, x.offset < e) (hXs : ∀ x ∈ X, s ≤ x.offset) (hZ : ∀ z ∈ Z₁ ++ Z₂, e ≤ z.offset)
    (hpre : pre = lastColor d (A ++ X)) (hlt : ∀ b, b < s → paintAt d H b = paintAt d A b)
    (hge : ∀ b, s ≤ b → paintAt d H b = c) (hZ₁ : ∀ z ∈ Z₁, z.color = c)
    (hE : E = [⟨e, pre⟩] ∧ Z₁ = [] ∨ E = [] ∧ (pre = c ∨ n ≤ e ∨ ∃ z l, Z₁ ++ Z₂ = z :: l ∧ z.offset = e)) :
    ∀ b, b < n → paintAt d (H ++ E ++ Z₂) b =
      if s ≤ b ∧ b < e then c else paintAt d (A ++ X ++ (Z₁ ++ Z₂)) b := by
  intro b hbn
  have hEoff : ∀ m ∈ E, e ≤ m.offset := by
    intro m hm
    rcases hE with ⟨h, -⟩ | ⟨h, -⟩
    · rw [h, List.mem_singleton] at hm
      exact hm ▸ le_rfl
    · simp [h] at hm
  have hZ₂ : ∀ z ∈ Z₂, e ≤ z.offset := fun z hz => hZ z (by simp [hz])
  by_cases hbe : b < e
  · have hold : paintAt d (A ++ X ++ (Z₁ ++ Z₂)) b = paintAt d (A ++ X) b := by
      rw [paintAt_append]
      exact paintAt_of_lt (fun z hz => by have := hZ z hz; omega)
    have hnew : paintAt d (H ++ E ++ Z₂) b = paintAt d H b := by
      rw [List.append_assoc, paintAt_append]
      refine paintAt_of_lt (fun m hm => ?_)
      rcases List.mem_append.mp hm with hm | hm
      · exact lt_of_lt_of_le hbe (hEoff m hm)
      · exact lt_of_lt_of_le hbe (hZ₂ m hm)
    rw [hnew, hold]
    by_cases hbs : s ≤ b
    · rw [if_pos ⟨hbs, hbe⟩, hge b hbs]
    · rw [if_neg (by omega), hlt b (by omega), paintAt_append]
      exact (paintAt_of_lt (fun x hx => by have := hXs x hx; omega)).symm
  · have hold : paintAt d (A ++ X ++ (Z₁ ++ Z₂)) b = paintAt pre (Z₁ ++ Z₂) b := by
      rw [paintAt_append, hpre]
      congr 1
      refine paintAt_of_le (fun m hm => ?_)
      rcases List.mem_append.mp hm with hm | hm
      · have := hA m hm
        omega
      · have := hX (by omega) m hm
        omega
    rw [if_neg (by omega), hold, paintAt_append, paintAt_append, hge b (by omega)]
    rcases hE with ⟨hE, h₁⟩ | ⟨hE, h⟩
    · rw [hE, h₁, paintAt_cons, if_pos (by simpa using hbe), paintAt_nil, List.nil_append]
    · rw [hE, paintAt_nil]
      rcases h with h | h | ⟨z, l, hz, hze⟩
      · rw [h, paintAt_append, paintAt_of_const hZ₁]
      · omega
      · have hzb : z.offset ≤ b := by omega
        cases Z₁ with
        | nil =>
          rw [List.nil_append] at hz ⊢
          rw [hz, paintAt_cons, paintAt_cons, if_pos hzb, if_pos hzb]
        | cons z' Z₁ =>
          obtain ⟨rfl, -⟩ := List.cons.inj hz
          have hrun : paintAt c Z₁ b = c := paintAt_of_const (fun m hm => hZ₁ m (by simp [hm])) b
          rw [List.cons_append, paintAt_cons, if_pos hzb, paintAt_append, hZ₁ z' (by simp), hrun]

end Dquic.Lib
