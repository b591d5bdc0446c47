import Mathlib.Tactic

/-!
# Sets of numbers as separated spans

A finite set of numbers kept as a list of half-open spans, in increasing order and with a gap
between any two of them. `add` puts one number in, and joins it with the spans it touches.
-/

namespace Dquic.Lib

structure Span where
  start : Nat
  stop : Nat
  deriving DecidableEq, Repr

def Span.Mem (s : Span) (x : Nat) : Prop := s.start ≤ x ∧ x < s.stop

instance (s : Span) (x : Nat) : Decidable (s.Mem x) := inferInstanceAs (Decidable (_ ∧ _))

namespace Spans

def Covers (l : List Span) (x : Nat) : Prop := ∃ s ∈ l, s.Mem x

/-- The spans are non-empty and in order, and no two of them touch. -/
structure Apart (l : List Span) : Prop where
  nonempty : ∀ s ∈ l, s.start < s.stop
  separated : l.Pairwise fun s t => s.stop < t.start

/-- Put a number in. The spans below it are skipped, and it joins the one that ends or starts at it. -/
def add (x : Nat) : List Span → List Span
  | [] => [⟨x, x + 1⟩]
  | s :: l =>
    if s.stop < x then s :: add x l
    else if s.stop = x then
      match l with
      | [] => [⟨s.start, x + 1⟩]
      | t :: l => if t.start ≤ x + 1 then ⟨s.start, max (x + 1) t.stop⟩ :: l else ⟨s.start, x + 1⟩ :: t :: l
    else if s.start = x + 1 then ⟨x, s.stop⟩ :: l
    else ⟨x, x + 1⟩ :: s :: l

variable {s : Span} {x i : Nat} {l m : List Span}

lemma add_cons_of_lt (h : s.stop < x) (l : List Span) : add x (s :: l) = s :: add x l := by
  rw [add.eq_def]
  exact if_pos h

lemma not_covers_nil (x : Nat) : ¬ Covers [] x := by
  rintro ⟨s, hs, _⟩
  cases hs

lemma covers_cons : Covers (s :: l) x ↔ s.Mem x ∨ Covers l x := by
  simp [Covers]

lemma covers_append : Covers (l ++ m) x ↔ Covers l x ∨ Covers m x := by
  simp [Covers, or_and_right, exists_or]

lemma apart_nil : Apart [] := ⟨by simp, List.Pairwise.nil⟩

lemma apart_cons : Apart (s :: l) ↔ s.start < s.stop ∧ (∀ t ∈ l, s.stop < t.start) ∧ Apart l := by
  constructor
  · intro h
    have hsep := List.pairwise_cons.mp h.separated
    exact ⟨h.nonempty s List.mem_cons_self, hsep.1, fun t ht => h.nonempty t (List.mem_cons_of_mem s ht), hsep.2⟩
  · rintro ⟨hs, hl, h⟩
    refine ⟨?_, List.pairwise_cons.mpr ⟨hl, h.separated⟩⟩
    intro t ht
    rcases List.mem_cons.mp ht with rfl | ht
    · exact hs
    · exact h.nonempty t ht

lemma Apart.tail (h : Apart (s :: l)) : Apart l := (apart_cons.mp h).2.2

lemma Apart.lt_of_covers (h : Apart (s :: l)) (hx : Covers l x) : s.stop < x := by
  obtain ⟨t, ht, hmem⟩ := hx
  exact lt_of_lt_of_le ((apart_cons.mp h).2.1 t ht) hmem.1

lemma le_start_add {floor : Nat} (hx : floor ≤ x) (hl : ∀ s ∈ l, floor ≤ s.start) : ∀ s ∈ add x l, floor ≤ s.start := by
  fun_induction add x l with
  | case1 => simpa using hx
  | case2 s l hlt ih | case3 s hnlt heq | case4 s hnlt heq t l hle | case5 s hnlt heq t l hle
  | case6 s l hnlt hne hstart | case7 s l hnlt hne hstart => simp_all

/-- Exactly the number comes in. -/
theorem covers_add {y : Nat} (h : Apart l) (hx : ¬ Covers l x) : Covers (add x l) y ↔ y = x ∨ Covers l y := by
  fun_induction add x l with
  | case1 =>
    simp only [covers_cons, not_covers_nil, Span.Mem, or_false]
    omega
  | case2 s l hlt ih =>
    rw [covers_cons] at hx ⊢
    rw [ih h.tail (fun hc => hx (Or.inr hc)), covers_cons]
    exact or_left_comm
  | case3 s hnlt heq =>
    have hs := (apart_cons.mp h).1
    simp only [covers_cons, not_covers_nil, Span.Mem, or_false]
    omega
  | case4 s hnlt heq t l hle =>
    have hs := apart_cons.mp h
    have ht := hs.2.1 t List.mem_cons_self
    have htt := (apart_cons.mp hs.2.2).1
    have hiff : s.start ≤ y ∧ y < max (x + 1) t.stop ↔ y = x ∨ s.Mem y ∨ t.Mem y := by
      simp only [Span.Mem]
      omega
    simp only [covers_cons]
    rw [Span.Mem, hiff, or_assoc, or_assoc]
  | case5 s hnlt heq t l hle =>
    have hs := (apart_cons.mp h).1
    have hiff : s.start ≤ y ∧ y < x + 1 ↔ y = x ∨ s.Mem y := by
      simp only [Span.Mem]
      omega
    simp only [covers_cons]
    rw [Span.Mem, hiff]
    exact or_assoc
  | case6 s l hnlt hne hstart =>
    have hs := (apart_cons.mp h).1
    have hiff : x ≤ y ∧ y < s.stop ↔ y = x ∨ s.Mem y := by
      simp only [Span.Mem]
      omega
    rw [covers_cons, covers_cons, Span.Mem, hiff]
    exact or_assoc
  | case7 s l hnlt hne hstart =>
    rw [covers_cons, Span.Mem]
    have hiff : x ≤ y ∧ y < x + 1 ↔ y = x := by omega
    rw [hiff]

/-- The spans stay apart. -/
theorem Apart.add (h : Apart l) (hx : ¬ Covers l x) : Apart (add x l) := by
  fun_induction Spans.add x l with
  | case1 => exact apart_cons.mpr ⟨Nat.lt_succ_self x, by simp, apart_nil⟩
  | case2 s l hlt ih =>
    have hs := apart_cons.mp h
    refine apart_cons.mpr ⟨hs.1, ?_, ih h.tail (fun hc => hx (covers_cons.mpr (Or.inr hc)))⟩
    exact le_start_add (Nat.succ_le_of_lt hlt) hs.2.1
  | case3 s hnlt heq =>
    have hs := (apart_cons.mp h).1
    exact apart_cons.mpr ⟨by simp only; omega, by simp, apart_nil⟩
  | case4 s hnlt heq t l hle =>
    have hs := apart_cons.mp h
    have ht := apart_cons.mp hs.2.2
    have hst := hs.2.1 t List.mem_cons_self
    refine apart_cons.mpr ⟨by simp only; omega, ?_, ht.2.2⟩
    intro u hu
    have := ht.2.1 u hu
    simp only
    omega
  | case5 s hnlt heq t l hle =>
    have hs := apart_cons.mp h
    have ht := apart_cons.mp hs.2.2
    refine apart_cons.mpr ⟨by simp only; omega, ?_, hs.2.2⟩
    intro u hu
    rcases List.mem_cons.mp hu with rfl | hu
    · simp only
      omega
    · have := ht.2.1 u hu
      simp only
      omega
  | case6 s l hnlt hne hstart =>
    have hs := apart_cons.mp h
    exact apart_cons.mpr ⟨by simp only; omega, hs.2.1, hs.2.2⟩
  | case7 s l hnlt hne hstart =>
    have hs := apart_cons.mp h
    -- the number is below the whole span, since it is not in it
    have hbelow : x + 1 < s.start := by
      have hns : ¬ s.Mem x := fun hmem => hx (covers_cons.mpr (Or.inl hmem))
      unfold Span.Mem at hns
      omega
    refine apart_cons.mpr ⟨Nat.lt_succ_self x, ?_, h⟩
    intro u hu
    rcases List.mem_cons.mp hu with rfl | hu
    · exact hbelow
    · have := hs.2.1 u hu
      simp only
      omega

lemma length_add_le (x : Nat) (l : List Span) : (add x l).length ≤ l.length + 1 := by
  fun_induction add x l with
  | case2 s l hlt ih =>
    rw [List.length_cons, List.length_cons]
    omega
  | _ => simp

/-! ### Spans from the highest down -/

lemma covers_reverse : Covers l.reverse x ↔ Covers l x := by
  simp [Covers]

lemma Apart.sublist (h : Apart m) (hs : l.Sublist m) : Apart l :=
  ⟨fun s hs' => h.nonempty s (hs.subset hs'), h.separated.sublist hs⟩

lemma apart_reverse_cons :
    Apart (s :: l).reverse ↔ s.start < s.stop ∧ (∀ t ∈ l, t.stop < s.start) ∧ Apart l.reverse := by
  constructor
  · intro h
    have hsep := List.pairwise_cons.mp (List.pairwise_reverse.mp h.separated)
    refine ⟨h.nonempty s (by simp), hsep.1, ?_⟩
    exact ⟨fun t ht => h.nonempty t (by simp [List.mem_reverse.mp ht]), List.pairwise_reverse.mpr hsep.2⟩
  · rintro ⟨hs, hl, h⟩
    refine ⟨?_, List.pairwise_reverse.mpr (List.pairwise_cons.mpr ⟨hl, List.pairwise_reverse.mp h.separated⟩)⟩
    intro t ht
    rcases List.mem_cons.mp (List.mem_reverse.mp ht) with rfl | ht
    · exact hs
    · exact h.nonempty t (List.mem_reverse.mpr ht)

lemma Apart.downFrom (h : Apart l) (hs : l[i]? = some s) : Apart (s :: (l.take i).reverse).reverse := by
  have htake : l.take (i + 1) = l.take i ++ [s] := List.take_add_one.trans (by rw [hs]; rfl)
  rw [List.reverse_cons, List.reverse_reverse, ← htake]
  exact h.sublist (List.take_sublist _ _)

/-- The highest spans are all there is from some start on. -/
theorem exists_floor_take (n : Nat) (h : Apart (s :: l).reverse) :
    ∃ t ∈ s :: l, ∀ x, Covers ((s :: l).take (n + 1)) x ↔ Covers (s :: l) x ∧ t.start ≤ x := by
  induction l generalizing s n with
  | nil =>
    refine ⟨s, List.mem_singleton_self s, ?_⟩
    intro x
    rw [List.take_succ_cons, List.take_nil, covers_cons, Span.Mem]
    simp only [not_covers_nil, or_false]
    omega
  | cons u l ih =>
    obtain ⟨hs, hbelow, hl⟩ := apart_reverse_cons.mp h
    cases n with
    | zero =>
      refine ⟨s, List.mem_cons_self, ?_⟩
      intro x
      rw [List.take_succ_cons, List.take_zero, covers_cons, covers_cons]
      simp only [not_covers_nil, or_false]
      constructor
      · intro hx
        exact ⟨Or.inl hx, hx.1⟩
      · rintro ⟨hx | ⟨t, ht, hx⟩, hle⟩
        · exact hx
        · have := hbelow t ht
          have := hx.2
          omega
    | succ n =>
      obtain ⟨t, ht, hiff⟩ := ih n hl
      refine ⟨t, List.mem_cons_of_mem s ht, ?_⟩
      intro x
      rw [List.take_succ_cons, covers_cons, covers_cons, hiff x]
      have hts := hbelow t ht
      have htt := hl.nonempty t (List.mem_reverse.mpr ht)
      constructor
      · rintro (hx | ⟨hx, hle⟩)
        · have := hx.1
          exact ⟨Or.inl hx, by omega⟩
        · exact ⟨Or.inr hx, hle⟩
      · rintro ⟨hx | hx, hle⟩
        · exact Or.inl hx
        · exact Or.inr ⟨hx, hle⟩

lemma covers_downFrom (h : Apart l) (hs : l[i]? = some s) (hx : x < s.stop) :
    Covers (s :: (l.take i).reverse) x ↔ Covers l x := by
  have hsplit : l = l.take i ++ s :: l.drop (i + 1) := by
    obtain ⟨hlt, rfl⟩ := List.getElem?_eq_some_iff.mp hs
    rw [← List.drop_eq_getElem_cons hlt, List.take_append_drop]
  have hsep := h.separated
  rw [hsplit, List.pairwise_append] at hsep
  have habove : ¬ Covers (l.drop (i + 1)) x := by
    rintro ⟨t, ht, htx⟩
    have := (List.pairwise_cons.mp hsep.2.1).1 t ht
    have := htx.1
    omega
  have hcovers : Covers l x ↔ Covers (l.take i) x ∨ s.Mem x ∨ Covers (l.drop (i + 1)) x := by
    conv_lhs => rw [hsplit]
    rw [covers_append, covers_cons]
  rw [covers_cons, covers_reverse, hcovers]
  tauto

end Spans

end Dquic.Lib
