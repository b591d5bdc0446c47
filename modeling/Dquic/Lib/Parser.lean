import Mathlib.Tactic

/-!
# Reading what was written

Big-endian numbers, and parsers that consume a list from the front.
-/

namespace Dquic.Lib

/-! ### Big-endian numbers -/

/-- The lowest `width` bytes of a number, the highest one first. -/
def toBE : Nat → Nat → List UInt8
  | 0, _ => []
  | width + 1, n => UInt8.ofNat (n / 256 ^ width) :: toBE width n

def ofBE (l : List UInt8) : Nat := l.foldl (fun n b => n * 256 + b.toNat) 0

@[simp] lemma length_toBE (width n : Nat) : (toBE width n).length = width := by
  induction width with
  | zero => rfl
  | succ width ih => rw [toBE, List.length_cons, ih]

lemma foldl_toBE (width n a : Nat) :
    (toBE width n).foldl (fun n b => n * 256 + b.toNat) a = a * 256 ^ width + n % 256 ^ width := by
  induction width generalizing a with
  | zero => simp [toBE, Nat.mod_one]
  | succ width ih =>
    have hsplit : n % 256 ^ (width + 1) = n / 256 ^ width % 256 * 256 ^ width + n % 256 ^ width := by
      rw [pow_succ, Nat.mod_mul]
      ring
    rw [toBE, List.foldl_cons, ih, hsplit, UInt8.toNat_ofNat']
    ring

lemma ofBE_toBE {width n : Nat} (h : n < 256 ^ width) : ofBE (toBE width n) = n := by
  rw [ofBE, foldl_toBE, zero_mul, zero_add, Nat.mod_eq_of_lt h]

lemma foldl_ofBE (bs : List UInt8) (a : Nat) :
    bs.foldl (fun n b => n * 256 + b.toNat) a = a * 256 ^ bs.length + ofBE bs := by
  induction bs generalizing a with
  | nil => simp [ofBE]
  | cons b bs ih =>
    have hhead : ofBE (b :: bs) = b.toNat * 256 ^ bs.length + ofBE bs := by
      rw [ofBE, List.foldl_cons, ih, zero_mul, zero_add]
    rw [List.foldl_cons, ih, hhead, List.length_cons]
    ring

lemma ofBE_cons (b : UInt8) (bs : List UInt8) : ofBE (b :: bs) = b.toNat * 256 ^ bs.length + ofBE bs := by
  rw [ofBE, List.foldl_cons, foldl_ofBE, zero_mul, zero_add]

lemma ofBE_lt (bs : List UInt8) : ofBE bs < 256 ^ bs.length := by
  induction bs with
  | nil => exact Nat.one_pos
  | cons b bs ih =>
    have hb : b.toNat * 256 ^ bs.length ≤ 255 * 256 ^ bs.length := by
      apply Nat.mul_le_mul_right
      have hlt := b.toNat_lt
      omega
    rw [ofBE_cons, List.length_cons, pow_succ]
    omega

lemma toBE_add (width a n : Nat) : toBE width (a * 256 ^ width + n) = toBE width n := by
  induction width generalizing a with
  | zero => rfl
  | succ width ih =>
    have hsplit : a * 256 ^ (width + 1) + n = a * 256 * 256 ^ width + n := by ring
    have hdigit : (a * 256 * 256 ^ width + n) / 256 ^ width = a * 256 + n / 256 ^ width := by
      rw [mul_comm, Nat.mul_add_div (by positivity)]
    rw [toBE, hsplit, ih, hdigit, toBE]
    congr 1
    apply UInt8.toNat_inj.mp
    rw [UInt8.toNat_ofNat', UInt8.toNat_ofNat']
    omega

lemma toBE_ofBE (bs : List UInt8) : toBE bs.length (ofBE bs) = bs := by
  induction bs with
  | nil => rfl
  | cons b bs ih =>
    have hdigit : (b.toNat * 256 ^ bs.length + ofBE bs) / 256 ^ bs.length = b.toNat := by
      rw [mul_comm, Nat.mul_add_div (by positivity), Nat.div_eq_of_lt (ofBE_lt bs), add_zero]
    rw [List.length_cons, toBE, ofBE_cons, hdigit, toBE_add, ih, UInt8.ofNat_toNat]

/-! ### Parsers -/

abbrev Parser (β α : Type) := StateT (List β) Option α

namespace Parser

variable {β α γ : Type}

/-- The next `n` elements. -/
def take (n : Nat) : Parser β (List β) := fun s => if n ≤ s.length then some (s.take n, s.drop n) else none

/-- The parser reads `a` from `bs` and nothing else, whatever follows. -/
def Reads (p : Parser β α) (bs : List β) (a : α) : Prop :=
  ∀ rest a' rest', p (bs ++ rest) = some (a', rest') → a' = a ∧ rest' = rest

lemma Reads.pure (a : α) : Reads (Pure.pure a : Parser β α) [] a := by
  intro rest a' rest' h
  cases h
  exact ⟨rfl, rfl⟩

variable {a : α} {bs cs : List β} {c : γ} {p : Parser β α} {q : α → Parser β γ} {W : α → List β → Prop}

lemma Reads.bind (hp : Reads p bs a) (hq : Reads (q a) cs c) : Reads (p >>= q) (bs ++ cs) c := by
  intro rest c' rest' h
  rw [List.append_assoc] at h
  obtain ⟨⟨a', s⟩, hs, h⟩ := Option.bind_eq_some_iff.mp h
  obtain ⟨rfl, rfl⟩ := hp _ _ _ hs
  exact hq _ _ _ h

lemma Reads.bind_nil (hp : Reads p [] a) (hq : Reads (q a) cs c) : Reads (p >>= q) cs c := hp.bind hq

lemma Reads.map {f : α → γ} (hp : Reads p bs a) : Reads (p >>= fun a => Pure.pure (f a)) bs (f a) := by
  have h : Reads (p >>= fun a => Pure.pure (f a)) (bs ++ []) (f a) := Reads.bind hp (Reads.pure (f a))
  rwa [List.append_nil] at h

lemma reads_guard (c : Prop) [Decidable c] : Reads (guard c : Parser β Unit) [] () := by
  intro rest a' rest' h
  by_cases hc : c
  · rw [guard, if_pos hc] at h
    cases h
    exact ⟨rfl, rfl⟩
  · rw [guard, if_neg hc] at h
    cases h

lemma reads_take (bs : List β) : Reads (take bs.length) bs bs := by
  intro rest a' rest' h
  unfold take at h
  rw [if_pos (by rw [List.length_append]; omega)] at h
  cases h
  exact ⟨List.take_left, List.drop_left⟩

/-- The parser reads `a` exactly from the lists that `W` gives for it. -/
def Exact (p : Parser β α) (W : α → List β → Prop) : Prop :=
  ∀ s a rest, p s = some (a, rest) ↔ ∃ bs, s = bs ++ rest ∧ W a bs

lemma Exact.congr {W' : α → List β → Prop} (h : Exact p W) (hW : ∀ a bs, W a bs ↔ W' a bs) : Exact p W' := by
  intro s a rest
  simp only [h s a rest, hW]

lemma exact_pure (a : α) : Exact (Pure.pure a : Parser β α) fun a' bs => a' = a ∧ bs = [] := by
  intro s a' rest
  constructor
  · rintro ⟨⟩
    exact ⟨[], rfl, rfl, rfl⟩
  · rintro ⟨bs, rfl, rfl, rfl⟩
    rfl

lemma Exact.bind {V : α → γ → List β → Prop} (hp : Exact p W) (hq : ∀ a, Exact (q a) (V a)) :
    Exact (p >>= q) fun c bs => ∃ a front back, W a front ∧ V a c back ∧ bs = front ++ back := by
  intro s c rest
  constructor
  · intro h
    obtain ⟨⟨a, s'⟩, hs, hrest⟩ := Option.bind_eq_some_iff.mp h
    obtain ⟨front, rfl, hW⟩ := (hp _ _ _).mp hs
    obtain ⟨back, rfl, hV⟩ := (hq _ _ _ _).mp hrest
    exact ⟨front ++ back, (List.append_assoc ..).symm, a, front, back, hW, hV, rfl⟩
  · rintro ⟨bs, rfl, a, front, back, hW, hV, rfl⟩
    have hs : p (front ++ back ++ rest) = some (a, back ++ rest) :=
      (hp _ _ _).mpr ⟨front, List.append_assoc .., hW⟩
    exact Option.bind_eq_some_iff.mpr ⟨_, hs, (hq _ _ _ _).mpr ⟨back, rfl, hV⟩⟩

lemma Exact.checked (c : Prop) [Decidable c] (hp : c → Exact p W) : Exact (do guard c; p) fun a bs => c ∧ W a bs := by
  intro s a rest
  by_cases hc : c
  · have hrun : (do guard c; p : Parser β α) s = p s := by
      rw [show (guard c : Parser β Unit) = pure () from if_pos hc]
      rfl
    rw [hrun, hp hc s a rest]
    simp only [hc, true_and]
  · have hrun : (do guard c; p : Parser β α) s = none := by
      rw [show (guard c : Parser β Unit) = failure from if_neg hc]
      rfl
    rw [hrun]
    simp [hc]

lemma Exact.ite {q : Parser β α} {V : α → List β → Prop} (c : Prop) [Decidable c] (hp : Exact p W) (hq : Exact q V) :
    Exact (if c then p else q) fun a bs => c ∧ W a bs ∨ ¬ c ∧ V a bs := by
  intro s a rest
  by_cases hc : c
  · simp only [hc, if_true, true_and, not_true_eq_false, false_and, or_false, hp s a rest]
  · simp only [hc, if_false, false_and, not_false_eq_true, true_and, false_or, hq s a rest]

lemma exact_failure : Exact (failure : Parser β α) fun _ _ => False := by
  intro s a rest
  constructor
  · intro h
    cases h
  · rintro ⟨_, _, ⟨⟩⟩

lemma exact_take (n : Nat) : Exact (take n : Parser β (List β)) fun a bs => bs = a ∧ a.length = n := by
  intro s a rest
  unfold take
  constructor
  · intro h
    split at h
    · rename_i hn
      cases h
      exact ⟨_, (List.take_append_drop n s).symm, rfl, List.length_take_of_le hn⟩
    · cases h
  · rintro ⟨bs, rfl, rfl, rfl⟩
    rw [if_pos (by rw [List.length_append]; omega), List.take_left, List.drop_left]

end Parser

end Dquic.Lib
