import Mathlib.Tactic

/-!
# Bytes, ranges and panics

What all the components share. Code that may panic is modelled in `Option`, with `none` for the
panic.
-/

namespace Dquic

abbrev Bytes := List UInt8

/-- `Bytes::slice`. -/
def slice (d : Bytes) (a b : Nat) : Option Bytes :=
  if a ≤ b ∧ b ≤ d.length then some ((d.take b).drop a) else none

structure Range where
  start : Nat
  stop : Nat
  deriving DecidableEq, Repr

namespace Range

def Mem (r : Range) (b : Nat) : Prop := r.start ≤ b ∧ b < r.stop

instance (r : Range) (b : Nat) : Decidable (r.Mem b) := inferInstanceAs (Decidable (_ ∧ _))

end Range

inductive Poll
  | pending
  | ready
  deriving DecidableEq, Repr

inductive Role
  | client
  | server
  deriving DecidableEq, Repr

/-! ### Panics -/

section Panics

variable {α β : Type*}

lemma of_bind {x : Option α} {f : α → Option β} {b : β} (h : x.bind f = some b) : ∃ a, x = some a ∧ f a = some b :=
  Option.bind_eq_some_iff.mp h

lemma some_bind {α β : Type} (a : α) (f : α → Option β) : some a >>= f = f a := rfl

end Panics

/-! ### Machine arithmetic -/

/-- `VARINT_MAX`, the largest offset a state can carry. -/
def varintMax : Nat := 2 ^ 62 - 1

def usizeMax : Nat := 2 ^ 64 - 1

/-- `u64` addition with overflow checks. -/
def checkedAdd (a b : Nat) : Option Nat := if a + b < 2 ^ 64 then some (a + b) else none

variable {a b c : Nat} {p : Prop}

lemma checkedAdd_eq_some (h : checkedAdd a b = some c) : c = a + b := by
  unfold checkedAdd at h
  split at h
  · exact (Option.some.inj h).symm
  · cases h

lemma checkedAdd_of_lt (h : a + b < 2 ^ 64) : checkedAdd a b = some (a + b) := if_pos h

/-- `u64` subtraction with overflow checks. -/
def checkedSub (a b : Nat) : Option Nat := if b ≤ a then some (a - b) else none

lemma checkedSub_eq_some (h : checkedSub a b = some c) : b ≤ a ∧ c = a - b := by
  unfold checkedSub at h
  split at h
  · rename_i hle
    exact ⟨hle, (Option.some.inj h).symm⟩
  · cases h

lemma checkedSub_of_le (h : b ≤ a) : checkedSub a b = some (a - b) := if_pos h

/-- A debug assertion or an `unwrap`. -/
def debugAssert (p : Prop) [Decidable p] : Option Unit := if p then some () else none

@[simp] lemma debugAssert_of [Decidable p] (h : p) : debugAssert p = some () := if_pos h

lemma of_debugAssert [Decidable p] {u : Unit} (h : debugAssert p = some u) : p := by
  unfold debugAssert at h
  split_ifs at h with hp
  exact hp

end Dquic
