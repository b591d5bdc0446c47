import Mathlib.Tactic

/-!
# Labelled systems with partial steps

A component is an initial set of states, a predicate saying which operations its environment may
issue, and an execution function that returns `none` when the operation aborts.
-/

namespace Dquic.Lib

/-- A state machine driven by operations `ε`. `exec` fails where the code would abort. -/
structure System (σ ε : Type*) where
  init : σ → Prop
  issued : σ → ε → Prop
  exec : σ → ε → Option σ

namespace System

variable {σ ε : Type*} (S : System σ ε)

/-- States reached from an initial one by operations that were issued and did not abort. -/
inductive Reach : σ → Prop
  | start {s : σ} : S.init s → Reach s
  | step {s s' : σ} {e : ε} : Reach s → S.issued s e → S.exec s e = some s' → Reach s'

/-- An invariant that holds initially and is kept by each issued step holds in every reachable state. -/
theorem Reach.invariant {S : System σ ε} {I : σ → Prop} (hinit : ∀ s, S.init s → I s)
    (hstep : ∀ s e s', I s → S.issued s e → S.exec s e = some s' → I s') {s : σ} (h : S.Reach s) :
    I s := by
  induction h with
  | start h => exact hinit _ h
  | step _ hi he ih => exact hstep _ _ _ ih hi he

inductive Run : List ε → σ → Prop
  | start {s : σ} : S.init s → Run [] s
  | step {es : List ε} {s s' : σ} {e : ε} : Run es s → S.issued s e → S.exec s e = some s' → Run (e :: es) s'

/-- An invariant of a run may speak about its operations. -/
theorem Run.invariant {S : System σ ε} {I : List ε → σ → Prop} (hinit : ∀ s, S.init s → I [] s)
    (hstep : ∀ es s e s', I es s → S.issued s e → S.exec s e = some s' → I (e :: es) s') {es : List ε} {s : σ}
    (h : S.Run es s) : I es s := by
  induction h with
  | start h => exact hinit _ h
  | step _ hi he ih => exact hstep _ _ _ _ ih hi he

/-- The same system under an environment that issues an operation only where `P` allows it. -/
def restrict (P : σ → ε → Prop) : System σ ε where
  init := S.init
  issued s e := S.issued s e ∧ P s e
  exec := S.exec

end System

/-- Steps one after another, with what each of them adds to a log. -/
inductive Logged {σ ε : Type*} (R : σ → List ε → σ → Prop) : σ → List ε → σ → Prop
  | nil (s : σ) : Logged R s [] s
  | cons {s s' s'' : σ} {log rest : List ε} : R s log s' → Logged R s' rest s'' → Logged R s (log ++ rest) s''

namespace Logged

variable {σ ε : Type*} {R : σ → List ε → σ → Prop} {s s' s'' : σ} {log log' : List ε}

lemma single (h : R s log s') : Logged R s log s' := by
  have hone := cons h (nil s')
  rwa [List.append_nil] at hone

lemma trans (h : Logged R s log s') (h' : Logged R s' log' s'') : Logged R s (log ++ log') s'' := by
  induction h with
  | nil s => exact h'
  | cons hstep _ ih =>
    rw [List.append_assoc]
    exact cons hstep (ih h')

/-- An invariant of the state and of all that was logged so far. -/
theorem invariant {I : σ → List ε → Prop} (hstep : ∀ s l log s', I s l → R s log s' → I s' (l ++ log))
    {l : List ε} (hI : I s l) (h : Logged R s log s') : I s' (l ++ log) := by
  induction h generalizing l with
  | nil s => rwa [List.append_nil]
  | cons h _ ih =>
    rw [← List.append_assoc]
    exact ih (hstep _ _ _ _ hI h)

end Logged

/-- A call that does not abort in a bad way, and whose result satisfies `Q` if it returns. -/
def Meets {π α : Type} (bad : π → Prop) (x : Except π α) (Q : α → Prop) : Prop :=
  match x with
  | .ok a => Q a
  | .error p => ¬ bad p

namespace Meets

variable {π α β : Type} {bad : π → Prop} {x : Except π α} {Q R : α → Prop}

lemma bind {f : α → Except π β} {S : β → Prop} (h : Meets bad x Q) (hf : ∀ a, Q a → Meets bad (f a) S) :
    Meets bad (x >>= f) S := by
  cases x with
  | ok a => exact hf a h
  | error p => exact h

lemma mono (h : Meets bad x Q) (hQ : ∀ a, Q a → R a) : Meets bad x R := by
  cases x with
  | ok a => exact hQ a h
  | error p => exact h

lemma of_ok {a : α} (h : Meets bad x Q) (hx : x = .ok a) : Q a := by
  rw [hx] at h
  exact h

lemma not_bad {p : π} (h : Meets bad x Q) (hx : x = .error p) : ¬ bad p := by
  rw [hx] at h
  exact h

end Meets

end Dquic.Lib
