import Dquic.Lib.Parser

/-!
# Streaming parsers

Parsers over bytes that fail with a request for more input, with an error, or for good. `Parses p
bs rest a` says that a parser consumes exactly `bs` in front of `rest` and gives `a`.
-/

namespace Dquic.Lib

inductive NomErr (ε : Type)
  | incomplete (needed : Nat)
  | error (e : ε)
  | failure (e : ε)
  deriving DecidableEq, Repr

abbrev Nom (ε α : Type) := StateT (List UInt8) (Except (NomErr ε)) α

namespace Nom

variable {ε α β : Type}

def fail (e : ε) : Nom ε α := fun _ => .error (.error e)

/-- The next `n` bytes, as a streaming parser takes them. -/
def take (n : Nat) : Nom ε (List UInt8) := fun s =>
  if s.length < n then .error (.incomplete (n - s.length)) else .ok (s.take n, s.drop n)

/-- The next `n` bytes, as a parser of complete input takes them. -/
def takeComplete (eof : ε) (n : Nat) : Nom ε (List UInt8) := fun s =>
  if s.length < n then .error (.error eof) else .ok (s.take n, s.drop n)

/-- The next `n` bytes as an array of that length. -/
def takeArray (n : Nat) : Nom ε { b : List UInt8 // b.length = n } := fun s =>
  if h : s.length < n then .error (.incomplete (n - s.length))
  else .ok (⟨s.take n, List.length_take_of_le (not_lt.mp h)⟩, s.drop n)

def takeArrayComplete (eof : ε) (n : Nat) : Nom ε { b : List UInt8 // b.length = n } := fun s =>
  if h : s.length < n then .error (.error eof)
  else .ok (⟨s.take n, List.length_take_of_le (not_lt.mp h)⟩, s.drop n)

/-- An unsigned integer of `n` bytes. -/
def beUint (n : Nat) : Nom ε Nat := do
  let b ← take n
  pure (ofBE b)

def beUintComplete (eof : ε) (n : Nat) : Nom ε Nat := do
  let b ← takeComplete eof n
  pure (ofBE b)

/-- What is left, without consuming it. -/
def rest : Nom ε (List UInt8) := fun s => .ok (s, s)

/-- What a parser reads again and again until it gives an error. It must consume. -/
def many0 (stuck : ε) (p : Nom ε α) (s : List UInt8) : Except (NomErr ε) (List α × List UInt8) :=
  match p s with
  | .error (.error _) => .ok ([], s)
  | .error e => .error e
  | .ok (a, r) =>
    if r.length < s.length then
      match many0 stuck p r with
      | .error e => .error e
      | .ok (as, r) => .ok (a :: as, r)
    else .error (.error stuck)
termination_by s.length

def mapErr {ε' : Type} (f : NomErr ε → NomErr ε') (p : Nom ε α) : Nom ε' α := fun s =>
  match p s with
  | .ok out => .ok out
  | .error e => .error (f e)

/-! ### Reading a format part by part -/

/-- Exactly `bs` is consumed in front of `rest`. -/
def Parses (p : Nom ε α) (bs rest : List UInt8) (a : α) : Prop := p (bs ++ rest) = .ok (a, rest)

lemma Parses.pure (a : α) (rest : List UInt8) : Parses (Pure.pure a : Nom ε α) [] rest a := rfl

variable {a : α} {b : β} {bs rest s r : List UInt8} {p : Nom ε α} {q : α → Nom ε β} {n x : Nat} {e stuck : ε}
  {as : List α}

lemma Parses.bind {cs : List UInt8} (hp : Parses p bs (cs ++ rest) a) (hq : Parses (q a) cs rest b) :
    Parses (p >>= q) (bs ++ cs) rest b := by
  change (do let (a, s) ← p (bs ++ cs ++ rest); q a s) = _
  rw [List.append_assoc, hp]
  exact hq

lemma Parses.bind_nil (hp : Parses p bs rest a) (hq : Parses (q a) [] rest b) : Parses (p >>= q) bs rest b := by
  have h : Parses (p >>= q) (bs ++ []) rest b := Parses.bind hp hq
  rwa [List.append_nil] at h

lemma Parses.map {f : α → β} (hp : Parses p bs rest a) :
    Parses (p >>= fun a => Pure.pure (f a)) bs rest (f a) := hp.bind_nil (Parses.pure (f a) rest)

lemma Parses.mapErr {ε' : Type} {f : NomErr ε → NomErr ε'} (hp : Parses p bs rest a) :
    Parses (p.mapErr f) bs rest a := by
  unfold Parses Nom.mapErr
  rw [hp]

lemma Parses.all (h : Parses p bs [] a) : p bs = .ok (a, []) := by
  unfold Parses at h
  rwa [List.append_nil] at h

lemma Parses.bind_rest {q : List UInt8 → Nom ε β} (hq : Parses (q (bs ++ rest)) bs rest b) :
    Parses (Nom.rest >>= q) bs rest b := hq

lemma parses_take (bs rest : List UInt8) : Parses (take bs.length : Nom ε (List UInt8)) bs rest bs := by
  unfold Parses take
  rw [if_neg (by rw [List.length_append]; omega), List.take_left, List.drop_left]

lemma parses_takeComplete (eof : ε) (bs rest : List UInt8) : Parses (takeComplete eof bs.length) bs rest bs := by
  unfold Parses takeComplete
  rw [if_neg (by rw [List.length_append]; omega), List.take_left, List.drop_left]

lemma parses_takeArray (b : { b : List UInt8 // b.length = n }) (rest : List UInt8) :
    Parses (takeArray n : Nom ε _) b.val rest b := by
  obtain ⟨bs, rfl⟩ := b
  unfold Parses takeArray
  rw [dif_neg (by simp)]
  simp only [List.take_left, List.drop_left]

lemma parses_takeArrayComplete (eof : ε) (b : { b : List UInt8 // b.length = n }) (rest : List UInt8) :
    Parses (takeArrayComplete eof n) b.val rest b := by
  obtain ⟨bs, rfl⟩ := b
  unfold Parses takeArrayComplete
  rw [dif_neg (by simp)]
  simp only [List.take_left, List.drop_left]

lemma parses_beUint (hx : x < 256 ^ n) (rest : List UInt8) : Parses (beUint n : Nom ε Nat) (toBE n x) rest x := by
  have h := parses_take (ε := ε) (toBE n x) rest
  rw [length_toBE] at h
  have hmap := h.map (f := ofBE)
  rwa [ofBE_toBE hx] at hmap

lemma parses_beU8 (b : UInt8) (rest : List UInt8) : Parses (beUint 1 : Nom ε Nat) [b] rest b.toNat := by
  have h := (parses_take (ε := ε) [b] rest).map (f := ofBE)
  have hval : ofBE [b] = b.toNat := by simp [ofBE]
  rwa [hval] at h

lemma parses_beUintComplete (eof : ε) (hx : x < 256 ^ n) (rest : List UInt8) :
    Parses (beUintComplete eof n) (toBE n x) rest x := by
  have h := parses_takeComplete eof (toBE n x) rest
  rw [length_toBE] at h
  have hmap := h.map (f := ofBE)
  rwa [ofBE_toBE hx] at hmap

lemma many0_of_error (h : p s = .error (.error e)) : many0 stuck p s = .ok ([], s) := by
  rw [many0, h]

lemma many0_of_ok {r' : List UInt8} (h : p s = .ok (a, r)) (hr : r.length < s.length)
    (has : many0 stuck p r = .ok (as, r')) : many0 stuck p s = .ok (a :: as, r') := by
  rw [many0, h]
  dsimp only
  rw [if_pos hr, has]

lemma parses_many0 {put : α → List UInt8} (hput : ∀ a ∈ as, put a ≠ [] ∧ ∀ rest, Parses p (put a) rest a)
    (hrest : p rest = .error (.error e)) : Parses (many0 stuck p) (as.flatMap put) rest as := by
  induction as with
  | nil => exact many0_of_error hrest
  | cons a as ih =>
    obtain ⟨hne, hparses⟩ := hput a List.mem_cons_self
    have htail := ih fun a' ha' => hput a' (List.mem_cons_of_mem a ha')
    unfold Parses
    rw [List.flatMap_cons, List.append_assoc]
    apply many0_of_ok (hparses _) _ htail
    have hpos := List.length_pos_of_ne_nil hne
    simp only [List.length_append]
    omega

/-! ### What parsing can do -/

lemma bind_eq_ok (h : (p >>= q) s = .ok (b, r)) : ∃ a s', p s = .ok (a, s') ∧ q a s' = .ok (b, r) := by
  change (do let (a, s') ← p s; q a s') = _ at h
  cases hp : p s with
  | error e =>
    rw [hp] at h
    cases h
  | ok out =>
    rw [hp] at h
    exact ⟨out.1, out.2, rfl, h⟩

/-- On this input the parser asks for more, fails with one of these errors, or leaves the end of the input. -/
def Yields (errors : Set ε) (p : Nom ε α) (s : List UInt8) : Prop :=
  (∃ n, p s = .error (.incomplete n)) ∨ (∃ e ∈ errors, p s = .error (.error e)) ∨
    ∃ a used r, p s = .ok (a, r) ∧ s = used ++ r

variable {errors : Set ε}

lemma Yields.pure (a : α) (s : List UInt8) : Yields errors (Pure.pure a : Nom ε α) s :=
  Or.inr (Or.inr ⟨a, [], s, rfl, rfl⟩)

lemma Yields.bind (hp : Yields errors p s) (hq : ∀ a r, p s = .ok (a, r) → Yields errors (q a) r) :
    Yields errors (p >>= q) s := by
  have hbind : (p >>= q) s = (do let (a, r) ← p s; q a r) := rfl
  rcases hp with ⟨n, hn⟩ | ⟨e, he, herr⟩ | ⟨a, used, r, ha, hs⟩
  · exact Or.inl ⟨n, by rw [hbind, hn]; rfl⟩
  · exact Or.inr (Or.inl ⟨e, he, by rw [hbind, herr]; rfl⟩)
  · have hrun : (p >>= q) s = q a r := by rw [hbind, ha]; rfl
    rcases hq a r ha with ⟨n, hn⟩ | ⟨e, he, herr⟩ | ⟨b, used', r', hb, hr⟩
    · exact Or.inl ⟨n, hrun.trans hn⟩
    · exact Or.inr (Or.inl ⟨e, he, hrun.trans herr⟩)
    · exact Or.inr (Or.inr ⟨b, used ++ used', r', hrun.trans hb, by rw [hs, hr, List.append_assoc]⟩)

lemma yields_fail (he : e ∈ errors) (s : List UInt8) : Yields errors (fail e : Nom ε α) s :=
  Or.inr (Or.inl ⟨e, he, rfl⟩)

lemma yields_take (n : Nat) (s : List UInt8) : Yields errors (take n : Nom ε (List UInt8)) s := by
  by_cases h : s.length < n
  · exact Or.inl ⟨_, if_pos h⟩
  · exact Or.inr (Or.inr ⟨s.take n, s.take n, s.drop n, if_neg h, (List.take_append_drop n s).symm⟩)

lemma yields_beUint (n : Nat) (s : List UInt8) : Yields errors (beUint n : Nom ε Nat) s :=
  (yields_take n s).bind fun _ r _ => .pure _ r

lemma yields_beUintComplete {eof : ε} (heof : eof ∈ errors) (n : Nat) (s : List UInt8) :
    Yields errors (beUintComplete eof n) s := by
  apply Yields.bind _ fun _ r _ => .pure _ r
  by_cases h : s.length < n
  · exact Or.inr (Or.inl ⟨eof, heof, if_pos h⟩)
  · exact Or.inr (Or.inr ⟨s.take n, s.take n, s.drop n, if_neg h, (List.take_append_drop n s).symm⟩)

lemma Yields.exists_append (h : Yields errors p s) (hp : p s = .ok (a, r)) : ∃ used, s = used ++ r := by
  rcases h with ⟨n, hn⟩ | ⟨e, -, he⟩ | ⟨a', used, r', ha', hs⟩
  · cases hn.symm.trans hp
  · cases he.symm.trans hp
  · cases ha'.symm.trans hp
    exact ⟨used, hs⟩

lemma take_eq_ok {a : List UInt8} (h : (take n : Nom ε (List UInt8)) s = .ok (a, r)) : s = a ++ r ∧ a.length = n := by
  unfold take at h
  split at h
  · cases h
  · rename_i hn
    cases h
    exact ⟨(List.take_append_drop n s).symm, List.length_take_of_le (not_lt.mp hn)⟩

end Nom

end Dquic.Lib
