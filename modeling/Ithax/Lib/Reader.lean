import Ithax.Lib.LittleEndian

/-!
# Readers over a byte buffer

A reader is a program over an immutable byte buffer and a cursor (offset plus
a store of its own) that may stop by throwing an error. Behaviour the language
leaves undefined — an unchecked index outside its buffer, a cursor moved past
the end, the use of an unset slot — and a loop that outruns its bound are kept
apart from thrown errors as `Fault`s, so that "never faults" is a theorem and
not an artefact of total list functions.

Four properties of readers follow their structure, rule by rule:

* `Safe`      — no fault, the cursor stays inside the buffer and advances by
  at least `k` bytes, the store invariant is kept, the result meets `Q`;
* `Reads`     — on a buffer that holds `enc` at the cursor the reader returns
  `a` and consumes exactly `enc`;
* `Delimited` — a successful run depends only on the bytes it consumed: any
  buffer that agrees on them gives the same result, any shorter prefix ends
  in a truncation error;
* `Confined`  — under any declared end, a successful run stays inside the buffer
  and looks at nothing behind the bytes it consumed.
-/

namespace Ithax.Lib

/-! ## Outcomes -/

/-- Behaviour outside the language's definition, or a loop past its bound. -/
inductive Fault where
  | offsetPastEnd
  | outOfBounds
  | nullPointer
  | outOfFuel
  deriving DecidableEq, Repr

/-- Why a run stopped without a result. -/
inductive Stop (ε : Type) where
  | thrown (e : ε)
  | fault (f : Fault)
  deriving DecidableEq, Repr

/-- Partial pure computations: a result, a thrown error or a fault. -/
abbrev Checked (ε α : Type) := Except (Stop ε) α

/-- Whether a computation returns a result that meets `Q`. -/
instance Checked.decidableReturned {ε α : Type} (m : Except ε α) (Q : α → Prop)
    [DecidablePred Q] : Decidable (∃ a, m = .ok a ∧ Q a) :=
  match m with
  | .ok a => decidable_of_iff (Q a) (by simp)
  | .error _ => isFalse (by simp)

/-- Unchecked indexing: outside the buffer it is a fault. -/
def index {ε α : Type} (buf : List α) (i : Nat) : Checked ε α :=
  match buf[i]? with
  | some a => .ok a
  | none => .error (.fault .outOfBounds)

/-- The unchecked range `[i, i + n)` of a buffer. -/
def slice {ε α : Type} (buf : List α) (i n : Nat) : Checked ε (List α) :=
  if i + n ≤ buf.length then .ok ((buf.drop i).take n)
  else .error (.fault .outOfBounds)

/-- An index within the buffer. -/
theorem index_of_lt {ε α : Type} {buf : List α} {i : Nat} (h : i < buf.length) :
    (index buf i : Checked ε α) = .ok buf[i] := by
  simp [index, h]

/-- A range within the buffer. -/
theorem slice_of_le {ε α : Type} {buf : List α} {i n : Nat}
    (h : i + n ≤ buf.length) :
    (slice buf i n : Checked ε (List α)) = .ok ((buf.drop i).take n) :=
  if_pos h

/-- The computation does not fault, and a result it returns meets `Q`. -/
def Checked.Safe {ε α : Type} (m : Checked ε α) (Q : α → Prop) : Prop :=
  match m with
  | .ok a => Q a
  | .error (.thrown _) => True
  | .error (.fault _) => False

/-- Less may be said of the result. -/
theorem Checked.Safe.mono {ε α : Type} {m : Checked ε α} {Q Q' : α → Prop}
    (h : m.Safe Q) (hQ : ∀ a, Q a → Q' a) : m.Safe Q' := by
  match m, h with
  | .ok a, h => exact hQ a h
  | .error (.thrown _), _ => trivial

/-- The second computation may rely on the first. -/
theorem Checked.Safe.bind {ε α β : Type} {m : Checked ε α}
    {f : α → Checked ε β} {Q : α → Prop} {R : β → Prop} (hm : m.Safe Q)
    (hf : ∀ a, Q a → (f a).Safe R) : Checked.Safe (m >>= f) R := by
  match m, hm with
  | .ok a, hm => exact hf a hm
  | .error (.thrown _), _ => trivial

/-- An index within the buffer is no fault. -/
theorem Checked.safe_index {ε α : Type} {buf : List α} {i : Nat}
    (h : i < buf.length) : (index buf i : Checked ε α).Safe fun a => a = buf[i] := by
  rw [index_of_lt h]
  exact rfl

/-- Nor is a range. -/
theorem Checked.safe_slice {ε α : Type} {buf : List α} {i n : Nat}
    (h : i + n ≤ buf.length) :
    (slice buf i n : Checked ε (List α)).Safe fun bs => bs.length = n := by
  rw [slice_of_le h]
  show ((buf.drop i).take n).length = n
  rw [List.length_take, List.length_drop]
  omega

/-- A fold whose invariant may speak of the elements it has passed. -/
theorem Checked.Safe.foldlM {ε α β : Type} {f : β → α → Checked ε β}
    {I : List α → β → Prop} {xs : List α}
    (hf : ∀ done x todo, xs = done ++ x :: todo → ∀ b, I done b →
      (f b x).Safe (I (done ++ [x]))) (b : β) (hb : I [] b) :
    (xs.foldlM f b).Safe (I xs) := by
  -- generalise to a fold that has already passed `done`
  have hRest : ∀ (todo done : List α) (b : β), xs = done ++ todo → I done b →
      (todo.foldlM f b).Safe (I xs) := by
    intro todo
    induction todo with
    | nil =>
      intro done b hxs hb
      rw [hxs, List.append_nil]
      exact hb
    | cons x todo ih =>
      intro done b hxs hb
      rw [List.foldlM_cons]
      refine (hf done x todo hxs b hb).bind fun b' hb' => ?_
      exact ih (done ++ [x]) b' (by simp [hxs]) hb'
  exact hRest xs [] b rfl hb

/-- Inversion of a successful bind. -/
theorem Checked.bind_eq_ok {ε α β : Type} {m : Except ε α} {f : α → Except ε β}
    {b : β} (h : m >>= f = .ok b) : ∃ a, m = .ok a ∧ f a = .ok b := by
  match m, h with
  | .ok a, h => exact ⟨a, rfl, h⟩

/-- A fold that went through has gone through every element. -/
theorem Checked.foldlM_eq_ok {ε α β : Type} {f : β → α → Checked ε β} {x : α} :
    ∀ {xs : List α} {b b' : β}, xs.foldlM f b = .ok b' → x ∈ xs →
      ∃ before after, f before x = .ok after
  | y :: ys, b, b', h, hMem => by
    rw [List.foldlM_cons] at h
    obtain ⟨after, hFirst, hRest⟩ := Checked.bind_eq_ok h
    rcases List.mem_cons.mp hMem with rfl | hMem
    · exact ⟨b, after, hFirst⟩
    · exact Checked.foldlM_eq_ok hRest hMem

/-- The computation succeeds, with a result that meets `Q`. -/
def Checked.Returns {ε α : Type} (m : Checked ε α) (Q : α → Prop) : Prop :=
  ∃ a, m = .ok a ∧ Q a

/-- The second computation returns on what the first does. -/
theorem Checked.Returns.bind {ε α β : Type} {m : Checked ε α}
    {f : α → Checked ε β} {Q : α → Prop} {R : β → Prop} (hm : m.Returns Q)
    (hf : ∀ a, Q a → (f a).Returns R) : Checked.Returns (m >>= f) R := by
  obtain ⟨a, rfl, ha⟩ := hm
  exact hf a ha

/-- An index returns what is there. -/
theorem Checked.returns_index {ε α : Type} {buf : List α} {i : Nat} {a : α}
    (h : buf[i]? = some a) : (index buf i : Checked ε α).Returns fun x => a = x :=
  ⟨a, by rw [index, h], rfl⟩

/-- A loop returns when each round does. -/
theorem Checked.Returns.foldlM {ε α β : Type} {f : β → α → Checked ε β}
    {I : List α → β → Prop} {xs : List α}
    (hf : ∀ done x todo, xs = done ++ x :: todo → ∀ b, I done b →
      (f b x).Returns (I (done ++ [x]))) (b : β) (hb : I [] b) :
    (xs.foldlM f b).Returns (I xs) := by
  have hRest : ∀ (todo done : List α) (b : β), xs = done ++ todo → I done b →
      (todo.foldlM f b).Returns (I xs) := by
    intro todo
    induction todo with
    | nil =>
      intro done b hxs hb
      rw [hxs, List.append_nil]
      exact ⟨b, rfl, hb⟩
    | cons x todo ih =>
      intro done b hxs hb
      rw [List.foldlM_cons]
      refine (hf done x todo hxs b hb).bind fun b' hb' => ?_
      exact ih (done ++ [x]) b' (by simp [hxs]) hb'
  exact hRest xs [] b rfl hb

/-- A result the computation returns meets `Q`. -/
def Checked.Yields {ε α : Type} (m : Checked ε α) (Q : α → Prop) : Prop :=
  ∀ a, m = .ok a → Q a

/-- The second computation may rely on the first. -/
theorem Checked.Yields.bind {ε α β : Type} {m : Checked ε α} {f : α → Checked ε β}
    {Q : α → Prop} {R : β → Prop} (hm : m.Yields Q) (hf : ∀ a, Q a → (f a).Yields R) :
    Checked.Yields (m >>= f) R := by
  intro b h
  obtain ⟨a, ha, hb⟩ := Checked.bind_eq_ok h
  exact hf a (hm a ha) b hb

/-- The result of the first does not matter. -/
theorem Checked.Yields.after {ε α β : Type} {m : Checked ε α} {f : α → Checked ε β}
    {R : β → Prop} (hf : ∀ a, (f a).Yields R) : Checked.Yields (m >>= f) R :=
  Checked.Yields.bind (Q := fun _ => True) (fun _ _ => trivial) fun a _ => hf a

/-- A result that is only returned. -/
theorem Checked.yields_ok {ε α : Type} {a : α} {Q : α → Prop} (h : Q a) :
    Checked.Yields (.ok a : Checked ε α) Q := by
  intro b hb
  cases hb
  exact h

/-- A loop whose state stays in `I`. -/
theorem Checked.Yields.foldlM {ε α β : Type} {f : β → α → Checked ε β} {I : β → Prop}
    {xs : List α} (hf : ∀ x ∈ xs, ∀ b, I b → (f b x).Yields I) :
    ∀ b, I b → (xs.foldlM f b).Yields I := by
  induction xs with
  | nil => intro b hb; exact Checked.yields_ok hb
  | cons x xs ih =>
    intro b hb
    rw [List.foldlM_cons]
    refine (hf x List.mem_cons_self b hb).bind (ih fun y hy => ?_)
    exact hf y (List.mem_cons_of_mem _ hy)

/-! ## The reader monad -/

/-- The buffer of a run, with the position its producer declared as its end. -/
structure Input where
  bytes : Bytes
  limit : Nat

/-- A buffer whose declared end is its end. -/
def Input.whole (s : Bytes) : Input := ⟨s, s.length⟩

/-- The offset in the buffer, and the store. -/
structure Cursor (σ : Type) where
  offset : Nat
  store : σ

/-- A computation on a buffer with a cursor. -/
def Reader (ε σ α : Type) : Type :=
  Input → Cursor σ → Checked ε (α × Cursor σ)

namespace Reader

variable {ε σ α β γ : Type}

instance : Monad (Reader ε σ) where
  pure a := fun _ c => .ok (a, c)
  bind m f := fun inp c =>
    match m inp c with
    | .ok (a, c') => f a inp c'
    | .error e => .error e

/-- Returning moves nothing. -/
theorem pure_apply (a : α) (inp : Input) (c : Cursor σ) :
    (pure a : Reader ε σ α) inp c = .ok (a, c) := rfl

/-- The second reader starts where the first ends. -/
theorem bind_apply (m : Reader ε σ α) (f : α → Reader ε σ β) (inp : Input)
    (c : Cursor σ) :
    (m >>= f) inp c = match m inp c with
      | .ok (a, c') => f a inp c'
      | .error e => .error e := rfl

/-- The first reader succeeds. -/
theorem bind_ok {m : Reader ε σ α} {f : α → Reader ε σ β} {inp : Input}
    {c c' : Cursor σ} {a : α} (h : m inp c = .ok (a, c')) :
    (m >>= f) inp c = f a inp c' := by
  rw [bind_apply, h]

/-- The first reader fails. -/
theorem bind_error {m : Reader ε σ α} {f : α → Reader ε σ β} {inp : Input}
    {c : Cursor σ} {e : Stop ε} (h : m inp c = .error e) :
    (m >>= f) inp c = .error e := by
  rw [bind_apply, h]

/-- Inversion of a successful bind. -/
theorem bind_eq_ok {m : Reader ε σ α} {f : α → Reader ε σ β} {inp : Input}
    {c : Cursor σ} {r : β × Cursor σ} (h : (m >>= f) inp c = .ok r) :
    ∃ a c₁, m inp c = .ok (a, c₁) ∧ f a inp c₁ = .ok r := by
  rw [bind_apply] at h
  split at h
  · rename_i a c₁ hm
    exact ⟨a, c₁, hm, h⟩
  · cases h

/-- Throw an error. -/
def fail (e : ε) : Reader ε σ α := fun _ _ => .error (.thrown e)

/-- What is no behaviour of the program that is modelled. -/
def stuck (f : Fault) : Reader ε σ α := fun _ _ => .error (.fault f)

/-- Run a pure partial computation. -/
def ofChecked (m : Checked ε α) : Reader ε σ α := fun _ c =>
  match m with
  | .ok a => .ok (a, c)
  | .error e => .error e

/-- The store. -/
def getStore : Reader ε σ σ := fun _ c => .ok (c.store, c)

/-- Another store. -/
def setStore (s : σ) : Reader ε σ Unit := fun _ c =>
  .ok ((), { c with store := s })

/-- Throw `e` unless `n` more bytes are left. -/
def require (e : ε) (n : Nat) : Reader ε σ Unit := fun inp c =>
  if n > inp.bytes.length - c.offset then .error (.thrown e) else .ok ((), c)

/-- Throw `e` when the cursor, moved `n` bytes on, would pass the declared
end. -/
def requireLimit (e : ε) (n : Nat) : Reader ε σ Unit := fun inp c =>
  if c.offset + n > inp.limit then .error (.thrown e) else .ok ((), c)

/-- Unchecked look at the byte `i` places after the cursor. -/
def byteAt (i : Nat) : Reader ε σ UInt8 := fun inp c =>
  match (index inp.bytes (c.offset + i) : Checked ε UInt8) with
  | .ok b => .ok (b, c)
  | .error e => .error e

/-- Unchecked copy of the `n` bytes at the cursor. -/
def bytesAt (n : Nat) : Reader ε σ Bytes := fun inp c =>
  match (slice inp.bytes c.offset n : Checked ε Bytes) with
  | .ok bs => .ok (bs, c)
  | .error e => .error e

/-- Move the cursor; leaving the buffer is a fault. -/
def advance (n : Nat) : Reader ε σ Unit := fun inp c =>
  if c.offset + n > inp.bytes.length then .error (.fault .offsetPastEnd)
  else .ok ((), { c with offset := c.offset + n })

/-- A checked copy of the next `n` bytes. -/
def take (e : ε) (n : Nat) : Reader ε σ Bytes := do
  require e n
  let bs ← bytesAt n
  advance n
  pure bs

/-- A checked look at the next byte. -/
def peekByte (e : ε) : Reader ε σ UInt8 := do
  require e 1
  byteAt 0

/-- A checked read of the next byte. -/
def takeByte (e : ε) : Reader ε σ UInt8 := do
  require e 1
  let b ← byteAt 0
  advance 1
  pure b

/-- `n` runs in a row, results in order. -/
def replicate (m : Reader ε σ α) : Nat → Reader ε σ (List α)
  | 0 => pure []
  | n + 1 => do
    let a ← m
    let as ← replicate m n
    pure (a :: as)

/-- A loop that runs `step` until it answers `inr`; `fuel` bounds its rounds. -/
def iterate (step : β → Reader ε σ (β ⊕ γ)) : Nat → β → Reader ε σ γ
  | 0, _ => stuck .outOfFuel
  | fuel + 1, b => do
    match ← step b with
    | .inl b' => iterate step fuel b'
    | .inr c => pure c

end Reader

end Ithax.Lib
