import Ithax.Lib.ReaderRules

/-!
# Compositional properties of readers

A property of readers that the primitives have and that sequencing keeps is inherited by
every branch and every loop built from them. `Compositional` collects what has to be shown
of such a property, once; a walk over a parser is then made for all of them at the same
time.

## Results

* `Compositional.replicate`, `iterate`, `foldlM` — the loops inherit the property.
* `Compositional.delimited` — a successful run depends on the bytes it consumes only, and
  a cut ends in an accepted error.
* `Compositional.confined` — under any declared end, a successful run stays inside the
  buffer and looks at no byte after the ones it consumes.
-/

namespace Ithax.Lib.Reader

variable {ε σ α β γ : Type}

/-- `Holds k m` says something of the successful runs of `m`, each of at least `k` bytes.
Reads past the end throw an error that `isEnd` accepts. -/
structure Compositional (isEnd : ε → Prop) (σ : Type) where
  Holds : {α : Type} → Nat → Reader ε σ α → Prop
  mono : ∀ {α : Type} {k k₁ : Nat} {m : Reader ε σ α}, Holds k₁ m → k ≤ k₁ → Holds k m
  bind : ∀ {α β : Type} {k : Nat} (k₁ k₂ : Nat) {m : Reader ε σ α} {f : α → Reader ε σ β},
    Holds k₁ m → (∀ a, Holds k₂ (f a)) → k ≤ k₁ + k₂ → Holds k (m >>= f)
  done : ∀ {α : Type} (a : α), Holds 0 (pure a : Reader ε σ α)
  fail : ∀ {α : Type} {k : Nat} (e : ε), Holds k (Reader.fail e : Reader ε σ α)
  stuck : ∀ {α : Type} {k : Nat} (f : Fault), Holds k (Reader.stuck f : Reader ε σ α)
  ofChecked : ∀ {α : Type} (m : Checked ε α), Holds 0 (Reader.ofChecked m : Reader ε σ α)
  getStore : Holds 0 (Reader.getStore : Reader ε σ σ)
  setStore : ∀ x : σ, Holds 0 (Reader.setStore x : Reader ε σ Unit)
  take : ∀ {e : ε}, isEnd e → ∀ n, Holds n (Reader.take e n : Reader ε σ Bytes)
  takeByte : ∀ {e : ε}, isEnd e → Holds 1 (Reader.takeByte e : Reader ε σ UInt8)
  peek : ∀ {α : Type} {e : ε} {k : Nat} {f : UInt8 → Reader ε σ α}, isEnd e → 1 ≤ k →
    (∀ b, Holds k (f b)) → Holds k (Reader.peekByte e >>= f)
  requireLimit : ∀ {α : Type} {e : ε} {k n : Nat} {f : Unit → Reader ε σ α}, isEnd e →
    n ≤ k → Holds k (f ()) → Holds k (Reader.requireLimit e n >>= f)

namespace Compositional

variable {isEnd : ε → Prop} (P : Compositional isEnd σ) {k : Nat}

-- ---------------------------------------------------------------------------
-- Sequencing, branches and loops
-- ---------------------------------------------------------------------------

/-- Sequencing where only the first reader is asked to advance. -/
theorem seq {m : Reader ε σ α} {f : α → Reader ε σ β} (hm : P.Holds k m)
    (hf : ∀ a, P.Holds 0 (f a)) : P.Holds k (m >>= f) :=
  P.bind k 0 hm hf (by omega)

/-- Sequencing where nothing is asked of the first reader but the property. -/
theorem after {m : Reader ε σ α} {f : α → Reader ε σ β} (hm : P.Holds k m)
    (hf : ∀ a, P.Holds 0 (f a)) : P.Holds 0 (m >>= f) :=
  P.bind k 0 hm hf (by omega)

/-- Sequencing where only the second reader is asked to advance. -/
theorem andThen {m : Reader ε σ α} {f : α → Reader ε σ β} (hm : P.Holds 0 m)
    (hf : ∀ a, P.Holds k (f a)) : P.Holds k (m >>= f) :=
  P.bind 0 k hm hf (by omega)

/-- Both branches have the property. -/
theorem ite {p : Prop} [Decidable p] {m₁ m₂ : Reader ε σ α} (h₁ : P.Holds k m₁)
    (h₂ : P.Holds k m₂) : P.Holds k (if p then m₁ else m₂) := by
  split
  · exact h₁
  · exact h₂

/-- A number of readers. -/
theorem replicate {m : Reader ε σ α} (h : P.Holds k m) (n : Nat) :
    P.Holds 0 (Reader.replicate m n) := by
  induction n with
  | zero => exact P.done _
  | succ n ih =>
    refine P.after h fun a => ?_
    exact P.seq ih fun as => P.done _

/-- Each round advances, so the loop does; the fuel is only what bounds it. -/
theorem iterate {step : β → Reader ε σ (β ⊕ γ)} (h : ∀ b, P.Holds k (step b))
    (fuel : Nat) : ∀ b, P.Holds k (Reader.iterate step fuel b) := by
  induction fuel with
  | zero =>
    intro b
    exact P.stuck _
  | succ fuel ih =>
    intro b
    refine P.seq (h b) fun out => ?_
    cases out with
    | inl b' => exact P.mono (ih b') (Nat.zero_le k)
    | inr c => exact P.done c

/-- A loop along a list. -/
theorem foldlM {f : β → α → Reader ε σ β} {xs : List α}
    (h : ∀ x ∈ xs, ∀ b, P.Holds 0 (f b x)) : ∀ b, P.Holds 0 (xs.foldlM f b) := by
  induction xs with
  | nil =>
    intro b
    exact P.done b
  | cons x xs ih =>
    intro b
    rw [List.foldlM_cons]
    refine P.seq (h x (by simp) b) fun b' => ?_
    exact ih (fun y hy => h y (by simp [hy])) b'

end Compositional

-- ---------------------------------------------------------------------------
-- Self-delimiting readers
-- ---------------------------------------------------------------------------

/-- `Delimited` as a compositional property. -/
def Compositional.delimited (isEnd : ε → Prop) (σ : Type) : Compositional isEnd σ where
  Holds := Delimited isEnd
  mono := Delimited.mono
  bind := Delimited.bind
  done := delimited_pure
  fail := delimited_fail
  stuck := delimited_stuck
  ofChecked := delimited_ofChecked
  getStore := delimited_getStore
  setStore := delimited_setStore
  take := delimited_take
  takeByte := delimited_takeByte
  peek := fun he hk hf => Delimited.peek he hk hf
  requireLimit := fun he hn hf => Delimited.requireLimit he hn hf

-- ---------------------------------------------------------------------------
-- Confined readers
-- ---------------------------------------------------------------------------

/-- Whatever the declared end, a successful run consumes at least `k` bytes of the buffer
and looks at none after them: a buffer that agrees on them gives the same run. -/
def Confined (k : Nat) (m : Reader ε σ α) : Prop :=
  ∀ (inp : Input) (c : Cursor σ) (a : α) (c' : Cursor σ), c.offset ≤ inp.bytes.length →
    m inp c = .ok (a, c') →
    c.offset + k ≤ c'.offset ∧ c'.offset ≤ inp.bytes.length ∧
    ∀ t, inp.bytes.take c'.offset <+: t → m ⟨t, inp.limit⟩ c = .ok (a, c')

section Confined

variable {k k₁ : Nat}

/-- Readers that neither look at the buffer nor move the cursor. -/
theorem confined_of_still {m : Reader ε σ α}
    (h : ∀ inp t c, m inp c = m ⟨t, inp.limit⟩ c)
    (hOff : ∀ inp c a c', m inp c = .ok (a, c') → c'.offset = c.offset) :
    Confined 0 m := by
  intro inp c a c' hc hm
  have hEq := hOff inp c a c' hm
  exact ⟨by omega, by omega, fun t _ => (h inp t c).symm.trans hm⟩

/-- A result that is only returned. -/
theorem confined_pure (a : α) : Confined 0 (pure a : Reader ε σ α) :=
  confined_of_still (fun _ _ _ => rfl) fun inp c b c' h => by
    cases h
    rfl

/-- A failure asks nothing of the buffer. -/
theorem confined_fail (e : ε) : Confined k (fail e : Reader ε σ α) := by
  intro inp c a c' _ h
  cases h

/-- Nor does a fault. -/
theorem confined_stuck (f : Fault) : Confined k (stuck f : Reader ε σ α) := by
  intro inp c a c' _ h
  cases h

/-- A check of values does not look at the buffer. -/
theorem confined_ofChecked (m : Checked ε α) :
    Confined 0 (ofChecked m : Reader ε σ α) :=
  confined_of_still (fun _ _ _ => rfl) fun inp c b c' h => by
    cases m with
    | ok a => cases h; rfl
    | error e => cases h

/-- The store is not part of the buffer. -/
theorem confined_getStore : Confined 0 (getStore : Reader ε σ σ) :=
  confined_of_still (fun _ _ _ => rfl) fun inp c b c' h => by
    cases h
    rfl

/-- Writing it moves no cursor. -/
theorem confined_setStore (x : σ) : Confined 0 (setStore x : Reader ε σ Unit) :=
  confined_of_still (fun _ _ _ => rfl) fun inp c b c' h => by
    cases h
    rfl

/-- Less may be said of the advance. -/
theorem Confined.mono {m : Reader ε σ α} (h : Confined k₁ m) (hk : k ≤ k₁) :
    Confined k m := by
  intro inp c a c' hc hm
  obtain ⟨hAdv, hRest⟩ := h inp c a c' hc hm
  exact ⟨by omega, hRest⟩

/-- Sequencing: what both advance adds up. -/
theorem Confined.bind (k₁ k₂ : Nat) {m : Reader ε σ α} {f : α → Reader ε σ β}
    (hm : Confined k₁ m) (hf : ∀ a, Confined k₂ (f a)) (hk : k ≤ k₁ + k₂) :
    Confined k (m >>= f) := by
  intro inp c b c' hc hRun
  obtain ⟨a, c₁, hRun₁, hRun₂⟩ := bind_eq_ok hRun
  obtain ⟨hAdv₁, hIn₁, hSame₁⟩ := hm inp c a c₁ hc hRun₁
  obtain ⟨hAdv₂, hIn₂, hSame₂⟩ := hf a inp c₁ b c' hIn₁ hRun₂
  refine ⟨by omega, hIn₂, fun t ht => ?_⟩
  -- the bytes of the first run are among those of both
  have hFirst : inp.bytes.take c₁.offset <+: t := by
    refine List.IsPrefix.trans ?_ ht
    exact List.take_prefix_take_left (by omega)
  rw [bind_ok (hSame₁ t hFirst)]
  exact hSame₂ t ht

/-- A reader that ignores the declared end is confined if it is so on whole buffers. -/
theorem confined_of_whole {m : Reader ε σ α}
    (hLimit : ∀ s limit c, m ⟨s, limit⟩ c = m (Input.whole s) c)
    (h : Delimited (fun _ => True) k m) : Confined k m := by
  intro inp c a c' hc hRun
  rw [hLimit inp.bytes inp.limit] at hRun
  obtain ⟨hAdv, hIn, hSame, -⟩ := h inp.bytes c a c' hc hRun
  refine ⟨hAdv, hIn, fun t ht => ?_⟩
  rw [hLimit]
  exact hSame t ht

/-- As many bytes as asked for. -/
theorem confined_take {e : ε} (n : Nat) : Confined n (take e n : Reader ε σ Bytes) :=
  confined_of_whole (fun _ _ _ => rfl) (delimited_take trivial n)

/-- One byte. -/
theorem confined_takeByte {e : ε} : Confined 1 (takeByte e : Reader ε σ UInt8) :=
  confined_of_whole (fun _ _ _ => rfl) (delimited_takeByte trivial)

/-- The byte looked at is consumed by what follows, so it is the same in `t`. -/
theorem Confined.peek {e : ε} {f : UInt8 → Reader ε σ α} (hk : 1 ≤ k)
    (hf : ∀ b, Confined k (f b)) : Confined k (peekByte e >>= f) := by
  have hWhole : ∀ (inp : Input) (c : Cursor σ),
      (peekByte e : Reader ε σ UInt8) inp c = peekByte e (Input.whole inp.bytes) c :=
    fun _ _ => rfl
  intro inp c a c' hc hRun
  by_cases hEnd : inp.bytes.length ≤ c.offset
  · rw [bind_error ((hWhole inp c).trans (peekByte_end hEnd))] at hRun
    cases hRun
  have hLt : c.offset < inp.bytes.length := by omega
  rw [bind_ok ((hWhole inp c).trans (peekByte_apply hLt))] at hRun
  obtain ⟨hAdv, hIn, hSame⟩ := hf _ inp c a c' hc hRun
  refine ⟨hAdv, hIn, fun t ht => ?_⟩
  have hLen := length_le_of_keeps hIn ht
  have hIdx : c.offset < t.length := by omega
  have hByte : t[c.offset] = inp.bytes[c.offset] := by
    have hGet := ht.getElem (i := c.offset) (by rw [List.length_take]; omega)
    rw [← hGet, List.getElem_take]
  rw [bind_ok ((hWhole ⟨t, inp.limit⟩ c).trans (peekByte_apply hIdx)), hByte]
  exact hSame t ht

/-- The declared end is part of the input, so a check against it comes out the same. -/
theorem Confined.requireLimit {e : ε} {n : Nat} {f : Unit → Reader ε σ α}
    (hf : Confined k (f ())) : Confined k (Reader.requireLimit e n >>= f) := by
  intro inp c a c' hc hRun
  by_cases hStop : c.offset + n > inp.limit
  · rw [bind_apply, Reader.requireLimit, if_pos hStop] at hRun
    cases hRun
  rw [bind_apply, Reader.requireLimit, if_neg hStop] at hRun
  obtain ⟨hAdv, hIn, hSame⟩ := hf inp c a c' hc hRun
  refine ⟨hAdv, hIn, fun t ht => ?_⟩
  rw [bind_apply, Reader.requireLimit, if_neg hStop]
  exact hSame t ht

end Confined

/-- `Confined` as a compositional property. -/
def Compositional.confined (isEnd : ε → Prop) (σ : Type) : Compositional isEnd σ where
  Holds := Confined
  mono := Confined.mono
  bind := Confined.bind
  done := confined_pure
  fail := confined_fail
  stuck := confined_stuck
  ofChecked := confined_ofChecked
  getStore := confined_getStore
  setStore := confined_setStore
  take := fun _ n => confined_take n
  takeByte := fun _ => confined_takeByte
  peek := fun _ hk hf => Confined.peek hk hf
  requireLimit := fun _ _ hf => Confined.requireLimit hf

end Ithax.Lib.Reader
