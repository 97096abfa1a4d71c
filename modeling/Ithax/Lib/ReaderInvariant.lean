import Ithax.Lib.ReaderFilter

/-!
# What a reader answers from some stores

`YieldsFrom I m Q`: a run of `m` that starts with a store in `I` and succeeds ends with a
store in `I` and a result in `Q`. Nothing is asked of runs that fail, of the cursor or of the
buffer, so the rules are one for each primitive and one for each kind of loop.
-/

namespace Ithax.Lib.Reader

variable {ε σ α β γ : Type}

/-- What a successful run makes of a store in `I`: a store in `I`, and a result in `Q`. -/
def YieldsFrom (I : σ → Prop) (m : Reader ε σ α) (Q : α → Prop) : Prop :=
  ∀ inp c r, I c.store → m inp c = .ok r → Q r.1 ∧ I r.2.store

section Rules

variable {I : σ → Prop} {P Q : α → Prop} {R : β → Prop}

/-- Less may be said of the result. -/
theorem YieldsFrom.mono {m : Reader ε σ α} (h : YieldsFrom I m P) (hPQ : ∀ a, P a → Q a) :
    YieldsFrom I m Q := by
  intro inp c r hI hRun
  obtain ⟨hP, hI'⟩ := h inp c r hI hRun
  exact ⟨hPQ _ hP, hI'⟩

/-- The second reader may rely on what the first says of its result. -/
theorem YieldsFrom.bind {m : Reader ε σ α} {f : α → Reader ε σ β} (hm : YieldsFrom I m Q)
    (hf : ∀ a, Q a → YieldsFrom I (f a) R) : YieldsFrom I (m >>= f) R := by
  intro inp c r hI hRun
  obtain ⟨a, c₁, hFirst, hRest⟩ := bind_eq_ok hRun
  obtain ⟨hQ, hI'⟩ := hm inp c (a, c₁) hI hFirst
  exact hf a hQ inp c₁ r hI' hRest

/-- A first reader whose result does not matter. -/
theorem YieldsFrom.after {m : Reader ε σ α} {f : α → Reader ε σ β}
    (hm : YieldsFrom I m fun _ => True) (hf : ∀ a, YieldsFrom I (f a) R) :
    YieldsFrom I (m >>= f) R :=
  hm.bind fun a _ => hf a

/-- A result that is only returned leaves the store as it is. -/
theorem yieldsFrom_pure {a : α} (h : Q a) : YieldsFrom I (pure a : Reader ε σ α) Q := by
  intro inp c r hI hRun
  cases hRun
  exact ⟨h, hI⟩

/-- Nothing is asked of a run that fails. -/
theorem yieldsFrom_fail {e : ε} : YieldsFrom I (fail e : Reader ε σ α) Q := by
  intro inp c r hI hRun
  cases hRun

/-- A last step that only builds the result. -/
theorem YieldsFrom.map {m : Reader ε σ α} {f : α → β} (hm : YieldsFrom I m Q)
    (hf : ∀ a, Q a → R (f a)) : YieldsFrom I (m >>= fun a => pure (f a)) R :=
  hm.bind fun a ha => yieldsFrom_pure (hf a ha)

/-- Each branch may rely on the condition that leads to it. -/
theorem YieldsFrom.ite {p : Prop} [Decidable p] {m₁ m₂ : Reader ε σ α}
    (h₁ : p → YieldsFrom I m₁ Q) (h₂ : ¬p → YieldsFrom I m₂ Q) :
    YieldsFrom I (if p then m₁ else m₂) Q := by
  by_cases hp : p
  · rw [if_pos hp]
    exact h₁ hp
  · rw [if_neg hp]
    exact h₂ hp

/-- A check of values reads nothing, so the store is as before. -/
theorem yieldsFrom_ofChecked {m : Checked ε α} (h : m.Yields Q) :
    YieldsFrom I (ofChecked m : Reader ε σ α) Q := by
  intro inp c r hI hRun
  obtain ⟨hm, hc⟩ := ofChecked_eq_ok hRun
  exact ⟨h r.1 hm, hc ▸ hI⟩

/-- What the store is known to be is known of the store that is read. -/
theorem yieldsFrom_getStore : YieldsFrom I (getStore : Reader ε σ σ) I := by
  intro inp c r hI hRun
  cases hRun
  exact ⟨hI, hI⟩

/-- The check for bytes that are left has no result of interest. -/
theorem yieldsFrom_require {e : ε} {n : Nat} :
    YieldsFrom I (require e n : Reader ε σ Unit) fun _ => True := by
  intro inp c r hI hRun
  unfold require at hRun
  split at hRun
  · cases hRun
  · cases hRun
    exact ⟨trivial, hI⟩

/-- Nor has the check against the declared end. -/
theorem yieldsFrom_requireLimit {e : ε} {n : Nat} :
    YieldsFrom I (requireLimit e n : Reader ε σ Unit) fun _ => True := by
  intro inp c r hI hRun
  unfold requireLimit at hRun
  split at hRun
  · cases hRun
  · cases hRun
    exact ⟨trivial, hI⟩

/-- A single byte, of which nothing is known. -/
theorem yieldsFrom_byteAt {i : Nat} :
    YieldsFrom I (byteAt i : Reader ε σ UInt8) fun _ => True := by
  intro inp c r hI hRun
  unfold byteAt at hRun
  split at hRun
  · cases hRun
    exact ⟨trivial, hI⟩
  · cases hRun

/-- The bytes at the cursor. An index past the buffer is a fault and no success. -/
theorem yieldsFrom_bytesAt {n : Nat} :
    YieldsFrom I (bytesAt n : Reader ε σ Bytes) fun _ => True := by
  intro inp c r hI hRun
  unfold bytesAt at hRun
  split at hRun
  · cases hRun
    exact ⟨trivial, hI⟩
  · cases hRun

/-- The cursor moves, the store does not. -/
theorem yieldsFrom_advance {n : Nat} :
    YieldsFrom I (advance n : Reader ε σ Unit) fun _ => True := by
  intro inp c r hI hRun
  unfold advance at hRun
  split at hRun
  · cases hRun
  · cases hRun
    exact ⟨trivial, hI⟩

/-- The check, the bytes and the advance in one. -/
theorem yieldsFrom_take {e : ε} {n : Nat} :
    YieldsFrom I (take e n : Reader ε σ Bytes) fun _ => True :=
  yieldsFrom_require.bind fun _ _ => yieldsFrom_bytesAt.bind fun _ _ =>
    yieldsFrom_advance.bind fun _ _ => yieldsFrom_pure trivial

/-- A byte that stays at the cursor. -/
theorem yieldsFrom_peekByte {e : ε} :
    YieldsFrom I (peekByte e : Reader ε σ UInt8) fun _ => True :=
  yieldsFrom_require.bind fun _ _ => yieldsFrom_byteAt

/-- A byte that is consumed. -/
theorem yieldsFrom_takeByte {e : ε} :
    YieldsFrom I (takeByte e : Reader ε σ UInt8) fun _ => True :=
  yieldsFrom_require.bind fun _ _ => yieldsFrom_byteAt.bind fun _ _ =>
    yieldsFrom_advance.bind fun _ _ => yieldsFrom_pure trivial

/-- As many results as asked for, each of them in `Q`. -/
theorem YieldsFrom.replicate {m : Reader ε σ α} (hm : YieldsFrom I m Q) (n : Nat) :
    YieldsFrom I (replicate m n) fun as => as.length = n ∧ ∀ a ∈ as, Q a := by
  induction n with
  | zero => exact yieldsFrom_pure ⟨rfl, by simp⟩
  | succ n ih =>
    -- the store that a round leaves is one that the next may start from
    refine hm.bind fun a ha => ih.bind fun as has => ?_
    refine yieldsFrom_pure ⟨congrArg (· + 1) has.1, ?_⟩
    exact List.forall_mem_cons.mpr ⟨ha, has.2⟩

/-- A loop whose state is in `J` while it goes on, and whose result is in `S`. Out of fuel it does
not succeed. -/
theorem YieldsFrom.iterate {step : β → Reader ε σ (β ⊕ γ)} {J : β → Prop} {S : γ → Prop}
    (hStep : ∀ b, J b → YieldsFrom I (step b) (Sum.elim J S)) (fuel : Nat) :
    ∀ b, J b → YieldsFrom I (Reader.iterate step fuel b) S := by
  induction fuel with
  | zero =>
    intro b _ inp c r _ hRun
    cases hRun
  | succ fuel ih =>
    intro b hb
    -- out of the loop with a result in `S`, or around again with a state in `J`
    refine (hStep b hb).bind fun out hOut => ?_
    cases out with
    | inl b' => exact ih b' hOut
    | inr x => exact yieldsFrom_pure hOut

/-- A loop along a list, whose state stays in `J`. -/
theorem YieldsFrom.foldlM {f : β → α → Reader ε σ β} {J : β → Prop} {xs : List α}
    (hf : ∀ x ∈ xs, ∀ b, J b → YieldsFrom I (f b x) J) :
    ∀ b, J b → YieldsFrom I (xs.foldlM f b) J := by
  induction xs with
  | nil =>
    intro b hb
    exact yieldsFrom_pure hb
  | cons x xs ih =>
    intro b hb
    rw [List.foldlM_cons]
    refine (hf x List.mem_cons_self b hb).bind fun b' hb' => ?_
    exact ih (fun y hy => hf y (List.mem_cons_of_mem _ hy)) b' hb'

end Rules

end Ithax.Lib.Reader
