import Ithax.Lib.Reader

/-!
# Readers that refuse some results

`Filters p strict loose`: the strict reader succeeds exactly where the loose one
succeeds with a result that meets `p`, and then with the same result and the
same cursor. A check added deep inside a reader filters the whole reader, as
long as the final result shows whether the check would have passed: that is the
`hBack` premise of the sequencing rules.
-/

namespace Ithax.Lib.Reader

variable {ε σ α β γ : Type}

/-- Every result of a successful run meets `Q`. -/
def Yields (m : Reader ε σ α) (Q : α → Prop) : Prop :=
  ∀ inp c r, m inp c = .ok r → Q r.1

/-- What every continuation yields, the whole yields. -/
theorem Yields.bind {m : Reader ε σ α} {f : α → Reader ε σ β} {Q : β → Prop}
    (h : ∀ a, Yields (f a) Q) : Yields (m >>= f) Q := by
  intro inp c r hRun
  obtain ⟨a, c₁, -, hf⟩ := bind_eq_ok hRun
  exact h a inp c₁ r hf

/-- A result that is only returned. -/
theorem yields_pure {a : α} {Q : α → Prop} (h : Q a) :
    Yields (pure a : Reader ε σ α) Q := by
  intro inp c r hRun
  cases hRun
  exact h

/-- A reader that fails yields nothing. -/
theorem yields_fail {e : ε} {Q : α → Prop} : Yields (fail e : Reader ε σ α) Q := by
  intro inp c r hRun
  cases hRun

/-- Both branches yield it. -/
theorem Yields.ite {p : Prop} [Decidable p] {m₁ m₂ : Reader ε σ α} {Q : α → Prop}
    (h₁ : Yields m₁ Q) (h₂ : Yields m₂ Q) : Yields (if p then m₁ else m₂) Q := by
  split
  · exact h₁
  · exact h₂

/-- A loop along a list, whose state stays in `S`. -/
theorem Yields.foldlM {f : β → α → Reader ε σ β} {S : β → Prop} {xs : List α}
    (hKeep : ∀ x ∈ xs, ∀ b, S b → Yields (f b x) S) :
    ∀ b, S b → Yields (xs.foldlM f b) S := by
  induction xs with
  | nil => intro b hb; exact yields_pure hb
  | cons x xs ih =>
    intro b hb inp c r hRun
    rw [List.foldlM_cons] at hRun
    obtain ⟨b', c₁, hx, hRest⟩ := bind_eq_ok hRun
    have hb' := hKeep x (by simp) b hb inp c (b', c₁) hx
    exact ih (fun y hy => hKeep y (by simp [hy])) b' hb' inp c₁ r hRest

/-- A check that succeeds leaves the cursor where it is. -/
theorem ofChecked_eq_ok {m : Checked ε α} {inp : Input} {c : Cursor σ}
    {r : α × Cursor σ} (h : (ofChecked m : Reader ε σ α) inp c = .ok r) :
    m = .ok r.1 ∧ r.2 = c := by
  unfold ofChecked at h
  split at h
  · cases h
    exact ⟨rfl, rfl⟩
  · cases h

/-- The strict reader succeeds where the loose one does with a result in `p`. -/
def Filters (p : α → Prop) (strict loose : Reader ε σ α) : Prop :=
  ∀ inp c r, strict inp c = .ok r ↔ loose inp c = .ok r ∧ p r.1

section Filters

variable {p : α → Prop} {q : β → Prop}

/-- A reader whose results all pass needs no check. -/
theorem filters_of_yields {m : Reader ε σ α} (h : Yields m p) : Filters p m m :=
  fun inp c r => ⟨fun hRun => ⟨hRun, h inp c r hRun⟩, fun hRun => hRun.1⟩

/-- Without a condition the two readers are the same. -/
theorem filters_same (m : Reader ε σ α) : Filters (fun _ => True) m m :=
  filters_of_yields fun _ _ _ _ => trivial

/-- Two readers that fail, with whatever exceptions. -/
theorem filters_fail (e e' : ε) :
    Filters p (fail e : Reader ε σ α) (fail e' : Reader ε σ α) := by
  intro inp c r
  constructor
  · intro h; cases h
  · rintro ⟨h, -⟩; cases h

/-- Sequencing; `S` is what is known of the first result whatever is filtered. -/
theorem Filters.bindWith {m m' : Reader ε σ α} {f f' : α → Reader ε σ β}
    {S : α → Prop} (hS : Yields m S) (hm : Filters p m' m)
    (hf : ∀ a, S a → p a → Filters q (f' a) (f a))
    (hBack : ∀ a inp c r, S a → f a inp c = .ok r → q r.1 → p a) :
    Filters q (m' >>= f') (m >>= f) := by
  rintro inp c ⟨b, c'⟩
  constructor
  · intro hRun
    obtain ⟨a, c₁, hm', hf'⟩ := bind_eq_ok hRun
    obtain ⟨hLoose, ha⟩ := (hm inp c (a, c₁)).mp hm'
    have hSa := hS inp c (a, c₁) hLoose
    obtain ⟨hRest, hb⟩ := (hf a hSa ha inp c₁ (b, c')).mp hf'
    exact ⟨by rw [bind_ok hLoose]; exact hRest, hb⟩
  · rintro ⟨hRun, hb⟩
    obtain ⟨a, c₁, hLoose, hRest⟩ := bind_eq_ok hRun
    have hSa := hS inp c (a, c₁) hLoose
    have ha : p a := hBack a inp c₁ (b, c') hSa hRest hb
    rw [bind_ok ((hm inp c (a, c₁)).mpr ⟨hLoose, ha⟩)]
    exact (hf a hSa ha inp c₁ (b, c')).mpr ⟨hRest, hb⟩

/-- Refusing is right where no result passes. -/
theorem filters_refuse {m : Reader ε σ α} {e : ε} (h : Yields m fun a => ¬p a) :
    Filters p (fail e) m := by
  intro inp c r
  constructor
  · intro hRun; cases hRun
  · rintro ⟨hRun, hr⟩
    exact absurd hr (h inp c r hRun)

/-- Sequencing, where the rest does not succeed on a first result outside of `p`. -/
theorem Filters.bind {m m' : Reader ε σ α} {f f' : α → Reader ε σ β}
    (hm : Filters p m' m) (hf : ∀ a, p a → Filters q (f' a) (f a))
    (hBack : ∀ a inp c r, f a inp c = .ok r → q r.1 → p a) :
    Filters q (m' >>= f') (m >>= f) :=
  hm.bindWith (S := fun _ => True) (fun _ _ _ _ => trivial) (fun a _ => hf a)
    fun a inp c r _ => hBack a inp c r

/-- A common first step. -/
theorem Filters.after {m : Reader ε σ α} {f f' : α → Reader ε σ β}
    (hf : ∀ a, Filters q (f' a) (f a)) : Filters q (m >>= f') (m >>= f) :=
  (filters_same m).bind (fun a _ => hf a) fun _ _ _ _ _ _ => trivial

/-- A last step that only builds the result. -/
theorem Filters.map {m m' : Reader ε σ α} {g : α → β} (hm : Filters p m' m)
    (hg : ∀ a, q (g a) ↔ p a) :
    Filters q (m' >>= fun a => pure (g a)) (m >>= fun a => pure (g a)) := by
  refine hm.bind (fun a ha => filters_of_yields (yields_pure ((hg a).mpr ha))) ?_
  intro a inp c r hRun hq
  cases hRun
  exact (hg a).mp hq

/-- A check of the result as the last step. -/
theorem Filters.check {m : Reader ε σ α} [DecidablePred p] (e : ε) :
    Filters p (m >>= fun a => if p a then pure a else fail e) m := by
  rintro inp c ⟨a, c'⟩
  constructor
  · intro hRun
    obtain ⟨a', c₁, hm, hRest⟩ := bind_eq_ok hRun
    split at hRest
    · cases hRest
      exact ⟨hm, ‹p a›⟩
    · cases hRest
  · rintro ⟨hm, ha⟩
    rw [bind_ok hm, if_pos ha]
    rfl

/-- The same branch on both sides. -/
theorem Filters.ite {c : Prop} [Decidable c] {m₁ m₂ m₁' m₂' : Reader ε σ α}
    (h₁ : Filters p m₁' m₁) (h₂ : Filters p m₂' m₂) :
    Filters p (if c then m₁' else m₂') (if c then m₁ else m₂) := by
  split
  · exact h₁
  · exact h₂

/-- A number of readers, each of them filtered. -/
theorem Filters.replicate {m m' : Reader ε σ α} (hm : Filters p m' m) (n : Nat) :
    Filters (fun as => ∀ a ∈ as, p a) (replicate m' n) (replicate m n) := by
  induction n with
  | zero => exact filters_of_yields (yields_pure (by simp))
  | succ n ih =>
    refine hm.bind (fun a ha => ih.map fun as => ?_) ?_
    · simp [ha]
    · rintro a inp c ⟨all, c'⟩ hRun hAll
      obtain ⟨as, c₁, -, hRest⟩ := bind_eq_ok hRun
      cases hRest
      exact hAll a (by simp)

/-- A loop whose state carries `I`; `hBack` says that a good result shows the
state to have been good. -/
theorem Filters.iterate {step step' : β → Reader ε σ (β ⊕ γ)} {I : β → Prop}
    {P : γ → Prop} (hStep : ∀ b, I b → Filters (Sum.elim I P) (step' b) (step b))
    (hBack : ∀ fuel b inp c r, Reader.iterate step fuel b inp c = .ok r → P r.1 → I b)
    (fuel : Nat) :
    ∀ b, I b → Filters P (Reader.iterate step' fuel b) (Reader.iterate step fuel b) := by
  induction fuel with
  | zero =>
    intro b _ inp c r
    constructor
    · intro h; cases h
    · rintro ⟨h, -⟩; cases h
  | succ fuel ih =>
    intro b hb
    refine (hStep b hb).bind (fun out hOut => ?_) ?_
    · cases out with
      | inl b' => exact ih b' hOut
      | inr x => exact filters_of_yields (yields_pure hOut)
    · intro out inp c r hRun hP
      cases out with
      | inl b' => exact hBack fuel b' inp c r hRun hP
      | inr x =>
        cases hRun
        exact hP

/-- A fold. `S` holds of every state whatever is filtered; `P done` is what the
elements passed so far must have met. -/
theorem Filters.foldlM {f f' : β → α → Reader ε σ β} {S : β → Prop}
    {P : List α → β → Prop} {xs : List α}
    (hKeep : ∀ x ∈ xs, ∀ b, S b → Yields (f b x) S)
    (hStep : ∀ done x todo, xs = done ++ x :: todo → ∀ b, S b → P done b →
      Filters (P (done ++ [x])) (f' b x) (f b x))
    (hBack : ∀ done todo, xs = done ++ todo → ∀ b inp c r,
      todo.foldlM f b inp c = .ok r → P xs r.1 → P done b)
    (b : β) (hS : S b) (hP : P [] b) :
    Filters (P xs) (xs.foldlM f' b) (xs.foldlM f b) := by
  have hRest : ∀ (todo done : List α) (b : β), xs = done ++ todo → S b → P done b →
      Filters (P xs) (todo.foldlM f' b) (todo.foldlM f b) := by
    intro todo
    induction todo with
    | nil =>
      intro done b hxs _ hP
      rw [List.append_nil] at hxs
      exact filters_of_yields (yields_pure (hxs ▸ hP))
    | cons x todo ih =>
      intro done b hxs hS hP
      have hSplit : xs = (done ++ [x]) ++ todo := by simp [hxs]
      rw [List.foldlM_cons, List.foldlM_cons]
      refine (hStep done x todo hxs b hS hP).bindWith (hKeep x (by simp [hxs]) b hS) ?_ ?_
      · intro b' hS' hP'
        exact ih (done ++ [x]) b' hSplit hS' hP'
      · intro b' inp c r _ hRun hEnd
        exact hBack (done ++ [x]) todo hSplit b' inp c r hRun hEnd
  exact hRest xs [] b rfl hS hP

end Filters

end Ithax.Lib.Reader
