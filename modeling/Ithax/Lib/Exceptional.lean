import Mathlib.Data.List.Induction

/-!
# Programs whose state outlives an exception

A method that throws keeps what it has done to its object, so such methods are
`EStateM` programs. `Hoare P m Q E`: from a state with `P`, `m` returns with `Q` or
throws with `E`. `guardedRun` is the loop that checks each item before it acts on it.
-/

namespace Ithax.Lib

variable {ε ε' σ τ α β : Type}

/-- The state a run ends in, whether it returns or throws. -/
def finalState : EStateM.Result ε σ α → σ
  | .ok _ s => s
  | .error _ s => s

/-- A pure computation that may throw. -/
def fromExcept (wrap : ε' → ε) : Except ε' α → EStateM ε σ α
  | .ok a => pure a
  | .error e => throw (wrap e)

/-- `if (p) throw e;` -/
def throwIf (p : Prop) [Decidable p] (e : ε) : EStateM ε σ Unit :=
  if p then throw e else pure ()

/-- A program over a part of the state. -/
def zoom (view : τ → σ) (put : τ → σ → τ) (wrap : ε' → ε) (m : EStateM ε' σ α) :
    EStateM ε τ α := fun t =>
  match m (view t) with
  | .ok a s => .ok a (put t s)
  | .error e s => .error (wrap e) (put t s)

/-- From a state with `P`, the program returns with `Q` or throws with `E`. -/
def Hoare (P : σ → Prop) (m : EStateM ε σ α) (Q : α → σ → Prop) (E : σ → Prop) : Prop :=
  ∀ s, P s →
    match m s with
    | .ok a s' => Q a s'
    | .error _ s' => E s'

/-- `I` survives a run of `m`, returned or thrown. -/
abbrev Keeps (I : σ → Prop) (m : EStateM ε σ α) : Prop := Hoare I m (fun _ => I) I

section Rules

variable {P : σ → Prop} {Q : α → σ → Prop} {E : σ → Prop} {m : EStateM ε σ α}

/-- What holds however the program ends. -/
theorem Hoare.finalState {I : σ → Prop} (h : Hoare P m (fun _ => I) I) {s : σ} (hs : P s) :
    I (finalState (m s)) := by
  have hRun := h s hs
  rcases hm : m s with ⟨a, s'⟩ | ⟨e, s'⟩
  · rw [hm] at hRun
    exact hRun
  · rw [hm] at hRun
    exact hRun

/-- What holds of a result. -/
theorem Hoare.of_ok (h : Hoare P m Q E) {s s' : σ} {a : α} (hs : P s) (hRun : m s = .ok a s') :
    Q a s' := by
  have hPost := h s hs
  rw [hRun] at hPost
  exact hPost

/-- An invariant holds however the program ends. -/
theorem Keeps.finalState {I : σ → Prop} (h : Keeps I m) {s : σ} (hs : I s) :
    I (finalState (m s)) :=
  Hoare.finalState h hs

/-- A stronger precondition will do. -/
theorem Hoare.strengthen {P' : σ → Prop} (h : Hoare P m Q E) (hP : ∀ s, P' s → P s) :
    Hoare P' m Q E :=
  fun s hs => h s (hP s hs)

/-- Less may be said of the end. -/
theorem Hoare.weaken {Q' : α → σ → Prop} {E' : σ → Prop} (h : Hoare P m Q E)
    (hQ : ∀ a s, Q a s → Q' a s) (hE : ∀ s, E s → E' s) : Hoare P m Q' E' := by
  intro s hs
  have hRun := h s hs
  rcases hm : m s with ⟨a, s'⟩ | ⟨e, s'⟩
  · rw [hm] at hRun
    exact hQ a s' hRun
  · rw [hm] at hRun
    exact hE s' hRun

/-- Two things said of one program. -/
theorem Hoare.and {P' : σ → Prop} {Q' : α → σ → Prop} {E' : σ → Prop} (h : Hoare P m Q E)
    (h' : Hoare P' m Q' E') :
    Hoare (fun s => P s ∧ P' s) m (fun a s => Q a s ∧ Q' a s) fun s => E s ∧ E' s := by
  intro s hs
  have hRun := h s hs.1
  have hRun' := h' s hs.2
  rcases hm : m s with ⟨a, t⟩ | ⟨e, t⟩
  · rw [hm] at hRun hRun'
    exact ⟨hRun, hRun'⟩
  · rw [hm] at hRun hRun'
    exact ⟨hRun, hRun'⟩

/-- The result is one that the program has from a state of the precondition. -/
theorem Hoare.ran (h : Hoare P m Q E) :
    Hoare P m (fun a t => Q a t ∧ ∃ s, P s ∧ m s = .ok a t) E := by
  intro s hs
  have hRun := h s hs
  rcases hm : m s with ⟨a, t⟩ | ⟨e, t⟩
  · rw [hm] at hRun
    exact ⟨hRun, s, hs, hm⟩
  · rw [hm] at hRun
    exact hRun

/-- A fact of the precondition that does not speak of the state. -/
theorem Hoare.assuming {φ : Prop} (h : φ → Hoare P m Q E) :
    Hoare (fun s => P s ∧ φ) m Q E :=
  fun s hs => h hs.2 s hs.1

/-- A result without a step. -/
theorem hoare_pure {a : α} (h : ∀ s, P s → Q a s) :
    Hoare P (pure a : EStateM ε σ α) Q E :=
  h

/-- An exception without a step. -/
theorem hoare_throw {e : ε} (h : ∀ s, P s → E s) :
    Hoare P (throw e : EStateM ε σ α) Q E :=
  h

/-- Every program, with nothing to say of it. -/
theorem hoare_any (m : EStateM ε σ α) : Hoare P m (fun _ _ => True) fun _ => True := by
  intro s _
  cases m s <;> trivial

/-- One program after another; what the first throws is thrown. -/
theorem Hoare.bind {f : α → EStateM ε σ β} {R : β → σ → Prop} (hm : Hoare P m Q E)
    (hf : ∀ a, Hoare (Q a) (f a) R E) : Hoare P (m >>= f) R E := by
  intro s hs
  have hRun := hm s hs
  show match EStateM.bind m f s with
    | .ok b s' => R b s'
    | .error _ s' => E s'
  unfold EStateM.bind
  rcases hFirst : m s with ⟨a, s'⟩ | ⟨e, s'⟩
  · rw [hFirst] at hRun
    exact hf a s' hRun
  · rw [hFirst] at hRun
    exact hRun

/-- Two programs that keep the same invariant. -/
theorem Keeps.seq {I : σ → Prop} {f : α → EStateM ε σ β} (hm : Keeps I m)
    (hf : ∀ a, Keeps I (f a)) : Keeps I (m >>= f) :=
  hm.bind hf

/-- Each branch under its own condition. -/
theorem Hoare.ite {c : Prop} [Decidable c] {m' : EStateM ε σ α} (h : c → Hoare P m Q E)
    (h' : ¬c → Hoare P m' Q E) : Hoare P (if c then m else m') Q E := by
  by_cases hc : c
  · rw [if_pos hc]
    exact h hc
  · rw [if_neg hc]
    exact h' hc

/-- After the check the condition is known to be false. -/
theorem hoare_throwIf {p : Prop} [Decidable p] {e : ε} (h : ∀ s, P s → E s) :
    Hoare P (throwIf p e : EStateM ε σ Unit) (fun _ s => P s ∧ ¬p) E := by
  unfold throwIf
  by_cases hp : p
  · rw [if_pos hp]
    exact hoare_throw h
  · rw [if_neg hp]
    exact hoare_pure fun s hs => ⟨hs, hp⟩

/-- The state itself as the result. -/
theorem hoare_get {Q : σ → σ → Prop} (h : ∀ s, P s → Q s s) :
    Hoare P (get : EStateM ε σ σ) Q E :=
  h

/-- A change of the state. -/
theorem hoare_modify {f : σ → σ} {Q : Unit → σ → Prop} (h : ∀ s, P s → Q () (f s)) :
    Hoare P (modify f : EStateM ε σ Unit) Q E :=
  h

/-- A pure part leaves the state; its result is known. -/
theorem hoare_fromExcept {wrap : ε' → ε} {x : Except ε' α} (hThrow : ∀ s, P s → E s) :
    Hoare P (fromExcept wrap x : EStateM ε σ α) (fun a s => P s ∧ x = .ok a) E := by
  intro s hs
  cases x with
  | ok a => exact ⟨hs, rfl⟩
  | error e => exact hThrow s hs

section Keeps

variable {I : σ → Prop}

theorem keeps_pure (a : α) : Keeps I (pure a : EStateM ε σ α) := hoare_pure fun _ h => h

theorem keeps_throw (e : ε) : Keeps I (throw e : EStateM ε σ α) := hoare_throw fun _ h => h

theorem keeps_get : Keeps I (get : EStateM ε σ σ) := hoare_get fun _ h => h

/-- What a run does to the state it finds keeps `I`. -/
theorem keeps_of_relation {R : σ → σ → Prop}
    (hm : ∀ s, Hoare (fun t => t = s) m (fun _ => R s) (R s))
    (h : ∀ s t, I s → R s t → I t) : Keeps I m := by
  intro s hs
  exact Hoare.weaken (hm s) (fun _ t => h s t hs) (fun t => h s t hs) s rfl

theorem keeps_throwIf {p : Prop} [Decidable p] {e : ε} :
    Keeps I (throwIf p e : EStateM ε σ Unit) :=
  Hoare.ite (fun _ => keeps_throw e) fun _ => keeps_pure ()

/-- A pure part keeps every invariant. -/
theorem keeps_fromExcept (wrap : ε' → ε) (x : Except ε' α) :
    Keeps I (fromExcept wrap x : EStateM ε σ α) := by
  cases x with
  | ok a => exact keeps_pure a
  | error e => exact keeps_throw (wrap e)

end Keeps

/-- What a program does to a part, said of the whole. -/
theorem hoare_zoom {view : τ → σ} {put : τ → σ → τ} {wrap : ε' → ε} {m : EStateM ε' σ α}
    {P : τ → Prop} {Q : α → τ → Prop} {E : τ → Prop}
    (h : ∀ t, P t → Hoare (fun s => s = view t) m (fun a s => Q a (put t s))
      fun s => E (put t s)) :
    Hoare P (zoom view put wrap m) Q E := by
  intro t ht
  have hRun := h t ht (view t) rfl
  unfold zoom
  rcases hm : m (view t) with ⟨a, s⟩ | ⟨e, s⟩
  · rw [hm] at hRun
    exact hRun
  · rw [hm] at hRun
    exact hRun

end Rules

-- ---------------------------------------------------------------------------
-- Which exceptions
-- ---------------------------------------------------------------------------

/-- A run from `s` returns a result, in a state, with `q`. -/
def Returns (q : α → σ → Prop) (m : EStateM ε σ α) (s : σ) : Prop :=
  ∃ a s', m s = .ok a s' ∧ q a s'

instance (q : α → σ → Prop) [∀ a s, Decidable (q a s)] (m : EStateM ε σ α) (s : σ) :
    Decidable (Returns q m s) :=
  match h : m s with
  | .ok a s' => decidable_of_iff (q a s') (by simp [Returns, h])
  | .error _ _ => isFalse (by simp [Returns, h])

/-- A run from `s` ends in an exception with `p`. -/
def Throws (p : ε → Prop) (m : EStateM ε σ α) (s : σ) : Prop :=
  ∃ e s', m s = .error e s' ∧ p e

section Throws

variable {p : ε → Prop} {m : EStateM ε σ α} {s s' : σ}

/-- An exception that the run ends in. -/
theorem Throws.of_error {e : ε} (h : m s = .error e s') (hp : p e) : Throws p m s :=
  ⟨e, s', h, hp⟩

/-- A run that returns does not throw. -/
theorem not_throws_of_ok {a : α} (h : m s = .ok a s') : ¬Throws p m s := by
  rintro ⟨e, t, hError, -⟩
  rw [h] at hError
  cases hError

/-- The exception of a run is the one it ends in. -/
theorem throws_of_error_iff {e : ε} (h : m s = .error e s') : Throws p m s ↔ p e := by
  constructor
  · rintro ⟨e', t, hError, hp⟩
    rw [h] at hError
    cases hError
    exact hp
  · exact .of_error h

/-- The state is read and left. -/
theorem get_run (s : σ) : (get : EStateM ε σ σ) s = .ok s s := rfl

/-- For a program that is unfolded down to its primitives. -/
theorem get_apply (s : σ) : (EStateM.get : EStateM ε σ σ) s = .ok s s := rfl

/-- A pure part that succeeds. -/
theorem fromExcept_ok (wrap : ε' → ε) (a : α) (s : σ) :
    fromExcept wrap (.ok a) s = .ok a s := rfl

/-- A pure part that fails, its exception wrapped. -/
theorem fromExcept_error (wrap : ε' → ε) (e : ε') (s : σ) :
    (fromExcept wrap (.error e) : EStateM ε σ α) s = .error (wrap e) s := rfl

/-- After a result comes the rest of the program. -/
theorem bind_of_ok {f : α → EStateM ε σ β} {a : α} (h : m s = .ok a s') :
    (m >>= f) s = f a s' := by
  show EStateM.bind m f s = f a s'
  rw [EStateM.bind, h]

/-- After an exception nothing comes. -/
theorem bind_of_error {f : α → EStateM ε σ β} {e : ε} (h : m s = .error e s') :
    (m >>= f) s = .error e s' := by
  show EStateM.bind m f s = .error e s'
  rw [EStateM.bind, h]

/-- A sequence returns when both parts do. -/
theorem bind_eq_ok_iff {f : α → EStateM ε σ β} {b : β} :
    (m >>= f) s = .ok b s' ↔ ∃ a t, m s = .ok a t ∧ f a t = .ok b s' := by
  cases hm : m s with
  | ok a t =>
    rw [bind_of_ok hm]
    constructor
    · exact fun h => ⟨a, t, rfl, h⟩
    · rintro ⟨a, t, hSame, h⟩
      cases hSame
      exact h
  | error e t =>
    rw [bind_of_error hm]
    exact iff_of_false (fun h => nomatch h) fun ⟨_, _, h, _⟩ => nomatch h

/-- After a part that returns, what follows decides. -/
theorem throws_bind_of_ok {f : α → EStateM ε σ β} {a : α} (h : m s = .ok a s') :
    Throws p (m >>= f) s ↔ Throws p (f a) s' := by
  unfold Throws
  rw [bind_of_ok h]

/-- A part that throws decides. -/
theorem throws_bind_of_error {f : α → EStateM ε σ β} {e : ε} (h : m s = .error e s') :
    Throws p (m >>= f) s ↔ p e :=
  throws_of_error_iff (bind_of_error h)

/-- A program throws in its first part or in what follows. -/
theorem throws_bind_iff {f : α → EStateM ε σ β} :
    Throws p (m >>= f) s ↔ Throws p m s ∨ ∃ a t, m s = .ok a t ∧ Throws p (f a) t := by
  cases hm : m s with
  | ok a t =>
    rw [throws_bind_of_ok hm]
    constructor
    · exact fun h => .inr ⟨a, t, rfl, h⟩
    · rintro (h | ⟨a, t, hSame, h⟩)
      · exact absurd h (not_throws_of_ok hm)
      · cases hSame
        exact h
  | error e t =>
    rw [throws_bind_of_error hm, throws_of_error_iff hm]
    exact ⟨.inl, fun h => h.elim id fun ⟨_, _, hNo, _⟩ => nomatch hNo⟩

/-- A result is no exception. -/
theorem not_throws_pure (a : α) : ¬Throws p (pure a : EStateM ε σ α) s := not_throws_of_ok rfl

/-- The exception that is thrown. -/
theorem throws_throw_iff {e : ε} : Throws p (throw e : EStateM ε σ α) s ↔ p e :=
  throws_of_error_iff rfl

/-- No run ends in an exception with `p`. -/
def NeverThrows (p : ε → Prop) (m : EStateM ε σ α) : Prop := ∀ s, ¬Throws p m s

/-- A program that always returns. -/
theorem neverThrows_of_ok (h : ∀ s, ∃ a s', m s = .ok a s') : NeverThrows p m := by
  intro s
  obtain ⟨a, s', hOk⟩ := h s
  exact not_throws_of_ok hOk

/-- A result never throws. -/
theorem neverThrows_pure (a : α) : NeverThrows p (pure a : EStateM ε σ α) :=
  fun _ => not_throws_pure a

/-- Reading the state never throws. -/
theorem neverThrows_get : NeverThrows p (get : EStateM ε σ σ) :=
  fun s => not_throws_of_ok (get_run s)

/-- Changing the state never throws. -/
theorem neverThrows_modify (f : σ → σ) : NeverThrows p (modify f : EStateM ε σ Unit) :=
  neverThrows_of_ok fun s => ⟨(), f s, rfl⟩

/-- Another exception is none with `p`. -/
theorem neverThrows_throw {e : ε} (h : ¬p e) : NeverThrows p (throw e : EStateM ε σ α) :=
  fun _ hThrows => h (throws_throw_iff.mp hThrows)

/-- A sequence of parts that never throw. -/
theorem NeverThrows.bind {f : α → EStateM ε σ β} (hm : NeverThrows p m)
    (hf : ∀ a, NeverThrows p (f a)) : NeverThrows p (m >>= f) := by
  intro s hThrows
  rcases throws_bind_iff.mp hThrows with hFirst | ⟨a, t, -, hRest⟩
  · exact hm s hFirst
  · exact hf a t hRest

/-- A choice of parts that never throw. -/
theorem NeverThrows.ite {c : Prop} [Decidable c] {m' : EStateM ε σ α} (h : NeverThrows p m)
    (h' : NeverThrows p m') : NeverThrows p (if c then m else m') := by
  by_cases hc : c
  · rw [if_pos hc]
    exact h
  · rw [if_neg hc]
    exact h'

/-- A part that returns, within the whole. -/
theorem zoom_of_ok {view : τ → σ} {put : τ → σ → τ} {wrap : ε' → ε} {m : EStateM ε' σ α}
    {t : τ} {a : α} {s : σ} (h : m (view t) = .ok a s) :
    zoom view put wrap m t = .ok a (put t s) := by
  rw [zoom, h]

/-- A part that throws, within the whole. -/
theorem zoom_of_error {view : τ → σ} {put : τ → σ → τ} {wrap : ε' → ε} {m : EStateM ε' σ α}
    {t : τ} {e : ε'} {s : σ} (h : m (view t) = .error e s) :
    zoom view put wrap m t = .error (wrap e) (put t s) := by
  rw [zoom, h]

end Throws

-- ---------------------------------------------------------------------------
-- Calls whose exceptions are caught
-- ---------------------------------------------------------------------------

section AfterCalls

variable {ι : Type} (call : ι → EStateM ε σ α)

/-- The state after some calls; a caller that catches what they throw goes on with it. -/
def afterCalls (s : σ) (calls : List ι) : σ :=
  calls.foldl (fun s c => finalState (call c s)) s

/-- One call more. -/
theorem afterCalls_concat (s : σ) (calls : List ι) (c : ι) :
    afterCalls call s (calls ++ [c]) = finalState (call c (afterCalls call s calls)) := by
  rw [afterCalls, List.foldl_append]
  rfl

/-- What holds at first and survives each call of the run holds at its end. -/
theorem afterCalls_invariant {I : σ → Prop} {s : σ} {calls : List ι} (hFirst : I s)
    (hStep : ∀ done c rest, calls = done ++ c :: rest → I (afterCalls call s done) →
      I (finalState (call c (afterCalls call s done)))) : I (afterCalls call s calls) := by
  induction calls using List.reverseRecOn with
  | nil => exact hFirst
  | append_singleton calls c ih =>
    rw [afterCalls_concat]
    refine hStep calls c [] rfl (ih ?_)
    intro done other rest hSplit hHere
    exact hStep done other (rest ++ [c]) (by rw [hSplit, List.append_assoc]; rfl) hHere

end AfterCalls

-- ---------------------------------------------------------------------------
-- Loops that check each item before they act on it
-- ---------------------------------------------------------------------------

section GuardedRun

variable {ι : Type} (fits : ι → Bool) (act : ι → σ → σ) (refusal : ι → ε)

/-- Acts on the items one after the other and throws at the first that does not fit. -/
def guardedRun : List ι → EStateM ε σ Unit
  | [] => pure ()
  | x :: xs => do
    if fits x = false then throw (refusal x)
    modify (act x)
    guardedRun xs

/-- The state after the items, none of them refused. -/
def actAll (xs : List ι) (s : σ) : σ := xs.foldl (fun s x => act x s) s

/-- An item that fits is acted on. -/
theorem guardedRun_cons_of_fits {x : ι} (h : fits x = true) (xs : List ι) (s : σ) :
    guardedRun fits act refusal (x :: xs) s = guardedRun fits act refusal xs (act x s) := by
  rw [guardedRun, h]
  rfl

/-- An item that does not fit ends the loop, and nothing is done for it. -/
theorem guardedRun_cons_of_refused {x : ι} (h : fits x = false) (xs : List ι) (s : σ) :
    guardedRun fits act refusal (x :: xs) s = .error (refusal x) s := by
  rw [guardedRun, h]
  rfl

/-- The loop over two lists is one after the other. -/
theorem guardedRun_append (xs ys : List ι) (s : σ) :
    guardedRun fits act refusal (xs ++ ys) s =
      (guardedRun fits act refusal xs >>= fun _ => guardedRun fits act refusal ys) s := by
  induction xs generalizing s with
  | nil => rfl
  | cons x xs ih =>
    cases hFits : fits x with
    | true =>
      rw [List.cons_append, guardedRun_cons_of_fits fits act refusal hFits, ih]
      simp only [bind, EStateM.bind, guardedRun_cons_of_fits fits act refusal hFits]
    | false =>
      rw [List.cons_append, guardedRun_cons_of_refused fits act refusal hFits]
      simp only [bind, EStateM.bind, guardedRun_cons_of_refused fits act refusal hFits]

/-- A loop that returns found that all items fit, and acted on all. -/
theorem guardedRun_ok_iff {xs : List ι} {s s' : σ} :
    guardedRun fits act refusal xs s = .ok () s' ↔
      (∀ x ∈ xs, fits x = true) ∧ s' = actAll act xs s := by
  induction xs generalizing s with
  | nil =>
    constructor
    · intro h
      cases h
      exact ⟨by simp, rfl⟩
    · rintro ⟨-, rfl⟩
      rfl
  | cons x xs ih =>
    cases hFits : fits x with
    | true =>
      rw [guardedRun_cons_of_fits fits act refusal hFits, ih, List.forall_mem_cons]
      constructor
      · rintro ⟨hRest, hState⟩
        exact ⟨⟨hFits, hRest⟩, hState⟩
      · rintro ⟨⟨-, hRest⟩, hState⟩
        exact ⟨hRest, hState⟩
    | false =>
      rw [guardedRun_cons_of_refused fits act refusal hFits, List.forall_mem_cons]
      constructor
      · intro h
        cases h
      · rintro ⟨⟨hFirst, -⟩, -⟩
        rw [hFits] at hFirst
        cases hFirst

/-- A run that throws has acted on the items before the first that does not fit. -/
theorem guardedRun_error_iff {xs : List ι} {s s' : σ} {e : ε} :
    guardedRun fits act refusal xs s = .error e s' ↔
      ∃ before x after, xs = before ++ x :: after ∧ (∀ y ∈ before, fits y = true) ∧
        fits x = false ∧ e = refusal x ∧ s' = actAll act before s := by
  induction xs generalizing s with
  | nil =>
    constructor
    · intro h
      cases h
    · rintro ⟨before, x, after, hSplit, -⟩
      exact absurd hSplit.symm (by simp)
  | cons first xs ih =>
    cases hFirst : fits first with
    | true =>
      rw [guardedRun_cons_of_fits fits act refusal hFirst, ih]
      constructor
      · rintro ⟨before, x, after, rfl, hBefore, hRefused, rfl, rfl⟩
        refine ⟨first :: before, x, after, rfl, ?_, hRefused, rfl, rfl⟩
        intro y hy
        rcases List.mem_cons.mp hy with rfl | hIn
        · exact hFirst
        · exact hBefore y hIn
      · rintro ⟨before, x, after, hSplit, hBefore, hRefused, rfl, rfl⟩
        cases before with
        | nil =>
          obtain ⟨rfl, -⟩ := List.cons.inj hSplit
          rw [hFirst] at hRefused
          cases hRefused
        | cons y before =>
          obtain ⟨rfl, rfl⟩ := List.cons.inj hSplit
          exact ⟨before, x, after, rfl, fun z hz => hBefore z (List.mem_cons_of_mem _ hz), hRefused,
            rfl, rfl⟩
    | false =>
      rw [guardedRun_cons_of_refused fits act refusal hFirst]
      constructor
      · intro h
        cases h
        exact ⟨[], first, xs, rfl, by simp, hFirst, rfl, rfl⟩
      · rintro ⟨before, x, after, hSplit, hBefore, hRefused, rfl, rfl⟩
        cases before with
        | nil =>
          obtain ⟨rfl, -⟩ := List.cons.inj hSplit
          rfl
        | cons y before =>
          obtain ⟨rfl, -⟩ := List.cons.inj hSplit
          have hFits := hBefore first List.mem_cons_self
          rw [hFirst] at hFits
          cases hFits

end GuardedRun

end Ithax.Lib
