import Ithax.Lib.Reader

/-!
# Rules for readers

The rules by which `Safe`, `Reads` and `Delimited` follow the structure of a
reader: one rule per primitive, one for sequencing, and for the first two one
for each kind of loop.
-/

namespace Ithax.Lib.Reader

variable {ε σ α β γ : Type}

/-! ## Safety -/

/-- From a cursor inside a buffer of at most `cap` bytes the reader does not
fault, advances by at least `k`, stays inside, keeps `J` and answers `Q`. -/
def Safe (cap : Nat) (J : σ → Prop) (k : Nat) (m : Reader ε σ α)
    (Q : α → Prop) : Prop :=
  ∀ (inp : Input) (c : Cursor σ), inp.bytes.length ≤ cap →
    c.offset ≤ inp.bytes.length → J c.store →
    Checked.Safe (m inp c) fun r =>
      c.offset + k ≤ r.2.offset ∧ r.2.offset ≤ inp.bytes.length ∧
        J r.2.store ∧ Q r.1

section Safe

variable {cap : Nat} {J : σ → Prop} {k k₁ : Nat} {Q Q' : α → Prop}
  {R : β → Prop}

/-- Less may be said of a safe reader. -/
theorem Safe.mono {m : Reader ε σ α} (h : Safe cap J k₁ m Q) (hk : k ≤ k₁)
    (hQ : ∀ a, Q a → Q' a) : Safe cap J k m Q' := by
  intro inp c hCap hOff hJ
  refine (h inp c hCap hOff hJ).mono ?_
  rintro r ⟨hAdv, hIn, hJ', hr⟩
  exact ⟨by omega, hIn, hJ', hQ _ hr⟩

/-- A result without a read. -/
theorem safe_pure {a : α} (hQ : Q a) :
    Safe cap J 0 (pure a : Reader ε σ α) Q :=
  fun _ _ _ hOff hJ => ⟨le_rfl, hOff, hJ, hQ⟩

/-- A reader that throws is safe. -/
theorem safe_fail {e : ε} : Safe cap J k (fail e : Reader ε σ α) Q :=
  fun _ _ _ _ _ => trivial

/-- One reader after another. The second may rely on what the first answered. -/
theorem Safe.bind (k₁ k₂ : Nat) {m : Reader ε σ α} {f : α → Reader ε σ β}
    (hm : Safe cap J k₁ m Q) (hf : ∀ a, Q a → Safe cap J k₂ (f a) R)
    (hk : k ≤ k₁ + k₂) : Safe cap J k (m >>= f) R := by
  intro inp c hCap hOff hJ
  have hm := hm inp c hCap hOff hJ
  rw [bind_apply]
  cases hr : m inp c with
  | ok r =>
    obtain ⟨a, c₁⟩ := r
    simp only [hr, Checked.Safe] at hm
    obtain ⟨hAdv, hIn, hJ₁, hQ⟩ := hm
    refine (hf a hQ inp c₁ hCap hIn hJ₁).mono ?_
    rintro r ⟨hAdv₂, hRest⟩
    exact ⟨by omega, hRest⟩
  | error e =>
    cases e with
    | thrown e => trivial
    | fault g => simp [hr, Checked.Safe] at hm

/-- Sequencing where only the first reader is known to advance. -/
theorem Safe.seq {m : Reader ε σ α} {f : α → Reader ε σ β}
    (hm : Safe cap J k m Q) (hf : ∀ a, Q a → Safe cap J 0 (f a) R) :
    Safe cap J k (m >>= f) R :=
  Safe.bind k 0 hm hf (by omega)

/-- Sequencing where only the second reader is known to advance. -/
theorem Safe.andThen {m : Reader ε σ α} {f : α → Reader ε σ β}
    (hm : Safe cap J 0 m Q) (hf : ∀ a, Q a → Safe cap J k (f a) R) :
    Safe cap J k (m >>= f) R :=
  Safe.bind 0 k hm hf (by omega)

/-- A pure computation without a fault. -/
theorem safe_ofChecked {m : Checked ε α} (h : m.Safe Q) :
    Safe cap J 0 (ofChecked m : Reader ε σ α) Q := by
  intro inp c _ hOff hJ
  cases m with
  | ok a => exact ⟨le_rfl, hOff, hJ, h⟩
  | error e =>
    cases e with
    | thrown e => trivial
    | fault f => exact h

/-- The store meets its invariant. -/
theorem safe_getStore : Safe cap J 0 (getStore : Reader ε σ σ) J :=
  fun _ _ _ hOff hJ => ⟨le_rfl, hOff, hJ, hJ⟩

/-- A new store has to meet the invariant. -/
theorem safe_setStore {s : σ} (hs : J s) :
    Safe cap J 0 (setStore s : Reader ε σ Unit) fun _ => True :=
  fun _ _ _ hOff _ => ⟨le_rfl, hOff, hs, trivial⟩

/-- A check against the declared end throws or passes. -/
theorem safe_requireLimit {e : ε} {n : Nat} :
    Safe cap J 0 (requireLimit e n : Reader ε σ Unit) fun _ => True := by
  intro inp c _ hOff hJ
  unfold requireLimit
  split
  · trivial
  · exact ⟨le_rfl, hOff, hJ, trivial⟩

/-- A guarded read: after `require n` the next `n` bytes may be looked at and
skipped without a check. -/
theorem safe_require_bind {e : ε} {n : Nat} {f : Unit → Reader ε σ β}
    (hf : ∀ (inp : Input) (c : Cursor σ), inp.bytes.length ≤ cap →
      c.offset + n ≤ inp.bytes.length → J c.store →
      Checked.Safe (f () inp c) fun r =>
        c.offset + k ≤ r.2.offset ∧ r.2.offset ≤ inp.bytes.length ∧
          J r.2.store ∧ R r.1) :
    Safe cap J k (require e n >>= f) R := by
  intro inp c hCap hOff hJ
  rw [bind_apply]
  unfold require
  by_cases h : n > inp.bytes.length - c.offset
  · simp [h, Checked.Safe]
  · simp only [h, if_false]
    exact hf inp c hCap (by omega) hJ

/-- A guarded read of `n` bytes. -/
theorem safe_take {e : ε} {n : Nat} :
    Safe cap J n (take e n : Reader ε σ Bytes) fun bs => bs.length = n := by
  refine safe_require_bind fun inp c _ hIn hJ => ?_
  rw [bind_apply]
  simp only [bytesAt, slice_of_le hIn]
  rw [bind_apply, advance, if_neg (by omega)]
  refine ⟨le_rfl, hIn, hJ, ?_⟩
  rw [List.length_take, List.length_drop]
  omega

/-- A guarded look at the next byte. -/
theorem safe_peekByte {e : ε} :
    Safe cap J 0 (peekByte e : Reader ε σ UInt8) fun _ => True := by
  refine safe_require_bind fun inp c _ hIn hJ => ?_
  simp only [byteAt, index_of_lt (show c.offset + 0 < inp.bytes.length by omega)]
  exact ⟨le_rfl, by simp only; omega, hJ, trivial⟩

/-- A guarded read of a byte. -/
theorem safe_takeByte {e : ε} :
    Safe cap J 1 (takeByte e : Reader ε σ UInt8) fun _ => True := by
  refine safe_require_bind fun inp c _ hIn hJ => ?_
  rw [bind_apply]
  simp only [byteAt, index_of_lt (show c.offset + 0 < inp.bytes.length by omega)]
  rw [bind_apply, advance, if_neg (by omega)]
  exact ⟨le_rfl, hIn, hJ, trivial⟩

/-- Each branch under its own condition. -/
theorem Safe.ite {p : Prop} [Decidable p] {m₁ m₂ : Reader ε σ α}
    (h₁ : p → Safe cap J k m₁ Q) (h₂ : ¬p → Safe cap J k m₂ Q) :
    Safe cap J k (if p then m₁ else m₂) Q := by
  split
  · rename_i hp
    exact h₁ hp
  · rename_i hp
    exact h₂ hp

/-- A reader run `n` times over. -/
theorem Safe.replicate {m : Reader ε σ α} (h : Safe cap J k m Q) (n : Nat) :
    Safe cap J 0 (replicate m n) fun as => as.length = n ∧ ∀ a ∈ as, Q a := by
  induction n with
  | zero => exact safe_pure ⟨rfl, by simp⟩
  | succ n ih =>
    refine Safe.bind k 0 h (fun a ha => ?_) (by omega)
    refine ih.seq fun as has => ?_
    refine safe_pure ⟨by simp [has.1], ?_⟩
    intro x hx
    rcases List.mem_cons.mp hx with rfl | hx
    · exact ha
    · exact has.2 x hx

/-- A loop whose every round consumes a byte outlives no buffer: `cap + 1`
rounds are enough. -/
theorem Safe.iterate {step : β → Reader ε σ (β ⊕ γ)} {I : β → Prop}
    {P : γ → Prop}
    (hStep : ∀ b, I b → Safe cap J 1 (step b) (Sum.elim I P)) :
    ∀ b, I b → Safe cap J 1 (iterate step (cap + 1) b) P := by
  -- a round at offset `o` needs fuel for the `cap - o` rounds that can follow
  have hFuel : ∀ (fuel : Nat) (b : β), I b → ∀ (inp : Input) (c : Cursor σ),
      inp.bytes.length ≤ cap → c.offset ≤ inp.bytes.length → J c.store →
      inp.bytes.length < c.offset + fuel →
      Checked.Safe (Reader.iterate step fuel b inp c) fun r =>
        c.offset + 1 ≤ r.2.offset ∧ r.2.offset ≤ inp.bytes.length ∧
          J r.2.store ∧ P r.1 := by
    intro fuel
    induction fuel with
    | zero => intro b _ inp c _ hOff _ hLt; omega
    | succ fuel ih =>
      intro b hb inp c hCap hOff hJ hLt
      have hs := hStep b hb inp c hCap hOff hJ
      rw [Reader.iterate, bind_apply]
      cases hr : step b inp c with
      | error e =>
        cases e with
        | thrown e => trivial
        | fault g => simp [hr, Checked.Safe] at hs
      | ok r =>
        obtain ⟨out, c₁⟩ := r
        simp only [hr, Checked.Safe] at hs
        obtain ⟨hAdv, hIn, hJ₁, hPost⟩ := hs
        cases out with
        | inr x => exact ⟨hAdv, hIn, hJ₁, hPost⟩
        | inl b' =>
          refine (ih b' hPost inp c₁ hCap hIn hJ₁ (by omega)).mono ?_
          rintro r ⟨hAdv₂, hRest⟩
          exact ⟨by omega, hRest⟩
  intro b hb inp c hCap hOff hJ
  exact hFuel (cap + 1) b hb inp c hCap hOff hJ (by omega)

/-- A fold whose invariant may speak of the elements it has passed. -/
theorem Safe.foldlM {f : β → α → Reader ε σ β} {I : List α → β → Prop}
    {xs : List α}
    (hf : ∀ done x todo, xs = done ++ x :: todo → ∀ b, I done b →
      Safe cap J 0 (f b x) (I (done ++ [x]))) (b : β) (hb : I [] b) :
    Safe cap J 0 (xs.foldlM f b) (I xs) := by
  have hRest : ∀ (todo done : List α) (b : β), xs = done ++ todo → I done b →
      Safe cap J 0 (todo.foldlM f b) (I xs) := by
    intro todo
    induction todo with
    | nil =>
      intro done b hxs hb
      rw [hxs, List.append_nil]
      exact safe_pure hb
    | cons x todo ih =>
      intro done b hxs hb
      rw [List.foldlM_cons]
      refine (hf done x todo hxs b hb).seq fun b' hb' => ?_
      exact ih (done ++ [x]) b' (by simp [hxs]) hb'
  exact hRest xs [] b rfl hb

end Safe

/-! ## Reading an encoding back -/

/-- Wherever `enc` stands in a buffer of at most `cap` bytes, the reader
started at it returns `a`, stops right after it and leaves the store alone. -/
def Reads (cap : Nat) (m : Reader ε σ α) (enc : Bytes) (a : α) : Prop :=
  ∀ (pre post : Bytes) (store : σ), (pre ++ enc ++ post).length ≤ cap →
    m (Input.whole (pre ++ enc ++ post)) ⟨pre.length, store⟩ =
      .ok (a, ⟨pre.length + enc.length, store⟩)

section Reads

variable {cap : Nat}

/-- A result without a read. -/
theorem reads_pure (a : α) : Reads cap (pure a : Reader ε σ α) [] a := by
  intro pre post store _
  simp [pure_apply]

/-- One reader after another reads one encoding after the other. -/
theorem Reads.bind {m : Reader ε σ α} {f : α → Reader ε σ β} {e₁ e₂ : Bytes}
    {a : α} {b : β} (hm : Reads cap m e₁ a) (hf : Reads cap (f a) e₂ b) :
    Reads cap (m >>= f) (e₁ ++ e₂) b := by
  intro pre post store hCap
  have h₁ := hm pre (e₂ ++ post) store (by simpa using hCap)
  have h₂ := hf (pre ++ e₁) post store (by simpa using hCap)
  have hBuf : pre ++ (e₁ ++ e₂) ++ post = pre ++ e₁ ++ (e₂ ++ post) := by simp
  have hBuf' : pre ++ e₁ ++ e₂ ++ post = pre ++ e₁ ++ (e₂ ++ post) := by simp
  rw [hBuf'] at h₂
  rw [hBuf, bind_ok h₁]
  simpa [Nat.add_assoc] using h₂

/-- The same bytes and the same result, written differently. -/
theorem Reads.congr {m : Reader ε σ α} {e e' : Bytes} {a a' : α}
    (h : Reads cap m e a) (he : e = e') (ha : a = a') : Reads cap m e' a' :=
  he ▸ ha ▸ h

/-- A pure computation that succeeds. -/
theorem reads_ofChecked {m : Checked ε α} {a : α} (h : m = .ok a) :
    Reads cap (ofChecked m : Reader ε σ α) [] a := by
  intro pre post store _
  simp [ofChecked, h]

/-- A pure computation before a reader. -/
theorem reads_ofChecked_bind {m : Checked ε α} {a : α} {f : α → Reader ε σ β} {enc : Bytes}
    {b : β} (hm : m = .ok a) (hf : Reads cap (f a) enc b) :
    Reads cap ((ofChecked m : Reader ε σ α) >>= f) enc b :=
  (reads_ofChecked hm).bind hf

/-- The guard passes when the encoding is long enough. -/
theorem reads_require {e : ε} {n : Nat} {f : Unit → Reader ε σ α} {enc : Bytes}
    {a : α} (hn : n ≤ enc.length) (hf : Reads cap (f ()) enc a) :
    Reads cap (require e n >>= f) enc a := by
  intro pre post store hCap
  have hReq : (require e n : Reader ε σ Unit)
      (Input.whole (pre ++ enc ++ post)) ⟨pre.length, store⟩ =
      .ok ((), ⟨pre.length, store⟩) := by
    simp only [require, Input.whole, List.length_append]
    rw [if_neg (by omega)]
  rw [bind_ok hReq]
  exact hf pre post store hCap

/-- A byte may be looked at in place, as long as what follows reads it. -/
theorem reads_byteAt {i : Nat} {f : UInt8 → Reader ε σ α} {enc : Bytes} {a : α}
    (hi : i < enc.length) (hf : Reads cap (f enc[i]) enc a) :
    Reads cap (byteAt i >>= f) enc a := by
  intro pre post store hCap
  have hByte : (byteAt i : Reader ε σ UInt8)
      (Input.whole (pre ++ enc ++ post)) ⟨pre.length, store⟩ =
      .ok (enc[i], ⟨pre.length, store⟩) := by
    have hLt : pre.length + i < (pre ++ enc ++ post).length := by
      simp only [List.length_append]
      omega
    simp only [byteAt, Input.whole, index_of_lt hLt]
    simp [hi]
  rw [bind_ok hByte]
  exact hf pre post store hCap

/-- The bytes ahead are the encoding. -/
theorem reads_bytesAt {f : Bytes → Reader ε σ α} {enc : Bytes} (rest : Bytes) {a : α}
    {n : Nat} (hn : enc.length = n)
    (hf : Reads cap (f enc) (enc ++ rest) a) :
    Reads cap (bytesAt n >>= f) (enc ++ rest) a := by
  intro pre post store hCap
  have hBytes : (bytesAt n : Reader ε σ Bytes)
      (Input.whole (pre ++ (enc ++ rest) ++ post)) ⟨pre.length, store⟩ =
      .ok (enc, ⟨pre.length, store⟩) := by
    have hLe : pre.length + n ≤ (pre ++ (enc ++ rest) ++ post).length := by
      simp only [List.length_append]
      omega
    simp only [bytesAt, Input.whole, slice_of_le hLe]
    simp [← hn]
  rw [bind_ok hBytes]
  exact hf pre post store hCap

/-- The cursor moves behind the encoding. -/
theorem reads_advance {enc : Bytes} {n : Nat} (hn : enc.length = n) :
    Reads cap (advance n : Reader ε σ Unit) enc () := by
  intro pre post store _
  simp only [advance, Input.whole, List.length_append]
  rw [if_neg (by omega)]
  simp [hn]

/-- As many bytes as the encoding has. -/
theorem reads_take {e : ε} {enc : Bytes} {n : Nat} (hn : enc.length = n) :
    Reads cap (take e n : Reader ε σ Bytes) enc enc := by
  refine reads_require hn.ge ?_
  refine Reads.congr (reads_bytesAt [] hn ?_) (List.append_nil _) rfl
  refine Reads.bind (reads_advance hn) ?_
  exact reads_pure enc

/-- One byte. -/
theorem reads_takeByte {e : ε} (b : UInt8) :
    Reads cap (takeByte e : Reader ε σ UInt8) [b] b := by
  refine reads_require (by simp) ?_
  refine reads_byteAt (by simp) ?_
  have hAdvance : Reads cap (advance 1 : Reader ε σ Unit) [b] () := reads_advance rfl
  exact hAdvance.bind (reads_pure b)

/-- A look at the first byte of what follows. -/
theorem reads_peekByte {e : ε} {f : UInt8 → Reader ε σ α} {b : UInt8}
    {enc : Bytes} {a : α} (hf : Reads cap (f b) (b :: enc) a) :
    Reads cap (peekByte e >>= f) (b :: enc) a := by
  intro pre post store hCap
  have hPeek : (peekByte e : Reader ε σ UInt8)
      (Input.whole (pre ++ (b :: enc) ++ post)) ⟨pre.length, store⟩ =
      .ok (b, ⟨pre.length, store⟩) := by
    have hLt : pre.length + 0 < (pre ++ (b :: enc) ++ post).length := by
      simp only [List.length_append, List.length_cons]
      omega
    rw [peekByte, bind_apply, require, if_neg]
    · simp only [byteAt, Input.whole, index_of_lt hLt]
      simp
    · simp only [Input.whole, List.length_append, List.length_cons]
      omega
  rw [bind_ok hPeek]
  exact hf pre post store hCap

/-- The declared end is not in the way of a read of a whole buffer. -/
theorem reads_requireLimit {e : ε} {n : Nat} {f : Unit → Reader ε σ α}
    {enc : Bytes} {a : α} (hn : n ≤ enc.length) (hf : Reads cap (f ()) enc a) :
    Reads cap (requireLimit e n >>= f) enc a := by
  intro pre post store hCap
  have hReq : (requireLimit e n : Reader ε σ Unit)
      (Input.whole (pre ++ enc ++ post)) ⟨pre.length, store⟩ =
      .ok ((), ⟨pre.length, store⟩) := by
    simp only [requireLimit, Input.whole, List.length_append]
    rw [if_neg (by omega)]
  rw [bind_ok hReq]
  exact hf pre post store hCap

/-- Reading a concatenation of encodings, one by one. -/
theorem reads_replicate {m : Reader ε σ β} {xs : List α} {enc : α → Bytes}
    {out : α → β} (h : ∀ x ∈ xs, Reads cap m (enc x) (out x)) :
    Reads cap (replicate m xs.length) (xs.flatMap enc) (xs.map out) := by
  induction xs with
  | nil => exact reads_pure _
  | cons x xs ih =>
    have hHead := h x (by simp)
    have hTail := ih fun y hy => h y (by simp [hy])
    rw [List.length_cons, replicate, List.flatMap_cons, List.map_cons]
    refine hHead.bind ?_
    exact (Reads.bind (f := fun as => pure (out x :: as)) hTail
      (reads_pure _)).congr (List.append_nil _) rfl

/-- A loop reads a concatenation of items, each taking one round, and then
its end marker. Every item takes a byte, so `cap + 1` rounds suffice. -/
theorem reads_iterate (step : β → Reader ε σ (β ⊕ γ)) {xs : List α}
    {enc : α → Bytes} (next : β → α → β) {stop : Bytes} (result : β → γ)
    (hItem : ∀ x ∈ xs, ∀ b, Reads cap (step b) (enc x) (.inl (next b x)))
    (hPos : ∀ x ∈ xs, 0 < (enc x).length)
    (hStop : ∀ b, Reads cap (step b) stop (.inr (result b))) (b : β) :
    Reads cap (iterate step (cap + 1) b) (xs.flatMap enc ++ stop)
      (result (xs.foldl next b)) := by
  -- fuel: one round per item and one for the marker
  have hFuel : ∀ (fuel : Nat) (b : β), xs.length < fuel →
      Reads cap (Reader.iterate step fuel b) (xs.flatMap enc ++ stop)
        (result (xs.foldl next b)) := by
    induction xs with
    | nil =>
      intro fuel b hLt
      obtain ⟨fuel, rfl⟩ : ∃ n, fuel = n + 1 := ⟨fuel - 1, by omega⟩
      rw [Reader.iterate]
      exact ((hStop b).bind (reads_pure (result b))).congr (by simp) rfl
    | cons x xs ih =>
      intro fuel b hLt
      obtain ⟨fuel, rfl⟩ : ∃ n, fuel = n + 1 := ⟨fuel - 1, by omega⟩
      have hRest := ih (fun y hy => hItem y (by simp [hy]))
        (fun y hy => hPos y (by simp [hy])) fuel (next b x) (by simpa using hLt)
      rw [Reader.iterate, List.flatMap_cons, List.append_assoc]
      exact (hItem x (by simp) b).bind hRest
  have hCount : xs.length ≤ (xs.flatMap enc).length := by
    clear hFuel hItem hStop
    induction xs with
    | nil => simp
    | cons x xs ih =>
      have hx := hPos x (by simp)
      have := ih fun y hy => hPos y (by simp [hy])
      simp only [List.length_cons, List.flatMap_cons, List.length_append]
      omega
  intro pre post store hCap
  refine hFuel (cap + 1) b ?_ pre post store hCap
  simp only [List.length_append] at hCap
  omega

/-- Reading a concatenation of encodings by a fold, as long as the state meets
`I` on the way. -/
theorem reads_foldlM {f : β → α → Reader ε σ β} {xs : List α} (enc : α → Bytes)
    (next : β → α → β) {I : β → Prop}
    (h : ∀ x ∈ xs, ∀ b, I b → Reads cap (f b x) (enc x) (next b x) ∧ I (next b x)) :
    ∀ b, I b → Reads cap (xs.foldlM f b) (xs.flatMap enc) (xs.foldl next b) ∧
      I (xs.foldl next b) := by
  induction xs with
  | nil => intro b hb; exact ⟨reads_pure b, hb⟩
  | cons x xs ih =>
    intro b hb
    obtain ⟨hHead, hNext⟩ := h x (by simp) b hb
    obtain ⟨hTail, hLast⟩ := ih (fun y hy => h y (by simp [hy])) (next b x) hNext
    rw [List.foldlM_cons, List.flatMap_cons]
    exact ⟨hHead.bind hTail, hLast⟩

end Reads

/-! ## Self-delimiting readers -/

/-- A successful run consumes at least `k` bytes and looks at no byte it does
not consume: a buffer that agrees on them gives the same run, and a prefix that
cuts them short ends in an error that `isEnd` accepts. -/
def Delimited (isEnd : ε → Prop) (k : Nat) (m : Reader ε σ α) : Prop :=
  ∀ (s : Bytes) (c : Cursor σ) (a : α) (c' : Cursor σ), c.offset ≤ s.length →
    m (Input.whole s) c = .ok (a, c') →
    c.offset + k ≤ c'.offset ∧ c'.offset ≤ s.length ∧
    (∀ t, s.take c'.offset <+: t → m (Input.whole t) c = .ok (a, c')) ∧
    ∀ t, t <+: s → c.offset ≤ t.length → t.length < c'.offset →
      ∃ e, isEnd e ∧ m (Input.whole t) c = .error (.thrown e)

section Delimited

variable {isEnd : ε → Prop} {k k₁ : Nat}

/-- What keeps the first `n` bytes has as many. -/
theorem length_le_of_keeps {s t : Bytes} {n : Nat} (hn : n ≤ s.length)
    (h : s.take n <+: t) : n ≤ t.length := by
  have := h.length_le
  rw [List.length_take] at this
  omega

/-- Readers that neither look at the buffer nor move the cursor. -/
theorem delimited_of_still {m : Reader ε σ α}
    (h : ∀ s t c, m (Input.whole s) c = m (Input.whole t) c)
    (hOff : ∀ s c a c', m (Input.whole s) c = .ok (a, c') → c'.offset = c.offset) :
    Delimited isEnd 0 m := by
  intro s c a c' hc hm
  have hEq := hOff s c a c' hm
  refine ⟨by omega, by omega, fun t _ => (h t s c).trans hm, ?_⟩
  intro t _ hLe hLt
  omega

/-- A result without a read. -/
theorem delimited_pure (a : α) : Delimited isEnd 0 (pure a : Reader ε σ α) :=
  delimited_of_still (fun _ _ _ => rfl) fun s c b c' h => by
    rw [pure_apply] at h
    cases h
    rfl

/-- A reader that throws has no successful run. -/
theorem delimited_fail (e : ε) : Delimited isEnd k (fail e : Reader ε σ α) := by
  intro s c a c' _ h
  cases h

/-- Nor has one that faults. -/
theorem delimited_stuck (f : Fault) :
    Delimited isEnd k (stuck f : Reader ε σ α) := by
  intro s c a c' _ h
  cases h

/-- A pure computation does not look at the buffer. -/
theorem delimited_ofChecked (m : Checked ε α) :
    Delimited isEnd 0 (ofChecked m : Reader ε σ α) :=
  delimited_of_still (fun _ _ _ => rfl) fun s c b c' h => by
    cases m with
    | ok a => cases h; rfl
    | error e => cases h

/-- Nor does a look at the store. -/
theorem delimited_getStore : Delimited isEnd 0 (getStore : Reader ε σ σ) :=
  delimited_of_still (fun _ _ _ => rfl) fun s c b c' h => by
    cases h
    rfl

/-- Nor a new store. -/
theorem delimited_setStore (x : σ) :
    Delimited isEnd 0 (setStore x : Reader ε σ Unit) :=
  delimited_of_still (fun _ _ _ => rfl) fun s c b c' h => by
    cases h
    rfl

/-- A reader that advances further. -/
theorem Delimited.mono {m : Reader ε σ α} (h : Delimited isEnd k₁ m)
    (hk : k ≤ k₁) : Delimited isEnd k m := by
  intro s c a c' hc hm
  obtain ⟨hAdv, hRest⟩ := h s c a c' hc hm
  exact ⟨by omega, hRest⟩

/-- One reader after another. A prefix that ends in the first part's bytes stops there, any other
in the second's. -/
theorem Delimited.bind (k₁ k₂ : Nat) {m : Reader ε σ α} {f : α → Reader ε σ β}
    (hm : Delimited isEnd k₁ m) (hf : ∀ a, Delimited isEnd k₂ (f a))
    (hk : k ≤ k₁ + k₂) : Delimited isEnd k (m >>= f) := by
  intro s c b c' hc hRun
  obtain ⟨a, c₁, hRun₁, hRun₂⟩ := bind_eq_ok hRun
  obtain ⟨hAdv₁, hIn₁, hExt₁, hCut₁⟩ := hm s c a c₁ hc hRun₁
  obtain ⟨hAdv₂, hIn₂, hExt₂, hCut₂⟩ := hf a s c₁ b c' hIn₁ hRun₂
  have hShort : ∀ t, s.take c'.offset <+: t → s.take c₁.offset <+: t := by
    intro t ht
    refine List.IsPrefix.trans ?_ ht
    exact List.take_prefix_take_left (by omega)
  refine ⟨by omega, hIn₂, fun t ht => ?_, fun t ht hLe hLt => ?_⟩
  · rw [bind_ok (hExt₁ t (hShort t ht))]
    exact hExt₂ t ht
  · by_cases hCut : t.length < c₁.offset
    · obtain ⟨e, he, hErr⟩ := hCut₁ t ht hLe hCut
      exact ⟨e, he, bind_error hErr⟩
    · -- the first reader still has all its bytes; the second one is cut
      have hTake : s.take c₁.offset <+: t := by
        rw [List.prefix_iff_eq_take.mp ht]
        exact List.take_prefix_take_left (by omega)
      rw [bind_ok (hExt₁ t hTake)]
      exact hCut₂ t ht (by omega) hLt

/-- A read of bytes that are there. -/
theorem take_apply {e : ε} {n : Nat} {s : Bytes} {c : Cursor σ}
    (h : c.offset + n ≤ s.length) :
    (take e n : Reader ε σ Bytes) (Input.whole s) c =
      .ok ((s.drop c.offset).take n, ⟨c.offset + n, c.store⟩) := by
  rw [take, bind_apply, require, if_neg (by simp only [Input.whole]; omega)]
  simp only
  have hSlice : (slice (Input.whole s).bytes c.offset n : Checked ε Bytes) =
      .ok ((s.drop c.offset).take n) := slice_of_le h
  rw [bind_apply, bytesAt, hSlice]
  simp only
  rw [bind_apply, advance, if_neg (by simp only [Input.whole]; omega)]
  rfl

/-- A read past the end. -/
theorem take_end {e : ε} {n : Nat} {s : Bytes} {c : Cursor σ}
    (h : s.length - c.offset < n) :
    (take e n : Reader ε σ Bytes) (Input.whole s) c = .error (.thrown e) := by
  rw [take, bind_apply, require, if_pos (by simp only [Input.whole]; omega)]

/-- The next `n` bytes survive in every buffer that keeps them. -/
theorem drop_take_eq_of_keeps {s t : Bytes} {o n : Nat} (hn : o + n ≤ s.length)
    (h : s.take (o + n) <+: t) : (t.drop o).take n = (s.drop o).take n := by
  have hEq : s.take (o + n) = t.take (o + n) := by
    have := List.prefix_iff_eq_take.mp h
    rwa [List.length_take, Nat.min_eq_left hn] at this
  have hDrop : ∀ l : Bytes, (l.drop o).take n = (l.take (o + n)).drop o := by
    intro l
    rw [List.drop_take, Nat.add_sub_cancel_left]
  rw [hDrop, hDrop, hEq]

/-- A read of `n` bytes looks at these and no others. -/
theorem delimited_take {e : ε} (he : isEnd e) (n : Nat) :
    Delimited isEnd n (take e n : Reader ε σ Bytes) := by
  intro s c a c' hc hRun
  by_cases hEnd : s.length - c.offset < n
  · rw [take_end hEnd] at hRun
    cases hRun
  have hIn : c.offset + n ≤ s.length := by omega
  rw [take_apply hIn] at hRun
  cases hRun
  refine ⟨le_rfl, hIn, fun t ht => ?_, fun t _ hLe hCut => ?_⟩
  · rw [take_apply (length_le_of_keeps hIn ht), drop_take_eq_of_keeps hIn ht]
  · simp only at hCut
    exact ⟨e, he, take_end (by omega)⟩

/-- A look at a byte that is there. -/
theorem peekByte_apply {e : ε} {s : Bytes} {c : Cursor σ}
    (h : c.offset < s.length) :
    (peekByte e : Reader ε σ UInt8) (Input.whole s) c = .ok (s[c.offset], c) := by
  rw [peekByte, bind_apply, require, if_neg (by simp only [Input.whole]; omega)]
  simp only [byteAt, Input.whole]
  rw [index_of_lt (by omega)]
  simp

/-- A look past the end. -/
theorem peekByte_end {e : ε} {s : Bytes} {c : Cursor σ}
    (h : s.length ≤ c.offset) :
    (peekByte e : Reader ε σ UInt8) (Input.whole s) c = .error (.thrown e) := by
  rw [peekByte, bind_apply, require, if_pos (by simp only [Input.whole]; omega)]

/-- Looking ahead is harmless when what follows consumes the byte. -/
theorem Delimited.peek {e : ε} (he : isEnd e) {f : UInt8 → Reader ε σ α}
    (hk : 1 ≤ k) (hf : ∀ b, Delimited isEnd k (f b)) :
    Delimited isEnd k (peekByte e >>= f) := by
  intro s c a c' hc hRun
  by_cases hEnd : s.length ≤ c.offset
  · rw [bind_error (peekByte_end hEnd)] at hRun
    cases hRun
  have hLt : c.offset < s.length := by omega
  rw [bind_ok (peekByte_apply hLt)] at hRun
  obtain ⟨hAdv, hIn, hExt, hCut⟩ := hf _ s c a c' hc hRun
  -- any buffer that keeps the consumed bytes shows the same byte
  have hSame : ∀ (t : Bytes) (ht : c.offset < t.length),
      (s.take c'.offset <+: t ∨ t <+: s) → t[c.offset] = s[c.offset] := by
    intro t ht hOr
    rcases hOr with hPre | hPre
    · have := hPre.getElem (i := c.offset) (by rw [List.length_take]; omega)
      rw [← this, List.getElem_take]
    · exact hPre.getElem ht
  refine ⟨hAdv, hIn, fun t ht => ?_, fun t ht hLe hShort => ?_⟩
  · have hLen := length_le_of_keeps hIn ht
    have hIdx : c.offset < t.length := by omega
    rw [bind_ok (peekByte_apply hIdx), hSame t hIdx (.inl ht)]
    exact hExt t ht
  · by_cases hIdx : c.offset < t.length
    · rw [bind_ok (peekByte_apply hIdx), hSame t hIdx (.inr ht)]
      exact hCut t ht hLe hShort
    · exact ⟨e, he, bind_error (peekByte_end (by omega))⟩

/-- A byte that is there is read. -/
theorem takeByte_apply {e : ε} {s : Bytes} {c : Cursor σ}
    (h : c.offset < s.length) :
    (takeByte e : Reader ε σ UInt8) (Input.whole s) c =
      .ok (s[c.offset], ⟨c.offset + 1, c.store⟩) := by
  rw [takeByte, bind_apply, require, if_neg (by simp only [Input.whole]; omega)]
  simp only
  rw [bind_apply]
  simp only [byteAt, Input.whole]
  rw [index_of_lt (by omega)]
  simp only
  rw [bind_apply, advance, if_neg (by simp only; omega)]
  simp [pure_apply]

/-- There is none at the end. -/
theorem takeByte_end {e : ε} {s : Bytes} {c : Cursor σ}
    (h : s.length ≤ c.offset) :
    (takeByte e : Reader ε σ UInt8) (Input.whole s) c = .error (.thrown e) := by
  rw [takeByte, bind_apply, require, if_pos (by simp only [Input.whole]; omega)]

/-- A read of a byte looks at no other. -/
theorem delimited_takeByte {e : ε} (he : isEnd e) :
    Delimited isEnd 1 (takeByte e : Reader ε σ UInt8) := by
  intro s c a c' hc hRun
  by_cases hEnd : s.length ≤ c.offset
  · rw [takeByte_end hEnd] at hRun
    cases hRun
  have hLt : c.offset < s.length := by omega
  rw [takeByte_apply hLt] at hRun
  cases hRun
  refine ⟨le_rfl, hLt, fun t ht => ?_, fun t _ hLe hShort => ?_⟩
  · have hLen := length_le_of_keeps (n := c.offset + 1) hLt ht
    rw [takeByte_apply (show c.offset < t.length by omega)]
    have hByte := ht.getElem (i := c.offset) (by simp only [List.length_take]; omega)
    rw [← hByte, List.getElem_take]
  · simp only at hShort
    exact ⟨e, he, takeByte_end (by omega)⟩

/-- A check against the declared end is harmless when what follows consumes
the bytes it asks for. -/
theorem Delimited.requireLimit {e : ε} (he : isEnd e) {n : Nat} (hn : n ≤ k)
    {f : Unit → Reader ε σ α} (hf : Delimited isEnd k (f ())) :
    Delimited isEnd k (Reader.requireLimit e n >>= f) := by
  have hPass : ∀ (t : Bytes) (c : Cursor σ), c.offset + n ≤ t.length →
      (Reader.requireLimit e n >>= f) (Input.whole t) c = f () (Input.whole t) c := by
    intro t c h
    rw [bind_apply, Reader.requireLimit, if_neg (by simp only [Input.whole]; omega)]
  have hStop : ∀ (t : Bytes) (c : Cursor σ), t.length < c.offset + n →
      (Reader.requireLimit e n >>= f) (Input.whole t) c = .error (.thrown e) := by
    intro t c h
    rw [bind_apply, Reader.requireLimit, if_pos (by simp only [Input.whole]; omega)]
  intro s c a c' hc hRun
  by_cases hShort : s.length < c.offset + n
  · rw [hStop s c hShort] at hRun
    cases hRun
  rw [hPass s c (by omega)] at hRun
  obtain ⟨hAdv, hIn, hExt, hCut⟩ := hf s c a c' hc hRun
  refine ⟨hAdv, hIn, fun t ht => ?_, fun t ht hLe hLt => ?_⟩
  · have hLen := length_le_of_keeps hIn ht
    rw [hPass t c (by omega)]
    exact hExt t ht
  · by_cases hEnd : t.length < c.offset + n
    · exact ⟨e, he, hStop t c hEnd⟩
    · rw [hPass t c (by omega)]
      exact hCut t ht hLe hLt

end Delimited

end Ithax.Lib.Reader
