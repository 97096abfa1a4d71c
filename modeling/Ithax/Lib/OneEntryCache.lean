import Mathlib.Data.List.Chain

/-!
# A cache of one entry

A cache keeps the last thing that it found, under a key of what was wanted, and finds it
again while the key stays the same. For any other key the thing is made anew, which may
fail and then leaves the cache empty.

The key may say less than what is wanted. Everything that a cache finds was made from what
was wanted exactly when no two lookups in a row differ in what they want and agree in the
key, unless the first of them found nothing.

## Results

* `Answered.key_of_found`     — everything that was found goes with the key that was looked up.
* `Answered.all_madeFrom_iff` — when everything that was found is what was wanted.
-/

namespace Ithax.Lib.OneEntryCache

variable {σ κ β : Type}

/-- A lookup: what it wanted, and what it found. -/
structure Lookup (σ β : Type) where
  wanted : σ
  found : Option β
  deriving DecidableEq, Repr

/-- What a lookup finds. -/
def find [DecidableEq κ] (key : κ) (made : Option β) : Option (κ × β) → Option β
  | some (k, b) => if k = key then some b else made
  | none => made

@[simp] theorem find_self [DecidableEq κ] (key : κ) (made : Option β) (b : β) :
    find key made (some (key, b)) = some b :=
  if_pos rfl

theorem find_of_ne [DecidableEq κ] {key k : κ} (made : Option β) (b : β) (h : k ≠ key) :
    find key made (some (k, b)) = made :=
  if_neg h

/-- What a lookup leaves in the cache. -/
def entry (keyOf : σ → κ) (lookup : Lookup σ β) : Option (κ × β) :=
  lookup.found.map fun b => (keyOf lookup.wanted, b)

/-- The cache after some lookups. -/
def after (keyOf : σ → κ) (lookups : List (Lookup σ β)) : Option (κ × β) :=
  lookups.getLast?.bind (entry keyOf)

@[simp] theorem after_nil (keyOf : σ → κ) : after keyOf ([] : List (Lookup σ β)) = none := rfl

@[simp] theorem after_append_singleton (keyOf : σ → κ) (lookups : List (Lookup σ β))
    (lookup : Lookup σ β) : after keyOf (lookups ++ [lookup]) = entry keyOf lookup := by
  unfold after
  rw [List.getLast?_concat]
  rfl

/-- What is in the cache was found by one of the lookups. -/
theorem mem_of_after {keyOf : σ → κ} {lookups : List (Lookup σ β)} {key : κ} {b : β}
    (h : after keyOf lookups = some (key, b)) :
    ∃ lookup ∈ lookups, keyOf lookup.wanted = key ∧ b ∈ lookup.found := by
  obtain ⟨last, hLast, hEntry⟩ := Option.bind_eq_some_iff.mp h
  obtain ⟨b', hFound, hEq⟩ := Option.map_eq_some_iff.mp hEntry
  obtain ⟨hKey, rfl⟩ := Prod.mk.inj hEq
  exact ⟨last, List.mem_of_getLast? hLast, hKey, hFound⟩

variable [DecidableEq κ]

/-- What is found was made for the lookup, or is in the cache under its key. -/
theorem mem_find {key : κ} {made : Option β} {cached : Option (κ × β)} {b : β}
    (h : b ∈ find key made cached) : b ∈ made ∨ cached = some (key, b) := by
  match cached, h with
  | none, hMade => exact .inl hMade
  | some (k, c), h =>
    change b ∈ if k = key then some c else made at h
    by_cases hKey : k = key
    · rw [if_pos hKey] at h
      rw [hKey, Option.some.inj h]
      exact .inr rfl
    · rw [if_neg hKey] at h
      exact .inl h

/-- The lookups got their answers from a cache that was empty at first. What is made for a
lookup is made from what it wants. -/
inductive Answered (keyOf : σ → κ) (madeFrom : β → σ) : List (Lookup σ β) → Prop where
  | nil : Answered keyOf madeFrom []
  | lookup {lookups : List (Lookup σ β)} {wanted : σ} {made : Option β}
      (before : Answered keyOf madeFrom lookups) (fresh : ∀ b ∈ made, madeFrom b = wanted) :
      Answered keyOf madeFrom
        (lookups ++ [⟨wanted, find (keyOf wanted) made (after keyOf lookups)⟩])

/-- What is found was made for the key of what is wanted. -/
theorem Answered.key_of_found {keyOf : σ → κ} {madeFrom : β → σ} {lookups : List (Lookup σ β)}
    (h : Answered keyOf madeFrom lookups) :
    ∀ lookup ∈ lookups, ∀ b ∈ lookup.found, keyOf (madeFrom b) = keyOf lookup.wanted := by
  induction h with
  | nil =>
    intro lookup hMem
    exact absurd hMem List.not_mem_nil
  | @lookup lookups wanted made before hFresh ih =>
    intro lookup hMem b hFound
    rcases List.mem_append.mp hMem with hOld | hNew
    · exact ih lookup hOld b hFound
    · obtain rfl := List.mem_singleton.mp hNew
      rcases mem_find hFound with hMade | hCached
      · rw [hFresh b hMade]
      · obtain ⟨last, hLast, hKey, hSame⟩ := mem_of_after hCached
        rw [ih last hLast b hSame, hKey]

/-- What is found was made from what is wanted. -/
def Lookup.Faithful (madeFrom : β → σ) (lookup : Lookup σ β) : Prop :=
  ∀ b ∈ lookup.found, madeFrom b = lookup.wanted

/-- The key tells the second lookup from the first, if they want different things. -/
def Told (keyOf : σ → κ) (first second : Lookup σ β) : Prop :=
  first.found.isSome → keyOf first.wanted = keyOf second.wanted → first.wanted = second.wanted

/-- One more lookup is faithful exactly when the key tells it from the last one, if that one
was faithful. -/
theorem faithful_find_iff {keyOf : σ → κ} {madeFrom : β → σ} {lookups : List (Lookup σ β)}
    {wanted : σ} {made : Option β} (hFresh : ∀ b ∈ made, madeFrom b = wanted)
    (hFaithful : ∀ lookup ∈ lookups, lookup.Faithful madeFrom) :
    Lookup.Faithful madeFrom ⟨wanted, find (keyOf wanted) made (after keyOf lookups)⟩ ↔
      ∀ last ∈ lookups.getLast?,
        Told keyOf last ⟨wanted, find (keyOf wanted) made (after keyOf lookups)⟩ := by
  unfold after
  cases hLast : lookups.getLast? with
  | none =>
    constructor
    · intro _ last hMem
      exact nomatch hMem
    · intro _ b hFound
      exact hFresh b hFound
  | some last =>
    have hOfLast := hFaithful last (List.mem_of_getLast? hLast)
    simp only [Option.mem_def, Option.some.injEq, forall_eq', Option.bind_some]
    unfold entry
    cases hFound : last.found with
    | none =>
      constructor
      · intro _ hSome
        rw [hFound] at hSome
        exact nomatch hSome
      · intro _ b hB
        exact hFresh b hB
    | some b =>
      have hMade := hOfLast b hFound
      unfold find Lookup.Faithful Told
      simp only [Option.map_some, hFound, Option.isSome_some, forall_true_left]
      by_cases hKey : keyOf last.wanted = keyOf wanted
      · rw [if_pos hKey]
        constructor
        · intro hNew _
          rw [← hMade]
          exact hNew b rfl
        · intro hTold b' hB
          rw [← Option.some.inj hB, hMade]
          exact hTold hKey
      · rw [if_neg hKey]
        exact ⟨fun _ hEq => absurd hEq hKey, fun _ b' hB => hFresh b' hB⟩

theorem Answered.all_madeFrom_iff {keyOf : σ → κ} {madeFrom : β → σ}
    {lookups : List (Lookup σ β)} (h : Answered keyOf madeFrom lookups) :
    (∀ lookup ∈ lookups, lookup.Faithful madeFrom) ↔ lookups.IsChain (Told keyOf) := by
  induction h with
  | nil => exact ⟨fun _ => List.isChain_nil, fun _ lookup hMem => absurd hMem List.not_mem_nil⟩
  | @lookup lookups wanted made before hFresh ih =>
    rw [List.isChain_append, ← ih, List.forall_mem_append]
    simp only [List.isChain_singleton, true_and, List.mem_singleton, forall_eq, List.head?_cons,
      Option.mem_def, Option.some.injEq, forall_eq']
    exact and_congr_right fun hFaithful => faithful_find_iff hFresh hFaithful

end Ithax.Lib.OneEntryCache
