import Ithax.Lib.KeyedRun
import Mathlib.Algebra.Order.BigOperators.Group.List
import Mathlib.Algebra.Order.Ring.Nat
import Mathlib.Algebra.Order.Group.Multiset

/-!
# Interleaved calls

Calls in progress are kept in a list; a step lets one of them go on, and a call that
has ended stays in its last state. A quantity that is summed over all calls changes
by what the call that went on contributes.
-/

namespace Ithax.Lib

section Run

variable {β ε : Type} {step : β → ε → Option β}

/-- What every step keeps, a run keeps. -/
theorem runEvents_invariant {I : β → Prop} (hStep : ∀ {b e next}, I b → step b e = some next → I next) :
    ∀ {events : List ε} {b final : β}, I b → runEvents step b events = some final → I final
  | [], _, _, hI, hRun => by
    rw [runEvents_nil, Option.some.injEq] at hRun
    exact hRun ▸ hI
  | _ :: _, _, _, hI, hRun => by
    obtain ⟨mid, hOne, hRest⟩ := runEvents_cons_eq_some.mp hRun
    exact runEvents_invariant hStep (hStep hI hOne) hRest

/-- A transitive relation between the states before and after every step relates the
ends of a run. -/
theorem runEvents_relation {I : β → Prop} {R : β → β → Prop} (hRefl : ∀ b, R b b)
    (hTrans : ∀ {a b c}, R a b → R b c → R a c)
    (hStep : ∀ {b e next}, I b → step b e = some next → I next ∧ R b next) :
    ∀ {events : List ε} {b final : β}, I b → runEvents step b events = some final → R b final
  | [], _, _, _, hRun => by
    rw [runEvents_nil, Option.some.injEq] at hRun
    exact hRun ▸ hRefl _
  | _ :: _, _, _, hI, hRun => by
    obtain ⟨mid, hOne, hRest⟩ := runEvents_cons_eq_some.mp hRun
    obtain ⟨hNext, hRel⟩ := hStep hI hOne
    exact hTrans hRel (runEvents_relation hRefl hTrans hStep hNext hRest)

/-- A start that can fail has given this state. -/
theorem eq_ok_of_toOption {α : Type} : ∀ {result : Except ε α} {a : α},
    result.toOption = some a → result = .ok a
  | .error _, _, h => nomatch h
  | .ok _, _, h => congrArg Except.ok (Option.some.inj h)

end Run

section Total

variable {α M : Type} [AddCommMonoid M]

/-- A quantity summed over all calls. -/
def total (f : α → M) (calls : List α) : M := (calls.map f).sum

/-- Over no calls. -/
@[simp] theorem total_nil (f : α → M) : total f [] = 0 := rfl

/-- One call more. -/
@[simp] theorem total_append_one (f : α → M) (calls : List α) (call : α) :
    total f (calls ++ [call]) = total f calls + f call := by
  simp [total]

/-- One call has gone on. -/
theorem total_set (f : α → M) {call : α} (next : α) : ∀ {calls : List α} {i : Nat},
    calls[i]? = some call → total f (calls.set i next) + f call = total f calls + f next
  | [], _, h => nomatch h
  | first :: calls, 0, h => by
    obtain rfl : first = call := Option.some.inj h
    simp only [total, List.set_cons_zero, List.map_cons, List.sum_cons]
    rw [add_right_comm, add_comm (f next), add_right_comm, add_comm (f first)]
  | first :: calls, i + 1, h => by
    have ih := @total_set f call next calls i h
    simp only [total, List.set_cons_succ, List.map_cons, List.sum_cons] at ih ⊢
    rw [add_assoc, ih, add_assoc]

/-- One call is gone. -/
theorem total_eraseIdx (f : α → M) {call : α} : ∀ {calls : List α} {i : Nat},
    calls[i]? = some call → total f (calls.eraseIdx i) + f call = total f calls
  | [], _, h => nomatch h
  | first :: calls, 0, h => by
    obtain rfl : first = call := Option.some.inj h
    simp only [total, List.eraseIdx_cons_zero, List.map_cons, List.sum_cons]
    rw [add_comm]
  | first :: calls, i + 1, h => by
    have ih := @total_eraseIdx f call calls i h
    simp only [total, List.eraseIdx_cons_succ, List.map_cons, List.sum_cons] at ih ⊢
    rw [add_assoc, ih]

/-- A quantity summed over numbered places. -/
def totalIdx (f : Nat → α → M) (places : List α) : M := total id (places.mapIdx f)

/-- One call has gone on, where its index counts. -/
theorem totalIdx_set (f : Nat → α → M) {place : α} (next : α) {places : List α} {i : Nat}
    (h : places[i]? = some place) :
    totalIdx f (places.set i next) + f i place = totalIdx f places + f i next := by
  have hPlace : (places.mapIdx f)[i]? = some (f i place) := by
    rw [List.getElem?_mapIdx, h]
    rfl
  rw [totalIdx, List.mapIdx_set]
  exact total_set id (f i next) hPlace

/-- A call contributes no more than there is. -/
theorem le_total {f : α → Nat} {calls : List α} {call : α} (hMem : call ∈ calls) :
    f call ≤ total f calls :=
  List.single_le_sum (fun _ _ => Nat.zero_le _) _ (List.mem_map_of_mem hMem)

/-- Where there is nothing no call contributes. -/
theorem total_eq_zero {f : α → Nat} {calls : List α} (h : total f calls = 0) {call : α}
    (hMem : call ∈ calls) : f call = 0 :=
  Nat.eq_zero_of_le_zero (h ▸ le_total hMem)

/-- What is there comes from one of the calls. -/
theorem mem_total {β : Type} {f : α → Multiset β} {b : β} :
    ∀ {calls : List α}, b ∈ total f calls ↔ ∃ call ∈ calls, b ∈ f call
  | [] => by simp [total]
  | first :: calls => by
    have ih := @mem_total β f b calls
    simp only [total, List.map_cons, List.sum_cons, Multiset.mem_add, List.mem_cons,
      exists_eq_or_imp] at ih ⊢
    rw [ih]

/-- What is there comes from one of the places. -/
theorem mem_totalIdx {β : Type} {f : Nat → α → Multiset β} {b : β} {places : List α} :
    b ∈ totalIdx f places ↔ ∃ i place, places[i]? = some place ∧ b ∈ f i place := by
  rw [totalIdx, mem_total]
  constructor
  · rintro ⟨held, hMem, hb⟩
    obtain ⟨i, hi⟩ := List.mem_iff_getElem?.mp hMem
    rw [List.getElem?_mapIdx] at hi
    obtain ⟨place, hPlace, rfl⟩ := Option.map_eq_some_iff.mp hi
    exact ⟨i, place, hPlace, hb⟩
  · rintro ⟨i, place, hPlace, hb⟩
    refine ⟨f i place, List.mem_iff_getElem?.mpr ⟨i, ?_⟩, hb⟩
    rw [List.getElem?_mapIdx, hPlace]
    rfl

end Total

/-- After a step of one call, what holds of its next state and held of all calls. -/
theorem forall_mem_set {α : Type} {P : α → Prop} {calls : List α} {i : Nat} {next : α}
    (hNext : P next) (hAll : ∀ call ∈ calls, P call) : ∀ call ∈ calls.set i next, P call := by
  intro call hCall
  rcases List.mem_or_eq_of_mem_set hCall with hOld | rfl
  · exact hAll call hOld
  · exact hNext

/-- The other calls are still there. -/
theorem mem_set_or_eq {α : Type} {other call next : α} {calls : List α} {i : Nat}
    (hCall : calls[i]? = some call) (hMem : other ∈ calls) :
    other ∈ calls.set i next ∨ other = call := by
  obtain ⟨j, hj⟩ := List.mem_iff_getElem?.mp hMem
  by_cases hij : i = j
  · subst hij
    exact Or.inr (Option.some.inj (hj.symm.trans hCall))
  · refine Or.inl (List.mem_of_getElem? (i := j) ?_)
    rw [List.getElem?_set_ne hij, hj]

/-- What holds of the calls and of the next one. -/
theorem forall_mem_append_one {α : Type} {P : α → Prop} {calls : List α} {call : α}
    (hCall : P call) (hAll : ∀ call ∈ calls, P call) : ∀ call' ∈ calls ++ [call], P call' := by
  intro other hOther
  rcases List.mem_append.mp hOther with hOld | hNew
  · exact hAll other hOld
  · rw [List.mem_singleton.mp hNew]
    exact hCall

end Ithax.Lib
