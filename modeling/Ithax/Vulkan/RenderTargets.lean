import Ithax.Lib.ScopedCell
import Ithax.Vulkan.BeginFrame
import Ithax.Vulkan.RenderContext

/-!
# Render targets

What `Tr2RenderContextAL` of `trinityal-vulkan/Tr2RenderContextVulkan.cpp` draws to: eight
slots, each with a texture and a slice of it, and a texture for depth and stencil. Each can be
pushed and popped. `PushRenderTarget` saves the texture of a slot and not its slice;
`PushDepthStencil` saves all that there is.

Textures are shared objects, so they are kept by number.

* `slot_run`, `depthStencil_run` — a slot and the depth-stencil texture are cells with scopes.
* `binding_after`                — what balanced pushes and pops leave in a slot.
* `binding_restored_iff`         — when that is what was there before.
* `depthStencil_restored`        — the depth-stencil texture is always what it was.
* `pop_leaves_slice`             — a scope after which the slot has another slice.
-/

namespace Ithax.Vulkan

open Ithax.Lib Ithax.Lib.ScopedCell
open Ithax.RenderGraph (INVALID_PASS)

/-- `MAX_RENDER_TARGET`. -/
abbrev MAX_RENDER_TARGET : Nat := 8

/-- A texture, by a number. -/
abbrev TextureId := Nat

/-- A render target that is bound: a texture and a slice of it. -/
@[ext] structure BoundRT where
  /-- The texture, if it is valid. -/
  texture : Option TextureId
  slice : UInt32
  deriving DecidableEq, Repr

/-- A render context with its targets. -/
structure TargetContext where
  context : Tr2RenderContextAL
  boundRenderTarget : Fin MAX_RENDER_TARGET → BoundRT
  boundDepthStencil : Option TextureId
  useReadOnlyDepth : Bool
  defaultBackBuffer : Option TextureId
  stackRT : Fin MAX_RENDER_TARGET → List (Option TextureId)
  stackDS : List (Option TextureId)

namespace TargetContext

-- ---------------------------------------------------------------------------
-- The functions
-- ---------------------------------------------------------------------------

/-- `SetRenderTarget`: a slot out of range is an error. -/
def setRenderTarget (s : TargetContext) (texture : Option TextureId) (slot slice : UInt32) :
    ALResult × TargetContext :=
  if h : slot.toNat < MAX_RENDER_TARGET then
    (.S_OK, { s with boundRenderTarget :=
      Function.update s.boundRenderTarget ⟨slot.toNat, h⟩ { texture, slice } })
  else (.E_INVALIDARG, s)

/-- `PushRenderTarget`: the texture goes on the stack of its slot, without its slice. -/
def pushRenderTarget (s : TargetContext) (slot : UInt32) : ALResult × TargetContext :=
  if h : slot.toNat < MAX_RENDER_TARGET then
    let slot := ⟨slot.toNat, h⟩
    (.S_OK, { s with stackRT :=
      Function.update s.stackRT slot ((s.boundRenderTarget slot).texture :: s.stackRT slot) })
  else (.E_INVALIDARG, s)

/-- `PopRenderTarget`, which leaves the slice alone. -/
def popRenderTarget (s : TargetContext) (slot : UInt32) : ALResult × TargetContext :=
  if h : slot.toNat < MAX_RENDER_TARGET then
    let slot := ⟨slot.toNat, h⟩
    match s.stackRT slot with
    | [] => (.E_INVALIDCALL, s)
    | texture :: rest => (.S_OK, { s with
        boundRenderTarget := Function.update s.boundRenderTarget slot
          { s.boundRenderTarget slot with texture }
        stackRT := Function.update s.stackRT slot rest })
  else (.E_INVALIDCALL, s)

/-- `SetDepthStencil`. -/
def setDepthStencil (s : TargetContext) (texture : Option TextureId) : TargetContext :=
  { s with boundDepthStencil := texture }

/-- `PushDepthStencil`. -/
def pushDepthStencil (s : TargetContext) : TargetContext :=
  { s with stackDS := s.boundDepthStencil :: s.stackDS }

/-- `PopDepthStencil`: an empty stack is an error. -/
def popDepthStencil (s : TargetContext) : ALResult × TargetContext :=
  match s.stackDS with
  | [] => (.E_INVALIDCALL, s)
  | texture :: rest => (.S_OK, { s with boundDepthStencil := texture, stackDS := rest })

/-- `SetReadOnlyDepth`. -/
def setReadOnlyDepth (s : TargetContext) (enable : Bool) : TargetContext :=
  { s with useReadOnlyDepth := enable }

/-- The texture that `Clear` and `GetRenderTargetSize` take for a slot. -/
def target (s : TargetContext) (slot : Fin MAX_RENDER_TARGET) : Option TextureId :=
  if slot = 0 ∧ (s.boundRenderTarget 0).texture = none then s.defaultBackBuffer
  else (s.boundRenderTarget slot).texture

/-- `GetRenderTargetSize`, which does not check the slot. -/
def getRenderTargetSize (s : TargetContext) (size : TextureId → VkExtent2D) (slot : UInt32) :
    Option (Except ALResult VkExtent2D) :=
  if h : slot.toNat < MAX_RENDER_TARGET then
    match s.target ⟨slot.toNat, h⟩ with
    | none => some (.error .E_INVALIDCALL)
    | some texture => some (.ok (size texture))
  else none

end TargetContext

-- ---------------------------------------------------------------------------
-- Runs
-- ---------------------------------------------------------------------------

/-- The calls on the targets. -/
inductive TargetCall where
  | setRenderTarget (texture : Option TextureId) (slot slice : UInt32)
  | pushRenderTarget (slot : UInt32)
  | popRenderTarget (slot : UInt32)
  | setDepthStencil (texture : Option TextureId)
  | pushDepthStencil
  | popDepthStencil
  | setReadOnlyDepth (enable : Bool)
  | getRenderTargetSize (size : TextureId → VkExtent2D) (slot : UInt32)
  /-- The back buffer is attached to another image. -/
  | attachBackBuffer (texture : Option TextureId)
  /-- A call that does not concern the targets. -/
  | other (action : Action)

/-- A call, whatever it answers. -/
def TargetContext.step (s : TargetContext) : TargetCall → Option TargetContext
  | .setRenderTarget texture slot slice => some (s.setRenderTarget texture slot slice).2
  | .pushRenderTarget slot => some (s.pushRenderTarget slot).2
  | .popRenderTarget slot => some (s.popRenderTarget slot).2
  | .setDepthStencil texture => some (s.setDepthStencil texture)
  | .pushDepthStencil => some s.pushDepthStencil
  | .popDepthStencil => some s.popDepthStencil.2
  | .setReadOnlyDepth enable => some (s.setReadOnlyDepth enable)
  | .getRenderTargetSize size slot => (s.getRenderTargetSize size slot).map fun _ => s
  | .attachBackBuffer texture => some { s with defaultBackBuffer := texture }
  | .other action => (s.context.step action).map fun context => { s with context }

-- ---------------------------------------------------------------------------
-- Slots as cells
-- ---------------------------------------------------------------------------

/-- A slot saves its texture. -/
def savesTexture : Saving BoundRT (Option TextureId) where
  save binding := binding.texture
  restore texture binding := { binding with texture }
  restore_save _ := rfl
  save_restore _ _ := rfl
  restore_restore _ _ _ := rfl

/-- One slot with its stack. -/
def TargetContext.slot (s : TargetContext) (slot : Fin MAX_RENDER_TARGET) :
    Cell BoundRT (Option TextureId) :=
  ⟨s.boundRenderTarget slot, s.stackRT slot⟩

/-- The depth stencil with its stack. -/
def TargetContext.depthStencil (s : TargetContext) : Cell (Option TextureId) (Option TextureId) :=
  ⟨s.boundDepthStencil, s.stackDS⟩

/-- What a call does to a slot. -/
def TargetCall.onSlot (slot : Fin MAX_RENDER_TARGET) : TargetCall → Option (Op BoundRT)
  | .setRenderTarget texture slot' slice =>
    if slot'.toNat = slot then some (.set { texture, slice }) else none
  | .pushRenderTarget slot' => if slot'.toNat = slot then some .push else none
  | .popRenderTarget slot' => if slot'.toNat = slot then some .pop else none
  | _ => none

/-- What a call does to the depth-stencil texture. -/
def TargetCall.onDepthStencil : TargetCall → Option (Op (Option TextureId))
  | .setDepthStencil texture => some (.set texture)
  | .pushDepthStencil => some .push
  | .popDepthStencil => some .pop
  | _ => none

section Cells

variable {s next final : TargetContext} {call : TargetCall} {calls : List TargetCall}

/-- A function that checks its slot and then acts on that alone. -/
theorem slot_checked {target : UInt32} {slot : Fin MAX_RENDER_TARGET} {op : Op BoundRT}
    {refusal : ALResult} {act : target.toNat < MAX_RENDER_TARGET → ALResult × TargetContext}
    (hAct : ∀ h, (act h).2.slot slot = if (⟨target.toNat, h⟩ : Fin MAX_RENDER_TARGET) = slot then
      (s.slot slot).step savesTexture op else s.slot slot) :
    (if h : target.toNat < MAX_RENDER_TARGET then act h else (refusal, s)).2.slot slot =
      if target.toNat = slot then (s.slot slot).step savesTexture op else s.slot slot := by
  by_cases hLt : target.toNat < MAX_RENDER_TARGET
  · rw [dif_pos hLt, hAct]
    simp only [Fin.ext_iff]
  · have hOther : target.toNat ≠ slot := by omega
    rw [dif_neg hLt, if_neg hOther]

/-- Only the slot that is named is set. -/
theorem slot_setRenderTarget (texture : Option TextureId) (target slice : UInt32)
    (slot : Fin MAX_RENDER_TARGET) : (s.setRenderTarget texture target slice).2.slot slot =
      if target.toNat = slot then (s.slot slot).step savesTexture (.set { texture, slice })
      else s.slot slot := by
  refine slot_checked fun h => ?_
  generalize (⟨target.toNat, h⟩ : Fin MAX_RENDER_TARGET) = target
  by_cases hSlot : target = slot
  · subst hSlot
    simp [TargetContext.slot, Cell.step]
  · simp [TargetContext.slot, hSlot, Ne.symm hSlot]

/-- Only the slot that is named is pushed. -/
theorem slot_pushRenderTarget (target : UInt32) (slot : Fin MAX_RENDER_TARGET) :
    (s.pushRenderTarget target).2.slot slot =
      if target.toNat = slot then (s.slot slot).step savesTexture .push else s.slot slot := by
  refine slot_checked fun h => ?_
  generalize (⟨target.toNat, h⟩ : Fin MAX_RENDER_TARGET) = target
  by_cases hSlot : target = slot
  · subst hSlot
    simp [TargetContext.slot, Cell.step, savesTexture]
  · simp [TargetContext.slot, hSlot, Ne.symm hSlot]

/-- Only the slot that is named is popped. -/
theorem slot_popRenderTarget (target : UInt32) (slot : Fin MAX_RENDER_TARGET) :
    (s.popRenderTarget target).2.slot slot =
      if target.toNat = slot then (s.slot slot).step savesTexture .pop else s.slot slot := by
  refine slot_checked fun h => ?_
  generalize (⟨target.toNat, h⟩ : Fin MAX_RENDER_TARGET) = target
  cases hStack : s.stackRT target with
  | nil =>
    by_cases hSlot : target = slot
    · subst hSlot
      simp [TargetContext.slot, Cell.step, hStack]
    · simp [hSlot, hStack]
  | cons texture rest =>
    by_cases hSlot : target = slot
    · subst hSlot
      simp [TargetContext.slot, Cell.step, savesTexture, hStack]
    · simp [TargetContext.slot, hSlot, hStack, Ne.symm hSlot]

/-- A call acts on a slot as what it is for that slot. -/
theorem slot_step (slot : Fin MAX_RENDER_TARGET) (h : s.step call = some next) :
    next.slot slot = (call.onSlot slot).elim (s.slot slot)
      (Cell.step savesTexture (s.slot slot)) := by
  cases call with
  | setRenderTarget texture target slice =>
    cases h
    rw [slot_setRenderTarget]
    unfold TargetCall.onSlot
    by_cases hSlot : target.toNat = slot <;> simp [hSlot]
  | pushRenderTarget target =>
    cases h
    rw [slot_pushRenderTarget]
    unfold TargetCall.onSlot
    by_cases hSlot : target.toNat = slot <;> simp [hSlot]
  | popRenderTarget target =>
    cases h
    rw [slot_popRenderTarget]
    unfold TargetCall.onSlot
    by_cases hSlot : target.toNat = slot <;> simp [hSlot]
  | popDepthStencil =>
    cases h
    unfold TargetContext.popDepthStencil
    cases s.stackDS <;> rfl
  | getRenderTargetSize size target =>
    obtain ⟨answer, -, rfl⟩ := Option.map_eq_some_iff.mp h
    rfl
  | other action =>
    obtain ⟨context, -, rfl⟩ := Option.map_eq_some_iff.mp h
    rfl
  | _ =>
    cases h
    rfl

/-- The functions of the slots leave the depth-stencil texture alone. -/
theorem depthStencil_step (h : s.step call = some next) :
    next.depthStencil = call.onDepthStencil.elim s.depthStencil
      (Cell.step (Saving.all _) s.depthStencil) := by
  cases call with
  | setRenderTarget texture target slice =>
    cases h
    unfold TargetContext.setRenderTarget
    split <;> rfl
  | pushRenderTarget target =>
    cases h
    unfold TargetContext.pushRenderTarget
    split <;> rfl
  | popRenderTarget target =>
    cases h
    unfold TargetContext.popRenderTarget
    split
    · dsimp only
      split <;> rfl
    · rfl
  | popDepthStencil =>
    cases h
    unfold TargetContext.popDepthStencil
    cases hStack : s.stackDS with
    | nil => simp [TargetCall.onDepthStencil, TargetContext.depthStencil, Cell.step, hStack]
    | cons texture rest =>
      simp [TargetCall.onDepthStencil, TargetContext.depthStencil, Cell.step, Saving.all, hStack]
  | getRenderTargetSize size target =>
    obtain ⟨answer, -, rfl⟩ := Option.map_eq_some_iff.mp h
    rfl
  | other action =>
    obtain ⟨context, -, rfl⟩ := Option.map_eq_some_iff.mp h
    rfl
  | _ =>
    cases h
    rfl

/-- A run does to a slot what the calls on the slot do. -/
theorem slot_run (slot : Fin MAX_RENDER_TARGET)
    (h : runEvents TargetContext.step s calls = some final) :
    final.slot slot = Cell.run savesTexture (s.slot slot) (calls.filterMap (·.onSlot slot)) :=
  view_of_runEvents (fun s => s.slot slot) (·.onSlot slot) (slot_step slot) h

/-- A run acts on the depth stencil as the calls that are about it. -/
theorem depthStencil_run (h : runEvents TargetContext.step s calls = some final) :
    final.depthStencil =
      Cell.run (Saving.all _) s.depthStencil (calls.filterMap TargetCall.onDepthStencil) :=
  view_of_runEvents TargetContext.depthStencil TargetCall.onDepthStencil depthStencil_step h

end Cells

-- ---------------------------------------------------------------------------
-- Balanced calls
-- ---------------------------------------------------------------------------

/-- The pushes and pops on the slot are balanced and properly nested. -/
def BalancedOn (slot : Fin MAX_RENDER_TARGET) (calls : List TargetCall) : Prop :=
  Balanced (calls.filterMap (·.onSlot slot))

instance (slot : Fin MAX_RENDER_TARGET) (calls : List TargetCall) :
    Decidable (BalancedOn slot calls) :=
  inferInstanceAs (Decidable (Balanced _))

/-- What the last `SetRenderTarget` on the slot sets. -/
def lastSet (slot : Fin MAX_RENDER_TARGET) (calls : List TargetCall) : Option BoundRT :=
  (values (calls.filterMap (·.onSlot slot))).getLast?

/-- What the last `SetRenderTarget` on the slot sets that is not between a push of the slot and
its pop. -/
def lastSetOutside (slot : Fin MAX_RENDER_TARGET) (calls : List TargetCall) : Option BoundRT :=
  (outside 0 (calls.filterMap (·.onSlot slot))).getLast?

section Balanced

variable {s final : TargetContext} {calls : List TargetCall} {slot : Fin MAX_RENDER_TARGET}

/-- The texture of a slot comes from the last set outside every scope, and the slice from the
last set of all. -/
theorem binding_after (hRun : runEvents TargetContext.step s calls = some final)
    (hBalanced : BalancedOn slot calls) : final.boundRenderTarget slot =
      { texture := ((lastSetOutside slot calls).getD (s.boundRenderTarget slot)).texture
        slice := ((lastSet slot calls).getD (s.boundRenderTarget slot)).slice } := by
  have hSlot := (slot_run slot hRun).trans (run_of_balanced hBalanced (s.slot slot))
  have hBound : final.boundRenderTarget slot = _ := congrArg Cell.bound hSlot
  rw [hBound, ← lastSet, ← lastSetOutside]
  cases lastSetOutside slot calls <;> rfl

/-- After balanced pushes and pops a slot is what it was exactly when the last set outside
every scope, if there is one, has the texture that was bound, and the last set of all, if
there is one, the slice. -/
theorem binding_restored_iff (hRun : runEvents TargetContext.step s calls = some final)
    (hBalanced : BalancedOn slot calls) :
    final.boundRenderTarget slot = s.boundRenderTarget slot ↔
      (∀ binding ∈ lastSetOutside slot calls,
        binding.texture = (s.boundRenderTarget slot).texture) ∧
      ∀ binding ∈ lastSet slot calls, binding.slice = (s.boundRenderTarget slot).slice := by
  rw [binding_after hRun hBalanced, BoundRT.ext_iff]
  refine and_congr ?_ ?_
  · cases lastSetOutside slot calls <;> simp
  · cases lastSet slot calls <;> simp

/-- A new context in a frame, with the first slice of a texture in every slot. -/
def firstSlices : TargetContext where
  context := .construct inFrame 0 (fun _ => none) INVALID_PASS false false
  boundRenderTarget _ := { texture := some 1, slice := 0 }
  boundDepthStencil := none
  useReadOnlyDepth := false
  defaultBackBuffer := none
  stackRT _ := []
  stackDS := []

/-- A scope that draws to a slice of another texture. -/
def drawToSlice (slice : UInt32) : List TargetCall :=
  [.pushRenderTarget 0, .setRenderTarget (some 2) 0 slice, .popRenderTarget 0]

/-- A slice that is bound again is restored. -/
theorem binding_restored_sameSlice : ∃ final,
    runEvents TargetContext.step firstSlices (drawToSlice 0) = some final ∧
      final.boundRenderTarget 0 = firstSlices.boundRenderTarget 0 := by
  have hBalanced : BalancedOn 0 (drawToSlice 0) := by decide
  exact ⟨_, rfl, (binding_restored_iff rfl hBalanced).mpr ⟨by decide, by decide⟩⟩

/-- After drawing to the fourth slice, that is the slice of the texture from before. -/
theorem pop_leaves_slice : BalancedOn 0 (drawToSlice 3) ∧ lastSetOutside 0 (drawToSlice 3) = none ∧
    ∃ final, runEvents TargetContext.step firstSlices (drawToSlice 3) = some final ∧
      final.boundRenderTarget 0 = { texture := some 1, slice := 3 } ∧
      firstSlices.boundRenderTarget 0 = { texture := some 1, slice := 0 } :=
  ⟨by decide, by decide, _, rfl, by decide, rfl⟩

/-- Pushes and pops of the depth-stencil texture, between which it is set, leave it. -/
theorem depthStencil_restored (hRun : runEvents TargetContext.step s calls = some final)
    (hBalanced : Balanced (calls.filterMap TargetCall.onDepthStencil))
    (hInside : outside 0 (calls.filterMap TargetCall.onDepthStencil) = []) :
    final.boundDepthStencil = s.boundDepthStencil := by
  have hCell := (depthStencil_run hRun).trans (run_all_of_balanced hBalanced hInside s.depthStencil)
  exact congrArg Cell.bound hCell

end Balanced

end Ithax.Vulkan
