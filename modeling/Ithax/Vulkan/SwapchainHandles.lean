import Ithax.Lib.ResourceLedger
import Ithax.Lib.RunHistory
import Ithax.Vulkan.BeginFrame

/-!
# The swapchains that Vulkan has created

`CreateSwapchainInternal` creates a swapchain while the one before is still there, and the one
before is destroyed by its caller, which is told by the state alone what has been created. Every
swapchain is destroyed once if no step loses one: `RecreateSwapchain` forgets the old swapchain
where no new one can be created, and the new one where what belongs to it cannot be created.

## Results

* `owned_recreateSwapchain`, `owned_beginFrame` — what keeps the one swapchain of the context.
* `keepsHandles_of_clean`                       — runs that lose no swapchain.
-/

namespace Ithax.Vulkan

open Ithax.Lib

-- ---------------------------------------------------------------------------
-- The history of the swapchains
-- ---------------------------------------------------------------------------

/-- Something is done with a swapchain, unless it is null. -/
def ofHandle (event : Handle → ResourceEvent Handle) (swapchain : Handle) :
    Option (ResourceEvent Handle) :=
  if swapchain = VK_NULL_HANDLE then none else some (event swapchain)

/-- What an event does with a swapchain. -/
def VkEvent.onSwapchain : VkEvent → Option (ResourceEvent Handle)
  | .createSwapchain swapchain => some (.creates swapchain)
  | .destroySwapchain swapchain => ofHandle .destroys swapchain
  | .replaceSwapchain swapchain | .getSwapchainImages swapchain | .acquireNextImage swapchain _ _ |
    .queuePresent swapchain => ofHandle .uses swapchain

/-- What has been done with swapchains, in order. -/
def swapchainHistory (trace : List VkEvent) : List (ResourceEvent Handle) :=
  trace.filterMap VkEvent.onSwapchain

/-- No image has been acquired from a null swapchain. -/
def AcquiresNoNull (trace : List VkEvent) : Prop :=
  ∀ context signalled, .acquireNextImage VK_NULL_HANDLE context signalled ∉ trace

/-- The calls that make or destroy swapchains. -/
inductive SwapchainCall where
  | createSwapchain (answers : Answers)
  | recreateSurface (answers : Answers)
  | destroySwapchain
  /-- A call of a frame, or `RecreateSwapchain`. -/
  | frame (call : Call)

/-- A call, with the answers of the device to it. -/
def swapchainStep (s : VulkanContext) : SwapchainCall → Option VulkanContext
  | .createSwapchain answers => (invoke createSwapchain answers s).map Prod.snd
  | .recreateSurface answers => (invoke recreateSurface answers s).map Prod.snd
  | .destroySwapchain => (invoke destroySwapchain (fun _ => []) s).map Prod.snd
  | .frame call => step s call

/-- In every state of a run nothing has been done with a swapchain once it was destroyed, no
image has been acquired from a null swapchain, and when `DestroySwapchain` returns, every
swapchain that was created has been destroyed once. -/
structure KeepsHandles (start : VulkanContext) (calls : List SwapchainCall) : Prop where
  touched : ∀ before after, calls = before ++ after → ∀ s,
    runEvents swapchainStep start before = some s → TouchedAlive (swapchainHistory s.trace)
  acquired : ∀ before after, calls = before ++ after → ∀ s,
    runEvents swapchainStep start before = some s → AcquiresNoNull s.trace
  destroyed : ∀ before after, calls = before ++ .destroySwapchain :: after → ∀ s,
    runEvents swapchainStep start (before ++ [.destroySwapchain]) = some s →
    ∀ swapchain, .creates swapchain ∈ swapchainHistory s.trace →
      (swapchainHistory s.trace).count (.destroys swapchain) = 1

-- ---------------------------------------------------------------------------
-- The swapchains that are alive
-- ---------------------------------------------------------------------------

/-- After these calls the swapchains of `live` are alive, with handles up to `handles`. -/
structure LiveAfter (live : Set Handle) (handles : Nat) (trace : List VkEvent) : Prop where
  ledger : Ledger (swapchainHistory trace) live
  acquired : AcquiresNoNull trace
  ne_null : ∀ swapchain ∈ live, swapchain ≠ VK_NULL_HANDLE
  live_le : ∀ swapchain ∈ live, swapchain ≤ handles
  destroys_le : ∀ swapchain, .destroys swapchain ∈ swapchainHistory trace → swapchain ≤ handles

/-- The swapchain itself, unless it is null. -/
def only (swapchain : Handle) : Set Handle :=
  {other | other = swapchain ∧ other ≠ VK_NULL_HANDLE}

section LiveAfter

variable {swapchain : Handle} {live : Set Handle} {handles : Nat} {trace : List VkEvent}
  {event : VkEvent}

/-- A null handle owns nothing. -/
theorem only_null : only VK_NULL_HANDLE = ∅ :=
  Set.eq_empty_of_forall_notMem fun _ h => h.2 h.1

/-- A new swapchain becomes the one that is owned. -/
theorem insert_only_null (hNull : swapchain ≠ VK_NULL_HANDLE) :
    insert swapchain (only VK_NULL_HANDLE) = only swapchain := by
  rw [only_null, insert_empty_eq]
  ext other
  exact ⟨fun hSame => ⟨hSame, fun hZero => hNull (hSame.symm.trans hZero)⟩, fun hOnly => hOnly.1⟩

/-- It is destroyed, and nothing is owned. -/
theorem only_diff_self (swapchain : Handle) : only swapchain \ {swapchain} = only VK_NULL_HANDLE := by
  rw [only_null]
  exact Set.eq_empty_of_forall_notMem fun _ h => h.2 h.1.1

/-- A new swapchain replaces another, which is destroyed. -/
theorem insert_only_diff {other : Handle} (hNull : swapchain ≠ VK_NULL_HANDLE)
    (hNot : swapchain ∉ only other) : insert swapchain (only other) \ {other} = only swapchain := by
  ext third
  constructor
  · rintro ⟨rfl | hOther, hThird⟩
    · exact ⟨rfl, hNull⟩
    · exact absurd hOther.1 hThird
  · rintro ⟨rfl, -⟩
    exact ⟨.inl rfl, fun hSame => hNot ⟨hSame, hNull⟩⟩

/-- One more event. -/
theorem swapchainHistory_append_one (trace : List VkEvent) (event : VkEvent) :
    swapchainHistory (trace ++ [event]) = swapchainHistory trace ++ event.onSwapchain.toList := by
  unfold swapchainHistory
  rw [List.filterMap_append]
  cases hEvent : event.onSwapchain with
  | none => simp [hEvent]
  | some done => simp [hEvent]

/-- Destroying a null handle does nothing. -/
theorem ofHandle_null (event : Handle → ResourceEvent Handle) : ofHandle event VK_NULL_HANDLE = none :=
  if_pos rfl

/-- Any other handle is in the history. -/
theorem ofHandle_of_ne (event : Handle → ResourceEvent Handle) (hNot : swapchain ≠ VK_NULL_HANDLE) :
    ofHandle event swapchain = some (event swapchain) :=
  if_neg hNot

/-- One more event that acquires from no null swapchain. -/
theorem AcquiresNoNull.append_one (h : AcquiresNoNull trace)
    (hEvent : ∀ context signalled, event ≠ .acquireNextImage VK_NULL_HANDLE context signalled) :
    AcquiresNoNull (trace ++ [event]) := by
  intro context signalled hIn
  rcases List.mem_append.mp hIn with hOld | hNew
  · exact h context signalled hOld
  · exact hEvent context signalled (List.mem_singleton.mp hNew).symm

namespace LiveAfter

/-- At first nothing is alive. -/
theorem nil (handles : Nat) : LiveAfter ∅ handles [] where
  ledger := .nil
  acquired := fun _ _ => List.not_mem_nil
  ne_null := fun _ hNo => hNo.elim
  live_le := fun _ hNo => hNo.elim
  destroys_le := fun _ hNo => nomatch hNo

/-- Larger handles may have been given out. -/
theorem mono {more : Nat} (h : LiveAfter live handles trace) (hMore : handles ≤ more) :
    LiveAfter live more trace :=
  { h with
    live_le := fun swapchain hLive => (h.live_le swapchain hLive).trans hMore
    destroys_le := fun swapchain hDestroyed => (h.destroys_le swapchain hDestroyed).trans hMore }

/-- A call on a null swapchain. -/
theorem skip (h : LiveAfter live handles trace) (hEvent : event.onSwapchain = none)
    (hAcquire : ∀ context signalled, event ≠ .acquireNextImage VK_NULL_HANDLE context signalled) :
    LiveAfter live handles (trace ++ [event]) := by
  have hHistory := swapchainHistory_append_one trace event
  rw [hEvent, Option.toList_none, List.append_nil] at hHistory
  exact { h with
    ledger := hHistory ▸ h.ledger
    acquired := h.acquired.append_one hAcquire
    destroys_le := hHistory ▸ h.destroys_le }

/-- A swapchain that is alive is used. -/
theorem use (h : LiveAfter live handles trace) (hEvent : event.onSwapchain = some (.uses swapchain))
    (hLive : swapchain ∈ live)
    (hAcquire : ∀ context signalled, event ≠ .acquireNextImage VK_NULL_HANDLE context signalled) :
    LiveAfter live handles (trace ++ [event]) := by
  have hHistory := swapchainHistory_append_one trace event
  rw [hEvent, Option.toList_some] at hHistory
  refine { h with
    ledger := hHistory ▸ h.ledger.use hLive
    acquired := h.acquired.append_one hAcquire
    destroys_le := fun other hDestroyed => ?_ }
  rw [hHistory, List.mem_append] at hDestroyed
  rcases hDestroyed with hOld | hNew
  · exact h.destroys_le other hOld
  · cases List.mem_singleton.mp hNew

/-- A new swapchain is created. -/
theorem create (h : LiveAfter live handles trace) :
    LiveAfter (insert (handles + 1) live) (handles + 1)
      (trace ++ [.createSwapchain (handles + 1)]) := by
  have hHistory : swapchainHistory (trace ++ [.createSwapchain (handles + 1)]) =
      swapchainHistory trace ++ [.creates (handles + 1)] :=
    swapchainHistory_append_one trace _
  have hNew : .destroys (handles + 1) ∉ swapchainHistory trace := by
    intro hDestroyed
    have hLe := h.destroys_le _ hDestroyed
    omega
  constructor
  · rw [hHistory]
    exact h.ledger.create hNew
  · exact h.acquired.append_one nofun
  · rintro other (rfl | hLive)
    · exact Nat.succ_ne_zero _
    · exact h.ne_null other hLive
  · rintro other (rfl | hLive)
    · exact Nat.le_refl _
    · exact (h.live_le other hLive).trans (Nat.le_succ _)
  · intro other hDestroyed
    rw [hHistory, List.mem_append] at hDestroyed
    rcases hDestroyed with hOld | hLast
    · exact (h.destroys_le other hOld).trans (Nat.le_succ _)
    · cases List.mem_singleton.mp hLast

/-- A swapchain that is alive is destroyed. -/
theorem destroy (h : LiveAfter live handles trace) (hLive : swapchain ∈ live) :
    LiveAfter (live \ {swapchain}) handles (trace ++ [.destroySwapchain swapchain]) := by
  have hHistory : swapchainHistory (trace ++ [.destroySwapchain swapchain]) =
      swapchainHistory trace ++ [.destroys swapchain] := by
    rw [swapchainHistory_append_one, VkEvent.onSwapchain, ofHandle_of_ne _ (h.ne_null _ hLive)]
    rfl
  constructor
  · rw [hHistory]
    exact h.ledger.destroy hLive
  · exact h.acquired.append_one nofun
  · exact fun other hOther => h.ne_null other hOther.1
  · exact fun other hOther => h.live_le other hOther.1
  · intro other hDestroyed
    rw [hHistory, List.mem_append] at hDestroyed
    rcases hDestroyed with hOld | hLast
    · exact h.destroys_le other hOld
    · cases List.mem_singleton.mp hLast
      exact h.live_le swapchain hLive

/-- A swapchain that is alive is destroyed, or a null swapchain, which does nothing. -/
theorem destroy_or_skip (h : LiveAfter live handles trace)
    (hLive : swapchain ≠ VK_NULL_HANDLE → swapchain ∈ live) :
    LiveAfter (live \ {swapchain}) handles (trace ++ [.destroySwapchain swapchain]) := by
  by_cases hNull : swapchain = VK_NULL_HANDLE
  · have hSame : live \ {swapchain} = live :=
      Set.sdiff_singleton_eq_self fun hIn => h.ne_null _ hIn hNull
    rw [hSame]
    refine h.skip ?_ nofun
    rw [hNull]
    exact ofHandle_null _
  · exact h.destroy (hLive hNull)

end LiveAfter

end LiveAfter

/-- The context holds `held`, and the swapchains of `live` are alive. -/
structure Owns (held : Handle) (live : Set Handle) (s : VulkanContext) : Prop where
  holds : s.swapchain.swapchain = held
  held_live : held ≠ VK_NULL_HANDLE → held ∈ live
  live_after : LiveAfter live s.handles s.trace

section Owns

variable {held oldSwapchain : Handle} {live : Set Handle} {s : VulkanContext}

instance : Indifferent (Owns held live) where
  ask _ h := ⟨h.holds, h.held_live, h.live_after⟩
  surfaceFormat h := ⟨h.holds, h.held_live, h.live_after⟩
  surfaceLossReason h := ⟨h.holds, h.held_live, h.live_after⟩
  handles h := ⟨h.holds, h.held_live, h.live_after.mono (Nat.le_succ _)⟩
  deviceLost h := ⟨h.holds, h.held_live, h.live_after⟩

instance : Unframed (Owns held live) where
  answers h := ⟨h.holds, h.held_live, h.live_after⟩
  completed h := ⟨h.holds, h.held_live, h.live_after⟩
  deferred h := ⟨h.holds, h.held_live, h.live_after⟩
  destroyed h := ⟨h.holds, h.held_live, h.live_after⟩
  frames h := ⟨h.holds, h.held_live, h.live_after⟩
  recordings h := ⟨h.holds, h.held_live, h.live_after⟩
  submissions h := ⟨h.holds, h.held_live, h.live_after⟩
  frameNumber h := ⟨h.holds, h.held_live, h.live_after⟩

/-- The swapchain of the context is used, or it is null. -/
theorem Owns.use {swapchain : Handle} {event : VkEvent} (h : Owns held live s)
    (hEvent : event.onSwapchain = ofHandle .uses swapchain)
    (hLive : swapchain ≠ VK_NULL_HANDLE → swapchain ∈ live)
    (hAcquire : ∀ context signalled, event ≠ .acquireNextImage VK_NULL_HANDLE context signalled) :
    Owns held live { s with trace := s.trace ++ [event] } := by
  refine ⟨h.holds, h.held_live, ?_⟩
  by_cases hNull : swapchain = VK_NULL_HANDLE
  · rw [hNull, ofHandle_null] at hEvent
    exact h.live_after.skip hEvent hAcquire
  · rw [ofHandle_of_ne _ hNull] at hEvent
    exact h.live_after.use hEvent (hLive hNull) hAcquire

instance : Fills (Owns held live) where
  ask h := ⟨h.holds, h.held_live, h.live_after⟩
  handles h := ⟨h.holds, h.held_live, h.live_after.mono (Nat.le_succ _)⟩
  swapchain hSame _ h := ⟨hSame.trans h.holds, h.held_live, h.live_after⟩
  images h := h.use rfl (by rw [h.holds]; exact h.held_live) nofun

/-- The window is minimized: the old swapchain is destroyed. -/
theorem hoare_suspend (extent : VkExtent2D)
    (hOld : oldSwapchain ≠ VK_NULL_HANDLE → oldSwapchain ∈ live) :
    Hoare (Owns held live) (suspend extent oldSwapchain)
      (fun _ s => s.swapchain.suspended = true ∧ Owns VK_NULL_HANDLE (live \ {oldSwapchain}) s)
      (Owns held live) := by
  intro s h
  unfold suspend whenever
  by_cases hNull : oldSwapchain = VK_NULL_HANDLE
  · rw [if_neg (not_not.mpr hNull)]
    have hSame : live \ {oldSwapchain} = live :=
      Set.sdiff_singleton_eq_self fun hIn => h.live_after.ne_null _ hIn hNull
    refine ⟨rfl, rfl, fun hNot => absurd rfl hNot, ?_⟩
    rw [hSame]
    exact h.live_after
  · rw [if_pos hNull]
    exact ⟨rfl, rfl, fun hNot => absurd rfl hNot, h.live_after.destroy (hOld hNull)⟩

/-- Where a swapchain is created, it is alive beside those that were alive before. -/
theorem hoare_openSwapchain (hOld : oldSwapchain ≠ VK_NULL_HANDLE → oldSwapchain ∈ live) :
    Hoare (Owns held live) (openSwapchain oldSwapchain)
      (fun created s =>
        if created then ∃ swapchain, swapchain ∉ live ∧ Owns swapchain (insert swapchain live) s
        else s.swapchain.suspended = true ∧ Owns VK_NULL_HANDLE (live \ {oldSwapchain}) s)
      (Owns held live) := by
  unfold openSwapchain
  refine Hoare.bind keeps_querySurfaceCapabilities fun answer => ?_
  obtain ⟨result, caps, formats⟩ := answer
  refine Hoare.bind (keeps_whenever fun _ => keeps_giveUp _) fun _ => ?_
  refine Hoare.bind (Q := fun _ => Owns held live) (fun _ h => Indifferent.surfaceFormat h) fun _ => ?_
  refine Hoare.bind keeps_get fun start => Hoare.ite (fun _ => ?_) fun _ => ?_
  · exact Hoare.bind (hoare_suspend _ hOld) fun _ => hoare_pure fun s h => h
  refine Hoare.bind (Q := fun _ => Owns held live)
    (fun _ h => ⟨h.holds, h.held_live, h.live_after⟩) fun _ => ?_
  refine Hoare.bind (Q := fun _ => Owns held live) (fun _ h => h.use rfl hOld nofun) fun _ => ?_
  refine Hoare.bind (keeps_ask (by decide)) fun _ => ?_
  refine Hoare.bind (keeps_whenever fun _ => keeps_giveUp _) fun _ => ?_
  intro s h
  refine ⟨s.handles + 1, fun hIn => ?_, rfl, fun _ => .inl rfl, h.live_after.create⟩
  exact absurd (h.live_after.live_le _ hIn) (Nat.not_succ_le_self _)

end Owns

-- ---------------------------------------------------------------------------
-- What keeps the swapchain of the context
-- ---------------------------------------------------------------------------

/-- The swapchain of the context, if there is one, is the only one that is alive. -/
def Owned (s : VulkanContext) : Prop := Owns s.swapchain.swapchain (only s.swapchain.swapchain) s

/-- There is a swapchain, or the window is minimized. -/
def Standing (s : VulkanContext) : Prop :=
  s.swapchain.suspended = true ∨ s.swapchain.swapchain ≠ VK_NULL_HANDLE

/-- `CreateSwapchain` finds no swapchain, or fails before it gets to make one. -/
def CreatesCleanly (s : VulkanContext) : Prop :=
  s.swapchain.swapchain ≠ VK_NULL_HANDLE →
    ∀ created t, openSwapchain VK_NULL_HANDLE s ≠ .ok created t

/-- `RecreateSwapchain` loses no swapchain. -/
structure RecreatesCleanly (s : VulkanContext) : Prop where
  /-- Where there is a swapchain, neither the queries of the surface nor `vkCreateSwapchainKHR`
  fail. -/
  opens : s.swapchain.swapchain ≠ VK_NULL_HANDLE →
    ∀ exit t, openSwapchain s.swapchain.swapchain s.cleared ≠ .error exit t
  /-- Once there is a new one, it gets its images, its views and its depth buffer. -/
  fills : ∀ t, openSwapchain s.swapchain.swapchain s.cleared = .ok true t →
    ∃ u, resultOf fillSwapchain t = .ok .S_OK u

section Owned

variable {s t : VulkanContext} {oldSwapchain : Handle}

/-- A context that holds `held` owns what it holds. -/
theorem Owns.owned {held : Handle} (h : Owns held (only held) s) : Owned s := by
  unfold Owned
  rw [h.holds]
  exact h

instance : Indifferent Owned where
  ask hOther h := Owns.owned (Indifferent.ask hOther h)
  surfaceFormat h := Owns.owned (Indifferent.surfaceFormat h)
  surfaceLossReason h := Owns.owned (Indifferent.surfaceLossReason h)
  handles h := Owns.owned (Indifferent.handles h)
  deviceLost h := Owns.owned (Indifferent.deviceLost h)

instance : Unframed Owned where
  answers h := Owns.owned (Patient.answers h)
  completed h := Owns.owned (Aside.completed h)
  deferred h := Owns.owned (Patient.deferred h)
  destroyed h := Owns.owned (Patient.destroyed h)
  frames h := Owns.owned (Unframed.frames h)
  recordings h := Owns.owned (Unframed.recordings h)
  submissions h := Owns.owned (Unframed.submissions h)
  frameNumber h := Owns.owned (Unframed.frameNumber h)

/-- The images of a swapchain are cleared before the next is opened. -/
theorem Owned.cleared (h : Owned s) : Owned s.cleared :=
  ⟨h.holds, h.held_live, h.live_after⟩

/-- `DestroySwapchain` leaves a null handle, and nothing alive. -/
theorem owned_destroySwapchain :
    Hoare Owned destroySwapchain (fun _ => Owns VK_NULL_HANDLE (only VK_NULL_HANDLE))
      (Owns VK_NULL_HANDLE (only VK_NULL_HANDLE)) := by
  intro s h
  have hRun : destroySwapchain s = whenever (s.swapchain.swapchain ≠ VK_NULL_HANDLE) (do
      vkDestroySwapchainKHR s.swapchain.swapchain
      modifySwapchain fun swapchain => { swapchain with swapchain := VK_NULL_HANDLE })
      { s with swapchain := { s.swapchain with
        depthView := VK_NULL_HANDLE, depthImage := VK_NULL_HANDLE, imageViews := [] } } := rfl
  rw [hRun]
  by_cases hNull : s.swapchain.swapchain = VK_NULL_HANDLE
  · rw [whenever, if_neg (not_not.mpr hNull)]
    refine ⟨hNull, fun hNot => absurd rfl hNot, ?_⟩
    rw [← hNull]
    exact h.live_after
  · rw [whenever, if_pos hNull]
    refine ⟨rfl, fun hNot => absurd rfl hNot, ?_⟩
    rw [← only_diff_self s.swapchain.swapchain]
    exact h.live_after.destroy ⟨rfl, hNull⟩

/-- A new swapchain has been made: the old one is destroyed. -/
theorem owned_settle {held : Handle} (hHeld : held ∉ only oldSwapchain)
    (h : Owns held (insert held (only oldSwapchain)) s) :
    ∃ t, settleSwapchain oldSwapchain .S_OK s = .ok () t ∧ Owned t ∧
      t.swapchain.swapchain ≠ VK_NULL_HANDLE := by
  have hNull : held ≠ VK_NULL_HANDLE := h.live_after.ne_null held (.inl rfl)
  unfold settleSwapchain
  rw [bind_of_ok (get_run s), h.holds]
  unfold whenever
  have hBoth : held ≠ VK_NULL_HANDLE ∧ held ≠ oldSwapchain :=
    ⟨hNull, fun hSame => hHeld ⟨hSame, hNull⟩⟩
  rw [if_neg (by decide), if_pos hBoth]
  have hLive := h.live_after.destroy_or_skip fun hNot => .inr ⟨rfl, hNot⟩
  rw [insert_only_diff hNull hHeld] at hLive
  have hAfter : Owns held (only held)
      { s with trace := s.trace ++ [.destroySwapchain oldSwapchain] } :=
    ⟨h.holds, fun _ => ⟨rfl, hNull⟩, hLive⟩
  refine ⟨_, rfl, hAfter.owned, ?_⟩
  rw [← h.holds] at hNull
  exact hNull

/-- There was no swapchain, and there is none now. -/
theorem owned_settle_failed {result : ALResult} (hFailed : result.failed = true)
    (h : Owns VK_NULL_HANDLE (only VK_NULL_HANDLE) s) :
    ∃ t, settleSwapchain VK_NULL_HANDLE result s = .error (.returned result) t ∧ Owned t := by
  unfold settleSwapchain
  rw [bind_of_ok (get_run s), h.holds]
  unfold whenever
  rw [if_pos hFailed, if_neg (not_not.mpr rfl)]
  exact ⟨_, rfl, rfl, fun hNot => absurd rfl hNot, h.live_after⟩

/-- Without a swapchain there is nothing to settle. -/
theorem settleSwapchain_of_null (hNull : s.swapchain.swapchain = VK_NULL_HANDLE) :
    settleSwapchain oldSwapchain .S_OK s = .ok () s := by
  unfold settleSwapchain
  rw [bind_of_ok (get_run s), hNull]
  unfold whenever
  rw [if_neg (by decide), if_neg fun hNew => hNew.1 rfl]
  rfl

/-- `RecreateSwapchain` destroys the old swapchain where there is a new one. -/
theorem owned_recreateSwapchain :
    Hoare (fun s => Owned s ∧ RecreatesCleanly s) recreateSwapchain
      (fun _ s => Owned s ∧ Standing s) Owned := by
  rintro s ⟨hOwned, hClean⟩
  have hOpen : Hoare (Owns s.swapchain.swapchain (only s.swapchain.swapchain)) _ _ _ :=
    hoare_openSwapchain fun hNot => ⟨rfl, hNot⟩
  have hOpened := hOpen s.cleared hOwned.cleared
  rw [recreateSwapchain_eq, createSwapchainInternal_eq_open]
  cases hRun : openSwapchain s.swapchain.swapchain s.cleared with
  | error exit t =>
    rw [hRun] at hOpened
    have hNull : s.swapchain.swapchain = VK_NULL_HANDLE := by
      by_contra hNot
      exact hClean.opens hNot exit t hRun
    have hFails : (do if ← openSwapchain s.swapchain.swapchain then fillSwapchain) s.cleared =
        .error exit t :=
      bind_of_error hRun
    have hExit : exit ≠ .returned .S_OK := fun hOk =>
      quiet_openSwapchain s.swapchain.swapchain s.cleared ⟨_, t, hRun, hOk⟩
    rw [hNull] at hOpened
    rcases resultOf_of_error hExit hFails with ⟨result, hFailed, hResult⟩ | ⟨_, hResult⟩
    · obtain ⟨u, hSettle, hOwnedAfter⟩ := owned_settle_failed hFailed hOpened
      rw [bind_of_ok hResult, hNull, hSettle]
      exact hOwnedAfter
    · rw [bind_of_error hResult]
      exact hOpened.owned
  | ok created t =>
    rw [hRun] at hOpened
    have hRest : resultOf (do if ← openSwapchain s.swapchain.swapchain then fillSwapchain) s.cleared =
        resultOf (if created then fillSwapchain else pure ()) t := by
      unfold resultOf
      rw [bind_of_ok hRun]
    cases created with
    | true =>
      obtain ⟨swapchain, hNew, hOwns⟩ := hOpened
      obtain ⟨u, hFill⟩ := hClean.fills t hRun
      rw [if_pos rfl] at hRest
      rw [bind_of_ok (hRest.trans hFill)]
      have hKept : Keeps (Owns swapchain (insert swapchain (only s.swapchain.swapchain)))
          fillSwapchain :=
        fills_fillSwapchain
      have hFilled := hKept.finalState hOwns
      rw [finalState_of_resultOf hFill] at hFilled
      obtain ⟨v, hSettle, hOwnedAfter, hNull⟩ := owned_settle hNew hFilled
      rw [hSettle]
      exact ⟨hOwnedAfter, .inr hNull⟩
    | false =>
      obtain ⟨hSuspended, hOwns⟩ := hOpened
      rw [if_neg Bool.false_ne_true] at hRest
      rw [only_diff_self] at hOwns
      rw [bind_of_ok hRest]
      have hSettle : settleSwapchain s.swapchain.swapchain .S_OK t = .ok () t :=
        settleSwapchain_of_null hOwns.holds
      rw [hSettle]
      exact ⟨hOwns.owned, .inl hSuspended⟩

/-- `CreateSwapchain` makes the first swapchain. -/
theorem owned_createSwapchain :
    Hoare (fun s => Owned s ∧ CreatesCleanly s) createSwapchain (fun _ => Owned) Owned := by
  rintro s ⟨hOwned, hClean⟩
  have hOpen : Hoare (Owns s.swapchain.swapchain (only s.swapchain.swapchain)) _ _ _ :=
    hoare_openSwapchain fun hNot => absurd rfl hNot
  have hOpened := hOpen s hOwned
  rw [createSwapchain, createSwapchainInternal_eq_open]
  cases hRun : openSwapchain VK_NULL_HANDLE s with
  | error exit t =>
    rw [hRun] at hOpened
    rw [bind_of_error hRun]
    exact hOpened.owned
  | ok created t =>
    have hNull : s.swapchain.swapchain = VK_NULL_HANDLE := by
      by_contra hNot
      exact hClean hNot created t hRun
    rw [hRun, hNull] at hOpened
    rw [bind_of_ok hRun]
    cases created with
    | true =>
      obtain ⟨swapchain, -, hOwns⟩ := hOpened
      rw [insert_only_null (hOwns.live_after.ne_null swapchain (.inl rfl))] at hOwns
      have hKept : Keeps (Owns swapchain (only swapchain)) fillSwapchain := fills_fillSwapchain
      exact hKept.weaken (fun _ _ h => h.owned) (fun _ h => h.owned) t hOwns
    | false =>
      obtain ⟨-, hOwns⟩ := hOpened
      rw [only_diff_self] at hOwns
      exact hOwns.owned

/-- A new surface: the swapchain of the old one is destroyed. -/
theorem owned_renewSurface : Keeps Owned renewSurface := by
  unfold renewSurface
  refine Keeps.seq keeps_get fun _ => Keeps.seq (keeps_whenever fun _ => keeps_giveUp _) fun _ => ?_
  refine Keeps.seq (fun _ h => Indifferent.surfaceLossReason h) fun _ => ?_
  refine Keeps.seq (fun _ h => Aside.completed h) fun _ => ?_
  refine Keeps.seq (owned_destroySwapchain.weaken (fun _ _ h => h.owned) fun _ h => h.owned)
    fun _ => ?_
  refine Keeps.seq (hoare_crReturnHr keeps_createSurface) fun _ => ?_
  exact hoare_crReturnHr keeps_pickPhysicalDevice

/-- `RecreateSurface` with a clean recreation ends with a swapchain. -/
theorem owned_recreateSurface :
    Hoare (fun s => Owned s ∧ ∀ t, renewSurface s = .ok () t → RecreatesCleanly t) recreateSurface
      (fun _ s => Owned s ∧ Standing s) Owned := by
  rw [recreateSurface_eq]
  refine Hoare.bind (owned_renewSurface.strengthen fun s h => h.1).ran fun _ => ?_
  refine (hoare_crReturnHr_of_quiet quiet_recreateSwapchain owned_recreateSwapchain).strengthen ?_
  rintro t ⟨hOwned, s, ⟨-, hClean⟩, hRan⟩
  exact ⟨hOwned, hClean t hRan⟩

/-- After the loss of the surface is noted, the surface is recreated. -/
theorem owned_loseSurface (reason : String) :
    Hoare (fun s => Owned s ∧ ∀ t, renewSurface { s with surfaceLossReason := reason } = .ok () t →
        RecreatesCleanly t) (loseSurface reason)
      (fun _ s => Owned s ∧ Standing s) Owned := by
  refine Hoare.bind (Q := fun _ s => Owned s ∧ ∀ t, renewSurface s = .ok () t → RecreatesCleanly t)
    (fun s h => ⟨Indifferent.surfaceLossReason h.1, h.2⟩) fun _ => ?_
  exact hoare_crReturnHr_of_quiet quiet_recreateSurface owned_recreateSurface

end Owned

-- ---------------------------------------------------------------------------
-- `BeginFrame`
-- ---------------------------------------------------------------------------

/-- `BeginFrame` before it looks at the swapchain. -/
def approachFrame : Vk Unit := do
  enterFrame
  vkWaitForFences
  let completedValue ← vkGetSemaphoreCounterValue
  drainDeferred completedValue

/-- `PrepareFrame` in two halves: up to the drain, and what a suspended swapchain needs. -/
theorem prepareFrame_eq : prepareFrame = (do
    approachFrame
    if (← get).swapchain.suspended then resumeFrame else return true) := by
  simp only [prepareFrame, approachFrame, bind_assoc]

/-- The states in which `BeginFrame` calls `RecreateSwapchain`. -/
inductive RecreatesIn (s : VulkanContext) : VulkanContext → Prop
  | pending {t : VulkanContext} (hDevice : s.deviceLost = false) (hPending : s.surfacePending = true)
      (hRenew : renewSurface s = .ok () t) : RecreatesIn s t
  | resumedLost {t u v : VulkanContext} {caps : Answer} (hApproach : approachFrame s = .ok () t)
      (hSuspended : t.swapchain.suspended = true)
      (hCaps : ask .vkGetPhysicalDeviceSurfaceCapabilitiesKHR t = .ok caps u)
      (hLost : caps.result = .surfaceLost)
      (hRenew : renewSurface
        { u with surfaceLossReason := "surface caps returned VK_ERROR_SURFACE_LOST_KHR" } =
          .ok () v) : RecreatesIn s v
  | resumed {t u : VulkanContext} {caps : Answer} (hApproach : approachFrame s = .ok () t)
      (hSuspended : t.swapchain.suspended = true)
      (hCaps : ask .vkGetPhysicalDeviceSurfaceCapabilitiesKHR t = .ok caps u)
      (hVisible : caps.result = .success ∧ caps.currentExtent.width ≠ 0 ∧
        caps.currentExtent.height ≠ 0) : RecreatesIn s u
  | outOfDate {t u : VulkanContext} {result : VkResult} (hPrepare : prepareFrame s = .ok true t)
      (hAcquire : vkAcquireNextImageKHR t = .ok result u)
      (hResult : result = .outOfDate ∨ result = .suboptimal) : RecreatesIn s u
  | surfaceLost {t u v : VulkanContext} (hPrepare : prepareFrame s = .ok true t)
      (hAcquire : acquireTwice t = .ok .surfaceLost u)
      (hRenew : renewSurface
        { u with surfaceLossReason := "acquire returned VK_ERROR_SURFACE_LOST_KHR" } = .ok () v) :
      RecreatesIn s v

/-- `BeginFrame` loses no swapchain, and does not acquire an image where there is none. -/
structure BeginsCleanly (s : VulkanContext) : Prop where
  recreates : ∀ t, RecreatesIn s t → RecreatesCleanly t
  standing : ∀ t, prepareFrame s = .ok true t → Standing s

section Begin

variable {s t : VulkanContext}

/-- The context holds a swapchain. -/
abbrev Shown : VulkanContext → Prop := fun t =>
  Owned t ∧ t.swapchain.swapchain ≠ VK_NULL_HANDLE

/-- There still is a swapchain if there was one at first. -/
def StillStanding (s t : VulkanContext) : Prop := Standing s → Standing t

instance : Indifferent (StillStanding s) where
  ask _ h := h
  surfaceFormat h := h
  surfaceLossReason h := h
  handles h := h
  deviceLost h := h

instance : Aside (StillStanding s) where
  answers h := h
  completed h := h
  deferred h := h
  destroyed h := h

/-- The context owns its swapchain, which is there if it was at first. -/
abbrev Resting (s : VulkanContext) : VulkanContext → Prop := fun t => Owned t ∧ StillStanding s t

/-- The device is not lost, and a pending surface is recreated first. -/
theorem resting_enterFrame (hOwned : Owned s) (hClean : ∀ t, RecreatesIn s t → RecreatesCleanly t) :
    Hoare (fun t => t = s) enterFrame (fun _ => Resting s) Owned := by
  intro start hStart
  rw [hStart]
  have hRun : enterFrame s = (do
      whenever s.deviceLost (giveUp .E_DEVICELOST)
      whenever s.surfacePending (crReturnHr recreateSurface)) s := rfl
  rw [hRun]
  cases hDevice : s.deviceLost with
  | true => exact hOwned
  | false =>
    have hGo : whenever (false = true) (giveUp .E_DEVICELOST) s = .ok () s := rfl
    rw [bind_of_ok hGo]
    cases hPending : s.surfacePending with
    | true =>
      have hRecreate := hoare_crReturnHr_of_quiet quiet_recreateSurface owned_recreateSurface
      exact hRecreate.weaken (fun _ _ h => ⟨h.1, fun _ => h.2⟩) (fun _ h => h) s
        ⟨hOwned, fun t hRenew => hClean t (.pending hDevice hPending hRenew)⟩
    | false => exact ⟨hOwned, id⟩

/-- Up to the drain the swapchain is touched by the recreation only. -/
theorem resting_approachFrame (hOwned : Owned s)
    (hClean : ∀ t, RecreatesIn s t → RecreatesCleanly t) :
    Hoare (fun t => t = s) approachFrame (fun _ => Resting s) Owned := by
  have hRest : Keeps (Resting s) (do
      vkWaitForFences
      let completedValue ← vkGetSemaphoreCounterValue
      drainDeferred completedValue) :=
    Keeps.seq keeps_vkWaitForFences fun _ => Keeps.seq keeps_vkGetSemaphoreCounterValue fun _ =>
      keeps_drainDeferred _
  refine Hoare.bind (resting_enterFrame hOwned hClean) fun _ => ?_
  exact hRest.weaken (fun _ _ h => h) fun _ h => h.1

/-- A swapchain that is not suspended is there. -/
theorem shown_of_visible (h : Owned t ∧ Standing t) (hVisible : t.swapchain.suspended = false) :
    Shown t := by
  refine ⟨h.1, h.2.resolve_left fun hSuspended => ?_⟩
  rw [hVisible] at hSuspended
  cases hSuspended

/-- A suspended swapchain is resumed when the window is seen again. -/
theorem shown_resumeFrame (hClean : ∀ t, RecreatesIn s t → RecreatesCleanly t) :
    Hoare (fun t => Owned t ∧ approachFrame s = .ok () t ∧ t.swapchain.suspended = true) resumeFrame
      (fun acquires t => Owned t ∧ (acquires = true → Shown t)) Owned := by
  have hVisible : Hoare (fun t => Owned t ∧ Standing t)
      (do return !(← get).swapchain.suspended : Vk Bool)
      (fun acquires t => Owned t ∧ (acquires = true → Shown t)) Owned := by
    intro t h
    refine ⟨h.1, fun hAcquires => shown_of_visible h ?_⟩
    simpa using hAcquires
  have hAsk : Hoare (fun t => Owned t ∧ approachFrame s = .ok () t ∧ t.swapchain.suspended = true)
      (ask .vkGetPhysicalDeviceSurfaceCapabilitiesKHR) (fun _ => Owned) Owned :=
    Hoare.strengthen (keeps_ask (by decide)) fun t h => h.1
  unfold resumeFrame
  refine Hoare.bind hAsk.ran fun caps => Hoare.ite (fun hLost => ?_) fun _ => ?_
  · refine Hoare.bind ((owned_loseSurface _).strengthen ?_) fun _ => hVisible
    rintro u ⟨hOwned, t, ⟨-, hApproach, hSuspended⟩, hCaps⟩
    exact ⟨hOwned, fun v hRenew => hClean v (.resumedLost hApproach hSuspended hCaps hLost hRenew)⟩
  · refine Hoare.ite (fun hSeen => ?_) fun _ => hoare_pure fun t h => ⟨h.1, nofun⟩
    refine Hoare.bind ((hoare_crReturnHr_of_quiet quiet_recreateSwapchain
      owned_recreateSwapchain).strengthen ?_) fun _ => hVisible
    rintro u ⟨hOwned, t, ⟨-, hApproach, hSuspended⟩, hCaps⟩
    exact ⟨hOwned, hClean u (.resumed hApproach hSuspended hCaps hSeen)⟩

/-- An image is acquired only where there is a swapchain. -/
theorem shown_prepareFrame (hOwned : Owned s) (hClean : BeginsCleanly s) :
    Hoare (fun t => t = s) prepareFrame
      (fun acquires t => Owned t ∧ (acquires = true → Standing s → Shown t)) Owned := by
  have hApproach := (resting_approachFrame hOwned hClean.recreates).ran
  rw [prepareFrame_eq]
  refine Hoare.bind hApproach fun _ => Hoare.bind (Q := fun start t => start = t ∧ Resting s t ∧
    approachFrame s = .ok () t) (hoare_get ?_) fun start =>
      Hoare.ite (fun hSuspended => ?_) fun hNot => ?_
  · rintro t ⟨hResting, _, rfl, hRan⟩
    exact ⟨rfl, hResting, hRan⟩
  · refine ((shown_resumeFrame hClean.recreates).strengthen ?_).weaken ?_ fun _ h => h
    · rintro t ⟨rfl, hResting, hRan⟩
      exact ⟨hResting.1, hRan, hSuspended⟩
    · exact fun acquires t h => ⟨h.1, fun hAcquires _ => h.2 hAcquires⟩
  · refine hoare_pure ?_
    rintro t ⟨rfl, hResting, -⟩
    refine ⟨hResting.1, fun _ hStanding => shown_of_visible ⟨hResting.1, hResting.2 hStanding⟩ ?_⟩
    exact eq_false_of_ne_true hNot

/-- An image is acquired from the swapchain of the context. -/
theorem shown_vkAcquireNextImageKHR : Keeps Shown vkAcquireNextImageKHR := by
  have hHeld : ∀ held ≠ VK_NULL_HANDLE, Keeps (Owns held (only held)) vkAcquireNextImageKHR := by
    intro held hNull
    refine keeps_acquire (fun t h => ?_) fun t _ h => ⟨h.holds, h.held_live, h.live_after⟩
    refine h.use rfl (by rw [h.holds]; exact h.held_live) fun _ _ hEvent => hNull ?_
    rw [← h.holds]
    exact (VkEvent.acquireNextImage.inj hEvent).1
  rintro t ⟨hOwned, hNull⟩
  have hHolds : ∀ u, Owns t.swapchain.swapchain (only t.swapchain.swapchain) u → Shown u := by
    intro u h
    refine ⟨h.owned, ?_⟩
    rw [h.holds]
    exact hNull
  exact (hHeld t.swapchain.swapchain hNull).weaken (fun _ => hHolds) hHolds t hOwned

/-- After a failed acquire the swapchain is recreated once. -/
theorem shown_acquireAgain {again : Prop} [Decidable again] {recreate : Vk Unit}
    {result : VkResult} {Q : VulkanContext → Prop}
    (hRecreate : again → Hoare (fun t => Owned t ∧ Q t) recreate
      (fun _ t => Owned t ∧ Standing t) Owned) :
    Hoare (fun t => Shown t ∧ Q t) (acquireAgain again recreate result) (fun _ => Shown) Owned := by
  have hVisible : Hoare (fun t => Owned t ∧ Standing t) returnIfSuspended (fun _ => Shown) Owned := by
    refine Hoare.bind (Q := fun start t => start = t ∧ Owned t ∧ Standing t)
      (hoare_get fun t h => ⟨rfl, h⟩) fun start => Hoare.ite (fun _ => ?_) fun hNot => ?_
    · exact hoare_throw fun t h => h.2.1
    · refine hoare_pure ?_
      rintro t ⟨rfl, h⟩
      exact shown_of_visible h (eq_false_of_ne_true hNot)
  unfold acquireAgain
  refine Hoare.ite (fun hNow => ?_) fun _ => hoare_pure fun t h => h.1
  refine Hoare.bind ((hRecreate hNow).strengthen fun t h => ⟨h.1.1, h.2⟩) fun _ => ?_
  exact Hoare.bind hVisible fun _ => shown_vkAcquireNextImageKHR.weaken (fun _ _ h => h) fun _ h => h.1

/-- `AcquireImage` ends with a swapchain. -/
theorem shown_acquireImage (hClean : BeginsCleanly s) :
    Hoare (fun t => Shown t ∧ prepareFrame s = .ok true t) acquireImage (fun _ => Shown) Owned := by
  have hFirst : Hoare (fun t => Shown t ∧ prepareFrame s = .ok true t) vkAcquireNextImageKHR
      (fun _ => Shown) Owned :=
    (shown_vkAcquireNextImageKHR.strengthen fun t h => h.1).weaken (fun _ _ h => h) fun _ h => h.1
  have hTwice : Hoare (fun t => Shown t ∧ prepareFrame s = .ok true t) acquireTwice
      (fun _ => Shown) Owned := by
    refine Hoare.bind hFirst.ran fun result => shown_acquireAgain fun hResult => ?_
    refine (hoare_crReturnHr_of_quiet quiet_recreateSwapchain owned_recreateSwapchain).strengthen ?_
    rintro u ⟨hOwned, t, ⟨-, hPrepare⟩, hAcquire⟩
    exact ⟨hOwned, hClean.recreates u (.outOfDate hPrepare hAcquire hResult)⟩
  unfold acquireImage
  refine Hoare.bind hTwice.ran fun result => Hoare.bind (shown_acquireAgain fun hLost => ?_) fun _ => ?_
  · refine (owned_loseSurface _).strengthen ?_
    rintro u ⟨hOwned, t, ⟨-, hPrepare⟩, hAcquire⟩
    subst hLost
    exact ⟨hOwned, fun v hRenew => hClean.recreates v (.surfaceLost hPrepare hAcquire hRenew)⟩
  · refine Hoare.bind (Q := fun _ => Shown) (Hoare.ite (fun _ => ?_) fun _ => hoare_pure fun t h => h)
      fun _ => Hoare.ite (fun _ => hoare_throw fun t h => h.1) fun _ => hoare_pure fun t h => h
    exact fun t h => Indifferent.deviceLost h.1

/-- `BeginFrame` keeps the swapchain, or replaces it. -/
theorem owned_beginFrame (hOwned : Owned s) (hClean : BeginsCleanly s) :
    Owned (finalState (beginFrame s)) := by
  have hArm : Hoare (fun t => t = s) armFrame (fun _ => Owned) Owned := by
    refine Hoare.bind (shown_prepareFrame hOwned hClean).ran fun acquires => ?_
    cases acquires with
    | true =>
      refine Hoare.bind ((shown_acquireImage hClean).strengthen ?_) fun _ => ?_
      · rintro t ⟨⟨-, hShown⟩, _, rfl, hPrepare⟩
        exact ⟨hShown rfl (hClean.standing t hPrepare), hPrepare⟩
      · exact (Keeps.seq unframed_vkResetFences fun _ => keeps_pure _).strengthen fun t h => h.1
    | false => exact hoare_pure fun t h => h.1.1
  rw [beginFrame_eq]
  have hBegin := Hoare.bind hArm fun _ => unframed_beginRecording
  exact hBegin.finalState rfl

end Begin

-- ---------------------------------------------------------------------------
-- Runs
-- ---------------------------------------------------------------------------

/-- The call loses no swapchain, and acquires no image where there is none. -/
def SwapchainCall.Clean (s : VulkanContext) : SwapchainCall → Prop
  | .createSwapchain answers => CreatesCleanly { s with answers }
  | .recreateSurface answers =>
    ∀ t, renewSurface { s with answers } = .ok () t → RecreatesCleanly t
  | .frame (.recreateSwapchain answers) => RecreatesCleanly { s with answers }
  | .frame (.beginFrame answers) => BeginsCleanly { s with answers }
  | _ => True

section Run

variable {s next : VulkanContext}

/-- `Present` keeps the swapchain, whatever it answers. -/
theorem owned_present : Keeps Owned present := by
  refine indifferent_present (fun s h => ?_) (fun s _ _ h => ⟨h.holds, h.held_live, h.live_after⟩)
    fun s h => ⟨h.holds, h.held_live, h.live_after⟩
  have hUse : Owns s.swapchain.swapchain (only s.swapchain.swapchain)
      { s with trace := s.trace ++ [.queuePresent s.swapchain.swapchain] } :=
    Owns.use h rfl h.held_live nofun
  exact hUse.owned

/-- A call keeps what its body keeps. -/
theorem owned_invoke {body : Vk Unit} {answers : Answers} (hOwned : Owned s)
    (hBody : Owned { s with answers } → Owned (finalState (body { s with answers })))
    (hRun : (invoke body answers s).map Prod.snd = some next) : Owned next := by
  obtain ⟨⟨result, t⟩, hInvoke, rfl⟩ := Option.map_eq_some_iff.mp hRun
  have hEnd := finalState_of_resultOf (invoke_eq_some_iff.mp hInvoke)
  rw [hEnd] at hBody
  exact hBody (Patient.answers hOwned)

/-- Each of the calls, when it is clean. -/
theorem owned_step {call : SwapchainCall} (hOwned : Owned s) (hClean : call.Clean s)
    (hStep : swapchainStep s call = some next) : Owned next := by
  cases call with
  | createSwapchain answers =>
    refine owned_invoke hOwned (fun h => ?_) hStep
    exact owned_createSwapchain.finalState ⟨h, hClean⟩
  | recreateSurface answers =>
    refine owned_invoke hOwned (fun h => ?_) hStep
    have hRecreate := owned_recreateSurface.weaken (fun _ _ h => h.1) fun _ h => h
    exact hRecreate.finalState ⟨h, hClean⟩
  | destroySwapchain =>
    exact owned_invoke hOwned (fun h => (owned_destroySwapchain.finalState h).owned) hStep
  | frame call =>
    cases call with
    | beginFrame answers => exact owned_invoke hOwned (fun h => owned_beginFrame h hClean) hStep
    | endFrame answers => exact owned_invoke hOwned unframed_endFrame.finalState hStep
    | present answers => exact owned_invoke hOwned owned_present.finalState hStep
    | updateBuffer buffer offset size data answers =>
      refine owned_invoke hOwned (fun h => ?_) hStep
      exact ((keeps_updateBuffer buffer offset size data).seq fun _ => keeps_pure ()).finalState h
    | retire entry => exact owned_invoke hOwned (keeps_recordAndRetire entry).finalState hStep
    | recreateSwapchain answers =>
      refine owned_invoke hOwned (fun h => ?_) hStep
      have hRecreate := owned_recreateSwapchain.weaken (fun _ _ h => h.1) fun _ h => h
      exact hRecreate.finalState ⟨h, hClean⟩
    | complete =>
      obtain ⟨⟨result, t⟩, hPerform, rfl⟩ := Option.map_eq_some_iff.mp hStep
      obtain ⟨-, rfl⟩ := perform_complete hPerform
      exact Aside.completed hOwned

/-- `DestroySwapchain` leaves no swapchain. -/
theorem destroyed_of_destroySwapchain (hOwned : Owned s)
    (hStep : swapchainStep s .destroySwapchain = some next) (swapchain : Handle)
    (hCreated : .creates swapchain ∈ swapchainHistory next.trace) :
    (swapchainHistory next.trace).count (.destroys swapchain) = 1 := by
  obtain ⟨⟨result, t⟩, hInvoke, rfl⟩ := Option.map_eq_some_iff.mp hStep
  have hEnd := finalState_of_resultOf (invoke_eq_some_iff.mp hInvoke)
  have hNone : Owned { s with answers := fun _ => [] } := Patient.answers hOwned
  have hEmpty := owned_destroySwapchain.finalState hNone
  rw [hEnd] at hEmpty
  refine hEmpty.live_after.ledger.ended swapchain hCreated fun hLive => ?_
  rw [only_null] at hLive
  exact hLive

/-- In every run whose calls are clean, the handles are kept. -/
theorem keepsHandles_of_clean (windowless : Bool) (mode : VkExtent2D) (depthFormats : List VkFormat)
    {calls : List SwapchainCall}
    (hClean : ∀ before call after s, calls = before ++ call :: after →
      runEvents swapchainStep { windowless, mode, depthFormats } before = some s → call.Clean s) :
    KeepsHandles { windowless, mode, depthFormats } calls := by
  have hFirst : Owned { windowless, mode, depthFormats } := by
    refine ⟨rfl, fun hNot => absurd rfl hNot, ?_⟩
    rw [only_null]
    exact LiveAfter.nil 0
  have hAlong : ∀ before after, calls = before ++ after → ∀ s,
      runEvents swapchainStep { windowless, mode, depthFormats } before = some s → Owned s := by
    refine invariant_along hFirst fun before call after s next hSplit hRun hStep hOwned => ?_
    exact owned_step hOwned (hClean before call after s hSplit hRun) hStep
  refine ⟨fun before after hSplit s hRun => ?_, fun before after hSplit s hRun => ?_,
    fun before after hSplit s hRun swapchain hCreated => ?_⟩
  · exact (hAlong before after hSplit s hRun).live_after.ledger.touched
  · exact (hAlong before after hSplit s hRun).live_after.acquired
  · obtain ⟨mid, hBefore, hLast⟩ := runEvents_append_eq_some.mp hRun
    obtain ⟨next, hStep, hEnd⟩ := runEvents_cons_eq_some.mp hLast
    cases hEnd
    have hOwned := hAlong before (.destroySwapchain :: after) hSplit mid hBefore
    exact destroyed_of_destroySwapchain hOwned hStep swapchain hCreated

/-- A swapchain is created, recreated and destroyed. -/
theorem keepsHandles_recreated :
    KeepsHandles { windowless := false, mode := ⟨640, 480⟩, depthFormats := [.VK_FORMAT_D32_SFLOAT] }
      [.createSwapchain fun _ => [], .frame (.recreateSwapchain fun _ => []), .destroySwapchain] := by
  have hSecond : (runEvents swapchainStep
      { windowless := false, mode := ⟨640, 480⟩, depthFormats := [.VK_FORMAT_D32_SFLOAT] }
      [.createSwapchain fun _ => []]).any fun s => Returns (fun opened t =>
        opened = true ∧ Returns (fun result _ => result = .S_OK) (resultOf fillSwapchain) t)
        (openSwapchain s.swapchain.swapchain)
        (VulkanContext.cleared { s with answers := fun _ => [] }) := by
    decide +kernel
  refine keepsHandles_of_clean false _ _ fun before call after s hSplit hRun => ?_
  cases before with
  | nil =>
    cases hSplit
    cases hRun
    exact fun hNot => absurd rfl hNot
  | cons first before =>
    cases before with
    | nil =>
      cases hSplit
      rw [hRun, Option.any_some] at hSecond
      obtain ⟨_, t, hOpen, rfl, _, u, hFill, rfl⟩ := of_decide_eq_true hSecond
      refine ⟨fun _ exit t' hError => ?_, fun t' hOpen' => ?_⟩
      · cases hOpen.symm.trans hError
      · cases hOpen.symm.trans hOpen'
        exact ⟨u, hFill⟩
    | cons second before =>
      cases before with
      | nil =>
        cases hSplit
        trivial
      | cons third before => simp at hSplit

/-- The surface is lost for good when the swapchain is recreated. -/
def lostAnswers : Answers
  | .vkGetPhysicalDeviceSurfaceCapabilitiesKHR => [{ result := .surfaceLost }]
  | _ => []

/-- The swapchain of the context is forgotten, and nobody destroys it. -/
theorem not_keepsHandles_lost :
    ¬KeepsHandles
      { windowless := false, mode := ⟨640, 480⟩, depthFormats := [.VK_FORMAT_D32_SFLOAT] }
      [.createSwapchain fun _ => [], .frame (.recreateSwapchain lostAnswers), .destroySwapchain] := by
  intro hAll
  have hRun : (runEvents swapchainStep
      { windowless := false, mode := ⟨640, 480⟩, depthFormats := [.VK_FORMAT_D32_SFLOAT] }
      [.createSwapchain fun _ => [], .frame (.recreateSwapchain lostAnswers), .destroySwapchain]).any
      fun s => .creates 1 ∈ swapchainHistory s.trace ∧
        (swapchainHistory s.trace).count (.destroys 1) = 0 := by
    decide +kernel
  obtain ⟨s, hRun, hLeft⟩ := (Option.any_eq_true _ _).mp hRun
  obtain ⟨hCreated, hNever⟩ := of_decide_eq_true hLeft
  have hOnce := hAll.destroyed
    [.createSwapchain fun _ => [], .frame (.recreateSwapchain lostAnswers)] [] rfl s hRun 1 hCreated
  rw [hNever] at hOnce
  cases hOnce

end Run

end Ithax.Vulkan
