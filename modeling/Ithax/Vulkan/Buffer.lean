import Ithax.Lib.Truncated
import Ithax.Vulkan.BeginFrame
import Ithax.Vulkan.PixelFormat

/-!
# Buffers

`trinityal-vulkan/Tr2BufferALVulkan.cpp` beside `UpdateBuffer`. The size of a buffer has 64
bits; offsets, sizes and their sum have 32, and so has the size that `Create` hands on to
`UpdateBuffer`.

## Results

* `accepts_updateBuffer_iff`, `accepts_mapForReading_iff` — the ranges that are accepted.
* `create_iff`               — when `Create` with data gets to its end, and what it writes.
* `rangesExact_iff`          — when the ranges of a buffer are checked exactly.
* `wrapped_range_accepted`, `truncated_upload` — a range and a buffer that go wrong.
-/

namespace Ithax.Vulkan

open Ithax.Lib

-- ---------------------------------------------------------------------------
-- Descriptions
-- ---------------------------------------------------------------------------

/-- The flags of `Tr2CpuUsage` that matter for the memory. -/
structure Tr2CpuUsage where
  read : Bool
  write : Bool
  deriving DecidableEq, Repr

inductive VkMemoryProperty where
  | VK_MEMORY_PROPERTY_DEVICE_LOCAL_BIT | VK_MEMORY_PROPERTY_HOST_VISIBLE_BIT
  | VK_MEMORY_PROPERTY_HOST_COHERENT_BIT | VK_MEMORY_PROPERTY_HOST_CACHED_BIT
  deriving DecidableEq, Repr

def convertCpuUsageToMemoryFlags (usage : Tr2CpuUsage) : List VkMemoryProperty :=
  if usage.read then
    [.VK_MEMORY_PROPERTY_HOST_VISIBLE_BIT, .VK_MEMORY_PROPERTY_HOST_CACHED_BIT]
  else if usage.write then
    [.VK_MEMORY_PROPERTY_HOST_VISIBLE_BIT, .VK_MEMORY_PROPERTY_HOST_COHERENT_BIT]
  else [.VK_MEMORY_PROPERTY_DEVICE_LOCAL_BIT]

structure Tr2BufferDescriptionAL where
  format : PixelFormat := .PIXEL_FORMAT_UNKNOWN
  stride : UInt32
  count : UInt32
  cpuUsage : Tr2CpuUsage
  deriving DecidableEq, Repr

namespace Tr2BufferDescriptionAL

/-- The stride that `Create` takes, where `getBytesPerPixel` is the function of `ImageIO`. -/
def effectiveStride (getBytesPerPixel : PixelFormat → UInt32) (desc : Tr2BufferDescriptionAL) :
    UInt32 :=
  if desc.format ≠ .PIXEL_FORMAT_UNKNOWN then getBytesPerPixel desc.format else desc.stride

/-- The size that is described. -/
def bytes (getBytesPerPixel : PixelFormat → UInt32) (desc : Tr2BufferDescriptionAL) : Nat :=
  (desc.effectiveStride getBytesPerPixel).toNat * desc.count.toNat

/-- What `Create` makes the members of the buffer. -/
def toBuffer (getBytesPerPixel : PixelFormat → UInt32) (desc : Tr2BufferDescriptionAL) :
    Tr2BufferAL where
  sizeBytes := (desc.effectiveStride getBytesPerPixel).toUInt64 * desc.count.toUInt64
  hostVisible :=
    .VK_MEMORY_PROPERTY_HOST_VISIBLE_BIT ∈ convertCpuUsageToMemoryFlags desc.cpuUsage

theorem toNat_sizeBytes (getBytesPerPixel : PixelFormat → UInt32) (desc : Tr2BufferDescriptionAL) :
    (desc.toBuffer getBytesPerPixel).sizeBytes.toNat = desc.bytes getBytesPerPixel :=
  toNat_mul_toUInt64 _ _

end Tr2BufferDescriptionAL

-- ---------------------------------------------------------------------------
-- The functions
-- ---------------------------------------------------------------------------

namespace Tr2BufferAL

/-- `Create`, with whether `initialData` is not null, and what it has written of that. A
buffer that cannot be written is destroyed again. -/
def create (getBytesPerPixel : PixelFormat → UInt32) (desc : Tr2BufferDescriptionAL)
    (initialData : Bool) : Vk (Tr2BufferAL × Option BufferWrite) := do
  let buffer := desc.toBuffer getBytesPerPixel
  whenever ((← ask .vmaCreateBuffer).result ≠ .success) (giveUp .E_OUTOFMEMORY)
  let _ ← newHandle
  if initialData then
    let write ← updateBuffer buffer 0 buffer.sizeBytes.toUInt32 true
    return (buffer, some write)
  else return (buffer, none)

/-- The buffer is mapped unless it is so already. -/
def map (buffer : Tr2BufferAL) : Vk Tr2BufferAL :=
  if buffer.isMapped then pure buffer
  else do
    whenever ((← ask .vmaMapMemory).result ≠ .success) (giveUp .E_FAIL)
    return { buffer with isMapped := true }

/-- `MapForReading`, with where the data begins in the mapped memory. -/
def mapForReading (buffer : Tr2BufferAL) (offset size : UInt32) : Vk (UInt32 × Tr2BufferAL) := do
  whenever ((offset + size).toUInt64 > buffer.sizeBytes) (giveUp .E_INVALIDARG)
  let buffer ← buffer.map
  return (offset, buffer)

/-- `MapForReading` without a range. -/
def mapAllForReading (buffer : Tr2BufferAL) : Vk (UInt32 × Tr2BufferAL) :=
  buffer.mapForReading 0 buffer.sizeBytes.toUInt32

def mapForWriting (buffer : Tr2BufferAL) : Vk Tr2BufferAL := buffer.map

/-- `UnmapForReading` and `UnmapForWriting`. -/
def unmap (buffer : Tr2BufferAL) : Tr2BufferAL := { buffer with isMapped := false }

end Tr2BufferAL

/-- All of a buffer of the size has been given the bytes of the data. -/
structure BufferWrite.IsWhole (write : BufferWrite) (bytes : Nat) : Prop where
  offset : write.offset = 0
  size : write.size.toNat = bytes
  filled : write.filled = true

-- ---------------------------------------------------------------------------
-- Accepted ranges
-- ---------------------------------------------------------------------------

/-- A function does not end with `E_INVALIDARG`. -/
def Accepts {α : Type} (m : Vk α) (s : VulkanContext) : Prop :=
  ¬Throws (fun exit => exit = .returned .E_INVALIDARG) m s

/-- A function that has nothing to say against its arguments. -/
abbrev AcceptsAll {α : Type} (m : Vk α) : Prop :=
  NeverThrows (fun exit => exit = .returned .E_INVALIDARG) m

section Acceptance

variable {α : Type} {m : Vk Unit} {buffer : Tr2BufferAL} {offset size : UInt32}
  {s : VulkanContext}

/-- Arguments that are checked once. -/
theorem accepts_checked_iff {c : Prop} [Decidable c] {rest : Vk α} (hRest : AcceptsAll rest) :
    Accepts (do whenever c (giveUp .E_INVALIDARG); rest) s ↔ ¬c := by
  unfold Accepts whenever
  by_cases hc : c
  · have hRefused : (giveUp .E_INVALIDARG : Vk Unit) s = .error (.returned .E_INVALIDARG) s := rfl
    rw [if_pos hc, throws_bind_of_error hRefused]
    simp [hc]
  · have hPassed : (pure () : Vk Unit) s = .ok () s := rfl
    rw [if_neg hc, throws_bind_of_ok hPassed]
    simp [hc, hRest s]

theorem acceptsAll_giveUp {result : ALResult} (h : result ≠ .E_INVALIDARG) :
    AcceptsAll (giveUp result : Vk α) :=
  neverThrows_throw fun hSame => h (Exit.returned.inj hSame)

theorem acceptsAll_whenever {c : Prop} [Decidable c] (h : AcceptsAll m) :
    AcceptsAll (whenever c m) :=
  h.ite (neverThrows_pure ())

theorem acceptsAll_ask (function : VkFunction) : AcceptsAll (ask function) :=
  neverThrows_of_ok fun s => ⟨_, _, ask_run function s⟩

theorem acceptsAll_recordAndRetire (entry : VulkanDeferredDestroy) :
    AcceptsAll (recordAndRetire entry) := by
  have hCmd : AcceptsAll vkCmd := by
    refine neverThrows_get.bind fun start => ?_
    cases start.frame.commandBuffer with
    | recording recording => exact neverThrows_pure _
    | _ => exact neverThrows_throw (by simp)
  unfold recordAndRetire retire
  refine hCmd.bind fun recording => ?_
  refine (neverThrows_get.bind fun _ => neverThrows_pure _).bind fun value => ?_
  refine neverThrows_get.bind fun start => (acceptsAll_whenever ?_).bind fun _ => ?_
  · exact (neverThrows_modify _).bind fun _ => neverThrows_modify _
  · exact neverThrows_modify _

theorem accepts_updateBuffer_iff :
    Accepts (updateBuffer buffer offset size true) s ↔
      (offset + size).toUInt64 ≤ buffer.sizeBytes := by
  unfold updateBuffer
  rw [accepts_checked_iff]
  · simp
  · refine NeverThrows.ite ?_ ?_
    · refine (acceptsAll_ask _).bind fun _ => ?_
      refine (acceptsAll_whenever (acceptsAll_giveUp (by decide))).bind fun _ => ?_
      exact neverThrows_pure _
    · refine (acceptsAll_ask _).bind fun _ => ?_
      refine (acceptsAll_whenever (acceptsAll_giveUp (by decide))).bind fun _ => ?_
      refine NeverThrows.bind (neverThrows_of_ok fun s => ⟨_, _, rfl⟩) fun handle => ?_
      refine (acceptsAll_ask _).bind fun _ => (acceptsAll_recordAndRetire _).bind fun _ => ?_
      exact neverThrows_pure _

theorem accepts_mapForReading_iff :
    Accepts (buffer.mapForReading offset size) s ↔
      (offset + size).toUInt64 ≤ buffer.sizeBytes := by
  unfold Tr2BufferAL.mapForReading Tr2BufferAL.map
  rw [accepts_checked_iff]
  · simp
  · refine NeverThrows.bind (NeverThrows.ite (neverThrows_pure _) ?_) fun _ => neverThrows_pure _
    refine (acceptsAll_ask _).bind fun _ => ?_
    refine (acceptsAll_whenever (acceptsAll_giveUp (by decide))).bind fun _ => ?_
    exact neverThrows_pure _

/-- The low half of the size of a buffer is never too much for it. -/
theorem truncated_fits (buffer : Tr2BufferAL) :
    (0 + buffer.sizeBytes.toUInt32).toUInt64 ≤ buffer.sizeBytes := by
  rw [UInt32.zero_add, UInt64.le_iff_toNat_le, UInt32.toNat_toUInt64, UInt64.toNat_toUInt32]
  exact Nat.mod_le _ _

theorem accepts_mapAllForReading (buffer : Tr2BufferAL) (s : VulkanContext) :
    Accepts buffer.mapAllForReading s :=
  accepts_mapForReading_iff.mpr (truncated_fits buffer)

end Acceptance

-- ---------------------------------------------------------------------------
-- Writing
-- ---------------------------------------------------------------------------

/-- The context after a function has been asked. -/
def VulkanContext.asked (s : VulkanContext) (function : VkFunction) : VulkanContext :=
  { s with answers := Function.update s.answers function (s.answers function).tail }

/-- Nothing but its range keeps `UpdateBuffer` from its end. -/
def Tr2BufferAL.Writes (buffer : Tr2BufferAL) (s : VulkanContext) : Prop :=
  if buffer.hostVisible then (s.next .vmaMapMemory).result = .success
  else (s.next .vmaCreateBuffer).result = .success ∧ s.IsRecording

/-- Nothing keeps `Create` with data from its end. -/
def Tr2BufferDescriptionAL.Creates (getBytesPerPixel : PixelFormat → UInt32)
    (desc : Tr2BufferDescriptionAL) (s : VulkanContext) : Prop :=
  (s.next .vmaCreateBuffer).result = .success ∧
    (desc.toBuffer getBytesPerPixel).Writes (s.asked .vmaCreateBuffer)

section Writing

variable {buffer : Tr2BufferAL} {offset size : UInt32} {write : BufferWrite}
  {getBytesPerPixel : PixelFormat → UInt32} {desc : Tr2BufferDescriptionAL} {s s' : VulkanContext}

theorem recordAndRetire_of_recording (entry : VulkanDeferredDestroy) (h : s.IsRecording) :
    ∃ s', recordAndRetire entry s = .ok () s' := by
  obtain ⟨recording, hBuffer⟩ := h
  have hCmd : vkCmd s = .ok recording s := by
    unfold vkCmd
    rw [bind_of_ok (get_run s), hBuffer]
    rfl
  have hRetire : ∀ entry, ∃ s', retire entry recording s = .ok () s' := by
    intro entry
    unfold retire
    rw [bind_of_ok (get_run s)]
    by_cases hFull : s.deferred.length ≥ MAX_DEFERRED_ENTRIES
    · rw [whenever, if_pos hFull]
      exact ⟨_, rfl⟩
    · rw [whenever, if_neg hFull]
      exact ⟨_, rfl⟩
  unfold recordAndRetire
  rw [bind_of_ok hCmd]
  exact hRetire _

theorem recording_of_recordAndRetire {entry : VulkanDeferredDestroy}
    (h : recordAndRetire entry s = .ok () s') : s.IsRecording := by
  obtain ⟨recording, t, hCmd, -⟩ := bind_eq_ok_iff.mp h
  unfold vkCmd at hCmd
  rw [bind_of_ok (get_run s)] at hCmd
  cases hBuffer : s.frame.commandBuffer with
  | recording recording => exact ⟨recording, hBuffer⟩
  | _ =>
    rw [hBuffer] at hCmd
    cases hCmd

/-- A function that has to succeed for what follows. -/
theorem checked_eq_ok_iff {α : Type} {function : VkFunction} {result : ALResult} {rest : Vk α}
    {a : α} :
    (do
      let answer ← ask function
      whenever (answer.result ≠ .success) (giveUp result)
      rest : Vk α) s = .ok a s' ↔
      (s.next function).result = .success ∧ rest (s.asked function) = .ok a s' := by
  rw [bind_of_ok (ask_run function s)]
  by_cases hOk : (s.next function).result = .success
  · rw [whenever, if_neg (not_not.mpr hOk)]
    exact ⟨fun h => ⟨hOk, h⟩, fun h => h.2⟩
  · rw [whenever, if_pos hOk]
    constructor
    · intro h
      cases h
    · intro h
      exact absurd h.1 hOk

/-- `UpdateBuffer` of a range that is accepted. -/
theorem updateBuffer_iff (hAccepted : (offset + size).toUInt64 ≤ buffer.sizeBytes) :
    (∃ s', updateBuffer buffer offset size true s = .ok write s') ↔ buffer.Writes s ∧
      write = { offset, size, filled := (s.next .vmaMapMemory).result = .success } := by
  have hPassed : (whenever (¬true ∨ (offset + size).toUInt64 > buffer.sizeBytes)
      (giveUp .E_INVALIDARG) : Vk Unit) s = .ok () s := by
    rw [whenever, if_neg (by simpa using hAccepted)]
    rfl
  unfold updateBuffer Tr2BufferAL.Writes
  rw [bind_of_ok hPassed]
  by_cases hVisible : buffer.hostVisible = true
  · simp only [if_pos hVisible, checked_eq_ok_iff, exists_and_left]
    refine and_congr_right fun hMapped => ?_
    rw [decide_eq_true hMapped]
    constructor
    · rintro ⟨t, hSame⟩
      cases hSame
      rfl
    · rintro rfl
      exact ⟨_, rfl⟩
  · simp only [if_neg hVisible, checked_eq_ok_iff, exists_and_left, and_assoc]
    refine and_congr_right fun _ => ?_
    let handles := s.handles + 1
    let made : VulkanContext := { s.asked .vmaCreateBuffer with handles }
    have hHandle : newHandle (s.asked .vmaCreateBuffer) = .ok handles made := rfl
    rw [bind_of_ok hHandle, bind_of_ok (ask_run .vmaMapMemory made)]
    constructor
    · rintro ⟨t, hRest⟩
      obtain ⟨u, v, hRetire, hSame⟩ := bind_eq_ok_iff.mp hRest
      cases hSame
      have hRecording : (made.asked .vmaMapMemory).IsRecording :=
        recording_of_recordAndRetire hRetire
      exact ⟨hRecording, rfl⟩
    · rintro ⟨hRecording, rfl⟩
      have hStill : (made.asked .vmaMapMemory).IsRecording := hRecording
      obtain ⟨t, hRetire⟩ := recordAndRetire_of_recording { buffer := handles } hStill
      exact ⟨t, bind_of_ok hRetire⟩

/-- `Create` with data gets to its end where nothing keeps it from that, and hands on the low
half of the size. -/
theorem create_iff {created : Tr2BufferAL} :
    (∃ s', Tr2BufferAL.create getBytesPerPixel desc true s = .ok (created, some write) s') ↔
      desc.Creates getBytesPerPixel s ∧ created = desc.toBuffer getBytesPerPixel ∧
        write = { offset := 0, size := created.sizeBytes.toUInt32,
                  filled := (s.next .vmaMapMemory).result = .success } := by
  let buffer := desc.toBuffer getBytesPerPixel
  let handles := s.handles + 1
  let made : VulkanContext := { s.asked .vmaCreateBuffer with handles }
  have hHandle : newHandle (s.asked .vmaCreateBuffer) = .ok handles made := rfl
  have hUpdate : ∀ {write}, (∃ s', updateBuffer buffer 0 buffer.sizeBytes.toUInt32 true made =
      .ok write s') ↔ _ := updateBuffer_iff (truncated_fits buffer)
  unfold Tr2BufferAL.create Tr2BufferDescriptionAL.Creates
  simp only [checked_eq_ok_iff, exists_and_left, and_assoc]
  refine and_congr_right fun _ => ?_
  rw [bind_of_ok hHandle]
  constructor
  · rintro ⟨t, hRest⟩
    obtain ⟨w, u, hWrite, hSame⟩ := bind_eq_ok_iff.mp hRest
    cases hSame
    obtain ⟨hWrites, rfl⟩ := hUpdate.mp ⟨t, hWrite⟩
    exact ⟨hWrites, rfl, rfl⟩
  · rintro ⟨hWrites, rfl, rfl⟩
    obtain ⟨t, hWrite⟩ := hUpdate.mpr ⟨hWrites, rfl⟩
    exact ⟨t, bind_of_ok hWrite⟩

end Writing

-- ---------------------------------------------------------------------------
-- Exact ranges
-- ---------------------------------------------------------------------------

/-- A buffer that was created with the description takes a range if it has it, and if its
creation had data, that was written to all of it. -/
structure RangesExact (getBytesPerPixel : PixelFormat → UInt32) (desc : Tr2BufferDescriptionAL)
    (isMapped : Bool) (offset size : UInt32) (s : VulkanContext) : Prop where
  updates : Accepts (updateBuffer { desc.toBuffer getBytesPerPixel with isMapped } offset size
      true) s ↔ offset.toNat + size.toNat ≤ desc.bytes getBytesPerPixel
  maps : Accepts (Tr2BufferAL.mapForReading { desc.toBuffer getBytesPerPixel with isMapped }
      offset size) s ↔ offset.toNat + size.toNat ≤ desc.bytes getBytesPerPixel
  uploads : ∀ created write s',
    Tr2BufferAL.create getBytesPerPixel desc true s = .ok (created, some write) s' →
    write.IsWhole (desc.bytes getBytesPerPixel)

/-- The sum of the two does not wrap, or the range is in the buffer all the same, or what the
sum wraps to is too much as well. -/
def SumHarmless (bytes : Nat) (offset size : UInt32) : Prop :=
  offset.toNat + size.toNat < 2 ^ 32 ∨ offset.toNat + size.toNat ≤ bytes ∨
    bytes < offset.toNat + size.toNat - 2 ^ 32

theorem rangesExact_iff (getBytesPerPixel : PixelFormat → UInt32) (desc : Tr2BufferDescriptionAL)
    (isMapped : Bool) (offset size : UInt32) (s : VulkanContext) :
    RangesExact getBytesPerPixel desc isMapped offset size s ↔
      SumHarmless (desc.bytes getBytesPerPixel) offset size ∧
      (desc.Creates getBytesPerPixel s → desc.bytes getBytesPerPixel < 2 ^ 32 ∧
        (s.next .vmaMapMemory).result = .success) := by
  have hChecks := truncated_check_iff offset size (desc.toBuffer getBytesPerPixel).sizeBytes
  have hLow := truncated_iff (desc.toBuffer getBytesPerPixel).sizeBytes
  rw [desc.toNat_sizeBytes] at hChecks hLow
  constructor
  · intro h
    refine ⟨hChecks.mp (accepts_updateBuffer_iff.symm.trans h.updates), fun hCreates => ?_⟩
    obtain ⟨s', hRun⟩ := create_iff.mpr ⟨hCreates, rfl, rfl⟩
    have hWhole := h.uploads _ _ s' hRun
    exact ⟨hLow.mp hWhole.size, of_decide_eq_true hWhole.filled⟩
  · rintro ⟨hSum, hUpload⟩
    refine ⟨accepts_updateBuffer_iff.trans (hChecks.mpr hSum),
      accepts_mapForReading_iff.trans (hChecks.mpr hSum), fun created write s' hRun => ?_⟩
    obtain ⟨hCreates, rfl, rfl⟩ := create_iff.mp ⟨s', hRun⟩
    obtain ⟨hSize, hMapped⟩ := hUpload hCreates
    exact ⟨rfl, hLow.mpr hSize, decide_eq_true hMapped⟩

/-- A buffer of 16 bytes that the host can write takes two bytes at 0xffffffff. -/
theorem wrapped_range_accepted :
    let desc : Tr2BufferDescriptionAL := { stride := 4, count := 4, cpuUsage := ⟨false, true⟩ }
    Accepts (updateBuffer (desc.toBuffer fun _ => 0) 0xffffffff 2 true) inFrame ∧
    Accepts (Tr2BufferAL.mapForReading (desc.toBuffer fun _ => 0) 0xffffffff 2) inFrame ∧
    ¬0xffffffff + 2 ≤ desc.bytes fun _ => 0 :=
  ⟨accepts_updateBuffer_iff.mpr (by decide), accepts_mapForReading_iff.mpr (by decide), by decide⟩

/-- Nothing is written to a buffer of 2 ^ 32 bytes. -/
theorem truncated_upload :
    let desc : Tr2BufferDescriptionAL :=
      { stride := 65536, count := 65536, cpuUsage := ⟨false, true⟩ }
    ∃ created write s', Tr2BufferAL.create (fun _ => 0) desc true inFrame =
      .ok (created, some write) s' ∧ created.sizeBytes = 0x100000000 ∧ write.size = 0 := by
  intro desc
  obtain ⟨s', hRun⟩ := create_iff.mpr ⟨(⟨rfl, rfl⟩ : desc.Creates (fun _ => 0) inFrame), rfl, rfl⟩
  exact ⟨_, _, s', hRun, by decide, by decide⟩

end Ithax.Vulkan
