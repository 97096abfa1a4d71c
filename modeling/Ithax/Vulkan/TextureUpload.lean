import Mathlib.Algebra.Order.Floor.Div
import Ithax.Lib.PitchedRows
import Ithax.Vulkan.PixelFormat
import Ithax.Vulkan.BeginFrame

/-!
# Texture uploads

`CreateImage` and `UpdateSubresource` of `trinityal-vulkan/Tr2TextureALVulkan.cpp`.
`UpdateSubresource` goes through a staging buffer of `slicePitch * depth` bytes, and copies
`height` rows of `pitch` bytes for each slice: as many as the region has rows of texels. In a
compressed format these are four times the rows of blocks that the caller has laid out.

The getters of the region and the constructor of the whole region are not part of the
backend: a region comes with what they answer.

## Results

* `created_of_createImage`, `exists_createImage` — the formats that a texture can have.
* `contained_of_fits`        — where the rows fit the staging buffer, so does every copy.
* `upload_contained_iff`     — when every upload of a region stays in its staging buffer.
* `upload_overruns_bc1`      — an upload of blocks that does not.
-/

namespace Ithax.Vulkan

open Ithax.Lib Ithax.Lib.PitchedRows

-- ---------------------------------------------------------------------------
-- Textures
-- ---------------------------------------------------------------------------

inductive VkImageLayout where
  | VK_IMAGE_LAYOUT_UNDEFINED | VK_IMAGE_LAYOUT_TRANSFER_DST_OPTIMAL
  | other (code : Nat)
  deriving DecidableEq, Repr

inductive VkImageAspect where
  | VK_IMAGE_ASPECT_DEPTH_BIT | VK_IMAGE_ASPECT_COLOR_BIT
  deriving DecidableEq, Repr

def isDepthFormat (format : VkFormat) : Bool :=
  format ∈ [.VK_FORMAT_D16_UNORM, .VK_FORMAT_D16_UNORM_S8_UINT, .VK_FORMAT_D24_UNORM_S8_UINT,
    .VK_FORMAT_D32_SFLOAT, .VK_FORMAT_D32_SFLOAT_S8_UINT]

def getImageAspectFlags (format : VkFormat) : VkImageAspect :=
  if isDepthFormat format then .VK_IMAGE_ASPECT_DEPTH_BIT else .VK_IMAGE_ASPECT_COLOR_BIT

/-- A region with what its getters answer. -/
structure Tr2TextureSubresource where
  width : UInt32
  height : UInt32
  depth : UInt32
  startMipLevel : UInt32 := 0
  startFace : UInt32 := 0
  faceCount : UInt32 := 1
  left : UInt32 := 0
  top : UInt32 := 0
  front : UInt32 := 0
  deriving DecidableEq, Repr

structure VkBufferImageCopy where
  aspectMask : VkImageAspect
  mipLevel : UInt32
  baseArrayLayer : UInt32
  layerCount : UInt32
  imageOffset : Int32 × Int32 × Int32
  imageExtent : UInt32 × UInt32 × UInt32
  deriving DecidableEq

structure Tr2TextureAL where
  format : VkFormat
  layout : VkImageLayout := .VK_IMAGE_LAYOUT_UNDEFINED
  deriving DecidableEq, Repr

-- ---------------------------------------------------------------------------
-- UpdateSubresource
-- ---------------------------------------------------------------------------

/-- A `memcpy` of one row: where it reads from the start of the source and writes from the
start of the staging buffer, which is the same. -/
structure RowCopy where
  z : UInt32
  y : UInt32
  offset : Nat
  size : UInt32
  deriving DecidableEq, Repr

/-- The nested loop. The two products are of 32 bits; the pointers they are added to are not. -/
def rowCopies (height depth pitch slicePitch : UInt32) : List RowCopy :=
  (counters depth).flatMap fun z => (counters height).map fun y =>
    { z, y, offset := (z * slicePitch).toNat + (y * pitch).toNat, size := pitch }

/-- What an upload has done: the size of its staging buffer, the copies into that, and the
copy from there into the image. -/
structure Upload where
  stagingSize : UInt64
  copies : List RowCopy
  copyRegion : VkBufferImageCopy
  deriving DecidableEq

namespace Tr2TextureAL

/-- `UpdateSubresource`, with whether `source` is not null. -/
def updateSubresource (texture : Tr2TextureAL) (region : Tr2TextureSubresource) (source : Bool)
    (pitch slicePitch : UInt32) : Vk (Upload × Tr2TextureAL) := do
  whenever (¬source) (giveUp .E_INVALIDARG)
  let bufferSize := slicePitch.toUInt64 * region.depth.toUInt64
  whenever ((← ask .vmaCreateBuffer).result ≠ .success) (giveUp .E_OUTOFMEMORY)
  let stagingBuffer ← newHandle
  -- the copies are skipped when the memory cannot be mapped
  let copies :=
    if (← ask .vmaMapMemory).result = .success then
      rowCopies region.height region.depth pitch slicePitch
    else []
  let copyRegion : VkBufferImageCopy :=
    { aspectMask := getImageAspectFlags texture.format
      mipLevel := region.startMipLevel
      baseArrayLayer := region.startFace
      layerCount := region.faceCount
      imageOffset := (region.left.toInt32, region.top.toInt32, region.front.toInt32)
      imageExtent := (region.width, region.height, region.depth) }
  recordAndRetire { buffer := stagingBuffer }
  return ({ stagingSize := bufferSize, copies, copyRegion },
    { texture with layout := .VK_IMAGE_LAYOUT_TRANSFER_DST_OPTIMAL })

end Tr2TextureAL

-- ---------------------------------------------------------------------------
-- CreateImage
-- ---------------------------------------------------------------------------

/-- The format of the view that reads sRGB, where there is one. -/
def srgbFormat : VkFormat → VkFormat
  | .VK_FORMAT_R8G8B8A8_UNORM => .VK_FORMAT_R8G8B8A8_SRGB
  | .VK_FORMAT_B8G8R8A8_UNORM => .VK_FORMAT_B8G8R8A8_SRGB
  | .VK_FORMAT_BC1_RGBA_UNORM_BLOCK => .VK_FORMAT_BC1_RGBA_SRGB_BLOCK
  | .VK_FORMAT_BC2_UNORM_BLOCK => .VK_FORMAT_BC2_SRGB_BLOCK
  | .VK_FORMAT_BC3_UNORM_BLOCK => .VK_FORMAT_BC3_SRGB_BLOCK
  | .VK_FORMAT_BC7_UNORM_BLOCK => .VK_FORMAT_BC7_SRGB_BLOCK
  | format => format

/-- A view of an image. -/
def createView : Vk Unit := do
  whenever ((← ask .vkCreateImageView).result ≠ .success) (giveUp .E_FAIL)
  let _ ← newHandle

def createViews (format : VkFormat) (unorderedAccess : Bool) : Vk Unit := do
  createView
  whenever (srgbFormat format ≠ format) createView
  whenever unorderedAccess createView

structure Tr2SubresourceData where
  sysMem : Bool
  sysMemPitch : UInt32
  sysMemSlicePitch : UInt32
  deriving DecidableEq, Repr

/-- `CreateImage`, where the whole region is what `Tr2TextureSubresource( 0 )` is. An image
whose first contents cannot be uploaded is destroyed. -/
def createImage (format : PixelFormat) (unorderedAccess : Bool)
    (initialData : Option Tr2SubresourceData) (wholeRegion : Tr2TextureSubresource) :
    Vk Tr2TextureAL := do
  let texture : Tr2TextureAL := { format := convertPixelFormat format }
  whenever (texture.format = .VK_FORMAT_UNDEFINED) (giveUp .E_INVALIDARG)
  whenever ((← ask .vmaCreateImage).result ≠ .success) (giveUp .E_OUTOFMEMORY)
  let _ ← newHandle
  createViews texture.format unorderedAccess
  match initialData with
  | none => return texture
  | some data =>
    let (_, texture) ← texture.updateSubresource wholeRegion data.sysMem data.sysMemPitch
      data.sysMemSlicePitch
    return texture

/-- The texture has been made with the format. -/
structure Tr2TextureAL.Created (texture : Tr2TextureAL) (format : PixelFormat) : Prop where
  supported : format.Supported
  converted : texture.format = convertPixelFormat format

-- ---------------------------------------------------------------------------
-- Layouts
-- ---------------------------------------------------------------------------

/-- The source is laid out for the blocks: a row of them fits the pitch, and all the rows of a
slice fit the slice pitch. -/
structure LaidOut (block : TexelBlock) (region : Tr2TextureSubresource)
    (pitch slicePitch : UInt32) : Prop where
  row : (region.width.toNat ⌈/⌉ block.width) * block.bytes ≤ pitch.toNat
  slice : pitch.toNat * (region.height.toNat ⌈/⌉ block.height) ≤ slicePitch.toNat

/-- A copy stays in the source, which has the size that the staging buffer is to have, and in
the staging buffer, and it is at the row that it is for. -/
structure RowCopy.Contained (copy : RowCopy) (upload : Upload) (region : Tr2TextureSubresource)
    (pitch slicePitch : UInt32) : Prop where
  reads : copy.offset + copy.size.toNat ≤ slicePitch.toNat * region.depth.toNat
  writes : copy.offset + copy.size.toNat ≤ upload.stagingSize.toNat
  exact : copy.offset = rowOffset pitch.toNat slicePitch.toNat copy.z.toNat copy.y.toNat

/-- Every upload of the region to a texture of the format stays in its buffers. -/
def UploadsContained (format : PixelFormat) (region : Tr2TextureSubresource)
    (pitch slicePitch : UInt32) : Prop :=
  ∀ (texture next : Tr2TextureAL) (upload : Upload) (s s' : VulkanContext),
    texture.Created format →
    texture.updateSubresource region true pitch slicePitch s = .ok (upload, next) s' →
    ∀ copy ∈ upload.copies, copy.Contained upload region pitch slicePitch

/-- The last slice begins below 2 ^ 32, and as many rows as there are texels below each other
fit a slice, which in a layout of single texels they do. -/
def Fits (block : TexelBlock) (region : Tr2TextureSubresource) (pitch slicePitch : UInt32) :
    Prop :=
  region.depth = 0 ∨ region.height = 0 ∨
    (region.depth.toNat - 1) * slicePitch.toNat < 2 ^ 32 ∧
      (block.height = 1 ∨ region.height.toNat * pitch.toNat ≤ slicePitch.toNat)

-- ---------------------------------------------------------------------------
-- What an upload does
-- ---------------------------------------------------------------------------

section Copies

variable {texture next : Tr2TextureAL} {region : Tr2TextureSubresource}
  {pitch slicePitch : UInt32} {upload : Upload} {s s' : VulkanContext}

theorem mem_rowCopies {height depth : UInt32} {copy : RowCopy} :
    copy ∈ rowCopies height depth pitch slicePitch ↔ ∃ z y, z < depth ∧ y < height ∧
      copy = { z, y, offset := (z * slicePitch).toNat + (y * pitch).toNat, size := pitch } := by
  unfold rowCopies
  simp only [List.mem_flatMap, List.mem_map, mem_counters]
  constructor
  · rintro ⟨z, hz, y, hy, rfl⟩
    exact ⟨z, y, hz, hy, rfl⟩
  · rintro ⟨z, y, hz, hy, rfl⟩
    exact ⟨z, hz, y, hy, rfl⟩

/-- An upload makes the copies of the loop or none. -/
theorem hoare_updateSubresource (texture : Tr2TextureAL) (region : Tr2TextureSubresource)
    (source : Bool) (pitch slicePitch : UInt32) : Hoare (fun _ => True)
    (texture.updateSubresource region source pitch slicePitch)
    (fun r _ => r.1.stagingSize = slicePitch.toUInt64 * region.depth.toUInt64 ∧
      (∀ copy ∈ r.1.copies, copy ∈ rowCopies region.height region.depth pitch slicePitch) ∧
      r.2.format = texture.format)
    (fun _ => True) := by
  unfold Tr2TextureAL.updateSubresource
  refine Hoare.bind (hoare_any _) fun _ => Hoare.bind (hoare_any _) fun _ => ?_
  refine Hoare.bind (hoare_any _) fun _ => Hoare.bind (hoare_any _) fun _ => ?_
  refine Hoare.bind (hoare_any _) fun mapped => Hoare.bind (hoare_any _) fun _ => ?_
  refine hoare_pure fun _ _ => ⟨rfl, fun copy hCopy => ?_, rfl⟩
  by_cases hMapped : mapped.result = .success
  · simpa only [if_pos hMapped] using hCopy
  · simp [if_neg hMapped] at hCopy

theorem updateSubresource_copies
    (h : texture.updateSubresource region true pitch slicePitch s = .ok (upload, next) s') :
    upload.stagingSize = slicePitch.toUInt64 * region.depth.toUInt64 ∧
      (∀ copy ∈ upload.copies, copy ∈ rowCopies region.height region.depth pitch slicePitch) ∧
      next.format = texture.format :=
  (hoare_updateSubresource texture region true pitch slicePitch).of_ok trivial h

/-- The upload of a region makes all the copies where nothing fails. -/
theorem updateSubresource_inFrame (texture : Tr2TextureAL) (region : Tr2TextureSubresource)
    (pitch slicePitch : UInt32) : ∃ upload next s',
    texture.updateSubresource region true pitch slicePitch inFrame = .ok (upload, next) s' ∧
      upload.copies = rowCopies region.height region.depth pitch slicePitch :=
  ⟨_, _, _, rfl, rfl⟩

end Copies

-- ---------------------------------------------------------------------------
-- The formats of textures
-- ---------------------------------------------------------------------------

section Creation

variable {format : PixelFormat} {unorderedAccess : Bool} {initialData : Option Tr2SubresourceData}
  {wholeRegion : Tr2TextureSubresource} {texture : Tr2TextureAL} {s s' : VulkanContext}

theorem created_of_createImage
    (h : createImage format unorderedAccess initialData wholeRegion s = .ok texture s') :
    texture.Created format := by
  by_cases hSupported : format.Supported
  · have hCreates : Hoare (fun _ => True)
        (createImage format unorderedAccess initialData wholeRegion)
        (fun texture _ => texture.Created format) fun _ => True := by
      unfold createImage
      refine Hoare.bind (hoare_any _) fun _ => Hoare.bind (hoare_any _) fun _ => ?_
      refine Hoare.bind (hoare_any _) fun _ => Hoare.bind (hoare_any _) fun _ => ?_
      refine Hoare.bind (hoare_any _) fun _ => ?_
      cases initialData with
      | none => exact hoare_pure fun _ _ => ⟨hSupported, rfl⟩
      | some data =>
        refine (hoare_updateSubresource _ _ _ _ _).bind fun updated => ?_
        exact hoare_pure fun _ hUpdated => ⟨hSupported, hUpdated.2.2⟩
    exact hCreates.of_ok trivial h
  · have hRefused : createImage format unorderedAccess initialData wholeRegion s =
        .error (.returned .E_INVALIDARG) s := by
      refine bind_of_error ?_
      rw [whenever, if_pos (not_not.mp hSupported)]
      rfl
    rw [hRefused] at h
    cases h

/-- A texture of a supported format can be made. -/
theorem exists_createImage (h : format.Supported) : ∃ texture s',
    createImage format unorderedAccess none wholeRegion inFrame = .ok texture s' := by
  have hFormat : ¬({ format := convertPixelFormat format } : Tr2TextureAL).format =
      .VK_FORMAT_UNDEFINED := h
  unfold createImage createViews
  simp only [whenever, if_neg hFormat]
  by_cases hSrgb : srgbFormat (convertPixelFormat format) ≠ convertPixelFormat format
  · simp only [if_pos hSrgb]
    cases unorderedAccess <;> exact ⟨_, _, rfl⟩
  · simp only [if_neg hSrgb]
    cases unorderedAccess <;> exact ⟨_, _, rfl⟩

end Creation

-- ---------------------------------------------------------------------------
-- Staying inside
-- ---------------------------------------------------------------------------

section Uploads

variable {texture next : Tr2TextureAL} {format : PixelFormat} {region : Tr2TextureSubresource}
  {pitch slicePitch : UInt32} {upload : Upload} {s s' : VulkanContext}

/-- Where the rows fit the staging buffer, so does every copy. -/
theorem contained_of_fits {block : TexelBlock} (hLaidOut : LaidOut block region pitch slicePitch)
    (hFits : Fits block region pitch slicePitch)
    (h : texture.updateSubresource region true pitch slicePitch s = .ok (upload, next) s')
    {copy : RowCopy} (hCopy : copy ∈ upload.copies) :
    copy.Contained upload region pitch slicePitch := by
  obtain ⟨hSize, hCopies, -⟩ := updateSubresource_copies h
  obtain ⟨z, y, hz, hy, rfl⟩ := mem_rowCopies.mp (hCopies copy hCopy)
  rw [UInt32.lt_iff_toNat_lt] at hz hy
  have hDepth : region.depth ≠ 0 := by
    rintro hZero
    simp [hZero] at hz
  have hHeight : region.height ≠ 0 := by
    rintro hZero
    simp [hZero] at hy
  obtain ⟨hSlices, hBlock⟩ := (hFits.resolve_left hDepth).resolve_left hHeight
  have hRows : region.height.toNat * pitch.toNat ≤ slicePitch.toNat := by
    rcases hBlock with hTexels | hRows
    · have hSlice := hLaidOut.slice
      rw [hTexels, ceilDiv_one, Nat.mul_comm] at hSlice
      exact hSlice
    · exact hRows
  have hSlicePitch : slicePitch.toNat < 2 ^ 32 := slicePitch.toNat_lt
  have hBelowZ : z.toNat * slicePitch.toNat ≤ (region.depth.toNat - 1) * slicePitch.toNat :=
    Nat.mul_le_mul_right _ (by omega)
  have hBelowY : y.toNat * pitch.toNat ≤ region.height.toNat * pitch.toNat :=
    Nat.mul_le_mul_right _ (by omega)
  have hExact := (truncated_offset_iff pitch slicePitch z y).mpr ⟨by omega, by omega⟩
  have hWithin := row_within hz hy hRows
  refine ⟨?_, ?_, hExact⟩
  · rw [hExact]
    exact hWithin
  · rw [hExact, hSize, toNat_mul_toUInt64]
    exact hWithin

/-- The copy of the last row shows whether all of them are contained. -/
theorem fits_of_contained (block : TexelBlock) (hSupported : format.Supported)
    (h : UploadsContained format region pitch slicePitch) : Fits block region pitch slicePitch := by
  by_cases hDepth : region.depth = 0
  · exact .inl hDepth
  by_cases hHeight : region.height = 0
  · exact .inr (.inl hHeight)
  have hDepthPos : 0 < region.depth.toNat :=
    Nat.pos_of_ne_zero fun hZero => hDepth (UInt32.toNat_inj.mp hZero)
  have hHeightPos : 0 < region.height.toNat :=
    Nat.pos_of_ne_zero fun hZero => hHeight (UInt32.toNat_inj.mp hZero)
  have hLastZ : (region.depth - 1).toNat = region.depth.toNat - 1 :=
    UInt32.toNat_sub_of_le _ _ (UInt32.le_iff_toNat_le.mpr hDepthPos)
  have hLastY : (region.height - 1).toNat = region.height.toNat - 1 :=
    UInt32.toNat_sub_of_le _ _ (UInt32.le_iff_toNat_le.mpr hHeightPos)
  obtain ⟨upload, next, s', hRun, hCopies⟩ :=
    updateSubresource_inFrame { format := convertPixelFormat format } region pitch slicePitch
  have hLast := h _ next upload inFrame s' ⟨hSupported, rfl⟩ hRun _ (by
    rw [hCopies]
    refine mem_rowCopies.mpr ⟨region.depth - 1, region.height - 1, ?_, ?_, rfl⟩
    · rw [UInt32.lt_iff_toNat_lt]
      omega
    · rw [UInt32.lt_iff_toNat_lt]
      omega)
  have hExact := (truncated_offset_iff pitch slicePitch _ _).mp hLast.exact
  have hReads := hLast.reads
  rw [hLast.exact] at hReads
  simp only [hLastZ, hLastY] at hExact hReads
  exact .inr (.inr ⟨hExact.1, .inr ((last_row_within_iff hDepthPos hHeightPos).mp hReads)⟩)

/-- Every upload of a region stays in its source and its staging buffer, at the places that its
rows have there, exactly when the last slice begins below 2 ^ 32 and, in a compressed format,
the slice pitch has room for as many rows as the region has rows of texels. -/
theorem upload_contained_iff (hSupported : format.Supported)
    (hLaidOut : LaidOut (convertPixelFormat format).texelBlock region pitch slicePitch) :
    UploadsContained format region pitch slicePitch ↔
      Fits (convertPixelFormat format).texelBlock region pitch slicePitch := by
  constructor
  · exact fits_of_contained _ hSupported
  · intro hFits texture next upload s s' hCreated hRun copy hCopy
    exact contained_of_fits hLaidOut hFits hRun hCopy

/-- A texture of 8 by 8 texels with four bytes each. -/
theorem upload_contained_rgba8 : UploadsContained .PIXEL_FORMAT_R8G8B8A8_UNORM
    { width := 8, height := 8, depth := 1 } 32 256 :=
  (upload_contained_iff (by decide) ⟨by decide, by decide⟩).mpr
    (.inr (.inr ⟨by decide, .inl rfl⟩))

/-- The same texture in compressed blocks has two rows of them, and the loop copies eight. -/
theorem upload_overruns_bc1 :
    PixelFormat.PIXEL_FORMAT_BC1_UNORM.Supported ∧
    LaidOut (convertPixelFormat .PIXEL_FORMAT_BC1_UNORM).texelBlock
      { width := 8, height := 8, depth := 1 } 16 32 ∧
    ¬UploadsContained .PIXEL_FORMAT_BC1_UNORM { width := 8, height := 8, depth := 1 } 16 32 := by
  refine ⟨by decide, ⟨by decide, by decide⟩, fun h => ?_⟩
  obtain ⟨upload, next, s', hRun, hCopies⟩ := updateSubresource_inFrame
    { format := .VK_FORMAT_BC1_RGBA_UNORM_BLOCK } { width := 8, height := 8, depth := 1 } 16 32
  have hThird := h _ next upload inFrame s' ⟨by decide, rfl⟩ hRun
    { z := 0, y := 2, offset := 32, size := 16 } (by
      rw [hCopies]
      decide)
  exact absurd hThird.reads (by decide)

end Uploads

end Ithax.Vulkan
