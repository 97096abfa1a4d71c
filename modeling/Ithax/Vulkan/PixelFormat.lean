import Ithax.Vulkan.Device

/-!
# Pixel formats

The formats of textures and buffers, and the formats of Vulkan that they are kept in:
`ConvertPixelFormat` of `trinityal-vulkan/Tr2VulkanContext.cpp`. A format of Vulkan keeps its
texels in blocks, which for most formats are single texels.

## Results

* `texelBlock_supported` — what a pixel format is kept in has blocks of some bytes.
-/

namespace Ithax.Vulkan

inductive PixelFormat where
  | PIXEL_FORMAT_UNKNOWN | PIXEL_FORMAT_R32G32B32A32_TYPELESS | PIXEL_FORMAT_R32G32B32A32_FLOAT
  | PIXEL_FORMAT_R32G32B32A32_UINT | PIXEL_FORMAT_R32G32B32A32_SINT
  | PIXEL_FORMAT_R32G32B32_TYPELESS | PIXEL_FORMAT_R32G32B32_FLOAT | PIXEL_FORMAT_R32G32B32_UINT
  | PIXEL_FORMAT_R32G32B32_SINT | PIXEL_FORMAT_R16G16B16A16_TYPELESS
  | PIXEL_FORMAT_R16G16B16A16_FLOAT | PIXEL_FORMAT_R16G16B16A16_UNORM
  | PIXEL_FORMAT_R16G16B16A16_UINT | PIXEL_FORMAT_R16G16B16A16_SNORM
  | PIXEL_FORMAT_R16G16B16A16_SINT | PIXEL_FORMAT_R32G32_TYPELESS | PIXEL_FORMAT_R32G32_FLOAT
  | PIXEL_FORMAT_R32G32_UINT | PIXEL_FORMAT_R32G32_SINT | PIXEL_FORMAT_R10G10B10A2_TYPELESS
  | PIXEL_FORMAT_R10G10B10A2_UNORM | PIXEL_FORMAT_R10G10B10A2_UINT | PIXEL_FORMAT_R11G11B10_FLOAT
  | PIXEL_FORMAT_R8G8B8A8_TYPELESS | PIXEL_FORMAT_R8G8B8A8_UNORM
  | PIXEL_FORMAT_R8G8B8A8_UNORM_SRGB | PIXEL_FORMAT_R8G8B8A8_UINT | PIXEL_FORMAT_R8G8B8A8_SNORM
  | PIXEL_FORMAT_R8G8B8A8_SINT | PIXEL_FORMAT_R16G16_TYPELESS | PIXEL_FORMAT_R16G16_FLOAT
  | PIXEL_FORMAT_R16G16_UNORM | PIXEL_FORMAT_R16G16_UINT | PIXEL_FORMAT_R16G16_SNORM
  | PIXEL_FORMAT_R16G16_SINT | PIXEL_FORMAT_R32_TYPELESS | PIXEL_FORMAT_D32_FLOAT
  | PIXEL_FORMAT_R32_FLOAT | PIXEL_FORMAT_R32_UINT | PIXEL_FORMAT_R32_SINT
  | PIXEL_FORMAT_R24G8_TYPELESS | PIXEL_FORMAT_D24_UNORM_S8_UINT | PIXEL_FORMAT_R8G8_TYPELESS
  | PIXEL_FORMAT_R8G8_UNORM | PIXEL_FORMAT_R8G8_UINT | PIXEL_FORMAT_R8G8_SNORM
  | PIXEL_FORMAT_R8G8_SINT | PIXEL_FORMAT_R16_TYPELESS | PIXEL_FORMAT_R16_FLOAT
  | PIXEL_FORMAT_D16_UNORM | PIXEL_FORMAT_R16_UNORM | PIXEL_FORMAT_R16_UINT
  | PIXEL_FORMAT_R16_SNORM | PIXEL_FORMAT_R16_SINT | PIXEL_FORMAT_R8_TYPELESS
  | PIXEL_FORMAT_R8_UNORM | PIXEL_FORMAT_R8_UINT | PIXEL_FORMAT_R8_SNORM | PIXEL_FORMAT_R8_SINT
  | PIXEL_FORMAT_A8_UNORM | PIXEL_FORMAT_BC1_TYPELESS | PIXEL_FORMAT_BC1_UNORM
  | PIXEL_FORMAT_BC1_UNORM_SRGB | PIXEL_FORMAT_BC2_TYPELESS | PIXEL_FORMAT_BC2_UNORM
  | PIXEL_FORMAT_BC2_UNORM_SRGB | PIXEL_FORMAT_BC3_TYPELESS | PIXEL_FORMAT_BC3_UNORM
  | PIXEL_FORMAT_BC3_UNORM_SRGB | PIXEL_FORMAT_BC4_TYPELESS | PIXEL_FORMAT_BC4_UNORM
  | PIXEL_FORMAT_BC4_SNORM | PIXEL_FORMAT_BC5_TYPELESS | PIXEL_FORMAT_BC5_UNORM
  | PIXEL_FORMAT_BC5_SNORM | PIXEL_FORMAT_B5G6R5_UNORM | PIXEL_FORMAT_B5G5R5A1_UNORM
  | PIXEL_FORMAT_B8G8R8A8_UNORM | PIXEL_FORMAT_B8G8R8X8_UNORM | PIXEL_FORMAT_B8G8R8A8_TYPELESS
  | PIXEL_FORMAT_B8G8R8A8_UNORM_SRGB | PIXEL_FORMAT_B8G8R8X8_TYPELESS
  | PIXEL_FORMAT_B8G8R8X8_UNORM_SRGB | PIXEL_FORMAT_BC6H_TYPELESS | PIXEL_FORMAT_BC6H_UF16
  | PIXEL_FORMAT_BC6H_SF16 | PIXEL_FORMAT_BC7_TYPELESS | PIXEL_FORMAT_BC7_UNORM
  | PIXEL_FORMAT_BC7_UNORM_SRGB
  /-- A format that the backend does not name. -/
  | other (code : Nat)
  deriving DecidableEq, Repr

/-- `ConvertPixelFormat`. -/
def convertPixelFormat : PixelFormat → VkFormat
  | .PIXEL_FORMAT_R32G32B32A32_TYPELESS => .VK_FORMAT_R32G32B32A32_SFLOAT
  | .PIXEL_FORMAT_R32G32B32A32_FLOAT => .VK_FORMAT_R32G32B32A32_SFLOAT
  | .PIXEL_FORMAT_R32G32B32A32_UINT => .VK_FORMAT_R32G32B32A32_UINT
  | .PIXEL_FORMAT_R32G32B32A32_SINT => .VK_FORMAT_R32G32B32A32_SINT
  | .PIXEL_FORMAT_R32G32B32_TYPELESS => .VK_FORMAT_R32G32B32_SFLOAT
  | .PIXEL_FORMAT_R32G32B32_FLOAT => .VK_FORMAT_R32G32B32_SFLOAT
  | .PIXEL_FORMAT_R32G32B32_UINT => .VK_FORMAT_R32G32B32_UINT
  | .PIXEL_FORMAT_R32G32B32_SINT => .VK_FORMAT_R32G32B32_SINT
  | .PIXEL_FORMAT_R16G16B16A16_TYPELESS => .VK_FORMAT_R16G16B16A16_SFLOAT
  | .PIXEL_FORMAT_R16G16B16A16_FLOAT => .VK_FORMAT_R16G16B16A16_SFLOAT
  | .PIXEL_FORMAT_R16G16B16A16_UNORM => .VK_FORMAT_R16G16B16A16_UNORM
  | .PIXEL_FORMAT_R16G16B16A16_UINT => .VK_FORMAT_R16G16B16A16_UINT
  | .PIXEL_FORMAT_R16G16B16A16_SNORM => .VK_FORMAT_R16G16B16A16_SNORM
  | .PIXEL_FORMAT_R16G16B16A16_SINT => .VK_FORMAT_R16G16B16A16_SINT
  | .PIXEL_FORMAT_R32G32_TYPELESS => .VK_FORMAT_R32G32_SFLOAT
  | .PIXEL_FORMAT_R32G32_FLOAT => .VK_FORMAT_R32G32_SFLOAT
  | .PIXEL_FORMAT_R32G32_UINT => .VK_FORMAT_R32G32_UINT
  | .PIXEL_FORMAT_R32G32_SINT => .VK_FORMAT_R32G32_SINT
  | .PIXEL_FORMAT_R10G10B10A2_TYPELESS => .VK_FORMAT_A2B10G10R10_UNORM_PACK32
  | .PIXEL_FORMAT_R10G10B10A2_UNORM => .VK_FORMAT_A2B10G10R10_UNORM_PACK32
  | .PIXEL_FORMAT_R10G10B10A2_UINT => .VK_FORMAT_A2B10G10R10_UINT_PACK32
  | .PIXEL_FORMAT_R11G11B10_FLOAT => .VK_FORMAT_B10G11R11_UFLOAT_PACK32
  | .PIXEL_FORMAT_R8G8B8A8_TYPELESS => .VK_FORMAT_R8G8B8A8_UNORM
  | .PIXEL_FORMAT_R8G8B8A8_UNORM => .VK_FORMAT_R8G8B8A8_UNORM
  | .PIXEL_FORMAT_R8G8B8A8_UNORM_SRGB => .VK_FORMAT_R8G8B8A8_SRGB
  | .PIXEL_FORMAT_R8G8B8A8_UINT => .VK_FORMAT_R8G8B8A8_UINT
  | .PIXEL_FORMAT_R8G8B8A8_SNORM => .VK_FORMAT_R8G8B8A8_SNORM
  | .PIXEL_FORMAT_R8G8B8A8_SINT => .VK_FORMAT_R8G8B8A8_SINT
  | .PIXEL_FORMAT_R16G16_TYPELESS => .VK_FORMAT_R16G16_SFLOAT
  | .PIXEL_FORMAT_R16G16_FLOAT => .VK_FORMAT_R16G16_SFLOAT
  | .PIXEL_FORMAT_R16G16_UNORM => .VK_FORMAT_R16G16_UNORM
  | .PIXEL_FORMAT_R16G16_UINT => .VK_FORMAT_R16G16_UINT
  | .PIXEL_FORMAT_R16G16_SNORM => .VK_FORMAT_R16G16_SNORM
  | .PIXEL_FORMAT_R16G16_SINT => .VK_FORMAT_R16G16_SINT
  | .PIXEL_FORMAT_R32_TYPELESS => .VK_FORMAT_R32_SFLOAT
  | .PIXEL_FORMAT_D32_FLOAT => .VK_FORMAT_D32_SFLOAT
  | .PIXEL_FORMAT_R32_FLOAT => .VK_FORMAT_R32_SFLOAT
  | .PIXEL_FORMAT_R32_UINT => .VK_FORMAT_R32_UINT
  | .PIXEL_FORMAT_R32_SINT => .VK_FORMAT_R32_SINT
  | .PIXEL_FORMAT_R24G8_TYPELESS => .VK_FORMAT_D24_UNORM_S8_UINT
  | .PIXEL_FORMAT_D24_UNORM_S8_UINT => .VK_FORMAT_D24_UNORM_S8_UINT
  | .PIXEL_FORMAT_R8G8_TYPELESS => .VK_FORMAT_R8G8_UNORM
  | .PIXEL_FORMAT_R8G8_UNORM => .VK_FORMAT_R8G8_UNORM
  | .PIXEL_FORMAT_R8G8_UINT => .VK_FORMAT_R8G8_UINT
  | .PIXEL_FORMAT_R8G8_SNORM => .VK_FORMAT_R8G8_SNORM
  | .PIXEL_FORMAT_R8G8_SINT => .VK_FORMAT_R8G8_SINT
  | .PIXEL_FORMAT_R16_TYPELESS => .VK_FORMAT_R16_SFLOAT
  | .PIXEL_FORMAT_R16_FLOAT => .VK_FORMAT_R16_SFLOAT
  | .PIXEL_FORMAT_D16_UNORM => .VK_FORMAT_D16_UNORM
  | .PIXEL_FORMAT_R16_UNORM => .VK_FORMAT_R16_UNORM
  | .PIXEL_FORMAT_R16_UINT => .VK_FORMAT_R16_UINT
  | .PIXEL_FORMAT_R16_SNORM => .VK_FORMAT_R16_SNORM
  | .PIXEL_FORMAT_R16_SINT => .VK_FORMAT_R16_SINT
  | .PIXEL_FORMAT_R8_TYPELESS => .VK_FORMAT_R8_UNORM
  | .PIXEL_FORMAT_R8_UNORM => .VK_FORMAT_R8_UNORM
  | .PIXEL_FORMAT_R8_UINT => .VK_FORMAT_R8_UINT
  | .PIXEL_FORMAT_R8_SNORM => .VK_FORMAT_R8_SNORM
  | .PIXEL_FORMAT_R8_SINT => .VK_FORMAT_R8_SINT
  | .PIXEL_FORMAT_A8_UNORM => .VK_FORMAT_R8_UNORM
  | .PIXEL_FORMAT_BC1_TYPELESS => .VK_FORMAT_BC1_RGBA_UNORM_BLOCK
  | .PIXEL_FORMAT_BC1_UNORM => .VK_FORMAT_BC1_RGBA_UNORM_BLOCK
  | .PIXEL_FORMAT_BC1_UNORM_SRGB => .VK_FORMAT_BC1_RGBA_SRGB_BLOCK
  | .PIXEL_FORMAT_BC2_TYPELESS => .VK_FORMAT_BC2_UNORM_BLOCK
  | .PIXEL_FORMAT_BC2_UNORM => .VK_FORMAT_BC2_UNORM_BLOCK
  | .PIXEL_FORMAT_BC2_UNORM_SRGB => .VK_FORMAT_BC2_SRGB_BLOCK
  | .PIXEL_FORMAT_BC3_TYPELESS => .VK_FORMAT_BC3_UNORM_BLOCK
  | .PIXEL_FORMAT_BC3_UNORM => .VK_FORMAT_BC3_UNORM_BLOCK
  | .PIXEL_FORMAT_BC3_UNORM_SRGB => .VK_FORMAT_BC3_SRGB_BLOCK
  | .PIXEL_FORMAT_BC4_TYPELESS => .VK_FORMAT_BC4_UNORM_BLOCK
  | .PIXEL_FORMAT_BC4_UNORM => .VK_FORMAT_BC4_UNORM_BLOCK
  | .PIXEL_FORMAT_BC4_SNORM => .VK_FORMAT_BC4_SNORM_BLOCK
  | .PIXEL_FORMAT_BC5_TYPELESS => .VK_FORMAT_BC5_UNORM_BLOCK
  | .PIXEL_FORMAT_BC5_UNORM => .VK_FORMAT_BC5_UNORM_BLOCK
  | .PIXEL_FORMAT_BC5_SNORM => .VK_FORMAT_BC5_SNORM_BLOCK
  | .PIXEL_FORMAT_B5G6R5_UNORM => .VK_FORMAT_B5G6R5_UNORM_PACK16
  | .PIXEL_FORMAT_B5G5R5A1_UNORM => .VK_FORMAT_B5G5R5A1_UNORM_PACK16
  | .PIXEL_FORMAT_B8G8R8A8_UNORM => .VK_FORMAT_B8G8R8A8_UNORM
  | .PIXEL_FORMAT_B8G8R8X8_UNORM => .VK_FORMAT_B8G8R8A8_UNORM
  | .PIXEL_FORMAT_B8G8R8A8_TYPELESS => .VK_FORMAT_B8G8R8A8_UNORM
  | .PIXEL_FORMAT_B8G8R8A8_UNORM_SRGB => .VK_FORMAT_B8G8R8A8_SRGB
  | .PIXEL_FORMAT_B8G8R8X8_TYPELESS => .VK_FORMAT_B8G8R8A8_UNORM
  | .PIXEL_FORMAT_B8G8R8X8_UNORM_SRGB => .VK_FORMAT_B8G8R8A8_SRGB
  | .PIXEL_FORMAT_BC6H_TYPELESS => .VK_FORMAT_BC6H_UFLOAT_BLOCK
  | .PIXEL_FORMAT_BC6H_UF16 => .VK_FORMAT_BC6H_UFLOAT_BLOCK
  | .PIXEL_FORMAT_BC6H_SF16 => .VK_FORMAT_BC6H_SFLOAT_BLOCK
  | .PIXEL_FORMAT_BC7_TYPELESS => .VK_FORMAT_BC7_UNORM_BLOCK
  | .PIXEL_FORMAT_BC7_UNORM => .VK_FORMAT_BC7_UNORM_BLOCK
  | .PIXEL_FORMAT_BC7_UNORM_SRGB => .VK_FORMAT_BC7_SRGB_BLOCK
  | .PIXEL_FORMAT_UNKNOWN | .other _ => .VK_FORMAT_UNDEFINED

/-- A texture can be made with the format. -/
def PixelFormat.Supported (format : PixelFormat) : Prop :=
  convertPixelFormat format ≠ .VK_FORMAT_UNDEFINED

instance (format : PixelFormat) : Decidable format.Supported :=
  inferInstanceAs (Decidable (_ ≠ _))

-- ---------------------------------------------------------------------------
-- Blocks of texels
-- ---------------------------------------------------------------------------

/-- The texels that are kept together, and in how many bytes. -/
structure TexelBlock where
  width : Nat
  height : Nat
  bytes : Nat
  deriving DecidableEq, Repr

/-- A texel by itself. -/
def TexelBlock.texel (bytes : Nat) : TexelBlock := ⟨1, 1, bytes⟩

/-- A compressed block. -/
def TexelBlock.compressed (bytes : Nat) : TexelBlock := ⟨4, 4, bytes⟩

/-- The blocks of a format. -/
def VkFormat.texelBlock : VkFormat → TexelBlock
  | .VK_FORMAT_R32G32B32A32_SFLOAT | .VK_FORMAT_R32G32B32A32_UINT
  | .VK_FORMAT_R32G32B32A32_SINT => .texel 16
  | .VK_FORMAT_R32G32B32_SFLOAT | .VK_FORMAT_R32G32B32_UINT | .VK_FORMAT_R32G32B32_SINT => .texel 12
  | .VK_FORMAT_R16G16B16A16_SFLOAT | .VK_FORMAT_R16G16B16A16_UNORM | .VK_FORMAT_R16G16B16A16_UINT
  | .VK_FORMAT_R16G16B16A16_SNORM | .VK_FORMAT_R16G16B16A16_SINT | .VK_FORMAT_R32G32_SFLOAT
  | .VK_FORMAT_R32G32_UINT | .VK_FORMAT_R32G32_SINT => .texel 8
  | .VK_FORMAT_D32_SFLOAT_S8_UINT => .texel 5
  | .VK_FORMAT_A2B10G10R10_UNORM_PACK32 | .VK_FORMAT_A2B10G10R10_UINT_PACK32
  | .VK_FORMAT_B10G11R11_UFLOAT_PACK32 | .VK_FORMAT_R8G8B8A8_UNORM | .VK_FORMAT_R8G8B8A8_SRGB
  | .VK_FORMAT_R8G8B8A8_UINT | .VK_FORMAT_R8G8B8A8_SNORM | .VK_FORMAT_R8G8B8A8_SINT
  | .VK_FORMAT_R16G16_SFLOAT | .VK_FORMAT_R16G16_UNORM | .VK_FORMAT_R16G16_UINT
  | .VK_FORMAT_R16G16_SNORM | .VK_FORMAT_R16G16_SINT | .VK_FORMAT_R32_SFLOAT | .VK_FORMAT_D32_SFLOAT
  | .VK_FORMAT_R32_UINT | .VK_FORMAT_R32_SINT | .VK_FORMAT_D24_UNORM_S8_UINT
  | .VK_FORMAT_B8G8R8A8_UNORM | .VK_FORMAT_B8G8R8A8_SRGB => .texel 4
  | .VK_FORMAT_D16_UNORM_S8_UINT => .texel 3
  | .VK_FORMAT_R8G8_UNORM | .VK_FORMAT_R8G8_UINT | .VK_FORMAT_R8G8_SNORM | .VK_FORMAT_R8G8_SINT
  | .VK_FORMAT_R16_SFLOAT | .VK_FORMAT_D16_UNORM | .VK_FORMAT_R16_UNORM | .VK_FORMAT_R16_UINT
  | .VK_FORMAT_R16_SNORM | .VK_FORMAT_R16_SINT | .VK_FORMAT_B5G6R5_UNORM_PACK16
  | .VK_FORMAT_B5G5R5A1_UNORM_PACK16 => .texel 2
  | .VK_FORMAT_R8_UNORM | .VK_FORMAT_R8_UINT | .VK_FORMAT_R8_SNORM | .VK_FORMAT_R8_SINT => .texel 1
  | .VK_FORMAT_BC2_UNORM_BLOCK | .VK_FORMAT_BC2_SRGB_BLOCK | .VK_FORMAT_BC3_UNORM_BLOCK
  | .VK_FORMAT_BC3_SRGB_BLOCK | .VK_FORMAT_BC5_UNORM_BLOCK | .VK_FORMAT_BC5_SNORM_BLOCK
  | .VK_FORMAT_BC6H_UFLOAT_BLOCK | .VK_FORMAT_BC6H_SFLOAT_BLOCK | .VK_FORMAT_BC7_UNORM_BLOCK
  | .VK_FORMAT_BC7_SRGB_BLOCK => .compressed 16
  | .VK_FORMAT_BC1_RGBA_UNORM_BLOCK | .VK_FORMAT_BC1_RGBA_SRGB_BLOCK | .VK_FORMAT_BC4_UNORM_BLOCK
  | .VK_FORMAT_BC4_SNORM_BLOCK => .compressed 8
  | .VK_FORMAT_UNDEFINED | .other _ => .texel 0

theorem texelBlock_supported {format : PixelFormat} (h : format.Supported) :
    0 < (convertPixelFormat format).texelBlock.bytes := by
  cases format with
  | PIXEL_FORMAT_UNKNOWN | other code => exact absurd rfl h
  | _ => decide

end Ithax.Vulkan
