import SpirvInspector.Grammar.OperandKind

/-!
# Enumerants

The named values of each enumerated operand kind, in table order, with the operands that each of
them requires after itself. In a bit set every enumerant but the zero one is a single bit.
-/

set_option autoImplicit false

namespace SpirvInspector

structure Enumerant where
  symbol : String
  value : UInt32
  parameters : List OperandKind
deriving DecidableEq, Repr

namespace Enumerant

def imageOperands : List Enumerant :=
  [⟨"None", 0x00, []⟩,
   ⟨"Bias", 0x01, [.idRef]⟩,
   ⟨"Lod", 0x02, [.idRef]⟩,
   ⟨"Grad", 0x04, [.idRef, .idRef]⟩,
   ⟨"ConstOffset", 0x08, [.idRef]⟩,
   ⟨"Offset", 0x10, [.idRef]⟩,
   ⟨"ConstOffsets", 0x20, [.idRef]⟩,
   ⟨"Sample", 0x40, [.idRef]⟩,
   ⟨"MinLod", 0x80, [.idRef]⟩]

def fpFastMathMode : List Enumerant :=
  [⟨"None", 0x00, []⟩,
   ⟨"NotNaN", 0x01, []⟩,
   ⟨"NotInf", 0x02, []⟩,
   ⟨"NSZ", 0x04, []⟩,
   ⟨"AllowRecip", 0x08, []⟩,
   ⟨"Fast", 0x10, []⟩]

def selectionControl : List Enumerant :=
  [⟨"None", 0x0, []⟩,
   ⟨"Flatten", 0x1, []⟩,
   ⟨"DontFlatten", 0x2, []⟩]

def loopControl : List Enumerant :=
  [⟨"None", 0x0, []⟩,
   ⟨"Unroll", 0x1, []⟩,
   ⟨"DontUnroll", 0x2, []⟩,
   ⟨"DependencyInfinite", 0x4, []⟩,
   ⟨"DependencyLength", 0x8, [.literalInteger]⟩]

def functionControl : List Enumerant :=
  [⟨"None", 0x0, []⟩,
   ⟨"Inline", 0x1, []⟩,
   ⟨"DontInline", 0x2, []⟩,
   ⟨"Pure", 0x4, []⟩,
   ⟨"Const", 0x8, []⟩]

def memoryAccess : List Enumerant :=
  [⟨"None", 0x0, []⟩,
   ⟨"Volatile", 0x1, []⟩,
   ⟨"Aligned", 0x2, [.literalInteger]⟩,
   ⟨"Nontemporal", 0x4, []⟩]

def sourceLanguage : List Enumerant :=
  [⟨"Unknown", 0, []⟩,
   ⟨"ESSL", 1, []⟩,
   ⟨"GLSL", 2, []⟩,
   ⟨"OpenCL_C", 3, []⟩,
   ⟨"OpenCL_CPP", 4, []⟩,
   ⟨"HLSL", 5, []⟩]

def executionModel : List Enumerant :=
  [⟨"Vertex", 0, []⟩,
   ⟨"TessellationControl", 1, []⟩,
   ⟨"TessellationEvaluation", 2, []⟩,
   ⟨"Geometry", 3, []⟩,
   ⟨"Fragment", 4, []⟩,
   ⟨"GLCompute", 5, []⟩,
   ⟨"Kernel", 6, []⟩]

def addressingModel : List Enumerant :=
  [⟨"Logical", 0, []⟩,
   ⟨"Physical32", 1, []⟩,
   ⟨"Physical64", 2, []⟩,
   ⟨"PhysicalStorageBuffer64", 5348, []⟩]

def memoryModel : List Enumerant :=
  [⟨"Simple", 0, []⟩,
   ⟨"GLSL450", 1, []⟩,
   ⟨"OpenCL", 2, []⟩,
   ⟨"Vulkan", 3, []⟩]

def executionMode : List Enumerant :=
  [⟨"Invocations", 0, [.literalInteger]⟩,
   ⟨"SpacingEqual", 1, []⟩,
   ⟨"SpacingFractionalEven", 2, []⟩,
   ⟨"SpacingFractionalOdd", 3, []⟩,
   ⟨"VertexOrderCw", 4, []⟩,
   ⟨"VertexOrderCcw", 5, []⟩,
   ⟨"PixelCenterInteger", 6, []⟩,
   ⟨"OriginUpperLeft", 7, []⟩,
   ⟨"OriginLowerLeft", 8, []⟩,
   ⟨"EarlyFragmentTests", 9, []⟩,
   ⟨"PointMode", 10, []⟩,
   ⟨"Xfb", 11, []⟩,
   ⟨"DepthReplacing", 12, []⟩,
   ⟨"DepthGreater", 14, []⟩,
   ⟨"DepthLess", 15, []⟩,
   ⟨"DepthUnchanged", 16, []⟩,
   ⟨"LocalSize", 17, [.literalInteger, .literalInteger, .literalInteger]⟩,
   ⟨"LocalSizeHint", 18, [.literalInteger, .literalInteger, .literalInteger]⟩,
   ⟨"InputPoints", 19, []⟩,
   ⟨"InputLines", 20, []⟩,
   ⟨"InputLinesAdjacency", 21, []⟩,
   ⟨"Triangles", 22, []⟩,
   ⟨"InputTrianglesAdjacency", 23, []⟩,
   ⟨"Quads", 24, []⟩,
   ⟨"Isolines", 25, []⟩,
   ⟨"OutputVertices", 26, [.literalInteger]⟩,
   ⟨"OutputPoints", 27, []⟩,
   ⟨"OutputLineStrip", 28, []⟩,
   ⟨"OutputTriangleStrip", 29, []⟩,
   ⟨"VecTypeHint", 30, [.literalInteger]⟩,
   ⟨"ContractionOff", 31, []⟩,
   ⟨"Initializer", 33, []⟩,
   ⟨"Finalizer", 34, []⟩,
   ⟨"SubgroupSize", 35, [.literalInteger]⟩,
   ⟨"SubgroupsPerWorkgroup", 36, [.literalInteger]⟩,
   ⟨"SubgroupsPerWorkgroupId", 37, [.idRef]⟩,
   ⟨"LocalSizeId", 38, [.idRef, .idRef, .idRef]⟩,
   ⟨"LocalSizeHintId", 39, [.idRef, .idRef, .idRef]⟩]

def storageClass : List Enumerant :=
  [⟨"UniformConstant", 0, []⟩,
   ⟨"Input", 1, []⟩,
   ⟨"Uniform", 2, []⟩,
   ⟨"Output", 3, []⟩,
   ⟨"Workgroup", 4, []⟩,
   ⟨"CrossWorkgroup", 5, []⟩,
   ⟨"Private", 6, []⟩,
   ⟨"Function", 7, []⟩,
   ⟨"Generic", 8, []⟩,
   ⟨"PushConstant", 9, []⟩,
   ⟨"AtomicCounter", 10, []⟩,
   ⟨"Image", 11, []⟩,
   ⟨"StorageBuffer", 12, []⟩]

def dim : List Enumerant :=
  [⟨"1D", 0, []⟩,
   ⟨"2D", 1, []⟩,
   ⟨"3D", 2, []⟩,
   ⟨"Cube", 3, []⟩,
   ⟨"Rect", 4, []⟩,
   ⟨"Buffer", 5, []⟩,
   ⟨"SubpassData", 6, []⟩]

def samplerAddressingMode : List Enumerant :=
  [⟨"None", 0, []⟩,
   ⟨"ClampToEdge", 1, []⟩,
   ⟨"Clamp", 2, []⟩,
   ⟨"Repeat", 3, []⟩,
   ⟨"RepeatMirrored", 4, []⟩]

def samplerFilterMode : List Enumerant :=
  [⟨"Nearest", 0, []⟩,
   ⟨"Linear", 1, []⟩]

def imageFormat : List Enumerant :=
  [⟨"Unknown", 0, []⟩,
   ⟨"Rgba32f", 1, []⟩,
   ⟨"Rgba16f", 2, []⟩,
   ⟨"R32f", 3, []⟩,
   ⟨"Rgba8", 4, []⟩,
   ⟨"Rgba8Snorm", 5, []⟩,
   ⟨"Rg32f", 6, []⟩,
   ⟨"Rg16f", 7, []⟩,
   ⟨"R11fG11fB10f", 8, []⟩,
   ⟨"R16f", 9, []⟩,
   ⟨"Rgba16", 10, []⟩,
   ⟨"Rgb10A2", 11, []⟩,
   ⟨"Rg16", 12, []⟩,
   ⟨"Rg8", 13, []⟩,
   ⟨"R16", 14, []⟩,
   ⟨"R8", 15, []⟩,
   ⟨"Rgba16Snorm", 16, []⟩,
   ⟨"Rg16Snorm", 17, []⟩,
   ⟨"Rg8Snorm", 18, []⟩,
   ⟨"R16Snorm", 19, []⟩,
   ⟨"R8Snorm", 20, []⟩,
   ⟨"Rgba32i", 21, []⟩,
   ⟨"Rgba16i", 22, []⟩,
   ⟨"Rgba8i", 23, []⟩,
   ⟨"R32i", 24, []⟩,
   ⟨"Rg32i", 25, []⟩,
   ⟨"Rg16i", 26, []⟩,
   ⟨"Rg8i", 27, []⟩,
   ⟨"R16i", 28, []⟩,
   ⟨"R8i", 29, []⟩,
   ⟨"Rgba32ui", 30, []⟩,
   ⟨"Rgba16ui", 31, []⟩,
   ⟨"Rgba8ui", 32, []⟩,
   ⟨"R32ui", 33, []⟩,
   ⟨"Rgb10a2ui", 34, []⟩,
   ⟨"Rg32ui", 35, []⟩,
   ⟨"Rg16ui", 36, []⟩,
   ⟨"Rg8ui", 37, []⟩,
   ⟨"R16ui", 38, []⟩,
   ⟨"R8ui", 39, []⟩]

def fpRoundingMode : List Enumerant :=
  [⟨"RTE", 0, []⟩,
   ⟨"RTZ", 1, []⟩,
   ⟨"RTP", 2, []⟩,
   ⟨"RTN", 3, []⟩]

def linkageType : List Enumerant :=
  [⟨"Export", 0, []⟩,
   ⟨"Import", 1, []⟩]

def accessQualifier : List Enumerant :=
  [⟨"ReadOnly", 0, []⟩,
   ⟨"WriteOnly", 1, []⟩,
   ⟨"ReadWrite", 2, []⟩]

def functionParameterAttribute : List Enumerant :=
  [⟨"Zext", 0, []⟩,
   ⟨"Sext", 1, []⟩,
   ⟨"ByVal", 2, []⟩,
   ⟨"Sret", 3, []⟩,
   ⟨"NoAlias", 4, []⟩,
   ⟨"NoCapture", 5, []⟩,
   ⟨"NoWrite", 6, []⟩,
   ⟨"NoReadWrite", 7, []⟩]

def decoration : List Enumerant :=
  [⟨"RelaxedPrecision", 0, []⟩,
   ⟨"SpecId", 1, [.literalInteger]⟩,
   ⟨"Block", 2, []⟩,
   ⟨"BufferBlock", 3, []⟩,
   ⟨"RowMajor", 4, []⟩,
   ⟨"ColMajor", 5, []⟩,
   ⟨"ArrayStride", 6, [.literalInteger]⟩,
   ⟨"MatrixStride", 7, [.literalInteger]⟩,
   ⟨"GLSLShared", 8, []⟩,
   ⟨"GLSLPacked", 9, []⟩,
   ⟨"CPacked", 10, []⟩,
   ⟨"BuiltIn", 11, [.builtIn]⟩,
   ⟨"NoPerspective", 13, []⟩,
   ⟨"Flat", 14, []⟩,
   ⟨"Patch", 15, []⟩,
   ⟨"Centroid", 16, []⟩,
   ⟨"Sample", 17, []⟩,
   ⟨"Invariant", 18, []⟩,
   ⟨"Restrict", 19, []⟩,
   ⟨"Aliased", 20, []⟩,
   ⟨"Volatile", 21, []⟩,
   ⟨"Constant", 22, []⟩,
   ⟨"Coherent", 23, []⟩,
   ⟨"NonWritable", 24, []⟩,
   ⟨"NonReadable", 25, []⟩,
   ⟨"Uniform", 26, []⟩,
   ⟨"SaturatedConversion", 28, []⟩,
   ⟨"Stream", 29, [.literalInteger]⟩,
   ⟨"Location", 30, [.literalInteger]⟩,
   ⟨"Component", 31, [.literalInteger]⟩,
   ⟨"Index", 32, [.literalInteger]⟩,
   ⟨"Binding", 33, [.literalInteger]⟩,
   ⟨"DescriptorSet", 34, [.literalInteger]⟩,
   ⟨"Offset", 35, [.literalInteger]⟩,
   ⟨"XfbBuffer", 36, [.literalInteger]⟩,
   ⟨"XfbStride", 37, [.literalInteger]⟩,
   ⟨"FuncParamAttr", 38, [.functionParameterAttribute]⟩,
   ⟨"FPRoundingMode", 39, [.fpRoundingMode]⟩,
   ⟨"FPFastMathMode", 40, [.fpFastMathMode]⟩,
   ⟨"LinkageAttributes", 41, [.literalString, .linkageType]⟩,
   ⟨"NoContraction", 42, []⟩,
   ⟨"InputAttachmentIndex", 43, [.literalInteger]⟩,
   ⟨"Alignment", 44, [.literalInteger]⟩,
   ⟨"MaxByteOffset", 45, [.literalInteger]⟩,
   ⟨"AlignmentId", 46, [.idRef]⟩,
   ⟨"MaxByteOffsetId", 47, [.idRef]⟩,
   ⟨"NoSignedWrap", 4469, []⟩,
   ⟨"NoUnsignedWrap", 4470, []⟩,
   ⟨"CounterBuffer", 5634, [.idRef]⟩,
   ⟨"UserSemantic", 5635, [.literalString]⟩,
   ⟨"UserTypeGOOGLE", 5636, [.literalString]⟩]

def builtIn : List Enumerant :=
  [⟨"Position", 0, []⟩,
   ⟨"PointSize", 1, []⟩,
   ⟨"ClipDistance", 3, []⟩,
   ⟨"CullDistance", 4, []⟩,
   ⟨"VertexId", 5, []⟩,
   ⟨"InstanceId", 6, []⟩,
   ⟨"PrimitiveId", 7, []⟩,
   ⟨"InvocationId", 8, []⟩,
   ⟨"Layer", 9, []⟩,
   ⟨"ViewportIndex", 10, []⟩,
   ⟨"TessLevelOuter", 11, []⟩,
   ⟨"TessLevelInner", 12, []⟩,
   ⟨"TessCoord", 13, []⟩,
   ⟨"PatchVertices", 14, []⟩,
   ⟨"FragCoord", 15, []⟩,
   ⟨"PointCoord", 16, []⟩,
   ⟨"FrontFacing", 17, []⟩,
   ⟨"SampleId", 18, []⟩,
   ⟨"SamplePosition", 19, []⟩,
   ⟨"SampleMask", 20, []⟩,
   ⟨"FragDepth", 22, []⟩,
   ⟨"HelperInvocation", 23, []⟩,
   ⟨"NumWorkgroups", 24, []⟩,
   ⟨"WorkgroupSize", 25, []⟩,
   ⟨"WorkgroupId", 26, []⟩,
   ⟨"LocalInvocationId", 27, []⟩,
   ⟨"GlobalInvocationId", 28, []⟩,
   ⟨"LocalInvocationIndex", 29, []⟩,
   ⟨"WorkDim", 30, []⟩,
   ⟨"GlobalSize", 31, []⟩,
   ⟨"EnqueuedWorkgroupSize", 32, []⟩,
   ⟨"GlobalOffset", 33, []⟩,
   ⟨"GlobalLinearId", 34, []⟩,
   ⟨"SubgroupSize", 36, []⟩,
   ⟨"SubgroupMaxSize", 37, []⟩,
   ⟨"NumSubgroups", 38, []⟩,
   ⟨"NumEnqueuedSubgroups", 39, []⟩,
   ⟨"SubgroupId", 40, []⟩,
   ⟨"SubgroupLocalInvocationId", 41, []⟩,
   ⟨"VertexIndex", 42, []⟩,
   ⟨"InstanceIndex", 43, []⟩]

def capability : List Enumerant :=
  [⟨"Matrix", 0, []⟩,
   ⟨"Shader", 1, []⟩,
   ⟨"Geometry", 2, []⟩,
   ⟨"Tessellation", 3, []⟩,
   ⟨"Addresses", 4, []⟩,
   ⟨"Linkage", 5, []⟩,
   ⟨"Kernel", 6, []⟩,
   ⟨"Vector16", 7, []⟩,
   ⟨"Float16Buffer", 8, []⟩,
   ⟨"Float16", 9, []⟩,
   ⟨"Float64", 10, []⟩,
   ⟨"Int64", 11, []⟩,
   ⟨"Int64Atomics", 12, []⟩,
   ⟨"ImageBasic", 13, []⟩,
   ⟨"ImageReadWrite", 14, []⟩,
   ⟨"ImageMipmap", 15, []⟩,
   ⟨"Pipes", 17, []⟩,
   ⟨"Groups", 18, []⟩,
   ⟨"DeviceEnqueue", 19, []⟩,
   ⟨"LiteralSampler", 20, []⟩,
   ⟨"AtomicStorage", 21, []⟩,
   ⟨"Int16", 22, []⟩,
   ⟨"TessellationPointSize", 23, []⟩,
   ⟨"GeometryPointSize", 24, []⟩,
   ⟨"ImageGatherExtended", 25, []⟩,
   ⟨"StorageImageMultisample", 27, []⟩,
   ⟨"UniformBufferArrayDynamicIndexing", 28, []⟩,
   ⟨"SampledImageArrayDynamicIndexing", 29, []⟩,
   ⟨"StorageBufferArrayDynamicIndexing", 30, []⟩,
   ⟨"StorageImageArrayDynamicIndexing", 31, []⟩,
   ⟨"ClipDistance", 32, []⟩,
   ⟨"CullDistance", 33, []⟩,
   ⟨"ImageCubeArray", 34, []⟩,
   ⟨"SampleRateShading", 35, []⟩,
   ⟨"ImageRect", 36, []⟩,
   ⟨"SampledRect", 37, []⟩,
   ⟨"GenericPointer", 38, []⟩,
   ⟨"Int8", 39, []⟩,
   ⟨"InputAttachment", 40, []⟩,
   ⟨"SparseResidency", 41, []⟩,
   ⟨"MinLod", 42, []⟩,
   ⟨"Sampled1D", 43, []⟩,
   ⟨"Image1D", 44, []⟩,
   ⟨"SampledCubeArray", 45, []⟩,
   ⟨"SampledBuffer", 46, []⟩,
   ⟨"ImageBuffer", 47, []⟩,
   ⟨"ImageMSArray", 48, []⟩,
   ⟨"StorageImageExtendedFormats", 49, []⟩,
   ⟨"ImageQuery", 50, []⟩,
   ⟨"DerivativeControl", 51, []⟩,
   ⟨"InterpolationFunction", 52, []⟩,
   ⟨"TransformFeedback", 53, []⟩,
   ⟨"GeometryStreams", 54, []⟩,
   ⟨"StorageImageReadWithoutFormat", 55, []⟩,
   ⟨"StorageImageWriteWithoutFormat", 56, []⟩,
   ⟨"MultiViewport", 57, []⟩,
   ⟨"SubgroupDispatch", 58, []⟩,
   ⟨"NamedBarrier", 59, []⟩,
   ⟨"PipeStorage", 60, []⟩]

end Enumerant

end SpirvInspector
