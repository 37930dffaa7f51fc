import Mathlib.Data.Nat.Basic

/-!
# Wire messages of a deployment

The protobuf messages a stage is loaded from. Enumeration fields travel as
open 32-bit numbers, so a message can carry a number that names no constant.
Sub-messages and optional fields have presence; an absent sub-message reads
as its default value. Floating-point fields are kept as their bit patterns.
-/

namespace Hllm.WireMessages

/-- Major and minor version of an artifact schema. -/
structure ArtifactVersion where
  major : ℕ
  minor : ℕ
  deriving DecidableEq,Inhabited,Repr

/-- Constants of the data type enumeration. -/
inductive DataType
  | unspecified
  | bool
  | u8
  | i8
  | i16
  | u16
  | i32
  | u32
  | i64
  | u64
  | f16
  | bf16
  | f32
  | f64
  deriving DecidableEq,Inhabited,Repr

/-- Wire number of a data type. -/
def DataType.number : DataType → ℤ
  | .unspecified => 0
  | .bool => 1
  | .u8 => 2
  | .i8 => 3
  | .i16 => 4
  | .u16 => 5
  | .i32 => 6
  | .u32 => 7
  | .i64 => 8
  | .u64 => 9
  | .f16 => 10
  | .bf16 => 11
  | .f32 => 12
  | .f64 => 13

/-- The constant with a wire number, if there is one. -/
def DataType.ofNumber (n : ℤ) : Option DataType :=
  [.unspecified,.bool,.u8,.i8,.i16,.u16,.i32,.u32,.i64,.u64,.f16,.bf16,.f32,.f64].find?
    (·.number==n)

/-- `DataType_Name` without its ten-character family name. -/
def DataType.name : DataType → String
  | .unspecified => "UNSPECIFIED"
  | .bool => "BOOL"
  | .u8 => "U8"
  | .i8 => "I8"
  | .i16 => "I16"
  | .u16 => "U16"
  | .i32 => "I32"
  | .u32 => "U32"
  | .i64 => "I64"
  | .u64 => "U64"
  | .f16 => "F16"
  | .bf16 => "BF16"
  | .f32 => "F32"
  | .f64 => "F64"

/-- `DataType_IsValid` -/
def DataType.isValid (n : ℤ) : Bool := (DataType.ofNumber n).isSome

@[simp] theorem DataType.ofNumber_number (d : DataType) :
    DataType.ofNumber d.number=some d := by
  cases d <;> rfl

/-- Only the number of a constant names it. -/
theorem DataType.number_of_ofNumber {n : ℤ} {d : DataType} (h : DataType.ofNumber n=some d) :
    d.number=n := by
  have hfound := List.find?_some h
  simpa using hfound

theorem DataType.name_injective : Function.Injective DataType.name := by
  intro d d' h
  cases d <;> cases d' <;> first | rfl | exact absurd h (by decide)

/-- Where a prepared model came from. -/
structure ModelSource where
  modelId : String
  revision : String
  configSha256 : String
  indexSha256 : String
  tensorMetadataSha256 : String
  deriving DecidableEq,Inhabited,Repr

/-- Architecture of a prepared model. -/
structure ArchitectureDescriptor where
  architectureId : String
  architectureRevision : String
  featureFlags : List String
  deriving DecidableEq,Inhabited,Repr

/-- Optional scaling of rotary positions. -/
structure RopeScaling where
  scalingType : String
  factor : UInt64
  originalMaxPositionEmbeddings : Option ℕ
  deriving DecidableEq,Inhabited,Repr

/-- Shape parameters of a prepared model. -/
structure ModelConfig where
  hiddenSize : ℕ
  intermediateSize : ℕ
  numLayers : ℕ
  numAttentionHeads : ℕ
  numKvHeads : ℕ
  headDim : ℕ
  vocabularySize : ℕ
  maximumSequenceLength : ℕ
  tiedEmbeddings : Bool
  rmsNormEps : UInt64
  ropeTheta : UInt64
  ropeScaling : Option RopeScaling
  hiddenActivation : String
  attentionBias : Bool
  mlpBias : Bool
  eosTokenIds : List ℕ
  deriving DecidableEq,Inhabited,Repr

/-- One weight file. -/
structure TensorFile where
  name : String
  sizeBytes : ℕ
  headerSizeBytes : ℕ
  sha256 : String
  deriving DecidableEq,Inhabited,Repr

/-- One tensor of a weight file. -/
structure TensorRecord where
  name : String
  file : String
  dtype : ℤ
  shape : List ℕ
  dataOffset : ℕ
  byteLength : ℕ
  role : ℤ
  layerIndex : Option ℕ
  sharedWeightGroup : String
  deriving DecidableEq,Inhabited,Repr

/-- Storage of one model component. -/
structure ComponentMemory where
  role : ℤ
  layerIndex : Option ℕ
  storageBytes : ℕ
  deriving DecidableEq,Inhabited,Repr

/-- A prepared model as it is sent to a worker. -/
structure ModelManifest where
  schemaVersion : Option ArtifactVersion
  manifestId : String
  manifestDigest : String
  source : Option ModelSource
  architecture : Option ArchitectureDescriptor
  config : Option ModelConfig
  tensorFiles : List TensorFile
  tensors : List TensorRecord
  components : List ComponentMemory
  totalStorageBytes : ℕ
  deriving DecidableEq,Inhabited,Repr

/-- The part of the model one worker runs. -/
structure StageAssignment where
  stageIndex : ℕ
  workerId : String
  layerStart : ℕ
  layerEnd : ℕ
  ownsTokenEmbedding : Bool
  ownsFinalNorm : Bool
  ownsLmHead : Bool
  ownsSampling : Bool
  deriving DecidableEq,Inhabited,Repr

/-- A deployment plan as it is sent to a worker. -/
structure DeploymentPlan where
  schemaVersion : Option ArtifactVersion
  plannerVersion : String
  planId : String
  planDigest : String
  manifestDigest : String
  workloadId : String
  planningMode : String
  executionDtype : ℤ
  activationDtype : ℤ
  splitLayer : ℕ
  stages : List StageAssignment
  selectedCandidateId : String
  duplicatedTensorGroups : List String
  deploymentVersion : ℕ
  workloadDigest : String
  profileBundleDigest : String
  weightDtype : Option ℤ
  deriving DecidableEq,Inhabited,Repr

/-- Network address of a stage. -/
structure StageEndpoint where
  stageIndex : ℕ
  workerId : String
  endpoint : String
  deriving DecidableEq,Inhabited,Repr

/-- Request to load one stage of a plan. -/
structure LoadStageRequest where
  plan : Option DeploymentPlan
  stageIndex : ℕ
  manifest : Option ModelManifest
  stageEndpoints : List StageEndpoint
  deriving DecidableEq,Inhabited,Repr

end Hllm.WireMessages
