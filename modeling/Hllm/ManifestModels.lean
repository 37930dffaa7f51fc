import Hllm.PlannerPlacement

/-!
# The prepared manifest

`ModelManifest` with every field, as preparation writes it and the mapping to
the wire reads it. What a field validator demands is part of the types. Floats
are bit patterns of doubles.
-/

namespace Hllm.ManifestModels

open PlannerModels PlannerPlacement

/-- `gt=0.0` refuses what is at most zero; a NaN is not. -/
def nonPositive (bits : UInt64) : Bool :=
  let magnitude := bits &&& 0x7fffffffffffffff
  decide (magnitude ≤ 0x7ff0000000000000) && (bits != magnitude || magnitude == 0)

/-- `PositiveFloat` -/
abbrev PositiveFloat := { bits : UInt64 // nonPositive bits=false }

/-- Validation of a `PositiveFloat`. -/
def positiveFloat (bits : UInt64) : Except Raised PositiveFloat :=
  if h : nonPositive bits=false then .ok ⟨bits,h⟩
  else .error (.value "Input should be greater than 0")

/-- Validation of a `PositiveInt`. -/
def positiveInt (n : ℕ) : Except Raised ℕ+ :=
  if h : 0 < n then .ok (n.toPNat h) else .error (.value "Input should be greater than 0")

/-- `SourceDescriptor` -/
structure SourceDescriptor where
  modelId : String
  revision : Option String
  configSha256 : String
  indexSha256 : Option String
  tensorMetadataSha256 : Option String
  deriving DecidableEq

/-- `ArchitectureDescriptor` -/
structure ArchitectureDescriptor where
  architectureId : String
  architectureRevision : String
  featureFlags : List String
  deriving DecidableEq

/-- `RopeScaling` -/
structure RopeScaling where
  scalingType : String
  factor : PositiveFloat
  originalMaxPositionEmbeddings : Option ℕ+
  deriving DecidableEq

/-- `ModelConfig` -/
structure ModelConfig where
  hiddenSize : ℕ+
  intermediateSize : ℕ+
  numLayers : ℕ+
  numAttentionHeads : ℕ+
  numKvHeads : ℕ+
  headDim : ℕ+
  vocabularySize : ℕ+
  maximumSequenceLength : ℕ+
  tiedEmbeddings : Bool
  rmsNormEps : PositiveFloat
  ropeTheta : PositiveFloat
  ropeScaling : Option RopeScaling
  hiddenActivation : String
  attentionBias : Bool
  mlpBias : Bool
  eosTokenIds : List ℕ
  heads_divisible : numAttentionHeads.val%numKvHeads.val=0
  eos_unique : eosTokenIds.Nodup
  deriving DecidableEq

/-- `TensorFile` -/
structure TensorFile where
  name : String
  sizeBytes : ℕ
  headerSizeBytes : ℕ
  sha256 : Option String
  deriving DecidableEq

/-- `TensorRecord` -/
structure TensorRecord where
  name : String
  file : String
  dtype : DType
  shape : List ℕ
  dataOffset : ℕ
  byteLength : ℕ
  role : TensorRole
  layerIndex : Option ℕ
  sharedWeightGroup : Option String
  deriving DecidableEq

/-- `ComponentMemory` -/
structure ComponentMemory where
  role : TensorRole
  layerIndex : Option ℕ
  storageBytes : ℕ
  deriving DecidableEq

/-- `ModelManifest` -/
structure ModelManifest where
  schemaVersion : String
  manifestId : String
  manifestDigest : String
  source : SourceDescriptor
  architecture : ArchitectureDescriptor
  config : ModelConfig
  tensorFiles : List TensorFile
  tensors : List TensorRecord
  components : List ComponentMemory
  totalStorageBytes : ℕ
  deriving DecidableEq

/-- `DeploymentPlan` is built from fields that passed their own checks and the
check of the partition. -/
def validateDeploymentPlan (plan : DeploymentPlan) : Except Raised Unit := do
  check (0 < plan.deploymentVersion) "deployment_version"
  check (∀ stage∈plan.stages,0 < stage.layerEnd) "layer_end"
  validatePartition plan

/-- A number passes as a `PositiveInt` as itself. -/
theorem positiveInt_ok_iff {n : ℕ} {p : ℕ+} : positiveInt n=.ok p ↔ p.val=n := by
  unfold positiveInt
  split
  · rename_i hpos
    constructor
    · intro h
      cases h
      rfl
    · intro h
      exact congrArg Except.ok (PNat.eq h.symm)
  · rename_i hzero
    constructor
    · intro h
      cases h
    · intro h
      exact absurd (h ▸ p.pos) hzero

/-- A double passes as a `PositiveFloat` as itself. -/
theorem positiveFloat_ok_iff {bits : UInt64} {x : PositiveFloat} :
    positiveFloat bits=.ok x ↔ x.val=bits := by
  unfold positiveFloat
  split
  · rw [Except.ok.injEq,Subtype.ext_iff]
    exact eq_comm
  · rename_i hpositive
    constructor
    · intro h
      cases h
    · intro h
      exact absurd (h ▸ x.property) hpositive

end Hllm.ManifestModels
