import Hllm.WireMessages
import Mathlib.Data.Rat.Floor
import Mathlib.Data.PNat.Defs
import Mathlib.Algebra.Order.Monoid.Unbundled.WithTop

/-!
# Data of the placement planner

The versioned models that planning reads and writes. Floats are exact
rationals, with a top element for `math.inf`. Ranges a validator enforces are
part of the types. Fields that only travel (source descriptors, file lists,
measurement details inside a profile bundle) are left out.
-/

namespace Hllm.PlannerModels

open WireMessages

/-- The literal `1` of a positive count. -/
instance neZeroOne : NeZero (1 : ℕ) := ⟨Nat.one_ne_zero⟩

/-- The literal `2` of a positive count. -/
instance neZeroTwo : NeZero (2 : ℕ) := ⟨Nat.succ_ne_zero 1⟩

/-- `PLAN_SCHEMA_VERSION` -/
def planSchemaVersion : String := "1.0"

/-- `PLANNER_VERSION` -/
def plannerVersion : String := "0.1.0"

/-- `DType` -/
inductive DType
  | bool
  | u8
  | i8
  | i16
  | u16
  | i32
  | u32
  | i64
  | u64
  | f16
  | bf16
  | f32
  | f64
  deriving DecidableEq,Repr

/-- `_DTYPE_TO_PROTO` -/
def DType.toProto : DType → DataType
  | .bool => .bool
  | .u8 => .u8
  | .i8 => .i8
  | .i16 => .i16
  | .u16 => .u16
  | .i32 => .i32
  | .u32 => .u32
  | .i64 => .i64
  | .u64 => .u64
  | .f16 => .f16
  | .bf16 => .bf16
  | .f32 => .f32
  | .f64 => .f64

/-- The value of a `DType` is the name of the wire constant without its family. -/
def DType.value (d : DType) : String := d.toProto.name

/-- `DTYPE_BYTES` -/
def DType.bytes : DType → ℕ
  | .bool => 1
  | .u8 => 1
  | .i8 => 1
  | .i16 => 2
  | .u16 => 2
  | .i32 => 4
  | .u32 => 4
  | .i64 => 8
  | .u64 => 8
  | .f16 => 2
  | .bf16 => 2
  | .f32 => 4
  | .f64 => 8

/-- `MAXIMUM_BOUNDARY_PAYLOAD_BYTES` -/
def maximumBoundaryPayloadBytes : ℕ := 16*1024*1024/2

/-- `maximum_boundary_tokens` -/
def maximumBoundaryTokens (hiddenSize : ℕ) (activationDtype : DType) : ℕ :=
  maximumBoundaryPayloadBytes/(hiddenSize*activationDtype.bytes)

/-- `TensorRole` -/
inductive TensorRole
  | tokenEmbedding
  | transformerLayer
  | finalNorm
  | lmHead
  | architectureState
  deriving DecidableEq,Repr

/-- `Provenance` -/
inductive Provenance
  | theoretical
  | configured
  | observed
  | measured
  deriving DecidableEq,Repr

/-- `Backend` -/
inductive Backend
  | cpu
  | mlx
  | cuda
  deriving DecidableEq,Repr

/-- `MemoryDomain` -/
inductive MemoryDomain
  | unified
  | device
  | host
  | hostPinned
  deriving DecidableEq,Repr

/-- Texts of the memory domains. -/
def MemoryDomain.value : MemoryDomain → String
  | .unified => "UNIFIED"
  | .device => "DEVICE"
  | .host => "HOST"
  | .hostPinned => "HOST_PINNED"

/-- `ConnectionType` -/
inductive ConnectionType
  | direct
  | peerRelayed
  | derpRelayed
  | unknown
  deriving DecidableEq,Repr

/-- `PlanningMode` -/
inductive PlanningMode
  | feasibility
  | estimated
  | measured
  deriving DecidableEq,Repr

/-- Texts of the planning modes. -/
def PlanningMode.value : PlanningMode → String
  | .feasibility => "feasibility"
  | .estimated => "estimated"
  | .measured => "measured"

/-- The part of `ModelConfig` that planning reads. -/
structure ModelConfig where
  hiddenSize : ℕ+
  numLayers : ℕ+
  numKvHeads : ℕ+
  headDim : ℕ+
  tiedEmbeddings : Bool
  deriving DecidableEq

/-- The part of `TensorRecord` that planning reads. -/
structure TensorRecord where
  shape : List ℕ
  role : TensorRole
  layerIndex : Option ℕ
  deriving DecidableEq

/-- `num_elements` -/
def TensorRecord.numElements (tensor : TensorRecord) : ℕ := tensor.shape.prod

/-- The part of `ModelManifest` that planning reads. -/
structure ModelManifest where
  schemaVersion : String
  manifestDigest : String
  architectureId : String
  config : ModelConfig
  tensors : List TensorRecord
  deriving DecidableEq

/-- `MemoryBudget` -/
structure MemoryBudget where
  domain : MemoryDomain
  capacityBytes : ℕ+
  runtimeReserveBytes : ℕ
  safetyFraction : ℚ
  safetyFraction_range : 0 ≤ safetyFraction ∧ safetyFraction<1
  deriving DecidableEq

/-- `usable_bytes` -/
def MemoryBudget.usableBytes (budget : MemoryBudget) : ℕ :=
  budget.capacityBytes-budget.runtimeReserveBytes-
    (Rat.floor (budget.capacityBytes*budget.safetyFraction)).toNat

/-- `WorkerProfile` -/
structure WorkerProfile where
  schemaVersion : String
  workerId : String
  endpoint : String
  backend : Backend
  primaryMemoryDomain : MemoryDomain
  supportedArchitectures : List String
  supportedExecutionDtypes : List DType
  supportsMixedPrecision : Bool
  memoryBudgets : List MemoryBudget
  fixedWorkspaceBytes : ℕ
  activationBufferCount : ℕ+
  allocatorAllowanceFraction : ℚ
  hostTransportBufferBytes : ℕ
  provenance : Provenance
  observedAvailableHostBytes : Option ℕ
  observedAt : Option String
  domains_unique : (memoryBudgets.map (·.domain)).Nodup
  primary_budgeted : primaryMemoryDomain∈memoryBudgets.map (·.domain)
  deriving DecidableEq

/-- `budget_for` -/
def WorkerProfile.budgetFor (worker : WorkerProfile) (domain : MemoryDomain) :
    Option MemoryBudget :=
  worker.memoryBudgets.find? fun budget => budget.domain=domain

/-- `LinkProfile` -/
structure LinkProfile where
  sourceWorkerId : String
  targetWorkerId : String
  connectionType : ConnectionType
  fixedLatencyMs : ℚ
  bandwidthBytesPerSecond : ℚ
  senderConversionMs : ℚ
  receiverConversionMs : ℚ
  provenance : Provenance
  bandwidth_pos : 0 < bandwidthBytesPerSecond

/-- `WorkloadProfile` -/
structure WorkloadProfile where
  workloadId : String
  promptTokens : ℕ+
  outputTokens : ℕ+
  concurrency : ℕ+
  totalCachedTokens : ℕ+
  kvOverheadFactor : ℚ
  kvDtype : DType
  activationDtype : DType
  prefillChunkTokens : ℕ
  kvOverheadFactor_ge : 1 ≤ kvOverheadFactor
  chunk_below_prompt : prefillChunkTokens < promptTokens

/-- `boundary_message_tokens` -/
def WorkloadProfile.boundaryMessageTokens (workload : WorkloadProfile) : ℕ :=
  if workload.prefillChunkTokens=0 then workload.promptTokens else workload.prefillChunkTokens

/-- `ObjectiveWeights` -/
structure ObjectiveWeights where
  ttft : ℚ
  itl : ℚ
  pipelinePeriod : ℚ
  memoryPressure : ℚ
  deriving DecidableEq

/-- `PlannerSettings` -/
structure PlannerSettings where
  mode : PlanningMode
  executionDtype : DType
  weightDtype : Option DType
  objectiveWeights : ObjectiveWeights
  /-- Mixed precision is F16 weights with F32 execution. -/
  precision : ∀ d,weightDtype=some d → d=.f16 ∧ executionDtype=.f32

/-- `StageMemory` -/
structure StageMemory where
  workerId : String
  domain : MemoryDomain
  layerStart : ℕ
  layerEnd : ℕ
  weightBytes : ℕ
  kvCacheBytes : ℕ
  workspaceBytes : ℕ
  activationBufferBytes : ℕ
  allocatorAllowanceBytes : ℕ
  requiredBytes : ℕ
  usableBytes : ℕ
  pressure : WithTop ℚ

/-- The part of `PerformanceEstimate` that planning writes or scores. -/
structure PerformanceEstimate where
  boundaryPrefillMs : ℚ
  boundaryDecodeMs : ℚ
  confidence : String
  ttftMs : Option ℚ
  decodeMs : List ℚ

/-- `PlanCandidate` -/
structure PlanCandidate where
  candidateId : String
  stageZeroWorkerId : String
  finalStageWorkerId : String
  splitLayer : ℕ
  stages : StageMemory×StageMemory
  feasible : Bool
  measurementStatus : Option String
  rejectionReasons : List String
  performance : Option PerformanceEstimate
  score : Option (WithTop ℚ)
  rank : Option ℕ

/-- `DeploymentPlan` as the planner keeps it. Stage assignments have the same
fields as on the wire. -/
structure DeploymentPlan where
  schemaVersion : String
  plannerVersion : String
  planId : String
  deploymentVersion : ℕ
  planDigest : String
  manifestDigest : String
  workloadId : String
  planningMode : PlanningMode
  executionDtype : DType
  weightDtype : Option DType
  activationDtype : DType
  splitLayer : ℕ
  workloadDigest : Option String
  profileBundleDigest : Option String
  stages : List StageAssignment
  duplicatedTensorGroups : List String
  selectedCandidateId : String

/-- `PlanningReport` -/
structure PlanningReport where
  settings : Option PlannerSettings
  plannerVersion : String
  manifestDigest : String
  workloadId : String
  mode : PlanningMode
  selectedCandidateId : Option String
  candidates : List PlanCandidate
  plan : Option DeploymentPlan
  notes : List String

/-- The parts of a profile bundle planning itself reads. Its workers have
distinct ids and its digest is a validated one. -/
structure ProfileBundle where
  workers : List WorkerProfile
  bundleDigest : String
  workers_distinct : (workers.map (·.workerId)).Nodup

/-- Exceptions that leave the planner. -/
inductive Raised
  /-- `PlanningError` -/
  | planning (message : String)
  /-- A validator's `ValueError`. -/
  | value (message : String)
  /-- A failed assertion. -/
  | assertion
  /-- Whatever evaluating a profile bundle raises. -/
  | evaluation (message : String)

end Hllm.PlannerModels
