import Hllm.CheckedSizes
import Hllm.OrderedMap
import Hllm.PlannerPlacement
import Hllm.ControlModel

/-!
# Inspecting a stage before it is loaded

`inspect_dense_stage` compares the manifest of a stage with the names and
shapes its configuration prescribes and with the metadata of the weight files.
The files are an environment: whether a name resolves inside the model root,
and what a file says about a tensor. The two floating-point parameters are
bit patterns of doubles, of which only the tests of the loader are modelled.
-/

namespace Hllm.DenseLoader

open CheckedSizes MemoryAccounting OrderedMap WireMessages
open ControlModel (Failure)
open PlannerModels (TensorRole)

/-- Wire number of a tensor role. -/
def roleNumber : TensorRole → ℤ
  | .tokenEmbedding => 1
  | .transformerLayer => 2
  | .finalNorm => 3
  | .lmHead => 4
  | .architectureState => 5

/-- `ExpectedTensor` -/
structure ExpectedTensor where
  shape : List ℕ
  role : ℤ
  layer : ℤ := -1
  deriving DecidableEq

/-- `runtime::TensorMetadata` -/
structure TensorMetadata where
  dtype : DataType
  shape : List ℕ
  dataOffset : ℕ
  byteLength : ℕ

/-- `TensorSource` -/
structure TensorSource where
  file : String
  shape : List ℕ
  dtype : DataType

/-- `DenseConfig` without its floating-point parameters. -/
structure DenseConfig where
  hiddenSize : ℕ
  intermediateSize : ℕ
  attentionHeads : ℕ
  keyValueHeads : ℕ
  headDimension : ℕ
  maximumSequenceLength : ℕ
  queryKeyNorm : Bool

/-- `DenseSource` -/
structure DenseSource where
  config : DenseConfig
  vocabularySize : ℕ
  layerStart : ℕ
  layerEnd : ℕ
  first : Bool
  final : Bool
  tiedHead : Bool
  executionDtype : DataType
  weightDtype : DataType
  weightCastWorkspaceBytes : ℕ := 0
  float32WeightBytes : ℕ := 0
  largestPayloadBytes : ℕ := 0
  largestFloat32TensorBytes : ℕ := 0
  verificationWorkspaceBytes : ℕ := 0
  redundantHeadFile : Option String := none
  tensors : List (String×TensorSource) := []
  /-- Names of the files that were opened. -/
  files : List String := []

/-- The model root of a worker. -/
structure Environment where
  /-- The canonical path of a name in the root lies directly in the canonical root. -/
  contained : String → Except Failure Bool
  /-- A file of the root, opened, and its metadata of a tensor. -/
  openFile : String → Except Failure (String → Except Failure TensorMetadata)

/-- Throw that the worker is incompatible. -/
def rejectIf (condition : Prop) [Decidable condition] (message : String) : Except Failure Unit :=
  if condition then .error (.runtime ⟨.incompatibleWorker,message⟩) else .ok ()

/-- A size cast to 32 bits. -/
def size32 {α : Type} (xs : List α) : ℕ := xs.length%2^32

/-- `static_cast<int>` of an unsigned 32-bit number. -/
def toInt (i : ℕ) : ℤ := if i < 2^31 then i else i-2^32

/-- `add`, which is `checked_add`. -/
def add (a b : ℕ) : Except Failure ℕ := (checkedSum a b).mapError .runtime

/-- `multiply`, which is `checked_multiply`. -/
def multiply (a b : ℕ) : Except Failure ℕ := (checkedProduct a b).mapError .runtime

/-- `isfinite` of a double. -/
def isFinite (bits : UInt64) : Bool := (bits >>> 52) &&& 0x7ff != 0x7ff

/-- A finite double is positive. -/
def isPositive (bits : UInt64) : Bool := bits != 0 && bits < 0x8000000000000000

/-- A positive double rounds to a finite float: it is below the middle between
the largest float and the next power of two. -/
def floatFinite (bits : UInt64) : Bool := bits < 0x47efffffF0000000

/-- A positive double rounds to a positive float: it is above half the smallest one. -/
def floatPositive (bits : UInt64) : Bool := 0x3690000000000000 < bits

/-- Checks of the plan. -/
def checkPlan (request : LoadStageRequest) (plan : DeploymentPlan) : Except Failure Unit := do
  rejectIf (size32 plan.stages ≤ request.stageIndex ∨
      (plan.executionDtype≠DataType.f32.number ∧ plan.executionDtype≠DataType.f16.number))
    "invalid stage index or unsupported execution dtype"
  let schema := plan.schemaVersion.getD default
  rejectIf (plan.weightDtype.isSome≠decide (schema.major=1 ∧ schema.minor=2) ∨
      (plan.weightDtype.isSome=true ∧ (plan.weightDtype≠some DataType.f16.number ∨
        plan.executionDtype≠DataType.f32.number)))
    "unsupported resident/execution precision contract"

/-- `supported` -/
def supportedFeatures : List String :=
  ["gqa","mha","tied_embeddings","untied_embeddings","explicit_head_dim"]

/-- The loop over the feature flags; returns whether `qk_norm` was among them. -/
def checkFeatures (qwen : Bool) : Bool → List String → Except Failure Bool
  | qkFlag,[] => .ok qkFlag
  | qkFlag,feature::features => do
    if qwen=true ∧ feature="qk_norm" then checkFeatures qwen true features
    else do
      rejectIf (feature∉supportedFeatures) ("unsupported architecture feature: "++feature)
      checkFeatures qwen qkFlag features

/-- Checks of the architecture; returns whether it is Qwen3. -/
def checkArchitecture (descriptor : ArchitectureDescriptor) : Except Failure Bool := do
  let qwen := descriptor.architectureId="qwen3.v1"
  rejectIf ((descriptor.architectureId≠"llama.v1" ∧ ¬qwen) ∨
      descriptor.architectureRevision≠"1") "unsupported architecture ID or revision"
  let qkFlag ← checkFeatures qwen false descriptor.featureFlags
  rejectIf (qwen ∧ qkFlag=false) "Qwen3 requires qk_norm feature"
  pure qwen

/-- The configuration is one the loader supports. -/
def Supported (cfg : ModelConfig) : Prop :=
  cfg.hiddenSize≠0 ∧ cfg.intermediateSize≠0 ∧ cfg.numLayers≠0 ∧ cfg.numAttentionHeads≠0 ∧
  cfg.numKvHeads≠0 ∧ cfg.headDim≠0 ∧ cfg.headDim%2=0 ∧
  cfg.numAttentionHeads%cfg.numKvHeads=0 ∧ cfg.maximumSequenceLength≠0 ∧
  cfg.vocabularySize≠0 ∧ cfg.hiddenActivation="silu" ∧ cfg.attentionBias=false ∧
  cfg.mlpBias=false ∧ cfg.ropeScaling=none ∧ isFinite cfg.rmsNormEps=true ∧
  isPositive cfg.rmsNormEps=true ∧ isFinite cfg.ropeTheta=true ∧ isPositive cfg.ropeTheta=true ∧
  floatFinite cfg.ropeTheta=true ∧ floatFinite cfg.rmsNormEps=true ∧
  floatPositive cfg.rmsNormEps=true

instance (cfg : ModelConfig) : Decidable (Supported cfg) := by
  unfold Supported
  infer_instance

/-- Checks of the layer range of a stage. -/
def checkRange (cfg : ModelConfig) (assignment : StageAssignment) (tensors : List TensorRecord)
    (qwen : Bool) : Except Failure Unit :=
  rejectIf (assignment.layerEnd ≤ assignment.layerStart ∨ cfg.numLayers < assignment.layerEnd ∨
      size32 tensors/(if qwen then 11 else 9) < assignment.layerEnd-assignment.layerStart)
    "layer range exceeds available tensor records"

/-- Checks of the ownership of a stage. -/
def checkOwnership (request : LoadStageRequest) (plan : DeploymentPlan)
    (assignment : StageAssignment) : Except Failure Unit :=
  let first := decide (request.stageIndex=0)
  let final := decide (request.stageIndex+1=size32 plan.stages)
  rejectIf (assignment.ownsTokenEmbedding≠first ∨ assignment.ownsSampling≠final ∨
      assignment.ownsFinalNorm≠final ∨ assignment.ownsLmHead≠final)
    "inconsistent stage tensor ownership"

/-- Tensors of one layer with their shapes. -/
def layerShapes (cfg : ModelConfig) (attention kv : ℕ) (qwen : Bool) : List (String×List ℕ) :=
  [("input_layernorm.weight",[cfg.hiddenSize]),
    ("post_attention_layernorm.weight",[cfg.hiddenSize]),
    ("self_attn.q_proj.weight",[attention,cfg.hiddenSize]),
    ("self_attn.k_proj.weight",[kv,cfg.hiddenSize]),
    ("self_attn.v_proj.weight",[kv,cfg.hiddenSize]),
    ("self_attn.o_proj.weight",[cfg.hiddenSize,attention]),
    ("mlp.gate_proj.weight",[cfg.intermediateSize,cfg.hiddenSize]),
    ("mlp.up_proj.weight",[cfg.intermediateSize,cfg.hiddenSize]),
    ("mlp.down_proj.weight",[cfg.hiddenSize,cfg.intermediateSize])]++
  if qwen then [("self_attn.q_norm.weight",[cfg.headDim]),
    ("self_attn.k_norm.weight",[cfg.headDim])] else []

/-- Expected tensors of one layer. -/
def layerEntries (cfg : ModelConfig) (attention kv : ℕ) (qwen : Bool) (i : ℕ) :
    List (String×ExpectedTensor) :=
  (layerShapes cfg attention kv qwen).map fun entry =>
    ("model.layers."++toString i++"."++entry.1,
      ⟨entry.2,roleNumber .transformerLayer,toInt i⟩)

/-- What is emplaced into `expected`, in that order. -/
def expectedEntries (cfg : ModelConfig) (assignment : StageAssignment) (attention kv : ℕ)
    (qwen : Bool) : List (String×ExpectedTensor) :=
  (if assignment.ownsTokenEmbedding=true ∨
      (assignment.ownsLmHead=true ∧ cfg.tiedEmbeddings=true) then
    [("model.embed_tokens.weight",
      ⟨[cfg.vocabularySize,cfg.hiddenSize],roleNumber .tokenEmbedding,-1⟩)] else [])++
  (if assignment.ownsFinalNorm then
    [("model.norm.weight",⟨[cfg.hiddenSize],roleNumber .finalNorm,-1⟩)] else [])++
  (if assignment.ownsLmHead=true ∧ cfg.tiedEmbeddings=false then
    [("lm_head.weight",⟨[cfg.vocabularySize,cfg.hiddenSize],roleNumber .lmHead,-1⟩)] else [])++
  (List.range' assignment.layerStart (assignment.layerEnd-assignment.layerStart)).flatMap
    (layerEntries cfg attention kv qwen)

/-- One step of the loop that indexes the records by name. -/
def indexRecord (records : List (String×TensorRecord)) (tensor : TensorRecord) :
    Except Failure (List (String×TensorRecord)) := do
  rejectIf (contains records tensor.name=true) "duplicate tensor in manifest"
  pure (emplace records (tensor.name,tensor))

/-- A record must be one of the expected tensors. -/
def isSelected (cfg : ModelConfig) (assignment : StageAssignment) (record : TensorRecord) : Bool :=
  (record.role=roleNumber .transformerLayer && record.layerIndex.any fun i =>
    decide (assignment.layerStart ≤ i) && decide (i < assignment.layerEnd)) ||
  (record.role=roleNumber .tokenEmbedding && assignment.ownsTokenEmbedding) ||
  (record.role=roleNumber .finalNorm && assignment.ownsFinalNorm) ||
  (record.role=roleNumber .lmHead && assignment.ownsLmHead && !cfg.tiedEmbeddings)

/-- One step of the loop over the records. -/
def checkSelected (cfg : ModelConfig) (assignment : StageAssignment)
    (expected : List (String×ExpectedTensor)) (entry : String×TensorRecord) :
    Except Failure Unit :=
  rejectIf (isSelected cfg assignment entry.2=true ∧ contains expected entry.1=false)
    ("unsupported selected tensor: "++entry.1)

/-- A relative path that is the plain name of a file. -/
def isPlainName (file : String) : Bool :=
  file != "" && !file.toList.contains '/' && file != "." && file != ".."

/-- The wire number of a weight dtype the loader can convert. -/
def weightDtypeNumber : DataType → Option ℤ
  | .f32 => some DataType.f32.number
  | .f16 => some DataType.f16.number
  | .bf16 => some DataType.bf16.number
  | _ => none

/-- The record is what the tensor was expected to be. -/
def matchesSpec (record : TensorRecord) (spec : ExpectedTensor) : Bool :=
  decide (record.role=spec.role) &&
  (if 0 ≤ spec.layer then decide (record.layerIndex=some spec.layer.toNat)
    else record.layerIndex.isNone) &&
  decide (record.shape=spec.shape)

/-- A source being collected, with the cast bytes of every layer and of the head. -/
abbrev Collected := DenseSource×(ℤ → ℕ)

/-- The metadata of an expected tensor, after all checks of its record. -/
def checkTensor (env : Environment) (records : List (String×TensorRecord))
    (entry : String×ExpectedTensor) : Except Failure (TensorRecord×TensorMetadata) := do
  let record ← (match records.lookup entry.1 with
    | none => .error (.runtime ⟨.incompatibleWorker,"missing required tensor: "++entry.1⟩)
    | some record => .ok record)
  rejectIf (matchesSpec record entry.2=false)
    ("incorrect tensor shape or ownership: "++entry.1)
  let inside ← (if isPlainName record.file then env.contained record.file else .ok false)
  rejectIf (inside=false) "tensor path escapes model root"
  let file ← env.openFile record.file
  let tensor ← file entry.1
  rejectIf (weightDtypeNumber tensor.dtype≠some record.dtype ∨ tensor.shape≠entry.2.shape ∨
      tensor.dataOffset≠record.dataOffset ∨ tensor.byteLength≠record.byteLength)
    ("Safetensors metadata mismatch or unsupported dtype: "++entry.1)
  pure (record,tensor)

/-- Account for a checked tensor. -/
def collect (mixed : Bool) (state : Collected) (entry : String×ExpectedTensor)
    (record : TensorRecord) (tensor : TensorMetadata) : Except Failure Collected := do
  let source := state.1
  let elements ← entry.2.shape.foldlM multiply 1
  let bytes ← multiply elements 4
  let total ← add source.float32WeightBytes bytes
  let collected : DenseSource := {source with
    float32WeightBytes := total
    largestPayloadBytes := max source.largestPayloadBytes tensor.byteLength
    largestFloat32TensorBytes := max source.largestFloat32TensorBytes bytes
    tensors := emplace source.tensors (entry.1,⟨record.file,entry.2.shape,tensor.dtype⟩)}
  if mixed=true ∧ (0 ≤ entry.2.layer ∨ source.final=true) then do
    let group ← add (state.2 entry.2.layer) bytes
    pure ({collected with
      weightCastWorkspaceBytes := max source.weightCastWorkspaceBytes group},
      Function.update state.2 entry.2.layer group)
  else pure (collected,state.2)

/-- A file is remembered once it is open. -/
def opened (source : DenseSource) (file : String) : DenseSource :=
  if source.files.contains file then source else {source with files := source.files++[file]}

/-- One step of the loop over the expected tensors. -/
def inspectTensor (env : Environment) (records : List (String×TensorRecord))
    (mixed redundant : Bool) (state : Collected) (entry : String×ExpectedTensor) :
    Except Failure Collected := do
  let (record,tensor) ← checkTensor env records entry
  let state := (opened state.1 record.file,state.2)
  if redundant=true ∧ entry.1="lm_head.weight" then pure state
  else collect mixed state entry record tensor

/-- The comparison of a redundant tied head with the embedding. -/
def checkRedundantHead (env : Environment) (records : List (String×TensorRecord))
    (source : DenseSource) : Except Failure DenseSource :=
  match records.lookup "model.embed_tokens.weight",records.lookup "lm_head.weight" with
  | some embeddingRecord,some headRecord => do
    let embeddingFile ← env.openFile embeddingRecord.file
    let embedding ← embeddingFile "model.embed_tokens.weight"
    let headFile ← env.openFile headRecord.file
    let head ← headFile "lm_head.weight"
    rejectIf (embedding.dtype≠head.dtype ∨ embedding.shape≠head.shape ∨
        embedding.byteLength≠head.byteLength)
      "redundant tied head must match embedding storage metadata"
    pure {source with
      redundantHeadFile := some headRecord.file
      verificationWorkspaceBytes := min head.byteLength (1024*1024)}
  | _,_ => .error (.other "map::at")

/-- The source before any tensor was inspected. -/
def initialSource (plan : DeploymentPlan) (cfg : ModelConfig) (assignment : StageAssignment)
    (qwen : Bool) : DenseSource :=
  let execution : DataType := if plan.executionDtype=DataType.f16.number then .f16 else .f32
  {
    config := ⟨cfg.hiddenSize,cfg.intermediateSize,cfg.numAttentionHeads,cfg.numKvHeads,
      cfg.headDim,cfg.maximumSequenceLength,qwen⟩
    vocabularySize := cfg.vocabularySize
    layerStart := assignment.layerStart
    layerEnd := assignment.layerEnd
    first := assignment.ownsTokenEmbedding
    final := assignment.ownsSampling
    tiedHead := assignment.ownsLmHead && cfg.tiedEmbeddings
    executionDtype := execution
    weightDtype := if plan.weightDtype.isSome then .f16 else execution}

/-- The part of `inspect_dense_stage` that compares tensors. -/
def inspectTensors (env : Environment) (plan : DeploymentPlan) (cfg : ModelConfig)
    (assignment : StageAssignment) (tensors : List TensorRecord) (qwen : Bool) :
    Except Failure DenseSource := do
  let attention ← multiply cfg.numAttentionHeads cfg.headDim
  let kv ← multiply cfg.numKvHeads cfg.headDim
  let records ← tensors.foldlM indexRecord []
  let redundant := assignment.ownsLmHead && cfg.tiedEmbeddings && contains records "lm_head.weight"
  let expected := emplaceAll [] (expectedEntries cfg assignment attention kv qwen++
    if redundant then
      [("lm_head.weight",⟨[cfg.vocabularySize,cfg.hiddenSize],roleNumber .lmHead,-1⟩)] else [])
  records.forM (checkSelected cfg assignment expected)
  let (source,_) ← expected.foldlM (inspectTensor env records plan.weightDtype.isSome redundant)
    (initialSource plan cfg assignment qwen,fun _ => 0)
  if redundant then checkRedundantHead env records source else pure source

/-- `inspect_dense_stage` -/
def inspectDenseStage (env : Environment) (request : LoadStageRequest) :
    Except Failure DenseSource := do
  let plan := request.plan.getD default
  let manifest := request.manifest.getD default
  let cfg := manifest.config.getD default
  checkPlan request plan
  let qwen ← checkArchitecture (manifest.architecture.getD default)
  rejectIf (¬Supported cfg) "unsupported dense model configuration"
  let assignment := plan.stages.getD request.stageIndex default
  checkRange cfg assignment manifest.tensors qwen
  checkOwnership request plan assignment
  inspectTensors env plan cfg assignment manifest.tensors qwen

end Hllm.DenseLoader
