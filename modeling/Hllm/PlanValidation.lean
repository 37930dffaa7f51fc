import Hllm.JsonText
import Hllm.MemoryAccounting
import Hllm.WireMessages

/-!
# Plan validation on a worker

`validate_plan` as the worker runs it before it loads a stage. The checks
stand in the order of the source, since the first failing one decides the
error. Measured and mixed-precision plans carry a digest of their canonical
text, which the worker rebuilds from the message fields.
-/

namespace Hllm.PlanValidation

open JsonText MemoryAccounting WireMessages

/-- What a backend factory says it can execute. -/
structure BackendCapabilities where
  /-- Architecture ids. -/
  architectures : List String
  /-- Execution data types, as wire numbers. -/
  executionDtypes : List ℤ
  /-- Text appended to the rejection of an unsupported plan. -/
  detail : String
  /-- F16 resident weights with F32 execution. -/
  supportsMixedPrecision : Bool

/-- `Error::incompatible_worker` -/
def incompatibleWorker (message : String) : Error := ⟨.incompatibleWorker,message⟩

/-- A throwing check. -/
def reject (condition : Prop) [Decidable condition] (message : String) : Except Error Unit :=
  if condition then .error (incompatibleWorker message) else .ok ()

/-- The `digest` lambda: 64 lowercase hexadecimal characters. -/
def isDigest (value : String) : Bool :=
  value.length==64 && value.toList.all ("0123456789abcdef".toList.contains ·)

/-- Schema version of a message, zero when absent. -/
def version (v : Option ArtifactVersion) : ArtifactVersion := v.getD ⟨0,0⟩

/-- A plan with a weight data type. -/
def mixed (plan : DeploymentPlan) : Bool := plan.weightDtype.isSome

/-- A plan made from measured profiles. -/
def measured (plan : DeploymentPlan) : Bool := plan.planningMode=="measured"

/-- JSON of one stage in the digest text. -/
def stageJson (s : StageAssignment) : Json := .sorted [
  ("stage_index",.number s.stageIndex),("worker_id",.string s.workerId),
  ("layer_start",.number s.layerStart),("layer_end",.number s.layerEnd),
  ("owns_token_embedding",.bool s.ownsTokenEmbedding),("owns_final_norm",.bool s.ownsFinalNorm),
  ("owns_lm_head",.bool s.ownsLmHead),("owns_sampling",.bool s.ownsSampling)]

/-- `DataType_Name(..).substr(10)`; only used after both types were checked. -/
def dtypeName (n : ℤ) : String := ((DataType.ofNumber n).map DataType.name).getD ""

/-- `unsigned_plan` rebuilt from the wire message. A key assigned a second
time keeps its place and takes the new value. -/
def unsignedPlan (plan : DeploymentPlan) : Json :=
  .sorted ([
    ("schema_version",.string (if mixed plan then "1.2" else "1.1")),
    ("planner_version",.string plan.plannerVersion),
    ("deployment_version",.number plan.deploymentVersion),
    ("manifest_digest",.string plan.manifestDigest),
    ("workload_id",.string plan.workloadId),("planning_mode",.string plan.planningMode),
    ("execution_dtype",.string (dtypeName plan.executionDtype)),
    ("activation_dtype",.string (dtypeName plan.activationDtype)),
    ("split_layer",.number plan.splitLayer),("stages",.array (plan.stages.map stageJson)),
    ("duplicated_tensor_groups",.array (plan.duplicatedTensorGroups.map .string)),
    ("selected_candidate_id",.string plan.selectedCandidateId),
    ("workload_digest",if measured plan then .string plan.workloadDigest else .null),
    ("profile_bundle_digest",if measured plan then .string plan.profileBundleDigest else .null)]++
    if mixed plan then [("weight_dtype",.string "F16")] else [])

/-- The stage loop: indices in order, distinct workers, contiguous nonempty
layer ranges, and ownership by position. Returns where the last stage ends. -/
def checkStages (count layers : ℕ) : ℕ → ℕ → List String → List StageAssignment →
    Except Error ℕ
  | _,finish,_,[] => .ok finish
  | i,finish,workers,stage::stages => do
    let first := i==0
    let last := i+1==count
    reject (stage.stageIndex≠i ∨ stage.workerId="" ∨ stage.workerId∈workers ∨
        stage.layerStart≠finish ∨ stage.layerEnd ≤ finish ∨ layers < stage.layerEnd ∨
        stage.ownsTokenEmbedding≠first ∨ stage.ownsLmHead≠last ∨
        stage.ownsFinalNorm≠last ∨ stage.ownsSampling≠last)
      "invalid stage partition or tensor ownership"
    checkStages count layers (i+1) stage.layerEnd (stage.workerId::workers) stages

/-- The endpoint loop: every endpoint belongs to another stage and address. -/
def checkEndpoints (stages : List StageAssignment) : List ℕ → List String → List StageEndpoint →
    Except Error Unit
  | _,_,[] => .ok ()
  | indices,endpoints,endpoint::rest => do
    reject (stages.length ≤ endpoint.stageIndex ∨ endpoint.stageIndex∈indices ∨
        endpoint.endpoint="" ∨ endpoint.endpoint∈endpoints ∨
        (stages[endpoint.stageIndex]?).map (·.workerId)≠some endpoint.workerId)
      "invalid stage endpoint mapping"
    checkEndpoints stages (endpoint.stageIndex::indices) (endpoint.endpoint::endpoints) rest

/-- Identity checks: schema, digests and versions that must be there. -/
def checkIdentity (plan : DeploymentPlan) (manifest : ModelManifest) : Except Error Unit :=
  reject ((version plan.schemaVersion).major≠1 ∨ 2<(version plan.schemaVersion).minor ∨
      (version manifest.schemaVersion).major≠1 ∨ 1<(version manifest.schemaVersion).minor ∨
      plan.planId="" ∨ plan.planDigest="" ∨ plan.deploymentVersion=0 ∨
      manifest.manifestDigest="" ∨ plan.manifestDigest≠manifest.manifestDigest)
    "unsupported schema or inconsistent deployment identity"

/-- The precision contract of mixed plans. -/
def checkPrecision (plan : DeploymentPlan) (capabilities : BackendCapabilities) :
    Except Error Unit :=
  reject (mixed plan≠((version plan.schemaVersion).minor==2) ∨
      (mixed plan=true ∧ (capabilities.supportsMixedPrecision=false ∨
        plan.weightDtype≠some DataType.f16.number ∨
        plan.executionDtype≠DataType.f32.number)))
    "unsupported resident/execution precision contract"

/-- Schema minor version and identities of each planning mode. -/
def checkMode (plan : DeploymentPlan) : Except Error Unit := do
  reject (measured plan=true ∧ ((version plan.schemaVersion).minor≠(if mixed plan then 2 else 1) ∨
      isDigest plan.workloadDigest=false ∨ isDigest plan.profileBundleDigest=false))
    "measured plan requires versioned workload/profile identities"
  reject (measured plan=false ∧ mixed plan=false ∧ (version plan.schemaVersion).minor≠0)
    "unsupported feasibility plan schema version"
  reject (measured plan=false ∧ (plan.workloadDigest≠"" ∨ plan.profileBundleDigest≠""))
    "feasibility plan cannot carry measured identities"

/-- The digest of versioned plans. -/
def checkDigest (textDigest : String → String) (plan : DeploymentPlan) : Except Error Unit :=
  reject ((measured plan=true ∨ mixed plan=true) ∧
      (textDigest (text (unsignedPlan plan))≠plan.planDigest ∨
        plan.planId≠"plan-"++String.ofList (plan.planDigest.toList.take 16)))
    "versioned plan hash mismatch"

/-- Checks on the stages, endpoints and duplicated groups. -/
def checkPlacement (request : LoadStageRequest) (plan : DeploymentPlan) (config : ModelConfig)
    (worker : String) : Except Error Unit := do
  reject ((plan.stages.length≠1 ∧ plan.stages.length≠2) ∨
    plan.stages.length ≤ request.stageIndex) "pipeline supports one or two stages"
  let finish ← checkStages plan.stages.length config.numLayers 0 0 [] plan.stages
  reject (finish≠config.numLayers ∨
      (plan.stages[request.stageIndex]?).map (·.workerId)≠some worker)
    "incomplete partition or wrong worker"
  reject (plan.stages.length=2 ∧ (plan.stages[0]?).map (·.layerEnd)≠some plan.splitLayer)
    "split layer does not match assignments"
  reject (request.stageEndpoints.length≠plan.stages.length) "each stage requires an endpoint"
  checkEndpoints plan.stages [] [] request.stageEndpoints
  reject (config.tiedEmbeddings=true ∧ plan.stages.length=2 ∧
      "token_embeddings"∉plan.duplicatedTensorGroups)
    "split tied embedding must be explicitly duplicated"

/-- `validate_plan` -/
def validatePlan (textDigest : String → String) (request : LoadStageRequest) (worker : String)
    (capabilities : BackendCapabilities) : Except Error Unit := do
  let plan := request.plan.getD default
  let manifest := request.manifest.getD default
  reject (request.plan=none ∨ request.manifest=none)
    "unsupported schema or inconsistent deployment identity"
  checkIdentity plan manifest
  reject (DataType.isValid plan.executionDtype=false ∨
    DataType.isValid plan.activationDtype=false) "unknown plan data type"
  checkPrecision plan capabilities
  checkMode plan
  checkDigest textDigest plan
  reject ((manifest.architecture.getD default).architectureId∉capabilities.architectures ∨
      plan.executionDtype∉capabilities.executionDtypes ∨
      plan.activationDtype≠DataType.f16.number)
    ("unsupported architecture or execution dtype: "++capabilities.detail)
  checkPlacement request plan (manifest.config.getD default) worker

/-- A check passes exactly when its condition fails. -/
@[simp] theorem reject_ok_iff {condition : Prop} [Decidable condition] {message : String} :
    reject condition message=.ok () ↔ ¬condition := by
  unfold reject
  split <;> simp_all

/-- A sequence of checks passes exactly when all do. -/
@[simp] theorem bind_ok_iff {first : Except Error Unit} {second : Except Error Unit} :
    (first >>= fun _ => second)=.ok () ↔ first=.ok () ∧ second=.ok () := by
  cases first with
  | error e => simp [error_bind]
  | ok u => simp [ok_bind]

/-- Everything `validate_plan` requires of an accepted request. -/
theorem validatePlan_ok_iff (textDigest : String → String) (request : LoadStageRequest)
    (worker : String) (capabilities : BackendCapabilities) :
    validatePlan textDigest request worker capabilities=.ok () ↔
      ∃ plan manifest,request.plan=some plan ∧ request.manifest=some manifest ∧
        checkIdentity plan manifest=.ok () ∧
        DataType.isValid plan.executionDtype=true ∧ DataType.isValid plan.activationDtype=true ∧
        checkPrecision plan capabilities=.ok () ∧ checkMode plan=.ok () ∧
        checkDigest textDigest plan=.ok () ∧
        (manifest.architecture.getD default).architectureId∈capabilities.architectures ∧
        plan.executionDtype∈capabilities.executionDtypes ∧
        plan.activationDtype=DataType.f16.number ∧
        checkPlacement request plan (manifest.config.getD default) worker=.ok () := by
  unfold validatePlan
  simp only [bind_ok_iff,reject_ok_iff,not_or,Bool.not_eq_false,not_not]
  constructor
  · rintro ⟨⟨hplan,hmanifest⟩,hidentity,⟨hexec,hact⟩,hprec,hmode,hdigest,⟨harch,hdtype,hf16⟩,hrest⟩
    obtain ⟨plan,hp⟩ := Option.ne_none_iff_exists'.mp hplan
    obtain ⟨manifest,hm⟩ := Option.ne_none_iff_exists'.mp hmanifest
    simp only [hp,hm,Option.getD_some] at hidentity hexec hact hprec hmode hdigest
    simp only [hp,hm,Option.getD_some] at harch hdtype hf16 hrest
    exact ⟨plan,manifest,hp,hm,hidentity,hexec,hact,hprec,hmode,hdigest,harch,hdtype,hf16,hrest⟩
  · rintro ⟨plan,manifest,hp,hm,hidentity,hexec,hact,hprec,hmode,hdigest,harch,hdtype,hf16,hrest⟩
    rw [hp,hm]
    exact ⟨⟨by simp,by simp⟩,hidentity,⟨hexec,hact⟩,hprec,hmode,hdigest,⟨harch,hdtype,hf16⟩,hrest⟩

end Hllm.PlanValidation
