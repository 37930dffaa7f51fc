import Hllm.PlanValidation
import Hllm.PlannerModels
import Mathlib.Algebra.Order.Group.Unbundled.Abs
import Mathlib.Algebra.Order.Group.Abs
import Mathlib.Data.Rat.Lemmas
import Mathlib.Algebra.BigOperators.Group.List.Basic

/-!
# Placement planning

`create_plan` with everything it calls: memory of a stage, boundary transfer
estimates, scores, enumeration, ranking and the emitted plan. Evaluating a
profile bundle, hashing and the canonical text of a workload are parameters,
about which nothing is assumed here.
-/

namespace Hllm.PlannerPlacement

open JsonText PlannerModels
open PlanValidation (isDigest stageJson)
open WireMessages (StageAssignment)

/-- `include` of one tensor. -/
def includes (tied : Bool) (start finish : ℕ) (isFirst isFinal : Bool) (tensor : TensorRecord) :
    Bool :=
  match tensor.role with
  | .transformerLayer => tensor.layerIndex.any fun i => decide (start ≤ i) && decide (i < finish)
  | .tokenEmbedding => isFirst || (isFinal && tied)
  | .finalNorm => isFinal
  | .lmHead => isFinal && !tied
  | .architectureState => true

/-- `_stage_weight_bytes` -/
def stageWeightBytes (manifest : ModelManifest) (start finish : ℕ) (isFirst isFinal : Bool)
    (executionDtype : DType) : ℕ :=
  ((manifest.tensors.filter
    (includes manifest.config.tiedEmbeddings start finish isFirst isFinal)).map fun tensor =>
      tensor.numElements*executionDtype.bytes).sum

/-- `math.ceil` of a nonnegative number. -/
def ceil (x : ℚ) : ℕ := (Rat.ceil x).toNat

/-- `_stage_memory` -/
def stageMemory (manifest : ModelManifest) (worker : WorkerProfile) (workload : WorkloadProfile)
    (settings : PlannerSettings) (start finish : ℕ) (isFirst isFinal : Bool) :
    Except Raised StageMemory :=
  match worker.budgetFor worker.primaryMemoryDomain with
  | none => .error (.planning ("worker "++worker.workerId++" has no primary memory budget"))
  | some budget =>
    let weightBytes := stageWeightBytes manifest start finish isFirst isFinal
      (settings.weightDtype.getD settings.executionDtype)
    let layerCount := finish-start
    let kvPerLayerToken :=
      2*manifest.config.numKvHeads*manifest.config.headDim*workload.kvDtype.bytes
    let kvCacheBytes := ceil (layerCount*workload.totalCachedTokens*kvPerLayerToken*
      workload.kvOverheadFactor)
    let activationPayload := workload.concurrency*workload.promptTokens*
      manifest.config.hiddenSize*workload.activationDtype.bytes
    let activationBufferBytes := activationPayload*worker.activationBufferCount
    let workspaceBytes := worker.fixedWorkspaceBytes+
      if worker.primaryMemoryDomain=.host ∨ worker.primaryMemoryDomain=.unified then
        worker.hostTransportBufferBytes
      else 0
    let subtotal := weightBytes+kvCacheBytes+workspaceBytes+activationBufferBytes
    let allocatorAllowanceBytes := ceil (subtotal*worker.allocatorAllowanceFraction)
    let requiredBytes := subtotal+allocatorAllowanceBytes
    .ok {
      workerId := worker.workerId
      domain := worker.primaryMemoryDomain
      layerStart := start
      layerEnd := finish
      weightBytes := weightBytes
      kvCacheBytes := kvCacheBytes
      workspaceBytes := workspaceBytes
      activationBufferBytes := activationBufferBytes
      allocatorAllowanceBytes := allocatorAllowanceBytes
      requiredBytes := requiredBytes
      usableBytes := budget.usableBytes
      pressure := if budget.usableBytes=0 then ⊤
        else ((requiredBytes/budget.usableBytes : ℚ) : WithTop ℚ)}

/-- `_find_link` -/
def findLink (links : List LinkProfile) (source target : String) : Option LinkProfile :=
  links.find? fun link => link.sourceWorkerId=source ∧ link.targetWorkerId=target

/-- `_boundary_estimate` -/
def boundaryEstimate (manifest : ModelManifest) (workload : WorkloadProfile)
    (link : LinkProfile) : PerformanceEstimate :=
  let bytesPerValue := workload.activationDtype.bytes
  let prefillBytes : ℕ := workload.concurrency*workload.promptTokens*
    manifest.config.hiddenSize*bytesPerValue
  let decodeBytes : ℕ := workload.concurrency*manifest.config.hiddenSize*bytesPerValue
  let conversion := link.senderConversionMs+link.receiverConversionMs
  let extraMessages : ℕ :=
    ceil ((workload.promptTokens : ℕ)/(workload.boundaryMessageTokens : ℚ))-1
  {
    boundaryPrefillMs := link.fixedLatencyMs+
      prefillBytes/link.bandwidthBytesPerSecond*1000+conversion+
      extraMessages*(link.fixedLatencyMs+conversion)
    boundaryDecodeMs := link.fixedLatencyMs+
      decodeBytes/link.bandwidthBytesPerSecond*1000+conversion
    confidence := if link.provenance=.measured then "measured-link" else "configured-link"
    ttftMs := none
    decodeMs := []}

/-- `_relay_penalty` -/
def relayPenalty : ConnectionType → ℚ
  | .direct => 0
  | .peerRelayed => 100
  | .derpRelayed => 1000
  | .unknown => 10

/-- The distance of two pressures. Only finite ones are scored. -/
def imbalance : WithTop ℚ → WithTop ℚ → WithTop ℚ
  | some a,some b => ((|a-b| : ℚ) : WithTop ℚ)
  | _,_ => ⊤

/-- `_candidate_score` -/
def candidateScore (stages : StageMemory×StageMemory) (performance : Option PerformanceEstimate)
    (settings : PlannerSettings) (link : Option LinkProfile) : Except Raised (WithTop ℚ) :=
  let maximumPressure := max stages.1.pressure stages.2.pressure
  let weights := settings.objectiveWeights
  let memoryTerm := maximumPressure.map fun pressure => weights.memoryPressure*pressure^2
  match settings.mode,performance with
  | .feasibility,_ =>
    .ok (maximumPressure+(imbalance stages.1.pressure stages.2.pressure).map (·*(1/100)))
  | _,none => .error (.planning "estimated planning requires a directional link profile")
  | .measured,some performance =>
    match performance.ttftMs with
    | none => .error .assertion
    | some ttft =>
      let averageItl := if performance.decodeMs=[] then 0
        else performance.decodeMs.sum/performance.decodeMs.length
      .ok (((weights.ttft*ttft+(weights.itl+weights.pipelinePeriod)*averageItl : ℚ) : WithTop ℚ)+
        memoryTerm)
  | .estimated,some performance =>
    let boundaryScore := weights.ttft*performance.boundaryPrefillMs+
      weights.itl*performance.boundaryDecodeMs+
      weights.pipelinePeriod*performance.boundaryDecodeMs
    let relay := (link.map fun link => relayPenalty link.connectionType).getD 0
    .ok ((boundaryScore : WithTop ℚ)+memoryTerm+(relay : WithTop ℚ))

/-- A check that raises a `PlanningError`. -/
def require (condition : Prop) [Decidable condition] (message : String) : Except Raised Unit :=
  if condition then .ok () else .error (.planning message)

/-- The checks of `_validate_workers` on one worker. -/
def validateWorker (manifest : ModelManifest) (settings : PlannerSettings)
    (worker : WorkerProfile) : Except Raised Unit := do
  require (manifest.architectureId∈worker.supportedArchitectures)
    ("worker "++worker.workerId++" does not support "++manifest.architectureId)
  require (settings.weightDtype=none ∨ worker.supportsMixedPrecision=true)
    ("worker "++worker.workerId++" does not support mixed precision")
  require (settings.executionDtype∈worker.supportedExecutionDtypes)
    ("worker "++worker.workerId++" does not support "++settings.executionDtype.value)

/-- `_validate_workers` -/
def validateWorkers (manifest : ModelManifest) (workers : List WorkerProfile)
    (settings : PlannerSettings) : Except Raised (WorkerProfile×WorkerProfile) :=
  match workers with
  | [first,second] => do
    require (first.workerId≠second.workerId) "worker IDs must be unique"
    validateWorker manifest settings first
    validateWorker manifest settings second
    .ok (first,second)
  | _ => .error (.planning "Milestone 0 supports exactly two workers")

/-- Checks of `create_plan` on the bundle and the measured workload. -/
def validateBundle (workers : List WorkerProfile) (workload : WorkloadProfile)
    (settings : PlannerSettings) (bundle : Option ProfileBundle) : Except Raised Unit := do
  require (settings.weightDtype=none ∨ workload.kvDtype=settings.executionDtype)
    "mixed execution and KV dtypes must agree"
  if settings.mode=.measured then
    match bundle with
    | none => .error (.planning "measured planning requires a profile bundle")
    | some bundle =>
      require ((∀ worker∈workers,worker∈bundle.workers) ∧
        ∀ worker∈bundle.workers,worker∈workers)
        "worker configuration differs from frozen bundle"
      require (settings.executionDtype=workload.kvDtype)
        "measured execution and KV dtypes must agree"
      require (workload.prefillChunkTokens=0)
        ("measured placement does not yet combine chunked prefill profiles; plan a "++
          "chunked workload in estimated or feasibility mode")
  else require bundle.isNone "profile bundle requires measured mode"

/-- `assignments_for`, which is also how the emitted plan lists its stages. -/
def assignmentsFor (first final : String) (split layers : ℕ) : List StageAssignment :=
  [⟨0,first,0,split,true,false,false,false⟩,⟨1,final,split,layers,false,true,true,true⟩]

/-- A number with at least three digits. -/
def padded (n : ℕ) : String :=
  String.ofList (List.replicate (3-(Nat.toDigits 10 n).length) '0'++Nat.toDigits 10 n)

/-- The id of a candidate. -/
def candidateId (first final : String) (split : ℕ) : String :=
  first++"--"++final++"-m"++padded split

/-- `provisional`, the plan of one order and split of a sweep before it has an
identity. -/
def provisionalPlan (manifest : ModelManifest) (workload : WorkloadProfile)
    (selectedPlan : DeploymentPlan) (first final : String) (split : ℕ) : DeploymentPlan where
  schemaVersion := if selectedPlan.weightDtype.isSome then "1.2" else "1.0"
  plannerVersion := "qualification-1.0"
  planId := "pending"
  deploymentVersion := 1
  planDigest := "pending"
  manifestDigest := manifest.manifestDigest
  workloadId := workload.workloadId
  planningMode := .feasibility
  executionDtype := selectedPlan.executionDtype
  weightDtype := selectedPlan.weightDtype
  activationDtype := selectedPlan.activationDtype
  splitLayer := split
  workloadDigest := none
  profileBundleDigest := none
  stages := assignmentsFor first final split manifest.config.numLayers
  duplicatedTensorGroups := selectedPlan.duplicatedTensorGroups
  selectedCandidateId := candidateId first final split

/-- The plan of one order and split of a sweep, with the identity its digest gives it. -/
def placementPlan (planHash : DeploymentPlan → String) (manifest : ModelManifest)
    (workload : WorkloadProfile) (selectedPlan : DeploymentPlan) (first final : String)
    (split : ℕ) : DeploymentPlan :=
  let provisional := provisionalPlan manifest workload selectedPlan first final split
  let d := planHash provisional
  {provisional with
    planId := (if selectedPlan.weightDtype.isSome then "plan-" else "sweep-")++
      String.ofList (d.toList.take 16)
    planDigest := d}

/-- Memory reasons to reject a stage. -/
def stageReasons (stage : StageMemory) (worker : WorkerProfile) : List String :=
  let pinned := worker.budgetFor .hostPinned
  let host := worker.budgetFor .host
  let exceeded (budget : Option MemoryBudget) : List String :=
    match budget with
    | none => []
    | some budget =>
      if budget.usableBytes < worker.hostTransportBufferBytes then
        [budget.domain.value++"_MEMORY_EXCEEDED:"++stage.workerId]
      else []
  (if stage.usableBytes < stage.requiredBytes then
    [stage.domain.value++"_MEMORY_EXCEEDED:"++stage.workerId] else [])++
  (if pinned.isSome && host.isNone then ["MISSING_HOST_MEMORY_BUDGET:"++stage.workerId] else [])++
  exceeded host++exceeded pinned

/-- What evaluating a profile bundle returns: status, reasons and an estimate. -/
abbrev Evaluation := String×List String×Option PerformanceEstimate

section Planning

variable (evaluate : ProfileBundle → ModelManifest → WorkloadProfile → List StageAssignment →
  Option DType → Except Raised Evaluation)
variable (sha256 : String → String) (workloadDigest : WorkloadProfile → String)

/-- One pass of the enumeration loop. -/
def candidate (manifest : ModelManifest) (links : List LinkProfile) (workload : WorkloadProfile)
    (settings : PlannerSettings) (bundle : Option ProfileBundle) (first final : WorkerProfile)
    (split : ℕ) : Except Raised PlanCandidate := do
  let link := findLink links first.workerId final.workerId
  let layers : ℕ := manifest.config.numLayers
  let stageZero ← stageMemory manifest first workload settings 0 split true false
  let stageOne ← stageMemory manifest final workload settings split layers false true
  let boundaryLimit :=
    maximumBoundaryTokens manifest.config.hiddenSize workload.activationDtype
  let memoryReasons := stageReasons stageZero first++stageReasons stageOne final++
    (if boundaryLimit < workload.boundaryMessageTokens then
      ["BOUNDARY_PAYLOAD_EXCEEDED:"++toString workload.boundaryMessageTokens++">"++
        toString boundaryLimit] else [])++
    (if settings.mode=.estimated ∧ link.isNone=true then
      ["MISSING_LINK_PROFILE:"++first.workerId++"->"++final.workerId] else [])
  let (status,reasons,performance) ← (match settings.mode,bundle with
    | .measured,some bundle => do
      let (status,measuredReasons,performance) ← evaluate bundle manifest workload
        (assignmentsFor first.workerId final.workerId split layers) settings.weightDtype
      .ok (some (if memoryReasons=[] then status else "infeasible"),
        memoryReasons++measuredReasons,performance)
    | .measured,none => .error .assertion
    | _,_ => .ok (none,memoryReasons,link.map (boundaryEstimate manifest workload)) :
    Except Raised (Option String×List String×Option PerformanceEstimate))
  let score ← (if reasons=[] then
      (candidateScore (stageZero,stageOne) performance settings link).map some
    else .ok none)
  pure {
    candidateId := candidateId first.workerId final.workerId split
    stageZeroWorkerId := first.workerId
    finalStageWorkerId := final.workerId
    splitLayer := split
    stages := (stageZero,stageOne)
    feasible := decide (reasons=[])
    measurementStatus := status
    rejectionReasons := reasons
    performance := performance
    score := score
    rank := none}

/-- Both orders of the two workers with every split, in the order tried. -/
def placements (workers : WorkerProfile×WorkerProfile) (layers : ℕ) :
    List (WorkerProfile×WorkerProfile×ℕ) :=
  [(workers.1,workers.2),(workers.2,workers.1)].flatMap fun order =>
    (List.range' 1 (layers-1)).map fun split => (order.1,order.2,split)

/-- `raw_candidates` -/
def rawCandidates (manifest : ModelManifest) (workers : WorkerProfile×WorkerProfile)
    (links : List LinkProfile) (workload : WorkloadProfile) (settings : PlannerSettings)
    (bundle : Option ProfileBundle) : Except Raised (List PlanCandidate) :=
  (placements workers manifest.config.numLayers).mapM fun placement =>
    candidate evaluate manifest links workload settings bundle placement.1 placement.2.1
      placement.2.2

/-- The sort key: the score, or infinity without one, then the id. -/
def PrecedesOrTies (a b : PlanCandidate) : Prop :=
  a.score.getD ⊤ < b.score.getD ⊤ ∨
    (a.score.getD ⊤=b.score.getD ⊤ ∧ a.candidateId ≤ b.candidateId)

instance (a b : PlanCandidate) : Decidable (PrecedesOrTies a b) :=
  inferInstanceAs (Decidable (_ ∨ _))

/-- `feasible_candidates`, by a stable sort. -/
def feasibleCandidates (candidates : List PlanCandidate) : List PlanCandidate :=
  (candidates.filter (·.feasible)).insertionSort PrecedesOrTies

/-- The dictionary `ranks`: of candidates with one id the last one counts. -/
def ranks (sorted : List PlanCandidate) : String → Option ℕ :=
  (sorted.zipIdx 1).foldl
    (fun known entry => Function.update known entry.1.candidateId (some entry.2)) fun _ => none

/-- Candidates with their ranks looked up by id. -/
def rankCandidates (candidates : List PlanCandidate) : List PlanCandidate :=
  candidates.map fun candidate =>
    {candidate with rank := ranks (feasibleCandidates candidates) candidate.candidateId}

/-- Assignment to a key of a dictionary. -/
def setItem (dict : List (String×Json)) (entry : String×Json) : List (String×Json) :=
  if dict.any (fun old => old.1=entry.1) then
    dict.map fun old => if old.1=entry.1 then entry else old
  else dict++[entry]

/-- A string or null. -/
def stringOrNull : Option String → Json
  | some value => .string value
  | none => .null

/-- Planner version of a mode. -/
def versionOf (mode : PlanningMode) : String :=
  if mode=.measured then "0.2.0" else plannerVersion

/-- `unsigned_plan`, the dictionary `create_plan` hashes. -/
def unsignedPlan (manifest : ModelManifest) (workload : WorkloadProfile)
    (settings : PlannerSettings) (digests : Option (String×String)) (selected : PlanCandidate)
    (assignments : List StageAssignment) (duplicatedGroups : List String) :
    List (String×Json) :=
  let base : List (String×Json) := [
    ("planner_version",.string (versionOf settings.mode)),("deployment_version",.number 1),
    ("manifest_digest",.string manifest.manifestDigest),
    ("workload_id",.string workload.workloadId),
    ("planning_mode",.string settings.mode.value),
    ("execution_dtype",.string settings.executionDtype.value),
    ("activation_dtype",.string workload.activationDtype.value),
    ("split_layer",.number selected.splitLayer),
    ("stages",.array (assignments.map stageJson)),
    ("duplicated_tensor_groups",.array (duplicatedGroups.map .string)),
    ("selected_candidate_id",.string selected.candidateId)]
  let measured := match digests with
    | some (workloadDigest,bundleDigest) =>
      [("schema_version",.string "1.1"),("workload_digest",.string workloadDigest),
        ("profile_bundle_digest",.string bundleDigest)].foldl setItem base
    | none => base
  match settings.weightDtype with
  | some weightDtype =>
    [("schema_version",.string "1.2"),("weight_dtype",.string weightDtype.value),
      ("workload_digest",stringOrNull (digests.map Prod.fst)),
      ("profile_bundle_digest",stringOrNull (digests.map Prod.snd))].foldl setItem measured
  | none => measured

/-- The stage loop of the plan validator. -/
def partitionValid (count : ℕ) : ℕ → ℕ → List String → List StageAssignment → Bool
  | _,_,_,[] => true
  | index,finish,workers,stage::stages =>
    let last := index+1==count
    stage.stageIndex==index && stage.layerStart==finish && decide (finish < stage.layerEnd) &&
      decide (stage.workerId∉workers) && stage.ownsTokenEmbedding==(index==0) &&
      stage.ownsFinalNorm==last && stage.ownsLmHead==last && stage.ownsSampling==last &&
      partitionValid count (index+1) stage.layerEnd (stage.workerId::workers) stages

/-- A check of the plan validator. -/
def check (condition : Prop) [Decidable condition] (message : String) : Except Raised Unit :=
  if condition then .ok () else .error (.value message)

/-- `DeploymentPlan.validate_partition` with the bound on the stages. -/
def validatePartition (plan : DeploymentPlan) : Except Raised Unit := do
  check (1 ≤ plan.stages.length ∧ plan.stages.length≤2) "stages"
  check (plan.weightDtype=none ∨ (plan.weightDtype=some .f16 ∧ plan.executionDtype=.f32 ∧
      plan.schemaVersion="1.2"))
    "mixed precision requires schema 1.2, F16 weights and F32 execution/KV"
  check (plan.weightDtype≠none ∨ plan.schemaVersion≠"1.2")
    "schema 1.2 requires explicit weight precision"
  check (plan.planningMode≠.measured ∨
      (plan.schemaVersion=(if plan.weightDtype.isSome then "1.2" else "1.1") ∧
        isDigest (plan.workloadDigest.getD "")=true ∧
        isDigest (plan.profileBundleDigest.getD "")=true))
    "measured plans require schema 1.1 and workload/bundle digests"
  check (plan.planningMode=.measured ∨
      (plan.workloadDigest=none ∧ plan.profileBundleDigest=none))
    "legacy plans cannot carry measured identities"
  check (partitionValid plan.stages.length 0 0 [] plan.stages=true)
    "invalid contiguous stage partition or ownership"
  check (plan.splitLayer=if plan.stages.length=2 then
      (plan.stages.head?.map (·.layerEnd)).getD 0 else 0)
    "split_layer does not match stage partition"

/-- Notes about chunked prefill. -/
def chunkNotes (workload : WorkloadProfile) : List String :=
  if workload.prefillChunkTokens=0 then [] else
    ["Prefill is chunked at "++toString workload.prefillChunkTokens++" tokens per boundary "++
      "message; serve this plan with the same --prefill-chunk-tokens. Memory estimates "++
      "still size activation buffers for the whole prompt."]

/-- The note on how a mode ranks. -/
def modeNote : PlanningMode → String
  | .measured =>
    "Measured mode uses exact assignments, whole-stage timings including conversion, "++
    "per-context decode, allocation, request setup and directional encode plus RTT. "++
    "Unknown candidates are unranked. Equal scores use candidate ID."
  | .feasibility => "Feasibility mode ranks maximum memory pressure before imbalance."
  | .estimated =>
    "Estimated mode currently scores boundary transfer and memory pressure; "++
    "compute profiles arrive in Milestone 5."

/-- Workload and bundle digests of a measured plan. -/
def identities (workload : WorkloadProfile) (settings : PlannerSettings)
    (bundle : Option ProfileBundle) : Except Raised (Option (String×String)) :=
  match settings.mode,bundle with
  | .measured,some bundle => .ok (some (workloadDigest workload,bundle.bundleDigest))
  | .measured,none => .error .assertion
  | _,_ => .ok none

/-- Tensor groups both stages hold. -/
def duplicatedGroups (manifest : ModelManifest) : List String :=
  if manifest.config.tiedEmbeddings then ["token_embeddings"] else []

/-- The canonical text `create_plan` hashes. -/
def unsignedText (manifest : ModelManifest) (workload : WorkloadProfile)
    (settings : PlannerSettings) (digests : Option (String×String)) (selected : PlanCandidate) :
    String :=
  text (.sorted (unsignedPlan manifest workload settings digests selected
    (assignmentsFor selected.stageZeroWorkerId selected.finalStageWorkerId selected.splitLayer
      manifest.config.numLayers) (duplicatedGroups manifest)))

/-- The plan for the selected candidate, before its validator runs. -/
def planFor (manifest : ModelManifest) (workload : WorkloadProfile) (settings : PlannerSettings)
    (digests : Option (String×String)) (selected : PlanCandidate) : DeploymentPlan :=
  let planDigest := sha256 (unsignedText manifest workload settings digests selected)
  {
    schemaVersion := if settings.weightDtype.isSome then "1.2"
      else if digests.isSome then "1.1" else planSchemaVersion
    plannerVersion := versionOf settings.mode
    planId := "plan-"++String.ofList (planDigest.toList.take 16)
    deploymentVersion := 1
    planDigest := planDigest
    manifestDigest := manifest.manifestDigest
    workloadId := workload.workloadId
    planningMode := settings.mode
    executionDtype := settings.executionDtype
    weightDtype := settings.weightDtype
    activationDtype := workload.activationDtype
    splitLayer := selected.splitLayer
    workloadDigest := digests.map Prod.fst
    profileBundleDigest := digests.map Prod.snd
    stages := assignmentsFor selected.stageZeroWorkerId selected.finalStageWorkerId
      selected.splitLayer manifest.config.numLayers
    duplicatedTensorGroups := duplicatedGroups manifest
    selectedCandidateId := selected.candidateId}

/-- The emitted plan for the selected candidate. -/
def emitPlan (manifest : ModelManifest) (workload : WorkloadProfile) (settings : PlannerSettings)
    (bundle : Option ProfileBundle) (selected : PlanCandidate) : Except Raised DeploymentPlan := do
  let digests ← identities workloadDigest workload settings bundle
  validatePartition (planFor sha256 manifest workload settings digests selected)
  pure (planFor sha256 manifest workload settings digests selected)

/-- A report without a plan. -/
def withoutPlan (manifest : ModelManifest) (workload : WorkloadProfile)
    (settings : PlannerSettings) (candidates : List PlanCandidate) : PlanningReport where
  settings := if settings.mode=.measured then some settings else none
  plannerVersion := versionOf settings.mode
  manifestDigest := manifest.manifestDigest
  workloadId := workload.workloadId
  mode := settings.mode
  selectedCandidateId := none
  candidates := candidates
  plan := none
  notes := "No fully qualified feasible two-worker placement was found."::chunkNotes workload

/-- The report on ranked candidates: without a plan if none is feasible. -/
def report (manifest : ModelManifest) (workload : WorkloadProfile) (settings : PlannerSettings)
    (bundle : Option ProfileBundle) (raw : List PlanCandidate) : Except Raised PlanningReport :=
  match feasibleCandidates raw with
  | [] => .ok (withoutPlan manifest workload settings (rankCandidates raw))
  | best::_ =>
    match (rankCandidates raw).find? fun c => c.candidateId=best.candidateId with
    | none => .error (.evaluation "StopIteration")
    | some selected => do
      let plan ← emitPlan sha256 workloadDigest manifest workload settings bundle selected
      pure {withoutPlan manifest workload settings (rankCandidates raw) with
        selectedCandidateId := some selected.candidateId
        plan := some plan
        notes := modeNote settings.mode::chunkNotes workload}

/-- `create_plan` -/
def createPlan (manifest : ModelManifest) (workers : List WorkerProfile)
    (links : List LinkProfile) (workload : WorkloadProfile) (settings : PlannerSettings)
    (bundle : Option ProfileBundle) : Except Raised PlanningReport := do
  let pair ← validateWorkers manifest workers settings
  validateBundle workers workload settings bundle
  let raw ← rawCandidates evaluate manifest pair links workload settings bundle
  report sha256 workloadDigest manifest workload settings bundle raw

end Planning

/-- A sequence returns exactly when its first part does and the rest after it. -/
theorem bind_eq_ok {α β : Type} {first : Except Raised α} {next : α → Except Raised β} {b : β} :
    (first >>= next)=.ok b ↔ ∃ a,first=.ok a ∧ next a=.ok b := by
  cases first with
  | error e =>
    constructor
    · intro h
      cases h
    · rintro ⟨a,h,-⟩
      cases h
  | ok a =>
    constructor
    · exact fun h => ⟨a,rfl,h⟩
    · rintro ⟨a',h,hb⟩
      cases h
      exact hb

/-- A requirement passes exactly when its condition holds. -/
theorem require_ok_iff {condition : Prop} [Decidable condition] {message : String} {u : Unit} :
    require condition message=.ok u ↔ condition := by
  unfold require
  split <;> simp_all

/-- A validator's check passes exactly when its condition holds. -/
theorem check_ok_iff {condition : Prop} [Decidable condition] {message : String} {u : Unit} :
    check condition message=.ok u ↔ condition := by
  unfold check
  split <;> simp_all

section Inversions

variable {evaluate : ProfileBundle → ModelManifest → WorkloadProfile → List StageAssignment →
  Option DType → Except Raised Evaluation}
variable {sha256 : String → String} {workloadDigest : WorkloadProfile → String}
variable {manifest : ModelManifest} {workers : List WorkerProfile} {links : List LinkProfile}
variable {workload : WorkloadProfile} {settings : PlannerSettings} {bundle : Option ProfileBundle}

/-- What an emitted plan is. -/
theorem emitPlan_ok {selected : PlanCandidate} {plan : DeploymentPlan}
    (h : emitPlan sha256 workloadDigest manifest workload settings bundle selected=.ok plan) :
    ∃ digests,identities workloadDigest workload settings bundle=.ok digests ∧
      plan=planFor sha256 manifest workload settings digests selected ∧
      validatePartition plan=.ok () := by
  obtain ⟨digests,hdigests,h⟩ := bind_eq_ok.mp h
  obtain ⟨_,hvalid,h⟩ := bind_eq_ok.mp h
  cases h
  exact ⟨digests,hdigests,rfl,hvalid⟩

/-- A report lists the ranked candidates, and its plan is that of the candidate
found by the id of the first in order. -/
theorem report_ok {raw : List PlanCandidate} {result : PlanningReport}
    (h : report sha256 workloadDigest manifest workload settings bundle raw=.ok result) :
    result.candidates=rankCandidates raw ∧
      ((feasibleCandidates raw=[] ∧ result.plan=none) ∨
      ∃ best rest selected plan,feasibleCandidates raw=best::rest ∧
        (rankCandidates raw).find? (fun c => c.candidateId=best.candidateId)=some selected ∧
        emitPlan sha256 workloadDigest manifest workload settings bundle selected=.ok plan ∧
        result.plan=some plan) := by
  unfold report at h
  split at h
  · cases h
    exact ⟨rfl,.inl ⟨‹_›,rfl⟩⟩
  · rename_i best rest hsorted
    split at h
    · cases h
    · rename_i selected hselected
      obtain ⟨plan,hplan,h⟩ := bind_eq_ok.mp h
      cases h
      exact ⟨rfl,.inr ⟨best,rest,selected,plan,hsorted,hselected,hplan,rfl⟩⟩

/-- What planning has checked when it returns. -/
theorem createPlan_ok {result : PlanningReport}
    (h : createPlan evaluate sha256 workloadDigest manifest workers links workload settings bundle=
      .ok result) :
    ∃ first second raw,workers=[first,second] ∧ first.workerId≠second.workerId ∧
      validateBundle workers workload settings bundle=.ok () ∧
      rawCandidates evaluate manifest (first,second) links workload settings bundle=.ok raw ∧
      report sha256 workloadDigest manifest workload settings bundle raw=.ok result := by
  obtain ⟨⟨first,second⟩,hworkers,h⟩ := bind_eq_ok.mp h
  obtain ⟨_,hbundle,h⟩ := bind_eq_ok.mp h
  obtain ⟨raw,hraw,hreport⟩ := bind_eq_ok.mp h
  unfold validateWorkers at hworkers
  split at hworkers
  · obtain ⟨_,hne,hworkers⟩ := bind_eq_ok.mp hworkers
    obtain ⟨_,-,hworkers⟩ := bind_eq_ok.mp hworkers
    obtain ⟨_,-,hworkers⟩ := bind_eq_ok.mp hworkers
    cases hworkers
    exact ⟨first,second,raw,rfl,require_ok_iff.mp hne,hbundle,hraw,hreport⟩
  · cases hworkers

/-- The plan of a report was emitted for one of its candidates. -/
theorem report_plan {raw : List PlanCandidate} {result : PlanningReport} {plan : DeploymentPlan}
    (h : report sha256 workloadDigest manifest workload settings bundle raw=.ok result)
    (hplan : result.plan=some plan) :
    ∃ selected∈rankCandidates raw,
      emitPlan sha256 workloadDigest manifest workload settings bundle selected=.ok plan := by
  obtain ⟨-,⟨-,hnone⟩|⟨best,rest,selected,plan',-,hfound,hemit,hsome⟩⟩ := report_ok h
  · rw [hnone] at hplan
    cases hplan
  · rw [hsome] at hplan
    cases hplan
    exact ⟨selected,List.mem_of_find?_eq_some hfound,hemit⟩

end Inversions

end Hllm.PlannerPlacement
