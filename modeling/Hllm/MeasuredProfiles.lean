import Hllm.FitComparisons
import Hllm.LinkQualification

/-!
# Measured profiles

What a measured plan rests on: sealed artifacts of memory and compute runs, link
runs between two probes, and the bundle that binds them to two workers. Every
structure carries what its validator checked. Digests are opaque texts: that
they are the hashes of what they seal is left out, and so are the patterns and
lengths of texts. Times are exact seconds, floats exact rationals.
-/

namespace Hllm.MeasuredProfiles

open FitAssessment (ArtifactSchema MemoryAmounts MemoryMeasurement MlxFitPolicy PhysicalBudget
  ProcessPolicy)
open FitComparisons (verifyMemory)
open LinkProbe (ProbeIdentity)
open LinkQualification (LinkResult)
open PlannerModels (Backend DType WorkerProfile WorkloadProfile)
open WireMessages (StageAssignment)

deriving instance DecidableEq for LinkQualification.LinkSample
deriving instance DecidableEq for LinkQualification.StreamSample
deriving instance DecidableEq for LinkQualification.LinkResult

section Keys

/-- `Environment` -/
structure Environment where
  backend : Backend
  deviceIdentity : String
  deviceName : String
  backendVersion : String
  driverVersion : String
  allocator : String
  allocatorConfig : String
  sourceRevision : String
  binaryDigest : String
  compiler : String
  os : String
  deriving DecidableEq

/-- `transport_mode` -/
inductive TransportMode
  | pageable
  | pinned
  deriving DecidableEq

/-- `input_kind` -/
inductive InputKind
  | syntheticShape
  | reference
  deriving DecidableEq

/-- The fields of `ProfileKey`, but for the digest of its workload. -/
structure ProfileKeyFields where
  manifestDigest : String
  checkpointDigest : String
  environment : Environment
  assignment : StageAssignment
  workload : WorkloadProfile
  executionDtype : DType
  weightDtype : Option DType
  transportMode : TransportMode
  inputKind : InputKind
  inputDigest : String
  deriving DecidableEq

/-- `supported_workload` -/
def ProfileKeyFields.supportedWorkload (key : ProfileKeyFields) : Except String Unit :=
  let w := key.workload
  let a := key.assignment
  let cpu : Bool := key.environment.backend=.cpu
  if key.weightDtype≠none ∧
      (cpu=true ∨ key.weightDtype≠some .f16 ∨ key.executionDtype≠.f32) then
    .error "unsupported mixed precision profile"
  else if w.concurrency≠1 then .error "measured profiles currently support concurrency 1"
  else if (w.totalCachedTokens : ℕ) < w.promptTokens+w.outputTokens then
    .error "cache capacity must cover prompt plus output tokens"
  else if key.executionDtype∉(if cpu then [DType.f32] else [.f16,.f32]) ∨
      w.kvDtype≠key.executionDtype then
    .error "unsupported execution/KV dtype for backend"
  else if w.activationDtype≠.f16 then .error "native boundary requires F16"
  else if key.transportMode=.pinned ∧ key.environment.backend≠.cuda then
    .error "pinned transport is currently CUDA-only"
  else if a.layerEnd ≤ a.layerStart then .error "stage must own a nonempty layer range"
  else if a.ownsTokenEmbedding≠decide (a.stageIndex=0 ∧ a.layerStart=0) then
    .error "embedding ownership does not match first stage"
  else if ¬(a.ownsFinalNorm=a.ownsLmHead ∧ a.ownsLmHead=a.ownsSampling) then
    .error "final tensor and sampling ownership must agree"
  else .ok ()

/-- `ProfileKey` -/
structure ProfileKey extends ProfileKeyFields where
  supported : toProfileKeyFields.supportedWorkload=.ok ()
  deriving DecidableEq

/-- `Conditions` -/
structure Conditions where
  measuredAt : ℚ
  warmupCycles : ℕ
  measuredCycles : ℕ+
  processPolicy : ProcessPolicy
  concurrentLoad : String
  deriving DecidableEq

end Keys

section ComputeRuns

/-- `phase` of a timing. -/
inductive TimingPhase
  | prefill
  | decode
  deriving DecidableEq

/-- `component` of a timing. -/
inductive TimingComponent
  | stage
  | layer
  | embedding
  | finalNorm
  | lmHead
  | sampling
  | fromWire
  | toWire
  | validation
  | runtimeOverhead
  | sequenceAllocation
  deriving DecidableEq

/-- `timing_mode` -/
inductive TimingMode
  | componentSynchronized
  | wholeStage
  deriving DecidableEq

/-- `TimingRecord` -/
structure TimingRecord where
  cycle : ℕ
  step : ℕ
  contextTokens : ℕ
  phase : TimingPhase
  component : TimingComponent
  layerIndex : Option ℕ
  timingMode : TimingMode
  milliseconds : ℚ
  chunkIndex : Option ℕ
  milliseconds_nonneg : 0 ≤ milliseconds
  deriving DecidableEq

/-- `ComputeRunMeasurement` -/
structure ComputeRunMeasurement where
  admissionCapacity : MemoryAmounts
  records : List TimingRecord
  identicalOutputCycles : List ℕ
  completed : Bool
  error : Option String
  deriving DecidableEq

/-- The number of prefill chunks of a workload. -/
def chunks (w : WorkloadProfile) : ℕ :=
  if w.prefillChunkTokens=0 then 1
  else (w.promptTokens+w.prefillChunkTokens-1)/w.prefillChunkTokens

/-- The checks of one record. -/
def checkRecord (cycles : ℕ) (w : WorkloadProfile) (r : TimingRecord) : Except String Unit :=
  let position := if r.step=0 then r.chunkIndex.getD 0*w.prefillChunkTokens
    else w.promptTokens+r.step-1
  if cycles ≤ r.cycle ∨ (w.outputTokens : ℕ) ≤ r.step then
    .error "timing sample outside workload"
  else if r.chunkIndex.isSome≠decide (w.prefillChunkTokens≠0 ∧ r.step=0) ∨
      r.chunkIndex.any (fun chunk => decide (chunks w ≤ chunk))=true then
    .error "timing chunk identity mismatch"
  else if r.contextTokens≠position ∨
      r.phase≠(if r.step=0 then TimingPhase.prefill else .decode) then
    .error "timing context/phase mismatch"
  else if decide (r.component=.layer)≠r.layerIndex.isSome then
    .error "layer timing identity mismatch"
  else .ok ()

/-- `executions`: the steps with their chunks. -/
def executions (w : WorkloadProfile) : List (ℕ×Option ℕ) :=
  ((List.range (chunks w)).map fun k => (0,if w.prefillChunkTokens=0 then none else some k))++
    (List.range' 1 (w.outputTokens-1)).map fun step => (step,none)

/-- The rows `indexed` keeps under one key. -/
def indexed (m : ComputeRunMeasurement) (cycle : ℕ) (mode : TimingMode)
    (execution : ℕ×Option ℕ) : List TimingRecord :=
  m.records.filter fun r => decide
    ((r.cycle,r.timingMode,r.step,r.chunkIndex)=(cycle,mode,execution.1,execution.2))

/-- `expected` components of an execution. -/
def expectedComponents (key : ProfileKey) (mode : TimingMode) (execution : ℕ×Option ℕ) :
    List (TimingComponent×Option ℕ) :=
  let a := key.assignment
  let sampled : Bool := execution.1≠0 ∨ execution.2=none ∨
    execution.2=some (chunks key.workload-1)
  [(.stage,none)]++
  (if execution.1=0 ∧ execution.2.getD 0=0 then [(.sequenceAllocation,none)] else [])++
  match mode with
  | .wholeStage => []
  | .componentSynchronized =>
    [(if a.ownsTokenEmbedding then .embedding else .fromWire,none)]++
    (List.range' a.layerStart (a.layerEnd-a.layerStart)).map (fun i => (.layer,some i))++
    (if key.environment.backend≠.cpu then [(.validation,none)] else [])++
    (if a.ownsSampling=false then [(.toWire,none)]
      else if sampled then [(.finalNorm,none),(.lmHead,none),(.sampling,none)] else [])++
    [(.runtimeOverhead,none)]

/-- The double `0.001`. -/
def thousandth : ℚ := 1152921504606847/2^60

/-- The checks of one execution. -/
def checkExecution (key : ProfileKey) (m : ComputeRunMeasurement) (cycle : ℕ) (mode : TimingMode)
    (execution : ℕ×Option ℕ) : Except String Unit :=
  let rows := indexed m cycle mode execution
  let actual := rows.map fun r => (r.component,r.layerIndex)
  let expected := expectedComponents key mode execution
  if ¬(actual⊆expected ∧ expected⊆actual) ∨ actual.length≠expected.length then
    .error "missing/duplicate or unexpected timing components"
  else if mode=.componentSynchronized then
    let total := ((rows.find? fun r => decide (r.component=.stage)).map (·.milliseconds)).getD 0
    let components := ((rows.filter fun r =>
      decide (r.component≠.stage ∧ r.component≠.sequenceAllocation)).map (·.milliseconds)).sum
    if thousandth < |total-components| then
      .error "timing components do not reconcile with stage total"
    else .ok ()
  else .ok ()

/-- `validate_compute_run` -/
def validateComputeRun (key : ProfileKey) (conditions : Conditions)
    (m : ComputeRunMeasurement) : Except String Unit :=
  let cycles := conditions.warmupCycles+conditions.measuredCycles
  if m.error≠none ∨ m.identicalOutputCycles≠List.range cycles then
    .error "missing paired output parity checks"
  else do
    m.records.forM (checkRecord cycles key.workload)
    (List.range cycles).forM fun cycle =>
      [TimingMode.wholeStage,.componentSynchronized].forM fun mode =>
        (executions key.workload).forM (checkExecution key m cycle mode)

end ComputeRuns

section Artifacts

/-- The measurements of single components. -/
inductive SampledKind
  | compute
  | conversion
  | link
  deriving DecidableEq

/-- `Measurement`; of single components only their samples. -/
inductive Measurement
  | memory (m : MemoryMeasurement)
  | computeRun (m : ComputeRunMeasurement)
  | sampled (kind : SampledKind) (samplesMs : List ℚ)
  deriving DecidableEq

/-- `kind` of a measurement, as far as bundles are searched by it. -/
inductive EvidenceKind
  | memory
  | computeRun
  deriving DecidableEq

/-- The measurement is of the kind. -/
def Measurement.isKind (m : Measurement) (kind : EvidenceKind) : Bool :=
  match m,kind with
  | .memory _,.memory => true
  | .computeRun _,.computeRun => true
  | _,_ => false

/-- The fields of `ProfileArtifact`. -/
structure ArtifactFields where
  schemaVersion : ArtifactSchema
  key : ProfileKey
  conditions : Conditions
  measurement : Measurement
  artifactDigest : String
  deriving DecidableEq

/-- What `assess_fit` and the checks of memory measurements read of an artifact. -/
def ArtifactFields.toFit (p : ArtifactFields) : FitAssessment.ProfileArtifact where
  schemaVersion := p.schemaVersion
  key := {
    manifestDigest := p.key.manifestDigest
    checkpointDigest := p.key.checkpointDigest
    backend := p.key.environment.backend
    assignment := p.key.assignment
    workload := p.key.workload
    executionDtype := p.key.executionDtype
    weightDtype := p.key.weightDtype}
  conditions := ⟨p.conditions.warmupCycles,p.conditions.measuredCycles,
    p.conditions.processPolicy,p.conditions.concurrentLoad⟩
  measurement := match p.measurement with
    | .memory m => .memory m
    | .computeRun _ => .other .computeRun
    | .sampled .compute _ => .other .compute
    | .sampled .conversion _ => .other .conversion
    | .sampled .link _ => .other .link

/-- `verify` of an artifact. -/
def ArtifactFields.verify (p : ArtifactFields) : Except String Unit :=
  if p.schemaVersion≠.v13 ∧ p.key.weightDtype.isSome≠decide (p.schemaVersion=.v12) then
    .error "mixed precision requires profile schema 1.2 or 1.3"
  else if p.schemaVersion=.v13 ∧ p.measurement.isKind .memory=false then
    .error "profile schema 1.3 requires memory measurements"
  else match p.measurement with
    | .memory m => verifyMemory p.toFit m
    | .computeRun m =>
      if p.schemaVersion≠(if p.key.weightDtype.isSome then .v12 else .v11) then
        .error "compute runs require measured profile schema 1.1"
      else if m.completed=true then validateComputeRun p.key p.conditions m
      else if m.error.getD ""="" then .error "incomplete compute run requires an error"
      else .ok ()
    | .sampled _ samplesMs =>
      if samplesMs.length≠p.conditions.measuredCycles then
        .error "sample count must match measured cycles; exclude warmups"
      else .ok ()

/-- `ProfileArtifact` -/
structure ProfileArtifact extends ArtifactFields where
  verified : toArtifactFields.verify=.ok ()
  deriving DecidableEq

end Artifacts

section Links

/-- `kind` of an observed path. -/
inductive PathKind
  | loopback
  | tailscale
  deriving DecidableEq

/-- `connection_type` of an observed path. -/
inductive PathConnection
  | direct
  | peerRelayed
  | derpRelayed
  | unknown
  deriving DecidableEq

/-- `PathObservation` -/
structure PathObservation where
  observedAt : ℚ
  kind : PathKind
  sourceIp : String
  targetIp : String
  peerId : String
  connectionType : PathConnection
  endpoint : String
  online : Bool
  evidence : String
  deriving DecidableEq

/-- What `route` returns. -/
structure Route where
  kind : PathKind
  sourceIp : String
  targetIp : String
  peerId : String
  connectionType : PathConnection
  endpoint : String
  online : Bool
  deriving DecidableEq

/-- `route` -/
def PathObservation.route (p : PathObservation) : Route where
  kind := p.kind
  sourceIp := p.sourceIp
  targetIp := p.targetIp
  peerId := p.peerId
  connectionType := p.connectionType
  endpoint := p.endpoint
  online := p.online

/-- `path_rejection` -/
def pathRejection (observations : List PathObservation) : Option String :=
  if observations.length < 2 then some "missing before/after path observations"
  else if observations.any (fun p => !p.online || p.connectionType=.unknown)=true then
    some "path unavailable or unknown during run"
  else if (observations.map (·.route)).dedup.length≠1 then
    some "path changed or mixed during run"
  else none

/-- The fields of `LinkArtifact` its users read or its validator checks. -/
structure LinkFields where
  measuredAt : ℚ
  finishedAt : ℚ
  concurrentLoad : String
  paths : List PathObservation
  result : Option LinkResult
  completed : Bool
  qualified : Bool
  error : Option String
  artifactDigest : String
  deriving DecidableEq

/-- `verify` of a link run. -/
def LinkFields.verify (a : LinkFields) : Except String Unit :=
  if a.finishedAt < a.measuredAt then .error "invalid observation interval"
  else if a.completed≠a.result.isSome then .error "completion requires complete native samples"
  else if a.qualified≠(a.completed && (pathRejection a.paths).isNone) then
    .error "qualified flag disagrees with observed path"
  else if a.qualified=false ∧ a.error.getD ""="" then .error "unqualified run requires reason"
  else .ok ()

/-- `LinkArtifact` -/
structure LinkArtifact extends LinkFields where
  verified : toLinkFields.verify=.ok ()
  result_valid : ∀ r∈result,r.validate=.ok ()
  deriving DecidableEq

end Links

section Bundles

/-- The fields of `WorkerEvidence`. -/
structure WorkerFields where
  worker : WorkerProfile
  memoryEnvironment : Environment
  computeEnvironment : Environment
  runtimeDeviceIdentity : String
  runtimeDriverVersion : String
  runtimeBinaryDigest : String
  admissionCapacity : MemoryAmounts
  host : PhysicalBudget
  device : Option PhysicalBudget
  mlxFitPolicy : MlxFitPolicy
  observedAt : ℚ
  transportMode : TransportMode
  deriving DecidableEq

/-- `environment_match` -/
def WorkerFields.environmentMatch (w : WorkerFields) : Except String Unit :=
  let memory := w.memoryEnvironment
  let compute := w.computeEnvironment
  let same : List (String×Bool) := [("backend",memory.backend=compute.backend),
    ("device_identity",memory.deviceIdentity=compute.deviceIdentity),
    ("device_name",memory.deviceName=compute.deviceName),
    ("backend_version",memory.backendVersion=compute.backendVersion),
    ("driver_version",memory.driverVersion=compute.driverVersion),
    ("allocator",memory.allocator=compute.allocator),
    ("allocator_config",memory.allocatorConfig=compute.allocatorConfig),
    ("os",memory.os=compute.os)]
  match same.find? fun field => !field.2 with
  | some field => .error ("memory/compute device environment mismatch: "++field.1)
  | none =>
    if w.worker.backend≠compute.backend then .error "worker/backend environment mismatch"
    else if w.mlxFitPolicy≠.conservative ∧ w.worker.backend≠.mlx then
      .error "mlx_fit_policy applies to MLX workers only"
    else .ok ()

/-- `WorkerEvidence` -/
structure WorkerEvidence extends WorkerFields where
  matched : toWorkerFields.environmentMatch=.ok ()
  deriving DecidableEq

/-- `RequestSetupSample` -/
structure RequestSetupSample where
  clientTtftMs : ℚ
  nativeTtftMs : ℚ
  nativeSetupMs : ℚ
  nonneg : 0 ≤ clientTtftMs ∧ 0 ≤ nativeTtftMs ∧ 0 ≤ nativeSetupMs
  /-- `consistent` -/
  consistent : nativeSetupMs ≤ nativeTtftMs ∧ nativeTtftMs ≤ clientTtftMs
  deriving DecidableEq

/-- `residual_ms` -/
def RequestSetupSample.residualMs (s : RequestSetupSample) : ℚ :=
  s.nativeSetupMs+s.clientTtftMs-s.nativeTtftMs

/-- The fields of `DirectionEvidence`. -/
structure DirectionFields where
  sourceWorkerId : String
  targetWorkerId : String
  sourceProbe : ProbeIdentity
  targetProbe : ProbeIdentity
  path : PathObservation
  linkDigest : String
  requestSetupSamplesMs : List ℚ
  requestSetupRaw : List RequestSetupSample
  requestSetupEvidenceDigest : String
  requestSetupMethod : String
  requestSetupMeasuredAt : ℚ
  deriving DecidableEq

/-- The double `1e-6`. -/
def millionth : ℚ := 4722366482869645/2^72

/-- `raw_setup` -/
def DirectionFields.rawSetup (d : DirectionFields) : Except String Unit :=
  let expected := d.requestSetupRaw.map (·.residualMs)
  if d.sourceWorkerId≠d.sourceProbe.workerId ∨ d.targetWorkerId≠d.targetProbe.workerId then
    .error "direction does not match source/target probe worker"
  else if expected.length≠d.requestSetupSamplesMs.length ∨
      (expected.zip d.requestSetupSamplesMs).any (fun pair =>
        decide (millionth < |pair.1-pair.2|))=true then
    .error "request setup samples disagree with raw production timings"
  else .ok ()

/-- `DirectionEvidence` -/
structure DirectionEvidence extends DirectionFields where
  samples_range : 5 ≤ requestSetupSamplesMs.length ∧ ∀ s∈requestSetupSamplesMs,0 ≤ s
  raw_length : 5 ≤ requestSetupRaw.length
  raw : toDirectionFields.rawSetup=.ok ()
  deriving DecidableEq

/-- `ProfileBundle`, in memory. -/
structure ProfileBundle where
  manifestDigest : String
  checkpointDigest : String
  workload : WorkloadProfile
  workers : List WorkerEvidence
  links : List LinkArtifact
  directions : List DirectionEvidence
  evaluatedAt : ℚ
  maximumProfileAgeSeconds : ℚ
  maximumSnapshotAgeSeconds : ℚ
  concurrentLoad : String
  inputKind : InputKind
  inputDigest : String
  profiles : List ProfileArtifact
  bundleDigest : String
  two_workers : workers.length=2 ∧ (workers.map (·.worker.workerId)).Nodup
  links_distinct : (links.map (·.artifactDigest)).Nodup
  directions_distinct : (directions.map fun d => (d.sourceWorkerId,d.targetWorkerId)).Nodup
  ages : 0 < maximumProfileAgeSeconds ∧ 0 < maximumSnapshotAgeSeconds ∧
    maximumSnapshotAgeSeconds ≤ 300
  profiles_distinct : (profiles.map (·.artifactDigest)).Nodup

/-- `profiles_for` -/
def ProfileBundle.profilesFor (bundle : ProfileBundle) (assignment : StageAssignment) :
    List ProfileArtifact :=
  bundle.profiles.filter fun p => decide (p.key.assignment=assignment)

end Bundles

end Hllm.MeasuredProfiles
