import Hllm.PlannerModels

/-!
# Assessing whether a measured stage fits

`assess_fit` compares a memory profile with admission capacities and physical
budgets. Of a profile artifact the parts are kept that this assessment and the
checks of its users read. Fractions are exact rationals.
-/

namespace Hllm.FitAssessment

open PlannerModels (Backend DType Raised WorkloadProfile)
open WireMessages (StageAssignment)

/-- `MemoryAmounts` -/
structure MemoryAmounts where
  host : ℕ := 0
  device : ℕ := 0
  pinned : ℕ := 0
  unified : ℕ := 0
  /-- Pinned memory is a part of host memory. -/
  pinned_is_host : pinned ≤ host

/-- Amounts are their four fields. -/
instance : DecidableEq MemoryAmounts := fun a b =>
  decidable_of_iff (a.host=b.host ∧ a.device=b.device ∧ a.pinned=b.pinned ∧ a.unified=b.unified)
    ⟨by
      intro h
      cases a
      cases b
      simpa only [MemoryAmounts.mk.injEq] using h,
    by
      intro h
      rw [h]
      exact ⟨rfl,rfl,rfl,rfl⟩⟩

/-- Fields of memory amounts. -/
inductive MemoryField
  | host
  | device
  | pinned
  | unified
  deriving DecidableEq

/-- `model_fields`, in order of declaration. -/
def memoryFields : List MemoryField := [.host,.device,.pinned,.unified]

/-- Name of a field. -/
def MemoryField.name : MemoryField → String
  | .host => "host"
  | .device => "device"
  | .pinned => "pinned"
  | .unified => "unified"

/-- `getattr` -/
def MemoryAmounts.get (amounts : MemoryAmounts) : MemoryField → ℕ
  | .host => amounts.host
  | .device => amounts.device
  | .pinned => amounts.pinned
  | .unified => amounts.unified

/-- `peak_scope` -/
inductive PeakScope
  | phase
  | unavailable
  deriving DecidableEq

/-- `AllocatorSample` -/
structure AllocatorSample where
  activeBytes : ℕ
  cachedBytes : ℕ
  peakBytes : ℕ
  peakScope : PeakScope
  deriving DecidableEq

/-- `MemoryPhase` -/
inductive MemoryPhase
  | baseline
  | load
  | allocate
  | prefill
  | decode
  | requestCleanup
  | unload
  deriving DecidableEq

/-- Phases in which a stage executes. -/
def MemoryPhase.executes (phase : MemoryPhase) : Bool :=
  decide (phase∈[MemoryPhase.load,.allocate,.prefill,.decode])

/-- `ProcessMemoryObservation` -/
structure ProcessMemoryObservation where
  processId : ℕ+
  observedAtUnixNs : ℕ+
  rssBytes : Option ℕ
  rssLifetimePeakBytes : Option ℕ
  physicalFootprintBytes : Option ℕ
  physicalFootprintLifetimePeakBytes : Option ℕ
  deriving DecidableEq

/-- `MemorySample` -/
structure MemorySample where
  cycle : ℕ
  phase : MemoryPhase
  weights : MemoryAmounts
  cache : MemoryAmounts
  workspace : MemoryAmounts
  allocator : Option AllocatorSample
  rssBytes : Option ℕ
  rssLifetimePeakBytes : Option ℕ
  deviceAvailableBytes : Option ℕ
  completedSteps : ℕ
  processMemory : Option ProcessMemoryObservation
  /-- `consistent_rss` -/
  consistent : ∀ p∈processMemory,rssBytes=p.rssBytes ∧
    rssLifetimePeakBytes=p.rssLifetimePeakBytes
  deriving DecidableEq

/-- `PhysicalSample` -/
structure PhysicalSample where
  rssBytes : Option ℕ
  deviceProcessBytes : Option ℕ
  deriving DecidableEq

/-- `MemoryMeasurement` -/
structure MemoryMeasurement where
  admissionCapacity : MemoryAmounts
  samples : List MemorySample
  physicalSamples : List PhysicalSample
  completed : Bool
  error : Option String
  deriving DecidableEq

/-- The other kinds of measurement. -/
inductive OtherMeasurement
  | compute
  | conversion
  | link
  | computeRun
  deriving DecidableEq

/-- `Measurement` -/
inductive Measurement
  | memory (m : MemoryMeasurement)
  | other (kind : OtherMeasurement)
  deriving DecidableEq

/-- `schema_version` of an artifact. -/
inductive ArtifactSchema
  | v10
  | v11
  | v12
  | v13
  deriving DecidableEq

/-- `process_policy` -/
inductive ProcessPolicy
  | freshProcessThenReloads
  | loadedStagePairedPasses
  | nativeStreamExchanges
  deriving DecidableEq

/-- `Conditions` -/
structure Conditions where
  warmupCycles : ℕ
  measuredCycles : ℕ+
  processPolicy : ProcessPolicy
  concurrentLoad : String
  deriving DecidableEq

deriving instance DecidableEq for WorkloadProfile

/-- `ProfileKey`; of the environment only the backend. -/
structure ProfileKey where
  manifestDigest : String
  checkpointDigest : String
  backend : Backend
  assignment : StageAssignment
  workload : WorkloadProfile
  executionDtype : DType
  weightDtype : Option DType
  deriving DecidableEq

/-- `ProfileArtifact` -/
structure ProfileArtifact where
  schemaVersion : ArtifactSchema
  key : ProfileKey
  conditions : Conditions
  measurement : Measurement
  deriving DecidableEq

/-- `MlxFitPolicy` -/
inductive MlxFitPolicy
  | conservative
  | footprint
  deriving DecidableEq

/-- `PhysicalBudget` -/
structure PhysicalBudget where
  availableBytes : Option ℕ
  headroomBytes : ℕ
  extraOverheadBytes : ℕ
  safetyFraction : ℚ
  safetyFraction_range : 1/20 ≤ safetyFraction ∧ safetyFraction < 1
  deriving DecidableEq

/-- `status` of a fit. -/
inductive FitStatus
  /-- `safe` -/
  | fits
  /-- `unsafe` -/
  | exceeds
  /-- `unknown` -/
  | unknown
  deriving DecidableEq

/-- `policy` of a fit. -/
inductive FitPolicy
  | cpuRss
  | cudaRssDevice
  | mlxRssPlusAllocator
  | mlxFootprintMax
  deriving DecidableEq

/-- `FitResult` -/
structure FitResult where
  status : FitStatus
  reasons : List String
  hostEnvelopeBytes : Option ℕ
  deviceEnvelopeBytes : Option ℕ
  policy : FitPolicy
  requestedMlxPolicy : Option MlxFitPolicy
  policyNotes : List String
  deriving DecidableEq

/-- Variables of the loop of `_footprint_peak`. -/
structure FootprintState where
  previousTime : ℕ := 0
  previousRss : ℕ := 0
  previousFootprint : ℕ := 0
  processId : Option ℕ+ := none

/-- One round of that loop. -/
def footprintStep (state : FootprintState) (sample : MemorySample) :
    Except String FootprintState :=
  match sample.processMemory.bind fun p => do
      let rss ← p.rssBytes
      let rssPeak ← p.rssLifetimePeakBytes
      let footprint ← p.physicalFootprintBytes
      let footprintPeak ← p.physicalFootprintLifetimePeakBytes
      if rss=0 ∨ rssPeak=0 ∨ footprint=0 ∨ footprintPeak=0 then none
      else some (p,rss,rssPeak,footprint,footprintPeak) with
  | none => .error "footprint policy requires positive OS counters in every phase"
  | some (p,rss,rssPeak,footprint,footprintPeak) =>
    if state.processId.any (fun id => decide (p.processId≠id))=true ∨
        p.observedAtUnixNs < state.previousTime ∨ rssPeak < max state.previousRss rss ∨
        footprintPeak < max state.previousFootprint footprint then
      .error
        "footprint policy requires coherent process identity, clock and lifetime peaks"
    else if sample.allocator=none ∨ (sample.phase.executes=true ∧
        sample.allocator.any (fun a => decide (a.peakScope≠.phase))=true) then
      .error "footprint policy requires allocator observations and execution phase peaks"
    else .ok ⟨p.observedAtUnixNs,rssPeak,footprintPeak,some p.processId⟩

/-- `_footprint_peak`, with the reason if there is none. -/
def footprintPeak (artifact : ProfileArtifact) (m : MemoryMeasurement) : Except String ℕ :=
  if artifact.schemaVersion≠.v13 ∨ m.completed=false ∨ m.samples=[] then
    .error "footprint policy requires a complete schema-1.3 memory exercise"
  else if artifact.conditions.processPolicy≠.freshProcessThenReloads then
    .error "footprint policy requires fresh-process/reload evidence"
  else (m.samples.foldlM footprintStep {}).map (·.previousFootprint)

/-- Bytes of an allocator sample. -/
def AllocatorSample.bytes (a : AllocatorSample) : ℕ := max a.peakBytes (a.activeBytes+a.cachedBytes)

/-- `host_values` -/
def hostValues (m : MemoryMeasurement) : List ℕ :=
  m.samples.filterMap (·.rssLifetimePeakBytes)++m.physicalSamples.filterMap (·.rssBytes)

/-- `allocator_values` -/
def allocatorValues (m : MemoryMeasurement) : List ℕ :=
  m.samples.filterMap fun sample => sample.allocator.map (·.bytes)

/-- `device_values`, with those of the allocator on CUDA. -/
def deviceValues (backend : Backend) (m : MemoryMeasurement) : List ℕ :=
  m.physicalSamples.filterMap (·.deviceProcessBytes)++
    if backend=.cuda then allocatorValues m else []

/-- `unified_allocator_peak` -/
def unifiedAllocatorPeak (backend : Backend) (m : MemoryMeasurement) : ℕ :=
  if backend=.mlx then (allocatorValues m).max?.getD 0 else 0

/-- Reservations of a sample. -/
def MemorySample.required (sample : MemorySample) (field : MemoryField) : ℕ :=
  sample.weights.get field+sample.cache.get field+sample.workspace.get field

/-- `unsafe` before the envelopes. -/
def reservationReasons (m : MemoryMeasurement) (capacity : MemoryAmounts) : List String :=
  m.samples.flatMap fun sample => memoryFields.flatMap fun field =>
    if capacity.get field < sample.required field then
      [field.name++": native reservations exceed admission cap"]
    else []

/-- `unknown` before the envelopes. -/
def telemetryReasons (backend : Backend) (m : MemoryMeasurement) (capacity : MemoryAmounts) :
    List String :=
  (if m.completed then []
    else ["incomplete memory exercise: "++
      (if m.error.getD ""="" then "unknown error" else m.error.getD "")])++
  (memoryFields.flatMap fun field =>
    if capacity.get field < m.admissionCapacity.get field then
      [field.name++": lower admission cap requires a new load/run probe"]
    else [])++
  (if backend≠.cpu ∧ m.samples.any (fun sample => sample.phase.executes &&
      !sample.allocator.any fun a => decide (a.peakScope=.phase))=true then
    ["backend phase peak telemetry unavailable"] else [])++
  (if backend=.cuda ∧ m.physicalSamples.filterMap (·.deviceProcessBytes)=[] then
    ["CUDA physical process observations unavailable"] else [])

/-- Result of `envelope` with what it appends to `unsafe` and `unknown`. -/
structure Envelope where
  needed : Option ℕ
  unsafeReasons : List String := []
  unknownReasons : List String := []

/-- `envelope` -/
def envelope (name : String) (peak : Option ℕ) (budget : Option PhysicalBudget) : Envelope :=
  match peak,budget,budget.bind (·.availableBytes) with
  | some peak,some budget,some available =>
    let needed := peak+(Rat.ceil (peak*budget.safetyFraction)).toNat+budget.extraOverheadBytes
    {
      needed := some needed
      unsafeReasons := if available < needed+budget.headroomBytes then
        [name++": physical envelope plus headroom exceeds current availability"] else []}
  | _,_,_ =>
    {
      needed := none
      unknownReasons := [name++": physical peak/current availability unavailable"]}

/-- `policy` before the footprint policy is considered. -/
def basePolicy : Backend → FitPolicy
  | .mlx => .mlxRssPlusAllocator
  | .cuda => .cudaRssDevice
  | .cpu => .cpuRss

/-- `host_peak`, `policy` and `policy_notes` -/
def hostPeak (artifact : ProfileArtifact) (m : MemoryMeasurement) (mlxPolicy : MlxFitPolicy) :
    Option ℕ×FitPolicy×List String :=
  let backend := artifact.key.backend
  let conservative := (hostValues m).max?.map (·+unifiedAllocatorPeak backend m)
  if backend=.mlx ∧ mlxPolicy=.footprint then
    match footprintPeak artifact m with
    | .error reason => (conservative,basePolicy backend,[reason++"; using conservative-v1"])
    | .ok footprint =>
      ((footprint::unifiedAllocatorPeak backend m::(hostValues m++
        m.samples.map fun sample => sample.rssBytes.getD 0)).max?,.mlxFootprintMax,[])
  else (conservative,basePolicy backend,[])

/-- `assess_fit` of a memory measurement. -/
def assessMemory (artifact : ProfileArtifact) (m : MemoryMeasurement) (capacity : MemoryAmounts)
    (host : PhysicalBudget) (device : Option PhysicalBudget) (mlxPolicy : MlxFitPolicy) :
    FitResult :=
  let backend := artifact.key.backend
  let (peak,policy,notes) := hostPeak artifact m mlxPolicy
  let hostEnvelope := envelope "host/unified" peak (some host)
  let deviceEnvelope : Envelope := if backend=.cuda then
    envelope "device" (deviceValues backend m).max? device else {needed := none}
  let unsafeReasons := reservationReasons m capacity++hostEnvelope.unsafeReasons++
    deviceEnvelope.unsafeReasons
  let unknownReasons := telemetryReasons backend m capacity++hostEnvelope.unknownReasons++
    deviceEnvelope.unknownReasons
  {
    status := if unsafeReasons≠[] then .exceeds
      else if unknownReasons≠[] then .unknown else .fits
    reasons := (unsafeReasons++unknownReasons).eraseDups
    hostEnvelopeBytes := hostEnvelope.needed
    deviceEnvelopeBytes := deviceEnvelope.needed
    policy := policy
    requestedMlxPolicy := if backend=.mlx then some mlxPolicy else none
    policyNotes := notes}

/-- `assess_fit` -/
def assessFit (artifact : ProfileArtifact) (capacity : MemoryAmounts) (host : PhysicalBudget)
    (device : Option PhysicalBudget) (mlxPolicy : MlxFitPolicy) : Except Raised FitResult :=
  match artifact.measurement with
  | .memory m => .ok (assessMemory artifact m capacity host device mlxPolicy)
  | .other _ => .error (.value "fit assessment requires a memory measurement")

end Hllm.FitAssessment
