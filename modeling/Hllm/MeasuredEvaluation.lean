import Hllm.MeasuredProfiles
import Hllm.OrderedDict
import Hllm.SweepModel

/-!
# Evaluating measured placements

`evaluate` looks in a bundle for the one memory profile and the one compute run
of each assignment and for the link run between its workers, and adds medians of
what they measured. Everything it may raise is an error of the model: a missing
worker, a median of nothing, lists of unequal lengths, and the conversion of a
byte count that no double is near to. Dictionaries are in order of insertion.
-/

namespace Hllm.MeasuredEvaluation

open FitAssessment (FitResult MemoryMeasurement PhysicalBudget assessFit deviceValues hostPeak)
open LinkProbe (ProbeIdentity)
open LinkQualification (LinkResult LinkSample)
open MeasuredProfiles
open PlannerModels (DType ModelManifest Raised WorkloadProfile)
open SweepModel (PerformanceEstimate median)
open WireMessages (StageAssignment)

/-- Status, reasons and an estimate. -/
abbrev Evaluation := String×List String×Option PerformanceEstimate

section Raising

/-- An exception of Python's own. -/
def raising {α : Type} (text : String) : Except Raised α := .error (.evaluation text)

/-- `statistics.median` -/
def medianOf (values : List ℚ) : Except Raised ℚ :=
  if values=[] then raising "StatisticsError: no median for empty data" else .ok (median values)

/-- Sums over `zip(…, strict=True)`. -/
def zipSum (first second : List ℚ) : Except Raised (List ℚ) :=
  if second.length < first.length then
    raising "ValueError: zip() argument 2 is shorter than argument 1"
  else if first.length < second.length then
    raising "ValueError: zip() argument 2 is longer than argument 1"
  else .ok (List.zipWith (· + ·) first second)

/-- Index 0 of a list. -/
def first (values : List ℚ) : Except Raised ℚ :=
  match values with
  | [] => raising "IndexError: list index out of range"
  | value::_ => .ok value

/-- Integers from here on round to no double. -/
def floatLimit : ℕ := 2^1024-2^970

/-- A peak that an envelope multiplies by a fraction can be converted. -/
def converts (peak : Option ℕ) (budget : Option PhysicalBudget) : Bool :=
  match peak,budget.bind (·.availableBytes) with
  | some peak,some _ => peak < floatLimit
  | _,_ => true

/-- The peaks `assess_fit` multiplies can be converted. -/
def peaksConvert (artifact : FitAssessment.ProfileArtifact) (m : MemoryMeasurement)
    (binding : WorkerEvidence) : Bool :=
  converts (hostPeak artifact m binding.mlxFitPolicy).1 (some binding.host) &&
    (artifact.key.backend≠.cuda ||
      converts (deviceValues artifact.key.backend m).max? binding.device)

/-- `assess_fit` of a profile on its worker. -/
def assess (artifact : ProfileArtifact) (binding : WorkerEvidence) : Except Raised FitResult :=
  match artifact.measurement with
  | .memory m =>
    if peaksConvert artifact.toFit m binding=false then
      raising "OverflowError: int too large to convert to float"
    else assessFit artifact.toFit binding.admissionCapacity binding.host binding.device
      binding.mlxFitPolicy
  | _ => assessFit artifact.toFit binding.admissionCapacity binding.host binding.device
      binding.mlxFitPolicy

end Raising

section Evidence

/-- `_fresh` -/
def fresh (measuredAt now limit : ℚ) : Bool := 0 ≤ now-measuredAt ∧ now-measuredAt ≤ limit

/-- The condition of `matches`. -/
def selected (bundle : ProfileBundle) (manifest : ModelManifest) (workload : WorkloadProfile)
    (weightDtype : Option DType) (binding : WorkerEvidence) (assignment : StageAssignment)
    (kind : EvidenceKind) (environment : Environment) (p : ProfileArtifact) : Bool :=
  p.measurement.isKind kind &&
  p.key.assignment=assignment &&
  p.key.environment=environment &&
  p.key.inputKind=bundle.inputKind &&
  p.key.inputDigest=bundle.inputDigest &&
  p.key.manifestDigest=manifest.manifestDigest &&
  p.key.checkpointDigest=bundle.checkpointDigest &&
  p.key.workload=workload &&
  p.key.executionDtype=workload.kvDtype &&
  p.key.weightDtype=weightDtype &&
  p.key.transportMode=binding.transportMode &&
  p.conditions.concurrentLoad=bundle.concurrentLoad &&
  fresh p.conditions.measuredAt bundle.evaluatedAt bundle.maximumProfileAgeSeconds

/-- `environment` of a kind of evidence. -/
def environmentOf (binding : WorkerEvidence) : EvidenceKind → Environment
  | .memory => binding.memoryEnvironment
  | .computeRun => binding.computeEnvironment

/-- `matches` -/
def selection (bundle : ProfileBundle) (manifest : ModelManifest) (workload : WorkloadProfile)
    (weightDtype : Option DType) (binding : WorkerEvidence) (assignment : StageAssignment)
    (kind : EvidenceKind) : List ProfileArtifact :=
  (bundle.profilesFor assignment).filter (selected bundle manifest workload weightDtype binding
    assignment kind (environmentOf binding kind))

/-- What `evaluate` gathers. -/
structure Findings where
  unknown : List String := []
  unsafeReasons : List String := []
  computes : List ProfileArtifact := []
  identities : List String := []
  hostEnvelopes : List (String×ℤ) := []
  deviceEnvelopes : List (String×ℤ) := []

/-- Add a reason to know nothing. -/
def Findings.lacking (found : Findings) (reason : String) : Findings :=
  { found with unknown := found.unknown++[reason] }

/-- Add a digest. -/
def Findings.identified (found : Findings) (digest : String) : Findings :=
  { found with identities := found.identities++[digest] }

/-- Set an envelope if there is one. -/
def setEnvelope (workerId : String) (envelope : Option ℕ) (known : List (String×ℤ)) :
    List (String×ℤ) :=
  match envelope with
  | some bytes => OrderedDict.put Prod.fst (workerId,(bytes : ℤ)) known
  | none => known

/-- The branch of a memory profile. -/
def Findings.fitted (found : Findings) (workerId : String) (fit : FitResult) : Findings :=
  let reasons := fit.reasons.map fun reason => workerId++":"++reason
  { found with
    hostEnvelopes := setEnvelope workerId fit.hostEnvelopeBytes found.hostEnvelopes
    deviceEnvelopes := setEnvelope workerId fit.deviceEnvelopeBytes found.deviceEnvelopes
    unsafeReasons := found.unsafeReasons++if fit.status=.exceeds then reasons else []
    unknown := found.unknown++if fit.status=.unknown then reasons else [] }

/-- The branch of a compute run. -/
def Findings.computed (found : Findings) (binding : WorkerEvidence) (workerId : String)
    (artifact : ProfileArtifact) : Findings :=
  match artifact.measurement with
  | .computeRun m =>
    if m.completed=false then found.lacking ("INCOMPLETE_COMPUTE:"++workerId)
    else if m.admissionCapacity≠binding.admissionCapacity then
      found.lacking ("COMPUTE_ADMISSION_MISMATCH:"++workerId)
    else { found with computes := found.computes++[artifact] }
  | _ => found.lacking ("INCOMPLETE_COMPUTE:"++workerId)

/-- `kind.upper()` -/
def EvidenceKind.upper : EvidenceKind → String
  | .memory => "MEMORY"
  | .computeRun => "COMPUTE-RUN"

/-- One pass over the kinds of evidence. -/
def examineKind (binding : WorkerEvidence) (assignment : StageAssignment) (found : Findings)
    (kind : EvidenceKind) (evidence : List ProfileArtifact) : Except Raised Findings :=
  match evidence with
  | [artifact] =>
    let found := found.identified artifact.artifactDigest
    match kind with
    | .memory => (assess artifact binding).map (found.fitted assignment.workerId)
    | .computeRun => .ok (found.computed binding assignment.workerId artifact)
  | _ =>
    .ok (found.lacking ("MISSING_OR_AMBIGUOUS_"++EvidenceKind.upper kind++":"++
      assignment.workerId))

/-- The worker of an assignment. -/
def bindingOf (bundle : ProfileBundle) (workerId : String) : Except Raised WorkerEvidence :=
  match bundle.workers.find? fun w => decide (w.worker.workerId=workerId) with
  | some binding => .ok binding
  | none => raising "StopIteration"

/-- One pass over the assignments. -/
def examine (bundle : ProfileBundle) (manifest : ModelManifest) (workload : WorkloadProfile)
    (weightDtype : Option DType) (found : Findings) (assignment : StageAssignment) :
    Except Raised Findings := do
  let binding ← bindingOf bundle assignment.workerId
  let found :=
    if fresh binding.observedAt bundle.evaluatedAt bundle.maximumSnapshotAgeSeconds then found
    else found.lacking ("STALE_PHYSICAL_SNAPSHOT:"++assignment.workerId)
  let found ← examineKind binding assignment found .memory
    (selection bundle manifest workload weightDtype binding assignment .memory)
  examineKind binding assignment found .computeRun
    (selection bundle manifest workload weightDtype binding assignment .computeRun)

/-- `check_link_compatibility` -/
def checkLinkCompatibility (artifact : LinkArtifact) (source target : ProbeIdentity)
    (promptTokens outputTokens hiddenSize : ℕ) (path : PathObservation)
    (now maximumAgeSeconds : ℚ) : Except Raised (List String) :=
  match artifact.qualified,artifact.result with
  | true,some r =>
    match artifact.paths.getLast? with
    | none => raising "IndexError: tuple index out of range"
    | some last =>
      let age := now-artifact.measuredAt
      .ok (
        (if r.source≠source ∨ r.target≠target then
          ["source/target build or direction mismatch"] else [])++
        (if r.promptTokens≠promptTokens ∨ r.outputTokens≠outputTokens ∨
            r.hiddenSize≠hiddenSize then ["payload/workload mismatch"] else [])++
        (if path.route≠last.route then ["qualified path mismatch"] else [])++
        if maximumAgeSeconds < 0 ∨ age < 0 ∨ maximumAgeSeconds < age then
          ["stale or future measurement"] else [])
  | _,_ => .ok ["unqualified link profile"]

/-- `direction` -/
def directionOf (bundle : ProfileBundle) (source target : StageAssignment) :
    Option DirectionEvidence :=
  bundle.directions.find? fun d =>
    decide ((d.sourceWorkerId,d.targetWorkerId)=(source.workerId,target.workerId))

/-- `link` -/
def linkOf (bundle : ProfileBundle) (direction : Option DirectionEvidence) :
    Option LinkArtifact :=
  direction.bind fun d => bundle.links.find? fun a => decide (a.artifactDigest=d.linkDigest)

/-- The evidence about the link. -/
def examineLink (bundle : ProfileBundle) (manifest : ModelManifest) (workload : WorkloadProfile)
    (found : Findings) (direction : Option DirectionEvidence) (link : Option LinkArtifact) :
    Except Raised Findings :=
  match direction,link with
  | some direction,some link =>
    (checkLinkCompatibility link direction.sourceProbe direction.targetProbe
      workload.promptTokens workload.outputTokens manifest.config.hiddenSize direction.path
      bundle.evaluatedAt bundle.maximumProfileAgeSeconds).map fun reasons =>
      { found with
        unknown := found.unknown++reasons++
          (if fresh direction.path.observedAt bundle.evaluatedAt
            bundle.maximumSnapshotAgeSeconds then [] else ["STALE_PATH_SNAPSHOT"])++
          (if link.concurrentLoad≠bundle.concurrentLoad then
            ["LINK_CONCURRENT_LOAD_MISMATCH"] else [])++
          (if fresh direction.requestSetupMeasuredAt bundle.evaluatedAt
            bundle.maximumProfileAgeSeconds then [] else ["STALE_REQUEST_SETUP"])
        identities := found.identities++
          [link.artifactDigest,direction.requestSetupEvidenceDigest] }
  | _,_ => .ok (found.lacking "MISSING_DIRECTIONAL_LINK_OR_REQUEST_SETUP")

end Evidence

section Estimates

/-- `rows`: the whole-stage records of the measured cycles. -/
def stageRows (artifact : ProfileArtifact) (m : ComputeRunMeasurement) : List TimingRecord :=
  m.records.filter fun r =>
    decide (artifact.conditions.warmupCycles ≤ r.cycle ∧ r.timingMode=.wholeStage)

/-- The records the allocation is a median of. -/
def allocationRows (artifact : ProfileArtifact) (m : ComputeRunMeasurement) :
    List TimingRecord :=
  (stageRows artifact m).filter fun r => decide (r.component=.sequenceAllocation)

/-- The records a step is a median of. -/
def stepRows (artifact : ProfileArtifact) (m : ComputeRunMeasurement) (step : ℕ) :
    List TimingRecord :=
  (stageRows artifact m).filter fun r => decide (r.component=.stage ∧ r.step=step)

/-- The exchanges a boundary step is a median of. -/
def exchangeRows (r : LinkResult) (step : ℕ) : List LinkSample :=
  r.samples.filter fun s => decide (r.warmupCycles ≤ s.cycle ∧ s.step=step)

/-- Medians of one stage. -/
structure StageCost where
  allocation : ℚ
  perStep : List ℚ

/-- `alloc` and `per_step` of an artifact. -/
def stageCost (workload : WorkloadProfile) (artifact : ProfileArtifact) :
    Except Raised StageCost :=
  match artifact.measurement with
  | .computeRun m => do
    let allocation ← medianOf ((allocationRows artifact m).map (·.milliseconds))
    let perStep ← (List.range workload.outputTokens).mapM fun step =>
      medianOf ((stepRows artifact m step).map (·.milliseconds))
    return ⟨allocation,perStep⟩
  | _ => .error .assertion

/-- `allocation`, `stage_steps` and `components` of the loop over compute runs. -/
structure Totals where
  allocation : ℚ
  stageSteps : List ℚ
  components : List (String×ℚ)

/-- Assignments to a dictionary. -/
def update (components entries : List (String×ℚ)) : List (String×ℚ) :=
  entries.foldl (fun known entry => OrderedDict.put Prod.fst entry known) components

/-- One round of that loop. -/
def addStage (workload : WorkloadProfile) (totals : Totals) (artifact : ProfileArtifact) :
    Except Raised Totals := do
  let cost ← stageCost workload artifact
  let stageSteps ← zipSum totals.stageSteps cost.perStep
  let prefill ← first cost.perStep
  let workerId := artifact.key.assignment.workerId
  return ⟨totals.allocation+cost.allocation,stageSteps,update totals.components [
    (workerId++".allocation",cost.allocation),(workerId++".prefill",prefill),
    (workerId++".decode",cost.perStep.tail.sum)]⟩

/-- The checks of `PerformanceEstimate`. -/
def validEstimate (e : PerformanceEstimate) : Except Raised PerformanceEstimate :=
  if e.boundaryPrefillMs < 0 ∨ e.boundaryDecodeMs < 0 then
    raising "ValidationError: Input should be greater than or equal to 0"
  else .ok e

/-- `boundary` -/
def boundarySteps (workload : WorkloadProfile) (r : LinkResult) : Except Raised (List ℚ) :=
  (List.range workload.outputTokens).mapM fun step =>
    medianOf ((exchangeRows r step).map fun s => s.senderEncodeMs+s.roundTripMs)

/-- `boundary_decode_ms` -/
def decodeMedian (boundary : List ℚ) : Except Raised ℚ :=
  if boundary.tail=[] then .ok 0 else medianOf boundary.tail

/-- The estimate of qualified evidence. -/
def estimate (workload : WorkloadProfile) (found : Findings) (direction : DirectionEvidence)
    (r : LinkResult) : Except Raised PerformanceEstimate := do
  let totals ← found.computes.foldlM (addStage workload)
    ⟨0,List.replicate workload.outputTokens 0,[]⟩
  let boundary ← boundarySteps workload r
  let setup ← medianOf direction.requestSetupSamplesMs
  let boundaryPrefill ← first boundary
  let prefill ← first totals.stageSteps
  let decode ← zipSum totals.stageSteps.tail boundary.tail
  let boundaryDecode ← decodeMedian boundary
  let ttft := setup+totals.allocation+prefill+boundaryPrefill
  validEstimate {
    boundaryPrefillMs := boundaryPrefill
    boundaryDecodeMs := boundaryDecode
    confidence := "exact-assignment-whole-stage; additive prediction, independently qualify"
    ttftMs := some ttft
    decodeMs := decode
    generationMs := some (ttft+decode.sum)
    componentsMs := update totals.components [("request_setup",setup),
      ("boundary_prefill",boundaryPrefill),("boundary_decode",boundary.tail.sum)]
    profileDigests := found.identities
    hostEnvelopeBytes := found.hostEnvelopes
    deviceEnvelopeBytes := found.deviceEnvelopes }

/-- The end of `evaluate`. -/
def conclude (workload : WorkloadProfile) (found : Findings)
    (direction : Option DirectionEvidence) (link : Option LinkArtifact) :
    Except Raised Evaluation :=
  if found.unsafeReasons≠[] ∨ found.unknown≠[] then
    .ok (if found.unsafeReasons≠[] then "infeasible" else "unknown",
      found.unsafeReasons++found.unknown,none)
  else match direction,link.bind (·.result) with
  | some direction,some r =>
    (estimate workload found direction r).map fun e => ("measured",[],some e)
  | _,_ => .error .assertion

/-- `evaluate` -/
def evaluate (bundle : ProfileBundle) (manifest : ModelManifest) (workload : WorkloadProfile)
    (assignments : StageAssignment×StageAssignment) (weightDtype : Option DType) :
    Except Raised Evaluation :=
  if bundle.manifestDigest≠manifest.manifestDigest ∨ bundle.workload≠workload then
    .ok ("unknown",["BUNDLE_MANIFEST_OR_WORKLOAD_MISMATCH"],none)
  else do
    let found ← [assignments.1,assignments.2].foldlM
      (examine bundle manifest workload weightDtype) {}
    let direction := directionOf bundle assignments.1 assignments.2
    let link := linkOf bundle direction
    let found ← examineLink bundle manifest workload found direction link
    conclude workload found direction link

end Estimates

end Hllm.MeasuredEvaluation
