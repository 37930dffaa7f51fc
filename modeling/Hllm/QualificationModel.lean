import Hllm.OrderedDict
import Mathlib.Algebra.Order.Ring.Rat
import Mathlib.Data.List.MinMax
import Mathlib.Data.List.Sort

/-!
# Concurrent serving evidence

The record of a two-request experiment and everything derived from it:
overlap intervals, logical peaks, physical envelopes, guard outcomes and the
acceptance status. Instants are microseconds and floating point values are
rationals; rounding, the formatting of a lag and the hashes are parameters.
Literal types are enumerations. Validators of single classes are fields of
their structures, except for the hashes of a workload.
-/

namespace Hllm.QualificationModel

/-- Operations on floating point numbers the derivations use. -/
structure Numerics where
  /-- `datetime.timestamp` -/
  timestamp : ℤ → ℚ
  /-- Difference of two floating point numbers. -/
  minus : ℚ → ℚ → ℚ
  /-- `math.ceil(peak * fraction)` -/
  allowance : ℕ → ℚ → ℕ
  /-- A number of seconds without decimals. -/
  wholeSeconds : ℚ → String

/-- `MemoryAmounts` of the profiling models. -/
structure MemoryAmounts where
  host : ℕ := 0
  device : ℕ := 0
  pinned : ℕ := 0
  unified : ℕ := 0
  /-- Pinned memory is a subset of host memory. -/
  pinnedIsHost : pinned ≤ host := by decide
  deriving DecidableEq

/-- `add_amounts` -/
def addAmounts (a b : MemoryAmounts) : MemoryAmounts where
  host := a.host+b.host
  device := a.device+b.device
  pinned := a.pinned+b.pinned
  unified := a.unified+b.unified
  pinnedIsHost := Nat.add_le_add a.pinnedIsHost b.pinnedIsHost

/-- The larger of each amount. -/
def larger (a b : MemoryAmounts) : MemoryAmounts where
  host := max a.host b.host
  device := max a.device b.device
  pinned := max a.pinned b.pinned
  unified := max a.unified b.unified
  pinnedIsHost := max_le_max a.pinnedIsHost b.pinnedIsHost

/-- `max_amounts` -/
def maxAmounts (values : List MemoryAmounts) : MemoryAmounts := values.foldl larger {}

/-- `fits` -/
def fits (required capacity : MemoryAmounts) : Bool :=
  required.host ≤ capacity.host && required.device ≤ capacity.device &&
    required.pinned ≤ capacity.pinned && required.unified ≤ capacity.unified

/-- The sum over all fields. -/
def MemoryAmounts.sum (a : MemoryAmounts) : ℕ := a.host+a.device+a.pinned+a.unified

/-- Backends of a worker. -/
inductive Backend
  | cpu
  | mlx
  | cuda
  deriving DecidableEq

/-- Element types of a workload, as far as the scope of a baseline needs them. -/
inductive DType
  | f16
  | bf16
  | f32
  | other (name : String)
  deriving DecidableEq

/-- Fit policies for MLX. -/
inductive MlxFitPolicy
  | conservative
  | footprint
  deriving DecidableEq

/-- Outcome of a fit. `exceeded` is the source's status "unsafe". -/
inductive FitStatus
  | safe
  | exceeded
  | unknown
  deriving DecidableEq

/-- The status as recorded. -/
def FitStatus.text : FitStatus → String
  | .safe => "safe"
  | .exceeded => "unsafe"
  | .unknown => "unknown"

/-- Policies of an envelope. -/
inductive Policy
  | cpuRss
  | cudaRssDevice
  | mlxRssPlusAllocator
  | mlxFootprintMax
  deriving DecidableEq

/-- `PhysicalBudget` -/
structure PhysicalBudget where
  availableBytes : Option ℕ
  headroomBytes : ℕ
  extraOverheadBytes : ℕ
  safetyFraction : ℚ
  deriving DecidableEq

/-- `WorkerIdentity` -/
structure WorkerIdentity where
  workerId : String
  stageIndex : ℕ
  backend : Backend
  workerBinaryDigest : String
  processId : ℕ

/-- Both members of a pair in order. -/
def both {α : Type*} (pair : α×α) : List α := [pair.1,pair.2]

/-- Two pairs side by side. -/
def zipped {α β : Type*} (a : α×α) (b : β×β) : List (α×β) := [(a.1,b.1),(a.2,b.2)]

/-- `Identity` -/
structure Identity where
  planDigest : String
  referenceSha256 : String
  workerOrder : String×String
  workers : WorkerIdentity×WorkerIdentity
  /-- Worker identities follow the stage order. -/
  ordered : (workers.1.workerId,workers.2.workerId)=workerOrder ∧
    (workers.1.stageIndex,workers.2.stageIndex)=(0,1)

/-- Tokens a cancelled request must have produced. -/
def requiredCancelPrefix : ℕ := 3

/-- `RequestWorkload` -/
structure RequestWorkload where
  promptIds : List ℕ
  expectedIds : List ℕ
  promptDigest : String
  expectedDigest : String
  reservationTokens : ℕ
  /-- There is a prompt. -/
  prompted : 1 ≤ promptIds.length
  /-- The reference is long enough for a cancellation. -/
  expecting : requiredCancelPrefix ≤ expectedIds.length
  /-- The reservation is prompt and reference. -/
  reserved : reservationTokens=promptIds.length+expectedIds.length

/-- `Workload` -/
structure Workload where
  requests : RequestWorkload×RequestWorkload
  executionDtype : DType

/-- `WorkerConfiguration` -/
structure WorkerConfiguration where
  workerId : String
  admissionCapacity : MemoryAmounts
  requestObservations : Bool

/-- `Configuration` -/
structure Configuration where
  workers : WorkerConfiguration×WorkerConfiguration
  mlxFitPolicy : MlxFitPolicy
  safetyFraction : ℚ
  extraOverheadBytes : ℕ
  hostHeadroomBytes : ℕ
  deviceHeadroomBytes : ℕ

/-- Scopes of a baseline report. -/
inductive BaselineScope
  | f16ReloadQualification
  | cpuRehearsal
  deriving DecidableEq

/-- The scope as recorded. -/
def BaselineScope.text : BaselineScope → String
  | .f16ReloadQualification => "f16-reload-qualification"
  | .cpuRehearsal => "cpu-rehearsal"

/-- `BaselineSummary` -/
structure BaselineSummary where
  scope : BaselineScope
  completed : Bool
  planDigest : String
  referenceSha256 : String
  workerBinaryDigests : List (String×String)
  allExact : Bool

/-- `ProfilePrecondition` -/
structure ProfilePrecondition where
  workerId : String
  measuredAt : ℤ

/-- `CycleGate` -/
structure CycleGate where
  workerId : String
  cycle : ℕ
  sampledAt : ℤ
  status : FitStatus
  hostBudget : PhysicalBudget
  deviceBudget : Option PhysicalBudget

/-- `Preconditions` -/
structure Preconditions where
  baseline : BaselineSummary
  startedAt : ℤ
  profiles : ProfilePrecondition×ProfilePrecondition
  gates : List CycleGate
  /-- One fit gate per worker and cycle. -/
  single : (gates.map fun g => (g.cycle,g.workerId)).Nodup
  /-- Fit gates are ordered by cycle. -/
  ordered : (gates.map (·.cycle)).Pairwise (· ≤ ·)

/-- `RequestReservation` -/
structure RequestReservation where
  requestId : String
  cache : MemoryAmounts
  admittedAtMonotonicNs : ℕ
  allocating : Bool

/-- Kinds of lifecycle events. -/
inductive EventKind
  | admitted
  | retired
  deriving DecidableEq

/-- `LifecycleEvent` -/
structure LifecycleEvent where
  kind : EventKind
  requestId : String
  sequence : ℕ
  atMonotonicNs : ℕ
  concurrentRequestIds : List String
  reason : String
  deriving DecidableEq

/-- `AllocatorSample` -/
structure AllocatorSample where
  activeBytes : ℕ
  cachedBytes : ℕ
  peakBytes : ℕ

/-- `ProcessMemoryObservation` -/
structure ProcessMemoryObservation where
  processId : ℕ
  observedAtUnixNs : ℕ
  rssBytes : Option ℕ
  rssLifetimePeakBytes : Option ℕ
  physicalFootprintBytes : Option ℕ
  physicalFootprintLifetimePeakBytes : Option ℕ

/-- `WorkerSnapshot` -/
structure WorkerSnapshot where
  phase : String
  cycle : Option ℕ
  processId : Option ℕ
  observedAtMonotonicNs : Option ℕ
  loadedWeights : MemoryAmounts
  reservedCache : MemoryAmounts
  reservedWorkspace : MemoryAmounts
  activeRequestIds : List String
  requestObservationsAvailable : Bool
  requests : List RequestReservation
  events : List LifecycleEvent
  eventsTotal : ℕ
  allocator : Option AllocatorSample
  processMemory : Option ProcessMemoryObservation
  /-- Without observations there are no rows. -/
  unavailable : requestObservationsAvailable=false →
    requests=[] ∧ events=[] ∧ processId=none
  /-- Observations have a process and a steady clock. -/
  available : requestObservationsAvailable=true → processId≠none ∧ observedAtMonotonicNs≠none
  /-- Rows match the active ids. -/
  rows : ∀ id,id∈requests.map (·.requestId) ↔ id∈activeRequestIds
  /-- The events are among all there were. -/
  counted : events.length ≤ eventsTotal

/-- `DeviceSample` -/
structure DeviceSample where
  unixTime : ℚ
  processId : ℕ
  cudaProcessBytes : Option ℕ

/-- `WorkerObservations` -/
structure WorkerObservations where
  workerId : String
  snapshots : List WorkerSnapshot
  deviceSamples : List DeviceSample

/-- Requests of a round. The constructor is its kind. -/
inductive RoundRequests
  | serial (id : String)
  | paired (first second : String)
  | cancel (victim survivor : String)
  deriving DecidableEq

/-- `Round` -/
structure Round where
  cycle : ℕ
  index : ℕ
  requests : RoundRequests

/-- Ids of a round in order. -/
def RoundRequests.ids : RoundRequests → List String
  | .serial id => [id]
  | .paired first second => [first,second]
  | .cancel victim survivor => [victim,survivor]

/-- The pair of a round that is not serial. -/
def RoundRequests.pair : RoundRequests → Option (String×String)
  | .serial _ => none
  | .paired first second => some (first,second)
  | .cancel victim survivor => some (victim,survivor)

/-- Roles of a compared request. -/
inductive Role
  | serial
  | paired
  | cancelVictim
  | cancelSurvivor
  deriving DecidableEq

/-- Roles the requests of a round must have. -/
def RoundRequests.expectedRoles : RoundRequests → List Role
  | .serial _ => [.serial]
  | .paired _ _ => [.paired,.paired]
  | .cancel _ _ => [.cancelVictim,.cancelSurvivor]

/-- `TokenComparison` -/
structure TokenComparison where
  requestId : String
  role : Role
  generatedIds : List ℕ
  expectedIds : List ℕ
  exact : Bool
  error : Option String
  /-- The flag says what the tokens say. -/
  honest : exact=decide (generatedIds=expectedIds)

/-- How an overlap was shown. -/
inductive Proof
  | retirementEvent
  | jointSnapshot
  deriving DecidableEq

/-- `OverlapInterval` -/
structure OverlapInterval where
  workerId : String
  requestIds : String×String
  startMonotonicNs : ℕ
  endMonotonicNs : ℕ
  admissionSequence : Option ℕ
  proof : Proof
  detail : String
  deriving DecidableEq

/-- `WorkerPeak` -/
structure WorkerPeak where
  workerId : String
  weights : MemoryAmounts
  cache : MemoryAmounts
  workspace : MemoryAmounts
  combined : MemoryAmounts
  admissionCapacity : MemoryAmounts
  withinAdmission : Bool

/-- `PhysicalEnvelope` -/
structure PhysicalEnvelope where
  workerId : String
  cycle : ℕ
  policy : Policy
  requestedMlxPolicy : Option MlxFitPolicy
  policyNotes : List String
  hostPeakBytes : Option ℕ
  devicePeakBytes : Option ℕ
  hostEnvelopeBytes : Option ℕ
  deviceEnvelopeBytes : Option ℕ
  hostBudget : PhysicalBudget
  deviceBudget : Option PhysicalBudget
  status : FitStatus
  reasons : List String

/-- Outcomes of a guard. -/
inductive Outcome
  | normal
  | stopped
  | unavailable
  deriving DecidableEq

/-- `GuardOutcome` -/
structure GuardOutcome where
  workerId : String
  processId : Option ℕ
  startedUnixTime : Option ℚ
  lastObservedUnixTime : Option ℚ
  exitedUnixTime : Option ℚ
  exitReason : Option String
  returncode : Option ℤ
  outcome : Outcome
  reasons : List String

/-- `CleanupEvidence` -/
structure CleanupEvidence where
  workerId : String
  verified : Bool
  detail : String

/-- Acceptance status. -/
inductive Status
  | accepted
  | failed
  | unknown
  deriving DecidableEq

/-- `Results` -/
structure Results where
  finishedAt : ℤ
  rounds : List Round
  comparisons : List TokenComparison
  overlap : List OverlapInterval
  logicalPeaks : WorkerPeak×WorkerPeak
  physical : List PhysicalEnvelope
  guards : GuardOutcome×GuardOutcome
  cleanup : CleanupEvidence×CleanupEvidence
  failureReason : Option String
  acceptance : Status
  acceptanceReasons : List String

/-- `ConcurrentServingEvidence` -/
structure ConcurrentServingEvidence where
  evidenceDigest : String
  identity : Identity
  workload : Workload
  configuration : Configuration
  preconditions : Preconditions
  observations : WorkerObservations×WorkerObservations
  results : Results

/-- `_allocated` -/
def allocated (s : WorkerSnapshot) (id : String) : Option RequestReservation :=
  s.requests.find? fun r => r.requestId=id && !r.allocating && 0 < r.cache.sum

/-- The events of all snapshots by sequence number. -/
def eventsOf (snapshots : List WorkerSnapshot) : List LifecycleEvent :=
  OrderedDict.ofList (·.sequence) (snapshots.flatMap (·.events))

/-- Admissions of a pair by request id. -/
def admissionsOf (events : List LifecycleEvent) (pair : String×String) : List LifecycleEvent :=
  OrderedDict.ofList (·.requestId)
    (events.filter fun e => e.kind=.admitted && decide (e.requestId∈both pair))

/-- A snapshot with allocated rows of both members. -/
def isJoint (pair : String×String) (s : WorkerSnapshot) : Bool :=
  s.requestObservationsAvailable && (both pair).all fun id => (allocated s id).isSome

/-- Where an interval starts, the admission that says so, and how. -/
structure Start where
  ns : ℕ
  admissionSequence : Option ℕ
  how : String

/-- The start of an overlap: the later admission, or the later admission time
in the first joint snapshot. -/
def overlapStart (events : List LifecycleEvent) (joint : List WorkerSnapshot)
    (pair : String×String) : Option Start :=
  let admissions := admissionsOf events pair
  if admissions.length=2 then
    (admissions.argmax (·.sequence)).map fun later =>
      ⟨later.atMonotonicNs,some later.sequence,
        if admissions.any fun e => (both pair).any fun o => decide (o∈e.concurrentRequestIds) then
          "later admission listed the earlier reservation as allocated"
        else "admissions listed no allocated peer (reserved together)"⟩
  else
    joint.head?.map fun first =>
      ⟨(((both pair).filterMap (allocated first)).map (·.admittedAtMonotonicNs)).foldr max 0,none,
        "admission events absent from the bounded log; start from snapshot rows"⟩

/-- Retirements of a pair after the start, in order. -/
def retirementsAfter (events : List LifecycleEvent) (pair : String×String) (start : Start) :
    List LifecycleEvent :=
  (events.filter fun e => e.kind=.retired && decide (e.requestId∈both pair) &&
    decide (start.ns ≤ e.atMonotonicNs) &&
    (start.admissionSequence.all fun sequence => sequence < e.sequence) &&
    e.reason≠"allocation-failed").insertionSort fun a b => a.sequence ≤ b.sequence

/-- A retirement that lists the other member of its pair. -/
def isWitness (pair : String×String) (e : LifecycleEvent) : Bool :=
  (both pair).any fun o => o≠e.requestId && decide (o∈e.concurrentRequestIds)

/-- The overlap of a pair on one worker, if it was shown. -/
def overlapOf (worker : WorkerObservations) (pair : String×String) : Option OverlapInterval :=
  let events := eventsOf worker.snapshots
  let joint := worker.snapshots.filter (isJoint pair)
  (overlapStart events joint pair).bind fun start =>
    let joint := joint.filter fun s => start.ns ≤ s.observedAtMonotonicNs.getD 0
    let retirements := retirementsAfter events pair start
    match retirements.filter (isWitness pair),joint with
    | witness::_,_ =>
      some ⟨worker.workerId,pair,start.ns,max witness.atMonotonicNs start.ns,
        start.admissionSequence,.retirementEvent,
        "event "++toString witness.sequence++": "++witness.requestId++" retired; "++start.how⟩
    | [],first::_ =>
      let last := match retirements with
        | retirement::_ => retirement.atMonotonicNs
        | [] => (joint.map fun s => s.observedAtMonotonicNs.getD 0).foldr max 0
      some ⟨worker.workerId,pair,start.ns,max last start.ns,start.admissionSequence,
        .jointSnapshot,"snapshot "++first.phase++"; "++start.how⟩
    | [],[] => none

/-- `derive_overlap` -/
def deriveOverlap (observations : WorkerObservations×WorkerObservations) (rounds : List Round) :
    List OverlapInterval :=
  rounds.flatMap fun round =>
    match round.requests.pair with
    | none => []
    | some pair => (both observations).filterMap fun worker => overlapOf worker pair

/-- The peak of one worker. -/
def logicalPeak (worker : WorkerObservations) (config : WorkerConfiguration) : WorkerPeak :=
  let weights := maxAmounts (worker.snapshots.map (·.loadedWeights))
  let cache := maxAmounts (worker.snapshots.map (·.reservedCache))
  let workspace := maxAmounts (worker.snapshots.map (·.reservedWorkspace))
  let combined := addAmounts weights (addAmounts cache workspace)
  ⟨worker.workerId,weights,cache,workspace,combined,config.admissionCapacity,
    fits combined config.admissionCapacity⟩

/-- `derive_logical_peaks` -/
def deriveLogicalPeaks (observations : WorkerObservations×WorkerObservations)
    (configuration : Configuration) : WorkerPeak×WorkerPeak :=
  (logicalPeak observations.1 configuration.workers.1,
    logicalPeak observations.2 configuration.workers.2)

/-- `_envelope`: the bytes needed, and the reasons against safety. -/
def envelope (numerics : Numerics) (peak : Option ℕ) (budget : Option PhysicalBudget)
    (name : String) : Option ℕ×List String×List String :=
  match peak,budget,budget.bind (·.availableBytes) with
  | some peak,some budget,some available =>
    let needed := peak+numerics.allowance peak budget.safetyFraction+budget.extraOverheadBytes
    (some needed,if available < needed+budget.headroomBytes then
      [name++": serving envelope plus headroom exceeds prelaunch availability"] else [],[])
  | _,_,_ => (none,[],[name++": physical peak/prelaunch availability unavailable"])

/-- The loop over footprints. It stops at the first incoherent row. -/
def footprints : List WorkerSnapshot → Option ℕ → ℕ → ℕ → Option (List ℕ)
  | [],_,_,_ => some []
  | s::rows,process,previousTime,previousPeak =>
    match s.processMemory with
    | none => none
    | some p =>
      match p.physicalFootprintBytes,p.physicalFootprintLifetimePeakBytes,
        p.rssLifetimePeakBytes with
      | some footprint,some peak,some rss =>
        if footprint=0 ∨ peak=0 ∨ rss=0 ∨ (process.any fun known => p.processId≠known) ∨
            p.observedAtUnixNs < previousTime ∨ peak < max previousPeak footprint then none
        else (footprints rows (some p.processId) p.observedAtUnixNs peak).map (peak::·)
      | _,_,_ => none

/-- Resident set sizes of the snapshots. -/
def rssOf (rows : List WorkerSnapshot) : List ℕ :=
  rows.flatMap fun s => (s.processMemory.map fun p =>
    p.rssBytes.toList++p.rssLifetimePeakBytes.toList).getD []

/-- Allocator residencies of the snapshots. -/
def allocatorOf (rows : List WorkerSnapshot) : List ℕ :=
  rows.filterMap fun s => s.allocator.map fun a => max a.peakBytes (a.activeBytes+a.cachedBytes)

/-- The policy, its notes, the host peak and the reasons of an MLX worker. -/
def mlxPeak (mlxPolicy : MlxFitPolicy) (rows : List WorkerSnapshot) :
    Policy×List String×Option ℕ×List String :=
  let unknown := if rows.any fun s => s.allocator.isNone then
    ["host/unified: allocator observations unavailable in some snapshots"] else []
  let hostPeak := (rssOf rows).max?.map fun peak => peak+(allocatorOf rows).max?.getD 0
  match mlxPolicy,footprints rows none 0 0 with
  | .conservative,_ => (.mlxRssPlusAllocator,[],hostPeak,unknown)
  | .footprint,some (first::rest) =>
    if allocatorOf rows≠[] then
      (.mlxFootprintMax,[],(first::rest++rssOf rows++allocatorOf rows).max?,unknown)
    else (.mlxRssPlusAllocator,["footprint policy requires coherent footprint, RSS and "++
      "allocator telemetry in every serving snapshot; using conservative-v1"],hostPeak,unknown)
  | .footprint,_ => (.mlxRssPlusAllocator,["footprint policy requires coherent footprint, RSS and "++
      "allocator telemetry in every serving snapshot; using conservative-v1"],hostPeak,unknown)

/-- The device peak and the reasons of a CUDA worker. -/
def cudaPeak (deviceProcessPeak : Option ℕ) (rows : List WorkerSnapshot) : Option ℕ×List String :=
  match deviceProcessPeak,allocatorOf rows with
  | none,_ => (none,["device: CUDA physical process observations unavailable"])
  | some _,[] => (none,["device: allocator observations unavailable"])
  | some peak,first::rest => ((peak::first::rest).max?,[])

/-- `assess_serving_envelope` -/
def assessServingEnvelope (numerics : Numerics) (workerId : String) (backend : Backend)
    (rows : List WorkerSnapshot) (cycle : ℕ) (host : PhysicalBudget)
    (device : Option PhysicalBudget) (mlxPolicy : MlxFitPolicy) (deviceProcessPeak : Option ℕ) :
    PhysicalEnvelope :=
  let missing := (if rows=[] then ["no serving snapshots recorded for this cycle"] else [])++
    (if rows.any fun s => (s.processMemory.bind (·.rssBytes)).isNone then
      ["host: process RSS unavailable in some serving snapshots"] else [])
  let (policy,notes,hostPeak,mlxUnknown) := match backend with
    | .cpu => (Policy.cpuRss,[],(rssOf rows).max?,[])
    | .mlx => mlxPeak mlxPolicy rows
    | .cuda => (Policy.cudaRssDevice,[],(rssOf rows).max?,[])
  let (devicePeak,cudaUnknown) := match backend with
    | .cuda => cudaPeak deviceProcessPeak rows
    | _ => (none,[])
  let (hostEnvelope,hostExceeded,hostUnknown) := envelope numerics hostPeak (some host) "host/unified"
  let (deviceEnvelope,deviceExceeded,deviceUnknown) := match backend with
    | .cuda => envelope numerics devicePeak device "device"
    | _ => (none,[],[])
  let exceeded := hostExceeded++deviceExceeded
  let unknown := missing++mlxUnknown++cudaUnknown++hostUnknown++deviceUnknown
  ⟨workerId,cycle,policy,if backend=.mlx then some mlxPolicy else none,notes,hostPeak,devicePeak,
    hostEnvelope,deviceEnvelope,host,if backend=.cuda then device else none,
    if exceeded≠[] then .exceeded else if unknown≠[] then .unknown else .safe,
    (exceeded++unknown).eraseDups⟩

/-- Gates of a worker in the order of their cycles. -/
def gatesOf (preconditions : Preconditions) (workerId : String) : List CycleGate :=
  (preconditions.gates.filter fun g => g.workerId=workerId).insertionSort
    fun a b => a.cycle ≤ b.cycle

/-- Envelopes of the gated cycles of one worker. The device samples of a
cycle lie between its gate and the next one, or the end. -/
def physicalOf (numerics : Numerics) (configuration : Configuration) (finishedAt : ℤ)
    (worker : WorkerIdentity) (observed : WorkerObservations) : List CycleGate →
    List PhysicalEnvelope
  | [] => []
  | gate::gates =>
    let windowEnd := match gates with
      | next::_ => next.sampledAt
      | [] => finishedAt
    let samples := observed.deviceSamples.filterMap fun d =>
      if numerics.timestamp gate.sampledAt ≤ d.unixTime ∧
        d.unixTime ≤ numerics.timestamp windowEnd then d.cudaProcessBytes else none
    assessServingEnvelope numerics worker.workerId worker.backend
      (observed.snapshots.filter fun s => s.cycle=some gate.cycle) gate.cycle gate.hostBudget
      gate.deviceBudget configuration.mlxFitPolicy samples.max?::
    physicalOf numerics configuration finishedAt worker observed gates

/-- `derive_physical` -/
def derivePhysical (numerics : Numerics) (identity : Identity) (configuration : Configuration)
    (preconditions : Preconditions) (observations : WorkerObservations×WorkerObservations)
    (finishedAt : ℤ) : List PhysicalEnvelope :=
  (zipped identity.workers observations).flatMap fun (worker,observed) =>
    physicalOf numerics configuration finishedAt worker observed
      (gatesOf preconditions worker.workerId)

/-- An optional number as text. -/
def orNone {α : Type*} [ToString α] : Option α → String
  | some value => toString value
  | none => "None"

/-- A text that says something. -/
def told (text : Option String) : Bool := text.any fun text => text≠""

/-- Seconds a guard record may lag. -/
def guardStalenessSeconds : ℚ := 20

/-- `classify_guard` -/
def classifyGuard (numerics : Numerics) (guard : GuardOutcome) (workerProcessId : ℕ)
    (startedAt finishedAt : ℤ) : Outcome×List String :=
  match guard.startedUnixTime with
  | none => (.unavailable,["no guard start event"])
  | some started =>
    let finished := numerics.timestamp finishedAt
    let stopped :=
      (if told guard.exitReason then
        ["guard stopped the worker: "++guard.exitReason.getD ""] else [])++
      match guard.exitedUnixTime with
      | none => []
      | some exited =>
        (if exited < finished then ["guarded worker exited before the experiment finished"]
        else [])++
        match guard.returncode with
        | none => []
        | some code =>
          if code=0 then [] else ["guarded worker exited with status "++toString code]
    let unavailable :=
      (if guard.processId=some workerProcessId then [] else
        ["guard watched process "++orNone guard.processId++", not worker process "++
          toString workerProcessId])++
      (if numerics.timestamp startedAt < started then ["guard started after the experiment began"]
      else [])++
      match guard.lastObservedUnixTime with
      | none => ["guard recorded no observations"]
      | some last =>
        if last < numerics.minus finished guardStalenessSeconds then
          ["guard observations end "++numerics.wholeSeconds (numerics.minus finished last)++
            " s before the experiment finished"]
        else []
    if stopped≠[] then (.stopped,stopped++unavailable)
    else if unavailable≠[] then (.unavailable,unavailable)
    else (.normal,[])

/-- What an assessment found against a record. -/
inductive Finding
  | failed (reason : String)
  | unknown (reason : String)

/-- A finding if the condition holds. -/
def failedIf (condition : Prop) [Decidable condition] (reason : String) : List Finding :=
  if condition then [.failed reason] else []

/-- A finding if the condition holds. -/
def unknownIf (condition : Prop) [Decidable condition] (reason : String) : List Finding :=
  if condition then [.unknown reason] else []

/-- Longest age of a profile in microseconds. -/
def profileFreshness : ℤ := 24*3600*1000000

/-- Findings about the baseline report and the profiles. -/
def preconditionFindings (e : ConcurrentServingEvidence) : List Finding :=
  let baseline := e.preconditions.baseline
  let scope := if e.workload.executionDtype=.f32 then BaselineScope.cpuRehearsal
    else .f16ReloadQualification
  failedIf (baseline.completed=false ∨ baseline.allExact=false)
    "baseline single-request report was incomplete or inexact"++
  failedIf (baseline.scope≠scope)
    ("baseline scope '"++baseline.scope.text++"' does not match the workload precision")++
  failedIf (baseline.planDigest≠e.identity.planDigest)
    "baseline report was produced for a different plan"++
  failedIf (baseline.referenceSha256≠e.identity.referenceSha256)
    "baseline report was produced against a different reference"++
  failedIf (baseline.workerBinaryDigests≠
      (both e.identity.workers).map fun w => (w.workerId,w.workerBinaryDigest))
    "baseline report was produced on different worker binaries"++
  (both e.preconditions.profiles).flatMap fun p =>
    let age := e.preconditions.startedAt-p.measuredAt
    failedIf (¬(0 ≤ age ∧ age ≤ profileFreshness))
      (p.workerId++": single-request profile stale or future-dated")

/-- Whether a worker has a gate for a cycle. -/
def gated (e : ConcurrentServingEvidence) (workerId : String) (cycle : ℕ) : Bool :=
  e.preconditions.gates.any fun g => g.workerId=workerId && g.cycle=cycle

/-- Distinct cycles of the snapshots in order. -/
def cyclesOf (snapshots : List WorkerSnapshot) : List ℕ :=
  (snapshots.filterMap (·.cycle)).dedup.insertionSort (· ≤ ·)

/-- Findings about one worker's observations. -/
def workerFindings (e : ConcurrentServingEvidence) (w : WorkerObservations)
    (identity : WorkerIdentity) : List Finding :=
  unknownIf (w.snapshots=[]) (w.workerId++": no snapshots recorded")++
  unknownIf (gated e w.workerId 0=false)
    (w.workerId++": no fit gate recorded before the first cycle")++
  ((cyclesOf w.snapshots).flatMap fun cycle => unknownIf (gated e w.workerId cycle=false)
    (w.workerId++": cycle "++toString cycle++" has snapshots but no fit gate"))++
  failedIf (∃ s∈w.snapshots,(∃ p∈s.processId,p≠identity.processId) ∨
      ∃ m∈s.processMemory,m.processId≠identity.processId)
    (w.workerId++": worker process differs from the initial identity")++
  failedIf (∃ d∈w.deviceSamples,d.processId≠identity.processId)
    (w.workerId++": device observations belong to another process")++
  unknownIf (∃ s∈w.snapshots,s.requestObservationsAvailable=false)
    (w.workerId++": request observations missing from some snapshots")++
  failedIf (¬((w.snapshots.filterMap fun s =>
      s.observedAtMonotonicNs.filter (· ≠ 0)).IsChain (· ≤ ·)))
    (w.workerId++": steady clock went backwards between snapshots")

/-- The comparison of a request. Of several the last one counts. -/
def comparisonOf (e : ConcurrentServingEvidence) (id : String) : Option TokenComparison :=
  e.results.comparisons.reverse.find? fun c => c.requestId=id

/-- Findings about the comparison at one position of a round. -/
def comparisonFindings (sealedIds : List ℕ) (c : TokenComparison) : List Finding :=
  failedIf (told c.error=true) (c.requestId++": stream error: "++c.error.getD "")++
  failedIf (c.exact=false) (c.requestId++": continuation differs from the reference")++
  if c.role=.cancelVictim then
    failedIf (c.expectedIds.length < requiredCancelPrefix)
      (c.requestId++": cancelled before "++toString requiredCancelPrefix++" tokens")++
    failedIf (sealedIds.length ≤ c.expectedIds.length ∨
        sealedIds.take c.expectedIds.length≠c.expectedIds)
      (c.requestId++": expected tokens are not a proper prefix of the sealed reference")
  else failedIf (c.expectedIds≠sealedIds)
    (c.requestId++": expected tokens differ from the sealed reference")

/-- Findings about the overlap of a pair. -/
def overlapFindings (e : ConcurrentServingEvidence) (pair : String×String) : List Finding :=
  (both e.identity.workerOrder).flatMap fun w =>
    unknownIf ((w,pair)∉e.results.overlap.map fun o => (o.workerId,o.requestIds))
      (w++": overlap of "++pair.1++" and "++pair.2++" not observed")

/-- Retirements of a request for a reason. -/
def retiredAs (events : List LifecycleEvent) (id reason : String) : List LifecycleEvent :=
  events.filter fun ev => ev.kind=.retired && ev.requestId=id && ev.reason=reason

/-- Reasons for which a request retired, in order. -/
def reasonsOf (events : List LifecycleEvent) (id : String) : List String :=
  ((events.filter fun ev => ev.kind=.retired && ev.requestId=id).map (·.reason)).dedup.insertionSort
    (· ≤ ·)

/-- Findings about a cancellation on one worker. -/
def cancelFindings (victim survivor : String) (w : WorkerObservations) : List Finding :=
  let events := eventsOf w.snapshots
  let cancelled := retiredAs events victim "cancelled"
  let independent := cancelled.filter fun ev => survivor∈ev.concurrentRequestIds
  let completed := (retiredAs events survivor "completed").filter fun ev =>
    cancelled.any fun c => c.sequence < ev.sequence
  let other := reasonsOf events victim
  (if cancelled=[] then
    [Finding.unknown (w.workerId++": no cancelled retirement of "++victim++" observed"++
      if other=[] then "" else " (it retired as "++", ".intercalate other++")")]
  else unknownIf (independent=[]) (w.workerId++": independent retirement of "++victim++" while "++
    survivor++" held its reservation was not observed"))++
  unknownIf (completed=[]) (w.workerId++": completed retirement of "++survivor++
    " after the cancellation was not observed")

/-- The sealed references by position. -/
def sealedIds (e : ConcurrentServingEvidence) : List (List ℕ) :=
  (both e.workload.requests).map (·.expectedIds)

/-- Findings about one round. -/
def roundFindings (e : ConcurrentServingEvidence) (round : Round) : List Finding :=
  let name := "round "++toString round.cycle++"/"++toString round.index
  match round.requests.ids.mapM (comparisonOf e) with
  | none => [.failed (name++": missing token comparison")]
  | some comparisons =>
    failedIf (comparisons.map (·.role)≠round.requests.expectedRoles)
      (name++": comparison roles mismatch")++
    ((sealedIds e).zip comparisons).flatMap (fun (ids,c) => comparisonFindings ids c)++
    (match round.requests.pair with
    | none => []
    | some pair => overlapFindings e pair)++
    match round.requests with
    | .cancel victim survivor => (both e.observations).flatMap (cancelFindings victim survivor)
    | _ => []

/-- Findings about gates, worker configurations and the workers themselves. -/
def servingFindings (e : ConcurrentServingEvidence) : List Finding :=
  (e.preconditions.gates.flatMap fun g => failedIf (g.status≠.safe)
    (g.workerId++": fit gate before cycle "++toString g.cycle++" was "++g.status.text))++
  ((both e.configuration.workers).flatMap fun c => unknownIf (c.requestObservations=false)
    (c.workerId++": worker did not advertise request observations"))++
  (zipped e.observations e.identity.workers).flatMap fun (w,identity) =>
    workerFindings e w identity

/-- Whether a round is of the paired kind. -/
def RoundRequests.isPaired : RoundRequests → Bool
  | .paired _ _ => true
  | _ => false

/-- Whether a round is of the cancel kind. -/
def RoundRequests.isCancel : RoundRequests → Bool
  | .cancel _ _ => true
  | _ => false

/-- Findings about the rounds and their comparisons. -/
def roundsFindings (e : ConcurrentServingEvidence) : List Finding :=
  failedIf (¬(e.results.comparisons.map (·.requestId)).Nodup)
    "duplicate request IDs in token comparisons"++
  e.results.rounds.flatMap (roundFindings e)++
  unknownIf (∀ round∈e.results.rounds,round.requests.isPaired=false) "no paired round recorded"++
  unknownIf (∀ round∈e.results.rounds,round.requests.isCancel=false)
    "no cancellation round recorded"

/-- Findings about derived results. -/
def resultFindings (e : ConcurrentServingEvidence) : List Finding :=
  ((both e.results.logicalPeaks).flatMap fun p => failedIf (p.withinAdmission=false)
    (p.workerId++": combined logical reservation exceeds the admission cap"))++
  (e.results.physical.flatMap fun p => match p.status with
    | .exceeded => [.failed (p.workerId++" cycle "++toString p.cycle++": "++
        "; ".intercalate p.reasons)]
    | .unknown => [.unknown (p.workerId++" cycle "++toString p.cycle++": "++
        "; ".intercalate p.reasons)]
    | .safe => [])++
  ((both e.results.guards).flatMap fun g => match g.outcome with
    | .stopped => [.failed (g.workerId++": resource guard: "++"; ".intercalate g.reasons)]
    | .unavailable => [.unknown (g.workerId++": guard outcome unavailable: "++
        "; ".intercalate g.reasons)]
    | .normal => [])++
  (both e.results.cleanup).flatMap fun c => failedIf (c.verified=false)
    (c.workerId++": cleanup not verified: "++c.detail)

/-- All findings in the order of the assessment. -/
def findings (e : ConcurrentServingEvidence) : List Finding :=
  failedIf (told e.results.failureReason=true)
    ("run failed: "++e.results.failureReason.getD "")++
  preconditionFindings e++servingFindings e++roundsFindings e++resultFindings e

/-- `assess_evidence`: failed beats unknown. -/
def assessEvidence (e : ConcurrentServingEvidence) : Status×List String :=
  let failed := (findings e).filterMap fun
    | .failed reason => some reason
    | .unknown _ => none
  let unknown := (findings e).filterMap fun
    | .unknown reason => some reason
    | .failed _ => none
  (if failed≠[] then .failed else if unknown≠[] then .unknown else .accepted,
    (failed++unknown).eraseDups)

/-- Hash functions over canonical JSON. -/
structure Hashes where
  /-- Digest of a list of token ids. -/
  ids : List ℕ → String
  /-- Digest of a record without its own digest. -/
  record : ConcurrentServingEvidence → String
  /-- The digest of a record is no part of its content. -/
  ownDigest : ∀ e digest,record {e with evidenceDigest := digest}=record e

/-- The ids of a pair of parts. -/
def idPair {α : Type*} (workerId : α → String) (pair : α×α) : String×String :=
  (workerId pair.1,workerId pair.2)

/-- A budget with the allowances of the configuration. -/
def PhysicalBudget.matches (budget : PhysicalBudget) (configuration : Configuration)
    (headroom : ℕ) : Prop :=
  budget.headroomBytes=headroom ∧ budget.extraOverheadBytes=configuration.extraOverheadBytes ∧
    budget.safetyFraction=configuration.safetyFraction

/-- A guard whose outcome is the derived one. -/
def Classified (numerics : Numerics) (e : ConcurrentServingEvidence) (guard : GuardOutcome)
    (worker : WorkerIdentity) : Prop :=
  (guard.outcome,guard.reasons)=classifyGuard numerics guard worker.processId
    e.preconditions.startedAt e.results.finishedAt

/-- A record that validates. -/
structure Validates (hashes : Hashes) (numerics : Numerics) (e : ConcurrentServingEvidence) :
    Prop where
  /-- The workload has the digests of its tokens. -/
  hashed : ∀ request∈both e.workload.requests,
    request.promptDigest=hashes.ids request.promptIds ∧
      request.expectedDigest=hashes.ids request.expectedIds
  /-- Every part lists the workers in stage order. -/
  configured : idPair (·.workerId) e.configuration.workers=e.identity.workerOrder
  profiled : idPair (·.workerId) e.preconditions.profiles=e.identity.workerOrder
  observed : idPair (·.workerId) e.observations=e.identity.workerOrder
  peaked : idPair (·.workerId) e.results.logicalPeaks=e.identity.workerOrder
  guarded : idPair (·.workerId) e.results.guards=e.identity.workerOrder
  cleaned : idPair (·.workerId) e.results.cleanup=e.identity.workerOrder
  /-- Gates name the workers of the record. -/
  gates : ∀ g∈e.preconditions.gates,g.workerId∈both e.identity.workerOrder
  /-- Gates used the recorded allowances. -/
  allowances : ∀ g∈e.preconditions.gates,
    g.hostBudget.matches e.configuration e.configuration.hostHeadroomBytes ∧
      ∀ budget∈g.deviceBudget,budget.matches e.configuration e.configuration.deviceHeadroomBytes
  /-- The digest is that of the content. -/
  digest : e.evidenceDigest=hashes.record e
  /-- Recorded results are the derived ones. -/
  overlap : e.results.overlap=deriveOverlap e.observations e.results.rounds
  peaks : e.results.logicalPeaks=deriveLogicalPeaks e.observations e.configuration
  physical : e.results.physical=derivePhysical numerics e.identity e.configuration e.preconditions
    e.observations e.results.finishedAt
  outcomes : Classified numerics e e.results.guards.1 e.identity.workers.1 ∧
    Classified numerics e e.results.guards.2 e.identity.workers.2
  assessed : (e.results.acceptance,e.results.acceptanceReasons)=assessEvidence e

/-- A record of an experiment before anything is derived. -/
structure Draft where
  identity : Identity
  workload : Workload
  configuration : Configuration
  preconditions : Preconditions
  observations : WorkerObservations×WorkerObservations
  rounds : List Round
  comparisons : List TokenComparison
  guards : GuardOutcome×GuardOutcome
  cleanup : CleanupEvidence×CleanupEvidence
  finishedAt : ℤ
  failureReason : Option String

/-- A guard with its derived outcome. -/
def classified (numerics : Numerics) (d : Draft) (guard : GuardOutcome) (worker : WorkerIdentity) :
    GuardOutcome :=
  let (outcome,reasons) := classifyGuard numerics guard worker.processId d.preconditions.startedAt
    d.finishedAt
  {guard with outcome := outcome, reasons := reasons}

/-- The derived results of a draft, before its assessment. -/
def draftResults (numerics : Numerics) (d : Draft) : Results where
  finishedAt := d.finishedAt
  rounds := d.rounds
  comparisons := d.comparisons
  overlap := deriveOverlap d.observations d.rounds
  logicalPeaks := deriveLogicalPeaks d.observations d.configuration
  physical := derivePhysical numerics d.identity d.configuration d.preconditions d.observations
    d.finishedAt
  guards := (classified numerics d d.guards.1 d.identity.workers.1,
    classified numerics d d.guards.2 d.identity.workers.2)
  cleanup := d.cleanup
  failureReason := d.failureReason
  acceptance := .unknown
  acceptanceReasons := []

/-- `make_evidence`, up to the validation of its result. -/
def makeEvidence (hashes : Hashes) (numerics : Numerics) (d : Draft) : ConcurrentServingEvidence :=
  let provisional : ConcurrentServingEvidence := ⟨"",d.identity,d.workload,d.configuration,
    d.preconditions,d.observations,draftResults numerics d⟩
  let (status,reasons) := assessEvidence provisional
  let assessed := {provisional with results :=
    {provisional.results with acceptance := status, acceptanceReasons := reasons}}
  {assessed with evidenceDigest := hashes.record assessed}

end Hllm.QualificationModel
