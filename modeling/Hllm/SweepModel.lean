import Hllm.FitAssessment
import Hllm.PlannerRanking
import Mathlib.Data.List.MinMax
import Mathlib.Data.Prod.Lex
import Mathlib.Data.String.Basic

/-!
# Sweeps

A frozen sweep measures every placement of two workers in rounds and compares
the selected one with the best. This is the protocol: the scheduled jobs, what a
result must show, the summary of results, and running jobs with their results
kept in a directory. Floats are exact rationals, dictionaries are kept in key
order. Random numbers are parameters, and so is hashing. Of the sweep validator
the comparisons of hashes and the vocabulary check are left out, of a summary
the fixed notes.
-/

namespace Hllm.SweepModel

open FitAssessment (MemoryAmounts MlxFitPolicy PhysicalBudget ProfileArtifact assessFit)
open PlannerModels (Backend DeploymentPlan DType ModelConfig ModelManifest Raised WorkloadProfile)
open PlannerPlacement (check padded placementPlan)
open WireMessages (StageAssignment)

deriving instance DecidableEq for DeploymentPlan

/-- `Reference` -/
structure Reference where
  manifestDigest : String
  checkpointDigest : String
  producer : String
  producerArtifactDigest : String
  promptIds : List ℤ
  generatedIds : List ℤ
  deriving DecidableEq

/-- `PerformanceEstimate` -/
structure PerformanceEstimate where
  boundaryPrefillMs : ℚ
  boundaryDecodeMs : ℚ
  confidence : String
  ttftMs : Option ℚ
  decodeMs : List ℚ
  generationMs : Option ℚ
  componentsMs : List (String×ℚ)
  profileDigests : List String
  hostEnvelopeBytes : List (String×ℤ)
  deviceEnvelopeBytes : List (String×ℤ)
  deriving DecidableEq

/-- `SweepContent` -/
structure SweepContent where
  manifest : ModelManifest
  workload : WorkloadProfile
  reference : Reference
  selectedPlan : DeploymentPlan
  planningReportDigest : String
  profileBundleDigest : String
  executorDigest : String
  predictions : List (String×PerformanceEstimate)
  mlxFitPolicies : List (String×MlxFitPolicy)
  concurrentLoad : String
  seed : ℤ
  warmups : ℕ
  repetitions : ℕ
  maximumRepetitions : ℕ
  regretLimit : ℚ
  driftLimit : ℚ
  warmups_ge : 2 ≤ warmups
  repetitions_ge : 5 ≤ repetitions
  maximumRepetitions_le : maximumRepetitions ≤ 100
  regretLimit_range : 0 < regretLimit ∧ regretLimit < 1
  driftLimit_range : 0 < driftLimit ∧ driftLimit < 1
  /-- Selection, reference and bundle are about one manifest. -/
  scope : selectedPlan.manifestDigest=manifest.manifestDigest ∧
    reference.manifestDigest=selectedPlan.manifestDigest ∧
    selectedPlan.planningMode=.measured ∧
    selectedPlan.profileBundleDigest=some profileBundleDigest ∧
    selectedPlan.executionDtype=workload.kvDtype ∧ selectedPlan.stages.length=2
  /-- The reference is of the workload. -/
  referenced : reference.promptIds.length=workload.promptTokens ∧
    reference.generatedIds.length=workload.outputTokens
  /-- One request with exactly its cache. -/
  single : workload.concurrency=1 ∧
    (workload.totalCachedTokens : ℕ)=workload.promptTokens+workload.outputTokens
  repetitions_le : repetitions ≤ maximumRepetitions
  deriving DecidableEq

/-- `SweepSpec` -/
structure SweepSpec extends SweepContent where
  sweepDigest : String
  deriving DecidableEq

/-- Seeded random numbers. -/
structure Randomness where
  /-- `random.Random(seed).shuffle` -/
  shuffle : ℤ → List DeploymentPlan → List DeploymentPlan
  /-- Shuffling permutes. -/
  shuffle_perm : ∀ seed plans,(shuffle seed plans).Perm plans
  /-- `rng.choices` of one candidate's rows in one bootstrap round, with the seed
  and all measured rows. -/
  choices : ℤ → List (String×List ℚ) → ℕ → String → List ℚ

/-- `names` of a sweep, in both orders. -/
def orders (spec : SweepSpec) : List (String×String) :=
  match spec.selectedPlan.stages with
  | [a,b] => [(a.workerId,b.workerId),(b.workerId,a.workerId)]
  | _ => []

section Schedule

variable (planHash : DeploymentPlan → String)

/-- The plan of a placement. -/
def placement (spec : SweepSpec) (first final : String) (split : ℕ) : DeploymentPlan :=
  placementPlan planHash spec.manifest spec.workload spec.selectedPlan first final split

/-- `placements` -/
def placements (spec : SweepSpec) : List DeploymentPlan :=
  (orders spec).flatMap fun names =>
    (List.range' 1 (spec.manifest.config.numLayers-1)).map (placement planHash spec names.1 names.2)

/-- Start of the ids of the jobs of a round. -/
def roundPrefix (round : ℕ) : String := "r"++padded round

/-- Id of the first job of a round. -/
def referenceBefore (round : ℕ) : String := roundPrefix round++"-reference-before"

/-- Id of the last job of a round. -/
def referenceAfter (round : ℕ) : String := roundPrefix round++"-reference-after"

/-- Id of the job of a candidate in a round. -/
def candidateJob (round i : ℕ) : String := roundPrefix round++"-c"++padded i

variable (random : Randomness)

/-- Jobs of the shuffled candidates. -/
def candidateJobs (spec : SweepSpec) (round : ℕ) : List (String×DeploymentPlan) :=
  (random.shuffle (spec.seed+round) (placements planHash spec)).mapIdx fun i plan =>
    (candidateJob round i,plan)

/-- `schedule` -/
def schedule (spec : SweepSpec) (round : ℕ) : Except Raised (List (String×DeploymentPlan)) :=
  match (random.shuffle (spec.seed+round) (placements planHash spec)).find? fun p =>
      decide (p.selectedCandidateId=spec.selectedPlan.selectedCandidateId) with
  | none => .error (.evaluation "StopIteration")
  | some selected => .ok ([(referenceBefore round,selected)]++
      candidateJobs planHash random spec round++[(referenceAfter round,selected)])

end Schedule

/-- `Sample` -/
structure Sample where
  tokenIds : List ℤ
  clientArrivalsMs : List ℚ
  nativeArrivalsMs : List ℚ
  terminalMs : ℚ
  nativeRequestSetupMs : Option ℚ
  nonneg : ∀ t∈clientArrivalsMs++nativeArrivalsMs++terminalMs::nativeRequestSetupMs.toList,0 ≤ t
  tokens : tokenIds≠[] ∧ tokenIds.length=clientArrivalsMs.length
  native : nativeArrivalsMs≠[] → nativeArrivalsMs.length=tokenIds.length
  ordered : clientArrivalsMs.IsChain (· ≤ ·) ∧ nativeArrivalsMs.IsChain (· ≤ ·)
  terminal : ∀ t∈clientArrivalsMs.getLast?,t ≤ terminalMs

/-- `client_arrivals_ms[-1]` -/
def Sample.generationMs (sample : Sample) : ℚ := sample.clientArrivalsMs.getLastD 0

/-- `client_arrivals_ms[0]` -/
def Sample.ttftMs (sample : Sample) : ℚ := sample.clientArrivalsMs.headD 0

/-- `MemoryExclusion` -/
structure MemoryExclusion where
  profile : ProfileArtifact
  capacity : MemoryAmounts
  host : PhysicalBudget
  device : Option PhysicalBudget
  mlxFitPolicy : MlxFitPolicy
  policy_applies : mlxFitPolicy≠.conservative → profile.key.backend=.mlx

/-- `status` of a result. -/
inductive JobStatus
  | measured
  | memoryExcluded
  | unknown
  | oom
  | correctnessFailed
  deriving DecidableEq

/-- `JobResult` -/
structure JobResult where
  sweepDigest : String
  jobId : String
  candidateId : String
  status : JobStatus
  warmups : List Sample
  sample : Option Sample
  evidenceDigest : String
  memoryExclusion : Option MemoryExclusion
  hostEnvelopeBytes : List (String×ℤ)
  deviceEnvelopeBytes : List (String×ℤ)
  cleanupPassed : Bool
  selectedHealthPassed : Option Bool
  detail : String

/-- The checks of a memory exclusion. -/
def checkExclusion (spec : SweepSpec) (exclusion : Option MemoryExclusion)
    (plan : DeploymentPlan) : Except Raised Unit :=
  match exclusion with
  | none => .error (.value
      "memory exclusion requires complete independent native memory evidence")
  | some e => do
    check ((match e.profile.measurement with
      | .memory m => m.completed
      | .other _ => false)=true)
      "memory exclusion requires complete independent native memory evidence"
    check (e.profile.key.weightDtype=plan.weightDtype ∧
        e.profile.key.executionDtype=plan.executionDtype ∧
        e.profile.key.assignment∈plan.stages ∧ e.profile.key.workload=spec.workload ∧
        e.profile.key.checkpointDigest=spec.reference.checkpointDigest ∧
        e.profile.key.manifestDigest=spec.manifest.manifestDigest ∧
        e.profile.conditions.processPolicy=.freshProcessThenReloads ∧
        e.profile.conditions.concurrentLoad=spec.concurrentLoad)
      "unsupported independent memory exclusion"
    let fit ← assessFit e.profile e.capacity e.host e.device e.mlxFitPolicy
    check (fit.status=.exceeds) "unsupported independent memory exclusion"

/-- The checks of a measurement. -/
def checkMeasured (spec : SweepSpec) (result : JobResult) : Except Raised Unit :=
  match result.sample with
  | none => .error (.value "measured result lacks successful warmups, timing or cleanup")
  | some sample => do
    check (result.cleanupPassed=true ∧ result.warmups.length=spec.warmups)
      "measured result lacks successful warmups, timing or cleanup"
    check (∀ s∈result.warmups++[sample],s.tokenIds=spec.reference.generatedIds)
      "divergent output cannot be a measured feasible result"

/-- `validate_result` -/
def validateResult (spec : SweepSpec) (result : JobResult) (job : String)
    (plan : DeploymentPlan) : Except Raised Unit := do
  check (result.sweepDigest=spec.sweepDigest ∧ result.jobId=job ∧
    result.candidateId=plan.selectedCandidateId)
    "result belongs to another job/sweep/placement"
  match result.status with
  | .memoryExcluded => checkExclusion spec result.memoryExclusion plan
  | .measured => checkMeasured spec result
  | _ => .ok ()

/-- `median` of a nonempty list. -/
def median (values : List ℚ) : ℚ :=
  let sorted := values.insertionSort (· ≤ ·)
  let n := sorted.length
  if n%2=1 then sorted.getD (n/2) 0
  else (sorted.getD (n/2-1) 0+sorted.getD (n/2) 0)/2

/-- `_interval` of a nonempty list. -/
def interval (values : List ℚ) : ℚ×ℚ :=
  let sorted := values.insertionSort (· ≤ ·)
  let n := sorted.length
  (sorted.getD (n/40) 0,sorted.getD (min (n-1) (39*n/40)) 0)

/-- Gaps between neighbours. -/
def gaps (values : List ℚ) : List ℚ := (values.zip values.tail).map fun pair => pair.2-pair.1

/-- Some text occurs in another. -/
def occursIn (pattern text : String) : Bool :=
  text.toList.tails.any pattern.toList.isPrefixOf

/-- The job is a reference run. -/
def isReference (job : String) : Bool := occursIn "reference" job

/-- `round_index` of a job id. -/
def roundOf (job : String) : Except Raised ℕ := do
  let start := job.toList.takeWhile (· != '-')
  check (start.length=4 ∧ start.head?=some 'r' ∧ start.tail.all (·.isDigit)=true)
    "result is not a scheduled sweep job"
  pure (Nat.ofDigitChars 10 start.tail 0)

/-- Decisions of a summary. -/
inductive Decision
  | incomplete
  | unstable
  | inconclusive
  | pass
  | fail
  deriving DecidableEq

/-- `difference` -/
structure Difference where
  predicted : ℚ
  observed : ℚ
  relativeError : Option ℚ

/-- `difference` -/
def difference (predicted actual : ℚ) : Difference :=
  ⟨predicted,actual,if 0 < actual then some (predicted/actual-1) else none⟩

/-- Errors of one prediction. -/
structure PredictionError where
  ttftMs : Difference
  meanItlMs : Difference
  generationMs : Difference
  hostEnvelopeBytes : List (String×Difference)
  deviceEnvelopeBytes : List (String×Difference)

/-- Errors of predicted envelopes that some result observed. -/
def envelopeErrors (predicted : List (String×ℤ)) (observed : List (List (String×ℤ))) :
    List (String×Difference) :=
  predicted.filterMap fun entry =>
    let values : List ℚ := (observed.filterMap (·.lookup entry.1)).map fun v : ℤ => (v : ℚ)
    if values=[] then none else some (entry.1,difference entry.2 (median values))

/-- `prediction_error`; without a result the prediction is unavailable. -/
def predictionError (prediction : Option PerformanceEstimate) (samples : List Sample)
    (results : List JobResult) : Option PredictionError := do
  let prediction ← prediction
  let ttft ← prediction.ttftMs
  let generation ← prediction.generationMs
  let first ← samples.head?
  let observedItl := if 1 < first.tokenIds.length then
      median ((samples.filter fun s => decide (1 < s.tokenIds.length)).map fun s =>
        (s.generationMs-s.ttftMs)/(s.tokenIds.length-1))
    else 0
  pure {
    ttftMs := difference ttft (median (samples.map (·.ttftMs)))
    meanItlMs := difference
      (if prediction.decodeMs=[] then 0
        else prediction.decodeMs.sum/prediction.decodeMs.length) observedItl
    generationMs := difference generation (median (samples.map (·.generationMs)))
    hostEnvelopeBytes := envelopeErrors prediction.hostEnvelopeBytes
      (results.map (·.hostEnvelopeBytes))
    deviceEnvelopeBytes := envelopeErrors prediction.deviceEnvelopeBytes
      (results.map (·.deviceEnvelopeBytes))}

/-- `statistics` of one candidate. -/
structure Statistics where
  count : ℕ
  medianGenerationMs : ℚ
  medianTtftMs : ℚ
  medianItlMs : ℚ
  statuses : List JobStatus

/-- A summary. -/
structure Summary where
  sweepDigest : String
  candidateCount : ℕ
  completeCoverage : Bool
  selectedHealthPassed : Bool
  decision : Decision
  selectedCandidateId : String
  bestCandidateId : Option String
  observedRegret : Option ℚ
  bootstrapInterval : Option (ℚ×ℚ)
  referenceDriftFraction : Option ℚ
  predictionErrors : List (String×Option PredictionError)
  statistics : List (String×Statistics)
  unresolved : List String

/-- Variables of the first loop of `summarize`. -/
structure Coverage where
  rounds : List (ℕ×List (String×DeploymentPlan)) := []
  seen : List String := []

section Summarize

variable (planHash : DeploymentPlan → String) (random : Randomness) (spec : SweepSpec)

/-- One round of the first loop of `summarize`. -/
def coverResult (coverage : Coverage) (result : JobResult) : Except Raised Coverage := do
  check (result.jobId∉coverage.seen) "duplicate sweep job"
  let round ← roundOf result.jobId
  check (round < spec.maximumRepetitions) "result is not a scheduled sweep job"
  let rounds ← (match coverage.rounds.lookup round with
    | some _ => .ok coverage.rounds
    | none => (schedule planHash random spec round).map fun jobs =>
        coverage.rounds++[(round,jobs)])
  match (rounds.lookup round).bind (·.lookup result.jobId) with
  | none => .error (.value "result is not a scheduled sweep job")
  | some plan => do
    validateResult spec result result.jobId plan
    pure ⟨rounds,result.jobId::coverage.seen⟩

/-- `complete_rounds` -/
def completeRounds (coverage : Coverage) : Bool :=
  let rounds := coverage.rounds.map Prod.fst
  let range := List.range ((rounds.max?.map (·+1)).getD 0)
  decide (spec.repetitions ≤ rounds.length) &&
  (rounds.all range.contains && range.all rounds.contains) &&
  coverage.rounds.all fun round => round.2.all fun job => coverage.seen.contains job.1

/-- Results of a candidate outside of the reference runs. -/
def rowsOf (results : List JobResult) (cid : String) : List JobResult :=
  results.filter fun r => decide (r.candidateId=cid) && !isReference r.jobId

/-- `statuses` -/
def statusesOf (results : List JobResult) (cid : String) : List JobStatus :=
  (rowsOf results cid).map (·.status)

/-- `samples` -/
def samplesOf (results : List JobResult) (cid : String) : List Sample :=
  ((rowsOf results cid).filter fun r => decide (r.status=.measured)).filterMap (·.sample)

/-- `reference_jobs` -/
def referenceJobs (results : List JobResult) : List JobResult :=
  results.filter fun r => isReference r.jobId

/-- `refs` -/
def refs (results : List JobResult) : List ℚ :=
  ((referenceJobs results).filter fun r => decide (r.status=.measured)).filterMap
    fun r => r.sample.map (·.generationMs)

/-- Drift of the reference runs. -/
def driftOf (refs : List ℚ) : Option ℚ :=
  match refs.min?,refs.max? with
  | some lowest,some highest => if 0 < lowest then some (highest/lowest-1) else none
  | _,_ => none

/-- A candidate is covered: measured throughout, or excluded throughout. -/
def covered (results : List JobResult) (cid : String) : Bool :=
  let statuses := statusesOf results cid
  (decide (spec.repetitions ≤ (samplesOf results cid).length) && !statuses.isEmpty &&
    statuses.all fun s => decide (s=.measured)) ||
  (decide (spec.repetitions ≤ statuses.length) && !statuses.isEmpty &&
    statuses.all fun s => decide (s=.memoryExcluded))

/-- `health` -/
def healthOf (results : List JobResult) : Bool :=
  ((referenceJobs results).filter fun r => "reference-after".toList.isSuffixOf r.jobId.toList).all
    fun r => decide (r.selectedHealthPassed=some true)

/-- `measured` -/
def measuredOf (ids : List String) (results : List JobResult) : List (String×List ℚ) :=
  ids.eraseDups.filterMap fun cid =>
    match samplesOf results cid with
    | [] => none
    | rows => some (cid,rows.map (·.generationMs))

/-- `ratios` -/
def ratios (measured : List (String×List ℚ)) (selected : String) : List ℚ :=
  (List.range 2000).filterMap fun i =>
    let medians := measured.map fun entry =>
      (entry.1,median (random.choices spec.seed measured i entry.1))
    match (medians.map Prod.snd).min?,medians.lookup selected with
    | some lowest,some own => if 0 < lowest then some (own/lowest-1) else none
    | _,_ => none

/-- `decision` -/
def decisionOf (complete stable health : Bool) (bounds : Option (ℚ×ℚ)) : Decision :=
  if complete=false then .incomplete
  else if stable=false then .unstable
  else match bounds with
    | none => .inconclusive
    | some bounds =>
      if health=false then .inconclusive
      else if bounds.2 ≤ spec.regretLimit then .pass
      else if spec.regretLimit < bounds.1 then .fail
      else .inconclusive

/-- `statistics` of the samples of a candidate. -/
def statisticsOf (samples : List Sample) (statuses : List JobStatus) : Statistics where
  count := samples.length
  medianGenerationMs := median (samples.map (·.generationMs))
  medianTtftMs := median (samples.map (·.ttftMs))
  medianItlMs := if 1 < (spec.workload.outputTokens : ℕ) then
      median (samples.flatMap fun s => gaps s.clientArrivalsMs)
    else 0
  statuses := statuses

/-- `summarize` after its first loop. -/
def summaryOf (coverage : Coverage) (results : List JobResult) : Summary :=
  let ids := (placements planHash spec).map (·.selectedCandidateId)
  let measured := measuredOf ids results
  let completeRounds := completeRounds spec coverage
  let complete := completeRounds && ids.all (covered spec results)
  let refs := refs results
  let drift := driftOf refs
  let health := completeRounds && healthOf results
  let stable := decide (2*spec.repetitions ≤ refs.length) &&
    decide (refs.length=(referenceJobs results).length) &&
    drift.any fun d => decide (d ≤ spec.driftLimit)
  let selected := spec.selectedPlan.selectedCandidateId
  let best := measured.argmin fun entry => toLex (median entry.2,entry.1)
  let ratios := if complete=true ∧ (measured.lookup selected).isSome=true then
    ratios random spec measured selected else []
  let bounds := if ratios=[] then none else some (interval ratios)
  let rows := ids.eraseDups.filter fun cid => !(samplesOf results cid).isEmpty
  {
    sweepDigest := spec.sweepDigest
    candidateCount := ids.length
    completeCoverage := complete
    selectedHealthPassed := health
    decision := decisionOf spec complete stable health bounds
    selectedCandidateId := selected
    bestCandidateId := best.map Prod.fst
    observedRegret := do
      let best ← best
      let own ← measured.lookup selected
      if 0 < median best.2 then some (median own/median best.2-1) else none
    bootstrapInterval := bounds
    referenceDriftFraction := drift
    predictionErrors := rows.map fun cid => (cid,predictionError (spec.predictions.lookup cid)
      (samplesOf results cid)
      ((rowsOf results cid).filter fun r => decide (r.status=.measured)))
    statistics := rows.map fun cid =>
      (cid,statisticsOf spec (samplesOf results cid) (statusesOf results cid))
    unresolved := ids.filter fun cid => (statusesOf results cid).all (fun s =>
      decide (s=.measured ∨ s=.memoryExcluded))=false ∨ statusesOf results cid=[]}

/-- `summarize` -/
def summarize (results : List JobResult) : Except Raised Summary := do
  let coverage ← results.foldlM (coverResult planHash random spec) {}
  check (∀ r∈results,r.candidateId∈(placements planHash spec).map (·.selectedCandidateId) ∧
    r.sweepDigest=spec.sweepDigest) "foreign sweep result"
  pure (summaryOf planHash random spec coverage results)

end Summarize

end Hllm.SweepModel
