import Hllm.FitAssessment
import Mathlib.Data.List.Dedup
import Mathlib.Data.List.Forall2
import Mathlib.Data.Option.Basic
import Mathlib.Algebra.Order.Ring.Rat
import Mathlib.Tactic.Linarith
import Mathlib.Tactic.Positivity

/-!
# Assessments of two measurements

How the result of `assess_fit` depends on what it is given. An assessment is
safe when it has no reasons at all; its reasons come from the reservations, from
the telemetry and from at most two envelopes. The envelopes grow strictly with
the peaks they are taken over.
-/

namespace Hllm.FitComparisons

open FitAssessment
open PlannerModels (Backend)

section Envelopes

/-- Bytes of an envelope over a peak. -/
def enveloped (budget : PhysicalBudget) (peak : ℕ) : ℕ :=
  peak+(Rat.ceil (peak*budget.safetyFraction)).toNat+budget.extraOverheadBytes

/-- A budget that is easier to meet. -/
structure Eases (budget budget' : PhysicalBudget) : Prop where
  available : Option.Rel (· ≤ ·) budget.availableBytes budget'.availableBytes
  headroom : budget'.headroomBytes ≤ budget.headroomBytes
  overhead : budget'.extraOverheadBytes ≤ budget.extraOverheadBytes
  safety : budget'.safetyFraction ≤ budget.safetyFraction

variable {budget budget' : PhysicalBudget} {peak peak' : ℕ} {name : String}

/-- An allowance of a larger peak, or by a larger fraction, is no smaller. -/
theorem allowance_mono (hpeak : peak ≤ peak') {f f' : ℚ} (hf : f ≤ f') (hpos : 0 ≤ f) :
    (Rat.ceil (peak*f)).toNat ≤ (Rat.ceil (peak'*f')).toNat := by
  have hcast : (peak : ℚ) ≤ peak' := by exact_mod_cast hpeak
  have hproduct : (peak : ℚ)*f ≤ peak'*f' :=
    mul_le_mul hcast hf hpos (by positivity)
  have hceil : Rat.ceil (peak*f) ≤ Rat.ceil (peak'*f') :=
    Rat.ceil_le_iff.mpr (hproduct.trans Rat.le_ceil)
  omega

/-- The safety fraction is positive. -/
theorem safetyFraction_pos : 0 ≤ budget.safetyFraction := by
  have hrange := budget.safetyFraction_range.1
  linarith

/-- An envelope over a larger peak is larger. -/
theorem enveloped_lt (h : peak < peak') : enveloped budget peak < enveloped budget peak' := by
  have hallowance := allowance_mono (Nat.le_of_lt h) le_rfl (@safetyFraction_pos budget)
  unfold enveloped
  omega

/-- Envelopes are ordered as their peaks. -/
theorem enveloped_le_iff : enveloped budget peak ≤ enveloped budget peak' ↔ peak ≤ peak' := by
  constructor
  · intro h
    by_contra hnot
    have hlt := @enveloped_lt budget peak' peak (Nat.lt_of_not_le hnot)
    omega
  · intro h
    rcases Nat.lt_or_eq_of_le h with hlt|rfl
    · exact Nat.le_of_lt (enveloped_lt hlt)
    · exact Nat.le_refl _

/-- An easier budget asks for less. -/
theorem enveloped_eases (h : Eases budget budget') :
    enveloped budget' peak ≤ enveloped budget peak := by
  have hallowance := allowance_mono (Nat.le_refl peak) h.safety (@safetyFraction_pos budget')
  have hoverhead := h.overhead
  unfold enveloped
  omega

/-- An envelope that can be formed. -/
theorem envelope_some {available : ℕ} (h : budget.availableBytes=some available) :
    envelope name (some peak) (some budget)={
      needed := some (enveloped budget peak)
      unsafeReasons := if available < enveloped budget peak+budget.headroomBytes then
        [name++": physical envelope plus headroom exceeds current availability"] else []} := by
  unfold envelope
  rw [Option.bind_some,h]
  rfl

/-- An envelope that cannot be formed is unknown. -/
theorem envelope_none {peak : Option ℕ} {budget : Option PhysicalBudget}
    (h : peak=none ∨ budget.bind (·.availableBytes)=none) :
    (envelope name peak budget).needed=none ∧ (envelope name peak budget).unsafeReasons=[] ∧
      (envelope name peak budget).unknownReasons≠[] := by
  have hform : envelope name peak budget={
      needed := none
      unknownReasons := [name++": physical peak/current availability unavailable"]} := by
    unfold envelope
    split
    · rename_i hbudget
      rcases h with h|h
      · cases h
      · rw [hbudget] at h
        cases h
    · rfl
  rw [hform]
  exact ⟨rfl,rfl,List.cons_ne_nil _ _⟩

/-- The largest of some values. -/
theorem max?_iff {xs : List ℕ} {a : ℕ} : xs.max?=some a ↔ a∈xs ∧ ∀ b∈xs,b ≤ a :=
  List.max?_eq_some_iff

/-- Every value of a list is reached in another. -/
def Reached (xs ys : List ℕ) : Prop := ∀ x∈xs,∃ y∈ys,x ≤ y

/-- The largest values of two lists are in order exactly when every value of the
first is reached in the second. -/
theorem reached_iff {xs ys : List ℕ} {a b : ℕ} (ha : xs.max?=some a) (hb : ys.max?=some b) :
    Reached xs ys ↔ a ≤ b := by
  obtain ⟨ha,hxs⟩ := max?_iff.mp ha
  obtain ⟨hb,hys⟩ := max?_iff.mp hb
  constructor
  · intro h
    obtain ⟨y,hy,hle⟩ := h a ha
    exact hle.trans (hys y hy)
  · intro h x hx
    exact ⟨b,hb,(hxs x hx).trans h⟩

/-- A nonempty list has a largest value. -/
theorem exists_max? {xs : List ℕ} (h : xs≠[]) : ∃ a,xs.max?=some a := by
  cases hmax : xs.max? with
  | none => exact absurd (List.max?_eq_none_iff.mp hmax) h
  | some a => exact ⟨a,rfl⟩

end Envelopes

section Reasons

variable {artifact : ProfileArtifact} {m : MemoryMeasurement} {capacity : MemoryAmounts}
variable {host : PhysicalBudget} {device : Option PhysicalBudget} {policy : MlxFitPolicy}

/-- The envelope of the host, or of unified memory. -/
def hostEnvelope (artifact : ProfileArtifact) (m : MemoryMeasurement) (host : PhysicalBudget)
    (policy : MlxFitPolicy) : Envelope :=
  envelope "host/unified" (hostPeak artifact m policy).1 (some host)

/-- The envelope of the device on CUDA. -/
def deviceEnvelope (backend : Backend) (m : MemoryMeasurement) (device : Option PhysicalBudget) :
    Envelope :=
  if backend=.cuda then envelope "device" (deviceValues backend m).max? device
  else {needed := none}

/-- The parts of an assessment. -/
theorem assessMemory_parts :
    (assessMemory artifact m capacity host device policy).hostEnvelopeBytes=
        (hostEnvelope artifact m host policy).needed ∧
      (assessMemory artifact m capacity host device policy).deviceEnvelopeBytes=
        (deviceEnvelope artifact.key.backend m device).needed ∧
      (assessMemory artifact m capacity host device policy).policy=
        (hostPeak artifact m policy).2.1 :=
  ⟨rfl,rfl,rfl⟩

/-- A fit is safe when there are no reasons. -/
theorem status_fits_iff :
    (assessMemory artifact m capacity host device policy).status=.fits ↔
      (reservationReasons m capacity=[] ∧
        telemetryReasons artifact.key.backend m capacity=[]) ∧
      ((hostEnvelope artifact m host policy).unsafeReasons=[] ∧
        (hostEnvelope artifact m host policy).unknownReasons=[]) ∧
      (deviceEnvelope artifact.key.backend m device).unsafeReasons=[] ∧
        (deviceEnvelope artifact.key.backend m device).unknownReasons=[] := by
  have hstatus : (assessMemory artifact m capacity host device policy).status=
      if reservationReasons m capacity++(hostEnvelope artifact m host policy).unsafeReasons++
          (deviceEnvelope artifact.key.backend m device).unsafeReasons≠[] then .exceeds
      else if telemetryReasons artifact.key.backend m capacity++
          (hostEnvelope artifact m host policy).unknownReasons++
          (deviceEnvelope artifact.key.backend m device).unknownReasons≠[] then .unknown
      else .fits := rfl
  rw [hstatus]
  split
  · rename_i hunfit
    rw [ne_eq,List.append_eq_nil_iff,List.append_eq_nil_iff] at hunfit
    constructor
    · intro h
      cases h
    · rintro ⟨⟨hreserved,-⟩,⟨hhost,-⟩,hdevice,-⟩
      exact absurd ⟨⟨hreserved,hhost⟩,hdevice⟩ hunfit
  · rename_i hfit
    rw [ne_eq,not_not,List.append_eq_nil_iff,List.append_eq_nil_iff] at hfit
    obtain ⟨⟨hreserved,hhost⟩,hdevice⟩ := hfit
    split
    · rename_i hunknown
      rw [ne_eq,List.append_eq_nil_iff,List.append_eq_nil_iff] at hunknown
      constructor
      · intro h
        cases h
      · rintro ⟨⟨-,htelemetry⟩,⟨-,hhost'⟩,-,hdevice'⟩
        exact absurd ⟨⟨htelemetry,hhost'⟩,hdevice'⟩ hunknown
    · rename_i hknown
      rw [ne_eq,not_not,List.append_eq_nil_iff,List.append_eq_nil_iff] at hknown
      obtain ⟨⟨htelemetry,hhost'⟩,hdevice'⟩ := hknown
      exact ⟨fun _ => ⟨⟨hreserved,htelemetry⟩,⟨hhost,hhost'⟩,hdevice,hdevice'⟩,fun _ => rfl⟩

/-- All memory fields are looked at. -/
theorem mem_memoryFields (field : MemoryField) : field∈memoryFields := by
  cases field <;> decide

/-- No reservation exceeds the capacity. -/
theorem reservationReasons_eq_nil : reservationReasons m capacity=[] ↔
    ∀ sample∈m.samples,∀ field,sample.required field ≤ capacity.get field := by
  unfold reservationReasons
  rw [List.flatMap_eq_nil_iff]
  refine forall₂_congr fun sample _ => ?_
  rw [List.flatMap_eq_nil_iff]
  constructor
  · intro h field
    have hfield := h field (mem_memoryFields field)
    by_contra hnot
    rw [if_pos (Nat.lt_of_not_le hnot)] at hfield
    cases hfield
  · intro h field _
    exact if_neg (Nat.not_lt.mpr (h field))

/-- The telemetry is complete enough. -/
theorem telemetryReasons_eq_nil {backend : Backend} : telemetryReasons backend m capacity=[] ↔
    m.completed=true ∧ (∀ field,m.admissionCapacity.get field ≤ capacity.get field) ∧
    (backend≠.cpu → ∀ sample∈m.samples,sample.phase.executes=true →
      ∃ a,sample.allocator=some a ∧ a.peakScope=.phase) ∧
    (backend=.cuda → m.physicalSamples.filterMap (·.deviceProcessBytes)≠[]) := by
  have hcompleted : (if m.completed then [] else ["incomplete memory exercise: "++
      (if m.error.getD ""="" then "unknown error" else m.error.getD "")])=[] ↔
      m.completed=true := by
    cases m.completed with
    | false => exact ⟨fun h => (List.cons_ne_nil _ _ h).elim,fun h => (Bool.false_ne_true h).elim⟩
    | true => exact ⟨fun _ => rfl,fun _ => rfl⟩
  have hcaps : (memoryFields.flatMap fun field =>
      if capacity.get field < m.admissionCapacity.get field then
        [field.name++": lower admission cap requires a new load/run probe"] else [])=[] ↔
      ∀ field,m.admissionCapacity.get field ≤ capacity.get field := by
    rw [List.flatMap_eq_nil_iff]
    constructor
    · intro h field
      have hfield := h field (mem_memoryFields field)
      by_contra hnot
      rw [if_pos (Nat.lt_of_not_le hnot)] at hfield
      cases hfield
    · intro h field _
      exact if_neg (Nat.not_lt.mpr (h field))
  have hphases : (if backend≠.cpu ∧ m.samples.any (fun sample => sample.phase.executes &&
      !sample.allocator.any fun a => decide (a.peakScope=.phase))=true then
        ["backend phase peak telemetry unavailable"] else [])=[] ↔
      (backend≠.cpu → ∀ sample∈m.samples,sample.phase.executes=true →
        ∃ a,sample.allocator=some a ∧ a.peakScope=.phase) := by
    rw [ite_eq_right_iff]
    constructor
    · intro h hbackend sample hsample hexecutes
      by_contra hnot
      refine absurd (h ⟨hbackend,List.any_eq_true.mpr ⟨sample,hsample,?_⟩⟩) (List.cons_ne_nil _ _)
      rw [hexecutes]
      cases ha : sample.allocator with
      | none => rfl
      | some a =>
        have hscope : a.peakScope≠.phase := fun hscope => hnot ⟨a,ha,hscope⟩
        rw [Option.any_some,decide_eq_false hscope]
        rfl
    · rintro h ⟨hbackend,hany⟩
      obtain ⟨sample,hsample,hmissing⟩ := List.any_eq_true.mp hany
      rw [Bool.and_eq_true] at hmissing
      obtain ⟨a,ha,hscope⟩ := h hbackend sample hsample hmissing.1
      rw [ha,Option.any_some,decide_eq_true hscope] at hmissing
      cases hmissing.2
  have hdevice : (if backend=.cuda ∧ m.physicalSamples.filterMap (·.deviceProcessBytes)=[] then
        ["CUDA physical process observations unavailable"] else [])=[] ↔
      (backend=.cuda → m.physicalSamples.filterMap (·.deviceProcessBytes)≠[]) := by
    rw [ite_eq_right_iff]
    simp only [List.cons_ne_nil,imp_false,not_and,ne_eq]
  unfold telemetryReasons
  rw [List.append_eq_nil_iff,List.append_eq_nil_iff,List.append_eq_nil_iff,hcompleted,hcaps,
    hphases,hdevice,and_assoc,and_assoc]

end Reasons

section Peaks

variable {artifact : ProfileArtifact} {m : MemoryMeasurement} {policy : MlxFitPolicy}

/-- The peak of the conservative policies. -/
def conservativePeak (backend : Backend) (m : MemoryMeasurement) : Option ℕ :=
  (hostValues m).max?.map (·+unifiedAllocatorPeak backend m)

/-- Everything the footprint policy takes its largest value from. -/
def footprintViews (backend : Backend) (m : MemoryMeasurement) (footprint : ℕ) : List ℕ :=
  footprint::unifiedAllocatorPeak backend m::(hostValues m++
    m.samples.map fun sample => sample.rssBytes.getD 0)

/-- The footprint policy is applied when it is asked for and has its telemetry. -/
theorem footprint_applied_iff : (hostPeak artifact m policy).2.1=.mlxFootprintMax ↔
    artifact.key.backend=.mlx ∧ policy=.footprint ∧ ∃ f,footprintPeak artifact m=.ok f := by
  unfold hostPeak
  have hbase : basePolicy artifact.key.backend≠.mlxFootprintMax := by
    cases artifact.key.backend <;> decide
  by_cases hasked : artifact.key.backend=.mlx ∧ policy=.footprint
  · simp only [if_pos hasked]
    split
    · rename_i reason hreason
      constructor
      · intro h
        exact absurd h hbase
      · rintro ⟨-,-,f,hf⟩
        rw [hreason] at hf
        cases hf
    · rename_i footprint hfootprint
      exact ⟨fun _ => ⟨hasked.1,hasked.2,footprint,hfootprint⟩,fun _ => rfl⟩
  · simp only [if_neg hasked]
    exact ⟨fun h => absurd h hbase,fun h => absurd ⟨h.1,h.2.1⟩ hasked⟩

/-- The peak of the footprint policy. -/
theorem hostPeak_of_footprint {f : ℕ} (hbackend : artifact.key.backend=.mlx)
    (hpolicy : policy=.footprint) (hf : footprintPeak artifact m=.ok f) :
    (hostPeak artifact m policy).1=(footprintViews artifact.key.backend m f).max? := by
  unfold hostPeak
  simp only [if_pos (And.intro hbackend hpolicy),hf]
  rfl

/-- The peak of the other policies. -/
theorem hostPeak_of_conservative (h : (hostPeak artifact m policy).2.1≠.mlxFootprintMax) :
    (hostPeak artifact m policy).1=conservativePeak artifact.key.backend m := by
  by_cases hasked : artifact.key.backend=.mlx ∧ policy=.footprint
  · cases hf : footprintPeak artifact m with
    | error reason =>
      unfold hostPeak
      simp only [if_pos hasked,hf]
      rfl
    | ok f => exact absurd (footprint_applied_iff.mpr ⟨hasked.1,hasked.2,f,hf⟩) h
  · unfold hostPeak
    simp only [if_neg hasked]
    rfl

end Peaks

section Valid

/-- `MEMORY_PHASES` -/
def memoryPhases : List MemoryPhase :=
  [.baseline,.load,.allocate,.prefill,.decode,.requestCleanup,.unload]

/-- No memory is pinned. -/
theorem nothing_pinned : 0 ≤ 0 := Nat.le_refl 0

/-- `MemoryAmounts()` -/
def noMemory : MemoryAmounts := ⟨0,0,0,0,nothing_pinned⟩

/-- A sample of a completed exercise: what was reserved has retired in time,
and all steps have been executed. -/
def checkSample (outputTokens : ℕ) (sample : MemorySample) : Except String Unit := do
  if sample.phase∈[MemoryPhase.requestCleanup,.unload] ∧
      (sample.cache≠noMemory ∨ sample.workspace≠noMemory) then
    .error "sequence reservations did not retire"
  else if sample.phase∈[MemoryPhase.baseline,.unload] ∧ sample.weights≠noMemory then
    .error "model reservations did not retire"
  else if sample.phase∈[MemoryPhase.decode,.requestCleanup,.unload] ∧
      sample.completedSteps≠outputTokens then .error "incomplete context exercise"
  else .ok ()

/-- `ProfileArtifact.verify` of a memory measurement, but for the digest, which
`make_artifact` computes. -/
def verifyMemory (artifact : ProfileArtifact) (m : MemoryMeasurement) : Except String Unit :=
  let observed := m.samples.filterMap (·.processMemory)
  if artifact.schemaVersion≠.v13 ∧
      decide (artifact.key.weightDtype≠none)≠decide (artifact.schemaVersion=.v12) then
    .error "mixed precision requires profile schema 1.2 or 1.3"
  else if artifact.schemaVersion=.v13 ∧ observed.length≠m.samples.length then
    .error "profile schema 1.3 requires process observations for all samples"
  else if artifact.schemaVersion=.v13 ∧ 1 < (observed.map (·.processId)).dedup.length then
    .error "memory profile must observe a single process"
  else if artifact.schemaVersion≠.v13 ∧ observed≠[] then
    .error "process observations require profile schema 1.3"
  else if m.completed=true then
    let cycles := artifact.conditions.warmupCycles+artifact.conditions.measuredCycles
    if m.samples.map (fun s => (s.cycle,s.phase))≠
        (List.range cycles).flatMap (fun cycle => memoryPhases.map (Prod.mk cycle)) ∨
        m.error≠none then
      .error "completed memory profile must contain all ordered phases"
    else m.samples.forM (checkSample artifact.key.workload.outputTokens)
  else if m.error.getD ""="" then .error "incomplete measurement requires an error"
  else .ok ()

/-- A sample of an exercise on the CPU that reserves nothing. -/
def cpuSample (phase : MemoryPhase) (rssPeak : Option ℕ) : MemorySample where
  cycle := 0
  phase := phase
  weights := noMemory
  cache := noMemory
  workspace := noMemory
  allocator := none
  rssBytes := some 90
  rssLifetimePeakBytes := rssPeak
  deviceAvailableBytes := none
  completedSteps := 1
  processMemory := none
  consistent := nofun

/-- A completed exercise on the CPU; its last phase observes some peak. -/
def cpuExercise (peak : Option ℕ) : MemoryMeasurement where
  admissionCapacity := noMemory
  samples := memoryPhases.map fun phase =>
    cpuSample phase (if phase=.unload then peak else some 100)
  physicalSamples := [⟨some 95,none⟩]
  completed := true
  error := none

/-- A cache without overhead. -/
theorem one_le_overhead : (1 : ℚ) ≤ 1 := le_rfl

/-- The artifact of such an exercise. -/
def cpuArtifact (peak : Option ℕ) : ProfileArtifact where
  schemaVersion := .v10
  key := {
    manifestDigest := "m"
    checkpointDigest := "c"
    backend := .cpu
    assignment := ⟨0,"w",0,1,true,true,true,true⟩
    workload := {
      workloadId := "w"
      promptTokens := 1
      outputTokens := 1
      concurrency := 1
      totalCachedTokens := 2
      kvOverheadFactor := 1
      kvDtype := .f32
      activationDtype := .f16
      prefillChunkTokens := 0
      kvOverheadFactor_ge := one_le_overhead
      chunk_below_prompt := Nat.one_pos}
    executionDtype := .f32
    weightDtype := none}
  conditions := ⟨0,1,.freshProcessThenReloads,"idle"⟩
  measurement := .memory (cpuExercise peak)

/-- A budget with some bytes available. -/
def cpuBudget (available : ℕ) : PhysicalBudget where
  availableBytes := some available
  headroomBytes := 0
  extraOverheadBytes := 0
  safetyFraction := 1/10
  safetyFraction_range := by norm_num

end Valid

end Hllm.FitComparisons
