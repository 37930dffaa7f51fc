import Hllm.FitComparisons

/-!
# Assessments with observations missing

Every peak is the largest of the observations that happen to be present. An
assessment is therefore unaffected by a missing observation only while one that
is at least as large remains; otherwise an envelope shrinks, and an unsafe fit
can become safe. For the footprint policy a missing observation may also change
the formula.
-/

namespace Hllm.FitTelemetry

open FitAssessment FitComparisons
open PlannerModels (Backend Raised)

section Drops

variable {α : Type}

/-- A value that may have been replaced by `None`. -/
def Dropped (x y : Option α) : Prop := y=x ∨ y=none

/-- A process observation with counters missing. -/
structure ProcessDrops (p q : ProcessMemoryObservation) : Prop where
  processId : q.processId=p.processId
  observedAt : q.observedAtUnixNs=p.observedAtUnixNs
  rss : Dropped p.rssBytes q.rssBytes
  rssPeak : Dropped p.rssLifetimePeakBytes q.rssLifetimePeakBytes
  footprint : Dropped p.physicalFootprintBytes q.physicalFootprintBytes
  footprintPeak : Dropped p.physicalFootprintLifetimePeakBytes
    q.physicalFootprintLifetimePeakBytes

/-- A sample with observations missing. -/
structure SampleDrops (x y : MemorySample) : Prop where
  cycle : y.cycle=x.cycle
  phase : y.phase=x.phase
  weights : y.weights=x.weights
  cache : y.cache=x.cache
  workspace : y.workspace=x.workspace
  completedSteps : y.completedSteps=x.completedSteps
  deviceAvailable : y.deviceAvailableBytes=x.deviceAvailableBytes
  allocator : Dropped x.allocator y.allocator
  rss : Dropped x.rssBytes y.rssBytes
  rssPeak : Dropped x.rssLifetimePeakBytes y.rssLifetimePeakBytes
  processMemory : y.processMemory=none ∨ Option.Rel ProcessDrops x.processMemory y.processMemory

/-- A physical sample with observations missing. -/
structure PhysicalDrops (x y : PhysicalSample) : Prop where
  rss : Dropped x.rssBytes y.rssBytes
  device : Dropped x.deviceProcessBytes y.deviceProcessBytes

/-- A measurement with observations missing. -/
structure MeasurementDrops (m m' : MemoryMeasurement) : Prop where
  admissionCapacity : m'.admissionCapacity=m.admissionCapacity
  samples : List.Forall₂ SampleDrops m.samples m'.samples
  physicalSamples : List.Forall₂ PhysicalDrops m.physicalSamples m'.physicalSamples
  completed : m'.completed=m.completed
  error : m'.error=m.error

/-- An artifact whose measurement has observations missing. -/
structure ArtifactDrops (a a' : ProfileArtifact) (m m' : MemoryMeasurement) : Prop where
  schema : a'.schemaVersion=a.schemaVersion
  key : a'.key=a.key
  conditions : a'.conditions=a.conditions
  before : a.measurement=.memory m
  after : a'.measurement=.memory m'
  measurement : MeasurementDrops m m'

/-- A budget whose availability may be missing. -/
structure BudgetDrops (b b' : PhysicalBudget) : Prop where
  available : Dropped b.availableBytes b'.availableBytes
  headroom : b'.headroomBytes=b.headroomBytes
  overhead : b'.extraOverheadBytes=b.extraOverheadBytes
  safety : b'.safetyFraction=b.safetyFraction

end Drops

section Values

variable {α : Type} {R : α → α → Prop} {xs ys : List α} {f : α → Option ℕ}

/-- What remains was observed before. -/
theorem filterMap_drops (h : List.Forall₂ R xs ys) (hf : ∀ x y,R x y → Dropped (f x) (f y)) :
    (ys.filterMap f).Sublist (xs.filterMap f) := by
  induction h with
  | nil => exact .slnil
  | @cons x y xs ys hxy _ ih =>
    rcases hf x y hxy with hsame|hnone
    · cases hx : f x with
      | none =>
        rw [List.filterMap_cons_none hx,List.filterMap_cons_none (hsame.trans hx)]
        exact ih
      | some v =>
        rw [List.filterMap_cons_some hx,List.filterMap_cons_some (hsame.trans hx)]
        exact ih.cons_cons v
    · rw [List.filterMap_cons_none hnone]
      cases hx : f x with
      | none =>
        rw [List.filterMap_cons_none hx]
        exact ih
      | some v =>
        rw [List.filterMap_cons_some hx]
        exact ih.cons v

variable {m m' : MemoryMeasurement}

/-- Host values that remain. -/
theorem hostValues_drop (h : MeasurementDrops m m') :
    (hostValues m').Sublist (hostValues m) :=
  (filterMap_drops h.samples fun _ _ hxy => hxy.rssPeak).append
    (filterMap_drops h.physicalSamples fun _ _ hxy => hxy.rss)

/-- Allocator values that remain. -/
theorem allocatorValues_drop (h : MeasurementDrops m m') :
    (allocatorValues m').Sublist (allocatorValues m) := by
  refine filterMap_drops h.samples fun x y hxy => ?_
  rcases hxy.allocator with hsame|hnone
  · exact .inl (by rw [hsame])
  · exact .inr (by rw [hnone,Option.map_none])

/-- Physical device values that remain. -/
theorem physical_drop (h : MeasurementDrops m m') :
    (m'.physicalSamples.filterMap (·.deviceProcessBytes)).Sublist
      (m.physicalSamples.filterMap (·.deviceProcessBytes)) :=
  filterMap_drops h.physicalSamples fun _ _ hxy => hxy.device

/-- Device values that remain. -/
theorem deviceValues_drop (h : MeasurementDrops m m') (backend : Backend) :
    (deviceValues backend m').Sublist (deviceValues backend m) := by
  refine (physical_drop h).append ?_
  split
  · exact allocatorValues_drop h
  · exact .slnil

/-- The largest of fewer values. -/
theorem max?_drop {xs ys : List ℕ} {a b : ℕ} (h : ys.Sublist xs) (ha : xs.max?=some a)
    (hb : ys.max?=some b) : b ≤ a :=
  (max?_iff.mp ha).2 b (h.mem (max?_iff.mp hb).1)

/-- The allocator peak is one of the allocator values, or zero. -/
theorem unifiedAllocatorPeak_mem : unifiedAllocatorPeak .mlx m∈0::allocatorValues m := by
  unfold unifiedAllocatorPeak
  rw [if_pos rfl]
  cases hmax : (allocatorValues m).max? with
  | none => exact .head _
  | some u => exact .tail _ (max?_iff.mp hmax).1

/-- The allocator peak is no smaller than any allocator value. -/
theorem unifiedAllocatorPeak_ge {u : ℕ} (h : u∈0::allocatorValues m) :
    u ≤ unifiedAllocatorPeak .mlx m := by
  rcases List.mem_cons.mp h with rfl|h
  · exact Nat.zero_le _
  · unfold unifiedAllocatorPeak
    rw [if_pos rfl]
    obtain ⟨peak,hpeak⟩ := exists_max? (List.ne_nil_of_mem h)
    rw [hpeak]
    exact (max?_iff.mp hpeak).2 u h

end Values

section Footprints

variable {a a' : ProfileArtifact} {m m' : MemoryMeasurement}

/-- What a round of the footprint loop reads. -/
theorem footprintStep_eq {state : FootprintState} {x y : MemorySample}
    (hprocess : x.processMemory=y.processMemory) (hallocator : x.allocator=y.allocator)
    (hphase : x.phase=y.phase) : footprintStep state x=footprintStep state y := by
  unfold footprintStep
  rw [hprocess,hallocator,hphase]

/-- A round succeeds on a sample with all its counters and its allocator. -/
theorem footprintStep_ok {state next : FootprintState} {sample : MemorySample}
    (h : footprintStep state sample=.ok next) :
    (∃ p rss rssPeak footprint,sample.processMemory=some p ∧ p.rssBytes=some rss ∧
      p.rssLifetimePeakBytes=some rssPeak ∧ p.physicalFootprintBytes=some footprint ∧
      p.physicalFootprintLifetimePeakBytes=some next.previousFootprint) ∧
    sample.allocator≠none ∧ state.previousFootprint ≤ next.previousFootprint := by
  unfold footprintStep at h
  split at h
  · cases h
  · rename_i p rss rssPeak footprint peak hread
    obtain ⟨q,hq,hread⟩ := Option.bind_eq_some_iff.mp hread
    obtain ⟨v,hv,hread⟩ := Option.bind_eq_some_iff.mp hread
    obtain ⟨w,hw,hread⟩ := Option.bind_eq_some_iff.mp hread
    obtain ⟨c,hc,hread⟩ := Option.bind_eq_some_iff.mp hread
    obtain ⟨d,hd,hread⟩ := Option.bind_eq_some_iff.mp hread
    split at hread
    · cases hread
    · cases hread
      split at h
      · cases h
      · rename_i hcoherent
        split at h
        · cases h
        · rename_i hobserved
          cases h
          refine ⟨⟨p,rss,rssPeak,footprint,hq,hv,hw,hc,hd⟩,fun hnone => hobserved (.inl hnone),?_⟩
          by_contra hless
          have hlower : peak < state.previousFootprint := Nat.lt_of_not_le hless
          exact hcoherent (.inr (.inr (.inr (by omega))))

/-- A missing observation never makes a round succeed. -/
theorem footprintStep_drops {state next : FootprintState} {x y : MemorySample}
    (hxy : SampleDrops x y) (h : footprintStep state y=.ok next) :
    footprintStep state x=.ok next := by
  obtain ⟨⟨q,rss,rssPeak,footprint,hq,hrss,hrssPeak,hfootprint,hpeak⟩,hallocator,-⟩ :=
    footprintStep_ok h
  rcases hxy.allocator with hsame|hnone
  · rcases hxy.processMemory with hnone|hprocess
    · rw [hq] at hnone
      cases hnone
    · have hkept : x.processMemory=y.processMemory := by
        rw [hq] at hprocess ⊢
        generalize x.processMemory=o at hprocess
        cases hprocess with
        | @some p _ hpq =>
          have hkeep : ∀ {u v : Option ℕ} {w : ℕ},Dropped u v → v=some w → u=v := by
            intro u v w hdrop hv
            rcases hdrop with h|h
            · exact h.symm
            · rw [hv] at h
              cases h
          have hall := And.intro (And.intro hpq.processId hpq.observedAt) (And.intro
            (And.intro (hkeep hpq.rss hrss) (hkeep hpq.rssPeak hrssPeak))
            (And.intro (hkeep hpq.footprint hfootprint) (hkeep hpq.footprintPeak hpeak)))
          cases p
          cases q
          simp only at hall
          obtain ⟨⟨rfl,rfl⟩,⟨rfl,rfl⟩,rfl,rfl⟩ := hall
          rfl
      exact (footprintStep_eq hkept hsame.symm hxy.phase.symm).trans h
  · exact absurd hnone hallocator

/-- Nor a loop. -/
theorem foldlM_footprintStep_drops {xs ys : List MemorySample}
    (h : List.Forall₂ SampleDrops xs ys) {state last : FootprintState}
    (hy : ys.foldlM footprintStep state=.ok last) : xs.foldlM footprintStep state=.ok last := by
  induction h generalizing state with
  | nil => exact hy
  | @cons x y xs ys hxy _ ih =>
    rw [List.foldlM_cons] at hy ⊢
    cases hstep : footprintStep state y with
    | error e =>
      rw [hstep] at hy
      cases hy
    | ok next =>
      rw [hstep] at hy
      rw [footprintStep_drops hxy hstep]
      exact ih hy

/-- When `_footprint_peak` returns a peak. -/
theorem footprintPeak_ok_iff {f : ℕ} : footprintPeak a m=.ok f ↔
    (a.schemaVersion=.v13 ∧ m.completed=true ∧ m.samples≠[]) ∧
    a.conditions.processPolicy=.freshProcessThenReloads ∧
    ∃ last,m.samples.foldlM footprintStep {}=.ok last ∧ last.previousFootprint=f := by
  unfold footprintPeak
  split
  · rename_i hincomplete
    constructor
    · intro h
      cases h
    · rintro ⟨⟨hschema,hcompleted,hsamples⟩,-⟩
      rcases hincomplete with h|h|h
      · exact absurd hschema h
      · rw [hcompleted] at h
        cases h
      · exact absurd h hsamples
  · rename_i hcomplete
    rw [not_or,not_or,not_not,Bool.not_eq_false] at hcomplete
    split
    · rename_i hstale
      constructor
      · intro h
        cases h
      · rintro ⟨-,hfresh,-⟩
        exact absurd hfresh hstale
    · rename_i hfresh
      rw [ne_eq,not_not] at hfresh
      cases hfold : m.samples.foldlM footprintStep {} with
      | error e =>
        constructor
        · intro h
          cases h
        · rintro ⟨-,-,last,hlast,-⟩
          cases hlast
      | ok last =>
        constructor
        · intro h
          cases h
          exact ⟨hcomplete,hfresh,last,rfl,rfl⟩
        · rintro ⟨-,-,last',hlast,rfl⟩
          cases hlast
          rfl

/-- A missing observation never makes the footprint policy applicable. -/
theorem footprintPeak_drops (h : ArtifactDrops a a' m m') {f : ℕ}
    (hf : footprintPeak a' m'=.ok f) : footprintPeak a m=.ok f := by
  obtain ⟨⟨hschema,hcompleted,hsamples⟩,hfresh,last,hlast,hpeak⟩ := footprintPeak_ok_iff.mp hf
  have hlength := h.measurement.samples.length_eq
  refine footprintPeak_ok_iff.mpr ⟨⟨h.schema.symm.trans hschema,
    h.measurement.completed.symm.trans hcompleted,?_⟩,?_,last,
    foldlM_footprintStep_drops h.measurement.samples hlast,hpeak⟩
  · intro hnil
    rw [hnil] at hlength
    exact hsamples (List.length_eq_zero_iff.mp hlength.symm)
  · rw [←h.conditions]
    exact hfresh

/-- Footprint peak observed in a sample. -/
def sampleFootprint (sample : MemorySample) : Option ℕ :=
  sample.processMemory.bind (·.physicalFootprintLifetimePeakBytes)

/-- Footprint peaks that were observed. -/
def footprintPeaks (m : MemoryMeasurement) : List ℕ := m.samples.filterMap sampleFootprint

/-- All counters that count for the footprint policy. -/
def footprintCounters (m : MemoryMeasurement) : List ℕ :=
  footprintPeaks m++allocatorValues m++(hostValues m++m.samples.filterMap (·.rssBytes))

/-- The footprint loop ends with the last of the footprint peaks, which is the
largest. -/
theorem foldlM_footprintStep_peak {xs : List MemorySample} {state last : FootprintState}
    (h : xs.foldlM footprintStep state=.ok last) :
    state.previousFootprint ≤ last.previousFootprint ∧
    (∀ v∈xs.filterMap sampleFootprint,v ≤ last.previousFootprint) ∧
    (last.previousFootprint=state.previousFootprint ∨
      last.previousFootprint∈xs.filterMap sampleFootprint) := by
  induction xs generalizing state with
  | nil =>
    cases h
    exact ⟨Nat.le_refl _,fun v hv => absurd hv List.not_mem_nil,.inl rfl⟩
  | cons x xs ih =>
    rw [List.foldlM_cons] at h
    cases hstep : footprintStep state x with
    | error e =>
      rw [hstep] at h
      cases h
    | ok next =>
      rw [hstep] at h
      obtain ⟨⟨p,-,-,-,hp,-,-,-,hpeak⟩,-,hle⟩ := footprintStep_ok hstep
      obtain ⟨hnext,hall,hlast⟩ := ih h
      have hread : sampleFootprint x=some next.previousFootprint := by
        unfold sampleFootprint
        rw [hp]
        exact hpeak
      rw [List.filterMap_cons_some hread]
      refine ⟨hle.trans hnext,?_,?_⟩
      · intro v hv
        rcases List.mem_cons.mp hv with rfl|hv
        · exact hnext
        · exact hall v hv
      · rcases hlast with hlast|hlast
        · rw [hlast]
          exact .inr (.head _)
        · exact .inr (.tail _ hlast)

/-- The footprint is one of the peaks that were observed, and the largest. -/
theorem footprintPeak_mem {f : ℕ} (h : footprintPeak a m=.ok f) :
    (f=0 ∨ f∈footprintPeaks m) ∧ ∀ v∈footprintPeaks m,v ≤ f := by
  obtain ⟨-,-,last,hlast,rfl⟩ := footprintPeak_ok_iff.mp h
  obtain ⟨-,hall,hmem⟩ := foldlM_footprintStep_peak hlast
  exact ⟨hmem,hall⟩

end Footprints

section Peaks

variable {a a' : ProfileArtifact} {m m' : MemoryMeasurement} {policy : MlxFitPolicy}

/-- The footprint policy is asked for and `_footprint_peak` accepts the telemetry. -/
def UsesFootprint (a : ProfileArtifact) (m : MemoryMeasurement) (policy : MlxFitPolicy) : Prop :=
  a.key.backend=.mlx ∧ policy=.footprint ∧ ∃ f,footprintPeak a m=.ok f

/-- No observation of the host is missing that was larger than what remains: of
each kind under the conservative formula, of any kind under the footprint
formula, and together with the allocator if that formula no longer applies. -/
structure HostKept (a a' : ProfileArtifact) (m m' : MemoryMeasurement) (policy : MlxFitPolicy) :
    Prop where
  conservative : ¬UsesFootprint a m policy → Reached (hostValues m) (hostValues m') ∧
    (a.key.backend=.mlx → Reached (allocatorValues m) (0::allocatorValues m'))
  coherent : UsesFootprint a m policy → UsesFootprint a' m' policy →
    Reached (footprintCounters m) (footprintCounters m')
  fallback : UsesFootprint a m policy → ¬UsesFootprint a' m' policy →
    ∀ v∈footprintCounters m,∃ w∈hostValues m',∃ u∈0::allocatorValues m',v ≤ w+u

/-- A bound of what the footprint policy looks at is one of all its counters. -/
theorem footprintViews_le_iff {f b : ℕ} (hf : footprintPeak a m=.ok f) :
    (∀ v∈footprintViews .mlx m f,v ≤ b) ↔ ∀ v∈footprintCounters m,v ≤ b := by
  obtain ⟨hmem,hlargest⟩ := footprintPeak_mem hf
  have hallocator := @unifiedAllocatorPeak_mem m
  unfold footprintViews footprintCounters
  constructor
  · intro h v hv
    have hfootprint := h f (.head _)
    have hunified := h _ (.tail _ (.head _))
    rcases List.mem_append.mp hv with hv|hv
    · rcases List.mem_append.mp hv with hv|hv
      · exact (hlargest v hv).trans hfootprint
      · exact (unifiedAllocatorPeak_ge (.tail _ hv)).trans hunified
    · rcases List.mem_append.mp hv with hv|hv
      · exact h v (.tail _ (.tail _ (List.mem_append_left _ hv)))
      · obtain ⟨sample,hsample,hrss⟩ := List.mem_filterMap.mp hv
        have hview : v∈m.samples.map fun sample => sample.rssBytes.getD 0 :=
          List.mem_map.mpr ⟨sample,hsample,by rw [hrss,Option.getD_some]⟩
        exact h v (.tail _ (.tail _ (List.mem_append_right _ hview)))
  · intro h v hv
    rcases List.mem_cons.mp hv with rfl|hv
    · rcases hmem with rfl|hmem
      · exact Nat.zero_le _
      · exact h _ (List.mem_append_left _ (List.mem_append_left _ hmem))
    · rcases List.mem_cons.mp hv with rfl|hv
      · rcases List.mem_cons.mp hallocator with hzero|hmem
        · omega
        · exact h _ (List.mem_append_left _ (List.mem_append_right _ hmem))
      · rcases List.mem_append.mp hv with hv|hv
        · exact h v (List.mem_append_right _ (List.mem_append_left _ hv))
        · obtain ⟨sample,hsample,rfl⟩ := List.mem_map.mp hv
          cases hrss : sample.rssBytes with
          | none => exact Nat.zero_le _
          | some rss =>
            exact h rss (List.mem_append_right _ (List.mem_append_right _
              (List.mem_filterMap.mpr ⟨sample,hsample,hrss⟩)))

/-- The footprint policy takes the largest of all its counters. -/
theorem hostPeak_footprint {p : ℕ} (huses : UsesFootprint a m policy) (hsome : hostValues m≠[])
    (hp : (hostPeak a m policy).1=some p) : (footprintCounters m).max?=some p := by
  obtain ⟨hbackend,hpolicy,f,hf⟩ := huses
  rw [hostPeak_of_footprint hbackend hpolicy hf,hbackend] at hp
  obtain ⟨hmem,hlargest⟩ := max?_iff.mp hp
  have hcounters : footprintCounters m≠[] := by
    intro hnil
    exact hsome (List.append_eq_nil_iff.mp (List.append_eq_nil_iff.mp hnil).2).1
  obtain ⟨q,hq⟩ := exists_max? hcounters
  obtain ⟨hqmem,hqlargest⟩ := max?_iff.mp hq
  have hle := (footprintViews_le_iff hf).mp hlargest q hqmem
  have hge := (footprintViews_le_iff hf).mpr hqlargest p hmem
  rw [hq,Nat.le_antisymm hle hge]

/-- The conservative formula adds the allocator to the largest host value. -/
theorem hostPeak_conservative {p : ℕ} (huses : ¬UsesFootprint a m policy)
    (hp : (hostPeak a m policy).1=some p) :
    ∃ w,(hostValues m).max?=some w ∧ w+unifiedAllocatorPeak a.key.backend m=p := by
  rw [hostPeak_of_conservative (fun h => huses (footprint_applied_iff.mp h))] at hp
  obtain ⟨w,hw,rfl⟩ := Option.map_eq_some_iff.mp hp
  exact ⟨w,hw,rfl⟩

/-- A missing observation never makes the footprint policy applicable. -/
theorem usesFootprint_drops (h : ArtifactDrops a a' m m') (huses : UsesFootprint a' m' policy) :
    UsesFootprint a m policy := by
  obtain ⟨hbackend,hpolicy,f,hf⟩ := huses
  exact ⟨(congrArg ProfileKey.backend h.key).symm.trans hbackend,hpolicy,f,
    footprintPeak_drops h hf⟩

/-- The allocator peak is kept when every allocator value is reached. -/
theorem unifiedAllocatorPeak_le_iff {backend : Backend} :
    unifiedAllocatorPeak backend m ≤ unifiedAllocatorPeak backend m' ↔
      (backend=.mlx → Reached (allocatorValues m) (0::allocatorValues m')) := by
  constructor
  · rintro h rfl v hv
    exact ⟨_,unifiedAllocatorPeak_mem,(unifiedAllocatorPeak_ge (.tail _ hv)).trans h⟩
  · intro h
    by_cases hbackend : backend=.mlx
    · subst hbackend
      rcases List.mem_cons.mp (@unifiedAllocatorPeak_mem m) with hzero|hmem
      · omega
      · obtain ⟨u,hu,hle⟩ := h rfl _ hmem
        exact hle.trans (unifiedAllocatorPeak_ge hu)
    · unfold unifiedAllocatorPeak
      rw [if_neg hbackend,if_neg hbackend]

/-- The host peak is kept exactly when no larger observation is missing. -/
theorem hostPeak_kept_iff (h : ArtifactDrops a a' m m') {p p' : ℕ} (hsome : hostValues m'≠[])
    (hp : (hostPeak a m policy).1=some p) (hp' : (hostPeak a' m' policy).1=some p') :
    p ≤ p' ↔ HostKept a a' m m' policy := by
  have hkey : a'.key.backend=a.key.backend := congrArg ProfileKey.backend h.key
  have hvalues := hostValues_drop h.measurement
  have hbefore : hostValues m≠[] := fun hnil => hsome (by
    rw [hnil] at hvalues
    exact List.eq_nil_of_sublist_nil hvalues)
  by_cases huses : UsesFootprint a m policy
  · have hpeak := hostPeak_footprint huses hbefore hp
    by_cases huses' : UsesFootprint a' m' policy
    · rw [←reached_iff hpeak (hostPeak_footprint huses' hsome hp')]
      exact ⟨fun hreached => ⟨fun hnot => absurd huses hnot,fun _ _ => hreached,
        fun _ hnot => absurd huses' hnot⟩,fun hkept => hkept.coherent huses huses'⟩
    · obtain ⟨w,hw,rfl⟩ := hostPeak_conservative huses' hp'
      rw [hkey,huses.1]
      obtain ⟨hmem,hlargest⟩ := max?_iff.mp hpeak
      obtain ⟨hwmem,hwlargest⟩ := max?_iff.mp hw
      constructor
      · intro hle
        exact ⟨fun hnot => absurd huses hnot,fun _ h' => absurd h' huses',fun _ _ v hv =>
          ⟨w,hwmem,_,unifiedAllocatorPeak_mem,(hlargest v hv).trans hle⟩⟩
      · intro hkept
        obtain ⟨w',hw',u,hu,hle⟩ := hkept.fallback huses huses' p hmem
        exact hle.trans (Nat.add_le_add (hwlargest w' hw') (unifiedAllocatorPeak_ge hu))
  · have huses' : ¬UsesFootprint a' m' policy := fun h' => huses (usesFootprint_drops h h')
    obtain ⟨w,hw,rfl⟩ := hostPeak_conservative huses hp
    obtain ⟨w',hw',rfl⟩ := hostPeak_conservative huses' hp'
    have hless := max?_drop hvalues hw hw'
    have hallocator : unifiedAllocatorPeak a.key.backend m' ≤
        unifiedAllocatorPeak a.key.backend m := by
      refine unifiedAllocatorPeak_le_iff.mpr fun _ v hv => ?_
      exact ⟨v,.tail _ ((allocatorValues_drop h.measurement).mem hv),Nat.le_refl v⟩
    rw [hkey]
    constructor
    · intro hle
      refine ⟨fun _ => ⟨(reached_iff hw hw').mpr (by omega),?_⟩,
        fun h' => absurd h' huses,fun h' => absurd h' huses⟩
      exact unifiedAllocatorPeak_le_iff.mp (by omega)
    · intro hkept
      obtain ⟨hreached,hunified⟩ := hkept.conservative huses
      have hhost := (reached_iff hw hw').mp hreached
      have hpeak := unifiedAllocatorPeak_le_iff.mpr hunified
      omega

/-- The footprint policy has host values. -/
theorem usesFootprint_hostValues (huses : UsesFootprint a m policy) : hostValues m≠[] := by
  obtain ⟨-,-,f,hf⟩ := huses
  obtain ⟨⟨-,-,hsamples⟩,-,last,hlast,-⟩ := footprintPeak_ok_iff.mp hf
  cases hm : m.samples with
  | nil => exact absurd hm hsamples
  | cons x xs =>
    rw [hm,List.foldlM_cons] at hlast
    cases hstep : footprintStep {} x with
    | error e =>
      rw [hstep] at hlast
      cases hlast
    | ok next =>
      obtain ⟨⟨p,-,peak,-,hprocess,-,hpeak,-⟩,-⟩ := footprintStep_ok hstep
      have hread : x.rssLifetimePeakBytes=some peak := by
        rw [(x.consistent p hprocess).2]
        exact hpeak
      intro hnil
      have hmem : peak∈hostValues m := List.mem_append_left _
        (List.mem_filterMap.mpr ⟨x,hm.symm ▸ List.mem_cons_self,hread⟩)
      rw [hnil] at hmem
      exact absurd hmem List.not_mem_nil

/-- There is a host peak when there is a host value. -/
theorem hostPeak_some_iff : (∃ p,(hostPeak a m policy).1=some p) ↔ hostValues m≠[] := by
  by_cases huses : UsesFootprint a m policy
  · refine ⟨fun _ => usesFootprint_hostValues huses,fun _ => ?_⟩
    obtain ⟨hbackend,hpolicy,f,hf⟩ := huses
    rw [hostPeak_of_footprint hbackend hpolicy hf]
    exact exists_max? (List.cons_ne_nil _ _)
  · rw [hostPeak_of_conservative (fun h => huses (footprint_applied_iff.mp h))]
    unfold conservativePeak
    constructor
    · rintro ⟨p,hp⟩ hnil
      rw [hnil] at hp
      cases hp
    · intro hsome
      obtain ⟨w,hw⟩ := exists_max? hsome
      exact ⟨_,by rw [hw,Option.map_some]⟩

end Peaks

section Envelopes

variable {name : String} {peak peak' : Option ℕ} {budget budget' : Option PhysicalBudget}

/-- A reported envelope is not smaller than it was. -/
def EnvelopeKept (e e' : Option ℕ) : Prop := ∀ x y,e=some x → e'=some y → x ≤ y

/-- An availability that remains was there before, in the same budget otherwise. -/
theorem budget_kept (h : Option.Rel BudgetDrops budget budget')
    (havailable : budget'.bind (·.availableBytes)≠none) :
    ∃ b b' x,budget=some b ∧ budget'=some b' ∧ b.availableBytes=some x ∧
      b'.availableBytes=some x ∧ b'.headroomBytes=b.headroomBytes ∧
      ∀ p,enveloped b' p=enveloped b p := by
  cases h with
  | none => exact absurd rfl havailable
  | @some b b' hdrop =>
    rcases hdrop.available with hsame|hnone
    · cases hx : b.availableBytes with
      | none => exact absurd (hsame.trans hx) havailable
      | some x =>
        refine ⟨b,b',x,rfl,rfl,hx,hsame.trans hx,hdrop.headroom,fun p => ?_⟩
        unfold enveloped
        rw [hdrop.safety,hdrop.overhead]
    · exact absurd hnone havailable

/-- An envelope is kept exactly when its peak is, unless the availability is
missing. -/
theorem envelope_kept_iff (h : Option.Rel BudgetDrops budget budget') :
    EnvelopeKept (envelope name peak budget).needed (envelope name peak' budget').needed ↔
      (budget'.bind (·.availableBytes)≠none → EnvelopeKept peak peak') := by
  by_cases havailable : budget'.bind (·.availableBytes)=none
  · refine ⟨fun _ hsome => absurd havailable hsome,fun _ x y _ hy => ?_⟩
    rw [(envelope_none (.inr havailable)).1] at hy
    cases hy
  · obtain ⟨b,b',x,rfl,rfl,hx,hx',-,henveloped⟩ := budget_kept h havailable
    constructor
    · rintro hkept - p p' rfl rfl
      have hle := hkept (enveloped b p) (enveloped b' p')
        (by rw [envelope_some hx]) (by rw [envelope_some hx'])
      rw [henveloped] at hle
      exact enveloped_le_iff.mp hle
    · intro hkept e e' he he'
      cases hpeak : peak with
      | none =>
        rw [hpeak,(envelope_none (.inl rfl)).1] at he
        cases he
      | some p =>
        cases hpeak' : peak' with
        | none =>
          rw [hpeak',(envelope_none (.inl rfl)).1] at he'
          cases he'
        | some p' =>
          rw [hpeak,envelope_some hx] at he
          rw [hpeak',envelope_some hx'] at he'
          cases he
          cases he'
          rw [henveloped]
          exact enveloped_le_iff.mpr (hkept havailable p p' hpeak hpeak')

/-- A kept envelope has no reasons if there are none without the observations. -/
theorem envelope_fits_kept (h : Option.Rel BudgetDrops budget budget')
    (hpeak : (∃ p,peak'=some p) → ∃ p,peak=some p)
    (hkept : budget'.bind (·.availableBytes)≠none → EnvelopeKept peak peak')
    (hunfit : (envelope name peak' budget').unsafeReasons=[])
    (hunknown : (envelope name peak' budget').unknownReasons=[]) :
    (envelope name peak budget).unsafeReasons=[] ∧
      (envelope name peak budget).unknownReasons=[] := by
  have havailable : budget'.bind (·.availableBytes)≠none := fun hnone =>
    (@envelope_none name peak' budget' (.inr hnone)).2.2 hunknown
  obtain ⟨b,b',x,rfl,rfl,hx,hx',hheadroom,henveloped⟩ := budget_kept h havailable
  cases hpeak' : peak' with
  | none =>
    exact absurd hunknown (envelope_none (.inl hpeak')).2.2
  | some p' =>
    obtain ⟨p,hp⟩ := hpeak ⟨p',hpeak'⟩
    have hle := (@enveloped_le_iff b p p').mpr (hkept havailable p p' hp hpeak')
    rw [hpeak',envelope_some hx',ite_eq_right_iff,henveloped,hheadroom] at hunfit
    rw [hp,envelope_some hx]
    refine ⟨?_,rfl⟩
    rw [ite_eq_right_iff]
    intro hless
    exact absurd (hunfit (by omega)) (List.cons_ne_nil _ _)

end Envelopes

section Assessments

variable {a a' : ProfileArtifact} {m m' : MemoryMeasurement} {capacity : MemoryAmounts}
variable {host host' : PhysicalBudget} {device device' : Option PhysicalBudget}
variable {policy : MlxFitPolicy}

/-- Missing observations leave no telemetry reason out. -/
theorem telemetry_drops (h : ArtifactDrops a a' m m')
    (hnil : telemetryReasons a'.key.backend m' capacity=[]) :
    telemetryReasons a.key.backend m capacity=[] := by
  rw [telemetryReasons_eq_nil,h.key] at hnil
  obtain ⟨hcompleted,hcaps,hphases,hphysical⟩ := hnil
  have hsamples := h.measurement.samples
  refine telemetryReasons_eq_nil.mpr ⟨h.measurement.completed.symm.trans hcompleted,?_,
    fun hbackend x hx hexecutes => ?_,fun hcuda hnone => hphysical hcuda ?_⟩
  · rw [←h.measurement.admissionCapacity]
    exact hcaps
  · obtain ⟨i,hi,rfl⟩ := List.getElem_of_mem hx
    have hxy := hsamples.get hi (hsamples.length_eq ▸ hi)
    have hphase := hxy.phase
    simp only [List.get_eq_getElem] at hxy hphase
    rw [←hphase] at hexecutes
    obtain ⟨s,hs,hscope⟩ := hphases hbackend _ (List.getElem_mem _) hexecutes
    rcases hxy.allocator with hsame|hmissing
    · exact ⟨s,hsame.symm.trans hs,hscope⟩
    · rw [hmissing] at hs
      cases hs
  · have hdrop := physical_drop h.measurement
    rw [hnone] at hdrop
    exact List.eq_nil_of_sublist_nil hdrop

/-- Missing observations leave the reservations as they are. -/
theorem reservation_drops (h : ArtifactDrops a a' m m')
    (hnil : reservationReasons m' capacity=[]) : reservationReasons m capacity=[] := by
  have hsamples := h.measurement.samples
  rw [reservationReasons_eq_nil] at hnil ⊢
  intro x hx field
  obtain ⟨i,hi,rfl⟩ := List.getElem_of_mem hx
  have hxy := hsamples.get hi (hsamples.length_eq ▸ hi)
  simp only [List.get_eq_getElem] at hxy
  have hfield := hnil _ (List.getElem_mem (hsamples.length_eq ▸ hi)) field
  unfold MemorySample.required at hfield ⊢
  rw [hxy.weights,hxy.cache,hxy.workspace] at hfield
  exact hfield

/-- A host peak remains only where there was one. -/
theorem hostPeak_drops (h : ArtifactDrops a a' m m') :
    (∃ p,(hostPeak a' m' policy).1=some p) → ∃ p,(hostPeak a m policy).1=some p := by
  intro hpeak
  refine hostPeak_some_iff.mpr fun hnil => hostPeak_some_iff.mp hpeak ?_
  have hvalues := hostValues_drop h.measurement
  rw [hnil] at hvalues
  exact List.eq_nil_of_sublist_nil hvalues

/-- The host peak is kept exactly when no larger observation is missing. -/
theorem hostEnvelope_kept_iff (h : ArtifactDrops a a' m m') :
    EnvelopeKept (hostPeak a m policy).1 (hostPeak a' m' policy).1 ↔
      (hostValues m'≠[] → HostKept a a' m m' policy) := by
  constructor
  · intro hkept hsome
    obtain ⟨p',hp'⟩ := hostPeak_some_iff.mpr hsome
    obtain ⟨p,hp⟩ := hostPeak_drops h ⟨p',hp'⟩
    exact (hostPeak_kept_iff h hsome hp hp').mp (hkept p p' hp hp')
  · intro hkept p p' hp hp'
    have hsome := hostPeak_some_iff.mp ⟨p',hp'⟩
    exact (hostPeak_kept_iff h hsome hp hp').mpr (hkept hsome)

/-- A device peak remains only where there was one. -/
theorem devicePeak_drops (h : MeasurementDrops m m') {backend : Backend} :
    (∃ p,(deviceValues backend m').max?=some p) → ∃ p,(deviceValues backend m).max?=some p := by
  rintro ⟨p,hp⟩
  refine exists_max? fun hnil => ?_
  have hvalues := deviceValues_drop h backend
  rw [hnil] at hvalues
  rw [List.eq_nil_of_sublist_nil hvalues] at hp
  cases hp

/-- The device peak is kept exactly when no larger observation is missing. -/
theorem devicePeak_kept_iff (h : MeasurementDrops m m') {backend : Backend} :
    EnvelopeKept (deviceValues backend m).max? (deviceValues backend m').max? ↔
      (deviceValues backend m'≠[] →
        Reached (deviceValues backend m) (deviceValues backend m')) := by
  constructor
  · intro hkept hsome
    obtain ⟨p',hp'⟩ := exists_max? hsome
    obtain ⟨p,hp⟩ := devicePeak_drops h ⟨p',hp'⟩
    exact (reached_iff hp hp').mpr (hkept p p' hp hp')
  · intro hreached p p' hp hp'
    have hsome : deviceValues backend m'≠[] := fun hnil => by
      rw [hnil] at hp'
      cases hp'
    exact (reached_iff hp hp').mp (hreached hsome)

/-- The device envelope is kept under the same condition, on CUDA. -/
theorem deviceEnvelope_kept_iff (h : MeasurementDrops m m')
    (hdevice : Option.Rel BudgetDrops device device') {backend : Backend} :
    EnvelopeKept (deviceEnvelope backend m device).needed
        (deviceEnvelope backend m' device').needed ↔
      (backend=.cuda → device'.bind (·.availableBytes)≠none → deviceValues .cuda m'≠[] →
        Reached (deviceValues .cuda m) (deviceValues .cuda m')) := by
  unfold deviceEnvelope
  by_cases hcuda : backend=.cuda
  · rw [if_pos hcuda,if_pos hcuda,envelope_kept_iff hdevice,devicePeak_kept_iff h,hcuda]
    exact ⟨fun hkept _ => hkept,fun hkept => hkept rfl⟩
  · rw [if_neg hcuda,if_neg hcuda]
    exact ⟨fun _ h => absurd h hcuda,fun _ x y hx => nofun⟩

/-- A fit that is safe without the observations is safe with them, if they were
not larger than what remains. -/
theorem fits_drops (h : ArtifactDrops a a' m m') (hhost : BudgetDrops host host')
    (hdevice : Option.Rel BudgetDrops device device')
    (hhostKept : host'.availableBytes≠none → hostValues m'≠[] → HostKept a a' m m' policy)
    (hdeviceKept : a.key.backend=.cuda → device'.bind (·.availableBytes)≠none →
      deviceValues .cuda m'≠[] → Reached (deviceValues .cuda m) (deviceValues .cuda m'))
    (hfits : (assessMemory a' m' capacity host' device' policy).status=.fits) :
    (assessMemory a m capacity host device policy).status=.fits := by
  obtain ⟨⟨hreserved,htelemetry⟩,⟨hunfit,hunknown⟩,hunfit',hunknown'⟩ := status_fits_iff.mp hfits
  refine status_fits_iff.mpr ⟨⟨reservation_drops h hreserved,telemetry_drops h htelemetry⟩,
    envelope_fits_kept (.some hhost) (hostPeak_drops h)
      (fun havailable => (hostEnvelope_kept_iff h).mpr (hhostKept havailable)) hunfit hunknown,?_⟩
  rw [h.key] at hunfit' hunknown'
  unfold deviceEnvelope at hunfit' hunknown' ⊢
  by_cases hcuda : a.key.backend=.cuda
  · rw [if_pos hcuda] at hunfit' hunknown' ⊢
    refine envelope_fits_kept hdevice (devicePeak_drops h.measurement) (fun havailable => ?_)
      hunfit' hunknown'
    rw [hcuda]
    exact (devicePeak_kept_iff h.measurement).mpr (hdeviceKept hcuda havailable)
  · rw [if_neg hcuda]
    exact ⟨rfl,rfl⟩

/-- What `assess_fit` makes of an exercise with observations missing: the fit
does not become safe, and envelopes that are still reported are not smaller. -/
structure NeverSafer (r r' : FitResult) : Prop where
  status : r'.status=.fits → r.status=.fits
  host : EnvelopeKept r.hostEnvelopeBytes r'.hostEnvelopeBytes
  device : EnvelopeKept r.deviceEnvelopeBytes r'.deviceEnvelopeBytes

/-- A missing observation never makes a fit safer, if and only if what is
missing was not larger than everything of its kind that remains: on the host,
and on a CUDA device. -/
theorem missing_never_safer_iff (h : ArtifactDrops a a' m m') (hhost : BudgetDrops host host')
    (hdevice : Option.Rel BudgetDrops device device') {r r' : FitResult}
    (hr : assessFit a capacity host device policy=.ok r)
    (hr' : assessFit a' capacity host' device' policy=.ok r') :
    NeverSafer r r' ↔
      (host'.availableBytes≠none → hostValues m'≠[] → HostKept a a' m m' policy) ∧
      (a.key.backend=.cuda → device'.bind (·.availableBytes)≠none → deviceValues .cuda m'≠[] →
        Reached (deviceValues .cuda m) (deviceValues .cuda m')) := by
  unfold assessFit at hr hr'
  rw [h.before] at hr
  rw [h.after] at hr'
  cases hr
  cases hr'
  obtain ⟨hhostPart,hdevicePart,-⟩ := @assessMemory_parts a m capacity host device policy
  obtain ⟨hhostPart',hdevicePart',-⟩ := @assessMemory_parts a' m' capacity host' device' policy
  have hhostIff := @envelope_kept_iff "host/unified" (hostPeak a m policy).1
    (hostPeak a' m' policy).1 (some host) (some host') (.some hhost)
  rw [hostEnvelope_kept_iff h] at hhostIff
  have hdeviceIff := @deviceEnvelope_kept_iff m m' device device' h.measurement hdevice
    a.key.backend
  rw [h.key] at hdevicePart'
  constructor
  · intro hsafer
    have hhostSafer := hsafer.host
    have hdeviceSafer := hsafer.device
    rw [hhostPart,hhostPart'] at hhostSafer
    rw [hdevicePart,hdevicePart'] at hdeviceSafer
    exact ⟨hhostIff.mp hhostSafer,hdeviceIff.mp hdeviceSafer⟩
  · rintro ⟨hhostKept,hdeviceKept⟩
    refine ⟨fits_drops h hhost hdevice hhostKept hdeviceKept,?_,?_⟩
    · rw [hhostPart,hhostPart']
      exact hhostIff.mpr hhostKept
    · rw [hdevicePart,hdevicePart']
      exact hdeviceIff.mpr hdeviceKept

/-- The last peak of an exercise on the CPU is missing. -/
theorem cpuArtifact_drops (peak : Option ℕ) :
    ArtifactDrops (cpuArtifact peak) (cpuArtifact none) (cpuExercise peak) (cpuExercise none) := by
  have hsample : ∀ phase p q,Dropped p q → SampleDrops (cpuSample phase p) (cpuSample phase q) :=
    fun phase p q hdrop =>
      ⟨rfl,rfl,rfl,rfl,rfl,rfl,rfl,.inl rfl,.inl rfl,hdrop,.inl rfl⟩
  refine ⟨rfl,rfl,rfl,rfl,rfl,rfl,?_,.cons ⟨.inl rfl,.inl rfl⟩ .nil,rfl,rfl⟩
  refine List.forall₂_map_left_iff.mpr (List.forall₂_map_right_iff.mpr
    (List.forall₂_same.mpr fun phase _ => ?_))
  by_cases hphase : phase=.unload
  · rw [if_pos hphase,if_pos hphase]
    exact hsample phase peak none (.inr rfl)
  · rw [if_neg hphase,if_neg hphase]
    exact hsample phase _ _ (.inl rfl)

/-- A missing peak that was no larger than the others makes no difference. -/
theorem cpuArtifact_never_safer :
    NeverSafer (assessMemory (cpuArtifact (some 100)) (cpuExercise (some 100)) noMemory
      (cpuBudget 500) none .conservative) (assessMemory (cpuArtifact none) (cpuExercise none)
      noMemory (cpuBudget 500) none .conservative) := by
  refine (missing_never_safer_iff (cpuArtifact_drops (some 100)) ⟨.inl rfl,rfl,rfl,rfl⟩ .none
    rfl rfl).mpr ⟨fun _ _ => ⟨fun _ => ⟨?_,nofun⟩,fun h => ?_,fun h => ?_⟩,nofun⟩
  · unfold Reached
    decide
  · cases h.1
  · cases h.1

/-- A missing peak that was the largest makes an unsafe fit safe and lowers its
envelope, in an artifact that is valid before and after. -/
theorem largest_peak_missing :
    (verifyMemory (cpuArtifact (some 1000)) (cpuExercise (some 1000))=.ok () ∧
      verifyMemory (cpuArtifact none) (cpuExercise none)=.ok () ∧
      ArtifactDrops (cpuArtifact (some 1000)) (cpuArtifact none) (cpuExercise (some 1000))
        (cpuExercise none)) ∧
    ((assessMemory (cpuArtifact (some 1000)) (cpuExercise (some 1000)) noMemory (cpuBudget 500)
        none .conservative).status=.exceeds ∧
      (assessMemory (cpuArtifact none) (cpuExercise none) noMemory (cpuBudget 500) none
        .conservative).status=.fits) ∧
    (assessMemory (cpuArtifact (some 1000)) (cpuExercise (some 1000)) noMemory (cpuBudget 500)
        none .conservative).hostEnvelopeBytes=some 1100 ∧
      (assessMemory (cpuArtifact none) (cpuExercise none) noMemory (cpuBudget 500) none
        .conservative).hostEnvelopeBytes=some 110 :=
  ⟨⟨by decide +kernel,by decide +kernel,cpuArtifact_drops _⟩,
    ⟨by decide +kernel,by decide +kernel⟩,by decide +kernel,by decide +kernel⟩

end Assessments

end Hllm.FitTelemetry
