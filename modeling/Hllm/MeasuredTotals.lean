import Hllm.MeasuredEvaluation
import Hllm.PlannerRanking
import Hllm.Traversals

/-!
# Totals of measured placements

A validated compute run has one whole-stage record for each step of each cycle
and one for the allocation, and a validated link run one exchange. So no median
of an evaluation is empty, its lists have one entry for each output token, and
its sums add up. What remains to fail is the conversion of a byte count.
-/

namespace Hllm.MeasuredTotals

open FitComparisons (cpuBudget cpuSample memoryPhases noMemory)
open LinkProbe (ProbeIdentity)
open LinkQualification (LinkResult LinkSample)
open MeasuredEvaluation MeasuredProfiles Traversals
open MemoryAccounting (call_bind check_iff)
open PlannerModels (DType ModelManifest Raised WorkloadProfile)
open PlannerRanking (sampleDigest sampleManifest sampleWorker sampleWorkload)
open SweepModel (PerformanceEstimate median)
open WireMessages (StageAssignment)

deriving instance DecidableEq for Raised

section Runs

/-- A completed run of a validated artifact passed its checks. -/
theorem validated_run {p : ProfileArtifact} {m : ComputeRunMeasurement}
    (hm : p.measurement=.computeRun m) (hdone : m.completed=true) :
    validateComputeRun p.key p.conditions m=.ok () := by
  have h := p.verified
  unfold ArtifactFields.verify at h
  rw [check_iff,check_iff] at h
  obtain ⟨-,-,h⟩ := h
  simp only [hm] at h
  rw [check_iff,if_pos hdone] at h
  exact h.2

variable {key : ProfileKey} {conditions : Conditions} {m : ComputeRunMeasurement}

/-- What the checks of a run are. -/
theorem validate_ok (h : validateComputeRun key conditions m=.ok ()) :
    (∀ r∈m.records,checkRecord (conditions.warmupCycles+conditions.measuredCycles)
      key.workload r=.ok ()) ∧
    ∀ cycle < conditions.warmupCycles+(conditions.measuredCycles : ℕ),
      ∀ execution∈executions key.workload,
        checkExecution key m cycle .wholeStage execution=.ok () := by
  unfold validateComputeRun at h
  rw [check_iff,call_bind] at h
  obtain ⟨-,_,hrecords,hcycles⟩ := h
  refine ⟨forM_ok_iff.mp hrecords,fun cycle hcycle execution hexecution => ?_⟩
  have hcycle := forM_ok_iff.mp hcycles cycle (List.mem_range.mpr hcycle)
  have hmode := forM_ok_iff.mp hcycle .wholeStage (.head _)
  exact forM_ok_iff.mp hmode execution hexecution

/-- A checked record of an unchunked workload. -/
theorem record_ok {cycles : ℕ} {w : WorkloadProfile} {r : TimingRecord}
    (hwhole : w.prefillChunkTokens=0) (h : checkRecord cycles w r=.ok ()) :
    r.cycle < cycles ∧ r.step < (w.outputTokens : ℕ) ∧ r.chunkIndex=none := by
  unfold checkRecord at h
  rw [check_iff,check_iff] at h
  obtain ⟨hinside,hchunk,-⟩ := h
  rw [not_or,not_le,not_le] at hinside
  refine ⟨hinside.1,hinside.2,?_⟩
  rw [not_or,not_not] at hchunk
  have hsome := hchunk.1
  simp only [hwhole,ne_eq,not_true,false_and,decide_false] at hsome
  simpa using hsome

/-- The components of a checked execution are the expected ones. -/
theorem execution_perm {cycle : ℕ} {mode : TimingMode} {execution : ℕ×Option ℕ}
    (h : checkExecution key m cycle mode execution=.ok ())
    (hnodup : (expectedComponents key mode execution).Nodup) :
    ((indexed m cycle mode execution).map fun r => (r.component,r.layerIndex)).Perm
      (expectedComponents key mode execution) := by
  unfold checkExecution at h
  rw [check_iff] at h
  obtain ⟨hsame,-⟩ := h
  rw [not_or,not_not,not_not] at hsame
  obtain ⟨⟨-,hback⟩,hlength⟩ := hsame
  exact ((hnodup.subperm hback).perm_of_length_le hlength.le).symm

/-- What a whole-stage pass is expected to record. -/
theorem expected_whole (step : ℕ) : expectedComponents key .wholeStage (step,none)=
    (.stage,none)::if step=0 then [(.sequenceAllocation,none)] else [] := by
  unfold expectedComponents
  simp only [Option.getD_none,and_true,List.append_nil,List.singleton_append]

/-- The steps of an unchunked workload are executed. -/
theorem mem_executions {w : WorkloadProfile} (hwhole : w.prefillChunkTokens=0) {step : ℕ}
    (hstep : step < (w.outputTokens : ℕ)) : (step,none)∈executions w := by
  unfold executions
  rcases Nat.eq_zero_or_pos step with rfl | hpositive
  · refine List.mem_append_left _ (List.mem_map.mpr ⟨0,?_,?_⟩)
    · rw [chunks,if_pos hwhole]
      exact List.mem_range.mpr Nat.one_pos
    · rw [if_pos hwhole]
  · refine List.mem_append_right _ (List.mem_map.mpr ⟨step,?_,rfl⟩)
    rw [List.mem_range'_1]
    omega

/-- Rows of one component as entries of the recorded components. -/
theorem length_component {rows : List TimingRecord} (component : TimingComponent) :
    (rows.filter fun r => decide (r.component=component)).length=
      ((rows.map fun r => (r.component,r.layerIndex)).filter fun entry =>
        decide (entry.1=component)).length := by
  rw [List.filter_map,List.length_map]
  rfl

/-- Each whole-stage pass records its stage once, and the allocation once in the
first step. -/
theorem indexed_once (hwhole : key.workload.prefillChunkTokens=0)
    (h : validateComputeRun key conditions m=.ok ()) {cycle step : ℕ}
    (hcycle : cycle < conditions.warmupCycles+(conditions.measuredCycles : ℕ))
    (hstep : step < (key.workload.outputTokens : ℕ)) :
    ((indexed m cycle .wholeStage (step,none)).filter fun r =>
        decide (r.component=.stage)).length=1 ∧
      ((indexed m cycle .wholeStage (step,none)).filter fun r =>
        decide (r.component=.sequenceAllocation)).length=if step=0 then 1 else 0 := by
  have hchecked := (validate_ok h).2 cycle hcycle _ (mem_executions hwhole hstep)
  have hperm := execution_perm hchecked (by
    rw [expected_whole]
    split <;> decide)
  rw [expected_whole] at hperm
  rw [length_component,length_component,(hperm.filter _).length_eq,
    (hperm.filter _).length_eq]
  split
  · exact ⟨rfl,rfl⟩
  · exact ⟨rfl,rfl⟩

end Runs

section Rows

/-- Values that occur once for each number of an interval, and for no other. -/
theorem perm_interval {α : Type} {rows : List α} {f : α → ℕ} {start n : ℕ}
    (hinside : ∀ r∈rows,start ≤ f r ∧ f r < start+n)
    (honce : ∀ c,start ≤ c → c < start+n → (rows.filter fun r => decide (f r=c)).length=1) :
    (rows.map f).Perm (List.range' start n) := by
  rw [List.perm_iff_count]
  intro c
  have hcount : (rows.map f).count c=(rows.filter fun r => decide (f r=c)).length := by
    rw [List.count_eq_countP,List.countP_map,List.countP_eq_length_filter]
    rfl
  rw [hcount,List.Nodup.count List.nodup_range']
  by_cases hc : start ≤ c ∧ c < start+n
  · rw [if_pos (List.mem_range'_1.mpr hc)]
    exact honce c hc.1 hc.2
  · rw [if_neg (fun hmem => hc (List.mem_range'_1.mp hmem)),List.length_eq_zero_iff,
      List.filter_eq_nil_iff]
    intro r hr hcycle
    rw [←of_decide_eq_true hcycle] at hc
    exact hc (hinside r hr)

variable {p : ProfileArtifact} {m : ComputeRunMeasurement}

/-- The records of one pass among those of the measured cycles. -/
theorem rows_of_pass (hwhole : p.key.workload.prefillChunkTokens=0)
    (h : validateComputeRun p.key p.conditions m=.ok ()) {cycle : ℕ} (step : ℕ)
    (component : TimingComponent) (hcycle : p.conditions.warmupCycles ≤ cycle) :
    ((stageRows p m).filter fun r => decide (r.component=component ∧ r.step=step)).filter
        (fun r => decide (r.cycle=cycle))=
      (indexed m cycle .wholeStage (step,none)).filter
        fun r => decide (r.component=component) := by
  unfold stageRows indexed
  rw [List.filter_filter,List.filter_filter,List.filter_filter]
  refine List.filter_congr fun r hr => ?_
  have hchunk := (record_ok hwhole ((validate_ok h).1 r hr)).2.2
  simp only [hchunk,Prod.mk.injEq,and_true,←Bool.decide_and,decide_eq_decide]
  constructor
  · rintro ⟨⟨hc,hcomponent,hs⟩,-,hmode⟩
    exact ⟨hcomponent,hc,hmode,hs⟩
  · rintro ⟨hcomponent,hc,hmode,hs⟩
    exact ⟨⟨hc,hcomponent,hs⟩,hc ▸ hcycle,hmode⟩

/-- Records of the measured cycles are within them. -/
theorem stageRows_inside (hwhole : p.key.workload.prefillChunkTokens=0)
    (h : validateComputeRun p.key p.conditions m=.ok ()) {r : TimingRecord}
    (hr : r∈stageRows p m) : p.conditions.warmupCycles ≤ r.cycle ∧
      r.cycle < p.conditions.warmupCycles+(p.conditions.measuredCycles : ℕ) := by
  obtain ⟨hmem,hkept⟩ := List.mem_filter.mp hr
  exact ⟨(of_decide_eq_true hkept).1,(record_ok hwhole ((validate_ok h).1 r hmem)).1⟩

/-- A step has one record in each measured cycle. -/
theorem stepRows_cycles (hwhole : p.key.workload.prefillChunkTokens=0)
    (h : validateComputeRun p.key p.conditions m=.ok ()) {step : ℕ}
    (hstep : step < (p.key.workload.outputTokens : ℕ)) :
    ((stepRows p m step).map (·.cycle)).Perm
      (List.range' p.conditions.warmupCycles p.conditions.measuredCycles) := by
  refine perm_interval (fun r hr => stageRows_inside hwhole h (List.mem_of_mem_filter hr)) ?_
  intro c hlow hhigh
  rw [stepRows,rows_of_pass hwhole h step .stage hlow]
  exact (indexed_once hwhole h hhigh hstep).1

/-- Allocations are recorded in the first step. -/
theorem allocation_step (hwhole : p.key.workload.prefillChunkTokens=0)
    (h : validateComputeRun p.key p.conditions m=.ok ()) :
    allocationRows p m=(stageRows p m).filter fun r =>
      decide (r.component=.sequenceAllocation ∧ r.step=0) := by
  unfold allocationRows
  refine List.filter_congr fun r hr => ?_
  rw [decide_eq_decide]
  refine ⟨fun hcomponent => ⟨hcomponent,?_⟩,fun hboth => hboth.1⟩
  obtain ⟨hmem,hkept⟩ := List.mem_filter.mp hr
  obtain ⟨hcycle,hstep,hchunk⟩ := record_ok hwhole ((validate_ok h).1 r hmem)
  have hrow : r∈(indexed m r.cycle .wholeStage (r.step,none)).filter
      fun r => decide (r.component=.sequenceAllocation) := by
    refine List.mem_filter.mpr ⟨List.mem_filter.mpr ⟨hmem,decide_eq_true ?_⟩,
      decide_eq_true hcomponent⟩
    rw [(of_decide_eq_true hkept).2,hchunk]
  by_contra hlater
  have hnone := (indexed_once hwhole h hcycle hstep).2
  rw [if_neg hlater,List.length_eq_zero_iff] at hnone
  rw [hnone] at hrow
  exact List.not_mem_nil hrow

/-- The allocation has one record in each measured cycle. -/
theorem allocationRows_cycles (hwhole : p.key.workload.prefillChunkTokens=0)
    (h : validateComputeRun p.key p.conditions m=.ok ()) :
    ((allocationRows p m).map (·.cycle)).Perm
      (List.range' p.conditions.warmupCycles p.conditions.measuredCycles) := by
  rw [allocation_step hwhole h]
  refine perm_interval (fun r hr => stageRows_inside hwhole h (List.mem_of_mem_filter hr)) ?_
  intro c hlow hhigh
  rw [rows_of_pass hwhole h 0 .sequenceAllocation hlow]
  exact (indexed_once hwhole h hhigh p.key.workload.outputTokens.pos).2

end Rows

section Exchanges

/-- A validated link run has its exchanges in order. -/
theorem samples_of_valid {r : LinkResult} (h : r.validate=.ok ()) :
    r.samples.map (fun s => (s.cycle,s.step))=
      (LinkQualification.range (r.warmupCycles+r.measuredCycles)).flatMap
        (fun c => (LinkQualification.range r.outputTokens).map (Prod.mk c)) ∧
      (0 ≤ r.warmupCycles ∧ 1 ≤ r.measuredCycles) ∧
      ∀ s∈r.samples,0 ≤ s.senderEncodeMs ∧ 0 ≤ s.roundTripMs := by
  unfold LinkResult.validate at h
  rw [check_iff] at h
  obtain ⟨haccepted,hcomplete⟩ := h
  rw [Bool.not_eq_false] at haccepted
  unfold LinkResult.completeSamples at hcomplete
  rw [check_iff,check_iff,check_iff] at hcomplete
  obtain ⟨-,-,hsamples,-⟩ := hcomplete
  simp only [LinkResult.accepted,Bool.and_eq_true,decide_eq_true_eq,List.all_eq_true]
    at haccepted
  obtain ⟨⟨⟨⟨⟨-,hfields⟩,-⟩,-⟩,-⟩,-⟩ := haccepted.1
  refine ⟨not_not.mp hsamples,⟨haccepted.1.2.1,haccepted.2.1⟩,fun s hs => ?_⟩
  have hsample := hfields s hs
  simp only [LinkSample.accepted,Bool.and_eq_true,decide_eq_true_eq] at hsample
  exact ⟨hsample.1.2,hsample.2⟩

/-- The numbers of a range, each once. -/
theorem mem_range {stop c : ℤ} : c∈LinkQualification.range stop ↔ 0 ≤ c ∧ c < stop := by
  unfold LinkQualification.range
  rw [List.mem_map]
  constructor
  · rintro ⟨n,hn,rfl⟩
    have hlt := List.mem_range.mp hn
    simp only [Int.ofNat_eq_natCast]
    omega
  · rintro ⟨hlow,hhigh⟩
    refine ⟨c.toNat,List.mem_range.mpr (by omega),?_⟩
    simp only [Int.ofNat_eq_natCast]
    omega

/-- One step of one cycle among the steps of it. -/
theorem filter_steps {outputTokens : ℤ} {step : ℕ} (hstep : (step : ℤ) < outputTokens)
    (warmup c : ℤ) : ((LinkQualification.range outputTokens).map (Prod.mk c)).filter
        (fun entry => decide (warmup ≤ entry.1 ∧ entry.2=(step : ℤ)))=
      if warmup ≤ c then [(c,(step : ℤ))] else [] := by
  rw [List.filter_map]
  by_cases hc : warmup ≤ c
  · rw [if_pos hc]
    have hone : (LinkQualification.range outputTokens).filter
        ((fun entry : ℤ×ℤ => decide (warmup ≤ entry.1 ∧ entry.2=(step : ℤ)))∘Prod.mk c)=
        [(step : ℤ)] := by
      have hnodup : (LinkQualification.range outputTokens).Nodup :=
        List.nodup_range.map fun a b h => Int.ofNat.inj h
      have hperm : [(step : ℤ)].Perm ((LinkQualification.range outputTokens).filter
          ((fun entry : ℤ×ℤ => decide (warmup ≤ entry.1 ∧ entry.2=(step : ℤ)))∘Prod.mk c)) := by
        refine (List.perm_ext_iff_of_nodup (List.nodup_singleton _) (hnodup.filter _)).mpr ?_
        intro s
        rw [List.mem_singleton,List.mem_filter,mem_range]
        simp only [Function.comp_apply,hc,true_and,decide_eq_true_eq]
        constructor
        · rintro rfl
          exact ⟨⟨by omega,hstep⟩,rfl⟩
        · exact fun h => h.2
      exact List.perm_singleton.mp hperm.symm
    rw [hone]
    rfl
  · rw [if_neg hc,List.map_eq_nil_iff,List.filter_eq_nil_iff]
    intro s _
    simp only [Function.comp_apply,hc,false_and,decide_false,Bool.false_eq_true,
      not_false_eq_true]

/-- A step has one exchange in each measured cycle. -/
theorem exchangeRows_cycles {r : LinkResult} (h : r.validate=.ok ()) {step : ℕ}
    (hstep : (step : ℤ) < r.outputTokens) :
    (exchangeRows r step).map (·.cycle)=
      (LinkQualification.range (r.warmupCycles+r.measuredCycles)).filter
        fun c => decide (r.warmupCycles ≤ c) := by
  have hpairs : ((exchangeRows r step).map (·.cycle))=
      ((r.samples.map fun s => (s.cycle,s.step)).filter fun entry =>
        decide (r.warmupCycles ≤ entry.1 ∧ entry.2=(step : ℤ))).map Prod.fst := by
    rw [List.filter_map,List.map_map]
    rfl
  rw [hpairs,(samples_of_valid h).1,List.filter_flatMap,List.map_flatMap]
  generalize LinkQualification.range (r.warmupCycles+r.measuredCycles)=cycles
  induction cycles with
  | nil => rfl
  | cons c cycles ih =>
    rw [List.flatMap_cons,ih,filter_steps hstep,List.filter_cons]
    by_cases hc : r.warmupCycles ≤ c
    · rw [if_pos hc,if_pos (decide_eq_true hc)]
      rfl
    · rw [if_neg hc,if_neg (by simpa using hc)]
      rfl

end Exchanges

section Costs

/-- A computation that went on. -/
theorem ok_bind {α β : Type} (a : α) (f : α → Except Raised β) : (Except.ok a >>= f)=f a := rfl

/-- A median of something. -/
theorem medianOf_ok {values : List ℚ} (h : values≠[]) : medianOf values=.ok (median values) := by
  rw [medianOf,if_neg h]

/-- Lists of one length are added. -/
theorem zipSum_ok {first second : List ℚ} (h : first.length=second.length) :
    zipSum first second=.ok (List.zipWith (· + ·) first second) := by
  rw [zipSum,if_neg (by omega),if_neg (by omega)]

/-- A sum of sums. -/
theorem sum_zipWith_add {xs ys : List ℚ} (h : xs.length=ys.length) :
    (List.zipWith (· + ·) xs ys).sum=xs.sum+ys.sum := by
  induction xs generalizing ys with
  | nil =>
    rw [List.eq_nil_of_length_eq_zero h.symm,List.zipWith_nil_left,List.sum_nil,add_zero]
  | cons x xs ih =>
    cases ys with
    | nil => cases h
    | cons y ys =>
      rw [List.zipWith_cons_cons,List.sum_cons,List.sum_cons,List.sum_cons,
        ih (Nat.succ.inj h)]
      ring

/-- The median of the allocation. -/
def allocationMedian (p : ProfileArtifact) (m : ComputeRunMeasurement) : ℚ :=
  median ((allocationRows p m).map (·.milliseconds))

/-- The median of a step. -/
def stepMedian (p : ProfileArtifact) (m : ComputeRunMeasurement) (step : ℕ) : ℚ :=
  median ((stepRows p m step).map (·.milliseconds))

/-- The median of a boundary step. -/
def exchangeMedian (r : LinkResult) (step : ℕ) : ℚ :=
  median ((exchangeRows r step).map fun s => s.senderEncodeMs+s.roundTripMs)

/-- A qualified compute run of an unchunked workload. -/
structure QualifiedRun (workload : WorkloadProfile) (p : ProfileArtifact)
    (m : ComputeRunMeasurement) : Prop where
  measurement : p.measurement=.computeRun m
  completed : m.completed=true
  scope : p.key.workload=workload
  unchunked : workload.prefillChunkTokens=0

variable {workload : WorkloadProfile} {p : ProfileArtifact} {m : ComputeRunMeasurement}

/-- A list whose keys are those of a nonempty interval is not empty. -/
theorem ne_nil_of_perm {α : Type} {rows : List α} {f : α → ℕ} {start : ℕ} {n : ℕ+}
    (h : (rows.map f).Perm (List.range' start n)) : rows≠[] := by
  rintro rfl
  have hlength := h.length_eq
  rw [List.map_nil,List.length_nil,List.length_range'] at hlength
  exact n.ne_zero hlength.symm

/-- The rows of a qualified run, one in each measured cycle. -/
theorem QualifiedRun.cycles (h : QualifiedRun workload p m) :
    ((allocationRows p m).map (·.cycle)).Perm
        (List.range' p.conditions.warmupCycles p.conditions.measuredCycles) ∧
      ∀ step < (workload.outputTokens : ℕ),((stepRows p m step).map (·.cycle)).Perm
        (List.range' p.conditions.warmupCycles p.conditions.measuredCycles) := by
  have hwhole : p.key.workload.prefillChunkTokens=0 := by
    rw [h.scope]
    exact h.unchunked
  have hvalid := validated_run h.measurement h.completed
  refine ⟨allocationRows_cycles hwhole hvalid,fun step hstep => ?_⟩
  rw [←h.scope] at hstep
  exact stepRows_cycles hwhole hvalid hstep

/-- The medians of a qualified run exist. -/
theorem stageCost_ok (h : QualifiedRun workload p m) :
    stageCost workload p=.ok ⟨allocationMedian p m,
      (List.range workload.outputTokens).map (stepMedian p m)⟩ := by
  obtain ⟨hallocation,hsteps⟩ := h.cycles
  have hmedians : (List.range workload.outputTokens).mapM (fun step =>
      medianOf ((stepRows p m step).map (·.milliseconds)))=
      .ok ((List.range workload.outputTokens).map (stepMedian p m)) := by
    refine mapM_ok_of fun step hstep => medianOf_ok ?_
    rw [ne_eq,List.map_eq_nil_iff]
    exact ne_nil_of_perm (hsteps step (List.mem_range.mp hstep))
  have hmedian : medianOf ((allocationRows p m).map (·.milliseconds))=
      .ok (allocationMedian p m) := by
    refine medianOf_ok ?_
    rw [ne_eq,List.map_eq_nil_iff]
    exact ne_nil_of_perm hallocation
  simp only [stageCost,h.measurement,hmedian,hmedians]
  rfl

/-- The components of a stage. -/
def stageComponents (workload : WorkloadProfile) (p : ProfileArtifact)
    (m : ComputeRunMeasurement) : List (String×ℚ) :=
  [(p.key.assignment.workerId++".allocation",allocationMedian p m),
    (p.key.assignment.workerId++".prefill",stepMedian p m 0),
    (p.key.assignment.workerId++".decode",
      ((List.range workload.outputTokens).map (stepMedian p m)).tail.sum)]

/-- A list over the steps of a workload begins with that of step zero. -/
theorem first_steps (f : ℕ → ℚ) :
    first ((List.range workload.outputTokens).map f)=.ok (f 0) := by
  obtain ⟨n,hn⟩ := Nat.exists_eq_succ_of_ne_zero workload.outputTokens.ne_zero
  rw [hn,List.range_succ_eq_map]
  rfl

/-- A qualified run adds its medians. -/
theorem addStage_ok (h : QualifiedRun workload p m) {totals : Totals}
    (hlength : totals.stageSteps.length=(workload.outputTokens : ℕ)) :
    addStage workload totals p=.ok ⟨totals.allocation+allocationMedian p m,
      List.zipWith (· + ·) totals.stageSteps
        ((List.range workload.outputTokens).map (stepMedian p m)),
      update totals.components (stageComponents workload p m)⟩ := by
  have hzip := @zipSum_ok totals.stageSteps
    ((List.range workload.outputTokens).map (stepMedian p m))
    (by rw [List.length_map,List.length_range,hlength])
  simp only [addStage,stageCost_ok h]
  change (zipSum totals.stageSteps ((List.range workload.outputTokens).map (stepMedian p m)) >>=
    fun stageSteps => first ((List.range workload.outputTokens).map (stepMedian p m)) >>=
    fun prefill => _)=_
  rw [hzip,first_steps]
  rfl

/-- The exchanges of a link run for the workload, one in each measured cycle. -/
theorem boundarySteps_ok {r : LinkResult} (h : r.validate=.ok ())
    (houtput : r.outputTokens=(workload.outputTokens : ℕ)) :
    boundarySteps workload r=.ok ((List.range workload.outputTokens).map (exchangeMedian r)) := by
  refine mapM_ok_of fun step hstep => medianOf_ok ?_
  have hlt := List.mem_range.mp hstep
  have hcycles := @exchangeRows_cycles r h step (by omega)
  have hbounds := (samples_of_valid h).2.1
  rw [ne_eq,List.map_eq_nil_iff]
  intro hnone
  rw [hnone,List.map_nil] at hcycles
  have hmem : r.warmupCycles∈(LinkQualification.range (r.warmupCycles+r.measuredCycles)).filter
      fun c => decide (r.warmupCycles ≤ c) :=
    List.mem_filter.mpr ⟨mem_range.mpr ⟨hbounds.1,by omega⟩,decide_eq_true (le_refl _)⟩
  rw [←hcycles] at hmem
  exact List.not_mem_nil hmem

/-- A median of nonnegative numbers. -/
theorem median_nonneg {values : List ℚ} (h : ∀ v∈values,0 ≤ v) : 0 ≤ median values := by
  have hsorted : ∀ i,0 ≤ (values.insertionSort (· ≤ ·)).getD i 0 := by
    intro i
    rw [List.getD_eq_getElem?_getD]
    cases hi : (values.insertionSort (· ≤ ·))[i]? with
    | none => exact le_refl 0
    | some v => exact h v ((List.perm_insertionSort _ _).mem_iff.mp (List.mem_of_getElem? hi))
  unfold median
  dsimp only
  split
  · exact hsorted _
  · have hlow := hsorted ((values.insertionSort (· ≤ ·)).length/2-1)
    have hhigh := hsorted ((values.insertionSort (· ≤ ·)).length/2)
    linarith

/-- A median exchange takes no negative time. -/
theorem exchangeMedian_nonneg {r : LinkResult} (h : r.validate=.ok ()) (step : ℕ) :
    0 ≤ exchangeMedian r step := by
  refine median_nonneg fun v hv => ?_
  obtain ⟨s,hs,rfl⟩ := List.mem_map.mp hv
  obtain ⟨hencode,htrip⟩ := (samples_of_valid h).2.2 s (List.mem_of_mem_filter hs)
  exact add_nonneg hencode htrip

/-- Stage steps of two runs, added to zeros. -/
theorem zipWith_steps (n : ℕ) (f g : ℕ → ℚ) :
    List.zipWith (· + ·) (List.zipWith (· + ·) (List.replicate n 0) ((List.range n).map f))
      ((List.range n).map g)=(List.range n).map fun step => f step+g step := by
  refine List.ext_getElem (by simp) fun i hi hi' => ?_
  simp

/-- Tails of lists over the steps, added. -/
theorem zipWith_tails (n : ℕ) (f g : ℕ → ℚ) :
    List.zipWith (· + ·) ((List.range n).map f).tail ((List.range n).map g).tail=
      ((List.range n).map fun step => f step+g step).tail := by
  refine List.ext_getElem (by simp) fun i hi hi' => ?_
  simp

/-- Suffixes of the names of stage components. -/
def stageSuffixes : List String := [".allocation",".prefill",".decode"]

/-- A worker and a suffix are read back from a name. -/
theorem suffix_inj {a b s t : String} (hs : s∈stageSuffixes) (ht : t∈stageSuffixes)
    (h : a++s=b++t) : a=b ∧ s=t := by
  have hlist : a.toList++s.toList=b.toList++t.toList := by
    rw [←String.toList_append,h,String.toList_append]
  have hends : ∀ s∈stageSuffixes,s.toList.getLast?.isSome=true ∧
      ∀ t∈stageSuffixes,s.toList.getLast?=t.toList.getLast? → s=t := by decide
  have hlast := congrArg List.getLast? hlist
  rw [List.getLast?_append,List.getLast?_append,Option.or_of_isSome (hends s hs).1,
    Option.or_of_isSome (hends t ht).1] at hlast
  have hsame := (hends s hs).2 t ht hlast
  subst hsame
  exact ⟨String.toList_inj.mp (List.append_cancel_right hlist),rfl⟩

/-- The names of the components of two stages and of the whole are distinct. -/
theorem components_nodup {a b : String} (h : a≠b) :
    ((stageSuffixes.map (a++·)++stageSuffixes.map (b++·))++
      ["request_setup","boundary_prefill","boundary_decode"]).Nodup := by
  have hsuffixes : stageSuffixes.Nodup := by decide
  have hstage : ∀ c : String,(stageSuffixes.map (c++·)).Nodup := fun c =>
    List.Nodup.map_on (fun s hs t ht heq => (suffix_inj hs ht heq).2) hsuffixes
  have hdot : ∀ c,∀ name∈stageSuffixes.map (c++·),'.'∈name.toList := by
    intro c name hname
    obtain ⟨s,hs,rfl⟩ := List.mem_map.mp hname
    rw [String.toList_append]
    refine List.mem_append_right _ ?_
    have hall : ∀ s∈stageSuffixes,'.'∈s.toList := by decide
    exact hall s hs
  have hplain : ∀ name∈["request_setup","boundary_prefill","boundary_decode"],
      '.'∉name.toList := by decide
  refine List.Nodup.append (List.Nodup.append (hstage a) (hstage b) ?_) (by decide) ?_
  · intro name hfirst hsecond
    obtain ⟨s,hs,rfl⟩ := List.mem_map.mp hfirst
    obtain ⟨t,ht,heq⟩ := List.mem_map.mp hsecond
    exact h (suffix_inj ht hs heq).1.symm
  · intro name hnamed hfixed
    rcases List.mem_append.mp hnamed with hname | hname
    · exact hplain name hfixed (hdot a name hname)
    · exact hplain name hfixed (hdot b name hname)

/-- Medians of a stage and of the boundary, added step by step. -/
def stepTotal (a₁ : ProfileArtifact) (m₁ : ComputeRunMeasurement) (a₂ : ProfileArtifact)
    (m₂ : ComputeRunMeasurement) (r : LinkResult) (step : ℕ) : ℚ :=
  stepMedian a₁ m₁ step+stepMedian a₂ m₂ step+exchangeMedian r step

/-- The components of the whole. -/
def wholeComponents (workload : WorkloadProfile) (direction : DirectionEvidence)
    (r : LinkResult) : List (String×ℚ) :=
  [("request_setup",median direction.requestSetupSamplesMs),
    ("boundary_prefill",exchangeMedian r 0),
    ("boundary_decode",((List.range workload.outputTokens).map (exchangeMedian r)).tail.sum)]

/-- The estimate of two runs and a link, in closed form. -/
def exactEstimate (workload : WorkloadProfile) (found : Findings)
    (a₁ : ProfileArtifact) (m₁ : ComputeRunMeasurement) (a₂ : ProfileArtifact)
    (m₂ : ComputeRunMeasurement) (direction : DirectionEvidence) (r : LinkResult) :
    PerformanceEstimate :=
  let boundary := (List.range workload.outputTokens).map (exchangeMedian r)
  let decode := ((List.range workload.outputTokens).map (stepTotal a₁ m₁ a₂ m₂ r)).tail
  let ttft := median direction.requestSetupSamplesMs+
    (allocationMedian a₁ m₁+allocationMedian a₂ m₂)+(stepMedian a₁ m₁ 0+stepMedian a₂ m₂ 0)+
    exchangeMedian r 0
  {
    boundaryPrefillMs := exchangeMedian r 0
    boundaryDecodeMs := if boundary.tail=[] then 0 else median boundary.tail
    confidence := "exact-assignment-whole-stage; additive prediction, independently qualify"
    ttftMs := some ttft
    decodeMs := decode
    generationMs := some (ttft+decode.sum)
    componentsMs := stageComponents workload a₁ m₁++stageComponents workload a₂ m₂++
      wholeComponents workload direction r
    profileDigests := found.identities
    hostEnvelopeBytes := found.hostEnvelopes
    deviceEnvelopeBytes := found.deviceEnvelopes }

variable {found : Findings} {a₁ a₂ : ProfileArtifact} {m₁ m₂ : ComputeRunMeasurement}
  {direction : DirectionEvidence} {r : LinkResult}

/-- The components of two workers are kept apart. -/
theorem components_ok (hworkers : a₁.key.assignment.workerId≠a₂.key.assignment.workerId) :
    update (update (update [] (stageComponents workload a₁ m₁)) (stageComponents workload a₂ m₂))
        (wholeComponents workload direction r)=
      stageComponents workload a₁ m₁++stageComponents workload a₂ m₂++
        wholeComponents workload direction r := by
  have hnodup := components_nodup hworkers
  have hstages := (List.nodup_append.mp hnodup).1
  have hfirst : update [] (stageComponents workload a₁ m₁)=stageComponents workload a₁ m₁ :=
    OrderedDict.foldl_put_of_nodup (List.nodup_append.mp hstages).1
  have hsecond : update (stageComponents workload a₁ m₁) (stageComponents workload a₂ m₂)=
      stageComponents workload a₁ m₁++stageComponents workload a₂ m₂ :=
    OrderedDict.foldl_put_of_nodup hstages
  rw [hfirst,hsecond]
  refine OrderedDict.foldl_put_of_nodup ?_
  rw [List.map_append]
  exact hnodup

/-- The runs of two workers and a link give their estimate. -/
theorem estimate_ok (h₁ : QualifiedRun workload a₁ m₁) (h₂ : QualifiedRun workload a₂ m₂)
    (hworkers : a₁.key.assignment.workerId≠a₂.key.assignment.workerId)
    (hcomputes : found.computes=[a₁,a₂]) (hvalid : r.validate=.ok ())
    (houtput : r.outputTokens=(workload.outputTokens : ℕ)) :
    estimate workload found direction r=
      .ok (exactEstimate workload found a₁ m₁ a₂ m₂ direction r) := by
  let n : ℕ := workload.outputTokens
  have hzeros : (List.replicate n (0 : ℚ)).length=(workload.outputTokens : ℕ) :=
    List.length_replicate
  have hone := @addStage_ok workload a₁ m₁ h₁ ⟨0,List.replicate n 0,[]⟩ hzeros
  have htwo := @addStage_ok workload a₂ m₂ h₂ ⟨0+allocationMedian a₁ m₁,
    List.zipWith (· + ·) (List.replicate n 0) ((List.range n).map (stepMedian a₁ m₁)),
    update [] (stageComponents workload a₁ m₁)⟩ (by simp [n])
  have hsetup : medianOf direction.requestSetupSamplesMs=
      .ok (median direction.requestSetupSamplesMs) := by
    refine medianOf_ok fun hnone => ?_
    have hlength := direction.samples_range.1
    rw [hnone,List.length_nil] at hlength
    exact absurd hlength (by decide)
  have hboundary := @boundarySteps_ok workload r hvalid houtput
  have hdecode := @zipSum_ok
    ((List.range n).map fun step => stepMedian a₁ m₁ step+stepMedian a₂ m₂ step).tail
    ((List.range n).map (exchangeMedian r)).tail (by simp)
  rw [zipWith_tails] at hdecode
  have hnonneg : ¬(exchangeMedian r 0 < 0 ∨
      (if ((List.range n).map (exchangeMedian r)).tail=[] then 0
        else median ((List.range n).map (exchangeMedian r)).tail) < 0) := by
    rw [not_or,not_lt,not_lt]
    refine ⟨exchangeMedian_nonneg hvalid 0,?_⟩
    split
    · exact le_refl 0
    · refine median_nonneg fun v hv => ?_
      obtain ⟨step,-,rfl⟩ := List.mem_map.mp (List.mem_of_mem_tail hv)
      exact exchangeMedian_nonneg hvalid step
  have hrest : decodeMedian ((List.range n).map (exchangeMedian r))=
      .ok (if ((List.range n).map (exchangeMedian r)).tail=[] then 0
        else median ((List.range n).map (exchangeMedian r)).tail) := by
    unfold decodeMedian
    split
    · rfl
    next hsome => exact medianOf_ok hsome
  have htotals : [a₁,a₂].foldlM (addStage workload) ⟨0,List.replicate n 0,[]⟩=
      .ok ⟨allocationMedian a₁ m₁+allocationMedian a₂ m₂,
        (List.range n).map fun step => stepMedian a₁ m₁ step+stepMedian a₂ m₂ step,
        update (update [] (stageComponents workload a₁ m₁))
          (stageComponents workload a₂ m₂)⟩ := by
    rw [zero_add] at hone htwo
    rw [zipWith_steps] at htwo
    rw [List.foldlM_cons,hone,ok_bind,List.foldlM_cons,htwo]
    rfl
  have hprefill := @first_steps workload fun step => stepMedian a₁ m₁ step+stepMedian a₂ m₂ step
  have hfirst := @first_steps workload (exchangeMedian r)
  rw [estimate,hcomputes,htotals,ok_bind,hboundary,ok_bind,hsetup,ok_bind,hfirst,ok_bind,
    hprefill,ok_bind,hdecode,ok_bind,hrest,ok_bind,validEstimate,if_neg hnonneg]
  have hcomponents := @components_ok workload a₁ a₂ m₁ m₂ direction r hworkers
  unfold exactEstimate stepTotal
  rw [←hcomponents]
  rfl

/-- The rest of a sum of lists over the steps. -/
theorem tail_sum_add (n : ℕ) (f g : ℕ → ℚ) :
    ((List.range n).map fun step => f step+g step).tail.sum=
      ((List.range n).map f).tail.sum+((List.range n).map g).tail.sum := by
  rw [←zipWith_tails]
  exact sum_zipWith_add (by simp)

/-- An estimate adds up. -/
structure Additive (workload : WorkloadProfile) (e : PerformanceEstimate) : Prop where
  /-- One time for each token after the first. -/
  steps : e.decodeMs.length=workload.outputTokens-1
  generation : ∃ ttft total,e.ttftMs=some ttft ∧ e.generationMs=some total ∧
    ttft+e.decodeMs.sum=total ∧ total=(e.componentsMs.map Prod.snd).sum

/-- The closed form adds up. -/
theorem exactEstimate_additive :
    Additive workload (exactEstimate workload found a₁ m₁ a₂ m₂ direction r) := by
  refine ⟨?_,_,_,rfl,rfl,rfl,?_⟩
  · simp only [exactEstimate,List.length_tail,List.length_map,List.length_range]
  · have hsteps : ((List.range workload.outputTokens).map
        (stepTotal a₁ m₁ a₂ m₂ r)).tail.sum=_ := tail_sum_add workload.outputTokens
      (fun step => stepMedian a₁ m₁ step+stepMedian a₂ m₂ step) (exchangeMedian r)
    have hstages := tail_sum_add workload.outputTokens (stepMedian a₁ m₁) (stepMedian a₂ m₂)
    simp only [exactEstimate,stageComponents,wholeComponents,List.map_append,
      List.map_cons,List.map_nil,List.sum_append,List.sum_cons,List.sum_nil,hsteps,hstages]
    ring

end Costs

section Gathering

variable {bundle : ProfileBundle} {manifest : ModelManifest} {workload : WorkloadProfile}
  {weightDtype : Option DType} {binding : WorkerEvidence} {assignment : StageAssignment}
  {found found' : Findings} {evidence : List ProfileArtifact}

/-- Nothing speaks against a placement so far. -/
def Clear (found : Findings) : Prop := found.unknown=[] ∧ found.unsafeReasons=[]

/-- A reason is not forgotten. -/
theorem lacking_not_clear (found : Findings) (reason : String) :
    ¬Clear (found.lacking reason) := by
  intro h
  have hnone := h.1
  simp only [Findings.lacking,List.append_eq_nil_iff,reduceCtorEq,and_false] at hnone

/-- A memory profile that leaves all clear was the only one. -/
theorem memory_clear (h : examineKind binding assignment found .memory evidence=.ok found')
    (hclear : Clear found') : Clear found ∧ ∃ artifact,evidence=[artifact] ∧
      found'.identities=found.identities++[artifact.artifactDigest] ∧
      found'.computes=found.computes := by
  unfold examineKind at h
  split at h
  next artifact =>
    cases hfit : assess artifact binding with
    | error e =>
      rw [hfit] at h
      cases h
    | ok fit =>
      rw [hfit] at h
      cases h
      obtain ⟨hunknown,hexceeds⟩ := hclear
      simp only [Findings.fitted,Findings.identified,List.append_eq_nil_iff] at hunknown hexceeds
      exact ⟨⟨hunknown.1,hexceeds.1⟩,artifact,rfl,rfl,rfl⟩
  · cases h
    exact absurd hclear (lacking_not_clear found _)

/-- A compute run that leaves all clear was the only one, and complete. -/
theorem compute_clear (h : examineKind binding assignment found .computeRun evidence=.ok found')
    (hclear : Clear found') : Clear found ∧ ∃ artifact m,evidence=[artifact] ∧
      artifact.measurement=.computeRun m ∧ m.completed=true ∧
      found'.identities=found.identities++[artifact.artifactDigest] ∧
      found'.computes=found.computes++[artifact] := by
  unfold examineKind at h
  split at h
  next artifact =>
    simp only [Except.ok.injEq] at h
    subst h
    unfold Findings.computed at hclear ⊢
    split at hclear
    next m hm =>
      split at hclear
      · exact absurd hclear (lacking_not_clear _ _)
      next hdone =>
        split at hclear
        · exact absurd hclear (lacking_not_clear _ _)
        next hcapacity =>
          refine ⟨hclear,artifact,m,rfl,hm,Bool.eq_true_of_not_eq_false hdone,?_⟩
          simp only [if_neg hdone,if_neg hcapacity]
          exact ⟨rfl,rfl⟩
    · exact absurd hclear (lacking_not_clear _ _)
  · cases h
    exact absurd hclear (lacking_not_clear found _)

/-- What a selected profile is. -/
theorem selected_facts {kind : EvidenceKind} {artifact : ProfileArtifact}
    (h : artifact∈selection bundle manifest workload weightDtype binding assignment kind) :
    artifact∈bundle.profiles ∧ artifact.measurement.isKind kind=true ∧
      artifact.key.assignment=assignment ∧ artifact.key.workload=workload := by
  obtain ⟨hmem,hselected⟩ := List.mem_filter.mp h
  simp only [selected,Bool.and_eq_true,decide_eq_true_eq] at hselected
  refine ⟨List.mem_of_mem_filter hmem,?_⟩
  obtain ⟨⟨⟨⟨⟨⟨⟨⟨⟨⟨⟨⟨hkind,hassignment⟩,-⟩,-⟩,-⟩,-⟩,-⟩,hworkload⟩,-⟩,-⟩,-⟩,-⟩,-⟩ := hselected
  exact ⟨hkind,hassignment,hworkload⟩

/-- An assignment that leaves all clear has one profile of each kind. -/
theorem examine_clear
    (h : examine bundle manifest workload weightDtype found assignment=.ok found')
    (hclear : Clear found') : Clear found ∧ ∃ binding memory compute m,
      bindingOf bundle assignment.workerId=.ok binding ∧
      selection bundle manifest workload weightDtype binding assignment .memory=[memory] ∧
      selection bundle manifest workload weightDtype binding assignment .computeRun=[compute] ∧
      compute.measurement=.computeRun m ∧ m.completed=true ∧
      found'.identities=found.identities++[memory.artifactDigest,compute.artifactDigest] ∧
      found'.computes=found.computes++[compute] := by
  unfold examine at h
  rw [call_bind] at h
  obtain ⟨binding,hbinding,h⟩ := h
  rw [call_bind] at h
  obtain ⟨middle,hmemory,hcompute⟩ := h
  obtain ⟨hmiddle,compute,m,hcomputes,hm,hdone,hidentities,hruns⟩ :=
    compute_clear hcompute hclear
  obtain ⟨hstart,memory,hmemories,hmemoryIds,hsame⟩ := memory_clear hmemory hmiddle
  split at hstart
  next hfresh =>
    rw [if_pos hfresh] at hmemoryIds hsame
    refine ⟨hstart,binding,memory,compute,m,hbinding,hmemories,hcomputes,hm,hdone,?_,?_⟩
    · rw [hidentities,hmemoryIds,List.append_assoc]
      rfl
    · rw [hruns,hsame]
  · exact absurd hstart (lacking_not_clear found _)

/-- The peaks of the memory profile of an assignment, where there is just one,
can be converted. -/
def Convertible (bundle : ProfileBundle) (manifest : ModelManifest) (workload : WorkloadProfile)
    (weightDtype : Option DType) (assignment : StageAssignment) : Prop :=
  ∀ binding artifact m,bindingOf bundle assignment.workerId=.ok binding →
    selection bundle manifest workload weightDtype binding assignment .memory=[artifact] →
    artifact.measurement=.memory m → peaksConvert artifact.toFit m binding=true

/-- A memory profile is assessed when its peaks can be converted. -/
theorem assess_ok_iff {artifact : ProfileArtifact} {m : FitAssessment.MemoryMeasurement}
    (hm : artifact.measurement=.memory m) :
    (∃ fit,assess artifact binding=.ok fit) ↔ peaksConvert artifact.toFit m binding=true := by
  have hfit : artifact.toFit.measurement=.memory m := by
    simp only [ArtifactFields.toFit,hm]
  unfold assess
  simp only [hm]
  by_cases hconverts : peaksConvert artifact.toFit m binding=true
  · rw [if_neg (by rw [hconverts]; exact Bool.noConfusion)]
    simp only [FitAssessment.assessFit,hfit]
    exact ⟨fun _ => hconverts,fun _ => ⟨_,rfl⟩⟩
  · rw [if_pos (Bool.eq_false_of_not_eq_true hconverts)]
    refine ⟨?_,fun h => absurd h hconverts⟩
    rintro ⟨fit,hfit⟩
    cases hfit

/-- Evidence of one kind is examined without an exception unless a peak cannot be
converted. -/
theorem memory_ok_iff
    (hkind : ∀ artifact∈evidence,artifact.measurement.isKind .memory=true) :
    (∃ found',examineKind binding assignment found .memory evidence=.ok found') ↔
      ∀ artifact m,evidence=[artifact] → artifact.measurement=.memory m →
        peaksConvert artifact.toFit m binding=true := by
  match evidence with
  | [] => exact ⟨fun _ _ _ => nofun,fun _ => ⟨_,rfl⟩⟩
  | first::second::rest => exact ⟨fun _ _ _ => nofun,fun _ => ⟨_,rfl⟩⟩
  | [artifact] =>
    have hone := hkind artifact (.head _)
    cases hm : artifact.measurement with
    | computeRun m =>
      rw [hm] at hone
      cases hone
    | sampled kind samplesMs =>
      rw [hm] at hone
      cases hone
    | memory m =>
      have hassess := @assess_ok_iff binding artifact m hm
      constructor
      · rintro ⟨found',hfound⟩ other m' hother hm'
        cases hother
        rw [hm,Measurement.memory.injEq] at hm'
        subst hm'
        refine hassess.mp ?_
        simp only [examineKind] at hfound
        cases hfit : assess artifact binding with
        | error e =>
          rw [hfit] at hfound
          cases hfound
        | ok fit => exact ⟨fit,rfl⟩
      · intro h
        obtain ⟨fit,hfit⟩ := hassess.mpr (h artifact m rfl hm)
        simp only [examineKind,hfit]
        exact ⟨_,rfl⟩

/-- Evidence of a compute run is always examined. -/
theorem compute_ok : ∃ found',
    examineKind binding assignment found .computeRun evidence=.ok found' := by
  match evidence with
  | [] => exact ⟨_,rfl⟩
  | [artifact] => exact ⟨_,rfl⟩
  | first::second::rest => exact ⟨_,rfl⟩

/-- An assignment of a worker of the bundle is examined unless a peak cannot be
converted. -/
theorem examine_ok_iff (hworker : ∃ binding,bindingOf bundle assignment.workerId=.ok binding) :
    (∃ found',examine bundle manifest workload weightDtype found assignment=.ok found') ↔
      Convertible bundle manifest workload weightDtype assignment := by
  obtain ⟨binding,hbinding⟩ := hworker
  have hkind : ∀ artifact∈selection bundle manifest workload weightDtype binding assignment
      .memory,artifact.measurement.isKind .memory=true :=
    fun artifact hmem => (selected_facts hmem).2.1
  unfold examine
  rw [hbinding,ok_bind]
  constructor
  · rintro ⟨found',h⟩ other artifact m hother
    rw [call_bind] at h
    obtain ⟨middle,hmemory,-⟩ := h
    rw [hbinding,Except.ok.injEq] at hother
    subst hother
    exact (memory_ok_iff hkind).mp ⟨middle,hmemory⟩ artifact m
  · intro h
    have hpeaks := fun artifact m => h binding artifact m hbinding
    obtain ⟨middle,hmiddle⟩ := (@memory_ok_iff binding assignment (if fresh binding.observedAt
      bundle.evaluatedAt bundle.maximumSnapshotAgeSeconds then found
        else found.lacking ("STALE_PHYSICAL_SNAPSHOT:"++assignment.workerId)) _ hkind).mpr hpeaks
    obtain ⟨found',hfound⟩ := @compute_ok binding assignment middle
      (selection bundle manifest workload weightDtype binding assignment .computeRun)
    refine ⟨found',?_⟩
    rw [call_bind]
    exact ⟨middle,hmiddle,hfound⟩

/-- A qualified link run has observed its path. -/
theorem paths_of_qualified {a : LinkArtifact} (h : a.qualified=true) : a.paths≠[] := by
  have hverified := a.verified
  unfold LinkFields.verify at hverified
  rw [check_iff,check_iff,check_iff] at hverified
  have hflag := not_not.mp hverified.2.2.1
  rw [h,eq_comm,Bool.and_eq_true] at hflag
  intro hnone
  have hrejected := hflag.2
  rw [hnone] at hrejected
  exact absurd hrejected (by decide)

/-- The link is always examined. -/
theorem examineLink_ok (bundle : ProfileBundle) (manifest : ModelManifest)
    (workload : WorkloadProfile) (found : Findings) (direction : Option DirectionEvidence)
    (link : Option LinkArtifact) :
    ∃ found',examineLink bundle manifest workload found direction link=.ok found' := by
  unfold examineLink
  split
  next d l =>
    have hchecked : ∃ reasons,checkLinkCompatibility l d.sourceProbe d.targetProbe
        workload.promptTokens workload.outputTokens manifest.config.hiddenSize d.path
        bundle.evaluatedAt bundle.maximumProfileAgeSeconds=.ok reasons := by
      unfold checkLinkCompatibility
      split
      next r hqualified hr =>
        cases hlast : l.paths.getLast? with
        | none =>
          rw [List.getLast?_eq_none_iff] at hlast
          exact absurd hlast (paths_of_qualified hqualified)
        | some last => exact ⟨_,rfl⟩
      · exact ⟨_,rfl⟩
    obtain ⟨reasons,hreasons⟩ := hchecked
    rw [hreasons]
    exact ⟨_,rfl⟩
  · exact ⟨_,rfl⟩

/-- A link run without a reason against it is one for the workload. -/
theorem compatible_run {a : LinkArtifact} {source target : LinkProbe.ProbeIdentity}
    {promptTokens outputTokens hiddenSize : ℕ} {path : PathObservation} {now limit : ℚ}
    (h : checkLinkCompatibility a source target promptTokens outputTokens hiddenSize path now
      limit=.ok []) : ∃ r,a.result=some r ∧ r.outputTokens=outputTokens := by
  unfold checkLinkCompatibility at h
  split at h
  next r hqualified hr =>
    split at h
    · cases h
    · rw [Except.ok.injEq,List.append_eq_nil_iff,List.append_eq_nil_iff,
        List.append_eq_nil_iff] at h
      have hpayload := h.1.1.2
      refine ⟨r,hr,?_⟩
      by_contra hother
      rw [if_pos (.inr (.inl hother))] at hpayload
      cases hpayload
  · cases h

/-- A link that leaves all clear has a run for the workload. -/
theorem link_clear {direction : Option DirectionEvidence} {link : Option LinkArtifact}
    (h : examineLink bundle manifest workload found direction link=.ok found')
    (hclear : Clear found') : Clear found ∧ ∃ d l r,direction=some d ∧ link=some l ∧
      l.result=some r ∧ r.validate=.ok () ∧ r.outputTokens=(workload.outputTokens : ℕ) ∧
      found'.computes=found.computes ∧
      found'.identities=found.identities++[l.artifactDigest,d.requestSetupEvidenceDigest] := by
  unfold examineLink at h
  match direction,link with
  | some d,some l =>
    dsimp only at h
    cases hreasons : checkLinkCompatibility l d.sourceProbe d.targetProbe workload.promptTokens
        workload.outputTokens manifest.config.hiddenSize d.path bundle.evaluatedAt
        bundle.maximumProfileAgeSeconds with
    | error e =>
      rw [hreasons] at h
      cases h
    | ok reasons =>
      rw [hreasons] at h
      simp only [Except.map,Except.ok.injEq] at h
      subst h
      obtain ⟨hunknown,hexceeds⟩ := hclear
      simp only [List.append_eq_nil_iff] at hunknown
      obtain ⟨⟨⟨⟨hnone,rfl⟩,-⟩,-⟩,-⟩ := hunknown
      obtain ⟨r,hr,houtput⟩ := compatible_run hreasons
      exact ⟨⟨hnone,hexceeds⟩,d,l,r,rfl,rfl,hr,l.result_valid r hr,houtput,rfl,rfl⟩
  | none,_ =>
    cases h
    exact absurd hclear (lacking_not_clear found _)
  | some d,none =>
    cases h
    exact absurd hclear (lacking_not_clear found _)

end Gathering

section Evaluations

/-- What a measured evaluation rests on: a qualified run of each assignment and a
link run, each with one sample in each measured cycle, and their medians. -/
structure Measured (bundle : ProfileBundle) (manifest : ModelManifest)
    (workload : WorkloadProfile) (assignments : StageAssignment×StageAssignment)
    (weightDtype : Option DType) (e : PerformanceEstimate) : Prop where
  additive : Additive workload e
  medians : ∃ b₁ b₂ a₁ a₂ m₁ m₂ d l r,
    bindingOf bundle assignments.1.workerId=.ok b₁ ∧
    bindingOf bundle assignments.2.workerId=.ok b₂ ∧
    selection bundle manifest workload weightDtype b₁ assignments.1 .computeRun=[a₁] ∧
    selection bundle manifest workload weightDtype b₂ assignments.2 .computeRun=[a₂] ∧
    QualifiedRun workload a₁ m₁ ∧ QualifiedRun workload a₂ m₂ ∧
    (∀ run∈[(a₁,m₁),(a₂,m₂)],
      ((allocationRows run.1 run.2).map (·.cycle)).Perm
        (List.range' run.1.conditions.warmupCycles run.1.conditions.measuredCycles) ∧
      ∀ step < (workload.outputTokens : ℕ),((stepRows run.1 run.2 step).map (·.cycle)).Perm
        (List.range' run.1.conditions.warmupCycles run.1.conditions.measuredCycles)) ∧
    directionOf bundle assignments.1 assignments.2=some d ∧ linkOf bundle (some d)=some l ∧
    l.result=some r ∧
    (∀ step < (workload.outputTokens : ℕ),(exchangeRows r step).map (·.cycle)=
      (LinkQualification.range (r.warmupCycles+r.measuredCycles)).filter
        fun c => decide (r.warmupCycles ≤ c)) ∧
    e.componentsMs=stageComponents workload a₁ m₁++stageComponents workload a₂ m₂++
      wholeComponents workload d r ∧
    e.decodeMs=((List.range workload.outputTokens).map (stepTotal a₁ m₁ a₂ m₂ r)).tail

/-- The assignments are those of the two workers of a bundle. -/
def OnWorkers (bundle : ProfileBundle) (assignments : StageAssignment×StageAssignment) : Prop :=
  (bundle.workers.map (·.worker.workerId)).Perm
    [assignments.1.workerId,assignments.2.workerId]

variable {bundle : ProfileBundle} {manifest : ModelManifest} {workload : WorkloadProfile}
  {assignments : StageAssignment×StageAssignment} {weightDtype : Option DType}

/-- Both assignments have a worker, and not the same. -/
theorem OnWorkers.bindings (h : OnWorkers bundle assignments) :
    (∃ b,bindingOf bundle assignments.1.workerId=.ok b) ∧
      (∃ b,bindingOf bundle assignments.2.workerId=.ok b) ∧
      assignments.1.workerId≠assignments.2.workerId := by
  have hbinding : ∀ id∈[assignments.1.workerId,assignments.2.workerId],
      ∃ b,bindingOf bundle id=.ok b := by
    intro id hid
    obtain ⟨w,hw,hname⟩ := List.mem_map.mp (h.mem_iff.mpr hid)
    unfold bindingOf
    cases hfind : bundle.workers.find? fun w => decide (w.worker.workerId=id) with
    | some b => exact ⟨b,rfl⟩
    | none =>
      have hnone := List.find?_eq_none.mp hfind w hw
      exact absurd (decide_eq_true hname) hnone
  refine ⟨hbinding _ (.head _),hbinding _ (.tail _ (.head _)),?_⟩
  have hnodup := h.nodup_iff.mp bundle.two_workers.2
  simpa using hnodup

/-- The passes of an evaluation within its scope. -/
theorem evaluate_ok_iff
    (hscope : ¬(bundle.manifestDigest≠manifest.manifestDigest ∨ bundle.workload≠workload))
    {v : Evaluation} : evaluate bundle manifest workload assignments weightDtype=.ok v ↔
      ∃ f₁ f₂ f₃,examine bundle manifest workload weightDtype {} assignments.1=.ok f₁ ∧
        examine bundle manifest workload weightDtype f₁ assignments.2=.ok f₂ ∧
        examineLink bundle manifest workload f₂
          (directionOf bundle assignments.1 assignments.2)
          (linkOf bundle (directionOf bundle assignments.1 assignments.2))=.ok f₃ ∧
        conclude workload f₃ (directionOf bundle assignments.1 assignments.2)
          (linkOf bundle (directionOf bundle assignments.1 assignments.2))=.ok v := by
  rw [evaluate,if_neg hscope,call_bind]
  constructor
  · rintro ⟨f₂,hfold,h⟩
    rw [List.foldlM_cons,call_bind] at hfold
    obtain ⟨f₁,hfirst,hfold⟩ := hfold
    rw [List.foldlM_cons,call_bind] at hfold
    obtain ⟨g,hsecond,hlast⟩ := hfold
    cases hlast
    rw [call_bind] at h
    obtain ⟨f₃,hlink,hend⟩ := h
    exact ⟨f₁,f₂,f₃,hfirst,hsecond,hlink,hend⟩
  · rintro ⟨f₁,f₂,f₃,hfirst,hsecond,hlink,hend⟩
    refine ⟨f₂,?_,?_⟩
    · rw [List.foldlM_cons,hfirst,ok_bind,List.foldlM_cons,hsecond]
      rfl
    · rw [call_bind]
      exact ⟨f₃,hlink,hend⟩

/-- What two assignments that leave all clear give. -/
theorem evidence_clear (hchunk : workload.prefillChunkTokens=0)
    (hworkers : assignments.1.workerId≠assignments.2.workerId) {f₁ f₂ f₃ : Findings}
    (hfirst : examine bundle manifest workload weightDtype {} assignments.1=.ok f₁)
    (hsecond : examine bundle manifest workload weightDtype f₁ assignments.2=.ok f₂)
    (hlink : examineLink bundle manifest workload f₂
      (directionOf bundle assignments.1 assignments.2)
      (linkOf bundle (directionOf bundle assignments.1 assignments.2))=.ok f₃)
    (hclear : Clear f₃) : ∃ b₁ b₂ p₁ p₂ a₁ a₂ m₁ m₂ d l r,
      bindingOf bundle assignments.1.workerId=.ok b₁ ∧
      bindingOf bundle assignments.2.workerId=.ok b₂ ∧
      selection bundle manifest workload weightDtype b₁ assignments.1 .memory=[p₁] ∧
      selection bundle manifest workload weightDtype b₂ assignments.2 .memory=[p₂] ∧
      selection bundle manifest workload weightDtype b₁ assignments.1 .computeRun=[a₁] ∧
      selection bundle manifest workload weightDtype b₂ assignments.2 .computeRun=[a₂] ∧
      QualifiedRun workload a₁ m₁ ∧ QualifiedRun workload a₂ m₂ ∧
      a₁.key.assignment.workerId≠a₂.key.assignment.workerId ∧
      directionOf bundle assignments.1 assignments.2=some d ∧ linkOf bundle (some d)=some l ∧
      l.result=some r ∧ r.validate=.ok () ∧ r.outputTokens=(workload.outputTokens : ℕ) ∧
      f₃.computes=[a₁,a₂] ∧
      f₃.identities=[p₁.artifactDigest,a₁.artifactDigest,p₂.artifactDigest,
        a₂.artifactDigest,l.artifactDigest,d.requestSetupEvidenceDigest] := by
  obtain ⟨hclear₂,d,l,r,hd,hl,hr,hvalid,houtput,hcomputes,hidentities⟩ :=
    link_clear hlink hclear
  obtain ⟨hclear₁,b₂,p₂,a₂,m₂,hb₂,hp₂,ha₂,hm₂,hdone₂,hids₂,hruns₂⟩ :=
    examine_clear hsecond hclear₂
  obtain ⟨-,b₁,p₁,a₁,m₁,hb₁,hp₁,ha₁,hm₁,hdone₁,hids₁,hruns₁⟩ := examine_clear hfirst hclear₁
  have hfacts₁ := selected_facts (ha₁ ▸ List.mem_singleton_self a₁)
  have hfacts₂ := selected_facts (ha₂ ▸ List.mem_singleton_self a₂)
  refine ⟨b₁,b₂,p₁,p₂,a₁,a₂,m₁,m₂,d,l,r,hb₁,hb₂,hp₁,hp₂,ha₁,ha₂,
    ⟨hm₁,hdone₁,hfacts₁.2.2.2,hchunk⟩,⟨hm₂,hdone₂,hfacts₂.2.2.2,hchunk⟩,?_,hd,hd ▸ hl,hr,
    hvalid,houtput,?_,?_⟩
  · rw [hfacts₁.2.2.1,hfacts₂.2.2.1]
    exact hworkers
  · rw [hcomputes,hruns₂,hruns₁]
    rfl
  · rw [hidentities,hids₂,hids₁]
    rfl

/-- Findings that are not clear are reported. -/
theorem conclude_unclear {found : Findings} (h : ¬Clear found)
    (direction : Option DirectionEvidence) (link : Option LinkArtifact) :
    ∃ status reasons,conclude workload found direction link=.ok (status,reasons,none) ∧
      status≠"measured" := by
  have hsome : found.unsafeReasons≠[] ∨ found.unknown≠[] := by
    by_contra hnone
    rw [not_or,not_not,not_not] at hnone
    exact h ⟨hnone.2,hnone.1⟩
  unfold conclude
  rw [if_pos hsome]
  refine ⟨_,_,rfl,?_⟩
  split <;> decide

/-- Clear findings give the estimate. -/
theorem conclude_clear {found : Findings} (h : Clear found) {d : DirectionEvidence}
    {l : LinkArtifact} {r : LinkResult} (hr : l.result=some r) :
    conclude workload found (some d) (some l)=
      (estimate workload found d r).map fun e => ("measured",[],some e) := by
  have hnone : ¬(found.unsafeReasons≠[] ∨ found.unknown≠[]) := by
    rw [not_or,not_not,not_not]
    exact ⟨h.2,h.1⟩
  unfold conclude
  rw [if_neg hnone]
  simp only [Option.bind_some,hr]

/-- A measured evaluation of an unchunked workload rests on its evidence. -/
theorem evaluate_measured (hchunk : workload.prefillChunkTokens=0)
    (hworkers : OnWorkers bundle assignments) {reasons : List String}
    {e : Option PerformanceEstimate}
    (h : evaluate bundle manifest workload assignments weightDtype=
      .ok ("measured",reasons,e)) : reasons=[] ∧ ∃ estimated,e=some estimated ∧
      Measured bundle manifest workload assignments weightDtype estimated := by
  by_cases hscope : bundle.manifestDigest≠manifest.manifestDigest ∨ bundle.workload≠workload
  · rw [evaluate,if_pos hscope,Except.ok.injEq,Prod.mk.injEq] at h
    exact absurd h.1 (by decide)
  · obtain ⟨f₁,f₂,f₃,hfirst,hsecond,hlink,hend⟩ := (evaluate_ok_iff hscope).mp h
    by_cases hclear : Clear f₃
    · obtain ⟨b₁,b₂,p₁,p₂,a₁,a₂,m₁,m₂,d,l,r,hb₁,hb₂,-,-,ha₁,ha₂,hrun₁,hrun₂,hapart,hd,hl,hr,
        hvalid,houtput,hcomputes,-⟩ :=
        evidence_clear hchunk hworkers.bindings.2.2 hfirst hsecond hlink hclear
      rw [hd,hl,conclude_clear hclear hr,estimate_ok hrun₁ hrun₂ hapart hcomputes hvalid houtput]
        at hend
      cases hend
      refine ⟨rfl,_,rfl,exactEstimate_additive,b₁,b₂,a₁,a₂,m₁,m₂,d,l,r,hb₁,hb₂,ha₁,ha₂,hrun₁,
        hrun₂,?_,hd,hl,hr,fun step hstep => exchangeRows_cycles hvalid (by omega),rfl,rfl⟩
      intro run hrun
      simp only [List.mem_cons,List.not_mem_nil,or_false] at hrun
      rcases hrun with rfl | rfl
      · exact hrun₁.cycles
      · exact hrun₂.cycles
    · obtain ⟨status,others,hother,hstatus⟩ := @conclude_unclear workload f₃ hclear
        (directionOf bundle assignments.1 assignments.2)
        (linkOf bundle (directionOf bundle assignments.1 assignments.2))
      rw [hother,Except.ok.injEq,Prod.mk.injEq] at hend
      exact absurd hend.1 hstatus

/-- An evaluation raises no exception unless a peak cannot be converted. -/
theorem evaluate_total_iff (hchunk : workload.prefillChunkTokens=0)
    (hworkers : OnWorkers bundle assignments) :
    (∃ v,evaluate bundle manifest workload assignments weightDtype=.ok v) ↔
      (bundle.manifestDigest≠manifest.manifestDigest ∨ bundle.workload≠workload) ∨
        Convertible bundle manifest workload weightDtype assignments.1 ∧
        Convertible bundle manifest workload weightDtype assignments.2 := by
  by_cases hscope : bundle.manifestDigest≠manifest.manifestDigest ∨ bundle.workload≠workload
  · refine ⟨fun _ => .inl hscope,fun _ => ?_⟩
    rw [evaluate,if_pos hscope]
    exact ⟨_,rfl⟩
  · obtain ⟨hbinding₁,hbinding₂,hapart⟩ := hworkers.bindings
    constructor
    · rintro ⟨v,h⟩
      obtain ⟨f₁,f₂,-,hfirst,hsecond,-⟩ := (evaluate_ok_iff hscope).mp h
      exact .inr ⟨(examine_ok_iff hbinding₁).mp ⟨f₁,hfirst⟩,
        (examine_ok_iff hbinding₂).mp ⟨f₂,hsecond⟩⟩
    · intro h
      obtain ⟨hconvert₁,hconvert₂⟩ := h.resolve_left hscope
      obtain ⟨f₁,hfirst⟩ := (@examine_ok_iff bundle manifest workload weightDtype _ {}
        hbinding₁).mpr hconvert₁
      obtain ⟨f₂,hsecond⟩ := (@examine_ok_iff bundle manifest workload weightDtype _ f₁
        hbinding₂).mpr hconvert₂
      obtain ⟨f₃,hlink⟩ := examineLink_ok bundle manifest workload f₂
        (directionOf bundle assignments.1 assignments.2)
        (linkOf bundle (directionOf bundle assignments.1 assignments.2))
      by_cases hclear : Clear f₃
      · obtain ⟨-,-,-,-,a₁,a₂,m₁,m₂,d,l,r,-,-,-,-,-,-,hrun₁,hrun₂,hnames,hd,hl,hr,hvalid,
          houtput,hcomputes,-⟩ := evidence_clear hchunk hapart hfirst hsecond hlink hclear
        have hend : conclude workload f₃ (directionOf bundle assignments.1 assignments.2)
            (linkOf bundle (directionOf bundle assignments.1 assignments.2))=
              .ok ("measured",[],some (exactEstimate workload f₃ a₁ m₁ a₂ m₂ d r)) := by
          rw [hd,hl,conclude_clear hclear hr,
            estimate_ok hrun₁ hrun₂ hnames hcomputes hvalid houtput]
          rfl
        exact ⟨_,(evaluate_ok_iff hscope).mpr ⟨f₁,f₂,f₃,hfirst,hsecond,hlink,hend⟩⟩
      · obtain ⟨status,others,hother,-⟩ := @conclude_unclear workload f₃ hclear
          (directionOf bundle assignments.1 assignments.2)
          (linkOf bundle (directionOf bundle assignments.1 assignments.2))
        exact ⟨_,(evaluate_ok_iff hscope).mpr ⟨f₁,f₂,f₃,hfirst,hsecond,hlink,hother⟩⟩

end Evaluations

section Sample

/-- A CPU. -/
def sampleEnvironment : Environment where
  backend := .cpu
  deviceIdentity := "cpu"
  deviceName := "cpu"
  backendVersion := "1"
  driverVersion := "1"
  allocator := "malloc"
  allocatorConfig := "\x7b\x7d"
  sourceRevision := "head"
  binaryDigest := sampleDigest
  compiler := "cc"
  os := "linux"

/-- A prompt of one token and two steps. -/
def twoSteps : WorkloadProfile :=
  { sampleWorkload .f16 with outputTokens := 2,totalCachedTokens := 3 }

/-- One layer of two on the first worker or the last. -/
def sampleAssignment (final : Bool) : StageAssignment :=
  if final then ⟨1,"b",1,2,false,true,true,true⟩ else ⟨0,"a",0,1,true,false,false,false⟩

/-- A key of F32 weights, with an input. -/
def sampleKey (final : Bool) (inputDigest : String) : ProfileKey where
  manifestDigest := sampleManifest.manifestDigest
  checkpointDigest := sampleDigest
  environment := sampleEnvironment
  assignment := sampleAssignment final
  workload := twoSteps
  executionDtype := .f32
  weightDtype := none
  transportMode := .pageable
  inputKind := .reference
  inputDigest := inputDigest
  supported := by cases final <;> rfl

/-- A profile of two cycles after a warmup. -/
def sampleFields (final : Bool) (inputDigest : String) (schemaVersion : FitAssessment.ArtifactSchema)
    (processPolicy : FitAssessment.ProcessPolicy) (measurement : Measurement)
    (artifactDigest : String) : ArtifactFields where
  schemaVersion := schemaVersion
  key := sampleKey final inputDigest
  conditions := ⟨0,1,2,processPolicy,"idle"⟩
  measurement := measurement
  artifactDigest := artifactDigest

/-- A completed memory exercise with a peak. -/
def sampleMemory (final : Bool) (inputDigest : String) (peak : ℕ) (artifactDigest : String) :
    ProfileArtifact where
  toArtifactFields := sampleFields final inputDigest .v10 .freshProcessThenReloads
    (.memory {
      admissionCapacity := noMemory
      samples := (List.range 3).flatMap fun cycle => memoryPhases.map fun phase =>
        { cpuSample phase (some peak) with cycle := cycle,completedSteps := 2 }
      physicalSamples := []
      completed := true
      error := none}) artifactDigest
  verified := by cases final <;> rfl

/-- A record of a step in a cycle. -/
def sampleRecord (cycle step : ℕ) (mode : TimingMode) (component : TimingComponent)
    (layerIndex : Option ℕ) (milliseconds : ℕ) : TimingRecord where
  cycle := cycle
  step := step
  contextTokens := step
  phase := if step=0 then .prefill else .decode
  component := component
  layerIndex := layerIndex
  timingMode := mode
  milliseconds := milliseconds
  chunkIndex := none
  milliseconds_nonneg := Nat.cast_nonneg _

/-- What a component of a stage takes: the warmup is slow. -/
def samplePace (cycle : ℕ) : ℕ := [10,1,3].getD cycle 0

/-- The records of one step of a stage. -/
def stepRecords (final : Bool) (cycle step : ℕ) : List TimingRecord :=
  let components : List (TimingComponent×Option ℕ) :=
    if final then [(.fromWire,none),(.layer,some 1),(.finalNorm,none),(.lmHead,none),
      (.sampling,none),(.runtimeOverhead,none)]
    else [(.embedding,none),(.layer,some 0),(.toWire,none),(.runtimeOverhead,none)]
  ([TimingMode.wholeStage,.componentSynchronized].flatMap fun mode =>
    sampleRecord cycle step mode .stage none (components.length*samplePace cycle)::
      if step=0 then [sampleRecord cycle step mode .sequenceAllocation none 1] else [])++
  components.map fun entry =>
    sampleRecord cycle step .componentSynchronized entry.1 entry.2 (samplePace cycle)

/-- The records of a stage. -/
def sampleRecords (final : Bool) : List TimingRecord :=
  (List.range 3).flatMap fun cycle => (List.range 2).flatMap (stepRecords final cycle)

/-- A completed compute run. -/
def sampleCompute (final : Bool) : ProfileArtifact where
  toArtifactFields := sampleFields final sampleDigest .v11 .loadedStagePairedPasses
    (.computeRun {
      admissionCapacity := noMemory
      records := sampleRecords final
      identicalOutputCycles := [0,1,2]
      completed := true
      error := none}) (if final then "c1" else "c0")
  verified := by cases final <;> decide +kernel

/-- The probe on a worker. -/
def sampleProbe (workerId : String) : ProbeIdentity where
  workerId := workerId
  binaryDigest := sampleDigest
  sourceRevision := "head"
  compiler := "cc"
  grpcVersion := "1"
  protobufVersion := "1"
  host := workerId
  os := "linux"
  endpoint := workerId

/-- A loopback path. -/
def samplePath : PathObservation where
  observedAt := 0
  kind := .loopback
  sourceIp := "127.0.0.1"
  targetIp := "127.0.0.1"
  peerId := "loopback"
  connectionType := .direct
  endpoint := "127.0.0.1"
  online := true
  evidence := "\x7b\x7d"

/-- Exchanges of two bytes. -/
def sampleResult : LinkResult where
  source := sampleProbe "a"
  target := sampleProbe "b"
  channelReadyMs := 0
  streams := (List.range 3).map fun cycle : ℕ => ⟨cycle,0,0⟩
  samples := (List.range 3).flatMap fun cycle : ℕ => (List.range 2).map fun step : ℕ =>
    ⟨cycle,step,2,3,1,1,samplePace cycle⟩
  promptTokens := 1
  hiddenSize := 1
  outputTokens := 2
  warmupCycles := 1
  measuredCycles := 2

/-- The link run of these exchanges. -/
def sampleLink : LinkArtifact where
  measuredAt := 0
  finishedAt := 0
  concurrentLoad := "idle"
  paths := [samplePath,samplePath]
  result := some sampleResult
  completed := true
  qualified := true
  error := none
  artifactDigest := "link"
  verified := by decide +kernel
  result_valid := by decide +kernel

/-- A request set up in a millisecond. -/
def sampleSetup : RequestSetupSample where
  clientTtftMs := 1
  nativeTtftMs := 1
  nativeSetupMs := 1
  nonneg := by decide +kernel
  consistent := by decide +kernel

/-- The direction of the pipeline. -/
def sampleDirection : DirectionEvidence where
  sourceWorkerId := "a"
  targetWorkerId := "b"
  sourceProbe := sampleProbe "a"
  targetProbe := sampleProbe "b"
  path := samplePath
  linkDigest := "link"
  requestSetupSamplesMs := List.replicate 5 1
  requestSetupRaw := List.replicate 5 sampleSetup
  requestSetupEvidenceDigest := "setup"
  requestSetupMethod := "paired"
  requestSetupMeasuredAt := 0
  samples_range := by decide +kernel
  raw_length := by decide
  raw := by decide +kernel

/-- A worker with a kilobyte left. -/
def sampleEvidence (workerId : String) : WorkerEvidence where
  worker := sampleWorker workerId 1024
  memoryEnvironment := sampleEnvironment
  computeEnvironment := sampleEnvironment
  runtimeDeviceIdentity := "cpu"
  runtimeDriverVersion := "1"
  runtimeBinaryDigest := sampleDigest
  admissionCapacity := noMemory
  host := cpuBudget 1024
  device := none
  mlxFitPolicy := .conservative
  observedAt := 0
  transportMode := .pageable
  matched := by rfl

/-- The evidence of both stages, one memory profile with a peak, and one more
memory profile of the last stage where there is another input. -/
def sampleBundle (peak : ℕ) (other : Option String) : ProfileBundle where
  manifestDigest := sampleManifest.manifestDigest
  checkpointDigest := sampleDigest
  workload := twoSteps
  workers := [sampleEvidence "a",sampleEvidence "b"]
  links := [sampleLink]
  directions := [sampleDirection]
  evaluatedAt := 0
  maximumProfileAgeSeconds := 86400
  maximumSnapshotAgeSeconds := 60
  concurrentLoad := "idle"
  inputKind := .reference
  inputDigest := sampleDigest
  profiles := [sampleMemory false sampleDigest peak "m0",sampleCompute false,
    sampleMemory true sampleDigest 100 "m1",sampleCompute true]++
    (other.map fun input => sampleMemory true input 100 "m2").toList
  bundleDigest := sampleDigest
  two_workers := by decide
  links_distinct := by decide
  directions_distinct := by decide
  ages := by decide +kernel
  profiles_distinct := by
    cases other with
    | none => exact (by decide : ["m0","c0","m1","c1"].Nodup)
    | some input => exact (by decide : ["m0","c0","m1","c1","m2"].Nodup)

/-- The assignments of the sample plan. -/
def sampleAssignments : StageAssignment×StageAssignment :=
  (sampleAssignment false,sampleAssignment true)

/-- The sample bundle is for the workers of the plan. -/
theorem sample_workers (peak : ℕ) (other : Option String) :
    OnWorkers (sampleBundle peak other) sampleAssignments := .refl _

/-- From small peaks the sample plan is measured. -/
theorem sample_measured (other : Option String) (hother : other∈[none,some "other"]) :
    ∃ reasons e,evaluate (sampleBundle 100 other) sampleManifest twoSteps
      sampleAssignments none=.ok ("measured",reasons,e) := by
  have hstatus : ∀ other∈[none,some "other"],(evaluate (sampleBundle 100 other) sampleManifest
      twoSteps sampleAssignments none).toOption.map Prod.fst=some "measured" := by
    decide +kernel
  have hone := hstatus other hother
  cases h : evaluate (sampleBundle 100 other) sampleManifest twoSteps
      sampleAssignments none with
  | error e =>
    rw [h] at hone
    cases hone
  | ok v =>
    obtain ⟨status,reasons,estimated⟩ := v
    rw [h] at hone
    cases hone
    exact ⟨reasons,estimated,rfl⟩

/-- An evaluation raises nothing and adds up, whatever it measured, exactly when
it is out of its scope or the peaks it assesses can be converted. -/
theorem evaluate_exact_iff (bundle : ProfileBundle) (manifest : ModelManifest)
    (workload : WorkloadProfile) (assignments : StageAssignment×StageAssignment)
    (weightDtype : Option DType) (hchunk : workload.prefillChunkTokens=0)
    (hworkers : OnWorkers bundle assignments) :
    ((∃ v,evaluate bundle manifest workload assignments weightDtype=.ok v) ∧
      ∀ reasons e,evaluate bundle manifest workload assignments weightDtype=
        .ok ("measured",reasons,e) → reasons=[] ∧ ∃ estimated,e=some estimated ∧
          Measured bundle manifest workload assignments weightDtype estimated) ↔
      (bundle.manifestDigest≠manifest.manifestDigest ∨ bundle.workload≠workload) ∨
        Convertible bundle manifest workload weightDtype assignments.1 ∧
        Convertible bundle manifest workload weightDtype assignments.2 :=
  ⟨fun h => (evaluate_total_iff hchunk hworkers).mp h.1,
    fun h => ⟨(evaluate_total_iff hchunk hworkers).mpr h,
      fun _ _ hmeasured => evaluate_measured hchunk hworkers hmeasured⟩⟩

/-- A plan measured from small peaks adds up. -/
theorem sample_exact : ∃ e,evaluate (sampleBundle 100 none) sampleManifest twoSteps
      sampleAssignments none=.ok ("measured",[],some e) ∧
    Measured (sampleBundle 100 none) sampleManifest twoSteps sampleAssignments
      none e := by
  obtain ⟨reasons,estimated,h⟩ := sample_measured none (.head _)
  have hexact := (evaluate_exact_iff _ _ _ _ _ rfl (sample_workers 100 none)).mpr
    ((evaluate_total_iff rfl (sample_workers 100 none)).mp ⟨_,h⟩)
  obtain ⟨rfl,e,rfl,hmeasured⟩ := hexact.2 _ _ h
  exact ⟨e,h,hmeasured⟩

/-- A peak of `2^1024` bytes raises. -/
theorem peak_overflows : OnWorkers (sampleBundle (2^1024) none) sampleAssignments ∧
    twoSteps.prefillChunkTokens=0 ∧
    evaluate (sampleBundle (2^1024) none) sampleManifest twoSteps
        sampleAssignments none=
      .error (.evaluation "OverflowError: int too large to convert to float") :=
  ⟨sample_workers _ _,rfl,by decide +kernel⟩

end Sample

end Hllm.MeasuredTotals
