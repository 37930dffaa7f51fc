import Hllm.PlannerRanking
import Hllm.SequenceMemory
import Mathlib.Tactic.Linarith

/-!
# Planned and reserved KV caches

The planner sizes KV caches in the workload's KV dtype, a worker charges them in
the plan's execution dtype. Mixed and measured planning make the two agree; the
other modes do not, and then only the overhead factor makes up for a smaller
KV dtype.
-/

namespace Hllm.KvEstimates

open KeyedRanks PlannerModels PlannerPlacement PlannerRanking SequenceMemory
open WireMessages (StageAssignment)

/-- A loaded stage of the plan with this many layers. -/
structure Serves (manifest : ModelManifest) (plan : DeploymentPlan) (layers : ℕ)
    (s : NativeStage) : Prop where
  /-- It executes in the dtype of the plan. -/
  dtype : s.executionDtype=plan.executionDtype
  /-- Its backend can do so. -/
  runs : s.Runs
  /-- It has the layers of the stage. -/
  count : s.layers.toNat=layers
  /-- It has the key and value heads of the model. -/
  heads : s.keyValueHeads.toNat=manifest.config.numKvHeads
  /-- The heads have the dimension of the model. -/
  width : s.headDimension.toNat=manifest.config.headDim

/-- The estimate covers what the stage charges for any requests that share the
tokens. A request is its tokens with its chunk. -/
def Covers (stage : StageMemory) (s : NativeStage) (tokens : ℕ) : Prop :=
  ∀ requests : List (UInt64×UInt64),(requests.map fun r => r.1.toNat).sum ≤ tokens →
    (requests.map fun r => s.charged r.1 r.2).sum ≤ stage.kvCacheBytes

/-- Cached elements of a stage with these layers. -/
def kvElements (manifest : ModelManifest) (workload : WorkloadProfile) (layers : ℕ) : ℕ :=
  layers*workload.totalCachedTokens*(2*manifest.config.numKvHeads*manifest.config.headDim)

/-- The execution dtype is not larger than the KV dtype with its overhead, up to
the rounding of the whole estimate, or the stage takes no request at all. -/
def Suffices (manifest : ModelManifest) (workload : WorkloadProfile) (plan : DeploymentPlan)
    (layers : ℕ) (s : NativeStage) : Prop :=
  ¬s.Accepts 1 0 ∨
    (kvElements manifest workload layers*plan.executionDtype.bytes : ℚ)<
      kvElements manifest workload layers*(workload.kvDtype.bytes*workload.kvOverheadFactor)+1

/-- What a rounded up number bounds. -/
theorem le_ceil_iff {n : ℕ} {x : ℚ} (h : 0 ≤ x) : n ≤ ceil x ↔ (n : ℚ)<x+1 := by
  have hiff : ((n : ℤ)-1 < x.ceil) ↔ (n : ℚ)<x+1 := by
    rw [Rat.lt_ceil_iff]
    push_cast
    constructor
    · intro hlt
      linarith
    · intro hlt
      linarith
  have hnonneg : -1 < x.ceil := by
    rw [Rat.lt_ceil_iff]
    push_cast
    linarith
  rw [←hiff,ceil]
  omega

/-- Element bytes are those of the execution dtype. -/
theorem elementBytes_of_runs {s : NativeStage} (h : s.Runs) :
    s.elementBytes.toNat=s.executionDtype.bytes := by
  unfold NativeStage.elementBytes
  rcases h with hf32|⟨hf16,hcpu⟩
  · rw [hf32]
    cases s.backend <;> rfl
  · rw [hf16]
    cases hbackend : s.backend with
    | cpu => exact absurd hbackend hcpu
    | mlx => rfl
    | cuda => rfl

section Stages

variable {manifest : ModelManifest} {workload : WorkloadProfile} {plan : DeploymentPlan}
variable {layers : ℕ} {s : NativeStage}

/-- KV bytes of all the tokens on a stage. -/
theorem tokens_mul_kvPerToken (h : Serves manifest plan layers s) :
    (workload.totalCachedTokens : ℕ)*s.kvPerToken=
      kvElements manifest workload layers*plan.executionDtype.bytes := by
  rw [NativeStage.kvPerToken,elementBytes_of_runs h.runs,h.dtype,h.count,h.heads,h.width,
    kvElements]
  ring

/-- The charge of requests is that of their tokens, if any request is accepted. -/
theorem charged_le (requests : List (UInt64×UInt64)) :
    (requests.map fun r => s.charged r.1 r.2).sum ≤
      (requests.map fun r => r.1.toNat).sum*s.kvPerToken := by
  induction requests with
  | nil => exact Nat.zero_le _
  | cons r requests ih =>
    have hone : s.charged r.1 r.2 ≤ r.1.toNat*s.kvPerToken := by
      by_cases haccepts : s.Accepts r.1 r.2
      · rw [charged_accepted haccepts]
      · rw [charged_refused haccepts]
        exact Nat.zero_le _
    rw [List.map_cons,List.map_cons,List.sum_cons,List.sum_cons,Nat.add_mul]
    omega

/-- A stage that refuses a single token refuses everything. -/
theorem charged_none (h : ¬s.Accepts 1 0) (requests : List (UInt64×UInt64)) :
    (requests.map fun r => s.charged r.1 r.2).sum=0 := by
  have hnone : ∀ r : UInt64×UInt64,s.charged r.1 r.2=0 := by
    intro r
    refine charged_refused fun haccepts => h ?_
    have hpos : r.1≠0 := by
      obtain ⟨memory,hmemory⟩ := haccepts
      intro hzero
      unfold NativeStage.sequenceMemory at hmemory
      rw [if_pos (.inl hzero)] at hmemory
      cases hmemory
    have hle : (1 : UInt64).toNat ≤ r.1.toNat := by
      have hone : (1 : UInt64).toNat=1 := rfl
      have hzero : r.1.toNat≠0 := fun hz => hpos (UInt64.toNat_inj.mp hz)
      omega
    obtain ⟨memory,hmemory⟩ := haccepts.shorter (by decide) hle
    rw [sequenceMemory_one] at hmemory
    exact ⟨memory,hmemory⟩
  induction requests with
  | nil => rfl
  | cons r requests ih => rw [List.map_cons,List.sum_cons,hnone,ih]

/-- The estimate of a stage covers its charges exactly when the dtypes allow it. -/
theorem covers_iff {stage : StageMemory} (h : Serves manifest plan layers s)
    (hstage : stage.kvCacheBytes=ceil (layers*workload.totalCachedTokens*
      (2*manifest.config.numKvHeads*manifest.config.headDim*workload.kvDtype.bytes)*
        workload.kvOverheadFactor)) :
    Covers stage s workload.totalCachedTokens ↔ Suffices manifest workload plan layers s := by
  have hfactor : (0 : ℚ) ≤ workload.kvOverheadFactor :=
    le_trans zero_le_one workload.kvOverheadFactor_ge
  have hestimate : (layers*workload.totalCachedTokens*
      (2*manifest.config.numKvHeads*manifest.config.headDim*workload.kvDtype.bytes)*
        workload.kvOverheadFactor : ℚ)=
      kvElements manifest workload layers*(workload.kvDtype.bytes*workload.kvOverheadFactor) := by
    rw [kvElements]
    push_cast
    ring
  have hnonneg : (0 : ℚ) ≤ kvElements manifest workload layers*
      (workload.kvDtype.bytes*workload.kvOverheadFactor) := by positivity
  have htotal := @tokens_mul_kvPerToken manifest workload plan layers s h
  have hbound : (workload.totalCachedTokens : ℕ)*s.kvPerToken ≤ stage.kvCacheBytes ↔
      (kvElements manifest workload layers*plan.executionDtype.bytes : ℚ)<
        kvElements manifest workload layers*
          (workload.kvDtype.bytes*workload.kvOverheadFactor)+1 := by
    rw [htotal,hstage,hestimate,le_ceil_iff hnonneg]
    push_cast
    exact Iff.rfl
  constructor
  · intro hcovers
    by_cases haccepts : s.Accepts 1 0
    · refine .inr (hbound.mp ?_)
      have hsingles := hcovers (List.replicate workload.totalCachedTokens (1,0)) (by simp)
      rw [List.map_replicate,List.sum_replicate_nat,charged_accepted haccepts] at hsingles
      have hone : (1 : UInt64).toNat=1 := rfl
      rw [hone,Nat.one_mul] at hsingles
      exact hsingles
    · exact .inl haccepts
  · intro hsuffices requests htokens
    rcases hsuffices with hrefuses|hdtypes
    · rw [charged_none hrefuses]
      exact Nat.zero_le _
    · calc (requests.map fun r => s.charged r.1 r.2).sum
          ≤ (requests.map fun r => r.1.toNat).sum*s.kvPerToken := charged_le requests
        _ ≤ workload.totalCachedTokens*s.kvPerToken := Nat.mul_le_mul_right _ htokens
        _ ≤ stage.kvCacheBytes := hbound.mpr hdtypes

/-- An execution dtype that is not larger suffices. -/
theorem suffices_of_le (h : plan.executionDtype.bytes ≤ workload.kvDtype.bytes) :
    Suffices manifest workload plan layers s := by
  have hbytes : (plan.executionDtype.bytes : ℚ) ≤ workload.kvDtype.bytes := by exact_mod_cast h
  have hscaled : (plan.executionDtype.bytes : ℚ) ≤
      workload.kvDtype.bytes*workload.kvOverheadFactor := by
    have hkv : (0 : ℚ) ≤ workload.kvDtype.bytes := Nat.cast_nonneg _
    have hfactor := mul_le_mul_of_nonneg_left workload.kvOverheadFactor_ge hkv
    linarith
  have helements : (0 : ℚ) ≤ kvElements manifest workload layers := Nat.cast_nonneg _
  have hproduct := mul_le_mul_of_nonneg_left hscaled helements
  exact .inr (by linarith)

end Stages

section Plans

variable {evaluate : ProfileBundle → ModelManifest → WorkloadProfile → List StageAssignment →
  Option DType → Except Raised Evaluation}
variable {sha256 : String → String} {workloadDigest : WorkloadProfile → String}
variable {manifest : ModelManifest} {workers : List WorkerProfile} {links : List LinkProfile}
variable {workload : WorkloadProfile} {settings : PlannerSettings} {bundle : Option ProfileBundle}

/-- The KV estimate of a stage. -/
theorem stageMemory_kv {worker : WorkerProfile} {start finish : ℕ} {isFirst isFinal : Bool}
    {stage : StageMemory}
    (h : stageMemory manifest worker workload settings start finish isFirst isFinal=.ok stage) :
    stage.kvCacheBytes=ceil ((finish-start : ℕ)*workload.totalCachedTokens*
      (2*manifest.config.numKvHeads*manifest.config.headDim*workload.kvDtype.bytes)*
        workload.kvOverheadFactor) := by
  unfold stageMemory at h
  split at h
  · cases h
  · cases h
    push_cast
    rfl

/-- The KV estimates of a candidate are those of its two sides of the split. -/
theorem candidate_kv {first final : WorkerProfile} {split : ℕ} {c : PlanCandidate}
    (h : candidate evaluate manifest links workload settings bundle first final split=.ok c) :
    c.splitLayer=split ∧
      c.stages.1.kvCacheBytes=ceil ((split : ℕ)*workload.totalCachedTokens*
        (2*manifest.config.numKvHeads*manifest.config.headDim*workload.kvDtype.bytes)*
          workload.kvOverheadFactor) ∧
      c.stages.2.kvCacheBytes=ceil ((manifest.config.numLayers-split : ℕ)*
        workload.totalCachedTokens*
        (2*manifest.config.numKvHeads*manifest.config.headDim*workload.kvDtype.bytes)*
          workload.kvOverheadFactor) := by
  unfold candidate at h
  obtain ⟨stageZero,hzero,h⟩ := bind_eq_ok.mp h
  obtain ⟨stageOne,hone,h⟩ := bind_eq_ok.mp h
  obtain ⟨⟨status,reasons,performance⟩,-,h⟩ := bind_eq_ok.mp h
  obtain ⟨score,-,h⟩ := bind_eq_ok.mp h
  cases h
  have hfirst := stageMemory_kv hzero
  rw [Nat.sub_zero] at hfirst
  exact ⟨rfl,hfirst,stageMemory_kv hone⟩

/-- The two stages of an emitted plan have enough memory planned for the KV
caches of any requests within the workload exactly when the dtypes allow it. -/
theorem kv_estimate_iff {result : PlanningReport} {plan : DeploymentPlan}
    (hresult : createPlan evaluate sha256 workloadDigest manifest workers links workload settings
      bundle=.ok result) (hplan : result.plan=some plan) :
    ∃ selected∈result.candidates,selected.candidateId=plan.selectedCandidateId ∧
      plan.stages=assignmentsFor selected.stageZeroWorkerId selected.finalStageWorkerId
        plan.splitLayer manifest.config.numLayers ∧
      ∀ s,(Serves manifest plan plan.splitLayer s →
          (Covers selected.stages.1 s workload.totalCachedTokens ↔
            Suffices manifest workload plan plan.splitLayer s)) ∧
        (Serves manifest plan (manifest.config.numLayers-plan.splitLayer) s →
          (Covers selected.stages.2 s workload.totalCachedTokens ↔
            Suffices manifest workload plan (manifest.config.numLayers-plan.splitLayer) s)) := by
  obtain ⟨a,b,raw,rfl,-,-,hraw,hreport⟩ := createPlan_ok hresult
  obtain ⟨hcandidates,-⟩ := report_ok hreport
  obtain ⟨selected,hselected,hemit⟩ := report_plan hreport hplan
  obtain ⟨digests,-,hmade,-⟩ := emitPlan_ok hemit
  have hid : plan.selectedCandidateId=selected.candidateId := by
    rw [hmade]
    rfl
  have hsplit : plan.splitLayer=selected.splitLayer := by
    rw [hmade]
    rfl
  have hstages : plan.stages=assignmentsFor selected.stageZeroWorkerId
      selected.finalStageWorkerId selected.splitLayer manifest.config.numLayers := by
    rw [hmade]
    rfl
  rw [rankCandidates_eq] at hselected
  obtain ⟨c,hc,hranked⟩ := List.mem_map.mp hselected
  obtain ⟨placement,hcandidate⟩ := exists_of_forall₂ (forall₂_of_mapM hraw) hc
  obtain ⟨hcSplit,hfirst,hfinal⟩ := candidate_kv hcandidate
  have hsame : selected.stages=c.stages ∧ selected.splitLayer=c.splitLayer := by
    rw [←hranked]
    exact ⟨rfl,rfl⟩
  rw [←hcSplit,←hsame.2,←hsplit,←hsame.1] at hfirst hfinal
  refine ⟨selected,?_,hid.symm,?_,fun s => ⟨fun hs => covers_iff hs hfirst,
    fun hs => covers_iff hs hfinal⟩⟩
  · rw [hcandidates,rankCandidates_eq]
    exact List.mem_map.mpr ⟨c,hc,hranked⟩
  · rw [hstages,hsplit]

/-- Mixed and measured planning refuse a KV dtype other than the execution dtype. -/
theorem validateBundle_agrees {u : Unit}
    (h : validateBundle workers workload settings bundle=.ok u)
    (hmode : settings.weightDtype≠none ∨ settings.mode=.measured) :
    workload.kvDtype=settings.executionDtype := by
  unfold validateBundle at h
  obtain ⟨_,hmixed,h⟩ := bind_eq_ok.mp h
  rw [require_ok_iff] at hmixed
  rcases hmode with hweight|hmeasured
  · exact hmixed.resolve_left hweight
  · rw [if_pos hmeasured] at h
    cases bundle with
    | none => cases h
    | some bundle =>
      obtain ⟨_,-,h⟩ := bind_eq_ok.mp h
      obtain ⟨_,hdtype,-⟩ := bind_eq_ok.mp h
      exact (require_ok_iff.mp hdtype).symm

/-- In these modes the estimates always suffice. -/
theorem agreeing_modes_suffice {result : PlanningReport} {plan : DeploymentPlan}
    (hresult : createPlan evaluate sha256 workloadDigest manifest workers links workload settings
      bundle=.ok result) (hplan : result.plan=some plan)
    (hmode : settings.weightDtype≠none ∨ settings.mode=.measured) (layers : ℕ) (s : NativeStage) :
    Suffices manifest workload plan layers s := by
  obtain ⟨a,b,raw,rfl,-,hbundle,-,hreport⟩ := createPlan_ok hresult
  obtain ⟨selected,-,hemit⟩ := report_plan hreport hplan
  obtain ⟨digests,-,hmade,-⟩ := emitPlan_ok hemit
  have hdtype : plan.executionDtype=settings.executionDtype := by
    rw [hmade]
    rfl
  refine suffices_of_le ?_
  rw [hdtype,validateBundle_agrees hbundle hmode]

end Plans

/-- A CPU stage of the sample model with one layer and room for two tokens. -/
def sampleStage : NativeStage where
  backend := .cpu
  executionDtype := .f32
  hiddenSize := 1
  intermediateSize := 1
  attentionHeads := 1
  keyValueHeads := 1
  headDimension := 1
  maximumSequenceLength := 2
  vocab := 1
  layers := 1
  castWorkspace := 0
  pinned := false
  whole := false

/-- Planning of the sample model with the given KV dtype and F32 execution. -/
def kvReport (kvDtype : DType) : Except Raised PlanningReport :=
  createPlan (fun _ _ _ _ _ => .error .assertion) sampleHash (fun _ => sampleDigest)
    sampleManifest (sampleWorkers "x" "y") []
    {sampleWorkload .f16 with kvDtype := kvDtype} (sampleSettings false) none

/-- What the plan executes, where it splits and the KV estimates of its candidates. -/
def kvSummary (result : PlanningReport) : Option (DType×ℕ×String)×List (String×ℕ×ℕ) :=
  (result.plan.map fun plan => (plan.executionDtype,plan.splitLayer,plan.selectedCandidateId),
    result.candidates.map fun c =>
      (c.candidateId,c.stages.1.kvCacheBytes,c.stages.2.kvCacheBytes))

/-- A report with a summary was returned, and its plan is as summarized. -/
theorem exists_of_kvSummary {made : Except Raised PlanningReport} {dtype : DType} {split : ℕ}
    {id : String} {candidates : List (String×ℕ×ℕ)}
    (h : made.toOption.map kvSummary=some (some (dtype,split,id),candidates)) :
    ∃ result plan,made=.ok result ∧ result.plan=some plan ∧ plan.executionDtype=dtype ∧
      plan.splitLayer=split ∧ plan.selectedCandidateId=id ∧
      (result.candidates.map fun c =>
        (c.candidateId,c.stages.1.kvCacheBytes,c.stages.2.kvCacheBytes))=candidates := by
  cases made with
  | error e => cases h
  | ok result =>
    have hsummary : kvSummary result=(some (dtype,split,id),candidates) :=
      Option.some_injective _ h
    rw [kvSummary,Prod.mk.injEq,Option.map_eq_some_iff] at hsummary
    obtain ⟨⟨plan,hplan,hshape⟩,hcandidates⟩ := hsummary
    simp only [Prod.mk.injEq] at hshape
    exact ⟨result,plan,rfl,hplan,hshape.1,hshape.2.1,hshape.2.2,hcandidates⟩

/-- With F32 caches planned, the estimates cover both stages. -/
theorem kv_estimate_of_f32 :
    ∃ result plan,kvReport .f32=.ok result ∧ result.plan=some plan ∧
      ∃ selected∈result.candidates,selected.candidateId=plan.selectedCandidateId ∧
        Covers selected.stages.1 sampleStage 2 ∧ Covers selected.stages.2 sampleStage 2 := by
  have hsummary : (kvReport .f32).toOption.map kvSummary=
      some (some (.f32,1,"y--x-m001"),[("x--y-m001",16,16),("y--x-m001",16,16)]) := by
    decide +kernel
  obtain ⟨result,plan,hresult,hplan,hdtype,hsplit,-,-⟩ := exists_of_kvSummary hsummary
  have hserves : ∀ layers,layers=1 → Serves sampleManifest plan layers sampleStage :=
    fun layers hlayers => ⟨hdtype.symm,.inl rfl,hlayers.symm,rfl,rfl⟩
  have hagree : plan.executionDtype.bytes ≤ DType.bytes .f32 := by
    rw [hdtype]
  obtain ⟨selected,hselected,hid,-,hiff⟩ := kv_estimate_iff hresult hplan
  refine ⟨result,plan,hresult,hplan,selected,hselected,hid,?_,?_⟩
  · exact ((hiff sampleStage).1 (hserves _ hsplit)).mpr (suffices_of_le hagree)
  · refine ((hiff sampleStage).2 (hserves _ ?_)).mpr (suffices_of_le hagree)
    rw [hsplit]
    rfl

/-- With F16 caches planned for F32 execution, two one-token requests are charged
twice what either stage was planned with. -/
theorem f16_estimate_too_small :
    ∃ result plan,kvReport .f16=.ok result ∧ result.plan=some plan ∧
      Serves sampleManifest plan 1 sampleStage ∧ plan.splitLayer=1 ∧
      ∀ c∈result.candidates,¬Covers c.stages.1 sampleStage 2 ∧
        ¬Covers c.stages.2 sampleStage 2 := by
  have hsummary : (kvReport .f16).toOption.map kvSummary=
      some (some (.f32,1,"y--x-m001"),[("x--y-m001",8,8),("y--x-m001",8,8)]) := by
    decide +kernel
  obtain ⟨result,plan,hresult,hplan,hdtype,hsplit,-,hcandidates⟩ := exists_of_kvSummary hsummary
  refine ⟨result,plan,hresult,hplan,⟨hdtype.symm,.inl rfl,rfl,rfl,rfl⟩,hsplit,fun c hc => ?_⟩
  have hshape : (c.candidateId,c.stages.1.kvCacheBytes,c.stages.2.kvCacheBytes)∈
      [("x--y-m001",8,8),("y--x-m001",8,8)] := by
    rw [←hcandidates]
    exact List.mem_map.mpr ⟨c,hc,rfl⟩
  have hsmall : c.stages.1.kvCacheBytes=8 ∧ c.stages.2.kvCacheBytes=8 := by
    simp only [List.mem_cons,Prod.mk.injEq,List.not_mem_nil,or_false] at hshape
    rcases hshape with h|h
    · exact h.2
    · exact h.2
  have hcharged : ([(1,0),(1,0)].map fun r : UInt64×UInt64 =>
      sampleStage.charged r.1 r.2).sum=16 := by decide +kernel
  constructor
  · intro hcovers
    have hle := hcovers [(1,0),(1,0)] (by decide)
    rw [hcharged,hsmall.1] at hle
    omega
  · intro hcovers
    have hle := hcovers [(1,0),(1,0)] (by decide)
    rw [hcharged,hsmall.2] at hle
    omega

end Hllm.KvEstimates
