import Hllm.MeasuredTotals

/-!
# Activating measured placements

Before a measured plan is loaded its bundle is evaluated once more, and then the
memory profile of each stage is searched for a second time, with fewer
conditions, and assessed against what the worker has left. Both searches find
the same profile unless the bundle holds another one that only the first one
rules out. The checks of a worker's capabilities, binary and idleness read no
profile and are left out.
-/

namespace Hllm.MeasuredActivation

open FitAssessment (FitResult MemoryAmounts PhysicalBudget)
open MeasuredEvaluation MeasuredProfiles MeasuredTotals
open MemoryAccounting (call_bind check_iff)
open PlannerModels (DType MemoryDomain ModelManifest Raised WorkloadProfile)
open PlannerRanking (sampleManifest)
open SweepModel (PerformanceEstimate)
open WireMessages (StageAssignment)

section Gates

/-- What a worker answers about its memory. -/
structure WorkerAnswer where
  memoryBudgets : List (MemoryDomain×ℕ)
  availableHostBytes : Option ℕ
  availableDeviceBytes : Option ℕ
  deriving DecidableEq

/-- The first capacity of a domain. -/
def WorkerAnswer.capacityOf (answer : WorkerAnswer) (domain : MemoryDomain) : ℕ :=
  ((answer.memoryBudgets.find? fun budget => decide (budget.1=domain)).map Prod.snd).getD 0

/-- `capacity` -/
def WorkerAnswer.capacity (answer : WorkerAnswer) : Except Raised MemoryAmounts :=
  if h : answer.capacityOf .hostPinned ≤ answer.capacityOf .host then
    .ok ⟨answer.capacityOf .host,answer.capacityOf .device,answer.capacityOf .hostPinned,
      answer.capacityOf .unified,h⟩
  else .error (.value "pinned memory must be part of host memory")

/-- The condition of `profiles`. -/
def gated (bundle : ProfileBundle) (manifest : ModelManifest) (binding : WorkerEvidence)
    (assignment : StageAssignment) (p : ProfileArtifact) : Bool :=
  p.measurement.isKind .memory &&
  p.key.assignment=assignment &&
  p.key.environment=binding.memoryEnvironment &&
  p.key.manifestDigest=manifest.manifestDigest &&
  p.key.checkpointDigest=bundle.checkpointDigest &&
  p.key.workload=bundle.workload &&
  p.key.transportMode=binding.transportMode

/-- The one of `profiles`. -/
def memoryEvidence (bundle : ProfileBundle) (manifest : ModelManifest)
    (binding : WorkerEvidence) (assignment : StageAssignment) : Except Raised ProfileArtifact :=
  match bundle.profiles.filter (gated bundle manifest binding assignment) with
  | [artifact] => .ok artifact
  | _ => .error (.value "missing or ambiguous memory evidence")

/-- A worker with what its answer leaves. -/
def refreshed (binding : WorkerEvidence) (answer : WorkerAnswer) : WorkerEvidence where
  toWorkerFields := {
    binding.toWorkerFields with
    host := { binding.host with availableBytes := answer.availableHostBytes }
    device := binding.device.map fun device =>
      { device with availableBytes := answer.availableDeviceBytes }}
  matched := binding.matched

/-- The memory gate of a profile. -/
def memoryGate (artifact : ProfileArtifact) (binding : WorkerEvidence) (answer : WorkerAnswer) :
    Except Raised Unit := do
  let fit ← assess artifact (refreshed binding answer)
  if fit.status≠.fits then
    .error (.value ("fresh physical memory gate failed: "++"; ".intercalate fit.reasons))
  else .ok ()

/-- One pass over the stages. -/
def checkStage (bundle : ProfileBundle) (manifest : ModelManifest)
    (stage : StageAssignment×WorkerAnswer) : Except Raised Unit := do
  let binding ← bindingOf bundle stage.1.workerId
  let capacity ← stage.2.capacity
  if capacity≠binding.admissionCapacity then
    .error (.value "worker admission capacity changed; reprofile/replan")
  else do
    let artifact ← memoryEvidence bundle manifest binding stage.1
    memoryGate artifact binding stage.2

/-- The ages of the link and the request setup. -/
def checkLinkAges (bundle : ProfileBundle) (now : ℚ) (direction : Option DirectionEvidence)
    (link : Option LinkArtifact) : Except Raised Unit :=
  match direction,link with
  | some direction,some link =>
    if fresh link.measuredAt now bundle.maximumProfileAgeSeconds=false then
      .error (.value "link evidence expired; refresh measurements and replan")
    else if fresh direction.requestSetupMeasuredAt now bundle.maximumProfileAgeSeconds=false then
      .error (.value "request setup evidence expired; refresh measurements and replan")
    else .ok ()
  | _,_ => raising "StopIteration"

/-- The ages at activation. -/
def checkAges (bundle : ProfileBundle) (assignments : StageAssignment×StageAssignment)
    (now : ℚ) : Except Raised Unit :=
  if bundle.profiles.any (fun p => decide (p.key.assignment∈[assignments.1,assignments.2]) &&
      !fresh p.conditions.measuredAt now bundle.maximumProfileAgeSeconds)=true then
    .error (.value "selected profile expired; refresh measurements and replan")
  else if fresh bundle.evaluatedAt now bundle.maximumProfileAgeSeconds=false then
    .error (.value "stale/future profile bundle; refresh measurements and replan")
  else
    let direction := directionOf bundle assignments.1 assignments.2
    checkLinkAges bundle now direction (linkOf bundle direction)

/-- `validate_activation` of a two-stage plan, from its evaluation on. -/
def validateActivation (bundle : ProfileBundle) (manifest : ModelManifest)
    (assignments : StageAssignment×StageAssignment) (weightDtype : Option DType) (now : ℚ)
    (answers : WorkerAnswer×WorkerAnswer) : Except Raised Unit := do
  let evaluation ← evaluate bundle manifest bundle.workload assignments weightDtype
  if evaluation.1≠"measured" then
    .error (.value ("selected assignment is not qualified: "++
      "; ".intercalate evaluation.2.1))
  else do
    checkAges bundle assignments now
    checkStage bundle manifest (assignments.1,answers.1)
    checkStage bundle manifest (assignments.2,answers.2)

end Gates

section Selections

variable {bundle : ProfileBundle} {manifest : ModelManifest}
  {assignments : StageAssignment×StageAssignment} {weightDtype : Option DType}
  {binding : WorkerEvidence} {assignment : StageAssignment}

/-- What the evaluation asks of a memory profile beyond what its activation asks. -/
structure Agrees (bundle : ProfileBundle) (weightDtype : Option DType) (p : ProfileArtifact) :
    Prop where
  inputKind : p.key.inputKind=bundle.inputKind
  inputDigest : p.key.inputDigest=bundle.inputDigest
  weightDtype : p.key.weightDtype=weightDtype
  concurrentLoad : p.conditions.concurrentLoad=bundle.concurrentLoad
  fresh : fresh p.conditions.measuredAt bundle.evaluatedAt bundle.maximumProfileAgeSeconds=true

/-- The execution data type of a key is that of its cache. -/
theorem key_execution (key : ProfileKey) : key.executionDtype=key.workload.kvDtype := by
  have h := key.supported
  unfold ProfileKeyFields.supportedWorkload at h
  rw [check_iff,check_iff,check_iff,check_iff] at h
  have hdtype := h.2.2.2.1
  rw [not_or,not_not,ne_eq,not_not] at hdtype
  exact hdtype.2.symm

/-- The evaluation selects what the activation selects and agrees. -/
theorem selected_iff (p : ProfileArtifact) :
    selected bundle manifest bundle.workload weightDtype binding assignment .memory
        binding.memoryEnvironment p=true ↔
      gated bundle manifest binding assignment p=true ∧ Agrees bundle weightDtype p := by
  simp only [selected,gated,Bool.and_eq_true,decide_eq_true_eq]
  constructor
  · rintro ⟨⟨⟨⟨⟨⟨⟨⟨⟨⟨⟨⟨hkind,hassignment⟩,henvironment⟩,hinput⟩,hdigest⟩,hmanifest⟩,
      hcheckpoint⟩,hworkload⟩,-⟩,hweight⟩,htransport⟩,hload⟩,hfresh⟩
    exact ⟨⟨⟨⟨⟨⟨⟨hkind,hassignment⟩,henvironment⟩,hmanifest⟩,hcheckpoint⟩,hworkload⟩,
      htransport⟩,hinput,hdigest,hweight,hload,hfresh⟩
  · rintro ⟨⟨⟨⟨⟨⟨⟨hkind,hassignment⟩,henvironment⟩,hmanifest⟩,hcheckpoint⟩,hworkload⟩,
      htransport⟩,hinput,hdigest,hweight,hload,hfresh⟩
    have hexecution := key_execution p.key
    rw [hworkload] at hexecution
    exact ⟨⟨⟨⟨⟨⟨⟨⟨⟨⟨⟨⟨hkind,hassignment⟩,henvironment⟩,hinput⟩,hdigest⟩,hmanifest⟩,
      hcheckpoint⟩,hworkload⟩,hexecution⟩,hweight⟩,htransport⟩,hload⟩,hfresh⟩

/-- What the evaluation selects is in the selection of the activation. -/
theorem mem_selection_iff {p : ProfileArtifact} :
    p∈selection bundle manifest bundle.workload weightDtype binding assignment .memory ↔
      p∈bundle.profiles.filter (gated bundle manifest binding assignment) ∧
        Agrees bundle weightDtype p := by
  rw [selection,ProfileBundle.profilesFor,List.mem_filter,List.mem_filter,List.mem_filter,
    environmentOf,selected_iff,decide_eq_true_eq]
  constructor
  · rintro ⟨⟨hmem,-⟩,hgated,hagrees⟩
    exact ⟨⟨hmem,hgated⟩,hagrees⟩
  · rintro ⟨⟨hmem,hgated⟩,hagrees⟩
    have hassignment := hgated
    simp only [gated,Bool.and_eq_true,decide_eq_true_eq] at hassignment
    exact ⟨⟨hmem,hassignment.1.1.1.1.1.2⟩,hgated,hagrees⟩

/-- Without another profile both selections are one list. -/
theorem selection_eq
    (h : ∀ p∈bundle.profiles,gated bundle manifest binding assignment p=true →
      Agrees bundle weightDtype p) :
    selection bundle manifest bundle.workload weightDtype binding assignment .memory=
      bundle.profiles.filter (gated bundle manifest binding assignment) := by
  rw [selection,ProfileBundle.profilesFor,List.filter_filter,environmentOf]
  refine List.filter_congr fun p hmem => ?_
  rw [Bool.eq_iff_iff,Bool.and_eq_true,selected_iff,decide_eq_true_eq]
  constructor
  · rintro ⟨⟨hgated,-⟩,-⟩
    exact hgated
  · intro hgated
    have hassignment := hgated
    simp only [gated,Bool.and_eq_true,decide_eq_true_eq] at hassignment
    exact ⟨⟨hgated,h p hmem hgated⟩,hassignment.1.1.1.1.1.2⟩

/-- The activation finds a profile when it is its only one. -/
theorem memoryEvidence_iff {p : ProfileArtifact} :
    memoryEvidence bundle manifest binding assignment=.ok p ↔
      bundle.profiles.filter (gated bundle manifest binding assignment)=[p] := by
  unfold memoryEvidence
  split
  next artifact hone =>
    rw [hone,Except.ok.injEq,List.cons.injEq,and_iff_left rfl]
  next hnone =>
    constructor
    · intro h
      cases h
    · intro h
      exact absurd h (hnone p)

/-- The activation finds the profile of the evaluation unless it finds another
one that does not agree. -/
theorem memoryEvidence_agrees_iff {p : ProfileArtifact}
    (hselection : selection bundle manifest bundle.workload weightDtype binding assignment
      .memory=[p]) :
    memoryEvidence bundle manifest binding assignment=.ok p ↔
      ∀ other∈bundle.profiles,gated bundle manifest binding assignment other=true →
        Agrees bundle weightDtype other := by
  rw [memoryEvidence_iff]
  constructor
  · intro hone other hmem hgated
    have hother : other∈bundle.profiles.filter (gated bundle manifest binding assignment) :=
      List.mem_filter.mpr ⟨hmem,hgated⟩
    rw [hone,List.mem_singleton] at hother
    have hfound : p∈selection bundle manifest bundle.workload weightDtype binding assignment
        .memory := by
      rw [hselection]
      exact List.mem_singleton_self p
    rw [hother]
    exact (mem_selection_iff.mp hfound).2
  · intro h
    rw [←selection_eq h]
    exact hselection

end Selections

section Evaluations

variable {bundle : ProfileBundle} {manifest : ModelManifest} {workload : WorkloadProfile}
  {assignments : StageAssignment×StageAssignment} {weightDtype : Option DType}

/-- An estimate names the evidence it rests on. -/
theorem estimate_digests {found : Findings} {direction : DirectionEvidence}
    {r : LinkQualification.LinkResult} {e : PerformanceEstimate}
    (h : estimate workload found direction r=.ok e) : e.profileDigests=found.identities := by
  unfold estimate at h
  simp only [call_bind] at h
  obtain ⟨totals,-,boundary,-,setup,-,boundaryPrefill,-,prefill,-,decode,-,boundaryDecode,-,h⟩ :=
    h
  unfold validEstimate at h
  split at h
  · cases h
  · cases h
    rfl

/-- A measured evaluation names the one memory profile of each assignment. -/
theorem measured_memory {reasons : List String} {estimated : Option PerformanceEstimate}
    (h : evaluate bundle manifest workload assignments weightDtype=
      .ok ("measured",reasons,estimated)) :
    ∃ e,estimated=some e ∧ ∀ a∈[assignments.1,assignments.2],∃ b p,
      bindingOf bundle a.workerId=.ok b ∧
      selection bundle manifest workload weightDtype b a .memory=[p] ∧
      p.artifactDigest∈e.profileDigests := by
  by_cases hscope : bundle.manifestDigest≠manifest.manifestDigest ∨ bundle.workload≠workload
  · rw [evaluate,if_pos hscope,Except.ok.injEq,Prod.mk.injEq] at h
    exact absurd h.1 (by decide)
  · obtain ⟨f₁,f₂,f₃,hfirst,hsecond,hlink,hend⟩ := (evaluate_ok_iff hscope).mp h
    by_cases hclear : Clear f₃
    · obtain ⟨hclear₂,d,l,r,hd,hl,hr,-,-,-,hidentities⟩ := link_clear hlink hclear
      obtain ⟨hclear₁,b₂,p₂,a₂,m₂,hb₂,hp₂,-,-,-,hids₂,-⟩ := examine_clear hsecond hclear₂
      obtain ⟨-,b₁,p₁,a₁,m₁,hb₁,hp₁,-,-,-,hids₁,-⟩ := examine_clear hfirst hclear₁
      rw [hl,hd,conclude_clear hclear hr] at hend
      cases hestimate : estimate workload f₃ d r with
      | error raised =>
        rw [hestimate] at hend
        cases hend
      | ok e =>
        rw [hestimate] at hend
        cases hend
        have hdigests := estimate_digests hestimate
        rw [hidentities,hids₂,hids₁] at hdigests
        refine ⟨e,rfl,fun a ha => ?_⟩
        simp only [List.mem_cons,List.not_mem_nil,or_false] at ha
        rcases ha with rfl | rfl
        · refine ⟨b₁,p₁,hb₁,hp₁,?_⟩
          simp only [hdigests,List.mem_append,List.mem_cons,true_or,or_true]
        · refine ⟨b₂,p₂,hb₂,hp₂,?_⟩
          simp only [hdigests,List.mem_append,List.mem_cons,true_or,or_true]
    · obtain ⟨status,others,hother,hstatus⟩ := @conclude_unclear workload f₃ hclear
        (directionOf bundle assignments.1 assignments.2)
        (linkOf bundle (directionOf bundle assignments.1 assignments.2))
      rw [hother,Except.ok.injEq,Prod.mk.injEq] at hend
      exact absurd hend.1 hstatus

/-- The activation of a measured plan finds the memory profiles it was measured
with, and no other, exactly when each memory profile it considers agrees with the
bundle in input, load and age and with the plan in precision. -/
theorem activation_agrees_iff (bundle : ProfileBundle) (manifest : ModelManifest)
    (assignments : StageAssignment×StageAssignment) (weightDtype : Option DType)
    (reasons : List String) (estimated : Option PerformanceEstimate)
    (hmeasured : evaluate bundle manifest bundle.workload assignments weightDtype=
      .ok ("measured",reasons,estimated)) :
    (∀ a∈[assignments.1,assignments.2],∀ b,bindingOf bundle a.workerId=.ok b →
      ∃ p,memoryEvidence bundle manifest b a=.ok p ∧
        selection bundle manifest bundle.workload weightDtype b a .memory=[p] ∧
        ∃ e∈estimated,p.artifactDigest∈e.profileDigests) ↔
      ∀ a∈[assignments.1,assignments.2],∀ b,bindingOf bundle a.workerId=.ok b →
        ∀ other∈bundle.profiles,gated bundle manifest b a other=true →
          Agrees bundle weightDtype other := by
  obtain ⟨e,rfl,hevidence⟩ := measured_memory hmeasured
  constructor
  · intro h a ha b hb
    obtain ⟨p,hfound,hselection,-⟩ := h a ha b hb
    exact (memoryEvidence_agrees_iff hselection).mp hfound
  · intro h a ha b hb
    obtain ⟨b',p,hb',hselection,hdigest⟩ := hevidence a ha
    rw [hb,Except.ok.injEq] at hb'
    subst hb'
    exact ⟨p,(memoryEvidence_agrees_iff hselection).mpr (h a ha b hb),hselection,e,rfl,hdigest⟩

/-- Every profile of the sample bundle agrees with it. -/
theorem sample_agrees : ∀ other∈(sampleBundle 100 none).profiles,
    Agrees (sampleBundle 100 none) none other := by
  have hfresh : ∀ other∈(sampleBundle 100 none).profiles,
      fresh other.conditions.measuredAt (sampleBundle 100 none).evaluatedAt
        (sampleBundle 100 none).maximumProfileAgeSeconds=true := by decide +kernel
  have hinputs : ∀ other∈(sampleBundle 100 none).profiles,
      other.key.inputKind=(sampleBundle 100 none).inputKind ∧
      other.key.inputDigest=(sampleBundle 100 none).inputDigest ∧
      other.key.weightDtype=none ∧
      other.conditions.concurrentLoad=(sampleBundle 100 none).concurrentLoad := by
    decide +kernel
  intro other hmem
  obtain ⟨hkind,hdigest,hweight,hload⟩ := hinputs other hmem
  exact ⟨hkind,hdigest,hweight,hload,hfresh other hmem⟩

/-- The sample plan is activated on what it was measured with. -/
theorem sample_activation : ∃ reasons estimated,
    evaluate (sampleBundle 100 none) sampleManifest (sampleBundle 100 none).workload
      sampleAssignments none=.ok ("measured",reasons,estimated) ∧
    ∀ a∈[sampleAssignments.1,sampleAssignments.2],∀ b,
      bindingOf (sampleBundle 100 none) a.workerId=.ok b →
      ∃ p,memoryEvidence (sampleBundle 100 none) sampleManifest b a=.ok p ∧
        selection (sampleBundle 100 none) sampleManifest (sampleBundle 100 none).workload none
          b a .memory=[p] ∧
        ∃ e∈estimated,p.artifactDigest∈e.profileDigests := by
  obtain ⟨reasons,estimated,h⟩ := sample_measured none (.head _)
  refine ⟨reasons,estimated,h,?_⟩
  exact (activation_agrees_iff _ _ _ _ _ _ h).mpr fun _ _ _ _ other hmem _ =>
    sample_agrees other hmem

/-- A memory profile of another input does not change what is measured, but nothing
is activated. -/
theorem sample_ambiguous :
    (∃ reasons estimated,evaluate (sampleBundle 100 (some "other")) sampleManifest
      (sampleBundle 100 (some "other")).workload sampleAssignments none=
        .ok ("measured",reasons,estimated)) ∧
    checkAges (sampleBundle 100 (some "other")) sampleAssignments 0=.ok () ∧
    validateActivation (sampleBundle 100 (some "other")) sampleManifest sampleAssignments none 0
      (⟨[],some 1024,none⟩,⟨[],some 1024,none⟩)=
        .error (.value "missing or ambiguous memory evidence") :=
  ⟨sample_measured _ (.tail _ (.head _)),by decide +kernel,by decide +kernel⟩

/-- Without it the same answers activate the plan. -/
example : validateActivation (sampleBundle 100 none) sampleManifest sampleAssignments none 0
    (⟨[],some 1024,none⟩,⟨[],some 1024,none⟩)=.ok () := by decide +kernel

end Evaluations

end Hllm.MeasuredActivation
