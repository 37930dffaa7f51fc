import Hllm.PlanDigest

/-!
# Acceptance of emitted plans

A plan leaves the planner through its own validator and enters a worker
through another one, written separately. Everything the worker checks on a
plan of two stages is implied by what planning did, with one exception: the
worker accepts F16 activations only, and planning copies the activation type
of the workload without a check.
-/

namespace Hllm.PlanAcceptance

open JsonText PlanDigest PlannerModels PlannerPlacement PlannerRanking
open PlanValidation (BackendCapabilities bind_ok_iff checkDigest checkEndpoints checkIdentity
  checkMode checkPlacement checkPrecision checkStages isDigest measured mixed reject_ok_iff
  validatePlan validatePlan_ok_iff version)
open WireMessages (ArtifactVersion DataType LoadStageRequest StageAssignment StageEndpoint)

/-- A manifest `prepare_model` produced: its own schema version, and a digest
made by the hash. -/
def Prepared (sha256 : String → String) (manifest : ModelManifest) : Prop :=
  manifest.schemaVersion="1.1" ∧ ∃ content,manifest.manifestDigest=sha256 content

/-- The message of a manifest, as far as a plan is checked against it. -/
structure Sent (manifest : ModelManifest) (sent : WireMessages.ModelManifest) : Prop where
  /-- The schema version was converted. -/
  schema : ∃ found,versionToProto manifest.schemaVersion=.ok found ∧ sent.schemaVersion=some found
  /-- Its digest. -/
  digest : sent.manifestDigest=manifest.manifestDigest
  /-- Its architecture. -/
  architecture : (sent.architecture.getD default).architectureId=manifest.architectureId
  /-- Its layers. -/
  layers : (sent.config.getD default).numLayers=manifest.config.numLayers
  /-- Whether embeddings are tied. -/
  tied : (sent.config.getD default).tiedEmbeddings=manifest.config.tiedEmbeddings

/-- The request a session sends for one stage. -/
def loadStageRequest (plan : DeploymentPlan) (wire : WireMessages.DeploymentPlan)
    (sent : WireMessages.ModelManifest) (endpoints : String → String) (index : ℕ) :
    LoadStageRequest where
  plan := some wire
  stageIndex := index
  manifest := some sent
  stageEndpoints := plan.stages.map fun stage =>
    ⟨stage.stageIndex,stage.workerId,endpoints stage.workerId⟩

/-- A worker lists what planning checked on its profile. -/
structure Capable (manifest : ModelManifest) (plan : DeploymentPlan)
    (capabilities : BackendCapabilities) : Prop where
  /-- The architecture. -/
  architecture : manifest.architectureId∈capabilities.architectures
  /-- The execution type. -/
  execution : plan.executionDtype.toProto.number∈capabilities.executionDtypes
  /-- Mixed precision if it is used. -/
  mixed : plan.weightDtype≠none → capabilities.supportsMixedPrecision=true

/-- A digest is not empty. -/
theorem ne_empty_of_isDigest {value : String} (h : isDigest value=true) : value≠"" := by
  rintro rfl
  exact absurd h (by decide)

section Checks

variable {sha256 : String → String} {workloadDigest : WorkloadProfile → String}
variable {manifest : ModelManifest} {workload : WorkloadProfile} {settings : PlannerSettings}
variable {bundle : Option ProfileBundle} {selected : PlanCandidate}
variable {plan : DeploymentPlan} {found : ArtifactVersion}

/-- The schema version of an emitted plan on the wire. -/
theorem schema_emitted
    (h : emitPlan sha256 workloadDigest manifest workload settings bundle selected=.ok plan)
    (hfound : versionToProto plan.schemaVersion=.ok found) :
    found=⟨1,if plan.weightDtype.isSome then 2
      else if plan.planningMode=.measured then 1 else 0⟩ := by
  obtain ⟨digests,hdigests,rfl,-⟩ := emitPlan_ok h
  have hmeasured : digests.isSome=decide (settings.mode=.measured) := by
    rcases identities_ok hdigests with ⟨bundle,hmode,-,rfl⟩|⟨hmode,rfl⟩
    · simp [hmode]
    · simp [hmode]
  simp only [planFor,hmeasured,decide_eq_true_eq] at hfound ⊢
  split at hfound
  · rw [(by rfl : versionToProto "1.2"=.ok ⟨1,2⟩)] at hfound
    cases hfound
    rw [if_pos ‹_›]
  · split at hfound
    · rw [(by rfl : versionToProto "1.1"=.ok ⟨1,1⟩)] at hfound
      cases hfound
      rw [if_neg ‹_›,if_pos ‹_›]
    · rw [(by rfl : versionToProto planSchemaVersion=.ok ⟨1,0⟩)] at hfound
      cases hfound
      rw [if_neg ‹_›,if_neg ‹_›]

/-- Identity and schema of an emitted plan are accepted. -/
theorem checkIdentity_emitted {sent : WireMessages.ModelManifest}
    (hsha : ∀ content,isDigest (sha256 content)=true)
    (h : emitPlan sha256 workloadDigest manifest workload settings bundle selected=.ok plan)
    (hfound : versionToProto plan.schemaVersion=.ok found)
    (hprepared : Prepared sha256 manifest) (hsent : Sent manifest sent) :
    checkIdentity (wireOf found plan) sent=.ok () := by
  have hschema := schema_emitted h hfound
  obtain ⟨digests,hdigests,hplan,-⟩ := emitPlan_ok h
  obtain ⟨hversion,content,hdigest⟩ := hprepared
  obtain ⟨foundManifest,hmanifest,hsentVersion⟩ := hsent.schema
  rw [hversion] at hmanifest
  cases hmanifest
  have hmanifestDigest : sent.manifestDigest≠"" := by
    rw [hsent.digest,hdigest]
    exact ne_empty_of_isDigest (hsha content)
  have hplanDigest : plan.planDigest≠"" := by
    rw [hplan]
    exact ne_empty_of_isDigest (hsha _)
  have hplanId : plan.planId≠"" := by
    rw [hplan]
    intro hempty
    have hlength := congrArg String.length hempty
    simp [planFor] at hlength
  have hminor : found.minor≤2 := by
    rw [hschema]
    dsimp only
    split
    · exact Nat.le_refl 2
    · split <;> decide
  unfold checkIdentity
  rw [reject_ok_iff,hsentVersion]
  simp only [not_or,not_not,not_lt]
  refine ⟨congrArg ArtifactVersion.major hschema,hminor,rfl,by decide,hplanId,hplanDigest,?_,
    hmanifestDigest,?_⟩
  · rw [hplan]
    exact Nat.one_ne_zero
  · rw [hsent.digest,hplan]
    rfl

/-- The precision of an emitted plan is accepted by a capable worker. -/
theorem checkPrecision_emitted {capabilities : BackendCapabilities}
    (h : emitPlan sha256 workloadDigest manifest workload settings bundle selected=.ok plan)
    (hfound : versionToProto plan.schemaVersion=.ok found)
    (hcapable : Capable manifest plan capabilities) :
    checkPrecision (wireOf found plan) capabilities=.ok () := by
  have hschema := schema_emitted h hfound
  obtain ⟨digests,hdigests,-,hvalid⟩ := emitPlan_ok h
  obtain ⟨hmixed,-,-,-⟩ := validatePartition_fields hvalid
  unfold checkPrecision
  rw [reject_ok_iff,mixed_wireOf,hschema]
  cases hweight : plan.weightDtype with
  | none =>
    by_cases hmode : plan.planningMode=.measured <;> simp [wireOf,version,hmode]
  | some d =>
    obtain ⟨rfl,hexecution,-⟩ := hmixed d hweight
    have hsupports := hcapable.mixed (by simp [hweight])
    simp [wireOf,version,hweight,hexecution,hsupports,DType.toProto]

/-- The planning mode of an emitted plan is accepted. -/
theorem checkMode_emitted
    (h : emitPlan sha256 workloadDigest manifest workload settings bundle selected=.ok plan)
    (hfound : versionToProto plan.schemaVersion=.ok found) :
    checkMode (wireOf found plan)=.ok () := by
  have hschema := schema_emitted h hfound
  obtain ⟨digests,hdigests,-,hvalid⟩ := emitPlan_ok h
  obtain ⟨-,-,hmeasured,hlegacy⟩ := validatePartition_fields hvalid
  unfold checkMode
  simp only [bind_ok_iff,reject_ok_iff,measured_wireOf,mixed_wireOf]
  by_cases hm : plan.planningMode=.measured
  · obtain ⟨-,hworkload,hbundle⟩ := hmeasured hm
    simp [hm,hschema,wireOf,version,hworkload,hbundle]
  · obtain ⟨hworkload,hbundle⟩ := hlegacy hm
    simp [hm,hschema,wireOf,version,hworkload,hbundle]

/-- The digest of an emitted plan is the one the worker computes. -/
theorem checkDigest_emitted
    (h : emitPlan sha256 workloadDigest manifest workload settings bundle selected=.ok plan)
    (hwire : deploymentPlanToProto plan=.ok (wireOf found plan)) :
    checkDigest sha256 (wireOf found plan)=.ok () := by
  unfold checkDigest
  rw [reject_ok_iff]
  rintro ⟨hkind,hbad⟩
  have hversioned : Versioned plan := by
    rw [measured_wireOf,mixed_wireOf,decide_eq_true_eq] at hkind
    exact hkind.imp_right fun hsome hnone => by simp [hnone] at hsome
  obtain ⟨digests,hplan,halike⟩ := hashedAlike_created h hversioned
  rcases hbad with hdigest|hid
  · rw [halike.rebuilt _ hwire] at hdigest
    exact hdigest halike.digest.symm
  · rw [hplan] at hid
    exact hid rfl

end Checks

/-- Two contiguous stages on named workers pass the stage loop. -/
theorem checkStages_assignments {first final : String} {split layers : ℕ} (hfirst : first≠"")
    (hfinal : final≠"") (hne : first≠final) (hsplit : 0 < split) (hlt : split < layers) :
    checkStages 2 layers 0 0 [] (assignmentsFor first final split layers)=.ok layers := by
  have hreject : ∀ (condition : Prop) [Decidable condition] (message : String),¬condition →
      PlanValidation.reject condition message=.ok () :=
    fun condition _ message hnot => if_neg hnot
  simp only [assignmentsFor,checkStages]
  rw [hreject _ _ (by simp [hfirst,Nat.le_of_lt hlt,hsplit.ne']),
    hreject _ _ (by simp [hfinal,hne.symm,hlt])]
  rfl

/-- Distinct addresses of the two workers pass the endpoint loop. -/
theorem checkEndpoints_assignments {first final : String} {split layers : ℕ}
    {endpoints : String → String} (hfirst : endpoints first≠"") (hfinal : endpoints final≠"")
    (hne : endpoints first≠endpoints final) :
    checkEndpoints (assignmentsFor first final split layers) [] []
      ((assignmentsFor first final split layers).map fun stage =>
        ⟨stage.stageIndex,stage.workerId,endpoints stage.workerId⟩)=.ok () := by
  simp only [assignmentsFor,List.map_cons,List.map_nil,checkEndpoints,bind_ok_iff,reject_ok_iff]
  simp [hfirst,hfinal,hne.symm]

/-- Placement checks pass on both workers of a plan of two stages. -/
theorem checkPlacement_assignments {plan : DeploymentPlan} {found : ArtifactVersion}
    {wire : WireMessages.DeploymentPlan} {sent : WireMessages.ModelManifest}
    {config : WireMessages.ModelConfig} {endpoints : String → String} {first final : String}
    (hwire : wire=wireOf found plan)
    (hstages : plan.stages=assignmentsFor first final plan.splitLayer config.numLayers)
    (hfirst : first≠"") (hfinal : final≠"") (hne : first≠final) (hsplit : 0 < plan.splitLayer)
    (hlt : plan.splitLayer < config.numLayers) (hfirstEnd : endpoints first≠"")
    (hfinalEnd : endpoints final≠"") (hneEnd : endpoints first≠endpoints final)
    (htied : config.tiedEmbeddings=true → "token_embeddings"∈plan.duplicatedTensorGroups)
    {stage : StageAssignment} (hstage : stage∈plan.stages) :
    checkPlacement (loadStageRequest plan wire sent endpoints stage.stageIndex) wire config
      stage.workerId=.ok () := by
  have hloop := checkStages_assignments hfirst hfinal hne hsplit hlt
  have hends : checkEndpoints (assignmentsFor first final plan.splitLayer config.numLayers) [] []
      ((assignmentsFor first final plan.splitLayer config.numLayers).map fun stage =>
        ⟨stage.stageIndex,stage.workerId,endpoints stage.workerId⟩)=.ok () :=
    checkEndpoints_assignments hfirstEnd hfinalEnd hneEnd
  have hwireStages : wire.stages=plan.stages := by rw [hwire,wireOf]
  have hwireSplit : wire.splitLayer=plan.splitLayer := by rw [hwire,wireOf]
  have hwireGroups : wire.duplicatedTensorGroups=plan.duplicatedTensorGroups := by
    rw [hwire,wireOf]
  have hindex : stage.stageIndex<2 ∧
      (plan.stages[stage.stageIndex]?).map (·.workerId)=some stage.workerId := by
    rw [hstages] at hstage ⊢
    simp only [assignmentsFor,List.mem_cons,List.not_mem_nil,or_false] at hstage
    rcases hstage with rfl|rfl
    · exact ⟨Nat.zero_lt_two,rfl⟩
    · exact ⟨Nat.one_lt_two,rfl⟩
  unfold checkPlacement loadStageRequest
  simp only [hwireStages,hwireSplit,hwireGroups]
  have hlength : plan.stages.length=2 := by
    rw [hstages]
    rfl
  have hhead : (plan.stages[0]?).map (·.layerEnd)=some plan.splitLayer := by
    rw [hstages]
    rfl
  rw [←hstages] at hloop hends
  rw [hlength,hloop]
  simp only [MemoryAccounting.ok_bind,bind_ok_iff,reject_ok_iff,List.length_map,hlength]
  refine ⟨by omega,?_,?_,fun h => h rfl,hends,?_⟩
  · rw [hindex.2]
    simp
  · rw [hhead]
    simp
  · rintro ⟨hties,-,hmissing⟩
    exact hmissing (htied hties)

/-- The stages of an emitted plan run on the two workers planning was given. -/
theorem stages_emitted {evaluate : ProfileBundle → ModelManifest → WorkloadProfile →
      List StageAssignment → Option DType → Except Raised Evaluation}
    {sha256 : String → String} {workloadDigest : WorkloadProfile → String}
    {manifest : ModelManifest} {workers : List WorkerProfile} {links : List LinkProfile}
    {workload : WorkloadProfile} {settings : PlannerSettings} {bundle : Option ProfileBundle}
    {result : PlanningReport} {plan : DeploymentPlan}
    (hresult : createPlan evaluate sha256 workloadDigest manifest workers links workload settings
      bundle=.ok result) (hplan : result.plan=some plan) :
    ∃ first∈workers,∃ final∈workers,∃ selected,
      emitPlan sha256 workloadDigest manifest workload settings bundle selected=.ok plan ∧
      plan.stages=assignmentsFor first.workerId final.workerId plan.splitLayer
        manifest.config.numLayers := by
  obtain ⟨a,b,raw,rfl,-,-,hraw,hreport⟩ := createPlan_ok hresult
  obtain ⟨selected,hselected,hemit⟩ := report_plan hreport hplan
  obtain ⟨digests,-,hmade,-⟩ := emitPlan_ok hemit
  have hplacement : placementOf selected∈
      allPlacements a.workerId b.workerId manifest.config.numLayers := by
    rw [←(rawCandidates_ok hraw).1]
    obtain ⟨c,hc,rfl⟩ := List.mem_map.mp hselected
    exact List.mem_map.mpr ⟨c,hc,rfl⟩
  have hstages : plan.stages=assignmentsFor (placementOf selected).1 (placementOf selected).2.1
      plan.splitLayer manifest.config.numLayers := by
    rw [hmade]
    rfl
  rcases List.mem_append.mp hplacement with hmem|hmem
  · obtain ⟨split,-,hids⟩ := List.mem_map.mp hmem
    rw [←hids] at hstages
    exact ⟨a,.head _,b,.tail _ (.head _),selected,hemit,hstages⟩
  · obtain ⟨split,-,hids⟩ := List.mem_map.mp hmem
    rw [←hids] at hstages
    exact ⟨b,.tail _ (.head _),a,.head _,selected,hemit,hstages⟩

/-- A worker accepts an emitted plan exactly when the workload's activations
are F16. -/
theorem validatePlan_emitted_iff {evaluate : ProfileBundle → ModelManifest → WorkloadProfile →
      List StageAssignment → Option DType → Except Raised Evaluation}
    {sha256 : String → String} {workloadDigest : WorkloadProfile → String}
    {manifest : ModelManifest} {workers : List WorkerProfile} {links : List LinkProfile}
    {workload : WorkloadProfile} {settings : PlannerSettings} {bundle : Option ProfileBundle}
    {result : PlanningReport} {plan : DeploymentPlan} {wire : WireMessages.DeploymentPlan}
    {sent : WireMessages.ModelManifest} {endpoints : String → String} {stage : StageAssignment}
    {capabilities : BackendCapabilities} (hsha : ∀ content,isDigest (sha256 content)=true)
    (hresult : createPlan evaluate sha256 workloadDigest manifest workers links workload settings
      bundle=.ok result)
    (hplan : result.plan=some plan) (hprepared : Prepared sha256 manifest)
    (hnames : ∀ worker∈workers,worker.workerId≠"")
    (haddresses : ∀ worker∈workers,endpoints worker.workerId≠"")
    (hdistinct : ∀ worker∈workers,∀ worker'∈workers,worker.workerId≠worker'.workerId →
      endpoints worker.workerId≠endpoints worker'.workerId)
    (hwire : deploymentPlanToProto plan=.ok wire) (hsent : Sent manifest sent)
    (hstage : stage∈plan.stages) (hcapable : Capable manifest plan capabilities) :
    validatePlan sha256 (loadStageRequest plan wire sent endpoints stage.stageIndex)
        stage.workerId capabilities=.ok () ↔ workload.activationDtype=.f16 := by
  obtain ⟨first,hfirst,final,hfinal,selected,hemit,hstages⟩ := stages_emitted hresult hplan
  obtain ⟨found,hfound,hwireOf⟩ := deploymentPlanToProto_ok hwire
  obtain ⟨digests,-,hmade,hvalid⟩ := emitPlan_ok hemit
  obtain ⟨-,hpositive,hlt,hne⟩ := validatePartition_stages hvalid hstages
  have hnumber : ∀ d : DType,d.toProto.number=DataType.f16.number ↔ d=.f16 := by
    intro d
    cases d <;> decide
  have hactivation : wire.activationDtype=DataType.f16.number ↔ workload.activationDtype=.f16 := by
    rw [hwireOf,hmade]
    exact hnumber workload.activationDtype
  have hplacement : checkPlacement (loadStageRequest plan wire sent endpoints stage.stageIndex)
      wire (sent.config.getD default) stage.workerId=.ok () := by
    rw [←hsent.layers] at hstages hlt
    refine checkPlacement_assignments hwireOf hstages (hnames _ hfirst) (hnames _ hfinal) hne
      hpositive hlt (haddresses _ hfirst) (haddresses _ hfinal)
      (hdistinct _ hfirst _ hfinal hne) (fun htied => ?_) hstage
    rw [hsent.tied] at htied
    rw [hmade,planFor,duplicatedGroups,if_pos htied]
    exact .head _
  rw [validatePlan_ok_iff,←hactivation]
  constructor
  · rintro ⟨_,_,hplan',-,-,-,-,-,-,-,-,-,hf16,-⟩
    cases hplan'
    exact hf16
  · intro hf16
    have hvalidTypes : ∀ d : DType,DataType.isValid d.toProto.number=true := by
      intro d
      rw [DataType.isValid,DataType.ofNumber_number]
      rfl
    refine ⟨wire,sent,rfl,rfl,?_,?_,?_,?_,?_,?_,?_,?_,hf16,hplacement⟩
    · rw [hwireOf]
      exact checkIdentity_emitted hsha hemit hfound hprepared hsent
    · rw [hwireOf]
      exact hvalidTypes _
    · rw [hwireOf]
      exact hvalidTypes _
    · rw [hwireOf]
      exact checkPrecision_emitted hemit hfound hcapable
    · rw [hwireOf]
      exact checkMode_emitted hemit hfound
    · rw [hwireOf] at hwire ⊢
      exact checkDigest_emitted hemit hwire
    · rw [hsent.architecture]
      exact hcapable.architecture
    · rw [hwireOf]
      exact hcapable.execution

/-- The message of the sample manifest. -/
def sampleSent : WireMessages.ModelManifest :=
  {(default : WireMessages.ModelManifest) with
    schemaVersion := some ⟨1,1⟩
    manifestDigest := sampleDigest
    architecture := some ⟨"llama","1",[]⟩
    config := some {(default : WireMessages.ModelConfig) with numLayers := 2}}

/-- A worker that executes F32. -/
def sampleCapabilities : BackendCapabilities := ⟨["llama"],[DataType.f32.number],"",false⟩

/-- The address of a worker. -/
def sampleEndpoint (workerId : String) : String := workerId++":50051"

/-- The second stage of the planned order. -/
def sampleStage : StageAssignment := ⟨1,"x",1,2,false,true,true,true⟩

/-- What is planned in F32 without mixed precision, ready to be sent. -/
structure Planned (activationDtype : DType) (result : PlanningReport) (plan : DeploymentPlan) :
    Prop where
  made : sampleReport "x" "y" activationDtype false=.ok result
  planned : result.plan=some plan
  converted : deploymentPlanToProto plan=.ok (wireOf ⟨1,0⟩ plan)
  stage : sampleStage∈plan.stages
  activation : plan.activationDtype=activationDtype
  prepared : Prepared sampleHash sampleManifest
  sent : Sent sampleManifest sampleSent
  capable : Capable sampleManifest plan sampleCapabilities

/-- The fields of a plan that sending it depends on. -/
structure PlanShape where
  schemaVersion : String
  deploymentVersion : ℕ
  splitLayer : ℕ
  stages : List StageAssignment
  activationDtype : DType
  executionDtype : DType
  weightDtype : Option DType
  deriving DecidableEq

/-- The fields of the plan in a report. -/
def planShape (made : Except Raised PlanningReport) : Option PlanShape :=
  made.toOption.bind fun result => result.plan.map fun plan =>
    ⟨plan.schemaVersion,plan.deploymentVersion,plan.splitLayer,plan.stages,plan.activationDtype,
      plan.executionDtype,plan.weightDtype⟩

/-- A report of the expected shape is ready to be sent. -/
theorem exists_planned {activationDtype : DType}
    (h : planShape (sampleReport "x" "y" activationDtype false)=
      some ⟨"1.0",1,1,assignmentsFor "y" "x" 1 2,activationDtype,.f32,none⟩) :
    ∃ result plan,Planned activationDtype result plan := by
  obtain ⟨result,hresult,hshape⟩ := Option.bind_eq_some_iff.mp h
  obtain ⟨plan,hplan,hfields⟩ := Option.map_eq_some_iff.mp hshape
  simp only [PlanShape.mk.injEq] at hfields
  obtain ⟨hschema,hdeployment,hsplit,hstages,hactivation,hexecution,hweight⟩ := hfields
  refine ⟨result,plan,?_,hplan,?_,?_,hactivation,⟨rfl,"",rfl⟩,⟨⟨⟨1,1⟩,rfl,rfl⟩,rfl,rfl,rfl,rfl⟩,?_⟩
  · cases hmade : sampleReport "x" "y" activationDtype false with
    | error e =>
      rw [hmade] at hresult
      cases hresult
    | ok made =>
      rw [hmade] at hresult
      cases hresult
      rfl
  · have hversion : versionToProto plan.schemaVersion=.ok ⟨1,0⟩ := by
      rw [hschema]
      rfl
    rw [←hsplit] at hstages
    refine deploymentPlanToProto_made hversion hstages hdeployment ?_ (by decide)
    rw [hsplit]
    exact one_le_two
  · rw [hstages]
    exact .tail _ (.head _)
  · refine ⟨.head _,?_,fun hmixed => absurd hweight hmixed⟩
    rw [hexecution]
    exact .head _

/-- F16 activations are accepted. -/
theorem validatePlan_of_f16 :
    ∃ result plan,Planned .f16 result plan ∧
      validatePlan sampleHash (loadStageRequest plan (wireOf ⟨1,0⟩ plan) sampleSent sampleEndpoint 1)
        "x" sampleCapabilities=.ok () := by
  obtain ⟨result,plan,h⟩ : ∃ result plan,Planned .f16 result plan :=
    exists_planned (by decide +kernel)
  have hsha : ∀ content,isDigest (sampleHash content)=true := by
    intro content
    unfold sampleHash
    split
    · decide
    · decide
  refine ⟨result,plan,h,?_⟩
  exact (validatePlan_emitted_iff hsha h.made h.planned h.prepared
    (by simp [sampleWorkers,sampleWorker]) (by simp [sampleWorkers,sampleWorker,sampleEndpoint])
    (by simp [sampleEndpoint]) h.converted h.sent h.stage h.capable).mpr rfl

/-- F32 activations are planned and converted, and then refused. -/
theorem f32_activations_refused :
    ∃ result plan,Planned .f32 result plan ∧
      validatePlan sampleHash (loadStageRequest plan (wireOf ⟨1,0⟩ plan) sampleSent sampleEndpoint 1)
        "x" sampleCapabilities≠.ok () := by
  obtain ⟨result,plan,h⟩ : ∃ result plan,Planned .f32 result plan :=
    exists_planned (by decide +kernel)
  refine ⟨result,plan,h,fun hok => ?_⟩
  obtain ⟨wire,_,hwire,-,-,-,-,-,-,-,-,-,hf16,-⟩ := (validatePlan_ok_iff _ _ _ _).mp hok
  cases hwire
  have hactivation : plan.activationDtype.toProto.number=DataType.f16.number := hf16
  rw [h.activation] at hactivation
  exact absurd hactivation (by decide)

end Hllm.PlanAcceptance
