import Hllm.KeyedRanks
import Hllm.PlannerRanking

/-!
# One digest for a plan

A versioned plan is hashed in four places. `create_plan` hashes a dictionary
written by hand, activation and sweeps hash the model dump, and a worker
hashes what it rebuilds from the wire message. Optional fields travel as
`None`, as a missing key, as an empty string and as null. All four hash one
text, and the text fixes every field but the plan's own id and digest.
-/

namespace Hllm.PlanDigest

open JsonText KeyedRanks PlannerModels PlannerPlacement PlannerRanking
open PlanValidation (checkIdentity checkMode checkPrecision dtypeName isDigest measured mixed
  stageJson version)
open WireMessages (ArtifactVersion DataType StageAssignment)

/-- Assignment to an unsigned message field, which refuses what does not fit. -/
def unsignedField (bits value : ℕ) : Except Raised ℕ :=
  if value<2^bits then .ok value else .error (.value "Value out of range")

/-- `isdecimal` on ASCII text. -/
def isDecimal (digits : List Char) : Bool := !digits.isEmpty && digits.all Char.isDigit

/-- `_version_to_proto` -/
def versionToProto (version : String) : Except Raised ArtifactVersion :=
  match version.toList.splitOn '.' with
  | [major,minor] =>
    if isDecimal major && isDecimal minor then do
      let major ← unsignedField 32 (Nat.ofDigitChars 10 major 0)
      let minor ← unsignedField 32 (Nat.ofDigitChars 10 minor 0)
      pure ⟨major,minor⟩
    else .error (.value ("artifact version "++version++" is not major.minor"))
  | _ => .error (.value ("artifact version "++version++" is not major.minor"))

/-- One stage of `deployment_plan_to_proto`. -/
def stageToProto (stage : StageAssignment) : Except Raised StageAssignment := do
  let stageIndex ← unsignedField 32 stage.stageIndex
  let layerStart ← unsignedField 32 stage.layerStart
  let layerEnd ← unsignedField 32 stage.layerEnd
  pure {stage with stageIndex := stageIndex,layerStart := layerStart,layerEnd := layerEnd}

/-- `deployment_plan_to_proto` -/
def deploymentPlanToProto (plan : DeploymentPlan) :
    Except Raised WireMessages.DeploymentPlan := do
  let schemaVersion ← versionToProto plan.schemaVersion
  let splitLayer ← unsignedField 32 plan.splitLayer
  let stages ← plan.stages.mapM stageToProto
  let deploymentVersion ← unsignedField 64 plan.deploymentVersion
  pure {
    schemaVersion := some schemaVersion
    plannerVersion := plan.plannerVersion
    planId := plan.planId
    planDigest := plan.planDigest
    manifestDigest := plan.manifestDigest
    workloadId := plan.workloadId
    planningMode := plan.planningMode.value
    executionDtype := plan.executionDtype.toProto.number
    activationDtype := plan.activationDtype.toProto.number
    splitLayer := splitLayer
    stages := stages
    selectedCandidateId := plan.selectedCandidateId
    duplicatedTensorGroups := plan.duplicatedTensorGroups
    deploymentVersion := deploymentVersion
    workloadDigest := plan.workloadDigest.getD ""
    profileBundleDigest := plan.profileBundleDigest.getD ""
    weightDtype := plan.weightDtype.map fun d => d.toProto.number}

/-- `model_dump` without `plan_id` and `plan_digest`, keys sorted. The weight
type is left out when there is none, the two digests are null then. -/
def modelDump (plan : DeploymentPlan) : Json := .sorted ([
    ("schema_version",.string plan.schemaVersion),
    ("planner_version",.string plan.plannerVersion),
    ("deployment_version",.number plan.deploymentVersion),
    ("manifest_digest",.string plan.manifestDigest),("workload_id",.string plan.workloadId),
    ("planning_mode",.string plan.planningMode.value),
    ("execution_dtype",.string plan.executionDtype.value),
    ("activation_dtype",.string plan.activationDtype.value),
    ("split_layer",.number plan.splitLayer),
    ("workload_digest",stringOrNull plan.workloadDigest),
    ("profile_bundle_digest",stringOrNull plan.profileBundleDigest),
    ("stages",.array (plan.stages.map stageJson)),
    ("duplicated_tensor_groups",.array (plan.duplicatedTensorGroups.map .string)),
    ("selected_candidate_id",.string plan.selectedCandidateId)]++
  match plan.weightDtype with
  | some weightDtype => [("weight_dtype",.string weightDtype.value)]
  | none => [])

/-- A field that fits keeps its value. -/
theorem unsignedField_ok {bits value n : ℕ} (h : unsignedField bits value=.ok n) :
    n=value ∧ value<2^bits := by
  unfold unsignedField at h
  split at h
  · cases h
    exact ⟨rfl,‹_›⟩
  · cases h

/-- Stages travel unchanged. -/
theorem stageToProto_ok {stage sent : StageAssignment} (h : stageToProto stage=.ok sent) :
    sent=stage := by
  obtain ⟨_,hindex,h⟩ := bind_eq_ok.mp h
  obtain ⟨_,hstart,h⟩ := bind_eq_ok.mp h
  obtain ⟨_,hend,h⟩ := bind_eq_ok.mp h
  cases h
  rw [(unsignedField_ok hindex).1,(unsignedField_ok hstart).1,(unsignedField_ok hend).1]

/-- The message of a plan with the given schema version. -/
def wireOf (version : ArtifactVersion) (plan : DeploymentPlan) : WireMessages.DeploymentPlan where
  schemaVersion := some version
  plannerVersion := plan.plannerVersion
  planId := plan.planId
  planDigest := plan.planDigest
  manifestDigest := plan.manifestDigest
  workloadId := plan.workloadId
  planningMode := plan.planningMode.value
  executionDtype := plan.executionDtype.toProto.number
  activationDtype := plan.activationDtype.toProto.number
  splitLayer := plan.splitLayer
  stages := plan.stages
  selectedCandidateId := plan.selectedCandidateId
  duplicatedTensorGroups := plan.duplicatedTensorGroups
  deploymentVersion := plan.deploymentVersion
  workloadDigest := plan.workloadDigest.getD ""
  profileBundleDigest := plan.profileBundleDigest.getD ""
  weightDtype := plan.weightDtype.map fun d => d.toProto.number

/-- What a converted plan is. -/
theorem deploymentPlanToProto_ok {plan : DeploymentPlan} {wire : WireMessages.DeploymentPlan}
    (h : deploymentPlanToProto plan=.ok wire) :
    ∃ version,versionToProto plan.schemaVersion=.ok version ∧ wire=wireOf version plan := by
  obtain ⟨version,hversion,h⟩ := bind_eq_ok.mp h
  obtain ⟨_,hsplit,h⟩ := bind_eq_ok.mp h
  obtain ⟨stages,hstages,h⟩ := bind_eq_ok.mp h
  obtain ⟨_,hdeployment,h⟩ := bind_eq_ok.mp h
  have hsame : stages=plan.stages := by
    have himage := map_eq_of_forall₂ (f:=id) (g:=id) (fun _ _ hs => stageToProto_ok hs)
      (forall₂_of_mapM hstages)
    simpa using himage
  cases h
  rw [(unsignedField_ok hsplit).1,(unsignedField_ok hdeployment).1,hsame]
  exact ⟨version,hversion,rfl⟩

/-- Plans of two contiguous stages convert as long as their layers fit. -/
theorem deploymentPlanToProto_made {plan : DeploymentPlan} {version : ArtifactVersion}
    {first final : String} {layers : ℕ} (hversion : versionToProto plan.schemaVersion=.ok version)
    (hstages : plan.stages=assignmentsFor first final plan.splitLayer layers)
    (hdeployment : plan.deploymentVersion=1) (hsplit : plan.splitLayer ≤ layers)
    (hlayers : layers<2^32) : deploymentPlanToProto plan=.ok (wireOf version plan) := by
  have hfield : ∀ value,value ≤ layers → unsignedField 32 value=.ok value :=
    fun value hle => if_pos (Nat.lt_of_le_of_lt hle hlayers)
  have hindex : ∀ index<2,unsignedField 32 index=.ok index :=
    fun index hlt => if_pos (Nat.lt_trans hlt (by decide))
  have hsent : plan.stages.mapM stageToProto=.ok plan.stages := by
    rw [hstages,assignmentsFor,List.mapM_cons,List.mapM_cons,List.mapM_nil]
    simp only [stageToProto,hindex 0 (by decide),hindex 1 (by decide),
      hfield _ hsplit,hfield _ (Nat.le_refl _)]
    rfl
  unfold deploymentPlanToProto
  rw [hversion,hsent,hfield _ hsplit,hdeployment]
  unfold wireOf
  rw [hdeployment]
  rfl

/-- A worker recognises measured plans. -/
theorem measured_wireOf (version : ArtifactVersion) (plan : DeploymentPlan) :
    measured (wireOf version plan)=decide (plan.planningMode=.measured) := by
  have hvalue : ∀ mode : PlanningMode,(mode.value=="measured")=decide (mode=.measured) := by
    intro mode
    cases mode <;> rfl
  exact hvalue plan.planningMode

/-- A worker recognises mixed plans. -/
theorem mixed_wireOf (version : ArtifactVersion) (plan : DeploymentPlan) :
    mixed (wireOf version plan)=plan.weightDtype.isSome :=
  Option.isSome_map

/-- A plan whose digest a worker checks. -/
def Versioned (plan : DeploymentPlan) : Prop :=
  plan.planningMode=.measured ∨ plan.weightDtype≠none

/-- A validated digest is present. -/
theorem eq_some_of_isDigest {value : Option String} (h : isDigest (value.getD "")=true) :
    ∃ digest,value=some digest := by
  cases value with
  | none => exact absurd h (by decide)
  | some digest => exact ⟨digest,rfl⟩

/-- What the validator says about the optional fields of a versioned plan. -/
theorem validatePartition_fields {plan : DeploymentPlan} (h : validatePartition plan=.ok ()) :
    (∀ d,plan.weightDtype=some d → d=.f16 ∧ plan.executionDtype=.f32 ∧
        plan.schemaVersion="1.2") ∧
      (plan.weightDtype=none → plan.schemaVersion≠"1.2") ∧
      (plan.planningMode=.measured →
        plan.schemaVersion=(if plan.weightDtype.isSome then "1.2" else "1.1") ∧
        isDigest (plan.workloadDigest.getD "")=true ∧
        isDigest (plan.profileBundleDigest.getD "")=true) ∧
      (plan.planningMode≠.measured →
        plan.workloadDigest=none ∧ plan.profileBundleDigest=none) := by
  unfold validatePartition at h
  obtain ⟨_,-,h⟩ := bind_eq_ok.mp h
  obtain ⟨_,hmixed,h⟩ := bind_eq_ok.mp h
  obtain ⟨_,hplain,h⟩ := bind_eq_ok.mp h
  obtain ⟨_,hmeasured,h⟩ := bind_eq_ok.mp h
  obtain ⟨_,hlegacy,-⟩ := bind_eq_ok.mp h
  rw [check_ok_iff] at hmixed hplain hmeasured hlegacy
  refine ⟨fun d hd => ?_,fun hnone => ?_,fun hmode => ?_,fun hmode => ?_⟩
  · rcases hmixed with hnone|⟨hf16,hf32,hschema⟩
    · rw [hnone] at hd
      cases hd
    · rw [hf16] at hd
      cases hd
      exact ⟨rfl,hf32,hschema⟩
  · exact hplain.resolve_left fun hne => hne hnone
  · exact hmeasured.resolve_left fun hne => hne hmode
  · exact hlegacy.resolve_left hmode

/-- Stages that pass the validator split the layers between two workers. -/
theorem validatePartition_stages {plan : DeploymentPlan} {first final : String}
    {split layers : ℕ} (h : validatePartition plan=.ok ())
    (hstages : plan.stages=assignmentsFor first final split layers) :
    plan.splitLayer=split ∧ 0 < split ∧ split < layers ∧ first≠final := by
  unfold validatePartition at h
  obtain ⟨_,-,h⟩ := bind_eq_ok.mp h
  obtain ⟨_,-,h⟩ := bind_eq_ok.mp h
  obtain ⟨_,-,h⟩ := bind_eq_ok.mp h
  obtain ⟨_,-,h⟩ := bind_eq_ok.mp h
  obtain ⟨_,-,h⟩ := bind_eq_ok.mp h
  obtain ⟨_,hpartition,hsplit⟩ := bind_eq_ok.mp h
  rw [check_ok_iff,hstages] at hpartition hsplit
  simp only [assignmentsFor,partitionValid,List.length_cons,List.length_nil] at hpartition
  simp only [Bool.and_eq_true,decide_eq_true_eq,List.mem_singleton] at hpartition
  exact ⟨by simpa [assignmentsFor] using hsplit,by tauto,by tauto,fun he => by tauto⟩

/-- A worker rebuilds the model dump of a versioned plan from its message. -/
theorem unsignedPlan_wireOf {plan : DeploymentPlan} (hvalid : validatePartition plan=.ok ())
    (hversioned : Versioned plan) (version : ArtifactVersion) :
    PlanValidation.unsignedPlan (wireOf version plan)=modelDump plan := by
  obtain ⟨hmixed,-,hmeasured,hlegacy⟩ := validatePartition_fields hvalid
  have hname : ∀ d : DType,dtypeName d.toProto.number=d.value := by
    intro d
    rw [dtypeName,DataType.ofNumber_number]
    rfl
  have hf16 : DType.f16.value="F16" := rfl
  by_cases hmode : plan.planningMode=.measured
  · obtain ⟨hschema,hworkload,hbundle⟩ := hmeasured hmode
    obtain ⟨workloadDigest,hworkload⟩ := eq_some_of_isDigest hworkload
    obtain ⟨bundleDigest,hbundle⟩ := eq_some_of_isDigest hbundle
    cases hweight : plan.weightDtype with
    | none =>
      simp [PlanValidation.unsignedPlan,modelDump,wireOf,mixed,measured,hname,hmode,hweight,
        hschema,hworkload,hbundle,PlanningMode.value,stringOrNull,Json.sorted,List.insertionSort,
        List.orderedInsert]
    | some d =>
      obtain ⟨rfl,-,-⟩ := hmixed d hweight
      simp [PlanValidation.unsignedPlan,modelDump,wireOf,mixed,measured,hname,hmode,hweight,
        hschema,hworkload,hbundle,PlanningMode.value,stringOrNull,Json.sorted,List.insertionSort,
        List.orderedInsert,hf16]
  · obtain ⟨d,hweight⟩ := Option.ne_none_iff_exists'.mp (hversioned.resolve_left hmode)
    obtain ⟨rfl,-,hschema⟩ := hmixed d hweight
    obtain ⟨hworkload,hbundle⟩ := hlegacy hmode
    have hvalue : plan.planningMode.value≠"measured" := by
      cases hm : plan.planningMode with
      | measured => exact absurd hm hmode
      | feasibility => decide
      | estimated => decide
    simp [PlanValidation.unsignedPlan,modelDump,wireOf,mixed,measured,hname,hvalue,hweight,
      hschema,hworkload,hbundle,stringOrNull,Json.sorted,List.insertionSort,
      List.orderedInsert,hf16]

section Created

variable {sha256 : String → String} {workloadDigest : WorkloadProfile → String}
variable {manifest : ModelManifest} {workload : WorkloadProfile} {settings : PlannerSettings}
variable {bundle : Option ProfileBundle} {digests : Option (String×String)}
variable {selected : PlanCandidate}

/-- A plan carries measured digests exactly in measured mode. -/
theorem identities_ok (h : identities workloadDigest workload settings bundle=.ok digests) :
    (∃ bundle',settings.mode=.measured ∧ bundle=some bundle' ∧
        digests=some (workloadDigest workload,bundle'.bundleDigest)) ∨
      (settings.mode≠.measured ∧ digests=none) := by
  by_cases hmode : settings.mode=.measured
  · cases bundle with
    | none =>
      simp only [identities,hmode] at h
      cases h
    | some bundle =>
      simp only [identities,hmode] at h
      cases h
      exact .inl ⟨bundle,hmode,rfl,rfl⟩
  · refine .inr ⟨hmode,?_⟩
    unfold identities at h
    split at h
    · exact absurd ‹_› hmode
    · cases h
    · cases h
      rfl

/-- The dictionary `create_plan` hashes is the model dump of the plan it makes. -/
theorem unsignedPlan_planFor
    (hdigests : identities workloadDigest workload settings bundle=.ok digests)
    (hversioned : Versioned (planFor sha256 manifest workload settings digests selected)) :
    unsignedText manifest workload settings digests selected=
      text (modelDump (planFor sha256 manifest workload settings digests selected)) := by
  unfold unsignedText
  congr 1
  rcases identities_ok hdigests with ⟨bundle,hmode,-,rfl⟩|⟨hmode,rfl⟩
  · cases hweight : settings.weightDtype with
    | none =>
      simp [unsignedPlan,modelDump,planFor,setItem,hweight,stringOrNull,Json.sorted,
        List.insertionSort,List.orderedInsert]
    | some d =>
      simp [unsignedPlan,modelDump,planFor,setItem,hweight,stringOrNull,Json.sorted,
        List.insertionSort,List.orderedInsert]
  · obtain ⟨d,hweight⟩ := Option.ne_none_iff_exists'.mp (hversioned.resolve_left hmode)
    have hweight : settings.weightDtype=some d := hweight
    simp [unsignedPlan,modelDump,planFor,setItem,hweight,stringOrNull,Json.sorted,
      List.insertionSort,List.orderedInsert]

end Created

section Injectivity

variable {plan plan' : WireMessages.DeploymentPlan}

/-- Messages whose text a worker hashes: the checks before the hash passed. -/
structure Hashed (plan : WireMessages.DeploymentPlan) : Prop where
  /-- Schema and identity were accepted. -/
  identity : ∃ manifest,checkIdentity plan manifest=.ok ()
  /-- The execution type has a name. -/
  execution : DataType.isValid plan.executionDtype=true
  /-- The activation type has a name. -/
  activation : DataType.isValid plan.activationDtype=true
  /-- The precision was accepted by some worker. -/
  precision : ∃ capabilities,checkPrecision plan capabilities=.ok ()
  /-- The planning mode was accepted. -/
  mode : checkMode plan=.ok ()
  /-- Only these plans are hashed. -/
  versioned : measured plan=true ∨ mixed plan=true

/-- The checks fix the fields that the text leaves out. -/
theorem Hashed.fields (h : Hashed plan) :
    plan.schemaVersion=some ⟨1,if mixed plan then 2 else 1⟩ ∧
      plan.weightDtype=(if mixed plan then some DataType.f16.number else none) ∧
      (measured plan=false → plan.workloadDigest="" ∧ plan.profileBundleDigest="") := by
  obtain ⟨manifest,hidentity⟩ := h.identity
  obtain ⟨capabilities,hprecision⟩ := h.precision
  have hmode := h.mode
  unfold checkIdentity at hidentity
  unfold checkPrecision at hprecision
  unfold checkMode at hmode
  simp only [PlanValidation.bind_ok_iff,PlanValidation.reject_ok_iff,not_or,not_and,not_not]
    at hidentity hprecision hmode
  obtain ⟨hmajor,-⟩ := hidentity
  obtain ⟨hminor,hcontract⟩ := hprecision
  obtain ⟨hmeasured,-,hlegacy⟩ := hmode
  refine ⟨?_,?_,hlegacy⟩
  · obtain ⟨found,hfound⟩ : ∃ found,plan.schemaVersion=some found := by
      cases hversion : plan.schemaVersion with
      | none =>
        rw [hversion] at hmajor
        exact absurd hmajor (by decide)
      | some found => exact ⟨found,rfl⟩
    obtain ⟨major,minor⟩ := found
    rw [hfound] at hmajor hminor hmeasured ⊢
    have hone : major=1 := hmajor
    cases hmixed : mixed plan with
    | true =>
      rw [hmixed] at hminor
      have htwo : minor=2 := by simpa [version] using hminor.symm
      rw [hone,htwo]
      rfl
    | false =>
      have hpresent : measured plan=true := by simpa [hmixed] using h.versioned
      have hminor : minor=1 := by simpa [version,hmixed] using (hmeasured hpresent).1
      rw [hone,hminor]
      rfl
  · cases hmixed : mixed plan with
    | true => exact (hcontract hmixed).2.1
    | false => simpa [mixed] using hmixed

/-- A stage can be read off its JSON. -/
theorem stageJson_injective : Function.Injective stageJson := by
  rintro ⟨⟩ ⟨⟩ h
  simpa [stageJson,Json.sorted,List.insertionSort,List.orderedInsert,and_comm,and_assoc,
    and_left_comm] using h

/-- A named type can be read off its name. -/
theorem dtypeName_injective {n n' : ℤ} (hn : DataType.isValid n=true)
    (hn' : DataType.isValid n'=true) (h : dtypeName n=dtypeName n') : n=n' := by
  obtain ⟨d,hd⟩ := Option.isSome_iff_exists.mp hn
  obtain ⟨d',hd'⟩ := Option.isSome_iff_exists.mp hn'
  rw [dtypeName,dtypeName,hd,hd'] at h
  have hsame : d=d' := DataType.name_injective h
  rw [←DataType.number_of_ofNumber hd,←DataType.number_of_ofNumber hd',hsame]

/-- What can be read off the JSON of a message, key by key. -/
theorem unsignedPlan_fields
    (h : PlanValidation.unsignedPlan plan=PlanValidation.unsignedPlan plan') :
    mixed plan=mixed plan' ∧
      dtypeName plan.activationDtype=dtypeName plan'.activationDtype ∧
      plan.deploymentVersion=plan'.deploymentVersion ∧
      plan.duplicatedTensorGroups.map Json.string=plan'.duplicatedTensorGroups.map Json.string ∧
      dtypeName plan.executionDtype=dtypeName plan'.executionDtype ∧
      plan.manifestDigest=plan'.manifestDigest ∧ plan.plannerVersion=plan'.plannerVersion ∧
      plan.planningMode=plan'.planningMode ∧
      (if measured plan then Json.string plan.profileBundleDigest else .null)=
        (if measured plan' then Json.string plan'.profileBundleDigest else .null) ∧
      plan.selectedCandidateId=plan'.selectedCandidateId ∧ plan.splitLayer=plan'.splitLayer ∧
      plan.stages.map stageJson=plan'.stages.map stageJson ∧
      (if measured plan then Json.string plan.workloadDigest else .null)=
        (if measured plan' then Json.string plan'.workloadDigest else .null) ∧
      plan.workloadId=plan'.workloadId := by
  cases hmixed : mixed plan <;> cases hmixed' : mixed plan' <;>
    simp [PlanValidation.unsignedPlan,hmixed,hmixed',Json.sorted,List.insertionSort,
      List.orderedInsert] at h
  · exact ⟨rfl,h⟩
  · exact ⟨rfl,h⟩

/-- Messages with one text have the same fields, identity and digest apart. -/
theorem eq_of_text (h : Hashed plan) (h' : Hashed plan')
    (htext : text (PlanValidation.unsignedPlan plan)=text (PlanValidation.unsignedPlan plan')) :
    plan'={plan with planId := plan'.planId,planDigest := plan'.planDigest} := by
  obtain ⟨hversion,hweight,hdigests⟩ := h.fields
  obtain ⟨hversion',hweight',hdigests'⟩ := h'.fields
  obtain ⟨hmixed,hactivation,hdeployment,hgroups,hexecution,hmanifest,hplanner,hmode,hbundle,
    hcandidate,hsplit,hstages,hworkload,hid⟩ := unsignedPlan_fields (text_injective htext)
  have hmeasured : measured plan=measured plan' := by
    rw [measured,measured,hmode]
  have hstring : Function.Injective Json.string := fun _ _ he => Json.string.inj he
  have hgroups := List.map_injective_iff.mpr hstring hgroups
  have hstages := List.map_injective_iff.mpr stageJson_injective hstages
  have hactivation := dtypeName_injective h.activation h'.activation hactivation
  have hexecution := dtypeName_injective h.execution h'.execution hexecution
  have hidentities : plan.workloadDigest=plan'.workloadDigest ∧
      plan.profileBundleDigest=plan'.profileBundleDigest := by
    cases hm : measured plan with
    | true =>
      rw [←hmeasured,hm] at hworkload hbundle
      exact ⟨hstring hworkload,hstring hbundle⟩
    | false =>
      rw [(hdigests hm).1,(hdigests hm).2]
      rw [hmeasured] at hm
      rw [(hdigests' hm).1,(hdigests' hm).2]
      exact ⟨rfl,rfl⟩
  rw [hmixed,←hversion'] at hversion
  rw [hmixed,←hweight'] at hweight
  calc
    plan'={plan' with planId := plan'.planId,planDigest := plan'.planDigest} := rfl
    _={plan with planId := plan'.planId,planDigest := plan'.planDigest} := by
      rw [hversion,hplanner,hmanifest,hid,hmode,hexecution,hactivation,hsplit,hstages,
        hcandidate,hgroups,hdeployment,hidentities.1,hidentities.2,hweight]

end Injectivity

/-- The part of a sweep specification its placements are made from. The frozen
plan is a validated measured plan of two stages. -/
structure SweepSpec where
  manifest : ModelManifest
  workload : WorkloadProfile
  selectedPlan : DeploymentPlan
  valid : validatePartition selectedPlan=.ok ()
  two_stages : selectedPlan.stages.length=2
  mode_measured : selectedPlan.planningMode=.measured

/-- `provisional`, the plan of one order and split before it has an identity. -/
def provisional (spec : SweepSpec) (first final : String) (split : ℕ) : DeploymentPlan :=
  provisionalPlan spec.manifest spec.workload spec.selectedPlan first final split

/-- The plan of one order and split of a sweep. -/
def sweepPlan (sha256 : String → String) (spec : SweepSpec) (first final : String) (split : ℕ) :
    Except Raised DeploymentPlan := do
  validatePartition (provisional spec first final split)
  let planHash := fun plan => sha256 (text (modelDump plan))
  pure (placementPlan planHash spec.manifest spec.workload spec.selectedPlan first final split)

/-- `placements` of a sweep. -/
def sweepPlacements (sha256 : String → String) (spec : SweepSpec) :
    Except Raised (List DeploymentPlan) :=
  match spec.selectedPlan.stages.map (·.workerId) with
  | [a,b] =>
    let splits := List.range' 1 (spec.manifest.config.numLayers-1)
    ([(a,b),(b,a)].flatMap fun order => splits.map fun split => (order.1,order.2,split)).mapM
      fun placement => sweepPlan sha256 spec placement.1 placement.2.1 placement.2.2
  | _ => .error (.value "not enough values to unpack")

/-- A text is the one hashed wherever the plan's digest is made or checked. -/
structure HashedAlike (sha256 : String → String) (plan : DeploymentPlan) (hashed : String) :
    Prop where
  /-- The plan carries its hash. -/
  digest : plan.planDigest=sha256 hashed
  /-- The text of the model dump. -/
  dump : text (modelDump plan)=hashed
  /-- The plan has a message if its layers fit into 32 bits. -/
  sent : (∀ stage∈plan.stages,stage.layerEnd<2^32) → ∃ wire,deploymentPlanToProto plan=.ok wire
  /-- The text a worker rebuilds from the message. -/
  rebuilt : ∀ wire,deploymentPlanToProto plan=.ok wire →
    text (PlanValidation.unsignedPlan wire)=hashed

/-- Versioned plans have a schema version the wire knows. -/
theorem versionToProto_versioned {plan : DeploymentPlan} (hvalid : validatePartition plan=.ok ())
    (hversioned : Versioned plan) : ∃ version,versionToProto plan.schemaVersion=.ok version := by
  obtain ⟨hmixed,-,hmeasured,-⟩ := validatePartition_fields hvalid
  cases hweight : plan.weightDtype with
  | some d =>
    rw [(hmixed d hweight).2.2]
    exact ⟨⟨1,2⟩,rfl⟩
  | none =>
    have hmode := hversioned.resolve_right fun hne => hne hweight
    rw [(hmeasured hmode).1,hweight]
    exact ⟨⟨1,1⟩,rfl⟩

/-- The dump of a valid versioned plan of two stages is what a worker rebuilds. -/
theorem hashedAlike_of_dump {sha256 : String → String} {plan : DeploymentPlan}
    {first final : String} {split layers : ℕ} (hvalid : validatePartition plan=.ok ())
    (hversioned : Versioned plan)
    (hstages : plan.stages=assignmentsFor first final split layers)
    (hdeployment : plan.deploymentVersion=1)
    (hdigest : plan.planDigest=sha256 (text (modelDump plan))) :
    HashedAlike sha256 plan (text (modelDump plan)) := by
  refine ⟨hdigest,rfl,fun hfits => ?_,fun wire hwire => ?_⟩
  · obtain ⟨version,hversion⟩ := versionToProto_versioned hvalid hversioned
    obtain ⟨hsplit,-,hlt,-⟩ := validatePartition_stages hvalid hstages
    rw [←hsplit] at hstages hlt
    have hlayers := hfits ⟨1,final,plan.splitLayer,layers,false,true,true,true⟩ (by
      rw [hstages]
      exact .tail _ (.head _))
    exact ⟨_,deploymentPlanToProto_made hversion hstages hdeployment (Nat.le_of_lt hlt) hlayers⟩
  · obtain ⟨version,-,rfl⟩ := deploymentPlanToProto_ok hwire
    rw [unsignedPlan_wireOf hvalid hversioned]

/-- What a plan of a sweep is. -/
theorem sweepPlacements_mem {sha256 : String → String} {spec : SweepSpec}
    {plans : List DeploymentPlan} (h : sweepPlacements sha256 spec=.ok plans)
    {plan : DeploymentPlan} (hplan : plan∈plans) :
    ∃ first final split,sweepPlan sha256 spec first final split=.ok plan := by
  unfold sweepPlacements at h
  split at h
  · obtain ⟨placement,hmade⟩ := exists_of_forall₂ (forall₂_of_mapM h) hplan
    exact ⟨_,_,_,hmade⟩
  · cases h

/-- The digest of a sweep plan is that of its own dump, since the identity it
gets last is not part of it. -/
theorem sweepPlan_ok {sha256 : String → String} {spec : SweepSpec} {first final : String}
    {split : ℕ} {plan : DeploymentPlan} (h : sweepPlan sha256 spec first final split=.ok plan) :
    validatePartition plan=.ok () ∧
      text (modelDump plan)=text (modelDump (provisional spec first final split)) ∧
      plan.planDigest=sha256 (text (modelDump plan)) ∧ plan.deploymentVersion=1 ∧
      plan.stages=assignmentsFor first final split spec.manifest.config.numLayers := by
  obtain ⟨_,hvalid,h⟩ := bind_eq_ok.mp h
  cases h
  exact ⟨hvalid,rfl,rfl,rfl,rfl⟩

/-- A created plan hashes alike, from the dictionary `create_plan` wrote. -/
theorem hashedAlike_created {sha256 : String → String} {workloadDigest : WorkloadProfile → String}
    {manifest : ModelManifest} {workload : WorkloadProfile} {settings : PlannerSettings}
    {bundle : Option ProfileBundle} {selected : PlanCandidate} {plan : DeploymentPlan}
    (h : emitPlan sha256 workloadDigest manifest workload settings bundle selected=.ok plan)
    (hversioned : Versioned plan) :
    ∃ digests,plan=planFor sha256 manifest workload settings digests selected ∧
      HashedAlike sha256 plan (unsignedText manifest workload settings digests selected) := by
  obtain ⟨digests,hdigests,rfl,hvalid⟩ := emitPlan_ok h
  have htext := unsignedPlan_planFor hdigests hversioned
  refine ⟨digests,rfl,?_⟩
  rw [htext]
  refine hashedAlike_of_dump hvalid hversioned (by rfl) rfl ?_
  rw [←htext]
  rfl

/-- One text is hashed for every measured or mixed plan of planning and of a
sweep, and messages whose text is the same differ in nothing but identity. -/
theorem plan_text_agrees (sha256 : String → String) :
    (∀ evaluate workloadDigest manifest workers links workload settings bundle result plan,
      createPlan evaluate sha256 workloadDigest manifest workers links workload settings bundle=
        .ok result → result.plan=some plan → Versioned plan →
      ∃ digests selected,plan=planFor sha256 manifest workload settings digests selected ∧
        HashedAlike sha256 plan (unsignedText manifest workload settings digests selected)) ∧
      (∀ spec plans plan,sweepPlacements sha256 spec=.ok plans → plan∈plans → Versioned plan →
        ∃ first final split,sweepPlan sha256 spec first final split=.ok plan ∧
          HashedAlike sha256 plan (text (modelDump (provisional spec first final split)))) ∧
      ∀ wire wire',Hashed wire → Hashed wire' →
        text (PlanValidation.unsignedPlan wire)=text (PlanValidation.unsignedPlan wire') →
        wire'={wire with planId := wire'.planId,planDigest := wire'.planDigest} := by
  refine ⟨?_,?_,fun wire wire' h h' htext => eq_of_text h h' htext⟩
  · intro evaluate workloadDigest manifest workers links workload settings bundle result plan
      hresult hplan hversioned
    obtain ⟨first,second,raw,-,-,-,-,hreport⟩ := createPlan_ok hresult
    obtain ⟨selected,-,hemit⟩ := report_plan hreport hplan
    obtain ⟨digests,hmade,halike⟩ := hashedAlike_created hemit hversioned
    exact ⟨digests,selected,hmade,halike⟩
  · intro spec plans plan hplans hplan hversioned
    obtain ⟨first,final,split,hmade⟩ := sweepPlacements_mem hplans hplan
    obtain ⟨hvalid,htext,hdigest,hdeployment,hstages⟩ := sweepPlan_ok hmade
    refine ⟨first,final,split,hmade,?_⟩
    rw [←htext]
    exact hashedAlike_of_dump hvalid hversioned hstages hdeployment hdigest

/-- A measured plan with mixed precision. -/
def samplePlan : DeploymentPlan where
  schemaVersion := "1.2"
  plannerVersion := "0.2.0"
  planId := "plan-e3b0c44298fc1c14"
  deploymentVersion := 1
  planDigest := sampleDigest
  manifestDigest := sampleDigest
  workloadId := "short"
  planningMode := .measured
  executionDtype := .f32
  weightDtype := some .f16
  activationDtype := .f16
  splitLayer := 1
  workloadDigest := some sampleDigest
  profileBundleDigest := some sampleDigest
  stages := assignmentsFor "y" "x" 1 2
  duplicatedTensorGroups := []
  selectedCandidateId := "y--x-m001"

/-- A sweep around the measured plan. -/
def sampleSpec : SweepSpec where
  manifest := sampleManifest
  workload := sampleWorkload .f16
  selectedPlan := samplePlan
  valid := rfl
  two_stages := rfl
  mode_measured := rfl

/-- The message of the measured plan reaches the hash. -/
theorem samplePlan_hashed (planId : String) (hid : planId≠"") :
    Hashed {wireOf ⟨1,2⟩ samplePlan with planId := planId} where
  identity := by
    refine ⟨{(default : WireMessages.ModelManifest) with
      schemaVersion := some ⟨1,1⟩
      manifestDigest := sampleDigest},?_⟩
    simp only [checkIdentity,PlanValidation.reject_ok_iff,hid]
    decide
  execution := rfl
  activation := rfl
  precision := ⟨⟨[],[],"",true⟩,rfl⟩
  mode := by
    have hmode : checkMode (wireOf ⟨1,2⟩ samplePlan)=.ok () := by
      simp only [checkMode,PlanValidation.bind_ok_iff,PlanValidation.reject_ok_iff]
      decide
    exact hmode
  versioned := .inl rfl

/-- A plan of planning, one of a sweep and two messages of one text. -/
theorem plan_text_of_mixed_plans :
    (∃ result plan hashed,sampleReport "x" "y" .f16 true=.ok result ∧ result.plan=some plan ∧
      HashedAlike sampleHash plan hashed) ∧
    (∃ plans plan hashed,sweepPlacements sampleHash sampleSpec=.ok plans ∧
      plan∈plans ∧ HashedAlike sampleHash plan hashed) ∧
    ({wireOf ⟨1,2⟩ samplePlan with planId := "a"} : WireMessages.DeploymentPlan)=
      {{wireOf ⟨1,2⟩ samplePlan with planId := "b"} with planId := "a"} := by
  obtain ⟨hcreated,hswept,hinjective⟩ := plan_text_agrees sampleHash
  refine ⟨?_,?_,?_⟩
  · have hplanned : (sampleReport "x" "y" .f16 true).toOption.bind
        (fun result => result.plan.map (·.weightDtype))=some (some .f16) := by decide +kernel
    cases hresult : sampleReport "x" "y" .f16 true with
    | error e =>
      rw [hresult] at hplanned
      cases hplanned
    | ok result =>
      rw [hresult] at hplanned
      obtain ⟨plan,hplan,hweight⟩ := Option.map_eq_some_iff.mp hplanned
      have hversioned : Versioned plan := .inr (by simp [hweight])
      obtain ⟨digests,selected,-,halike⟩ :=
        hcreated _ _ _ _ _ _ _ _ result plan hresult hplan hversioned
      exact ⟨result,plan,_,rfl,hplan,halike⟩
  · obtain ⟨plan,rest,hplans,hweight⟩ : ∃ plan rest,
        sweepPlacements sampleHash sampleSpec=.ok (plan::rest) ∧
          plan.weightDtype=some .f16 := ⟨_,_,rfl,rfl⟩
    have hversioned : Versioned plan := .inr (by simp [hweight])
    obtain ⟨first,final,split,-,halike⟩ := hswept _ _ plan hplans (.head _) hversioned
    exact ⟨_,plan,_,hplans,.head _,halike⟩
  · exact hinjective _ _ (samplePlan_hashed "b" (by decide)) (samplePlan_hashed "a" (by decide)) rfl

end Hllm.PlanDigest
