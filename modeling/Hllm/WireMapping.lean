import Hllm.DenseLoader
import Hllm.ManifestModels
import Hllm.MirroredConversions
import Hllm.PlanDigest

/-!
# Mapping manifests and plans to the wire

`to_proto` and `from_proto` of manifests and deployment plans, field by field.
An absent value travels as a presence bit, an empty string or an omitted
message. The two directions undo each other.
-/

namespace Hllm.WireMapping

open DenseLoader (roleNumber)
open ManifestModels MirroredConversions PlannerPlacement Traversals
open PlanDigest (deploymentPlanToProto deploymentPlanToProto_ok isDecimal stageToProto
  stageToProto_ok unsignedField unsignedField_ok validatePartition_fields versionToProto wireOf)
open PlanValidation (isDigest)
open PlannerModels (DType TensorRole PlanningMode DeploymentPlan Raised)
open WireMessages (ArtifactVersion DataType StageAssignment ModelSource)

section Mapping

/-- `_version_from_proto` -/
def versionFromProto (version : ArtifactVersion) : String :=
  toString version.major++"."++toString version.minor

/-- `_required_dtype` -/
def requiredDtype (value : ℤ) : Except Raised DType :=
  match [DType.bool,.u8,.i8,.i16,.u16,.i32,.u32,.i64,.u64,.f16,.bf16,.f32,.f64].find? fun dtype =>
      dtype.toProto.number==value with
  | some dtype => .ok dtype
  | none => .error (.value ("unsupported wire dtype value "++toString value))

/-- `_required_role` -/
def requiredRole (value : ℤ) : Except Raised TensorRole :=
  match [TensorRole.tokenEmbedding,.transformerLayer,.finalNorm,.lmHead,.architectureState].find?
      fun role => roleNumber role==value with
  | some role => .ok role
  | none => .error (.value ("unsupported wire tensor role value "++toString value))

/-- `value or None` -/
def presentText (value : String) : Option String := if value="" then none else some value

/-- An optional integer field, set if there is a value. -/
def optionalField (bits : ℕ) (value : Option ℕ) : Except Raised (Option ℕ) :=
  value.mapM (unsignedField bits)

/-- `rope_scaling` of `model_manifest_to_proto`. -/
def ropeScalingToProto (scaling : RopeScaling) : Except Raised WireMessages.RopeScaling := do
  let original ← optionalField 64 (scaling.originalMaxPositionEmbeddings.map (·.val))
  pure ⟨scaling.scalingType,scaling.factor.val,original⟩

/-- `config` of `model_manifest_to_proto`. -/
def configToProto (config : ModelConfig) : Except Raised WireMessages.ModelConfig := do
  let ropeScaling ← config.ropeScaling.mapM ropeScalingToProto
  let hiddenSize ← unsignedField 64 config.hiddenSize
  let intermediateSize ← unsignedField 64 config.intermediateSize
  let numLayers ← unsignedField 32 config.numLayers
  let numAttentionHeads ← unsignedField 32 config.numAttentionHeads
  let numKvHeads ← unsignedField 32 config.numKvHeads
  let headDim ← unsignedField 32 config.headDim
  let vocabularySize ← unsignedField 64 config.vocabularySize
  let maximumSequenceLength ← unsignedField 64 config.maximumSequenceLength
  let eosTokenIds ← config.eosTokenIds.mapM (unsignedField 64)
  pure {
    hiddenSize := hiddenSize
    intermediateSize := intermediateSize
    numLayers := numLayers
    numAttentionHeads := numAttentionHeads
    numKvHeads := numKvHeads
    headDim := headDim
    vocabularySize := vocabularySize
    maximumSequenceLength := maximumSequenceLength
    tiedEmbeddings := config.tiedEmbeddings
    rmsNormEps := config.rmsNormEps.val
    ropeTheta := config.ropeTheta.val
    ropeScaling := ropeScaling
    hiddenActivation := config.hiddenActivation
    attentionBias := config.attentionBias
    mlpBias := config.mlpBias
    eosTokenIds := eosTokenIds}

/-- One tensor of `model_manifest_to_proto`. -/
def tensorToProto (tensor : TensorRecord) : Except Raised WireMessages.TensorRecord := do
  let shape ← tensor.shape.mapM (unsignedField 64)
  let dataOffset ← unsignedField 64 tensor.dataOffset
  let byteLength ← unsignedField 64 tensor.byteLength
  let layerIndex ← optionalField 32 tensor.layerIndex
  pure {
    name := tensor.name
    file := tensor.file
    dtype := tensor.dtype.toProto.number
    shape := shape
    dataOffset := dataOffset
    byteLength := byteLength
    role := roleNumber tensor.role
    layerIndex := layerIndex
    sharedWeightGroup := tensor.sharedWeightGroup.getD ""}

/-- One component of `model_manifest_to_proto`. -/
def componentToProto (component : ComponentMemory) :
    Except Raised WireMessages.ComponentMemory := do
  let storageBytes ← unsignedField 64 component.storageBytes
  let layerIndex ← optionalField 32 component.layerIndex
  pure ⟨roleNumber component.role,layerIndex,storageBytes⟩

/-- One file of `model_manifest_to_proto`. -/
def tensorFileToProto (item : TensorFile) : Except Raised WireMessages.TensorFile := do
  let sizeBytes ← unsignedField 64 item.sizeBytes
  let headerSizeBytes ← unsignedField 64 item.headerSizeBytes
  pure ⟨item.name,sizeBytes,headerSizeBytes,item.sha256.getD ""⟩

/-- `source` of `model_manifest_to_proto`. -/
def sourceToProto (source : SourceDescriptor) : ModelSource where
  modelId := source.modelId
  revision := source.revision.getD ""
  configSha256 := source.configSha256
  indexSha256 := source.indexSha256.getD ""
  tensorMetadataSha256 := source.tensorMetadataSha256.getD ""

/-- `architecture` of `model_manifest_to_proto`. -/
def architectureToProto (architecture : ArchitectureDescriptor) :
    WireMessages.ArchitectureDescriptor where
  architectureId := architecture.architectureId
  architectureRevision := architecture.architectureRevision
  featureFlags := architecture.featureFlags

/-- `model_manifest_to_proto` -/
def modelManifestToProto (manifest : ModelManifest) :
    Except Raised WireMessages.ModelManifest := do
  let config ← configToProto manifest.config
  let tensors ← manifest.tensors.mapM tensorToProto
  let components ← manifest.components.mapM componentToProto
  let schemaVersion ← versionToProto manifest.schemaVersion
  let tensorFiles ← manifest.tensorFiles.mapM tensorFileToProto
  let totalStorageBytes ← unsignedField 64 manifest.totalStorageBytes
  pure {
    schemaVersion := some schemaVersion
    manifestId := manifest.manifestId
    manifestDigest := manifest.manifestDigest
    source := some (sourceToProto manifest.source)
    architecture := some (architectureToProto manifest.architecture)
    config := some config
    tensorFiles := tensorFiles
    tensors := tensors
    components := components
    totalStorageBytes := totalStorageBytes}

/-- `rope_scaling` of `model_manifest_from_proto`. -/
def ropeScalingFromProto (message : WireMessages.RopeScaling) : Except Raised RopeScaling := do
  let factor ← positiveFloat message.factor
  let original ← message.originalMaxPositionEmbeddings.mapM positiveInt
  pure ⟨message.scalingType,factor,original⟩

/-- `config` of `model_manifest_from_proto`. -/
def configFromProto (message : WireMessages.ModelConfig) (ropeScaling : Option RopeScaling) :
    Except Raised ModelConfig := do
  let hiddenSize ← positiveInt message.hiddenSize
  let intermediateSize ← positiveInt message.intermediateSize
  let numLayers ← positiveInt message.numLayers
  let numAttentionHeads ← positiveInt message.numAttentionHeads
  let numKvHeads ← positiveInt message.numKvHeads
  let headDim ← positiveInt message.headDim
  let vocabularySize ← positiveInt message.vocabularySize
  let maximumSequenceLength ← positiveInt message.maximumSequenceLength
  let rmsNormEps ← positiveFloat message.rmsNormEps
  let ropeTheta ← positiveFloat message.ropeTheta
  if hheads : numAttentionHeads.val%numKvHeads.val=0 then
    if hunique : message.eosTokenIds.Nodup then
      pure {
        hiddenSize := hiddenSize
        intermediateSize := intermediateSize
        numLayers := numLayers
        numAttentionHeads := numAttentionHeads
        numKvHeads := numKvHeads
        headDim := headDim
        vocabularySize := vocabularySize
        maximumSequenceLength := maximumSequenceLength
        tiedEmbeddings := message.tiedEmbeddings
        rmsNormEps := rmsNormEps
        ropeTheta := ropeTheta
        ropeScaling := ropeScaling
        hiddenActivation := message.hiddenActivation
        attentionBias := message.attentionBias
        mlpBias := message.mlpBias
        eosTokenIds := message.eosTokenIds
        heads_divisible := hheads
        eos_unique := hunique}
    else .error (.value "eos_token_ids must be unique")
  else .error (.value "num_attention_heads must be divisible by num_kv_heads")

/-- One file of `model_manifest_from_proto`. -/
def tensorFileFromProto (item : WireMessages.TensorFile) : TensorFile where
  name := item.name
  sizeBytes := item.sizeBytes
  headerSizeBytes := item.headerSizeBytes
  sha256 := presentText item.sha256

/-- One tensor of `model_manifest_from_proto`. -/
def tensorFromProto (item : WireMessages.TensorRecord) : Except Raised TensorRecord := do
  let dtype ← requiredDtype item.dtype
  let role ← requiredRole item.role
  pure {
    name := item.name
    file := item.file
    dtype := dtype
    shape := item.shape
    dataOffset := item.dataOffset
    byteLength := item.byteLength
    role := role
    layerIndex := item.layerIndex
    sharedWeightGroup := presentText item.sharedWeightGroup}

/-- One component of `model_manifest_from_proto`. -/
def componentFromProto (item : WireMessages.ComponentMemory) :
    Except Raised ComponentMemory := do
  let role ← requiredRole item.role
  pure ⟨role,item.layerIndex,item.storageBytes⟩

/-- `source` of `model_manifest_from_proto`. -/
def sourceFromProto (message : ModelSource) : SourceDescriptor where
  modelId := message.modelId
  revision := presentText message.revision
  configSha256 := message.configSha256
  indexSha256 := presentText message.indexSha256
  tensorMetadataSha256 := presentText message.tensorMetadataSha256

/-- `architecture` of `model_manifest_from_proto`. -/
def architectureFromProto (message : WireMessages.ArchitectureDescriptor) :
    ArchitectureDescriptor where
  architectureId := message.architectureId
  architectureRevision := message.architectureRevision
  featureFlags := message.featureFlags

/-- `model_manifest_from_proto`. A sub-message that is absent reads as empty. -/
def modelManifestFromProto (message : WireMessages.ModelManifest) :
    Except Raised ModelManifest := do
  let configMessage := message.config.getD default
  let ropeScaling ← configMessage.ropeScaling.mapM ropeScalingFromProto
  let config ← configFromProto configMessage ropeScaling
  let tensors ← message.tensors.mapM tensorFromProto
  let components ← message.components.mapM componentFromProto
  pure {
    schemaVersion := versionFromProto (message.schemaVersion.getD default)
    manifestId := message.manifestId
    manifestDigest := message.manifestDigest
    source := sourceFromProto (message.source.getD default)
    architecture := architectureFromProto (message.architecture.getD default)
    config := config
    tensorFiles := message.tensorFiles.map tensorFileFromProto
    tensors := tensors
    components := components
    totalStorageBytes := message.totalStorageBytes}

/-- `PlanningMode(value)` -/
def planningModeOf (value : String) : Except Raised PlanningMode :=
  match [PlanningMode.feasibility,.estimated,.measured].find? fun mode => mode.value==value with
  | some mode => .ok mode
  | none => .error (.value (value++" is not a valid PlanningMode"))

/-- One stage of `deployment_plan_from_proto`. -/
def stageFromProto (item : StageAssignment) : Except Raised StageAssignment := do
  check (0 < item.layerEnd) "layer_end"
  pure item

/-- `deployment_plan_from_proto` -/
def deploymentPlanFromProto (message : WireMessages.DeploymentPlan) :
    Except Raised DeploymentPlan := do
  let stages ← message.stages.mapM stageFromProto
  check (stages.length=1 ∨ stages.length=2)
    ("deployment plan has "++toString stages.length++" stages; expected one or two")
  let planningMode ← planningModeOf message.planningMode
  let executionDtype ← requiredDtype message.executionDtype
  let weightDtype ← message.weightDtype.mapM requiredDtype
  let activationDtype ← requiredDtype message.activationDtype
  let plan : DeploymentPlan := {
    schemaVersion := versionFromProto (message.schemaVersion.getD default)
    plannerVersion := message.plannerVersion
    planId := message.planId
    deploymentVersion := message.deploymentVersion
    planDigest := message.planDigest
    manifestDigest := message.manifestDigest
    workloadId := message.workloadId
    planningMode := planningMode
    executionDtype := executionDtype
    weightDtype := weightDtype
    activationDtype := activationDtype
    splitLayer := message.splitLayer
    workloadDigest := presentText message.workloadDigest
    profileBundleDigest := presentText message.profileBundleDigest
    stages := stages
    duplicatedTensorGroups := message.duplicatedTensorGroups
    selectedCandidateId := message.selectedCandidateId}
  validateDeploymentPlan plan
  pure plan

end Mapping

section Fields

/-- A value that fits is assigned as it is. -/
theorem unsignedField_of_lt {bits value : ℕ} (h : value < 2^bits) :
    unsignedField bits value=.ok value :=
  if_pos h

/-- Values that fit are assigned as they are. -/
theorem fields_of_lt {bits : ℕ} {values : List ℕ} (h : ∀ value∈values,value < 2^bits) :
    values.mapM (unsignedField bits)=.ok values := by
  have hone : ∀ a b,a∈values → b∈values → Except.ok (ε:=Raised) a=.ok b →
      unsignedField bits b=.ok a := by
    intro a b ha _ heq
    cases heq
    exact unsignedField_of_lt (h a ha)
  exact mapM_undone hone (mapM_ok_iff.mpr rfl)

/-- Assigned values are the values. -/
theorem fields_ok {bits : ℕ} {values sent : List ℕ}
    (h : values.mapM (unsignedField bits)=.ok sent) : sent=values := by
  have hundone : sent.mapM Except.ok=.ok values :=
    mapM_undone (fun _ _ _ _ hone => congrArg Except.ok (unsignedField_ok hone).1) h
  exact List.map_injective_iff.mpr (fun _ _ => Except.ok.inj) (mapM_ok_iff.mp hundone)

/-- An optional value that fits is assigned as it is. -/
theorem optionalField_of_lt {bits : ℕ} {value : Option ℕ} (h : ∀ n,value=some n → n < 2^bits) :
    optionalField bits value=.ok value := by
  cases value with
  | none => rfl
  | some n =>
    rw [optionalField,Option.mapM_some,unsignedField_of_lt (h n rfl)]
    rfl

/-- An assigned optional value is the value. -/
theorem optionalField_ok {bits : ℕ} {value sent : Option ℕ}
    (h : optionalField bits value=.ok sent) : sent=value := by
  cases value with
  | none =>
    cases h
    rfl
  | some n =>
    obtain ⟨m,hm,h⟩ := bind_eq_ok.mp h
    cases h
    rw [(unsignedField_ok hm).1]

/-- The text of a value that is absent or not empty. -/
theorem presentText_getD {value : Option String} (h : value≠some "") :
    presentText (value.getD "")=value := by
  cases value with
  | none => rfl
  | some text => exact if_neg fun hempty => h (congrArg some hempty)

/-- A text travels as itself. -/
theorem getD_presentText (text : String) : (presentText text).getD ""=text := by
  unfold presentText
  split
  · rename_i hempty
    exact hempty.symm
  · rfl

/-- A wire number stands for one data type. -/
theorem requiredDtype_ok_iff {value : ℤ} {dtype : DType} :
    requiredDtype value=.ok dtype ↔ dtype.toProto.number=value := by
  unfold requiredDtype
  constructor
  · intro h
    split at h
    · rename_i found hfound
      cases h
      have hequal := List.find?_some hfound
      exact eq_of_beq hequal
    · cases h
  · intro h
    subst h
    cases dtype <;> rfl

/-- A wire number stands for one role. -/
theorem requiredRole_ok_iff {value : ℤ} {role : TensorRole} :
    requiredRole value=.ok role ↔ roleNumber role=value := by
  unfold requiredRole
  constructor
  · intro h
    split at h
    · rename_i found hfound
      cases h
      have hequal := List.find?_some hfound
      exact eq_of_beq hequal
    · cases h
  · intro h
    subst h
    cases role <;> rfl

/-- A text stands for one planning mode. -/
theorem planningModeOf_ok_iff {value : String} {mode : PlanningMode} :
    planningModeOf value=.ok mode ↔ mode.value=value := by
  unfold planningModeOf
  constructor
  · intro h
    split at h
    · rename_i found hfound
      cases h
      have hequal := List.find?_some hfound
      exact eq_of_beq hequal
    · cases h
  · intro h
    subst h
    cases mode <;> rfl

/-- The text of a version parses as its two numbers. -/
theorem versionToProto_versionFromProto (version : ArtifactVersion) :
    versionToProto (versionFromProto version)=(do
      let major ← unsignedField 32 version.major
      let minor ← unsignedField 32 version.minor
      pure ⟨major,minor⟩) := by
  have hdot : ∀ n : ℕ,'.'∉Nat.toDigits 10 n := fun n hmem =>
    absurd (Nat.isDigit_of_mem_toDigits (by decide) (by decide) hmem) (by decide)
  have htext : (versionFromProto version).toList=
      Nat.toDigits 10 version.major++ '.'::Nat.toDigits 10 version.minor := by
    unfold versionFromProto
    simp only [String.toList_append,Nat.toString_eq_ofList_toDigits,String.toList_ofList,
      List.append_assoc]
    rfl
  have hsplit : (versionFromProto version).toList.splitOn '.'=
      [Nat.toDigits 10 version.major,Nat.toDigits 10 version.minor] := by
    rw [htext,List.splitOn_append_cons_self_of_not_mem (hdot _),List.splitOn_eq_singleton (hdot _)]
  have hdecimal : ∀ n : ℕ,isDecimal (Nat.toDigits 10 n)=true := by
    intro n
    rw [isDecimal,Bool.and_eq_true,List.all_eq_true]
    refine ⟨?_,fun c hc => Nat.isDigit_of_mem_toDigits (by decide) (by decide) hc⟩
    rw [Bool.not_eq_true',List.isEmpty_eq_false_iff]
    exact Nat.toDigits_ne_nil
  unfold versionToProto
  rw [hsplit]
  simp only [hdecimal,Bool.and_self,if_true]
  rw [Nat.ofDigitChars_toDigits (by decide) (by decide),
    Nat.ofDigitChars_toDigits (by decide) (by decide)]

/-- A canonical version is sent as what reads as it again. -/
theorem versionToProto_ok {version sent : ArtifactVersion}
    (h : versionToProto (versionFromProto version)=.ok sent) : sent=version := by
  rw [versionToProto_versionFromProto] at h
  obtain ⟨major,hmajor,h⟩ := bind_eq_ok.mp h
  obtain ⟨minor,hminor,h⟩ := bind_eq_ok.mp h
  cases h
  rw [(unsignedField_ok hmajor).1,(unsignedField_ok hminor).1]

/-- A version read from the wire is sent again. -/
theorem versionToProto_of_lt {version : ArtifactVersion} (hmajor : version.major < 2^32)
    (hminor : version.minor < 2^32) :
    versionToProto (versionFromProto version)=.ok version := by
  rw [versionToProto_versionFromProto,unsignedField_of_lt hmajor,unsignedField_of_lt hminor]
  rfl

end Fields

section Records

/-- The parts of a version are 32-bit fields. -/
def VersionInRange (version : ArtifactVersion) : Prop :=
  version.major < 2^32 ∧ version.minor < 2^32

/-- The length of a scaling is a 64-bit field. -/
def ScalingInRange (scaling : WireMessages.RopeScaling) : Prop :=
  ∀ n,scaling.originalMaxPositionEmbeddings=some n → n < 2^64

/-- Widths of the fields of a configuration. -/
structure ConfigInRange (config : WireMessages.ModelConfig) : Prop where
  hiddenSize : config.hiddenSize < 2^64
  intermediateSize : config.intermediateSize < 2^64
  numLayers : config.numLayers < 2^32
  numAttentionHeads : config.numAttentionHeads < 2^32
  numKvHeads : config.numKvHeads < 2^32
  headDim : config.headDim < 2^32
  vocabularySize : config.vocabularySize < 2^64
  maximumSequenceLength : config.maximumSequenceLength < 2^64
  ropeScaling : ∀ scaling,config.ropeScaling=some scaling → ScalingInRange scaling
  eosTokenIds : ∀ n∈config.eosTokenIds,n < 2^64

/-- Widths of the fields of a tensor. -/
structure TensorInRange (tensor : WireMessages.TensorRecord) : Prop where
  shape : ∀ n∈tensor.shape,n < 2^64
  dataOffset : tensor.dataOffset < 2^64
  byteLength : tensor.byteLength < 2^64
  layerIndex : ∀ n,tensor.layerIndex=some n → n < 2^32

/-- Widths of the fields of a component. -/
structure ComponentInRange (component : WireMessages.ComponentMemory) : Prop where
  layerIndex : ∀ n,component.layerIndex=some n → n < 2^32
  storageBytes : component.storageBytes < 2^64

/-- Widths of the fields of a file. -/
structure FileInRange (file : WireMessages.TensorFile) : Prop where
  sizeBytes : file.sizeBytes < 2^64
  headerSizeBytes : file.headerSizeBytes < 2^64

/-- Rotary scalings, with and without the original length. -/
theorem scaling_mirrors : Mirrors ropeScalingToProto ropeScalingFromProto (fun _ => True)
    ScalingInRange where
  forth := by
    rintro ⟨scalingType,factor,length⟩ message _ h
    obtain ⟨original,horiginal,h⟩ := bind_eq_ok.mp h
    cases h
    rw [optionalField_ok horiginal]
    unfold ropeScalingFromProto
    dsimp only
    rw [positiveFloat_ok_iff.mpr rfl]
    cases length with
    | none => rfl
    | some length =>
      rw [Option.map_some,Option.mapM_some,positiveInt_ok_iff.mpr rfl]
      rfl
  back := by
    intro scaling message hrange h
    obtain ⟨factor,hfactor,h⟩ := bind_eq_ok.mp h
    obtain ⟨original,horiginal,h⟩ := bind_eq_ok.mp h
    cases h
    have hsame : original.map (·.val)=message.originalMaxPositionEmbeddings := by
      cases hlength : message.originalMaxPositionEmbeddings with
      | none =>
        rw [hlength] at horiginal
        cases horiginal
        rfl
      | some length =>
        rw [hlength] at horiginal
        obtain ⟨p,hp,horiginal⟩ := bind_eq_ok.mp horiginal
        cases horiginal
        rw [Option.map_some,positiveInt_ok_iff.mp hp]
    unfold ropeScalingToProto
    dsimp only
    rw [hsame,optionalField_of_lt hrange,positiveFloat_ok_iff.mp hfactor]
    rfl

/-- What a sent configuration reads as. -/
theorem config_forth {config : ModelConfig} {message : WireMessages.ModelConfig}
    (h : configToProto config=.ok message) :
    message.ropeScaling.mapM ropeScalingFromProto=.ok config.ropeScaling ∧
      configFromProto message config.ropeScaling=.ok config := by
  obtain ⟨scaling,hscaling,h⟩ := bind_eq_ok.mp h
  obtain ⟨hidden,hhidden,h⟩ := bind_eq_ok.mp h
  obtain ⟨intermediate,hintermediate,h⟩ := bind_eq_ok.mp h
  obtain ⟨layers,hlayers,h⟩ := bind_eq_ok.mp h
  obtain ⟨heads,hheads,h⟩ := bind_eq_ok.mp h
  obtain ⟨kvHeads,hkvHeads,h⟩ := bind_eq_ok.mp h
  obtain ⟨headDim,hheadDim,h⟩ := bind_eq_ok.mp h
  obtain ⟨vocabulary,hvocabulary,h⟩ := bind_eq_ok.mp h
  obtain ⟨length,hlength,h⟩ := bind_eq_ok.mp h
  obtain ⟨eos,heos,h⟩ := bind_eq_ok.mp h
  cases h
  refine ⟨scaling_mirrors.option.forth (fun _ _ => trivial) hscaling,?_⟩
  rw [(unsignedField_ok hhidden).1,(unsignedField_ok hintermediate).1,(unsignedField_ok hlayers).1,
    (unsignedField_ok hheads).1,(unsignedField_ok hkvHeads).1,(unsignedField_ok hheadDim).1,
    (unsignedField_ok hvocabulary).1,(unsignedField_ok hlength).1,fields_ok heos]
  have hint : ∀ p : ℕ+,positiveInt p=.ok p := fun p => positiveInt_ok_iff.mpr rfl
  have hfloat : ∀ x : PositiveFloat,positiveFloat x.val=.ok x :=
    fun x => positiveFloat_ok_iff.mpr rfl
  unfold configFromProto
  simp only [hint,hfloat]
  change (if hheads : config.numAttentionHeads.val%config.numKvHeads.val=0 then _ else _)=_
  rw [dif_pos config.heads_divisible,dif_pos config.eos_unique]
  rfl

/-- What a read configuration is sent as. -/
theorem config_back {config : ModelConfig} {message : WireMessages.ModelConfig}
    {scaling : Option RopeScaling} (hrange : ConfigInRange message)
    (hscaling : message.ropeScaling.mapM ropeScalingFromProto=.ok scaling)
    (h : configFromProto message scaling=.ok config) : configToProto config=.ok message := by
  obtain ⟨hidden,hhidden,h⟩ := bind_eq_ok.mp h
  obtain ⟨intermediate,hintermediate,h⟩ := bind_eq_ok.mp h
  obtain ⟨layers,hlayers,h⟩ := bind_eq_ok.mp h
  obtain ⟨heads,hheads,h⟩ := bind_eq_ok.mp h
  obtain ⟨kvHeads,hkvHeads,h⟩ := bind_eq_ok.mp h
  obtain ⟨headDim,hheadDim,h⟩ := bind_eq_ok.mp h
  obtain ⟨vocabulary,hvocabulary,h⟩ := bind_eq_ok.mp h
  obtain ⟨length,hlength,h⟩ := bind_eq_ok.mp h
  obtain ⟨epsilon,hepsilon,h⟩ := bind_eq_ok.mp h
  obtain ⟨theta,htheta,h⟩ := bind_eq_ok.mp h
  split at h
  · split at h
    · cases h
      unfold configToProto
      have hsent := scaling_mirrors.option.back hrange.ropeScaling hscaling
      rw [hsent,positiveInt_ok_iff.mp hhidden,positiveInt_ok_iff.mp hintermediate,
        positiveInt_ok_iff.mp hlayers,positiveInt_ok_iff.mp hheads,positiveInt_ok_iff.mp hkvHeads,
        positiveInt_ok_iff.mp hheadDim,positiveInt_ok_iff.mp hvocabulary,
        positiveInt_ok_iff.mp hlength,positiveFloat_ok_iff.mp hepsilon,
        positiveFloat_ok_iff.mp htheta,unsignedField_of_lt hrange.hiddenSize,
        unsignedField_of_lt hrange.intermediateSize,unsignedField_of_lt hrange.numLayers,
        unsignedField_of_lt hrange.numAttentionHeads,unsignedField_of_lt hrange.numKvHeads,
        unsignedField_of_lt hrange.headDim,unsignedField_of_lt hrange.vocabularySize,
        unsignedField_of_lt hrange.maximumSequenceLength,fields_of_lt hrange.eosTokenIds]
      rfl
    · cases h
  · cases h

/-- An optional string of a tensor is not empty. -/
def TensorCanonical (tensor : TensorRecord) : Prop := tensor.sharedWeightGroup≠some ""

/-- An optional string of a file is not empty. -/
def FileCanonical (file : TensorFile) : Prop := file.sha256≠some ""

/-- No optional string of a source is empty. -/
structure SourceCanonical (source : SourceDescriptor) : Prop where
  revision : source.revision≠some ""
  indexSha256 : source.indexSha256≠some ""
  tensorMetadataSha256 : source.tensorMetadataSha256≠some ""

/-- Tensors, with and without a layer and a group. -/
theorem tensor_mirrors : Mirrors tensorToProto tensorFromProto TensorCanonical TensorInRange where
  forth := by
    intro tensor message hcanonical h
    obtain ⟨shape,hshape,h⟩ := bind_eq_ok.mp h
    obtain ⟨offset,hoffset,h⟩ := bind_eq_ok.mp h
    obtain ⟨length,hlength,h⟩ := bind_eq_ok.mp h
    obtain ⟨layer,hlayer,h⟩ := bind_eq_ok.mp h
    cases h
    rw [fields_ok hshape,(unsignedField_ok hoffset).1,(unsignedField_ok hlength).1,
      optionalField_ok hlayer]
    unfold tensorFromProto
    dsimp only
    rw [requiredDtype_ok_iff.mpr rfl,requiredRole_ok_iff.mpr rfl,presentText_getD hcanonical]
    rfl
  back := by
    intro tensor message hrange h
    obtain ⟨dtype,hdtype,h⟩ := bind_eq_ok.mp h
    obtain ⟨role,hrole,h⟩ := bind_eq_ok.mp h
    cases h
    unfold tensorToProto
    dsimp only
    rw [fields_of_lt hrange.shape,unsignedField_of_lt hrange.dataOffset,
      unsignedField_of_lt hrange.byteLength,optionalField_of_lt hrange.layerIndex,
      requiredDtype_ok_iff.mp hdtype,requiredRole_ok_iff.mp hrole,getD_presentText]
    rfl

/-- Components, with and without a layer. -/
theorem component_mirrors : Mirrors componentToProto componentFromProto (fun _ => True)
    ComponentInRange where
  forth := by
    intro component message _ h
    obtain ⟨bytes,hbytes,h⟩ := bind_eq_ok.mp h
    obtain ⟨layer,hlayer,h⟩ := bind_eq_ok.mp h
    cases h
    rw [(unsignedField_ok hbytes).1,optionalField_ok hlayer]
    unfold componentFromProto
    dsimp only
    rw [requiredRole_ok_iff.mpr rfl]
    rfl
  back := by
    intro component message hrange h
    obtain ⟨role,hrole,h⟩ := bind_eq_ok.mp h
    cases h
    unfold componentToProto
    dsimp only
    rw [unsignedField_of_lt hrange.storageBytes,optionalField_of_lt hrange.layerIndex,
      requiredRole_ok_iff.mp hrole]
    rfl

/-- Files, with and without a digest. -/
theorem file_mirrors : Mirrors tensorFileToProto (fun item => .ok (tensorFileFromProto item))
    FileCanonical FileInRange where
  forth := by
    intro file message hcanonical h
    obtain ⟨size,hsize,h⟩ := bind_eq_ok.mp h
    obtain ⟨header,hheader,h⟩ := bind_eq_ok.mp h
    cases h
    rw [(unsignedField_ok hsize).1,(unsignedField_ok hheader).1]
    unfold tensorFileFromProto
    rw [presentText_getD hcanonical]
  back := by
    intro file message hrange h
    cases h
    unfold tensorFileToProto tensorFileFromProto
    dsimp only
    rw [unsignedField_of_lt hrange.sizeBytes,unsignedField_of_lt hrange.headerSizeBytes,
      getD_presentText]
    rfl

/-- Reading files is reading every file. -/
theorem files_mapM (files : List WireMessages.TensorFile) :
    files.mapM (fun item => Except.ok (ε:=Raised) (tensorFileFromProto item))=
      .ok (files.map tensorFileFromProto) := by
  rw [mapM_ok_iff,List.map_map]
  rfl

/-- A source reads as what was sent. -/
theorem source_forth {source : SourceDescriptor} (h : SourceCanonical source) :
    sourceFromProto (sourceToProto source)=source := by
  unfold sourceFromProto sourceToProto
  rw [presentText_getD h.revision,presentText_getD h.indexSha256,
    presentText_getD h.tensorMetadataSha256]

/-- A source is sent as what was read. -/
theorem source_back (message : ModelSource) : sourceToProto (sourceFromProto message)=message := by
  unfold sourceFromProto sourceToProto
  simp only [getD_presentText]

end Records

section Manifests

/-- A manifest with a canonical version and without empty optional strings. -/
structure ManifestCanonical (manifest : ModelManifest) : Prop where
  version : ∃ version,manifest.schemaVersion=versionFromProto version
  source : SourceCanonical manifest.source
  tensorFiles : ∀ file∈manifest.tensorFiles,FileCanonical file
  tensors : ∀ tensor∈manifest.tensors,TensorCanonical tensor

/-- A manifest message with its sub-messages and with fields of their widths. -/
structure ManifestComplete (message : WireMessages.ModelManifest) : Prop where
  version : ∃ version,message.schemaVersion=some version ∧ VersionInRange version
  source : message.source≠none
  architecture : message.architecture≠none
  config : ∃ config,message.config=some config ∧ ConfigInRange config
  tensorFiles : ∀ file∈message.tensorFiles,FileInRange file
  tensors : ∀ tensor∈message.tensors,TensorInRange tensor
  components : ∀ component∈message.components,ComponentInRange component
  totalStorageBytes : message.totalStorageBytes < 2^64

/-- Manifests. -/
theorem manifest_mirrors : Mirrors modelManifestToProto modelManifestFromProto ManifestCanonical
    ManifestComplete where
  forth := by
    intro manifest message hcanonical h
    obtain ⟨config,hconfig,h⟩ := bind_eq_ok.mp h
    obtain ⟨tensors,htensors,h⟩ := bind_eq_ok.mp h
    obtain ⟨components,hcomponents,h⟩ := bind_eq_ok.mp h
    obtain ⟨version,hversion,h⟩ := bind_eq_ok.mp h
    obtain ⟨files,hfiles,h⟩ := bind_eq_ok.mp h
    obtain ⟨total,htotal,h⟩ := bind_eq_ok.mp h
    cases h
    obtain ⟨hscaling,hread⟩ := config_forth hconfig
    have htensors' := tensor_mirrors.list.forth hcanonical.tensors htensors
    have hcomponents' := component_mirrors.list.forth (fun _ _ => trivial) hcomponents
    have hfiles' := file_mirrors.list.forth hcanonical.tensorFiles hfiles
    rw [files_mapM,Except.ok.injEq] at hfiles'
    obtain ⟨canonical,hcanon⟩ := hcanonical.version
    rw [hcanon] at hversion
    unfold modelManifestFromProto
    dsimp only [Option.getD_some]
    rw [hscaling]
    dsimp only [bind,Except.bind]
    rw [hread]
    dsimp only
    rw [htensors']
    dsimp only
    rw [hcomponents',hfiles',versionToProto_ok hversion,←hcanon,source_forth hcanonical.source,
      (unsignedField_ok htotal).1]
    rfl
  back := by
    intro manifest message hcomplete h
    obtain ⟨version,hversion,hversionRange⟩ := hcomplete.version
    obtain ⟨source,hsource⟩ := Option.ne_none_iff_exists'.mp hcomplete.source
    obtain ⟨architecture,harchitecture⟩ := Option.ne_none_iff_exists'.mp hcomplete.architecture
    obtain ⟨config,hconfig,hconfigRange⟩ := hcomplete.config
    unfold modelManifestFromProto at h
    rw [hversion,hsource,harchitecture,hconfig] at h
    dsimp only [Option.getD_some] at h
    obtain ⟨scaling,hscaling,h⟩ := bind_eq_ok.mp h
    obtain ⟨read,hread,h⟩ := bind_eq_ok.mp h
    obtain ⟨tensors,htensors,h⟩ := bind_eq_ok.mp h
    obtain ⟨components,hcomponents,h⟩ := bind_eq_ok.mp h
    cases h
    have htensors' := tensor_mirrors.list.back hcomplete.tensors htensors
    have hcomponents' := component_mirrors.list.back hcomplete.components hcomponents
    have hfiles' := file_mirrors.list.back hcomplete.tensorFiles (files_mapM message.tensorFiles)
    unfold modelManifestToProto
    dsimp only
    rw [config_back hconfigRange hscaling hread,htensors',hcomponents',
      versionToProto_of_lt hversionRange.1 hversionRange.2,hfiles',
      unsignedField_of_lt hcomplete.totalStorageBytes,source_back]
    obtain ⟨schemaVersion,manifestId,manifestDigest,source',architecture',config',tensorFiles,
      tensors',components',totalStorageBytes⟩ := message
    cases hversion
    cases hsource
    cases harchitecture
    cases hconfig
    rfl

end Manifests

section Plans

/-- A plan message with its version and with fields of their widths. -/
structure PlanComplete (message : WireMessages.DeploymentPlan) : Prop where
  version : ∃ version,message.schemaVersion=some version ∧ VersionInRange version
  splitLayer : message.splitLayer < 2^32
  deploymentVersion : message.deploymentVersion < 2^64
  stages : ∀ stage∈message.stages,
    stage.stageIndex < 2^32 ∧ stage.layerStart < 2^32 ∧ stage.layerEnd < 2^32

/-- A stage with a positive end reads as itself. -/
theorem stageFromProto_of_pos {stage : StageAssignment} (h : 0 < stage.layerEnd) :
    stageFromProto stage=.ok stage := by
  unfold stageFromProto
  rw [(check_ok_iff (u:=())).mpr h]
  rfl

/-- Stages with a positive end. -/
theorem stage_mirrors : Mirrors stageToProto stageFromProto (fun stage => 0 < stage.layerEnd)
    (fun stage => stage.stageIndex < 2^32 ∧ stage.layerStart < 2^32 ∧ stage.layerEnd < 2^32) where
  forth := by
    intro stage message hpositive h
    rw [stageToProto_ok h]
    exact stageFromProto_of_pos hpositive
  back := by
    rintro stage message ⟨hindex,hstart,hend⟩ h
    obtain ⟨_,-,h⟩ := bind_eq_ok.mp h
    cases h
    unfold stageToProto
    rw [unsignedField_of_lt hindex,unsignedField_of_lt hstart,unsignedField_of_lt hend]
    rfl

/-- What a valid plan has been checked for. -/
theorem validateDeploymentPlan_ok {plan : DeploymentPlan} (h : validateDeploymentPlan plan=.ok ()) :
    (∀ stage∈plan.stages,0 < stage.layerEnd) ∧ (plan.stages.length=1 ∨ plan.stages.length=2) ∧
      plan.workloadDigest≠some "" ∧ plan.profileBundleDigest≠some "" := by
  obtain ⟨_,-,h⟩ := bind_eq_ok.mp h
  obtain ⟨_,hstages,hvalid⟩ := bind_eq_ok.mp h
  obtain ⟨-,-,hmeasured,hlegacy⟩ := validatePartition_fields hvalid
  obtain ⟨_,hlength,-⟩ := bind_eq_ok.mp hvalid
  rw [check_ok_iff] at hstages hlength
  have hdigest : ∀ value : Option String,isDigest (value.getD "")=true → value≠some "" := by
    intro value hvalue hempty
    rw [hempty] at hvalue
    exact absurd hvalue (by decide)
  refine ⟨hstages,by omega,?_⟩
  by_cases hmode : plan.planningMode=.measured
  · obtain ⟨-,hworkload,hbundle⟩ := hmeasured hmode
    exact ⟨hdigest _ hworkload,hdigest _ hbundle⟩
  · obtain ⟨hworkload,hbundle⟩ := hlegacy hmode
    rw [hworkload,hbundle]
    exact ⟨nofun,nofun⟩

/-- An optional data type travels as its number. -/
theorem weight_forth (dtype : Option DType) :
    (dtype.map fun d => d.toProto.number).mapM requiredDtype=.ok dtype := by
  cases dtype with
  | none => rfl
  | some d =>
    rw [Option.map_some,Option.mapM_some,requiredDtype_ok_iff.mpr rfl]
    rfl

/-- The number of an optional data type that was read is the one sent. -/
theorem weight_back {value : Option ℤ} {dtype : Option DType}
    (h : value.mapM requiredDtype=.ok dtype) :
    (dtype.map fun d => d.toProto.number)=value := by
  cases value with
  | none =>
    cases h
    rfl
  | some n =>
    obtain ⟨d,hd,h⟩ := bind_eq_ok.mp h
    cases h
    rw [Option.map_some,requiredDtype_ok_iff.mp hd]

/-- A valid plan reads as what was sent. -/
theorem plan_forth {plan : DeploymentPlan} {message : WireMessages.DeploymentPlan}
    (hversion : ∃ version,plan.schemaVersion=versionFromProto version)
    (hvalid : validateDeploymentPlan plan=.ok ())
    (h : deploymentPlanToProto plan=.ok message) : deploymentPlanFromProto message=.ok plan := by
  obtain ⟨hstages,hlength,hworkload,hbundle⟩ := validateDeploymentPlan_ok hvalid
  obtain ⟨sent,hsent,rfl⟩ := deploymentPlanToProto_ok h
  obtain ⟨version,hcanonical⟩ := hversion
  rw [hcanonical] at hsent
  have hread : plan.stages.mapM stageFromProto=.ok plan.stages :=
    mapM_ok_iff.mpr (List.map_congr_left fun stage hs => stageFromProto_of_pos (hstages stage hs))
  unfold deploymentPlanFromProto wireOf
  dsimp only [Option.getD_some]
  rw [hread]
  dsimp only [bind,Except.bind]
  rw [(check_ok_iff (u:=())).mpr hlength,planningModeOf_ok_iff.mpr rfl,requiredDtype_ok_iff.mpr rfl,
    weight_forth,requiredDtype_ok_iff.mpr rfl,presentText_getD hworkload,presentText_getD hbundle,
    versionToProto_ok hsent,←hcanonical]
  dsimp only
  rw [hvalid]
  rfl

/-- A plan that was read is sent as the message it was read from. -/
theorem plan_back {plan : DeploymentPlan} {message : WireMessages.DeploymentPlan}
    (hcomplete : PlanComplete message) (h : deploymentPlanFromProto message=.ok plan) :
    deploymentPlanToProto plan=.ok message := by
  obtain ⟨version,hversion,hversionRange⟩ := hcomplete.version
  obtain ⟨stages,hstages,h⟩ := bind_eq_ok.mp h
  obtain ⟨_,-,h⟩ := bind_eq_ok.mp h
  obtain ⟨mode,hmode,h⟩ := bind_eq_ok.mp h
  obtain ⟨execution,hexecution,h⟩ := bind_eq_ok.mp h
  obtain ⟨weight,hweight,h⟩ := bind_eq_ok.mp h
  obtain ⟨activation,hactivation,h⟩ := bind_eq_ok.mp h
  obtain ⟨_,-,h⟩ := bind_eq_ok.mp h
  cases h
  have hsent := stage_mirrors.list.back hcomplete.stages hstages
  unfold deploymentPlanToProto
  dsimp only
  rw [hversion,Option.getD_some,versionToProto_of_lt hversionRange.1 hversionRange.2,
    unsignedField_of_lt hcomplete.splitLayer,hsent,unsignedField_of_lt hcomplete.deploymentVersion,
    planningModeOf_ok_iff.mp hmode,requiredDtype_ok_iff.mp hexecution,
    requiredDtype_ok_iff.mp hactivation,weight_back hweight,getD_presentText,getD_presentText]
  cases message
  cases hversion
  rfl

end Plans

/-- Manifests and valid plans with canonical versions and without empty optional
strings read as what was sent, in every field, and messages with their
sub-messages are sent as what was read. -/
theorem wire_round_trip :
    (∀ manifest message,ManifestCanonical manifest → modelManifestToProto manifest=.ok message →
      modelManifestFromProto message=.ok manifest) ∧
    (∀ plan message,(∃ version,plan.schemaVersion=versionFromProto version) →
      validateDeploymentPlan plan=.ok () → deploymentPlanToProto plan=.ok message →
      deploymentPlanFromProto message=.ok plan) ∧
    (∀ manifest message,ManifestComplete message → modelManifestFromProto message=.ok manifest →
      modelManifestToProto manifest=.ok message) ∧
    ∀ plan message,PlanComplete message → deploymentPlanFromProto message=.ok plan →
      deploymentPlanToProto plan=.ok message := by
  refine ⟨fun manifest message hcanonical hsent => ?_,fun plan message hversion hvalid hsent => ?_,
    fun manifest message hcomplete hread => ?_,fun plan message hcomplete hread => ?_⟩
  · exact manifest_mirrors.forth hcanonical hsent
  · exact plan_forth hversion hvalid hsent
  · exact manifest_mirrors.back hcomplete hread
  · exact plan_back hcomplete hread

/-- A manifest with a scaling without its original length and a tensor of layer zero. -/
def scaledManifest : ModelManifest where
  schemaVersion := "1.1"
  manifestId := "scaled"
  manifestDigest := "digest"
  source := ⟨"model",some "abc123","config",none,none⟩
  architecture := ⟨"llama.v1","1",[]⟩
  config := {
    hiddenSize := 4
    intermediateSize := 8
    numLayers := 1
    numAttentionHeads := 2
    numKvHeads := 1
    headDim := 2
    vocabularySize := 16
    maximumSequenceLength := 32
    tiedEmbeddings := false
    rmsNormEps := ⟨0x3EB0C6F7A0B5ED8D,by decide⟩
    ropeTheta := ⟨0x40C3880000000000,by decide⟩
    ropeScaling := some ⟨"linear",⟨0x4000000000000000,by decide⟩,none⟩
    hiddenActivation := "silu"
    attentionBias := false
    mlpBias := false
    eosTokenIds := [2,0]
    heads_divisible := rfl
    eos_unique := by decide}
  tensorFiles := [⟨"model.safetensors",300,40,none⟩]
  tensors := [⟨"model.layers.0.mlp.up_proj.weight","model.safetensors",.f32,[8,4],0,128,
    .transformerLayer,some 0,none⟩]
  components := [⟨.transformerLayer,some 0,128⟩,⟨.finalNorm,none,16⟩]
  totalStorageBytes := 144

/-- The message of that manifest. -/
def scaledMessage : WireMessages.ModelManifest where
  schemaVersion := some ⟨1,1⟩
  manifestId := "scaled"
  manifestDigest := "digest"
  source := some ⟨"model","abc123","config","",""⟩
  architecture := some ⟨"llama.v1","1",[]⟩
  config := some {
    hiddenSize := 4
    intermediateSize := 8
    numLayers := 1
    numAttentionHeads := 2
    numKvHeads := 1
    headDim := 2
    vocabularySize := 16
    maximumSequenceLength := 32
    tiedEmbeddings := false
    rmsNormEps := 0x3EB0C6F7A0B5ED8D
    ropeTheta := 0x40C3880000000000
    ropeScaling := some ⟨"linear",0x4000000000000000,none⟩
    hiddenActivation := "silu"
    attentionBias := false
    mlpBias := false
    eosTokenIds := [2,0]}
  tensorFiles := [⟨"model.safetensors",300,40,""⟩]
  tensors := [⟨"model.layers.0.mlp.up_proj.weight","model.safetensors",12,[8,4],0,128,2,some 0,""⟩]
  components := [⟨2,some 0,128⟩,⟨3,none,16⟩]
  totalStorageBytes := 144

/-- A plan of one stage with a weight type. -/
def mixedPlan : DeploymentPlan where
  schemaVersion := "1.2"
  plannerVersion := "0.1.0"
  planId := "reference"
  deploymentVersion := 1
  planDigest := "digest"
  manifestDigest := "manifest"
  workloadId := "reference"
  planningMode := .feasibility
  executionDtype := .f32
  weightDtype := some .f16
  activationDtype := .f16
  splitLayer := 0
  workloadDigest := none
  profileBundleDigest := none
  stages := [⟨0,"worker",0,1,true,true,true,true⟩]
  duplicatedTensorGroups := []
  selectedCandidateId := "reference"

/-- Both travel to the wire and back. -/
theorem samples_round_trip :
    modelManifestFromProto scaledMessage=.ok scaledManifest ∧
      modelManifestToProto scaledManifest=.ok scaledMessage ∧
      deploymentPlanFromProto (wireOf ⟨1,2⟩ mixedPlan)=.ok mixedPlan ∧
      deploymentPlanToProto mixedPlan=.ok (wireOf ⟨1,2⟩ mixedPlan) := by
  obtain ⟨hmanifest,hplan,hmessage,hsent⟩ := wire_round_trip
  have hcanonical : ManifestCanonical scaledManifest := by
    refine ⟨⟨⟨1,1⟩,rfl⟩,⟨by decide,by decide,by decide⟩,fun file hf => ?_,fun tensor ht => ?_⟩
    · rw [List.mem_singleton.mp hf]
      exact nofun
    · rw [List.mem_singleton.mp ht]
      exact nofun
  have hcomplete : ManifestComplete scaledMessage := by
    refine ⟨⟨_,rfl,by decide,by decide⟩,nofun,nofun,⟨_,rfl,?_⟩,fun file hf => ?_,
      fun tensor ht => ?_,fun component hc => ?_,by decide⟩
    · refine ⟨by decide,by decide,by decide,by decide,by decide,by decide,by decide,by decide,
        fun scaling hs n hn => ?_,by decide⟩
      cases hs
      cases hn
    · rw [List.mem_singleton.mp hf]
      exact ⟨by decide,by decide⟩
    · rw [List.mem_singleton.mp ht]
      refine ⟨by decide,by decide,by decide,fun n hn => ?_⟩
      cases hn
      decide
    · rcases List.mem_pair.mp hc with rfl|rfl
      · refine ⟨fun n hn => ?_,by decide⟩
        cases hn
        decide
      · exact ⟨nofun,by decide⟩
  have hread := hmanifest scaledManifest scaledMessage hcanonical rfl
  have hreadPlan := hplan mixedPlan (wireOf ⟨1,2⟩ mixedPlan) ⟨⟨1,2⟩,rfl⟩ rfl rfl
  refine ⟨hread,hmessage _ _ hcomplete hread,hreadPlan,hsent _ _ ?_ hreadPlan⟩
  refine ⟨⟨_,rfl,by decide,by decide⟩,by decide,by decide,fun stage hs => ?_⟩
  rw [List.mem_singleton.mp hs]
  exact ⟨by decide,by decide,by decide⟩

end Hllm.WireMapping
