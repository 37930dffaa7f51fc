import Hllm.PlanAcceptance
import Hllm.PreparedManifests
import Hllm.StageInspection
import Hllm.WeightLoading

/-!
# Loading what was prepared

Preparation and the native loader know the architectures independently. A
stage of a prepared model passes the native inspection exactly when a few
conditions hold that preparation does not check.
-/

namespace Hllm.PreparedLoading

open DenseLoader ManifestModels ModelPreparation OrderedMap PreparedManifests SafetensorsReader
open StageInspection Traversals WeightEstimates
open ControlModel (Failure)
open MemoryAccounting (call_bind)
open PlannerModels (DType DeploymentPlan TensorRole)
open SafetensorsAcceptance (Unambiguous NumbersInRange)
open WireMessages (StageAssignment)
open WireMapping (modelManifestToProto tensorToProto configToProto)

section Messages

variable {record : ManifestModels.TensorRecord} {config : ManifestModels.ModelConfig}
variable {manifest : ManifestModels.ModelManifest} {sent : WireMessages.ModelManifest}

/-- A record as it is sent. -/
def wireRecord (record : ManifestModels.TensorRecord) : WireMessages.TensorRecord where
  name := record.name
  file := record.file
  dtype := record.dtype.toProto.number
  shape := record.shape
  dataOffset := record.dataOffset
  byteLength := record.byteLength
  role := roleNumber record.role
  layerIndex := record.layerIndex
  sharedWeightGroup := record.sharedWeightGroup.getD ""

/-- What is sent for a record. -/
theorem tensorToProto_ok {message : WireMessages.TensorRecord}
    (h : tensorToProto record=.ok message) : message=wireRecord record := by
  unfold tensorToProto at h
  simp only [call_bind] at h
  obtain ⟨shape,hshape,offset,hoffset,length,hlength,layer,hlayer,h⟩ := h
  cases h
  unfold wireRecord
  rw [WireMapping.fields_ok hshape,(PlanDigest.unsignedField_ok hoffset).1,
    (PlanDigest.unsignedField_ok hlength).1,WireMapping.optionalField_ok hlayer]

/-- A configuration as it was sent. -/
structure SentConfig (config : ManifestModels.ModelConfig) (cfg : WireMessages.ModelConfig) :
    Prop where
  hiddenSize : cfg.hiddenSize=config.hiddenSize
  intermediateSize : cfg.intermediateSize=config.intermediateSize
  numLayers : cfg.numLayers=config.numLayers
  numAttentionHeads : cfg.numAttentionHeads=config.numAttentionHeads
  numKvHeads : cfg.numKvHeads=config.numKvHeads
  headDim : cfg.headDim=config.headDim
  vocabularySize : cfg.vocabularySize=config.vocabularySize
  maximumSequenceLength : cfg.maximumSequenceLength=config.maximumSequenceLength
  tiedEmbeddings : cfg.tiedEmbeddings=config.tiedEmbeddings
  rmsNormEps : cfg.rmsNormEps=config.rmsNormEps.val
  ropeTheta : cfg.ropeTheta=config.ropeTheta.val
  ropeScaling : config.ropeScaling=none → cfg.ropeScaling=none
  hiddenActivation : cfg.hiddenActivation=config.hiddenActivation
  attentionBias : cfg.attentionBias=config.attentionBias
  mlpBias : cfg.mlpBias=config.mlpBias
  /-- Heads and their dimension are 32-bit fields. -/
  heads : cfg.numAttentionHeads < 2^32 ∧ cfg.numKvHeads < 2^32 ∧ cfg.headDim < 2^32

/-- What is sent for a configuration. -/
theorem configToProto_ok {cfg : WireMessages.ModelConfig} (h : configToProto config=.ok cfg) :
    SentConfig config cfg := by
  unfold configToProto at h
  simp only [call_bind] at h
  obtain ⟨scaling,hscaling,hidden,hhidden,intermediate,hintermediate,layers,hlayers,heads,hheads,
    kv,hkv,dim,hdim,vocabulary,hvocabulary,maximum,hmaximum,eos,-,h⟩ := h
  cases h
  have hheads' := PlanDigest.unsignedField_ok hheads
  have hkv' := PlanDigest.unsignedField_ok hkv
  have hdim' := PlanDigest.unsignedField_ok hdim
  refine ⟨(PlanDigest.unsignedField_ok hhidden).1,(PlanDigest.unsignedField_ok hintermediate).1,
    (PlanDigest.unsignedField_ok hlayers).1,hheads'.1,hkv'.1,hdim'.1,
    (PlanDigest.unsignedField_ok hvocabulary).1,(PlanDigest.unsignedField_ok hmaximum).1,rfl,rfl,
    rfl,fun hnone => ?_,rfl,rfl,rfl,?_,?_,?_⟩
  · rw [hnone] at hscaling
    cases hscaling
    rfl
  · dsimp only
    omega
  · dsimp only
    omega
  · dsimp only
    omega

/-- A manifest as it was sent. -/
structure SentManifest (manifest : ManifestModels.ModelManifest)
    (sent : WireMessages.ModelManifest) (cfg : WireMessages.ModelConfig) : Prop where
  config : sent.config=some cfg ∧ SentConfig manifest.config cfg
  tensors : sent.tensors=manifest.tensors.map wireRecord
  architecture : sent.architecture=some (WireMapping.architectureToProto manifest.architecture)

/-- What is sent for a manifest. -/
theorem modelManifestToProto_ok (h : modelManifestToProto manifest=.ok sent) :
    ∃ cfg,SentManifest manifest sent cfg := by
  unfold modelManifestToProto at h
  simp only [call_bind] at h
  obtain ⟨cfg,hcfg,tensors,htensors,_,-,_,-,_,-,_,-,h⟩ := h
  cases h
  refine ⟨cfg,⟨rfl,configToProto_ok hcfg⟩,?_,rfl⟩
  have hsame : manifest.tensors.mapM tensorToProto=.ok (manifest.tensors.map wireRecord) := by
    refine mapM_ok_of fun record hrecord => ?_
    obtain ⟨message,-,hmessage⟩ := exists_result_of_mem htensors hrecord
    rw [hmessage,tensorToProto_ok hmessage]
  rw [htensors] at hsame
  exact Except.ok.inj hsame

end Messages

section Demands

/-- The worker reads the tensor of a record when it loads a stage. -/
def used (config : ManifestModels.ModelConfig) (stage : StageAssignment)
    (record : ManifestModels.TensorRecord) : Bool :=
  match record.role with
  | .transformerLayer =>
    record.layerIndex.any fun i => decide (stage.layerStart ≤ i) && decide (i < stage.layerEnd)
  | .tokenEmbedding => stage.ownsTokenEmbedding || (stage.ownsLmHead && config.tiedEmbeddings)
  | .finalNorm => stage.ownsFinalNorm
  | .lmHead => stage.ownsLmHead
  | .architectureState => false

/-- The record is that of a head next to a tied embedding. -/
def isRedundant (config : ManifestModels.ModelConfig)
    (record : ManifestModels.TensorRecord) : Bool :=
  config.tiedEmbeddings && decide (record.role=.lmHead)

/-- What a worker demands of a stage of a prepared model that preparation does
not check. -/
structure Demands (contained : String → Except Failure Bool)
    (manifest : ManifestModels.ModelManifest) (stage : StageAssignment) : Prop where
  /-- Only one of the adapters checks this. -/
  even : manifest.config.headDim.val%2=0
  /-- The epsilon is a positive finite number as a float. -/
  epsilon : floatFinite manifest.config.rmsNormEps.val=true ∧
    floatPositive manifest.config.rmsNormEps.val=true
  /-- Theta is finite as a float; a small one may become zero. -/
  theta : floatFinite manifest.config.ropeTheta.val=true
  /-- The worker can convert what it reads. -/
  storage : ∀ record∈manifest.tensors,used manifest.config stage record=true →
    record.dtype=.f32 ∨ record.dtype=.f16 ∨ record.dtype=.bf16
  /-- Names of weight files are no links out of the model root. -/
  inside : ∀ record∈manifest.tensors,used manifest.config stage record=true →
    contained record.file=.ok true
  /-- A redundant head is stored as the embedding is. -/
  head : stage.ownsLmHead=true → ∀ head∈manifest.tensors,
    isRedundant manifest.config head=true → ∀ embedding∈manifest.tensors,
      embedding.role=.tokenEmbedding → embedding.dtype=head.dtype
  /-- The weights in F32 have a size. -/
  size : ((manifest.tensors.filter fun record => used manifest.config stage record &&
    !isRedundant manifest.config record).map fun record => record.shape.prod*4).sum < 2^64

/-- A positive double that rounds to a finite float is a positive number. -/
theorem float_of_floatFinite {x : PositiveFloat} (h : floatFinite x.val=true) :
    isFinite x.val=true ∧ isPositive x.val=true := by
  have hsmall : x.val.toNat < 0x47efffffF0000000 := UInt64.lt_iff_toNat_lt.mp (of_decide_eq_true h)
  have hmagnitude : x.val &&& 0x7fffffffffffffff=x.val := by
    refine UInt64.toNat.inj ?_
    rw [UInt64.toNat_and]
    change x.val.toNat &&& (2^63-1)=_
    rw [Nat.and_two_pow_sub_one_eq_mod,Nat.mod_eq_of_lt (by omega)]
  constructor
  · unfold isFinite
    rw [bne_iff_ne]
    intro heq
    have hbits := congrArg UInt64.toNat heq
    rw [UInt64.toNat_and,UInt64.toNat_shiftRight] at hbits
    change (x.val.toNat >>> 52) &&& (2^11-1)=0x7ff at hbits
    rw [Nat.and_two_pow_sub_one_eq_mod,Nat.shiftRight_eq_div_pow] at hbits
    omega
  · have hpositive := x.property
    unfold nonPositive at hpositive
    dsimp only at hpositive
    rw [hmagnitude] at hpositive
    have hle : x.val ≤ 0x7ff0000000000000 := by
      rw [UInt64.le_iff_toNat_le]
      change x.val.toNat ≤ 0x7ff0000000000000
      omega
    rw [decide_eq_true hle,Bool.true_and,bne_self_eq_false,Bool.false_or] at hpositive
    unfold isPositive
    rw [Bool.and_eq_true,bne_iff_ne,decide_eq_true_iff]
    refine ⟨beq_eq_false_iff_ne.mp hpositive,?_⟩
    rw [UInt64.lt_iff_toNat_lt]
    change x.val.toNat < 0x8000000000000000
    omega

variable {config : ManifestModels.ModelConfig} {cfg : WireMessages.ModelConfig}

/-- A described configuration is supported when its head dimension is even, its
epsilon is positive and finite as a float and its theta is finite as one. -/
theorem supported_iff {adapter : Adapter} {description : ModelDescription}
    (hdescribed : Described adapter description) (hsent : SentConfig description.config cfg) :
    Supported cfg ↔ description.config.headDim.val%2=0 ∧
      (floatFinite description.config.rmsNormEps.val=true ∧
        floatPositive description.config.rmsNormEps.val=true) ∧
      floatFinite description.config.ropeTheta.val=true := by
  unfold Supported
  rw [hsent.hiddenSize,hsent.intermediateSize,hsent.numLayers,hsent.numAttentionHeads,
    hsent.numKvHeads,hsent.headDim,hsent.maximumSequenceLength,hsent.vocabularySize,
    hsent.hiddenActivation,hsent.attentionBias,hsent.mlpBias,hsent.ropeScaling hdescribed.unscaled,
    hsent.rmsNormEps,hsent.ropeTheta]
  have hpositive : ∀ n : ℕ+,n.val≠0 := fun n => n.ne_zero
  constructor
  · rintro ⟨-,-,-,-,-,-,heven,-,-,-,-,-,-,-,-,-,-,-,htheta,heps,hepsilon⟩
    exact ⟨heven,⟨heps,hepsilon⟩,htheta⟩
  · rintro ⟨heven,⟨heps,hepsilon⟩,htheta⟩
    obtain ⟨hef,hep⟩ := float_of_floatFinite heps
    obtain ⟨htf,htp⟩ := float_of_floatFinite htheta
    exact ⟨hpositive _,hpositive _,hpositive _,hpositive _,hpositive _,hpositive _,heven,
      description.config.heads_divisible,hpositive _,hpositive _,hdescribed.activation,
      hdescribed.attentionBias,hdescribed.mlpBias,rfl,hef,hep,htf,htp,htheta,heps,hepsilon⟩

end Demands

section Plans

variable {plan : DeploymentPlan} {wire : WireMessages.DeploymentPlan} {stage : StageAssignment}
variable {layers : ℕ}

/-- A stage of a valid plan over a model. -/
structure StageOf (plan : DeploymentPlan) (layers : ℕ) (stage : StageAssignment) : Prop where
  place : plan.stages[stage.stageIndex]?=some stage
  count : plan.stages.length ≤ 2
  range : stage.layerStart < stage.layerEnd ∧ stage.layerEnd ≤ layers
  first : stage.ownsTokenEmbedding=decide (stage.stageIndex=0)
  norm : stage.ownsFinalNorm=stage.ownsSampling
  head : stage.ownsLmHead=stage.ownsSampling
  final : stage.ownsSampling=decide (stage.stageIndex+1=plan.stages.length)

/-- A stage of a partition lies where it should and owns what it should. -/
theorem partition_stage {count index finish : ℕ} {workers : List String}
    {stages : List StageAssignment}
    (h : PlannerPlacement.partitionValid count index finish workers stages=true) :
    (∀ last,stages.getLast?=some last → finish < last.layerEnd) ∧
    ∀ (i : ℕ) (stage : StageAssignment),stages[i]?=some stage → stage.stageIndex=index+i ∧
      stage.layerStart < stage.layerEnd ∧
      (∀ last,stages.getLast?=some last → stage.layerEnd ≤ last.layerEnd) ∧
      stage.ownsTokenEmbedding=decide (index+i=0) ∧
      stage.ownsFinalNorm=decide (index+i+1=count) ∧
      stage.ownsLmHead=decide (index+i+1=count) ∧
      stage.ownsSampling=decide (index+i+1=count) := by
  induction stages generalizing index finish workers with
  | nil =>
    refine ⟨fun last hlast => ?_,fun i stage hstage => ?_⟩
    · cases hlast
    · cases hstage
  | cons first stages ih =>
    simp only [PlannerPlacement.partitionValid,Bool.and_eq_true,beq_iff_eq,decide_eq_true_iff] at h
    obtain ⟨⟨⟨⟨⟨⟨⟨⟨hindex,hstart⟩,hrange⟩,-⟩,hembedding⟩,hnorm⟩,hhead⟩,hsampling⟩,hrest⟩ := h
    obtain ⟨hlast,hstages⟩ := ih hrest
    have hend : ∀ last,(first::stages).getLast?=some last → first.layerEnd ≤ last.layerEnd := by
      intro last h
      cases stages with
      | nil =>
        cases h
        exact Nat.le_refl _
      | cons second stages =>
        rw [List.getLast?_cons_cons] at h
        exact Nat.le_of_lt (hlast last h)
    refine ⟨fun last h => Nat.lt_of_lt_of_le hrange (hend last h),fun i stage hstage => ?_⟩
    cases i with
    | zero =>
      rw [List.getElem?_cons_zero] at hstage
      cases hstage
      exact ⟨hindex,by omega,hend,hembedding,hnorm,hhead,hsampling⟩
    | succ i =>
      rw [List.getElem?_cons_succ] at hstage
      obtain ⟨hat,hsome,hle,hflags⟩ := hstages i stage hstage
      have hshift : index+(i+1)=index+1+i := by omega
      rw [hshift]
      refine ⟨hat,hsome,fun last h => ?_,hflags⟩
      cases stages with
      | nil => cases hstage
      | cons second stages =>
        rw [List.getLast?_cons_cons] at h
        exact hle last h

/-- Stages of a valid plan that ends with the model. -/
theorem stageOf_valid (hvalid : validateDeploymentPlan plan=.ok ())
    (hover : plan.stages.getLast?.map (·.layerEnd)=some layers) (hstage : stage∈plan.stages) :
    StageOf plan layers stage := by
  unfold validateDeploymentPlan PlannerPlacement.validatePartition at hvalid
  simp only [call_bind,PlannerPlacement.check_ok_iff] at hvalid
  obtain ⟨_,-,_,-,_,hcount,_,-,_,-,_,-,_,-,_,hpartition,-⟩ := hvalid
  obtain ⟨i,hi,hget⟩ := List.getElem_of_mem hstage
  have hplace : plan.stages[i]?=some stage := by
    rw [List.getElem?_eq_getElem hi,hget]
  obtain ⟨hindex,hrange,hend,hembedding,hnorm,hhead,hsampling⟩ :=
    (partition_stage hpartition).2 i stage hplace
  rw [Nat.zero_add] at hindex hembedding hnorm hhead hsampling
  rw [←hindex] at hplace hembedding hnorm hhead hsampling
  obtain ⟨last,hlast,hlayers⟩ := Option.map_eq_some_iff.mp hover
  exact ⟨hplace,hcount.2,⟨hrange,hlayers ▸ hend last hlast⟩,hembedding,hnorm.trans hsampling.symm,
    hhead.trans hsampling.symm,hsampling⟩

/-- The schema version of a plan is one of those in use. -/
def KnownSchema (plan : DeploymentPlan) : Prop :=
  plan.schemaVersion="1.0" ∨ plan.schemaVersion="1.1" ∨ plan.schemaVersion="1.2"

/-- The worker's checks of a valid plan pass. -/
theorem checkPlan_valid {request : WireMessages.LoadStageRequest}
    (hvalid : validateDeploymentPlan plan=.ok ())
    (hwire : PlanDigest.deploymentPlanToProto plan=.ok wire)
    (hschema : KnownSchema plan) (hdtype : plan.executionDtype=.f32 ∨ plan.executionDtype=.f16)
    (hstage : StageOf plan layers stage) (hindex : request.stageIndex=stage.stageIndex) :
    checkPlan request wire=.ok () := by
  obtain ⟨version,hversion,rfl⟩ := PlanDigest.deploymentPlanToProto_ok hwire
  have hbound : stage.stageIndex < plan.stages.length :=
    (List.getElem?_eq_some_iff.mp hstage.place).1
  have hcount := hstage.count
  have hpartition : PlannerPlacement.validatePartition plan=.ok () := by
    unfold validateDeploymentPlan at hvalid
    simp only [call_bind] at hvalid
    obtain ⟨_,-,_,-,h⟩ := hvalid
    exact h
  obtain ⟨hmixed,hplain,-⟩ := PlanDigest.validatePartition_fields hpartition
  unfold checkPlan
  simp only [call_bind,rejectIf_ok]
  refine ⟨(),?_,?_⟩
  · unfold size32
    rw [hindex]
    have hsize : (PlanDigest.wireOf version plan).stages.length=plan.stages.length := rfl
    rw [hsize,Nat.mod_eq_of_lt (by omega)]
    rintro (hle|⟨hnot32,hnot16⟩)
    · omega
    · rcases hdtype with h|h
      · exact hnot32 (congrArg (fun d : DType => d.toProto.number) h)
      · exact hnot16 (congrArg (fun d : DType => d.toProto.number) h)
  · have hmixed' : (PlanDigest.wireOf version plan).weightDtype.isSome=plan.weightDtype.isSome :=
      Option.isSome_map
    have hsome : (PlanDigest.wireOf version plan).schemaVersion.getD default=version := rfl
    rw [hmixed',hsome]
    cases hweight : plan.weightDtype with
    | none =>
      have hmajor : ¬(version.major=1 ∧ version.minor=2) := by
        rcases hschema with h|h|h
        · rw [h] at hversion
          cases hversion
          decide
        · rw [h] at hversion
          cases hversion
          decide
        · exact absurd h (hplain hweight)
      rintro (h|h)
      · exact h (by rw [decide_eq_false hmajor]; rfl)
      · exact absurd h.1 (by decide)
    | some dtype =>
      obtain ⟨rfl,hexecution,hversion'⟩ := hmixed dtype hweight
      rw [hversion'] at hversion
      cases hversion
      have hwire16 : (PlanDigest.wireOf ⟨1,2⟩ plan).weightDtype=
          some WireMessages.DataType.f16.number := by
        change plan.weightDtype.map (fun d : DType => d.toProto.number)=_
        rw [hweight]
        rfl
      have hwire32 : (PlanDigest.wireOf ⟨1,2⟩ plan).executionDtype=
          WireMessages.DataType.f32.number :=
        congrArg (fun d : DType => d.toProto.number) hexecution
      rintro (h|h)
      · exact h rfl
      · rcases h.2 with hnot|hnot
        · exact hnot hwire16
        · exact hnot hwire32

/-- So do those of what a stage owns. -/
theorem checkOwnership_valid {request : WireMessages.LoadStageRequest}
    (hwire : PlanDigest.deploymentPlanToProto plan=.ok wire) (hstage : StageOf plan layers stage)
    (hindex : request.stageIndex=stage.stageIndex) : checkOwnership request wire stage=.ok () := by
  obtain ⟨version,-,rfl⟩ := PlanDigest.deploymentPlanToProto_ok hwire
  have hcount := hstage.count
  have hsize : size32 (PlanDigest.wireOf version plan).stages=plan.stages.length :=
    Nat.mod_eq_of_lt (by change plan.stages.length < _; omega)
  unfold checkOwnership
  dsimp only
  rw [rejectIf_ok,hindex,hsize,hstage.norm,hstage.head,hstage.first,hstage.final]
  rintro (h|h|h|h)
  · exact h rfl
  · exact h rfl
  · exact h rfl
  · exact h rfl

end Plans

section Architectures

variable {adapter : Adapter} {description : ModelDescription}

/-- Whether the worker treats the model as Qwen3. -/
def isQwen (adapter : Adapter) : Bool := decide (adapter=.qwen3)

/-- Features the worker knows pass its loop. -/
theorem checkFeatures_known {qwen flag : Bool} {features : List String}
    (hknown : ∀ feature∈features,feature∈supportedFeatures ∨ (qwen=true ∧ feature="qk_norm")) :
    checkFeatures qwen flag features=.ok (flag || (qwen && features.contains "qk_norm")) := by
  induction features generalizing flag with
  | nil =>
    rw [List.contains_nil,Bool.and_false,Bool.or_false]
    rfl
  | cons feature features ih =>
    have hrest := fun other hother => hknown other (.tail _ hother)
    unfold checkFeatures
    by_cases hnorm : qwen=true ∧ feature="qk_norm"
    · rw [if_pos hnorm,ih hrest,hnorm.1,hnorm.2,List.contains_cons]
      cases flag with
      | false => rfl
      | true => rfl
    · rw [if_neg hnorm]
      have hfirst : feature∈supportedFeatures := (hknown feature (.head _)).resolve_right hnorm
      refine call_bind.mpr ⟨(),rejectIf_ok.mpr (not_not.mpr hfirst),?_⟩
      rw [ih hrest,List.contains_cons]
      cases qwen with
      | false => rfl
      | true =>
        have hne : ("qk_norm"==feature)=false :=
          beq_eq_false_iff_ne.mpr fun heq => hnorm ⟨rfl,heq.symm⟩
        rw [hne,Bool.false_or]

/-- The worker's checks of a described architecture pass. -/
theorem checkArchitecture_described (hdescribed : Described adapter description) :
    checkArchitecture (WireMapping.architectureToProto description.architecture)=
      .ok (isQwen adapter) := by
  have hid : (WireMapping.architectureToProto description.architecture).architectureId=
      adapter.architectureId := hdescribed.id
  have hrevision : (WireMapping.architectureToProto description.architecture).architectureRevision=
      "1" := hdescribed.revision
  have hqwen : decide (adapter.architectureId="qwen3.v1")=isQwen adapter := by
    cases adapter with
    | llama => decide
    | qwen3 => decide
  unfold checkArchitecture
  rw [hid,hrevision]
  refine call_bind.mpr ⟨(),rejectIf_ok.mpr ?_,call_bind.mpr
    ⟨isQwen adapter && description.architecture.featureFlags.contains "qk_norm",?_,
      call_bind.mpr ⟨(),rejectIf_ok.mpr ?_,?_⟩⟩⟩
  · cases adapter with
    | llama => decide
    | qwen3 => decide
  · rw [hqwen]
    have hfeatures := @checkFeatures_known (isQwen adapter) false
      description.architecture.featureFlags fun feature hfeature =>
        (hdescribed.features feature hfeature).imp_right fun h => ⟨decide_eq_true h.1,h.2⟩
    rw [Bool.false_or] at hfeatures
    exact hfeatures
  · rintro ⟨h,hnone⟩
    have hflag : isQwen adapter=true := hqwen ▸ decide_eq_true h
    rw [hflag,Bool.true_and,List.contains_eq_mem,
      decide_eq_true (hdescribed.normed (of_decide_eq_true hflag))] at hnone
    cases hnone
  · rw [hqwen]
    rfl

end Architectures

section Files

variable {parser : JsonParser} {sorting : RangeSort} {bytes : List UInt8} {item : InspectedFile}
variable {directory : ModelDirectory} {root : String → Except Failure WeightChunks.DiskFile}
variable {contained : String → Except Failure Bool} {found : Findings}

/-- Both readers judge the header of a file alike: its numbers are words, none is
written `-0`, no leading part of a shape overflows, and no nonempty tensor starts
where an empty one does. -/
def Readable (parser : JsonParser) (bytes : List UInt8) : Prop :=
  ∀ members,parser.parse ((bytes.drop 8).take (readLittleEndian (bytes.take 8)))=
      some (.object members) →
    (∀ member∈members,NumbersInRange member.2) ∧
      Unambiguous ((tensorMembers members).map Prod.snd)

/-- A prepared container is opened, and its tensors are found. -/
theorem openFile_container (hreadable : Readable parser bytes)
    (hcontainer : Container parser bytes item) (hsize : bytes.length < 2^63) :
    ∃ file,openFile parser sorting bytes=.ok file ∧
      ∀ name metadata,(name,metadata)∈item.tensors → file.tensor name=.ok metadata := by
  obtain ⟨members,hparse,hinspect⟩ := hcontainer.tensors
  have hheader := hcontainer.header
  have hlength : item.headerSizeBytes-8=readLittleEndian (bytes.take 8) := by omega
  rw [hlength] at hparse
  obtain ⟨hrange,hclear⟩ := hreadable members hparse
  have hdistinct := parser.distinct _ _ hparse
  have hvalid := (@SafetensorsAcceptance.inspect_accepts ⟨members,hdistinct,hrange⟩ _
    fun _ => hclear).mp ⟨_,hinspect⟩
  obtain ⟨tensors,hread⟩ := (@SafetensorsAcceptance.native_accepts ⟨members,hdistinct,hrange⟩ _
    sorting fun _ => hclear).mpr hvalid
  have hsame := @SafetensorsAcceptance.same_tensors ⟨members,hdistinct,hrange⟩ _ sorting _ _
    hinspect hread
  obtain ⟨hsome,hbounded⟩ := hcontainer.bounded
  have hinside := hcontainer.inside
  have hword : (8+readLittleEndian (bytes.take 8))%2^64=item.headerSizeBytes := by
    rw [hheader]
    unfold maximumHeaderBytes at hbounded
    exact Nat.mod_eq_of_lt (by omega)
  refine ⟨⟨bytes.length,item.headerSizeBytes,tensors⟩,?_,fun name metadata hmem => ?_⟩
  · unfold openFile
    simp only [call_bind,rejectIf_ok]
    refine ⟨(),by omega,(),?_,(),?_,(),by omega,members,?_,tensors,?_,?_⟩
    · have hlong := hcontainer.long
      omega
    · rw [hlength] at hsome hbounded
      omega
    · unfold parseHeader
      rw [hparse]
    · rw [hword]
      exact hread
    · rw [hword]
      rfl
  · have haccepted := accepted_of_readHeader hdistinct hread
    refine (tensor_ok_iff haccepted.sorted).mpr ?_
    rw [←hsame]
    exact hmem

/-- Weight files are on the worker as they were prepared, and both readers judge
them alike. -/
def Deployed (parser : JsonParser) (directory : ModelDirectory)
    (root : String → Except Failure WeightChunks.DiskFile) (names : List String) : Prop :=
  ∀ name∈names,∀ bytes,directory.files name=some bytes →
    Readable parser bytes ∧ ∃ disk,root name=.ok disk ∧ disk.bytes=bytes

/-- The worker reads of a recorded tensor what the record says. -/
theorem reads_record (hfound : Found parser directory found)
    (hdeployed : Deployed parser directory root (found.inspected.map (·.name)))
    {record : ManifestModels.TensorRecord} (hrecord : record∈found.records) :
    PlainName record.file ∧ ∃ read metadata,
      (WeightLoading.environment contained (WeightLoading.openRoot parser sorting root)).openFile
        record.file=.ok read ∧ read record.name=.ok metadata ∧
      record.dtype=dtypeOf metadata.dtype ∧ metadata.shape=record.shape ∧
      metadata.dataOffset=record.dataOffset ∧ metadata.byteLength=record.byteLength ∧
      metadata.byteLength=metadata.shape.prod*dataTypeBytes metadata.dtype := by
  obtain ⟨item,hitem,tensor,htensor,hrecorded⟩ := hfound.origin record hrecord
  obtain ⟨hplain,bytes,hbytes,hcontainer⟩ := hfound.containers item hitem
  obtain ⟨hreadable,disk,hroot,rfl⟩ := hdeployed item.name (List.mem_map_of_mem hitem) bytes hbytes
  obtain ⟨file,hopen,hall⟩ := @openFile_container parser sorting disk.bytes item hreadable
    hcontainer disk.size_lt
  rw [hrecorded.file]
  refine ⟨hplain,file.tensor,tensor,?_,hall _ _ htensor,hrecorded.dtype,hrecorded.shape.symm,
    hrecorded.offset.symm,hrecorded.length.symm,
    (WeightLoading.opened_of_ok hopen).length (hall _ _ htensor)⟩
  unfold WeightLoading.environment WeightLoading.openRoot
  dsimp only
  rw [hroot]
  change Except.map _ (openFile parser sorting disk.bytes)=_
  rw [hopen]
  rfl

/-- A name of a file is plain for the worker too. -/
theorem isPlainName_of {name : String} (h : PlainName name) : isPlainName name=true := by
  unfold isPlainName
  rw [bne_iff_ne.mpr h.nonempty,bne_iff_ne.mpr h.here,bne_iff_ne.mpr h.above,Bool.true_and,
    Bool.and_true,Bool.and_true,List.contains_eq_mem,decide_eq_false h.whole]
  rfl

/-- The storage types that a worker converts. -/
theorem weightDtypeNumber_iff {dtype : WireMessages.DataType} {recorded : DType}
    (h : recorded=dtypeOf dtype) :
    weightDtypeNumber dtype=some recorded.toProto.number ↔
      recorded=.f32 ∨ recorded=.f16 ∨ recorded=.bf16 := by
  subst h
  cases dtype with
  | unspecified => decide
  | bool => decide
  | u8 => decide
  | i8 => decide
  | i16 => decide
  | u16 => decide
  | i32 => decide
  | u32 => decide
  | i64 => decide
  | u64 => decide
  | f16 => decide
  | bf16 => decide
  | f32 => decide
  | f64 => decide

/-- A tensor with a matching record passes its checks when the file lies in the
root and the storage can be converted. -/
theorem checkTensor_recorded (hfound : Found parser directory found)
    (hdeployed : Deployed parser directory root (found.inspected.map (·.name)))
    {records : List (String×WireMessages.TensorRecord)}
    (hindexed : Indexed (found.records.map wireRecord) records)
    {record : ManifestModels.TensorRecord} (hrecord : record∈found.records)
    {entry : String×ExpectedTensor} (hname : record.name=entry.1)
    (hmatch : matchesSpec (wireRecord record) entry.2=true) :
    (∃ checked,checkTensor (WeightLoading.environment contained
        (WeightLoading.openRoot parser sorting root)) records entry=.ok checked) ↔
      contained record.file=.ok true ∧
        (record.dtype=.f32 ∨ record.dtype=.f16 ∨ record.dtype=.bf16) := by
  obtain ⟨hplain,read,metadata,hopen,hread,hdtype,hshape,hoffset,hlength,-⟩ :=
    @reads_record parser sorting directory root contained found hfound hdeployed record hrecord
  have hlookup : records.lookup entry.1=some (wireRecord record) :=
    (hindexed.found _ _).mpr ⟨List.mem_map_of_mem hrecord,hname⟩
  have hshaped : record.shape=entry.2.shape := (matchesSpec_iff.mp hmatch).2.2
  have hfile : (wireRecord record).file=record.file := rfl
  unfold checkTensor
  simp only [call_bind,rejectIf_ok]
  rw [hlookup]
  constructor
  · rintro ⟨checked,other,hother,_,-,inside,hinside,_,hyes,file,hfile',tensor,htensor,_,hok,-⟩
    cases hother
    rw [hfile,if_pos (isPlainName_of hplain)] at hinside
    rw [hfile,hopen] at hfile'
    cases hfile'
    rw [←hname,hread] at htensor
    cases htensor
    rw [Bool.not_eq_false] at hyes
    rw [hyes] at hinside
    rw [not_or,not_not] at hok
    exact ⟨hinside,(weightDtypeNumber_iff hdtype).mp hok.1⟩
  · rintro ⟨hinside,hstorage⟩
    refine ⟨(wireRecord record,metadata),wireRecord record,rfl,(),?_,true,?_,(),by decide,read,?_,
      metadata,?_,(),?_,rfl⟩
    · rw [hmatch]
      decide
    · rw [hfile,if_pos (isPlainName_of hplain)]
      exact hinside
    · rw [hfile,hopen]
    · rw [←hname,hread]
    · rw [not_or,not_or,not_or,not_not,not_not,not_not,not_not]
      exact ⟨(weightDtypeNumber_iff hdtype).mpr hstorage,hshape.trans hshaped,hoffset,hlength⟩

end Files

section Expectations

variable {parser : JsonParser} {directory : ModelDirectory} {found : Findings}
variable {cfg : WireMessages.ModelConfig} {stage : StageAssignment}
variable {record : ManifestModels.TensorRecord} {entry : String×ExpectedTensor}
variable {config : ManifestModels.ModelConfig} {adapter : Adapter} {redundant : Bool}

/-- The shapes of a layer's tensors that preparation checks. -/
theorem layerShapes_recorded (hsent : SentConfig config cfg) {suffix : String} {shape : List ℕ}
    (h : (suffix,shape)∈layerShapes cfg (cfg.numAttentionHeads*cfg.headDim)
      (cfg.numKvHeads*cfg.headDim) (isQwen adapter)) :
    suffix∈adapter.suffixes ∧ expectedShape adapter suffix config=some shape := by
  unfold layerShapes at h
  rw [hsent.hiddenSize,hsent.intermediateSize,hsent.numAttentionHeads,hsent.numKvHeads,
    hsent.headDim] at h
  cases adapter with
  | llama =>
    simp only [isQwen,List.mem_append,List.mem_cons,Prod.mk.injEq,List.not_mem_nil,or_false,
      reduceCtorEq,decide_false,Bool.false_eq_true,if_false] at h
    rcases h with ⟨rfl,rfl⟩|⟨rfl,rfl⟩|⟨rfl,rfl⟩|⟨rfl,rfl⟩|⟨rfl,rfl⟩|⟨rfl,rfl⟩|⟨rfl,rfl⟩|⟨rfl,rfl⟩|
      ⟨rfl,rfl⟩
    all_goals exact ⟨by decide,rfl⟩
  | qwen3 =>
    simp only [isQwen,List.mem_append,List.mem_cons,Prod.mk.injEq,List.not_mem_nil,or_false,
      decide_true,if_true] at h
    rcases h with (⟨rfl,rfl⟩|⟨rfl,rfl⟩|⟨rfl,rfl⟩|⟨rfl,rfl⟩|⟨rfl,rfl⟩|⟨rfl,rfl⟩|⟨rfl,rfl⟩|⟨rfl,rfl⟩|
      ⟨rfl,rfl⟩)|⟨rfl,rfl⟩|⟨rfl,rfl⟩
    all_goals exact ⟨by decide,rfl⟩

/-- A worker expects a tensor for every suffix. -/
theorem layerShapes_suffixes {attention kv : ℕ} :
    (layerShapes cfg attention kv (isQwen adapter)).map Prod.fst=adapter.suffixes := by
  cases adapter with
  | llama => rfl
  | qwen3 => rfl

/-- The record of a tensor is what is expected under its name. -/
theorem record_matches (hfound : Found parser directory found) (hrecord : record∈found.records)
    {ownership : TensorOwnership} {shape : List ℕ} {layer : ℤ}
    (hclassified : classifyTensor found.adapter record.name found.description.config=.ok ownership)
    (hshape : expectedShape found.adapter record.name found.description.config=some shape)
    (hlayer : ownership.layerIndex=if 0 ≤ layer then some layer.toNat else none) :
    record.role=ownership.role ∧ record.layerIndex=ownership.layerIndex ∧
      matchesSpec (wireRecord record) ⟨shape,roleNumber ownership.role,layer⟩=true := by
  obtain ⟨item,-,tensor,-,hrecorded⟩ := hfound.origin record hrecord
  obtain ⟨other,hother,hrole,hindex⟩ := hrecorded.owner
  rw [hclassified] at hother
  cases hother
  refine ⟨hrole,hindex,matchesSpec_iff.mpr ⟨congrArg roleNumber hrole,?_,
    hrecorded.shaped shape hshape⟩⟩
  change if 0 ≤ layer then record.layerIndex=some layer.toNat else record.layerIndex=none
  rw [hindex,hlayer]
  split
  · rfl
  · rfl

/-- A tensor of a layer is what is expected under its name. -/
theorem layer_matches (hfound : Found parser directory found)
    (hsent : SentConfig found.description.config cfg) (hlayers : cfg.numLayers < 2^31) {i : ℕ}
    (hi : i < cfg.numLayers)
    (hentry : entry∈layerEntries cfg (cfg.numAttentionHeads*cfg.headDim)
      (cfg.numKvHeads*cfg.headDim) (isQwen found.adapter) i) :
    ∃ record∈found.records,record.name=entry.1 ∧ record.role=.transformerLayer ∧
      record.layerIndex=some i ∧ matchesSpec (wireRecord record) entry.2=true := by
  obtain ⟨⟨suffix,shape⟩,hshape,rfl⟩ := List.mem_map.mp hentry
  obtain ⟨hsuffix,hexpected⟩ := layerShapes_recorded hsent hshape
  have hbound : i < found.description.config.numLayers := by
    rw [hsent.numLayers] at hi
    exact hi
  have hmem : layerPrefix i++suffix∈expectedTensorNames found.adapter found.description.config :=
    List.mem_append_left _ (List.mem_append_right _ (List.mem_flatMap.mpr
      ⟨i,List.mem_range.mpr hbound,List.mem_map_of_mem hsuffix⟩))
  obtain ⟨record,hrecord,hname⟩ := hfound.required _ hmem
  have hint : toInt i=i := by
    unfold toInt
    rw [if_pos (by omega)]
  have hmatches := @record_matches parser directory found record hfound hrecord
    ⟨.transformerLayer,some i,none⟩ shape (toInt i)
    (by rw [hname,classifyTensor_layer hbound hsuffix])
    (by rw [hname,expectedShape_layer hsuffix,hexpected])
    (by rw [hint,if_pos (by omega),Int.toNat_natCast])
  exact ⟨record,hrecord,hname,hmatches.1,hmatches.2.1,hmatches.2.2⟩

/-- A tensor outside the layers is what is expected under its name. -/
theorem outer_matches (hfound : Found parser directory found)
    (hsent : SentConfig found.description.config cfg) (hrecord : record∈found.records) :
    (record.name="model.embed_tokens.weight" → record.role=.tokenEmbedding ∧
      matchesSpec (wireRecord record)
        ⟨[cfg.vocabularySize,cfg.hiddenSize],roleNumber .tokenEmbedding,-1⟩=true) ∧
    (record.name="model.norm.weight" → record.role=.finalNorm ∧
      matchesSpec (wireRecord record) ⟨[cfg.hiddenSize],roleNumber .finalNorm,-1⟩=true) ∧
    (record.name="lm_head.weight" → record.role=.lmHead ∧
      matchesSpec (wireRecord record)
        ⟨[cfg.vocabularySize,cfg.hiddenSize],roleNumber .lmHead,-1⟩=true) := by
  have hqwen : ∀ name∈["model.embed_tokens.weight","model.norm.weight","lm_head.weight"],
      expectedShape found.adapter name found.description.config=
        denseShape name found.description.config := by
    intro name hname
    cases found.adapter with
    | llama => rfl
    | qwen3 =>
      have hends : ∀ name∈["model.embed_tokens.weight","model.norm.weight","lm_head.weight"],
          ¬(endsWith name "self_attn.q_norm.weight"=true ∨
            endsWith name "self_attn.k_norm.weight"=true) := by
        decide +kernel
      exact if_neg (hends name hname)
  rw [hsent.vocabularySize,hsent.hiddenSize]
  refine ⟨fun hname => ?_,fun hname => ?_,fun hname => ?_⟩
  · have hmatches := @record_matches parser directory found record hfound hrecord
      ⟨.tokenEmbedding,none,embeddingGroup found.description.config⟩ _ (-1)
      (by rw [hname]; rfl) (by rw [hname,hqwen _ (by decide)]; rfl) rfl
    exact ⟨hmatches.1,hmatches.2.2⟩
  · have hmatches := @record_matches parser directory found record hfound hrecord
      ⟨.finalNorm,none,none⟩ _ (-1)
      (by rw [hname]; rfl) (by rw [hname,hqwen _ (by decide)]; rfl) rfl
    exact ⟨hmatches.1,hmatches.2.2⟩
  · have hmatches := @record_matches parser directory found record hfound hrecord
      ⟨.lmHead,none,embeddingGroup found.description.config⟩ _ (-1)
      (by rw [hname]; rfl) (by rw [hname,hqwen _ (by decide)]; rfl) rfl
    exact ⟨hmatches.1,hmatches.2.2⟩

/-- What is expected has a matching record, which the stage uses. -/
theorem expected_recorded (hfound : Found parser directory found)
    (hsent : SentConfig found.description.config cfg) (hlayers : cfg.numLayers < 2^31)
    (hend : stage.layerEnd ≤ cfg.numLayers)
    (hredundant : redundant=true → stage.ownsLmHead=true ∧
      ∃ record∈found.records,record.name="lm_head.weight")
    (hentry : entry∈expectedTensors cfg stage (isQwen found.adapter) redundant) :
    ∃ record∈found.records,record.name=entry.1 ∧
      used found.description.config stage record=true ∧
      matchesSpec (wireRecord record) entry.2=true := by
  rcases mem_of_mem_emplaceAll hentry with hnil|hmem
  · exact absurd hnil List.not_mem_nil
  rcases List.mem_append.mp hmem with hmem|hmem
  · unfold expectedEntries at hmem
    simp only [List.mem_append,List.mem_flatMap,List.mem_range'_1] at hmem
    rcases hmem with ((hmem|hmem)|hmem)|⟨i,hi,hmem⟩
    · split at hmem
      · rename_i howns
        rw [List.mem_singleton] at hmem
        subst hmem
        obtain ⟨record,hrecord,hname⟩ := hfound.required "model.embed_tokens.weight"
          (List.mem_append_left _ (List.mem_append_left _ (.head _)))
        obtain ⟨hrole,hmatches⟩ := (outer_matches hfound hsent hrecord).1 hname
        refine ⟨record,hrecord,hname,?_,hmatches⟩
        unfold used
        rw [hrole,←hsent.tiedEmbeddings]
        dsimp only
        rw [Bool.or_eq_true,Bool.and_eq_true]
        exact howns
      · exact absurd hmem List.not_mem_nil
    · split at hmem
      · rename_i howns
        rw [List.mem_singleton] at hmem
        subst hmem
        obtain ⟨record,hrecord,hname⟩ := hfound.required "model.norm.weight"
          (List.mem_append_left _ (List.mem_append_left _ (.tail _ (.head _))))
        obtain ⟨hrole,hmatches⟩ := (outer_matches hfound hsent hrecord).2.1 hname
        refine ⟨record,hrecord,hname,?_,hmatches⟩
        unfold used
        rw [hrole]
        exact howns
      · exact absurd hmem List.not_mem_nil
    · split at hmem
      · rename_i howns
        rw [List.mem_singleton] at hmem
        subst hmem
        have huntied : found.description.config.tiedEmbeddings=false := by
          rw [←hsent.tiedEmbeddings]
          exact howns.2
        obtain ⟨record,hrecord,hname⟩ := hfound.required "lm_head.weight"
          (List.mem_append_right _ (by rw [huntied]; exact .head _))
        obtain ⟨hrole,hmatches⟩ := (outer_matches hfound hsent hrecord).2.2 hname
        refine ⟨record,hrecord,hname,?_,hmatches⟩
        unfold used
        rw [hrole]
        exact howns.1
      · exact absurd hmem List.not_mem_nil
    · obtain ⟨record,hrecord,hname,hrole,hlayer,hmatches⟩ :=
        layer_matches hfound hsent hlayers (by omega) hmem
      refine ⟨record,hrecord,hname,?_,hmatches⟩
      unfold used
      rw [hrole,hlayer]
      dsimp only
      rw [Option.any_some,Bool.and_eq_true,decide_eq_true_iff,decide_eq_true_iff]
      omega
  · split at hmem
    · rename_i hflag
      rw [List.mem_singleton] at hmem
      subst hmem
      obtain ⟨howns,record,hrecord,hname⟩ := hredundant hflag
      obtain ⟨hrole,hmatches⟩ := (outer_matches hfound hsent hrecord).2.2 hname
      refine ⟨record,hrecord,hname,?_,hmatches⟩
      unfold used
      rw [hrole]
      exact howns
    · exact absurd hmem List.not_mem_nil

/-- What a stage uses is expected. -/
theorem used_expected (hfound : Found parser directory found)
    (hsent : SentConfig found.description.config cfg) (hrecord : record∈found.records)
    (hredundant : stage.ownsLmHead=true → isRedundant found.description.config record=true →
      redundant=true)
    (hused : used found.description.config stage record=true) :
    record.name∈(expectedTensors cfg stage (isQwen found.adapter) redundant).map Prod.fst := by
  obtain ⟨item,-,tensor,-,hrecorded⟩ := hfound.origin record hrecord
  have hclassified := hrecorded.classified
  unfold expectedTensors
  rw [key_emplaceAll]
  refine .inr ?_
  rw [List.map_append,List.mem_append]
  unfold isRedundant at hredundant
  unfold used at hused
  generalize record.name=name at hclassified ⊢
  generalize record.role=role at hclassified hused hredundant
  generalize record.layerIndex=layer at hclassified hused
  cases hclassified with
  | embedding =>
    dsimp only at hused
    rw [Bool.or_eq_true,Bool.and_eq_true,←hsent.tiedEmbeddings] at hused
    refine .inl (List.mem_map.mpr ⟨("model.embed_tokens.weight",
      ⟨[cfg.vocabularySize,cfg.hiddenSize],roleNumber .tokenEmbedding,-1⟩),?_,rfl⟩)
    unfold expectedEntries
    rw [if_pos hused]
    exact List.mem_append_left _ (List.mem_append_left _ (List.mem_append_left _ (.head _)))
  | norm =>
    dsimp only at hused
    refine .inl (List.mem_map.mpr ⟨("model.norm.weight",
      ⟨[cfg.hiddenSize],roleNumber .finalNorm,-1⟩),?_,rfl⟩)
    unfold expectedEntries
    rw [if_pos hused]
    exact List.mem_append_left _ (List.mem_append_left _ (List.mem_append_right _ (.head _)))
  | head =>
    dsimp only at hused
    by_cases htied : found.description.config.tiedEmbeddings=true
    · rw [htied] at hredundant
      rw [if_pos (hredundant hused rfl)]
      exact .inr (.head _)
    · rw [Bool.not_eq_true,←hsent.tiedEmbeddings] at htied
      have hhead : stage.ownsLmHead=true ∧ cfg.tiedEmbeddings=false := ⟨hused,htied⟩
      refine .inl (List.mem_map.mpr ⟨("lm_head.weight",
        ⟨[cfg.vocabularySize,cfg.hiddenSize],roleNumber .lmHead,-1⟩),?_,rfl⟩)
      unfold expectedEntries
      rw [if_pos hhead]
      exact List.mem_append_left _ (List.mem_append_right _ (.head _))
  | state name => cases hused
  | layer i suffix hlayer hsuffix =>
    rw [Option.any_some,Bool.and_eq_true,decide_eq_true_iff,decide_eq_true_iff] at hused
    rw [←@layerShapes_suffixes cfg found.adapter (cfg.numAttentionHeads*cfg.headDim)
      (cfg.numKvHeads*cfg.headDim)] at hsuffix
    obtain ⟨shape,hshape,rfl⟩ := List.mem_map.mp hsuffix
    refine .inl (List.mem_map.mpr ⟨_,List.mem_append_right _ (List.mem_flatMap.mpr ⟨i,?_,
      List.mem_map_of_mem hshape⟩),rfl⟩)
    rw [List.mem_range'_1]
    omega

/-- Embeddings and heads have one name. -/
theorem name_of_role (hfound : Found parser directory found) (hrecord : record∈found.records) :
    (record.role=.tokenEmbedding → record.name="model.embed_tokens.weight") ∧
    (record.role=.lmHead → record.name="lm_head.weight") := by
  obtain ⟨item,-,tensor,-,hrecorded⟩ := hfound.origin record hrecord
  have hclassified := hrecorded.classified
  generalize record.name=name at hclassified ⊢
  generalize record.layerIndex=layer at hclassified
  constructor
  · intro hrole
    rw [hrole] at hclassified
    cases hclassified with
    | embedding => rfl
  · intro hrole
    rw [hrole] at hclassified
    cases hclassified with
    | head => rfl

/-- A redundant head has the name of the head. -/
theorem isRedundant_iff (hfound : Found parser directory found)
    (hsent : SentConfig found.description.config cfg) (hrecord : record∈found.records) :
    isRedundant found.description.config record=true ↔
      found.description.config.tiedEmbeddings=true ∧ record.name="lm_head.weight" := by
  unfold isRedundant
  rw [Bool.and_eq_true,decide_eq_true_iff]
  refine and_congr_right fun _ => ⟨(name_of_role hfound hrecord).2,fun hname => ?_⟩
  exact ((outer_matches hfound hsent hrecord).2.2 hname).1

/-- A record is resident when it is used and no redundant head. -/
theorem resident_wire (hsent : SentConfig config cfg) :
    resident cfg stage (wireRecord record)=
      (used config stage record && !isRedundant config record) := by
  have hrole : (wireRecord record).role=roleNumber record.role := rfl
  have hlayer : (wireRecord record).layerIndex=record.layerIndex := rfl
  unfold resident isSelected used isRedundant
  rw [hrole,hlayer,hsent.tiedEmbeddings]
  cases record.role with
  | tokenEmbedding => simp [roleNumber]
  | transformerLayer => simp [roleNumber]
  | finalNorm => simp [roleNumber]
  | lmHead => simp [roleNumber]
  | architectureState => simp [roleNumber]

/-- What the comparison of a stage will find. -/
theorem inspected_found (hfound : Found parser directory found)
    (hsent : SentConfig found.description.config cfg) (hlayers : cfg.numLayers < 2^31)
    (hend : stage.layerEnd ≤ cfg.numLayers)
    (hredundant : redundant=true ↔ stage.ownsLmHead=true ∧
      ∃ record∈found.records,isRedundant found.description.config record=true) :
    Inspected cfg stage (found.records.map wireRecord) redundant
      (expectedTensors cfg stage (isQwen found.adapter) redundant) := by
  have hnames : (found.records.map wireRecord).map (·.name)=found.records.map (·.name) :=
    List.map_map
  have hexists : redundant=true → stage.ownsLmHead=true ∧
      ∃ record∈found.records,record.name="lm_head.weight" := by
    intro hflag
    obtain ⟨howns,record,hrecord,hthat⟩ := hredundant.mp hflag
    exact ⟨howns,record,hrecord,((isRedundant_iff hfound hsent hrecord).mp hthat).2⟩
  have hmatched : ∀ entry∈expectedTensors cfg stage (isQwen found.adapter) redundant,
      ∃ record∈found.records,record.name=entry.1 ∧
        used found.description.config stage record=true ∧
        matchesSpec (wireRecord record) entry.2=true :=
    fun entry hentry => expected_recorded hfound hsent hlayers hend hexists hentry
  have horigin : ∀ entry∈expectedTensors cfg stage (isQwen found.adapter) redundant,
      Expected cfg stage entry := by
    intro entry hentry
    rcases mem_of_mem_emplaceAll hentry with hnil|hmem
    · exact absurd hnil List.not_mem_nil
    rcases List.mem_append.mp hmem with hmem|hmem
    · exact expected_of_mem hmem
    split at hmem
    · rename_i hflag
      rw [List.mem_singleton.mp hmem]
      exact .head _ (hexists hflag).1
    · exact absurd hmem List.not_mem_nil
  refine ⟨?_,nodup_emplaceAll (by rw [List.map_nil]; exact List.nodup_nil),horigin,
    fun howns => ?_,fun entry hentry => ?_,fun sent hsentRecord hselected => ?_,
    fun htied hkey => ?_,fun hflag => ?_⟩
  · rw [hnames]
    exact hfound.names.imp fun {a b} hab => ne_of_lt hab
  · unfold expectedTensors
    rw [key_emplaceAll,List.map_append,List.mem_append]
    refine .inr (.inl ?_)
    unfold expectedEntries
    rw [if_pos howns]
    exact .head _
  · obtain ⟨record,hrecord,hname,-,hmatches⟩ := hmatched entry hentry
    exact ⟨wireRecord record,List.mem_map_of_mem hrecord,hname,hmatches⟩
  · obtain ⟨record,hrecord,rfl⟩ := List.mem_map.mp hsentRecord
    have hresident : resident cfg stage (wireRecord record)=true := by
      unfold resident
      rw [hselected]
      rfl
    rw [resident_wire hsent,Bool.and_eq_true] at hresident
    exact used_expected hfound hsent hrecord
      (fun howns hthat => hredundant.mpr ⟨howns,record,hrecord,hthat⟩) hresident.1
  · obtain ⟨entry,hentry,hname⟩ := List.mem_map.mp hkey
    obtain ⟨record,hrecord,hsame,-,-⟩ := hmatched entry hentry
    refine hredundant.mpr ⟨(head_of_name (horigin entry hentry) hname).2,record,hrecord,?_⟩
    exact (isRedundant_iff hfound hsent hrecord).mpr
      ⟨hsent.tiedEmbeddings ▸ htied,hsame.trans hname⟩
  · obtain ⟨-,record,hrecord,hthat⟩ := hredundant.mp hflag
    rw [hsent.tiedEmbeddings]
    exact ((isRedundant_iff hfound hsent hrecord).mp hthat).1

/-- The bytes of a stage are those of the records it keeps. -/
theorem expectedBytes_found (hfound : Found parser directory found)
    (hsent : SentConfig found.description.config cfg) (hlayers : cfg.numLayers < 2^31)
    (hend : stage.layerEnd ≤ cfg.numLayers)
    (hredundant : redundant=true ↔ stage.ownsLmHead=true ∧
      ∃ record∈found.records,isRedundant found.description.config record=true) :
    expectedBytes redundant (expectedTensors cfg stage (isQwen found.adapter) redundant)=
      ((found.records.filter fun record => used found.description.config stage record &&
        !isRedundant found.description.config record).map fun record =>
          record.shape.prod*4).sum := by
  have hinspected := inspected_found hfound hsent hlayers hend hredundant
  have hembedding : ∀ record∈found.records.map wireRecord,
      record.role=roleNumber .tokenEmbedding → record.name="model.embed_tokens.weight" := by
    intro sent hsentRecord hrole
    obtain ⟨record,hrecord,rfl⟩ := List.mem_map.mp hsentRecord
    refine (name_of_role hfound hrecord).1 ?_
    change roleNumber record.role=roleNumber .tokenEmbedding at hrole
    generalize record.role=role at hrole ⊢
    cases role with
    | tokenEmbedding => rfl
    | transformerLayer => cases hrole
    | finalNorm => cases hrole
    | lmHead => cases hrole
    | architectureState => cases hrole
  rw [hinspected.bytes_eq (by omega) hembedding]
  unfold float32Bytes
  rw [List.filter_map,List.map_map]
  have hfilter : found.records.filter (resident cfg stage∘wireRecord)=
      found.records.filter fun record => used found.description.config stage record &&
        !isRedundant found.description.config record :=
    List.filter_congr fun record _ => resident_wire hsent
  rw [hfilter]
  rfl

/-- Every layer has its records. -/
theorem layers_counted (hfound : Found parser directory found) :
    found.description.config.numLayers*found.adapter.suffixes.length ≤ found.records.length := by
  have hnodup : ((List.range found.description.config.numLayers).flatMap fun layer =>
      found.adapter.suffixes.map fun suffix => layerPrefix layer++suffix).Nodup := by
    rw [List.nodup_flatMap]
    constructor
    · intro layer _
      refine List.Nodup.map ?_ (by cases found.adapter with
        | llama => decide
        | qwen3 => decide)
      intro suffix other heq
      have hlist := congrArg String.toList heq
      rw [String.toList_append,String.toList_append] at hlist
      exact String.ext_iff.mpr (List.append_cancel_left hlist)
    · refine List.nodup_range.imp fun {layer other} hne name hname hother => hne ?_
      obtain ⟨suffix,-,rfl⟩ := List.mem_map.mp hname
      obtain ⟨suffix',-,heq⟩ := List.mem_map.mp hother
      have hlayer := congrArg layerOf heq
      rw [layerOf_layer,layerOf_layer] at hlayer
      exact (Option.some.inj hlayer).symm
  have hsub : ((List.range found.description.config.numLayers).flatMap fun layer =>
      found.adapter.suffixes.map fun suffix => layerPrefix layer++suffix) ⊆
        found.records.map (·.name) := by
    intro name hname
    obtain ⟨record,hrecord,rfl⟩ := hfound.required name
      (List.mem_append_left _ (List.mem_append_right _ hname))
    exact List.mem_map_of_mem hrecord
  have hlength := (hnodup.subperm hsub).length_le
  rw [List.length_map,List.length_flatMap] at hlength
  simp only [List.length_map,List.map_const',List.length_range,List.sum_replicate_nat]
    at hlength
  exact hlength

end Expectations

section Loading

variable {parser : JsonParser} {sorting : RangeSort} {directory : ModelDirectory}
variable {root : String → Except Failure WeightChunks.DiskFile}
variable {contained : String → Except Failure Bool} {found : Findings}
variable {cfg : WireMessages.ModelConfig} {stage : StageAssignment}
variable {records : List (String×WireMessages.TensorRecord)}

/-- Storage that can be converted is known from its record. -/
theorem dtypeOf_stored {dtype : WireMessages.DataType} :
    (dtypeOf dtype=.f32 → dtype=.f32) ∧ (dtypeOf dtype=.f16 → dtype=.f16) ∧
      (dtypeOf dtype=.bf16 → dtype=.bf16) := by
  cases dtype <;> decide

/-- Expected shapes hold no zero. -/
theorem expected_positive {config : ManifestModels.ModelConfig} {qwen redundant : Bool}
    (hsent : SentConfig config cfg) {entry : String×ExpectedTensor}
    (hentry : entry∈expectedTensors cfg stage qwen redundant) : ∀ d∈entry.2.shape,0 < d := by
  have hhidden : 0 < cfg.hiddenSize := hsent.hiddenSize ▸ config.hiddenSize.pos
  have hvocabulary : 0 < cfg.vocabularySize := hsent.vocabularySize ▸ config.vocabularySize.pos
  have hintermediate : 0 < cfg.intermediateSize :=
    hsent.intermediateSize ▸ config.intermediateSize.pos
  have hdim : 0 < cfg.headDim := hsent.headDim ▸ config.headDim.pos
  have hheads : 0 < cfg.numAttentionHeads*cfg.headDim :=
    Nat.mul_pos (hsent.numAttentionHeads ▸ config.numAttentionHeads.pos) hdim
  have hkv : 0 < cfg.numKvHeads*cfg.headDim :=
    Nat.mul_pos (hsent.numKvHeads ▸ config.numKvHeads.pos) hdim
  have hlayer : ∀ pair∈layerShapes cfg (cfg.numAttentionHeads*cfg.headDim)
      (cfg.numKvHeads*cfg.headDim) qwen,∀ d∈pair.2,0 < d := by
    unfold layerShapes
    generalize cfg.numAttentionHeads*cfg.headDim=attention at hheads
    generalize cfg.numKvHeads*cfg.headDim=kv at hkv
    cases qwen with
    | false => simp [hhidden,hintermediate,hheads,hkv]
    | true => simp [hhidden,hintermediate,hheads,hkv,hdim]
  have hpair : ∀ d∈[cfg.vocabularySize,cfg.hiddenSize],0 < d := by
    simp [hvocabulary,hhidden]
  have hone : ∀ d∈[cfg.hiddenSize],0 < d := by
    simp [hhidden]
  rcases mem_of_mem_emplaceAll hentry with hnil|hmem
  · exact absurd hnil List.not_mem_nil
  rcases List.mem_append.mp hmem with hmem|hmem
  · unfold expectedEntries at hmem
    simp only [List.mem_append,List.mem_flatMap] at hmem
    rcases hmem with ((hmem|hmem)|hmem)|⟨i,-,hmem⟩
    · split at hmem
      · rw [List.mem_singleton.mp hmem]
        exact hpair
      · exact absurd hmem List.not_mem_nil
    · split at hmem
      · rw [List.mem_singleton.mp hmem]
        exact hone
      · exact absurd hmem List.not_mem_nil
    · split at hmem
      · rw [List.mem_singleton.mp hmem]
        exact hpair
      · exact absurd hmem List.not_mem_nil
    · obtain ⟨pair,hin,rfl⟩ := List.mem_map.mp hmem
      exact hlayer pair hin
  · split at hmem
    · rw [List.mem_singleton.mp hmem]
      exact hpair
    · exact absurd hmem List.not_mem_nil

/-- A redundant head matches when its record has the type of the embedding. -/
theorem headMatches_iff (hfound : Found parser directory found)
    (hdeployed : Deployed parser directory root (found.inspected.map (·.name)))
    (hsent : SentConfig found.description.config cfg)
    (hindexed : Indexed (found.records.map wireRecord) records)
    {embedding head : ManifestModels.TensorRecord} (hembedding : embedding∈found.records)
    (hembeddingName : embedding.name="model.embed_tokens.weight") (hhead : head∈found.records)
    (hheadName : head.name="lm_head.weight")
    (hstored : embedding.dtype=.f32 ∨ embedding.dtype=.f16 ∨ embedding.dtype=.bf16) :
    HeadMatches (WeightLoading.environment contained (WeightLoading.openRoot parser sorting root))
      records ↔ embedding.dtype=head.dtype := by
  obtain ⟨-,readEmbedding,e,hopenEmbedding,hreadEmbedding,hdtypeE,hshapeE,-,-,hlengthE⟩ :=
    @reads_record parser sorting directory root contained found hfound hdeployed embedding
      hembedding
  obtain ⟨-,readHead,h,hopenHead,hreadHead,hdtypeH,hshapeH,-,-,hlengthH⟩ :=
    @reads_record parser sorting directory root contained found hfound hdeployed head hhead
  have hlookupE : records.lookup "model.embed_tokens.weight"=some (wireRecord embedding) :=
    (hindexed.found _ _).mpr ⟨List.mem_map_of_mem hembedding,hembeddingName⟩
  have hlookupH : records.lookup "lm_head.weight"=some (wireRecord head) :=
    (hindexed.found _ _).mpr ⟨List.mem_map_of_mem hhead,hheadName⟩
  have hshapes : e.shape=h.shape := by
    have hspecE := (matchesSpec_iff.mp ((outer_matches hfound hsent hembedding).1
      hembeddingName).2).2.2
    have hspecH := (matchesSpec_iff.mp ((outer_matches hfound hsent hhead).2.2 hheadName).2).2.2
    rw [hshapeE,hshapeH]
    exact hspecE.trans hspecH.symm
  rw [hembeddingName] at hreadEmbedding
  rw [hheadName] at hreadHead
  unfold HeadMatches
  constructor
  · rintro ⟨embeddingRecord,headRecord,he,hh,readE,readH,e',h',hoe,hre,hoh,hrh,hdtype,-⟩
    rw [hlookupE] at he
    rw [hlookupH] at hh
    cases he
    cases hh
    rw [show (wireRecord embedding).file=embedding.file from rfl,hopenEmbedding] at hoe
    rw [show (wireRecord head).file=head.file from rfl,hopenHead] at hoh
    cases hoe
    cases hoh
    rw [hreadEmbedding] at hre
    rw [hreadHead] at hrh
    cases hre
    cases hrh
    rw [hdtypeE,hdtypeH,hdtype]
  · intro hdtype
    have hsame : e.dtype=h.dtype := by
      rw [hdtype,hdtypeH] at hstored
      rw [hdtypeE,hdtypeH] at hdtype
      rcases hstored with hs|hs|hs
      · rw [hs] at hdtype
        rw [dtypeOf_stored.1 hs,dtypeOf_stored.1 hdtype]
      · rw [hs] at hdtype
        rw [dtypeOf_stored.2.1 hs,dtypeOf_stored.2.1 hdtype]
      · rw [hs] at hdtype
        rw [dtypeOf_stored.2.2 hs,dtypeOf_stored.2.2 hdtype]
    exact ⟨wireRecord embedding,wireRecord head,hlookupE,hlookupH,readEmbedding,readHead,e,h,
      hopenEmbedding,hreadEmbedding,hopenHead,hreadHead,hsame,hshapes,by
        rw [hlengthE,hlengthH,hshapes,hsame]⟩

/-- The comparison of the tensors of a found model succeeds exactly when what it
reads is stored as the worker demands. -/
theorem inspectTensors_found (hfound : Found parser directory found)
    (hdeployed : Deployed parser directory root (found.inspected.map (·.name)))
    (hsent : SentConfig found.description.config cfg) (hlayers : cfg.numLayers < 2^31)
    (hend : stage.layerEnd ≤ cfg.numLayers) {wire : WireMessages.DeploymentPlan} :
    (∃ source,inspectTensors (WeightLoading.environment contained
        (WeightLoading.openRoot parser sorting root)) wire cfg stage
        (found.records.map wireRecord) (isQwen found.adapter)=.ok source) ↔
      (∀ record∈found.records,used found.description.config stage record=true →
        record.dtype=.f32 ∨ record.dtype=.f16 ∨ record.dtype=.bf16) ∧
      (∀ record∈found.records,used found.description.config stage record=true →
        contained record.file=.ok true) ∧
      (stage.ownsLmHead=true → ∀ head∈found.records,
        isRedundant found.description.config head=true → ∀ embedding∈found.records,
          embedding.role=.tokenEmbedding → embedding.dtype=head.dtype) ∧
      ((found.records.filter fun record => used found.description.config stage record &&
        !isRedundant found.description.config record).map fun record =>
          record.shape.prod*4).sum < 2^64 := by
  have hnames : ((found.records.map wireRecord).map (·.name)).Nodup := by
    rw [List.map_map]
    exact hfound.names.imp fun {a b} hab => ne_of_lt hab
  obtain ⟨records,hrecords⟩ := @exists_indexed (found.records.map wireRecord) []
    (fun _ _ => List.not_mem_nil) hnames
  have hindexed := indexed_of_ok hrecords
  have hpresent : contains records "lm_head.weight"=true ↔
      ∃ record∈found.records,record.name="lm_head.weight" := by
    rw [contains_iff]
    constructor
    · intro hkey
      obtain ⟨entry,hentry,hname⟩ := List.mem_map.mp hkey
      obtain ⟨hmem,hsame⟩ := (hindexed.entries entry).mp hentry
      obtain ⟨record,hrecord,heq⟩ := List.mem_map.mp hmem
      refine ⟨record,hrecord,?_⟩
      rw [←hname,←hsame,←heq]
      rfl
    · rintro ⟨record,hrecord,hname⟩
      rw [←hname]
      exact List.mem_map_of_mem ((hindexed.entries (record.name,wireRecord record)).mpr
        ⟨List.mem_map_of_mem hrecord,rfl⟩)
  have hredundant : redundantHead cfg stage records=true ↔ stage.ownsLmHead=true ∧
      ∃ record∈found.records,isRedundant found.description.config record=true := by
    unfold redundantHead
    rw [Bool.and_eq_true,Bool.and_eq_true,hpresent,hsent.tiedEmbeddings]
    constructor
    · rintro ⟨⟨howns,htied⟩,record,hrecord,hname⟩
      exact ⟨howns,record,hrecord,(isRedundant_iff hfound hsent hrecord).mpr ⟨htied,hname⟩⟩
    · rintro ⟨howns,record,hrecord,hthat⟩
      obtain ⟨htied,hname⟩ := (isRedundant_iff hfound hsent hrecord).mp hthat
      exact ⟨⟨howns,htied⟩,record,hrecord,hname⟩
  have hinspected := inspected_found hfound hsent hlayers hend hredundant
  have hproduct : ∀ {a b : ℕ},a < 2^32 → b < 2^32 → a*b < 2^64 := by
    intro a b ha hb
    calc a*b < 2^32*2^32 := Nat.mul_lt_mul'' ha hb
      _ = 2^64 := by decide
  obtain ⟨hheads,hkv,hdim⟩ := hsent.heads
  have hunique : ∀ record∈found.records,∀ other∈found.records,record.name=other.name →
      record=other := by
    intro record hrecord other hother hname
    have hnodup : (found.records.map (·.name)).Nodup :=
      hfound.names.imp fun {a b} hab => ne_of_lt hab
    exact List.inj_on_of_nodup_map hnodup hrecord hother hname
  have hrecorded : ∀ entry∈expectedTensors cfg stage (isQwen found.adapter)
      (redundantHead cfg stage records),∃ record∈found.records,record.name=entry.1 ∧
        used found.description.config stage record=true ∧
        matchesSpec (wireRecord record) entry.2=true := by
    intro entry hentry
    refine expected_recorded hfound hsent hlayers hend (fun hflag => ?_) hentry
    obtain ⟨howns,head,hmem,hthat⟩ := hredundant.mp hflag
    exact ⟨howns,head,hmem,((isRedundant_iff hfound hsent hmem).mp hthat).2⟩
  have husedEmbedding : ∀ embedding : ManifestModels.TensorRecord,
      embedding.role=.tokenEmbedding → stage.ownsLmHead=true →
      found.description.config.tiedEmbeddings=true →
      used found.description.config stage embedding=true := by
    intro embedding hrole howns htied
    unfold used
    rw [hrole,howns,htied]
    exact Bool.or_true _
  rw [inspectTensors_iff (hproduct hheads hdim) (hproduct hkv hdim) hrecords rfl
    (fun entry hentry => expected_positive hsent hentry),
    expectedBytes_found hfound hsent hlayers hend hredundant]
  constructor
  · rintro ⟨-,hchecked,hsize,hhead⟩
    have hstored : ∀ record∈found.records,used found.description.config stage record=true →
        contained record.file=.ok true ∧
          (record.dtype=.f32 ∨ record.dtype=.f16 ∨ record.dtype=.bf16) := by
      intro record hrecord hused
      obtain ⟨entry,hentry,hname⟩ := List.mem_map.mp (used_expected hfound hsent hrecord
        (fun howns hthat => hredundant.mpr ⟨howns,record,hrecord,hthat⟩) hused)
      obtain ⟨other,hother,hsame,-,hmatches⟩ := hrecorded entry hentry
      have heq := hunique other hother record hrecord (hsame.trans hname)
      rw [heq] at hmatches
      exact (checkTensor_recorded hfound hdeployed hindexed hrecord hname.symm hmatches).mp
        (hchecked entry hentry)
    refine ⟨fun record hrecord hused => (hstored record hrecord hused).2,
      fun record hrecord hused => (hstored record hrecord hused).1,
      fun howns head hmem hthat embedding hembedding hrole => ?_,hsize⟩
    have hmatches := hhead (hredundant.mpr ⟨howns,head,hmem,hthat⟩)
    obtain ⟨htied,hname⟩ := (isRedundant_iff hfound hsent hmem).mp hthat
    exact (headMatches_iff hfound hdeployed hsent hindexed hembedding
      ((name_of_role hfound hembedding).1 hrole) hmem hname (hstored embedding hembedding
        (husedEmbedding embedding hrole howns htied)).2).mp hmatches
  · rintro ⟨hstored,hinside,hhead,hsize⟩
    refine ⟨hinspected.selected,fun entry hentry => ?_,hsize,fun hflag => ?_⟩
    · obtain ⟨record,hrecord,hname,hused,hmatches⟩ := hrecorded entry hentry
      exact (checkTensor_recorded hfound hdeployed hindexed hrecord hname hmatches).mpr
        ⟨hinside record hrecord hused,hstored record hrecord hused⟩
    · obtain ⟨howns,head,hmem,hthat⟩ := hredundant.mp hflag
      obtain ⟨htied,hheadName⟩ := (isRedundant_iff hfound hsent hmem).mp hthat
      obtain ⟨embedding,hembedding,hname⟩ := hfound.required "model.embed_tokens.weight"
        (List.mem_append_left _ (List.mem_append_left _ (.head _)))
      have hrole := ((outer_matches hfound hsent hembedding).1 hname).1
      exact (headMatches_iff hfound hdeployed hsent hindexed hembedding hname hmem hheadName
        (hstored embedding hembedding (husedEmbedding embedding hrole howns htied))).mpr
          (hhead howns head hmem hthat embedding hembedding hrole)

/-- The check of the layer range passes. -/
theorem checkRange_found (hfound : Found parser directory found)
    (hsent : SentConfig found.description.config cfg) (hcount : found.records.length < 2^32)
    (hrange : stage.layerStart < stage.layerEnd ∧ stage.layerEnd ≤ cfg.numLayers) :
    cfg.numLayers < 2^31 ∧
      checkRange cfg stage (found.records.map wireRecord) (isQwen found.adapter)=.ok () := by
  have hcounted := layers_counted hfound
  have hsuffixes : found.adapter.suffixes.length=if isQwen found.adapter then 11 else 9 := by
    cases found.adapter with
    | llama => rfl
    | qwen3 => rfl
  rw [hsuffixes,←hsent.numLayers] at hcounted
  have hpositive : 9 ≤ if isQwen found.adapter then 11 else 9 := by
    split
    · omega
    · omega
  generalize hper : (if isQwen found.adapter then 11 else 9)=perLayer at hcounted hpositive
  constructor
  · have hnine := Nat.mul_le_mul_left cfg.numLayers hpositive
    omega
  · unfold checkRange size32
    rw [rejectIf_ok,List.length_map,Nat.mod_eq_of_lt hcount,not_or,not_or,hper]
    refine ⟨by omega,by omega,?_⟩
    rw [Nat.not_lt,Nat.le_div_iff_mul_le (by omega)]
    exact Nat.le_trans (Nat.mul_le_mul_right _ (by omega)) hcounted

variable {digests : Digests} {modelId revision : Option String} {mode : HashMode}
variable {manifest : ManifestModels.ModelManifest} {sent : WireMessages.ModelManifest}
variable {plan : DeploymentPlan} {wire : WireMessages.DeploymentPlan} {endpoints : String → String}

/-- A stage of a prepared model passes the inspection of its worker exactly when
the worker's further demands are met. -/
theorem prepared_stage_loads_iff
    (hprepared : prepareModel parser digests directory modelId revision mode=.ok manifest)
    (hdeployed : Deployed parser directory root (manifest.tensorFiles.map (·.name)))
    (hsent : modelManifestToProto manifest=.ok sent) (hcount : manifest.tensors.length < 2^32)
    (hvalid : validateDeploymentPlan plan=.ok ()) (hschema : KnownSchema plan)
    (hdtype : plan.executionDtype=.f32 ∨ plan.executionDtype=.f16)
    (hover : plan.stages.getLast?.map (·.layerEnd)=some manifest.config.numLayers.val)
    (hwire : PlanDigest.deploymentPlanToProto plan=.ok wire) (hstage : stage∈plan.stages) :
    (∃ source,inspectDenseStage (WeightLoading.environment contained
        (WeightLoading.openRoot parser sorting root))
        (PlanAcceptance.loadStageRequest plan wire sent endpoints stage.stageIndex)=.ok source) ↔
      Demands contained manifest stage := by
  unfold prepareModel at hprepared
  cases hfindings : findTensors parser directory with
  | error e =>
    rw [hfindings] at hprepared
    cases hprepared
  | ok found =>
    rw [hfindings] at hprepared
    have hmanifest : manifestOf digests directory modelId revision mode found=manifest :=
      Except.ok.inj hprepared
    have hfound := findTensors_ok hfindings
    have hconfig : manifest.config=found.description.config := hmanifest ▸ rfl
    have htensors : manifest.tensors=found.records := hmanifest ▸ rfl
    have harchitecture : manifest.architecture=found.description.architecture := hmanifest ▸ rfl
    have hfiles : manifest.tensorFiles.map (·.name)=found.inspected.map (·.name) := by
      rw [←hmanifest]
      exact List.map_map
    rw [hfiles] at hdeployed
    rw [hconfig] at hover
    rw [htensors] at hcount
    obtain ⟨cfg,hmessage⟩ := modelManifestToProto_ok hsent
    have hcfg := hmessage.config.2
    rw [hconfig] at hcfg
    have hof := stageOf_valid hvalid hover hstage
    have hend : stage.layerEnd ≤ cfg.numLayers := hcfg.numLayers ▸ hof.range.2
    obtain ⟨hlayers,hrange⟩ := checkRange_found hfound hcfg hcount ⟨hof.range.1,hend⟩
    have hsupported := supported_iff hfound.described hcfg
    have hcompared := @inspectTensors_found parser sorting directory root contained found cfg stage
      hfound hdeployed hcfg hlayers hend wire
    have hindex : (PlanAcceptance.loadStageRequest plan wire sent endpoints
        stage.stageIndex).stageIndex=stage.stageIndex := rfl
    have hplan := checkPlan_valid hvalid hwire hschema hdtype hof hindex
    have howner := checkOwnership_valid hwire hof hindex
    have hassignment : wire.stages.getD stage.stageIndex default=stage := by
      obtain ⟨version,-,rfl⟩ := PlanDigest.deploymentPlanToProto_ok hwire
      rw [List.getD_eq_getElem?_getD]
      change plan.stages[stage.stageIndex]?.getD default=stage
      rw [hof.place]
      rfl
    have hqwen := checkArchitecture_described hfound.described
    unfold inspectDenseStage
    simp only [call_bind]
    change (∃ source,∃ u,checkPlan _ wire=.ok u ∧ ∃ qwen,
      checkArchitecture (sent.architecture.getD default)=.ok qwen ∧ ∃ v,
      rejectIf (¬Supported (sent.config.getD default)) _=.ok v ∧ ∃ w,
      checkRange (sent.config.getD default) (wire.stages.getD stage.stageIndex default)
        sent.tensors qwen=.ok w ∧ ∃ x,
      checkOwnership _ wire (wire.stages.getD stage.stageIndex default)=.ok x ∧
      inspectTensors _ wire (sent.config.getD default)
        (wire.stages.getD stage.stageIndex default) sent.tensors qwen=.ok source) ↔ _
    rw [hassignment,hmessage.config.1,hmessage.architecture,hmessage.tensors,harchitecture,htensors]
    simp only [Option.getD_some,rejectIf_ok,not_not]
    constructor
    · rintro ⟨source,_,-,qwen,hq,_,hs,_,-,_,-,h⟩
      rw [hqwen] at hq
      cases hq
      obtain ⟨heven,hepsilon,htheta⟩ := hsupported.mp hs
      obtain ⟨hstorage,hinside,hhead,hsize⟩ := hcompared.mp ⟨source,h⟩
      refine ⟨hconfig ▸ heven,hconfig ▸ hepsilon,hconfig ▸ htheta,?_,?_,?_,?_⟩
      · rw [htensors,hconfig]
        exact hstorage
      · rw [htensors,hconfig]
        exact hinside
      · rw [htensors,hconfig]
        exact hhead
      · rw [htensors,hconfig]
        exact hsize
    · intro hdemands
      obtain ⟨heven,hepsilon,htheta,hstorage,hinside,hhead,hsize⟩ := hdemands
      rw [hconfig] at heven hepsilon htheta
      rw [htensors,hconfig] at hstorage hinside hhead hsize
      obtain ⟨source,h⟩ := hcompared.mpr ⟨hstorage,hinside,hhead,hsize⟩
      exact ⟨source,(),hplan,isQwen found.adapter,hqwen,(),hsupported.mpr ⟨heven,hepsilon,htheta⟩,
        (),hrange,(),howner,h⟩

end Loading

section Samples

/-- The tensors of a model with one layer and a head next to its tied embedding. -/
def tinyShapes : List (String×List ℕ) :=
  [("lm_head.weight",[1,2]),("model.embed_tokens.weight",[1,2]),("model.norm.weight",[2]),
    ("model.layers.0.input_layernorm.weight",[2]),
    ("model.layers.0.post_attention_layernorm.weight",[2]),
    ("model.layers.0.self_attn.q_proj.weight",[2,2]),
    ("model.layers.0.self_attn.k_proj.weight",[2,2]),
    ("model.layers.0.self_attn.v_proj.weight",[2,2]),
    ("model.layers.0.self_attn.o_proj.weight",[2,2]),
    ("model.layers.0.mlp.gate_proj.weight",[1,2]),("model.layers.0.mlp.up_proj.weight",[1,2]),
    ("model.layers.0.mlp.down_proj.weight",[2,1])]

/-- Their entries, one after the other from an offset. -/
def entriesFrom : ℕ → List (String×List ℕ) → List (String×Json)
  | _,[] => []
  | start,(name,shape)::rest =>
    (name,floatEntry shape start (start+shape.prod*4))::entriesFrom (start+shape.prod*4) rest

/-- A parser that knows one header, of one byte. -/
def tinyParser : JsonParser where
  parse bytes := if bytes=[0x7b] then some (.object (entriesFrom 0 tinyShapes)) else none
  distinct bytes members h := by
    split at h
    · cases h
      decide +kernel
    · cases h

/-- A file with this header and its data. -/
def tinyBytes : List UInt8 := [1,0,0,0,0,0,0,0]++[0x7b]++List.replicate 128 0

/-- The directory of the model. -/
def tinyDirectory : ModelDirectory where
  name := "tiny"
  config := some (.dict [("model_type",.str "llama"),("hidden_size",.int 2),
    ("intermediate_size",.int 1),("num_hidden_layers",.int 1),("num_attention_heads",.int 1),
    ("num_key_value_heads",.int 1),("vocab_size",.int 1),("max_position_embeddings",.int 8),
    ("tie_word_embeddings",.bool true)])
  index := none
  files path := if path="model.safetensors" then some tinyBytes else none
  entries := ["config.json","model.safetensors"]
  plain := by decide
  unnamed path h := by
    rw [if_neg]
    rintro rfl
    rcases h with h|h
    · revert h
      decide +kernel
    · revert h
      decide +kernel

/-- Digests that are all alike. -/
def tinyDigests : Digests := ⟨fun _ => "file",fun _ => "metadata",fun _ _ _ _ _ _ _ => "manifest"⟩

/-- What is checked of the manifest of the model. -/
def tinyManifestChecks (manifest : ManifestModels.ModelManifest) : Bool :=
  decide (manifest.tensorFiles.map (·.name)=["model.safetensors"]) &&
  decide (manifest.tensors.length=12) && decide (manifest.config.numLayers.val=1) &&
  (modelManifestToProto manifest).toOption.isSome &&
  manifest.tensors.any (isRedundant manifest.config) &&
  decide (manifest.config.headDim.val=2) && floatFinite manifest.config.rmsNormEps.val &&
  floatPositive manifest.config.rmsNormEps.val && floatFinite manifest.config.ropeTheta.val &&
  manifest.tensors.all (fun record => decide (record.dtype=.f32)) &&
  decide ((manifest.tensors.map fun record => record.shape.prod*4).sum < 2^64)

/-- The model is prepared. -/
theorem tiny_prepared : ((prepareModel tinyParser tinyDigests tinyDirectory none none
    .metadata).toOption.any tinyManifestChecks)=true := by
  decide +kernel

/-- Entries in a row describe nonempty tensors of few elements. -/
theorem entriesFrom_describes {shapes : List (String×List ℕ)} {start : ℕ}
    (hshapes : ∀ shape∈shapes,0 < shape.2.prod ∧ shape.2.prod ≤ 4 ∧ ∀ d∈shape.2,0 < d ∧ d ≤ 4)
    (hstart : start+16*shapes.length < 2^32) :
    ∀ member∈entriesFrom start shapes,NumbersInRange member.2 ∧ Unsigned member.2 ∧
      ∀ tensor,Describes member.2 tensor → 0 < tensor.byteLength ∧ Guarded tensor := by
  induction shapes generalizing start with
  | nil => exact fun member hmember => absurd hmember List.not_mem_nil
  | cons first shapes ih =>
    obtain ⟨name,shape⟩ := first
    obtain ⟨hpositive,hsmall,hdims⟩ := hshapes (name,shape) (.head _)
    rw [List.length_cons] at hstart
    dsimp only at hpositive hsmall hdims
    intro member hmember
    rcases List.mem_cons.mp hmember with rfl|hmember
    · refine ⟨SafetensorsAcceptance.floatEntry_inRange (fun d hd => ?_) (by omega) (by omega),
        SafetensorsAcceptance.floatEntry_unsigned _ _ _,fun tensor htensor => ?_⟩
      · have hd' := (hdims d hd).2
        omega
      · rw [←SafetensorsAcceptance.describes_unique
          (SafetensorsAcceptance.floatEntry_describes rfl) htensor]
        refine ⟨by dsimp only; omega,fun k => ?_⟩
        have hsplit := List.prod_take_mul_prod_drop shape k
        have hdrop : 0 < (shape.drop k).prod :=
          List.prod_pos fun d hd => (hdims d (List.mem_of_mem_drop hd)).1
        have htake : (shape.take k).prod ≤ shape.prod := by
          rw [←hsplit]
          exact Nat.le_mul_of_pos_right _ hdrop
        have hbytes : dataTypeBytes .f32=4 := rfl
        dsimp only
        rw [hbytes]
        omega
    · exact ih (fun other hother => hshapes other (.tail _ hother)) (by omega) member hmember

/-- Both readers judge the file of the model alike. -/
theorem tiny_readable : Readable tinyParser tinyBytes := by
  intro members hparse
  have hmembers : entriesFrom 0 tinyShapes=members := by
    have hheader : (tinyBytes.drop 8).take (readLittleEndian (tinyBytes.take 8))=[0x7b] := by
      decide
    rw [hheader] at hparse
    cases hparse
    rfl
  have hall := @entriesFrom_describes tinyShapes 0 (by decide +kernel) (by decide)
  rw [hmembers] at hall
  have hentry : ∀ e∈(tensorMembers members).map Prod.snd,∀ tensor,Describes e tensor →
      0 < tensor.byteLength ∧ Guarded tensor := by
    intro e he tensor htensor
    obtain ⟨member,hmember,rfl⟩ := List.mem_map.mp he
    exact (hall member (List.mem_filter.mp hmember).1).2.2 tensor htensor
  refine ⟨fun member hmember => (hall member hmember).1,fun e he e' he' a b ha hb hties => ?_,
    fun e he tensor htensor => (hentry e he tensor htensor).2,fun e he => ?_⟩
  · have hnonempty := (hentry e' he' b hb).1
    omega
  · obtain ⟨member,hmember,rfl⟩ := List.mem_map.mp he
    exact (hall member (List.mem_filter.mp hmember).1).2.1

/-- The size of the file is a signed word. -/
theorem tinyBytes_length : tinyBytes.length < 2^63 := by
  unfold tinyBytes
  rw [List.length_append,List.length_append,List.length_replicate]
  decide

/-- The root of a worker with the file. -/
def tinyRoot (name : String) : Except Failure WeightChunks.DiskFile :=
  if name="model.safetensors" then .ok ⟨tinyBytes,tinyBytes_length⟩ else .error (.other name)

/-- A sort that keeps the order of ties. -/
def stableSort : RangeSort where
  sort := SafetensorsAcceptance.byStart
  perm _ := SafetensorsAcceptance.byStart_perm
  sorted _ := SafetensorsAcceptance.byStart_sorted

/-- The model with its redundant head is loaded. -/
theorem tiny_stage_loads :
    ∃ manifest sent source,
      prepareModel tinyParser tinyDigests tinyDirectory none none .metadata=.ok manifest ∧
      modelManifestToProto manifest=.ok sent ∧
      manifest.tensors.any (isRedundant manifest.config)=true ∧
      inspectDenseStage (WeightLoading.environment (fun _ => .ok true)
        (WeightLoading.openRoot tinyParser stableSort tinyRoot))
        (PlanAcceptance.loadStageRequest WireMapping.mixedPlan
          (PlanDigest.wireOf ⟨1,2⟩ WireMapping.mixedPlan) sent id 0)=.ok source := by
  have hchecks := tiny_prepared
  cases hprepared : prepareModel tinyParser tinyDigests tinyDirectory none none .metadata with
  | error e =>
    rw [hprepared] at hchecks
    cases hchecks
  | ok manifest =>
    rw [hprepared] at hchecks
    change tinyManifestChecks manifest=true at hchecks
    unfold tinyManifestChecks at hchecks
    simp only [Bool.and_eq_true,decide_eq_true_iff,List.all_eq_true] at hchecks
    obtain ⟨⟨⟨⟨⟨⟨⟨⟨⟨⟨hfiles,hlength⟩,hlayers⟩,hsent⟩,hredundant⟩,hdim⟩,hepsilon⟩,hepsilon'⟩,htheta⟩,
      hdtypes⟩,hsize⟩ := hchecks
    cases hmessage : modelManifestToProto manifest with
    | error e =>
      rw [hmessage] at hsent
      cases hsent
    | ok sent =>
      have hdeployed : Deployed tinyParser tinyDirectory tinyRoot
          (manifest.tensorFiles.map (·.name)) := by
        intro name hname bytes hbytes
        rw [hfiles,List.mem_singleton] at hname
        subst hname
        cases hbytes
        exact ⟨tiny_readable,_,rfl,rfl⟩
      have hdemands : Demands (fun _ => .ok true) manifest
          ⟨0,"worker",0,1,true,true,true,true⟩ := by
        refine ⟨by rw [hdim],⟨hepsilon,hepsilon'⟩,htheta,fun record hrecord _ => ?_,
          fun record hrecord _ => rfl,fun _ head hhead _ embedding hembedding _ => ?_,?_⟩
        · exact .inl (hdtypes record hrecord)
        · rw [hdtypes head hhead,hdtypes embedding hembedding]
        · refine Nat.lt_of_le_of_lt ?_ hsize
          exact (List.filter_sublist.map _).sum_le_sum fun _ _ => Nat.zero_le _
      have hloads := (@prepared_stage_loads_iff tinyParser stableSort tinyDirectory tinyRoot
        (fun _ => .ok true) ⟨0,"worker",0,1,true,true,true,true⟩ tinyDigests none none .metadata
        manifest sent WireMapping.mixedPlan (PlanDigest.wireOf ⟨1,2⟩ WireMapping.mixedPlan) id
        hprepared hdeployed hmessage (by rw [hlength]; decide) rfl (.inr (.inr rfl)) (.inl rfl)
        (by rw [hlayers]; rfl) rfl (.head _)).mpr hdemands
      obtain ⟨source,hsource⟩ := hloads
      exact ⟨manifest,sent,source,rfl,hmessage,hredundant,hsource⟩

end Samples

end Hllm.PreparedLoading
