import Hllm.ModelPreparation
import Hllm.WireMapping

/-!
# What a prepared manifest is

Every tensor of a prepared manifest lies in one of its files as the record
says, has the role, the layer and the shape its name stands for, and no tensor
the model needs is missing. The records are in the order of their names.
-/

namespace Hllm.PreparedManifests

open ManifestModels ModelPreparation Traversals
open DenseLoader (TensorMetadata supportedFeatures)
open MemoryAccounting (call_bind check_iff)
open PlannerModels (DType TensorRole)
open SafetensorsReader (JsonParser byName byName_perm byName_sorted)

section Checks

/-- A requirement that is met. -/
theorem require_ok {condition : Prop} [Decidable condition] {error : PreparationError} {u : Unit} :
    require condition error=.ok u ↔ condition := by
  unfold require
  by_cases h : condition
  · rw [if_pos h]
    exact ⟨fun _ => h,fun _ => rfl⟩
  · rw [if_neg h]
    constructor
    · intro heq
      cases heq
    · intro hyes
      exact absurd hyes h

/-- Nothing is missing. -/
theorem missingFrom_nil {texts others : List String} :
    missingFrom texts others=[] ↔ ∀ text∈texts,text∈others := by
  have hperm : (missingFrom texts others).Perm (texts.filter fun text => text∉others) :=
    List.perm_insertionSort _ _
  constructor
  · intro h text htext
    rw [h] at hperm
    have hnil := hperm.nil_eq
    by_contra hnot
    have hmem : text∈texts.filter fun text => text∉others :=
      List.mem_filter.mpr ⟨htext,decide_eq_true hnot⟩
    rw [←hnil] at hmem
    exact absurd hmem List.not_mem_nil
  · intro h
    have hnil : texts.filter (fun text => text∉others)=[] := by
      rw [List.filter_eq_nil_iff]
      intro text htext hnot
      exact absurd (h text htext) (of_decide_eq_true hnot)
    rw [hnil] at hperm
    exact hperm.eq_nil

/-- Sorting keeps the texts. -/
theorem mem_sortedTexts {text : String} {texts : List String} :
    text∈sortedTexts texts ↔ text∈texts :=
  (List.perm_insertionSort _ texts).mem_iff

end Checks

section Descriptions

variable {adapter : Adapter} {raw : List (String×PyValue)} {description : ModelDescription}

/-- What is known of a described model. -/
structure Described (adapter : Adapter) (description : ModelDescription) : Prop where
  id : description.architecture.architectureId=adapter.architectureId
  revision : description.architecture.architectureRevision=Adapter.architectureRevision
  /-- Workers know its features. -/
  features : ∀ feature∈description.architecture.featureFlags,
    feature∈supportedFeatures ∨ (adapter=.qwen3 ∧ feature="qk_norm")
  normed : adapter=.qwen3 → "qk_norm"∈description.architecture.featureFlags
  activation : description.config.hiddenActivation="silu"
  attentionBias : description.config.attentionBias=false
  mlpBias : description.config.mlpBias=false
  unscaled : description.config.ropeScaling=none
  /-- Only one of the adapters checks this. -/
  even : adapter=.qwen3 → description.config.headDim.val%2=0

/-- A configuration that was built. -/
theorem buildConfig_ok {hiddenSize heads : ℕ+} {headDim : ℤ} {tied : Bool} {config : ModelConfig}
    (h : buildConfig raw hiddenSize heads headDim tied=.ok config) :
    config.hiddenActivation="silu" ∧ config.attentionBias=false ∧ config.mlpBias=false ∧
      config.ropeScaling=none := by
  unfold buildConfig at h
  simp only [call_bind] at h
  obtain ⟨_,-,_,-,_,-,_,-,_,-,_,-,_,-,_,-,h⟩ := h
  split at h
  · split at h
    · cases h
      exact ⟨rfl,rfl,rfl,rfl⟩
    · cases h
  · cases h

/-- What the shared part of the adapters describes. -/
theorem describeDense_ok (h : describeDense adapter raw=.ok description) :
    description.architecture.architectureId=adapter.architectureId ∧
      description.architecture.architectureRevision=Adapter.architectureRevision ∧
      (∀ feature∈description.architecture.featureFlags,feature∈supportedFeatures) ∧
      description.config.hiddenActivation="silu" ∧ description.config.attentionBias=false ∧
      description.config.mlpBias=false ∧ description.config.ropeScaling=none := by
  unfold describeDense at h
  simp only [call_bind] at h
  obtain ⟨_,-,_,-,hiddenSize,-,heads,-,⟨headDim,explicit⟩,-,tied,-,_,-,config,hconfig,h⟩ := h
  cases h
  obtain ⟨hactivation,hattention,hmlp,hscaling⟩ := buildConfig_ok hconfig
  refine ⟨rfl,rfl,fun feature hfeature => ?_,hactivation,hattention,hmlp,hscaling⟩
  have hmem := mem_sortedTexts.mp hfeature
  rcases List.mem_append.mp hmem with hmem|hmem
  · rcases List.mem_cons.mp hmem with rfl|hmem
    · split
      · decide
      · decide
    · rw [List.mem_singleton.mp hmem]
      split
      · decide
      · decide
  · split at hmem
    · rw [List.mem_singleton.mp hmem]
      decide
    · exact absurd hmem List.not_mem_nil

/-- What an adapter describes. -/
theorem describe_ok (h : describe adapter raw=.ok description) : Described adapter description := by
  cases adapter with
  | llama =>
    obtain ⟨hid,hrevision,hfeatures,hactivation,hattention,hmlp,hscaling⟩ := describeDense_ok h
    refine ⟨hid,hrevision,fun feature hfeature => .inl (hfeatures feature hfeature),fun hqwen => ?_,
      hactivation,hattention,hmlp,hscaling,fun hqwen => ?_⟩
    · cases hqwen
    · cases hqwen
  | qwen3 =>
    unfold describe at h
    simp only [call_bind,require_ok] at h
    obtain ⟨_,-,dense,hdense,_,heven,h⟩ := h
    cases h
    obtain ⟨hid,hrevision,hfeatures,hactivation,hattention,hmlp,hscaling⟩ := describeDense_ok hdense
    refine ⟨hid,hrevision,fun feature hfeature => ?_,fun _ => ?_,
      hactivation,hattention,hmlp,hscaling,fun _ => heven⟩
    · rcases List.mem_append.mp (mem_sortedTexts.mp hfeature) with hmem|hmem
      · exact .inl (hfeatures feature hmem)
      · exact .inr ⟨rfl,List.mem_singleton.mp hmem⟩
    · exact mem_sortedTexts.mpr (List.mem_append_right _ (.head _))

end Descriptions

section Names

variable {adapter : Adapter} {config : ModelConfig} {name suffix : String} {layer : ℕ}
variable {ownership : TensorOwnership}

/-- The characters of a layer's tensor. -/
theorem toList_layer (layer : ℕ) (suffix : String) : (layerPrefix layer++suffix).toList=
    "model.layers.".toList++(Nat.toDigits 10 layer++ '.'::suffix.toList) := by
  unfold layerPrefix
  rw [String.toList_append,String.toList_append,String.toList_append,
    Nat.toString_eq_ofList_toDigits,String.toList_ofList]
  simp

/-- A tensor of a layer is recognised. -/
theorem layerOf_layer : layerOf (layerPrefix layer++suffix)=some layer := by
  have hdigits : ∀ c∈Nat.toDigits 10 layer,c.isDigit=true :=
    fun c hc => Nat.isDigit_of_mem_toDigits (by decide) (by decide) hc
  have htake : (Nat.toDigits 10 layer++ '.'::suffix.toList).takeWhile Char.isDigit=
      Nat.toDigits 10 layer := by
    rw [List.takeWhile_append_of_pos hdigits,List.takeWhile_cons_of_neg (by decide),
      List.append_nil]
  unfold layerOf
  rw [toList_layer]
  dsimp only
  rw [if_pos (List.prefix_append _ _),List.drop_left,htake,List.drop_left]
  cases hcons : Nat.toDigits 10 layer with
  | nil => exact absurd hcons Nat.toDigits_ne_nil
  | cons digit digits =>
    have hvalue : Nat.ofDigitChars 10 (digit::digits) 0=layer := by
      rw [←hcons,Nat.ofDigitChars_ten_toDigits]
    exact congrArg some hvalue

/-- A recognised name starts as a layer's tensor does. -/
theorem start_of_layerOf (h : layerOf name=some layer) :
    "model.layers.".toList <+: name.toList := by
  unfold layerOf at h
  dsimp only at h
  split at h
  · assumption
  · cases h

/-- The rest of a name after what it starts with. -/
theorem removeStart_append {start rest : String} : removeStart start (start++rest)=rest := by
  unfold removeStart
  rw [String.toList_append,if_pos (List.prefix_append _ _),List.drop_left,String.ofList_toList]

/-- Suffixes do not look like names of layers. -/
theorem not_suffix_of_start (h : "model.layers.".toList <+: name.toList) :
    name∉adapter.suffixes := by
  intro hmem
  have hall : ∀ suffix∈Adapter.qwen3.suffixes,¬"model.layers.".toList <+: suffix.toList := by
    decide
  have hsub : ∀ suffix∈adapter.suffixes,suffix∈Adapter.qwen3.suffixes := by
    cases adapter with
    | llama => exact fun suffix hsuffix => List.mem_append_left _ hsuffix
    | qwen3 => exact fun suffix hsuffix => hsuffix
  exact hall name (hsub name hmem) h

/-- A layer's tensor has no other name. -/
theorem layer_ne {other : String} (h : layerOf other=none) : layerPrefix layer++suffix≠other := by
  intro heq
  have hsome := @layerOf_layer suffix layer
  rw [heq,h] at hsome
  cases hsome

/-- Tensors of the layers are classified as such. -/
theorem classifyTensor_layer (hlayer : layer < config.numLayers)
    (hsuffix : suffix∈adapter.suffixes) :
    classifyTensor adapter (layerPrefix layer++suffix) config=
      .ok ⟨.transformerLayer,some layer,none⟩ := by
  unfold classifyTensor
  rw [if_neg (layer_ne (by decide)),layerOf_layer]
  dsimp only
  rw [if_neg (Nat.not_le.mpr hlayer),removeStart_append,if_pos hsuffix]

/-- What the names of tensors with an owner are. -/
inductive Classified (adapter : Adapter) (config : ModelConfig) :
    String → TensorRole → Option ℕ → Prop
  | embedding : Classified adapter config "model.embed_tokens.weight" .tokenEmbedding none
  | norm : Classified adapter config "model.norm.weight" .finalNorm none
  | head : Classified adapter config "lm_head.weight" .lmHead none
  | state (name : String) : Classified adapter config name .architectureState none
  | layer (layer : ℕ) (suffix : String) (hlayer : layer < config.numLayers)
    (hsuffix : suffix∈adapter.suffixes) :
    Classified adapter config (layerPrefix layer++suffix) .transformerLayer (some layer)

/-- A classified tensor. -/
theorem classifyTensor_ok (h : classifyTensor adapter name config=.ok ownership) :
    Classified adapter config name ownership.role ownership.layerIndex := by
  unfold classifyTensor at h
  split at h
  · rename_i hname
    cases h
    rw [hname]
    exact .embedding
  · split at h
    · rename_i layer hlayer
      split at h
      · cases h
      · rename_i hbound
        split at h
        · rename_i hsuffix
          cases h
          unfold removeStart at hsuffix
          split at hsuffix
          · rename_i hstart
            obtain ⟨rest,hrest⟩ := hstart
            rw [←hrest,List.drop_left] at hsuffix
            have hname : name=layerPrefix layer++String.ofList rest := by
              rw [String.ext_iff,String.toList_append,String.toList_ofList,hrest]
            rw [hname]
            exact .layer layer _ (Nat.not_le.mp hbound) hsuffix
          · exact absurd hsuffix (not_suffix_of_start (start_of_layerOf hlayer))
        · cases h
    · split at h
      · rename_i hname
        cases h
        rw [hname]
        exact .norm
      · split at h
        · rename_i hname
          cases h
          rw [hname]
          exact .head
        · split at h
          · cases h
            exact .state name
          · cases h

/-- Among the texts, an ending of a longer text is the whole ending or ends it. -/
theorem endsWith_append {start ending : String}
    (h : suffix.toList <:+ ending.toList → suffix=ending) :
    endsWith (start++suffix) ending=endsWith suffix ending := by
  unfold endsWith
  rw [String.toList_append,decide_eq_decide]
  constructor
  · intro hend
    rcases List.suffix_or_suffix_of_suffix hend (List.suffix_append _ _) with hshort|hlong
    · exact hshort
    · rw [h hlong]
  · intro hend
    exact hend.trans (List.suffix_append _ _)

/-- The endings that `validate_tensor_shape` looks for. -/
def endings : List String := ["layernorm.weight","self_attn.q_proj.weight",
  "self_attn.k_proj.weight","self_attn.v_proj.weight","self_attn.o_proj.weight",
  "mlp.gate_proj.weight","mlp.up_proj.weight","mlp.down_proj.weight","self_attn.q_norm.weight",
  "self_attn.k_norm.weight"]

/-- An ending is found in a layer's tensor when its suffix has it. -/
theorem endsWith_layer (hsuffix : suffix∈adapter.suffixes) {ending : String}
    (hending : ending∈endings) :
    endsWith (layerPrefix layer++suffix) ending=endsWith suffix ending := by
  have hall : ∀ suffix∈Adapter.qwen3.suffixes,∀ ending∈endings,
      suffix.toList <:+ ending.toList → suffix=ending := by
    decide +kernel
  have hsub : ∀ suffix∈adapter.suffixes,suffix∈Adapter.qwen3.suffixes := by
    cases adapter with
    | llama => exact fun suffix hsuffix => List.mem_append_left _ hsuffix
    | qwen3 => exact fun suffix hsuffix => hsuffix
  exact endsWith_append (hall suffix (hsub suffix hsuffix) ending hending)

/-- The shape of a layer's tensor depends on its suffix. -/
theorem expectedShape_layer (hsuffix : suffix∈adapter.suffixes) :
    expectedShape adapter (layerPrefix layer++suffix) config=
      expectedShape adapter suffix config := by
  have hdense : denseShape (layerPrefix layer++suffix) config=denseShape suffix config := by
    have hnot : ∀ other∈["model.embed_tokens.weight","lm_head.weight","model.norm.weight"],
        layerPrefix layer++suffix≠other ∧ suffix≠other := by
      have hother : ∀ other∈["model.embed_tokens.weight","lm_head.weight","model.norm.weight"],
          layerOf other=none ∧ other∉Adapter.qwen3.suffixes := by
        decide +kernel
      intro other hmem
      obtain ⟨hnone,hnotin⟩ := hother other hmem
      refine ⟨layer_ne hnone,fun heq => hnotin ?_⟩
      rw [←heq]
      cases adapter with
      | llama => exact List.mem_append_left _ hsuffix
      | qwen3 => exact hsuffix
    have hembed := hnot "model.embed_tokens.weight" (by decide)
    have hhead := hnot "lm_head.weight" (by decide)
    have hnorm := hnot "model.norm.weight" (by decide)
    unfold denseShape
    simp only [hembed.1,hembed.2,hhead.1,hhead.2,hnorm.1,hnorm.2,false_or,or_self,if_false]
    rw [endsWith_layer hsuffix (by decide),endsWith_layer hsuffix (by decide),
      endsWith_layer hsuffix (by decide),endsWith_layer hsuffix (by decide),
      endsWith_layer hsuffix (by decide),endsWith_layer hsuffix (by decide),
      endsWith_layer hsuffix (by decide),endsWith_layer hsuffix (by decide)]
  cases adapter with
  | llama => exact hdense
  | qwen3 =>
    rw [expectedShape,expectedShape,endsWith_layer hsuffix (by decide),
      endsWith_layer hsuffix (by decide),hdense]

end Names

section Paths

variable {path part : String} {directory : ModelDirectory}

/-- A name of a file in the directory itself. -/
structure PlainName (name : String) : Prop where
  whole : '/'∉name.toList
  nonempty : name≠""
  here : name≠"."
  above : name≠".."

/-- The parts of a text hold no separator. -/
theorem not_mem_splitOn {c : Char} {cs part : List Char} (h : part∈cs.splitOn c) : c∉part := by
  induction cs generalizing part with
  | nil =>
    rw [List.splitOn_nil,List.mem_singleton] at h
    rw [h]
    exact List.not_mem_nil
  | cons x cs ih =>
    rw [List.splitOn_cons_eq_if_modifyHead] at h
    split at h
    · rcases List.mem_cons.mp h with rfl|h
      · exact List.not_mem_nil
      · exact ih h
    · rename_i hne
      cases hparts : cs.splitOn c with
      | nil =>
        rw [hparts] at h
        cases h
      | cons first parts =>
        rw [hparts,List.modifyHead_cons] at h
        rcases List.mem_cons.mp h with rfl|h
        · intro hmem
          rcases List.mem_cons.mp hmem with rfl|hmem
          · exact hne (beq_self_eq_true _)
          · exact ih (hparts ▸ .head _) hmem
        · exact ih (hparts ▸ .tail _ h)

/-- The last part of a path is a name. -/
theorem lastPart_some (h : lastPart path=some part) :
    '/'∉part.toList ∧ part≠"" ∧ part≠"." := by
  have hmem := List.mem_of_getLast? h
  obtain ⟨hpart,hreal⟩ := List.mem_filter.mp hmem
  obtain ⟨cs,hcs,rfl⟩ := List.mem_map.mp hpart
  rw [Bool.and_eq_true,decide_eq_true_iff,decide_eq_true_iff] at hreal
  refine ⟨?_,hreal.1,hreal.2⟩
  rw [String.toList_ofList]
  exact not_mem_splitOn hcs

/-- A name is its own last part. -/
theorem lastPart_name (hwhole : '/'∉path.toList) (hnonempty : path≠"") (hhere : path≠".") :
    lastPart path=some path := by
  unfold lastPart
  rw [List.splitOn_eq_singleton hwhole,List.map_singleton,String.ofList_toList,
    List.filter_singleton,decide_eq_true hnonempty,decide_eq_true hhere]
  rfl

/-- A regular file is reached by a path that ends in a name. -/
theorem plainName_of_file {bytes : List UInt8} (h : directory.files path=some bytes) :
    PlainName (pathName directory path) := by
  unfold pathName
  cases hlast : lastPart path with
  | none =>
    rw [directory.unnamed path (.inl hlast)] at h
    cases h
  | some part =>
    obtain ⟨hwhole,hnonempty,hhere⟩ := lastPart_some hlast
    refine ⟨hwhole,hnonempty,hhere,fun habove => ?_⟩
    rw [directory.unnamed path (.inr (hlast.trans (congrArg some habove)))] at h
    cases h

/-- A plain name is the name of itself. -/
theorem PlainName.pathName (h : PlainName path) : pathName directory path=path := by
  unfold ModelPreparation.pathName
  rw [lastPart_name h.whole h.nonempty h.here]
  rfl

end Paths

section Containers

variable {parser : JsonParser} {directory : ModelDirectory} {name path : String}
variable {bytes : List UInt8} {item : InspectedFile}

/-- A container that was inspected. -/
structure Container (parser : JsonParser) (bytes : List UInt8) (item : InspectedFile) : Prop where
  long : 8 ≤ bytes.length
  header : item.headerSizeBytes=8+SafetensorsReader.readLittleEndian (bytes.take 8)
  bounded : item.headerSizeBytes-8≠0 ∧
    item.headerSizeBytes-8 ≤ SafetensorsReader.maximumHeaderBytes
  inside : item.headerSizeBytes ≤ bytes.length
  size : item.sizeBytes=bytes.length
  tensors : ∃ members,
    parser.parse ((bytes.drop 8).take (item.headerSizeBytes-8))=some (.object members) ∧
      SafetensorsAcceptance.inspectHeader members (bytes.length-item.headerSizeBytes)=
        .ok item.tensors

/-- What the inspection of a container establishes. -/
theorem inspectSafetensors_ok (h : inspectSafetensors parser name bytes=.ok item) :
    item.name=name ∧ Container parser bytes item := by
  unfold inspectSafetensors at h
  simp only [call_bind,require_ok] at h
  obtain ⟨_,hlong,_,⟨hzero,hbounded⟩,_,hinside,h⟩ := h
  split at h
  · rename_i members hparse
    split at h
    · rename_i tensors hheader
      cases h
      have hless : ∀ n,8+n-8=n := fun n => by omega
      refine ⟨rfl,hlong,rfl,?_,hinside,rfl,members,?_,?_⟩
      · dsimp only
        rw [hless]
        exact ⟨hzero,hbounded⟩
      · dsimp only
        rw [hless]
        exact hparse
      · dsimp only
        rw [Nat.sub_add_eq] at *
        exact hheader
    · cases h
  · cases h

/-- A path that was inspected. -/
theorem inspectPath_ok (h : inspectPath parser directory path=.ok item) :
    ∃ bytes,directory.files path=some bytes ∧
      inspectSafetensors parser (pathName directory path) bytes=.ok item := by
  unfold inspectPath at h
  split at h
  · rename_i bytes hfile
    exact ⟨bytes,hfile,h⟩
  · cases h

end Containers

section Tensors

variable {inspected : List InspectedFile} {known tensors : List (String×String×TensorMetadata)}

/-- The tensors of a container as `tensors_by_name` holds them. -/
def placed (item : InspectedFile) : List (String×String×TensorMetadata) :=
  item.tensors.map fun tensor => (tensor.1,item.name,tensor.2)

/-- The tensors of one more container are appended. -/
theorem foldlM_addTensor_ok {item : InspectedFile} {new : List (String×TensorMetadata)}
    (hknown : (known.map Prod.fst).Nodup) (h : new.foldlM (addTensor item) known=.ok tensors) :
    tensors=known++new.map (fun tensor => (tensor.1,item.name,tensor.2)) ∧
      (tensors.map Prod.fst).Nodup := by
  induction new generalizing known with
  | nil =>
    cases h
    exact ⟨(List.append_nil _).symm,hknown⟩
  | cons tensor new ih =>
    obtain ⟨next,hnext,h⟩ := foldlM_cons_ok_iff.mp h
    unfold addTensor at hnext
    obtain ⟨hfresh,hnext⟩ := check_iff.mp hnext
    cases hnext
    have hnodup : ((known++[(tensor.1,item.name,tensor.2)]).map Prod.fst).Nodup := by
      rw [List.map_append,List.map_singleton,List.nodup_append]
      refine ⟨hknown,List.nodup_singleton _,fun a ha b hb heq => hfresh ?_⟩
      rw [List.mem_singleton] at hb
      rw [←hb,←heq]
      exact ha
    obtain ⟨heq,hdistinct⟩ := ih hnodup h
    rw [List.append_assoc] at heq
    exact ⟨heq,hdistinct⟩

/-- All containers together. -/
theorem foldlM_addContainer_ok (hknown : (known.map Prod.fst).Nodup)
    (h : inspected.foldlM addContainer known=.ok tensors) :
    tensors=known++inspected.flatMap placed ∧ (tensors.map Prod.fst).Nodup := by
  induction inspected generalizing known with
  | nil =>
    cases h
    exact ⟨(List.append_nil _).symm,hknown⟩
  | cons item inspected ih =>
    obtain ⟨next,hnext,h⟩ := foldlM_cons_ok_iff.mp h
    obtain ⟨hitem,hnodup⟩ := foldlM_addTensor_ok hknown hnext
    obtain ⟨heq,hdistinct⟩ := ih hnodup h
    refine ⟨?_,hdistinct⟩
    rw [heq,hitem,List.append_assoc,List.flatMap_cons]
    rfl

/-- `tensors_by_name` holds the tensors of all containers under distinct names. -/
theorem tensorsByName_ok (h : tensorsByName inspected=.ok tensors) :
    tensors=inspected.flatMap placed ∧ (tensors.map Prod.fst).Nodup := by
  have hnone : (([] : List (String×String×TensorMetadata)).map Prod.fst).Nodup := List.nodup_nil
  exact foldlM_addContainer_ok hnone h

end Tensors

section Findings

variable {parser : JsonParser} {directory : ModelDirectory} {found : Findings}

/-- What a record says of its tensor. -/
structure Recorded (adapter : Adapter) (config : ModelConfig) (file : String)
    (tensor : TensorMetadata) (record : TensorRecord) : Prop where
  file : record.file=file
  dtype : record.dtype=dtypeOf tensor.dtype
  shape : record.shape=tensor.shape
  offset : record.dataOffset=tensor.dataOffset
  length : record.byteLength=tensor.byteLength
  classified : Classified adapter config record.name record.role record.layerIndex
  /-- Its role and layer are those of its name. -/
  owner : ∃ ownership,classifyTensor adapter record.name config=.ok ownership ∧
    record.role=ownership.role ∧ record.layerIndex=ownership.layerIndex
  shaped : ∀ expected∈expectedShape adapter record.name config,record.shape=expected

/-- What the record of a tensor says. -/
theorem recordOf_ok {adapter : Adapter} {config : ModelConfig}
    {entry : String×String×TensorMetadata} {record : TensorRecord}
    (h : recordOf adapter config entry=.ok record) :
    record.name=entry.1 ∧ Recorded adapter config entry.2.1 entry.2.2 record := by
  unfold recordOf validateTensorShape at h
  simp only [call_bind,require_ok] at h
  obtain ⟨ownership,hownership,_,hshape,h⟩ := h
  cases h
  exact ⟨rfl,rfl,rfl,rfl,rfl,rfl,classifyTensor_ok hownership,⟨ownership,hownership,rfl,rfl⟩,hshape⟩

/-- What is known of the findings of a preparation. -/
structure Found (parser : JsonParser) (directory : ModelDirectory) (found : Findings) : Prop where
  described : Described found.adapter found.description
  /-- Every container is a file of the directory under its own name. -/
  containers : ∀ item∈found.inspected,PlainName item.name ∧
    ∃ bytes,directory.files item.name=some bytes ∧ Container parser bytes item
  /-- Records are sorted by name, and names are distinct. -/
  names : (found.records.map (·.name)).Pairwise (· < ·)
  /-- Every record describes a tensor of a container. -/
  origin : ∀ record∈found.records,∃ item∈found.inspected,∃ tensor,
    (record.name,tensor)∈item.tensors ∧
      Recorded found.adapter found.description.config item.name tensor record
  /-- Every tensor of a container has a record. -/
  complete : ∀ item∈found.inspected,∀ tensor∈item.tensors,
    ∃ record∈found.records,record.name=tensor.1 ∧ record.file=item.name
  /-- What the model needs is there. -/
  required : ∀ name∈expectedTensorNames found.adapter found.description.config,
    ∃ record∈found.records,record.name=name

/-- The paths that are discovered are names of files in the directory. -/
theorem paths_plain {paths : List String} {weightMap : List (String×String)} {indexed : Bool}
    {inspected : List InspectedFile} {tensors : List (String×String×TensorMetadata)}
    (hdiscovered : discoverTensorFiles parser directory=.ok (paths,weightMap,indexed))
    (hinspected : paths.mapM (inspectPath parser directory)=.ok inspected)
    (htensors : tensorsByName inspected=.ok tensors)
    (hindex : checkIndex weightMap tensors=.ok ()) :
    ∀ path∈paths,PlainName path := by
  intro path hpath
  unfold discoverTensorFiles at hdiscovered
  split at hdiscovered
  · simp only [call_bind] at hdiscovered
    obtain ⟨index,-,map,-,_,-,h⟩ := hdiscovered
    cases h
    obtain ⟨entry,hentry,rfl⟩ := List.mem_map.mp
      (OrderedDict.mem_of_mem_ofList (mem_sortedTexts.mp hpath))
    unfold checkIndex at hindex
    simp only [call_bind] at hindex
    obtain ⟨_,-,hindex⟩ := hindex
    have hplaced := forM_ok_iff.mp hindex entry hentry
    unfold checkPlaced at hplaced
    split at hplaced
    · rename_i actual metadata hlookup
      rw [require_ok.mp hplaced]
      have hmem := OrderedMap.mem_of_lookup hlookup
      rw [(tensorsByName_ok htensors).1] at hmem
      obtain ⟨item,hitem,hmem⟩ := List.mem_flatMap.mp hmem
      obtain ⟨tensor,-,heq⟩ := List.mem_map.mp hmem
      have hsame : item.name=actual := congrArg (fun entry => entry.2.1) heq
      rw [←hsame]
      obtain ⟨other,-,hother⟩ := exists_of_mem_result hinspected hitem
      obtain ⟨bytes,hbytes,hinspect⟩ := inspectPath_ok hother
      rw [(inspectSafetensors_ok hinspect).1]
      exact plainName_of_file hbytes
    · cases hplaced
  · split at hdiscovered
    · rename_i only hentries
      rw [call_bind] at hdiscovered
      obtain ⟨item,hitem,h⟩ := hdiscovered
      cases h
      rw [List.mem_singleton] at hpath
      subst hpath
      have hmem : path∈sortedTexts (directory.entries.filter fun entry =>
          endsWith entry ".safetensors") := by
        rw [hentries]
        exact .head _
      obtain ⟨hentry,hend⟩ := List.mem_filter.mp (mem_sortedTexts.mp hmem)
      have hwhole := directory.plain path hentry
      have hne : ∀ other,endsWith other ".safetensors"=false → path≠other := by
        rintro other hother rfl
        rw [hother] at hend
        cases hend
      exact ⟨hwhole,hne "" (by decide),hne "." (by decide),hne ".." (by decide)⟩
    · cases hdiscovered

/-- What preparation establishes. -/
theorem findTensors_ok (h : findTensors parser directory=.ok found) :
    Found parser directory found := by
  unfold findTensors at h
  simp only [call_bind] at h
  obtain ⟨raw,-,adapter,-,description,hdescribed,⟨paths,weightMap,indexed⟩,hdiscovered,inspected,
    hinspected,tensors,htensors,_,hindex,records,hrecords,_,hrequired,h⟩ := h
  cases h
  have hplain := paths_plain hdiscovered hinspected htensors hindex
  obtain ⟨hall,hnodup⟩ := tensorsByName_ok htensors
  have hnames : records.map (·.name)=(byName tensors).map Prod.fst :=
    map_of_mapM hrecords fun entry record hrecord => (recordOf_ok hrecord).1
  refine ⟨describe_ok hdescribed,fun item hitem => ?_,?_,fun record hrecord => ?_,
    fun item hitem tensor htensor => ?_,fun name hname => ?_⟩
  · obtain ⟨path,hpath,hopened⟩ := exists_of_mem_result hinspected hitem
    obtain ⟨bytes,hbytes,hinspect⟩ := inspectPath_ok hopened
    rw [(hplain path hpath).pathName] at hinspect
    obtain ⟨hname,hcontainer⟩ := inspectSafetensors_ok hinspect
    rw [hname]
    exact ⟨hplain path hpath,bytes,hbytes,hcontainer⟩
  · rw [hnames]
    exact byName_sorted hnodup
  · obtain ⟨entry,hentry,hrecord⟩ := exists_of_mem_result hrecords hrecord
    obtain ⟨hname,hrecorded⟩ := recordOf_ok hrecord
    have hmem := (byName_perm tensors).mem_iff.mp hentry
    rw [hall] at hmem
    obtain ⟨item,hitem,hmem⟩ := List.mem_flatMap.mp hmem
    obtain ⟨tensor,htensor,rfl⟩ := List.mem_map.mp hmem
    refine ⟨item,hitem,tensor.2,?_,hrecorded⟩
    rw [hname]
    exact htensor
  · have hmem : (tensor.1,item.name,tensor.2)∈byName tensors := by
      rw [(byName_perm tensors).mem_iff,hall]
      exact List.mem_flatMap.mpr ⟨item,hitem,List.mem_map.mpr ⟨tensor,htensor,rfl⟩⟩
    obtain ⟨record,hrecord,hof⟩ := exists_result_of_mem hrecords hmem
    obtain ⟨hname,hrecorded⟩ := recordOf_ok hof
    exact ⟨record,hrecord,hname,hrecorded.file⟩
  · unfold checkRequired at hrequired
    simp only [call_bind,require_ok] at hrequired
    obtain ⟨_,hmissing,-⟩ := hrequired
    obtain ⟨record,hrecord,hname⟩ := List.mem_map.mp (missingFrom_nil.mp hmissing name hname)
    exact ⟨record,hrecord,hname⟩

end Findings

end Hllm.PreparedManifests
