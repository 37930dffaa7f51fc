import Hllm.ManifestModels
import Hllm.OrderedDict
import Hllm.SafetensorsAcceptance

/-!
# Preparing a model

`prepare_model` builds a manifest from a model directory: the adapter of the
architecture describes the configuration, every tensor of the weight files is
classified, and storage is summed by component. Texts of JSON files arrive
parsed. Digests are functions of what they are computed from.
-/

namespace Hllm.ModelPreparation

open ManifestModels
open DenseLoader (TensorMetadata)
open PlannerModels (DType TensorRole)
open SafetensorsAcceptance (HeaderError inspectHeader)
open SafetensorsReader (JsonParser byName maximumHeaderBytes readLittleEndian)

/-- What `json.loads` returns; floats are bit patterns of doubles. -/
inductive PyValue
  | none
  | bool (value : Bool)
  | int (value : ℤ)
  | float (bits : UInt64)
  | str (value : String)
  | list (items : List PyValue)
  | dict (members : List (String×PyValue))

/-- What stops a preparation. -/
inductive PreparationError
  /-- `ArchitectureError` -/
  | architecture (message : String)
  /-- A tensor that the adapter does not know, or that has another shape. -/
  | tensor (name : String)
  /-- A validator of `ModelConfig`. -/
  | validation (field : String)
  /-- An operation that Python refuses. -/
  | python (kind : String)
  | unreadable (path : String)
  | notObject (path : String)
  | unsupportedModelType
  | weightMap
  | weightMapTypes
  | missingFiles (paths : List String)
  | fileCount
  /-- A `SafetensorsError` before the header is inspected. -/
  | container (path : String)
  | header (path : String) (error : HeaderError)
  | repeated (name : String)
  | indexMismatch (missingFromFiles missingFromIndex : List String)
  | misplaced (name expected actual : String)
  | missingTensors (names : List String)
  | missingRoles (roles : List TensorRole)
  deriving DecidableEq

/-- Raise unless a condition holds. -/
def require (condition : Prop) [Decidable condition] (error : PreparationError) :
    Except PreparationError Unit :=
  if condition then .ok () else .error error

/-- Truth of a value. -/
def truthy : PyValue → Bool
  | .none => false
  | .bool value => value
  | .int value => value != 0
  | .float bits => bits &&& 0x7fffffffffffffff != 0
  | .str value => value != ""
  | .list items => !items.isEmpty
  | .dict members => !members.isEmpty

/-- Equality with a string. -/
def isText (text : String) : PyValue → Bool
  | .str value => value==text
  | _ => false

/-- The value is `False` itself. -/
def isFalse : PyValue → Bool
  | .bool value => !value
  | _ => false

/-- Equality with the number one. -/
def isOne : PyValue → Bool
  | .bool value => value
  | .int value => value==1
  | .float bits => bits==0x3FF0000000000000
  | _ => false

/-- `text in value` -/
def within (text : String) : PyValue → Except PreparationError Bool
  | .str value => .ok (decide (text.toList <:+: value.toList))
  | .list items => .ok (items.any (isText text))
  | .dict members => .ok (members.any fun member => member.1==text)
  | _ => .error (.python "TypeError")

/-- The double nearest to an integer, the even one of two, unless it is infinite. -/
def doubleOf (n : ℕ) : Option UInt64 :=
  let e := n.log2
  let significand :=
    if e ≤ 52 then n <<< (52-e)
    else
      let unit := 2^(e-52)
      let rest := n%unit
      n/unit+(if unit < 2*rest ∨ (2*rest=unit ∧ n/unit%2=1) then 1 else 0)
  let bits := (e+1022)*2^52+significand
  if n=0 then some 0 else if bits < 0x7ff0000000000000 then some bits.toUInt64 else none

/-- `_required_positive_int` -/
def requiredPositiveInt (raw : List (String×PyValue)) (key : String) :
    Except PreparationError ℕ+ :=
  match raw.lookup key with
  | some (.int value) =>
    if h : 0 < value.toNat then .ok (value.toNat.toPNat h)
    else .error (.architecture ("config field '"++key++"' must be a positive integer"))
  | _ => .error (.architecture ("config field '"++key++"' must be a positive integer"))

/-- Validation of a float field of `ModelConfig`. -/
def floatField (key : String) (bits : UInt64) : Except PreparationError PositiveFloat :=
  match positiveFloat bits with
  | .ok value => .ok value
  | .error _ => .error (.validation key)

/-- `_positive_float` with the validation of its field. -/
def requiredPositiveFloat (raw : List (String×PyValue)) (key : String) (default : UInt64) :
    Except PreparationError PositiveFloat :=
  let refused : PreparationError :=
    .architecture ("config field '"++key++"' must be a positive number")
  match (raw.lookup key).getD (.float default) with
  | .int value =>
    if value ≤ 0 then .error refused
    else
      match doubleOf value.toNat with
      | some bits => floatField key bits
      | none => .error (.python "OverflowError")
  | .float bits => if nonPositive bits then .error refused else floatField key bits
  | _ => .error refused

/-- `_boolean` -/
def requiredBoolean (raw : List (String×PyValue)) (key : String) (default : Bool) :
    Except PreparationError Bool :=
  match (raw.lookup key).getD (.bool default) with
  | .bool value => .ok value
  | _ => .error (.architecture ("config field '"++key++"' must be a boolean"))

/-- A token id of the configuration. -/
def tokenId : PyValue → Except PreparationError ℕ
  | .int value =>
    if 0 ≤ value then .ok value.toNat
    else .error (.architecture
      "config field 'eos_token_id' must be a non-negative integer or list")
  | _ => .error (.architecture
      "config field 'eos_token_id' must be a non-negative integer or list")

/-- `_eos_token_ids` -/
def eosTokenIds (raw : List (String×PyValue)) : Except PreparationError (List ℕ) :=
  match raw.lookup "eos_token_id" with
  | none => .ok []
  | some .none => .ok []
  | some (.list items) => (items.mapM tokenId).map (OrderedDict.ofList id)
  | some value => (tokenId value).map fun id => [id]

/-- `LAYER_SUFFIXES` -/
def layerSuffixes : List String := [
  "input_layernorm.weight","post_attention_layernorm.weight","self_attn.q_proj.weight",
  "self_attn.k_proj.weight","self_attn.v_proj.weight","self_attn.o_proj.weight",
  "mlp.gate_proj.weight","mlp.up_proj.weight","mlp.down_proj.weight"]

/-- The architecture adapters. -/
inductive Adapter
  | llama
  | qwen3
  deriving DecidableEq

namespace Adapter

/-- `architecture_id` -/
def architectureId : Adapter → String
  | .llama => "llama.v1"
  | .qwen3 => "qwen3.v1"

/-- `architecture_revision` -/
def architectureRevision : String := "1"

/-- `model_type` -/
def modelType : Adapter → String
  | .llama => "llama"
  | .qwen3 => "qwen3"

/-- `model_class` -/
def modelClass : Adapter → String
  | .llama => "LlamaForCausalLM"
  | .qwen3 => "Qwen3ForCausalLM"

/-- `layer_suffixes` -/
def suffixes : Adapter → List String
  | .llama => layerSuffixes
  | .qwen3 => layerSuffixes++["self_attn.q_norm.weight","self_attn.k_norm.weight"]

end Adapter

/-- `ModelDescription` -/
structure ModelDescription where
  architecture : ArchitectureDescriptor
  config : ModelConfig

/-- `head_dim` of a configuration, and whether it is explicit. -/
def headDimension (raw : List (String×PyValue)) (hiddenSize heads : ℕ+) :
    Except PreparationError (ℤ×Bool) :=
  match raw.lookup "head_dim" with
  | none | some .none =>
    if hiddenSize.val%heads.val≠0 then .error (.architecture
      "hidden_size must divide evenly by num_attention_heads when head_dim is absent")
    else .ok ((hiddenSize.val/heads.val : ℕ),false)
  | some (.int value) => .ok (value,true)
  | _ => .error (.architecture "head_dim must be a positive integer")

/-- A field that must be absent or null. -/
def absent (raw : List (String×PyValue)) (key : String) : Bool :=
  match raw.lookup key with
  | none | some .none => true
  | _ => false

/-- Texts in ascending order. -/
def sortedTexts (texts : List String) : List String := texts.insertionSort (· ≤ ·)

/-- The checks of `describe` that select what a worker can execute. -/
def checkExecutable (adapter : Adapter) (raw : List (String×PyValue)) :
    Except PreparationError Unit := do
  let refuse (message : String) : PreparationError :=
    .architecture (adapter.architectureId++message)
  let attentionBias ← requiredBoolean raw "attention_bias" false
  let mlpBias ← requiredBoolean raw "mlp_bias" false
  require (attentionBias=false ∧ mlpBias=false)
    (refuse " does not yet support attention or MLP bias tensors")
  require (isText "silu" ((raw.lookup "hidden_act").getD (.str "silu"))=true)
    (refuse " currently requires hidden_act='silu'")
  require (isOne ((raw.lookup "pretraining_tp").getD (.int 1))=true)
    (refuse " currently requires pretraining_tp=1")
  require (isOne ((raw.lookup "partial_rotary_factor").getD (.float 0x3FF0000000000000))=true)
    (refuse " currently requires partial_rotary_factor=1.0")
  require (absent raw "sliding_window"=true)
    (refuse " does not yet support sliding-window attention")
  require (absent raw "rope_scaling"=true)
    (refuse " currently supports unscaled RoPE only")

/-- `ModelConfig` as `describe` builds it. -/
def buildConfig (raw : List (String×PyValue)) (hiddenSize heads : ℕ+) (headDim : ℤ)
    (tied : Bool) : Except PreparationError ModelConfig := do
  let intermediateSize ← requiredPositiveInt raw "intermediate_size"
  let numLayers ← requiredPositiveInt raw "num_hidden_layers"
  let numKvHeads ← requiredPositiveInt raw "num_key_value_heads"
  let vocabularySize ← requiredPositiveInt raw "vocab_size"
  let maximumSequenceLength ← requiredPositiveInt raw "max_position_embeddings"
  let rmsNormEps ← requiredPositiveFloat raw "rms_norm_eps" 0x3EB0C6F7A0B5ED8D
  let ropeTheta ← requiredPositiveFloat raw "rope_theta" 0x40C3880000000000
  let eos ← eosTokenIds raw
  if hdim : 0 < headDim.toNat then
    if h : heads.val%numKvHeads.val=0 ∧ eos.Nodup then
      pure {
        hiddenSize := hiddenSize
        intermediateSize := intermediateSize
        numLayers := numLayers
        numAttentionHeads := heads
        numKvHeads := numKvHeads
        headDim := headDim.toNat.toPNat hdim
        vocabularySize := vocabularySize
        maximumSequenceLength := maximumSequenceLength
        tiedEmbeddings := tied
        rmsNormEps := rmsNormEps
        ropeTheta := ropeTheta
        ropeScaling := none
        hiddenActivation := "silu"
        attentionBias := false
        mlpBias := false
        eosTokenIds := eos
        heads_divisible := h.1
        eos_unique := h.2}
    else .error (.validation "")
  else .error (.validation "head_dim")

/-- The check of the declared architectures. -/
def checkDeclared (adapter : Adapter) (architectures : PyValue) : Except PreparationError Unit :=
  if truthy architectures then do
    let declared ← within adapter.modelClass architectures
    require (declared=true) (.architecture ("config does not declare "++adapter.modelClass))
  else .ok ()

/-- `describe` of the Llama adapter, for the adapter that inherits it too. -/
def describeDense (adapter : Adapter) (raw : List (String×PyValue)) :
    Except PreparationError ModelDescription := do
  require (isText adapter.modelType ((raw.lookup "model_type").getD .none)=true)
    (.architecture ("expected model_type='"++adapter.modelType++"'"))
  checkDeclared adapter ((raw.lookup "architectures").getD (.list []))
  let hiddenSize ← requiredPositiveInt raw "hidden_size"
  let heads ← requiredPositiveInt raw "num_attention_heads"
  let (headDim,explicit) ← headDimension raw hiddenSize heads
  let tied ← requiredBoolean raw "tie_word_embeddings" false
  checkExecutable adapter raw
  let config ← buildConfig raw hiddenSize heads headDim tied
  let features := [if config.numKvHeads < heads then "gqa" else "mha",
    if tied then "tied_embeddings" else "untied_embeddings"]++
    (if explicit then ["explicit_head_dim"] else [])
  pure ⟨⟨adapter.architectureId,Adapter.architectureRevision,sortedTexts features⟩,config⟩

/-- `describe` -/
def describe : Adapter → List (String×PyValue) → Except PreparationError ModelDescription
  | .llama,raw => describeDense .llama raw
  | .qwen3,raw => do
    require (isFalse ((raw.lookup "use_sliding_window").getD (.bool false))=true)
      (.architecture "qwen3.v1 does not support sliding-window attention")
    let description ← describeDense .qwen3 raw
    require (description.config.headDim.val%2=0)
      (.architecture "qwen3.v1 requires an even head_dim for RoPE")
    pure {description with architecture := {description.architecture with
      featureFlags := sortedTexts (description.architecture.featureFlags++["qk_norm"])}}

/-- `TensorOwnership` without its shared group. -/
structure TensorOwnership where
  role : TensorRole
  layerIndex : Option ℕ := none
  sharedWeightGroup : Option String := none
  deriving DecidableEq

/-- The layer that `LAYER_PATTERN` matches. -/
def layerOf (name : String) : Option ℕ :=
  let start := "model.layers.".toList
  if start <+: name.toList then
    let rest := name.toList.drop start.length
    let digits := rest.takeWhile Char.isDigit
    match digits,rest.drop digits.length with
    | _::_,'.'::_ => some (Nat.ofDigitChars 10 digits 0)
    | _,_ => none
  else none

/-- Names of a layer's tensors start with this. -/
def layerPrefix (layer : ℕ) : String := "model.layers."++toString layer++"."

/-- `name.removeprefix(expected_prefix)` -/
def removeStart (start name : String) : String :=
  if start.toList <+: name.toList then String.ofList (name.toList.drop start.toList.length)
  else name

/-- The group of the weights a tied head shares. -/
def embeddingGroup (config : ModelConfig) : Option String :=
  if config.tiedEmbeddings then some "token_embeddings" else none

/-- `classify_tensor` -/
def classifyTensor (adapter : Adapter) (name : String) (config : ModelConfig) :
    Except PreparationError TensorOwnership :=
  if name="model.embed_tokens.weight" then .ok ⟨.tokenEmbedding,none,embeddingGroup config⟩
  else
    match layerOf name with
    | some layer =>
      if config.numLayers.val ≤ layer then .error (.tensor name)
      else if removeStart (layerPrefix layer) name∈adapter.suffixes then
        .ok ⟨.transformerLayer,some layer,none⟩
      else .error (.tensor name)
    | none =>
      if name="model.norm.weight" then .ok ⟨.finalNorm,none,none⟩
      else if name="lm_head.weight" then .ok ⟨.lmHead,none,embeddingGroup config⟩
      else if name∈["model.rotary_emb.inv_freq","model.rotary_emb.original_inv_freq"] then
        .ok ⟨.architectureState,none,none⟩
      else .error (.tensor name)

/-- `expected_tensor_names` -/
def expectedTensorNames (adapter : Adapter) (config : ModelConfig) : List String :=
  ["model.embed_tokens.weight","model.norm.weight"]++
  (List.range config.numLayers).flatMap (fun layer =>
    adapter.suffixes.map fun suffix => layerPrefix layer++suffix)++
  if config.tiedEmbeddings then [] else ["lm_head.weight"]

/-- `name.endswith(ending)` -/
def endsWith (name ending : String) : Bool := decide (ending.toList <:+ name.toList)

/-- The shape that `validate_tensor_shape` expects of the Llama tensors. -/
def denseShape (name : String) (config : ModelConfig) : Option (List ℕ) :=
  let hidden := config.hiddenSize.val
  let attention := config.numAttentionHeads.val*config.headDim.val
  let kv := config.numKvHeads.val*config.headDim.val
  let intermediate := config.intermediateSize.val
  if name="model.embed_tokens.weight" ∨ name="lm_head.weight" then
    some [config.vocabularySize.val,hidden]
  else if name="model.norm.weight" ∨ endsWith name "layernorm.weight" then some [hidden]
  else if endsWith name "self_attn.q_proj.weight" then some [attention,hidden]
  else if endsWith name "self_attn.k_proj.weight" ∨ endsWith name "self_attn.v_proj.weight" then
    some [kv,hidden]
  else if endsWith name "self_attn.o_proj.weight" then some [hidden,attention]
  else if endsWith name "mlp.gate_proj.weight" ∨ endsWith name "mlp.up_proj.weight" then
    some [intermediate,hidden]
  else if endsWith name "mlp.down_proj.weight" then some [hidden,intermediate]
  else none

/-- The shape that `validate_tensor_shape` expects. -/
def expectedShape : Adapter → String → ModelConfig → Option (List ℕ)
  | .llama,name,config => denseShape name config
  | .qwen3,name,config =>
    if endsWith name "self_attn.q_norm.weight" ∨ endsWith name "self_attn.k_norm.weight" then
      some [config.headDim.val]
    else denseShape name config

/-- `validate_tensor_shape` -/
def validateTensorShape (adapter : Adapter) (name : String) (shape : List ℕ)
    (config : ModelConfig) : Except PreparationError Unit :=
  require (∀ expected∈expectedShape adapter name config,shape=expected) (.tensor name)

/-- `InspectedFile` with the name of its path. -/
structure InspectedFile where
  name : String
  sizeBytes : ℕ
  headerSizeBytes : ℕ
  tensors : List (String×TensorMetadata)

/-- `inspect_safetensors` -/
def inspectSafetensors (parser : JsonParser) (name : String) (bytes : List UInt8) :
    Except PreparationError InspectedFile := do
  require (8 ≤ bytes.length) (.container name)
  let headerLength := readLittleEndian (bytes.take 8)
  require (headerLength≠0 ∧ headerLength ≤ maximumHeaderBytes) (.container name)
  require (8+headerLength ≤ bytes.length) (.container name)
  match parser.parse ((bytes.drop 8).take headerLength) with
  | some (.object members) =>
    match inspectHeader members (bytes.length-8-headerLength) with
    | .ok tensors => pure ⟨name,bytes.length,8+headerLength,tensors⟩
    | .error error => .error (.header name error)
  | _ => .error (.container name)

/-- The last part of a path, where parts that are empty or one dot do not count. -/
def lastPart (path : String) : Option String :=
  (((path.toList.splitOn '/').map String.ofList).filter fun part =>
    part≠"" && part≠".").getLast?

/-- A model directory. -/
structure ModelDirectory where
  name : String
  /-- `config.json`, where its text can be read. -/
  config : Option PyValue
  /-- `model.safetensors.index.json`, if it exists. -/
  index : Option (Option PyValue)
  /-- The regular file that a path below the directory leads to. -/
  files : String → Option (List UInt8)
  /-- Names in the directory. -/
  entries : List String
  plain : ∀ entry∈entries,'/'∉entry.toList
  /-- The directory itself, and what is above a directory, are no regular files. -/
  unnamed : ∀ path,lastPart path=none ∨ lastPart path=some ".." → files path=none

/-- `_load_json_object` -/
def loadJsonObject (path : String) :
    Option PyValue → Except PreparationError (List (String×PyValue))
  | none => .error (.unreadable path)
  | some (.dict members) => .ok members
  | some _ => .error (.notObject path)

/-- `name` of a path below the directory. -/
def pathName (directory : ModelDirectory) (path : String) : String :=
  (lastPart path).getD directory.name

/-- A value of the weight map. -/
def weightFile (member : String×PyValue) : Except PreparationError (String×String) :=
  match member.2 with
  | .str file => .ok (member.1,file)
  | _ => .error .weightMapTypes

/-- The weight map of an index. -/
def weightMapOf (index : List (String×PyValue)) : Except PreparationError (List (String×String)) :=
  match index.lookup "weight_map" with
  | some (.dict []) => .error .weightMap
  | some (.dict members) => members.mapM weightFile
  | _ => .error .weightMap

/-- Inspect the file at a path below the directory. -/
def inspectPath (parser : JsonParser) (directory : ModelDirectory) (path : String) :
    Except PreparationError InspectedFile :=
  match directory.files path with
  | some bytes => inspectSafetensors parser (pathName directory path) bytes
  | none => .error (.python "OSError")

/-- `_discover_tensor_files`: the paths, the weight map, and whether there is an index. -/
def discoverTensorFiles (parser : JsonParser) (directory : ModelDirectory) :
    Except PreparationError (List String×List (String×String)×Bool) :=
  match directory.index with
  | some index => do
    let index ← loadJsonObject "model.safetensors.index.json" index
    let weightMap ← weightMapOf index
    let paths := sortedTexts (OrderedDict.ofList id (weightMap.map Prod.snd))
    let missing := paths.filter fun path => (directory.files path).isNone
    require (missing=[]) (.missingFiles missing)
    pure (paths,weightMap,true)
  | none =>
    match sortedTexts (directory.entries.filter fun entry => endsWith entry ".safetensors") with
    | [path] => do
      let inspected ← inspectPath parser directory path
      pure ([path],inspected.tensors.map (fun tensor => (tensor.1,pathName directory path)),false)
    | _ => .error .fileCount

/-- One step of the loop that fills `tensors_by_name`. -/
def addTensor (container : InspectedFile) (known : List (String×String×TensorMetadata))
    (tensor : String×TensorMetadata) :
    Except PreparationError (List (String×String×TensorMetadata)) :=
  if tensor.1∈known.map Prod.fst then .error (.repeated tensor.1)
  else .ok (known++[(tensor.1,container.name,tensor.2)])

/-- The tensors of one more container. -/
def addContainer (known : List (String×String×TensorMetadata)) (container : InspectedFile) :
    Except PreparationError (List (String×String×TensorMetadata)) :=
  container.tensors.foldlM (addTensor container) known

/-- `tensors_by_name` -/
def tensorsByName (inspected : List InspectedFile) :
    Except PreparationError (List (String×String×TensorMetadata)) :=
  inspected.foldlM addContainer []

/-- Texts of one list that are missing from another, in order. -/
def missingFrom (texts others : List String) : List String :=
  sortedTexts (texts.filter fun text => text∉others)

/-- A tensor is in the file the index names. -/
def checkPlaced (tensors : List (String×String×TensorMetadata)) (entry : String×String) :
    Except PreparationError Unit :=
  match tensors.lookup entry.1 with
  | some (actual,_) => require (entry.2=actual) (.misplaced entry.1 entry.2 actual)
  | none => .error (.python "KeyError")

/-- The index and the containers hold the same tensors. -/
def checkIndex (weightMap : List (String×String)) (tensors : List (String×String×TensorMetadata)) :
    Except PreparationError Unit := do
  let missingFromFiles := missingFrom (weightMap.map Prod.fst) (tensors.map Prod.fst)
  let missingFromIndex := missingFrom (tensors.map Prod.fst) (weightMap.map Prod.fst)
  require (missingFromFiles=[] ∧ missingFromIndex=[])
    (.indexMismatch missingFromFiles missingFromIndex)
  weightMap.forM (checkPlaced tensors)

/-- The `DType` of an inspected tensor, which always has one. -/
def dtypeOf : WireMessages.DataType → DType
  | .unspecified => .bool
  | .bool => .bool
  | .u8 => .u8
  | .i8 => .i8
  | .i16 => .i16
  | .u16 => .u16
  | .i32 => .i32
  | .u32 => .u32
  | .i64 => .i64
  | .u64 => .u64
  | .f16 => .f16
  | .bf16 => .bf16
  | .f32 => .f32
  | .f64 => .f64

/-- The record of a tensor. -/
def recordOf (adapter : Adapter) (config : ModelConfig) (entry : String×String×TensorMetadata) :
    Except PreparationError TensorRecord := do
  let ownership ← classifyTensor adapter entry.1 config
  validateTensorShape adapter entry.1 entry.2.2.shape config
  pure {
    name := entry.1
    file := entry.2.1
    dtype := dtypeOf entry.2.2.dtype
    shape := entry.2.2.shape
    dataOffset := entry.2.2.dataOffset
    byteLength := entry.2.2.byteLength
    role := ownership.role
    layerIndex := ownership.layerIndex
    sharedWeightGroup := ownership.sharedWeightGroup}

/-- `component_bytes[(role, layer_index)] += byte_length` -/
def addComponent : List ComponentMemory → TensorRecord → List ComponentMemory
  | [],record => [⟨record.role,record.layerIndex,record.byteLength⟩]
  | component::components,record =>
    if component.role=record.role ∧ component.layerIndex=record.layerIndex then
      {component with storageBytes := component.storageBytes+record.byteLength}::components
    else component::addComponent components record

/-- `TensorRole.value` -/
def roleValue : TensorRole → String
  | .tokenEmbedding => "TOKEN_EMBEDDING"
  | .transformerLayer => "TRANSFORMER_LAYER"
  | .finalNorm => "FINAL_NORM"
  | .lmHead => "LM_HEAD"
  | .architectureState => "ARCHITECTURE_STATE"

/-- The order of components: by role, then by layer, those without one first. -/
def ComponentOrder (a b : ComponentMemory) : Prop :=
  roleValue a.role < roleValue b.role ∨
    (a.role=b.role ∧ (a.layerIndex.elim (-1) Int.ofNat : ℤ) ≤ b.layerIndex.elim (-1) Int.ofNat)

instance (a b : ComponentMemory) : Decidable (ComponentOrder a b) :=
  inferInstanceAs (Decidable (_ ∨ _))

/-- `components` -/
def componentsOf (records : List TensorRecord) : List ComponentMemory :=
  (records.foldl addComponent []).insertionSort ComponentOrder

/-- Every tensor and every role a model needs is there. -/
def checkRequired (adapter : Adapter) (config : ModelConfig) (records : List TensorRecord) :
    Except PreparationError Unit := do
  let missing := missingFrom (expectedTensorNames adapter config) (records.map (·.name))
  require (missing=[]) (.missingTensors missing)
  let required : List TensorRole := [.finalNorm]++
    (if config.tiedEmbeddings then [] else [.lmHead])++[.tokenEmbedding]
  let roles := required.filter fun role => role∉records.map (·.role)
  require (roles=[]) (.missingRoles roles)

/-- `HashMode` -/
inductive HashMode
  | none
  | metadata
  | full
  deriving DecidableEq

/-- SHA-256 digests in hexadecimal. -/
structure Digests where
  /-- `sha256_file` of a file below the directory. -/
  file : String → String
  /-- `_metadata_digest` -/
  metadata : List InspectedFile → String
  /-- The digest of the manifest without its identity. -/
  manifest : SourceDescriptor → ArchitectureDescriptor → ModelConfig → List TensorFile →
    List TensorRecord → List ComponentMemory → ℕ → String

/-- The adapter of a configuration. -/
def adapterOf (raw : List (String×PyValue)) : Except PreparationError Adapter :=
  match raw.lookup "model_type" with
  | some (.str "llama") => .ok .llama
  | some (.str "qwen3") => .ok .qwen3
  | _ => .error .unsupportedModelType

/-- What preparation finds in a directory. -/
structure Findings where
  adapter : Adapter
  description : ModelDescription
  indexed : Bool
  inspected : List InspectedFile
  records : List TensorRecord

/-- `prepare_model` up to the records. -/
def findTensors (parser : JsonParser) (directory : ModelDirectory) :
    Except PreparationError Findings := do
  let raw ← loadJsonObject "config.json" directory.config
  let adapter ← adapterOf raw
  let description ← describe adapter raw
  let (paths,weightMap,indexed) ← discoverTensorFiles parser directory
  let inspected ← paths.mapM (inspectPath parser directory)
  let tensors ← tensorsByName inspected
  checkIndex weightMap tensors
  let records ← (byName tensors).mapM (recordOf adapter description.config)
  checkRequired adapter description.config records
  pure ⟨adapter,description,indexed,inspected,records⟩

/-- The manifest of what was found. -/
def manifestOf (digests : Digests) (directory : ModelDirectory) (modelId revision : Option String)
    (mode : HashMode) (found : Findings) : ModelManifest :=
  let source : SourceDescriptor := {
    modelId := modelId.elim directory.name fun id => if id="" then directory.name else id
    revision := revision
    configSha256 := digests.file "config.json"
    indexSha256 :=
      if found.indexed then some (digests.file "model.safetensors.index.json") else none
    tensorMetadataSha256 :=
      if mode≠.none then some (digests.metadata found.inspected) else none}
  let files := found.inspected.map fun item => (⟨item.name,item.sizeBytes,item.headerSizeBytes,
    if mode=.full then some (digests.file item.name) else none⟩ : TensorFile)
  let components := componentsOf found.records
  let total := (found.records.map (·.byteLength)).sum
  let digest := digests.manifest source found.description.architecture found.description.config
    files found.records components total
  {
    schemaVersion := "1.1"
    manifestId := "manifest-"++String.ofList (digest.toList.take 16)
    manifestDigest := digest
    source := source
    architecture := found.description.architecture
    config := found.description.config
    tensorFiles := files
    tensors := found.records
    components := components
    totalStorageBytes := total}

/-- `prepare_model` -/
def prepareModel (parser : JsonParser) (digests : Digests) (directory : ModelDirectory)
    (modelId revision : Option String) (mode : HashMode) :
    Except PreparationError ModelManifest :=
  (findTensors parser directory).map (manifestOf digests directory modelId revision mode)

end Hllm.ModelPreparation
