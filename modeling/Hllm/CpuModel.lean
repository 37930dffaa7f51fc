import Hllm.CheckedSizes
import Hllm.SamplingModel
import Mathlib.Data.List.GetD

/-!
# The CPU reference backend

`DenseStage` with its tensors, transformer layers, caches and sampling. A
matrix is its list of rows. A cache holds the rows written so far; the rest of
its storage is never read. Sizes are natural numbers, since a matrix whose
size overflows cannot be allocated. Every loop is evaluated in the order of
the code. A call that throws leaves the sequence as far as it got.
-/

namespace Hllm.CpuModel

open MemoryAccounting SamplingModel

variable {F D : Type}

/-- What the backend throws. -/
inductive Failure
  /-- `std::invalid_argument` -/
  | invalidArgument (message : String)
  /-- `std::length_error` -/
  | lengthError (message : String)
  /-- `std::out_of_range` -/
  | outOfRange (message : String)
  /-- `std::runtime_error` -/
  | runtimeError (message : String)
  /-- A categorized error. -/
  | error (error : Error)
  deriving DecidableEq

/-- `Matrix` -/
@[ext]
structure Matrix (F : Type) where
  columns : ℕ
  data : List (List F)
  /-- Every row has the columns. -/
  shape : ∀ row∈data,row.length=columns

/-- `Matrix::rows` -/
def Matrix.rows (m : Matrix F) : ℕ := m.data.length

/-- `DenseConfig` -/
structure DenseConfig (F : Type) where
  hiddenSize : ℕ
  intermediateSize : ℕ
  attentionHeads : ℕ
  keyValueHeads : ℕ
  headDimension : ℕ
  maximumSequenceLength : ℕ
  rmsNormEpsilon : F
  ropeTheta : F
  queryKeyNorm : Bool

/-- `LayerWeights` -/
structure LayerWeights (F : Type) where
  inputNorm : List F
  query : Matrix F
  key : Matrix F
  value : Matrix F
  attentionOutput : Matrix F
  postAttentionNorm : List F
  gate : Matrix F
  up : Matrix F
  down : Matrix F
  queryNorm : List F
  keyNorm : List F

/-- `LayerKvCache`, with the rows written so far. -/
@[ext]
structure LayerKvCache (F : Type) where
  maximumSequenceLength : ℕ
  keyValueHeads : ℕ
  headDimension : ℕ
  keys : List (List F)
  values : List (List F)
  /-- Keys and values are written together. -/
  paired : values.length=keys.length

/-- `LayerKvCache::length` -/
def LayerKvCache.length (cache : LayerKvCache F) : ℕ := cache.keys.length

/-- An empty cache. -/
def LayerKvCache.empty (maximumSequenceLength keyValueHeads headDimension : ℕ) :
    LayerKvCache F :=
  ⟨maximumSequenceLength,keyValueHeads,headDimension,[],[],rfl⟩

/-- The values of one head of a row. -/
def headOf (headDimension head : ℕ) (row : List F) : List F :=
  (row.drop (head*headDimension)).take headDimension

/-- One row, head by head. -/
def byHeads (heads : ℕ) (f : ℕ → List F) : List F := (List.range heads).flatMap f

/-- Heads of equal size. -/
theorem length_byHeads (heads : ℕ) {n : ℕ} {f : ℕ → List F} (h : ∀ head,(f head).length=n) :
    (byHeads heads f).length=heads*n := by
  rw [byHeads,List.length_flatMap]
  simp only [h,List.map_const',List.length_range,List.sum_replicate_nat]

section Layer

variable [Scalar F]

/-- `validate_config` -/
def validateConfig (config : DenseConfig F) : Except Failure Unit :=
  if config.hiddenSize=0 ∨ config.intermediateSize=0 ∨ config.attentionHeads=0 ∨
      config.keyValueHeads=0 ∨ config.headDimension=0 ∨ config.maximumSequenceLength=0 ∨
      Scalar.le config.rmsNormEpsilon Scalar.zero ∨ Scalar.le config.ropeTheta Scalar.zero ∨
      !Scalar.finite config.rmsNormEpsilon ∨ !Scalar.finite config.ropeTheta then
    .error (.invalidArgument "Llama configuration values must be positive")
  else if config.attentionHeads%config.keyValueHeads≠0 ∨ config.headDimension%2≠0 ∨
      sizeMax.toNat/config.headDimension < config.attentionHeads then
    .error (.invalidArgument "Llama attention dimensions are inconsistent")
  else .ok ()

/-- A matrix of the given shape. -/
def validMatrix (m : Matrix F) (rows columns : ℕ) : Bool := m.rows=rows && m.columns=columns

/-- Head norms of the head dimension, or none where the model has none. -/
def validNorms (weights : LayerWeights F) (config : DenseConfig F) : Bool :=
  if config.queryKeyNorm then
    weights.queryNorm.length=config.headDimension && weights.keyNorm.length=config.headDimension
  else weights.queryNorm.isEmpty && weights.keyNorm.isEmpty

/-- `validate_weights` -/
def validateWeights (weights : LayerWeights F) (config : DenseConfig F) : Except Failure Unit :=
  let attentionWidth := config.attentionHeads*config.headDimension
  let keyValueWidth := config.keyValueHeads*config.headDimension
  if !validNorms weights config then
    .error (.invalidArgument "query/key normalization weights do not match configuration")
  else if weights.inputNorm.length≠config.hiddenSize ∨
      weights.postAttentionNorm.length≠config.hiddenSize ∨
      !validMatrix weights.query attentionWidth config.hiddenSize ∨
      !validMatrix weights.key keyValueWidth config.hiddenSize ∨
      !validMatrix weights.value keyValueWidth config.hiddenSize ∨
      !validMatrix weights.attentionOutput config.hiddenSize attentionWidth ∨
      !validMatrix weights.gate config.intermediateSize config.hiddenSize ∨
      !validMatrix weights.up config.intermediateSize config.hiddenSize ∨
      !validMatrix weights.down config.hiddenSize config.intermediateSize then
    .error (.invalidArgument "transformer layer weights do not match configuration")
  else .ok ()

/-- A sum of products, from zero and in order. -/
def dot (a b : List F) : F :=
  (a.zip b).foldl (fun sum x => Scalar.add sum (Scalar.mul x.1 x.2)) Scalar.zero

/-- One row of `linear`. -/
def linearRow (weights : Matrix F) (row : List F) : List F := weights.data.map (dot row)

/-- `linear` -/
def linear (input weights : Matrix F) : Except Failure (Matrix F) :=
  if input.columns≠weights.columns then
    .error (.invalidArgument "linear input width does not match weight width")
  else .ok ⟨weights.rows,input.data.map (linearRow weights),by
    simp only [List.mem_map,forall_exists_index,and_imp]
    rintro row x - rfl
    rw [linearRow,List.length_map,Matrix.rows]⟩

/-- The reciprocal root mean square of some values. -/
def inverseRms (values : List F) (epsilon : F) : F :=
  let squareSum := values.foldl (fun sum v => Scalar.add sum (Scalar.mul v v)) Scalar.zero
  Scalar.div Scalar.one
    (Scalar.sqrt (Scalar.add (Scalar.div squareSum (Scalar.ofSize values.length)) epsilon))

/-- One row of `rms_norm`. -/
def rmsNormRow (weights : List F) (epsilon : F) (row : List F) : List F :=
  (row.zip weights).map fun x => Scalar.mul (Scalar.mul x.1 (inverseRms row epsilon)) x.2

/-- `rms_norm` -/
def rmsNorm (input : Matrix F) (weights : List F) (epsilon : F) : Except Failure (Matrix F) :=
  if h : input.columns≠weights.length ∨ Scalar.le epsilon Scalar.zero then
    .error (.invalidArgument "RMSNorm parameters do not match input")
  else .ok ⟨input.columns,input.data.map (rmsNormRow weights epsilon),by
    simp only [List.mem_map,forall_exists_index,and_imp]
    rintro row x hx rfl
    rw [not_or,not_not] at h
    rw [rmsNormRow,List.length_map,List.length_zip,input.shape x hx,h.1,Nat.min_self]⟩

/-- One row of `normalize_heads`. The flat loop of the code never crosses a
row, as the head dimension divides the columns. -/
def normalizeHeadsRow (weights : List F) (epsilon : F) (heads : ℕ) (row : List F) : List F :=
  byHeads heads fun head =>
    let values := headOf weights.length head row
    (List.range weights.length).map fun d =>
      Scalar.mul (values.getD d Scalar.zero)
        (Scalar.mul (inverseRms values epsilon) (weights.getD d Scalar.zero))

/-- `normalize_heads` -/
def normalizeHeads (values : Matrix F) (weights : List F) (epsilon : F) : Matrix F :=
  ⟨values.columns/weights.length*weights.length,
    values.data.map (normalizeHeadsRow weights epsilon (values.columns/weights.length)),by
    simp only [List.mem_map,forall_exists_index,and_imp]
    rintro row x - rfl
    exact length_byHeads _ fun head => by rw [List.length_map,List.length_range]⟩

/-- One row of `apply_rope` at its absolute position. The pairs of a head are
rotated independently of each other. -/
def ropeRow (heads headDimension : ℕ) (theta : F) (position : ℕ) (row : List F) : List F :=
  let half := headDimension/2
  let angle := fun d => Scalar.div (Scalar.ofSize position)
    (Scalar.pow theta (Scalar.div (Scalar.ofSize (2*d)) (Scalar.ofSize headDimension)))
  byHeads heads fun head =>
    let first := fun d => row.getD (head*headDimension+d) Scalar.zero
    let second := fun d => row.getD (head*headDimension+half+d) Scalar.zero
    ((List.range half).map fun d => Scalar.sub (Scalar.mul (first d) (Scalar.cos (angle d)))
      (Scalar.mul (second d) (Scalar.sin (angle d))))++
    (List.range half).map fun d => Scalar.add (Scalar.mul (second d) (Scalar.cos (angle d)))
      (Scalar.mul (first d) (Scalar.sin (angle d)))

/-- `apply_rope` -/
def applyRope (values : Matrix F) (heads headDimension firstPosition : ℕ) (theta : F) :
    Except Failure (Matrix F) :=
  if h : heads=0 ∨ headDimension=0 ∨ headDimension%2≠0 ∨ heads*headDimension≠values.columns ∨
      Scalar.le theta Scalar.zero then
    .error (.invalidArgument "RoPE dimensions are invalid")
  else .ok ⟨values.columns,values.data.mapIdx fun token row =>
      ropeRow heads headDimension theta (firstPosition+token) row,by
    intro row hrow
    obtain ⟨i,hi,rfl⟩ := List.mem_mapIdx.mp hrow
    have hcolumns : heads*headDimension=values.columns := by
      by_contra hne
      exact h (.inr (.inr (.inr (.inl hne))))
    have heven : headDimension%2=0 := by
      by_contra hodd
      exact h (.inr (.inr (.inl hodd)))
    rw [←hcolumns]
    refine length_byHeads heads fun head => ?_
    rw [List.length_append,List.length_map,List.length_map,List.length_range]
    omega⟩

/-- `LayerKvCache::append` -/
def LayerKvCache.append (cache : LayerKvCache F) (firstPosition : ℕ) (keys values : Matrix F) :
    Except Failure (LayerKvCache F) :=
  let expectedWidth := cache.keyValueHeads*cache.headDimension
  if firstPosition≠cache.length then
    .error (.invalidArgument "KV append position does not match cache length")
  else if h : keys.rows≠values.rows ∨ keys.columns≠expectedWidth ∨
      values.columns≠expectedWidth then
    .error (.invalidArgument "KV append matrices have invalid shapes")
  else if cache.maximumSequenceLength-cache.length < keys.rows then
    .error (.lengthError "KV append exceeds cache capacity")
  else .ok {cache with
    keys := cache.keys++keys.data
    values := cache.values++values.data
    paired := by
      rw [not_or,not_not] at h
      have hrows : keys.data.length=values.data.length := h.1
      rw [List.length_append,List.length_append,cache.paired,hrows]}

/-- `std::max` -/
def larger (a b : F) : F := if Scalar.lt a b then b else a

/-- One row of `attention`. It reads the keys and values of all positions up
to its own. The score buffer holds exactly these positions, and every entry is
written before it is read. -/
def attentionRow (config : DenseConfig F) (keys values : List (List F)) (query : List F) :
    List F :=
  let scale := Scalar.div Scalar.one (Scalar.sqrt (Scalar.ofSize config.headDimension))
  byHeads config.attentionHeads fun queryHead =>
    let keyValueHead := queryHead/(config.attentionHeads/config.keyValueHeads)
    let scores := keys.map fun key =>
      Scalar.mul (dot (headOf config.headDimension queryHead query)
        (headOf config.headDimension keyValueHead key)) scale
    let maximumScore := scores.foldl larger Scalar.negativeInfinity
    let weights := scores.map fun score => Scalar.exp (Scalar.sub score maximumScore)
    let denominator := weights.foldl Scalar.add Scalar.zero
    (List.range config.headDimension).map fun dimension =>
      (weights.zip values).foldl (fun result x => Scalar.add result
        (Scalar.mul (Scalar.div x.1 denominator)
          (x.2.getD (keyValueHead*config.headDimension+dimension) Scalar.zero))) Scalar.zero

/-- `attention` -/
def attention (queries : Matrix F) (config : DenseConfig F) (firstPosition : ℕ)
    (cache : LayerKvCache F) : Except Failure (Matrix F) :=
  if queries.rows≠0 ∧ cache.length < firstPosition+queries.rows then
    .error (.outOfRange "KV cache index is out of range")
  else .ok ⟨config.attentionHeads*config.headDimension,queries.data.mapIdx fun token query =>
      attentionRow config (cache.keys.take (firstPosition+token+1))
        (cache.values.take (firstPosition+token+1)) query,by
    intro row hrow
    obtain ⟨i,hi,rfl⟩ := List.mem_mapIdx.mp hrow
    exact length_byHeads _ fun head => by rw [List.length_map,List.length_range]⟩

/-- One row of `add_in_place`. -/
def addRow (destination source : List F) : List F :=
  (destination.zip source).map fun x => Scalar.add x.1 x.2

/-- `add_in_place` -/
def addInPlace (destination source : Matrix F) : Except Failure (Matrix F) :=
  if h : destination.rows≠source.rows ∨ destination.columns≠source.columns then
    .error (.invalidArgument "residual matrices must have matching shapes")
  else .ok ⟨destination.columns,(destination.data.zip source.data).map fun x => addRow x.1 x.2,by
    intro row hrow
    obtain ⟨x,hx,rfl⟩ := List.mem_map.mp hrow
    obtain ⟨hd,hs⟩ := List.of_mem_zip hx
    rw [not_or,not_not,not_not] at h
    rw [addRow,List.length_map,List.length_zip,destination.shape _ hd,source.shape _ hs,h.2,
      Nat.min_self]⟩

/-- One row of the gated activation. -/
def gateRow (gated up : List F) : List F :=
  (gated.zip up).map fun x =>
    Scalar.mul (Scalar.div x.1 (Scalar.add Scalar.one (Scalar.exp (Scalar.neg x.1)))) x.2

/-- The gated activation. Both matrices have the same shape. -/
def gate (gated up : Matrix F) : Matrix F :=
  ⟨min gated.columns up.columns,(gated.data.zip up.data).map fun x => gateRow x.1 x.2,by
    intro row hrow
    obtain ⟨x,hx,rfl⟩ := List.mem_map.mp hrow
    obtain ⟨hd,hs⟩ := List.of_mem_zip hx
    rw [gateRow,List.length_map,List.length_zip,gated.shape _ hd,up.shape _ hs]⟩

/-- `transformer_layer` up to the cache: its checks, queries, keys and values. -/
def project (input : Matrix F) (weights : LayerWeights F) (config : DenseConfig F)
    (firstPosition : ℕ) (cache : LayerKvCache F) :
    Except Failure (Matrix F×Matrix F×Matrix F) := do
  validateConfig config
  validateWeights weights config
  if input.columns≠config.hiddenSize ∨ input.rows=0 ∨ cache.keyValueHeads≠config.keyValueHeads ∨
      cache.headDimension≠config.headDimension ∨ firstPosition≠cache.length ∨
      config.maximumSequenceLength < firstPosition ∨
      config.maximumSequenceLength-firstPosition < input.rows then
    .error (.invalidArgument "transformer input or cache position is invalid")
  let normalized ← rmsNorm input weights.inputNorm config.rmsNormEpsilon
  let queries ← linear normalized weights.query
  let keys ← linear normalized weights.key
  let values ← linear normalized weights.value
  let queries := if config.queryKeyNorm then
    normalizeHeads queries weights.queryNorm config.rmsNormEpsilon else queries
  let keys := if config.queryKeyNorm then
    normalizeHeads keys weights.keyNorm config.rmsNormEpsilon else keys
  let queries ← applyRope queries config.attentionHeads config.headDimension firstPosition
    config.ropeTheta
  let keys ← applyRope keys config.keyValueHeads config.headDimension firstPosition
    config.ropeTheta
  pure (queries,keys,values)

/-- `transformer_layer` after the cache: attention and the gated network. -/
def mix (input queries : Matrix F) (weights : LayerWeights F) (config : DenseConfig F)
    (firstPosition : ℕ) (cache : LayerKvCache F) : Except Failure (Matrix F) := do
  let attended ← attention queries config firstPosition cache
  let hidden ← linear attended weights.attentionOutput
  let hidden ← addInPlace hidden input
  let postAttention ← rmsNorm hidden weights.postAttentionNorm config.rmsNormEpsilon
  let gated ← linear postAttention weights.gate
  let up ← linear postAttention weights.up
  let down ← linear (gate gated up) weights.down
  addInPlace hidden down

/-- `transformer_layer`, with the cache as it is left. -/
def transformerLayer (input : Matrix F) (weights : LayerWeights F) (config : DenseConfig F)
    (firstPosition : ℕ) (cache : LayerKvCache F) : LayerKvCache F×Except Failure (Matrix F) :=
  match project input weights config firstPosition cache with
  | .error failure => (cache,.error failure)
  | .ok (queries,keys,values) =>
    match cache.append firstPosition keys values with
    | .error failure => (cache,.error failure)
    | .ok cache => (cache,mix input queries weights config firstPosition cache)

/-- The layers of a stage. The flag is read before each layer. -/
def forwardLayers (config : DenseConfig F) (position : ℕ) :
    List (LayerWeights F) → List (LayerKvCache F) → List Bool → Matrix F →
      List (LayerKvCache F)×Except Failure (Matrix F)
  | [],caches,_,hidden => (caches,.ok hidden)
  | weights::layers,caches,cancelled,hidden =>
    if cancelled.headD false then (caches,.error (.runtimeError "request cancelled"))
    else match caches with
      | [] => ([],.error (.outOfRange "vector::at"))
      | cache::caches =>
        match transformerLayer hidden weights config position cache with
        | (cache,.error failure) => (cache::caches,.error failure)
        | (cache,.ok hidden) =>
          let rest := forwardLayers config position layers caches cancelled.tail hidden
          (cache::rest.1,rest.2)

/-- `final_logits` -/
def finalLogits (hidden : Matrix F) (norm : List F) (head : Matrix F) (epsilon : F) :
    Except Failure (Matrix F) := do
  let normalized ← rmsNorm hidden norm epsilon
  linear normalized head

/-- `greedy_sample_last` -/
def greedySampleLast (logits : Matrix F) : Except Failure ℕ :=
  match logits.data.getLast? with
  | none => .error (.invalidArgument "cannot sample empty logits")
  | some [] => .error (.invalidArgument "cannot sample empty logits")
  | some (first::rest) =>
    if (first::rest).any fun value => !Scalar.finite value then
      .error (.error ⟨.internal,"cannot sample nonfinite logits"⟩)
    else .ok (maxElement (first::rest) first).1

end Layer

/-- Input of a stage: token ids or the boundary activation of the stage before. -/
inductive StageInput
  | tokens (ids : List ℕ)
  | boundary (tokens width : ℕ) (payload : List UInt8)
  deriving DecidableEq

/-- `StageOutput` -/
inductive StageOutput (D : Type)
  | boundary (tokens width : ℕ) (payload : List UInt8)
  | sampled (token : SampledToken D)
  | progress
  deriving DecidableEq

/-- `CpuSequence` -/
structure CpuSequence (F D : Type) where
  sampling : SamplingOptions D
  prefilling : Bool
  prefillOnly : Bool
  generatedIndex : UInt64
  caches : List (LayerKvCache F)
  /-- Ghost: seed and counter of every random draw so far. -/
  draws : List (UInt64×UInt64)

/-- `DenseStage` -/
structure DenseStage (F : Type) where
  config : DenseConfig F
  vocab : ℕ
  layers : List (LayerWeights F)
  embedding : Matrix F
  head : Matrix F
  tiedHead : Bool
  firstStage : Bool
  finalStage : Bool
  norm : List F

namespace DenseStage

/-- `allocate_sequence` -/
def allocateSequence (stage : DenseStage F) (tokens : ℕ) (sampling : SamplingOptions D) :
    Except Failure (CpuSequence F D) :=
  if tokens=0 ∨ stage.config.maximumSequenceLength < tokens then
    .error (.error ⟨.invalidRequest,"request exceeds model context capacity"⟩)
  else .ok ⟨sampling,false,false,0,stage.layers.map fun _ =>
    .empty tokens stage.config.keyValueHeads stage.config.headDimension,[]⟩

/-- The row `embed` writes for one token. -/
def embedRow (stage : DenseStage F) (token : ℕ) : Except Failure (List F) :=
  if stage.vocab ≤ token then
    .error (.error ⟨.invalidRequest,"token ID exceeds vocabulary"⟩)
  else match stage.embedding.data[token]? with
    | none => .error (.outOfRange "matrix index is out of range")
    | some row =>
      if row.length < stage.config.hiddenSize then
        .error (.outOfRange "matrix index is out of range")
      else .ok (row.take stage.config.hiddenSize)

/-- Rows of a hidden activation, which have the hidden size. -/
def hiddenMatrix (stage : DenseStage F) (rows : List (List F)) : Except Failure (Matrix F) :=
  if h : ∀ row∈rows,row.length=stage.config.hiddenSize then
    .ok ⟨stage.config.hiddenSize,rows,h⟩
  else .error (.outOfRange "matrix index is out of range")

/-- `embed` -/
def embed (stage : DenseStage F) (ids : List ℕ) : Except Failure (Matrix F) := do
  if stage.embedding.rows=0 ∨ ids=[] ∨ stage.config.maximumSequenceLength < ids.length then
    .error (.error ⟨.invalidRequest,"stage cannot embed this input"⟩)
  let rows ← ids.mapM stage.embedRow
  stage.hiddenMatrix rows

variable [Scalar F]

/-- One element of a payload. -/
def wireElement (payload : List UInt8) (i : ℕ) : Except Failure F :=
  let value := Scalar.ofHalf ((payload.getD (2*i) 0).toUInt16 |||
    ((payload.getD (2*i+1) 0).toUInt16 <<< 8))
  if Scalar.finite value then .ok value
  else .error (.error ⟨.invalidRequest,"non-finite activation"⟩)

/-- What a boundary that is refused throws. The products of its sizes are checked
on the way; a payload in memory is never as long as one that does not fit. -/
def refusedBoundary (hiddenSize tokens width : ℕ) : Failure :=
  match CheckedSizes.checkedProduct tokens width with
  | .error error => .error error
  | .ok elements =>
    if width≠hiddenSize ∨ tokens=0 then
      .error ⟨.invalidRequest,"invalid boundary activation"⟩
    else match CheckedSizes.checkedProduct elements 2 with
      | .error error => .error error
      | .ok _ => .error ⟨.invalidRequest,"invalid boundary activation"⟩

/-- The input of a stage as a matrix: embedding or conversion from the wire. -/
def hiddenOf (stage : DenseStage F) : StageInput → Except Failure (Matrix F)
  | .tokens ids =>
    if !stage.firstStage then
      .error (.error ⟨.invalidRequest,"only stage zero accepts tokens"⟩)
    else stage.embed ids
  | .boundary tokens width payload =>
    if stage.firstStage then .error (.error ⟨.invalidRequest,"stage zero requires tokens"⟩)
    else if width≠stage.config.hiddenSize ∨ tokens=0 ∨ payload.length≠tokens*width*2 then
      .error (refusedBoundary stage.config.hiddenSize tokens width)
    else do
      let rows ← (List.range tokens).mapM fun row =>
        (List.range width).mapM fun column => wireElement payload (row*width+column)
      stage.hiddenMatrix rows

/-- The bytes of one row on the wire. -/
def wireRow (row : List F) : Except Failure (List UInt8) := do
  let bytes ← row.mapM fun value =>
    let bits := Scalar.toHalf value
    if Scalar.finite (Scalar.ofHalf bits : F) then
      .ok [(bits &&& 0xff).toUInt8,(bits >>> 8).toUInt8]
    else .error (.error ⟨.internal,"activation is not representable as finite FP16"⟩)
  pure bytes.flatten

/-- The last row of a hidden activation as a matrix. -/
def lastRow (hidden : Matrix F) : Except Failure (Matrix F) :=
  match h : hidden.data.getLast? with
  | none => .error (.error ⟨.invalidRequest,"stage cannot sample this activation"⟩)
  | some row => .ok ⟨hidden.columns,[row],by
      intro x hx
      rw [List.mem_singleton.mp hx]
      exact hidden.shape row (List.mem_of_getLast? h)⟩

/-- The head of the stage. -/
def outputHead (stage : DenseStage F) : Matrix F :=
  if stage.tiedHead then stage.embedding else stage.head

/-- `sample` -/
def sample (stage : DenseStage F) (hidden : Matrix F) : Except Failure ℕ := do
  if stage.norm=[] ∨ hidden.rows=0 ∨ hidden.columns≠stage.config.hiddenSize then
    .error (.error ⟨.invalidRequest,"stage cannot sample this activation"⟩)
  let last ← lastRow hidden
  let logits ← finalLogits last stage.norm stage.outputHead stage.config.rmsNormEpsilon
  greedySampleLast logits

/-- The end of `run` on the final stage. The counter is raised before the call
that may throw. -/
def finish [Double F D] (stage : DenseStage F) (sequence : CpuSequence F D) (hidden : Matrix F) :
    CpuSequence F D×Except Failure (StageOutput D) :=
  if sequence.prefillOnly then (sequence,.ok .progress)
  else if Double.eq sequence.sampling.temperature Double.zero &&
      !sequence.sampling.returnLogprobs then
    (sequence,(stage.sample hidden).map fun id => .sampled ⟨id,none,[]⟩)
  else
    let logits := (lastRow hidden).bind fun last =>
      finalLogits last stage.norm stage.outputHead stage.config.rmsNormEpsilon
    match logits with
    | .error failure => (sequence,.error failure)
    | .ok logits =>
      let raised := {sequence with generatedIndex := sequence.generatedIndex+1}
      match sampleToken logits.data.flatten sequence.sampling sequence.generatedIndex with
      | .error error => (raised,.error (.error error))
      | .ok (token,drawn) =>
        ({raised with draws := sequence.draws++drawn.toList},.ok (.sampled token))

/-- The end of `run` on the other stages. -/
def toWire (hidden : Matrix F) : Except Failure (StageOutput D) := do
  let bytes ← hidden.data.mapM wireRow
  pure (.boundary hidden.rows hidden.columns bytes.flatten)

/-- `execute`: `run` without profiling. -/
def execute [Double F D] (stage : DenseStage F) (input : StageInput) (position : ℕ)
    (sequence : CpuSequence F D) (cancelled : List Bool) :
    CpuSequence F D×Except Failure (StageOutput D) :=
  match stage.hiddenOf input with
  | .error failure => (sequence,.error failure)
  | .ok hidden =>
    let forwarded := forwardLayers stage.config position stage.layers sequence.caches cancelled
      hidden
    let sequence := {sequence with caches := forwarded.1}
    match forwarded.2 with
    | .error failure => (sequence,.error failure)
    | .ok hidden =>
      if stage.finalStage then stage.finish sequence hidden else (sequence,toWire hidden)

end DenseStage

end Hllm.CpuModel
