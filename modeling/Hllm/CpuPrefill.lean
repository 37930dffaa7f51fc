import Hllm.CpuModel
import Hllm.RowTransducers

/-!
# Chunked prefill on the CPU backend

A layer computes all rows of an input at once, but each row reads only the
cache up to its own position. So a layer is a row transducer over its cache,
a stage is a stack of them, and the chunks of a prompt leave the same caches
and rows as the whole prompt in one pass.
-/

namespace Hllm.CpuPrefill

open SamplingModel CpuModel RowTransducers

variable {F D : Type}

/-- Weights that pass their check. -/
structure ValidWeights (weights : LayerWeights F) (config : DenseConfig F) : Prop where
  queryNorm : config.queryKeyNorm=true → weights.queryNorm.length=config.headDimension
  keyNorm : config.queryKeyNorm=true → weights.keyNorm.length=config.headDimension
  inputNorm : weights.inputNorm.length=config.hiddenSize
  postNorm : weights.postAttentionNorm.length=config.hiddenSize
  query : weights.query.rows=config.attentionHeads*config.headDimension ∧
    weights.query.columns=config.hiddenSize
  key : weights.key.rows=config.keyValueHeads*config.headDimension ∧
    weights.key.columns=config.hiddenSize
  value : weights.value.rows=config.keyValueHeads*config.headDimension ∧
    weights.value.columns=config.hiddenSize
  output : weights.attentionOutput.rows=config.hiddenSize ∧
    weights.attentionOutput.columns=config.attentionHeads*config.headDimension
  gate : weights.gate.rows=config.intermediateSize ∧ weights.gate.columns=config.hiddenSize
  up : weights.up.rows=config.intermediateSize ∧ weights.up.columns=config.hiddenSize
  down : weights.down.rows=config.hiddenSize ∧ weights.down.columns=config.intermediateSize

/-- Checked weights are valid. -/
theorem validWeights_of_ok {weights : LayerWeights F} {config : DenseConfig F}
    (h : validateWeights weights config=.ok ()) : ValidWeights weights config := by
  unfold validateWeights at h
  dsimp only at h
  split at h
  · cases h
  · rename_i hnorms
    split at h
    · cases h
    · rename_i hshapes
      simp only [validMatrix,not_or,Bool.not_eq_true,Bool.not_eq_false',not_not,
        Bool.and_eq_true,decide_eq_true_eq] at hshapes
      simp only [validNorms,Bool.not_eq_true,Bool.not_eq_false'] at hnorms
      obtain ⟨hinput,hpost,hquery,hkey,hvalue,houtput,hgate,hup,hdown⟩ := hshapes
      refine ⟨fun hnorm => ?_,fun hnorm => ?_,hinput,hpost,hquery,hkey,hvalue,houtput,hgate,hup,
        hdown⟩
      · rw [if_pos hnorm,Bool.and_eq_true,decide_eq_true_eq] at hnorms
        exact hnorms.1
      · rw [if_pos hnorm,Bool.and_eq_true,decide_eq_true_eq,decide_eq_true_eq] at hnorms
        exact hnorms.2

/-- Chunks of rows that are consecutive parts of a matrix. -/
inductive Cuts : List (Matrix F) → Matrix F → Prop
  | one (m : Matrix F) (hm : m.rows≠0) : Cuts [m] m
  | cons {chunks : List (Matrix F)} {x y z : Matrix F} (hx : x.rows≠0)
      (hxz : x.columns=z.columns) (hyz : y.columns=z.columns) (hz : z.data=x.data++y.data)
      (hrest : Cuts chunks y) : Cuts (x::chunks) z

/-- What is cut is not empty. -/
theorem Cuts.nonempty {chunks : List (Matrix F)} {z : Matrix F} (h : Cuts chunks z) :
    z.rows≠0 := by
  cases h with
  | one _ hm => exact hm
  | cons hx _ _ hz _ =>
    rw [Matrix.rows,hz,List.length_append]
    have hcount : _≠0 := hx
    rw [Matrix.rows] at hcount
    omega

/-- The last row is the last row of the last chunk. -/
theorem Cuts.last {chunks : List (Matrix F)} {z : Matrix F} (h : Cuts chunks z) :
    ∃ chunk,chunks.getLast?=some chunk ∧ chunk.data.getLast?=z.data.getLast? := by
  induction h with
  | one m hm => exact ⟨m,rfl,rfl⟩
  | @cons chunks x y z hx hxz hyz hz hrest ih =>
    obtain ⟨chunk,hchunk,hlast⟩ := ih
    have hsome : chunks≠[] := by
      rintro rfl
      cases hrest
    have hrows : y.data≠[] := by
      intro hnil
      exact hrest.nonempty (by rw [Matrix.rows,hnil]; rfl)
    refine ⟨chunk,?_,?_⟩
    · rw [List.getLast?_cons_of_ne_nil hsome,hchunk]
    · rw [hlast,hz,List.getLast?_append_of_ne_nil _ hrows]

/-- Rows of an input. -/
def inputRows : StageInput → ℕ
  | .tokens ids => ids.length
  | .boundary tokens _ _ => tokens

/-- Inputs that are consecutive parts of one input. -/
inductive Joins : List StageInput → StageInput → Prop
  | one (input : StageInput) (h : inputRows input≠0) : Joins [input] input
  | tokens {inputs : List StageInput} {ids rest : List ℕ} (hids : ids≠[])
      (hrest : Joins inputs (.tokens rest)) : Joins (.tokens ids::inputs) (.tokens (ids++rest))
  | boundary {inputs : List StageInput} {n n' width : ℕ} {payload rest : List UInt8} (hn : n≠0)
      (hlength : payload.length=n*width*2) (hrest : Joins inputs (.boundary n' width rest)) :
      Joins (.boundary n width payload::inputs) (.boundary (n+n') width (payload++rest))

/-- What is joined is not empty. -/
theorem Joins.nonempty {inputs : List StageInput} {input : StageInput} (h : Joins inputs input) :
    inputRows input≠0 := by
  cases h with
  | one _ h => exact h
  | @tokens inputs ids rest hids hrest =>
    have hlength := List.length_pos_of_ne_nil hids
    rw [inputRows,List.length_append]
    omega
  | boundary hn hlength hrest =>
    rw [inputRows]
    omega

/-- There is an input. -/
theorem Joins.inputs {inputs : List StageInput} {input : StageInput} (h : Joins inputs input) :
    inputs≠[] := by
  cases h <;> exact List.cons_ne_nil _ _

/-- Mapping a list in two parts. -/
theorem mapM_append_ok {α β : Type} {f : α → Except Failure β} {xs ys : List α} {rows : List β} :
    (xs++ys).mapM f=.ok rows ↔
      ∃ a b,xs.mapM f=.ok a ∧ ys.mapM f=.ok b ∧ rows=a++b := by
  rw [List.mapM_append]
  cases xs.mapM f with
  | error failure => simp [bind,Except.bind]
  | ok a =>
    cases ys.mapM f with
    | error failure => simp [bind,Except.bind]
    | ok b =>
      simp only [bind,Except.bind,pure,Except.pure,Except.ok.injEq,exists_and_left,
        exists_eq_left']
      exact eq_comm

/-- Mapping depends on the values at the members. -/
theorem mapM_congr {α β : Type} {f g : α → Except Failure β} {xs : List α}
    (h : ∀ x∈xs,f x=g x) : xs.mapM f=xs.mapM g := by
  induction xs with
  | nil => rfl
  | cons x xs ih =>
    rw [List.mapM_cons,List.mapM_cons,h x (.head _),ih fun y hy => h y (.tail _ hy)]

/-- Rows of a hidden activation. -/
theorem hiddenMatrix_iff {stage : DenseStage F} {rows : List (List F)} {m : Matrix F} :
    stage.hiddenMatrix rows=.ok m ↔ (∀ row∈rows,row.length=stage.config.hiddenSize) ∧
      m.columns=stage.config.hiddenSize ∧ m.data=rows := by
  unfold DenseStage.hiddenMatrix
  split
  · rename_i h
    constructor
    · intro heq
      cases heq
      exact ⟨h,rfl,rfl⟩
    · rintro ⟨-,hcolumns,hdata⟩
      exact congrArg Except.ok (CpuModel.Matrix.ext hcolumns.symm hdata.symm)
  · rename_i h
    constructor
    · intro heq
      cases heq
    · rintro ⟨hrows,-⟩
      exact absurd hrows h

/-- A new sequence is empty and has room for no more than the context. -/
theorem allocateSequence_ok {stage : DenseStage F} {capacity : ℕ} {sampling : SamplingOptions D}
    {fresh : CpuSequence F D} (h : stage.allocateSequence capacity sampling=.ok fresh) :
    capacity ≤ stage.config.maximumSequenceLength ∧
      fresh.caches=stage.layers.map fun _ => LayerKvCache.empty capacity
        stage.config.keyValueHeads stage.config.headDimension := by
  unfold DenseStage.allocateSequence at h
  split at h
  · cases h
  · rename_i hchecks
    cases h
    rw [not_or,not_lt] at hchecks
    exact ⟨hchecks.2,rfl⟩

/-- The last row is that of any activation with the same last row. -/
theorem lastRow_congr {m m' : Matrix F} (hcolumns : m.columns=m'.columns)
    (hlast : m.data.getLast?=m'.data.getLast?) : DenseStage.lastRow m=DenseStage.lastRow m' := by
  unfold DenseStage.lastRow
  split
  · rename_i hnone
    rw [hlast] at hnone
    split
    · rfl
    · rename_i row hsome
      rw [hnone] at hsome
      cases hsome
  · rename_i row hsome
    split
    · rename_i hnone
      rw [hlast,hnone] at hsome
      cases hsome
    · rename_i row' hsome'
      rw [hlast,hsome'] at hsome
      cases hsome
      exact congrArg Except.ok (CpuModel.Matrix.ext hcolumns rfl)

variable [Scalar F]

/-- A configuration that passes its check. -/
structure ValidConfig (config : DenseConfig F) : Prop where
  hidden : config.hiddenSize≠0
  heads : config.attentionHeads≠0
  keyValueHeads : config.keyValueHeads≠0
  dimension : config.headDimension≠0
  epsilon : Scalar.le config.rmsNormEpsilon Scalar.zero=false
  theta : Scalar.le config.ropeTheta Scalar.zero=false
  even : config.headDimension%2=0

/-- Checked configurations are valid. -/
theorem validConfig_of_ok {config : DenseConfig F} (h : validateConfig config=.ok ()) :
    ValidConfig config := by
  unfold validateConfig at h
  split at h
  · cases h
  · rename_i hpositive
    split at h
    · cases h
    · rename_i hattention
      simp only [not_or,Bool.not_eq_true,not_not] at hpositive hattention
      obtain ⟨hhidden,-,hheads,hkeyValue,hdimension,-,hepsilon,htheta,-⟩ := hpositive
      exact ⟨hhidden,hheads,hkeyValue,hdimension,hepsilon,htheta,hattention.2.1⟩

section Operations

/-- `rms_norm` of matching parameters works row by row. -/
theorem rmsNorm_ok {input : Matrix F} {weights : List F} {epsilon : F}
    (hcolumns : input.columns=weights.length) (hepsilon : Scalar.le epsilon Scalar.zero=false) :
    ∃ m,rmsNorm input weights epsilon=.ok m ∧ m.columns=input.columns ∧
      m.data=input.data.map (rmsNormRow weights epsilon) := by
  unfold rmsNorm
  rw [dif_neg]
  · exact ⟨_,rfl,rfl,rfl⟩
  · simp [hcolumns,hepsilon]

/-- `linear` of matching widths works row by row. -/
theorem linear_ok {input weights : Matrix F} (hcolumns : input.columns=weights.columns) :
    ∃ m,linear input weights=.ok m ∧ m.columns=weights.rows ∧
      m.data=input.data.map (linearRow weights) := by
  unfold linear
  rw [if_neg (not_not.mpr hcolumns)]
  exact ⟨_,rfl,rfl,rfl⟩

/-- `apply_rope` rotates every row at its position. -/
theorem applyRope_ok {values : Matrix F} {heads dimension : ℕ} {theta : F} (first : ℕ)
    (hheads : heads≠0) (hdimension : dimension≠0) (heven : dimension%2=0)
    (hcolumns : values.columns=heads*dimension) (htheta : Scalar.le theta Scalar.zero=false) :
    ∃ m,applyRope values heads dimension first theta=.ok m ∧ m.columns=values.columns ∧
      m.data=values.data.mapIdx fun i row => ropeRow heads dimension theta (first+i) row := by
  unfold applyRope
  rw [dif_neg]
  · exact ⟨_,rfl,rfl,rfl⟩
  · simp [hheads,hdimension,heven,hcolumns,htheta]

/-- `add_in_place` of equal shapes works row by row. -/
theorem addInPlace_ok {destination source : Matrix F} (hrows : destination.rows=source.rows)
    (hcolumns : destination.columns=source.columns) :
    ∃ m,addInPlace destination source=.ok m ∧ m.columns=destination.columns ∧
      m.data=(destination.data.zip source.data).map fun x => addRow x.1 x.2 := by
  unfold addInPlace
  rw [dif_neg]
  · exact ⟨_,rfl,rfl,rfl⟩
  · simp [hrows,hcolumns]

/-- `attention` reads the cache up to each row's own position. -/
theorem attention_ok {queries : Matrix F} {config : DenseConfig F} {first : ℕ}
    {cache : LayerKvCache F} (hlength : first+queries.rows ≤ cache.length) :
    ∃ m,attention queries config first cache=.ok m ∧
      m.columns=config.attentionHeads*config.headDimension ∧
      m.data=queries.data.mapIdx fun i query =>
        attentionRow config (cache.keys.take (first+i+1)) (cache.values.take (first+i+1)) query := by
  unfold attention
  rw [if_neg (fun h => by omega)]
  exact ⟨_,rfl,rfl,rfl⟩

end Operations

/-- Normalization of the heads of one row, where the model has it. -/
def normedRow (config : DenseConfig F) (norm : List F) (columns : ℕ) (row : List F) : List F :=
  if config.queryKeyNorm then
    normalizeHeadsRow norm config.rmsNormEpsilon (columns/norm.length) row
  else row

/-- The query of one row. -/
def queryRow (weights : LayerWeights F) (config : DenseConfig F) (position : ℕ) (row : List F) :
    List F :=
  ropeRow config.attentionHeads config.headDimension config.ropeTheta position
    (normedRow config weights.queryNorm weights.query.rows
      (linearRow weights.query (rmsNormRow weights.inputNorm config.rmsNormEpsilon row)))

/-- The key of one row. -/
def keyRow (weights : LayerWeights F) (config : DenseConfig F) (position : ℕ) (row : List F) :
    List F :=
  ropeRow config.keyValueHeads config.headDimension config.ropeTheta position
    (normedRow config weights.keyNorm weights.key.rows
      (linearRow weights.key (rmsNormRow weights.inputNorm config.rmsNormEpsilon row)))

/-- The value of one row. -/
def valueRow (weights : LayerWeights F) (config : DenseConfig F) (row : List F) : List F :=
  linearRow weights.value (rmsNormRow weights.inputNorm config.rmsNormEpsilon row)

/-- One row after its attention. -/
def mixRow (weights : LayerWeights F) (config : DenseConfig F) (row attended : List F) : List F :=
  let hidden := addRow (linearRow weights.attentionOutput attended) row
  let post := rmsNormRow weights.postAttentionNorm config.rmsNormEpsilon hidden
  addRow hidden (linearRow weights.down
    (gateRow (linearRow weights.gate post) (linearRow weights.up post)))

/-- A cache with one more position. -/
def push (cache : LayerKvCache F) (key value : List F) : LayerKvCache F :=
  {cache with
    keys := cache.keys++[key]
    values := cache.values++[value]
    paired := by rw [List.length_append,List.length_append,cache.paired]; rfl}

/-- One row through a layer: write its key and value, then read all of them. -/
def rowStep (config : DenseConfig F) (weights : LayerWeights F) (cache : LayerKvCache F)
    (row : List F) : LayerKvCache F×List F :=
  let pushed := push cache (keyRow weights config cache.length row) (valueRow weights config row)
  (pushed,mixRow weights config row
    (attentionRow config pushed.keys pushed.values (queryRow weights config cache.length row)))

section Layer

variable (config : DenseConfig F) (weights : LayerWeights F) (cache : LayerKvCache F)

/-- Rows one by one: the cache they leave. -/
theorem scan_cache (rows : List (List F)) :
    (scan (rowStep config weights) cache rows).1.keys=cache.keys++
        rows.mapIdx (fun i row => keyRow weights config (cache.length+i) row) ∧
      (scan (rowStep config weights) cache rows).1.values=cache.values++
        rows.map (valueRow weights config) := by
  induction rows using List.reverseRecOn with
  | nil => simp [scan]
  | append_singleton rows row ih =>
    have hlength : (scan (rowStep config weights) cache rows).1.length=
        cache.length+rows.length := by
      rw [LayerKvCache.length,ih.1,List.length_append,List.length_mapIdx]
      rfl
    rw [scan_append,List.mapIdx_concat,List.map_append]
    simp only [scan,rowStep,push,hlength,ih.1,ih.2,List.append_assoc,List.map_cons,List.map_nil,
      and_self]

/-- Rows one by one: each reads the final cache up to its own position. -/
theorem scan_rows (rows : List (List F)) :
    (scan (rowStep config weights) cache rows).2=rows.mapIdx fun i row =>
      mixRow weights config row (attentionRow config
        ((scan (rowStep config weights) cache rows).1.keys.take (cache.length+i+1))
        ((scan (rowStep config weights) cache rows).1.values.take (cache.length+i+1))
        (queryRow weights config (cache.length+i) row)) := by
  induction rows using List.reverseRecOn with
  | nil => rfl
  | append_singleton rows row ih =>
    obtain ⟨hkeys,hvalues⟩ := scan_cache config weights cache rows
    have hkeysLength : (scan (rowStep config weights) cache rows).1.keys.length=
        cache.length+rows.length := by
      rw [hkeys,List.length_append,List.length_mapIdx]
      rfl
    have hvaluesLength : (scan (rowStep config weights) cache rows).1.values.length=
        cache.length+rows.length := by
      rw [(scan (rowStep config weights) cache rows).1.paired,hkeysLength]
    rw [scan_append,List.mapIdx_concat]
    simp only [scan]
    congr 1
    · rw [ih]
      refine List.ext_getElem (by simp) fun i hi hi' => ?_
      have hrow : i < rows.length := by simpa using hi'
      rw [List.getElem_mapIdx,List.getElem_mapIdx]
      simp only [rowStep,push]
      rw [List.take_append_of_le_length (by omega),List.take_append_of_le_length (by omega)]
    · simp only [rowStep,push,LayerKvCache.length,hkeysLength]
      rw [List.take_of_length_le (by simp [hkeysLength,LayerKvCache.length]),
        List.take_of_length_le (by simp [hvaluesLength,LayerKvCache.length])]

/-- The scan keeps the dimensions of the cache. -/
theorem scan_dimensions (rows : List (List F)) :
    (scan (rowStep config weights) cache rows).1.maximumSequenceLength=
        cache.maximumSequenceLength ∧
      (scan (rowStep config weights) cache rows).1.keyValueHeads=cache.keyValueHeads ∧
      (scan (rowStep config weights) cache rows).1.headDimension=cache.headDimension := by
  induction rows generalizing cache with
  | nil => exact ⟨rfl,rfl,rfl⟩
  | cons row rows ih => exact ih _

/-- The scan adds one position for each row. -/
theorem scan_cacheLength (rows : List (List F)) :
    (scan (rowStep config weights) cache rows).1.length=cache.length+rows.length := by
  rw [LayerKvCache.length,(scan_cache config weights cache rows).1,List.length_append,
    List.length_mapIdx]
  rfl

end Layer

/-- What a layer projects: `n` rows of a width at a position. -/
structure Projects (config : DenseConfig F) (weights : LayerWeights F) (cache : LayerKvCache F)
    (position n width : ℕ) : Prop where
  configured : validateConfig config=.ok ()
  weighted : validateWeights weights config=.ok ()
  hidden : width=config.hiddenSize
  nonempty : n≠0
  heads : cache.keyValueHeads=config.keyValueHeads
  dimension : cache.headDimension=config.headDimension
  next : position=cache.length
  context : position+n ≤ config.maximumSequenceLength

/-- What a layer accepts: rows it projects and its cache has room for. -/
structure Accepts (config : DenseConfig F) (weights : LayerWeights F) (cache : LayerKvCache F)
    (position n width : ℕ) : Prop extends Projects config weights cache position n width where
  capacity : cache.length+n ≤ cache.maximumSequenceLength

/-- Normalization of heads works row by row. -/
theorem normed_data (config : DenseConfig F) (norm : List F) (values : Matrix F) :
    (if config.queryKeyNorm then normalizeHeads values norm config.rmsNormEpsilon
      else values).data=values.data.map (normedRow config norm values.columns) := by
  unfold normedRow
  by_cases hnorm : config.queryKeyNorm=true
  · simp only [if_pos hnorm]
    rfl
  · simp only [if_neg hnorm,List.map_id']

/-- Normalization of heads keeps the width. -/
theorem normed_columns {config : DenseConfig F} {norm : List F} {values : Matrix F} {heads : ℕ}
    (hnorm : config.queryKeyNorm=true → norm.length=config.headDimension)
    (hdimension : config.headDimension≠0) (hcolumns : values.columns=heads*config.headDimension) :
    (if config.queryKeyNorm then normalizeHeads values norm config.rmsNormEpsilon
      else values).columns=heads*config.headDimension := by
  by_cases hnormed : config.queryKeyNorm=true
  · rw [if_pos hnormed]
    change values.columns/norm.length*norm.length=_
    rw [hnorm hnormed,hcolumns,Nat.mul_div_cancel _ (Nat.pos_of_ne_zero hdimension)]
  · rw [if_neg hnormed,hcolumns]

/-- Mapping rows before their positions are used. -/
theorem mapIdx_map {α β γ : Type} (f : ℕ → β → γ) (g : α → β) (rows : List α) :
    (rows.map g).mapIdx f=rows.mapIdx fun i row => f i (g row) := by
  refine List.ext_getElem (by simp) fun i hi hi' => ?_
  simp

section Projection

variable {config : DenseConfig F} {weights : LayerWeights F} {cache : LayerKvCache F}
variable {position : ℕ} {input : Matrix F}

/-- Queries, keys and values of accepted rows. -/
theorem project_ok (h : Projects config weights cache position input.rows input.columns) :
    ∃ queries keys values,project input weights config position cache=.ok (queries,keys,values) ∧
      queries.data=input.data.mapIdx (fun i row => queryRow weights config (position+i) row) ∧
      keys.data=input.data.mapIdx (fun i row => keyRow weights config (position+i) row) ∧
      keys.columns=config.keyValueHeads*config.headDimension ∧
      values.data=input.data.map (valueRow weights config) ∧
      values.columns=config.keyValueHeads*config.headDimension := by
  have hconfig := validConfig_of_ok h.configured
  have hweights := validWeights_of_ok h.weighted
  obtain ⟨normalized,hnormalized,hwidth,hrows⟩ := rmsNorm_ok
    (h.hidden.trans hweights.inputNorm.symm) hconfig.epsilon
  have hhidden := hwidth.trans h.hidden
  obtain ⟨queries,hqueries,hqueryWidth,hqueryRows⟩ :=
    linear_ok (hhidden.trans hweights.query.2.symm)
  obtain ⟨keys,hkeys,hkeyWidth,hkeyRows⟩ := linear_ok (hhidden.trans hweights.key.2.symm)
  obtain ⟨values,hvalues,hvalueWidth,hvalueRows⟩ := linear_ok (hhidden.trans hweights.value.2.symm)
  obtain ⟨rotatedQueries,hropeQueries,-,hropeQueryRows⟩ := applyRope_ok position hconfig.heads
    hconfig.dimension hconfig.even (normed_columns hweights.queryNorm hconfig.dimension
      (hqueryWidth.trans hweights.query.1)) hconfig.theta
  obtain ⟨rotatedKeys,hropeKeys,hropeKeyWidth,hropeKeyRows⟩ := applyRope_ok position
    hconfig.keyValueHeads hconfig.dimension hconfig.even (normed_columns hweights.keyNorm
      hconfig.dimension (hkeyWidth.trans hweights.key.1)) hconfig.theta
  refine ⟨rotatedQueries,rotatedKeys,values,?_,?_,?_,?_,?_,?_⟩
  · have hchecks : ¬(input.columns≠config.hiddenSize ∨ input.rows=0 ∨
        cache.keyValueHeads≠config.keyValueHeads ∨ cache.headDimension≠config.headDimension ∨
        position≠cache.length ∨ config.maximumSequenceLength < position ∨
        config.maximumSequenceLength-position < input.rows) := by
      have hcontext := h.context
      simp only [not_or,not_not,not_lt]
      exact ⟨h.hidden,h.nonempty,h.heads,h.dimension,h.next,by omega,by omega⟩
    unfold project
    rw [h.configured,h.weighted,if_neg hchecks,hnormalized]
    simp only [bind,Except.bind,hqueries,hkeys,hvalues,hropeQueries,hropeKeys]
    rfl
  · rw [hropeQueryRows,normed_data,hqueryRows,hrows,List.map_map,List.map_map,mapIdx_map,
      hqueryWidth]
    rfl
  · rw [hropeKeyRows,normed_data,hkeyRows,hrows,List.map_map,List.map_map,mapIdx_map,hkeyWidth]
    rfl
  · rw [hropeKeyWidth]
    exact normed_columns hweights.keyNorm hconfig.dimension (hkeyWidth.trans hweights.key.1)
  · rw [hvalueRows,hrows,List.map_map]
    rfl
  · exact hvalueWidth.trans hweights.value.1

/-- What `transformer_layer` does after the cache, on the rows it was given. -/
theorem mix_ok {queries : Matrix F} (hconfigured : validateConfig config=.ok ())
    (hweighted : validateWeights weights config=.ok ()) (hhidden : input.columns=config.hiddenSize)
    (hqueries : queries.rows=input.rows) (hlength : position+queries.rows ≤ cache.length) :
    ∃ m,mix input queries weights config position cache=.ok m ∧ m.columns=config.hiddenSize ∧
      m.data=(input.data.zip queries.data).mapIdx fun i x => mixRow weights config x.1
        (attentionRow config (cache.keys.take (position+i+1)) (cache.values.take (position+i+1))
          x.2) := by
  have hconfig := validConfig_of_ok hconfigured
  have hweights := validWeights_of_ok hweighted
  obtain ⟨attended,hattended,hattendedWidth,hattendedRows⟩ :=
    @attention_ok _ _ _ config _ _ hlength
  obtain ⟨projected,hprojected,hprojectedWidth,hprojectedRows⟩ :=
    linear_ok (hattendedWidth.trans hweights.output.2.symm)
  have hprojectedCount : projected.rows=input.rows := by
    rw [Matrix.rows,hprojectedRows,hattendedRows,List.length_map,List.length_mapIdx]
    exact hqueries
  obtain ⟨hidden,hhiddenOk,hhiddenWidth,hhiddenRows⟩ := addInPlace_ok hprojectedCount
    ((hprojectedWidth.trans hweights.output.1).trans hhidden.symm)
  have hwidth : hidden.columns=config.hiddenSize :=
    (hhiddenWidth.trans hprojectedWidth).trans hweights.output.1
  obtain ⟨post,hpost,hpostWidth,hpostRows⟩ := rmsNorm_ok
    (hwidth.trans hweights.postNorm.symm) hconfig.epsilon
  have hpostHidden := hpostWidth.trans hwidth
  obtain ⟨gated,hgated,hgatedWidth,hgatedRows⟩ := linear_ok
    (hpostHidden.trans hweights.gate.2.symm)
  obtain ⟨up,hup,hupWidth,hupRows⟩ := linear_ok (hpostHidden.trans hweights.up.2.symm)
  have hgateWidth : (gate gated up).columns=weights.down.columns := by
    have hmin : (gate gated up).columns=min gated.columns up.columns := rfl
    rw [hmin,hgatedWidth,hupWidth,hweights.gate.1,hweights.up.1,hweights.down.2,Nat.min_self]
  obtain ⟨down,hdown,hdownWidth,hdownRows⟩ := linear_ok hgateWidth
  have hgateRows : (gate gated up).data=(gated.data.zip up.data).map fun x => gateRow x.1 x.2 :=
    rfl
  have hcount : hidden.data.length=input.data.length := by
    rw [hhiddenRows,List.length_map,List.length_zip]
    exact (congrArg (min · _) hprojectedCount).trans (Nat.min_self _)
  have hdownCount : hidden.rows=down.rows := by
    rw [Matrix.rows,Matrix.rows,hdownRows,hgateRows,hgatedRows,hupRows,hpostRows]
    simp
  obtain ⟨result,hresult,hresultWidth,hresultRows⟩ := addInPlace_ok hdownCount
    (hwidth.trans (hdownWidth.trans hweights.down.1).symm)
  refine ⟨result,?_,hresultWidth.trans hwidth,?_⟩
  · unfold mix
    simp only [bind,Except.bind,hattended,hprojected,hhiddenOk,hpost,hgated,hup,hdown,hresult]
  · have hqueryCount : queries.data.length=input.data.length := hqueries
    refine List.ext_getElem ?_ fun i hi hi' => ?_
    · rw [hresultRows,hdownRows,hgateRows,hgatedRows,hupRows,hpostRows]
      simp [hcount,hqueryCount]
    · simp only [hresultRows,hdownRows,hgateRows,hgatedRows,hupRows,hpostRows,hhiddenRows,
        hprojectedRows,hattendedRows,List.getElem_map,List.getElem_zip,List.getElem_mapIdx]
      rfl

/-- An accepted layer is the scan of its rows. -/
theorem transformerLayer_ok (h : Accepts config weights cache position input.rows input.columns) :
    ∃ m,transformerLayer input weights config position cache=
        ((scan (rowStep config weights) cache input.data).1,.ok m) ∧ m.columns=input.columns ∧
      m.data=(scan (rowStep config weights) cache input.data).2 := by
  obtain ⟨queries,keys,values,hproject,hqueryRows,hkeyRows,hkeyWidth,hvalueRows,hvalueWidth⟩ :=
    project_ok h.toProjects
  obtain ⟨hscanKeys,hscanValues⟩ := scan_cache config weights cache input.data
  obtain ⟨hmaximum,hheads,hdimension⟩ := scan_dimensions config weights cache input.data
  have hkeyCount : keys.rows=input.rows := by
    rw [Matrix.rows,hkeyRows,List.length_mapIdx,Matrix.rows]
  have hvalueCount : values.rows=input.rows := by
    rw [Matrix.rows,hvalueRows,List.length_map,Matrix.rows]
  have happend : cache.append position keys values=
      .ok (scan (rowStep config weights) cache input.data).1 := by
    have hcapacity := h.capacity
    unfold LayerKvCache.append
    dsimp only
    rw [if_neg (not_not.mpr h.next),dif_neg,if_neg (by omega)]
    · refine congrArg _ (LayerKvCache.ext hmaximum.symm hheads.symm hdimension.symm ?_ ?_)
      · change cache.keys++keys.data=_
        rw [hscanKeys,hkeyRows,h.next]
      · change cache.values++values.data=_
        rw [hscanValues,hvalueRows]
    · rw [hkeyCount,hvalueCount,hkeyWidth,hvalueWidth,h.heads,h.dimension]
      simp
  have hqueryCount : queries.rows=input.rows := by
    rw [Matrix.rows,hqueryRows,List.length_mapIdx,Matrix.rows]
  have hlength : position+queries.rows ≤ (scan (rowStep config weights) cache input.data).1.length
      := by
    rw [scan_cacheLength,hqueryCount,h.next]
    exact Nat.le_refl _
  obtain ⟨m,hmix,hwidth,hdata⟩ := mix_ok h.configured h.weighted h.hidden hqueryCount hlength
  refine ⟨m,?_,hwidth.trans h.hidden.symm,?_⟩
  · unfold transformerLayer
    rw [hproject]
    simp only [happend,hmix]
  · rw [hdata,scan_rows,hqueryRows]
    refine List.ext_getElem (by simp) fun i hi hi' => ?_
    simp only [List.getElem_mapIdx,List.getElem_zip,h.next]

/-- Rows that were projected pass the checks. -/
theorem projects_of_ok {projected : Matrix F×Matrix F×Matrix F}
    (h : project input weights config position cache=.ok projected) :
    Projects config weights cache position input.rows input.columns := by
  unfold project at h
  cases hconfig : validateConfig config with
  | error failure =>
    rw [hconfig] at h
    cases h
  | ok _ =>
    cases hweights : validateWeights weights config with
    | error failure =>
      rw [hconfig,hweights] at h
      cases h
    | ok _ =>
      by_cases hchecks : input.columns≠config.hiddenSize ∨ input.rows=0 ∨
          cache.keyValueHeads≠config.keyValueHeads ∨
          cache.headDimension≠config.headDimension ∨ position≠cache.length ∨
          config.maximumSequenceLength < position ∨
          config.maximumSequenceLength-position < input.rows
      · rw [hconfig,hweights,if_pos hchecks] at h
        cases h
      · simp only [not_or,not_not,not_lt] at hchecks
        obtain ⟨hhidden,hsome,hheads,hdimension,hnext,hposition,hcontext⟩ := hchecks
        exact ⟨hconfig,hweights,hhidden,hsome,hheads,hdimension,hnext,by omega⟩

/-- A layer that succeeds accepted its rows. -/
theorem accepts_of_ok {cache' : LayerKvCache F} {m : Matrix F}
    (h : transformerLayer input weights config position cache=(cache',.ok m)) :
    Accepts config weights cache position input.rows input.columns := by
  unfold transformerLayer at h
  split at h
  · cases h
  · rename_i queries keys values hproject
    have hprojects := projects_of_ok hproject
    obtain ⟨queries',keys',values',hproject',-,hkeyRows,-⟩ := project_ok hprojects
    have hsame := hproject.symm.trans hproject'
    simp only [Except.ok.injEq,Prod.mk.injEq] at hsame
    obtain ⟨-,rfl,-⟩ := hsame
    refine ⟨hprojects,?_⟩
    split at h
    · cases h
    · rename_i written happend
      have hkeyCount : keys.rows=input.rows := by
        rw [Matrix.rows,hkeyRows,List.length_mapIdx,Matrix.rows]
      have hnonempty := hprojects.nonempty
      unfold LayerKvCache.append at happend
      dsimp only at happend
      split at happend
      · cases happend
      · split at happend
        · cases happend
        · split at happend
          · cases happend
          · omega

end Projection

/-- Every layer has a cache and accepts `n` rows at the position. -/
def Ready (config : DenseConfig F) (position n width : ℕ) :
    List (LayerWeights F) → List (LayerKvCache F) → Prop
  | [],_ => True
  | weights::layers,cache::caches =>
    Accepts config weights cache position n width ∧ Ready config position n width layers caches
  | _::_,[] => False

section Forward

variable {config : DenseConfig F} {layers : List (LayerWeights F)}
variable {caches : List (LayerKvCache F)} {position : ℕ}

/-- Layers that are ready are a stack of row transducers. -/
theorem forward_ok {input : Matrix F}
    (h : Ready config position input.rows input.columns layers caches) :
    ∃ m,forwardLayers config position layers caches [] input=
        ((stack (layers.map (rowStep config)) caches input.data).1,.ok m) ∧
      m.columns=input.columns ∧
      m.data=(stack (layers.map (rowStep config)) caches input.data).2 := by
  induction layers generalizing caches input with
  | nil => exact ⟨input,by cases caches <;> rfl,rfl,by cases caches <;> rfl⟩
  | cons weights layers ih =>
    cases caches with
    | nil => cases h
    | cons cache caches =>
      obtain ⟨hidden,hlayer,hwidth,hdata⟩ := transformerLayer_ok h.1
      have hrest : Ready config position hidden.rows hidden.columns layers caches := by
        rw [Matrix.rows,hdata,scan_length,hwidth]
        exact h.2
      obtain ⟨m,hforward,hcolumns,hrows⟩ := ih hrest
      rw [hdata] at hforward hrows
      refine ⟨m,?_,hcolumns.trans hwidth,hrows⟩
      rw [forwardLayers,List.headD_nil,if_neg Bool.false_ne_true]
      simp only [hlayer]
      rw [List.tail_nil,hforward]
      rfl

/-- Layers that succeed were ready, and no reading of the flag stopped them. -/
theorem ready_of_ok {input m : Matrix F} {caches' : List (LayerKvCache F)} {cancelled : List Bool}
    (h : forwardLayers config position layers caches cancelled input=(caches',.ok m)) :
    Ready config position input.rows input.columns layers caches ∧
      forwardLayers config position layers caches [] input=(caches',.ok m) := by
  induction layers generalizing caches caches' cancelled input with
  | nil => exact ⟨trivial,h⟩
  | cons weights layers ih =>
    cases caches with
    | nil =>
      rw [forwardLayers] at h
      split at h <;> cases h
    | cons cache caches =>
      rw [forwardLayers] at h
      split at h
      · cases h
      · cases hlayer : transformerLayer input weights config position cache with
        | mk cache' result =>
          simp only [hlayer] at h
          cases result with
          | error failure => cases h
          | ok hidden =>
            simp only [Prod.mk.injEq] at h
            have haccepts := accepts_of_ok hlayer
            obtain ⟨hidden',hlayer',hwidth,hdata⟩ := transformerLayer_ok haccepts
            obtain ⟨rfl,hsame⟩ := Prod.mk.inj (hlayer.symm.trans hlayer')
            cases hsame
            obtain ⟨hready,hforward⟩ := ih (Prod.ext rfl h.2)
            refine ⟨⟨haccepts,?_⟩,?_⟩
            · rw [Matrix.rows,hdata,scan_length,hwidth] at hready
              exact hready
            · rw [forwardLayers,List.headD_nil,if_neg Bool.false_ne_true]
              simp only [hlayer,List.tail_nil,hforward]
              exact Prod.ext h.1 rfl

/-- Layers of matching weights are ready on the caches of a new sequence. -/
theorem ready_fresh {capacity n : ℕ} (hconfig : validateConfig config=.ok ())
    (hweights : ∀ weights∈layers,validateWeights weights config=.ok ()) (hn : n≠0)
    (hfits : n ≤ capacity) (hcapacity : capacity ≤ config.maximumSequenceLength) :
    Ready config 0 n config.hiddenSize layers (layers.map fun _ =>
      LayerKvCache.empty capacity config.keyValueHeads config.headDimension) := by
  induction layers with
  | nil => trivial
  | cons weights layers ih =>
    have hcontext : 0+n ≤ config.maximumSequenceLength := by omega
    have hroom : 0+n ≤ capacity := by omega
    exact ⟨⟨⟨hconfig,hweights weights (.head _),rfl,hn,rfl,rfl,rfl,hcontext⟩,hroom⟩,
      ih fun x hx => hweights x (.tail _ hx)⟩

/-- A layer accepts rows in two parts. -/
theorem accepts_append {weights : LayerWeights F} {cache : LayerKvCache F} {n n' width : ℕ}
    (hn : n≠0) (hn' : n'≠0) {rows : List (List F)} (hrows : rows.length=n) :
    Accepts config weights cache position (n+n') width ↔
      Accepts config weights cache position n width ∧
        Accepts config weights (scan (rowStep config weights) cache rows).1 (position+n) n'
          width := by
  obtain ⟨hmaximum,hheads,hdimension⟩ := scan_dimensions config weights cache rows
  have hlength := scan_cacheLength config weights cache rows
  constructor
  · intro h
    have hcontext := h.context
    have hcapacity := h.capacity
    have hnext := h.next
    refine ⟨⟨⟨h.configured,h.weighted,h.hidden,hn,h.heads,h.dimension,h.next,by omega⟩,by omega⟩,
      ⟨h.configured,h.weighted,h.hidden,hn',by rw [hheads,h.heads],by rw [hdimension,h.dimension],
        by omega,by omega⟩,by omega⟩
  · rintro ⟨h,h'⟩
    have hcontext := h'.context
    have hcapacity := h'.capacity
    exact ⟨⟨h.configured,h.weighted,h.hidden,by omega,h.heads,h.dimension,h.next,by omega⟩,
      by omega⟩

/-- Layers are ready for rows in two parts. -/
theorem ready_append {n n' width : ℕ} (hn : n≠0) (hn' : n'≠0) {rows : List (List F)}
    (hrows : rows.length=n) :
    Ready config position (n+n') width layers caches ↔
      Ready config position n width layers caches ∧
        Ready config (position+n) n' width layers
          (stack (layers.map (rowStep config)) caches rows).1 := by
  induction layers generalizing caches rows with
  | nil => simp [Ready]
  | cons weights layers ih =>
    cases caches with
    | nil => simp [Ready]
    | cons cache caches =>
      have hscanned : (scan (rowStep config weights) cache rows).2.length=n := by
        rw [scan_length,hrows]
      have hnext := @ih caches _ hscanned
      simp only [List.map_cons,stack,Ready]
      rw [accepts_append hn hn' hrows,hnext]
      exact and_and_and_comm

/-- Layers keep the number of rows and their width. -/
theorem forward_shape {input m : Matrix F} {caches' : List (LayerKvCache F)}
    (h : forwardLayers config position layers caches [] input=(caches',.ok m)) :
    m.rows=input.rows ∧ m.columns=input.columns ∧
      (caches',m.data)=stack (layers.map (rowStep config)) caches input.data := by
  obtain ⟨m',hforward,hwidth,hdata⟩ := forward_ok (ready_of_ok h).1
  obtain ⟨rfl,hsame⟩ := Prod.mk.inj (h.symm.trans hforward)
  cases hsame
  exact ⟨by rw [Matrix.rows,hdata,stack_length,Matrix.rows],hwidth,by rw [hdata]⟩

/-- Rows in two parts leave the same caches and rows as all of them. -/
theorem forward_append {x y z : Matrix F} (hx : x.rows≠0) (hy : y.rows≠0)
    (hxz : x.columns=z.columns) (hyz : y.columns=z.columns) (hz : z.data=x.data++y.data)
    {caches' : List (LayerKvCache F)} {m : Matrix F} :
    forwardLayers config position layers caches [] z=(caches',.ok m) ↔
      ∃ middle mx my,forwardLayers config position layers caches [] x=(middle,.ok mx) ∧
        forwardLayers config (position+x.rows) layers middle [] y=(caches',.ok my) ∧
        m.columns=z.columns ∧ m.data=mx.data++my.data := by
  have hcount : z.rows=x.rows+y.rows := by
    rw [Matrix.rows,hz,List.length_append]
    rfl
  have hstack := stack_append (layers.map (rowStep config)) caches x.data y.data
  rw [←hz] at hstack
  constructor
  · intro h
    obtain ⟨hready,-⟩ := ready_of_ok h
    rw [hcount,ready_append hx hy rfl] at hready
    obtain ⟨-,hwidth,hsame⟩ := forward_shape h
    obtain ⟨mx,hforward,-,hdata⟩ := forward_ok (hxz ▸ hready.1)
    obtain ⟨my,hforward',-,hdata'⟩ := forward_ok (hyz ▸ hready.2)
    rw [hstack] at hsame
    obtain ⟨hcaches,hrows⟩ := Prod.mk.inj hsame
    refine ⟨_,mx,my,hforward,?_,hwidth,?_⟩
    · rw [hforward',hcaches]
    · rw [hrows,hdata,hdata']
  · rintro ⟨middle,mx,my,hforward,hforward',hwidth,hdata⟩
    obtain ⟨hready,-⟩ := ready_of_ok hforward
    obtain ⟨hready',-⟩ := ready_of_ok hforward'
    obtain ⟨-,-,hsame⟩ := forward_shape hforward
    obtain ⟨-,-,hsame'⟩ := forward_shape hforward'
    obtain ⟨rfl,hrows⟩ := Prod.mk.inj hsame
    obtain ⟨rfl,hrows'⟩ := Prod.mk.inj hsame'
    have hall : Ready config position z.rows z.columns layers caches := by
      rw [hcount,ready_append hx hy rfl]
      exact ⟨hxz ▸ hready,hyz ▸ hready'⟩
    obtain ⟨m',hforwardAll,hwidth',hdata'⟩ := forward_ok hall
    rw [hstack] at hforwardAll hdata'
    have hm : m=m' := by
      refine CpuModel.Matrix.ext (hwidth.trans hwidth'.symm) ?_
      rw [hdata,hdata',hrows,hrows']
    rw [hforwardAll,hm]

/-- Layers in two parts. -/
theorem forwardLayers_append (others : List (LayerWeights F)) (rest : List (LayerKvCache F))
    (hcaches : caches.length=layers.length) (input : Matrix F) :
    forwardLayers config position (layers++others) (caches++rest) [] input=
      match forwardLayers config position layers caches [] input with
      | (written,.error failure) => (written++rest,.error failure)
      | (written,.ok m) =>
        (written++(forwardLayers config position others rest [] m).1,
          (forwardLayers config position others rest [] m).2) := by
  induction layers generalizing caches input with
  | nil =>
    have hnil : caches=[] := List.length_eq_zero_iff.mp hcaches
    subst hnil
    rfl
  | cons weights layers ih =>
    cases caches with
    | nil => cases hcaches
    | cons cache caches =>
      have hrest : caches.length=layers.length := Nat.succ.inj hcaches
      simp only [List.cons_append,forwardLayers,List.headD_nil,Bool.false_eq_true,if_false,
        List.tail_nil]
      cases transformerLayer input weights config position cache with
      | mk cache' result =>
        cases result with
        | error failure => rfl
        | ok hidden =>
          simp only [ih hrest hidden]
          cases forwardLayers config position layers caches [] hidden with
          | mk written result' => cases result' <;> rfl

end Forward

/-- A mapped result comes from a result. -/
theorem exists_of_map_eq_ok {ε α β : Type} {f : α → β} {x : Except ε α} {y : β}
    (h : x.map f=.ok y) : ∃ a,x=.ok a ∧ f a=y := by
  cases x with
  | error e => cases h
  | ok a =>
    cases h
    exact ⟨a,rfl,rfl⟩

/-- Hidden rows in consecutive chunks through the layers of a stage. -/
def forwardChunks (config : DenseConfig F) (layers : List (LayerWeights F)) :
    ℕ → List (LayerKvCache F) → List (Matrix F) →
      List (LayerKvCache F)×Except Failure (List (Matrix F))
  | _,caches,[] => (caches,.ok [])
  | position,caches,chunk::chunks =>
    match forwardLayers config position layers caches [] chunk with
    | (caches,.error failure) => (caches,.error failure)
    | (caches,.ok m) =>
      let rest := forwardChunks config layers (position+chunk.rows) caches chunks
      (rest.1,rest.2.map (m::·))

/-- Chunks go through the layers as the whole does, and cut its result. -/
theorem forwardChunks_iff {config : DenseConfig F} {layers : List (LayerWeights F)}
    {chunks : List (Matrix F)} {z : Matrix F} (h : Cuts chunks z) (position : ℕ)
    (caches caches' : List (LayerKvCache F)) :
    (∀ m,forwardLayers config position layers caches [] z=(caches',.ok m) →
      ∃ ms,forwardChunks config layers position caches chunks=(caches',.ok ms) ∧ Cuts ms m) ∧
    ∀ ms,forwardChunks config layers position caches chunks=(caches',.ok ms) →
      ∃ m,forwardLayers config position layers caches [] z=(caches',.ok m) ∧ Cuts ms m := by
  induction h generalizing position caches with
  | one z hz =>
    constructor
    · intro m hm
      refine ⟨[m],?_,.one m ?_⟩
      · simp only [forwardChunks,hm]
        rfl
      · rw [(forward_shape hm).1]
        exact hz
    · intro ms hms
      simp only [forwardChunks] at hms
      split at hms
      · cases hms
      · rename_i written m hm
        cases hms
        refine ⟨m,hm,.one m ?_⟩
        rw [(forward_shape hm).1]
        exact hz
  | @cons chunks x y z hx hxz hyz hz hrest ih =>
    constructor
    · intro m hm
      obtain ⟨middle,mx,my,hforward,hforward',hwidth,hdata⟩ :=
        (forward_append hx hrest.nonempty hxz hyz hz).mp hm
      obtain ⟨ms,hms,hcuts⟩ := (ih (position+x.rows) middle).1 my hforward'
      obtain ⟨hcount,hcolumns,-⟩ := forward_shape hforward
      obtain ⟨-,hcolumns',-⟩ := forward_shape hforward'
      refine ⟨mx::ms,?_,.cons (hcount ▸ hx) ?_ ?_ hdata hcuts⟩
      · simp only [forwardChunks,hforward,hms]
        rfl
      · rw [hcolumns,hxz,hwidth]
      · rw [hcolumns',hyz,hwidth]
    · intro ms hms
      simp only [forwardChunks] at hms
      split at hms
      · cases hms
      · rename_i middle mx hforward
        obtain ⟨hcaches,hresult⟩ := Prod.mk.inj hms
        obtain ⟨ms',hms',rfl⟩ := exists_of_map_eq_ok hresult
        obtain ⟨my,hforward',hcuts⟩ := (ih (position+x.rows) middle).2 ms'
          (Prod.ext hcaches hms')
        obtain ⟨hcount,hcolumns,-⟩ := forward_shape hforward
        obtain ⟨-,hcolumns',-⟩ := forward_shape hforward'
        let m : Matrix F := ⟨z.columns,mx.data++my.data,by
          intro row hrow
          rcases List.mem_append.mp hrow with hrow|hrow
          · rw [mx.shape row hrow,hcolumns,hxz]
          · rw [my.shape row hrow,hcolumns',hyz]⟩
        refine ⟨m,?_,.cons (hcount ▸ hx) ?_ ?_ rfl hcuts⟩
        · exact (forward_append hx hrest.nonempty hxz hyz hz).mpr
            ⟨middle,mx,my,hforward,hforward',rfl,rfl⟩
        · exact hcolumns.trans hxz
        · exact hcolumns'.trans hyz

section Inputs

variable {stage : DenseStage F}

/-- Checks of a stage on an input. -/
def Admits (stage : DenseStage F) : StageInput → Prop
  | .tokens ids => stage.firstStage=true ∧ stage.embedding.rows≠0 ∧ ids≠[] ∧
      ids.length ≤ stage.config.maximumSequenceLength
  | .boundary tokens width payload => stage.firstStage=false ∧ width=stage.config.hiddenSize ∧
      tokens≠0 ∧ payload.length=tokens*width*2

/-- Rows of an input before their matrix is built. -/
def rowsOf (stage : DenseStage F) : StageInput → Except Failure (List (List F))
  | .tokens ids => ids.mapM stage.embedRow
  | .boundary tokens width payload => (List.range tokens).mapM fun row =>
      (List.range width).mapM fun column => DenseStage.wireElement payload (row*width+column)

/-- The input of a stage as a matrix. -/
theorem hiddenOf_iff {input : StageInput} {m : Matrix F} :
    stage.hiddenOf input=.ok m ↔ Admits stage input ∧ rowsOf stage input=.ok m.data ∧
      (∀ row∈m.data,row.length=stage.config.hiddenSize) ∧ m.columns=stage.config.hiddenSize := by
  have hbuild : ∀ {rows : Except Failure (List (List F))},
      rows.bind stage.hiddenMatrix=.ok m ↔ rows=.ok m.data ∧
        (∀ row∈m.data,row.length=stage.config.hiddenSize) ∧
          m.columns=stage.config.hiddenSize := by
    intro rows
    cases rows with
    | error failure => simp [Except.bind]
    | ok rows =>
      rw [Except.bind,hiddenMatrix_iff]
      constructor
      · rintro ⟨hrows,hcolumns,rfl⟩
        exact ⟨rfl,hrows,hcolumns⟩
      · rintro ⟨heq,hrows,hcolumns⟩
        cases heq
        exact ⟨hrows,hcolumns,rfl⟩
  cases input with
  | tokens ids =>
    rw [DenseStage.hiddenOf]
    by_cases hfirst : stage.firstStage=true
    · by_cases hchecks : stage.embedding.rows=0 ∨ ids=[] ∨
          stage.config.maximumSequenceLength < ids.length
      · rw [if_neg (by simp [hfirst]),DenseStage.embed,if_pos hchecks]
        constructor
        · intro heq
          cases heq
        · rintro ⟨⟨-,hrows,hids,hlength⟩,-⟩
          rcases hchecks with hchecks|hchecks|hchecks
          · exact absurd hchecks hrows
          · exact absurd hchecks hids
          · omega
      · rw [if_neg (by simp [hfirst]),DenseStage.embed,if_neg hchecks]
        simp only [not_or,not_lt] at hchecks
        have hadmits : Admits stage (.tokens ids) := ⟨hfirst,hchecks⟩
        exact hbuild.trans ⟨fun h => ⟨hadmits,h⟩,fun h => h.2⟩
    · rw [if_pos (by simp [hfirst])]
      constructor
      · intro heq
        cases heq
      · rintro ⟨⟨hfirst',-⟩,-⟩
        exact absurd hfirst' hfirst
  | boundary tokens width payload =>
    rw [DenseStage.hiddenOf]
    by_cases hfirst : stage.firstStage=true
    · rw [if_pos hfirst]
      constructor
      · intro heq
        cases heq
      · rintro ⟨⟨hfirst',-⟩,-⟩
        rw [hfirst] at hfirst'
        cases hfirst'
    · rw [if_neg hfirst]
      by_cases hchecks : width≠stage.config.hiddenSize ∨ tokens=0 ∨
          payload.length≠tokens*width*2
      · rw [if_pos hchecks]
        constructor
        · intro heq
          cases heq
        · rintro ⟨⟨-,hwidth,htokens,hlength⟩,-⟩
          rcases hchecks with hchecks|hchecks|hchecks
          · exact absurd hwidth hchecks
          · exact absurd hchecks htokens
          · exact absurd hlength hchecks
      · rw [if_neg hchecks]
        simp only [not_or,not_not] at hchecks
        have hadmits : Admits stage (.boundary tokens width payload) :=
          ⟨Bool.not_eq_true _ ▸ hfirst,hchecks⟩
        exact hbuild.trans ⟨fun h => ⟨hadmits,h⟩,fun h => h.2⟩

/-- Inputs in two parts. -/
theorem hiddenOf_append {whole a b : StageInput}
    (hadmits : Admits stage whole ↔ Admits stage a ∧ Admits stage b)
    (hrows : ∀ rows,rowsOf stage whole=.ok rows ↔
      ∃ ra rb,rowsOf stage a=.ok ra ∧ rowsOf stage b=.ok rb ∧ rows=ra++rb) {z : Matrix F} :
    stage.hiddenOf whole=.ok z ↔ ∃ x y,stage.hiddenOf a=.ok x ∧ stage.hiddenOf b=.ok y ∧
      x.columns=z.columns ∧ y.columns=z.columns ∧ z.data=x.data++y.data := by
  constructor
  · intro h
    obtain ⟨hwhole,hdata,hshape,hcolumns⟩ := hiddenOf_iff.mp h
    obtain ⟨ha,hb⟩ := hadmits.mp hwhole
    obtain ⟨ra,rb,hra,hrb,hsplit⟩ := (hrows z.data).mp hdata
    have hshapeA : ∀ row∈ra,row.length=stage.config.hiddenSize := fun row hrow =>
      hshape row (by rw [hsplit]; exact List.mem_append_left _ hrow)
    have hshapeB : ∀ row∈rb,row.length=stage.config.hiddenSize := fun row hrow =>
      hshape row (by rw [hsplit]; exact List.mem_append_right _ hrow)
    exact ⟨⟨_,ra,hshapeA⟩,⟨_,rb,hshapeB⟩,hiddenOf_iff.mpr ⟨ha,hra,hshapeA,rfl⟩,
      hiddenOf_iff.mpr ⟨hb,hrb,hshapeB,rfl⟩,hcolumns.symm,hcolumns.symm,hsplit⟩
  · rintro ⟨x,y,hx,hy,hxz,-,hdata⟩
    obtain ⟨ha,hra,hshapeA,hcolumns⟩ := hiddenOf_iff.mp hx
    obtain ⟨hb,hrb,hshapeB,-⟩ := hiddenOf_iff.mp hy
    refine hiddenOf_iff.mpr ⟨hadmits.mpr ⟨ha,hb⟩,(hrows z.data).mpr ⟨_,_,hra,hrb,hdata⟩,?_,
      hxz.symm.trans hcolumns⟩
    intro row hrow
    rw [hdata] at hrow
    rcases List.mem_append.mp hrow with hrow|hrow
    · exact hshapeA row hrow
    · exact hshapeB row hrow

/-- Tokens in two parts. -/
theorem hiddenOf_tokens {ids rest : List ℕ} (hids : ids≠[]) (hrest : rest≠[])
    (hfits : (ids++rest).length ≤ stage.config.maximumSequenceLength) {z : Matrix F} :
    stage.hiddenOf (.tokens (ids++rest))=.ok z ↔
      ∃ x y,stage.hiddenOf (.tokens ids)=.ok x ∧ stage.hiddenOf (.tokens rest)=.ok y ∧
        x.columns=z.columns ∧ y.columns=z.columns ∧ z.data=x.data++y.data := by
  have hlength : ids.length+rest.length ≤ stage.config.maximumSequenceLength := by
    rw [←List.length_append]
    exact hfits
  refine hiddenOf_append ?_ fun rows => ?_
  · constructor
    · rintro ⟨hfirst,hrows,-,-⟩
      exact ⟨⟨hfirst,hrows,hids,by omega⟩,hfirst,hrows,hrest,by omega⟩
    · rintro ⟨⟨hfirst,hrows,-,-⟩,-⟩
      exact ⟨hfirst,hrows,List.append_ne_nil_of_left_ne_nil hids _,hfits⟩
  · simp only [rowsOf]
    exact mapM_append_ok

/-- Bytes of the first part of a payload. -/
theorem wireElement_left {payload rest : List UInt8} {i : ℕ} (h : 2*i+1 < payload.length) :
    (DenseStage.wireElement (payload++rest) i : Except Failure F)=
      DenseStage.wireElement payload i := by
  unfold DenseStage.wireElement
  rw [List.getD_append _ _ _ _ (by omega),List.getD_append _ _ _ _ h]

/-- Bytes of the second part of a payload. -/
theorem wireElement_right {payload rest : List UInt8} {i j : ℕ} (h : payload.length=2*j) :
    (DenseStage.wireElement (payload++rest) (j+i) : Except Failure F)=
      DenseStage.wireElement rest i := by
  unfold DenseStage.wireElement
  rw [List.getD_append_right _ _ _ _ (by omega),List.getD_append_right _ _ _ _ (by omega)]
  have hlow : 2*(j+i)-payload.length=2*i := by omega
  have hhigh : 2*(j+i)+1-payload.length=2*i+1 := by omega
  rw [hlow,hhigh]

/-- A boundary activation in two parts. -/
theorem hiddenOf_boundary {n n' width : ℕ} {payload rest : List UInt8} (hn : n≠0) (hn' : n'≠0)
    (hlength : payload.length=n*width*2) {z : Matrix F} :
    stage.hiddenOf (.boundary (n+n') width (payload++rest))=.ok z ↔
      ∃ x y,stage.hiddenOf (.boundary n width payload)=.ok x ∧
        stage.hiddenOf (.boundary n' width rest)=.ok y ∧
        x.columns=z.columns ∧ y.columns=z.columns ∧ z.data=x.data++y.data := by
  refine hiddenOf_append ?_ fun rows => ?_
  · simp only [Admits,List.length_append,hlength,Nat.add_mul]
    constructor
    · rintro ⟨hfirst,hwidth,-,htotal⟩
      exact ⟨⟨hfirst,hwidth,hn,trivial⟩,hfirst,hwidth,hn',by omega⟩
    · rintro ⟨⟨hfirst,hwidth,-⟩,-,-,-,htotal⟩
      exact ⟨hfirst,hwidth,by omega,by omega⟩
  · have hleft : ((List.range n).mapM fun row => (List.range width).mapM fun column =>
        (DenseStage.wireElement (payload++rest) (row*width+column) : Except Failure F))=
        rowsOf stage (.boundary n width payload) := by
      refine mapM_congr fun row hrow => mapM_congr fun column hcolumn => wireElement_left ?_
      rw [List.mem_range] at hrow hcolumn
      have hbound : (row+1)*width ≤ n*width := Nat.mul_le_mul_right width hrow
      rw [Nat.add_mul] at hbound
      omega
    have hright : (((List.range n').map (n+·)).mapM fun row => (List.range width).mapM
        fun column =>
          (DenseStage.wireElement (payload++rest) (row*width+column) : Except Failure F))=
        rowsOf stage (.boundary n' width rest) := by
      rw [List.mapM_map]
      refine mapM_congr fun row hrow => mapM_congr fun column hcolumn => ?_
      have hindex : (n+row)*width+column=n*width+(row*width+column) := by
        rw [Nat.add_mul,Nat.add_assoc]
      rw [hindex]
      exact wireElement_right (by omega)
    rw [rowsOf,List.range_add,mapM_append_ok,hleft,hright]

end Inputs

/-- Consecutive inputs of a prompt, with the flags the handlers set. -/
def prefill [Double F D] (stage : DenseStage F) :
    ℕ → CpuSequence F D → List StageInput → CpuSequence F D×Except Failure (List (StageOutput D))
  | _,sequence,[] => (sequence,.ok [])
  | position,sequence,input::inputs =>
    match stage.execute input position
        {sequence with prefilling := true, prefillOnly := !inputs.isEmpty} [] with
    | (sequence,.error failure) => (sequence,.error failure)
    | (sequence,.ok output) =>
      let rest := prefill stage (position+inputRows input) sequence inputs
      (rest.1,rest.2.map (output::·))

/-- Outputs for consecutive inputs that amount to one output. -/
inductive Merges : List (StageOutput D) → StageOutput D → Prop
  | one (output : StageOutput D) : Merges [output] output
  | progress {outputs : List (StageOutput D)} {output : StageOutput D}
      (h : Merges outputs output) : Merges (.progress::outputs) output
  | boundary {outputs : List (StageOutput D)} {n n' width : ℕ} {payload rest : List UInt8}
      (h : Merges outputs (.boundary n' width rest)) :
      Merges (.boundary n width payload::outputs) (.boundary (n+n') width (payload++rest))

/-- A token is sampled from the prompt exactly if it is from the last input. -/
theorem Merges.sampled_iff {outputs : List (StageOutput D)} {output : StageOutput D}
    (h : Merges outputs output) (token : SampledToken D) :
    output=.sampled token ↔ outputs.getLast?=some (.sampled token) := by
  induction h with
  | one output =>
    rw [List.getLast?_singleton]
    exact (Option.some.injEq _ _).symm ▸ Iff.rfl
  | @progress outputs output h ih =>
    have hsome : outputs≠[] := by
      cases h <;> exact List.cons_ne_nil _ _
    rw [ih,List.getLast?_cons_of_ne_nil hsome]
  | @boundary outputs n n' width payload rest h ih =>
    have hsome : outputs≠[] := by
      cases h <;> exact List.cons_ne_nil _ _
    rw [List.getLast?_cons_of_ne_nil hsome,←ih]
    constructor <;> intro heq <;> cases heq

/-- Wire bytes in two parts. -/
theorem toWire_append {m mx my : Matrix F} (hmx : mx.columns=m.columns)
    (hmy : my.columns=m.columns) (hdata : m.data=mx.data++my.data) {output : StageOutput D} :
    DenseStage.toWire m=.ok output ↔ ∃ payload rest,
      DenseStage.toWire mx=.ok (.boundary mx.rows m.columns payload : StageOutput D) ∧
      DenseStage.toWire my=.ok (.boundary my.rows m.columns rest : StageOutput D) ∧
      output=.boundary (mx.rows+my.rows) m.columns (payload++rest) := by
  have hcount : m.rows=mx.rows+my.rows := by
    rw [Matrix.rows,hdata,List.length_append]
    rfl
  unfold DenseStage.toWire
  rw [hdata,List.mapM_append,hcount,hmx,hmy]
  cases mx.data.mapM DenseStage.wireRow with
  | error failure => simp [bind,Except.bind]
  | ok a =>
    cases my.data.mapM DenseStage.wireRow with
    | error failure => simp [bind,Except.bind]
    | ok b =>
      simp only [bind,Except.bind,pure,Except.pure,Except.ok.injEq,StageOutput.boundary.injEq,
        true_and,List.flatten_append]
      constructor
      · intro h
        exact ⟨_,_,rfl,rfl,h.symm⟩
      · rintro ⟨_,_,rfl,rfl,h⟩
        exact h.symm

section Execute

variable [Double F D] {stage : DenseStage F}

/-- What a successful call does. -/
theorem execute_iff {input : StageInput} {position : ℕ} {sequence sequence' : CpuSequence F D}
    {output : StageOutput D} :
    stage.execute input position sequence []=(sequence',.ok output) ↔
      ∃ x caches m,stage.hiddenOf input=.ok x ∧
        forwardLayers stage.config position stage.layers sequence.caches [] x=(caches,.ok m) ∧
        (if stage.finalStage then stage.finish {sequence with caches := caches} m
          else ({sequence with caches := caches},DenseStage.toWire m))=(sequence',.ok output) := by
  unfold DenseStage.execute
  cases hinput : stage.hiddenOf input with
  | error failure => simp
  | ok x =>
    cases hforward : forwardLayers stage.config position stage.layers sequence.caches [] x with
    | mk caches result =>
      cases result with
      | error failure => simp [hforward]
      | ok m =>
        simp only [hforward]
        constructor
        · intro h
          exact ⟨x,caches,m,rfl,hforward,h⟩
        · rintro ⟨x',caches',m',hinput',hforward',h⟩
          cases hinput'
          obtain ⟨hcaches,hm⟩ := Prod.mk.inj (hforward.symm.trans hforward')
          cases hcaches
          cases hm
          exact h

/-- The end of a pass depends on the last row alone. -/
theorem finish_congr {m m' : Matrix F} (sequence : CpuSequence F D) (hm : m.rows≠0)
    (hm' : m'.rows≠0) (hcolumns : m.columns=m'.columns)
    (hlast : m.data.getLast?=m'.data.getLast?) :
    stage.finish sequence m=stage.finish sequence m' := by
  unfold DenseStage.finish DenseStage.sample
  rw [lastRow_congr hcolumns hlast,hcolumns]
  simp only [hm,hm']

/-- A sequence in a prefill, with or without more inputs of the prompt. -/
def flagged (sequence : CpuSequence F D) (more : Bool) : CpuSequence F D :=
  {sequence with prefilling := true, prefillOnly := more}

/-- Two outputs that amount to one. -/
def Merge (first second output : StageOutput D) : Prop :=
  first=.progress ∧ output=second ∨ ∃ n n' width payload rest,first=.boundary n width payload ∧
    second=.boundary n' width rest ∧ output=.boundary (n+n') width (payload++rest)

/-- The activation of an input has its rows. -/
theorem hiddenOf_rows {input : StageInput} {x : Matrix F} (h : stage.hiddenOf input=.ok x) :
    x.rows=inputRows input := by
  have hlength : ∀ {α : Type} {f : α → Except Failure (List F)} {xs : List α}
      {rows : List (List F)},xs.mapM f=.ok rows → rows.length=xs.length := by
    intro α f xs
    induction xs with
    | nil =>
      intro rows hrows
      cases hrows
      rfl
    | cons y xs ih =>
      intro rows hrows
      have hsplit : ([y]++xs).mapM f=.ok rows := hrows
      obtain ⟨a,b,ha,hb,rfl⟩ := mapM_append_ok.mp hsplit
      rw [List.length_append,ih hb,List.length_cons]
      rw [List.mapM_cons,List.mapM_nil] at ha
      cases hy : f y with
      | error failure =>
        rw [hy] at ha
        cases ha
      | ok row =>
        rw [hy] at ha
        cases ha
        exact Nat.add_comm 1 _
  obtain ⟨-,hrows,-,-⟩ := hiddenOf_iff.mp h
  cases input with
  | tokens ids => exact hlength hrows
  | boundary tokens width payload => exact (hlength hrows).trans List.length_range

section Two

variable {whole a b : StageInput} (ha : inputRows a≠0) (hb : inputRows b≠0)
variable (hsplit : ∀ z,stage.hiddenOf whole=.ok z ↔ ∃ x y,stage.hiddenOf a=.ok x ∧
  stage.hiddenOf b=.ok y ∧ x.columns=z.columns ∧ y.columns=z.columns ∧ z.data=x.data++y.data)

include ha hb hsplit

/-- A whole input amounts to its two parts. -/
theorem execute_split {position : ℕ} {sequence s : CpuSequence F D} {output : StageOutput D}
    (h : stage.execute whole position (flagged sequence false) []=(s,.ok output)) :
    ∃ s' first second,
      stage.execute a position (flagged sequence true) []=(s',.ok first) ∧
      stage.execute b (position+inputRows a) (flagged s' false) []=(s,.ok second) ∧
      Merge first second output := by
  obtain ⟨z,caches,m,hz,hforward,hend⟩ := execute_iff.mp h
  obtain ⟨x,y,hx,hy,hxz,hyz,hdata⟩ := (hsplit z).mp hz
  have hxRows := hiddenOf_rows hx
  have hyRows := hiddenOf_rows hy
  obtain ⟨middle,mx,my,hforwardX,hforwardY,hwidth,hrows⟩ :=
    (forward_append (hxRows ▸ ha) (hyRows ▸ hb) hxz hyz hdata).mp hforward
  rw [hxRows] at hforwardY
  obtain ⟨hmxRows,hmxColumns,-⟩ := forward_shape hforwardX
  obtain ⟨hmyRows,hmyColumns,-⟩ := forward_shape hforwardY
  have hmxm : mx.columns=m.columns := (hmxColumns.trans hxz).trans hwidth.symm
  have hmym : my.columns=m.columns := (hmyColumns.trans hyz).trans hwidth.symm
  have hmy : my.data≠[] := by
    intro hnil
    have hzero : my.rows=0 := by rw [Matrix.rows,hnil]; rfl
    exact hb (by rw [←hyRows,←hmyRows,hzero])
  by_cases hfinal : stage.finalStage=true
  · rw [if_pos hfinal] at hend
    refine ⟨{flagged sequence true with caches := middle},.progress,output,?_,?_,.inl ⟨rfl,rfl⟩⟩
    · refine execute_iff.mpr ⟨x,middle,mx,hx,hforwardX,?_⟩
      rw [if_pos hfinal]
      rfl
    · refine execute_iff.mpr ⟨y,caches,my,hy,hforwardY,?_⟩
      rw [if_pos hfinal,←hend]
      refine (finish_congr _ ?_ ?_ hmym.symm ?_).symm
      · rw [Matrix.rows,hrows,List.length_append]
        have hpos := List.length_pos_of_ne_nil hmy
        omega
      · have hpos := List.length_pos_of_ne_nil hmy
        rw [Matrix.rows]
        omega
      · rw [hrows,List.getLast?_append_of_ne_nil _ hmy]
  · rw [if_neg hfinal] at hend
    obtain ⟨hs,hwire⟩ := Prod.mk.inj hend
    obtain ⟨payload,rest,hwireX,hwireY,rfl⟩ := (toWire_append hmxm hmym hrows).mp hwire
    refine ⟨{flagged sequence true with caches := middle},_,_,?_,?_,
      .inr ⟨_,_,_,payload,rest,rfl,rfl,rfl⟩⟩
    · refine execute_iff.mpr ⟨x,middle,mx,hx,hforwardX,?_⟩
      rw [if_neg hfinal,hwireX]
    · refine execute_iff.mpr ⟨y,caches,my,hy,hforwardY,?_⟩
      rw [if_neg hfinal,hwireY,←hs]
      rfl

/-- Two parts amount to the whole input. -/
theorem execute_join {position : ℕ} {sequence s' s : CpuSequence F D}
    {first second : StageOutput D}
    (hfirst : stage.execute a position (flagged sequence true) []=(s',.ok first))
    (hsecond : stage.execute b (position+inputRows a) (flagged s' false) []=(s,.ok second)) :
    ∃ output,stage.execute whole position (flagged sequence false) []=(s,.ok output) ∧
      Merge first second output := by
  obtain ⟨x,middle,mx,hx,hforwardX,hendX⟩ := execute_iff.mp hfirst
  obtain ⟨y,caches,my,hy,hforwardY,hendY⟩ := execute_iff.mp hsecond
  have hxRows := hiddenOf_rows hx
  have hyRows := hiddenOf_rows hy
  obtain ⟨-,-,hxShape,hxColumns⟩ := hiddenOf_iff.mp hx
  obtain ⟨-,-,hyShape,hyColumns⟩ := hiddenOf_iff.mp hy
  obtain ⟨hmxRows,hmxColumns,-⟩ := forward_shape hforwardX
  obtain ⟨hmyRows,hmyColumns,-⟩ := forward_shape hforwardY
  let z : Matrix F := ⟨stage.config.hiddenSize,x.data++y.data,by
    intro row hrow
    exact (List.mem_append.mp hrow).elim (hxShape row) (hyShape row)⟩
  have hz : stage.hiddenOf whole=.ok z := (hsplit z).mpr ⟨x,y,hx,hy,hxColumns,hyColumns,rfl⟩
  let m : Matrix F := ⟨stage.config.hiddenSize,mx.data++my.data,by
    intro row hrow
    rcases List.mem_append.mp hrow with hrow|hrow
    · rw [mx.shape row hrow,hmxColumns,hxColumns]
    · rw [my.shape row hrow,hmyColumns,hyColumns]⟩
  have hmy : my.data≠[] := by
    intro hnil
    have hzero : my.rows=0 := by rw [Matrix.rows,hnil]; rfl
    exact hb (by rw [←hyRows,←hmyRows,hzero])
  have hmiddle : s'.caches=middle ∧ flagged s' false={flagged sequence false with
      caches := middle} := by
    by_cases hfinal : stage.finalStage=true
    · rw [if_pos hfinal] at hendX
      obtain ⟨rfl,-⟩ := Prod.mk.inj hendX
      exact ⟨rfl,rfl⟩
    · rw [if_neg hfinal] at hendX
      obtain ⟨rfl,-⟩ := Prod.mk.inj hendX
      exact ⟨rfl,rfl⟩
  have hforwardY' : forwardLayers stage.config (position+x.rows) stage.layers middle [] y=
      (caches,.ok my) := by
    rw [hxRows,←hmiddle.1]
    exact hforwardY
  have hforward : forwardLayers stage.config position stage.layers sequence.caches [] z=
      (caches,.ok m) :=
    (forward_append (hxRows ▸ ha) (hyRows ▸ hb) hxColumns hyColumns rfl).mpr
      ⟨middle,mx,my,hforwardX,hforwardY',rfl,rfl⟩
  rw [hmiddle.2] at hendY
  by_cases hfinal : stage.finalStage=true
  · rw [if_pos hfinal] at hendX hendY
    obtain ⟨-,hout⟩ := Prod.mk.inj hendX
    refine ⟨second,?_,.inl ⟨(Except.ok.inj hout).symm,rfl⟩⟩
    refine execute_iff.mpr ⟨z,caches,m,hz,hforward,?_⟩
    rw [if_pos hfinal,←hendY]
    refine finish_congr _ ?_ ?_ (hmyColumns.trans hyColumns).symm ?_
    · have hpos := List.length_pos_of_ne_nil hmy
      change (mx.data++my.data).length≠0
      rw [List.length_append]
      omega
    · have hpos := List.length_pos_of_ne_nil hmy
      rw [Matrix.rows]
      omega
    · exact List.getLast?_append_of_ne_nil _ hmy
  · rw [if_neg hfinal] at hendX hendY
    obtain ⟨-,hwireX⟩ := Prod.mk.inj hendX
    obtain ⟨hs,hwireY⟩ := Prod.mk.inj hendY
    have hshape : ∀ {m : Matrix F} {output : StageOutput D},DenseStage.toWire m=.ok output →
        ∃ payload,output=.boundary m.rows m.columns payload := by
      intro m output hwire
      unfold DenseStage.toWire at hwire
      cases hbytes : m.data.mapM DenseStage.wireRow with
      | error failure =>
        rw [hbytes] at hwire
        cases hwire
      | ok bytes =>
        rw [hbytes] at hwire
        cases hwire
        exact ⟨_,rfl⟩
    obtain ⟨payload,rfl⟩ := hshape hwireX
    obtain ⟨rest,rfl⟩ := hshape hwireY
    have hmx : mx.columns=m.columns := hmxColumns.trans hxColumns
    have hmy' : my.columns=m.columns := hmyColumns.trans hyColumns
    rw [hmx] at hwireX
    rw [hmy'] at hwireY
    refine ⟨_,?_,.inr ⟨_,_,m.columns,payload,rest,by rw [hmx],by rw [hmy'],rfl⟩⟩
    refine execute_iff.mpr ⟨z,caches,m,hz,hforward,?_⟩
    rw [if_neg hfinal,(toWire_append hmx hmy' rfl).mpr ⟨payload,rest,hwireX,hwireY,rfl⟩,←hs]

end Two

/-- A prompt in one input. -/
theorem prefill_one {input : StageInput} {position : ℕ} {sequence s : CpuSequence F D}
    {outputs : List (StageOutput D)} :
    prefill stage position sequence [input]=(s,.ok outputs) ↔ ∃ output,
      stage.execute input position (flagged sequence false) []=(s,.ok output) ∧
        outputs=[output] := by
  have hflagged : flagged sequence false=
      {sequence with prefilling := true, prefillOnly := !([] : List StageInput).isEmpty} := rfl
  rw [prefill,←hflagged]
  cases stage.execute input position (flagged sequence false) [] with
  | mk s' result =>
    cases result with
    | error failure => simp
    | ok output =>
      simp only [prefill,Except.map,Prod.mk.injEq,Except.ok.injEq]
      constructor
      · rintro ⟨hs,houtputs⟩
        exact ⟨output,⟨hs,rfl⟩,houtputs.symm⟩
      · rintro ⟨_,⟨hs,rfl⟩,houtputs⟩
        exact ⟨hs,houtputs.symm⟩

/-- A prompt with more than one input. -/
theorem prefill_cons {input : StageInput} {inputs : List StageInput} (hinputs : inputs≠[])
    {position : ℕ} {sequence s : CpuSequence F D} {outputs : List (StageOutput D)} :
    prefill stage position sequence (input::inputs)=(s,.ok outputs) ↔ ∃ s' first rest,
      stage.execute input position (flagged sequence true) []=(s',.ok first) ∧
        prefill stage (position+inputRows input) s' inputs=(s,.ok rest) ∧
        outputs=first::rest := by
  have hflagged : flagged sequence true=
      {sequence with prefilling := true, prefillOnly := !inputs.isEmpty} := by
    cases inputs with
    | nil => exact absurd rfl hinputs
    | cons next inputs => rfl
  rw [prefill,←hflagged]
  cases stage.execute input position (flagged sequence true) [] with
  | mk s' result =>
    cases result with
    | error failure => simp
    | ok first =>
      simp only [Prod.mk.injEq,Except.ok.injEq]
      constructor
      · rintro ⟨hs,houtputs⟩
        obtain ⟨rest,hrest,rfl⟩ := exists_of_map_eq_ok houtputs
        exact ⟨s',first,rest,⟨rfl,rfl⟩,Prod.ext hs hrest,rfl⟩
      · rintro ⟨_,_,rest,⟨rfl,rfl⟩,hrest,rfl⟩
        rw [hrest]
        exact ⟨rfl,rfl⟩

/-- An output before others that amount to one. -/
theorem Merge.merges {first second output : StageOutput D} {outputs : List (StageOutput D)}
    (h : Merge first second output) (hrest : Merges outputs second) :
    Merges (first::outputs) output := by
  rcases h with ⟨rfl,rfl⟩|⟨n,n',width,payload,rest,rfl,rfl,rfl⟩
  · exact .progress hrest
  · exact .boundary hrest

/-- A prompt and its inputs amount to the same, if its rest and the rest of
its inputs do. -/
def Agree (stage : DenseStage F) (inputs : List StageInput) (whole : StageInput) : Prop :=
  ∀ position (sequence s : CpuSequence F D),
    (∀ output,stage.execute whole position (flagged sequence false) []=(s,.ok output) →
      ∃ outputs,prefill stage position sequence inputs=(s,.ok outputs) ∧
        Merges outputs output) ∧
    ∀ outputs,prefill stage position sequence inputs=(s,.ok outputs) →
      ∃ output,stage.execute whole position (flagged sequence false) []=(s,.ok output) ∧
        Merges outputs output

/-- One more input before inputs that agree with their whole. -/
theorem agree_cons {whole a b : StageInput} {inputs : List StageInput} (ha : inputRows a≠0)
    (hb : inputRows b≠0) (hinputs : inputs≠[])
    (hsplit : ∀ z,stage.hiddenOf whole=.ok z ↔ ∃ x y,stage.hiddenOf a=.ok x ∧
      stage.hiddenOf b=.ok y ∧ x.columns=z.columns ∧ y.columns=z.columns ∧ z.data=x.data++y.data)
    (hrest : Agree (D := D) stage inputs b) : Agree (D := D) stage (a::inputs) whole := by
  intro position sequence s
  constructor
  · intro output h
    obtain ⟨s',first,second,hfirst,hsecond,hmerge⟩ := execute_split ha hb hsplit h
    obtain ⟨outputs,houtputs,hmerges⟩ := (hrest _ s' s).1 second hsecond
    exact ⟨first::outputs,(prefill_cons hinputs).mpr ⟨s',first,outputs,hfirst,houtputs,rfl⟩,
      hmerge.merges hmerges⟩
  · intro outputs h
    obtain ⟨s',first,rest,hfirst,hprefill,rfl⟩ := (prefill_cons hinputs).mp h
    obtain ⟨second,hsecond,hmerges⟩ := (hrest _ s' s).2 rest hprefill
    obtain ⟨output,houtput,hmerge⟩ := execute_join ha hb hsplit hfirst hsecond
    exact ⟨output,houtput,hmerge.merges hmerges⟩

/-- Inputs of a prompt within the context agree with the prompt. -/
theorem Joins.agree {inputs : List StageInput} {whole : StageInput} (h : Joins inputs whole)
    (hfits : inputRows whole ≤ stage.config.maximumSequenceLength) :
    Agree (D := D) stage inputs whole := by
  induction h with
  | one input hinput =>
    intro position sequence s
    constructor
    · intro output h
      exact ⟨[output],prefill_one.mpr ⟨output,h,rfl⟩,.one output⟩
    · intro outputs h
      obtain ⟨output,houtput,rfl⟩ := prefill_one.mp h
      exact ⟨output,houtput,.one output⟩
  | @tokens inputs ids rest hids hrest ih =>
    have hlength : ids.length+rest.length ≤ stage.config.maximumSequenceLength := by
      rw [←List.length_append]
      exact hfits
    have hrestFits : inputRows (.tokens rest) ≤ stage.config.maximumSequenceLength := by
      rw [inputRows]
      omega
    have hrestIds : rest≠[] := fun hnil => hrest.nonempty (by rw [hnil]; rfl)
    have hcount : inputRows (.tokens ids)≠0 := fun hzero => hids (List.length_eq_zero_iff.mp hzero)
    exact agree_cons hcount hrest.nonempty hrest.inputs
      (fun z => hiddenOf_tokens hids hrestIds hfits) (ih hrestFits)
  | @boundary inputs n n' width payload rest hn hlength hrest ih =>
    have hrestFits : inputRows (.boundary n' width rest) ≤ stage.config.maximumSequenceLength := by
      have hsum : n+n' ≤ stage.config.maximumSequenceLength := hfits
      rw [inputRows]
      omega
    exact agree_cons hn hrest.nonempty hrest.inputs
      (fun z => hiddenOf_boundary hn hrest.nonempty hlength) (ih hrestFits)

end Execute

/-- Outputs of the inputs of a prompt against its output in one pass. -/
def SameOutput (outputs : List (StageOutput D)) (output : StageOutput D) : Prop :=
  Merges outputs output ∧
    ∀ token,output=.sampled token ↔ outputs.getLast?=some (.sampled token)

/-- Hidden rows of the chunks of a prompt against those of one pass. -/
def SameRows (ms : List (Matrix F)) (m : Matrix F) : Prop :=
  Cuts ms m ∧ ∃ last,ms.getLast?=some last ∧ last.data.getLast?=m.data.getLast?

/-- The inputs of a prompt leave the sequence and amount to the output that
one pass over the prompt leaves and gives, on any sequence with this capacity.
Chunks of hidden rows leave the caches of every layer and give the rows that one
pass leaves and gives, on any caches. With matching weights and a new sequence
the passes succeed. The layers up to any cut and the layers from there on give
the rows of all layers. -/
theorem chunkedPrefill_eq_wholePrefill [Double F D] (stage : DenseStage F) :
    (∀ (sampling : SamplingOptions D) capacity fresh,
      stage.allocateSequence capacity sampling=.ok fresh →
      ∀ inputs whole,Joins inputs whole → inputRows whole ≤ capacity → ∀ s,
        (∀ output,prefill stage 0 fresh [whole]=(s,.ok [output]) →
          ∃ outputs,prefill stage 0 fresh inputs=(s,.ok outputs) ∧ SameOutput outputs output) ∧
        ∀ outputs,prefill stage 0 fresh inputs=(s,.ok outputs) →
          ∃ output,prefill stage 0 fresh [whole]=(s,.ok [output]) ∧ SameOutput outputs output) ∧
    (∀ position caches chunks z,Cuts chunks z → ∀ written,
      (∀ m,forwardLayers stage.config position stage.layers caches [] z=(written,.ok m) →
        ∃ ms,forwardChunks stage.config stage.layers position caches chunks=(written,.ok ms) ∧
          SameRows ms m) ∧
      ∀ ms,forwardChunks stage.config stage.layers position caches chunks=(written,.ok ms) →
        ∃ m,forwardLayers stage.config position stage.layers caches [] z=(written,.ok m) ∧
          SameRows ms m) ∧
    (validateConfig stage.config=.ok () →
      (∀ weights∈stage.layers,validateWeights weights stage.config=.ok ()) →
      ∀ (sampling : SamplingOptions D) capacity fresh,
        stage.allocateSequence capacity sampling=.ok fresh →
        ∀ chunks z,Cuts chunks z → z.columns=stage.config.hiddenSize → z.rows ≤ capacity →
          ∃ written m ms,
            forwardLayers stage.config 0 stage.layers fresh.caches [] z=(written,.ok m) ∧
            forwardChunks stage.config stage.layers 0 fresh.caches chunks=(written,.ok ms) ∧
            SameRows ms m) ∧
    ∀ cut position caches input,caches.length=stage.layers.length →
      forwardLayers stage.config position stage.layers caches [] input=
        match forwardLayers stage.config position (stage.layers.take cut) (caches.take cut) []
          input with
        | (written,.error failure) => (written++caches.drop cut,.error failure)
        | (written,.ok m) =>
          let rest := forwardLayers stage.config position (stage.layers.drop cut)
            (caches.drop cut) [] m
          (written++rest.1,rest.2) := by
  have hchunks : ∀ position caches chunks z,Cuts chunks z → ∀ written,
      (∀ m,forwardLayers stage.config position stage.layers caches [] z=(written,.ok m) →
        ∃ ms,forwardChunks stage.config stage.layers position caches chunks=(written,.ok ms) ∧
          SameRows ms m) ∧
      ∀ ms,forwardChunks stage.config stage.layers position caches chunks=(written,.ok ms) →
        ∃ m,forwardLayers stage.config position stage.layers caches [] z=(written,.ok m) ∧
          SameRows ms m := by
    intro position caches chunks z hcuts written
    obtain ⟨hforth,hback⟩ := forwardChunks_iff hcuts position caches written
    constructor
    · intro m hm
      obtain ⟨ms,hms,hsame⟩ := hforth m hm
      exact ⟨ms,hms,hsame,hsame.last⟩
    · intro ms hms
      obtain ⟨m,hm,hsame⟩ := hback ms hms
      exact ⟨m,hm,hsame,hsame.last⟩
  refine ⟨?_,hchunks,?_,?_⟩
  · intro sampling capacity fresh hfresh inputs whole hjoins hfits s
    have hcapacity := (allocateSequence_ok hfresh).1
    obtain ⟨hforth,hback⟩ := hjoins.agree (hfits.trans hcapacity) 0 fresh s
    constructor
    · intro output h
      obtain ⟨_,hexecute,heq⟩ := prefill_one.mp h
      cases heq
      obtain ⟨outputs,houtputs,hmerges⟩ := hforth _ hexecute
      exact ⟨outputs,houtputs,hmerges,hmerges.sampled_iff⟩
    · intro outputs h
      obtain ⟨output,hexecute,hmerges⟩ := hback outputs h
      exact ⟨output,prefill_one.mpr ⟨output,hexecute,rfl⟩,hmerges,hmerges.sampled_iff⟩
  · intro hconfig hweights sampling capacity fresh hfresh chunks z hcuts hwidth hfits
    obtain ⟨hcapacity,hcaches⟩ := allocateSequence_ok hfresh
    have hready := ready_fresh hconfig hweights hcuts.nonempty hfits hcapacity
    rw [←hcaches,←hwidth] at hready
    obtain ⟨m,hforward,-,-⟩ := forward_ok hready
    obtain ⟨ms,hms,hsame⟩ := (hchunks 0 fresh.caches chunks z hcuts _).1 m hforward
    exact ⟨_,m,ms,hforward,hms,hsame⟩
  · intro cut position caches input hcaches
    have htake : (caches.take cut).length=(stage.layers.take cut).length := by
      rw [List.length_take,List.length_take,hcaches]
    have hsplit := @forwardLayers_append _ _ stage.config (stage.layers.take cut)
      (caches.take cut) position (stage.layers.drop cut) (caches.drop cut) htake input
    rw [List.take_append_drop,List.take_append_drop] at hsplit
    exact hsplit

/-- Integers in place of floats. -/
instance integerScalar : Scalar ℤ where
  zero := 0
  one := 1
  negativeInfinity := -1000
  add := (·+·)
  sub := (·-·)
  mul := (·*·)
  div := (·/·)
  neg := (-·)
  sqrt _ := 1
  exp _ := 1
  cos x := x
  sin _ := 1
  pow _ _ := 1
  ofSize n := n
  lt a b := a < b
  le a b := a ≤ b
  finite _ := true
  toHalf x := x.toNat.toUInt16
  ofHalf x := x.toNat

/-- Integers in place of doubles. -/
instance integerDouble : Double ℤ ℤ where
  zero := 0
  one := 1
  hundred := 100
  unit := 1
  add := (·+·)
  sub := (·-·)
  mul := (·*·)
  div := (·/·)
  exp _ := 1
  log _ := 0
  lt a b := a < b
  le a b := a ≤ b
  eq a b := a=b
  finite _ := true
  widen x := x
  ofWord x := x.toNat

/-- A configuration with one head of dimension two. -/
def smallConfig : DenseConfig ℤ := ⟨2,1,1,1,2,4,1,1,false⟩

/-- A layer of that configuration. -/
def smallLayer : LayerWeights ℤ where
  inputNorm := [1,1]
  query := ⟨2,[[1,0],[0,1]],by decide⟩
  key := ⟨2,[[1,0],[0,1]],by decide⟩
  value := ⟨2,[[1,2],[3,4]],by decide⟩
  attentionOutput := ⟨2,[[1,0],[0,1]],by decide⟩
  postAttentionNorm := [1,1]
  gate := ⟨2,[[1,1]],by decide⟩
  up := ⟨2,[[1,1]],by decide⟩
  down := ⟨1,[[1],[1]],by decide⟩
  queryNorm := []
  keyNorm := []

/-- A stage of one layer with a vocabulary of two. -/
def smallStage : DenseStage ℤ where
  config := smallConfig
  vocab := 2
  layers := [smallLayer]
  embedding := ⟨2,[[5,2],[1,7]],by decide⟩
  head := ⟨2,[[1,0],[0,1]],by decide⟩
  tiedHead := false
  firstStage := true
  finalStage := true
  norm := [1,1]

/-- A new sequence of that stage. -/
def smallSequence : CpuSequence ℤ ℤ where
  sampling := ⟨0,1,0,7,false,0⟩
  prefilling := false
  prefillOnly := false
  generatedIndex := 0
  caches := [.empty 3 1 2]
  draws := []

/-- A prompt of two tokens, whole and token by token. -/
theorem smallPrefill_token_by_token :
    ∃ s,prefill smallStage 0 smallSequence [.tokens [0,1]]=(s,.ok [.sampled ⟨1,none,[]⟩]) ∧
      s.caches.map (fun cache => (cache.keys,cache.values))=
        [([[-2,5],[-6,8]],[[9,23],[15,31]])] ∧
      ∃ outputs,prefill smallStage 0 smallSequence [.tokens [0],.tokens [1]]=(s,.ok outputs) ∧
        outputs.getLast?=some (.sampled ⟨1,none,[]⟩) := by
  have hwhole : prefill smallStage 0 smallSequence [.tokens [0,1]]=
      ((prefill smallStage 0 smallSequence [.tokens [0,1]]).1,
        .ok [.sampled ⟨1,none,[]⟩]) := by rfl
  have hjoins : Joins [.tokens [0],.tokens [1]] (.tokens [0,1]) :=
    .tokens (List.cons_ne_nil _ _) (.one _ (by decide))
  obtain ⟨outputs,houtputs,-,htoken⟩ := ((chunkedPrefill_eq_wholePrefill smallStage).1
    smallSequence.sampling 3 smallSequence rfl _ _ hjoins (by decide) _).1 _ hwhole
  exact ⟨_,hwhole,by rfl,outputs,houtputs,(htoken _).mp rfl⟩

end Hllm.CpuPrefill
