import Hllm.DecodeBatch
import Hllm.RunInvariants

/-!
# Sequences on accelerators

The CUDA and the MLX stage share one `run` for single and batched passes. A
tensor operation is what it does to each row, which may depend on how many rows
there are and on the place of the row but not on the other rows; attention reads
the rows of one cache. Any operation may throw, and so may the wait for the
stream at the end. What was written until then stays. Sizes are natural numbers.
-/

namespace Hllm.AcceleratorModel

open CpuModel (Failure StageInput StageOutput)
open DecodeBatch (DecodeBatchItem SequenceState combineDecodeInputs invalid isTokens rowBytes)
open MemoryAccounting (Error)
open RunInvariants
open SamplingModel

section Sequences

/-- `Cache`, with the rows of each tensor by position. -/
structure Cache (Row : Type) where
  keys : List Row
  values : List Row
  deriving DecidableEq

/-- `CudaSequence` and `MlxSequence`. -/
structure AcceleratorSequence (Row D : Type) where
  sampling : SamplingOptions D
  prefilling : Bool
  prefillOnly : Bool
  generatedIndex : UInt64
  /-- It is a sequence of this stage. -/
  owned : Bool
  capacity : ℕ
  length : ℕ
  failed : Bool
  caches : List (Cache Row)

variable {Row D : Type}

/-- `slice(1, past, length).copy_` and `slice_update`. -/
def write (cache : List Row) (past : ℕ) (rows : List Row) : List Row :=
  cache.take past++rows++cache.drop (past+rows.length)

/-- Replace the cache of a layer. -/
def AcceleratorSequence.setCache (sequence : AcceleratorSequence Row D) (index : ℕ)
    (cache : Cache Row) : AcceleratorSequence Row D :=
  { sequence with caches := sequence.caches.set index cache }

/-- A sequence never to be resumed. -/
def AcceleratorSequence.fail (sequence : AcceleratorSequence Row D) : AcceleratorSequence Row D :=
  { sequence with failed := true }

/-- A sequence some rows further. -/
def AcceleratorSequence.advance (sequence : AcceleratorSequence Row D) (count : ℕ) :
    AcceleratorSequence Row D :=
  { sequence with length := sequence.length+count }

end Sequences

section Faults

/-- Where tensor operations may throw: between any two writes. -/
inductive Point
  | input
  | project (layer : ℕ)
  | keys (layer member : ℕ)
  | values (layer member : ℕ)
  | scores (layer member : ℕ)
  | mix (layer : ℕ)
  | finish
  | head
  | sample (member : ℕ)
  | boundary
  /-- The wait for the stream in `completed`. -/
  | complete
  deriving DecidableEq

/-- Where `running` reads the flag of the request. -/
inductive Reading
  | entry
  | layer (index : ℕ)
  | finish
  | advance
  deriving DecidableEq

/-- What goes wrong in a call. -/
structure Faults where
  thrown : Point → Option Failure
  cancelled : Reading → Bool

/-- Operations up to some point. -/
def Faults.pass (faults : Faults) (point : Point) : Except Failure Unit :=
  match faults.thrown point with
  | some failure => .error failure
  | none => .ok ()

/-- `running` -/
def Faults.running (faults : Faults) (reading : Reading) : Except Failure Unit :=
  if faults.cancelled reading then .error (.runtimeError "request cancelled") else .ok ()

/-- The flag of a batch is never set. -/
def Faults.uncancelled (faults : Faults) : Faults :=
  { faults with cancelled := fun _ => false }

end Faults

/-- The accelerators. -/
inductive Accelerator
  | cuda (pinned : Bool)
  | mlx
  deriving DecidableEq

/-- The name in texts of errors. -/
def Accelerator.name : Accelerator → String
  | .cuda _ => "CUDA"
  | .mlx => "MLX"

/-- `supports_decode_batch` -/
def Accelerator.supportsDecodeBatch : Accelerator → Bool
  | .cuda pinned => !pinned
  | .mlx => true

/-- `CudaStage` and `MlxStage`. Operations on several rows get their number and
the place of the row. -/
structure AcceleratorStage (Row F : Type) where
  accelerator : Accelerator
  hiddenSize : ℕ
  vocab : ℕ
  /-- `end_ - start_` -/
  layers : ℕ
  first : Bool
  final : Bool
  embed : ℕ → ℕ → ℕ → Row
  fromWire : ℕ → ℕ → List UInt8 → Row
  queries : ℕ → ℕ → ℕ → Row → Row
  keys : ℕ → ℕ → ℕ → Row → Row
  values : ℕ → ℕ → ℕ → Row → Row
  /-- Rotation at a position. -/
  rope : ℕ → Row → Row
  /-- One row of `attended`, from queries and their position and all keys and values. -/
  attention : List Row → ℕ → List Row → List Row → ℕ → Row
  /-- The rest of a layer, from the row of `hidden` and the row of `attended`. -/
  mix : ℕ → ℕ → ℕ → Row → Row → Row
  finite : Row → Bool
  /-- The last norm, the head and the snapshot. -/
  logits : ℕ → ℕ → Row → List F
  argmax : List F → ℕ
  /-- `hidden.to(at::kHalf)` -/
  half : ℕ → ℕ → Row → Row
  /-- The bytes of a row of halves. -/
  toWire : Row → ℕ → UInt8

namespace AcceleratorStage

variable {Row F D : Type} (stage : AcceleratorStage Row F) (faults : Faults)

section Pass

/-- `finite` -/
def checkFinite (rows : List Row) : Except Failure Unit :=
  if rows.all stage.finite then .ok ()
  else .error (.runtimeError ("non-finite "++stage.accelerator.name++" tensor"))

/-- What a boundary with a value that is not finite throws. -/
def nonFiniteBoundary : Accelerator → Failure
  | .cuda _ => .runtimeError "non-finite CUDA tensor"
  | .mlx => invalid "non-finite MLX boundary"

/-- The rows of an input. -/
def rowsOf : StageInput → List Row
  | .tokens ids => ids.mapIdx (stage.embed ids.length)
  | .boundary tokens width payload =>
    (List.range tokens).map fun i => stage.fromWire tokens i (rowBytes width payload i)

/-- `hidden` at the start of a pass. -/
def inputRows (input : StageInput) : Except Failure (List Row) :=
  match input with
  | .tokens ids =>
    if ids.any (fun id => decide (stage.vocab ≤ id))=true then
      .error (invalid "token ID exceeds vocabulary")
    else (faults.pass .input).map fun _ => stage.rowsOf input
  | .boundary tokens width payload =>
    if width≠stage.hiddenSize ∨ payload.length≠tokens*stage.hiddenSize*2 then
      .error (invalid ("invalid "++stage.accelerator.name++" boundary shape"))
    else (faults.pass .input).bind fun _ =>
      if (stage.rowsOf input).all stage.finite then .ok (stage.rowsOf input)
      else .error (nonFiniteBoundary stage.accelerator)

/-- What `attend` gets of one sequence. -/
structure Part (Row : Type) where
  queries : List Row
  keys : List Row
  values : List Row
  position : ℕ

/-- `attend` on the cache of a layer. -/
def attend (index member : ℕ) (part : AcceleratorStage.Part Row)
    (sequence : AcceleratorSequence Row D) :
    AcceleratorSequence Row D×Except Failure (List Row) :=
  match faults.pass (.keys index member),sequence.caches[index]? with
  | .error failure,_ => (sequence,.error failure)
  | .ok (),none => (sequence,.error (.outOfRange "vector"))
  | .ok (),some cache =>
    let count := part.queries.length
    let length := part.position+count
    if cache.keys.length < length ∨ cache.values.length < length then
      (sequence,.error (.runtimeError "shape mismatch"))
    else
      let keys := part.keys.mapIdx fun j row => stage.rope (part.position+j) row
      let queries := part.queries.mapIdx fun j row => stage.rope (part.position+j) row
      let keyed : Cache Row := { cache with keys := write cache.keys part.position keys }
      match faults.pass (.values index member) with
      | .error failure => (sequence.setCache index keyed,.error failure)
      | .ok () =>
        let written : Cache Row :=
          { keyed with values := write keyed.values part.position part.values }
        (sequence.setCache index written,(faults.pass (.scores index member)).map fun _ =>
          (List.range count).map (stage.attention queries part.position
            (written.keys.take length) (written.values.take length)))

/-- `attend` for one sequence after the other. -/
def attendAll (index : ℕ) :
    ℕ → List (AcceleratorStage.Part Row) → List (AcceleratorSequence Row D) →
    List (AcceleratorSequence Row D)×Except Failure (List Row)
  | member,part::parts,sequence::sequences =>
    match stage.attend faults index member part sequence with
    | (sequence,.error failure) => (sequence::sequences,.error failure)
    | (sequence,.ok rows) =>
      let rest := attendAll index (member+1) parts sequences
      (sequence::rest.1,rest.2.map (rows++·))
  | _,_,sequences => (sequences,.ok [])

/-- The rows each sequence attends with: all of them alone, its own in a batch. -/
def partsOf (single : Bool) (position : ℕ) (queries keys values : List Row)
    (sequences : List (AcceleratorSequence Row D)) : List (AcceleratorStage.Part Row) :=
  if single then [⟨queries,keys,values,position⟩]
  else List.zipWith (fun rows sequence => ⟨[rows.1],[rows.2.1],[rows.2.2],sequence.length⟩)
    (queries.zip (keys.zip values)) sequences

/-- `layer` -/
def layer (single : Bool) (index position : ℕ) (hidden : List Row)
    (sequences : List (AcceleratorSequence Row D)) :
    List (AcceleratorSequence Row D)×Except Failure (List Row) :=
  match faults.pass (.project index) with
  | .error failure => (sequences,.error failure)
  | .ok () =>
    let count := hidden.length
    let parts := partsOf single position (hidden.mapIdx (stage.queries index count))
      (hidden.mapIdx (stage.keys index count)) (hidden.mapIdx (stage.values index count))
      sequences
    let attended := stage.attendAll faults index 0 parts sequences
    (attended.1,attended.2.bind fun rows => (faults.pass (.mix index)).map fun _ =>
      (hidden.zip rows).mapIdx fun j pair => stage.mix index count j pair.1 pair.2)

/-- The loop over the layers. -/
def forward (single : Bool) (position : ℕ) : List ℕ → List Row →
    List (AcceleratorSequence Row D) →
    List (AcceleratorSequence Row D)×Except Failure (List Row)
  | [],hidden,sequences => (sequences,.ok hidden)
  | index::indices,hidden,sequences =>
    match faults.running (.layer index) with
    | .error failure => (sequences,.error failure)
    | .ok () =>
      match stage.layer faults single index position hidden sequences with
      | (sequences,.error failure) => (sequences,.error failure)
      | (sequences,.ok hidden) => forward single position indices hidden sequences

variable [Scalar F] [Double F D]

/-- `select` -/
def select (member : ℕ) (logits : List F) (sequence : AcceleratorSequence Row D) :
    AcceleratorSequence Row D×Except Failure (SampledToken D) :=
  if Double.eq sequence.sampling.temperature Double.zero &&
      !sequence.sampling.returnLogprobs then
    (sequence,(faults.pass (.sample member)).map fun _ => ⟨stage.argmax logits,none,[]⟩)
  else
    ({ sequence with generatedIndex := sequence.generatedIndex+1 },do
      faults.pass (.sample member)
      match sampleToken logits sequence.sampling sequence.generatedIndex with
      | .error error => .error (.error error)
      | .ok (token,_) => .ok token)

/-- `select` for one sequence after the other. -/
def selectAll : ℕ → List (List F) → List (AcceleratorSequence Row D) →
    List (AcceleratorSequence Row D)×Except Failure (List (StageOutput D))
  | member,logits::rest,sequence::sequences =>
    match stage.select faults member logits sequence with
    | (sequence,.error failure) => (sequence::sequences,.error failure)
    | (sequence,.ok token) =>
      let later := selectAll (member+1) rest sequences
      (sequence::later.1,later.2.map (.sampled token::·))
  | _,_,sequences => (sequences,.ok [])

/-- The end of a final stage. -/
def head (single : Bool) (hidden : List Row) (sequences : List (AcceleratorSequence Row D)) :
    List (AcceleratorSequence Row D)×Except Failure (List (StageOutput D)) :=
  let rows := if single then hidden.getLast?.toList else hidden
  let logits := rows.mapIdx (stage.logits rows.length)
  match faults.pass .head with
  | .error failure => (sequences,.error failure)
  | .ok () =>
    if logits.any (fun row => row.any fun x => !Scalar.finite x)=true then
      (sequences,.error (.runtimeError ("non-finite "++stage.accelerator.name++" tensor")))
    else stage.selectAll faults 0 logits sequences

/-- The end of another stage. -/
def boundaryOf (hidden : List Row) : Except Failure (List (StageOutput D)) := do
  faults.pass .boundary
  let halves := hidden.mapIdx (stage.half hidden.length)
  stage.checkFinite halves
  return [.boundary hidden.length stage.hiddenSize
    (halves.flatMap fun row => (List.range (stage.hiddenSize*2)).map (stage.toWire row))]

/-- What a pass returns. -/
def outputOf (single : Bool) (hidden : List Row) (sequences : List (AcceleratorSequence Row D)) :
    List (AcceleratorSequence Row D)×Except Failure (List (StageOutput D)) :=
  if stage.final && sequences.head?.any (·.prefillOnly) then (sequences,.ok [.progress])
  else if stage.final then stage.head faults single hidden sequences
  else (sequences,stage.boundaryOf faults hidden)

/-- The end of a pass. The lengths advance before the stream is waited for. -/
def conclude (single : Bool) (count : ℕ)
    (returned : List (AcceleratorSequence Row D)×Except Failure (List (StageOutput D))) :
    List (AcceleratorSequence Row D)×Except Failure (List (StageOutput D)) :=
  match returned.2.bind fun outputs => (faults.running .advance).map fun _ => outputs with
  | .error failure => (returned.1,.error failure)
  | .ok outputs =>
    (returned.1.map fun sequence => sequence.advance (if single then count else 1),
      (faults.pass .complete).map fun _ => outputs)

/-- What `completed` runs in `run`. -/
def pass (single : Bool) (count position : ℕ) (input : StageInput)
    (sequences : List (AcceleratorSequence Row D)) :
    List (AcceleratorSequence Row D)×Except Failure (List (StageOutput D)) :=
  match stage.inputRows faults input with
  | .error failure => (sequences,.error failure)
  | .ok hidden =>
    match stage.forward faults single position (List.range stage.layers) hidden sequences with
    | (sequences,.error failure) => (sequences,.error failure)
    | (sequences,.ok hidden) =>
      match (faults.pass .finish).bind fun _ => (stage.checkFinite hidden).bind fun _ =>
          faults.running .finish with
      | .error failure => (sequences,.error failure)
      | .ok () => conclude faults single count (stage.outputOf faults single hidden sequences)

end Pass

section Calls

variable [Scalar F] [Double F D]

/-- How a call ends. It throws both when it is rejected and when it fails: that
the pass was entered is a ghost. -/
inductive Ending (D : Type)
  | rejected (failure : Failure)
  | failed (failure : Failure)
  | completed (outputs : List (StageOutput D))

/-- The rows of an input. -/
def countOf : StageInput → ℕ
  | .tokens ids => ids.length
  | .boundary tokens _ _ => tokens

/-- `run`: of one sequence, or of the sequences of a batch. -/
def run (single : Bool) (position : ℕ) (input : StageInput)
    (state : AcceleratorSequence Row D) (others : List (AcceleratorSequence Row D)) :
    List (AcceleratorSequence Row D)×Ending D :=
  let sequences := state::others
  if state.owned=false ∨ state.failed=true ∨ position≠state.length then
    (sequences,.rejected
      (invalid (stage.accelerator.name++" sequence state or position is invalid")))
  else if isTokens input≠stage.first ∨ countOf input=0 ∨ state.capacity < position ∨
      (single=true ∧ state.capacity-position < countOf input) then
    (sequences,.rejected
      (invalid ("invalid "++stage.accelerator.name++" stage input or context capacity")))
  else match faults.running .entry with
  | .error failure => (sequences,.rejected failure)
  | .ok () =>
    match stage.pass faults single (countOf input) position input sequences with
    | (sequences,.error failure) => (sequences.map (·.fail),.failed failure)
    | (sequences,.ok outputs) => (sequences,.completed outputs)

/-- `execute` -/
def execute (input : StageInput) (position : ℕ) (state : AcceleratorSequence Row D) :
    List (AcceleratorSequence Row D)×Ending D :=
  stage.run faults true position input state []

/-- The states of sequences that `combine_decode_inputs` reads. A pointer to none of
them is to nothing that can decode. -/
def statesOf (sequences : ℕ → Option (AcceleratorSequence Row D)) (id : ℕ) : SequenceState :=
  match sequences id with
  | some sequence => ⟨sequence.prefilling,sequence.prefillOnly⟩
  | none => ⟨true,true⟩

/-- `split_decode_boundary` of a boundary in memory, whose products fit. -/
def splitDecodeBoundary (tokens width : ℕ) (payload : List UInt8) :
    Except Failure (List (StageOutput D)) :=
  if payload.length≠tokens*(width*2) then
    .error (.error ⟨.internal,"invalid batched output boundary"⟩)
  else .ok ((List.range tokens).map fun i => .boundary 1 width (rowBytes width payload i))

/-- A boundary of a batch is split; other outputs are those of the items. -/
def splitEnding : Ending D → Ending D
  | .completed [.boundary tokens width payload] =>
    match splitDecodeBoundary tokens width payload with
    | .error failure => .failed failure
    | .ok outputs => .completed outputs
  | ending => ending

/-- The check of a member of a batch. -/
def decodable (item : DecodeBatchItem) (sequence : AcceleratorSequence Row D) : Bool :=
  sequence.owned && !sequence.failed && sequence.length=item.position &&
    sequence.length < sequence.capacity

/-- The sequences of the items, in their order. -/
def membersOf (sequences : ℕ → Option (AcceleratorSequence Row D))
    (items : List DecodeBatchItem) : List (AcceleratorSequence Row D) :=
  items.filterMap fun item => item.sequence.bind sequences

/-- `execute_decode_batch` of a stage that supports it. -/
def executeDecodeBatch (sequences : ℕ → Option (AcceleratorSequence Row D))
    (items : List DecodeBatchItem) : List (AcceleratorSequence Row D)×Ending D :=
  let members := membersOf sequences items
  match combineDecodeInputs (statesOf sequences) items with
  | .error failure => (members,.rejected failure)
  | .ok input =>
    if (items.zip members).any (fun pair => !decodable pair.1 pair.2)=true then
      (members,.rejected (invalid "invalid decode batch sequence state"))
    else match members with
    | [] => (members,.rejected (invalid "invalid decode batch size"))
    | front::others =>
      let done := stage.run faults.uncancelled false front.length input front others
      (done.1,splitEnding done.2)

end Calls

section Machine

variable [Scalar F] [Double F D]

/-- A call of a stage as it ended, with the rows of each sequence it named. -/
structure Record (D : Type) where
  rows : List (ℕ×ℕ)
  ending : Ending D

/-- The sequences of a stage and the calls so far. -/
structure World (Row D : Type) where
  sequences : ℕ → Option (AcceleratorSequence Row D)
  log : List (Record D)

/-- Calls of a stage, and what its callers do between them. -/
inductive Action (Row D : Type)
  /-- `allocate_sequence`, with whatever the new caches hold. -/
  | allocate (id tokens : ℕ) (caches : List (Cache Row)) (sampling : SamplingOptions D)
  /-- A sequence of another stage. -/
  | foreign (id : ℕ) (sequence : AcceleratorSequence Row D)
  /-- The handler sets the fields of `SequenceState`. -/
  | prepare (id : ℕ) (sampling : SamplingOptions D) (prefilling prefillOnly : Bool)
  | execute (id position : ℕ) (input : StageInput) (faults : Faults)
  | executeDecodeBatch (items : List DecodeBatchItem) (faults : Faults)

/-- A sequence after `allocate_sequence`. -/
def allocated (tokens : ℕ) (caches : List (Cache Row)) (sampling : SamplingOptions D) :
    AcceleratorSequence Row D :=
  ⟨sampling,false,false,0,true,tokens,0,false,caches⟩

/-- New caches have a row for each token in each layer. -/
def shaped (tokens : ℕ) (caches : List (Cache Row)) : Bool :=
  caches.length=stage.layers &&
    caches.all fun cache => cache.keys.length=tokens && cache.values.length=tokens

/-- Store the sequences of a call. -/
def store (sequences : ℕ → Option (AcceleratorSequence Row D)) (ids : List ℕ)
    (members : List (AcceleratorSequence Row D)) : ℕ → Option (AcceleratorSequence Row D) :=
  fun id => ((ids.zip members).lookup id).or (sequences id)

/-- What a call leaves behind. -/
def World.after (world : World Row D) (rows : List (ℕ×ℕ))
    (done : List (AcceleratorSequence Row D)×Ending D) : World Row D where
  sequences := store world.sequences (rows.map Prod.fst) done.1
  log := world.log++[⟨rows,done.2⟩]

/-- One step. Identities are not used again. -/
def step (world : World Row D) : Action Row D → Option (World Row D)
  | .allocate id tokens caches sampling =>
    if world.sequences id=none ∧ stage.shaped tokens caches=true then
      some { world with
        sequences := Function.update world.sequences id
          (some (allocated tokens caches sampling)) }
    else none
  | .foreign id sequence =>
    if world.sequences id=none ∧ sequence.owned=false then
      some { world with sequences := Function.update world.sequences id (some sequence) }
    else none
  | .prepare id sampling prefilling prefillOnly =>
    (world.sequences id).map fun sequence => { world with
      sequences := Function.update world.sequences id (some { sequence with
        sampling := sampling, prefilling := prefilling, prefillOnly := prefillOnly }) }
  | .execute id position input faults =>
    (world.sequences id).map fun state =>
      world.after [(id,countOf input)] (stage.execute faults input position state)
  | .executeDecodeBatch items faults =>
    if stage.accelerator.supportsDecodeBatch=true ∧
        ∀ item∈items,∀ id∈item.sequence,(world.sequences id).isSome=true then
      some (world.after (items.filterMap fun item => item.sequence.map fun id => (id,1))
        (stage.executeDecodeBatch faults world.sequences items))
    else none

/-- The runs of a stage. -/
def machine : Machine (World Row D) (Action Row D) where
  initial world := world.sequences=(fun _ => none) ∧ world.log=[]
  step := stage.step

end Machine

end AcceleratorStage

end Hllm.AcceleratorModel
