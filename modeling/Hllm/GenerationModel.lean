import Hllm.BoundaryCodec
import Hllm.ControlModel
import Hllm.SamplingModel

/-!
# The generation handlers

`GenerationService::Generate` on the first stage and `ExecutionService::Execute`
on the second, from one call to the next. Where a handler waits for a call to
return, it stands at a point, and the reply of the call takes it to the next
one. Clock readings, disconnects and what backends, peers and clients do are
replies. Token ids, positions and counts are natural numbers, which the checks
of a request keep within 64 bits; timings are left out.
-/

namespace Hllm.GenerationModel

open BoundaryCodec MemoryAccounting SamplingModel
open ControlModel (Failure)

variable {F D : Type}

section Messages

/-- `SamplingOptions` of a message. -/
structure WireSampling (D : Type) where
  temperature : D
  topP : D
  topK : UInt64
  seed : Option UInt64
  returnLogprobs : Bool
  topLogprobs : ℕ

/-- `GenerationRequest` -/
structure GenerationRequest (D : Type) where
  sampling : Option (WireSampling D)
  prefillChunkTokens : ℕ
  deploymentId : String
  requestId : String
  tokenIds : List ℕ
  maximumNewTokens : ℕ
  deploymentVersion : UInt64
  stopTokenIds : List ℕ
  deadlineUnixMs : ℕ

/-- `SequenceOpen` -/
structure SequenceOpen (D : Type) where
  sampling : Option (WireSampling D)
  promptTokens : ℕ
  protocolVersion : ℕ
  deploymentId : String
  deploymentVersion : UInt64
  requestId : String
  microbatchId : ℕ
  maximumTotalTokens : ℕ
  maximumNewTokens : ℕ
  stopTokenIds : List ℕ
  deadlineUnixMs : ℕ
  prefillChunkTokens : ℕ

/-- `SampledToken` of a message. -/
structure WireSampledToken (D : Type) where
  logprob : Option D
  topLogprobs : List (TokenLogProbability D)
  deploymentId : String
  deploymentVersion : UInt64
  requestId : String
  microbatchId : UInt64
  sequenceNumber : ℕ
  tokenPosition : ℕ
  tokenId : ℕ

/-- `RuntimeError` -/
structure RuntimeError where
  code : ℤ
  detail : String
  retryable : Bool
  deriving DecidableEq

/-- `TERMINAL_STATE_COMPLETED` -/
def terminalStateCompleted : ℤ := 1

/-- `SequenceTermination` -/
structure SequenceTermination where
  deploymentId : String
  deploymentVersion : UInt64
  requestId : String
  microbatchId : UInt64
  state : ℤ
  error : Option RuntimeError
  promptTokens : ℕ
  generatedTokens : ℕ
  deriving DecidableEq

/-- `StageError` -/
structure StageError where
  deploymentId : String
  deploymentVersion : UInt64
  requestId : String
  microbatchId : UInt64
  sequenceNumber : ℕ
  error : Option RuntimeError

/-- `PrefillProgress` of a message. -/
structure PrefillProgress where
  deploymentId : String
  deploymentVersion : UInt64
  requestId : String
  microbatchId : UInt64
  sequenceNumber : ℕ
  nextPosition : ℕ

/-- `StageMessage` -/
inductive StageMessage (D : Type)
  | unset
  | openSequence (opening : SequenceOpen D)
  | tensor (tensor : TensorEnvelope)
  | sampledToken (sampled : WireSampledToken D)
  | terminate (terminal : SequenceTermination)
  | error (error : StageError)
  | prefillProgress (progress : PrefillProgress)

/-- The body of a `GenerationEvent`. -/
inductive EventBody (D : Type)
  | prefillComplete (promptTokens : ℕ)
  | token (tokenId tokenPosition : ℕ) (logprob : Option D)
      (topLogprobs : List (TokenLogProbability D))
  | usage (promptTokens generatedTokens : ℕ)
  | terminal (state : ℤ)

/-- `GenerationEvent` -/
structure GenerationEvent (D : Type) where
  requestId : String
  body : EventBody D

/-- `StageOutput` -/
inductive StageOutput (D : Type)
  | boundary (hidden : BoundaryActivation)
  | sampled (token : SampledToken D)
  | progress

end Messages

section Failures

/-- `grpc::StatusCode` as the handlers use it. -/
inductive StatusCode
  | ok
  | cancelled
  | invalidArgument
  | deadlineExceeded
  | failedPrecondition
  | resourceExhausted
  | internal
  | dataLoss
  /-- Any other code of a peer. -/
  | other (code : ℕ)
  deriving DecidableEq

/-- `grpc::Status` -/
structure Status where
  code : StatusCode
  message : String
  deriving DecidableEq

/-- `grpc::Status::OK` -/
def Status.ok : Status := ⟨.ok,""⟩

/-- What is thrown in a handler. -/
inductive Thrown
  /-- What escapes from a call. -/
  | escaped (failure : Failure)
  /-- `PeerFailure`. Its status is a failure. -/
  | peer (status : Status) (failed : status.code≠.ok)

/-- `what()` -/
def Thrown.what : Thrown → String
  | .escaped (.runtime error) => error.message
  | .escaped .badAlloc => "std::bad_alloc"
  | .escaped (.other message) => message
  | .peer status _ => status.message

/-- The status of a category of errors. -/
def statusCode : ErrorCode → StatusCode
  | .invalidRequest => .invalidArgument
  | .incompatibleWorker => .failedPrecondition
  | .resourceExhausted => .resourceExhausted
  | .deadlineExceeded => .deadlineExceeded
  | .cancelled => .cancelled
  | .internal => .internal

/-- `failure`. A request that was acquired may be past its deadline or cancelled. -/
def failure (error : Thrown) (expired cancelled : Bool) : Status :=
  if expired then ⟨.deadlineExceeded,error.what⟩
  else if cancelled then ⟨.cancelled,error.what⟩
  else match error with
  | .peer status _ => status
  | .escaped (.runtime error) => ⟨statusCode error.code,error.message⟩
  | .escaped .badAlloc => ⟨.resourceExhausted,error.what⟩
  | .escaped (.other message) => ⟨.internal,message⟩

/-- A failure is no success. -/
theorem failure_code (error : Thrown) (expired cancelled : Bool) :
    (failure error expired cancelled).code≠.ok := by
  unfold failure
  split
  · nofun
  · split
    · nofun
    · split
      · rename_i status failed
        exact failed
      · rename_i error
        intro h
        cases hcode : error.code <;> rw [hcode] at h <;> cases h
      · nofun
      · nofun

/-- `peer_failure` once the stream has its status. -/
def peerFailure (status : Status) (detail : String) : Thrown :=
  if h : status.code=.ok then .peer ⟨.dataLoss,detail⟩ nofun else .peer status h

/-- What `check_running` throws. -/
def notRunning : Failure := .other "request cancelled or deadline exceeded"

/-- A categorized exception. -/
def invalidRequest (message : String) : Thrown := .escaped (.runtime ⟨.invalidRequest,message⟩)

/-- An internal error. -/
def internal (message : String) : Thrown := .escaped (.runtime ⟨.internal,message⟩)

/-- A failed read or write. -/
def disconnected (message : String) : Thrown := .escaped (.other message)

end Failures

section Leases

/-- What a handler reads of its lease: the identity of its boundary tensors, the
deadline, the size of chunks, the vocabulary, and whether the plan has two stages. -/
structure Lease where
  identity : BoundaryIdentity
  deadlineMs : ℕ
  maximumQueryTokens : ℕ
  vocabularySize : ℕ
  split : Bool

/-- The arguments of `acquire`. -/
structure Acquisition where
  deploymentId : String
  deploymentVersion : UInt64
  requestId : String
  tokens : ℕ
  deadlineMs : ℕ
  requiredStage : ℕ
  prefillChunkTokens : ℕ

/-- `effective_deadline`, with two readings of the clock. -/
def effectiveDeadline (now later contextDeadline requested : ℕ) : Except Thrown ℕ :=
  if requested=0 then .ok (min (now+60000) contextDeadline)
  else if requested ≤ later then
    .error (.escaped (.runtime ⟨.deadlineExceeded,"request deadline already expired"⟩))
  else if 3600000 < requested-later then .error (invalidRequest "deadline exceeds one hour")
  else .ok (min requested contextDeadline)

/-- `validate_stop_ids` -/
def validateStopIds (ids : List ℕ) (vocabulary : ℕ) : Except Thrown Unit :=
  if ids.any fun id => decide (vocabulary ≤ id) then
    .error (invalidRequest "stop token exceeds vocabulary")
  else .ok ()

/-- `validate_identity` -/
def validateIdentity (deployment : String) (version : UInt64) (request : String)
    (microbatch : UInt64) (lease : Lease) : Except Thrown Unit :=
  (BoundaryCodec.validateIdentity deployment version request microbatch lease.identity).mapError
    fun error => .escaped (.runtime error)

/-- `set_sampling` -/
def setSampling (options : SamplingOptions D) (vocabulary : ℕ) : Except Thrown Unit :=
  if vocabulary < options.topK.toNat then .error (invalidRequest "top_k exceeds vocabulary")
  else .ok ()

section Sampling

variable [Double F D]

/-- The options without a message. -/
def defaultSampling : SamplingOptions D := ⟨Double.zero,Double.one,0,0,false,0⟩

/-- `sampling_options`, with random bits for a message without a seed. -/
def samplingOptions (wire : Option (WireSampling D)) (random : UInt64) :
    Except Thrown (SamplingOptions D) :=
  match wire with
  | none => .ok defaultSampling
  | some wire =>
    let result : SamplingOptions D := ⟨wire.temperature,wire.topP,wire.topK,
      wire.seed.getD random,wire.returnLogprobs,wire.topLogprobs⟩
    match validateSampling result with
    | .error error => .error (.escaped (.runtime error))
    | .ok () => .ok result

end Sampling

end Leases

/-- What the calls of a handler come back with. -/
inductive Reply (D : Type)
  /-- Clock readings, the deadline of the context and random bits before `acquire`. -/
  | started (now later contextDeadline : ℕ) (random : UInt64)
  /-- `acquire` returned. -/
  | acquired (lease : Lease)
  /-- A call threw. -/
  | threw (error : Failure)
  /-- `check_running` returned. -/
  | running
  /-- A pass of the backend returned. -/
  | output (output : StageOutput D)
  /-- A message or an event was written, or not. -/
  | written (ok : Bool)
  /-- A message was read, or the stream is at its end. -/
  | read (message : Option (StageMessage D))
  /-- The stream of a peer has its status. -/
  | finished (status : Status)
  /-- `release` returned. -/
  | released
  /-- The guard is destroyed; whether the request is then past its deadline or
  cancelled. -/
  | left (expired cancelled : Bool)

section Driver

/-- Where `Generate` stands after it acquired its request. -/
inductive GeneratePoint (D : Type)
  /-- Writing the opening to the peer. -/
  | opening
  /-- `check_running` at the head of the loop. -/
  | looping
  /-- In the backend. -/
  | executing
  /-- Writing the boundary tensor. -/
  | sending (tensor : TensorEnvelope)
  /-- Reading the answer of the peer. -/
  | reading
  /-- A failed peer is finished. -/
  | peerFailing (detail : String)
  /-- `check_running` before a token is emitted. -/
  | sampled (token : SampledToken D)
  /-- `check_running` before the prompt is announced. -/
  | announcing (token : SampledToken D)
  /-- Writing that the prompt is complete. -/
  | announced (token : SampledToken D)
  /-- `check_running` before the token is written. -/
  | emitting (token : SampledToken D)
  /-- Writing the token. -/
  | emitted (token : SampledToken D)
  /-- Writing the termination to the peer. -/
  | terminating
  /-- Reading its acknowledgment. -/
  | acknowledging
  /-- Reading the end of the stream. -/
  | draining
  /-- Finishing the stream. -/
  | finishing
  /-- `check_running` before the outcome is committed. -/
  | committing
  /-- Releasing the request as completed. -/
  | releasing
  /-- Writing the usage. -/
  | usage
  /-- Writing the terminal event. -/
  | terminal
  /-- Leaving the scope of the guard. -/
  | leaving (result : Except Thrown Unit)

/-- The locals of `Generate` after it acquired its request. -/
structure Generation (D : Type) where
  request : GenerationRequest D
  sampling : SamplingOptions D
  lease : Lease
  chunkSize : ℕ
  position : ℕ
  generated : ℕ
  step : ℕ
  tokens : List ℕ
  prefilling : Bool
  prefillOnly : Bool
  /-- Ghost: events written so far. -/
  events : List (GenerationEvent D)
  /-- Ghost: rows the backend has executed so far. -/
  executed : ℕ

/-- `GenerationService::Generate` between two calls. -/
inductive Generate (D : Type)
  /-- Before `acquire`. -/
  | starting (request : GenerationRequest D)
  /-- Inside `acquire`. -/
  | acquiring (request : GenerationRequest D) (sampling : SamplingOptions D) (call : Acquisition)
  /-- After `acquire`. -/
  | running (g : Generation D) (point : GeneratePoint D)
  /-- Returned, with the events that were written. -/
  | returned (request : GenerationRequest D) (events : List (GenerationEvent D)) (status : Status)

namespace Generation

variable (g : Generation D)

/-- An exception leaves the scope of the guard. -/
def fails (error : Thrown) : Generate D := .running g (.leaving (.error error))

/-- The message that opens the sequence of the peer. -/
def opening : SequenceOpen D where
  sampling := some ⟨g.sampling.temperature,g.sampling.topP,g.sampling.topK,some g.sampling.seed,
    g.sampling.returnLogprobs,g.sampling.topLogprobs⟩
  promptTokens := g.request.tokenIds.length
  protocolVersion := 1
  deploymentId := g.request.deploymentId
  deploymentVersion := g.request.deploymentVersion
  requestId := g.request.requestId
  microbatchId := 0
  maximumTotalTokens := g.request.tokenIds.length+g.request.maximumNewTokens
  maximumNewTokens := g.request.maximumNewTokens
  stopTokenIds := g.request.stopTokenIds
  deadlineUnixMs := g.lease.deadlineMs
  prefillChunkTokens := g.request.prefillChunkTokens

/-- The message that terminates the sequence of the peer. -/
def termination : SequenceTermination where
  deploymentId := g.request.deploymentId
  deploymentVersion := g.request.deploymentVersion
  requestId := g.request.requestId
  microbatchId := 0
  state := terminalStateCompleted
  error := none
  promptTokens := g.request.tokenIds.length
  generatedTokens := g.generated

/-- The loop is over. -/
def afterLoop : Generate D :=
  if g.lease.split then .running g .terminating else .running g .committing

/-- The condition of the loop. -/
def loopHead : Generate D :=
  if g.generated < g.request.maximumNewTokens then .running g .looping else g.afterLoop

/-- The tokens of the next pass. -/
def nextTokens : List ℕ :=
  if g.position < g.request.tokenIds.length then
    (g.request.tokenIds.drop g.position).take
      (min g.chunkSize (g.request.tokenIds.length-g.position))
  else g.tokens

/-- The loop body up to the call of the scheduler. -/
def enterBackend : Generate D :=
  let prefilling := decide (g.position < g.request.tokenIds.length)
  .running { g with
    tokens := g.nextTokens
    prefilling := prefilling
    prefillOnly := prefilling &&
      decide (g.position+g.nextTokens.length < g.request.tokenIds.length) } .executing

/-- The position moves on after a chunk of the prompt, and the loop continues. -/
def continueLoop : Generate D :=
  { g with position := g.position+g.tokens.length,step := g.step+1 }.loopHead

/-- What the first of two stages does with the output of its backend. -/
def sendBoundary (output : StageOutput D) : Generate D :=
  match output with
  | .boundary hidden =>
    if hidden.tokens.toNat≠g.tokens.length then
      g.fails (internal "intermediate backend did not return boundary activations")
    else match encodeTensor hidden g.lease.identity (UInt64.ofNat g.step) (UInt64.ofNat g.position)
        g.prefilling with
      | .error error => g.fails (.escaped (.runtime error))
      | .ok tensor => .running g (.sending tensor)
  | _ => g.fails (internal "intermediate backend did not return boundary activations")

/-- What the only stage does with the output of its backend. -/
def takeOutput (output : StageOutput D) : Generate D :=
  if g.prefillOnly then
    match output with
    | .progress => g.continueLoop
    | _ => g.fails (internal "backend sampled an incomplete prompt")
  else match output with
    | .sampled token =>
      if g.lease.vocabularySize ≤ token.id then
        g.fails (internal "final backend did not return a valid sampled token")
      else .running g (.sampled token)
    | _ => g.fails (internal "final backend did not return a valid sampled token")

/-- An acknowledgment of a chunk of the prompt. -/
def takeProgress (progress : PrefillProgress) : Generate D :=
  match validateIdentity progress.deploymentId progress.deploymentVersion progress.requestId
      progress.microbatchId g.lease with
  | .error error => g.fails error
  | .ok () =>
    if progress.sequenceNumber≠g.step ∨ progress.nextPosition≠g.position+g.tokens.length then
      g.fails (internal "invalid prefill acknowledgment")
    else g.continueLoop

/-- A token the peer sampled. -/
def takeSampled (sampled : WireSampledToken D) : Generate D :=
  match validateIdentity sampled.deploymentId sampled.deploymentVersion sampled.requestId
      sampled.microbatchId g.lease with
  | .error error => g.fails error
  | .ok () =>
    if sampled.sequenceNumber≠g.step ∨ sampled.tokenPosition≠g.position+g.tokens.length ∨
        g.lease.vocabularySize ≤ sampled.tokenId then
      g.fails (internal "invalid sampled token feedback")
    else .running g (.sampled ⟨sampled.tokenId,sampled.logprob,sampled.topLogprobs⟩)

/-- What the first of two stages does with the answer of the peer. -/
def takeResponse (response : StageMessage D) : Generate D :=
  if g.prefillOnly then
    match response with
    | .prefillProgress progress => g.takeProgress progress
    | _ => g.fails (internal "expected prefill acknowledgment")
  else match response with
    | .sampledToken sampled => g.takeSampled sampled
    | _ => g.fails (internal "unexpected downstream response")

/-- The position moves on before a token is emitted. -/
def moveOn (token : SampledToken D) : Generate D :=
  .running { g with position := g.position+g.tokens.length } (.emitting token)

/-- Write an event. -/
def record (body : EventBody D) : Generation D :=
  { g with events := g.events++[⟨g.request.requestId,body⟩] }

/-- The end of the loop body, after a token was emitted. -/
def afterToken (token : SampledToken D) : Generate D :=
  let g := { g with generated := g.generated+1 }
  if token.id∈g.request.stopTokenIds then g.afterLoop
  else { g with tokens := [token.id],step := g.step+1 }.loopHead

/-- The acknowledgment of a termination is its copy. -/
def acknowledges : StageMessage D → Bool
  | .terminate ack => decide (ack=g.termination)
  | _ => false

/-- `check_running` returns. -/
def checked : GeneratePoint D → Option (Generate D)
  | .looping => some g.enterBackend
  | .sampled token =>
    some (if g.generated=0 then .running g (.announcing token) else g.moveOn token)
  | .announcing token => some (.running g (.announced token))
  | .emitting token => some (.running g (.emitted token))
  | .committing => some (.running g .releasing)
  | _ => none

/-- A pass of the backend returns. -/
def computed (output : StageOutput D) : GeneratePoint D → Option (Generate D)
  | .executing =>
    let g := { g with executed := g.executed+g.tokens.length }
    some (if g.lease.split then g.sendBoundary output else g.takeOutput output)
  | _ => none

/-- A message or an event is written. -/
def wrote : GeneratePoint D → Option (Generate D)
  | .opening => some g.loopHead
  | .sending _ => some (.running g .reading)
  | .announced token => some ((g.record (.prefillComplete g.request.tokenIds.length)).moveOn token)
  | .emitted token =>
    some ((g.record (.token token.id g.position token.logprob token.topLogprobs)).afterToken token)
  | .terminating => some (.running g .acknowledging)
  | .usage => some (.running (g.record (.usage g.request.tokenIds.length g.generated)) .terminal)
  | .terminal =>
    some (.running (g.record (.terminal terminalStateCompleted)) (.leaving (.ok ())))
  | _ => none

/-- A message or an event is not written. -/
def unwritten : GeneratePoint D → Option (Generate D)
  | .opening => some (.running g (.peerFailing "cannot open downstream sequence"))
  | .sending _ => some (.running g (.peerFailing "downstream activation send failed"))
  | .announced _ => some (g.fails (disconnected "generation client disconnected"))
  | .emitted _ => some (g.fails (disconnected "generation client disconnected"))
  | .terminating => some (g.fails (disconnected "downstream termination failed"))
  | .usage => some (g.fails (disconnected "generation client disconnected"))
  | .terminal => some (g.fails (disconnected "generation client disconnected"))
  | _ => none

/-- A message of the peer is read. -/
def received (message : StageMessage D) : GeneratePoint D → Option (Generate D)
  | .reading => some (g.takeResponse message)
  | .acknowledging =>
    some (if g.acknowledges message then .running g .draining
      else g.fails (disconnected "downstream cleanup was not acknowledged"))
  | .draining => some (g.fails (disconnected "downstream cleanup was not acknowledged"))
  | _ => none

/-- There is no message to read. -/
def unread : GeneratePoint D → Option (Generate D)
  | .reading => some (.running g (.peerFailing "downstream failed to return a sampled token"))
  | .acknowledging => some (g.fails (disconnected "downstream cleanup was not acknowledged"))
  | .draining => some (.running g .finishing)
  | _ => none

/-- The stream of the peer is finished. -/
def finished (status : Status) : GeneratePoint D → Option (Generate D)
  | .peerFailing detail => some (g.fails (peerFailure status detail))
  | .finishing =>
    some (if status.code=.ok then .running g .committing
      else g.fails (disconnected "downstream cleanup was not acknowledged"))
  | _ => none

/-- A call throws. -/
def threw (error : Failure) : GeneratePoint D → Option (Generate D)
  | .releasing => none
  | .leaving _ => none
  | _ => some (g.fails (.escaped error))

/-- `release` returns. -/
def released : GeneratePoint D → Option (Generate D)
  | .releasing => some (.running g .usage)
  | _ => none

/-- The guard is destroyed, and `Generate` returns. -/
def left (expired cancelled : Bool) : GeneratePoint D → Option (Generate D)
  | .leaving (.ok ()) => some (.returned g.request g.events .ok)
  | .leaving (.error error) =>
    some (.returned g.request g.events (failure error expired cancelled))
  | _ => none

/-- A call returns after `acquire`. -/
def resume (point : GeneratePoint D) : Reply D → Option (Generate D)
  | .started _ _ _ _ => none
  | .acquired _ => none
  | .threw error => g.threw error point
  | .running => g.checked point
  | .output output => g.computed output point
  | .written true => g.wrote point
  | .written false => g.unwritten point
  | .read (some message) => g.received message point
  | .read none => g.unread point
  | .finished status => g.finished status point
  | .released => g.released point
  | .left expired cancelled => g.left expired cancelled point

end Generation

section Start

variable [Double F D]

/-- `Generate` up to `acquire`. -/
def GenerationRequest.start (request : GenerationRequest D) (now later contextDeadline : ℕ)
    (random : UInt64) : Except Thrown (SamplingOptions D×Acquisition) :=
  if request.tokenIds.length=0 ∨ request.maximumNewTokens=0 ∨
      2^64-1-request.tokenIds.length < request.maximumNewTokens then
    .error (invalidRequest
      "generation requires prompt tokens and a bounded positive output length")
  else do
    let sampling ← samplingOptions request.sampling random
    let deadline ← effectiveDeadline now later contextDeadline request.deadlineUnixMs
    pure (sampling,⟨request.deploymentId,request.deploymentVersion,request.requestId,
      request.tokenIds.length+request.maximumNewTokens,deadline,0,request.prefillChunkTokens⟩)

/-- The size of the chunks of a prompt. -/
def GenerationRequest.chunkSize (request : GenerationRequest D) : ℕ :=
  if request.prefillChunkTokens=0 then request.tokenIds.length
  else min request.prefillChunkTokens request.tokenIds.length

/-- `Generate` after `acquire`, up to the opening of the peer. -/
def GenerationRequest.admitted (request : GenerationRequest D) (sampling : SamplingOptions D)
    (lease : Lease) : Except Thrown Unit := do
  setSampling sampling lease.vocabularySize
  validateStopIds request.stopTokenIds lease.vocabularySize
  if lease.split=true ∧
      (kMaximumRpcBytes/4/lease.identity.hiddenSize).toNat < request.chunkSize then
    .error (.escaped
      (.runtime ⟨.resourceExhausted,"prefill activation exceeds transport limit"⟩))
  else if lease.maximumQueryTokens < request.chunkSize then
    .error (internal "prefill chunk exceeds the reserved chunk size")
  else if request.tokenIds.any fun token => decide (lease.vocabularySize ≤ token) then
    .error (invalidRequest "token ID exceeds vocabulary")
  else .ok ()

/-- The locals of `Generate` before its loop. -/
def GenerationRequest.generation (request : GenerationRequest D) (sampling : SamplingOptions D)
    (lease : Lease) : Generation D where
  request := request
  sampling := sampling
  lease := lease
  chunkSize := request.chunkSize
  position := 0
  generated := 0
  step := 0
  tokens := request.tokenIds
  prefilling := false
  prefillOnly := false
  events := []
  executed := 0

/-- `Generate` from `acquire` to its next call. -/
def GenerationRequest.afterLease (request : GenerationRequest D) (sampling : SamplingOptions D)
    (lease : Lease) : Generate D :=
  let g := request.generation sampling lease
  match request.admitted sampling lease with
  | .error error => g.fails error
  | .ok () => if lease.split then .running g .opening else g.loopHead

/-- A call of `Generate` returns. -/
def Generate.resume : Generate D → Reply D → Option (Generate D)
  | .starting request,.started now later contextDeadline random =>
    match request.start now later contextDeadline random with
    | .error error => some (.returned request [] (failure error false false))
    | .ok (sampling,call) => some (.acquiring request sampling call)
  | .acquiring request _ _,.threw error =>
    some (.returned request [] (failure (.escaped error) false false))
  | .acquiring request sampling _,.acquired lease => some (request.afterLease sampling lease)
  | .running g point,reply => g.resume point reply
  | _,_ => none

end Start

/-- The call of `acquire` that `Generate` is in. -/
def Generate.acquisition : Generate D → Option Acquisition
  | .acquiring _ _ call => some call
  | _ => none

/-- The message `Generate` is writing to its peer. -/
def Generate.outgoing : Generate D → Option (StageMessage D)
  | .running g .opening => some (.openSequence g.opening)
  | .running _ (.sending tensor) => some (.tensor tensor)
  | .running g .terminating => some (.terminate g.termination)
  | _ => none

/-- The events that were written. -/
def Generate.events : Generate D → List (GenerationEvent D)
  | .starting _ => []
  | .acquiring _ _ _ => []
  | .running g _ => g.events
  | .returned _ events _ => events

/-- The request `Generate` was called with. -/
def Generate.request : Generate D → GenerationRequest D
  | .starting request => request
  | .acquiring request _ _ => request
  | .running g _ => g.request
  | .returned request _ _ => request

end Driver

section Follower

/-- Where `Execute` stands after it acquired its request. -/
inductive ExecutePoint (D : Type)
  /-- `check_running` before a message is read. -/
  | awaiting
  /-- Reading a message. -/
  | reading
  /-- `check_running` after a message was read. -/
  | received (message : StageMessage D)
  /-- In the backend. -/
  | executing (input : BoundaryActivation)
  /-- `check_running` before a chunk of the prompt is acknowledged. -/
  | progressing (progress : PrefillProgress)
  /-- Writing the acknowledgment. -/
  | progressed (progress : PrefillProgress)
  /-- `check_running` after a token was sampled. -/
  | sampled (token : SampledToken D)
  /-- `check_running` before the token is sent. -/
  | answering (sampled : WireSampledToken D)
  /-- Writing the token. -/
  | answered (sampled : WireSampledToken D)
  /-- Releasing the request as completed. -/
  | releasing (terminal : SequenceTermination)
  /-- Writing the acknowledgment of the termination. -/
  | acknowledging (terminal : SequenceTermination)
  /-- Leaving the scope of the guard. -/
  | leaving (result : Except Thrown Unit)

/-- The locals of `Execute` after it acquired its request. -/
structure Execution (D : Type) where
  opening : SequenceOpen D
  lease : Lease
  position : ℕ
  sequence : ℕ
  prompt : ℕ
  generated : ℕ
  stopped : Bool
  prefilling : Bool
  prefillOnly : Bool
  /-- Tokens of the input in the backend. -/
  count : ℕ
  /-- Ghost: rows the backend has executed so far. -/
  executed : ℕ

/-- `ExecutionService::Execute` between two calls. -/
inductive Execute (D : Type)
  /-- Reading the first message. -/
  | starting
  /-- Before `acquire`. -/
  | opened (opening : SequenceOpen D)
  /-- Inside `acquire`. -/
  | acquiring (opening : SequenceOpen D) (sampling : SamplingOptions D) (call : Acquisition)
  /-- After `acquire`. -/
  | running (e : Execution D) (point : ExecutePoint D)
  /-- Returned. -/
  | returned (status : Status)

namespace Execution

variable (e : Execution D)

/-- An exception leaves the scope of the guard. -/
def fails (error : Thrown) : Execute D := .running e (.leaving (.error error))

/-- A termination is received. -/
def takeTermination (terminal : SequenceTermination) : Execute D :=
  match validateIdentity terminal.deploymentId terminal.deploymentVersion terminal.requestId
      terminal.microbatchId e.lease with
  | .error error => e.fails error
  | .ok () =>
    if terminal.state≠terminalStateCompleted ∨ e.stopped=false ∨
        terminal.promptTokens≠e.prompt ∨ terminal.generatedTokens≠e.generated then
      e.fails (invalidRequest "invalid sequence termination")
    else .running e (.releasing terminal)

/-- The most tokens of a prompt. -/
def maximumPrompt : ℕ := e.lease.identity.maximumTokens.toNat-e.opening.maximumNewTokens

/-- A decoded boundary tensor up to the call of the scheduler. -/
def enterBackend (input : BoundaryActivation) (prefilling : Bool) : Execute D :=
  let count := input.tokens.toNat
  let prompt := if e.sequence=0 ∧ e.prompt=0 then count else e.prompt
  if e.sequence=0 ∧ e.prompt=0 ∧ e.maximumPrompt < prompt then
    e.fails (invalidRequest "prompt and output exceed reservation")
  else if prefilling=true ∧ prompt-e.position < count ∨ prefilling=false ∧ count≠1 then
    e.fails (invalidRequest "invalid prefill/decode chunk length")
  else if e.lease.maximumQueryTokens < count then
    e.fails (invalidRequest "prefill chunk exceeds the reserved chunk size")
  else .running { e with
    prompt := prompt
    count := count
    prefilling := prefilling
    prefillOnly := prefilling && decide (e.position+count < prompt) } (.executing input)

/-- A boundary tensor is received. -/
def takeTensor (tensor : TensorEnvelope) : Execute D :=
  let prefilling := decide (e.sequence=0 ∨ e.position < e.prompt)
  match decodeTensor tensor e.lease.identity (UInt64.ofNat e.sequence) (UInt64.ofNat e.position)
      prefilling with
  | .error error => e.fails (.escaped (.runtime error))
  | .ok input => e.enterBackend input prefilling

/-- A message is received. -/
def takeMessage : StageMessage D → Execute D
  | .terminate terminal => e.takeTermination terminal
  | .tensor tensor =>
    if e.stopped then e.fails (invalidRequest "unexpected stage message") else e.takeTensor tensor
  | _ => e.fails (invalidRequest "unexpected stage message")

/-- The acknowledgment of a chunk of the prompt. -/
def progress : PrefillProgress where
  deploymentId := e.opening.deploymentId
  deploymentVersion := e.opening.deploymentVersion
  requestId := e.opening.requestId
  microbatchId := 0
  sequenceNumber := e.sequence
  nextPosition := e.position+e.count

/-- The position moves on after a pass. -/
def advanced : Execution D :=
  { e with sequence := e.sequence+1,position := e.position+e.count }

/-- What the second stage does with the output of its backend. -/
def takeOutput (output : StageOutput D) : Execute D :=
  if e.prefillOnly then
    match output with
    | .progress => .running e.advanced (.progressing e.progress)
    | _ => e.fails (internal "backend sampled an incomplete prompt")
  else match output with
    | .sampled token =>
      if e.lease.vocabularySize ≤ token.id then
        e.fails (internal "final backend did not return a valid sampled token")
      else .running e (.sampled token)
    | _ => e.fails (internal "final backend did not return a valid sampled token")

/-- The message with a sampled token. -/
def sampledToken (token : SampledToken D) : WireSampledToken D where
  logprob := token.logprob
  topLogprobs := token.topLogprobs
  deploymentId := e.opening.deploymentId
  deploymentVersion := e.opening.deploymentVersion
  requestId := e.opening.requestId
  microbatchId := 0
  sequenceNumber := e.sequence
  tokenPosition := e.position+e.count
  tokenId := token.id

/-- A sampled token is counted before it is sent. -/
def answer (token : SampledToken D) : Execute D :=
  .running { e.advanced with
    generated := e.generated+1
    stopped := decide (e.generated+1=e.opening.maximumNewTokens ∨
      token.id∈e.opening.stopTokenIds) } (.answering (e.sampledToken token))

/-- `check_running` returns. -/
def checked : ExecutePoint D → Option (Execute D)
  | .awaiting => some (.running e .reading)
  | .received message => some (e.takeMessage message)
  | .progressing progress => some (.running e (.progressed progress))
  | .sampled token => some (e.answer token)
  | .answering sampled => some (.running e (.answered sampled))
  | _ => none

/-- A pass of the backend returns. -/
def computed (output : StageOutput D) : ExecutePoint D → Option (Execute D)
  | .executing _ => some ({ e with executed := e.executed+e.count }.takeOutput output)
  | _ => none

/-- A message is written. -/
def wrote : ExecutePoint D → Option (Execute D)
  | .progressed _ => some (.running e .awaiting)
  | .answered _ => some (.running e .awaiting)
  | .acknowledging _ => some (.running e (.leaving (.ok ())))
  | _ => none

/-- A message is not written. -/
def unwritten : ExecutePoint D → Option (Execute D)
  | .progressed _ => some (e.fails (disconnected "prefill acknowledgment failed"))
  | .answered _ => some (e.fails (disconnected "sampled token send failed"))
  | .acknowledging _ => some (e.fails (disconnected "termination acknowledgment failed"))
  | _ => none

/-- A message is read, or the stream is at its end. -/
def reads : Option (StageMessage D) → ExecutePoint D → Option (Execute D)
  | some message,.reading => some (.running e (.received message))
  | none,.reading => some (e.fails (disconnected "stage stream disconnected before termination"))
  | _,_ => none

/-- A call throws. -/
def threw (error : Failure) : ExecutePoint D → Option (Execute D)
  | .releasing _ => none
  | .leaving _ => none
  | _ => some (e.fails (.escaped error))

/-- `release` returns. -/
def released : ExecutePoint D → Option (Execute D)
  | .releasing terminal => some (.running e (.acknowledging terminal))
  | _ => none

/-- The guard is destroyed, and `Execute` returns. -/
def left (expired cancelled : Bool) : ExecutePoint D → Option (Execute D)
  | .leaving (.ok ()) => some (.returned .ok)
  | .leaving (.error error) => some (.returned (failure error expired cancelled))
  | _ => none

/-- A call returns after `acquire`. -/
def resume (point : ExecutePoint D) : Reply D → Option (Execute D)
  | .started _ _ _ _ => none
  | .acquired _ => none
  | .threw error => e.threw error point
  | .running => e.checked point
  | .output output => e.computed output point
  | .written true => e.wrote point
  | .written false => e.unwritten point
  | .read message => e.reads message point
  | .finished _ => none
  | .released => e.released point
  | .left expired cancelled => left expired cancelled point

end Execution

section Start

variable [Double F D]

/-- `Execute` from its first message to `acquire`. -/
def SequenceOpen.start (opening : SequenceOpen D) (now later contextDeadline : ℕ)
    (random : UInt64) : Except Thrown (SamplingOptions D×Acquisition) := do
  let sampling ← samplingOptions opening.sampling random
  if opening.protocolVersion≠1 ∨ opening.microbatchId≠0 ∨ opening.maximumNewTokens=0 ∨
      opening.maximumTotalTokens ≤ opening.maximumNewTokens then
    .error (invalidRequest "invalid sequence opening")
  else do
    let deadline ← effectiveDeadline now later contextDeadline opening.deadlineUnixMs
    pure (sampling,⟨opening.deploymentId,opening.deploymentVersion,opening.requestId,
      opening.maximumTotalTokens,deadline,1,opening.prefillChunkTokens⟩)

/-- The locals of `Execute` before its loop. -/
def SequenceOpen.execution (opening : SequenceOpen D) (lease : Lease) : Execution D where
  opening := opening
  lease := lease
  position := 0
  sequence := 0
  prompt := opening.promptTokens
  generated := 0
  stopped := false
  prefilling := false
  prefillOnly := false
  count := 0
  executed := 0

/-- `Execute` after `acquire`, up to its loop. -/
def SequenceOpen.admitted (opening : SequenceOpen D) (sampling : SamplingOptions D)
    (lease : Lease) : Except Thrown Unit := do
  setSampling sampling lease.vocabularySize
  validateStopIds opening.stopTokenIds lease.vocabularySize
  if (opening.execution lease).maximumPrompt < opening.promptTokens then
    .error (invalidRequest "prompt exceeds reservation")
  else .ok ()

/-- `Execute` from `acquire` to its next call. -/
def SequenceOpen.afterLease (opening : SequenceOpen D) (sampling : SamplingOptions D)
    (lease : Lease) : Execute D :=
  match opening.admitted sampling lease with
  | .error error => (opening.execution lease).fails error
  | .ok () => .running (opening.execution lease) .awaiting

/-- What `Execute` does with its first message. -/
def firstMessage : Option (StageMessage D) → Execute D
  | some (.openSequence opening) => .opened opening
  | _ => .returned
    (failure (invalidRequest "stage stream must start with SequenceOpen") false false)

/-- A call of `Execute` returns. -/
def Execute.resume : Execute D → Reply D → Option (Execute D)
  | .starting,.read message => some (firstMessage message)
  | .opened opening,.started now later contextDeadline random =>
    match opening.start now later contextDeadline random with
    | .error error => some (.returned (failure error false false))
    | .ok (sampling,call) => some (.acquiring opening sampling call)
  | .acquiring _ _ _,.threw error =>
    some (.returned (failure (.escaped error) false false))
  | .acquiring opening sampling _,.acquired lease => some (opening.afterLease sampling lease)
  | .running e point,reply => e.resume point reply
  | _,_ => none

end Start

/-- The call of `acquire` that `Execute` is in. -/
def Execute.acquisition : Execute D → Option Acquisition
  | .acquiring _ _ call => some call
  | _ => none

/-- The message `Execute` is writing. -/
def Execute.outgoing : Execute D → Option (StageMessage D)
  | .running _ (.progressed progress) => some (.prefillProgress progress)
  | .running _ (.answered sampled) => some (.sampledToken sampled)
  | .running _ (.acknowledging terminal) => some (.terminate terminal)
  | _ => none

end Follower

end Hllm.GenerationModel
