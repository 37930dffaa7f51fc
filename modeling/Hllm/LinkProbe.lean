import Hllm.BoundaryCodec
import Hllm.PlanValidation
import Hllm.RunInvariants
import Mathlib.Data.NNRat.Defs
import Mathlib.Data.Nat.Log

/-!
# Link probes

Two probes that measure the link between them: `QualifyLink` on the source
opens one stream to the target for every cycle, and `Execute` on the target
answers each activation with a token. The two run as separate parties. Each
reads the messages of the other in order from a stream, and the actions of a
run say which of them moves and what the clock of the source measures. There
are no deadlines, cancellations or transport failures. Arithmetic is that of
the machine words of the source.
-/

namespace Hllm.LinkProbe

open BoundaryCodec MemoryAccounting RunInvariants

/-- `grpc::StatusCode`, as far as a probe uses it. -/
inductive StatusCode
  | ok
  | cancelled
  | invalidArgument
  | deadlineExceeded
  | resourceExhausted
  | failedPrecondition
  | internal
  | dataLoss
  deriving DecidableEq

/-- `grpc::Status` -/
structure Status where
  code : StatusCode
  message : String
  deriving DecidableEq

/-- `grpc::Status::OK` -/
def Status.success : Status := ⟨.ok,""⟩

/-- `failure` of a thrown runtime error. -/
def failure (error : Error) : Status where
  code := match error.code with
    | .invalidRequest => .invalidArgument
    | .incompatibleWorker => .failedPrecondition
    | .resourceExhausted => .resourceExhausted
    | .deadlineExceeded => .deadlineExceeded
    | .cancelled => .cancelled
    | .internal => .internal
  message := error.message

/-- The status of a failed `require`. -/
def invalid (detail : String) : Status := ⟨.invalidArgument,detail⟩

/-- The status of a failed `require_peer`. -/
def dataLoss (detail : String) : Status := ⟨.dataLoss,detail⟩

/-- `peer_failure` of a stream that ended with a status. -/
def peerFailure (status : Status) (detail : String) : Status :=
  if status.code≠.ok then status else dataLoss detail

/-- `v1::LinkProbeIdentity` -/
structure ProbeIdentity where
  workerId : String
  binaryDigest : String
  sourceRevision : String
  compiler : String
  grpcVersion : String
  protobufVersion : String
  host : String
  os : String
  endpoint : String
  deriving DecidableEq

/-- Field checks of the Python `ProbeIdentity`: labels and a digest. -/
def ProbeIdentity.accepted (identity : ProbeIdentity) : Bool :=
  [identity.workerId,identity.sourceRevision,identity.compiler,identity.grpcVersion,
    identity.protobufVersion,identity.host,identity.os,identity.endpoint].all (·≠"") &&
  PlanValidation.isDigest identity.binaryDigest

/-- What `server_config` writes. The endpoint to listen on is numeric and the
digest is one of SHA-256. -/
structure ServerConfig where
  workerId : String
  listen : String
  peers : List (String×String)
  sourceRevision : String
  binaryDigest : String
  listening : listen≠""
  digested : PlanValidation.isDigest binaryDigest=true

/-- What the executable and its host say about themselves, none of it empty. -/
structure Build where
  compiler : String
  grpcVersion : String
  protobufVersion : String
  host : String
  os : String
  named : [compiler,grpcVersion,protobufVersion,host,os].all (·≠"")=true

/-- A running `Probe`: who it is and which peers it may measure, itself not
among them. -/
structure Probe where
  /-- `info_` -/
  info : ProbeIdentity
  /-- `peers_` -/
  peers : List (String×String)
  identified : info.accepted=true
  apart : info.workerId∉peers.map Prod.fst

/-- `info_` as the constructor fills it. -/
def infoOf (config : ServerConfig) (build : Build) : ProbeIdentity where
  workerId := config.workerId
  binaryDigest := config.binaryDigest
  sourceRevision := config.sourceRevision
  compiler := build.compiler
  grpcVersion := build.grpcVersion
  protobufVersion := build.protobufVersion
  host := build.host
  os := build.os
  endpoint := config.listen

/-- An identity the constructor lets through is one the Python side accepts. -/
theorem infoOf_accepted {config : ServerConfig} {build : Build}
    (h : config.workerId≠"" ∧ config.binaryDigest.length=64 ∧ config.sourceRevision≠"") :
    (infoOf config build).accepted=true := by
  have hnamed := build.named
  have hlisten := config.listening
  obtain ⟨hworker,-,hrevision⟩ := h
  unfold ProbeIdentity.accepted
  rw [Bool.and_eq_true]
  refine ⟨?_,config.digested⟩
  simp only [List.all_cons,List.all_nil,Bool.and_eq_true,decide_eq_true_eq,infoOf] at hnamed ⊢
  exact ⟨hworker,hrevision,hnamed.1,hnamed.2.1,hnamed.2.2.1,hnamed.2.2.2.1,hnamed.2.2.2.2.1,
    hlisten,trivial⟩

/-- `Probe::Probe` -/
def Probe.create (config : ServerConfig) (build : Build) : Except String Probe :=
  if h : config.workerId≠"" ∧ config.binaryDigest.length=64 ∧ config.sourceRevision≠"" then
    if hapart : config.workerId∉config.peers.map Prod.fst then
      .ok ⟨infoOf config build,config.peers,infoOf_accepted h,hapart⟩
    else .error "self peer is forbidden"
  else .error "missing probe build identity"

/-- `v1::SequenceOpen`, without the fields a probe does not set and without the
deadline, which it sets but no side reads. -/
structure SequenceOpen where
  protocolVersion : UInt32
  deploymentId : String
  deploymentVersion : UInt64
  requestId : String
  microbatchId : UInt64 := 0
  maximumTotalTokens : UInt64
  maximumNewTokens : UInt64
  stopTokenIds : List UInt64 := []
  deriving DecidableEq

/-- `v1::SampledToken`, without log probabilities. -/
structure SampledToken where
  deploymentId : String
  deploymentVersion : UInt64
  requestId : String
  microbatchId : UInt64 := 0
  sequenceNumber : UInt64
  tokenPosition : UInt64
  tokenId : UInt64
  deriving DecidableEq

/-- `TERMINAL_STATE_COMPLETED` -/
def terminalStateCompleted : ℤ := 1

/-- `v1::SequenceTermination` -/
structure SequenceTermination where
  deploymentId : String
  deploymentVersion : UInt64
  requestId : String
  microbatchId : UInt64 := 0
  state : ℤ
  error : Option String := none
  promptTokens : UInt64 := 0
  generatedTokens : UInt64 := 0
  deriving DecidableEq

/-- `v1::StageMessage`. The bodies a probe refuses are one constructor. -/
inductive StageMessage
  | openSequence (message : SequenceOpen)
  | tensor (message : TensorEnvelope)
  | sampledToken (message : SampledToken)
  | terminate (message : SequenceTermination)
  | other
  deriving DecidableEq

section Sizes

/-- Bytes of a base-128 number. -/
def varintBytes (n : ℕ) : ℕ := Nat.log 128 n+1

/-- Bytes of a number field with a small field number, absent when zero. -/
def numberBytes (n : ℕ) : ℕ := if n=0 then 0 else 1+varintBytes n

/-- Bytes of a field with a length, such as a nested message. -/
def delimitedBytes (length : ℕ) : ℕ := 1+varintBytes length+length

/-- Bytes of a string or bytes field, absent when empty. -/
def textBytes (length : ℕ) : ℕ := if length=0 then 0 else delimitedBytes length

/-- Bytes of a packed repeated field. -/
def packedBytes (values : List UInt64) : ℕ :=
  textBytes (values.map fun value => varintBytes value.toNat).sum

/-- `ByteSizeLong` of an envelope. The last field number takes a second byte. -/
def envelopeBytes (t : TensorEnvelope) : ℕ :=
  numberBytes t.protocolVersion.toNat+textBytes t.deploymentId.utf8ByteSize+
    textBytes t.requestId.utf8ByteSize+numberBytes t.microbatchId.toNat+
    numberBytes t.sequenceNumber.toNat+numberBytes t.phase.toNat+
    numberBytes t.firstPosition.toNat+packedBytes t.sequenceLengths+
    packedBytes t.cacheSlotIds+packedBytes t.shape+numberBytes t.dtype.toNat+
    textBytes t.layout.utf8ByteSize+numberBytes t.payloadLength.toNat+
    textBytes t.checksum.length+textBytes t.payload.length+
    if t.deploymentVersion=0 then 0 else 1+numberBytes t.deploymentVersion.toNat

/-- `ByteSizeLong` of a token. -/
def tokenBytes (t : SampledToken) : ℕ :=
  textBytes t.deploymentId.utf8ByteSize+numberBytes t.deploymentVersion.toNat+
    textBytes t.requestId.utf8ByteSize+numberBytes t.microbatchId.toNat+
    numberBytes t.sequenceNumber.toNat+numberBytes t.tokenPosition.toNat+
    numberBytes t.tokenId.toNat

end Sizes

section Execute

/-- `kMaxTraffic` -/
def kMaxTraffic : UInt64 := 256*1024*1024

/-- `kMaxSteps` -/
def kMaxSteps : UInt32 := 1024

/-- What `Execute` counts over one stream. -/
structure Serving where
  position : UInt64 := 0
  bytes : UInt64 := 0
  sequence : UInt64 := 0
  width : UInt64 := 0
  deriving DecidableEq

/-- The checks of `Execute` on its first message. -/
def receiveOpen : StageMessage → Except Status SequenceOpen
  | .openSequence message =>
    if ¬(message.protocolVersion=1 ∧ message.deploymentId="hllm-link-probe-v1" ∧
        message.deploymentVersion=1 ∧ message.requestId≠"" ∧
        message.requestId.utf8ByteSize ≤ 128 ∧ message.microbatchId=0 ∧
        0 < message.maximumTotalTokens ∧ message.maximumTotalTokens ≤ 5120 ∧
        0 < message.maximumNewTokens ∧ message.maximumNewTokens ≤ kMaxSteps.toUInt64 ∧
        message.stopTokenIds=[]) then .error (invalid "invalid probe sequence open")
    else .ok message
  | _ => .error (invalid "expected sequence open")

/-- Identity `Execute` decodes for. -/
def identityOf (opened : SequenceOpen) (width : UInt64) : BoundaryIdentity where
  deploymentId := opened.deploymentId
  deploymentVersion := opened.deploymentVersion
  requestId := opened.requestId
  maximumTokens := opened.maximumTotalTokens
  hiddenSize := width

/-- The token `Execute` answers with. -/
def feedback (id : BoundaryIdentity) (sequence position : UInt64) : SampledToken where
  deploymentId := id.deploymentId
  deploymentVersion := id.deploymentVersion
  requestId := id.requestId
  sequenceNumber := sequence
  tokenPosition := position
  tokenId := 0

/-- One activation in the loop of `Execute`. -/
def receiveTensor (opened : SequenceOpen) (serving : Serving) (tensor : TensorEnvelope) :
    Except Status (Serving×SampledToken) := do
  if ¬serving.sequence < opened.maximumNewTokens then
    .error (invalid "unexpected probe message")
  else if ¬(tensor.shape.length=3 ∧ 0 < tensor.shape.getD 2 0 ∧ tensor.shape.getD 2 0 ≤ 8192) then
    .error (invalid "invalid probe width")
  else do
    let width := if serving.sequence=0 then tensor.shape.getD 2 0 else serving.width
    let bytes := serving.bytes+UInt64.ofNat tensor.payload.length
    if ¬bytes ≤ kMaxTraffic then .error (invalid "probe traffic limit exceeded")
    else do
      let id := identityOf opened width
      let hidden ← (decodeTensor tensor id serving.sequence serving.position false).mapError failure
      let position := serving.position+hidden.tokens
      .ok (⟨position,bytes,serving.sequence+1,width⟩,feedback id serving.sequence position)

/-- The check of `Execute` on a termination. -/
def receiveTermination (opened : SequenceOpen) (serving : Serving) (e : SequenceTermination) :
    Except Status Unit :=
  if ¬(serving.sequence=opened.maximumNewTokens ∧ e.deploymentId=opened.deploymentId ∧
      e.deploymentVersion=opened.deploymentVersion ∧ e.requestId=opened.requestId ∧
      e.microbatchId=0 ∧ e.state=terminalStateCompleted ∧ e.error=none) then
    .error (invalid "invalid probe termination")
  else .ok ()

/-- One call of `Execute`. -/
inductive Handler
  /-- There has been no call. -/
  | idle
  /-- The call has arrived. -/
  | waiting
  /-- It has claimed the probe and reads its first message. -/
  | opening
  /-- It is in its loop. -/
  | serving (opened : SequenceOpen) (state : Serving)
  /-- It leaves with a status and still holds the probe. -/
  | returning (status : Status)
  /-- It has returned. -/
  | ended (status : Status)
  deriving DecidableEq

/-- The status a call leaves with. -/
def Handler.status? : Handler → Option Status
  | .returning status => some status
  | .ended status => some status
  | _ => none

end Execute

section Qualify

/-- `v1::LinkQualificationRequest` -/
structure LinkQualificationRequest where
  targetWorkerId : String
  promptTokens : UInt32
  hiddenSize : UInt32
  outputTokens : UInt32
  warmupCycles : UInt32
  measuredCycles : UInt32
  timeoutMs : UInt32
  deriving DecidableEq

/-- `cycles` -/
def LinkQualificationRequest.cycles (request : LinkQualificationRequest) : UInt64 :=
  request.warmupCycles.toUInt64+request.measuredCycles.toUInt64

/-- The numeric checks of `QualifyLink`. -/
def checkLimits (request : LinkQualificationRequest) : Except Status Unit :=
  if ¬(0 < request.promptTokens ∧ request.promptTokens ≤ 4096 ∧ 0 < request.hiddenSize ∧
      request.hiddenSize ≤ 8192 ∧ 0 < request.outputTokens ∧ request.outputTokens ≤ kMaxSteps ∧
      0 < request.measuredCycles ∧ request.cycles ≤ 32 ∧ 0 < request.timeoutMs ∧
      request.timeoutMs ≤ 120000) then .error (invalid "invalid probe limits")
  else if ¬(request.promptTokens.toUInt64*request.hiddenSize.toUInt64*2 ≤ kMaximumRpcBytes/2 ∧
      (request.promptTokens.toUInt64+request.outputTokens.toUInt64-1)*
        request.hiddenSize.toUInt64*2*request.cycles ≤ kMaxTraffic) then
    .error (invalid "probe payload or aggregate traffic exceeds limit")
  else .ok ()

/-- All checks of `QualifyLink` before its first cycle, the identity the
target reports included. -/
def checkRequest (source target : Probe) (request : LinkQualificationRequest) :
    Except Status Unit := do
  if request.targetWorkerId∉source.peers.map Prod.fst then
    .error (invalid "target not in explicit peer allowlist")
  else do
    checkLimits request
    if target.info.workerId≠request.targetWorkerId then
      .error ⟨.failedPrecondition,"peer identity mismatch"⟩
    else .ok ()

/-- `v1::LinkTiming` -/
structure LinkTiming where
  cycle : UInt32
  step : UInt32
  payloadBytes : UInt64
  messageBytes : UInt64
  feedbackBytes : UInt64
  senderEncodeMs : ℚ≥0
  roundTripMs : ℚ≥0
  deriving DecidableEq

/-- `v1::LinkStreamTiming` -/
structure LinkStreamTiming where
  cycle : UInt32
  setupMs : ℚ≥0
  teardownMs : ℚ≥0
  deriving DecidableEq

/-- `v1::LinkQualificationResult` -/
structure LinkQualificationResult where
  source : ProbeIdentity
  target : ProbeIdentity
  channelReadyMs : ℚ≥0
  streams : List LinkStreamTiming
  samples : List LinkTiming
  promptTokens : UInt32
  hiddenSize : UInt32
  outputTokens : UInt32
  warmupCycles : UInt32
  measuredCycles : UInt32

variable (request : LinkQualificationRequest)

/-- `id` of one cycle. -/
def idOf (cycle : UInt32) : BoundaryIdentity where
  deploymentId := "hllm-link-probe-v1"
  deploymentVersion := 1
  requestId := "qualification-"++toString cycle.toNat
  maximumTokens := (request.promptTokens+request.outputTokens).toUInt64
  hiddenSize := request.hiddenSize.toUInt64

/-- `open` of one cycle. -/
def openOf (cycle : UInt32) : SequenceOpen where
  protocolVersion := 1
  deploymentId := (idOf request cycle).deploymentId
  deploymentVersion := (idOf request cycle).deploymentVersion
  requestId := (idOf request cycle).requestId
  maximumTotalTokens := (idOf request cycle).maximumTokens
  maximumNewTokens := request.outputTokens.toUInt64

/-- `termination` of one cycle. -/
def terminationOf (cycle : UInt32) : SequenceTermination where
  deploymentId := (idOf request cycle).deploymentId
  deploymentVersion := (idOf request cycle).deploymentVersion
  requestId := (idOf request cycle).requestId
  state := terminalStateCompleted

/-- `count` of one step. -/
def countOf (step : UInt32) : UInt32 := if step=0 then request.promptTokens else 1

/-- `position` of one step. -/
def positionOf (step : UInt32) : UInt32 := if step=0 then 0 else request.promptTokens+step-1

/-- Halves of one half each: a zero byte before each high byte. -/
def probePayload (size : ℕ) : List UInt8 :=
  (List.range size).map fun i => if i%2=1 then 0x38 else 0

/-- `hidden` of one step. -/
def hiddenOf (step : UInt32) : BoundaryActivation where
  tokens := (countOf request step).toUInt64
  width := request.hiddenSize.toUInt64
  payload := probePayload
    ((countOf request step).toUInt64*request.hiddenSize.toUInt64*2).toNat

/-- `identity` -/
def identity (token : SampledToken) (id : BoundaryIdentity) (sequence position : UInt64) : Bool :=
  token.deploymentId==id.deploymentId && token.deploymentVersion==id.deploymentVersion &&
    token.requestId==id.requestId && token.microbatchId==0 && token.sequenceNumber==sequence &&
    token.tokenPosition==position && token.tokenId==0

/-- Where `QualifyLink` is, from its first cycle on. -/
inductive Point
  /-- At the head of the loop over the cycles. -/
  | starting
  /-- It has opened a stream and waits for the initial metadata. -/
  | opening
  /-- At the head of the loop over the steps. -/
  | sending
  /-- It has sent an activation and waits for the feedback. -/
  | awaiting
  /-- It has sent the termination and waits for its acknowledgment. -/
  | acknowledging
  /-- It waits for the end of the stream. -/
  | finishing
  /-- It has returned its profile. -/
  | returned
  /-- It has returned another status. -/
  | failed (status : Status)
  deriving DecidableEq

/-- The two probes and the stream between them. -/
structure World where
  /-- Where the source is. -/
  point : Point
  /-- `cycle` -/
  cycle : UInt32
  /-- `step` -/
  step : UInt32
  /-- `setup_ms` of the current stream. -/
  setupMs : ℚ≥0
  /-- The current sample, as far as it is filled. -/
  sample : Option LinkTiming
  /-- `streams` of the result. -/
  streams : List LinkStreamTiming
  /-- `samples` of the result. -/
  samples : List LinkTiming
  /-- The call of `Execute` on the target. -/
  handler : Handler
  /-- `active_` of the target. -/
  active : Bool
  /-- The target has sent its initial metadata. -/
  metadata : Bool
  /-- The source has called `WritesDone`. -/
  writesDone : Bool
  /-- Messages on their way to the target. -/
  up : List StageMessage
  /-- Messages on their way to the source. -/
  down : List StageMessage

/-- `QualifyLink` when its checks have passed. -/
def World.start : World where
  point := .starting
  cycle := 0
  step := 0
  setupMs := 0
  sample := none
  streams := []
  samples := []
  handler := .idle
  active := false
  metadata := false
  writesDone := false
  up := []
  down := []

/-- `QualifyLink` returns a status of its own. -/
def World.fail (w : World) (status : Status) : World := { w with point := .failed status }

/-- A read of the source with nothing to read: it blocks while the call of
the target lasts, and fails with the status the call has ended with. -/
def World.readNothing (w : World) (detail : String) : Option World :=
  match w.handler with
  | .ended status => some (w.fail (peerFailure status detail))
  | _ => none

/-- A write to a call that may have ended. -/
def World.write (w : World) (message : StageMessage) (detail : String) (next : World) : World :=
  match w.handler with
  | .ended status => w.fail (peerFailure status detail)
  | _ => { next with up := w.up++[message] }

/-- The sample of a step before its exchange. -/
def sampleOf (cycle step : UInt32) (tensor : TensorEnvelope) (elapsed : ℚ≥0) : LinkTiming where
  cycle := cycle
  step := step
  payloadBytes := UInt64.ofNat tensor.payload.length
  messageBytes := UInt64.ofNat (delimitedBytes (envelopeBytes tensor))
  feedbackBytes := 0
  senderEncodeMs := elapsed
  roundTripMs := 0

/-- The source sends an activation, or the termination after the last one. -/
def World.send (w : World) (elapsed : ℚ≥0) : World :=
  if w.step < request.outputTokens then
    match encodeTensor (hiddenOf request w.step) (idOf request w.cycle) w.step.toUInt64
        (positionOf request w.step).toUInt64 false with
    | .error error => w.fail (failure error)
    | .ok tensor => w.write (.tensor tensor) "activation exchange ended without feedback"
      { w with point := .awaiting, sample := some (sampleOf w.cycle w.step tensor elapsed) }
  else w.write (.terminate (terminationOf request w.cycle)) "termination write failed"
    { w with point := .acknowledging, writesDone := true }

/-- The source reads a reply to an activation. -/
def World.readFeedback (w : World) (reply : StageMessage) (rest : List StageMessage)
    (elapsed : ℚ≥0) : World :=
  match reply,w.sample with
  | .sampledToken token,some sample =>
    if identity token (idOf request w.cycle) w.step.toUInt64
        (positionOf request w.step+countOf request w.step).toUInt64 then
      { w with
        point := .sending
        step := w.step+1
        sample := none
        samples := w.samples++[{ sample with
          feedbackBytes := UInt64.ofNat (delimitedBytes (tokenBytes token))
          roundTripMs := elapsed }]
        down := rest }
    else w.fail (dataLoss "invalid sampled-token feedback")
  | _,_ => w.fail (dataLoss "invalid sampled-token feedback")

/-- One step of `QualifyLink`. The elapsed time is what its clock measures. -/
def World.sourceStep (w : World) (elapsed : ℚ≥0) : Option World :=
  match w.point with
  | .starting =>
    if w.cycle.toUInt64 < request.cycles then
      some { w with
        point := .opening
        handler := .waiting
        metadata := false
        writesDone := false
        up := [.openSequence (openOf request w.cycle)]
        down := [] }
    else some { w with point := .returned }
  | .opening =>
    if w.metadata then some { w with point := .sending, step := 0, setupMs := elapsed }
    else w.readNothing "activation exchange ended without feedback"
  | .sending => some (w.send request elapsed)
  | .awaiting =>
    match w.down with
    | reply::rest => some (w.readFeedback request reply rest elapsed)
    | [] => w.readNothing "activation exchange ended without feedback"
  | .acknowledging =>
    match w.down with
    | ack::rest =>
      if ack=.terminate (terminationOf request w.cycle) then
        some { w with point := .finishing, down := rest }
      else some (w.fail (dataLoss "invalid termination acknowledgment"))
    | [] => w.readNothing "missing termination acknowledgment"
  | .finishing =>
    match w.down,w.handler with
    | _::_,_ => some (w.fail (dataLoss "unexpected trailing response"))
    | [],.ended status =>
      if status.code≠.ok then some (w.fail status)
      else some { w with
        point := .starting
        cycle := w.cycle+1
        streams := w.streams++[⟨w.cycle,w.setupMs,elapsed⟩] }
    | [],_ => none
  | .returned => none
  | .failed _ => none

/-- A message in the loop of `Execute`. -/
def World.serve (w : World) (opened : SequenceOpen) (state : Serving) (message : StageMessage)
    (rest : List StageMessage) : World :=
  match message with
  | .terminate e =>
    match receiveTermination opened state e with
    | .error status => { w with handler := .returning status, up := rest }
    | .ok () =>
      { w with handler := .returning .success, up := rest, down := w.down++[.terminate e] }
  | .tensor tensor =>
    match receiveTensor opened state tensor with
    | .error status => { w with handler := .returning status, up := rest }
    | .ok (next,token) =>
      { w with handler := .serving opened next, up := rest, down := w.down++[.sampledToken token] }
  | _ => { w with handler := .returning (invalid "unexpected probe message"), up := rest }

/-- One step of `Execute`. A read with nothing to read blocks until the
source has closed its side. -/
def World.targetStep (w : World) : Option World :=
  match w.handler,w.up with
  | .waiting,_ =>
    if w.active then some { w with handler := .ended ⟨.resourceExhausted,
      "probe already active; serialize directional measurements"⟩ }
    else some { w with handler := .opening, active := true }
  | .opening,message::rest =>
    match receiveOpen message with
    | .error status => some { w with handler := .returning status, up := rest }
    | .ok opened => some { w with handler := .serving opened {}, metadata := true, up := rest }
  | .opening,[] =>
    if w.writesDone then some { w with
      handler := .returning (dataLoss "probe stream ended before sequence open") }
    else none
  | .serving opened state,message::rest => some (w.serve opened state message rest)
  | .serving _ _,[] =>
    if w.writesDone then some { w with
      handler := .returning (dataLoss "probe stream ended without termination") }
    else none
  | .returning status,_ => some { w with handler := .ended status, active := false }
  | .idle,_ => none
  | .ended _,_ => none

/-- Who moves. -/
inductive Action
  | source (elapsed : ℚ≥0)
  | target

/-- The two probes from the first cycle of a request on. -/
def machine : Machine World Action where
  initial := fun w => w=.start
  step := fun w action => match action with
    | .source elapsed => w.sourceStep request elapsed
    | .target => w.targetStep

/-- The qualification `QualifyLink` returns. -/
def World.result (w : World) (source target : Probe) (channelReadyMs : ℚ≥0) :
    LinkQualificationResult where
  source := source.info
  target := target.info
  channelReadyMs := channelReadyMs
  streams := w.streams
  samples := w.samples
  promptTokens := request.promptTokens
  hiddenSize := request.hiddenSize
  outputTokens := request.outputTokens
  warmupCycles := request.warmupCycles
  measuredCycles := request.measuredCycles

end Qualify

section Limits

variable {request : LinkQualificationRequest} {cycle step : UInt32}

/-- What the numeric checks let through, in unbounded numbers. -/
structure Limits (request : LinkQualificationRequest) : Prop where
  prompt : 1 ≤ request.promptTokens.toNat ∧ request.promptTokens.toNat ≤ 4096
  width : 1 ≤ request.hiddenSize.toNat ∧ request.hiddenSize.toNat ≤ 8192
  steps : 1 ≤ request.outputTokens.toNat ∧ request.outputTokens.toNat ≤ 1024
  measured : 1 ≤ request.measuredCycles.toNat
  cycles : request.warmupCycles.toNat+request.measuredCycles.toNat ≤ 32
  timeout : 1 ≤ request.timeoutMs.toNat ∧ request.timeoutMs.toNat ≤ 120000
  payload : request.promptTokens.toNat*request.hiddenSize.toNat*2 ≤ 8388608
  traffic : (request.promptTokens.toNat+request.outputTokens.toNat-1)*request.hiddenSize.toNat*2*
    (request.warmupCycles.toNat+request.measuredCycles.toNat) ≤ 268435456

/-- A product of words that is small is exact. -/
theorem toNat_mul_of_lt {a b : UInt64} (h : a.toNat*b.toNat < 2^64) :
    (a*b).toNat=a.toNat*b.toNat := by
  rw [UInt64.toNat_mul,Nat.mod_eq_of_lt h]

/-- The number of cycles does not wrap. -/
theorem cycles_toNat : request.cycles.toNat=
    request.warmupCycles.toNat+request.measuredCycles.toNat := by
  have hwarmup := request.warmupCycles.toNat_lt
  have hmeasured := request.measuredCycles.toNat_lt
  unfold LinkQualificationRequest.cycles
  rw [UInt64.toNat_add,UInt32.toNat_toUInt64,UInt32.toNat_toUInt64,Nat.mod_eq_of_lt (by omega)]

/-- The number of tokens of one stream does not wrap. -/
theorem tokens_toNat (hprompt : request.promptTokens.toNat ≤ 4096)
    (hone : 0 < request.outputTokens.toNat) (hsteps : request.outputTokens.toNat ≤ 1024) :
    (request.promptTokens.toUInt64+request.outputTokens.toUInt64-1).toNat=
      request.promptTokens.toNat+request.outputTokens.toNat-1 := by
  have hsum : (request.promptTokens.toUInt64+request.outputTokens.toUInt64).toNat=
      request.promptTokens.toNat+request.outputTokens.toNat := by
    rw [UInt64.toNat_add,UInt32.toNat_toUInt64,UInt32.toNat_toUInt64,Nat.mod_eq_of_lt (by omega)]
  have hle : (1 : UInt64) ≤ request.promptTokens.toUInt64+request.outputTokens.toUInt64 := by
    rw [UInt64.le_iff_toNat_le,hsum]
    change 1 ≤ _
    omega
  rw [UInt64.toNat_sub_of_le _ _ hle,hsum]
  rfl

/-- A number of tokens times the width, in bytes of halves. -/
theorem halves_toNat {tokens : UInt64} (htokens : tokens.toNat ≤ 5120)
    (hwidth : request.hiddenSize.toNat ≤ 8192) :
    (tokens*request.hiddenSize.toUInt64*2).toNat=tokens.toNat*request.hiddenSize.toNat*2 := by
  have hbound := Nat.mul_le_mul htokens hwidth
  have hfirst : (tokens*request.hiddenSize.toUInt64).toNat=
      tokens.toNat*request.hiddenSize.toNat := by
    rw [toNat_mul_of_lt,UInt32.toNat_toUInt64]
    rw [UInt32.toNat_toUInt64]
    omega
  have htwo : (2 : UInt64).toNat=2 := rfl
  rw [toNat_mul_of_lt,hfirst,htwo]
  rw [hfirst,htwo]
  omega

/-- The numeric checks are exact. -/
theorem checkLimits_iff : checkLimits request=.ok () ↔ Limits request := by
  have hcycles := @cycles_toNat request
  have hrpc : (kMaximumRpcBytes/2).toNat=8388608 := by rfl
  have htraffic : kMaxTraffic.toNat=268435456 := by rfl
  have hsteps : kMaxSteps.toNat=1024 := by rfl
  unfold checkLimits
  rw [check_iff,check_iff,not_not,not_not]
  simp only [UInt32.lt_iff_toNat_lt,UInt32.le_iff_toNat_le,UInt64.le_iff_toNat_le,hcycles,hrpc,
    htraffic,hsteps,UInt32.toNat_ofNat,UInt64.toNat_ofNat]
  have hexact : request.promptTokens.toNat ≤ 4096 → request.hiddenSize.toNat ≤ 8192 →
      0 < request.outputTokens.toNat → request.outputTokens.toNat ≤ 1024 →
      request.warmupCycles.toNat+request.measuredCycles.toNat ≤ 32 →
      (request.promptTokens.toUInt64*request.hiddenSize.toUInt64*2).toNat=
          request.promptTokens.toNat*request.hiddenSize.toNat*2 ∧
        ((request.promptTokens.toUInt64+request.outputTokens.toUInt64-1)*
            request.hiddenSize.toUInt64*2*request.cycles).toNat=
          (request.promptTokens.toNat+request.outputTokens.toNat-1)*request.hiddenSize.toNat*2*
            (request.warmupCycles.toNat+request.measuredCycles.toNat) := by
    intro hprompt hwidth hone hoff hall
    have hpromptWord := UInt32.toNat_toUInt64 request.promptTokens
    have htotal := tokens_toNat hprompt hone hoff
    have hbytes := @halves_toNat request
      (request.promptTokens.toUInt64+request.outputTokens.toUInt64-1) (by omega) hwidth
    have hmost : request.promptTokens.toNat+request.outputTokens.toNat-1 ≤ 5120 := by omega
    have hbound := Nat.mul_le_mul (Nat.mul_le_mul_right 2 (Nat.mul_le_mul hmost hwidth)) hall
    refine ⟨?_,?_⟩
    · rw [halves_toNat (by omega) hwidth,hpromptWord]
    · rw [toNat_mul_of_lt,hbytes,htotal,hcycles]
      rw [hbytes,htotal,hcycles]
      omega
  constructor
  · rintro ⟨⟨hprompt,hpromptMost,hwidth,hwidthMost,hstep,hstepMost,hmeasured,hall,htime,
      htimeMost⟩,⟨hpayload,htotal⟩,-⟩
    obtain ⟨hpayloadExact,htotalExact⟩ := hexact hpromptMost hwidthMost hstep hstepMost hall
    rw [hpayloadExact] at hpayload
    rw [htotalExact] at htotal
    exact ⟨⟨hprompt,hpromptMost⟩,⟨hwidth,hwidthMost⟩,⟨hstep,hstepMost⟩,hmeasured,hall,
      ⟨htime,htimeMost⟩,hpayload,htotal⟩
  · intro h
    obtain ⟨hpayloadExact,htotalExact⟩ := hexact h.prompt.2 h.width.2 h.steps.1 h.steps.2 h.cycles
    rw [hpayloadExact,htotalExact]
    exact ⟨⟨h.prompt.1,h.prompt.2,h.width.1,h.width.2,h.steps.1,h.steps.2,h.measured,h.cycles,
      h.timeout.1,h.timeout.2⟩,⟨h.payload,h.traffic⟩,trivial⟩

end Limits

section Exchanges

variable {request : LinkQualificationRequest} {cycle step : UInt32}

/-- A payload has the size asked for. -/
theorem length_probePayload (size : ℕ) : (probePayload size).length=size := by
  unfold probePayload
  rw [List.length_map,List.length_range]

/-- The halves of a payload are finite. -/
theorem probePayload_finite (size : ℕ) : nonFinite (probePayload size)=false := by
  by_contra hnot
  rw [Bool.not_eq_false] at hnot
  obtain ⟨i,high,hi,hhigh⟩ := nonFinite_iff.mp hnot
  unfold probePayload at hi
  rw [List.getElem?_map,Option.map_eq_some_iff] at hi
  obtain ⟨j,hj,rfl⟩ := hi
  obtain ⟨hlt,hsame⟩ := List.getElem?_eq_some_iff.mp hj
  rw [List.getElem_range] at hsame
  rw [if_pos (by omega)] at hhigh
  revert hhigh
  decide

/-- The position after a step. -/
theorem positionOf_succ (hstep : step.toNat < 1024) :
    positionOf request (step+1)=positionOf request step+countOf request step := by
  have hnext : step+1≠0 := by
    intro hzero
    have hvalue := congrArg UInt32.toNat hzero
    rw [UInt32.toNat_add] at hvalue
    change (step.toNat+1)%2^32=0 at hvalue
    omega
  unfold positionOf countOf
  rw [if_neg hnext]
  by_cases hzero : step=0
  · rw [if_pos hzero,if_pos hzero,hzero]
    grind
  · rw [if_neg hzero,if_neg hzero]
    grind

/-- The position before a step, as a number. -/
theorem positionOf_toNat (h : Limits request) (hstep : step.toNat ≤ 1024) :
    (positionOf request step).toNat=
      if step=0 then 0 else request.promptTokens.toNat+step.toNat-1 := by
  have hprompt := h.prompt
  unfold positionOf
  by_cases hzero : step=0
  · rw [if_pos hzero,if_pos hzero]
    rfl
  · rw [if_neg hzero,if_neg hzero]
    have hsum : (request.promptTokens+step).toNat=request.promptTokens.toNat+step.toNat := by
      rw [UInt32.toNat_add,Nat.mod_eq_of_lt (by omega)]
    have hle : (1 : UInt32) ≤ request.promptTokens+step := by
      rw [UInt32.le_iff_toNat_le,hsum]
      change 1 ≤ _
      omega
    rw [UInt32.toNat_sub_of_le _ _ hle,hsum]
    rfl

/-- The positions of a stream stay within its tokens. -/
theorem positionOf_le (h : Limits request) (hstep : step.toNat ≤ request.outputTokens.toNat) :
    (positionOf request step).toNat ≤ request.promptTokens.toNat+request.outputTokens.toNat-1 := by
  have hsteps := h.steps
  rw [positionOf_toNat h (by omega)]
  split
  · exact Nat.zero_le _
  · omega

/-- A step never has more tokens than the prompt. -/
theorem countOf_toNat (h : Limits request) :
    1 ≤ (countOf request step).toNat ∧
      (countOf request step).toNat ≤ request.promptTokens.toNat := by
  have hprompt := h.prompt
  unfold countOf
  split
  · exact ⟨hprompt.1,Nat.le_refl _⟩
  · change 1 ≤ 1 ∧ 1 ≤ _
    exact ⟨Nat.le_refl _,hprompt.1⟩

/-- A later step. -/
theorem step_succ (hstep : step.toNat < 1024) : (step+1).toNat=step.toNat+1 := by
  rw [UInt32.toNat_add]
  change (step.toNat+1)%2^32=step.toNat+1
  exact Nat.mod_eq_of_lt (by omega)

/-- What `Execute` has counted before a step. -/
def servedTo (request : LinkQualificationRequest) (step : UInt32) : Serving where
  position := (positionOf request step).toUInt64
  bytes := (positionOf request step).toUInt64*request.hiddenSize.toUInt64*2
  sequence := step.toUInt64
  width := if step=0 then 0 else request.hiddenSize.toUInt64

/-- The activation of a step, encoded. -/
def envelopeFor (request : LinkQualificationRequest) (cycle step : UInt32) : TensorEnvelope :=
  envelopeOf (hiddenOf request step) (idOf request cycle) step.toUInt64
    (positionOf request step).toUInt64 false

/-- The feedback to a step. -/
def feedbackFor (request : LinkQualificationRequest) (cycle step : UInt32) : SampledToken :=
  feedback (idOf request cycle) step.toUInt64
    (positionOf request step+countOf request step).toUInt64

/-- Bytes of the activation of a step. -/
theorem length_hiddenOf (h : Limits request) :
    (hiddenOf request step).payload.length=
      (countOf request step).toNat*request.hiddenSize.toNat*2 := by
  have hcount := @countOf_toNat request step h
  have hprompt := h.prompt
  change (probePayload _).length=_
  rw [length_probePayload,halves_toNat _ h.width.2,UInt32.toNat_toUInt64]
  rw [UInt32.toNat_toUInt64]
  omega

/-- No activation is larger than that of the prompt. -/
theorem length_hiddenOf_le (h : Limits request) :
    (hiddenOf request step).payload.length ≤ 8388608 := by
  rw [length_hiddenOf h]
  exact (Nat.mul_le_mul_right 2 (Nat.mul_le_mul_right _ (countOf_toNat h).2)).trans h.payload

/-- Words with the value of a positive number are not zero. -/
theorem toUInt64_ne_zero {n : UInt32} (h : 1 ≤ n.toNat) : n.toUInt64≠0 := by
  intro hzero
  have hvalue := congrArg UInt64.toNat hzero
  rw [UInt32.toNat_toUInt64] at hvalue
  change n.toNat=0 at hvalue
  omega

/-- The source can encode every activation. -/
theorem encodeTensor_hiddenOf (h : Limits request) :
    encodeTensor (hiddenOf request step) (idOf request cycle) step.toUInt64
        (positionOf request step).toUInt64 false=.ok (envelopeFor request cycle step) := by
  refine encodeTensor_iff.mpr ⟨length_hiddenOf_le h,toUInt64_ne_zero h.width.1,rfl,
    toUInt64_ne_zero (countOf_toNat h).1,?_,probePayload_finite _,rfl⟩
  rw [length_hiddenOf h]
  change _=(countOf request step).toUInt64.toNat*request.hiddenSize.toUInt64.toNat*2
  rw [UInt32.toNat_toUInt64,UInt32.toNat_toUInt64]

/-- The target decodes every activation for what it was encoded from. -/
theorem decodeTensor_envelopeFor (h : Limits request)
    (hstep : step.toNat < request.outputTokens.toNat) :
    decodeTensor (envelopeFor request cycle step) (idOf request cycle) step.toUInt64
        (positionOf request step).toUInt64 false=.ok (hiddenOf request step) := by
  have hsteps := h.steps
  have hprompt := h.prompt
  have hnamed : "qualification-"++toString cycle.toNat≠"" := by
    intro hempty
    have hlength := congrArg String.length hempty
    rw [String.length_append] at hlength
    change 14+_=0 at hlength
    omega
  have hend := @positionOf_le request (step+1) h (by rw [step_succ (by omega)]; omega)
  have hsum := congrArg UInt32.toNat (@positionOf_succ request step (by omega))
  have hposition := @positionOf_le request step h (Nat.le_of_lt hstep)
  have hcount := @countOf_toNat request step h
  rw [UInt32.toNat_add,Nat.mod_eq_of_lt (by omega)] at hsum
  have hlength := @length_hiddenOf request step h
  refine decodeTensor_iff.mpr ⟨conforms_envelopeOf
    ⟨(by decide : "hllm-link-probe-v1"≠""),(by decide : (1 : UInt64)≠0),hnamed⟩ ?_ ?_
    (length_hiddenOf_le h) (toUInt64_ne_zero h.width.1) rfl (toUInt64_ne_zero hcount.1) ?_
    (probePayload_finite _),rfl,rfl⟩
  · change (positionOf request step).toUInt64.toNat+(countOf request step).toUInt64.toNat ≤
      (request.promptTokens+request.outputTokens).toUInt64.toNat
    rw [UInt32.toNat_toUInt64,UInt32.toNat_toUInt64,UInt32.toNat_toUInt64,UInt32.toNat_add,
      Nat.mod_eq_of_lt (by omega)]
    omega
  · intro hdecode
    have hlater : step≠0 := by
      rintro rfl
      cases hdecode
    change (countOf request step).toUInt64=1
    unfold countOf
    rw [if_neg hlater]
    rfl
  · rw [hlength]
    change _=(countOf request step).toUInt64.toNat*request.hiddenSize.toUInt64.toNat*2
    rw [UInt32.toNat_toUInt64,UInt32.toNat_toUInt64]

/-- The target counts one step for every activation and answers it. -/
theorem receiveTensor_envelopeFor (h : Limits request)
    (hstep : step.toNat < request.outputTokens.toNat) :
    receiveTensor (openOf request cycle) (servedTo request step) (envelopeFor request cycle step)=
      .ok (servedTo request (step+1),feedbackFor request cycle step) := by
  have hsteps := h.steps
  have hprompt := h.prompt
  have hsucc := @positionOf_succ request step (by omega)
  have hposition := @positionOf_le request step h (Nat.le_of_lt hstep)
  have hcount := @countOf_toNat request step h
  have hnext : (positionOf request step).toUInt64+(countOf request step).toUInt64=
      (positionOf request (step+1)).toUInt64 := by
    rw [hsucc,←UInt64.toNat_inj,UInt64.toNat_add,UInt32.toNat_toUInt64,UInt32.toNat_toUInt64,
      UInt32.toNat_toUInt64,UInt32.toNat_add,Nat.mod_eq_of_lt (by omega),
      Nat.mod_eq_of_lt (by omega)]
  have hbytes : (servedTo request step).bytes+
      UInt64.ofNat (envelopeFor request cycle step).payload.length=
      (servedTo request (step+1)).bytes := by
    change (positionOf request step).toUInt64*request.hiddenSize.toUInt64*2+
      UInt64.ofNat (probePayload _).length=
      (positionOf request (step+1)).toUInt64*request.hiddenSize.toUInt64*2
    rw [length_probePayload,UInt64.ofNat_toNat,←hnext]
    grind
  have hlimit : (servedTo request (step+1)).bytes ≤ kMaxTraffic := by
    have hend := @positionOf_le request (step+1) h (by rw [step_succ (by omega)]; omega)
    have htokens : (positionOf request (step+1)).toUInt64.toNat ≤ 5120 := by
      rw [UInt32.toNat_toUInt64]
      omega
    change (positionOf request (step+1)).toUInt64*request.hiddenSize.toUInt64*2 ≤ kMaxTraffic
    rw [UInt64.le_iff_toNat_le,halves_toNat htokens h.width.2,UInt32.toNat_toUInt64]
    have hone : 1 ≤ request.warmupCycles.toNat+request.measuredCycles.toNat :=
      h.measured.trans (Nat.le_add_left _ _)
    calc (positionOf request (step+1)).toNat*request.hiddenSize.toNat*2
        ≤ (request.promptTokens.toNat+request.outputTokens.toNat-1)*request.hiddenSize.toNat*2 :=
          Nat.mul_le_mul_right 2 (Nat.mul_le_mul_right _ hend)
      _ ≤ (request.promptTokens.toNat+request.outputTokens.toNat-1)*request.hiddenSize.toNat*2*
          (request.warmupCycles.toNat+request.measuredCycles.toNat) :=
          Nat.le_mul_of_pos_right _ hone
      _ ≤ kMaxTraffic.toNat := h.traffic
  have hsequence : step.toUInt64+1=(step+1).toUInt64 := by
    rw [←UInt64.toNat_inj,UInt64.toNat_add,UInt32.toNat_toUInt64,UInt32.toNat_toUInt64,
      step_succ (by omega)]
    change (step.toNat+1)%2^64=step.toNat+1
    exact Nat.mod_eq_of_lt (by omega)
  have hwidth : (if (servedTo request step).sequence=0 then
      (envelopeFor request cycle step).shape.getD 2 0 else (servedTo request step).width)=
      request.hiddenSize.toUInt64 := by
    by_cases hzero : step=0
    · rw [hzero,if_pos (by rfl)]
      rfl
    · rw [if_neg]
      · exact if_neg hzero
      · intro hsame
        have hvalue := congrArg UInt64.toNat hsame
        change step.toUInt64.toNat=0 at hvalue
        rw [UInt32.toNat_toUInt64] at hvalue
        exact hzero (UInt32.toNat_inj.mp hvalue)
  have horder : (servedTo request step).sequence < (openOf request cycle).maximumNewTokens := by
    change step.toUInt64 < request.outputTokens.toUInt64
    rw [UInt64.lt_iff_toNat_lt,UInt32.toNat_toUInt64,UInt32.toNat_toUInt64]
    exact hstep
  have hshape : (envelopeFor request cycle step).shape.length=3 ∧
      0 < (envelopeFor request cycle step).shape.getD 2 0 ∧
      (envelopeFor request cycle step).shape.getD 2 0 ≤ 8192 := by
    change 3=3 ∧ 0 < request.hiddenSize.toUInt64 ∧ request.hiddenSize.toUInt64 ≤ 8192
    rw [UInt64.lt_iff_toNat_lt,UInt64.le_iff_toNat_le,UInt32.toNat_toUInt64]
    exact ⟨rfl,h.width.1,h.width.2⟩
  unfold receiveTensor
  rw [if_neg (not_not.mpr horder),if_neg (not_not.mpr hshape)]
  simp only [hwidth,hbytes]
  rw [if_neg (not_not.mpr hlimit)]
  have hdecode : decodeTensor (envelopeFor request cycle step)
      (identityOf (openOf request cycle) request.hiddenSize.toUInt64)
      (servedTo request step).sequence (servedTo request step).position false=
      .ok (hiddenOf request step) := decodeTensor_envelopeFor h hstep
  rw [hdecode]
  have hafter : (servedTo request step).position+(hiddenOf request step).tokens=
      (servedTo request (step+1)).position := hnext
  have hserved : servedTo request (step+1)=⟨(servedTo request (step+1)).position,
      (servedTo request (step+1)).bytes,(servedTo request step).sequence+1,
      request.hiddenSize.toUInt64⟩ := by
    have hlater : step+1≠0 := by
      intro hzero
      have hvalue := congrArg UInt32.toNat hzero
      rw [step_succ (by omega)] at hvalue
      cases hvalue
    unfold servedTo
    rw [if_neg hlater,hsequence]
  change Except.ok (_,_)=_
  rw [hafter,←hserved]
  have hreply : feedback (identityOf (openOf request cycle) request.hiddenSize.toUInt64)
      (servedTo request step).sequence (servedTo request (step+1)).position=
      feedbackFor request cycle step := by
    change feedback (idOf request cycle) step.toUInt64 (positionOf request (step+1)).toUInt64=_
    rw [hsucc]
    rfl
  rw [hreply]

end Exchanges

section Answers

variable {request : LinkQualificationRequest} {cycle step : UInt32}

/-- The target accepts the stream of every cycle. -/
theorem receiveOpen_openOf (h : Limits request)
    (hcycle : cycle.toNat < request.warmupCycles.toNat+request.measuredCycles.toNat) :
    receiveOpen (.openSequence (openOf request cycle))=.ok (openOf request cycle) := by
  have hcycles := h.cycles
  have hsteps := h.steps
  have hprompt := h.prompt
  have hnames : ∀ n,n < 32 → "qualification-"++toString n≠"" ∧
      ("qualification-"++toString n).utf8ByteSize ≤ 128 := by decide +kernel
  obtain ⟨hnamed,hsize⟩ := hnames cycle.toNat (by omega)
  have htotal : (request.promptTokens+request.outputTokens).toUInt64.toNat=
      request.promptTokens.toNat+request.outputTokens.toNat := by
    rw [UInt32.toNat_toUInt64,UInt32.toNat_add,Nat.mod_eq_of_lt (by omega)]
  have hall : (openOf request cycle).protocolVersion=1 ∧
      (openOf request cycle).deploymentId="hllm-link-probe-v1" ∧
      (openOf request cycle).deploymentVersion=1 ∧ (openOf request cycle).requestId≠"" ∧
      (openOf request cycle).requestId.utf8ByteSize ≤ 128 ∧
      (openOf request cycle).microbatchId=0 ∧ 0 < (openOf request cycle).maximumTotalTokens ∧
      (openOf request cycle).maximumTotalTokens ≤ 5120 ∧
      0 < (openOf request cycle).maximumNewTokens ∧
      (openOf request cycle).maximumNewTokens ≤ kMaxSteps.toUInt64 ∧
      (openOf request cycle).stopTokenIds=[] := by
    refine ⟨rfl,rfl,rfl,hnamed,hsize,rfl,?_,?_,?_,?_,rfl⟩
    · change 0 < (request.promptTokens+request.outputTokens).toUInt64
      rw [UInt64.lt_iff_toNat_lt,htotal]
      change 0 < _
      omega
    · change (request.promptTokens+request.outputTokens).toUInt64 ≤ 5120
      rw [UInt64.le_iff_toNat_le,htotal]
      change _ ≤ 5120
      omega
    · change 0 < request.outputTokens.toUInt64
      rw [UInt64.lt_iff_toNat_lt,UInt32.toNat_toUInt64]
      exact hsteps.1
    · change request.outputTokens.toUInt64 ≤ kMaxSteps.toUInt64
      rw [UInt64.le_iff_toNat_le,UInt32.toNat_toUInt64]
      exact hsteps.2
  exact if_neg (not_not.mpr hall)

/-- The source accepts the feedback to every step. -/
theorem identity_feedbackFor :
    identity (feedbackFor request cycle step) (idOf request cycle) step.toUInt64
      (positionOf request step+countOf request step).toUInt64=true := by
  simp only [identity,feedbackFor,feedback,beq_self_eq_true,Bool.and_self]

/-- The target accepts the termination after the last step. -/
theorem receiveTermination_terminationOf :
    receiveTermination (openOf request cycle) (servedTo request request.outputTokens)
      (terminationOf request cycle)=.ok () := by
  unfold receiveTermination
  rw [if_neg]
  rw [not_not]
  exact ⟨rfl,rfl,rfl,rfl,rfl,rfl,rfl⟩

end Answers

end Hllm.LinkProbe
