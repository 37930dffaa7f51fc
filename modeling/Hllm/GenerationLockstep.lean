import Hllm.GenerationPipeline

/-!
# Driver and follower in lockstep

The two loops count their steps, positions and tokens on their own and decide
on their own when the sequence is over. Without a failure of a call they agree
on all of it: at every exchange they stand at the same step of the same phase,
every check of one side passes on what the other sends, and both end with `OK`.
-/

namespace Hllm.GenerationLockstep

open RunInvariants BoundaryCodec MemoryAccounting SamplingModel
open GenerationModel GenerationEvents HandlerSites GenerationPipeline

variable {F D : Type}

section Counters

/-- Leases of the two stages on one request. -/
structure SameLease (lease lease' : Lease) : Prop where
  identity : lease'.identity=lease.identity
  query : lease'.maximumQueryTokens=lease.maximumQueryTokens
  vocabulary : lease'.vocabularySize=lease.vocabularySize

/-- The follower has opened the driver's sequence and stands at these counters. -/
structure Paired (g : Generation D) (e : Execution D) (sequence position generated : ℕ)
    (stopped : Bool) : Prop where
  opening : e.opening=g.opening
  lease : SameLease g.lease e.lease
  prompt : e.prompt=g.request.tokenIds.length
  sequence : e.sequence=sequence
  position : e.position=position
  generated : e.generated=generated
  stopped : e.stopped=stopped

/-- Counters of a sequence that has not begun. -/
structure Unstarted (sequence position generated : ℕ) (stopped : Bool) : Prop where
  sequence : sequence=0
  position : position=0
  generated : generated=0
  stopped : stopped=false

/-- Whether the follower stops with a token. -/
def stops (g : Generation D) (id : ℕ) : Bool :=
  decide (g.generated+1=g.request.maximumNewTokens ∨ id∈g.request.stopTokenIds)

/-- The acknowledgment the driver expects of a chunk of its prompt. -/
def acknowledgment (g : Generation D) : PrefillProgress where
  deploymentId := g.request.deploymentId
  deploymentVersion := g.request.deploymentVersion
  requestId := g.request.requestId
  microbatchId := 0
  sequenceNumber := g.step
  nextPosition := g.position+g.tokens.length

/-- The message the driver expects with a token. -/
def feedback (g : Generation D) (token : SampledToken D) : WireSampledToken D where
  logprob := token.logprob
  topLogprobs := token.topLogprobs
  deploymentId := g.request.deploymentId
  deploymentVersion := g.request.deploymentVersion
  requestId := g.request.requestId
  microbatchId := 0
  sequenceNumber := g.step
  tokenPosition := g.position+g.tokens.length
  tokenId := token.id

/-- The follower has counted the driver's pass and answers it. -/
inductive Answered (g : Generation D) (e : Execution D) : StageMessage D → Prop
  | progress (hinside : g.prefillOnly=true)
      (paired : Paired g e (g.step+1) (g.position+g.tokens.length) g.generated false)
      (executed : e.executed=g.position+g.tokens.length) :
      Answered g e (.prefillProgress (acknowledgment g))
  | token {token : SampledToken D} (hend : g.prefillOnly=false)
      (vocabulary : token.id < g.lease.vocabularySize)
      (paired : Paired g e (g.step+1) (g.position+g.tokens.length) (g.generated+1)
        (stops g token.id))
      (executed : e.executed=g.position+g.tokens.length) :
      Answered g e (.sampledToken (feedback g token))

/-- The tensor of the driver's pass. -/
def Carries (g : Generation D) (tensor : TensorEnvelope) : Prop :=
  ∃ hidden,decodeTensor tensor g.lease.identity (UInt64.ofNat g.step) (UInt64.ofNat g.position)
    g.prefilling=.ok hidden ∧ hidden.tokens.toNat=g.tokens.length

/-- What the driver puts into its backend. -/
structure Phased (g : Generation D) : Prop where
  first : g.step=0 → g.position < g.request.tokenIds.length
  prefilling : g.prefilling=decide (g.position < g.request.tokenIds.length)
  prefillOnly : g.prefillOnly=(g.prefilling &&
    decide (g.position+g.tokens.length < g.request.tokenIds.length))
  nonempty : 0 < g.tokens.length
  chunk : g.tokens.length ≤ g.chunkSize
  inside : g.prefilling=true → g.position+g.tokens.length ≤ g.request.tokenIds.length
  single : g.prefilling=false → g.tokens.length=1

end Counters

section Relations

variable [Double F D] (g : Generation D)

/-- What the follower asks `acquire` for. -/
structure Opens (opening : SequenceOpen D) (sampling : SamplingOptions D)
    (call : Acquisition) : Prop where
  sampled : ∃ random,samplingOptions opening.sampling random=.ok sampling
  deploymentId : call.deploymentId=opening.deploymentId
  deploymentVersion : call.deploymentVersion=opening.deploymentVersion
  requestId : call.requestId=opening.requestId
  tokens : call.tokens=opening.maximumTotalTokens
  chunk : call.prefillChunkTokens=opening.prefillChunkTokens

/-- A request that has passed every check of the driver. -/
structure Admissible : Prop where
  asked : ∃ call,Asks g.request g.sampling call ∧ Granted call g.lease
  admitted : g.request.admitted g.sampling g.lease=.ok ()
  split : g.lease.split=true
  chunk : g.chunkSize=g.request.chunkSize

/-- The follower stands at these counters and waits for what was not read. -/
inductive Waits (sequence position generated : ℕ) (stopped : Bool)
    (pending : List (StageMessage D)) : Execute D → List (StageMessage D) → Prop
  | starting (h : Unstarted sequence position generated stopped) :
      Waits sequence position generated stopped pending .starting (.openSequence g.opening::pending)
  | opened (h : Unstarted sequence position generated stopped) :
      Waits sequence position generated stopped pending (.opened g.opening) pending
  | acquiring {sampling : SamplingOptions D} {call : Acquisition}
      (h : Unstarted sequence position generated stopped) (opens : Opens g.opening sampling call) :
      Waits sequence position generated stopped pending (.acquiring g.opening sampling call) pending
  | waiting {e : Execution D} {point : ExecutePoint D}
      (hpoint : point=.awaiting ∨ point=.reading)
      (paired : Paired g e sequence position generated stopped) (executed : e.executed=position) :
      Waits sequence position generated stopped pending (.running e point) pending

/-- The driver has sent its pass and waits for the answer. -/
inductive Exchange : Execute D → List (StageMessage D) → List (StageMessage D) → Prop
  | sent {h : Execute D} {toPeer : List (StageMessage D)} {tensor : TensorEnvelope}
      (carries : Carries g tensor)
      (waits : Waits g g.step g.position g.generated false [.tensor tensor] h toPeer) :
      Exchange h toPeer []
  | received {e : Execution D} {tensor : TensorEnvelope} (carries : Carries g tensor)
      (paired : Paired g e g.step g.position g.generated false) (executed : e.executed=g.position) :
      Exchange (.running e (.received (.tensor tensor))) [] []
  | executing {e : Execution D} {input : BoundaryActivation}
      (paired : Paired g e g.step g.position g.generated false) (executed : e.executed=g.position)
      (count : e.count=g.tokens.length) (prefilling : e.prefilling=g.prefilling)
      (prefillOnly : e.prefillOnly=g.prefillOnly) :
      Exchange (.running e (.executing input)) [] []
  | sampled {e : Execution D} {token : SampledToken D} (hend : g.prefillOnly=false)
      (vocabulary : token.id < g.lease.vocabularySize)
      (paired : Paired g e g.step g.position g.generated false)
      (executed : e.executed=g.position+g.tokens.length) (count : e.count=g.tokens.length) :
      Exchange (.running e (.sampled token)) [] []
  | progressing {e : Execution D} {progress : PrefillProgress}
      (answered : Answered g e (.prefillProgress progress)) :
      Exchange (.running e (.progressing progress)) [] []
  | progressed {e : Execution D} {progress : PrefillProgress}
      (answered : Answered g e (.prefillProgress progress)) :
      Exchange (.running e (.progressed progress)) [] []
  | answering {e : Execution D} {sampled : WireSampledToken D}
      (answered : Answered g e (.sampledToken sampled)) :
      Exchange (.running e (.answering sampled)) [] []
  | answered {e : Execution D} {sampled : WireSampledToken D}
      (answered : Answered g e (.sampledToken sampled)) :
      Exchange (.running e (.answered sampled)) [] []
  | replied {e : Execution D} {point : ExecutePoint D} {message : StageMessage D}
      (hpoint : point=.awaiting ∨ point=.reading) (answered : Answered g e message) :
      Exchange (.running e point) [] [message]

/-- The follower has ended with success. -/
inductive Done : Execute D → Prop
  | leaving {e : Execution D} : Done (.running e (.leaving (.ok ())))
  | returned : Done (.returned .ok)

/-- The driver has sent its termination and waits for the acknowledgment. -/
inductive Ends : Execute D → List (StageMessage D) → List (StageMessage D) → Prop
  | sent {h : Execute D} {toPeer : List (StageMessage D)} {sequence position : ℕ}
      (waits : Waits g sequence position g.generated true [.terminate g.termination] h toPeer) :
      Ends h toPeer []
  | received {e : Execution D} {sequence position : ℕ}
      (paired : Paired g e sequence position g.generated true) :
      Ends (.running e (.received (.terminate g.termination))) [] []
  | releasing {e : Execution D} : Ends (.running e (.releasing g.termination)) [] []
  | acknowledging {e : Execution D} : Ends (.running e (.acknowledging g.termination)) [] []
  | acknowledged {h : Execute D} (hdone : Done h) : Ends h [] [.terminate g.termination]

/-- The driver has read a token that it will emit, and the follower has counted it. -/
structure Decides (token : SampledToken D) (h : Execute D) (toPeer : List (StageMessage D)) :
    Prop where
  executed : g.executed=g.position+g.tokens.length
  waits : Waits g (g.step+1) (g.position+g.tokens.length) (g.generated+1) (stops g token.id) []
    h toPeer

/-- The driver is at the event of a token. -/
structure Tells (token : SampledToken D) (h : Execute D) (toPeer : List (StageMessage D)) :
    Prop where
  executed : g.executed=g.position
  waits : Waits g (g.step+1) g.position (g.generated+1) (stops g token.id) [] h toPeer

/-- Where the follower is for each point of the driver. -/
inductive Lockstep : GeneratePoint D → Execute D → List (StageMessage D) →
    List (StageMessage D) → Prop
  | opening (hzero : Unstarted g.step g.position g.generated false) (executed : g.executed=0) :
      Lockstep .opening .starting [] []
  | looping {h : Execute D} {toPeer : List (StageMessage D)}
      (first : g.step=0 → g.position < g.request.tokenIds.length)
      (executed : g.executed=g.position)
      (waits : Waits g g.step g.position g.generated false [] h toPeer) :
      Lockstep .looping h toPeer []
  | executing {h : Execute D} {toPeer : List (StageMessage D)} (phased : Phased g)
      (executed : g.executed=g.position)
      (waits : Waits g g.step g.position g.generated false [] h toPeer) :
      Lockstep .executing h toPeer []
  | sending {h : Execute D} {toPeer : List (StageMessage D)} {tensor : TensorEnvelope}
      (phased : Phased g) (executed : g.executed=g.position+g.tokens.length)
      (carries : Carries g tensor)
      (waits : Waits g g.step g.position g.generated false [] h toPeer) :
      Lockstep (.sending tensor) h toPeer []
  | reading {h : Execute D} {toPeer toDriver : List (StageMessage D)} (phased : Phased g)
      (executed : g.executed=g.position+g.tokens.length) (exchange : Exchange g h toPeer toDriver) :
      Lockstep .reading h toPeer toDriver
  | sampled {h : Execute D} {toPeer : List (StageMessage D)} {token : SampledToken D}
      (decides : Decides g token h toPeer) : Lockstep (.sampled token) h toPeer []
  | announcing {h : Execute D} {toPeer : List (StageMessage D)} {token : SampledToken D}
      (decides : Decides g token h toPeer) : Lockstep (.announcing token) h toPeer []
  | announced {h : Execute D} {toPeer : List (StageMessage D)} {token : SampledToken D}
      (decides : Decides g token h toPeer) : Lockstep (.announced token) h toPeer []
  | emitting {h : Execute D} {toPeer : List (StageMessage D)} {token : SampledToken D}
      (tells : Tells g token h toPeer) : Lockstep (.emitting token) h toPeer []
  | emitted {h : Execute D} {toPeer : List (StageMessage D)} {token : SampledToken D}
      (tells : Tells g token h toPeer) : Lockstep (.emitted token) h toPeer []
  | terminating {h : Execute D} {toPeer : List (StageMessage D)} {sequence position : ℕ}
      (waits : Waits g sequence position g.generated true [] h toPeer) :
      Lockstep .terminating h toPeer []
  | acknowledging {h : Execute D} {toPeer toDriver : List (StageMessage D)}
      (ends : Ends g h toPeer toDriver) : Lockstep .acknowledging h toPeer toDriver
  | draining {h : Execute D} (hdone : Done h) : Lockstep .draining h [] []
  | finishing {h : Execute D} (hdone : Done h) : Lockstep .finishing h [] []
  | committing {h : Execute D} (hdone : Done h) : Lockstep .committing h [] []
  | releasing {h : Execute D} (hdone : Done h) : Lockstep .releasing h [] []
  | usage {h : Execute D} (hdone : Done h) : Lockstep .usage h [] []
  | terminal {h : Execute D} (hdone : Done h) : Lockstep .terminal h [] []
  | leaving {h : Execute D} (hdone : Done h) : Lockstep (.leaving (.ok ())) h [] []

/-- Where the follower is for each state of the driver. -/
inductive Joined : Generate D → Execute D → List (StageMessage D) → List (StageMessage D) → Prop
  | starting {request : GenerationRequest D} : Joined (.starting request) .starting [] []
  | acquiring {request : GenerationRequest D} {sampling : SamplingOptions D}
      {call : Acquisition} : Joined (.acquiring request sampling call) .starting [] []
  | running {g : Generation D} {point : GeneratePoint D} {h : Execute D}
      {toPeer toDriver : List (StageMessage D)} (admissible : Admissible g)
      (lockstep : Lockstep g point h toPeer toDriver) : Joined (.running g point) h toPeer toDriver
  | returned {request : GenerationRequest D} {events : List (GenerationEvent D)} {h : Execute D}
      (hdone : Done h) : Joined (.returned request events .ok) h [] []

end Relations

section Admission

variable [Double F D] {g : Generation D}

/-- What the last checks of the driver say. -/
structure Bounded (g : Generation D) : Prop where
  topK : g.sampling.topK.toNat ≤ g.lease.vocabularySize
  stops : ∀ id∈g.request.stopTokenIds,id < g.lease.vocabularySize
  transport : g.request.chunkSize ≤ (kMaximumRpcBytes/4/g.lease.identity.hiddenSize).toNat
  query : g.request.chunkSize ≤ g.lease.maximumQueryTokens

/-- The last checks of the driver pass. -/
theorem Admissible.bounded (h : Admissible g) : Bounded g := by
  have hadmitted := h.admitted
  unfold GenerationRequest.admitted setSampling validateStopIds at hadmitted
  rw [call_bind] at hadmitted
  obtain ⟨_,hsampling,hadmitted⟩ := hadmitted
  rw [call_bind] at hadmitted
  obtain ⟨_,hstops,hadmitted⟩ := hadmitted
  rw [check_iff] at hsampling hstops hadmitted
  obtain ⟨htransport,hadmitted⟩ := hadmitted
  rw [check_iff] at hadmitted
  rw [not_and,Nat.not_lt] at htransport
  refine ⟨Nat.not_lt.mp hsampling.1,fun id hid => ?_,htransport h.split,Nat.not_lt.mp hadmitted.1⟩
  by_contra hover
  refine hstops.1 (List.any_eq_true.mpr ⟨id,hid,?_⟩)
  rw [decide_eq_true_eq]
  exact Nat.not_lt.mp hover

/-- The lease is the one the request asked for. -/
structure Identified (g : Generation D) (identity : BoundaryIdentity) : Prop where
  deploymentId : identity.deploymentId=g.request.deploymentId
  deploymentVersion : identity.deploymentVersion=g.request.deploymentVersion
  requestId : identity.requestId=g.request.requestId
  tokens : identity.maximumTokens.toNat=g.request.tokenIds.length+g.request.maximumNewTokens
  named : identity.deploymentId≠"" ∧ identity.deploymentVersion≠0 ∧ identity.requestId≠""

/-- The driver's lease is the one it asked for. -/
theorem Admissible.identified (h : Admissible g) : Identified g g.lease.identity := by
  obtain ⟨call,hasks,hgranted⟩ := h.asked
  have hbounded := hasks.bounded
  refine ⟨hgranted.deploymentId.trans hasks.deploymentId,
    hgranted.deploymentVersion.trans hasks.deploymentVersion,hgranted.id.trans hasks.requestId,?_,
    ?_,?_,?_⟩
  · rw [hgranted.tokens,hasks.tokens,UInt64.toNat_ofNat',Nat.mod_eq_of_lt hbounded]
  · rw [hgranted.deploymentId]
    exact hgranted.identified.1
  · rw [hgranted.deploymentVersion]
    exact hgranted.identified.2
  · rw [hgranted.id]
    exact hgranted.named

/-- Messages of the request pass the identity check. -/
theorem Identified.passes {lease : Lease} (h : Identified g lease.identity) :
    GenerationModel.validateIdentity g.request.deploymentId g.request.deploymentVersion
      g.request.requestId 0 lease=.ok () := by
  unfold GenerationModel.validateIdentity BoundaryCodec.validateIdentity
  rw [if_neg]
  · rfl
  · rw [not_or,not_or,not_or,not_not,not_not,not_not,not_not]
    exact ⟨h.deploymentId.symm,h.deploymentVersion.symm,h.requestId.symm,rfl⟩

/-- Options that were sampled for a request are valid. -/
theorem valid_of_samplingOptions {wire : Option (WireSampling D)} {random : UInt64}
    {sampling : SamplingOptions D}
    (hdefault : validateSampling (defaultSampling : SamplingOptions D)=.ok ())
    (h : samplingOptions wire random=.ok sampling) : validateSampling sampling=.ok () := by
  unfold samplingOptions at h
  split at h
  · cases h
    exact hdefault
  · dsimp only at h
    split at h
    · cases h
    · cases h
      assumption

/-- What the follower makes of the driver's options: the same ones. -/
theorem samplingOptions_opening {random : UInt64} (h : validateSampling g.sampling=.ok ()) :
    samplingOptions g.opening.sampling random=.ok g.sampling := by
  unfold samplingOptions Generation.opening
  dsimp only [Option.getD_some]
  rw [h]

/-- The follower's own checks pass on the opening the driver writes. -/
theorem Admissible.starts (h : Admissible g)
    (hdefault : validateSampling (defaultSampling : SamplingOptions D)=.ok ())
    {now later contextDeadline deadline : ℕ} {r : UInt64}
    (hdeadline : effectiveDeadline now later contextDeadline g.opening.deadlineUnixMs=
      .ok deadline) :
    ∃ call,g.opening.start now later contextDeadline r=.ok (g.sampling,call) ∧
      Opens g.opening g.sampling call := by
  obtain ⟨call,hasks,-⟩ := h.asked
  obtain ⟨random',hsampled⟩ := hasks.sampled
  have hsame : samplingOptions g.opening.sampling r=.ok g.sampling :=
    samplingOptions_opening (valid_of_samplingOptions hdefault hsampled)
  have hprompt := hasks.prompt
  have houtput := hasks.output
  have hopening : ¬(g.opening.protocolVersion≠1 ∨ g.opening.microbatchId≠0 ∨
      g.opening.maximumNewTokens=0 ∨
      g.opening.maximumTotalTokens ≤ g.opening.maximumNewTokens) := by
    rw [not_or,not_or,not_or,not_not,not_not]
    refine ⟨rfl,rfl,?_,?_⟩
    · change g.request.maximumNewTokens≠0
      omega
    · change ¬g.request.tokenIds.length+g.request.maximumNewTokens ≤ g.request.maximumNewTokens
      omega
  refine ⟨⟨g.opening.deploymentId,g.opening.deploymentVersion,g.opening.requestId,
    g.opening.maximumTotalTokens,deadline,1,g.opening.prefillChunkTokens⟩,?_,⟨r,hsame⟩,rfl,
    rfl,rfl,rfl,rfl⟩
  unfold SequenceOpen.start
  rw [hsame]
  change (if _ then _ else _)=_
  rw [if_neg hopening,hdeadline]
  rfl

/-- The stages hold the same lease. -/
theorem Admissible.sameLease (h : Admissible g) {sampling : SamplingOptions D} {call : Acquisition}
    {lease : Lease} (hopens : Opens g.opening sampling call) (hgranted : Granted call lease)
    (hhidden : lease.identity.hiddenSize=g.lease.identity.hiddenSize)
    (hvocabulary : lease.vocabularySize=g.lease.vocabularySize) : SameLease g.lease lease := by
  obtain ⟨call',hasks,hgranted'⟩ := h.asked
  have htokens : call.tokens=call'.tokens := hopens.tokens.trans hasks.tokens.symm
  have hchunk : call.prefillChunkTokens=call'.prefillChunkTokens :=
    hopens.chunk.trans hasks.chunk.symm
  have hidentity := h.identified
  have hdeployment : lease.identity.deploymentId=g.lease.identity.deploymentId :=
    (hgranted.deploymentId.trans hopens.deploymentId).trans hidentity.deploymentId.symm
  have hversion : lease.identity.deploymentVersion=g.lease.identity.deploymentVersion :=
    (hgranted.deploymentVersion.trans hopens.deploymentVersion).trans
      hidentity.deploymentVersion.symm
  have hrequest : lease.identity.requestId=g.lease.identity.requestId :=
    (hgranted.id.trans hopens.requestId).trans hidentity.requestId.symm
  have hmaximum : lease.identity.maximumTokens=g.lease.identity.maximumTokens := by
    rw [hgranted.tokens,hgranted'.tokens,htokens]
  refine ⟨?_,?_,hvocabulary⟩
  · cases hl : lease.identity
    cases hg : g.lease.identity
    rw [hl,hg] at hdeployment hversion hrequest hmaximum hhidden
    rw [BoundaryIdentity.mk.injEq]
    exact ⟨hdeployment,hversion,hrequest,hmaximum,hhidden⟩
  · rw [hgranted.query,hgranted'.query,htokens,hchunk]

/-- The follower admits the driver's sequence. -/
theorem Admissible.admits (h : Admissible g) {sampling : SamplingOptions D} {call : Acquisition}
    {lease : Lease} (hopens : Opens g.opening sampling call) (hlease : SameLease g.lease lease) :
    g.opening.admitted sampling lease=.ok () := by
  have hbounded := h.bounded
  obtain ⟨random,hsampled⟩ := hopens.sampled
  have htopK : sampling.topK=g.sampling.topK := by
    unfold samplingOptions Generation.opening at hsampled
    dsimp only at hsampled
    split at hsampled
    · cases hsampled
    · cases hsampled
      rfl
  have hsampling : setSampling sampling lease.vocabularySize=.ok () := by
    unfold setSampling
    rw [if_neg]
    rw [htopK,hlease.vocabulary]
    exact Nat.not_lt.mpr hbounded.topK
  have hstops : validateStopIds g.opening.stopTokenIds lease.vocabularySize=.ok () := by
    unfold validateStopIds
    rw [if_neg]
    intro hany
    obtain ⟨id,hid,hover⟩ := List.any_eq_true.mp hany
    rw [decide_eq_true_eq,hlease.vocabulary] at hover
    exact absurd (hbounded.stops id hid) (Nat.not_lt.mpr hover)
  have hprompt : ¬(g.opening.execution lease).maximumPrompt < g.opening.promptTokens := by
    have htokens := h.identified.tokens
    rw [←hlease.identity] at htokens
    change ¬lease.identity.maximumTokens.toNat-g.request.maximumNewTokens <
      g.request.tokenIds.length
    omega
  unfold SequenceOpen.admitted
  rw [hsampling]
  change (validateStopIds g.opening.stopTokenIds lease.vocabularySize >>= _)=_
  rw [hstops]
  change (if _ then _ else _)=_
  rw [if_neg hprompt]

end Admission

section Replies

/-- What a handler has written when a call returns. -/
def written (outgoing : Option (StageMessage D)) : Reply D → List (StageMessage D)
  | .written true => outgoing.toList
  | _ => []

/-- The driver has closed its direction of the stream. -/
def writesDone : Generate D → Bool
  | .running _ .acknowledging => true
  | .running _ .draining => true
  | .running _ .finishing => true
  | .running _ .committing => true
  | .running _ .releasing => true
  | .running _ .usage => true
  | .running _ .terminal => true
  | .running _ (.leaving _) => true
  | .returned _ _ _ => true
  | _ => false

/-- The last backend acknowledges a part of the prompt and samples after it. -/
def Samples (e : Execution D) (output : StageOutput D) : Prop :=
  e.prefillOnly=true ∧ output=.progress ∨
    e.prefillOnly=false ∧ ∃ token,output=.sampled token ∧ token.id < e.lease.vocabularySize

/-- Replies of a follower's calls that do not fail, with a backend of the
driver's sizes and a stream that ends when the driver closes it. -/
def FollowerSmooth (upstream : Generate D) (toPeer : List (StageMessage D)) (h : Execute D) :
    Reply D → Prop
  | .threw _ => False
  | .started now later contextDeadline _ => ∀ opening,h=.opened opening →
      ∃ deadline,effectiveDeadline now later contextDeadline opening.deadlineUnixMs=.ok deadline
  | .acquired lease => ∀ lease',driverLease upstream=some lease' →
      lease.identity.hiddenSize=lease'.identity.hiddenSize ∧
        lease.vocabularySize=lease'.vocabularySize
  | .output output => ∀ e input,h=.running e (.executing input) → Samples e output
  | .written ok => ok=true
  | .read none => toPeer=[] ∧ writesDone upstream=true
  | _ => True

variable [Double F D] {g : Generation D} {upstream : Generate D}
variable {sequence position generated : ℕ} {stopped : Bool}
variable {pending toPeer toDriver : List (StageMessage D)}

/-- What is known of a follower's call that returns. -/
structure Returns (g : Generation D) (upstream : Generate D) (toPeer : List (StageMessage D))
    (h : Execute D) (reply : Reply D) (h' : Execute D) : Prop where
  resumes : Execute.resume h reply=some h'
  smooth : FollowerSmooth upstream toPeer h reply
  lease : driverLease upstream=some g.lease
  granted : ∀ lease,reply=.acquired lease → ∃ call,h.acquisition=some call ∧ Granted call lease
  unread : ∀ message,reply≠.read (some message)

/-- A follower that waits goes on waiting. -/
theorem Waits.follow {h h' : Execute D} {reply : Reply D} (ha : Admissible g)
    (hdefault : validateSampling (defaultSampling : SamplingOptions D)=.ok ())
    (hw : Waits g sequence position generated stopped pending h toPeer)
    (hone : Returns g upstream toPeer h reply h')
    (hopen : pending=[] → writesDone upstream=false) :
    Waits g sequence position generated stopped pending h' toPeer ∧
      written h.outgoing reply=[] := by
  have hresumes := hone.resumes
  have hsmooth := hone.smooth
  cases hw with
  | starting hzero =>
    cases reply with
    | read message =>
      cases message with
      | none => cases hsmooth.1
      | some message => exact absurd rfl (hone.unread message)
    | _ => cases hresumes
  | opened hzero =>
    cases reply with
    | started now later contextDeadline random =>
      obtain ⟨deadline,hdeadline⟩ := hsmooth g.opening rfl
      obtain ⟨call,hstart,hopens⟩ := ha.starts (r:=random) hdefault hdeadline
      rw [Execute.resume,hstart] at hresumes
      cases hresumes
      exact ⟨.acquiring hzero hopens,rfl⟩
    | _ => cases hresumes
  | @acquiring sampling call hzero hopens =>
    cases reply with
    | threw error => exact hsmooth.elim
    | acquired lease =>
      obtain ⟨call',hcall,hgranted⟩ := hone.granted lease rfl
      cases hcall
      obtain ⟨hhidden,hvocabulary⟩ := hsmooth g.lease hone.lease
      have hlease := ha.sameLease hopens hgranted hhidden hvocabulary
      rw [Execute.resume,SequenceOpen.afterLease,ha.admits hopens hlease] at hresumes
      cases hresumes
      refine ⟨.waiting (.inl rfl) ⟨rfl,hlease,rfl,?_,?_,?_,?_⟩ ?_,rfl⟩
      · exact hzero.sequence.symm
      · exact hzero.position.symm
      · exact hzero.generated.symm
      · exact hzero.stopped.symm
      · exact hzero.position.symm
    | _ => cases hresumes
  | @waiting e point hpoint paired executed =>
    rcases hpoint with rfl|rfl
    · cases reply with
      | threw error => exact hsmooth.elim
      | running =>
        cases hresumes
        exact ⟨.waiting (.inr rfl) paired executed,rfl⟩
      | written ok => cases ok <;> cases hresumes
      | read message => cases message <;> cases hresumes
      | _ => cases hresumes
    · cases reply with
      | threw error => exact hsmooth.elim
      | read message =>
        cases message with
        | none =>
          obtain ⟨hnone,hdone⟩ := hsmooth
          rw [hopen hnone] at hdone
          cases hdone
        | some message => exact absurd rfl (hone.unread message)
      | written ok => cases ok <;> cases hresumes
      | _ => cases hresumes

/-- A follower that waits reads its opening, or what it waits for. -/
theorem Waits.read {h h' : Execute D} {message : StageMessage D} {rest : List (StageMessage D)}
    (hw : Waits g sequence position generated stopped pending h (message::rest))
    (hone : Execute.resume h (.read (some message))=some h') :
    Waits g sequence position generated stopped pending h' rest ∨
      ∃ e,h'=.running e (.received message) ∧ pending=message::rest ∧
        Paired g e sequence position generated stopped ∧ e.executed=position := by
  generalize hchannel : message::rest=channel at hw
  cases hw with
  | starting hzero =>
    cases hchannel
    cases hone
    exact .inl (.opened hzero)
  | opened hzero => cases hone
  | acquiring hzero hopens => cases hone
  | @waiting e point hpoint paired executed =>
    rcases hpoint with rfl|rfl
    · cases hone
    · cases hone
      exact .inr ⟨e,rfl,rfl,paired,executed⟩

/-- The driver's tensor passes every check of the follower. -/
theorem Paired.takes {e : Execution D} {tensor : TensorEnvelope} (ha : Admissible g)
    (hphased : Phased g) (hcarries : Carries g tensor)
    (paired : Paired g e g.step g.position g.generated false) (executed : e.executed=g.position) :
    ∃ e' input,e.takeMessage (.tensor tensor)=.running e' (.executing input) ∧
      Paired g e' g.step g.position g.generated false ∧ e'.executed=g.position ∧
      e'.count=g.tokens.length ∧ e'.prefilling=g.prefilling ∧ e'.prefillOnly=g.prefillOnly := by
  obtain ⟨call,hasks,-⟩ := ha.asked
  obtain ⟨hidden,hdecode,htokens⟩ := hcarries
  have hprompt : e.prompt≠0 := by
    rw [paired.prompt]
    exact Nat.pos_iff_ne_zero.mp hasks.prompt
  have hphase : decide (e.sequence=0 ∨ e.position < e.prompt)=g.prefilling := by
    rw [paired.sequence,paired.position,paired.prompt,hphased.prefilling]
    refine decide_eq_decide.mpr ⟨?_,.inr⟩
    rintro (hfirst|hinside)
    · exact hphased.first hfirst
    · exact hinside
  have hdecode' : decodeTensor tensor e.lease.identity (UInt64.ofNat e.sequence)
      (UInt64.ofNat e.position) g.prefilling=.ok hidden := by
    rw [paired.lease.identity,paired.sequence,paired.position]
    exact hdecode
  have hgoes : ¬e.stopped=true := by
    rw [paired.stopped]
    exact Bool.false_ne_true
  have hnew : ¬(e.sequence=0 ∧ e.prompt=0) := fun h => hprompt h.2
  have hfits : ¬(g.prefilling=true ∧ e.prompt-e.position < hidden.tokens.toNat ∨
      g.prefilling=false ∧ hidden.tokens.toNat≠1) := by
    rw [paired.prompt,paired.position,htokens]
    rintro (⟨hinside,hover⟩|⟨hdecoding,hmany⟩)
    · have hbound := hphased.inside hinside
      omega
    · exact hmany (hphased.single hdecoding)
  have hquery : ¬e.lease.maximumQueryTokens < hidden.tokens.toNat := by
    rw [paired.lease.query,htokens]
    have hchunk := hphased.chunk
    rw [ha.chunk] at hchunk
    have hbounded := ha.bounded.query
    omega
  have htake : e.takeMessage (.tensor tensor)=
      .running { e with
        count := hidden.tokens.toNat
        prefilling := g.prefilling
        prefillOnly := g.prefilling && decide (e.position+hidden.tokens.toNat < e.prompt) }
        (.executing hidden) := by
    rw [Execution.takeMessage,if_neg hgoes,Execution.takeTensor,hphase,hdecode']
    dsimp only
    rw [Execution.enterBackend,if_neg hnew,if_neg (fun h => hnew ⟨h.1,h.2.1⟩),if_neg hfits,
      if_neg hquery]
  refine ⟨_,_,htake,⟨paired.opening,paired.lease,paired.prompt,paired.sequence,paired.position,
    paired.generated,paired.stopped⟩,executed,htokens,rfl,?_⟩
  dsimp only
  rw [htokens,paired.position,paired.prompt,hphased.prefillOnly]

/-- The follower answers a pass with what the driver expects. -/
theorem Exchange.computes {e : Execution D} {output : StageOutput D}
    (paired : Paired g e g.step g.position g.generated false) (executed : e.executed=g.position)
    (count : e.count=g.tokens.length) (prefillOnly : e.prefillOnly=g.prefillOnly)
    (hsamples : Samples e output) :
    Exchange g ({ e with executed := e.executed+e.count }.takeOutput output) [] [] := by
  have hrows : e.executed+e.count=g.position+g.tokens.length := by rw [executed,count]
  rcases hsamples with ⟨hinside,rfl⟩|⟨hend,token,rfl,hvocabulary⟩
  · have hprogress : ({ e with executed := e.executed+e.count } : Execution D).progress=
        acknowledgment g := by
      unfold Execution.progress acknowledgment
      rw [PrefillProgress.mk.injEq]
      refine ⟨?_,?_,?_,rfl,paired.sequence,?_⟩
      · exact congrArg SequenceOpen.deploymentId paired.opening
      · exact congrArg SequenceOpen.deploymentVersion paired.opening
      · exact congrArg SequenceOpen.requestId paired.opening
      · dsimp only
        rw [paired.position,count]
    rw [Execution.takeOutput]
    dsimp only
    rw [if_pos hinside,hprogress]
    refine .progressing (.progress (prefillOnly ▸ hinside) ⟨paired.opening,paired.lease,
      paired.prompt,?_,?_,paired.generated,paired.stopped⟩ hrows)
    · exact congrArg (·+1) paired.sequence
    · change e.position+e.count=_
      rw [paired.position,count]
  · have hvalid : ¬e.lease.vocabularySize ≤ token.id := Nat.not_le.mpr hvocabulary
    rw [Execution.takeOutput]
    dsimp only
    rw [if_neg (by rw [hend]; exact Bool.false_ne_true),if_neg hvalid]
    rw [paired.lease.vocabulary] at hvocabulary
    exact .sampled (prefillOnly ▸ hend) hvocabulary ⟨paired.opening,paired.lease,paired.prompt,
      paired.sequence,paired.position,paired.generated,paired.stopped⟩ hrows count

/-- The follower counts a token as the driver does, and decides the same way. -/
theorem Exchange.answers {e : Execution D} {token : SampledToken D} (hend : g.prefillOnly=false)
    (hvocabulary : token.id < g.lease.vocabularySize)
    (paired : Paired g e g.step g.position g.generated false)
    (executed : e.executed=g.position+g.tokens.length) (count : e.count=g.tokens.length) :
    Exchange g (e.answer token) [] [] := by
  have hsampled : e.sampledToken token=feedback g token := by
    unfold Execution.sampledToken feedback
    rw [WireSampledToken.mk.injEq,paired.opening,paired.sequence,paired.position,count]
    exact ⟨rfl,rfl,rfl,rfl,rfl,rfl,rfl,rfl,rfl⟩
  rw [Execution.answer,hsampled]
  refine .answering (.token hend hvocabulary ⟨paired.opening,paired.lease,paired.prompt,?_,?_,?_,
    ?_⟩ executed)
  · exact congrArg (·+1) paired.sequence
  · change e.position+e.count=_
    rw [paired.position,count]
  · exact congrArg (·+1) paired.generated
  · unfold stops
    dsimp only
    rw [paired.generated,paired.opening]
    rfl

/-- A step of the follower during an exchange. -/
theorem Exchange.follow {h h' : Execute D} {reply : Reply D} (ha : Admissible g)
    (hdefault : validateSampling (defaultSampling : SamplingOptions D)=.ok ())
    (hphased : Phased g) (he : Exchange g h toPeer toDriver)
    (hone : Returns g upstream toPeer h reply h') (hopen : writesDone upstream=false) :
    Exchange g h' toPeer (toDriver++written h.outgoing reply) := by
  have hresumes := hone.resumes
  have hsmooth := hone.smooth
  cases he with
  | sent carries waits =>
    obtain ⟨hwaits,hwritten⟩ := waits.follow ha hdefault hone fun _ => hopen
    rw [hwritten]
    exact .sent carries hwaits
  | received carries paired executed =>
    cases reply with
    | threw error => exact hsmooth.elim
    | running =>
      obtain ⟨e',input,htake,hpaired,hexecuted,hcount,hprefilling,honly⟩ :=
        paired.takes ha hphased carries executed
      cases hresumes
      rw [htake]
      exact .executing hpaired hexecuted hcount hprefilling honly
    | written ok => cases ok <;> cases hresumes
    | read message => cases message <;> cases hresumes
    | _ => cases hresumes
  | executing paired executed count prefilling prefillOnly =>
    cases reply with
    | threw error => exact hsmooth.elim
    | output output =>
      cases hresumes
      exact Exchange.computes paired executed count prefillOnly (hsmooth _ _ rfl)
    | written ok => cases ok <;> cases hresumes
    | read message => cases message <;> cases hresumes
    | _ => cases hresumes
  | sampled hend vocabulary paired executed count =>
    cases reply with
    | threw error => exact hsmooth.elim
    | running =>
      cases hresumes
      exact Exchange.answers hend vocabulary paired executed count
    | written ok => cases ok <;> cases hresumes
    | read message => cases message <;> cases hresumes
    | _ => cases hresumes
  | progressing answered =>
    cases reply with
    | threw error => exact hsmooth.elim
    | running =>
      cases hresumes
      exact .progressed answered
    | written ok => cases ok <;> cases hresumes
    | read message => cases message <;> cases hresumes
    | _ => cases hresumes
  | progressed answered =>
    cases reply with
    | threw error => exact hsmooth.elim
    | written ok =>
      cases ok with
      | true =>
        cases hresumes
        exact .replied (.inl rfl) answered
      | false => cases hsmooth
    | read message => cases message <;> cases hresumes
    | _ => cases hresumes
  | answering answered =>
    cases reply with
    | threw error => exact hsmooth.elim
    | running =>
      cases hresumes
      exact .answered answered
    | written ok => cases ok <;> cases hresumes
    | read message => cases message <;> cases hresumes
    | _ => cases hresumes
  | answered answered =>
    cases reply with
    | threw error => exact hsmooth.elim
    | written ok =>
      cases ok with
      | true =>
        cases hresumes
        exact .replied (.inl rfl) answered
      | false => cases hsmooth
    | read message => cases message <;> cases hresumes
    | _ => cases hresumes
  | @replied e point message hpoint answered =>
    rcases hpoint with rfl|rfl
    · cases reply with
      | threw error => exact hsmooth.elim
      | running =>
        cases hresumes
        exact .replied (.inr rfl) answered
      | written ok => cases ok <;> cases hresumes
      | read message => cases message <;> cases hresumes
      | _ => cases hresumes
    · cases reply with
      | threw error => exact hsmooth.elim
      | read message =>
        cases message with
        | none =>
          have hdone := hsmooth.2
          rw [hopen] at hdone
          cases hdone
        | some message => exact absurd rfl (hone.unread message)
      | written ok => cases ok <;> cases hresumes
      | _ => cases hresumes

/-- A read of the follower during an exchange. -/
theorem Exchange.read {h h' : Execute D} {message : StageMessage D}
    {rest : List (StageMessage D)} (he : Exchange g h (message::rest) toDriver)
    (hone : Execute.resume h (.read (some message))=some h') : Exchange g h' rest toDriver := by
  cases he with
  | sent carries waits =>
    rcases waits.read hone with hwaits|⟨e,rfl,hpending,paired,executed⟩
    · exact .sent carries hwaits
    · cases hpending
      exact .received carries paired executed

/-- A follower that has ended stays so, and writes nothing. -/
theorem Done.follow {h h' : Execute D} {reply : Reply D} (hdone : Done h)
    (hone : Execute.resume h reply=some h') : Done h' ∧ written h.outgoing reply=[] := by
  cases hdone with
  | leaving =>
    cases reply with
    | left expired cancelled =>
      cases hone
      exact ⟨.returned,rfl⟩
    | written ok => cases ok <;> cases hone
    | read message => cases message <;> cases hone
    | _ => cases hone
  | returned => cases hone

/-- A step of the follower while the sequence ends. -/
theorem Ends.follow {h h' : Execute D} {reply : Reply D} (ha : Admissible g)
    (hdefault : validateSampling (defaultSampling : SamplingOptions D)=.ok ())
    (he : Ends g h toPeer toDriver) (hone : Returns g upstream toPeer h reply h') :
    Ends g h' toPeer (toDriver++written h.outgoing reply) := by
  have hresumes := hone.resumes
  have hsmooth := hone.smooth
  cases he with
  | sent waits =>
    obtain ⟨hwaits,hwritten⟩ := waits.follow ha hdefault hone nofun
    rw [hwritten]
    exact .sent hwaits
  | @received e sequence position paired =>
    cases reply with
    | threw error => exact hsmooth.elim
    | running =>
      have hidentity : Identified g e.lease.identity := paired.lease.identity ▸ ha.identified
      have htake : e.takeMessage (.terminate g.termination)=
          .running e (.releasing g.termination) := by
        have hpasses : GenerationModel.validateIdentity g.termination.deploymentId
            g.termination.deploymentVersion g.termination.requestId g.termination.microbatchId
            e.lease=.ok () := hidentity.passes
        rw [Execution.takeMessage,Execution.takeTermination,hpasses]
        dsimp only
        rw [if_neg]
        rw [paired.stopped,paired.prompt,paired.generated]
        rintro (h|h|h|h)
        · exact h rfl
        · cases h
        · exact h rfl
        · exact h rfl
      cases hresumes
      rw [htake]
      exact .releasing
    | written ok => cases ok <;> cases hresumes
    | read message => cases message <;> cases hresumes
    | _ => cases hresumes
  | releasing =>
    cases reply with
    | released =>
      cases hresumes
      exact .acknowledging
    | written ok => cases ok <;> cases hresumes
    | read message => cases message <;> cases hresumes
    | _ => cases hresumes
  | acknowledging =>
    cases reply with
    | threw error => exact hsmooth.elim
    | written ok =>
      cases ok with
      | true =>
        cases hresumes
        exact .acknowledged .leaving
      | false => cases hsmooth
    | read message => cases message <;> cases hresumes
    | _ => cases hresumes
  | acknowledged hdone =>
    obtain ⟨hdone',hwritten⟩ := hdone.follow hresumes
    rw [hwritten,List.append_nil]
    exact .acknowledged hdone'

/-- A read of the follower while the sequence ends. -/
theorem Ends.read {h h' : Execute D} {message : StageMessage D} {rest : List (StageMessage D)}
    (he : Ends g h (message::rest) toDriver)
    (hone : Execute.resume h (.read (some message))=some h') : Ends g h' rest toDriver := by
  cases he with
  | sent waits =>
    rcases waits.read hone with hwaits|⟨e,rfl,hpending,paired,executed⟩
    · exact .sent hwaits
    · cases hpending
      exact .received paired

end Replies

section Driver

/-- The first backend returns finite activations of the tokens it was given. -/
def Transforms (g : Generation D) (output : StageOutput D) : Prop :=
  ∃ hidden,output=.boundary hidden ∧ hidden.tokens.toNat=g.tokens.length ∧
    hidden.width=g.lease.identity.hiddenSize ∧
    hidden.payload.length=hidden.tokens.toNat*hidden.width.toNat*2 ∧
    nonFinite hidden.payload=false

variable [Double F D] {g : Generation D} {downstream : Execute D}
variable {sequence position generated : ℕ} {stopped : Bool}
variable {pending toPeer toDriver : List (StageMessage D)}

/-- Replies of a driver's calls that do not fail: its own checks pass, the plan
has two stages, and the stream ends as the follower ends it. -/
def DriverSmooth (downstream : Execute D) (toDriver : List (StageMessage D)) (h : Generate D) :
    Reply D → Prop
  | .threw _ => False
  | .started now later contextDeadline random => ∀ request,h=.starting request →
      ∃ asked,request.start now later contextDeadline random=.ok asked
  | .acquired lease => ∀ request sampling call,h=.acquiring request sampling call →
      request.admitted sampling lease=.ok () ∧ lease.split=true
  | .output output => ∀ g,h=.running g .executing → Transforms g output
  | .written ok => ok=true
  | .read none => toDriver=[] ∧ ∃ status,downstream=.returned status
  | .finished status => downstream=.returned status
  | _ => True

/-- Waiting depends on the opening, the lease and the prompt. -/
theorem Waits.congr {g' : Generation D} {h : Execute D}
    (hw : Waits g sequence position generated stopped pending h toPeer)
    (hopening : g'.opening=g.opening) (hlease : g'.lease=g.lease)
    (hrequest : g'.request=g.request) :
    Waits g' sequence position generated stopped pending h toPeer := by
  cases hw with
  | starting hzero =>
    rw [←hopening]
    exact .starting hzero
  | opened hzero =>
    rw [←hopening]
    exact .opened hzero
  | acquiring hzero hopens =>
    rw [←hopening] at hopens ⊢
    exact .acquiring hzero hopens
  | waiting hpoint paired executed =>
    refine .waiting hpoint ⟨paired.opening.trans hopening.symm,hlease ▸ paired.lease,?_,
      paired.sequence,paired.position,paired.generated,paired.stopped⟩ executed
    rw [hrequest]
    exact paired.prompt

/-- One more message is waited for. -/
theorem Waits.push {h : Execute D} (hw : Waits g sequence position generated stopped [] h toPeer)
    (message : StageMessage D) :
    Waits g sequence position generated stopped [message] h (toPeer++[message]) := by
  cases hw with
  | starting hzero => exact .starting hzero
  | opened hzero => exact .opened hzero
  | acquiring hzero hopens => exact .acquiring hzero hopens
  | waiting hpoint paired executed => exact .waiting hpoint paired executed

/-- The rows of a pass stay within the reservation. -/
theorem passing_bound {tokens : List (SampledToken D)} (h : Passing g tokens) :
    g.position+g.tokens.length < g.request.tokenIds.length+g.request.maximumNewTokens := by
  have hbelow := h.below
  cases honly : g.prefillOnly with
  | true =>
    have hinside := (h.inside honly).2
    omega
  | false =>
    have hcomplete := h.complete honly
    omega

/-- The driver's boundary tensor is encoded, and the follower's codec accepts it. -/
theorem Phased.sends {output : StageOutput D} (hp : Phased g) (ha : Admissible g)
    (hfits : g.position+g.tokens.length < g.request.tokenIds.length+g.request.maximumNewTokens)
    (ht : Transforms g output) :
    ∃ tensor,g.sendBoundary output=.running g (.sending tensor) ∧ Carries g tensor := by
  obtain ⟨hidden,rfl,htokens,hwidth,hsize,hfinite⟩ := ht
  obtain ⟨call,hasks,-⟩ := ha.asked
  have hbounded := hasks.bounded
  have hidentified := ha.identified
  have hquarter : (kMaximumRpcBytes/4).toNat=4194304 := by rfl
  have htransport := ha.bounded.transport
  rw [UInt64.toNat_div,hquarter,←ha.chunk] at htransport
  have hchunk := hp.chunk
  have hpositive := hp.nonempty
  have hhidden : 0 < g.lease.identity.hiddenSize.toNat := by
    rcases Nat.eq_zero_or_pos g.lease.identity.hiddenSize.toNat with hzero|hzero
    · rw [hzero,Nat.div_zero] at htransport
      omega
    · exact hzero
  have harea : g.tokens.length*g.lease.identity.hiddenSize.toNat ≤ 4194304 :=
    (Nat.le_div_iff_mul_le hhidden).mp (Nat.le_trans hchunk htransport)
  have hlength : hidden.payload.length ≤ 8388608 := by
    rw [hsize,htokens,hwidth]
    omega
  have hwidthNe : hidden.width≠0 := by
    rw [hwidth]
    intro hzero
    rw [hzero] at hhidden
    exact absurd hhidden (by decide)
  have htokensNe : hidden.tokens≠0 := by
    intro hzero
    rw [hzero] at htokens
    rw [←htokens] at hpositive
    exact absurd hpositive (by decide)
  have hencode : encodeTensor hidden g.lease.identity (UInt64.ofNat g.step)
      (UInt64.ofNat g.position) g.prefilling=.ok (envelopeOf hidden g.lease.identity
        (UInt64.ofNat g.step) (UInt64.ofNat g.position) g.prefilling) :=
    encodeTensor_iff.mpr ⟨hlength,hwidthNe,hwidth,htokensNe,hsize,hfinite,rfl⟩
  have hposition : (UInt64.ofNat g.position).toNat=g.position := by
    rw [UInt64.toNat_ofNat',Nat.mod_eq_of_lt (by omega)]
  obtain ⟨hdeployment,hversion,hrequest⟩ := hidentified.named
  have hmaximum := hidentified.tokens
  have hdecode := (codec_exact g.lease.identity (UInt64.ofNat g.step) (UInt64.ofNat g.position)
    g.prefilling).1 hdeployment hversion hrequest hidden _ hencode (by omega) fun _ hdecoding => by
      have hsingle := hp.single hdecoding
      rw [←UInt64.toNat_inj,htokens,hsingle]
      rfl
  refine ⟨_,?_,hidden,hdecode,htokens⟩
  rw [Generation.sendBoundary,if_neg (not_not.mpr htokens),hencode]

/-- The next pass is phased like the follower's. -/
theorem phased_enterBackend {tokens : List (SampledToken D)} (h : Ready g tokens)
    (hfirst : g.step=0 → g.position < g.request.tokenIds.length) :
    ∃ g' : Generation D,g.enterBackend=.running g' .executing ∧ Phased g' ∧
      g'.request=g.request ∧ g'.sampling=g.sampling ∧ g'.lease=g.lease ∧
      g'.chunkSize=g.chunkSize ∧ g'.step=g.step ∧ g'.position=g.position ∧
      g'.generated=g.generated ∧ g'.executed=g.executed := by
  have hchunk := h.chunk
  have hinside : g.position < g.request.tokenIds.length →
      g.nextTokens.length=min g.chunkSize (g.request.tokenIds.length-g.position) := by
    intro hposition
    rw [Generation.nextTokens,if_pos hposition,List.length_take,List.length_drop]
    omega
  have houtside : ¬g.position < g.request.tokenIds.length → g.nextTokens.length=1 := by
    intro hposition
    rw [Generation.nextTokens,if_neg hposition]
    rcases h.input with ⟨-,hin⟩|⟨-,-,hone⟩
    · exact absurd hin hposition
    · exact hone
  refine ⟨_,rfl,⟨hfirst,rfl,rfl,?_,?_,?_,?_⟩,rfl,rfl,rfl,rfl,rfl,rfl,rfl,rfl⟩
  · change 0 < g.nextTokens.length
    by_cases hposition : g.position < g.request.tokenIds.length
    · rw [hinside hposition]
      omega
    · rw [houtside hposition]
      exact Nat.one_pos
  · change g.nextTokens.length ≤ g.chunkSize
    by_cases hposition : g.position < g.request.tokenIds.length
    · rw [hinside hposition]
      exact Nat.min_le_left _ _
    · rw [houtside hposition]
      exact hchunk
  · intro hprefilling
    have hposition : g.position < g.request.tokenIds.length := of_decide_eq_true hprefilling
    change g.position+g.nextTokens.length ≤ g.request.tokenIds.length
    rw [hinside hposition]
    omega
  · intro hprefilling
    exact houtside (of_decide_eq_false hprefilling)

/-- The follower's answer passes every check of the driver. -/
theorem Answered.joins {e : Execution D} {point : ExecutePoint D} {message : StageMessage D}
    {tokens : List (SampledToken D)} (ha : Admissible g) (hpassing : Passing g tokens)
    (hrows : g.executed=g.position+g.tokens.length)
    (hpoint : point=.awaiting ∨ point=.reading) (he : Answered g e message) :
    Joined (g.takeResponse message) (.running e point) [] [] := by
  have hpasses := ha.identified.passes
  cases he with
  | progress hinside paired executed =>
    have hmore : g.generated < g.request.maximumNewTokens := hpassing.counted ▸ hpassing.below
    have hgood : ¬((acknowledgment g).sequenceNumber≠g.step ∨
        (acknowledgment g).nextPosition≠g.position+g.tokens.length) := by
      rw [not_or,not_not,not_not]
      exact ⟨rfl,rfl⟩
    have htake : g.takeResponse (.prefillProgress (acknowledgment g))=g.continueLoop := by
      have hsame : GenerationModel.validateIdentity (acknowledgment g).deploymentId
          (acknowledgment g).deploymentVersion (acknowledgment g).requestId
          (acknowledgment g).microbatchId g.lease=.ok () := hpasses
      rw [Generation.takeResponse,if_pos hinside]
      rw [Generation.takeProgress,hsame]
      dsimp only
      rw [if_neg hgood]
    rw [htake,Generation.continueLoop,Generation.loopHead,if_pos hmore]
    refine .running ⟨ha.asked,ha.admitted,ha.split,ha.chunk⟩ (.looping nofun hrows
      (.waiting hpoint ?_ executed))
    exact ⟨paired.opening,paired.lease,paired.prompt,paired.sequence,paired.position,
      paired.generated,paired.stopped⟩
  | @token token hend hvocabulary paired executed =>
    have hgood : ¬((feedback g token).sequenceNumber≠g.step ∨
        (feedback g token).tokenPosition≠g.position+g.tokens.length ∨
        g.lease.vocabularySize ≤ (feedback g token).tokenId) := by
      rw [not_or,not_or,not_not,not_not]
      exact ⟨rfl,rfl,Nat.not_le.mpr hvocabulary⟩
    have hsame : GenerationModel.validateIdentity (feedback g token).deploymentId
        (feedback g token).deploymentVersion (feedback g token).requestId
        (feedback g token).microbatchId g.lease=.ok () := hpasses
    have htake : g.takeResponse (.sampledToken (feedback g token))=.running g (.sampled token) := by
      rw [Generation.takeResponse,if_neg (by rw [hend]; exact Bool.false_ne_true)]
      rw [Generation.takeSampled,hsame]
      dsimp only
      rw [if_neg hgood]
      rfl
    rw [htake]
    exact .running ha (.sampled ⟨hrows,.waiting hpoint paired executed⟩)

/-- The loop is over, and the follower has stopped. -/
theorem Waits.terminates {h : Execute D} (ha : Admissible g)
    (hw : Waits g sequence position g.generated true [] h toPeer) :
    Joined g.afterLoop h toPeer [] := by
  rw [Generation.afterLoop,if_pos ha.split]
  exact .running ha (.terminating hw)

/-- After a token the loop ends where the follower stops. -/
theorem Tells.joins {h : Execute D} {token : SampledToken D} {tokens : List (SampledToken D)}
    (ha : Admissible g) (hemitting : Emitting g tokens) (ht : Tells g token h toPeer)
    (body : EventBody D) : Joined ((g.record body).afterToken token) h toPeer [] := by
  have hbelow : g.generated < g.request.maximumNewTokens := hemitting.counted ▸ hemitting.below
  unfold Generation.afterToken
  dsimp only
  split
  · rename_i hstop
    have hstops : stops g token.id=true := decide_eq_true (.inr hstop)
    have hwaits := ht.waits
    rw [hstops] at hwaits
    exact Waits.terminates ⟨ha.asked,ha.admitted,ha.split,ha.chunk⟩ (hwaits.congr rfl rfl rfl)
  · rename_i hgoes
    have hwaits := ht.waits
    rw [Generation.loopHead]
    split
    · rename_i hmore
      have hcontinues : g.generated+1 < g.request.maximumNewTokens := hmore
      have hstops : stops g token.id=false := by
        refine decide_eq_false ?_
        rintro (heq|hin)
        · omega
        · exact hgoes hin
      rw [hstops] at hwaits
      exact .running ⟨ha.asked,ha.admitted,ha.split,ha.chunk⟩
        (.looping nofun ht.executed (hwaits.congr rfl rfl rfl))
    · rename_i hover
      have hlast : ¬g.generated+1 < g.request.maximumNewTokens := hover
      have hstops : stops g token.id=true := decide_eq_true (.inl (by omega))
      rw [hstops] at hwaits
      exact Waits.terminates ⟨ha.asked,ha.admitted,ha.split,ha.chunk⟩ (hwaits.congr rfl rfl rfl)

end Driver

end Hllm.GenerationLockstep
