import Hllm.LinkProbe
import Mathlib.Data.Int.Log
import Mathlib.Data.Rat.Floor
import Mathlib.Tactic.Ring
import Mathlib.Tactic.Positivity
import Mathlib.Tactic.Linarith

/-!
# Link qualifications

Both sides of a link probe hold the same view of every stream, so no stream is
refused and every run ends with a complete profile. What the profile must
contain is stated by the Python reader of it, and what may be asked for by
the Python caller.
-/

namespace Hllm.LinkQualification

open BoundaryCodec LinkProbe MemoryAccounting RunInvariants WireMessages

section Reader

/-- The Python `LinkSample` -/
structure LinkSample where
  cycle : ℤ
  step : ℤ
  payloadBytes : ℤ
  messageBytes : ℤ
  feedbackBytes : ℤ
  senderEncodeMs : ℚ
  roundTripMs : ℚ

/-- The Python `StreamSample` -/
structure StreamSample where
  cycle : ℤ
  setupMs : ℚ
  teardownMs : ℚ

/-- The Python `LinkResult` before its checks. -/
structure LinkResult where
  source : ProbeIdentity
  target : ProbeIdentity
  channelReadyMs : ℚ
  streams : List StreamSample
  samples : List LinkSample
  promptTokens : ℤ
  hiddenSize : ℤ
  outputTokens : ℤ
  warmupCycles : ℤ
  measuredCycles : ℤ

/-- The field checks of `LinkSample`. -/
def LinkSample.accepted (s : LinkSample) : Bool :=
  0 ≤ s.cycle && 0 ≤ s.step && 0 < s.payloadBytes && 0 < s.messageBytes && 0 < s.feedbackBytes &&
    0 ≤ s.senderEncodeMs && 0 ≤ s.roundTripMs

/-- The field checks of `StreamSample`. -/
def StreamSample.accepted (s : StreamSample) : Bool :=
  0 ≤ s.cycle && 0 ≤ s.setupMs && 0 ≤ s.teardownMs

/-- The field checks of `LinkResult`. -/
def LinkResult.accepted (r : LinkResult) : Bool :=
  r.source.accepted && r.target.accepted && 0 ≤ r.channelReadyMs &&
    r.streams.all StreamSample.accepted && r.samples.all LinkSample.accepted &&
    (1 ≤ r.promptTokens && r.promptTokens ≤ 4096) && (1 ≤ r.hiddenSize && r.hiddenSize ≤ 8192) &&
    (1 ≤ r.outputTokens && r.outputTokens ≤ 1024) &&
    (0 ≤ r.warmupCycles && r.warmupCycles ≤ 31) && (1 ≤ r.measuredCycles && r.measuredCycles ≤ 32)

/-- `range` -/
def range (stop : ℤ) : List ℤ := (List.range stop.toNat).map Int.ofNat

/-- The payload a sample must have. -/
def LinkResult.payload (r : LinkResult) (s : LinkSample) : ℤ :=
  (if s.step=0 then r.promptTokens else 1)*r.hiddenSize*2

/-- `complete_samples` -/
def LinkResult.completeSamples (r : LinkResult) : Except String Unit :=
  let cycles := r.warmupCycles+r.measuredCycles
  if 32 < cycles ∨ r.source.workerId=r.target.workerId then .error "invalid cycles or direction"
  else if r.streams.map (·.cycle)≠range cycles then
    .error "missing/duplicate stream timings"
  else if r.samples.map (fun s => (s.cycle,s.step))≠
      (range cycles).flatMap (fun c => (range r.outputTokens).map (Prod.mk c)) then
    .error "missing/duplicate exchange timings"
  else if ∃ s∈r.samples,s.payloadBytes≠r.payload s ∨ s.messageBytes ≤ r.payload s then
    .error "incorrect F16 payload or serialized message size"
  else .ok ()

/-- `LinkResult.model_validate` -/
def LinkResult.validate (r : LinkResult) : Except String Unit :=
  if r.accepted=false then .error "validation error" else r.completeSamples

/-- The fields of a sample message. -/
def sampleFromProto (s : LinkTiming) : LinkSample where
  cycle := s.cycle.toNat
  step := s.step.toNat
  payloadBytes := s.payloadBytes.toNat
  messageBytes := s.messageBytes.toNat
  feedbackBytes := s.feedbackBytes.toNat
  senderEncodeMs := s.senderEncodeMs
  roundTripMs := s.roundTripMs

/-- The fields of a stream message. -/
def streamFromProto (s : LinkStreamTiming) : StreamSample where
  cycle := s.cycle.toNat
  setupMs := s.setupMs
  teardownMs := s.teardownMs

/-- The fields of a qualification message, as `MessageToDict` hands them on. -/
def resultFromProto (r : LinkQualificationResult) : LinkResult where
  source := r.source
  target := r.target
  channelReadyMs := r.channelReadyMs
  streams := r.streams.map streamFromProto
  samples := r.samples.map sampleFromProto
  promptTokens := r.promptTokens.toNat
  hiddenSize := r.hiddenSize.toNat
  outputTokens := r.outputTokens.toNat
  warmupCycles := r.warmupCycles.toNat
  measuredCycles := r.measuredCycles.toNat

end Reader

section Caller

/-- Arguments of `run_link_profile` its limits are about. A number of seconds
is a finite double. -/
structure LinkArguments where
  targetWorkerId : String
  promptTokens : ℤ
  hiddenSize : ℤ
  outputTokens : ℤ
  warmupCycles : ℤ
  measuredCycles : ℤ
  timeoutSeconds : ℚ
  pathSampleIntervalSeconds : ℚ

/-- The double `0.01`. -/
def hundredth : ℚ := 5764607523034235/2^59

/-- The double `0.1`. -/
def tenth : ℚ := 3602879701896397/2^55

/-- The limits of `run_link_profile`. -/
def LinkArguments.check (a : LinkArguments) : Except String Unit :=
  if ¬(hundredth ≤ a.timeoutSeconds ∧ a.timeoutSeconds ≤ 120 ∧
      tenth ≤ a.pathSampleIntervalSeconds ∧ a.pathSampleIntervalSeconds ≤ 5) then
    .error "invalid timing limits"
  else if ¬(0 ≤ a.warmupCycles ∧ 0 < a.measuredCycles ∧ a.warmupCycles+a.measuredCycles ≤ 32 ∧
      1 ≤ a.promptTokens ∧ a.promptTokens ≤ 4096 ∧ 1 ≤ a.outputTokens ∧ a.outputTokens ≤ 1024 ∧
      1 ≤ a.hiddenSize ∧ a.hiddenSize ≤ 8192 ∧ a.promptTokens*a.hiddenSize*2 ≤ 8*1024^2 ∧
      (a.promptTokens+a.outputTokens-1)*a.hiddenSize*2*(a.warmupCycles+a.measuredCycles) ≤
        256*1024^2) then
    .error "invalid payload/traffic limits"
  else .ok ()

/-- The nearest integer, the even one of two. -/
def roundEven (x : ℚ) : ℤ :=
  if x-⌊x⌋<1/2 then ⌊x⌋
  else if 1/2 < x-⌊x⌋ then ⌊x⌋+1
  else if ⌊x⌋%2=0 then ⌊x⌋ else ⌊x⌋+1

/-- Distance of the doubles around a positive normal number. -/
def unitInLastPlace (x : ℚ) : ℚ := 2^(Int.log 2 x-52)

/-- The double nearest to a positive normal number. -/
def double (x : ℚ) : ℚ := roundEven (x/unitInLastPlace x)*unitInLastPlace x

/-- `int` of a nonnegative double. -/
def truncate (x : ℚ) : ℤ := ⌊x⌋

/-- A `uint32` field, which refuses other values. -/
def uint32Field (value : ℤ) : Option UInt32 :=
  if 0 ≤ value ∧ value < 2^32 then some (UInt32.ofNat value.toNat) else none

/-- The request `run_link_profile` sends. -/
def LinkArguments.request (a : LinkArguments) : Option LinkQualificationRequest := do
  let promptTokens ← uint32Field a.promptTokens
  let hiddenSize ← uint32Field a.hiddenSize
  let outputTokens ← uint32Field a.outputTokens
  let warmupCycles ← uint32Field a.warmupCycles
  let measuredCycles ← uint32Field a.measuredCycles
  let timeoutMs ← uint32Field (truncate (double (a.timeoutSeconds*1000)))
  return { targetWorkerId := a.targetWorkerId, promptTokens, hiddenSize, outputTokens,
           warmupCycles, measuredCycles, timeoutMs }

/-- A rounded number is half a unit away at most. -/
theorem roundEven_near (x : ℚ) : x-1/2 ≤ roundEven x ∧ (roundEven x : ℚ) ≤ x+1/2 := by
  have hlow := Int.floor_le x
  have hhigh := Int.lt_floor_add_one x
  unfold roundEven
  split
  · constructor <;> linarith
  · split
    · push_cast
      constructor <;> linarith
    · split
      · constructor <;> linarith
      · push_cast
        constructor <;> linarith

/-- Rounding to a double changes a number by less than it has bits. -/
theorem double_near {x : ℚ} (hx : 0 < x) : x-x/2^53 ≤ double x ∧ double x ≤ x+x/2^53 := by
  have hunit : 0 < unitInLastPlace x := by
    unfold unitInLastPlace
    exact zpow_pos (by norm_num) _
  have hsmall : unitInLastPlace x ≤ x/2^52 := by
    have hlog := Int.zpow_log_le_self (b:=2) (by norm_num) hx
    have htwo : (2 : ℚ)≠0 := by norm_num
    unfold unitInLastPlace
    rw [zpow_sub₀ htwo]
    exact div_le_div_of_nonneg_right hlog (by positivity)
  obtain ⟨hlow,hhigh⟩ := roundEven_near (x/unitInLastPlace x)
  have hlow' := mul_le_mul_of_nonneg_right hlow hunit.le
  have hhigh' := mul_le_mul_of_nonneg_right hhigh hunit.le
  rw [sub_mul,div_mul_cancel₀ x hunit.ne'] at hlow'
  rw [add_mul,div_mul_cancel₀ x hunit.ne'] at hhigh'
  have hhalf : 1/2*unitInLastPlace x ≤ x/2^53 := by
    have hsplit : x/2^53=1/2*(x/2^52) := by ring
    rw [hsplit]
    exact mul_le_mul_of_nonneg_left hsmall (by norm_num)
  exact ⟨by unfold double; linarith,by unfold double; linarith⟩

/-- A field in range keeps its value. -/
theorem uint32Field_some {value : ℤ} (hlow : 0 ≤ value) (hhigh : value < 2^32) :
    ∃ word,uint32Field value=some word ∧ (word.toNat : ℤ)=value := by
  refine ⟨UInt32.ofNat value.toNat,if_pos ⟨hlow,hhigh⟩,?_⟩
  rw [UInt32.toNat_ofNat',Nat.mod_eq_of_lt (by omega)]
  exact Int.toNat_of_nonneg hlow

/-- What `run_link_profile` admits passes the numeric checks of the probe. -/
theorem limits_of_check {a : LinkArguments} (h : a.check=.ok ()) :
    ∃ request,a.request=some request ∧ Limits request := by
  unfold LinkArguments.check at h
  rw [check_iff,check_iff,not_not,not_not] at h
  obtain ⟨⟨hlow,hhigh,-,-⟩,⟨hwarmup,hmeasured,hcycles,hprompt,hpromptMost,hsteps,hstepsMost,hwidth,
    hwidthMost,hpayload,htraffic⟩,-⟩ := h
  have hpositive : 10 ≤ a.timeoutSeconds*1000 := by
    unfold hundredth at hlow
    linarith
  obtain ⟨hbelow,habove⟩ := double_near (x:=a.timeoutSeconds*1000) (by linarith)
  have htimeLow : 1 ≤ truncate (double (a.timeoutSeconds*1000)) := by
    refine Int.le_floor.mpr ?_
    push_cast
    linarith
  have htimeHigh : truncate (double (a.timeoutSeconds*1000)) < 120001 := by
    refine Int.floor_lt.mpr ?_
    push_cast
    linarith
  obtain ⟨p,hp,hpValue⟩ := @uint32Field_some a.promptTokens (by omega) (by omega)
  obtain ⟨n,hn,hnValue⟩ := @uint32Field_some a.hiddenSize (by omega) (by omega)
  obtain ⟨s,hs,hsValue⟩ := @uint32Field_some a.outputTokens (by omega) (by omega)
  obtain ⟨u,hu,huValue⟩ := @uint32Field_some a.warmupCycles (by omega) (by omega)
  obtain ⟨m,hm,hmValue⟩ := @uint32Field_some a.measuredCycles (by omega) (by omega)
  obtain ⟨t,ht,htValue⟩ := @uint32Field_some (truncate (double (a.timeoutSeconds*1000)))
    (by omega) (by omega)
  refine ⟨⟨a.targetWorkerId,p,n,s,u,m,t⟩,?_,?_⟩
  · unfold LinkArguments.request
    rw [hp,hn,hs,hu,hm,ht]
    rfl
  · rw [←hpValue,←hnValue] at hpayload
    rw [←hpValue,←hnValue,←hsValue,←huValue,←hmValue] at htraffic
    have htokens : ((p.toNat+s.toNat-1 : ℕ) : ℤ)=(p.toNat : ℤ)+s.toNat-1 := by omega
    rw [←htokens] at htraffic
    refine ⟨⟨?_,?_⟩,⟨?_,?_⟩,⟨?_,?_⟩,?_,?_,⟨?_,?_⟩,?_,?_⟩
    iterate 10 (dsimp only; omega)
    · exact_mod_cast hpayload
    · exact_mod_cast htraffic

end Caller

section Sizes

/-- A 64-bit number takes ten bytes at most. -/
theorem varintBytes_le {n : ℕ} (h : n < 2^64) : varintBytes n ≤ 10 := by
  have hlog : Nat.log 128 n < 10 := Nat.log_lt_of_lt_pow' (by decide) (h.trans (by decide))
  unfold varintBytes
  omega

/-- A number field takes eleven bytes at most. -/
theorem numberBytes_le {n : ℕ} (h : n < 2^64) : numberBytes n ≤ 11 := by
  have hvarint := varintBytes_le h
  unfold numberBytes
  split <;> omega

/-- A text field takes its text and eleven bytes at most. -/
theorem textBytes_le {n : ℕ} (h : n < 2^64) : n ≤ textBytes n ∧ textBytes n ≤ n+11 := by
  have hvarint := varintBytes_le h
  unfold textBytes delimitedBytes
  split <;> omega

/-- A packed field of few numbers is short. -/
theorem packedBytes_le {values : List UInt64} (h : values.length ≤ 3) :
    packedBytes values ≤ 41 := by
  have hsum : (values.map fun value => varintBytes value.toNat).sum ≤ 10*values.length := by
    clear h
    induction values with
    | nil => exact Nat.zero_le _
    | cons value rest ih =>
      have hvarint := varintBytes_le value.toNat_lt
      rw [List.map_cons,List.sum_cons,List.length_cons]
      omega
  have htext := (textBytes_le (n:=(values.map fun value => varintBytes value.toNat).sum)
    (by omega)).2
  unfold packedBytes
  omega

/-- An envelope takes its texts and little more. -/
theorem envelopeBytes_bounds {t : TensorEnvelope}
    (htexts : t.deploymentId.utf8ByteSize+t.requestId.utf8ByteSize+t.layout.utf8ByteSize+
      t.checksum.length+t.payload.length < 2^32)
    (hphase : t.phase.toNat < 2^64) (hdtype : t.dtype.toNat < 2^64)
    (hlengths : t.sequenceLengths.length ≤ 3) (hslots : t.cacheSlotIds.length ≤ 3)
    (hshape : t.shape.length ≤ 3) :
    t.payload.length ≤ envelopeBytes t ∧ envelopeBytes t < 2^33 := by
  have hprotocol := numberBytes_le (t.protocolVersion.toNat_lt.trans (by decide))
  have hmicrobatch := numberBytes_le t.microbatchId.toNat_lt
  have hsequence := numberBytes_le t.sequenceNumber.toNat_lt
  have hphaseBytes := numberBytes_le hphase
  have hposition := numberBytes_le t.firstPosition.toNat_lt
  have hdtypeBytes := numberBytes_le hdtype
  have hdeclared := numberBytes_le t.payloadLength.toNat_lt
  have hversion := numberBytes_le t.deploymentVersion.toNat_lt
  have hdeployment := textBytes_le (n:=t.deploymentId.utf8ByteSize) (by omega)
  have hrequest := textBytes_le (n:=t.requestId.utf8ByteSize) (by omega)
  have hlayout := textBytes_le (n:=t.layout.utf8ByteSize) (by omega)
  have hchecksum := textBytes_le (n:=t.checksum.length) (by omega)
  have hpayload := textBytes_le (n:=t.payload.length) (by omega)
  have hlengthBytes := packedBytes_le hlengths
  have hslotBytes := packedBytes_le hslots
  have hshapeBytes := packedBytes_le hshape
  unfold envelopeBytes
  split <;> omega

/-- A token takes its texts and little more. -/
theorem tokenBytes_le {t : SampledToken}
    (htexts : t.deploymentId.utf8ByteSize+t.requestId.utf8ByteSize < 2^32) :
    tokenBytes t < 2^33 := by
  have hversion := numberBytes_le t.deploymentVersion.toNat_lt
  have hmicrobatch := numberBytes_le t.microbatchId.toNat_lt
  have hsequence := numberBytes_le t.sequenceNumber.toNat_lt
  have hposition := numberBytes_le t.tokenPosition.toNat_lt
  have htoken := numberBytes_le t.tokenId.toNat_lt
  have hdeployment := textBytes_le (n:=t.deploymentId.utf8ByteSize) (by omega)
  have hrequest := textBytes_le (n:=t.requestId.utf8ByteSize) (by omega)
  unfold tokenBytes
  omega

end Sizes

section Runs

variable {request : LinkQualificationRequest}

/-- A complete sample: its payload is that of its step, its message is larger,
and there was feedback. -/
structure Fitting (request : LinkQualificationRequest) (s : LinkTiming) : Prop where
  payload : s.payloadBytes.toNat=
    (if s.step=0 then request.promptTokens.toNat else 1)*request.hiddenSize.toNat*2
  message : s.payloadBytes.toNat < s.messageBytes.toNat
  feedback : 0 < s.feedbackBytes.toNat

/-- The sample of an exchange. -/
def exchanged (request : LinkQualificationRequest) (cycle step : UInt32) (encode trip : ℚ≥0) :
    LinkTiming :=
  { sampleOf cycle step (envelopeFor request cycle step) encode with
    feedbackBytes := UInt64.ofNat (delimitedBytes (tokenBytes (feedbackFor request cycle step)))
    roundTripMs := trip }

/-- The sample of every exchange is complete. -/
theorem exchanged_fitting (h : Limits request) {cycle step : UInt32} (encode trip : ℚ≥0)
    (hcycle : cycle.toNat < request.warmupCycles.toNat+request.measuredCycles.toNat) :
    Fitting request (exchanged request cycle step encode trip) := by
  have hcycles := h.cycles
  have hnames : ∀ n,n < 32 → ("qualification-"++toString n).utf8ByteSize ≤ 128 := by
    decide +kernel
  have hname := hnames cycle.toNat (by omega)
  have hlength := @length_hiddenOf request step h
  have hbounded := @length_hiddenOf_le request step h
  have hpayload : (UInt64.ofNat (hiddenOf request step).payload.length).toNat=
      (hiddenOf request step).payload.length := by
    rw [UInt64.toNat_ofNat',Nat.mod_eq_of_lt (by omega)]
  have hmessage : (hiddenOf request step).payload.length ≤
        envelopeBytes (envelopeFor request cycle step) ∧
      envelopeBytes (envelopeFor request cycle step) < 2^33 := by
    have hdeployment : "hllm-link-probe-v1".utf8ByteSize=18 := by decide
    have hlayout : "dense_row_major_le".utf8ByteSize=18 := by decide
    refine envelopeBytes_bounds (t:=envelopeFor request cycle step) ?_ ?_
      (by decide : DataType.f16.number.toNat < 2^64) (by decide : 1 ≤ 3)
      (by decide : 1 ≤ 3) (by decide : 3 ≤ 3)
    · change "hllm-link-probe-v1".utf8ByteSize+
        ("qualification-"++toString cycle.toNat).utf8ByteSize+
        "dense_row_major_le".utf8ByteSize+0+(hiddenOf request step).payload.length < 2^32
      omega
    · change (phaseOf step.toUInt64 false).number.toNat < 2^64
      unfold phaseOf
      split <;> decide
  have htoken : tokenBytes (feedbackFor request cycle step) < 2^33 := by
    have hdeployment : "hllm-link-probe-v1".utf8ByteSize=18 := by decide
    refine tokenBytes_le ?_
    change "hllm-link-probe-v1".utf8ByteSize+
      ("qualification-"++toString cycle.toNat).utf8ByteSize < 2^32
    omega
  have hvarint := varintBytes_le (n:=envelopeBytes (envelopeFor request cycle step)) (by omega)
  have hvarint' := varintBytes_le (n:=tokenBytes (feedbackFor request cycle step)) (by omega)
  refine ⟨?_,?_,?_⟩
  · change (UInt64.ofNat (hiddenOf request step).payload.length).toNat=_
    rw [hpayload,hlength]
    congr 2
    change (countOf request step).toNat=if step=0 then _ else _
    unfold countOf
    split <;> rfl
  · change (UInt64.ofNat (hiddenOf request step).payload.length).toNat <
      (UInt64.ofNat (delimitedBytes (envelopeBytes (envelopeFor request cycle step)))).toNat
    unfold delimitedBytes
    rw [hpayload,UInt64.toNat_ofNat',Nat.mod_eq_of_lt (by omega)]
    omega
  · change 0 < (UInt64.ofNat (delimitedBytes (tokenBytes _))).toNat
    unfold delimitedBytes
    rw [UInt64.toNat_ofNat',Nat.mod_eq_of_lt (by omega)]
    omega

/-- How a call of `Execute` that has sent its acknowledgment leaves. -/
inductive Leaving : Handler → Bool → Prop
  | returning : Leaving (.returning .success) true
  | ended : Leaving (.ended .success) false

/-- Whether there is no call of `Execute`. -/
inductive Apart : Handler → Prop
  | idle : Apart .idle
  | ended : Apart (.ended .success)

/-- The states the two sides of a stream can be in together. -/
inductive Joint (request : LinkQualificationRequest) (cycle : UInt32) :
    Point → UInt32 → Handler → Bool → Bool → Bool → List StageMessage → List StageMessage → Prop
  | between {step : UInt32} {handler : Handler} {metadata writesDone : Bool}
      (hcycle : cycle.toNat ≤ request.warmupCycles.toNat+request.measuredCycles.toNat)
      (hhandler : Apart handler) :
      Joint request cycle .starting step handler false metadata writesDone [] []
  | called {step : UInt32}
      (hcycle : cycle.toNat < request.warmupCycles.toNat+request.measuredCycles.toNat) :
      Joint request cycle .opening step .waiting false false false
        [.openSequence (openOf request cycle)] []
  | claimed {step : UInt32}
      (hcycle : cycle.toNat < request.warmupCycles.toNat+request.measuredCycles.toNat) :
      Joint request cycle .opening step .opening true false false
        [.openSequence (openOf request cycle)] []
  | opened {step : UInt32}
      (hcycle : cycle.toNat < request.warmupCycles.toNat+request.measuredCycles.toNat) :
      Joint request cycle .opening step (.serving (openOf request cycle) (servedTo request 0)) true
        true false [] []
  | served {step : UInt32}
      (hcycle : cycle.toNat < request.warmupCycles.toNat+request.measuredCycles.toNat)
      (hstep : step.toNat ≤ request.outputTokens.toNat) :
      Joint request cycle .sending step (.serving (openOf request cycle) (servedTo request step))
        true true false [] []
  | sent {step : UInt32}
      (hcycle : cycle.toNat < request.warmupCycles.toNat+request.measuredCycles.toNat)
      (hstep : step.toNat < request.outputTokens.toNat) :
      Joint request cycle .awaiting step (.serving (openOf request cycle) (servedTo request step))
        true true false [.tensor (envelopeFor request cycle step)] []
  | replied {step : UInt32}
      (hcycle : cycle.toNat < request.warmupCycles.toNat+request.measuredCycles.toNat)
      (hstep : step.toNat < request.outputTokens.toNat) :
      Joint request cycle .awaiting step
        (.serving (openOf request cycle) (servedTo request (step+1))) true true false []
        [.sampledToken (feedbackFor request cycle step)]
  | closed {step : UInt32}
      (hcycle : cycle.toNat < request.warmupCycles.toNat+request.measuredCycles.toNat) :
      Joint request cycle .acknowledging step
        (.serving (openOf request cycle) (servedTo request request.outputTokens)) true true true
        [.terminate (terminationOf request cycle)] []
  | acknowledged {step : UInt32} {handler : Handler} {active : Bool}
      (hcycle : cycle.toNat < request.warmupCycles.toNat+request.measuredCycles.toNat)
      (hhandler : Leaving handler active) :
      Joint request cycle .acknowledging step handler active true true []
        [.terminate (terminationOf request cycle)]
  | finishing {step : UInt32} {handler : Handler} {active : Bool}
      (hcycle : cycle.toNat < request.warmupCycles.toNat+request.measuredCycles.toNat)
      (hhandler : Leaving handler active) :
      Joint request cycle .finishing step handler active true true [] []
  | returned {step : UInt32} {handler : Handler} {metadata writesDone : Bool}
      (hcycle : cycle.toNat=request.warmupCycles.toNat+request.measuredCycles.toNat)
      (hhandler : Apart handler) :
      Joint request cycle .returned step handler false metadata writesDone [] []

/-- Exchanges of the current cycle that have been recorded. -/
def exchanges (request : LinkQualificationRequest) (step : UInt32) : Point → ℕ
  | .sending | .awaiting => step.toNat
  | .acknowledging | .finishing => request.outputTokens.toNat
  | _ => 0

/-- Where the exchanges of whole cycles belong. -/
def schedule (cycles steps : ℕ) : List (ℕ×ℕ) :=
  (List.range cycles).flatMap fun cycle => (List.range steps).map (Prod.mk cycle)

/-- What the source has recorded. -/
structure Recorded (request : LinkQualificationRequest) (w : World) : Prop where
  streams : w.streams.map (fun s => s.cycle.toNat)=List.range w.cycle.toNat
  samples : w.samples.map (fun s => (s.cycle.toNat,s.step.toNat))=
    schedule w.cycle.toNat request.outputTokens.toNat++
      (List.range (exchanges request w.step w.point)).map (Prod.mk w.cycle.toNat)
  fitting : ∀ s∈w.samples,Fitting request s

/-- The two sides of a run agree. -/
structure Agreement (request : LinkQualificationRequest) (w : World) : Prop where
  joint : Joint request w.cycle w.point w.step w.handler w.active w.metadata w.writesDone w.up
    w.down
  recorded : Recorded request w
  pending : w.point=.awaiting → ∃ elapsed,
    w.sample=some (sampleOf w.cycle w.step (envelopeFor request w.cycle w.step) elapsed)

end Runs

section Steps

variable {request : LinkQualificationRequest}

/-- One cycle more of a schedule. -/
theorem schedule_succ (cycles steps : ℕ) :
    schedule (cycles+1) steps=schedule cycles steps++(List.range steps).map (Prod.mk cycles) := by
  unfold schedule
  rw [List.range_succ,List.flatMap_append,List.flatMap_cons,List.flatMap_nil,List.append_nil]

/-- A later cycle. -/
theorem cycle_succ (h : Limits request) {cycle : UInt32}
    (hcycle : cycle.toNat < request.warmupCycles.toNat+request.measuredCycles.toNat) :
    (cycle+1).toNat=cycle.toNat+1 := by
  have hcycles := h.cycles
  exact step_succ (by omega)

/-- Steps of the source that are left, at most. -/
def sourceRemaining (request : LinkQualificationRequest) (w : World) : ℕ :=
  let cycles := request.warmupCycles.toNat+request.measuredCycles.toNat-w.cycle.toNat
  let steps := request.outputTokens.toNat
  match w.point with
  | .starting => cycles*(3*steps+12)+1
  | .opening => (cycles-1)*(3*steps+12)+2*steps+5
  | .sending => (cycles-1)*(3*steps+12)+2*(steps-w.step.toNat)+4
  | .awaiting => (cycles-1)*(3*steps+12)+2*(steps-w.step.toNat)+3
  | .acknowledging => (cycles-1)*(3*steps+12)+3
  | .finishing => (cycles-1)*(3*steps+12)+2
  | .returned => 0
  | .failed _ => 0

/-- Steps of the current call that are left, at most. -/
def callRemaining (request : LinkQualificationRequest) : Handler → ℕ
  | .waiting => request.outputTokens.toNat+4
  | .opening => request.outputTokens.toNat+3
  | .serving _ state => request.outputTokens.toNat-state.sequence.toNat+2
  | .returning _ => 1
  | .idle => 0
  | .ended _ => 0

/-- Steps that are left, at most. -/
def remaining (request : LinkQualificationRequest) (w : World) : ℕ :=
  sourceRemaining request w+callRemaining request w.handler

/-- `Execute` starts from nothing. -/
theorem servedTo_zero : servedTo request 0={} := by
  unfold servedTo
  rw [if_pos rfl]
  change (⟨0,0*request.hiddenSize.toUInt64*2,0,0⟩ : Serving)=⟨0,0,0,0⟩
  rw [UInt64.zero_mul,UInt64.zero_mul]

/-- What a cycle more costs. -/
theorem cycle_cost {cycle cycles : ℕ} (hcycle : cycle < cycles) (cost : ℕ) :
    (cycles-cycle)*cost=(cycles-cycle-1)*cost+cost := by
  have hsplit : cycles-cycle=cycles-cycle-1+1 := by omega
  rw [hsplit,Nat.succ_mul]
  rfl

/-- The source keeps the agreement and comes closer to its end. -/
theorem agreement_source (h : Limits request) {w t : World} {elapsed : ℚ≥0}
    (hw : Agreement request w) (hstep : w.sourceStep request elapsed=some t) :
    Agreement request t ∧ remaining request t < remaining request w := by
  obtain ⟨point,cycle,step,setupMs,sample,streams,samples,handler,active,metadata,writesDone,up,
    down⟩ := w
  obtain ⟨hjoint,⟨hstreams,hsamples,hfitting⟩,hpending⟩ := hw
  dsimp only at hjoint hstreams hsamples hfitting hpending
  cases hjoint with
  | between hcycle hhandler =>
    have hnext : cycle.toUInt64 < request.cycles ↔
        cycle.toNat < request.warmupCycles.toNat+request.measuredCycles.toNat := by
      rw [UInt64.lt_iff_toNat_lt,UInt32.toNat_toUInt64,cycles_toNat]
    change (if cycle.toUInt64 < request.cycles then some _ else some _)=some t at hstep
    by_cases hmore : cycle.toUInt64 < request.cycles
    · rw [if_pos hmore] at hstep
      cases hstep
      have hlt := hnext.mp hmore
      refine ⟨⟨.called hlt,⟨hstreams,hsamples,hfitting⟩,nofun⟩,?_⟩
      have hcost := cycle_cost hlt (3*request.outputTokens.toNat+12)
      unfold remaining sourceRemaining callRemaining
      dsimp only
      omega
    · rw [if_neg hmore] at hstep
      cases hstep
      have hnot := mt hnext.mpr hmore
      have hend : cycle.toNat=request.warmupCycles.toNat+request.measuredCycles.toNat := by omega
      refine ⟨⟨.returned hend hhandler,⟨hstreams,hsamples,hfitting⟩,nofun⟩,?_⟩
      unfold remaining sourceRemaining
      dsimp only
      omega
  | called hcycle => cases hstep
  | claimed hcycle => cases hstep
  | opened hcycle =>
    cases hstep
    refine ⟨⟨.served hcycle (Nat.zero_le _),⟨hstreams,hsamples,hfitting⟩,nofun⟩,?_⟩
    unfold remaining sourceRemaining
    dsimp only
    have hzero : (0 : UInt32).toNat=0 := rfl
    omega
  | served hcycle hstepLe =>
    change some (World.send request _ elapsed)=some t at hstep
    unfold World.send at hstep
    dsimp only at hstep
    by_cases hlast : step < request.outputTokens
    · rw [if_pos hlast,encodeTensor_hiddenOf h] at hstep
      cases hstep
      exact ⟨⟨.sent hcycle hlast,⟨hstreams,hsamples,hfitting⟩,fun _ => ⟨elapsed,rfl⟩⟩,
        Nat.add_lt_add_right (Nat.lt_succ_self _) _⟩
    · rw [if_neg hlast] at hstep
      cases hstep
      have hsame : step=request.outputTokens := by
        rw [UInt32.lt_iff_toNat_lt] at hlast
        exact UInt32.toNat_inj.mp (by omega)
      subst hsame
      exact ⟨⟨.closed hcycle,⟨hstreams,hsamples,hfitting⟩,nofun⟩,
        Nat.add_lt_add_right (Nat.lt_succ_of_le (Nat.add_le_add_right (Nat.le_add_right _ _) 3)) _⟩
  | sent hcycle hstepLt => cases hstep
  | replied hcycle hstepLt =>
    obtain ⟨encode,hsample⟩ := hpending rfl
    have hsteps := h.steps
    have hsucc := @step_succ step (by omega)
    subst hsample
    change some (World.readFeedback request _ _ _ elapsed)=some t at hstep
    unfold World.readFeedback at hstep
    dsimp only at hstep
    rw [if_pos identity_feedbackFor] at hstep
    cases hstep
    have hle : (step+1).toNat ≤ request.outputTokens.toNat := by omega
    refine ⟨⟨.served hcycle hle,⟨hstreams,?_,?_⟩,nofun⟩,?_⟩
    · change (samples++[exchanged request cycle step encode elapsed]).map
          (fun s => (s.cycle.toNat,s.step.toNat))=
        schedule cycle.toNat request.outputTokens.toNat++
          (List.range (step+1).toNat).map (Prod.mk cycle.toNat)
      rw [hsucc,List.range_succ,List.map_append,List.map_append,hsamples,List.append_assoc]
      rfl
    · intro s hs
      rcases List.mem_append.mp hs with hold|hnew
      · exact hfitting s hold
      · rw [List.mem_singleton.mp hnew]
        exact exchanged_fitting h encode elapsed hcycle
    · unfold remaining sourceRemaining
      dsimp only
      omega
  | closed hcycle => cases hstep
  | acknowledged hcycle hhandler =>
    change (if _ then some _ else some _)=some t at hstep
    rw [if_pos rfl] at hstep
    cases hstep
    exact ⟨⟨.finishing hcycle hhandler,⟨hstreams,hsamples,hfitting⟩,nofun⟩,
      Nat.add_lt_add_right (Nat.lt_succ_self _) _⟩
  | finishing hcycle hhandler =>
    cases hhandler with
    | returning => cases hstep
    | ended =>
      cases hstep
      have hsucc := cycle_succ h hcycle
      have hle : (cycle+1).toNat ≤ request.warmupCycles.toNat+request.measuredCycles.toNat := by
        omega
      refine ⟨⟨.between hle .ended,⟨?_,?_,hfitting⟩,nofun⟩,?_⟩
      · change (streams++[(⟨cycle,setupMs,elapsed⟩ : LinkStreamTiming)]).map
          (fun s => s.cycle.toNat)=
          List.range (cycle+1).toNat
        rw [hsucc,List.range_succ,List.map_append,hstreams]
        rfl
      · change samples.map _=schedule (cycle+1).toNat _++[]
        rw [hsucc,schedule_succ,List.append_nil]
        exact hsamples
      · unfold remaining sourceRemaining
        dsimp only
        rw [hsucc,Nat.sub_add_eq]
        omega
  | returned hcycle hhandler => cases hstep

/-- The target keeps the agreement and comes closer to its end. -/
theorem agreement_target (h : Limits request) {w t : World}
    (hw : Agreement request w) (hstep : w.targetStep=some t) :
    Agreement request t ∧ remaining request t < remaining request w := by
  obtain ⟨point,cycle,step,setupMs,sample,streams,samples,handler,active,metadata,writesDone,up,
    down⟩ := w
  obtain ⟨hjoint,⟨hstreams,hsamples,hfitting⟩,hpending⟩ := hw
  dsimp only at hjoint hstreams hsamples hfitting hpending
  cases hjoint with
  | between hcycle hhandler =>
    cases hhandler with
    | idle => cases hstep
    | ended => cases hstep
  | called hcycle =>
    cases hstep
    exact ⟨⟨.claimed hcycle,⟨hstreams,hsamples,hfitting⟩,hpending⟩,Nat.lt_succ_self _⟩
  | claimed hcycle =>
    unfold World.targetStep at hstep
    dsimp only at hstep
    rw [receiveOpen_openOf h hcycle,←@servedTo_zero request] at hstep
    cases hstep
    exact ⟨⟨.opened hcycle,⟨hstreams,hsamples,hfitting⟩,hpending⟩,Nat.lt_succ_self _⟩
  | opened hcycle => cases hstep
  | served hcycle hstepLe => cases hstep
  | sent hcycle hstepLt =>
    have hsteps := h.steps
    have hsucc := @step_succ step (by omega)
    change some (World.serve _ _ _ _ _)=some t at hstep
    unfold World.serve at hstep
    dsimp only at hstep
    rw [receiveTensor_envelopeFor h hstepLt] at hstep
    cases hstep
    refine ⟨⟨.replied hcycle hstepLt,⟨hstreams,hsamples,hfitting⟩,hpending⟩,?_⟩
    unfold remaining callRemaining servedTo
    dsimp only
    rw [UInt32.toNat_toUInt64,UInt32.toNat_toUInt64,hsucc]
    exact Nat.add_lt_add_left (by omega) _
  | replied hcycle hstepLt => cases hstep
  | closed hcycle =>
    change some (World.serve _ _ _ _ _)=some t at hstep
    unfold World.serve at hstep
    dsimp only at hstep
    rw [receiveTermination_terminationOf] at hstep
    cases hstep
    exact ⟨⟨.acknowledged hcycle .returning,⟨hstreams,hsamples,hfitting⟩,nofun⟩,
      Nat.add_lt_add_left (Nat.le_add_left 2 _) _⟩
  | acknowledged hcycle hhandler =>
    cases hhandler with
    | returning =>
      cases hstep
      exact ⟨⟨.acknowledged hcycle .ended,⟨hstreams,hsamples,hfitting⟩,nofun⟩,
        Nat.lt_succ_self _⟩
    | ended => cases hstep
  | finishing hcycle hhandler =>
    cases hhandler with
    | returning =>
      cases hstep
      exact ⟨⟨.finishing hcycle .ended,⟨hstreams,hsamples,hfitting⟩,nofun⟩,Nat.lt_succ_self _⟩
    | ended => cases hstep
  | returned hcycle hhandler =>
    cases hhandler with
    | idle => cases hstep
    | ended => cases hstep

end Steps

section Profiles

variable {request : LinkQualificationRequest} {w : World}

/-- The agreement when `QualifyLink` starts. -/
theorem agreement_start : Agreement request .start :=
  ⟨.between (Nat.zero_le _) .idle,⟨rfl,rfl,fun _ h => absurd h List.not_mem_nil⟩,nofun⟩

/-- A run keeps the agreement and is no longer than what it brings to an end. -/
theorem agreement_run (h : Limits request) {as : List Action} {t : World}
    (hw : Agreement request w) (path : (machine request).Path (fun _ _ => True) w as t) :
    Agreement request t ∧ as.length+remaining request t ≤ remaining request w := by
  induction path with
  | nil w => exact ⟨hw,Nat.le_of_eq (Nat.zero_add _)⟩
  | @cons w u t action as hok hone rest ih =>
    have hnext : Agreement request u ∧ remaining request u < remaining request w := by
      cases action with
      | source elapsed => exact agreement_source h hw hone
      | target => exact agreement_target h hw hone
    obtain ⟨ht,hlength⟩ := ih hnext.1
    refine ⟨ht,?_⟩
    rw [List.length_cons]
    omega

/-- Nobody refuses anything. -/
theorem Joint.accepted {cycle step : UInt32} {point : Point} {handler : Handler}
    {active metadata writesDone : Bool} {up down : List StageMessage}
    (hjoint : Joint request cycle point step handler active metadata writesDone up down) :
    (∀ status,point≠.failed status) ∧
      ∀ status,handler.status?=some status → status=.success := by
  cases hjoint with
  | between _ hhandler | returned _ hhandler =>
    cases hhandler with
    | idle => exact ⟨nofun,nofun⟩
    | ended => exact ⟨nofun,fun _ h => (Option.some.inj h).symm⟩
  | acknowledged _ hhandler | finishing _ hhandler =>
    cases hhandler with
    | returning | ended => exact ⟨nofun,fun _ h => (Option.some.inj h).symm⟩
  | called | claimed | opened | served | sent | replied | closed => exact ⟨nofun,nofun⟩

/-- `QualifyLink` returns after its last cycle. -/
theorem Joint.last {cycle step : UInt32} {handler : Handler} {active metadata writesDone : Bool}
    {up down : List StageMessage}
    (hjoint : Joint request cycle .returned step handler active metadata writesDone up down) :
    cycle.toNat=request.warmupCycles.toNat+request.measuredCycles.toNat := by
  cases hjoint with
  | returned hcycle hhandler => exact hcycle

/-- As long as `QualifyLink` has not returned, one of the two can move. -/
theorem Agreement.enabled (h : Limits request) (hw : Agreement request w)
    (hrunning : w.point≠.returned) : ∃ action t,(machine request).step w action=some t := by
  obtain ⟨point,cycle,step,setupMs,sample,streams,samples,handler,active,metadata,writesDone,up,
    down⟩ := w
  have hjoint := hw.joint
  dsimp only at hjoint hrunning
  cases hjoint with
  | between hcycle hhandler =>
    by_cases hmore : cycle.toUInt64 < request.cycles
    · exact ⟨.source 0,_,if_pos hmore⟩
    · exact ⟨.source 0,_,if_neg hmore⟩
  | called hcycle => exact ⟨.target,_,rfl⟩
  | claimed hcycle =>
    refine ⟨.target,?_⟩
    simp only [machine,World.targetStep,receiveOpen_openOf h hcycle]
    exact ⟨_,rfl⟩
  | opened hcycle => exact ⟨.source 0,_,rfl⟩
  | served hcycle hstepLe => exact ⟨.source 0,_,rfl⟩
  | sent hcycle hstepLt => exact ⟨.target,_,rfl⟩
  | replied hcycle hstepLt => exact ⟨.source 0,_,rfl⟩
  | closed hcycle => exact ⟨.target,_,rfl⟩
  | acknowledged hcycle hhandler => exact ⟨.source 0,_,if_pos rfl⟩
  | finishing hcycle hhandler =>
    cases hhandler with
    | returning => exact ⟨.target,_,rfl⟩
    | ended => exact ⟨.source 0,_,rfl⟩
  | returned hcycle hhandler => exact absurd rfl hrunning

/-- A returned profile is complete. -/
theorem Agreement.complete (hw : Agreement request w) (hreturned : w.point=.returned) :
    w.streams.map (fun s => s.cycle.toNat)=
        List.range (request.warmupCycles.toNat+request.measuredCycles.toNat) ∧
      w.samples.map (fun s => (s.cycle.toNat,s.step.toNat))=
        schedule (request.warmupCycles.toNat+request.measuredCycles.toNat)
          request.outputTokens.toNat ∧
      ∀ s∈w.samples,Fitting request s := by
  have hjoint := hw.joint
  have hsamples := hw.recorded.samples
  rw [hreturned] at hjoint
  have hcycle := hjoint.last
  rw [hreturned,hcycle] at hsamples
  rw [←hcycle]
  refine ⟨hw.recorded.streams,?_,hw.recorded.fitting⟩
  rw [hcycle,hsamples]
  exact List.append_nil _

/-- `range` of a natural number. -/
theorem range_natCast (n : ℕ) : range n=(List.range n).map Int.ofNat := by
  unfold range
  rw [Int.toNat_natCast]

/-- The Python schedule of exchanges. -/
theorem schedule_map (cycles steps : ℕ) :
    (range cycles).flatMap (fun c => (range steps).map (Prod.mk c))=
      (schedule cycles steps).map (Prod.map Int.ofNat Int.ofNat) := by
  unfold schedule
  rw [range_natCast,range_natCast,List.map_flatMap,List.flatMap_map]
  congr 1
  funext cycle
  rw [List.map_map,List.map_map]
  rfl

/-- The Python reader accepts every complete sample. -/
theorem Fitting.accepted {s : LinkTiming} (hs : Fitting request s) (h : Limits request) :
    (sampleFromProto s).accepted=true := by
  have hmessage := hs.message
  have hfeedback := hs.feedback
  have hpayload : 0 < s.payloadBytes.toNat := by
    have hprompt := h.prompt
    have hwidth := h.width
    rw [hs.payload]
    refine Nat.mul_pos (Nat.mul_pos ?_ hwidth.1) (by decide)
    split
    · exact hprompt.1
    · exact Nat.one_pos
  simp only [LinkSample.accepted,Bool.and_eq_true,decide_eq_true_eq]
  exact ⟨⟨⟨⟨⟨⟨Int.natCast_nonneg _,Int.natCast_nonneg _⟩,Int.natCast_pos.mpr hpayload⟩,
    Int.natCast_pos.mpr (hpayload.trans hmessage)⟩,Int.natCast_pos.mpr hfeedback⟩,
    s.senderEncodeMs.2⟩,s.roundTripMs.2⟩

/-- The Python reader accepts a complete profile. -/
theorem validate_complete (h : Limits request) {source target : Probe} (channelReadyMs : ℚ≥0)
    (hapart : source.info.workerId≠target.info.workerId)
    (hstreams : w.streams.map (fun s => s.cycle.toNat)=
      List.range (request.warmupCycles.toNat+request.measuredCycles.toNat))
    (hsamples : w.samples.map (fun s => (s.cycle.toNat,s.step.toNat))=
      schedule (request.warmupCycles.toNat+request.measuredCycles.toNat)
        request.outputTokens.toNat)
    (hfitting : ∀ s∈w.samples,Fitting request s) :
    (resultFromProto (w.result request source target channelReadyMs)).validate=.ok () := by
  have hprompt := h.prompt
  have hwidth := h.width
  have hsteps := h.steps
  have hmeasured := h.measured
  have hcycles := h.cycles
  have haccepted : (resultFromProto (w.result request source target channelReadyMs)).accepted=
      true := by
    have hstreamFields : (w.streams.map streamFromProto).all StreamSample.accepted=true := by
      rw [List.all_map,List.all_eq_true]
      intro s _
      simp only [Function.comp_apply,StreamSample.accepted,Bool.and_eq_true,decide_eq_true_eq]
      exact ⟨⟨Int.natCast_nonneg _,s.setupMs.2⟩,s.teardownMs.2⟩
    have hsampleFields : (w.samples.map sampleFromProto).all LinkSample.accepted=true := by
      rw [List.all_map,List.all_eq_true]
      intro s hs
      exact (hfitting s hs).accepted h
    simp only [LinkResult.accepted,Bool.and_eq_true,decide_eq_true_eq]
    dsimp only [resultFromProto,World.result]
    exact ⟨⟨⟨⟨⟨⟨⟨⟨⟨source.identified,target.identified⟩,channelReadyMs.2⟩,hstreamFields⟩,
      hsampleFields⟩,by omega,by omega⟩,by omega,by omega⟩,by omega,by omega⟩,by omega,by omega⟩,
      by omega,by omega⟩
  have htotal : (resultFromProto (w.result request source target channelReadyMs)).warmupCycles+
      (resultFromProto (w.result request source target channelReadyMs)).measuredCycles=
      (request.warmupCycles.toNat+request.measuredCycles.toNat : ℕ) := (Int.natCast_add _ _).symm
  unfold LinkResult.validate
  rw [haccepted]
  refine check_iff.mpr ⟨by decide,?_⟩
  unfold LinkResult.completeSamples
  rw [htotal]
  refine check_iff.mpr ⟨?_,check_iff.mpr ⟨?_,check_iff.mpr ⟨?_,check_iff.mpr ⟨?_,rfl⟩⟩⟩⟩
  · rw [not_or]
    exact ⟨by omega,hapart⟩
  · rw [not_not,range_natCast,←hstreams]
    change (w.streams.map streamFromProto).map _=_
    rw [List.map_map,List.map_map]
    rfl
  · change ¬(w.samples.map sampleFromProto).map _≠
      (range _).flatMap (fun c => (range (request.outputTokens.toNat : ℕ)).map (Prod.mk c))
    rw [not_not,schedule_map,←hsamples,List.map_map,List.map_map]
    rfl
  · rintro ⟨s,hs,hwrong⟩
    obtain ⟨t,ht,rfl⟩ := List.mem_map.mp hs
    have hpayload := (hfitting t ht).payload
    have hmessage := (hfitting t ht).message
    have hsame : (resultFromProto (w.result request source target channelReadyMs)).payload
        (sampleFromProto t)=t.payloadBytes.toNat := by
      have hzero : (t.step.toNat : ℤ)=0 ↔ t.step=0 := by
        rw [Int.natCast_eq_zero]
        exact UInt32.toNat_inj (b:=0)
      change (if (t.step.toNat : ℤ)=0 then (request.promptTokens.toNat : ℤ) else 1)*
        request.hiddenSize.toNat*2=t.payloadBytes.toNat
      rw [hpayload]
      simp only [hzero]
      split <;> push_cast <;> rfl
    rcases hwrong with hwrong|hwrong
    · exact hwrong hsame.symm
    · have hle := hwrong.trans_eq hsame
      change (t.messageBytes.toNat : ℤ) ≤ t.payloadBytes.toNat at hle
      omega

end Profiles

/-- Both sides of a link probe agree. Once the checks of `QualifyLink` have
passed, no run refuses a stream or fails, every run can go on until the profile
is returned and has a bounded number of steps, and a returned profile has one
stream for each cycle and one sample for each exchange, in order and with the
payload of its step, so that the Python reader accepts it. What
`run_link_profile` admits passes the numeric checks. -/
theorem link_probe_sides_agree {source target : Probe} {request : LinkQualificationRequest}
    (hchecked : checkRequest source target request=.ok ()) (channelReadyMs : ℚ≥0) :
    (∀ as w,(machine request).Path (fun _ _ => True) .start as w →
      (∀ status,w.point≠.failed status) ∧
      (∀ status,w.handler.status?=some status → status=.success) ∧
      as.length ≤ request.cycles.toNat*(3*request.outputTokens.toNat+12)+1 ∧
      (w.point≠.returned → ∃ action t,(machine request).step w action=some t) ∧
      (w.point=.returned →
        w.streams.map (fun s => s.cycle.toNat)=List.range request.cycles.toNat ∧
        w.samples.map (fun s => (s.cycle.toNat,s.step.toNat))=
          schedule request.cycles.toNat request.outputTokens.toNat ∧
        (∀ s∈w.samples,s.payloadBytes.toNat=
          (if s.step=0 then request.promptTokens.toNat else 1)*request.hiddenSize.toNat*2) ∧
        (resultFromProto (w.result request source target channelReadyMs)).validate=.ok ())) ∧
    ∀ arguments : LinkArguments,arguments.check=.ok () →
      ∃ sent,arguments.request=some sent ∧ checkLimits sent=.ok () := by
  unfold checkRequest at hchecked
  rw [check_iff,call_bind] at hchecked
  obtain ⟨hlisted,_,hlimits,hidentity⟩ := hchecked
  rw [not_not] at hlisted
  obtain ⟨hsame,-⟩ := check_iff.mp hidentity
  rw [not_not] at hsame
  have h := checkLimits_iff.mp hlimits
  have hapart : source.info.workerId≠target.info.workerId := by
    intro hself
    rw [←hsame,←hself] at hlisted
    exact source.apart hlisted
  constructor
  · intro as w path
    obtain ⟨hw,hlength⟩ := agreement_run h agreement_start path
    obtain ⟨hfailed,hstatus⟩ := hw.joint.accepted
    have hbound : remaining request .start=
        request.cycles.toNat*(3*request.outputTokens.toNat+12)+1 := by
      rw [cycles_toNat]
      rfl
    refine ⟨hfailed,hstatus,by omega,hw.enabled h,?_⟩
    intro hreturned
    obtain ⟨hstreams,hsamples,hfitting⟩ := hw.complete hreturned
    rw [cycles_toNat]
    exact ⟨hstreams,hsamples,fun s hs => (hfitting s hs).payload,
      validate_complete h channelReadyMs hapart hstreams hsamples hfitting⟩
  · intro arguments hcheck
    obtain ⟨sent,hsent,hfits⟩ := limits_of_check hcheck
    exact ⟨sent,hsent,checkLimits_iff.mpr hfits⟩

section Sample

/-- The build of both sample probes. -/
def sampleBuild : Build := ⟨"clang","1.0","5.0","host","linux",by decide⟩

/-- A digest. -/
def sampleDigest : String := "0123456789abcdef0123456789abcdef0123456789abcdef0123456789abcdef"

/-- A probe `a` that may measure a probe `b`. -/
def sampleSource : Probe :=
  ⟨infoOf ⟨"a","127.0.0.1:1",[("b","127.0.0.1:2")],"r",sampleDigest,by decide,by decide +kernel⟩
    sampleBuild,[("b","127.0.0.1:2")],by decide +kernel,by decide⟩

/-- The probe `b`. -/
def sampleTarget : Probe :=
  ⟨infoOf ⟨"b","127.0.0.1:2",[],"r",sampleDigest,by decide,by decide +kernel⟩ sampleBuild,[],
    by decide +kernel,by decide⟩

/-- One cycle of two exchanges. -/
def sampleRequest : LinkQualificationRequest := ⟨"b",2,1,2,0,1,1000⟩

/-- A whole run of the request. -/
def sampleActions : List Action :=
  [.source 0,.target,.target,.source 1,.source 0,.target,.source (1+1),
  .source 0,.target,.source 1,.source 0,.target,.source 1,.target,.source 1,.source 0]

/-- The sample request returns a profile the reader accepts. -/
theorem sample_sides_agree :
    ∃ w,(machine sampleRequest).run .start sampleActions=some w ∧
      (resultFromProto (w.result sampleRequest sampleSource sampleTarget 3)).validate=.ok () := by
  have hreturned : ((machine sampleRequest).run .start sampleActions).map (fun w => w.point)=
      some .returned := by decide +kernel
  obtain ⟨w,hrun,hpoint⟩ := Option.map_eq_some_iff.mp hreturned
  have hagree := @link_probe_sides_agree sampleSource sampleTarget sampleRequest (by rfl) 3
  obtain ⟨-,-,-,-,hcomplete⟩ := hagree.1 _ w (Machine.path_of_run hrun)
  exact ⟨w,hrun,(hcomplete hpoint).2.2.2⟩

end Sample

end Hllm.LinkQualification
