import Hllm.CheckedSizes
import Hllm.MemoryAccounting
import Hllm.WireMessages

/-!
# The boundary codec

`encode_tensor` and `decode_tensor` with the envelope validation. Dimensions,
positions and lengths of an envelope are arbitrary 64-bit words; products on
the decoding side are checked, those on the encoding side wrap. Enumeration
fields of a message are open numbers.
-/

namespace Hllm.BoundaryCodec

open MemoryAccounting WireMessages

/-- `kMaximumRpcBytes` -/
def kMaximumRpcBytes : UInt64 := 16*1024*1024

/-- `v1::TensorEnvelope` -/
structure TensorEnvelope where
  protocolVersion : UInt32
  deploymentId : String
  requestId : String
  microbatchId : UInt64
  sequenceNumber : UInt64
  phase : ℤ
  firstPosition : UInt64
  sequenceLengths : List UInt64
  cacheSlotIds : List UInt64
  shape : List UInt64
  dtype : ℤ
  layout : String
  payloadLength : UInt64
  checksum : List UInt8
  payload : List UInt8
  deploymentVersion : UInt64
  deriving DecidableEq

/-- `BoundaryIdentity` -/
structure BoundaryIdentity where
  deploymentId : String
  deploymentVersion : UInt64
  requestId : String
  maximumTokens : UInt64
  hiddenSize : UInt64

/-- `BoundaryActivation` -/
@[ext]
structure BoundaryActivation where
  tokens : UInt64
  width : UInt64
  payload : List UInt8
  deriving DecidableEq

/-- `runtime::ExecutionPhase` -/
inductive ExecutionPhase
  | prefill
  | decode
  deriving DecidableEq

/-- Wire number of an execution phase. -/
def ExecutionPhase.number : ExecutionPhase → ℤ
  | .prefill => 1
  | .decode => 2

/-- The phase of a stage message. -/
def phaseOf (sequence : UInt64) (prefill : Bool) : ExecutionPhase :=
  if sequence=0 ∨ prefill=true then .prefill else .decode

/-- `data_type_bytes` -/
def dataTypeBytes : DataType → UInt64
  | .bool | .u8 | .i8 => 1
  | .i16 | .u16 | .f16 | .bf16 => 2
  | .i32 | .u32 | .f32 => 4
  | .i64 | .u64 | .f64 => 8
  | .unspecified => 0

/-- `TensorEnvelopeMetadata`. There is one layout only. -/
structure TensorEnvelopeMetadata where
  protocolVersion : UInt32
  deploymentId : String
  deploymentVersion : UInt64
  requestId : String
  microbatchId : UInt64
  sequenceNumber : UInt64
  phase : ExecutionPhase
  firstPosition : UInt64
  sequenceLengths : List UInt64
  cacheSlotIds : List UInt64
  shape : List UInt64
  dtype : DataType
  payloadLength : UInt64

/-- `TensorEnvelopeLimits` -/
structure TensorEnvelopeLimits where
  protocolVersion : UInt32 := 1
  maximumBatch : UInt64 := 1
  maximumSequenceLength : UInt64
  hiddenSize : UInt64
  maximumPayloadBytes : UInt64
  boundaryDtype : DataType := .f16

/-- What the codec throws for a bad envelope. -/
def envelopeError (message : String) : Error := ⟨.invalidRequest,message⟩

/-- `checked_size` -/
def checkedSize (value : UInt64) (description : String) : Except Error UInt64 :=
  if sizeMax < value then .error (envelopeError (description++" exceeds native size limits"))
  else .ok value

/-- The codec's own `checked_multiply`, which divides by the left factor. -/
def checkedMultiply (lhs rhs : UInt64) : Except Error UInt64 :=
  if lhs≠0 ∧ sizeMax/lhs < rhs then
    .error (envelopeError "tensor payload size overflows native size limits")
  else .ok (lhs*rhs)

/-- One iteration of the loop over the sequence lengths. -/
def validateLength (envelope : TensorEnvelopeMetadata) (limits : TensorEnvelopeLimits)
    (sequence rawLength : UInt64) : Except Error Unit := do
  let length ← checkedSize rawLength "sequence length"
  let firstPosition ← checkedSize envelope.firstPosition "first position"
  if length=0 ∨ length≠sequence ∨ limits.maximumSequenceLength < firstPosition ∨
      limits.maximumSequenceLength-firstPosition < length then
    .error (envelopeError "tensor sequence metadata exceeds configured capacity")
  else .ok ()

/-- `validate_tensor_envelope` from the dimensions on. -/
def validateDimensions (envelope : TensorEnvelopeMetadata) (receivedPayloadBytes : ℕ)
    (limits : TensorEnvelopeLimits) (shape₀ shape₁ shape₂ : UInt64) : Except Error Unit := do
  let batch ← checkedSize shape₀ "batch dimension"
  let sequence ← checkedSize shape₁ "sequence dimension"
  let hidden ← checkedSize shape₂ "hidden dimension"
  if batch=0 ∨ limits.maximumBatch < batch ∨ sequence=0 ∨ hidden≠limits.hiddenSize ∨
      envelope.sequenceLengths.length≠batch.toNat ∨ envelope.cacheSlotIds.length≠batch.toNat then
    .error (envelopeError "tensor boundary dimensions or batch metadata are invalid")
  else if envelope.phase=.decode ∧ sequence≠1 then
    .error (envelopeError "decode tensor must have a singleton sequence dimension")
  else do
    envelope.sequenceLengths.forM (validateLength envelope limits sequence)
    let expectedPayload ← checkedMultiply batch sequence
    let expectedPayload ← checkedMultiply expectedPayload hidden
    let expectedPayload ← checkedMultiply expectedPayload (dataTypeBytes envelope.dtype)
    let declaredPayload ← checkedSize envelope.payloadLength "payload length"
    if expectedPayload≠declaredPayload ∨ declaredPayload.toNat≠receivedPayloadBytes ∨
        limits.maximumPayloadBytes < declaredPayload then
      .error (envelopeError "tensor payload length does not match its shape or limits")
    else .ok ()

/-- `validate_tensor_envelope` -/
def validateTensorEnvelope (envelope : TensorEnvelopeMetadata) (receivedPayloadBytes : ℕ)
    (limits : TensorEnvelopeLimits) : Except Error Unit :=
  if envelope.protocolVersion≠limits.protocolVersion then
    .error (envelopeError "unsupported tensor protocol version")
  else if envelope.deploymentId="" ∨ envelope.deploymentVersion=0 ∨ envelope.requestId="" then
    .error (envelopeError "tensor envelope is missing deployment or request identity")
  else if limits.maximumBatch=0 ∨ limits.maximumSequenceLength=0 ∨ limits.hiddenSize=0 ∨
      limits.maximumPayloadBytes=0 then
    .error (envelopeError "tensor envelope limits are invalid")
  else if envelope.dtype≠limits.boundaryDtype then
    .error (envelopeError "tensor boundary representation is incompatible")
  else match envelope.shape with
    | [batch,sequence,hidden] =>
      validateDimensions envelope receivedPayloadBytes limits batch sequence hidden
    | _ => .error (envelopeError "tensor boundary shape must be [batch, sequence, hidden]")

/-- `validate_identity` -/
def validateIdentity (deployment : String) (version : UInt64) (request : String)
    (microbatch : UInt64) (identity : BoundaryIdentity) : Except Error Unit :=
  if deployment≠identity.deploymentId ∨ version≠identity.deploymentVersion ∨
      request≠identity.requestId ∨ microbatch≠0 then
    .error ⟨.invalidRequest,"message identity does not match the active sequence"⟩
  else .ok ()

/-- The high byte of a half whose exponent bits are all set. -/
def nonFiniteHigh (high : UInt8) : Bool := high &&& 0x7c==0x7c

/-- The loop over the high bytes of a payload. -/
def nonFinite : List UInt8 → Bool
  | _::high::rest => nonFiniteHigh high || nonFinite rest
  | _ => false

/-- Metadata of an envelope whose encoding has been checked. -/
def metadataOf (tensor : TensorEnvelope) (phase : ExecutionPhase) : TensorEnvelopeMetadata where
  protocolVersion := tensor.protocolVersion
  deploymentId := tensor.deploymentId
  deploymentVersion := tensor.deploymentVersion
  requestId := tensor.requestId
  microbatchId := tensor.microbatchId
  sequenceNumber := tensor.sequenceNumber
  phase := phase
  firstPosition := tensor.firstPosition
  sequenceLengths := tensor.sequenceLengths
  cacheSlotIds := tensor.cacheSlotIds
  shape := tensor.shape
  dtype := .f16
  payloadLength := tensor.payloadLength

/-- Limits of an identity. -/
def limitsOf (identity : BoundaryIdentity) : TensorEnvelopeLimits where
  maximumSequenceLength := identity.maximumTokens
  hiddenSize := identity.hiddenSize
  maximumPayloadBytes := kMaximumRpcBytes/2

/-- `decode_tensor` -/
def decodeTensor (tensor : TensorEnvelope) (identity : BoundaryIdentity)
    (sequence position : UInt64) (prefill : Bool) : Except Error BoundaryActivation := do
  validateIdentity tensor.deploymentId tensor.deploymentVersion tensor.requestId
    tensor.microbatchId identity
  if tensor.sequenceNumber≠sequence ∨ tensor.firstPosition≠position ∨
      tensor.phase≠(phaseOf sequence prefill).number ∨ tensor.dtype≠DataType.f16.number ∨
      tensor.layout≠"dense_row_major_le" ∨ tensor.checksum≠[] then
    .error ⟨.invalidRequest,
      "invalid tensor order, phase, encoding or unsupported checksum"⟩
  else do
    validateTensorEnvelope (metadataOf tensor (phaseOf sequence prefill)) tensor.payload.length
      (limitsOf identity)
    if tensor.cacheSlotIds≠[0] then
      .error ⟨.invalidRequest,"single-sequence execution requires cache slot zero"⟩
    else if nonFinite tensor.payload then
      .error ⟨.invalidRequest,"non-finite boundary activation"⟩
    else .ok ⟨tensor.shape.getD 1 0,identity.hiddenSize,tensor.payload⟩

/-- The envelope `encode_tensor` fills. -/
def envelopeOf (hidden : BoundaryActivation) (identity : BoundaryIdentity)
    (sequence position : UInt64) (prefill : Bool) : TensorEnvelope where
  protocolVersion := 1
  deploymentId := identity.deploymentId
  requestId := identity.requestId
  microbatchId := 0
  sequenceNumber := sequence
  phase := (phaseOf sequence prefill).number
  firstPosition := position
  sequenceLengths := [hidden.tokens]
  cacheSlotIds := [0]
  shape := [1,hidden.tokens,hidden.width]
  dtype := DataType.f16.number
  layout := "dense_row_major_le"
  payloadLength := UInt64.ofNat hidden.payload.length
  checksum := []
  payload := hidden.payload
  deploymentVersion := identity.deploymentVersion

/-- `encode_tensor` -/
def encodeTensor (hidden : BoundaryActivation) (identity : BoundaryIdentity)
    (sequence position : UInt64) (prefill : Bool) : Except Error TensorEnvelope :=
  if (kMaximumRpcBytes/2).toNat < hidden.payload.length then
    .error ⟨.resourceExhausted,"prefill activation exceeds transport limit"⟩
  else if hidden.width=0 ∨ hidden.width≠identity.hiddenSize ∨ hidden.tokens=0 ∨
      kMaximumRpcBytes/4/hidden.width < hidden.tokens ∨
      hidden.payload.length≠(hidden.tokens*hidden.width*2).toNat then
    .error ⟨.internal,"backend returned an invalid boundary shape"⟩
  else if nonFinite hidden.payload then
    .error ⟨.internal,"backend returned a non-finite boundary activation"⟩
  else .ok (envelopeOf hidden identity sequence position prefill)

/-- Sizes always fit. -/
theorem checkedSize_ok (value : UInt64) (description : String) :
    checkedSize value description=.ok value := by
  unfold checkedSize
  rw [if_neg]
  rw [UInt64.lt_iff_toNat_lt]
  have hbound := value.toNat_lt
  have hmax : sizeMax.toNat=2^64-1 := by decide
  omega

/-- A checked product is exact. -/
theorem checkedMultiply_iff {lhs rhs product : UInt64} :
    checkedMultiply lhs rhs=.ok product ↔ product.toNat=lhs.toNat*rhs.toNat := by
  have hmax : sizeMax.toNat=2^64-1 := by decide
  have hproduct := product.toNat_lt
  have hadmits : ¬(lhs≠0 ∧ sizeMax/lhs < rhs) ↔ lhs.toNat*rhs.toNat < 2^64 := by
    rw [UInt64.lt_iff_toNat_lt,UInt64.toNat_div,hmax,ne_eq,←UInt64.toNat_inj,UInt64.toNat_zero,
      Nat.mul_comm lhs.toNat]
    exact CheckedSizes.admits_iff
  unfold checkedMultiply
  rw [check_iff,hadmits,Except.ok.injEq]
  constructor
  · rintro ⟨hsmall,rfl⟩
    rw [UInt64.toNat_mul,Nat.mod_eq_of_lt hsmall]
  · intro h
    have hsmall : lhs.toNat*rhs.toNat < 2^64 := h ▸ hproduct
    refine ⟨hsmall,UInt64.toNat_inj.mp ?_⟩
    rw [UInt64.toNat_mul,Nat.mod_eq_of_lt hsmall,h]

/-- Words compare as their values. -/
theorem not_lt_sub_iff {a b c : UInt64} (h : ¬a < b) :
    ¬a-b < c ↔ b.toNat+c.toNat ≤ a.toNat := by
  have hle : b ≤ a := UInt64.not_lt.mp h
  rw [UInt64.lt_iff_toNat_lt,UInt64.toNat_sub_of_le _ _ hle]
  rw [UInt64.le_iff_toNat_le] at hle
  omega

/-- One sequence length. -/
theorem validateLength_iff {envelope : TensorEnvelopeMetadata} {limits : TensorEnvelopeLimits}
    {sequence rawLength : UInt64} :
    validateLength envelope limits sequence rawLength=.ok () ↔ rawLength≠0 ∧
      rawLength=sequence ∧
      envelope.firstPosition.toNat+rawLength.toNat ≤ limits.maximumSequenceLength.toNat := by
  unfold validateLength
  rw [checkedSize_ok,checkedSize_ok]
  refine check_iff.trans ?_
  rw [not_or,not_or,not_or,not_not]
  constructor
  · rintro ⟨⟨hzero,hsame,hposition,hfits⟩,-⟩
    exact ⟨hzero,hsame,(not_lt_sub_iff hposition).mp hfits⟩
  · rintro ⟨hzero,hsame,hfits⟩
    have hposition : ¬limits.maximumSequenceLength < envelope.firstPosition := by
      rw [UInt64.lt_iff_toNat_lt]
      omega
    exact ⟨⟨hzero,hsame,hposition,(not_lt_sub_iff hposition).mpr hfits⟩,rfl⟩

/-- An envelope the codec accepts for `n` tokens. -/
structure Conforms (tensor : TensorEnvelope) (identity : BoundaryIdentity)
    (sequence position : UInt64) (prefill : Bool) (n : UInt64) : Prop where
  deployment : tensor.deploymentId=identity.deploymentId
  version : tensor.deploymentVersion=identity.deploymentVersion
  request : tensor.requestId=identity.requestId
  microbatch : tensor.microbatchId=0
  order : tensor.sequenceNumber=sequence
  first : tensor.firstPosition=position
  phase : tensor.phase=(phaseOf sequence prefill).number
  dtype : tensor.dtype=DataType.f16.number
  layout : tensor.layout="dense_row_major_le"
  checksum : tensor.checksum=[]
  protocol : tensor.protocolVersion=1
  named : tensor.deploymentId≠"" ∧ tensor.deploymentVersion≠0 ∧ tensor.requestId≠""
  limited : identity.maximumTokens≠0 ∧ identity.hiddenSize≠0
  shape : tensor.shape=[1,n,identity.hiddenSize]
  lengths : tensor.sequenceLengths=[n]
  slots : tensor.cacheSlotIds=[0]
  nonempty : n≠0
  single : phaseOf sequence prefill=.decode → n=1
  fits : position.toNat+n.toNat ≤ identity.maximumTokens.toNat
  size : tensor.payload.length=n.toNat*identity.hiddenSize.toNat*2
  declared : tensor.payloadLength.toNat=tensor.payload.length
  bounded : tensor.payload.length ≤ 8388608
  finite : nonFinite tensor.payload=false

section Decode

variable {tensor : TensorEnvelope} {identity : BoundaryIdentity} {sequence position : UInt64}
variable {prefill : Bool}

/-- Dimensions the validation accepts for one sequence. -/
theorem validateDimensions_iff {phase : ExecutionPhase} {batch n hidden : UInt64} :
    validateDimensions (metadataOf tensor phase) tensor.payload.length (limitsOf identity) batch n
        hidden=.ok () ↔
      batch=1 ∧ n≠0 ∧ hidden=identity.hiddenSize ∧ tensor.sequenceLengths=[n] ∧
        tensor.cacheSlotIds.length=1 ∧ (phase=.decode → n=1) ∧
        tensor.firstPosition.toNat+n.toNat ≤ identity.maximumTokens.toNat ∧
        tensor.payload.length=n.toNat*hidden.toNat*2 ∧
        tensor.payloadLength.toNat=tensor.payload.length ∧ tensor.payload.length ≤ 8388608 := by
  have hone : (limitsOf identity).maximumBatch=1 := rfl
  have hhidden : (limitsOf identity).hiddenSize=identity.hiddenSize := rfl
  have hmaximum : (limitsOf identity).maximumPayloadBytes.toNat=8388608 := by rfl
  have hbytes : (dataTypeBytes (metadataOf tensor phase).dtype).toNat=2 := by rfl
  unfold validateDimensions
  rw [checkedSize_ok,checkedSize_ok,checkedSize_ok]
  refine check_iff.trans ?_
  rw [check_iff]
  simp only [call_bind,checkedMultiply_iff,checkedSize_ok,check_iff,Except.ok.injEq,
    exists_eq_left',hone,hhidden,hbytes]
  have hforM : ∀ {lengths : List UInt64},lengths.length=1 → ∀ b : Unit,
      lengths.forM (validateLength (metadataOf tensor phase) (limitsOf identity) n)=.ok b ↔
        n≠0 ∧ lengths=[n] ∧
          tensor.firstPosition.toNat+n.toNat ≤ identity.maximumTokens.toNat := by
    intro lengths hlength b
    obtain ⟨rawLength,rfl⟩ := List.length_eq_one_iff.mp hlength
    have hone : [rawLength].forM (validateLength (metadataOf tensor phase) (limitsOf identity) n)=
        validateLength (metadataOf tensor phase) (limitsOf identity) n rawLength := by
      change (validateLength (metadataOf tensor phase) (limitsOf identity) n rawLength >>=
        fun _ => pure PUnit.unit)=_
      cases validateLength (metadataOf tensor phase) (limitsOf identity) n rawLength <;> rfl
    rw [hone,validateLength_iff,List.singleton_inj]
    constructor
    · rintro ⟨hzero,rfl,hfits⟩
      exact ⟨hzero,rfl,hfits⟩
    · rintro ⟨hzero,rfl,hfits⟩
      exact ⟨hzero,rfl,hfits⟩
  have hmax : ¬(limitsOf identity).maximumPayloadBytes < tensor.payloadLength ↔
      tensor.payloadLength.toNat ≤ 8388608 := by
    rw [UInt64.lt_iff_toNat_lt,hmaximum,not_lt]
  change (¬(_ ∨ _ ∨ _ ∨ _ ∨ tensor.sequenceLengths.length≠_ ∨ tensor.cacheSlotIds.length≠_) ∧
    ¬(phase=_ ∧ _) ∧ ∃ b,tensor.sequenceLengths.forM _=_ ∧ ∃ b,_ ∧ ∃ b',_ ∧ ∃ b'',_ ∧
      ¬(b''≠tensor.payloadLength ∨ tensor.payloadLength.toNat≠_ ∨
        _ < tensor.payloadLength) ∧ True) ↔ _
  simp only [not_or,not_and,not_not,and_true]
  constructor
  · rintro ⟨⟨hzero,hbatch,hn,hsame,hlengths,hslots⟩,hsingle,b,hforM',x,hx,y,hy,z,hz,hdeclared,
      hreceived,hfits⟩
    have hbatchOne : batch=1 := by
      rw [UInt64.lt_iff_toNat_lt] at hbatch
      rw [←UInt64.toNat_inj] at hzero ⊢
      have hvalue : (1 : UInt64).toNat=1 := rfl
      have hnull : (0 : UInt64).toNat=0 := rfl
      omega
    subst hbatchOne
    obtain ⟨-,hlist,hposition⟩ := (hforM hlengths b).mp hforM'
    have hvalue : (1 : UInt64).toNat=1 := rfl
    rw [hvalue,Nat.one_mul] at hx
    rw [hx] at hy
    rw [hy,hdeclared,hreceived] at hz
    have hbounded := hmax.mp hfits
    rw [hreceived] at hbounded
    exact ⟨rfl,hn,hsame,hlist,hslots,hsingle,hposition,hz,hreceived,hbounded⟩
  · rintro ⟨rfl,hn,hsame,hlist,hslots,hsingle,hposition,hsize,hdeclared,hbounded⟩
    have hproduct : n.toNat*hidden.toNat < 2^64 := by omega
    have hmiddle : (UInt64.ofNat (n.toNat*hidden.toNat)).toNat=n.toNat*hidden.toNat := by
      rw [UInt64.toNat_ofNat',Nat.mod_eq_of_lt hproduct]
    refine ⟨⟨by decide,by decide,hn,hsame,?_,hslots⟩,hsingle,(),?_,n,?_,
      UInt64.ofNat (n.toNat*hidden.toNat),hmiddle,tensor.payloadLength,?_,rfl,hdeclared,?_⟩
    · rw [hlist]
      rfl
    · exact (hforM (by rw [hlist]; rfl) ()).mpr ⟨hn,hlist,hposition⟩
    · exact (Nat.one_mul _).symm
    · rw [hmiddle,hdeclared,hsize]
    · rw [hmax,hdeclared]
      exact hbounded

/-- What the validation accepts. -/
theorem validateTensorEnvelope_iff {phase : ExecutionPhase} :
    validateTensorEnvelope (metadataOf tensor phase) tensor.payload.length (limitsOf identity)=
        .ok () ↔
      tensor.protocolVersion=1 ∧
        (tensor.deploymentId≠"" ∧ tensor.deploymentVersion≠0 ∧ tensor.requestId≠"") ∧
        (identity.maximumTokens≠0 ∧ identity.hiddenSize≠0) ∧
        ∃ batch n hidden,tensor.shape=[batch,n,hidden] ∧
          validateDimensions (metadataOf tensor phase) tensor.payload.length (limitsOf identity)
            batch n hidden=.ok () := by
  have hshape : (metadataOf tensor phase).shape=tensor.shape := rfl
  unfold validateTensorEnvelope
  rw [check_iff,check_iff,check_iff,check_iff,hshape]
  have hrest : (match tensor.shape with
      | [batch,n,hidden] => validateDimensions (metadataOf tensor phase) tensor.payload.length
          (limitsOf identity) batch n hidden
      | _ => .error (envelopeError "tensor boundary shape must be [batch, sequence, hidden]"))=
        Except.ok () ↔
      ∃ batch n hidden,tensor.shape=[batch,n,hidden] ∧
        validateDimensions (metadataOf tensor phase) tensor.payload.length (limitsOf identity)
          batch n hidden=.ok () := by
    constructor
    · intro h
      split at h
      · rename_i batch n hidden heq
        exact ⟨batch,n,hidden,heq,h⟩
      · cases h
    · rintro ⟨batch,n,hidden,heq,h⟩
      rw [heq]
      exact h
  rw [hrest]
  have hprotocol : ¬(metadataOf tensor phase).protocolVersion≠(limitsOf identity).protocolVersion ↔
      tensor.protocolVersion=1 := not_not
  have hnamed : ¬((metadataOf tensor phase).deploymentId="" ∨
      (metadataOf tensor phase).deploymentVersion=0 ∨ (metadataOf tensor phase).requestId="") ↔
      tensor.deploymentId≠"" ∧ tensor.deploymentVersion≠0 ∧ tensor.requestId≠"" := by
    rw [not_or,not_or]
    rfl
  have hlimited : ¬((limitsOf identity).maximumBatch=0 ∨
      (limitsOf identity).maximumSequenceLength=0 ∨ (limitsOf identity).hiddenSize=0 ∨
      (limitsOf identity).maximumPayloadBytes=0) ↔
      identity.maximumTokens≠0 ∧ identity.hiddenSize≠0 := by
    rw [not_or,not_or,not_or]
    constructor
    · rintro ⟨-,htokens,hhidden,-⟩
      exact ⟨htokens,hhidden⟩
    · rintro ⟨htokens,hhidden⟩
      have hbatch : (limitsOf identity).maximumBatch≠0 := by
        change (1 : UInt64)≠0
        decide
      have hpayload : (limitsOf identity).maximumPayloadBytes≠0 := by
        change kMaximumRpcBytes/2≠0
        decide
      exact ⟨hbatch,htokens,hhidden,hpayload⟩
  have hdtype : ¬(metadataOf tensor phase).dtype≠(limitsOf identity).boundaryDtype :=
    not_not.mpr rfl
  rw [hprotocol,hnamed,hlimited]
  constructor
  · rintro ⟨hp,hn,hl,-,hd⟩
    exact ⟨hp,hn,hl,hd⟩
  · rintro ⟨hp,hn,hl,hd⟩
    exact ⟨hp,hn,hl,hdtype,hd⟩

/-- What `decode_tensor` accepts, and what it then returns. -/
theorem decodeTensor_iff {hidden : BoundaryActivation} :
    decodeTensor tensor identity sequence position prefill=.ok hidden ↔
      Conforms tensor identity sequence position prefill hidden.tokens ∧
        hidden.width=identity.hiddenSize ∧ hidden.payload=tensor.payload := by
  unfold decodeTensor validateIdentity
  rw [call_bind]
  simp only [check_iff,call_bind,Except.ok.injEq,not_or,not_not]
  constructor
  · rintro ⟨-,⟨⟨hdeployment,hversion,hrequest,hmicrobatch⟩,-⟩,
      ⟨horder,hfirst,hphase,hdtype,hlayout,hchecksum⟩,_,hvalid,hslots,hfinite,rfl⟩
    obtain ⟨hprotocol,hnamed,hlimited,batch,n,hiddenSize,hshape,hdimensions⟩ :=
      validateTensorEnvelope_iff.mp hvalid
    obtain ⟨rfl,hnonempty,rfl,hlengths,-,hsingle,hfits,hsize,hdeclared,hbounded⟩ :=
      validateDimensions_iff.mp hdimensions
    have htokens : tensor.shape.getD 1 0=n := by rw [hshape]; rfl
    refine ⟨?_,rfl,rfl⟩
    rw [htokens]
    rw [hfirst] at hfits
    exact ⟨hdeployment,hversion,hrequest,hmicrobatch,horder,hfirst,hphase,hdtype,hlayout,hchecksum,
      hprotocol,hnamed,hlimited,hshape,hlengths,hslots,hnonempty,hsingle,hfits,hsize,hdeclared,
      hbounded,Bool.not_eq_true _ ▸ hfinite⟩
  · rintro ⟨h,hwidth,hpayload⟩
    have hfits := h.fits
    rw [←h.first] at hfits
    have hdimensions := validateDimensions_iff.mpr ⟨rfl,h.nonempty,rfl,h.lengths,
      by rw [h.slots]; rfl,h.single,hfits,h.size,h.declared,h.bounded⟩
    have hvalid := validateTensorEnvelope_iff.mpr ⟨h.protocol,h.named,h.limited,_,_,_,h.shape,
      hdimensions⟩
    refine ⟨(),⟨⟨h.deployment,h.version,h.request,h.microbatch⟩,trivial⟩,
      ⟨h.order,h.first,h.phase,h.dtype,h.layout,h.checksum⟩,(),hvalid,h.slots,?_,?_⟩
    · rw [h.finite]
      exact Bool.false_ne_true
    · refine BoundaryActivation.ext ?_ hwidth.symm hpayload.symm
      rw [h.shape]
      rfl

end Decode

/-- The high bytes of a payload, which carry the exponents of its halves. -/
theorem nonFinite_iff {payload : List UInt8} :
    nonFinite payload=true ↔
      ∃ i high,payload[2*i+1]?=some high ∧ nonFiniteHigh high=true := by
  induction payload using nonFinite.induct with
  | case1 low high rest ih =>
    rw [nonFinite,Bool.or_eq_true,ih]
    constructor
    · rintro (h|⟨i,high',hi,h⟩)
      · exact ⟨0,high,rfl,h⟩
      · exact ⟨i+1,high',hi,h⟩
    · rintro ⟨i,high',hi,h⟩
      cases i with
      | zero =>
        cases hi
        exact .inl h
      | succ i => exact .inr ⟨i,high',hi,h⟩
  | case2 payload hshort =>
    rw [nonFinite]
    · constructor
      · intro h
        cases h
      · rintro ⟨i,high,hi,-⟩
        cases payload with
        | nil => cases hi
        | cons low rest =>
          cases rest with
          | nil =>
            have hnone : ([low] : List UInt8)[2*i+1]?=none :=
              List.getElem?_eq_none (by simp)
            rw [hnone] at hi
            cases hi
          | cons high' rest => exact absurd rfl (hshort low high' rest)
    · exact hshort

section Encode

variable {hidden : BoundaryActivation} {identity : BoundaryIdentity}
variable {sequence position : UInt64} {prefill : Bool}

/-- What `encode_tensor` accepts. -/
theorem encodeTensor_iff {tensor : TensorEnvelope} :
    encodeTensor hidden identity sequence position prefill=.ok tensor ↔
      hidden.payload.length ≤ 8388608 ∧ hidden.width≠0 ∧ hidden.width=identity.hiddenSize ∧
        hidden.tokens≠0 ∧ hidden.payload.length=hidden.tokens.toNat*hidden.width.toNat*2 ∧
        nonFinite hidden.payload=false ∧
        tensor=envelopeOf hidden identity sequence position prefill := by
  have hmaximum : (kMaximumRpcBytes/2).toNat=8388608 := by rfl
  have hquarter : (kMaximumRpcBytes/4).toNat=4194304 := by rfl
  unfold encodeTensor
  rw [check_iff,check_iff,check_iff,hmaximum]
  simp only [not_or,not_not,not_lt,Except.ok.injEq,Bool.not_eq_true]
  have hwidthPos : hidden.width≠0 → 0 < hidden.width.toNat := by
    intro hwidth
    rcases Nat.eq_zero_or_pos hidden.width.toNat with h|h
    · exact absurd (UInt64.toNat_inj.mp (h.trans UInt64.toNat_zero.symm)) hwidth
    · exact h
  have hlimit : hidden.width≠0 → (¬kMaximumRpcBytes/4/hidden.width < hidden.tokens ↔
      hidden.tokens.toNat*hidden.width.toNat ≤ 4194304) := by
    intro hwidth
    rw [UInt64.lt_iff_toNat_lt,Nat.not_lt,UInt64.toNat_div,hquarter,
      Nat.le_div_iff_mul_le (hwidthPos hwidth)]
  have hproduct : hidden.tokens.toNat*hidden.width.toNat ≤ 4194304 →
      (hidden.tokens*hidden.width*2).toNat=hidden.tokens.toNat*hidden.width.toNat*2 := by
    intro hsmall
    have htwo : (2 : UInt64).toNat=2 := rfl
    rw [UInt64.toNat_mul,UInt64.toNat_mul,htwo]
    rw [Nat.mod_eq_of_lt (a:=hidden.tokens.toNat*hidden.width.toNat) (by omega)]
    exact Nat.mod_eq_of_lt (by omega)
  constructor
  · rintro ⟨hfits,⟨hwidth,hsame,htokens,hbounded,hsize⟩,hfinite,rfl⟩
    have hsmall := (hlimit hwidth).mp hbounded
    rw [hproduct hsmall] at hsize
    exact ⟨hfits,hwidth,hsame,htokens,hsize,hfinite,rfl⟩
  · rintro ⟨hfits,hwidth,hsame,htokens,hsize,hfinite,rfl⟩
    have hsmall : hidden.tokens.toNat*hidden.width.toNat ≤ 4194304 := by omega
    exact ⟨hfits,⟨hwidth,hsame,htokens,(hlimit hwidth).mpr hsmall,by rw [hproduct hsmall,hsize]⟩,
      hfinite,rfl⟩

/-- The envelope of an activation conforms for its tokens. -/
theorem conforms_envelopeOf (hnamed : identity.deploymentId≠"" ∧ identity.deploymentVersion≠0 ∧
      identity.requestId≠"")
    (hfits : position.toNat+hidden.tokens.toNat ≤ identity.maximumTokens.toNat)
    (hsingle : phaseOf sequence prefill=.decode → hidden.tokens=1)
    (hbounded : hidden.payload.length ≤ 8388608) (hwidth : hidden.width≠0)
    (hsame : hidden.width=identity.hiddenSize) (htokens : hidden.tokens≠0)
    (hsize : hidden.payload.length=hidden.tokens.toNat*hidden.width.toNat*2)
    (hfinite : nonFinite hidden.payload=false) :
    Conforms (envelopeOf hidden identity sequence position prefill) identity sequence position
      prefill hidden.tokens := by
  have hmaximum : identity.maximumTokens≠0 := by
    intro hzero
    rw [hzero,UInt64.toNat_zero] at hfits
    have hnone : hidden.tokens.toNat=0 := by omega
    exact htokens (UInt64.toNat_inj.mp (hnone.trans UInt64.toNat_zero.symm))
  have hdeclared : (UInt64.ofNat hidden.payload.length).toNat=hidden.payload.length := by
    rw [UInt64.toNat_ofNat',Nat.mod_eq_of_lt (by omega)]
  refine ⟨rfl,rfl,rfl,rfl,rfl,rfl,rfl,rfl,rfl,rfl,rfl,hnamed,⟨hmaximum,hsame ▸ hwidth⟩,?_,rfl,rfl,
    htokens,hsingle,hfits,?_,hdeclared,hbounded,hfinite⟩
  · rw [←hsame]
    rfl
  · rw [←hsame]
    exact hsize

end Encode

/-- The codec is exact. Decoding an encoded activation that fits its sequence
gives the activation back; encoding a decoded envelope gives the envelope
back; and a decoded envelope has the identity and order it was decoded for and
a payload of finite halves with the size of its shape and within all limits. -/
theorem codec_exact (identity : BoundaryIdentity) (sequence position : UInt64) (prefill : Bool) :
    (identity.deploymentId≠"" → identity.deploymentVersion≠0 → identity.requestId≠"" →
      ∀ hidden tensor,encodeTensor hidden identity sequence position prefill=.ok tensor →
        position.toNat+hidden.tokens.toNat ≤ identity.maximumTokens.toNat →
        (sequence≠0 → prefill=false → hidden.tokens=1) →
        decodeTensor tensor identity sequence position prefill=.ok hidden) ∧
    (∀ tensor hidden,decodeTensor tensor identity sequence position prefill=.ok hidden →
      encodeTensor hidden identity sequence position prefill=.ok tensor) ∧
    ∀ tensor hidden,decodeTensor tensor identity sequence position prefill=.ok hidden →
      tensor.deploymentId=identity.deploymentId ∧
      tensor.deploymentVersion=identity.deploymentVersion ∧
      tensor.requestId=identity.requestId ∧ tensor.microbatchId=0 ∧
      tensor.sequenceNumber=sequence ∧ tensor.firstPosition=position ∧
      tensor.phase=(phaseOf sequence prefill).number ∧
      (∃ batch n width,tensor.shape=[batch,n,width] ∧
        tensor.payload.length=batch.toNat*n.toNat*width.toNat*2 ∧
        position.toNat+n.toNat ≤ identity.maximumTokens.toNat) ∧
      tensor.payloadLength.toNat=tensor.payload.length ∧ tensor.payload.length ≤ 8388608 ∧
      ∀ i high,tensor.payload[2*i+1]?=some high → nonFiniteHigh high=false := by
  refine ⟨?_,?_,?_⟩
  · intro hdeployment hversion hrequest hidden tensor hencode hfits hsingle
    obtain ⟨hbounded,hwidth,hsame,htokens,hsize,hfinite,rfl⟩ := encodeTensor_iff.mp hencode
    refine decodeTensor_iff.mpr ⟨conforms_envelopeOf ⟨hdeployment,hversion,hrequest⟩ hfits ?_
      hbounded hwidth hsame htokens hsize hfinite,hsame,rfl⟩
    intro hdecode
    unfold phaseOf at hdecode
    split at hdecode
    · cases hdecode
    · rename_i hphase
      rw [not_or,Bool.not_eq_true] at hphase
      exact hsingle hphase.1 hphase.2
  · intro tensor hidden hdecode
    obtain ⟨h,hwidth,hpayload⟩ := decodeTensor_iff.mp hdecode
    have hsize := h.size
    have hbounded := h.bounded
    have hfinite := h.finite
    rw [←hpayload] at hsize hbounded hfinite
    refine encodeTensor_iff.mpr ⟨hbounded,?_,hwidth,h.nonempty,?_,hfinite,?_⟩
    · rw [hwidth]
      exact h.limited.2
    · rw [hwidth]
      exact hsize
    · have hdeclared : tensor.payloadLength=UInt64.ofNat hidden.payload.length := by
        rw [hpayload,←h.declared,UInt64.ofNat_toNat]
      cases tensor
      unfold envelopeOf
      rw [TensorEnvelope.mk.injEq]
      have hshape := h.shape
      rw [←hwidth] at hshape
      exact ⟨h.protocol,h.deployment,h.request,h.microbatch,h.order,h.phase,h.first,h.lengths,
        h.slots,hshape,h.dtype,h.layout,hdeclared,h.checksum,hpayload.symm,h.version⟩
  · intro tensor hidden hdecode
    obtain ⟨h,hwidth,hpayload⟩ := decodeTensor_iff.mp hdecode
    refine ⟨h.deployment,h.version,h.request,h.microbatch,h.order,h.first,h.phase,
      ⟨1,hidden.tokens,identity.hiddenSize,h.shape,?_,h.fits⟩,h.declared,h.bounded,?_⟩
    · rw [h.size]
      have hone : (1 : UInt64).toNat=1 := rfl
      rw [hone,Nat.one_mul]
    · intro i high hi
      by_contra hnot
      rw [Bool.not_eq_false] at hnot
      have hnonFinite := nonFinite_iff.mpr ⟨i,high,hi,hnot⟩
      rw [h.finite] at hnonFinite
      cases hnonFinite

/-- An identity with a hidden size of one. -/
def narrowIdentity : BoundaryIdentity := ⟨"d",1,"r",4,1⟩

/-- Two halves, one and minus two. -/
def narrowActivation : BoundaryActivation := ⟨2,1,[0,0x3c,0,0xc0]⟩

/-- Two tokens survive the codec, and a chunk that does so again is the same. -/
theorem narrow_codec_exact :
    decodeTensor (envelopeOf narrowActivation narrowIdentity 0 1 false) narrowIdentity 0 1 false=
        .ok narrowActivation ∧
      encodeTensor narrowActivation narrowIdentity 0 1 false=
        .ok (envelopeOf narrowActivation narrowIdentity 0 1 false) := by
  have hexact := codec_exact narrowIdentity 0 1 false
  have hencode : encodeTensor narrowActivation narrowIdentity 0 1 false=
      .ok (envelopeOf narrowActivation narrowIdentity 0 1 false) := by rfl
  have hdecode := hexact.1 (by decide) (by decide) (by decide) narrowActivation _ hencode
    (by decide) (by decide)
  exact ⟨hdecode,hexact.2.1 _ _ hdecode⟩

end Hllm.BoundaryCodec
