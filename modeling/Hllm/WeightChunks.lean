import Hllm.SafetensorsReader

/-!
# Weights in chunks

A loader reads a weight through a bounded buffer, converts every chunk to F32
and hands it on. An embedding that is tied to a redundant head is compared with
the head chunk by chunk. Floats are their bit patterns. The invariant of the
loop is the part of the payload that has been done: it has been read, compared,
converted and handed on, and what remains starts after it.
-/

namespace Hllm.WeightChunks

open DenseLoader (TensorMetadata TensorSource DenseSource weightDtypeNumber rejectIf multiply add)
open MemoryAccounting (call_bind check_iff)
open SafetensorsReader
open ControlModel (Failure)
open WireMessages (DataType)

section Halves

/-- `std::isfinite` of a float. -/
def isFiniteFloat (bits : UInt32) : Bool := (bits >>> 23) &&& 0xff != 0xff

/-- The loop that normalizes a subnormal half, with its exponent. -/
def normalize : ℕ → UInt32 → UInt32 → UInt32×UInt32
  | 0,mantissa,exponent => (mantissa,exponent)
  | fuel+1,mantissa,exponent =>
    if (mantissa &&& 0x400)=0 then normalize fuel (mantissa <<< 1) (exponent-1)
    else (mantissa,exponent)

/-- `float16_to_float` -/
def float16ToFloat (value : UInt16) : UInt32 :=
  let sign := (value &&& 0x8000).toUInt32 <<< 16
  let exponent := ((value >>> 10) &&& 0x1f).toUInt32
  let mantissa := (value &&& 0x3ff).toUInt32
  if exponent=0 then
    if mantissa=0 then sign
    else
      -- Ten bits of mantissa are normalized after ten shifts at most.
      let normalized := normalize 10 mantissa (127-14)
      sign ||| (normalized.2 <<< 23) ||| ((normalized.1 &&& 0x3ff) <<< 13)
  else if exponent=0x1f then sign ||| (0x7f800000 : UInt32) ||| (mantissa <<< 13)
  else sign ||| ((exponent+(127-15)) <<< 23) ||| (mantissa <<< 13)

/-- `bfloat16_to_float` -/
def bfloat16ToFloat (value : UInt16) : UInt32 := value.toUInt32 <<< 16

end Halves

/-- Bits of an element, least significant byte first. -/
def elementBits (bytes : List UInt8) : UInt32 :=
  bytes.zipIdx.foldl (fun bits entry =>
    bits ||| (entry.1.toUInt32 <<< (8*entry.2).toUInt32)) 0

/-- An element as F32. -/
def decodeElement (dtype : DataType) (bytes : List UInt8) : UInt32 :=
  let bits := elementBits bytes
  if dtype=.f32 then bits
  else if dtype=.f16 then float16ToFloat bits.toUInt16 else bfloat16ToFloat bits.toUInt16

/-- A buffer cut into elements of some width. -/
def elements (width : ℕ) (raw : List UInt8) : List (List UInt8) :=
  (List.range (raw.length/width)).map fun i => (raw.drop (i*width)).take width

/-- All elements of a buffer as F32. -/
def decodeElements (dtype : DataType) (raw : List UInt8) : List UInt32 :=
  (elements (dataTypeBytes dtype) raw).map (decodeElement dtype)

/-- A file of the model root; its size is a signed word. -/
structure DiskFile where
  bytes : List UInt8
  size_lt : bytes.length < 2^63

/-- `conversion_chunk_bytes` -/
def conversionChunkBytes : ℕ := 1024*1024

/-- Variables of the loop of `for_each_float32_chunk`, with the spans handed on. -/
structure ChunkState where
  remaining : ℕ
  input : Stream
  head : Option Stream
  spans : List (List UInt32) := []

/-- Whether the head, if there is one, continues with a chunk. -/
def compareHead : Option Stream → List UInt8 → Option Stream×Bool
  | none,_ => (none,true)
  | some head,raw =>
    let (comparison,head) := head.read raw.length
    (some head,decide (comparison=some raw))

/-- One round of the loop, which may throw. -/
def chunkRound (name : String) (dtype : DataType) (capacity : ℕ) (state : ChunkState) :
    ChunkState×Option Failure :=
  let bytes := min state.remaining capacity
  let (raw,input) := state.input.read bytes
  match raw with
  | none => ({state with input := input},
    some (.runtime ⟨.incompatibleWorker,"truncated weight payload: "++name⟩))
  | some raw =>
    let (head,same) := compareHead state.head raw
    let decoded := decodeElements dtype raw
    if same=false then ({state with input := input, head := head},
      some (.runtime ⟨.incompatibleWorker,"redundant tied head differs from token embedding"⟩))
    else if decoded.all isFiniteFloat=false then ({state with input := input, head := head},
      some (.runtime ⟨.incompatibleWorker,"non-finite weight: "++name⟩))
    else (⟨state.remaining-bytes,input,head,state.spans++[decoded]⟩,none)

/-- The loop for some rounds; nothing if it has not ended. -/
def chunkLoop (name : String) (dtype : DataType) (capacity : ℕ) :
    ℕ → ChunkState → Option (ChunkState×Option Failure)
  | fuel,state =>
    if state.remaining=0 then some (state,none)
    else match fuel with
      | 0 => none
      | fuel+1 =>
        match chunkRound name dtype capacity state with
        | (state,some failure) => some (state,some failure)
        | (state,none) => chunkLoop name dtype capacity fuel state

/-- `open_payload` -/
def openPayload (file : SafetensorsFile) (disk : DiskFile) (name : String) :
    Except Failure Stream := do
  let metadata ← file.tensor name
  let offset ← add file.headerSize metadata.dataOffset
  rejectIf (2^63-1 < offset) "cannot open tensor payload"
  pure ⟨disk.bytes,offset,[]⟩

variable (source : DenseSource) (files : String → Except Failure SafetensorsFile)
variable (disk : String → DiskFile)

/-- `tensors.at` -/
def tensorAt (name : String) : Except Failure TensorSource :=
  match source.tensors.lookup name with
  | some tensor => .ok tensor
  | none => .error (.other "map::at")

/-- The redundant head an embedding is compared with. -/
def openHead (name : String) : Except Failure (Option Stream) :=
  match source.redundantHeadFile with
  | none => .ok none
  | some headFile =>
    if name="model.embed_tokens.weight" then do
      let file ← files headFile
      let head ← openPayload file (disk headFile) "lm_head.weight"
      pure (some head)
    else .ok none

/-- `for_each_float32_chunk` up to its loop. -/
def openChunks (name : String) : Except Failure (TensorSource×ChunkState) := do
  let tensor ← tensorAt source name
  rejectIf (weightDtypeNumber tensor.dtype=none) "unsupported weight dtype"
  let file ← files tensor.file
  let input ← openPayload file (disk tensor.file) name
  let head ← openHead source files disk name
  let elements ← tensor.shape.foldlM multiply 1
  let remaining ← multiply elements (dataTypeBytes tensor.dtype)
  pure (tensor,⟨remaining,input,head,[]⟩)

/-- `for_each_float32_chunk`, with some rounds of its loop. -/
def forEachFloat32Chunk (fuel : ℕ) (name : String) :
    Except Failure (Option (ChunkState×Option Failure)) := do
  let (tensor,state) ← openChunks source files disk name
  pure (chunkLoop name tensor.dtype (min state.remaining conversionChunkBytes) fuel state)

section Elements

variable {dtype : DataType} {xs ys : List UInt8}

/-- Whole elements followed by more bytes are cut one after the other. -/
theorem elements_append {width : ℕ} (hwidth : 0 < width) (h : width ∣ xs.length) :
    elements width (xs++ys)=elements width xs++elements width ys := by
  obtain ⟨count,hcount⟩ := h
  have hdiv : xs.length/width=count := by
    rw [hcount,Nat.mul_div_cancel_left _ hwidth]
  have htotal : (xs++ys).length/width=count+ys.length/width := by
    rw [List.length_append,hcount,Nat.add_comm,Nat.add_mul_div_left _ _ hwidth,Nat.add_comm]
  unfold elements
  rw [htotal,hdiv,List.range_add,List.map_append,List.map_map]
  congr 1
  · refine List.map_congr_left fun i hi => ?_
    have hless := List.mem_range.mp hi
    have hend : (i+1)*width ≤ count*width := Nat.mul_le_mul_right _ hless
    have hstep : (i+1)*width=i*width+width := Nat.succ_mul i width
    have hlength : count*width=xs.length := by rw [hcount,Nat.mul_comm]
    rw [List.drop_append_of_le_length (by omega),
      List.take_append_of_le_length (by rw [List.length_drop]; omega)]
  · refine List.map_congr_left fun i _ => ?_
    have hposition : (count+i)*width=xs.length+i*width := by
      rw [Nat.add_mul,hcount,Nat.mul_comm count]
    rw [Function.comp_apply,hposition,←List.drop_drop,List.drop_left]

/-- Whole elements followed by more bytes are decoded one after the other. -/
theorem decodeElements_append (hwidth : 0 < dataTypeBytes dtype)
    (h : dataTypeBytes dtype ∣ xs.length) :
    decodeElements dtype (xs++ys)=decodeElements dtype xs++decodeElements dtype ys := by
  unfold decodeElements
  rw [elements_append hwidth h,List.map_append]

/-- Elements at the front of a buffer are elements of the buffer. -/
theorem decodeElements_take {n : ℕ} (hwidth : 0 < dataTypeBytes dtype)
    (h : dataTypeBytes dtype ∣ n) (hn : n ≤ xs.length) {v : UInt32}
    (hv : v∈decodeElements dtype (xs.take n)) : v∈decodeElements dtype xs := by
  have hlength : (xs.take n).length=n := by
    rw [List.length_take]
    omega
  have happend := @decodeElements_append dtype (xs.take n) (xs.drop n) hwidth (by rwa [hlength])
  rw [List.take_append_drop] at happend
  rw [happend]
  exact List.mem_append_left _ hv

end Elements

section Streams

variable {bytes : List UInt8} {offset done n total : ℕ}

/-- A stream that has read some bytes of a payload in order. -/
def streamAt (bytes : List UInt8) (offset done : ℕ) : Stream :=
  ⟨bytes,offset+done,List.range' offset done⟩

/-- The payload of some length at an offset. -/
def payload (bytes : List UInt8) (offset total : ℕ) : List UInt8 := (bytes.drop offset).take total

/-- What a stream delivers next of a payload. -/
theorem streamAt_available (h : done+n ≤ total) :
    (streamAt bytes offset done).available n=((payload bytes offset total).drop done).take n := by
  unfold Stream.available streamAt payload
  rw [List.drop_take,List.take_take,List.drop_drop,Nat.min_eq_left (by omega)]

/-- A read moves the stream by what it delivers. -/
theorem streamAt_read : ((streamAt bytes offset done).read n).2=
    streamAt bytes offset (done+((streamAt bytes offset done).available n).length) := by
  unfold Stream.read
  simp only
  generalize ((streamAt bytes offset done).available n).length=k
  unfold streamAt
  simp only [List.range'_append_1,Nat.add_assoc]

/-- A read succeeds when everything is delivered. -/
theorem streamAt_read_some {raw : List UInt8} :
    ((streamAt bytes offset done).read n).1=some raw ↔
      (streamAt bytes offset done).available n=raw ∧ raw.length=n := by
  unfold Stream.read
  simp only
  split
  · rename_i hlength
    rw [Option.some.injEq]
    constructor
    · rintro rfl
      exact ⟨rfl,hlength⟩
    · exact fun h => h.1
  · rename_i hlength
    constructor
    · intro h
      cases h
    · rintro ⟨rfl,h⟩
      exact absurd h hlength

end Streams

section Loop

variable {name : String} {dtype : DataType} {capacity total : ℕ}
variable {bytes : List UInt8} {offset : ℕ} {head : Option (List UInt8×ℕ)}

/-- How a run of the loop begins. -/
def initialChunks (bytes : List UInt8) (offset total : ℕ) (head : Option (List UInt8×ℕ)) :
    ChunkState :=
  ⟨total,streamAt bytes offset 0,head.map fun h => streamAt h.1 h.2 0,[]⟩

/-- A run of the loop has done some bytes of the payload. -/
structure Progress (dtype : DataType) (bytes : List UInt8) (offset total : ℕ)
    (head : Option (List UInt8×ℕ)) (done : ℕ) (state : ChunkState) : Prop where
  remaining : state.remaining+done=total
  aligned : dataTypeBytes dtype ∣ done
  delivered : done ≤ (payload bytes offset total).length
  input : state.input=streamAt bytes offset done
  headInput : state.head=head.map fun h => streamAt h.1 h.2 done
  same : ∀ h∈head,(payload h.1 h.2 total).take done=(payload bytes offset total).take done
  chunks : ∃ chunks : List (List UInt8),chunks.flatten=(payload bytes offset total).take done ∧
    (∀ chunk∈chunks,dataTypeBytes dtype ∣ chunk.length) ∧
    state.spans=chunks.map (decodeElements dtype)
  finite : ∀ v∈decodeElements dtype ((payload bytes offset total).take done),isFiniteFloat v=true

/-- The payload is truncated, has an element that is not finite, or is not what
the head has. -/
def Defective (dtype : DataType) (bytes : List UInt8) (offset total : ℕ)
    (head : Option (List UInt8×ℕ)) : Prop :=
  (payload bytes offset total).length < total ∨
  (∃ v∈decodeElements dtype (payload bytes offset total),isFiniteFloat v=false) ∨
  ∃ h∈head,payload h.1 h.2 total≠payload bytes offset total

/-- Streams that have read a leading part of the payload. -/
def Touched (bytes : List UInt8) (offset total : ℕ) (head : Option (List UInt8×ℕ))
    (state : ChunkState) : Prop :=
  (∃ k ≤ total,state.input=streamAt bytes offset k) ∧
  ∀ h∈head,∃ k ≤ total,state.head=some (streamAt h.1 h.2 k)

/-- A payload is as long as it should be at most. -/
theorem payload_length_le : (payload bytes offset total).length ≤ total := by
  unfold payload
  rw [List.length_take]
  exact Nat.min_le_left _ _

/-- A comparison delivers what the head has there. -/
theorem compareHead_streamAt {done n : ℕ} {raw : List UInt8} (hraw : raw.length=n)
    (h : done+n ≤ total) :
    ((compareHead (head.map fun h => streamAt h.1 h.2 done) raw).2=true ↔
      ∀ h∈head,((payload h.1 h.2 total).drop done).take n=raw) ∧
    (∀ h∈head,∃ k ≤ n,(compareHead (head.map fun h => streamAt h.1 h.2 done) raw).1=
      some (streamAt h.1 h.2 (done+k))) ∧
    ((compareHead (head.map fun h => streamAt h.1 h.2 done) raw).2=true →
      (compareHead (head.map fun h => streamAt h.1 h.2 done) raw).1=
        head.map fun h => streamAt h.1 h.2 (done+n)) := by
  cases head with
  | none => exact ⟨⟨fun _ => nofun,fun _ => rfl⟩,nofun,fun _ => rfl⟩
  | some other =>
    obtain ⟨bytes,offset⟩ := other
    have havailable := @streamAt_available bytes offset done n total h
    have hread := @streamAt_read bytes offset done n
    have hsome := @streamAt_read_some bytes offset done n raw
    have hlength : ((streamAt bytes offset done).available n).length ≤ n := by
      unfold Stream.available
      rw [List.length_take]
      exact Nat.min_le_left _ _
    unfold compareHead
    simp only [Option.map_some,hraw,decide_eq_true_eq,Option.mem_some_iff,forall_eq',hread]
    rw [hsome,←havailable]
    refine ⟨and_iff_left hraw,⟨_,hlength,rfl⟩,fun hsame => ?_⟩
    rw [hsame.1,hraw]

/-- One round either does more bytes of the payload or finds a defect. -/
theorem chunkRound_progress {done : ℕ} {state : ChunkState}
    (hcapacity : dataTypeBytes dtype ∣ capacity) (htotal : dataTypeBytes dtype ∣ total)
    (hwidth : 0 < dataTypeBytes dtype) (h : Progress dtype bytes offset total head done state) :
    ((chunkRound name dtype capacity state).2=none →
      Progress dtype bytes offset total head (done+min state.remaining capacity)
        (chunkRound name dtype capacity state).1) ∧
    ((chunkRound name dtype capacity state).2≠none →
      Defective dtype bytes offset total head ∧
        Touched bytes offset total head (chunkRound name dtype capacity state).1) := by
  obtain ⟨hremaining,haligned,hdelivered,hinput,hheadInput,hsame,⟨chunks,hflatten,hwhole,hspans⟩,
    hfinite⟩ := h
  generalize hn : min state.remaining capacity=n
  have hnle : n ≤ state.remaining := by omega
  have hdone : done+n ≤ total := by omega
  have hnaligned : dataTypeBytes dtype ∣ n := by
    have hrest : dataTypeBytes dtype ∣ state.remaining := by
      have hsub := Nat.dvd_sub htotal haligned
      rwa [←hremaining,Nat.add_sub_cancel] at hsub
    rcases Nat.le_total state.remaining capacity with hle|hle
    · rwa [←hn,Nat.min_eq_left hle]
    · rwa [←hn,Nat.min_eq_right hle]
  have havailable := @streamAt_available bytes offset done n total hdone
  have hread := @streamAt_read bytes offset done n
  generalize hp : payload bytes offset total=p at *
  have hplength : p.length ≤ total := by
    rw [←hp]
    exact payload_length_le
  unfold chunkRound
  simp only [hn,hinput,hheadInput,hread]
  cases hraw : ((streamAt bytes offset done).read n).1 with
  | none =>
    refine ⟨nofun,fun _ => ⟨.inl ?_,⟨_,?_,rfl⟩,fun h hh => ⟨done,by omega,?_⟩⟩⟩
    · rw [hp]
      by_contra hnot
      have hfull : ((streamAt bytes offset done).available n).length=n := by
        rw [havailable,List.length_take,List.length_drop]
        omega
      have hok := (@streamAt_read_some bytes offset done n _).mpr ⟨rfl,hfull⟩
      rw [hraw] at hok
      cases hok
    · rw [havailable,List.length_take]
      omega
    · rw [Option.mem_def.mp hh,Option.map_some]
  | some raw =>
    obtain ⟨hrawEq,hrawLength⟩ := streamAt_read_some.mp hraw
    rw [havailable] at hrawEq
    obtain ⟨hcompare,hheadRead,hheadNext⟩ := @compareHead_streamAt total head done n raw
      hrawLength hdone
    have hinputNext : streamAt bytes offset
        (done+((streamAt bytes offset done).available n).length)=
        streamAt bytes offset (done+n) := by
      rw [havailable,hrawEq,hrawLength]
    have hfits : done+n ≤ p.length := by
      have hlen := congrArg List.length hrawEq
      rw [hrawLength,List.length_take,List.length_drop] at hlen
      omega
    have htouched : ∀ remaining spans,Touched bytes offset total head ⟨remaining,
        streamAt bytes offset (done+((streamAt bytes offset done).available n).length),
        (compareHead (head.map fun h => streamAt h.1 h.2 done) raw).1,spans⟩ := by
      intro remaining spans
      refine ⟨⟨done+n,hdone,hinputNext⟩,fun h hh => ?_⟩
      obtain ⟨k,hk,heq⟩ := hheadRead h hh
      exact ⟨done+k,by omega,heq⟩
    have htake : p.take (done+n)=p.take done++raw := by
      rw [List.take_add,hrawEq]
    have htakeLength : (p.take done).length=done := by
      rw [List.length_take]
      omega
    have hdecode : decodeElements dtype (p.take (done+n))=
        decodeElements dtype (p.take done)++decodeElements dtype raw := by
      rw [htake,decodeElements_append hwidth (by rwa [htakeLength])]
    simp only
    by_cases hsameRaw : (compareHead (head.map fun h => streamAt h.1 h.2 done) raw).2=true
    · rw [if_neg (by rw [hsameRaw]; decide)]
      by_cases hall : (decodeElements dtype raw).all isFiniteFloat=true
      · rw [if_neg (by rw [hall]; decide)]
        refine ⟨fun _ => ⟨by simp only; omega,haligned.add hnaligned,?_,hinputNext,
          hheadNext hsameRaw,fun h hh => ?_,?_,?_⟩,fun hne => absurd rfl hne⟩
        · rw [hp]
          exact hfits
        · rw [hp,htake,List.take_add,hsame h hh,hcompare.mp hsameRaw h hh]
        · refine ⟨chunks++[raw],?_,fun chunk hchunk => ?_,?_⟩
          · rw [hp,htake,List.flatten_append,List.flatten_singleton,hflatten]
          · rcases List.mem_append.mp hchunk with hchunk|hchunk
            · exact hwhole chunk hchunk
            · rw [List.mem_singleton.mp hchunk,hrawLength]
              exact hnaligned
          · rw [hspans,List.map_append,List.map_singleton]
        · intro v hv
          rw [hp,hdecode] at hv
          rcases List.mem_append.mp hv with hv|hv
          · exact hfinite v hv
          · exact List.all_eq_true.mp hall v hv
      · rw [if_pos (by rwa [Bool.not_eq_true] at hall)]
        refine ⟨nofun,fun _ => ⟨.inr (.inl ?_),htouched _ _⟩⟩
        rw [Bool.not_eq_true,List.all_eq_false] at hall
        obtain ⟨v,hv,hbad⟩ := hall
        rw [hp]
        refine ⟨v,decodeElements_take hwidth (haligned.add hnaligned) hfits ?_,by
          rwa [Bool.not_eq_true] at hbad⟩
        rw [hdecode]
        exact List.mem_append_right _ hv
    · rw [if_pos (by rwa [Bool.not_eq_true] at hsameRaw)]
      refine ⟨nofun,fun _ => ⟨.inr (.inr ?_),htouched _ _⟩⟩
      by_contra hnone
      refine hsameRaw (hcompare.mpr fun h hh => ?_)
      rw [hp] at hnone
      have hequal : payload h.1 h.2 total=p := by
        by_contra hne
        exact hnone ⟨h,hh,hne⟩
      rw [hequal,hrawEq]

/-- Whole chunks are decoded one after the other. -/
theorem decodeElements_flatten (hwidth : 0 < dataTypeBytes dtype) {chunks : List (List UInt8)}
    (h : ∀ chunk∈chunks,dataTypeBytes dtype ∣ chunk.length) :
    (chunks.map (decodeElements dtype)).flatten=decodeElements dtype chunks.flatten := by
  induction chunks with
  | nil =>
    unfold decodeElements elements
    simp only [List.map_nil,List.flatten_nil,List.length_nil,Nat.zero_div,List.range_zero]
  | cons chunk chunks ih =>
    rw [List.map_cons,List.flatten_cons,List.flatten_cons,
      decodeElements_append hwidth (h chunk List.mem_cons_self),
      ih fun other hother => h other (.tail _ hother)]

/-- The loop ends, after all of the payload or at a defect. -/
theorem chunkLoop_ends (hcapacity : dataTypeBytes dtype ∣ capacity)
    (htotal : dataTypeBytes dtype ∣ total) (hwidth : 0 < dataTypeBytes dtype)
    (hpositive : 0 < total → 0 < capacity) {done : ℕ} {state : ChunkState}
    (h : Progress dtype bytes offset total head done state) :
    ∃ last failure,
      (∀ fuel,state.remaining ≤ fuel →
        chunkLoop name dtype capacity fuel state=some (last,failure)) ∧
      (failure=none → Progress dtype bytes offset total head total last) ∧
      (failure≠none → Defective dtype bytes offset total head ∧
        Touched bytes offset total head last) := by
  induction hrest : state.remaining using Nat.strong_induction_on generalizing done state with
  | _ rest ih =>
    have hremaining := h.remaining
    by_cases hzero : state.remaining=0
    · refine ⟨state,none,fun fuel _ => ?_,fun _ => ?_,fun hne => absurd rfl hne⟩
      · unfold chunkLoop
        rw [if_pos hzero]
      · have hdone : done=total := by omega
        rw [←hdone]
        rw [←hdone] at h
        exact h
    · have hround := @chunkRound_progress name dtype capacity total bytes offset head done state
        hcapacity htotal hwidth h
      have hcapacityPos := hpositive (by omega)
      have hstep : ∀ fuel,state.remaining ≤ fuel+1 →
          chunkLoop name dtype capacity (fuel+1) state=
            match chunkRound name dtype capacity state with
            | (next,some failure) => some (next,some failure)
            | (next,none) => chunkLoop name dtype capacity fuel next := by
        intro fuel _
        rw [chunkLoop,if_neg hzero]
      cases hresult : chunkRound name dtype capacity state with
      | mk next failure =>
        rw [hresult] at hround
        cases failure with
        | some failure =>
          refine ⟨next,some failure,fun fuel hfuel => ?_,nofun,hround.2⟩
          cases fuel with
          | zero => omega
          | succ fuel => rw [hstep fuel (by omega),hresult]
        | none =>
          have hnext := hround.1 rfl
          have hless := hnext.remaining
          simp only at hless
          obtain ⟨last,failure,hruns,hall⟩ := ih next.remaining (by omega) hnext rfl
          refine ⟨last,failure,fun fuel hfuel => ?_,hall⟩
          cases fuel with
          | zero => omega
          | succ fuel =>
            rw [hstep fuel (by omega),hresult]
            exact hruns fuel (by omega)

/-- More rounds do not change a run that has ended. -/
theorem chunkLoop_mono {fuel more : ℕ} {state : ChunkState} {result : ChunkState×Option Failure}
    (hle : fuel ≤ more) (h : chunkLoop name dtype capacity fuel state=some result) :
    chunkLoop name dtype capacity more state=some result := by
  induction fuel generalizing state more with
  | zero =>
    unfold chunkLoop at h ⊢
    by_cases hzero : state.remaining=0
    · rw [if_pos hzero] at h ⊢
      exact h
    · rw [if_neg hzero] at h
      cases h
  | succ fuel ih =>
    cases more with
    | zero => omega
    | succ more =>
      rw [chunkLoop] at h ⊢
      by_cases hzero : state.remaining=0
      · rw [if_pos hzero] at h ⊢
        exact h
      · rw [if_neg hzero] at h ⊢
        cases hround : chunkRound name dtype capacity state with
        | mk next failure =>
          rw [hround] at h
          cases failure with
          | some failure => exact h
          | none => exact ih (by omega) h

/-- A run begins with nothing done. -/
theorem initialChunks_progress :
    Progress dtype bytes offset total head 0 (initialChunks bytes offset total head) := by
  refine ⟨Nat.add_zero _,Nat.dvd_zero _,Nat.zero_le _,rfl,rfl,fun h _ => rfl,
    ⟨[],rfl,fun chunk hchunk => absurd hchunk List.not_mem_nil,rfl⟩,fun v hv => ?_⟩
  rw [List.take_zero] at hv
  unfold decodeElements elements at hv
  simp only [List.length_nil,Nat.zero_div,List.range_zero,List.map_nil,List.not_mem_nil] at hv

/-- A run that has done all of the payload has found no defect. -/
theorem not_defective_of_progress {state : ChunkState}
    (h : Progress dtype bytes offset total head total state) :
    ¬Defective dtype bytes offset total head := by
  have hlength := @payload_length_le total bytes offset
  have hall : (payload bytes offset total).take total=payload bytes offset total :=
    List.take_of_length_le hlength
  rintro (htruncated|⟨v,hv,hbad⟩|⟨other,hother,hne⟩)
  · have hdelivered := h.delivered
    omega
  · have hfinite := h.finite v (hall.symm ▸ hv)
    rw [hbad] at hfinite
    cases hfinite
  · have hsame := h.same other hother
    rw [hall,List.take_of_length_le payload_length_le] at hsame
    exact hne hsame

/-- The loop over a payload: it ends, it throws exactly at a defect, and else it
has handed on the whole payload in chunks of whole elements. -/
theorem chunkLoop_exact (hcapacity : dataTypeBytes dtype ∣ capacity)
    (htotal : dataTypeBytes dtype ∣ total) (hwidth : 0 < dataTypeBytes dtype)
    (hpositive : 0 < total → 0 < capacity) :
    ∃ last failure,
      (∀ fuel,total ≤ fuel → chunkLoop name dtype capacity fuel
        (initialChunks bytes offset total head)=some (last,failure)) ∧
      (failure≠none ↔ Defective dtype bytes offset total head) ∧
      (failure=none → (∃ chunks : List (List UInt8),chunks.flatten=payload bytes offset total ∧
          (∀ chunk∈chunks,dataTypeBytes dtype ∣ chunk.length) ∧
          last.spans=chunks.map (decodeElements dtype)) ∧
        last.spans.flatten=decodeElements dtype (payload bytes offset total) ∧
        last.input=streamAt bytes offset total ∧
        last.head=head.map fun h => streamAt h.1 h.2 total) ∧
      Touched bytes offset total head last := by
  obtain ⟨last,failure,hruns,hdone,hdefect⟩ := @chunkLoop_ends name dtype capacity total bytes
    offset head hcapacity htotal hwidth hpositive 0 _ initialChunks_progress
  refine ⟨last,failure,hruns,⟨fun hne => (hdefect hne).1,fun hbad hnone =>
    not_defective_of_progress (hdone hnone) hbad⟩,fun hnone => ?_,?_⟩
  · have hprogress := hdone hnone
    obtain ⟨chunks,hflatten,hwhole,hspans⟩ := hprogress.chunks
    rw [List.take_of_length_le payload_length_le] at hflatten
    refine ⟨⟨chunks,hflatten,hwhole,hspans⟩,?_,hprogress.input,hprogress.headInput⟩
    rw [hspans,decodeElements_flatten hwidth hwhole,hflatten]
  · by_cases hnone : failure=none
    · have hprogress := hdone hnone
      refine ⟨⟨total,Nat.le_refl _,hprogress.input⟩,fun h hh => ⟨total,Nat.le_refl _,?_⟩⟩
      rw [hprogress.headInput,Option.mem_def.mp hh,Option.map_some]
    · exact (hdefect hnone).2

end Loop

end Hllm.WeightChunks
