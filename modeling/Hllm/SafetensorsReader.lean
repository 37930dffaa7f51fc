import Hllm.SortedLists
import Hllm.Traversals
import Hllm.WeightEstimates
import Mathlib.Data.String.Basic

/-!
# The native reader of weight files

`SafetensorsFile` reads a header of tensor entries in front of a data section.
The text of the header is parsed elsewhere, into a value whose objects have
distinct keys. Every number of the header is chosen by who wrote the file, so
sums and products are taken modulo the size of a word, as the code takes them.
-/

namespace Hllm.SafetensorsReader

open DenseLoader (TensorMetadata rejectIf)
open MemoryAccounting (call_bind check_iff)
open SortedLists (sweeps lowerBound)
open Traversals
open WeightEstimates (rejectIf_ok)
open ControlModel (Failure)
open WireMessages (DataType)

/-- Parsed JSON values. -/
inductive Json
  | null
  | bool (value : Bool)
  | integer (value : ℤ)
  /-- The literal `-0`, an integer that keeps its sign. -/
  | negativeZero
  /-- A number with a fraction or an exponent. -/
  | real
  | string (value : String)
  | array (items : List Json)
  | object (members : List (String×Json))

/-- The value of an integer literal. -/
def Json.number : Json → Option ℤ
  | .integer n => some n
  | .negativeZero => some 0
  | _ => none

/-- A parser of header texts; the members of an object are kept in a map. -/
structure JsonParser where
  parse : List UInt8 → Option Json
  distinct : ∀ bytes members,parse bytes=some (.object members) → (members.map Prod.fst).Nodup

/-- A sort by data offset, which may order ties in any way. -/
structure RangeSort where
  sort : List (String×TensorMetadata) → List (String×TensorMetadata)
  perm : ∀ tensors,(sort tensors).Perm tensors
  sorted : ∀ tensors,(sort tensors).Pairwise fun a b => a.2.dataOffset ≤ b.2.dataOffset

/-- `SafetensorsFile` without its path. -/
structure SafetensorsFile where
  fileSize : ℕ
  headerSize : ℕ
  tensors : List (String×TensorMetadata)

/-- `quote_name` -/
def quoteName (name : String) : String := "'"++name++"'"

/-- Throw a `SafetensorsError`. -/
def safetensorsError {α : Type} (message : String) : Except Failure α :=
  .error (.runtime ⟨.incompatibleWorker,message⟩)

/-- `checked_size`. Unsigned numbers are the integers of a word without a sign,
so `-0` is none. -/
def checkedSize (field name : String) : Json → Except Failure ℕ
  | .integer n =>
    if 0 ≤ n ∧ n < 2^64 then .ok n.toNat
    else safetensorsError ("tensor "++quoteName name++" has invalid "++field)
  | _ => safetensorsError ("tensor "++quoteName name++" has invalid "++field)

/-- Names of the supported dtypes. -/
def dtypeNames : List (String×DataType) :=
  [("BOOL",.bool),("U8",.u8),("I8",.i8),("I16",.i16),("U16",.u16),("I32",.i32),("U32",.u32),
    ("I64",.i64),("U64",.u64),("F16",.f16),("BF16",.bf16),("F32",.f32),("F64",.f64)]

/-- `parse_dtype` -/
def parseDtype (value name : String) : Except Failure DataType :=
  match dtypeNames.lookup value with
  | some dtype => .ok dtype
  | none => safetensorsError
    ("tensor "++quoteName name++" has unsupported dtype "++quoteName value)

/-- `data_type_bytes` -/
def dataTypeBytes : DataType → ℕ
  | .bool | .u8 | .i8 => 1
  | .i16 | .u16 | .f16 | .bf16 => 2
  | .i32 | .u32 | .f32 => 4
  | .i64 | .u64 | .f64 => 8
  | .unspecified => 0

/-- One step of `checked_product`. -/
def checkedFactor (name : String) (result dimension : ℕ) : Except Failure ℕ :=
  if dimension≠0 ∧ (2^64-1)/dimension < result then
    safetensorsError ("tensor "++quoteName name++" byte length overflows")
  else .ok (result*dimension%2^64)

/-- `checked_product` -/
def checkedProduct (shape : List ℕ) (elementSize : ℕ) (name : String) : Except Failure ℕ :=
  shape.foldlM (checkedFactor name) elementSize

/-- `parse_tensor` once the parts of the entry have the right types. -/
def parseParts (name dtype : String) (shape : List Json) (start finish : Json) :
    Except Failure TensorMetadata := do
  let dtype ← parseDtype dtype name
  let shape ← shape.mapM (checkedSize "shape" name)
  let start ← checkedSize "data offset" name start
  let finish ← checkedSize "data offset" name finish
  rejectIf (finish < start) ("tensor "++quoteName name++" has a reversed data range")
  let expected ← checkedProduct shape (dataTypeBytes dtype) name
  rejectIf (finish-start≠expected)
    ("tensor "++quoteName name++" byte length is "++toString (finish-start)++", expected "++
      toString expected)
  pure ⟨dtype,shape,start,finish-start⟩

/-- `parse_tensor` -/
def parseTensor (name : String) : Json → Except Failure TensorMetadata
  | .object members =>
    match members.lookup "dtype",members.lookup "shape",members.lookup "data_offsets" with
    | some (.string dtype),some (.array shape),some (.array [start,finish]) =>
      parseParts name dtype shape start finish
    | some _,some _,some _ =>
      safetensorsError ("tensor "++quoteName name++" has invalid metadata types")
    | _,_,_ => safetensorsError ("tensor "++quoteName name++" has invalid metadata")
  | _ => safetensorsError ("tensor "++quoteName name++" has invalid metadata")

/-- A member of the header with its parsed entry. -/
def parseMember (member : String×Json) : Except Failure (String×TensorMetadata) :=
  (parseTensor member.1 member.2).map (Prod.mk member.1)

/-- Members sorted by name, as a map holds them. -/
def byName {α : Type} (members : List (String×α)) : List (String×α) :=
  members.insertionSort fun a b => a.1 ≤ b.1

/-- The members that are tensors. -/
def tensorMembers (members : List (String×Json)) : List (String×Json) :=
  members.filter fun member => decide (member.1≠"__metadata__")

/-- The loop over the ranges. -/
def checkRanges (dataSize : ℕ) : ℕ → List (String×TensorMetadata) → Except Failure Unit
  | _,[] => .ok ()
  | previousEnd,(name,tensor)::ranges => do
    rejectIf (tensor.dataOffset < previousEnd)
      ("tensor "++quoteName name++" overlaps an earlier tensor")
    rejectIf (dataSize < tensor.dataOffset ∨ dataSize-tensor.dataOffset < tensor.byteLength)
      ("tensor "++quoteName name++" extends beyond the data section")
    checkRanges dataSize ((tensor.dataOffset+tensor.byteLength)%2^64) ranges

/-- The constructor from the parsed header on; returns `tensors_`. -/
def readHeader (sorting : RangeSort) (members : List (String×Json)) (dataSize : ℕ) :
    Except Failure (List (String×TensorMetadata)) := do
  let parsed ← (tensorMembers (byName members)).mapM parseMember
  rejectIf (parsed=[]) "Safetensors file does not contain tensors"
  let tensors := byName parsed
  checkRanges dataSize 0 (sorting.sort tensors)
  pure tensors

/-- `read_little_endian_u64` -/
def readLittleEndian : List UInt8 → ℕ
  | [] => 0
  | byte::bytes => byte.toNat+2^8*readLittleEndian bytes

/-- `kMaximumHeaderBytes` -/
def maximumHeaderBytes : ℕ := 128*1024*1024

/-- The header of a file must be a JSON object. -/
def parseHeader (parser : JsonParser) (header : List UInt8) :
    Except Failure (List (String×Json)) :=
  match parser.parse header with
  | none => safetensorsError "Safetensors file contains invalid JSON"
  | some (.object members) => .ok members
  | some _ => safetensorsError "Safetensors header must be a JSON object"

/-- `SafetensorsFile` -/
def openFile (parser : JsonParser) (sorting : RangeSort) (bytes : List UInt8) :
    Except Failure SafetensorsFile := do
  rejectIf (2^64-1 < bytes.length) "cannot determine Safetensors file size"
  rejectIf (bytes.length < 8) "Safetensors file is shorter than its header prefix"
  let headerLength := readLittleEndian (bytes.take 8)
  rejectIf (headerLength=0 ∨ maximumHeaderBytes < headerLength)
    "Safetensors file has an invalid header length"
  rejectIf (bytes.length-8 < headerLength) "Safetensors header extends beyond the file"
  let headerSize := (8+headerLength)%2^64
  let members ← parseHeader parser ((bytes.drop 8).take headerLength)
  let tensors ← readHeader sorting members (bytes.length-headerSize)
  pure ⟨bytes.length,headerSize,tensors⟩

/-- `SafetensorsFile::tensor` -/
def SafetensorsFile.tensor (file : SafetensorsFile) (name : String) :
    Except Failure TensorMetadata :=
  let names := file.tensors.map Prod.fst
  match file.tensors[lowerBound names name names.length 0 names.length]? with
  | some found =>
    if found.1=name then .ok found.2
    else safetensorsError ("tensor "++quoteName name++" is not present")
  | none => safetensorsError ("tensor "++quoteName name++" is not present")

/-- An input stream over a file, with the positions it has read. -/
structure Stream where
  bytes : List UInt8
  position : ℕ
  touched : List ℕ := []

/-- What a stream can still deliver of some bytes. -/
def Stream.available (stream : Stream) (count : ℕ) : List UInt8 :=
  (stream.bytes.drop stream.position).take count

/-- `read`; a stream that ends too early delivers less and fails. -/
def Stream.read (stream : Stream) (count : ℕ) : Option (List UInt8)×Stream :=
  let available := stream.available count
  (if available.length=count then some available else none,
    {stream with
      position := stream.position+available.length
      touched := stream.touched++List.range' stream.position available.length})

/-- `SafetensorsFile::read_tensor`, with the positions it has read; the pool may
refuse a buffer. -/
def SafetensorsFile.readTensor (file : SafetensorsFile) (acquire : ℕ → Except Failure Unit)
    (bytes : List UInt8) (name : String) : Except Failure (List UInt8×List ℕ) := do
  let metadata ← file.tensor name
  if metadata.byteLength=0 then pure ([],[])
  else do
    acquire metadata.byteLength
    let absoluteOffset := (file.headerSize+metadata.dataOffset)%2^64
    rejectIf (2^63-1 < absoluteOffset)
      "tensor offset is not representable by the native file API"
    match (Stream.read ⟨bytes,absoluteOffset,[]⟩ metadata.byteLength) with
    | (some buffer,stream) => pure (buffer,stream.touched)
    | (none,_) => safetensorsError ("cannot read tensor "++quoteName name)

/-- An F32 entry. -/
def floatEntry (shape : List ℕ) (start finish : ℕ) : Json :=
  .object [("dtype",.string "F32"),("shape",.array (shape.map fun d : ℕ => .integer d)),
    ("data_offsets",.array [.integer start,.integer finish])]

section Parsing

variable {α β ε : Type} {f : α → Except ε β}

/-- A size is a number that fits a word. -/
theorem checkedSize_ok_iff {field name : String} {json : Json} {n : ℕ} :
    checkedSize field name json=.ok n ↔ json=.integer n ∧ n < 2^64 := by
  unfold checkedSize
  split
  · rename_i z
    split
    · rename_i hrange
      constructor
      · intro h
        cases h
        refine ⟨by rw [Int.toNat_of_nonneg hrange.1],by omega⟩
      · rintro ⟨h,-⟩
        cases h
        rw [Int.toNat_natCast]
    · rename_i hrange
      constructor
      · intro h
        cases h
      · rintro ⟨h,hn⟩
        cases h
        exact absurd ⟨by omega,by omega⟩ hrange
  · rename_i hother
    constructor
    · intro h
      cases h
    · rintro ⟨h,-⟩
      exact absurd h (hother _)

/-- A factor of the checked product. -/
theorem checkedFactor_ok_iff {name : String} {a d b : ℕ} :
    checkedFactor name a d=.ok b ↔ a*d < 2^64 ∧ b=a*d := by
  have hfits : ¬(d≠0 ∧ (2^64-1)/d < a) ↔ a*d < 2^64 := by
    rcases Nat.eq_zero_or_pos d with rfl|hd
    · rw [Nat.mul_zero]
      exact ⟨fun _ => by omega,fun _ h => absurd rfl h.1⟩
    · rw [not_and,Nat.not_lt,Nat.le_div_iff_mul_le hd]
      constructor
      · intro h
        have hle := h (by omega)
        omega
      · intro h _
        omega
  unfold checkedFactor safetensorsError
  rw [check_iff,hfits]
  refine and_congr_right fun hless => ?_
  rw [Nat.mod_eq_of_lt hless]
  exact ⟨fun h => (Except.ok.inj h).symm,fun h => by rw [h]⟩

/-- The checked product is exact, and given exactly when no leading part of the
shape overflows. -/
theorem checkedProduct_ok_iff {name : String} {shape : List ℕ} {a b : ℕ} (ha : a < 2^64) :
    checkedProduct shape a name=.ok b ↔
      (∀ k,a*(shape.take k).prod < 2^64) ∧ b=a*shape.prod := by
  unfold checkedProduct
  induction shape generalizing a with
  | nil =>
    rw [List.foldlM_nil,List.prod_nil,Nat.mul_one]
    constructor
    · intro h
      cases h
      refine ⟨fun k => ?_,rfl⟩
      rw [List.take_nil,List.prod_nil,Nat.mul_one]
      exact ha
    · rintro ⟨-,rfl⟩
      rfl
  | cons d shape ih =>
    rw [List.foldlM_cons,call_bind,List.prod_cons,←Nat.mul_assoc]
    constructor
    · rintro ⟨c,hc,h⟩
      obtain ⟨hless,rfl⟩ := checkedFactor_ok_iff.mp hc
      obtain ⟨hall,hb⟩ := (ih hless).mp h
      refine ⟨fun k => ?_,hb⟩
      cases k with
      | zero =>
        rw [List.take_zero,List.prod_nil,Nat.mul_one]
        exact ha
      | succ k =>
        rw [List.take_succ_cons,List.prod_cons,←Nat.mul_assoc]
        exact hall k
    · rintro ⟨hall,hb⟩
      have hone := hall 1
      rw [List.take_succ_cons,List.take_zero,List.prod_singleton] at hone
      refine ⟨a*d,checkedFactor_ok_iff.mpr ⟨hone,rfl⟩,(ih hone).mpr ⟨fun k => ?_,hb⟩⟩
      have hnext := hall (k+1)
      rw [List.take_succ_cons,List.prod_cons,←Nat.mul_assoc] at hnext
      exact hnext

/-- No leading part of a shape overflows. -/
def Guarded (tensor : TensorMetadata) : Prop :=
  ∀ k,dataTypeBytes tensor.dtype*(tensor.shape.take k).prod < 2^64

/-- An entry that describes a tensor: a supported dtype, a shape, and offsets
that are the product of the shape apart. -/
inductive Describes : Json → TensorMetadata → Prop
  | entry (members : List (String×Json)) (dtype : String) (dims : List Json) (first last : Json)
    (tensor : TensorMetadata)
    (hdtype : members.lookup "dtype"=some (.string dtype))
    (hsupported : dtypeNames.lookup dtype=some tensor.dtype)
    (hshape : members.lookup "shape"=some (.array dims))
    (hdims : dims.map Json.number=tensor.shape.map fun d : ℕ => some (d : ℤ))
    (hoffsets : members.lookup "data_offsets"=some (.array [first,last]))
    (hfirst : first.number=some (tensor.dataOffset : ℤ))
    (hlast : last.number=some ((tensor.dataOffset+tensor.byteLength : ℕ) : ℤ))
    (hlength : tensor.byteLength=tensor.shape.prod*dataTypeBytes tensor.dtype) :
    Describes (.object members) tensor

/-- No number of an entry is written `-0`. -/
def Unsigned (entry : Json) : Prop :=
  ∀ fields,entry=.object fields → ∀ key∈["shape","data_offsets"],∀ items,
    fields.lookup key=some (.array items) → .negativeZero∉items

/-- Elements are at most eight bytes wide. -/
theorem dataTypeBytes_le (dtype : DataType) : dataTypeBytes dtype ≤ 8 := by
  cases dtype <;> decide

/-- A shape is read when all its dimensions are words. -/
theorem mapM_checkedSize_iff {field name : String} {items : List Json} {shape : List ℕ} :
    items.mapM (checkedSize field name)=.ok shape ↔
      items=shape.map (fun d => .integer (d : ℤ)) ∧ ∀ d∈shape,d < 2^64 := by
  rw [mapM_ok_iff]
  induction items generalizing shape with
  | nil =>
    cases shape with
    | nil => exact ⟨fun _ => ⟨rfl,fun d hd => absurd hd List.not_mem_nil⟩,fun _ => rfl⟩
    | cons d shape => exact ⟨nofun,fun h => nomatch h.1⟩
  | cons item items ih =>
    cases shape with
    | nil => exact ⟨nofun,fun h => nomatch h.1⟩
    | cons d shape =>
      rw [List.map_cons,List.map_cons,List.map_cons,List.cons.injEq,List.cons.injEq,ih,
        checkedSize_ok_iff,List.forall_mem_cons]
      constructor
      · rintro ⟨⟨hitem,hd⟩,hitems,hshape⟩
        exact ⟨⟨hitem,hitems⟩,hd,hshape⟩
      · rintro ⟨⟨hitem,hitems⟩,hd,hshape⟩
        exact ⟨⟨hitem,hd⟩,hitems,hshape⟩

/-- A dtype is read when it is supported. -/
theorem parseDtype_ok_iff {value name : String} {dtype : DataType} :
    parseDtype value name=.ok dtype ↔ dtypeNames.lookup value=some dtype := by
  unfold parseDtype
  split
  · rename_i found hfound
    rw [hfound]
    exact ⟨fun h => congrArg some (Except.ok.inj h),fun h => congrArg Except.ok (Option.some.inj h)⟩
  · rename_i hnone
    rw [hnone]
    exact ⟨nofun,nofun⟩

/-- A literal without a sign is determined by its value. -/
theorem eq_integer_of_number {json : Json} {n : ℕ} (h : json.number=some (n : ℤ))
    (hunsigned : json≠.negativeZero) : json=.integer n := by
  cases json with
  | integer z =>
    cases h
    rfl
  | negativeZero => exact absurd rfl hunsigned
  | _ => cases h

/-- So is a list of literals without signs. -/
theorem eq_integers_of_numbers {items : List Json} {shape : List ℕ}
    (h : items.map Json.number=shape.map fun d : ℕ => some (d : ℤ))
    (hunsigned : .negativeZero∉items) : items=shape.map fun d : ℕ => .integer d := by
  induction items generalizing shape with
  | nil =>
    cases shape with
    | nil => rfl
    | cons d shape => cases h
  | cons item items ih =>
    cases shape with
    | nil => cases h
    | cons d shape =>
      rw [List.map_cons,List.map_cons,List.cons.injEq] at h
      rw [List.mem_cons,not_or] at hunsigned
      rw [List.map_cons,eq_integer_of_number h.1 (Ne.symm hunsigned.1),ih h.2 hunsigned.2]

/-- Literals without signs have their values. -/
theorem numbers_of_integers (shape : List ℕ) :
    (shape.map fun d : ℕ => Json.integer d).map Json.number=
      shape.map fun d : ℕ => some (d : ℤ) := by
  rw [List.map_map]
  rfl

/-- None of them is `-0`. -/
theorem unsigned_integers (shape : List ℕ) :
    .negativeZero∉shape.map fun d : ℕ => Json.integer d := by
  intro hmem
  obtain ⟨d,-,heq⟩ := List.mem_map.mp hmem
  cases heq

/-- The length of a described tensor. -/
theorem Describes.length {json : Json} {tensor : TensorMetadata} (h : Describes json tensor) :
    tensor.byteLength=tensor.shape.prod*dataTypeBytes tensor.dtype := by
  cases h with
  | entry _ _ _ _ _ _ _ _ _ _ _ _ _ hlength => exact hlength

/-- The native parser reads a description without signs whose numbers are words
and whose shape is guarded. -/
theorem parseTensor_ok_iff {name : String} {json : Json} {tensor : TensorMetadata} :
    parseTensor name json=.ok tensor ↔ Describes json tensor ∧ Unsigned json ∧ Guarded tensor ∧
      (∀ d∈tensor.shape,d < 2^64) ∧ tensor.dataOffset+tensor.byteLength < 2^64 := by
  constructor
  · intro h
    unfold parseTensor at h
    split at h
    · rename_i members
      split at h
      · rename_i dtype shape start finish hdtype hshape hoffsets
        unfold parseParts at h
        simp only [call_bind] at h
        obtain ⟨kind,hkind,dims,hdims,first,hfirst,last,hlast,_,hordered,bytes,hbytes,_,hsame,h⟩ := h
        cases h
        obtain ⟨rfl,hwords⟩ := mapM_checkedSize_iff.mp hdims
        obtain ⟨rfl,-⟩ := checkedSize_ok_iff.mp hfirst
        obtain ⟨rfl,hless⟩ := checkedSize_ok_iff.mp hlast
        rw [rejectIf_ok] at hordered hsame
        have hwidth := dataTypeBytes_le kind
        obtain ⟨hguard,hbytes⟩ := (checkedProduct_ok_iff (by omega)).mp hbytes
        have hend : first+(last-first)=last := by omega
        refine ⟨.entry members dtype _ _ _ ⟨kind,dims,first,last-first⟩ hdtype
          (parseDtype_ok_iff.mp hkind) hshape (numbers_of_integers dims) hoffsets rfl ?_ ?_,?_,
          hguard,hwords,?_⟩
        · rw [hend]
          rfl
        · change last-first=dims.prod*dataTypeBytes kind
          rw [Nat.mul_comm,←hbytes]
          omega
        · intro fields hfields key hkey items hitems
          cases hfields
          rcases List.mem_cons.mp hkey with rfl|hkey
          · rw [hshape,Option.some.injEq,Json.array.injEq] at hitems
            rw [←hitems]
            exact unsigned_integers dims
          · rw [List.mem_singleton.mp hkey,hoffsets,Option.some.injEq,Json.array.injEq] at hitems
            rw [←hitems]
            exact unsigned_integers [first,last]
        · change first+(last-first) < 2^64
          omega
      · cases h
      · cases h
    · cases h
  · rintro ⟨hdescribes,hunsigned,hguard,hwords,hend⟩
    cases hdescribes with
    | entry members dtype dims first last tensor hdtype hsupported hshape hdims hoffsets hfirst
        hlast hlength =>
      have hwidth := dataTypeBytes_le tensor.dtype
      have hpair := hunsigned members rfl "data_offsets" (.tail _ (.head _)) _ hoffsets
      rw [List.mem_cons,List.mem_singleton,not_or] at hpair
      obtain rfl := eq_integer_of_number hfirst (Ne.symm hpair.1)
      obtain rfl := eq_integer_of_number hlast (Ne.symm hpair.2)
      obtain rfl := eq_integers_of_numbers hdims (hunsigned members rfl "shape" (.head _) _ hshape)
      unfold parseTensor
      simp only [hdtype,hshape,hoffsets]
      unfold parseParts
      simp only [call_bind]
      refine ⟨tensor.dtype,parseDtype_ok_iff.mpr hsupported,tensor.shape,
        mapM_checkedSize_iff.mpr ⟨rfl,hwords⟩,tensor.dataOffset,
        checkedSize_ok_iff.mpr ⟨rfl,by omega⟩,tensor.dataOffset+tensor.byteLength,
        checkedSize_ok_iff.mpr ⟨rfl,hend⟩,(),rejectIf_ok.mpr (by omega),tensor.byteLength,
        (checkedProduct_ok_iff (by omega)).mpr ⟨hguard,?_⟩,(),rejectIf_ok.mpr (by omega),?_⟩
      · rw [hlength,Nat.mul_comm]
      · rw [Nat.add_sub_cancel_left]
        rfl

end Parsing

section Headers

variable {members : List (String×Json)} {tensors : List (String×TensorMetadata)}
variable {sorting : RangeSort} {dataSize : ℕ}

/-- First byte of a tensor in the data section. -/
def start (t : String×TensorMetadata) : ℕ := t.2.dataOffset

/-- The byte after its last one. -/
def finish (t : String×TensorMetadata) : ℕ := t.2.dataOffset+t.2.byteLength

/-- Sorting by name keeps the members. -/
theorem byName_perm {α : Type} (xs : List (String×α)) : (byName xs).Perm xs :=
  List.perm_insertionSort _ xs

/-- Distinct names are sorted strictly. -/
theorem byName_sorted {α : Type} {xs : List (String×α)} (h : (xs.map Prod.fst).Nodup) :
    ((byName xs).map Prod.fst).Pairwise (· < ·) := by
  have htotal : Std.Total fun a b : String×α => a.1 ≤ b.1 := ⟨fun a b => le_total _ _⟩
  have htrans : IsTrans (String×α) fun a b => a.1 ≤ b.1 := ⟨fun a b c => le_trans⟩
  have hsorted := List.pairwise_insertionSort (fun a b : String×α => a.1 ≤ b.1) xs
  have hnodup := ((byName_perm xs).map Prod.fst).nodup_iff.mpr h
  have hdistinct : (byName xs).Pairwise fun a b => a.1≠b.1 := List.pairwise_map.mp hnodup
  refine List.pairwise_map.mpr ((hsorted.and hdistinct).imp fun {a b} hab => ?_)
  exact lt_of_le_of_ne hab.1 hab.2

/-- The loop over the ranges is a sweep. -/
theorem checkRanges_ok_iff {previous : ℕ} {ranges : List (String×TensorMetadata)}
    (hwords : ∀ t∈ranges,finish t < 2^64) :
    checkRanges dataSize previous ranges=.ok () ↔
      sweeps start finish dataSize previous ranges=true := by
  induction ranges generalizing previous with
  | nil => exact ⟨fun _ => rfl,fun _ => rfl⟩
  | cons t ranges ih =>
    obtain ⟨name,tensor⟩ := t
    have hword : tensor.dataOffset+tensor.byteLength < 2^64 := hwords _ List.mem_cons_self
    unfold checkRanges sweeps
    simp only [call_bind]
    rw [Bool.and_eq_true,Bool.and_eq_true,decide_eq_true_eq,decide_eq_true_eq,
      Nat.mod_eq_of_lt hword,and_assoc,←ih fun t ht => hwords t (.tail _ ht)]
    unfold start finish
    simp only
    constructor
    · rintro ⟨_,hafter,_,hinside,h⟩
      rw [rejectIf_ok] at hafter hinside
      exact ⟨by omega,by omega,h⟩
    · rintro ⟨hafter,hinside,h⟩
      exact ⟨(),rejectIf_ok.mpr (by omega),(),rejectIf_ok.mpr (by omega),h⟩

/-- A member is parsed under its name. -/
theorem parseMember_ok_iff {member : String×Json} {t : String×TensorMetadata} :
    parseMember member=.ok t ↔ t.1=member.1 ∧ parseTensor member.1 member.2=.ok t.2 := by
  unfold parseMember
  cases parseTensor member.1 member.2 with
  | error e => exact ⟨nofun,fun h => nomatch h.2⟩
  | ok tensor =>
    constructor
    · intro h
      cases h
      exact ⟨rfl,rfl⟩
    · rintro ⟨hname,htensor⟩
      cases htensor
      rw [←hname]
      rfl

/-- Parsing keeps the names. -/
theorem parsed_names {ms : List (String×Json)} {parsed : List (String×TensorMetadata)}
    (h : ms.mapM parseMember=.ok parsed) : parsed.map Prod.fst=ms.map Prod.fst := by
  induction ms generalizing parsed with
  | nil =>
    cases h
    rfl
  | cons m ms ih =>
    rw [List.mapM_cons,call_bind] at h
    obtain ⟨t,ht,h⟩ := h
    rw [call_bind] at h
    obtain ⟨ts,hts,h⟩ := h
    cases h
    rw [List.map_cons,List.map_cons,(parseMember_ok_iff.mp ht).1,ih hts]

/-- The native reader accepts a header that has tensors, each of which is
parsed, and whose ranges pass the sweep. -/
theorem readHeader_ok_iff : readHeader sorting members dataSize=.ok tensors ↔
    ∃ parsed,(tensorMembers (byName members)).mapM parseMember=.ok parsed ∧ parsed≠[] ∧
      sweeps start finish dataSize 0 (sorting.sort (byName parsed))=true ∧
      tensors=byName parsed := by
  have hwords : ∀ {parsed : List (String×TensorMetadata)},
      (tensorMembers (byName members)).mapM parseMember=.ok parsed →
      ∀ t∈sorting.sort (byName parsed),finish t < 2^64 := by
    intro parsed hparsed t ht
    have hmem := (byName_perm parsed).mem_iff.mp ((sorting.perm _).mem_iff.mp ht)
    obtain ⟨member,-,hmember⟩ := exists_of_mem_result hparsed hmem
    exact (parseTensor_ok_iff.mp (parseMember_ok_iff.mp hmember).2).2.2.2.2
  unfold readHeader
  simp only [call_bind]
  constructor
  · rintro ⟨parsed,hparsed,_,hsome,_,hranges,h⟩
    cases h
    exact ⟨parsed,hparsed,rejectIf_ok.mp hsome,
      (checkRanges_ok_iff (hwords hparsed)).mp hranges,rfl⟩
  · rintro ⟨parsed,hparsed,hsome,hsweeps,rfl⟩
    exact ⟨parsed,hparsed,(),rejectIf_ok.mpr hsome,(),
      (checkRanges_ok_iff (hwords hparsed)).mpr hsweeps,rfl⟩

/-- What is known of the tensors of an accepted header. -/
structure Accepted (members : List (String×Json)) (dataSize : ℕ)
    (tensors : List (String×TensorMetadata)) : Prop where
  /-- Names are sorted and distinct. -/
  sorted : (tensors.map Prod.fst).Pairwise (· < ·)
  /-- The tensors are those of the entries. -/
  entries : ∀ t,t∈tensors ↔
    t.1≠"__metadata__" ∧ ∃ json,(t.1,json)∈members ∧ parseTensor t.1 json=.ok t.2
  /-- No entry is left out. -/
  complete : ∀ m∈members,m.1≠"__metadata__" → ∃ tensor,(m.1,tensor)∈tensors
  /-- Every range lies in the data section. -/
  inside : ∀ t∈tensors,finish t ≤ dataSize
  /-- Ranges are disjoint. -/
  apart : tensors.Pairwise fun a b => finish a ≤ start b ∨ finish b ≤ start a

/-- The native reader establishes these facts. -/
theorem accepted_of_readHeader (hdistinct : (members.map Prod.fst).Nodup)
    (h : readHeader sorting members dataSize=.ok tensors) : Accepted members dataSize tensors := by
  obtain ⟨parsed,hparsed,-,hsweeps,rfl⟩ := readHeader_ok_iff.mp h
  have hparse : ∀ t,t∈byName parsed ↔
      t.1≠"__metadata__" ∧ ∃ json,(t.1,json)∈members ∧ parseTensor t.1 json=.ok t.2 := by
    intro t
    rw [(byName_perm parsed).mem_iff]
    constructor
    · intro ht
      obtain ⟨member,hmember,hparse⟩ := exists_of_mem_result hparsed ht
      obtain ⟨hname,hparse⟩ := parseMember_ok_iff.mp hparse
      obtain ⟨hmember,hreal⟩ := List.mem_filter.mp hmember
      have hmember := (byName_perm members).mem_iff.mp hmember
      rw [hname]
      exact ⟨of_decide_eq_true hreal,member.2,hmember,hparse⟩
    · rintro ⟨hreal,json,hmember,hparse⟩
      have hkept : (t.1,json)∈tensorMembers (byName members) := List.mem_filter.mpr
        ⟨(byName_perm members).mem_iff.mpr hmember,decide_eq_true hreal⟩
      obtain ⟨t',ht',hmember⟩ := exists_result_of_mem hparsed hkept
      have hsame : parseMember (t.1,json)=.ok t := parseMember_ok_iff.mpr ⟨rfl,hparse⟩
      rw [hmember] at hsame
      cases hsame
      exact ht'
  have hnames : (parsed.map Prod.fst).Nodup := by
    rw [parsed_names hparsed]
    have hmembers := ((byName_perm members).map Prod.fst).nodup_iff.mpr hdistinct
    exact hmembers.sublist (List.filter_sublist.map Prod.fst)
  have hperm := sorting.perm (byName parsed)
  have hordered : ∀ t∈sorting.sort (byName parsed),start t ≤ finish t :=
    fun t _ => Nat.le_add_right _ _
  obtain ⟨hinside,hafter⟩ := (SortedLists.sweeps_iff hordered).mp hsweeps
  refine ⟨byName_sorted hnames,hparse,fun m hm hreal => ?_,
    fun t ht => (hinside t (hperm.mem_iff.mpr ht)).2,?_⟩
  · have hmember : m∈tensorMembers (byName members) :=
      List.mem_filter.mpr ⟨(byName_perm members).mem_iff.mpr hm,decide_eq_true hreal⟩
    obtain ⟨t,ht⟩ := mapM_exists_iff.mp ⟨parsed,hparsed⟩ m hmember
    obtain ⟨hname,hparsed⟩ := parseMember_ok_iff.mp ht
    exact ⟨t.2,(hparse (m.1,t.2)).mpr ⟨hreal,m.2,hm,hparsed⟩⟩
  · refine (hperm.pairwise_iff (fun {a b} h => h.symm)).mp (hafter.imp fun {a b} hab => ?_)
    exact .inl hab

end Headers

section Lookups

variable {file : SafetensorsFile} {name : String} {metadata : TensorMetadata}

/-- `tensor` finds exactly the tensors of the file. -/
theorem tensor_ok_iff (hsorted : (file.tensors.map Prod.fst).Pairwise (· < ·)) :
    file.tensor name=.ok metadata ↔ (name,metadata)∈file.tensors := by
  unfold SafetensorsFile.tensor
  simp only
  constructor
  · intro h
    split at h
    · rename_i found hfound
      split at h
      · rename_i hname
        cases h
        rw [←hname]
        exact List.mem_of_getElem? hfound
      · cases h
    · cases h
  · intro hmem
    obtain ⟨i,hi,hget⟩ := List.getElem_of_mem hmem
    have hname : (file.tensors.map Prod.fst)[i]?=some name := by
      rw [List.getElem?_map,List.getElem?_eq_getElem hi,hget,Option.map_some]
    obtain ⟨hat,-⟩ := (SortedLists.lowerBound_found hsorted).mpr hname
    rw [hat,List.getElem?_eq_getElem hi,hget]
    simp only [if_true]

end Lookups

end Hllm.SafetensorsReader
