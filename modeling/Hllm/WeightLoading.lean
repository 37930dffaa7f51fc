import Hllm.WeightChunks

/-!
# Weights of accepted files

What the inspection of a stage has established about the files of its weights,
and what follows for reading them: reads stay in the payloads, the decoding in
chunks gives what decoding the whole payload would, and its buffers fit the
workspace that was admitted.
-/

namespace Hllm.WeightLoading

open DenseLoader MemoryAccounting OrderedMap SafetensorsReader WeightChunks WeightEstimates
open ControlModel (Failure)
open WireMessages (LoadStageRequest TensorRecord)

/-- The weight files of a model root, each opened once. -/
def openRoot (parser : JsonParser) (sorting : RangeSort) (root : String → Except Failure DiskFile)
    (name : String) : Except Failure SafetensorsFile := do
  let disk ← root name
  openFile parser sorting disk.bytes

/-- The model root as the inspection sees it. -/
def environment (contained : String → Except Failure Bool)
    (files : String → Except Failure SafetensorsFile) : Environment where
  contained := contained
  openFile name := (files name).map fun file => file.tensor

section Files

variable {parser : JsonParser} {sorting : RangeSort} {bytes : List UInt8} {file : SafetensorsFile}

/-- What is known of an accepted file. -/
structure Opened (parser : JsonParser) (bytes : List UInt8) (file : SafetensorsFile) : Prop where
  size : bytes.length < 2^64
  header : 8 ≤ file.headerSize ∧ file.headerSize ≤ bytes.length
  members : ∃ members,
    parser.parse ((bytes.drop 8).take (file.headerSize-8))=some (.object members) ∧
      Accepted members (bytes.length-file.headerSize) file.tensors

/-- Opening a file establishes these facts. -/
theorem opened_of_ok (h : openFile parser sorting bytes=.ok file) : Opened parser bytes file := by
  unfold openFile at h
  simp only [call_bind,rejectIf_ok] at h
  obtain ⟨_,hsize,_,hshort,_,hheader,_,hinside,members,hmembers,tensors,htensors,h⟩ := h
  cases h
  unfold maximumHeaderBytes at hheader
  have hless : 8+readLittleEndian (bytes.take 8) < 2^64 := by omega
  rw [Nat.mod_eq_of_lt hless] at htensors ⊢
  unfold parseHeader at hmembers
  split at hmembers
  · cases hmembers
  · rename_i members' hparse
    cases hmembers
    refine ⟨by omega,by simp only; omega,members,?_,
      accepted_of_readHeader (parser.distinct _ _ hparse) htensors⟩
    simp only [Nat.add_sub_cancel_left]
    exact hparse
  · cases hmembers

variable {name : String} {metadata : TensorMetadata}

/-- A tensor that is found is one of the file. -/
theorem Opened.mem (h : Opened parser bytes file) (hfound : file.tensor name=.ok metadata) :
    (name,metadata)∈file.tensors := by
  obtain ⟨members,-,haccepted⟩ := h.members
  exact (tensor_ok_iff haccepted.sorted).mp hfound

/-- Its payload lies in the file. -/
theorem Opened.inside (h : Opened parser bytes file) (hfound : file.tensor name=.ok metadata) :
    file.headerSize+metadata.dataOffset+metadata.byteLength ≤ bytes.length := by
  obtain ⟨members,-,haccepted⟩ := h.members
  have hinside : metadata.dataOffset+metadata.byteLength ≤ bytes.length-file.headerSize :=
    haccepted.inside _ (h.mem hfound)
  have hheader := h.header.2
  omega

/-- Its length is that of its shape. -/
theorem Opened.length (h : Opened parser bytes file) (hfound : file.tensor name=.ok metadata) :
    metadata.byteLength=metadata.shape.prod*dataTypeBytes metadata.dtype := by
  obtain ⟨members,-,haccepted⟩ := h.members
  obtain ⟨-,json,-,hparse⟩ := (haccepted.entries _).mp (h.mem hfound)
  exact (parseTensor_ok_iff.mp hparse).1.length

end Files

section Inspection

variable {contained : String → Except Failure Bool}
variable {files : String → Except Failure SafetensorsFile}
variable {records : List (String×TensorRecord)} {mixed redundant : Bool}
variable {state result : Collected} {entry : String×ExpectedTensor}

/-- A collected tensor was found in its file, with a shape whose conversion to
F32 has a size. -/
structure Held (files : String → Except Failure SafetensorsFile)
    (records : List (String×TensorRecord)) (largest : ℕ) (tensor : String×TensorSource) :
    Prop where
  record : ∃ record,records.lookup tensor.1=some record ∧ tensor.2.file=record.file
  found : ∃ file metadata,files tensor.2.file=.ok file ∧ file.tensor tensor.1=.ok metadata ∧
    metadata.dtype=tensor.2.dtype ∧ metadata.shape=tensor.2.shape ∧
    metadata.byteLength ≤ largest
  dtype : weightDtypeNumber tensor.2.dtype≠none
  sized : ∃ elements bytes,tensor.2.shape.foldlM multiply 1=.ok elements ∧
    multiply elements 4=.ok bytes

/-- What holds of a source while its tensors are collected. -/
structure Collecting (files : String → Except Failure SafetensorsFile)
    (records : List (String×TensorRecord)) (source : DenseSource) : Prop where
  held : ∀ tensor∈source.tensors,Held files records source.largestPayloadBytes tensor
  noHead : source.redundantHeadFile=none

/-- A file that the inspection has opened. -/
theorem environment_file {name : String} {read : String → Except Failure TensorMetadata}
    (h : (environment contained files).openFile name=.ok read) :
    ∃ file,files name=.ok file ∧ read=file.tensor := by
  unfold environment at h
  simp only at h
  cases hfile : files name with
  | error e =>
    rw [hfile] at h
    cases h
  | ok file =>
    rw [hfile] at h
    cases h
    exact ⟨file,rfl,rfl⟩

/-- A checked tensor was found in the file of its record. -/
theorem checkTensor_found {record : TensorRecord} {metadata : TensorMetadata}
    (h : checkTensor (environment contained files) records entry=.ok (record,metadata)) :
    records.lookup entry.1=some record ∧
    (∃ file,files record.file=.ok file ∧ file.tensor entry.1=.ok metadata) ∧
    weightDtypeNumber metadata.dtype≠none ∧ metadata.shape=entry.2.shape := by
  unfold checkTensor at h
  simp only [call_bind,rejectIf_ok] at h
  obtain ⟨found,hfound,_,-,inside,-,_,-,read,hread,tensor,htensor,_,hmatch,h⟩ := h
  cases h
  obtain ⟨file,hfile,rfl⟩ := environment_file hread
  rw [not_or,not_or,not_not,not_not] at hmatch
  refine ⟨?_,⟨file,hfile,htensor⟩,?_,hmatch.2.1⟩
  · split at hfound
    · cases hfound
    · rename_i hlookup
      cases hfound
      exact hlookup
  · rw [hmatch.1]
    exact Option.some_ne_none _

/-- A tensor that was held is held when larger ones are collected. -/
theorem Held.mono {largest largest' : ℕ} {tensor : String×TensorSource}
    (h : Held files records largest tensor) (hle : largest ≤ largest') :
    Held files records largest' tensor := by
  obtain ⟨file,metadata,hfile,hfound,hdtype,hshape,hbytes⟩ := h.found
  exact ⟨h.record,⟨file,metadata,hfile,hfound,hdtype,hshape,by omega⟩,h.dtype,h.sized⟩

/-- Collecting a checked tensor. -/
theorem collect_held {record : TensorRecord} {metadata : TensorMetadata}
    (hstate : Collecting files records state.1)
    (hchecked : checkTensor (environment contained files) records entry=.ok (record,metadata))
    (h : collect mixed state entry record metadata=.ok result) :
    Collecting files records result.1 := by
  obtain ⟨hrecord,⟨file,hfile,hfound⟩,hdtype,hshape⟩ := checkTensor_found hchecked
  unfold collect at h
  simp only [call_bind] at h
  obtain ⟨elements,helements,bytes,hbytes,total,-,h⟩ := h
  have hsource : ∀ source : DenseSource,
      source.tensors=emplace state.1.tensors (entry.1,⟨record.file,entry.2.shape,metadata.dtype⟩) →
      source.largestPayloadBytes=max state.1.largestPayloadBytes metadata.byteLength →
      source.redundantHeadFile=state.1.redundantHeadFile → Collecting files records source := by
    intro source htensors hlargest hhead
    refine ⟨fun tensor htensor => ?_,hhead.trans hstate.noHead⟩
    rw [htensors] at htensor
    rw [hlargest]
    rcases mem_emplace.mp htensor with hold|⟨rfl,-⟩
    · exact (hstate.held tensor hold).mono (Nat.le_max_left _ _)
    · exact ⟨⟨record,hrecord,rfl⟩,⟨file,metadata,hfile,hfound,rfl,hshape,Nat.le_max_right _ _⟩,
        hdtype,⟨elements,bytes,helements,hbytes⟩⟩
  split at h
  · rw [call_bind] at h
    obtain ⟨group,-,h⟩ := h
    cases h
    exact hsource _ rfl rfl rfl
  · cases h
    exact hsource _ rfl rfl rfl

/-- One round of the inspection. -/
theorem inspectTensor_held (hstate : Collecting files records state.1)
    (h : inspectTensor (environment contained files) records mixed redundant state entry=
      .ok result) : Collecting files records result.1 := by
  unfold inspectTensor at h
  rw [call_bind] at h
  obtain ⟨⟨record,metadata⟩,hchecked,h⟩ := h
  have hopened : Collecting files records (opened state.1 record.file) := by
    unfold opened
    split
    · exact hstate
    · exact ⟨hstate.held,hstate.noHead⟩
  simp only at h
  split at h
  · cases h
    exact hopened
  · exact @collect_held contained files records mixed (opened state.1 record.file,state.2) _ entry
      record metadata hopened hchecked h

/-- The whole inspection. -/
theorem foldlM_inspectTensor_held {expected : List (String×ExpectedTensor)}
    (hstate : Collecting files records state.1)
    (h : expected.foldlM (inspectTensor (environment contained files) records mixed redundant)
      state=.ok result) : Collecting files records result.1 := by
  induction expected generalizing state with
  | nil =>
    cases h
    exact hstate
  | cons entry expected ih =>
    rw [List.foldlM_cons,call_bind] at h
    obtain ⟨next,hnext,h⟩ := h
    exact ih (inspectTensor_held hstate hnext) h

/-- What is known of the weights of an accepted stage. -/
structure Loadable (files : String → Except Failure SafetensorsFile) (source : DenseSource) :
    Prop where
  tensor : ∀ name tensor,source.tensors.lookup name=some tensor →
    (∃ file metadata,files tensor.file=.ok file ∧ file.tensor name=.ok metadata ∧
      metadata.dtype=tensor.dtype ∧ metadata.shape=tensor.shape ∧
      metadata.byteLength ≤ source.largestPayloadBytes) ∧
    weightDtypeNumber tensor.dtype≠none ∧
    ∃ elements bytes,tensor.shape.foldlM multiply 1=.ok elements ∧
      multiply elements 4=.ok bytes
  head : ∀ headFile,source.redundantHeadFile=some headFile →
    ∃ file metadata,files headFile=.ok file ∧ file.tensor "lm_head.weight"=.ok metadata ∧
      source.verificationWorkspaceBytes=min metadata.byteLength (1024*1024) ∧
      ∀ tensor embeddingFile embedding,
        source.tensors.lookup "model.embed_tokens.weight"=some tensor →
        files tensor.file=.ok embeddingFile →
        embeddingFile.tensor "model.embed_tokens.weight"=.ok embedding →
        embedding.byteLength=metadata.byteLength

/-- A checked head is as long as the embedding. -/
theorem checkRedundantHead_loadable {source source' : DenseSource}
    (hsource : Collecting files records source)
    (h : checkRedundantHead (environment contained files) records source=.ok source') :
    source'.tensors=source.tensors ∧ source'.largestPayloadBytes=source.largestPayloadBytes ∧
    ∃ headFile file metadata,source'.redundantHeadFile=some headFile ∧
      files headFile=.ok file ∧ file.tensor "lm_head.weight"=.ok metadata ∧
      source'.verificationWorkspaceBytes=min metadata.byteLength (1024*1024) ∧
      ∀ tensor embeddingFile embedding,
        source.tensors.lookup "model.embed_tokens.weight"=some tensor →
        files tensor.file=.ok embeddingFile →
        embeddingFile.tensor "model.embed_tokens.weight"=.ok embedding →
        embedding.byteLength=metadata.byteLength := by
  unfold checkRedundantHead at h
  split at h
  · rename_i embeddingRecord headRecord hembedding hhead
    simp only [call_bind,rejectIf_ok] at h
    obtain ⟨readEmbedding,hreadEmbedding,embedding,hfoundEmbedding,readHead,hreadHead,head,
      hfoundHead,_,hmatch,h⟩ := h
    obtain ⟨embeddingFile,hembeddingFile,rfl⟩ := environment_file hreadEmbedding
    obtain ⟨headFile,hheadFile,rfl⟩ := environment_file hreadHead
    rw [not_or,not_or,not_not,not_not,not_not] at hmatch
    cases h
    refine ⟨rfl,rfl,headRecord.file,headFile,head,rfl,hheadFile,hfoundHead,rfl,?_⟩
    intro tensor embeddingFile' embedding' htensor hfile hfound
    obtain ⟨record,hrecord,hname⟩ := (hsource.held _ (mem_of_lookup htensor)).record
    rw [hembedding] at hrecord
    cases hrecord
    simp only at hname
    rw [hname,hembeddingFile] at hfile
    cases hfile
    rw [hfoundEmbedding] at hfound
    cases hfound
    exact hmatch.2.2
  · cases h

/-- An accepted stage can be loaded. -/
theorem loadable_of_inspect {request : LoadStageRequest} {source : DenseSource}
    (h : inspectDenseStage (environment contained files) request=.ok source) :
    Loadable files source := by
  unfold inspectDenseStage at h
  simp only [call_bind] at h
  obtain ⟨_,-,qwen,-,_,-,_,-,_,-,h⟩ := h
  unfold inspectTensors at h
  simp only [call_bind] at h
  obtain ⟨attention,-,kv,-,records,-,_,-,⟨collected,groups⟩,hloop,h⟩ := h
  have hcollected : Collecting files records collected := by
    refine foldlM_inspectTensor_held ?_ hloop
    exact ⟨fun tensor htensor => absurd htensor List.not_mem_nil,rfl⟩
  have htensors : ∀ source' : DenseSource,source'.tensors=collected.tensors →
      source'.largestPayloadBytes=collected.largestPayloadBytes →
      ∀ name tensor,source'.tensors.lookup name=some tensor →
      (∃ file metadata,files tensor.file=.ok file ∧ file.tensor name=.ok metadata ∧
        metadata.dtype=tensor.dtype ∧ metadata.shape=tensor.shape ∧
        metadata.byteLength ≤ source'.largestPayloadBytes) ∧
      weightDtypeNumber tensor.dtype≠none ∧
      ∃ elements bytes,tensor.shape.foldlM multiply 1=.ok elements ∧
        multiply elements 4=.ok bytes := by
    intro source' hsame hlargest name tensor htensor
    rw [hsame] at htensor
    have hheld := hcollected.held _ (mem_of_lookup htensor)
    rw [hlargest]
    exact ⟨hheld.found,hheld.dtype,hheld.sized⟩
  split at h
  · obtain ⟨hsame,hlargest,headFile,file,metadata,hhead,hfile,hfound,hworkspace,hlength⟩ :=
      checkRedundantHead_loadable hcollected h
    refine ⟨htensors source hsame hlargest,fun headFile' hhead' => ?_⟩
    rw [hhead] at hhead'
    cases hhead'
    rw [hsame]
    exact ⟨file,metadata,hfile,hfound,hworkspace,hlength⟩
  · cases h
    refine ⟨htensors _ rfl rfl,fun headFile hhead => ?_⟩
    rw [hcollected.noHead] at hhead
    cases hhead

end Inspection

section Loads

variable {parser : JsonParser} {sorting : RangeSort} {root : String → Except Failure DiskFile}
variable {source : DenseSource} {disk : String → DiskFile} {name : String}
variable {file : SafetensorsFile} {metadata : TensorMetadata} {tensor : TensorSource}

/-- The bytes a payload is compared with, and where they begin. -/
def comparedHead (source : DenseSource) (files : String → Except Failure SafetensorsFile)
    (disk : String → DiskFile) (name : String) : Option (List UInt8×ℕ) :=
  if name="model.embed_tokens.weight" then
    source.redundantHeadFile.bind fun headFile => (files headFile).toOption.bind fun file =>
      (file.tensor "lm_head.weight").toOption.map fun metadata =>
        ((disk headFile).bytes,file.headerSize+metadata.dataOffset)
  else none

/-- A file of the root was accepted, and its size is a signed word. -/
theorem opened_of_root (h : openRoot parser sorting root name=.ok file) :
    ∃ on : DiskFile,root name=.ok on ∧ Opened parser on.bytes file := by
  unfold openRoot at h
  rw [call_bind] at h
  obtain ⟨on,hroot,h⟩ := h
  exact ⟨on,hroot,opened_of_ok h⟩

/-- The payload of a tensor can be opened. -/
theorem openPayload_ok {on now : DiskFile} (hopened : Opened parser on.bytes file)
    (hfound : file.tensor name=.ok metadata) :
    openPayload file now name=
      .ok (streamAt now.bytes (file.headerSize+metadata.dataOffset) 0) := by
  have hinside := hopened.inside hfound
  have hsize := on.size_lt
  unfold openPayload
  refine call_bind.mpr ⟨metadata,hfound,?_⟩
  refine call_bind.mpr ⟨file.headerSize+metadata.dataOffset,?_,?_⟩
  · exact (add_iff (by omega)).mpr ⟨by omega,rfl⟩
  · exact call_bind.mpr ⟨(),rejectIf_ok.mpr (by omega),rfl⟩

/-- The head an embedding is compared with can be opened. -/
theorem openHead_ok (hload : Loadable (openRoot parser sorting root) source) :
    openHead source (openRoot parser sorting root) disk name=.ok
      ((comparedHead source (openRoot parser sorting root) disk name).map
        fun h => streamAt h.1 h.2 0) := by
  unfold openHead comparedHead
  cases hhead : source.redundantHeadFile with
  | none =>
    simp only [Option.bind_none,ite_self]
    rfl
  | some headFile =>
    simp only
    by_cases hname : name="model.embed_tokens.weight"
    · rw [if_pos hname,if_pos hname]
      obtain ⟨file,metadata,hfile,hfound,-⟩ := hload.head headFile hhead
      obtain ⟨on,-,hopened⟩ := opened_of_root hfile
      refine call_bind.mpr ⟨file,hfile,call_bind.mpr ⟨_,openPayload_ok hopened hfound,?_⟩⟩
      rw [Option.bind_some,hfile,Except.toOption,Option.bind_some,hfound,Except.toOption]
      rfl
    · rw [if_neg hname,if_neg hname]
      rfl

/-- What an embedding is compared with is the head of another tensor of the
same length. -/
theorem comparedHead_found (hload : Loadable (openRoot parser sorting root) source)
    (htensor : source.tensors.lookup name=some tensor)
    (hfile : openRoot parser sorting root tensor.file=.ok file)
    (hfound : file.tensor name=.ok metadata) {head : List UInt8×ℕ}
    (hhead : head∈comparedHead source (openRoot parser sorting root) disk name) :
    ∃ headName headFile headMetadata,source.redundantHeadFile=some headName ∧
      openRoot parser sorting root headName=.ok headFile ∧
      headFile.tensor "lm_head.weight"=.ok headMetadata ∧
      head=((disk headName).bytes,headFile.headerSize+headMetadata.dataOffset) ∧
      headMetadata.byteLength=metadata.byteLength := by
  unfold comparedHead at hhead
  split at hhead
  · rename_i hname
    subst hname
    cases hredundant : source.redundantHeadFile with
    | none =>
      rw [hredundant] at hhead
      cases hhead
    | some headName =>
      obtain ⟨headFile,headMetadata,hheadFile,hheadFound,-,hlength⟩ := hload.head headName hredundant
      rw [hredundant,Option.bind_some,hheadFile,Except.toOption,Option.bind_some,hheadFound,
        Except.toOption] at hhead
      cases hhead
      exact ⟨headName,headFile,headMetadata,rfl,hheadFile,hheadFound,rfl,
        (hlength tensor file metadata htensor hfile hfound).symm⟩
  · cases hhead

/-- The loop begins at the payload of the tensor. -/
theorem openChunks_ok (hload : Loadable (openRoot parser sorting root) source)
    (htensor : source.tensors.lookup name=some tensor) :
    ∃ file metadata,openRoot parser sorting root tensor.file=.ok file ∧
      file.tensor name=.ok metadata ∧
      openChunks source (openRoot parser sorting root) disk name=.ok (tensor,
        initialChunks (disk tensor.file).bytes (file.headerSize+metadata.dataOffset)
          metadata.byteLength (comparedHead source (openRoot parser sorting root) disk name)) ∧
      metadata.byteLength ≤ source.largestPayloadBytes ∧
      metadata.byteLength=tensor.shape.prod*dataTypeBytes tensor.dtype ∧
      (dataTypeBytes tensor.dtype=2 ∨ dataTypeBytes tensor.dtype=4) := by
  obtain ⟨⟨file,metadata,hfile,hfound,hdtype,hshape,hlargest⟩,hsupported,elements,bytes,
    helements,hbytes⟩ := hload.tensor name tensor htensor
  obtain ⟨on,-,hopened⟩ := opened_of_root hfile
  have hlength := hopened.length hfound
  rw [hdtype,hshape] at hlength
  have hwidth : dataTypeBytes tensor.dtype=2 ∨ dataTypeBytes tensor.dtype=4 := by
    generalize tensor.dtype=dtype at hsupported
    cases dtype with
    | f32 => exact .inr rfl
    | f16 => exact .inl rfl
    | bf16 => exact .inl rfl
    | unspecified | bool | u8 | i8 | i16 | u16 | i32 | u32 | i64 | u64 | f64 =>
      exact absurd rfl hsupported
  have hproduct : elements=tensor.shape.prod := by
    rw [foldlM_multiply_ok helements,Nat.one_mul]
  have hremaining : multiply elements (dataTypeBytes tensor.dtype)=.ok metadata.byteLength := by
    have hfits := (multiply_iff.mp hbytes).1
    refine multiply_iff.mpr ⟨?_,by rw [hlength,hproduct]⟩
    rcases hwidth with h|h
    · rw [h]
      omega
    · rw [h]
      exact hfits
  refine ⟨file,metadata,hfile,hfound,?_,hlargest,hlength,hwidth⟩
  unfold openChunks
  refine call_bind.mpr ⟨tensor,?_,call_bind.mpr ⟨(),rejectIf_ok.mpr hsupported,?_⟩⟩
  · unfold tensorAt
    rw [htensor]
  · refine call_bind.mpr ⟨file,hfile,call_bind.mpr ⟨_,openPayload_ok hopened hfound,?_⟩⟩
    refine call_bind.mpr ⟨_,openHead_ok hload,call_bind.mpr ⟨elements,helements,?_⟩⟩
    exact call_bind.mpr ⟨metadata.byteLength,hremaining,rfl⟩

/-- A run over a tensor of an accepted source, which ends in any case. -/
theorem forEachFloat32Chunk_runs (hload : Loadable (openRoot parser sorting root) source)
    (disk : String → DiskFile) (htensor : source.tensors.lookup name=some tensor) :
    ∃ file metadata,openRoot parser sorting root tensor.file=.ok file ∧
      file.tensor name=.ok metadata ∧
      metadata.byteLength ≤ source.largestPayloadBytes ∧
      (dataTypeBytes tensor.dtype=2 ∨ dataTypeBytes tensor.dtype=4) ∧
      ∃ last failure,
        (∀ fuel,metadata.byteLength ≤ fuel →
          forEachFloat32Chunk source (openRoot parser sorting root) disk fuel name=
            .ok (some (last,failure))) ∧
        (failure≠none ↔ Defective tensor.dtype (disk tensor.file).bytes
          (file.headerSize+metadata.dataOffset) metadata.byteLength
          (comparedHead source (openRoot parser sorting root) disk name)) ∧
        (failure=none →
          ((∃ chunks : List (List UInt8),chunks.flatten=payload (disk tensor.file).bytes
              (file.headerSize+metadata.dataOffset) metadata.byteLength ∧
            (∀ chunk∈chunks,dataTypeBytes tensor.dtype ∣ chunk.length) ∧
            last.spans=chunks.map (decodeElements tensor.dtype)) ∧
          last.spans.flatten=decodeElements tensor.dtype (payload (disk tensor.file).bytes
            (file.headerSize+metadata.dataOffset) metadata.byteLength)) ∧
          last.input=streamAt (disk tensor.file).bytes (file.headerSize+metadata.dataOffset)
            metadata.byteLength ∧
          last.head=(comparedHead source (openRoot parser sorting root) disk name).map
            fun h => streamAt h.1 h.2 metadata.byteLength) ∧
        Touched (disk tensor.file).bytes (file.headerSize+metadata.dataOffset)
          metadata.byteLength (comparedHead source (openRoot parser sorting root) disk name)
          last := by
  obtain ⟨file,metadata,hfile,hfound,hopen,hlargest,hlength,hwidth⟩ :=
    @openChunks_ok parser sorting root source disk name tensor hload htensor
  have htotal : dataTypeBytes tensor.dtype ∣ metadata.byteLength :=
    ⟨_,hlength.trans (Nat.mul_comm _ _)⟩
  have hchunk : conversionChunkBytes=1048576 := rfl
  have hcapacity : dataTypeBytes tensor.dtype ∣ min metadata.byteLength conversionChunkBytes := by
    have haligned : dataTypeBytes tensor.dtype ∣ conversionChunkBytes := by
      rcases hwidth with h|h
      · rw [h]
        decide
      · rw [h]
        decide
    rcases Nat.le_total metadata.byteLength conversionChunkBytes with hle|hle
    · rwa [Nat.min_eq_left hle]
    · rwa [Nat.min_eq_right hle]
  obtain ⟨last,failure,hruns,hdefect,hdone,htouched⟩ := @chunkLoop_exact name tensor.dtype
    (min metadata.byteLength conversionChunkBytes) metadata.byteLength (disk tensor.file).bytes
    (file.headerSize+metadata.dataOffset)
    (comparedHead source (openRoot parser sorting root) disk name) hcapacity htotal (by omega)
    (by omega)
  refine ⟨file,metadata,hfile,hfound,hlargest,hwidth,last,failure,fun fuel hfuel => ?_,hdefect,
    fun hnone => ?_,htouched⟩
  · unfold forEachFloat32Chunk
    refine call_bind.mpr ⟨_,hopen,?_⟩
    exact congrArg Except.ok (hruns fuel hfuel)
  · obtain ⟨hchunks,hspans,hstreams⟩ := hdone hnone
    exact ⟨⟨hchunks,hspans⟩,hstreams⟩

end Loads

section Bounds

variable {parser : JsonParser} {sorting : RangeSort} {bytes : List UInt8} {file : SafetensorsFile}

/-- What is read of an accepted file, and where. -/
structure ReadInBounds (parser : JsonParser) (sorting : RangeSort) (bytes : List UInt8)
    (file : SafetensorsFile) : Prop where
  /-- Lengths are exact products. -/
  length : ∀ t∈file.tensors,t.2.byteLength=t.2.shape.prod*dataTypeBytes t.2.dtype
  /-- Ranges lie in the data section. -/
  inside : ∀ t∈file.tensors,t.2.dataOffset+t.2.byteLength ≤ bytes.length-file.headerSize
  /-- No byte belongs to two tensors. -/
  disjoint : file.tensors.Pairwise fun a b => ∀ i,
    ¬((a.2.dataOffset ≤ i ∧ i < a.2.dataOffset+a.2.byteLength) ∧
      b.2.dataOffset ≤ i ∧ i < b.2.dataOffset+b.2.byteLength)
  /-- Names are sorted and unique. -/
  sorted : (file.tensors.map Prod.fst).Pairwise (· < ·)
  /-- A lookup finds the entries of the header, and all of them. -/
  found : ∃ members,
    parser.parse ((bytes.drop 8).take (file.headerSize-8))=some (.object members) ∧
    (∀ name metadata,file.tensor name=.ok metadata ↔
      name≠"__metadata__" ∧ ∃ json,(name,json)∈members ∧ parseTensor name json=.ok metadata) ∧
    ∀ m∈members,m.1≠"__metadata__" → ∃ metadata,file.tensor m.1=.ok metadata
  /-- No addition wraps. -/
  words : bytes.length < 2^64 ∧ ∀ t∈file.tensors,
    file.headerSize+t.2.dataOffset+t.2.byteLength ≤ bytes.length
  /-- Reading a tensor touches its payload. -/
  readTensor : ∀ acquire now name buffer touched,
    file.readTensor acquire now name=.ok (buffer,touched) → ∃ metadata,
      file.tensor name=.ok metadata ∧
      touched=List.range' (file.headerSize+metadata.dataOffset) metadata.byteLength ∧
      buffer=payload now (file.headerSize+metadata.dataOffset) metadata.byteLength
  /-- Loading a weight touches its payload and that of the head, or what comes
  before a defect. -/
  loaded : ∀ contained root request source disk name tensor fuel last failure,
    inspectDenseStage (environment contained (openRoot parser sorting root)) request=.ok source →
    source.tensors.lookup name=some tensor → openRoot parser sorting root tensor.file=.ok file →
    forEachFloat32Chunk source (openRoot parser sorting root) disk fuel name=
      .ok (some (last,failure)) →
    ∃ metadata,file.tensor name=.ok metadata ∧
      (∃ k ≤ metadata.byteLength,(failure=none → k=metadata.byteLength) ∧
        last.input.touched=List.range' (file.headerSize+metadata.dataOffset) k) ∧
      ∀ head∈comparedHead source (openRoot parser sorting root) disk name,
        (∃ headName headFile headMetadata,source.redundantHeadFile=some headName ∧
          openRoot parser sorting root headName=.ok headFile ∧
          headFile.tensor "lm_head.weight"=.ok headMetadata ∧
          head=((disk headName).bytes,headFile.headerSize+headMetadata.dataOffset) ∧
          headMetadata.byteLength=metadata.byteLength) ∧
        ∃ k ≤ metadata.byteLength,(failure=none → k=metadata.byteLength) ∧
          last.head.map (·.touched)=some (List.range' head.2 k)

/-- A read of a tensor delivers its payload. -/
theorem readTensor_ok (hopened : Opened parser bytes file)
    {acquire : ℕ → Except Failure Unit} {now buffer : List UInt8} {name : String}
    {touched : List ℕ} (h : file.readTensor acquire now name=.ok (buffer,touched)) :
    ∃ metadata,file.tensor name=.ok metadata ∧
      touched=List.range' (file.headerSize+metadata.dataOffset) metadata.byteLength ∧
      buffer=payload now (file.headerSize+metadata.dataOffset) metadata.byteLength := by
  unfold SafetensorsFile.readTensor at h
  rw [call_bind] at h
  obtain ⟨metadata,hfound,h⟩ := h
  have hinside := hopened.inside hfound
  have hsize := hopened.size
  refine ⟨metadata,hfound,?_⟩
  split at h
  · rename_i hempty
    cases h
    unfold payload
    rw [hempty,List.take_zero]
    exact ⟨rfl,rfl⟩
  · simp only [call_bind] at h
    obtain ⟨_,-,_,-,h⟩ := h
    rw [Nat.mod_eq_of_lt (by omega)] at h
    have hstream : (⟨now,file.headerSize+metadata.dataOffset,[]⟩ : Stream)=
      streamAt now (file.headerSize+metadata.dataOffset) 0 := rfl
    rw [hstream] at h
    have hread := @streamAt_read now (file.headerSize+metadata.dataOffset) 0 metadata.byteLength
    split at h
    · rename_i raw stream hresult
      cases h
      have hsome := congrArg Prod.fst hresult
      rw [streamAt_read_some] at hsome
      have hnext := congrArg Prod.snd hresult
      rw [hread,hsome.1,hsome.2,Nat.zero_add] at hnext
      have hdelivered := @streamAt_available now (file.headerSize+metadata.dataOffset) 0
        metadata.byteLength metadata.byteLength (by omega)
      rw [hsome.1,List.drop_zero,List.take_of_length_le payload_length_le] at hdelivered
      simp only at hnext
      rw [←hnext]
      exact ⟨rfl,hdelivered⟩
    · cases h

/-- More rounds do not change a load that has ended. -/
theorem forEachFloat32Chunk_mono {source : DenseSource}
    {files : String → Except Failure SafetensorsFile} {disk : String → DiskFile} {fuel more : ℕ}
    {name : String} {result : ChunkState×Option Failure} (hle : fuel ≤ more)
    (h : forEachFloat32Chunk source files disk fuel name=.ok (some result)) :
    forEachFloat32Chunk source files disk more name=.ok (some result) := by
  unfold forEachFloat32Chunk at h ⊢
  rw [call_bind] at h
  obtain ⟨opened,hopened,h⟩ := h
  refine call_bind.mpr ⟨opened,hopened,?_⟩
  exact congrArg Except.ok (chunkLoop_mono hle (Except.ok.inj h))

/-- Accepted files are read in bounds. -/
theorem accepted_read_in_bounds (h : openFile parser sorting bytes=.ok file) :
    ReadInBounds parser sorting bytes file := by
  have hopened := opened_of_ok h
  obtain ⟨members,hparse,haccepted⟩ := hopened.members
  have hheader := hopened.header
  have hfound : ∀ {t},t∈file.tensors → file.tensor t.1=.ok t.2 := fun {t} ht =>
    (tensor_ok_iff haccepted.sorted).mpr ht
  refine ⟨fun t ht => hopened.length (hfound ht),haccepted.inside,?_,haccepted.sorted,
    ⟨members,hparse,fun name metadata => ?_,fun m hm hreal => ?_⟩,
    ⟨hopened.size,fun t ht => hopened.inside (hfound ht)⟩,
    fun acquire now name buffer touched => readTensor_ok hopened,?_⟩
  · refine haccepted.apart.imp fun {a b} hab i hboth => ?_
    unfold start finish at hab
    omega
  · rw [tensor_ok_iff haccepted.sorted]
    exact haccepted.entries (name,metadata)
  · obtain ⟨metadata,hmem⟩ := haccepted.complete m hm hreal
    exact ⟨metadata,hfound hmem⟩
  · intro contained root request source disk name tensor fuel last failure hinspect htensor hfile
      hrun
    obtain ⟨file',metadata,hfile',hmetadata,-,-,last',failure',hruns,-,hdone,htouched⟩ :=
      forEachFloat32Chunk_runs (loadable_of_inspect hinspect) disk htensor
    rw [hfile] at hfile'
    cases hfile'
    have hsame := hruns (max fuel metadata.byteLength) (Nat.le_max_right _ _)
    rw [forEachFloat32Chunk_mono (Nat.le_max_left _ _) hrun] at hsame
    cases hsame
    refine ⟨metadata,hmetadata,?_,fun head hhead => ?_⟩
    · obtain ⟨k,hk,hinput⟩ := htouched.1
      refine ⟨k,hk,fun hnone => ?_,by rw [hinput]; rfl⟩
      have hlengths := congrArg (fun s : Stream => s.position)
        (hinput.symm.trans (hdone hnone).2.1)
      exact Nat.add_left_cancel hlengths
    · refine ⟨comparedHead_found (loadable_of_inspect hinspect) htensor hfile hmetadata hhead,?_⟩
      obtain ⟨k,hk,hinput⟩ := htouched.2 head hhead
      refine ⟨k,hk,fun hnone => ?_,by rw [hinput]; rfl⟩
      have hfull := (hdone hnone).2.2
      rw [Option.mem_def.mp hhead,Option.map_some,hinput,Option.some.injEq] at hfull
      exact Nat.add_left_cancel (congrArg (fun s : Stream => s.position) hfull)

end Bounds

section Examples

/-- Tensors of a checkpoint with one layer and a redundant head. -/
def smallTensors : List (String×PlannerModels.TensorRecord) :=
  [("model.embed_tokens.weight",⟨[1,2],.tokenEmbedding,none⟩),
    ("model.norm.weight",⟨[2],.finalNorm,none⟩),("lm_head.weight",⟨[1,2],.lmHead,none⟩)]++
  (layerShapes {tinyConfig with intermediateSize := 1} 2 2 false).map fun entry =>
    ("model.layers.0."++entry.1,⟨entry.2,.transformerLayer,some 0⟩)

/-- Where they begin and end, one after the other. -/
def layOut : ℕ → List (String×PlannerModels.TensorRecord) →
    List (String×PlannerModels.TensorRecord×ℕ×ℕ)
  | _,[] => []
  | start,(name,tensor)::tensors =>
    let finish := start+tensor.numElements*4
    (name,tensor,start,finish)::layOut finish tensors

/-- The text of an entry of the header. -/
def entryText (entry : String×PlannerModels.TensorRecord×ℕ×ℕ) : List Char :=
  [ '"']++entry.1.toList++ "\":\x7b\"dtype\":\"F32\",\"shape\":[".toList++
    [','].intercalate (entry.2.1.shape.map (Nat.toDigits 10))++ "],\"data_offsets\":[".toList++
    Nat.toDigits 10 entry.2.2.1++[',']++Nat.toDigits 10 entry.2.2.2++ "]\x7d".toList

/-- The text of the header. -/
def headerText (tensors : List (String×PlannerModels.TensorRecord)) : List UInt8 :=
  (['\x7b']++[','].intercalate ((layOut 0 tensors).map entryText)++['\x7d']).map
    fun c => c.toNat.toUInt8

/-- What the header is parsed to. -/
def headerMembers (tensors : List (String×PlannerModels.TensorRecord)) : List (String×Json) :=
  (layOut 0 tensors).map fun entry =>
    (entry.1,floatEntry entry.2.1.shape entry.2.2.1 entry.2.2.2)

/-- A parser as it behaves on this header. -/
def headerParser (tensors : List (String×PlannerModels.TensorRecord))
    (h : ((headerMembers tensors).map Prod.fst).Nodup) : JsonParser where
  parse _ := some (.object (headerMembers tensors))
  distinct := by
    intro text members hparse
    cases hparse
    exact h

/-- A file with these tensors, all zero. -/
def zeroFile (tensors : List (String×PlannerModels.TensorRecord)) : List UInt8 :=
  let header := headerText tensors
  [(header.length%256).toUInt8,(header.length/256).toUInt8,0,0,0,0,0,0]++header++
    List.replicate (4*(tensors.map fun tensor => tensor.2.numElements).sum) 0

/-- The names of the small checkpoint are distinct. -/
theorem smallTensors_distinct : ((headerMembers smallTensors).map Prod.fst).Nodup := by
  decide +kernel

/-- The parser of the small checkpoint. -/
def smallParser : JsonParser := headerParser smallTensors smallTensors_distinct

/-- A sort by data offset. -/
def stableSort : RangeSort where
  sort tensors := tensors.insertionSort fun a b => start a ≤ start b
  perm tensors := List.perm_insertionSort _ tensors
  sorted tensors := by
    have htotal : Std.Total fun a b : String×TensorMetadata => start a ≤ start b :=
      ⟨fun a b => Nat.le_total _ _⟩
    have htrans : IsTrans (String×TensorMetadata) fun a b => start a ≤ start b :=
      ⟨fun a b c hab hbc => Nat.le_trans hab hbc⟩
    exact List.pairwise_insertionSort _ tensors

/-- The file of the small checkpoint is small. -/
theorem smallTensors_length : (zeroFile smallTensors).length < 2^63 := by
  decide +kernel

/-- The file of the small checkpoint. -/
def smallDisk : DiskFile := ⟨zeroFile smallTensors,smallTensors_length⟩

/-- The file of the small checkpoint is accepted with all its tensors, a lookup
finds its head, and it is read in bounds. -/
theorem small_file_read_in_bounds : ∃ file,
    openFile smallParser stableSort smallDisk.bytes=.ok file ∧
    file.tensors.length=smallTensors.length ∧
    (file.tensor "lm_head.weight").toOption.map (·.byteLength)=some 8 ∧
    ReadInBounds smallParser stableSort smallDisk.bytes file := by
  have hrun : (openFile smallParser stableSort smallDisk.bytes).toOption.any (fun file =>
      decide (file.tensors.length=smallTensors.length ∧
        (file.tensor "lm_head.weight").toOption.map (·.byteLength)=some 8))=true := by
    decide +kernel
  cases h : openFile smallParser stableSort smallDisk.bytes with
  | error e =>
    rw [h] at hrun
    cases hrun
  | ok file =>
    rw [h] at hrun
    obtain ⟨hcount,hhead⟩ := of_decide_eq_true hrun
    exact ⟨file,rfl,hcount,hhead,accepted_read_in_bounds h⟩

end Examples

end Hllm.WeightLoading
