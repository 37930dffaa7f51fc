import Hllm.Traversals
import Hllm.WeightEstimates
import Mathlib.Algebra.Order.BigOperators.GroupWithZero.List

/-!
# When a stage passes its inspection

The comparison of the tensors succeeds exactly when every selected record is
expected, every expected tensor passes its own checks, the weights in F32 have
a size in a word, and a redundant head is stored as the embedding is.
-/

namespace Hllm.StageInspection

open DenseLoader MemoryAccounting OrderedMap Traversals WeightEstimates
open ControlModel (Failure)
open WireMessages (StageAssignment)

section Sizes

variable {a b c : ℕ} {shape : List ℕ}

/-- The product of a shape without a zero is computed if it fits a word. -/
theorem foldlM_multiply (hpositive : ∀ d∈shape,0 < d) (h : a*shape.prod < 2^64) :
    shape.foldlM multiply a=.ok (a*shape.prod) := by
  induction shape generalizing a with
  | nil =>
    rw [List.prod_nil,Nat.mul_one]
    rfl
  | cons d shape ih =>
    have hrest : 0 < shape.prod := List.prod_pos fun x hx => hpositive x (.tail _ hx)
    rw [List.prod_cons,←Nat.mul_assoc] at h ⊢
    have hfirst : a*d < 2^64 := Nat.lt_of_le_of_lt (Nat.le_mul_of_pos_right _ hrest) h
    exact foldlM_cons_ok_iff.mpr ⟨a*d,multiply_iff.mpr ⟨hfirst,rfl⟩,
      ih (fun x hx => hpositive x (.tail _ hx)) h⟩

end Sizes

section Loop

variable {env : Environment} {records : List (String×WireMessages.TensorRecord)}
variable {mixed redundant : Bool} {state result : Collected} {entry : String×ExpectedTensor}
variable {expected : List (String×ExpectedTensor)}

/-- Sizes collected so far are words, and no group is larger than the total. -/
structure Room (state : Collected) : Prop where
  bytes : state.1.float32WeightBytes < 2^64
  groups : ∀ group,state.2 group ≤ state.1.float32WeightBytes

/-- A tensor is collected when the total still fits a word. -/
theorem collect_iff (hroom : Room state) (hpositive : ∀ d∈entry.2.shape,0 < d)
    {record : WireMessages.TensorRecord} {tensor : TensorMetadata} :
    (∃ result,collect mixed state entry record tensor=.ok result) ↔
      state.1.float32WeightBytes+entry.2.shape.prod*4 < 2^64 := by
  constructor
  · rintro ⟨result,h⟩
    unfold collect at h
    simp only [call_bind] at h
    obtain ⟨elements,helements,bytes,hbytes,total,htotal,-⟩ := h
    have hsum := ((add_iff hroom.bytes).mp htotal).1
    rw [multiply_ok hbytes,foldlM_multiply_ok helements,Nat.one_mul] at hsum
    exact hsum
  · intro hfits
    have hproduct : entry.2.shape.foldlM multiply 1=.ok entry.2.shape.prod := by
      have hone := @foldlM_multiply 1 entry.2.shape hpositive (by omega)
      rw [Nat.one_mul] at hone
      exact hone
    have hbytes : multiply entry.2.shape.prod 4=.ok (entry.2.shape.prod*4) :=
      multiply_iff.mpr ⟨by omega,rfl⟩
    have htotal : add state.1.float32WeightBytes (entry.2.shape.prod*4)=
        .ok (state.1.float32WeightBytes+entry.2.shape.prod*4) :=
      (add_iff hroom.bytes).mpr ⟨hfits,rfl⟩
    have hgroup := hroom.groups entry.2.layer
    have hlocal : add (state.2 entry.2.layer) (entry.2.shape.prod*4)=
        .ok (state.2 entry.2.layer+entry.2.shape.prod*4) :=
      (add_iff (Nat.lt_of_le_of_lt hgroup hroom.bytes)).mpr ⟨by omega,rfl⟩
    unfold collect
    simp only [call_bind]
    by_cases hcast : mixed=true ∧ (0 ≤ entry.2.layer ∨ state.1.final=true)
    · exact ⟨_,_,hproduct,_,hbytes,_,htotal,by
        rw [if_pos hcast,call_bind]
        exact ⟨_,hlocal,rfl⟩⟩
    · exact ⟨_,_,hproduct,_,hbytes,_,htotal,by
        rw [if_neg hcast]
        rfl⟩

/-- There is room after a tensor was collected. -/
theorem collect_room (hroom : Room state) {record : WireMessages.TensorRecord}
    {tensor : TensorMetadata} (h : collect mixed state entry record tensor=.ok result) :
    Room result := by
  have htotal := collect_ok h
  unfold collect at h
  simp only [call_bind] at h
  obtain ⟨elements,helements,bytes,hbytes,total,hsum,h⟩ := h
  have hfits := ((add_iff hroom.bytes).mp hsum).1
  rw [multiply_ok hbytes,foldlM_multiply_ok helements,Nat.one_mul] at hfits
  split at h
  · rw [call_bind] at h
    obtain ⟨group,hgroup,h⟩ := h
    cases h
    refine ⟨by rw [htotal]; exact hfits,fun other => ?_⟩
    rw [htotal]
    dsimp only
    rw [Function.update_apply]
    split
    · rw [add_ok hgroup,multiply_ok hbytes,foldlM_multiply_ok helements,Nat.one_mul]
      exact Nat.add_le_add_right (hroom.groups _) _
    · exact Nat.le_add_right_of_le (hroom.groups other)
  · cases h
    refine ⟨by rw [htotal]; exact hfits,fun other => ?_⟩
    rw [htotal]
    exact Nat.le_add_right_of_le (hroom.groups other)

/-- Remembering a file changes no size. -/
theorem opened_room (hroom : Room state) (file : String) : Room (opened state.1 file,state.2) := by
  refine ⟨?_,fun group => ?_⟩
  · rw [opened_bytes]
    exact hroom.bytes
  · rw [opened_bytes]
    exact hroom.groups group

/-- An expected tensor is inspected when its checks pass and the total still fits. -/
theorem inspectTensor_iff (hroom : Room state) (hpositive : ∀ d∈entry.2.shape,0 < d) :
    (∃ result,inspectTensor env records mixed redundant state entry=.ok result) ↔
      (∃ checked,checkTensor env records entry=.ok checked) ∧
        state.1.float32WeightBytes+
          (if skips redundant entry.1 then 0 else entry.2.shape.prod*4) < 2^64 := by
  have hskips : skips redundant entry.1=true ↔ redundant=true ∧ entry.1="lm_head.weight" := by
    unfold skips
    rw [Bool.and_eq_true,beq_iff_eq]
  unfold inspectTensor
  simp only [call_bind]
  by_cases hskip : redundant=true ∧ entry.1="lm_head.weight"
  · simp only [if_pos hskip,if_pos (hskips.mpr hskip),Nat.add_zero]
    constructor
    · rintro ⟨result,checked,hchecked,-⟩
      exact ⟨⟨checked,hchecked⟩,hroom.bytes⟩
    · rintro ⟨⟨checked,hchecked⟩,-⟩
      exact ⟨_,checked,hchecked,rfl⟩
  · simp only [if_neg hskip,if_neg (fun h => hskip (hskips.mp h))]
    constructor
    · rintro ⟨result,checked,hchecked,h⟩
      have hfits := (collect_iff (opened_room hroom checked.1.file) hpositive).mp ⟨result,h⟩
      rw [opened_bytes] at hfits
      exact ⟨⟨checked,hchecked⟩,hfits⟩
    · rintro ⟨⟨checked,hchecked⟩,hfits⟩
      rw [←opened_bytes state.1 checked.1.file] at hfits
      have hcollected : ∃ result,
          collect mixed (opened state.1 checked.1.file,state.2) entry checked.1 checked.2=
            .ok result :=
        (collect_iff (opened_room hroom checked.1.file) hpositive).mpr hfits
      obtain ⟨result,h⟩ := hcollected
      exact ⟨result,checked,hchecked,h⟩

/-- There is room after a tensor was inspected. -/
theorem inspectTensor_room (hroom : Room state)
    (h : inspectTensor env records mixed redundant state entry=.ok result) : Room result := by
  unfold inspectTensor at h
  rw [call_bind] at h
  obtain ⟨checked,-,h⟩ := h
  dsimp only at h
  split at h
  · cases h
    exact opened_room hroom _
  · exact collect_room (opened_room hroom _) h

/-- All expected tensors are inspected when each passes its checks and the total
fits a word. -/
theorem foldlM_inspectTensor_iff (hroom : Room state)
    (hpositive : ∀ entry∈expected,∀ d∈entry.2.shape,0 < d) :
    (∃ result,expected.foldlM (inspectTensor env records mixed redundant) state=.ok result) ↔
      (∀ entry∈expected,∃ checked,checkTensor env records entry=.ok checked) ∧
        state.1.float32WeightBytes+expectedBytes redundant expected < 2^64 := by
  induction expected generalizing state with
  | nil =>
    constructor
    · intro _
      exact ⟨fun entry hentry => absurd hentry List.not_mem_nil,hroom.bytes⟩
    · intro _
      exact ⟨state,rfl⟩
  | cons entry expected ih =>
    have hsplit : expectedBytes redundant (entry::expected)=
        (if skips redundant entry.1 then 0 else entry.2.shape.prod*4)+
          expectedBytes redundant expected := by
      unfold expectedBytes
      rw [List.filter_cons]
      cases skips redundant entry.1 with
      | true => simp
      | false => simp
    have hfirst := hpositive entry (.head _)
    have hrest := fun other hother => hpositive other (.tail _ hother)
    rw [hsplit,List.forall_mem_cons,←Nat.add_assoc]
    constructor
    · rintro ⟨result,h⟩
      obtain ⟨next,hnext,h⟩ := foldlM_cons_ok_iff.mp h
      obtain ⟨hchecked,-⟩ := (inspectTensor_iff hroom hfirst).mp ⟨next,hnext⟩
      obtain ⟨hall,hfits⟩ := (ih (inspectTensor_room hroom hnext) hrest).mp ⟨result,h⟩
      rw [(inspectTensor_ok hnext).2] at hfits
      exact ⟨⟨hchecked,hall⟩,hfits⟩
    · rintro ⟨⟨hchecked,hall⟩,hfits⟩
      have hone : ∃ next,inspectTensor env records mixed redundant state entry=.ok next :=
        (inspectTensor_iff hroom hfirst).mpr ⟨hchecked,by omega⟩
      obtain ⟨next,hnext⟩ := hone
      rw [←(inspectTensor_ok hnext).2] at hfits
      obtain ⟨result,h⟩ := (ih (inspectTensor_room hroom hnext) hrest).mpr ⟨hall,hfits⟩
      exact ⟨result,foldlM_cons_ok_iff.mpr ⟨next,hnext,h⟩⟩

end Loop

section Records

variable {tensors : List WireMessages.TensorRecord}
variable {records : List (String×WireMessages.TensorRecord)}

/-- Records with distinct names are indexed. -/
theorem exists_indexed (hfresh : ∀ tensor∈tensors,tensor.name∉records.map Prod.fst)
    (hnodup : (tensors.map (·.name)).Nodup) :
    ∃ result,tensors.foldlM indexRecord records=.ok result := by
  induction tensors generalizing records with
  | nil => exact ⟨records,rfl⟩
  | cons tensor tensors ih =>
    rw [List.map_cons,List.nodup_cons] at hnodup
    have hnew : ¬contains records tensor.name=true := by
      rw [contains_iff]
      exact hfresh tensor (.head _)
    have hnext : indexRecord records tensor=.ok (emplace records (tensor.name,tensor)) :=
      call_bind.mpr ⟨(),rejectIf_ok.mpr hnew,rfl⟩
    obtain ⟨result,h⟩ := @ih (emplace records (tensor.name,tensor)) (fun other hother hmem => by
      rcases key_emplace.mp hmem with hold|heq
      · exact hfresh other (.tail _ hother) hold
      · have hname : other.name∈tensors.map (·.name) := List.mem_map_of_mem hother
        rw [heq] at hname
        exact hnodup.1 hname) hnodup.2
    exact ⟨result,foldlM_cons_ok_iff.mpr ⟨_,hnext,h⟩⟩

/-- Records pass the selection when all that are selected are expected. -/
theorem forM_checkSelected_iff {cfg : WireMessages.ModelConfig} {assignment : StageAssignment}
    {expected : List (String×ExpectedTensor)} (hindexed : Indexed tensors records) :
    records.forM (checkSelected cfg assignment expected)=.ok () ↔
      ∀ tensor∈tensors,isSelected cfg assignment tensor=true →
        tensor.name∈expected.map Prod.fst := by
  rw [forM_ok_iff]
  have hone : ∀ entry : String×WireMessages.TensorRecord,
      checkSelected cfg assignment expected entry=.ok () ↔
        (isSelected cfg assignment entry.2=true → entry.1∈expected.map Prod.fst) := by
    intro entry
    unfold checkSelected
    rw [rejectIf_ok,not_and,Bool.not_eq_false,contains_iff]
  constructor
  · intro h tensor htensor
    exact (hone _).mp (h (tensor.name,tensor) ((hindexed.entries _).mpr ⟨htensor,rfl⟩))
  · intro h entry hentry
    obtain ⟨htensor,hname⟩ := (hindexed.entries entry).mp hentry
    rw [hone,←hname]
    exact h entry.2 htensor

end Records

section Stages

variable {env : Environment} {plan : WireMessages.DeploymentPlan} {cfg : WireMessages.ModelConfig}
variable {assignment : StageAssignment} {tensors : List WireMessages.TensorRecord} {qwen : Bool}
variable {records : List (String×WireMessages.TensorRecord)} {redundant : Bool}

/-- A serialized head next to a tied embedding. -/
def redundantHead (cfg : WireMessages.ModelConfig) (assignment : StageAssignment)
    (records : List (String×WireMessages.TensorRecord)) : Bool :=
  assignment.ownsLmHead && cfg.tiedEmbeddings && contains records "lm_head.weight"

/-- The expected tensors of a stage. -/
def expectedTensors (cfg : WireMessages.ModelConfig) (assignment : StageAssignment)
    (qwen redundant : Bool) : List (String×ExpectedTensor) :=
  emplaceAll [] (expectedEntries cfg assignment (cfg.numAttentionHeads*cfg.headDim)
      (cfg.numKvHeads*cfg.headDim) qwen++
    if redundant then
      [("lm_head.weight",⟨[cfg.vocabularySize,cfg.hiddenSize],roleNumber .lmHead,-1⟩)] else [])

/-- The redundant head is stored as the embedding is. -/
def HeadMatches (env : Environment) (records : List (String×WireMessages.TensorRecord)) : Prop :=
  ∃ embeddingRecord headRecord,
    records.lookup "model.embed_tokens.weight"=some embeddingRecord ∧
    records.lookup "lm_head.weight"=some headRecord ∧
    ∃ readEmbedding readHead embedding head,env.openFile embeddingRecord.file=.ok readEmbedding ∧
      readEmbedding "model.embed_tokens.weight"=.ok embedding ∧
      env.openFile headRecord.file=.ok readHead ∧ readHead "lm_head.weight"=.ok head ∧
      embedding.dtype=head.dtype ∧ embedding.shape=head.shape ∧
      embedding.byteLength=head.byteLength

/-- The check of a redundant head does not depend on what was collected. -/
theorem checkRedundantHead_iff {source : DenseSource} :
    (∃ result,checkRedundantHead env records source=.ok result) ↔ HeadMatches env records := by
  unfold checkRedundantHead HeadMatches
  constructor
  · rintro ⟨result,h⟩
    split at h
    · rename_i embeddingRecord headRecord hembedding hhead
      simp only [call_bind,rejectIf_ok,not_or,not_not] at h
      obtain ⟨readEmbedding,hre,embedding,he,readHead,hrh,head,hh,_,⟨hdtype,hshape,hlength⟩,-⟩ := h
      exact ⟨embeddingRecord,headRecord,hembedding,hhead,readEmbedding,readHead,embedding,head,
        hre,he,hrh,hh,hdtype,hshape,hlength⟩
    · cases h
  · rintro ⟨embeddingRecord,headRecord,hembedding,hhead,readEmbedding,readHead,embedding,head,
      hre,he,hrh,hh,hdtype,hshape,hlength⟩
    rw [hembedding,hhead]
    simp only [call_bind,rejectIf_ok,not_or,not_not]
    exact ⟨_,readEmbedding,hre,embedding,he,readHead,hrh,head,hh,(),⟨hdtype,hshape,hlength⟩,rfl⟩

/-- When the comparison of the tensors succeeds. -/
theorem inspectTensors_iff (hattention : cfg.numAttentionHeads*cfg.headDim < 2^64)
    (hkv : cfg.numKvHeads*cfg.headDim < 2^64)
    (hrecords : tensors.foldlM indexRecord []=.ok records)
    (hredundant : redundantHead cfg assignment records=redundant)
    (hpositive : ∀ entry∈expectedTensors cfg assignment qwen redundant,∀ d∈entry.2.shape,0 < d) :
    (∃ source,inspectTensors env plan cfg assignment tensors qwen=.ok source) ↔
      (∀ tensor∈tensors,isSelected cfg assignment tensor=true →
        tensor.name∈(expectedTensors cfg assignment qwen redundant).map Prod.fst) ∧
      (∀ entry∈expectedTensors cfg assignment qwen redundant,
        ∃ checked,checkTensor env records entry=.ok checked) ∧
      expectedBytes redundant (expectedTensors cfg assignment qwen redundant) < 2^64 ∧
      (redundant=true → HeadMatches env records) := by
  have hroom : Room (initialSource plan cfg assignment qwen,fun _ => 0) :=
    ⟨by change 0 < 2^64; omega,fun _ => Nat.zero_le _⟩
  have hzero : (initialSource plan cfg assignment qwen).float32WeightBytes=0 := rfl
  have hloop := @foldlM_inspectTensor_iff env records plan.weightDtype.isSome redundant _ _
    hroom hpositive
  dsimp only at hloop
  rw [hzero,Nat.zero_add] at hloop
  subst hredundant
  have hindexed := indexed_of_ok hrecords
  unfold inspectTensors
  simp only [call_bind]
  constructor
  · rintro ⟨source,attention,hmultiply,kv,hmultiply',index,hindex,_,hselected,⟨collected,groups⟩,
      hcollected,h⟩
    rw [hrecords] at hindex
    cases hindex
    cases multiply_ok hmultiply
    cases multiply_ok hmultiply'
    obtain ⟨hchecked,hfits⟩ := hloop.mp ⟨(collected,groups),hcollected⟩
    refine ⟨(forM_checkSelected_iff hindexed).mp hselected,hchecked,hfits,fun hflag => ?_⟩
    unfold redundantHead at hflag
    rw [if_pos hflag] at h
    exact checkRedundantHead_iff.mp ⟨source,h⟩
  · rintro ⟨hselected,hchecked,hfits,hhead⟩
    obtain ⟨⟨collected,groups⟩,hcollected⟩ := hloop.mpr ⟨hchecked,hfits⟩
    have hrest : ∃ source,(if redundantHead cfg assignment records=true then
        checkRedundantHead env records collected else pure collected)=.ok source := by
      by_cases hflag : redundantHead cfg assignment records=true
      · rw [if_pos hflag]
        exact checkRedundantHead_iff.mpr (hhead hflag)
      · rw [if_neg hflag]
        exact ⟨collected,rfl⟩
    obtain ⟨source,h⟩ := hrest
    exact ⟨source,_,multiply_iff.mpr ⟨hattention,rfl⟩,_,multiply_iff.mpr ⟨hkv,rfl⟩,records,hrecords,
      (),(forM_checkSelected_iff hindexed).mpr hselected,(collected,groups),hcollected,h⟩

end Stages

end Hllm.StageInspection
