import Hllm.DenseLoader

/-!
# Planned and loaded weights

The planner selects the tensors of a stage by their recorded roles, a worker by
the names its configuration prescribes. The checks of the worker force the two
selections to coincide, but for what the planner keeps on every stage.
-/

namespace Hllm.WeightEstimates

open CheckedSizes DenseLoader MemoryAccounting OrderedMap PlannerModels PlannerPlacement
open ControlModel (Failure)
open WireMessages (LoadStageRequest StageAssignment)

/-- Resident bytes of wire records in F32. -/
def float32Bytes (records : List WireMessages.TensorRecord) : ℕ :=
  (records.map fun record => record.shape.prod*4).sum

/-- The record is resident on a stage once it is loaded. -/
def resident (cfg : WireMessages.ModelConfig) (assignment : StageAssignment)
    (record : WireMessages.TensorRecord) : Bool :=
  isSelected cfg assignment record ||
    (record.role=roleNumber .tokenEmbedding && assignment.ownsLmHead && cfg.tiedEmbeddings)

/-- What an expected tensor can be. -/
inductive Expected (cfg : WireMessages.ModelConfig) (assignment : StageAssignment) :
    String×ExpectedTensor → Prop
  | embedding (shape : List ℕ) (h : assignment.ownsTokenEmbedding=true ∨
      (assignment.ownsLmHead=true ∧ cfg.tiedEmbeddings=true)) :
    Expected cfg assignment ("model.embed_tokens.weight",⟨shape,roleNumber .tokenEmbedding,-1⟩)
  | norm (shape : List ℕ) (h : assignment.ownsFinalNorm=true) :
    Expected cfg assignment ("model.norm.weight",⟨shape,roleNumber .finalNorm,-1⟩)
  | head (shape : List ℕ) (h : assignment.ownsLmHead=true) :
    Expected cfg assignment ("lm_head.weight",⟨shape,roleNumber .lmHead,-1⟩)
  | layer (name : String) (shape : List ℕ) (i : ℕ) (hstart : assignment.layerStart ≤ i)
      (hend : i < assignment.layerEnd) :
    Expected cfg assignment
      ("model.layers."++name,⟨shape,roleNumber .transformerLayer,toInt i⟩)

/-- The worker skips a redundant head. -/
def skips (redundant : Bool) (name : String) : Bool := redundant && name=="lm_head.weight"

section Sizes

/-- A throw unless a condition holds. -/
theorem rejectIf_ok {condition : Prop} [Decidable condition] {message : String} {u : Unit} :
    rejectIf condition message=.ok u ↔ ¬condition := by
  unfold rejectIf
  rw [check_iff]
  exact and_iff_left rfl

/-- A checked product is given when it fits a word. -/
theorem multiply_iff {a b c : ℕ} : multiply a b=.ok c ↔ a*b < 2^64 ∧ c=a*b := by
  unfold multiply
  rw [mapError_ok_iff,checkedProduct_iff]

/-- So is a checked sum. -/
theorem add_iff {a b c : ℕ} (ha : a < 2^64) : add a b=.ok c ↔ a+b < 2^64 ∧ c=a+b := by
  unfold add
  rw [mapError_ok_iff,checkedSum_iff ha]

/-- A checked sum is exact. -/
theorem add_ok {a b c : ℕ} (h : add a b=.ok c) : c=a+b := by
  unfold add checkedSum at h
  obtain ⟨-,h⟩ := check_iff.mp (mapError_ok_iff.mp h)
  exact (Except.ok.inj h).symm

/-- A checked product is exact. -/
theorem multiply_ok {a b c : ℕ} (h : multiply a b=.ok c) : c=a*b := (multiply_iff.mp h).2

/-- So is that of a shape. -/
theorem foldlM_multiply_ok {shape : List ℕ} {a c : ℕ} (h : shape.foldlM multiply a=.ok c) :
    c=a*shape.prod := by
  induction shape generalizing a with
  | nil =>
    rw [List.prod_nil,Nat.mul_one]
    exact (Except.ok.inj h).symm
  | cons d shape ih =>
    rw [List.foldlM_cons,call_bind] at h
    obtain ⟨b,hb,h⟩ := h
    rw [ih h,multiply_ok hb,List.prod_cons,Nat.mul_assoc]

end Sizes

section Records

variable {records result : List (String×WireMessages.TensorRecord)}
variable {tensors : List WireMessages.TensorRecord}

/-- The index holds every record once, under its name. -/
theorem foldlM_indexRecord_ok (hnodup : (records.map Prod.fst).Nodup)
    (h : tensors.foldlM indexRecord records=.ok result) :
    result.Perm (records++tensors.map fun t => (t.name,t)) ∧
      (result.map Prod.fst).Nodup := by
  induction tensors generalizing records with
  | nil =>
    have heq : records=result := Except.ok.inj h
    rw [List.map_nil,List.append_nil,←heq]
    exact ⟨.refl _,hnodup⟩
  | cons t tensors ih =>
    rw [List.foldlM_cons,call_bind] at h
    obtain ⟨next,hnext,h⟩ := h
    unfold indexRecord at hnext
    rw [call_bind] at hnext
    obtain ⟨_,hnew,hnext⟩ := hnext
    rw [rejectIf_ok,Bool.not_eq_true] at hnew
    have heq : emplace records (t.name,t)=next := Except.ok.inj hnext
    have hinsert : next.Perm ((t.name,t)::records) := by
      rw [←heq,emplace,if_neg (by rw [hnew]; decide)]
      exact List.perm_orderedInsert _ _ _
    obtain ⟨hperm,hkeys⟩ := ih (heq ▸ nodup_emplace hnodup) h
    refine ⟨hperm.trans ?_,hkeys⟩
    rw [List.map_cons]
    calc (next++tensors.map fun t => (t.name,t)).Perm
          ((t.name,t)::records++tensors.map fun t => (t.name,t)) := hinsert.append_right _
      _ = (t.name,t)::(records++tensors.map fun t => (t.name,t)) := List.cons_append ..
      _ |>.Perm (records++(t.name,t)::tensors.map fun t => (t.name,t)) :=
        List.perm_middle.symm

/-- The index of all records. -/
structure Indexed (tensors : List WireMessages.TensorRecord)
    (records : List (String×WireMessages.TensorRecord)) : Prop where
  /-- Names are distinct. -/
  names : (tensors.map (·.name)).Nodup
  /-- A name is found exactly when a record has it. -/
  found : ∀ name record,records.lookup name=some record ↔ record∈tensors ∧ record.name=name
  /-- The entries. -/
  entries : ∀ entry,entry∈records ↔ entry.2∈tensors ∧ entry.2.name=entry.1

theorem indexed_of_ok (h : tensors.foldlM indexRecord []=.ok records) :
    Indexed tensors records := by
  have hnil : (([] : List (String×WireMessages.TensorRecord)).map Prod.fst).Nodup :=
    List.nodup_nil
  obtain ⟨hperm,hkeys⟩ := foldlM_indexRecord_ok hnil h
  rw [List.nil_append] at hperm
  have hentries : ∀ entry,entry∈records ↔ entry.2∈tensors ∧ entry.2.name=entry.1 := by
    intro entry
    rw [hperm.mem_iff,List.mem_map]
    constructor
    · rintro ⟨t,ht,rfl⟩
      exact ⟨ht,rfl⟩
    · rintro ⟨ht,hname⟩
      exact ⟨entry.2,ht,Prod.ext hname rfl⟩
  refine ⟨?_,fun name record => ?_,hentries⟩
  · have hnames := (hperm.map Prod.fst).nodup_iff.mp hkeys
    rw [List.map_map] at hnames
    exact hnames
  · rw [←hentries (name,record)]
    exact ⟨mem_of_lookup,lookup_of_mem hkeys⟩

end Records

section Loop

variable {env : Environment} {records : List (String×WireMessages.TensorRecord)}
variable {mixed redundant : Bool} {state result : Collected} {entry : String×ExpectedTensor}
variable {expected : List (String×ExpectedTensor)}

/-- Bytes of the expected tensors that are not skipped. -/
def expectedBytes (redundant : Bool) (expected : List (String×ExpectedTensor)) : ℕ :=
  ((expected.filter fun entry => !skips redundant entry.1).map
    fun entry => entry.2.shape.prod*4).sum

/-- A checked tensor has a matching record. -/
theorem checkTensor_ok {checked : WireMessages.TensorRecord×TensorMetadata}
    (h : checkTensor env records entry=.ok checked) :
    ∃ record,records.lookup entry.1=some record ∧ matchesSpec record entry.2=true := by
  unfold checkTensor at h
  cases hfound : records.lookup entry.1 with
  | none =>
    rw [hfound,call_bind] at h
    obtain ⟨record,hnone,-⟩ := h
    cases hnone
  | some record =>
    rw [hfound,call_bind] at h
    obtain ⟨found,hsome,h⟩ := h
    cases hsome
    rw [call_bind] at h
    obtain ⟨_,hmatch,-⟩ := h
    rw [rejectIf_ok,Bool.not_eq_false] at hmatch
    exact ⟨record,rfl,hmatch⟩

/-- Collecting adds the bytes of a tensor. -/
theorem collect_ok {record : WireMessages.TensorRecord} {tensor : TensorMetadata}
    (h : collect mixed state entry record tensor=.ok result) :
    result.1.float32WeightBytes=state.1.float32WeightBytes+entry.2.shape.prod*4 := by
  unfold collect at h
  simp only [call_bind] at h
  obtain ⟨elements,helements,bytes,hbytes,total,htotal,h⟩ := h
  have hsum : total=state.1.float32WeightBytes+entry.2.shape.prod*4 := by
    rw [add_ok htotal,multiply_ok hbytes,foldlM_multiply_ok helements,Nat.one_mul]
  split at h
  · rw [call_bind] at h
    obtain ⟨group,-,h⟩ := h
    rw [←Except.ok.inj h]
    exact hsum
  · rw [←Except.ok.inj h]
    exact hsum

/-- Opening a file adds nothing. -/
theorem opened_bytes (source : DenseSource) (file : String) :
    (opened source file).float32WeightBytes=source.float32WeightBytes := by
  unfold opened
  split
  · rfl
  · rfl

/-- One round of the loop. -/
theorem inspectTensor_ok (h : inspectTensor env records mixed redundant state entry=.ok result) :
    (∃ record,records.lookup entry.1=some record ∧ matchesSpec record entry.2=true) ∧
      result.1.float32WeightBytes=state.1.float32WeightBytes+
        (if skips redundant entry.1 then 0 else entry.2.shape.prod*4) := by
  unfold inspectTensor at h
  rw [call_bind] at h
  obtain ⟨⟨record,tensor⟩,hchecked,h⟩ := h
  refine ⟨checkTensor_ok hchecked,?_⟩
  have hskips : skips redundant entry.1=true ↔ redundant=true ∧ entry.1="lm_head.weight" := by
    rw [skips,Bool.and_eq_true,beq_iff_eq]
  by_cases hskip : redundant=true ∧ entry.1="lm_head.weight"
  · rw [if_pos (hskips.mpr hskip)]
    simp only [if_pos hskip] at h
    rw [←Except.ok.inj h]
    exact opened_bytes state.1 record.file
  · rw [if_neg (fun hs => hskip (hskips.mp hs))]
    simp only [if_neg hskip] at h
    rw [collect_ok h,opened_bytes]

/-- The whole loop. -/
theorem foldlM_inspectTensor_ok
    (h : expected.foldlM (inspectTensor env records mixed redundant) state=.ok result) :
    (∀ entry∈expected,∃ record,records.lookup entry.1=some record ∧
        matchesSpec record entry.2=true) ∧
      result.1.float32WeightBytes=state.1.float32WeightBytes+expectedBytes redundant expected := by
  induction expected generalizing state with
  | nil =>
    have heq : state=result := Except.ok.inj h
    rw [heq]
    exact ⟨fun entry hentry => absurd hentry List.not_mem_nil,rfl⟩
  | cons entry expected ih =>
    rw [List.foldlM_cons,call_bind] at h
    obtain ⟨next,hnext,h⟩ := h
    obtain ⟨hmatch,hstep⟩ := inspectTensor_ok hnext
    obtain ⟨hall,hrun⟩ := ih h
    refine ⟨?_,?_⟩
    · intro other hother
      rcases List.mem_cons.mp hother with heq|hmem
      · exact heq ▸ hmatch
      · exact hall other hmem
    · rw [hrun,hstep,expectedBytes,expectedBytes,List.filter_cons]
      by_cases hskip : skips redundant entry.1=true
      · simp only [hskip,Bool.not_true,if_true,if_false,Bool.false_eq_true,Nat.add_zero]
      · rw [Bool.not_eq_true] at hskip
        simp only [hskip,Bool.not_false,if_true,if_false,Bool.false_eq_true,List.map_cons,
          List.sum_cons]
        omega

/-- Every record passes a check. -/
theorem forM_checkSelected_ok {cfg : WireMessages.ModelConfig} {assignment : StageAssignment}
    {u : Unit} (h : records.forM (checkSelected cfg assignment expected)=.ok u) :
    ∀ entry∈records,isSelected cfg assignment entry.2=true →
      entry.1∈expected.map Prod.fst := by
  induction records with
  | nil => exact fun entry hentry => nomatch hentry
  | cons first records ih =>
    change (checkSelected cfg assignment expected first >>= fun _ =>
      records.forM (checkSelected cfg assignment expected))=.ok u at h
    rw [call_bind] at h
    obtain ⟨_,hfirst,h⟩ := h
    intro entry hentry hselected
    rcases List.mem_cons.mp hentry with heq|hmem
    · unfold checkSelected at hfirst
      rw [rejectIf_ok,not_and,Bool.not_eq_false] at hfirst
      rw [heq]
      exact contains_iff.mp (hfirst (heq ▸ hselected))
    · exact ih h entry hmem hselected

end Loop

section Names

variable {cfg : WireMessages.ModelConfig} {assignment : StageAssignment} {attention kv : ℕ}
variable {qwen : Bool} {entry : String×ExpectedTensor} {record : WireMessages.TensorRecord}

/-- Where an expected tensor comes from. -/
theorem expected_of_mem (h : entry∈expectedEntries cfg assignment attention kv qwen) :
    Expected cfg assignment entry := by
  unfold expectedEntries at h
  simp only [List.mem_append,List.mem_flatMap,List.mem_range'_1] at h
  rcases h with ((h|h)|h)|⟨i,hi,h⟩
  · split at h
    · rename_i howns
      rw [List.mem_singleton] at h
      exact h ▸ .embedding _ howns
    · exact nomatch h
  · split at h
    · rename_i howns
      rw [List.mem_singleton] at h
      exact h ▸ .norm _ howns
    · exact nomatch h
  · split at h
    · rename_i howns
      rw [List.mem_singleton] at h
      exact h ▸ .head _ howns.1
    · exact nomatch h
  · obtain ⟨shape,-,rfl⟩ := List.mem_map.mp h
    have hname : "model.layers."++toString i++"."++shape.1=
        "model.layers."++(toString i++"."++shape.1) := by
      rw [String.append_assoc,String.append_assoc,String.append_assoc]
    rw [hname]
    exact .layer _ _ i hi.1 (by omega)

/-- A layer is not the head. -/
theorem layer_ne_head (name : String) : "model.layers."++name≠"lm_head.weight" := by
  intro h
  have hlist := congrArg String.toList h
  rw [String.toList_append] at hlist
  have hhead : "model.layers.".toList.head?=(some 'l' : Option Char) := congrArg List.head? hlist
  exact absurd hhead (by decide)

/-- What a match says. -/
theorem matchesSpec_iff {spec : ExpectedTensor} : matchesSpec record spec=true ↔
    record.role=spec.role ∧
      (if 0 ≤ spec.layer then record.layerIndex=some spec.layer.toNat
        else record.layerIndex=none) ∧ record.shape=spec.shape := by
  unfold matchesSpec
  rw [Bool.and_eq_true,Bool.and_eq_true,decide_eq_true_iff,decide_eq_true_iff,and_assoc]
  split
  · rw [decide_eq_true_iff]
  · rw [Option.isNone_iff_eq_none]

/-- A matched tensor is resident, unless it is a redundant head. -/
theorem resident_of_match (hentry : Expected cfg assignment entry)
    (hmatch : matchesSpec record entry.2=true) (hend : assignment.layerEnd ≤ 2^31)
    (hhead : cfg.tiedEmbeddings=true → entry.1≠"lm_head.weight") :
    resident cfg assignment record=true := by
  obtain ⟨hrole,hlayer,-⟩ := matchesSpec_iff.mp hmatch
  unfold resident isSelected
  cases hentry with
  | embedding shape h =>
    have hembedding : record.role=roleNumber .tokenEmbedding := hrole
    rcases h with hfirst|⟨hfinal,htied⟩
    · simp [hembedding,hfirst]
    · simp [hembedding,hfinal,htied]
  | norm shape h =>
    have hnorm : record.role=roleNumber .finalNorm := hrole
    simp [hnorm,h]
  | head shape h =>
    have hlm : record.role=roleNumber .lmHead := hrole
    have htied : cfg.tiedEmbeddings=false := by
      cases hcfg : cfg.tiedEmbeddings with
      | false => rfl
      | true => exact absurd rfl (hhead hcfg)
    simp [hlm,h,htied]
  | layer name shape i hstart hi =>
    have hlayers : record.role=roleNumber .transformerLayer := hrole
    have hint : toInt i=i := by
      unfold toInt
      rw [if_pos (by omega)]
    have hsome : record.layerIndex=some i := by
      have hnonneg : 0 ≤ toInt i := by
        rw [hint]
        omega
      rw [if_pos hnonneg] at hlayer
      rw [hlayer]
      change some (toInt i).toNat=some i
      rw [hint,Int.toNat_natCast]
    simp [hlayers,hsome,hstart,hi]

/-- The name of a matched embedding. -/
theorem embedding_name (hentry : Expected cfg assignment entry)
    (hrole : entry.2.role=roleNumber .tokenEmbedding) :
    entry.1="model.embed_tokens.weight" := by
  cases hentry with
  | embedding shape h => rfl
  | norm shape h =>
    exact absurd hrole (by decide : roleNumber .finalNorm≠roleNumber .tokenEmbedding)
  | head shape h =>
    exact absurd hrole (by decide : roleNumber .lmHead≠roleNumber .tokenEmbedding)
  | layer name shape i hstart hi =>
    exact absurd hrole (by decide : roleNumber .transformerLayer≠roleNumber .tokenEmbedding)

/-- What is expected under the name of the head. -/
theorem head_of_name (hentry : Expected cfg assignment entry) (hname : entry.1="lm_head.weight") :
    entry.2.role=roleNumber .lmHead ∧ assignment.ownsLmHead=true := by
  cases hentry with
  | embedding shape h => exact absurd hname (by decide : "model.embed_tokens.weight"≠_)
  | norm shape h => exact absurd hname (by decide : "model.norm.weight"≠_)
  | head shape h => exact ⟨rfl,h⟩
  | layer name shape i hstart hi => exact absurd hname (layer_ne_head name)

end Names

/-- What the comparison of a stage has established. -/
structure Inspected (cfg : WireMessages.ModelConfig) (assignment : StageAssignment)
    (tensors : List WireMessages.TensorRecord) (redundant : Bool)
    (expected : List (String×ExpectedTensor)) : Prop where
  /-- Names in the manifest are distinct. -/
  names : (tensors.map (·.name)).Nodup
  /-- Expected names are distinct. -/
  keys : (expected.map Prod.fst).Nodup
  /-- Everything expected has an origin. -/
  origin : ∀ entry∈expected,Expected cfg assignment entry
  /-- An embedding that is needed is expected. -/
  embedding : assignment.ownsTokenEmbedding=true ∨
    (assignment.ownsLmHead=true ∧ cfg.tiedEmbeddings=true) →
      "model.embed_tokens.weight"∈expected.map Prod.fst
  /-- Everything expected has a matching record. -/
  matched : ∀ entry∈expected,∃ record∈tensors,record.name=entry.1 ∧
    matchesSpec record entry.2=true
  /-- Every selected record is expected. -/
  selected : ∀ record∈tensors,isSelected cfg assignment record=true →
    record.name∈expected.map Prod.fst
  /-- A head that is present next to a tied embedding is redundant. -/
  present : cfg.tiedEmbeddings=true → "lm_head.weight"∈expected.map Prod.fst → redundant=true
  /-- Only such a head is. -/
  tied : redundant=true → cfg.tiedEmbeddings=true

section Stage

variable {env : Environment} {plan : WireMessages.DeploymentPlan} {cfg : WireMessages.ModelConfig}
variable {assignment : StageAssignment} {tensors : List WireMessages.TensorRecord} {qwen : Bool}
variable {source : DenseSource} {redundant : Bool} {expected : List (String×ExpectedTensor)}

/-- Verifying a redundant head adds nothing. -/
theorem checkRedundantHead_bytes {records : List (String×WireMessages.TensorRecord)}
    {checked : DenseSource} (h : checkRedundantHead env records source=.ok checked) :
    checked.float32WeightBytes=source.float32WeightBytes := by
  unfold checkRedundantHead at h
  split at h
  · simp only [call_bind] at h
    obtain ⟨_,-,_,-,_,-,_,-,_,-,h⟩ := h
    rw [←Except.ok.inj h]
  · cases h

/-- The bytes of an accepted stage are those of the expected tensors. -/
theorem inspectTensors_ok
    (h : inspectTensors env plan cfg assignment tensors qwen=.ok source) :
    ∃ redundant expected,Inspected cfg assignment tensors redundant expected ∧
      source.float32WeightBytes=expectedBytes redundant expected := by
  unfold inspectTensors at h
  simp only [call_bind] at h
  obtain ⟨attention,-,kv,-,records,hrecords,u,hselected,⟨inspected,groups⟩,hloop,h⟩ := h
  have hindexed := indexed_of_ok hrecords
  obtain ⟨hmatched,hbytes⟩ := foldlM_inspectTensor_ok hloop
  generalize hflag : (assignment.ownsLmHead && cfg.tiedEmbeddings &&
    contains records "lm_head.weight")=flag at hselected hloop h hmatched hbytes
  generalize hall : emplaceAll [] (expectedEntries cfg assignment attention kv qwen++
    if flag=true then [("lm_head.weight",(⟨[cfg.vocabularySize,cfg.hiddenSize],
      roleNumber .lmHead,-1⟩ : ExpectedTensor))] else [])=all at hselected hloop hmatched hbytes
  have horigin : ∀ entry∈all,Expected cfg assignment entry := by
    intro entry hentry
    rw [←hall] at hentry
    rcases mem_of_mem_emplaceAll hentry with hnil|hmem
    · exact absurd hnil List.not_mem_nil
    rcases List.mem_append.mp hmem with hmem|hhead
    · exact expected_of_mem hmem
    split at hhead
    · rename_i hcondition
      rw [←hflag,Bool.and_eq_true,Bool.and_eq_true] at hcondition
      rw [List.mem_singleton.mp hhead]
      exact .head _ hcondition.1.1
    · exact absurd hhead List.not_mem_nil
  have hkeys : (all.map Prod.fst).Nodup := by
    rw [←hall]
    exact nodup_emplaceAll (by rw [List.map_nil]; exact List.nodup_nil)
  refine ⟨flag,all,⟨hindexed.names,hkeys,horigin,?_,?_,?_,?_,?_⟩,?_⟩
  · intro howns
    rw [←hall,key_emplaceAll,List.map_append,List.mem_append]
    refine .inr (.inl ?_)
    unfold expectedEntries
    rw [if_pos howns]
    exact .head _
  · intro entry hentry
    obtain ⟨record,hfound,hmatch⟩ := hmatched entry hentry
    obtain ⟨hmem,hname⟩ := (hindexed.found _ _).mp hfound
    exact ⟨record,hmem,hname,hmatch⟩
  · intro record hrecord hsel
    exact forM_checkSelected_ok hselected (record.name,record)
      ((hindexed.entries _).mpr ⟨hrecord,rfl⟩) hsel
  · intro htied hhead
    obtain ⟨entry,hentry,hname⟩ := List.mem_map.mp hhead
    obtain ⟨record,hfound,-⟩ := hmatched entry hentry
    have hpresent : contains records "lm_head.weight"=true := by
      rw [contains_iff,←hname]
      exact List.mem_map_of_mem (mem_of_lookup hfound)
    rw [←hflag,(head_of_name (horigin entry hentry) hname).2,htied,hpresent]
    rfl
  · intro hredundant
    rw [←hflag,Bool.and_eq_true,Bool.and_eq_true] at hredundant
    exact hredundant.1.2
  · have hzero : (initialSource plan cfg assignment qwen).float32WeightBytes=0 := rfl
    rw [hzero,Nat.zero_add] at hbytes
    split at h
    · rw [checkRedundantHead_bytes h,hbytes]
    · rw [←Except.ok.inj h,hbytes]

/-- A kept expected tensor has a resident record of its shape. -/
theorem Inspected.record_of_kept (h : Inspected cfg assignment tensors redundant expected)
    (hend : assignment.layerEnd ≤ 2^31) {entry : String×ExpectedTensor} (hentry : entry∈expected)
    (hkept : skips redundant entry.1=false) :
    ∃ record∈tensors,resident cfg assignment record=true ∧ record.name=entry.1 ∧
      record.shape=entry.2.shape := by
  obtain ⟨record,hmem,hname,hmatch⟩ := h.matched entry hentry
  refine ⟨record,hmem,resident_of_match (h.origin entry hentry) hmatch hend ?_,hname,
    (matchesSpec_iff.mp hmatch).2.2⟩
  intro htied hhead
  have hredundant := h.present htied (hhead ▸ List.mem_map_of_mem hentry)
  rw [hredundant,hhead] at hkept
  exact absurd hkept (by decide)

/-- A resident record is expected and kept. -/
theorem Inspected.kept_of_resident (h : Inspected cfg assignment tensors redundant expected)
    (hnames : ∀ record∈tensors,record.role=roleNumber .tokenEmbedding →
      record.name="model.embed_tokens.weight")
    {record : WireMessages.TensorRecord} (hmem : record∈tensors)
    (hresident : resident cfg assignment record=true) :
    ∃ entry∈expected,skips redundant entry.1=false ∧ entry.1=record.name ∧
      entry.2.shape=record.shape := by
  have hkey : record.name∈expected.map Prod.fst := by
    rw [resident,Bool.or_eq_true] at hresident
    rcases hresident with hselected|hhead
    · exact h.selected record hmem hselected
    · simp only [Bool.and_eq_true,decide_eq_true_iff] at hhead
      rw [hnames record hmem hhead.1.1]
      exact h.embedding (.inr ⟨hhead.1.2,hhead.2⟩)
  obtain ⟨entry,hentry,hname⟩ := List.mem_map.mp hkey
  obtain ⟨other,hother,hsame,hmatch⟩ := h.matched entry hentry
  have heq : other=record :=
    List.inj_on_of_nodup_map h.names hother hmem (hsame.trans hname)
  rw [heq] at hmatch
  obtain ⟨hrole,-,hshape⟩ := matchesSpec_iff.mp hmatch
  refine ⟨entry,hentry,?_,hname,hshape.symm⟩
  rw [skips,Bool.and_eq_false_iff,beq_eq_false_iff_ne]
  by_cases hredundant : redundant=true
  · refine .inr fun hhead => ?_
    rw [(head_of_name (h.origin entry hentry) hhead).1] at hrole
    unfold resident isSelected at hresident
    rw [hrole,h.tied hredundant] at hresident
    simp [roleNumber] at hresident
  · rw [Bool.not_eq_true] at hredundant
    exact .inl hredundant

/-- Kept names with their shapes are those of the resident records. -/
theorem Inspected.perm (h : Inspected cfg assignment tensors redundant expected)
    (hend : assignment.layerEnd ≤ 2^31)
    (hnames : ∀ record∈tensors,record.role=roleNumber .tokenEmbedding →
      record.name="model.embed_tokens.weight") :
    ((expected.filter fun entry => !skips redundant entry.1).map
        fun entry => (entry.1,entry.2.shape)).Perm
      ((tensors.filter (resident cfg assignment)).map fun record => (record.name,record.shape)) := by
  refine (List.perm_ext_iff_of_nodup ?_ ?_).mpr ?_
  · refine List.Nodup.of_map Prod.fst ?_
    rw [List.map_map]
    exact h.keys.sublist (List.filter_sublist.map _)
  · refine List.Nodup.of_map Prod.fst ?_
    rw [List.map_map]
    exact h.names.sublist (List.filter_sublist.map _)
  · intro pair
    simp only [List.mem_map,List.mem_filter,Bool.not_eq_true']
    constructor
    · rintro ⟨entry,⟨hentry,hkept⟩,rfl⟩
      obtain ⟨record,hmem,hresident,hname,hshape⟩ := h.record_of_kept hend hentry hkept
      exact ⟨record,⟨hmem,hresident⟩,Prod.ext hname hshape⟩
    · rintro ⟨record,⟨hmem,hresident⟩,rfl⟩
      obtain ⟨entry,hentry,hkept,hname,hshape⟩ := h.kept_of_resident hnames hmem hresident
      exact ⟨entry,⟨hentry,hkept⟩,Prod.ext hname hshape⟩

/-- The bytes of an accepted stage are those of its resident records. -/
theorem Inspected.bytes_eq (h : Inspected cfg assignment tensors redundant expected)
    (hend : assignment.layerEnd ≤ 2^31)
    (hnames : ∀ record∈tensors,record.role=roleNumber .tokenEmbedding →
      record.name="model.embed_tokens.weight") :
    expectedBytes redundant expected=
      float32Bytes (tensors.filter (resident cfg assignment)) := by
  have hsum := ((h.perm hend hnames).map fun pair => pair.2.prod*4).sum_eq
  rw [List.map_map,List.map_map] at hsum
  exact hsum

/-- A stage that owns the embedding knows every embedding by its name. -/
theorem Inspected.embedding_names (h : Inspected cfg assignment tensors redundant expected)
    (howns : assignment.ownsTokenEmbedding=true) :
    ∀ record∈tensors,record.role=roleNumber .tokenEmbedding →
      record.name="model.embed_tokens.weight" := by
  intro record hmem hrole
  have hselected : isSelected cfg assignment record=true := by
    unfold isSelected
    simp [hrole,howns]
  obtain ⟨entry,hentry,hname⟩ := List.mem_map.mp (h.selected record hmem hselected)
  obtain ⟨other,hother,hsame,hmatch⟩ := h.matched entry hentry
  have heq : other=record :=
    List.inj_on_of_nodup_map h.names hother hmem (hsame.trans hname)
  rw [heq] at hmatch
  have hexpected := (matchesSpec_iff.mp hmatch).1
  rw [←hname]
  exact embedding_name (h.origin entry hentry) (hexpected.symm.trans hrole)

end Stage

/-- F32 bytes of the tensors with a property. -/
def bytesWhere (manifest : ModelManifest) (p : TensorRecord → Bool) : ℕ :=
  ((manifest.tensors.filter p).map fun tensor => tensor.numElements*4).sum

/-- Tensors of a role. -/
def hasRole (role : TensorRole) (tensor : TensorRecord) : Bool := decide (tensor.role=role)

/-- A layer tensor of no layer of the model. -/
def isStray (layers : ℕ) (tensor : TensorRecord) : Bool :=
  hasRole .transformerLayer tensor && !tensor.layerIndex.any fun i => decide (i < layers)

/-- A tensor as the planner has it and as it is sent. -/
structure SameTensor (tensor : TensorRecord) (record : WireMessages.TensorRecord) : Prop where
  /-- Its shape. -/
  shape : record.shape=tensor.shape
  /-- Its role. -/
  role : record.role=roleNumber tensor.role
  /-- Its layer, if any. -/
  layer : record.layerIndex=tensor.layerIndex

/-- A manifest as the planner has it and as it is sent. -/
structure SameManifest (manifest : ModelManifest) (wire : WireMessages.ModelManifest) : Prop where
  /-- The tensors one by one. -/
  tensors : List.Forall₂ SameTensor manifest.tensors wire.tensors
  /-- The number of layers. -/
  layers : (wire.config.getD default).numLayers=manifest.config.numLayers
  /-- Whether the head is the embedding. -/
  tied : (wire.config.getD default).tiedEmbeddings=manifest.config.tiedEmbeddings

/-- Requests for the two stages of a split. -/
structure TwoStages (first final : LoadStageRequest) (layers split : ℕ) : Prop where
  /-- They carry one plan. -/
  plan : first.plan=final.plan
  /-- They carry one manifest. -/
  manifest : first.manifest=final.manifest
  /-- One is for the first stage. -/
  zero : first.stageIndex=0
  /-- The other is for the second stage. -/
  one : final.stageIndex=1
  /-- The stages meet at the split. -/
  ranges : ∃ a b,(first.plan.getD default).stages=[a,b] ∧ a.layerStart=0 ∧
    a.layerEnd=split ∧ b.layerStart=split ∧ b.layerEnd=layers

section Sums

variable {α β : Type}

/-- A filtered sum, summed over everything. -/
theorem sum_filter (xs : List α) (p : α → Bool) (f : α → ℕ) :
    ((xs.filter p).map f).sum=(xs.map fun x => if p x then f x else 0).sum := by
  induction xs with
  | nil => rfl
  | cons x xs ih =>
    rw [List.filter_cons,List.map_cons,List.sum_cons,←ih]
    by_cases hp : p x=true
    · rw [if_pos hp,if_pos hp,List.map_cons,List.sum_cons]
    · rw [if_neg hp,if_neg hp,Nat.zero_add]

/-- Related lists have the same filtered sums. -/
theorem sum_filter_of_forall₂ {R : α → β → Prop} {xs : List α} {ys : List β} {p : α → Bool}
    {q : β → Bool} {f : α → ℕ} {g : β → ℕ} (h : List.Forall₂ R xs ys)
    (hpq : ∀ x y,R x y → p x=q y) (hfg : ∀ x y,R x y → f x=g y) :
    ((xs.filter p).map f).sum=((ys.filter q).map g).sum := by
  rw [sum_filter,sum_filter]
  induction h with
  | nil => rfl
  | cons hxy _ ih =>
    rw [List.map_cons,List.map_cons,List.sum_cons,List.sum_cons,ih,hpq _ _ hxy,hfg _ _ hxy]

end Sums

/-- What the planner counts. -/
theorem stageWeightBytes_eq (manifest : ModelManifest) (start finish : ℕ)
    (isFirst isFinal : Bool) :
    stageWeightBytes manifest start finish isFirst isFinal .f32=
      bytesWhere manifest (includes manifest.config.tiedEmbeddings start finish isFirst isFinal) :=
  rfl

/-- Bytes with either of two exclusive properties. -/
theorem bytesWhere_or (manifest : ModelManifest) {p q r : TensorRecord → Bool}
    (h : ∀ tensor,p tensor=(q tensor || r tensor)) (hne : ∀ tensor,(q tensor && r tensor)=false) :
    bytesWhere manifest p=bytesWhere manifest q+bytesWhere manifest r := by
  unfold bytesWhere
  rw [sum_filter,sum_filter,sum_filter,←List.sum_map_add]
  congr 1
  refine List.map_congr_left fun tensor _ => ?_
  have hexclusive := hne tensor
  rw [h tensor]
  cases hq : q tensor <;> cases hr : r tensor <;> simp_all

/-- The ownership of an accepted stage. -/
structure Owns (assignment : StageAssignment) (isFirst isFinal : Bool) : Prop where
  /-- Of the embedding. -/
  embedding : assignment.ownsTokenEmbedding=isFirst
  /-- Of the final norm. -/
  norm : assignment.ownsFinalNorm=isFinal
  /-- Of the head. -/
  head : assignment.ownsLmHead=isFinal

section Accepted

variable {env : Environment} {request : LoadStageRequest} {source : DenseSource}

/-- An accepted stage has passed the comparison of its tensors, its layers are
not more than its tensors, and it owns what its position says. -/
theorem inspectDenseStage_ok (h : inspectDenseStage env request=.ok source)
    {assignment : StageAssignment}
    (hassignment : (request.plan.getD default).stages.getD request.stageIndex default=assignment) :
    (∃ redundant expected,
      Inspected ((request.manifest.getD default).config.getD default) assignment
        (request.manifest.getD default).tensors redundant expected ∧
      source.float32WeightBytes=expectedBytes redundant expected) ∧
    assignment.layerStart < assignment.layerEnd ∧
    assignment.layerEnd-assignment.layerStart < 2^29 ∧
    Owns assignment (decide (request.stageIndex=0))
      (decide (request.stageIndex+1=size32 (request.plan.getD default).stages)) := by
  unfold inspectDenseStage at h
  simp only [call_bind] at h
  obtain ⟨_,-,qwen,-,_,-,_,hrange,_,howns,h⟩ := h
  rw [hassignment] at hrange howns h
  unfold checkRange at hrange
  rw [rejectIf_ok] at hrange
  refine ⟨inspectTensors_ok h,?_,?_,?_⟩
  · omega
  · have hsize : size32 (request.manifest.getD default).tensors<2^32 :=
      Nat.mod_lt _ (by decide)
    split at hrange
    · omega
    · omega
  · unfold checkOwnership at howns
    rw [rejectIf_ok] at howns
    simp only [not_or,not_not] at howns
    exact ⟨howns.1,howns.2.2.1,howns.2.2.2⟩

end Accepted

section Split

variable {manifest : ModelManifest} {first final : LoadStageRequest} {split : ℕ}
variable {wire : WireMessages.ModelManifest} {assignment : StageAssignment}
variable {isFirst isFinal : Bool}

/-- The planner includes what becomes resident, and architecture state. -/
theorem includes_eq_resident (hsame : SameManifest manifest wire)
    (howns : Owns assignment isFirst isFinal) {tensor : TensorRecord}
    {record : WireMessages.TensorRecord} (h : SameTensor tensor record) :
    (includes manifest.config.tiedEmbeddings assignment.layerStart assignment.layerEnd isFirst
      isFinal tensor && !hasRole .architectureState tensor)=
      resident (wire.config.getD default) assignment record := by
  unfold resident isSelected includes hasRole
  rw [h.role,h.layer,hsame.tied,howns.embedding,howns.norm,howns.head]
  cases hrole : tensor.role <;> simp [roleNumber]

/-- The planner's bytes of a stage are those of its resident records and of
architecture state. -/
theorem stageWeightBytes_eq_resident (hsame : SameManifest manifest wire)
    (howns : Owns assignment isFirst isFinal) :
    stageWeightBytes manifest assignment.layerStart assignment.layerEnd isFirst isFinal .f32=
      float32Bytes (wire.tensors.filter (resident (wire.config.getD default) assignment))+
        bytesWhere manifest (hasRole .architectureState) := by
  have hstate : ∀ tensor,includes manifest.config.tiedEmbeddings assignment.layerStart
      assignment.layerEnd isFirst isFinal tensor=
        ((includes manifest.config.tiedEmbeddings assignment.layerStart assignment.layerEnd
          isFirst isFinal tensor && !hasRole .architectureState tensor) ||
            hasRole .architectureState tensor) := by
    intro tensor
    unfold includes hasRole
    cases tensor.role <;> simp
  have hexclusive : ∀ tensor,((includes manifest.config.tiedEmbeddings assignment.layerStart
      assignment.layerEnd isFirst isFinal tensor && !hasRole .architectureState tensor) &&
        hasRole .architectureState tensor)=false := by
    intro tensor
    rw [Bool.and_assoc,Bool.not_and_self,Bool.and_false]
  rw [stageWeightBytes_eq,bytesWhere_or manifest hstate hexclusive]
  congr 1
  refine sum_filter_of_forall₂ hsame.tensors
    (fun tensor record h => includes_eq_resident hsame howns h) fun tensor record h => ?_
  rw [TensorRecord.numElements,h.shape]

/-- What each of two stages counts of a layer tensor. -/
theorem layer_counted_once {layers : ℕ} (hsplit : split ≤ layers) {tied : Bool}
    {tensor : TensorRecord} (hrole : tensor.role=.transformerLayer) :
    (includes tied 0 split true false tensor ^^ includes tied split layers false true tensor)=
        tensor.layerIndex.any (fun i => decide (i < layers)) ∧
      (includes tied 0 split true false tensor && includes tied split layers false true tensor)=
        false := by
  unfold includes
  rw [hrole]
  cases htensor : tensor.layerIndex with
  | none => exact ⟨rfl,rfl⟩
  | some i =>
    simp only [Option.any_some]
    by_cases hbelow : i < split
    · have hlayers : i < layers := by omega
      have hnot : ¬split ≤ i := by omega
      simp [hbelow,hlayers,hnot]
    · have hle : split ≤ i := by omega
      simp [hbelow,hle]

/-- Over both stages everything is counted once, but for what is shared or left out. -/
theorem total_counted {layers : ℕ} (hsplit : split ≤ layers) :
    stageWeightBytes manifest 0 split true false .f32+
        stageWeightBytes manifest split layers false true .f32+
        (if manifest.config.tiedEmbeddings then bytesWhere manifest (hasRole .lmHead) else 0)+
        bytesWhere manifest (isStray layers)=
      bytesWhere manifest (fun _ => true)+
        (if manifest.config.tiedEmbeddings then
          bytesWhere manifest (hasRole .tokenEmbedding) else 0)+
        bytesWhere manifest (hasRole .architectureState) := by
  have hif : ∀ role,(if manifest.config.tiedEmbeddings then bytesWhere manifest (hasRole role)
      else 0)=bytesWhere manifest
        (fun tensor => manifest.config.tiedEmbeddings && hasRole role tensor) := by
    intro role
    cases manifest.config.tiedEmbeddings with
    | true => rfl
    | false =>
      unfold bytesWhere
      rw [sum_filter]
      simp
  rw [hif,hif,stageWeightBytes_eq,stageWeightBytes_eq]
  unfold bytesWhere
  rw [sum_filter,sum_filter,sum_filter,sum_filter,sum_filter,sum_filter,sum_filter,
    ←List.sum_map_add,←List.sum_map_add,←List.sum_map_add,←List.sum_map_add,←List.sum_map_add]
  congr 1
  refine List.map_congr_left fun tensor _ => ?_
  by_cases hlayer : tensor.role=.transformerLayer
  · obtain ⟨honce,hnever⟩ := @layer_counted_once split layers hsplit
      manifest.config.tiedEmbeddings tensor hlayer
    have hother : ∀ role,role≠.transformerLayer → hasRole role tensor=false := by
      intro role hne
      rw [hasRole,hlayer,decide_eq_false_iff_not]
      exact Ne.symm hne
    have hstray : isStray layers tensor=
        !tensor.layerIndex.any (fun i => decide (i < layers)) := by
      rw [isStray,hasRole,hlayer,decide_eq_true rfl,Bool.true_and]
    rw [hother .lmHead (by decide),hother .tokenEmbedding (by decide),
      hother .architectureState (by decide),hstray,←honce]
    cases hfirst : includes manifest.config.tiedEmbeddings 0 split true false tensor <;>
      cases hfinal : includes manifest.config.tiedEmbeddings split layers false true tensor <;>
      simp_all
  · unfold includes isStray hasRole
    cases hrole : tensor.role with
    | transformerLayer => exact absurd hrole hlayer
    | tokenEmbedding => cases manifest.config.tiedEmbeddings <;> simp
    | finalNorm => simp
    | lmHead => cases manifest.config.tiedEmbeddings <;> simp
    | architectureState => simp

/-- Once both stages of a split are accepted, the planner's F32 bytes of each are
what is loaded and architecture state, every tensor of a layer of the model is
counted on exactly one, and over both everything is counted once: a tied
embedding twice and its redundant head not at all, architecture state twice, and
layer tensors of no layer not at all. -/
theorem stage_weights_agree {files files' : Environment} {source source' : DenseSource}
    (hsame : SameManifest manifest (first.manifest.getD default))
    (hsplit : TwoStages first final manifest.config.numLayers split)
    (hfirst : inspectDenseStage files first=.ok source)
    (hfinal : inspectDenseStage files' final=.ok source') :
    let layers : ℕ := manifest.config.numLayers
    let tied := manifest.config.tiedEmbeddings
    let state := bytesWhere manifest (hasRole .architectureState)
    let firstBytes := stageWeightBytes manifest 0 split true false .f32
    let finalBytes := stageWeightBytes manifest split layers false true .f32
    firstBytes=source.float32WeightBytes+state ∧
      finalBytes=source'.float32WeightBytes+state ∧
      (∀ tensor∈manifest.tensors,tensor.role=.transformerLayer →
        (includes tied 0 split true false tensor ^^
            includes tied split layers false true tensor)=
          tensor.layerIndex.any (fun i => decide (i < layers)) ∧
        (includes tied 0 split true false tensor &&
            includes tied split layers false true tensor)=false) ∧
      firstBytes+finalBytes+
          (if tied then bytesWhere manifest (hasRole .lmHead) else 0)+
          bytesWhere manifest (isStray layers)=
        bytesWhere manifest (fun _ => true)+
          (if tied then bytesWhere manifest (hasRole .tokenEmbedding) else 0)+state := by
  intro layers tied state firstBytes finalBytes
  obtain ⟨a,b,hstages,haStart,haEnd,hbStart,hbEnd⟩ := hsplit.ranges
  have ha : (first.plan.getD default).stages.getD first.stageIndex default=a := by
    rw [hstages,hsplit.zero]
    rfl
  have hb : (final.plan.getD default).stages.getD final.stageIndex default=b := by
    rw [←hsplit.plan,hstages,hsplit.one]
    rfl
  obtain ⟨⟨redundant,expected,hinspected,hbytes⟩,-,hcount,howns⟩ := inspectDenseStage_ok hfirst ha
  obtain ⟨⟨redundant',expected',hinspected',hbytes'⟩,hordered',hcount',howns'⟩ :=
    inspectDenseStage_ok hfinal hb
  rw [hsplit.zero,hstages] at howns
  rw [hsplit.one,←hsplit.plan,hstages] at howns'
  rw [←hsplit.manifest] at hinspected'
  have hownsFirst : Owns a true false := howns
  have hownsFinal : Owns b false true := howns'
  have hnames := hinspected.embedding_names hownsFirst.embedding
  have hordered : split ≤ layers := by
    rw [hbStart,hbEnd] at hordered'
    exact le_of_lt hordered'
  refine ⟨?_,?_,fun tensor _ hrole => layer_counted_once hordered hrole,total_counted hordered⟩
  · rw [hbytes,hinspected.bytes_eq (by omega) hnames,
      ←stageWeightBytes_eq_resident hsame hownsFirst,haStart,haEnd]
  · rw [hbytes',hinspected'.bytes_eq (by omega) hnames,
      ←stageWeightBytes_eq_resident hsame hownsFinal,hbStart,hbEnd]

end Split

/-- A Llama configuration of two layers with tied embeddings. -/
def tinyConfig : WireMessages.ModelConfig where
  hiddenSize := 2
  intermediateSize := 3
  numLayers := 2
  numAttentionHeads := 1
  numKvHeads := 1
  headDim := 2
  vocabularySize := 5
  maximumSequenceLength := 4
  tiedEmbeddings := true
  rmsNormEps := 0x3EB0C6F7A0B5ED8D
  ropeTheta := 0x40C3880000000000
  ropeScaling := none
  hiddenActivation := "silu"
  attentionBias := false
  mlpBias := false
  eosTokenIds := [1]

/-- A layer tensor without a layer. -/
def strayTensor : TensorRecord := ⟨[7],.transformerLayer,none⟩

/-- Tensors of one of its layers. -/
def tinyLayer (i : ℕ) : List (String×TensorRecord) :=
  (layerShapes tinyConfig 2 2 false).map fun entry =>
    ("model.layers."++toString i++"."++entry.1,⟨entry.2,.transformerLayer,some i⟩)

/-- All tensors, with a redundant head, architecture state and a layer tensor
without a layer. -/
def tinyTensors : List (String×TensorRecord) :=
  [("stray",strayTensor),("rotary.table",⟨[3],.architectureState,none⟩),
    ("model.norm.weight",⟨[2],.finalNorm,none⟩)]++tinyLayer 1++tinyLayer 0++
  [("model.embed_tokens.weight",⟨[5,2],.tokenEmbedding,none⟩),
    ("lm_head.weight",⟨[5,2],.lmHead,none⟩)]

/-- The manifest of these tensors. -/
def tinyManifest : ModelManifest where
  schemaVersion := "1.0"
  manifestDigest := ""
  architectureId := "llama.v1"
  config := ⟨2,2,1,2,true⟩
  tensors := tinyTensors.map Prod.snd

/-- A tensor as it is sent. -/
def tinyRecord (tensor : String×TensorRecord) : WireMessages.TensorRecord :=
  ⟨tensor.1,"model.safetensors",WireMessages.DataType.f32.number,tensor.2.shape,0,
    tensor.2.numElements*4,roleNumber tensor.2.role,tensor.2.layerIndex,""⟩

/-- The manifest as it is sent. -/
def tinyWire : WireMessages.ModelManifest :=
  {(default : WireMessages.ModelManifest) with
    architecture := some ⟨"llama.v1","1",[]⟩
    config := some tinyConfig
    tensors := tinyTensors.map tinyRecord}

/-- A plan that splits after the first layer. -/
def tinyPlan : WireMessages.DeploymentPlan :=
  {(default : WireMessages.DeploymentPlan) with
    schemaVersion := some ⟨1,0⟩
    executionDtype := WireMessages.DataType.f32.number
    splitLayer := 1
    stages := [⟨0,"a",0,1,true,false,false,false⟩,⟨1,"b",1,2,false,true,true,true⟩]}

/-- A request for one of its stages. -/
def tinyRequest (index : ℕ) : LoadStageRequest := ⟨some tinyPlan,index,some tinyWire,[]⟩

/-- A model root with one file that holds the tensors. -/
def tinyFiles : Environment where
  contained := fun _ => .ok true
  openFile := fun _ => .ok fun name =>
    match tinyTensors.lookup name with
    | some tensor => .ok ⟨.f32,tensor.shape,0,tensor.numElements*4⟩
    | none => .error (.other "tensor not found")

/-- The tiny manifests agree. -/
theorem tiny_same : SameManifest tinyManifest tinyWire := by
  refine ⟨?_,rfl,rfl⟩
  change List.Forall₂ SameTensor (tinyTensors.map Prod.snd) (tinyTensors.map tinyRecord)
  rw [List.forall₂_map_left_iff,List.forall₂_map_right_iff,List.forall₂_same]
  exact fun tensor _ => ⟨rfl,rfl,rfl⟩

/-- The tiny requests are for the two stages of a split. -/
theorem tiny_stages : TwoStages (tinyRequest 0) (tinyRequest 1) 2 1 :=
  ⟨rfl,rfl,rfl,rfl,_,_,rfl,rfl,rfl,rfl,rfl⟩

/-- An accepted stage with its bytes. -/
theorem accepted_of_bytes {files : Environment} {request : LoadStageRequest} {bytes : ℕ}
    (h : (inspectDenseStage files request).toOption.map (·.float32WeightBytes)=some bytes) :
    ∃ source,inspectDenseStage files request=.ok source ∧ source.float32WeightBytes=bytes := by
  cases hinspect : inspectDenseStage files request with
  | error e =>
    rw [hinspect] at h
    cases h
  | ok source =>
    rw [hinspect] at h
    exact ⟨source,rfl,Option.some_injective _ h⟩

/-- The first stage is accepted. -/
theorem tiny_first_accepted : ∃ source,inspectDenseStage tinyFiles (tinyRequest 0)=.ok source ∧
    source.float32WeightBytes=192 :=
  accepted_of_bytes (by decide +kernel)

/-- The second stage is accepted. -/
theorem tiny_final_accepted : ∃ source,inspectDenseStage tinyFiles (tinyRequest 1)=.ok source ∧
    source.float32WeightBytes=200 :=
  accepted_of_bytes (by decide +kernel)

/-- Both stages are planned with twelve bytes of architecture state more than
they load. -/
theorem tiny_stage_weights :
    stageWeightBytes tinyManifest 0 1 true false .f32=192+12 ∧
      stageWeightBytes tinyManifest 1 2 false true .f32=200+12 := by
  obtain ⟨source,hfirst,hbytes⟩ := tiny_first_accepted
  obtain ⟨source',hfinal,hbytes'⟩ := tiny_final_accepted
  have hstate : bytesWhere tinyManifest (hasRole .architectureState)=12 := by decide +kernel
  obtain ⟨hzero,hone,-,-⟩ := stage_weights_agree tiny_same tiny_stages hfirst hfinal
  rw [hbytes,hstate] at hzero
  rw [hbytes',hstate] at hone
  exact ⟨hzero,hone⟩

/-- Both stages are accepted with a layer tensor that names no layer. The planner
counts it on neither, so the total misses its 28 bytes. -/
theorem stray_layer_uncounted :
    SameManifest tinyManifest tinyWire ∧ TwoStages (tinyRequest 0) (tinyRequest 1) 2 1 ∧
      (∃ source,inspectDenseStage tinyFiles (tinyRequest 0)=.ok source) ∧
      (∃ source,inspectDenseStage tinyFiles (tinyRequest 1)=.ok source) ∧
      strayTensor∈tinyManifest.tensors ∧ strayTensor.role=.transformerLayer ∧
      includes true 0 1 true false strayTensor=false ∧
      includes true 1 2 false true strayTensor=false ∧
      stageWeightBytes tinyManifest 0 1 true false .f32+
          stageWeightBytes tinyManifest 1 2 false true .f32+
          bytesWhere tinyManifest (hasRole .lmHead)+28=
        bytesWhere tinyManifest (fun _ => true)+
          bytesWhere tinyManifest (hasRole .tokenEmbedding)+
          bytesWhere tinyManifest (hasRole .architectureState) := by
  obtain ⟨source,hfirst,-⟩ := tiny_first_accepted
  obtain ⟨source',hfinal,-⟩ := tiny_final_accepted
  exact ⟨tiny_same,tiny_stages,⟨source,hfirst⟩,⟨source',hfinal⟩,by decide +kernel,rfl,rfl,rfl,
    by decide +kernel⟩

end Hllm.WeightEstimates
