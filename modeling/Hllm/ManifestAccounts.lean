import Hllm.PreparedLoading

/-!
# The bytes of a prepared manifest

Components are the tensors of one role and layer taken together, and tensors
lie apart in the data sections of their files. So every stored byte is counted
once by the components, and all of them together fit into the files.
-/

namespace Hllm.ManifestAccounts

open ManifestModels ModelPreparation PreparedManifests PreparedLoading Traversals
open DenseLoader (TensorMetadata)
open MemoryAccounting (call_bind check_iff)
open PlannerModels (TensorRole)
open SafetensorsAcceptance (byStart inspectRanges inspectRanges_ok_iff inspectHeader_ok_iff
  validRanges_of_sweep)
open SafetensorsReader (JsonParser byName byName_perm start finish)
open SortedLists (Compatible compatible_symm sweeps)

section Sums

variable {α κ : Type} (key : α → κ) (size : α → ℕ) (p : κ → Bool) {xs ys : List α}

/-- What the members of a list with certain keys take together. -/
def bytesOf (xs : List α) : ℕ := ((xs.filter fun x => p (key x)).map size).sum

/-- The first member of a list and the others. -/
theorem bytesOf_cons (x : α) : bytesOf key size p (x::xs)=
    (if p (key x)=true then size x else 0)+bytesOf key size p xs := by
  unfold bytesOf
  rw [List.filter_cons]
  by_cases hp : p (key x)=true
  · rw [if_pos hp,if_pos hp,List.map_cons,List.sum_cons]
  · rw [if_neg hp,if_neg hp,Nat.zero_add]

/-- The order does not matter. -/
theorem bytesOf_perm (h : xs.Perm ys) : bytesOf key size p xs=bytesOf key size p ys :=
  ((h.filter _).map size).sum_eq

/-- Every key. -/
theorem bytesOf_true : bytesOf key size (fun _ => true) xs=(xs.map size).sum := by
  unfold bytesOf
  rw [List.filter_true]

end Sums

section Components

variable {components : List ComponentMemory} {record : TensorRecord}
variable {records : List TensorRecord} (p : TensorRole×Option ℕ → Bool)

/-- What the tensors of a component have in common. -/
def componentKey (component : ComponentMemory) : TensorRole×Option ℕ :=
  (component.role,component.layerIndex)

/-- The component a tensor contributes to. -/
def recordKey (record : TensorRecord) : TensorRole×Option ℕ := (record.role,record.layerIndex)

/-- What the components of some roles and layers store. -/
def componentBytes (components : List ComponentMemory) : ℕ :=
  bytesOf componentKey (·.storageBytes) p components

/-- How long the tensors of some roles and layers are. -/
def recordBytes (records : List TensorRecord) : ℕ :=
  bytesOf recordKey (·.byteLength) p records

/-- A record adds its length to the components it counts for. -/
theorem componentBytes_addComponent : componentBytes p (addComponent components record)=
    componentBytes p components+(if p (recordKey record)=true then record.byteLength else 0) := by
  unfold componentBytes
  induction components with
  | nil =>
    rw [addComponent,bytesOf_cons,Nat.add_comm]
    rfl
  | cons component components ih =>
    rw [addComponent]
    by_cases hsame : component.role=record.role ∧ component.layerIndex=record.layerIndex
    · have hkey : componentKey component=recordKey record := Prod.ext hsame.1 hsame.2
      rw [if_pos hsame,bytesOf_cons,bytesOf_cons]
      change (if p (componentKey component)=true then component.storageBytes+record.byteLength
        else 0)+bytesOf componentKey (·.storageBytes) p components=_
      rw [hkey]
      split
      · omega
      · omega
    · rw [if_neg hsame,bytesOf_cons,bytesOf_cons,ih]
      omega

/-- The roles and layers of the components, in the order in which they came. -/
theorem keys_addComponent : (addComponent components record).map componentKey=
    if recordKey record∈components.map componentKey then components.map componentKey
    else components.map componentKey++[recordKey record] := by
  induction components with
  | nil => rfl
  | cons component components ih =>
    rw [addComponent]
    by_cases hsame : component.role=record.role ∧ component.layerIndex=record.layerIndex
    · have hkey : componentKey component=recordKey record := Prod.ext hsame.1 hsame.2
      rw [if_pos hsame,List.map_cons,List.map_cons,hkey,if_pos List.mem_cons_self]
      exact congrArg (·::components.map componentKey) hkey
    · have hkey : recordKey record≠componentKey component := by
        intro heq
        exact hsame ⟨(congrArg Prod.fst heq).symm,(congrArg Prod.snd heq).symm⟩
      rw [if_neg hsame,List.map_cons,List.map_cons,ih]
      by_cases hmem : recordKey record∈components.map componentKey
      · rw [if_pos hmem,if_pos (List.mem_cons_of_mem _ hmem)]
      · have hnot : recordKey record∉componentKey component::components.map componentKey := by
          rw [List.mem_cons]
          exact not_or.mpr ⟨hkey,hmem⟩
        rw [if_neg hmem,if_neg hnot,List.cons_append]

/-- What the components are while the records are taken one by one. -/
theorem foldl_addComponent (hkeys : (components.map componentKey).Nodup) :
    componentBytes p (records.foldl addComponent components)=
        componentBytes p components+recordBytes p records ∧
      ((records.foldl addComponent components).map componentKey).Nodup := by
  induction records generalizing components with
  | nil => exact ⟨rfl,hkeys⟩
  | cons record records ih =>
    have hnext : ((addComponent components record).map componentKey).Nodup := by
      rw [keys_addComponent]
      split
      · exact hkeys
      · rename_i hfresh
        rw [List.nodup_append]
        refine ⟨hkeys,List.nodup_singleton _,fun a ha b hb heq => hfresh ?_⟩
        rw [List.mem_singleton] at hb
        rw [←hb,←heq]
        exact ha
    obtain ⟨hbytes,hnodup⟩ := ih hnext
    refine ⟨?_,hnodup⟩
    rw [List.foldl_cons,hbytes,componentBytes_addComponent]
    unfold recordBytes
    rw [bytesOf_cons]
    omega

/-- Components take the tensors of every role and layer together, and no two are
of one role and layer. -/
theorem componentsOf_accounts : componentBytes p (componentsOf records)=recordBytes p records ∧
    ((componentsOf records).map componentKey).Nodup := by
  have hperm : (componentsOf records).Perm (records.foldl addComponent []) :=
    List.perm_insertionSort _ _
  have hnone : (([] : List ComponentMemory).map componentKey).Nodup := List.nodup_nil
  obtain ⟨hbytes,hnodup⟩ := @foldl_addComponent [] records p hnone
  refine ⟨?_,(hperm.map componentKey).nodup_iff.mpr hnodup⟩
  have hzero : componentBytes p []=0 := rfl
  rw [hzero,Nat.zero_add] at hbytes
  rw [←hbytes]
  exact bytesOf_perm _ _ _ hperm

end Components

section Files

variable {parser : JsonParser} {directory : ModelDirectory} {bytes : List UInt8}
variable {item : InspectedFile} {found : Findings}

/-- Ranges that were accepted fit behind one another. -/
theorem room_of_inspectRanges {dataSize previous : ℕ} {ranges : List (String×TensorMetadata)}
    (h : inspectRanges dataSize previous ranges=.ok ()) (hprevious : previous ≤ dataSize) :
    previous+(ranges.map fun t => t.2.byteLength).sum ≤ dataSize := by
  induction ranges generalizing previous with
  | nil => exact hprevious
  | cons t ranges ih =>
    unfold inspectRanges at h
    obtain ⟨hstart,h⟩ := check_iff.mp h
    obtain ⟨hfinish,h⟩ := check_iff.mp h
    have hrest := ih h (Nat.not_lt.mp hfinish)
    rw [List.map_cons,List.sum_cons]
    unfold finish at hrest
    unfold start at hstart
    omega

/-- What the data section of a container holds. -/
structure DataSection (item : InspectedFile) : Prop where
  /-- Its tensors fit next to one another. -/
  room : item.headerSizeBytes+(item.tensors.map fun t => t.2.byteLength).sum ≤ item.sizeBytes
  inside : ∀ t∈item.tensors,item.headerSizeBytes+finish t ≤ item.sizeBytes
  apart : item.tensors.Pairwise (Compatible start finish)

/-- The data section of a container that was inspected. -/
theorem dataSection_of_container (h : Container parser bytes item) : DataSection item := by
  obtain ⟨members,-,hheader⟩ := h.tensors
  obtain ⟨parsed,-,hsome,hsweeps,htensors⟩ := inspectHeader_ok_iff.mp hheader
  have hperm : (byStart item.tensors).Perm item.tensors := List.perm_insertionSort _ _
  rw [←htensors] at hsweeps
  have hinside := h.inside
  have hsize := h.size
  have hroom := room_of_inspectRanges (inspectRanges_ok_iff.mpr hsweeps) (Nat.zero_le _)
  rw [(hperm.map fun t => t.2.byteLength).sum_eq] at hroom
  have hne : item.tensors≠[] := by
    intro hnil
    rw [htensors] at hnil
    have hall := byName_perm parsed
    rw [hnil] at hall
    exact hsome hall.nil_eq.symm
  have hsorted : (byStart item.tensors).Pairwise fun a b => start a ≤ start b := by
    have htotal : Std.Total fun a b : String×TensorMetadata => start a ≤ start b :=
      ⟨fun a b => le_total _ _⟩
    have htrans : IsTrans (String×TensorMetadata) fun a b => start a ≤ start b :=
      ⟨fun a b c => le_trans⟩
    exact List.pairwise_insertionSort _ _
  obtain ⟨hvalid,-⟩ := validRanges_of_sweep hperm hne hsorted hsweeps
  refine ⟨?_,fun t ht => ?_,hvalid.compatible⟩
  · omega
  · have hfinish := hvalid.inside t ht
    omega

/-- Containers of one name hold the same tensors. -/
theorem tensors_of_name (hfound : Found parser directory found) {other : InspectedFile}
    (hitem : item∈found.inspected) (hother : other∈found.inspected)
    (hname : item.name=other.name) : item.tensors=other.tensors := by
  obtain ⟨-,bytes,hbytes,hcontainer⟩ := hfound.containers item hitem
  obtain ⟨-,bytes',hbytes',hcontainer'⟩ := hfound.containers other hother
  rw [hname,hbytes',Option.some.injEq] at hbytes
  subst hbytes
  have hsame : item.headerSizeBytes=other.headerSizeBytes :=
    hcontainer.header.trans hcontainer'.header.symm
  obtain ⟨members,hparse,hheader⟩ := hcontainer.tensors
  obtain ⟨members',hparse',hheader'⟩ := hcontainer'.tensors
  rw [hsame,hparse'] at hparse
  cases hparse
  rw [hsame,hheader'] at hheader
  exact (Except.ok.inj hheader).symm

/-- The records are as long as the tensors of the containers. -/
theorem lengths_of_findTensors (h : findTensors parser directory=.ok found) :
    (found.records.map (·.byteLength)).sum=
      (found.inspected.map fun item => (item.tensors.map fun t => t.2.byteLength).sum).sum := by
  unfold findTensors at h
  simp only [call_bind] at h
  obtain ⟨raw,-,adapter,-,description,-,⟨paths,weightMap,indexed⟩,-,inspected,-,tensors,htensors,
    _,-,records,hrecords,_,-,h⟩ := h
  cases h
  have hlengths : records.map (·.byteLength)=(byName tensors).map fun t => t.2.2.byteLength := by
    exact map_of_mapM hrecords fun entry record hrecord => (recordOf_ok hrecord).2.length
  have hplaced : ∀ item : InspectedFile,
      (placed item).map (fun t => t.2.2.byteLength)=item.tensors.map fun t => t.2.byteLength := by
    intro item
    rw [placed,List.map_map]
    rfl
  dsimp only
  rw [hlengths,((byName_perm tensors).map _).sum_eq,(tensorsByName_ok htensors).1,List.map_flatMap,
    List.flatMap_def,List.sum_flatten,List.map_map]
  simp only [hplaced,Function.comp_def]

end Files

section Manifests

variable {parser : JsonParser} {directory : ModelDirectory} {digests : Digests}
variable {modelId revision : Option String} {mode : HashMode} {manifest : ModelManifest}

/-- What a manifest says of the bytes of its tensors. -/
structure Accounts (manifest : ModelManifest) : Prop where
  /-- Whatever roles and layers are asked for, the components store what the
  tensors of these roles and layers store. -/
  components : ∀ p,componentBytes p manifest.components=recordBytes p manifest.tensors
  distinct : (manifest.components.map componentKey).Nodup
  total : manifest.totalStorageBytes=(manifest.components.map (·.storageBytes)).sum
  /-- All tensors fit into the data sections of the files together. -/
  room : (manifest.tensorFiles.map (·.headerSizeBytes)).sum+manifest.totalStorageBytes ≤
    (manifest.tensorFiles.map (·.sizeBytes)).sum
  /-- Every tensor lies in its file, behind the header. -/
  inside : ∀ record∈manifest.tensors,∃ file∈manifest.tensorFiles,file.name=record.file ∧
    file.headerSizeBytes+record.dataOffset+record.byteLength ≤ file.sizeBytes
  /-- Tensors of one file that store anything lie apart. -/
  apart : ∀ record∈manifest.tensors,∀ other∈manifest.tensors,record.file=other.file →
    record.name≠other.name → 0 < record.byteLength → 0 < other.byteLength →
    record.dataOffset+record.byteLength ≤ other.dataOffset ∨
      other.dataOffset+other.byteLength ≤ record.dataOffset

/-- The manifest of every model that is prepared accounts for the bytes of its
tensors. -/
theorem prepared_manifest_accounts
    (h : prepareModel parser digests directory modelId revision mode=.ok manifest) :
    Accounts manifest := by
  unfold prepareModel at h
  cases hfindings : findTensors parser directory with
  | error e =>
    rw [hfindings] at h
    cases h
  | ok found =>
    rw [hfindings] at h
    cases h
    have hfound := findTensors_ok hfindings
    have hsections : ∀ item∈found.inspected,DataSection item := by
      intro item hitem
      obtain ⟨-,bytes,-,hcontainer⟩ := hfound.containers item hitem
      exact dataSection_of_container hcontainer
    refine ⟨fun p => (componentsOf_accounts p).1,(componentsOf_accounts fun _ => true).2,?_,?_,
      fun record hrecord => ?_,fun record hrecord other hother hfile hname hlong hlong' => ?_⟩
    · have hall := (@componentsOf_accounts found.records fun _ => true).1
      unfold componentBytes recordBytes at hall
      rw [bytesOf_true,bytesOf_true] at hall
      exact hall.symm
    · change ((found.inspected.map fun item => _).map _).sum+
        (found.records.map (·.byteLength)).sum ≤ ((found.inspected.map fun item => _).map _).sum
      rw [lengths_of_findTensors hfindings,List.map_map,List.map_map,←List.sum_map_add]
      exact List.sum_le_sum fun item hitem => (hsections item hitem).room
    · obtain ⟨item,hitem,tensor,htensor,hrecorded⟩ := hfound.origin record hrecord
      have hinside := (hsections item hitem).inside _ htensor
      refine ⟨_,List.mem_map_of_mem hitem,hrecorded.file.symm,?_⟩
      rw [hrecorded.offset,hrecorded.length]
      unfold finish at hinside
      dsimp only at hinside ⊢
      omega
    · obtain ⟨item,hitem,tensor,htensor,hrecorded⟩ := hfound.origin record hrecord
      obtain ⟨item',hitem',tensor',htensor',hrecorded'⟩ := hfound.origin other hother
      have hsame : item.name=item'.name := by
        rw [←hrecorded.file,←hrecorded'.file]
        exact hfile
      rw [←tensors_of_name hfound hitem hitem' hsame] at htensor'
      have hsymm : Std.Symm (Compatible start finish) := ⟨fun a b => compatible_symm⟩
      have hne : (record.name,tensor)≠(other.name,tensor') :=
        fun heq => hname (congrArg Prod.fst heq)
      have hcompatible := (hsections item hitem).apart.forall htensor htensor' hne
      rw [hrecorded.length] at hlong
      rw [hrecorded'.length] at hlong'
      rw [hrecorded.offset,hrecorded.length,hrecorded'.offset,hrecorded'.length]
      exact hcompatible.1 (Nat.lt_add_of_pos_right hlong) (Nat.lt_add_of_pos_right hlong')

/-- The manifest of a model with one layer accounts for its tensors. -/
theorem tiny_manifest_accounts :
    ∃ manifest,prepareModel tinyParser tinyDigests tinyDirectory none none .metadata=.ok manifest ∧
      Accounts manifest := by
  have hchecks := tiny_prepared
  cases hprepared : prepareModel tinyParser tinyDigests tinyDirectory none none .metadata with
  | error e =>
    rw [hprepared] at hchecks
    cases hchecks
  | ok manifest => exact ⟨manifest,rfl,prepared_manifest_accounts hprepared⟩

end Manifests

end Hllm.ManifestAccounts
