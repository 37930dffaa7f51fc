import Hllm.SafetensorsReader

/-!
# Both readers of weight files

`inspect_safetensors` reads the same headers before a plan is made. Both
readers should accept exactly the headers whose entries describe tensors in the
data section that do not overlap. They compare each start with the end before
it after a sort by the starts alone, so an empty tensor that shares its start
with a nonempty one is judged by how the sort breaks the tie; and only the
native reader computes products in words and refuses a zero with a sign.
-/

namespace Hllm.SafetensorsAcceptance

open MemoryAccounting (call_bind check_iff)
open SafetensorsReader SortedLists Traversals
open ControlModel (Failure)
open DenseLoader (TensorMetadata)

/-- `SafetensorsError` of the inspection, once the header has been parsed. -/
inductive HeaderError
  | metadataNotObject (name : String)
  | invalidMetadata (name : String)
  | invalidDtype (name : String)
  | unsupportedDtype (name dtype : String)
  | invalidShape (name : String)
  | invalidOffsets (name : String)
  | invalidRange (name : String)
  | byteLength (name : String) (actual expected : ℤ)
  | noTensors
  | overlaps (name : String)
  | extendsBeyond (name : String)
  deriving DecidableEq

/-- The dtype of an entry. -/
def parseDtype (name : String) : Json → Except HeaderError WireMessages.DataType
  | .string raw =>
    match dtypeNames.lookup raw with
    | some dtype => .ok dtype
    | none => .error (.unsupportedDtype name raw)
  | _ => .error (.invalidDtype name)

/-- A dimension that is an integer and not negative. -/
def dimension (name : String) (item : Json) : Except HeaderError ℕ :=
  match item.number with
  | some n => if 0 ≤ n then .ok n.toNat else .error (.invalidShape name)
  | none => .error (.invalidShape name)

/-- The shape of an entry. -/
def parseShape (name : String) : Json → Except HeaderError (List ℕ)
  | .array items => items.mapM (dimension name)
  | _ => .error (.invalidShape name)

/-- The offsets of an entry. -/
def parseOffsets (name : String) : Json → Except HeaderError (ℤ×ℤ)
  | .array [first,last] =>
    match first.number,last.number with
    | some start,some finish => .ok (start,finish)
    | _,_ => .error (.invalidOffsets name)
  | _ => .error (.invalidOffsets name)

/-- A range of an entry starts in the data section and is not reversed. -/
def parseRange (name : String) (start finish : ℤ) : Except HeaderError Unit :=
  if start < 0 ∨ finish < start then .error (.invalidRange name) else .ok ()

/-- `_parse_entry` once the entry is an object with all its keys. -/
def parseFields (name : String) (dtype shape offsets : Json) :
    Except HeaderError TensorMetadata := do
  let dtype ← parseDtype name dtype
  let shape ← parseShape name shape
  let (start,finish) ← parseOffsets name offsets
  parseRange name start finish
  let expected : ℤ := shape.prod*dataTypeBytes dtype
  if finish-start≠expected then .error (.byteLength name (finish-start) expected)
  else .ok ⟨dtype,shape,start.toNat,(finish-start).toNat⟩

/-- `_parse_entry` -/
def parseEntry (name : String) : Json → Except HeaderError TensorMetadata
  | .object entry =>
    match entry.lookup "dtype",entry.lookup "shape",entry.lookup "data_offsets" with
    | some dtype,some shape,some offsets => parseFields name dtype shape offsets
    | _,_,_ => .error (.invalidMetadata name)
  | _ => .error (.metadataNotObject name)

/-- A member of the header with its parsed entry. -/
def inspectMember (member : String×Json) : Except HeaderError (String×TensorMetadata) :=
  (parseEntry member.1 member.2).map (Prod.mk member.1)

/-- The loop over the ranges. -/
def inspectRanges (dataSize : ℕ) : ℕ → List (String×TensorMetadata) → Except HeaderError Unit
  | _,[] => .ok ()
  | previousEnd,t::ranges =>
    if start t < previousEnd then .error (.overlaps t.1)
    else if dataSize < finish t then .error (.extendsBeyond t.1)
    else inspectRanges dataSize (finish t) ranges

/-- Ranges in the order of their starts; ties stay in the order of the names. -/
def byStart (tensors : List (String×TensorMetadata)) : List (String×TensorMetadata) :=
  tensors.insertionSort fun a b => start a ≤ start b

/-- `inspect_safetensors` from the parsed header on; returns its tensors. -/
def inspectHeader (members : List (String×Json)) (dataSize : ℕ) :
    Except HeaderError (List (String×TensorMetadata)) := do
  let parsed ← (tensorMembers members).mapM inspectMember
  let tensors := byName parsed
  if tensors=[] then .error .noTensors
  else do
    inspectRanges dataSize 0 (byStart tensors)
    pure tensors

/-- Integers in the shape and the offsets of an entry are words. -/
def NumbersInRange (entry : Json) : Prop :=
  ∀ fields,entry=.object fields → ∀ key∈["shape","data_offsets"],∀ items,
    fields.lookup key=some (.array items) → ∀ n,.integer n∈items → 0 ≤ n ∧ n < 2^64

/-- A parsed header. -/
structure Header where
  members : List (String×Json)
  /-- Members are kept in a map. -/
  distinct : (members.map Prod.fst).Nodup
  inRange : ∀ member∈members,NumbersInRange member.2

/-- The entries of a header that are tensors, without their names. -/
def Header.entries (header : Header) : List Json :=
  (tensorMembers header.members).map Prod.snd

/-- What a header should be to be accepted: it has a tensor, every entry
describes one, all lie in the data section, nonempty ones are disjoint, and no
empty one is strictly inside another. -/
def Valid (entries : List Json) (dataSize : ℕ) : Prop :=
  ∃ tensors,List.Forall₂ Describes entries tensors ∧ tensors≠[] ∧
    (∀ t∈tensors,t.dataOffset+t.byteLength ≤ dataSize) ∧
    tensors.Pairwise (Compatible (·.dataOffset) fun t => t.dataOffset+t.byteLength)

/-- Both readers accept exactly the valid headers, whatever the names of the
tensors, the order of the header and the order of ties, and report the same. -/
def Exact (header : Header) (dataSize : ℕ) : Prop :=
  ∀ renamed : Header,renamed.entries.Perm header.entries →
    ((∃ tensors,inspectHeader renamed.members dataSize=.ok tensors) ↔
      Valid header.entries dataSize) ∧
    ∀ sorting,((∃ tensors,readHeader sorting renamed.members dataSize=.ok tensors) ↔
        Valid header.entries dataSize) ∧
      ∀ tensors tensors',inspectHeader renamed.members dataSize=.ok tensors →
        readHeader sorting renamed.members dataSize=.ok tensors' → tensors=tensors'

section Entries

variable {name : String} {json : Json} {tensor : TensorMetadata}

/-- A dimension is inspected when it is a natural number. -/
theorem dimension_ok_iff {item : Json} {d : ℕ} :
    dimension name item=.ok d ↔ item.number=some (d : ℤ) := by
  unfold dimension
  cases item.number with
  | none => exact ⟨nofun,nofun⟩
  | some n =>
    simp only
    split
    · rename_i hn
      rw [Except.ok.injEq,Option.some.injEq]
      omega
    · rename_i hn
      rw [Option.some.injEq]
      exact ⟨nofun,fun h => absurd (by omega) hn⟩

/-- A shape is inspected when all its dimensions are natural numbers. -/
theorem mapM_dimension_iff {items : List Json} {shape : List ℕ} :
    items.mapM (dimension name)=.ok shape ↔
      items.map Json.number=shape.map fun d : ℕ => some (d : ℤ) := by
  rw [mapM_ok_iff]
  induction items generalizing shape with
  | nil =>
    cases shape with
    | nil => exact ⟨fun _ => rfl,fun _ => rfl⟩
    | cons d shape => exact ⟨nofun,nofun⟩
  | cons item items ih =>
    cases shape with
    | nil => exact ⟨nofun,nofun⟩
    | cons d shape =>
      rw [List.map_cons,List.map_cons,List.map_cons,List.map_cons,List.cons.injEq,
        List.cons.injEq,dimension_ok_iff]
      exact and_congr_right fun _ => ih

/-- Offsets are inspected when both are integers. -/
theorem parseOffsets_ok_iff {start finish : ℤ} : parseOffsets name json=.ok (start,finish) ↔
    ∃ first last,json=.array [first,last] ∧ first.number=some start ∧
      last.number=some finish := by
  constructor
  · intro h
    unfold parseOffsets at h
    split at h
    · rename_i first last
      split at h
      · rename_i a b hfirst hlast
        cases h
        exact ⟨first,last,rfl,hfirst,hlast⟩
      · cases h
    · cases h
  · rintro ⟨first,last,rfl,hfirst,hlast⟩
    simp only [parseOffsets,hfirst,hlast]

/-- The inspection reads exactly the descriptions. -/
theorem parseEntry_ok_iff : parseEntry name json=.ok tensor ↔ Describes json tensor := by
  constructor
  · intro h
    unfold parseEntry at h
    split at h
    · rename_i entry
      split at h
      · rename_i dtype shape offsets hdtype hshape hoffsets
        unfold parseFields at h
        simp only [call_bind] at h
        obtain ⟨kind,hkind,dims,hdims,⟨start,finish⟩,hrange,_,hordered,h⟩ := h
        obtain ⟨hlength,h⟩ := check_iff.mp h
        cases h
        rw [not_not] at hlength
        unfold parseRange at hordered
        obtain ⟨hordered,-⟩ := check_iff.mp hordered
        obtain ⟨first,last,rfl,hfirst,hlast⟩ := parseOffsets_ok_iff.mp hrange
        unfold parseDtype at hkind
        split at hkind
        · rename_i raw
          split at hkind
          · rename_i found hfound
            cases hkind
            unfold parseShape at hdims
            split at hdims
            · rename_i items
              have hstart : (start.toNat : ℤ)=start := Int.toNat_of_nonneg (by omega)
              have hbytes : ((finish-start).toNat : ℤ)=finish-start :=
                Int.toNat_of_nonneg (by omega)
              refine .entry entry raw items first last
                ⟨kind,dims,start.toNat,(finish-start).toNat⟩ hdtype hfound hshape
                (mapM_dimension_iff.mp hdims) hoffsets ?_ ?_ ?_
              · rw [hstart]
                exact hfirst
              · push_cast
                rw [hstart,hbytes,add_sub_cancel]
                exact hlast
              · have hcast : ((finish-start).toNat : ℤ)=(dims.prod*dataTypeBytes kind : ℕ) := by
                  rw [hbytes,hlength]
                  push_cast
                  rfl
                exact_mod_cast hcast
            · cases hdims
          · cases hkind
        · cases hkind
      · cases h
    · cases h
  · intro h
    cases h with
    | entry entry raw items first last tensor hdtype hsupported hshape hdims hoffsets hfirst hlast
        hlength =>
      unfold parseEntry
      simp only [hdtype,hshape,hoffsets]
      unfold parseFields
      simp only [call_bind]
      refine ⟨tensor.dtype,by simp only [parseDtype,hsupported],tensor.shape,
        mapM_dimension_iff.mpr hdims,
        ((tensor.dataOffset : ℤ),((tensor.dataOffset+tensor.byteLength : ℕ) : ℤ)),
        parseOffsets_ok_iff.mpr ⟨first,last,rfl,hfirst,hlast⟩,(),?_,?_⟩
      · exact if_neg (by omega)
      · refine check_iff.mpr ⟨?_,?_⟩
        · rw [not_not,←Nat.cast_mul,←hlength]
          omega
        · have hbytes : ((tensor.dataOffset+tensor.byteLength : ℕ) : ℤ)-tensor.dataOffset=
              tensor.byteLength := by omega
          rw [hbytes,Int.toNat_natCast,Int.toNat_natCast]

/-- An entry describes one tensor. -/
theorem describes_unique {tensor' : TensorMetadata} (h : Describes json tensor)
    (h' : Describes json tensor') : tensor=tensor' := by
  have hread := (@parseEntry_ok_iff "" json tensor).mpr h
  have hread' := (@parseEntry_ok_iff "" json tensor').mpr h'
  rw [hread] at hread'
  exact Except.ok.inj hread'

/-- The loop of the inspection is a sweep. -/
theorem inspectRanges_ok_iff {dataSize previous : ℕ} {ranges : List (String×TensorMetadata)} :
    inspectRanges dataSize previous ranges=.ok () ↔
      sweeps start finish dataSize previous ranges=true := by
  induction ranges generalizing previous with
  | nil => exact ⟨fun _ => rfl,fun _ => rfl⟩
  | cons t ranges ih =>
    unfold inspectRanges sweeps
    rw [check_iff,check_iff,ih,Bool.and_eq_true,Bool.and_eq_true,decide_eq_true_eq,
      decide_eq_true_eq,Nat.not_lt,Nat.not_lt,and_assoc]

/-- The inspection accepts a header that has tensors, each of which is
described, and whose ranges pass the sweep. -/
theorem inspectHeader_ok_iff {members : List (String×Json)} {dataSize : ℕ}
    {tensors : List (String×TensorMetadata)} :
    inspectHeader members dataSize=.ok tensors ↔
    ∃ parsed,(tensorMembers members).mapM inspectMember=.ok parsed ∧ parsed≠[] ∧
      sweeps start finish dataSize 0 (byStart (byName parsed))=true ∧ tensors=byName parsed := by
  have hnil : ∀ parsed : List (String×TensorMetadata),byName parsed=[] ↔ parsed=[] := by
    intro parsed
    constructor
    · intro h
      have hperm := byName_perm parsed
      rw [h] at hperm
      exact hperm.nil_eq.symm
    · rintro rfl
      rfl
  unfold inspectHeader
  rw [call_bind]
  refine exists_congr fun parsed => and_congr_right fun _ => ?_
  rw [check_iff,hnil,call_bind]
  refine and_congr_right fun _ => ?_
  constructor
  · rintro ⟨_,hranges,h⟩
    exact ⟨inspectRanges_ok_iff.mp hranges,(Except.ok.inj h).symm⟩
  · rintro ⟨hsweeps,rfl⟩
    exact ⟨(),inspectRanges_ok_iff.mpr hsweeps,rfl⟩

end Entries

section Members

variable {ms : List (String×Json)} {ts : List (String×TensorMetadata)}

/-- A member is inspected under its name. -/
theorem inspectMember_ok_iff {member : String×Json} {t : String×TensorMetadata} :
    inspectMember member=.ok t ↔ t.1=member.1 ∧ Describes member.2 t.2 := by
  unfold inspectMember
  rw [←@parseEntry_ok_iff member.1]
  cases parseEntry member.1 member.2 with
  | error e => exact ⟨nofun,fun h => nomatch h.2⟩
  | ok tensor =>
    constructor
    · intro h
      cases h
      exact ⟨rfl,rfl⟩
    · rintro ⟨hname,htensor⟩
      cases htensor
      rw [←hname]
      rfl

/-- Members are inspected when their entries describe tensors. -/
theorem mapM_inspectMember_iff : ms.mapM inspectMember=.ok ts ↔
    ts.map Prod.fst=ms.map Prod.fst ∧
      List.Forall₂ Describes (ms.map Prod.snd) (ts.map Prod.snd) := by
  rw [mapM_ok_iff]
  induction ms generalizing ts with
  | nil =>
    cases ts with
    | nil => exact ⟨fun _ => ⟨rfl,.nil⟩,fun _ => rfl⟩
    | cons t ts => exact ⟨nofun,fun h => nomatch h.1⟩
  | cons m ms ih =>
    cases ts with
    | nil => exact ⟨nofun,fun h => nomatch h.1⟩
    | cons t ts =>
      rw [List.map_cons,List.map_cons,List.map_cons,List.map_cons,List.map_cons,List.map_cons,
        List.cons.injEq,List.cons.injEq,List.forall₂_cons,@ih ts,inspectMember_ok_iff]
      constructor
      · rintro ⟨⟨hname,hentry⟩,hnames,hentries⟩
        exact ⟨⟨hname,hnames⟩,hentry,hentries⟩
      · rintro ⟨⟨hname,hnames⟩,hentry,hentries⟩
        exact ⟨⟨hname,hentry⟩,hnames,hentries⟩

/-- Members that are parsed natively are inspected alike. -/
theorem mapM_parseMember_iff : ms.mapM parseMember=.ok ts ↔ ms.mapM inspectMember=.ok ts ∧
    (∀ m∈ms,Unsigned m.2) ∧ ∀ t∈ts,Guarded t.2 ∧ (∀ d∈t.2.shape,d < 2^64) ∧ finish t < 2^64 := by
  rw [mapM_ok_iff,mapM_ok_iff]
  induction ms generalizing ts with
  | nil =>
    cases ts with
    | nil =>
      exact ⟨fun _ => ⟨rfl,fun m hm => absurd hm List.not_mem_nil,
        fun t ht => absurd ht List.not_mem_nil⟩,fun _ => rfl⟩
    | cons t ts => exact ⟨nofun,fun h => nomatch h.1⟩
  | cons m ms ih =>
    cases ts with
    | nil => exact ⟨nofun,fun h => nomatch h.1⟩
    | cons t ts =>
      rw [List.map_cons,List.map_cons,List.map_cons,List.map_cons,List.cons.injEq,
        List.cons.injEq,List.forall_mem_cons,List.forall_mem_cons,@ih ts,parseMember_ok_iff,
        parseTensor_ok_iff,inspectMember_ok_iff]
      constructor
      · rintro ⟨⟨hname,hentry,hunsigned,hwords⟩,hentries,hsigns,hall⟩
        exact ⟨⟨⟨hname,hentry⟩,hentries⟩,⟨hunsigned,hsigns⟩,hwords,hall⟩
      · rintro ⟨⟨⟨hname,hentry⟩,hentries⟩,⟨hunsigned,hsigns⟩,hwords,hall⟩
        exact ⟨⟨hname,hentry,hunsigned,hwords⟩,hentries,hsigns,hall⟩

/-- Lists without repeated names that hold the same are sorted alike. -/
theorem byName_eq_of_perm {ts' : List (String×TensorMetadata)} (h : ts.Perm ts')
    (hdistinct : (ts.map Prod.fst).Nodup) : byName ts=byName ts' := by
  have hsorted := List.pairwise_map.mp (byName_sorted hdistinct)
  have hsorted' := List.pairwise_map.mp
    (byName_sorted ((h.map Prod.fst).nodup_iff.mp hdistinct))
  refine List.Perm.eq_of_pairwise (fun a b _ _ hab hba => absurd (hab.trans hba) (lt_irrefl _))
    hsorted hsorted' ?_
  exact (byName_perm ts).trans (h.trans (byName_perm ts').symm)

/-- Sorting by the starts keeps the tensors. -/
theorem byStart_perm : (byStart ts).Perm ts := List.perm_insertionSort _ ts

/-- Tensors in the order of their starts. -/
theorem byStart_sorted : (byStart ts).Pairwise fun a b => start a ≤ start b := by
  have htotal : Std.Total fun a b : String×TensorMetadata => start a ≤ start b :=
    ⟨fun a b => Nat.le_total _ _⟩
  have htrans : IsTrans (String×TensorMetadata) fun a b => start a ≤ start b :=
    ⟨fun a b c hab hbc => Nat.le_trans hab hbc⟩
  exact List.pairwise_insertionSort _ ts

end Members

section Ranges

variable {dataSize : ℕ} {ts zs : List (String×TensorMetadata)}

/-- Ranges that are valid but for how ties are ordered. -/
structure ValidRanges (dataSize : ℕ) (ts : List (String×TensorMetadata)) : Prop where
  some : ts≠[]
  inside : ∀ t∈ts,finish t ≤ dataSize
  compatible : ts.Pairwise (Compatible start finish)

/-- No nonempty tensor starts where an empty one does. -/
def NoTies (ts : List (String×TensorMetadata)) : Prop :=
  ∀ a∈ts,∀ b∈ts,¬Ties start finish a b

/-- An accepted sweep of sorted ranges leaves them valid. -/
theorem validRanges_of_sweep (hperm : zs.Perm ts) (hsome : ts≠[])
    (hsorted : zs.Pairwise fun a b => start a ≤ start b)
    (h : sweeps start finish dataSize 0 zs=true) :
    ValidRanges dataSize ts ∧ zs.Pairwise fun a b => ¬Ties start finish a b := by
  obtain ⟨hinside,hcompatible,hties⟩ :=
    (sweeps_sorted_iff (fun t _ => Nat.le_add_right _ _) hsorted).mp h
  exact ⟨⟨hsome,fun t ht => hinside t (hperm.mem_iff.mpr ht),
    (hperm.pairwise_iff compatible_symm).mp hcompatible⟩,hties⟩

/-- Valid ranges without ties pass a sweep in any order of their starts. -/
theorem sweep_of_validRanges (hperm : zs.Perm ts)
    (hsorted : zs.Pairwise fun a b => start a ≤ start b) (h : ValidRanges dataSize ts)
    (hties : NoTies ts) : sweeps start finish dataSize 0 zs=true := by
  refine (sweeps_sorted_iff (fun t _ => Nat.le_add_right _ _) hsorted).mpr
    ⟨fun t ht => h.inside t (hperm.mem_iff.mp ht),
      (hperm.pairwise_iff compatible_symm).mpr h.compatible,?_⟩
  refine List.pairwise_of_forall_mem_list ?_
  exact fun a ha b hb => hties a (hperm.mem_iff.mp ha) b (hperm.mem_iff.mp hb)

/-- Some sort puts tied ranges in the wrong order. -/
theorem exists_tied_sort {a b : String×TensorMetadata} (ha : a∈ts) (hb : b∈ts)
    (hties : Ties start finish a b) :
    ∃ sorting : RangeSort,¬(sorting.sort ts).Pairwise fun a b => ¬Ties start finish a b := by
  classical
  have hne : b≠a := by
    rintro rfl
    obtain ⟨-,hnonempty,hempty⟩ := hties
    omega
  have hrest : b∈ts.erase a := (List.mem_erase_of_ne hne).mpr hb
  have hperm : (a::b::(ts.erase a).erase b).Perm ts :=
    ((List.perm_cons_erase hrest).symm.cons a).trans (List.perm_cons_erase ha).symm
  obtain ⟨zs,hzs,hsorted,hnot⟩ := exists_tied_order hperm hties
  refine ⟨⟨fun xs => if xs=ts then zs else byStart xs,fun xs => ?_,fun xs => ?_⟩,?_⟩
  · by_cases hxs : xs=ts
    · rw [if_pos hxs,hxs]
      exact hzs
    · rw [if_neg hxs]
      exact byStart_perm
  · by_cases hxs : xs=ts
    · rw [if_pos hxs]
      exact hsorted
    · rw [if_neg hxs]
      exact byStart_sorted
  · simp only [if_true]
    exact hnot

end Ranges

section Headers

variable {header renamed : Header} {dataSize : ℕ} {parsed : List (String×TensorMetadata)}

/-- No nonempty tensor starts where an empty one does, no leading part of a shape
overflows a word, and no number is written `-0`. -/
structure Unambiguous (entries : List Json) : Prop where
  noTies : ∀ e∈entries,∀ e'∈entries,∀ a b,Describes e a → Describes e' b →
    ¬(a.dataOffset=b.dataOffset ∧ 0 < a.byteLength ∧ b.byteLength=0)
  guarded : ∀ e∈entries,∀ t,Describes e t → Guarded t
  unsigned : ∀ e∈entries,Unsigned e

/-- An inspected tensor is described by an entry. -/
theorem described_of_mem (h : (tensorMembers header.members).mapM inspectMember=.ok parsed)
    {t : String×TensorMetadata} (ht : t∈parsed) : ∃ e∈header.entries,Describes e t.2 := by
  obtain ⟨m,hm,hok⟩ := exists_of_mem_result h ht
  exact ⟨m.2,List.mem_map_of_mem hm,(inspectMember_ok_iff.mp hok).2⟩

/-- A natural number of a list whose integers are words. -/
theorem word_of_number {items : List Json} (hrange : ∀ n,.integer n∈items → 0 ≤ n ∧ n < 2^64)
    {item : Json} (hitem : item∈items) {n : ℕ} (h : item.number=some (n : ℤ)) : n < 2^64 := by
  cases item with
  | integer z =>
    cases h
    have hword := (hrange _ hitem).2
    omega
  | negativeZero =>
    rw [Json.number,Option.some.injEq] at h
    omega
  | _ => cases h

/-- Its numbers are words. -/
theorem words_of_mem (h : (tensorMembers header.members).mapM inspectMember=.ok parsed)
    {t : String×TensorMetadata} (ht : t∈parsed) :
    (∀ d∈t.2.shape,d < 2^64) ∧ finish t < 2^64 := by
  obtain ⟨m,hm,hok⟩ := exists_of_mem_result h ht
  have hrange := header.inRange m (List.mem_filter.mp hm).1
  have hentry := (inspectMember_ok_iff.mp hok).2
  generalize m.2=entry at hrange hentry
  unfold finish
  generalize t.2=tensor at hentry ⊢
  cases hentry with
  | entry fields raw items first last tensor hdtype hsupported hshape hdims hoffsets hfirst hlast
      hlength =>
    constructor
    · intro d hd
      have hnumber : some (d : ℤ)∈items.map Json.number := by
        rw [hdims]
        exact List.mem_map_of_mem hd
      obtain ⟨item,hitem,hnumber⟩ := List.mem_map.mp hnumber
      exact word_of_number (hrange fields rfl "shape" (.head _) _ hshape) hitem hnumber
    · exact word_of_number (hrange fields rfl "data_offsets" (.tail _ (.head _)) _ hoffsets)
        (.tail _ (.head _)) hlast

/-- A header is valid when the inspection reads valid ranges from it. -/
theorem valid_iff : Valid header.entries dataSize ↔
    ∃ parsed,(tensorMembers header.members).mapM inspectMember=.ok parsed ∧
      ValidRanges dataSize parsed := by
  constructor
  · rintro ⟨tensors,hentries,hsome,hinside,hcompatible⟩
    have hlength : ((tensorMembers header.members).map Prod.fst).length=tensors.length := by
      rw [←hentries.length_eq]
      unfold Header.entries
      rw [List.length_map,List.length_map]
    have hnames := List.map_fst_zip (Nat.le_of_eq hlength)
    have hmetas := List.map_snd_zip (Nat.le_of_eq hlength.symm)
    generalize ((tensorMembers header.members).map Prod.fst).zip tensors=ts at hnames hmetas
    refine ⟨ts,mapM_inspectMember_iff.mpr ⟨hnames,?_⟩,?_,fun t ht => ?_,?_⟩
    · rw [hmetas]
      exact hentries
    · rintro rfl
      exact hsome hmetas.symm
    · exact hinside t.2 (hmetas ▸ List.mem_map_of_mem ht)
    · rw [←hmetas] at hcompatible
      have hpairs := List.pairwise_map.mp hcompatible
      exact hpairs
  · rintro ⟨parsed,hparsed,hvalid⟩
    refine ⟨parsed.map Prod.snd,(mapM_inspectMember_iff.mp hparsed).2,?_,?_,
      List.pairwise_map.mpr hvalid.compatible⟩
    · intro hnil
      exact hvalid.some (List.map_eq_nil_iff.mp hnil)
    · intro t ht
      obtain ⟨named,hnamed,rfl⟩ := List.mem_map.mp ht
      exact hvalid.inside named hnamed

/-- Validity does not depend on the order of the entries. -/
theorem valid_perm {entries entries' : List Json} (h : entries.Perm entries')
    (hvalid : Valid entries' dataSize) : Valid entries dataSize := by
  obtain ⟨tensors,hentries,hsome,hinside,hcompatible⟩ := hvalid
  obtain ⟨tensors',hentries',hperm⟩ := List.perm_comp_forall₂ h hentries
  refine ⟨tensors',hentries',?_,fun t ht => hinside t (hperm.mem_iff.mp ht),
    (hperm.pairwise_iff compatible_symm).mpr hcompatible⟩
  rintro rfl
  exact hsome hperm.nil_eq.symm

/-- The inspection accepts only valid headers, and all that have no ties. -/
theorem inspect_accepts (hunambiguous : Valid header.entries dataSize → Unambiguous header.entries) :
    (∃ tensors,inspectHeader header.members dataSize=.ok tensors) ↔
      Valid header.entries dataSize := by
  have hperm : ∀ ts,(byStart (byName ts)).Perm ts := fun ts => byStart_perm.trans (byName_perm ts)
  constructor
  · rintro ⟨tensors,h⟩
    obtain ⟨parsed,hparsed,hsome,hsweeps,-⟩ := inspectHeader_ok_iff.mp h
    exact valid_iff.mpr ⟨parsed,hparsed,
      (validRanges_of_sweep (hperm parsed) hsome byStart_sorted hsweeps).1⟩
  · intro hvalid
    obtain ⟨parsed,hparsed,hranges⟩ := valid_iff.mp hvalid
    refine ⟨byName parsed,inspectHeader_ok_iff.mpr ⟨parsed,hparsed,hranges.some,?_,rfl⟩⟩
    refine sweep_of_validRanges (hperm parsed) byStart_sorted hranges fun a ha b hb hties => ?_
    obtain ⟨e,he,hea⟩ := described_of_mem hparsed ha
    obtain ⟨e',he',heb⟩ := described_of_mem hparsed hb
    obtain ⟨hsame,hnonempty,hempty⟩ := hties
    unfold start at hsame hnonempty hempty
    unfold finish at hnonempty hempty
    exact (hunambiguous hvalid).noTies e he e' he' a.2 b.2 hea heb ⟨hsame,by omega,by omega⟩

/-- The members of a header in the order in which the native reader parses them. -/
theorem tensorMembers_perm (members : List (String×Json)) :
    (tensorMembers (byName members)).Perm (tensorMembers members) :=
  (byName_perm members).filter _

/-- The native reader parses what the inspection parses, in another order. -/
theorem exists_native_parsed (hparsed :
      (tensorMembers header.members).mapM inspectMember=.ok parsed)
    (hunsigned : ∀ e∈header.entries,Unsigned e) (hguarded : ∀ t∈parsed,Guarded t.2) :
    ∃ parsed',(tensorMembers (byName header.members)).mapM parseMember=.ok parsed' ∧
      parsed'.Perm parsed := by
  have hperm := tensorMembers_perm header.members
  have hall : ∀ m∈tensorMembers (byName header.members),∃ t,inspectMember m=.ok t := by
    intro m hm
    exact mapM_exists_iff.mp ⟨parsed,hparsed⟩ m (hperm.mem_iff.mp hm)
  obtain ⟨parsed',hparsed'⟩ := mapM_exists_iff.mpr hall
  have hsame := mapM_perm hperm hparsed' hparsed
  refine ⟨parsed',mapM_parseMember_iff.mpr ⟨hparsed',fun m hm => ?_,fun t ht => ?_⟩,hsame⟩
  · exact hunsigned m.2 (List.mem_map_of_mem (hperm.mem_iff.mp hm))
  · have hmem := hsame.mem_iff.mp ht
    exact ⟨hguarded t hmem,words_of_mem hparsed hmem⟩

/-- What the native reader parses, the inspection parses. -/
theorem exists_parsed_of_native {parsed' : List (String×TensorMetadata)}
    (h : (tensorMembers (byName header.members)).mapM parseMember=.ok parsed') :
    ∃ parsed,(tensorMembers header.members).mapM inspectMember=.ok parsed ∧
      parsed'.Perm parsed ∧ (∀ e∈header.entries,Unsigned e) ∧ ∀ t∈parsed,Guarded t.2 := by
  have hperm := tensorMembers_perm header.members
  obtain ⟨hinspected,hunsigned,hguarded⟩ := mapM_parseMember_iff.mp h
  have hall : ∀ m∈tensorMembers header.members,∃ t,inspectMember m=.ok t := by
    intro m hm
    exact mapM_exists_iff.mp ⟨parsed',hinspected⟩ m (hperm.mem_iff.mpr hm)
  obtain ⟨parsed,hparsed⟩ := mapM_exists_iff.mpr hall
  have hsame := mapM_perm hperm hinspected hparsed
  refine ⟨parsed,hparsed,hsame,fun e he => ?_,fun t ht => (hguarded t (hsame.mem_iff.mpr ht)).1⟩
  obtain ⟨m,hm,rfl⟩ := List.mem_map.mp he
  exact hunsigned m (hperm.mem_iff.mpr hm)

/-- The native reader accepts only valid headers, and all that are unambiguous. -/
theorem native_accepts (sorting : RangeSort)
    (hunambiguous : Valid header.entries dataSize → Unambiguous header.entries) :
    (∃ tensors,readHeader sorting header.members dataSize=.ok tensors) ↔
      Valid header.entries dataSize := by
  have hperm : ∀ ts,(sorting.sort (byName ts)).Perm ts :=
    fun ts => (sorting.perm _).trans (byName_perm ts)
  constructor
  · rintro ⟨tensors,h⟩
    obtain ⟨parsed',hparsed',hsome,hsweeps,-⟩ := readHeader_ok_iff.mp h
    obtain ⟨parsed,hparsed,hsame,-⟩ := exists_parsed_of_native hparsed'
    have hparsedSome : parsed≠[] := by
      rintro rfl
      exact hsome hsame.eq_nil
    exact valid_iff.mpr ⟨parsed,hparsed,(validRanges_of_sweep ((hperm parsed').trans hsame)
      hparsedSome (sorting.sorted _) hsweeps).1⟩
  · intro hvalid
    obtain ⟨parsed,hparsed,hranges⟩ := valid_iff.mp hvalid
    have hclear := hunambiguous hvalid
    have hguarded : ∀ t∈parsed,Guarded t.2 := by
      intro t ht
      obtain ⟨e,he,hdescribes⟩ := described_of_mem hparsed ht
      exact hclear.guarded e he t.2 hdescribes
    obtain ⟨parsed',hparsed',hsame⟩ := exists_native_parsed hparsed hclear.unsigned hguarded
    refine ⟨byName parsed',readHeader_ok_iff.mpr ⟨parsed',hparsed',?_,?_,rfl⟩⟩
    · rintro rfl
      exact hranges.some hsame.nil_eq.symm
    · refine sweep_of_validRanges ((hperm parsed').trans hsame) (sorting.sorted _) hranges
        fun a ha b hb hties => ?_
      obtain ⟨e,he,hea⟩ := described_of_mem hparsed ha
      obtain ⟨e',he',heb⟩ := described_of_mem hparsed hb
      obtain ⟨hstart,hnonempty,hempty⟩ := hties
      unfold start at hstart hnonempty hempty
      unfold finish at hnonempty hempty
      exact hclear.noTies e he e' he' a.2 b.2 hea heb ⟨hstart,by omega,by omega⟩

/-- Two readers that accept report the same tensors. -/
theorem same_tensors {sorting : RangeSort} {tensors tensors' : List (String×TensorMetadata)}
    (h : inspectHeader header.members dataSize=.ok tensors)
    (h' : readHeader sorting header.members dataSize=.ok tensors') : tensors=tensors' := by
  obtain ⟨parsed,hparsed,-,-,rfl⟩ := inspectHeader_ok_iff.mp h
  obtain ⟨parsed',hparsed',-,-,rfl⟩ := readHeader_ok_iff.mp h'
  obtain ⟨again,hagain,hsame,-⟩ := exists_parsed_of_native hparsed'
  rw [hparsed] at hagain
  cases hagain
  refine byName_eq_of_perm hsame.symm ?_
  rw [(mapM_inspectMember_iff.mp hparsed).1]
  exact header.distinct.sublist (List.filter_sublist.map Prod.fst)

/-- A condition on the entries carries over to the renamed header. -/
theorem unambiguous_perm {entries entries' : List Json} (h : entries.Perm entries')
    (hclear : Unambiguous entries') : Unambiguous entries :=
  ⟨fun e he e' he' => hclear.noTies e (h.mem_iff.mp he) e' (h.mem_iff.mp he'),
    fun e he => hclear.guarded e (h.mem_iff.mp he),
    fun e he => hclear.unsigned e (h.mem_iff.mp he)⟩

/-- Both readers judge a header exactly, whatever its names, its order and the
order of ties, if and only if it is not valid, or no nonempty tensor starts
where an empty one does, no leading part of a shape overflows and no number is
written `-0`. -/
theorem exact_iff : Exact header dataSize ↔
    (Valid header.entries dataSize → Unambiguous header.entries) := by
  constructor
  · intro hexact hvalid
    obtain ⟨-,hnative⟩ := hexact header (.refl _)
    obtain ⟨parsed,hparsed,hranges⟩ := valid_iff.mp hvalid
    have hread : ∀ sorting : RangeSort,∃ parsed',
        (tensorMembers (byName header.members)).mapM parseMember=.ok parsed' ∧ parsed'≠[] ∧
        sweeps start finish dataSize 0 (sorting.sort (byName parsed'))=true := by
      intro sorting
      obtain ⟨tensors,h⟩ := (hnative sorting).1.mpr hvalid
      obtain ⟨parsed',hparsed',hsome,hsweeps,-⟩ := readHeader_ok_iff.mp h
      exact ⟨parsed',hparsed',hsome,hsweeps⟩
    obtain ⟨parsed',hparsed',hsome,-⟩ := hread ⟨byStart,fun _ => byStart_perm,
      fun _ => byStart_sorted⟩
    obtain ⟨again,hagain,hsame,hunsigned,hguarded⟩ := exists_parsed_of_native hparsed'
    rw [hparsed] at hagain
    cases hagain
    have hfind : ∀ e∈header.entries,∀ t,Describes e t → ∃ name,(name,t)∈parsed := by
      intro e he t ht
      obtain ⟨m,hm,rfl⟩ := List.mem_map.mp he
      obtain ⟨found,hfound,hok⟩ := exists_result_of_mem hparsed hm
      rw [describes_unique ht (inspectMember_ok_iff.mp hok).2]
      exact ⟨found.1,hfound⟩
    refine ⟨fun e he e' he' a b ha hb hties => ?_,fun e he t ht => ?_,hunsigned⟩
    · obtain ⟨nameA,hmemA⟩ := hfind e he a ha
      obtain ⟨nameB,hmemB⟩ := hfind e' he' b hb
      obtain ⟨hstart,hnonempty,hempty⟩ := hties
      have htied : Ties start finish (nameA,a) (nameB,b) := by
        unfold Ties start finish
        simp only
        exact ⟨hstart,by omega,by omega⟩
      have hperm := (byName_perm parsed').trans hsame
      obtain ⟨sorting,hnot⟩ := exists_tied_sort (hperm.mem_iff.mpr hmemA)
        (hperm.mem_iff.mpr hmemB) htied
      obtain ⟨third,hthird,-,hsweeps⟩ := hread sorting
      rw [hparsed'] at hthird
      cases hthird
      have hnames : byName parsed'≠[] := by
        intro hnil
        have hempty := byName_perm parsed'
        rw [hnil] at hempty
        exact hsome hempty.nil_eq.symm
      exact hnot (validRanges_of_sweep (sorting.perm _) hnames (sorting.sorted _) hsweeps).2
    · obtain ⟨name,hmem⟩ := hfind e he t ht
      exact hguarded _ hmem
  · intro hclear renamed hperm
    have hrenamed : Valid renamed.entries dataSize ↔ Valid header.entries dataSize :=
      ⟨valid_perm hperm.symm,valid_perm hperm⟩
    have hclear' : Valid renamed.entries dataSize → Unambiguous renamed.entries :=
      fun hvalid => unambiguous_perm hperm (hclear (hrenamed.mp hvalid))
    rw [←hrenamed]
    exact ⟨inspect_accepts hclear',fun sorting => ⟨native_accepts sorting hclear',
      fun tensors tensors' => same_tensors⟩⟩

end Headers

section Examples

/-- Such an entry describes a tensor. -/
theorem floatEntry_describes {shape : List ℕ} {start length : ℕ} (h : length=shape.prod*4) :
    Describes (floatEntry shape start (start+length)) ⟨.f32,shape,start,length⟩ :=
  .entry _ "F32" _ _ _ ⟨.f32,shape,start,length⟩ rfl rfl rfl (numbers_of_integers shape) rfl rfl
    rfl h

/-- Its numbers are words when they should be. -/
theorem floatEntry_inRange {shape : List ℕ} {start finish : ℕ} (hshape : ∀ d∈shape,d < 2^64)
    (hstart : start < 2^64) (hfinish : finish < 2^64) :
    NumbersInRange (floatEntry shape start finish) := by
  intro fields hfields key hkey items hitems n hn
  cases hfields
  rcases List.mem_cons.mp hkey with rfl|hkey
  · cases hitems
    obtain ⟨d,hd,heq⟩ := List.mem_map.mp hn
    cases heq
    have hword := hshape d hd
    omega
  · rw [List.mem_singleton.mp hkey] at hitems
    cases hitems
    rcases List.mem_cons.mp hn with heq|hn
    · cases heq
      omega
    · cases List.mem_singleton.mp hn
      omega

/-- None of them has a sign. -/
theorem floatEntry_unsigned (shape : List ℕ) (start finish : ℕ) :
    Unsigned (floatEntry shape start finish) := by
  intro fields hfields key hkey items hitems
  cases hfields
  rcases List.mem_cons.mp hkey with rfl|hkey
  · cases hitems
    exact unsigned_integers shape
  · rw [List.mem_singleton.mp hkey] at hitems
    cases hitems
    exact unsigned_integers [start,finish]

/-- A tensor of one number and an empty one, both at the start of the data. -/
def tiedHeader : Header where
  members := [("one",floatEntry [1] 0 4),("two",floatEntry [0] 0 0)]
  distinct := by decide
  inRange := by
    intro member hmember
    rcases List.mem_cons.mp hmember with rfl|hmember
    · exact floatEntry_inRange (by decide) (by decide) (by decide)
    · rw [List.mem_singleton.mp hmember]
      exact floatEntry_inRange (by decide) (by decide) (by decide)

/-- An empty tensor with large dimensions. -/
def largeHeader : Header where
  members := [("one",floatEntry [2^62,4,0] 0 0)]
  distinct := by decide
  inRange := by
    intro member hmember
    rw [List.mem_singleton.mp hmember]
    exact floatEntry_inRange (by decide) (by decide) (by decide)

/-- A tensor of one number whose start is written `-0`. -/
def signedHeader : Header where
  members := [("one",.object [("dtype",.string "F32"),("shape",.array [.integer 1]),
    ("data_offsets",.array [.negativeZero,.integer 4])])]
  distinct := by decide
  inRange := by
    intro member hmember fields hfields key hkey items hitems n hn
    rw [List.mem_singleton.mp hmember] at hfields
    cases hfields
    rcases List.mem_cons.mp hkey with rfl|hkey
    · cases hitems
      cases List.mem_singleton.mp hn
      decide
    · rw [List.mem_singleton.mp hkey] at hitems
      cases hitems
      rcases List.mem_cons.mp hn with heq|hn
      · cases heq
      · cases List.mem_singleton.mp hn
        decide

/-- A header that the native reader refuses entry by entry is not judged exactly. -/
theorem not_exact_of_unparsed {header : Header} {dataSize : ℕ}
    (hvalid : Valid header.entries dataSize)
    (hparse : ((tensorMembers (byName header.members)).mapM parseMember).isOk=false) :
    ¬Exact header dataSize := by
  intro hexact
  obtain ⟨tensors,h⟩ := ((hexact header (.refl _)).2
    ⟨byStart,fun _ => byStart_perm,fun _ => byStart_sorted⟩).1.mpr hvalid
  obtain ⟨parsed,hparsed,-⟩ := readHeader_ok_iff.mp h
  rw [hparsed] at hparse
  cases hparse

/-- The first header is valid, but rejected under these names and accepted when
they are exchanged. The others are valid, but only the inspection accepts them. -/
theorem valid_headers_rejected :
    (Valid tiedHeader.entries 4 ∧
      (inspectHeader [("one",floatEntry [1] 0 4),("two",floatEntry [0] 0 0)] 4).isOk=false ∧
      (inspectHeader [("two",floatEntry [1] 0 4),("one",floatEntry [0] 0 0)] 4).isOk=true ∧
      ¬Exact tiedHeader 4) ∧
    (Valid largeHeader.entries 0 ∧ (inspectHeader largeHeader.members 0).isOk=true ∧
      ¬Exact largeHeader 0) ∧
    Valid signedHeader.entries 4 ∧ (inspectHeader signedHeader.members 4).isOk=true ∧
      ¬Exact signedHeader 4 := by
  have htied : Valid tiedHeader.entries 4 := by
    refine ⟨[⟨.f32,[1],0,4⟩,⟨.f32,[0],0,0⟩],.cons (floatEntry_describes rfl)
      (.cons (floatEntry_describes rfl) .nil),nofun,by decide,?_⟩
    refine List.pairwise_pair.mpr ?_
    unfold Compatible
    simp only
    omega
  have hlarge : Valid largeHeader.entries 0 := by
    refine ⟨[⟨.f32,[2^62,4,0],0,0⟩],.cons (floatEntry_describes rfl) .nil,nofun,by decide,?_⟩
    exact List.pairwise_singleton _ _
  have hsigned : Valid signedHeader.entries 4 := by
    refine ⟨[⟨.f32,[1],0,4⟩],.cons ?_ .nil,nofun,by decide,List.pairwise_singleton _ _⟩
    exact .entry _ "F32" _ _ _ ⟨.f32,[1],0,4⟩ rfl rfl rfl rfl rfl rfl rfl rfl
  have hrejected : (inspectHeader tiedHeader.members 4).isOk=false := by decide +kernel
  refine ⟨⟨htied,hrejected,by decide +kernel,fun hexact => ?_⟩,
    ⟨hlarge,by decide +kernel,not_exact_of_unparsed hlarge (by decide +kernel)⟩,
    hsigned,by decide +kernel,not_exact_of_unparsed hsigned (by decide +kernel)⟩
  obtain ⟨tensors,h⟩ := (hexact tiedHeader (.refl _)).1.mpr htied
  rw [h] at hrejected
  cases hrejected

end Examples

end Hllm.SafetensorsAcceptance
