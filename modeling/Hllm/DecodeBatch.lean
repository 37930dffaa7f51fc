import Hllm.CheckedSizes
import Hllm.CpuModel
import Hllm.FixedRows
import Hllm.Traversals

/-!
# Batches of decode steps

Decode steps of several sequences are combined into one input of a row each,
and the boundary that comes back is split into its rows. Sizes are machine
words: products that do not fit are refused.
-/

namespace Hllm.DecodeBatch

open CheckedSizes FixedRows Traversals
open CpuModel (Failure StageInput StageOutput)

/-- The part of `SequenceState` that a batch reads. -/
structure SequenceState where
  prefilling : Bool
  prefillOnly : Bool
  deriving DecidableEq

/-- `DecodeBatchItem`; the pointers may be null. -/
structure DecodeBatchItem where
  input : StageInput
  position : ℕ
  sequence : Option ℕ
  hasFlag : Bool

/-- `checked_multiply` -/
def checkedMultiply (a b : ℕ) : Except Failure ℕ := (checkedProduct a b).mapError .error

/-- `Error::invalid_request` -/
def invalid (message : String) : Failure := .error ⟨.invalidRequest,message⟩

/-- The input holds tokens. -/
def isTokens : StageInput → Bool
  | .tokens _ => true
  | .boundary _ _ _ => false

/-- The bytes of a row of a payload. -/
def rowBytes (width : ℕ) (payload : List UInt8) (i : ℕ) : List UInt8 := row (width*2) payload i

/-- Variables of the loop of `combine_decode_inputs`. -/
structure Combined where
  seen : List ℕ := []
  ids : List ℕ := []
  width : ℕ := 0
  payload : List UInt8 := []

section Combining

variable (states : ℕ → SequenceState)

/-- The check of an item before its input is read. -/
def ready (tokens : Bool) (combined : Combined) (item : DecodeBatchItem) : Bool :=
  match item.sequence with
  | some id =>
    item.hasFlag && item.position≠0 && !(states id).prefilling && !(states id).prefillOnly &&
      id∉combined.seen && tokens=isTokens item.input
  | none => false

/-- One round of the loop of `combine_decode_inputs`. -/
def combine (tokens : Bool) (combined : Combined) (item : DecodeBatchItem) :
    Except Failure Combined :=
  if ready states tokens combined item=false then
    .error (invalid "decode batch requires independent, ready decode sequences")
  else
    let seen := combined.seen++item.sequence.toList
    match item.input with
    | .tokens [id] => .ok { combined with seen := seen,ids := combined.ids++[id] }
    | .tokens _ => .error (invalid "decode batch requires one token per sequence")
    | .boundary count width payload =>
      if count≠1 ∨ width=0 then .error (invalid "invalid decode batch boundary")
      else do
        let bytes ← checkedMultiply width 2
        if payload.length≠bytes ∨ (combined.width≠0 ∧ combined.width≠width) then
          .error (invalid "invalid decode batch boundary")
        else .ok { combined with seen := seen,width := width,payload := combined.payload++payload }

/-- `combine_decode_inputs` -/
def combineDecodeInputs (items : List DecodeBatchItem) : Except Failure StageInput :=
  match items with
  | [] => .error (invalid "invalid decode batch size")
  | front::_ =>
    if 64 < items.length then .error (invalid "invalid decode batch size")
    else
      let tokens := isTokens front.input
      (items.foldlM (combine states tokens) {}).map fun combined =>
        if tokens then .tokens combined.ids
        else .boundary items.length combined.width combined.payload

end Combining

/-- `split_decode_boundary` -/
def splitDecodeBoundary {D : Type} (tokens width : ℕ) (payload : List UInt8) :
    Except Failure (List (StageOutput D)) := do
  let bytes ← checkedMultiply width 2
  let total ← checkedMultiply tokens bytes
  if payload.length≠total then .error (.error ⟨.internal,"invalid batched output boundary"⟩)
  else .ok ((List.range tokens).map fun i => .boundary 1 width (rowBytes width payload i))

/-- Products that fit are computed. -/
theorem checkedMultiply_ok_iff {a b n : ℕ} :
    checkedMultiply a b=.ok n ↔ a*b < 2^64 ∧ n=a*b := by
  unfold checkedMultiply
  rw [mapError_ok_iff,checkedProduct_iff]

/-- A row of bytes among others as long. -/
theorem rowBytes_flatten {width : ℕ} {rs : List (List UInt8)} (h : ∀ r∈rs,r.length=width*2)
    (i : ℕ) (hi : i < rs.length) : rowBytes width rs.flatten i=rs[i] := by
  have hrow := List.getElem_of_eq (rows_flatten h) (i := i) (by rwa [length_rows])
  rw [←hrow]
  simp only [rows,List.getElem_map,List.getElem_range]
  rfl

section Batches

variable (states : ℕ → SequenceState)

/-- An item whose sequence is past its prompt. -/
structure IsReady (item : DecodeBatchItem) : Prop where
  flag : item.hasFlag=true
  position : item.position≠0
  sequence : ∃ id,item.sequence=some id ∧ (states id).prefilling=false ∧
    (states id).prefillOnly=false

/-- An input with a row for each item in order: its token, or its bytes. -/
inductive IsRows (items : List DecodeBatchItem) : StageInput → Prop
  | tokens (ids : List ℕ)
      (inputs : items.map DecodeBatchItem.input=ids.map fun id => .tokens [id]) :
      IsRows items (.tokens ids)
  | boundary (width : ℕ) (payloads : List (List UInt8)) (positive : 0 < width)
      (fits : width*2 < 2^64)
      (inputs : items.map DecodeBatchItem.input=payloads.map fun p => .boundary 1 width p)
      (bytes : ∀ p∈payloads,p.length=width*2) :
      IsRows items (.boundary payloads.length width payloads.flatten)

/-- A batch and its combined input. -/
structure IsBatch (items : List DecodeBatchItem) (input : StageInput) : Prop where
  nonempty : items≠[]
  size : items.length ≤ 64
  ready : ∀ item∈items,IsReady states item
  distinct : (items.map DecodeBatchItem.sequence).Nodup
  rows : IsRows items input

variable {states}

/-- What the check of an item says. -/
theorem ready_iff {tokens : Bool} {combined : Combined} {item : DecodeBatchItem} :
    ready states tokens combined item=true ↔ IsReady states item ∧
      (∀ id∈combined.seen,item.sequence≠some id) ∧ tokens=isTokens item.input := by
  unfold ready
  cases hsequence : item.sequence with
  | none =>
    refine iff_of_false Bool.false_ne_true fun h => ?_
    obtain ⟨id,hid,-⟩ := h.1.sequence
    rw [hsequence] at hid
    cases hid
  | some id =>
    simp only [Bool.and_eq_true,ne_eq,decide_eq_true_eq,Bool.not_eq_true']
    constructor
    · rintro ⟨⟨⟨⟨⟨hflag,hposition⟩,hprefilling⟩,honly⟩,hseen⟩,htokens⟩
      refine ⟨⟨hflag,hposition,id,hsequence,hprefilling,honly⟩,fun other hother heq => ?_,htokens⟩
      cases heq
      exact hseen hother
    · rintro ⟨⟨hflag,hposition,other,hother,hprefilling,honly⟩,hseen,htokens⟩
      rw [hsequence] at hother
      cases hother
      exact ⟨⟨⟨⟨⟨hflag,hposition⟩,hprefilling⟩,honly⟩,fun hmem => hseen id hmem rfl⟩,htokens⟩

/-- The row of one item, added to what is combined. -/
inductive Adds (combined : Combined) (item : DecodeBatchItem) : Combined → Prop
  | token (id : ℕ) (input : item.input=.tokens [id]) :
      Adds combined item { combined with
        seen := combined.seen++item.sequence.toList,ids := combined.ids++[id] }
  | boundary (width : ℕ) (payload : List UInt8) (input : item.input=.boundary 1 width payload)
      (positive : 0 < width) (fits : width*2 < 2^64) (bytes : payload.length=width*2)
      (same : combined.width=0 ∨ combined.width=width) :
      Adds combined item { combined with
        seen := combined.seen++item.sequence.toList,width := width,
        payload := combined.payload++payload }

/-- What one round of the loop does. -/
theorem combine_ok_iff {tokens : Bool} {combined next : Combined} {item : DecodeBatchItem} :
    combine states tokens combined item=.ok next ↔ (IsReady states item ∧
      (∀ id∈combined.seen,item.sequence≠some id) ∧ tokens=isTokens item.input) ∧
      Adds combined item next := by
  rw [←ready_iff]
  unfold combine
  cases hready : ready states tokens combined item with
  | false => exact iff_of_false nofun fun h => Bool.false_ne_true h.1
  | true =>
    rw [if_neg (by decide)]
    refine ⟨fun h => ⟨rfl,?_⟩,fun h => ?_⟩
    · cases hinput : item.input with
      | tokens ids =>
        rw [hinput] at h
        cases ids with
        | nil => cases h
        | cons id rest =>
          cases rest with
          | nil =>
            cases h
            exact .token id hinput
          | cons other rest => cases h
      | boundary count width payload =>
        rw [hinput] at h
        dsimp only at h
        split at h
        · cases h
        · rename_i hshape
          rw [not_or,not_not] at hshape
          obtain ⟨rfl,hwidth⟩ := hshape
          cases hbytes : checkedMultiply width 2 with
          | error e =>
            rw [hbytes] at h
            cases h
          | ok bytes =>
            obtain ⟨hfits,rfl⟩ := checkedMultiply_ok_iff.mp hbytes
            rw [hbytes] at h
            change (if _ then _ else _)=_ at h
            split at h
            · cases h
            · rename_i hpayload
              cases h
              refine .boundary width payload hinput (Nat.pos_of_ne_zero hwidth) hfits ?_ ?_
              · exact not_not.mp fun hne => hpayload (.inl hne)
              · by_contra hother
                rw [not_or] at hother
                exact hpayload (.inr hother)
    · obtain ⟨-,hadds⟩ := h
      cases hadds with
      | token id hinput => rw [hinput]
      | boundary width payload hinput hpositive hfits hbytes hsame =>
        have hproduct := checkedMultiply_ok_iff.mpr ⟨hfits,rfl⟩
        rw [hinput]
        dsimp only
        rw [if_neg (by omega),hproduct]
        change (if _ then _ else _)=_
        rw [if_neg]
        rintro (hne|⟨hne,hother⟩)
        · exact hne hbytes
        · exact hsame.elim hne hother

/-- Sequences that are in the batch once and were not seen before. -/
def Fresh (seen : List ℕ) (items : List DecodeBatchItem) : Prop :=
  (items.map DecodeBatchItem.sequence).Nodup ∧ ∀ item∈items,∀ id∈seen,item.sequence≠some id

/-- The rows of items, added one after the other. -/
def Run (combined : Combined) : List DecodeBatchItem → Combined → Prop
  | [],next => next=combined
  | item::items,next => ∃ middle,Adds combined item middle ∧ Run middle items next

/-- The sequence of an item joins those that were seen. -/
theorem Adds.seen {combined middle : Combined} {item : DecodeBatchItem}
    (h : Adds combined item middle) : middle.seen=combined.seen++item.sequence.toList := by
  cases h <;> rfl

/-- The first of several items and the others are fresh one after the other. -/
theorem fresh_cons {seen : List ℕ} {item : DecodeBatchItem} {items : List DecodeBatchItem}
    (hready : IsReady states item) : Fresh seen (item::items) ↔
      (∀ id∈seen,item.sequence≠some id) ∧ Fresh (seen++item.sequence.toList) items := by
  obtain ⟨own,hown,-⟩ := hready.sequence
  have hnew : (∀ other∈items,∀ id∈seen++item.sequence.toList,other.sequence≠some id) ↔
      item.sequence∉items.map DecodeBatchItem.sequence ∧
        ∀ other∈items,∀ id∈seen,other.sequence≠some id := by
    rw [hown,Option.toList_some]
    constructor
    · refine fun h => ⟨fun hmem => ?_,fun other hother id hid =>
        h other hother id (List.mem_append_left _ hid)⟩
      obtain ⟨other,hother,heq⟩ := List.mem_map.mp hmem
      exact h other hother own (List.mem_append_right _ (List.mem_singleton_self own)) heq
    · rintro ⟨hfirst,hseen⟩ other hother id hid heq
      rcases List.mem_append.mp hid with hid|hid
      · exact hseen other hother id hid heq
      · rw [List.mem_singleton.mp hid] at heq
        exact hfirst (List.mem_map.mpr ⟨other,hother,heq⟩)
  rw [Fresh,Fresh,hnew,List.map_cons,List.nodup_cons,List.forall_mem_cons]
  tauto

/-- The loop over ready and fresh items of one kind adds their rows. -/
theorem foldlM_ok_iff {tokens : Bool} {combined next : Combined} {items : List DecodeBatchItem} :
    items.foldlM (combine states tokens) combined=.ok next ↔
      (∀ item∈items,IsReady states item) ∧ Fresh combined.seen items ∧
      (∀ item∈items,tokens=isTokens item.input) ∧ Run combined items next := by
  induction items generalizing combined with
  | nil =>
    constructor
    · intro h
      cases h
      exact ⟨nofun,⟨List.nodup_nil,nofun⟩,nofun,rfl⟩
    · rintro ⟨-,-,-,rfl⟩
      rfl
  | cons item items ih =>
    rw [foldlM_cons_ok_iff]
    constructor
    · rintro ⟨middle,hfirst,h⟩
      obtain ⟨hready,hfresh,hkinds,hrun⟩ := ih.mp h
      obtain ⟨⟨hitem,hseen,hkind⟩,hadds⟩ := combine_ok_iff.mp hfirst
      rw [hadds.seen] at hfresh
      exact ⟨List.forall_mem_cons.mpr ⟨hitem,hready⟩,(fresh_cons hitem).mpr ⟨hseen,hfresh⟩,
        List.forall_mem_cons.mpr ⟨hkind,hkinds⟩,middle,hadds,hrun⟩
    · rintro ⟨hready,hfresh,hkinds,middle,hadds,hrun⟩
      obtain ⟨hitem,hready⟩ := List.forall_mem_cons.mp hready
      obtain ⟨hkind,hkinds⟩ := List.forall_mem_cons.mp hkinds
      obtain ⟨hseen,hfresh⟩ := (fresh_cons hitem).mp hfresh
      rw [←hadds.seen] at hfresh
      exact ⟨middle,combine_ok_iff.mpr ⟨⟨hitem,hseen,hkind⟩,hadds⟩,
        ih.mpr ⟨hready,hfresh,hkinds,hrun⟩⟩

/-- Token items add one token each, in their order. -/
theorem run_tokens {combined next : Combined} {items : List DecodeBatchItem}
    (h : Run combined items next) (hkinds : ∀ item∈items,true=isTokens item.input) :
    ∃ ids,items.map DecodeBatchItem.input=ids.map (fun id => .tokens [id]) ∧
      next.ids=combined.ids++ids := by
  induction items generalizing combined with
  | nil =>
    cases h
    exact ⟨[],rfl,(List.append_nil _).symm⟩
  | cons item items ih =>
    obtain ⟨middle,hadds,hrun⟩ := h
    obtain ⟨hkind,hkinds⟩ := List.forall_mem_cons.mp hkinds
    obtain ⟨ids,hinputs,hids⟩ := ih hrun hkinds
    cases hadds with
    | token id hinput =>
      refine ⟨id::ids,?_,?_⟩
      · rw [List.map_cons,List.map_cons,hinput,hinputs]
      · rw [hids,List.append_assoc]
        rfl
    | boundary width payload hinput hpositive hfits hbytes hsame =>
      rw [hinput] at hkind
      cases hkind

/-- Items of one token each can be added. -/
theorem exists_run_tokens {combined : Combined} {items : List DecodeBatchItem} {ids : List ℕ}
    (h : items.map DecodeBatchItem.input=ids.map fun id => .tokens [id]) :
    ∃ next,Run combined items next ∧ next.ids=combined.ids++ids := by
  induction items generalizing combined ids with
  | nil =>
    rw [List.map_eq_nil_iff.mp h.symm]
    exact ⟨combined,rfl,(List.append_nil _).symm⟩
  | cons item items ih =>
    cases ids with
    | nil => cases h
    | cons id ids =>
      obtain ⟨hinput,hinputs⟩ := List.cons.inj h
      obtain ⟨next,hrun,hids⟩ := @ih { combined with
        seen := combined.seen++item.sequence.toList,ids := combined.ids++[id] } ids hinputs
      refine ⟨next,⟨_,.token id hinput,hrun⟩,?_⟩
      rw [hids,List.append_assoc]
      rfl

/-- Boundary items of the width so far add one row each, in their order. -/
theorem run_boundary {combined next : Combined} {items : List DecodeBatchItem}
    (hwidth : 0 < combined.width) (h : Run combined items next)
    (hkinds : ∀ item∈items,false=isTokens item.input) :
    ∃ payloads : List (List UInt8),items.map DecodeBatchItem.input=
        payloads.map (fun p => .boundary 1 combined.width p) ∧
      (∀ p∈payloads,p.length=combined.width*2) ∧ next.width=combined.width ∧
      next.payload=combined.payload++payloads.flatten := by
  induction items generalizing combined with
  | nil =>
    cases h
    exact ⟨[],rfl,nofun,rfl,(List.append_nil _).symm⟩
  | cons item items ih =>
    obtain ⟨middle,hadds,hrun⟩ := h
    obtain ⟨hkind,hkinds⟩ := List.forall_mem_cons.mp hkinds
    cases hadds with
    | token id hinput =>
      rw [hinput] at hkind
      cases hkind
    | boundary width payload hinput hpositive hfits hbytes hsame =>
      have heq : combined.width=width := hsame.resolve_left (by omega)
      obtain ⟨payloads,hinputs,hlengths,hnext,hpayload⟩ := ih hpositive hrun hkinds
      refine ⟨payload::payloads,?_,?_,hnext.trans heq.symm,?_⟩
      · rw [List.map_cons,List.map_cons,hinput,hinputs,heq]
      · rw [heq]
        exact List.forall_mem_cons.mpr ⟨hbytes,hlengths⟩
      · rw [hpayload,List.flatten_cons,List.append_assoc]

/-- Boundary items of one width can be added. -/
theorem exists_run_boundary {combined : Combined} {items : List DecodeBatchItem}
    {payloads : List (List UInt8)} {width : ℕ} (hpositive : 0 < width) (hfits : width*2 < 2^64)
    (hsame : combined.width=0 ∨ combined.width=width)
    (h : items.map DecodeBatchItem.input=payloads.map fun p => .boundary 1 width p)
    (hbytes : ∀ p∈payloads,p.length=width*2) :
    ∃ next,Run combined items next ∧ (items≠[] → next.width=width) ∧
      next.payload=combined.payload++payloads.flatten := by
  induction items generalizing combined payloads with
  | nil =>
    rw [List.map_eq_nil_iff.mp h.symm]
    exact ⟨combined,rfl,fun hne => absurd rfl hne,(List.append_nil _).symm⟩
  | cons item items ih =>
    cases payloads with
    | nil => cases h
    | cons payload payloads =>
      obtain ⟨hinput,hinputs⟩ := List.cons.inj h
      obtain ⟨hfirst,hbytes⟩ := List.forall_mem_cons.mp hbytes
      obtain ⟨next,hrun,hnext,hpayload⟩ := @ih { combined with
        seen := combined.seen++item.sequence.toList,width := width,
        payload := combined.payload++payload } payloads (.inr rfl) hinputs hbytes
      refine ⟨next,⟨_,.boundary width payload hinput hpositive hfits hfirst hsame,hrun⟩,
        fun _ => ?_,?_⟩
      · cases items with
        | nil =>
          cases hrun
          rfl
        | cons other items => exact hnext (List.cons_ne_nil other items)
      · rw [hpayload,List.flatten_cons,List.append_assoc]

/-- The items of one kind with their rows. -/
theorem IsRows.kinds {items : List DecodeBatchItem} {input : StageInput} (h : IsRows items input) :
    ∀ item∈items,isTokens input=isTokens item.input := by
  intro item hitem
  have hmem := List.mem_map_of_mem (f:=DecodeBatchItem.input) hitem
  cases h with
  | tokens ids hinputs =>
    rw [hinputs] at hmem
    obtain ⟨id,-,hid⟩ := List.mem_map.mp hmem
    rw [←hid]
    rfl
  | boundary width payloads hpositive hfits hinputs hbytes =>
    rw [hinputs] at hmem
    obtain ⟨p,-,hp⟩ := List.mem_map.mp hmem
    rw [←hp]
    rfl

/-- A list of items is combined exactly when it is a batch, into a row for each
item in order. -/
theorem combineDecodeInputs_ok_iff {items : List DecodeBatchItem} {input : StageInput} :
    combineDecodeInputs states items=.ok input ↔ IsBatch states items input := by
  cases items with
  | nil => exact iff_of_false nofun fun h => h.nonempty rfl
  | cons front rest =>
    unfold combineDecodeInputs
    dsimp only
    by_cases hsize : 64 < (front::rest).length
    · rw [if_pos hsize]
      exact iff_of_false nofun fun h => absurd h.size (by omega)
    rw [if_neg hsize]
    constructor
    · intro h
      cases hrun : (front::rest).foldlM (combine states (isTokens front.input)) {} with
      | error e =>
        rw [hrun] at h
        cases h
      | ok next =>
        rw [hrun] at h
        cases h
        obtain ⟨hready,hfresh,hkinds,hadded⟩ := foldlM_ok_iff.mp hrun
        refine ⟨List.cons_ne_nil front rest,by omega,hready,hfresh.1,?_⟩
        dsimp only
        cases hfront : isTokens front.input with
        | true =>
          rw [hfront] at hkinds
          obtain ⟨ids,hinputs,hids⟩ := run_tokens hadded hkinds
          rw [if_pos rfl,hids]
          exact .tokens ids hinputs
        | false =>
          rw [hfront] at hkinds
          obtain ⟨middle,hadds,hrest⟩ := hadded
          obtain ⟨hkind,hkinds⟩ := List.forall_mem_cons.mp hkinds
          rw [if_neg Bool.false_ne_true]
          cases hadds with
          | token id hinput =>
            rw [hinput] at hkind
            cases hkind
          | boundary width payload hinput hpositive hfits hbytes hsame =>
            obtain ⟨payloads,hinputs,hlengths,hwidth,hpayload⟩ :=
              run_boundary hpositive hrest hkinds
            have hall : (front::rest).map DecodeBatchItem.input=
                (payload::payloads).map fun p => .boundary 1 width p := by
              rw [List.map_cons,List.map_cons,hinput,hinputs]
            have hcount : (front::rest).length=(payload::payloads).length := by
              have hlength := congrArg List.length hall
              rw [List.length_map,List.length_map] at hlength
              exact hlength
            rw [hcount,hwidth,hpayload]
            exact .boundary width (payload::payloads) hpositive hfits hall
              (List.forall_mem_cons.mpr ⟨hbytes,hlengths⟩)
    · rintro ⟨-,-,hready,hdistinct,hrows⟩
      have hkinds := hrows.kinds
      have hfresh : Fresh [] (front::rest) := ⟨hdistinct,fun _ _ id hid => absurd hid (by simp)⟩
      have hfront := hkinds front List.mem_cons_self
      cases hrows with
      | tokens ids hinputs =>
        obtain ⟨next,hrun,hids⟩ := @exists_run_tokens {} _ _ hinputs
        rw [←hfront,foldlM_ok_iff.mpr ⟨hready,hfresh,hkinds,hrun⟩]
        change Except.ok (StageInput.tokens next.ids)=_
        rw [hids]
        rfl
      | boundary width payloads hpositive hfits hinputs hbytes =>
        obtain ⟨next,hrun,hwidth,hpayload⟩ :=
          @exists_run_boundary {} _ _ _ hpositive hfits (.inl rfl) hinputs hbytes
        have hcount : (front::rest).length=payloads.length := by
          have hlength := congrArg List.length hinputs
          rw [List.length_map,List.length_map] at hlength
          exact hlength
        rw [←hfront,foldlM_ok_iff.mpr ⟨hready,hfresh,hkinds,hrun⟩]
        change Except.ok (StageInput.boundary (front::rest).length next.width next.payload)=_
        rw [hcount,hwidth (List.cons_ne_nil front rest),hpayload]
        rfl

end Batches

section Splitting

variable {D : Type}

/-- The one-row boundaries of a boundary with several rows. -/
structure IsSplit (tokens width : ℕ) (payload : List UInt8) (outputs : List (StageOutput D)) :
    Prop where
  size : payload.length=tokens*(width*2)
  rows : ∃ rs : List (List UInt8),outputs=rs.map (fun r => .boundary 1 width r) ∧
    rs.length=tokens ∧ (∀ r∈rs,r.length=width*2) ∧ rs.flatten=payload

/-- The boundaries of the rows in their order. -/
theorem map_rowBytes (tokens width : ℕ) (payload : List UInt8) :
    ((List.range tokens).map fun i =>
      (StageOutput.boundary 1 width (rowBytes width payload i) : StageOutput D))=
      (rows (width*2) tokens payload).map fun r => .boundary 1 width r := by
  rw [rows,List.map_map]
  rfl

/-- Splitting succeeds on the right length, if the products fit. -/
theorem splitDecodeBoundary_ok_iff {tokens width : ℕ} {payload : List UInt8}
    {outputs : List (StageOutput D)} (hwidth : width*2 < 2^64) (hpayload : payload.length < 2^64) :
    splitDecodeBoundary tokens width payload=.ok outputs ↔
      payload.length=tokens*(width*2) ∧
        outputs=(rows (width*2) tokens payload).map fun r => .boundary 1 width r := by
  unfold splitDecodeBoundary
  rw [checkedMultiply_ok_iff.mpr ⟨hwidth,rfl⟩,map_rowBytes]
  change (checkedMultiply tokens (width*2) >>= _)=_ ↔ _
  by_cases hlength : payload.length=tokens*(width*2)
  · rw [checkedMultiply_ok_iff.mpr ⟨hlength ▸ hpayload,rfl⟩]
    change (if _ then _ else _)=_ ↔ _
    rw [if_neg (not_not.mpr hlength),Except.ok.injEq]
    exact ⟨fun h => ⟨hlength,h.symm⟩,fun h => h.2.symm⟩
  · refine iff_of_false (fun h => ?_) fun h => hlength h.1
    cases htotal : checkedMultiply tokens (width*2) with
    | error e =>
      rw [htotal] at h
      cases h
    | ok total =>
      obtain ⟨-,rfl⟩ := checkedMultiply_ok_iff.mp htotal
      rw [htotal] at h
      change (if _ then _ else _)=_ at h
      rw [if_pos hlength] at h
      cases h

/-- What splitting returns are the rows of the boundary. -/
theorem splitDecodeBoundary_isSplit {tokens width : ℕ} {payload : List UInt8}
    {outputs : List (StageOutput D)} (hwidth : width*2 < 2^64) (hpayload : payload.length < 2^64) :
    splitDecodeBoundary tokens width payload=.ok outputs ↔
      IsSplit tokens width payload outputs := by
  rw [splitDecodeBoundary_ok_iff hwidth hpayload]
  constructor
  · rintro ⟨hlength,rfl⟩
    obtain ⟨hjoined,hwide⟩ := flatten_rows hlength
    exact ⟨hlength,_,rfl,length_rows _ _ _,hwide,hjoined⟩
  · rintro ⟨hlength,rs,rfl,rfl,hwide,rfl⟩
    rw [rows_flatten hwide]
    exact ⟨hlength,rfl⟩

/-- Rows that were joined are split again. -/
theorem splitDecodeBoundary_flatten {width : ℕ} {payloads : List (List UInt8)}
    (hwidth : width*2 < 2^64) (hbytes : ∀ p∈payloads,p.length=width*2)
    (hsize : payloads.flatten.length < 2^64) :
    splitDecodeBoundary (D:=D) payloads.length width payloads.flatten=
      .ok (payloads.map fun p => .boundary 1 width p) :=
  (splitDecodeBoundary_isSplit hwidth hsize).mpr
    ⟨length_flatten hbytes,payloads,rfl,rfl,hbytes,rfl⟩

/-- Rows too wide for a machine word are refused, and only an empty boundary has
such rows. -/
theorem splitDecodeBoundary_wide {tokens width : ℕ} {payload : List UInt8}
    {outputs : List (StageOutput D)} (hwidth : ¬width*2 < 2^64) :
    splitDecodeBoundary tokens width payload≠.ok outputs := by
  intro h
  cases hbytes : checkedMultiply width 2 with
  | error e =>
    rw [splitDecodeBoundary,hbytes] at h
    cases h
  | ok bytes => exact hwidth (checkedMultiply_ok_iff.mp hbytes).1

/-- Accepted batches have a row for each item in order. Boundaries are split
into one-row boundaries that join to the payload, and a combined boundary into
the payloads of its items. Nothing else is accepted. -/
theorem decode_batches :
    (∀ (states : ℕ → SequenceState) (items : List DecodeBatchItem) (input : StageInput),
      combineDecodeInputs states items=.ok input ↔ IsBatch states items input) ∧
    (∀ (tokens width : ℕ) (payload : List UInt8) (outputs : List (StageOutput D)),
      (0 < tokens ∨ width*2 < 2^64) → payload.length < 2^64 →
        (splitDecodeBoundary tokens width payload=.ok outputs ↔
          IsSplit tokens width payload outputs)) ∧
    ∀ (states : ℕ → SequenceState) (items : List DecodeBatchItem) (count width : ℕ)
      (payload : List UInt8),payload.length < 2^64 →
      combineDecodeInputs states items=.ok (.boundary count width payload) →
        ∃ payloads : List (List UInt8),
          items.map DecodeBatchItem.input=payloads.map (fun p => .boundary 1 width p) ∧
          splitDecodeBoundary (D:=D) count width payload=
            .ok (payloads.map fun p => .boundary 1 width p) := by
  refine ⟨fun states items input => combineDecodeInputs_ok_iff,
    fun tokens width payload outputs hsize hpayload => ?_,
    fun states items count width payload hpayload h => ?_⟩
  · by_cases hwidth : width*2 < 2^64
    · exact splitDecodeBoundary_isSplit hwidth hpayload
    · refine iff_of_false (splitDecodeBoundary_wide hwidth) fun h => ?_
      have hpos : 0 < tokens := hsize.resolve_right hwidth
      have hle : width*2 ≤ tokens*(width*2) := Nat.le_mul_of_pos_left _ hpos
      have hlength := h.size
      omega
  · obtain ⟨-,-,-,-,hrows⟩ := combineDecodeInputs_ok_iff.mp h
    cases hrows with
    | boundary width payloads hpositive hfits hinputs hbytes =>
      exact ⟨payloads,hinputs,splitDecodeBoundary_flatten hfits hbytes hpayload⟩

/-- A boundary without rows is refused if its row size does not fit. -/
theorem empty_wide_refused : IsSplit 0 (2^63) [] ([] : List (StageOutput ℤ)) ∧
    ∀ outputs : List (StageOutput ℤ),splitDecodeBoundary 0 (2^63) []≠.ok outputs :=
  ⟨⟨rfl,[],rfl,rfl,nofun,rfl⟩,fun _ => splitDecodeBoundary_wide (by decide)⟩

end Splitting

end Hllm.DecodeBatch
