import Hllm.AcceleratorPasses
import Hllm.CpuPrefill

/-!
# Runs of accelerator stages

Over any calls, faults and cancellations the length of a sequence counts the
rows of its calls that completed, as long as no call has failed on it; the call
that fails may have been counted too. A sequence on which a call failed is
never executed again. Sequences a call does not name stay as they are, and so
do all when it is rejected.
-/

namespace Hllm.AcceleratorRuns

open AcceleratorModel AcceleratorModel.AcceleratorStage AcceleratorPasses
open CpuModel (Failure StageInput StageOutput)
open DecodeBatch
open RunInvariants
open SamplingModel

variable {Row F D : Type} {stage : AcceleratorStage Row F} {faults : Faults}

section Touching

/-- Sequences of which only caches and draws differ, some rows further. -/
structure Touched (count : ℕ) (sequence sequence' : AcceleratorSequence Row D) : Prop where
  owned : sequence'.owned=sequence.owned
  capacity : sequence'.capacity=sequence.capacity
  failed : sequence'.failed=sequence.failed
  length : sequence'.length=sequence.length+count

/-- A sequence is not further than itself. -/
theorem Touched.refl (sequence : AcceleratorSequence Row D) : Touched 0 sequence sequence :=
  ⟨rfl,rfl,rfl,rfl⟩

/-- Touched twice. -/
theorem Touched.trans {m n : ℕ} {first second third : AcceleratorSequence Row D}
    (h : Touched m first second) (h' : Touched n second third) : Touched (m+n) first third where
  owned := h'.owned.trans h.owned
  capacity := h'.capacity.trans h.capacity
  failed := h'.failed.trans h.failed
  length := by rw [h'.length,h.length,Nat.add_assoc]

/-- Lists of sequences that are touched. -/
abbrev AllTouched (count : ℕ) (sequences sequences' : List (AcceleratorSequence Row D)) : Prop :=
  List.Forall₂ (Touched count) sequences sequences'

/-- Sequences are not further than themselves. -/
theorem allTouched_refl (sequences : List (AcceleratorSequence Row D)) :
    AllTouched 0 sequences sequences :=
  List.forall₂_same.mpr fun sequence _ => .refl sequence

/-- Touched twice. -/
theorem AllTouched.trans {m n : ℕ} {first second third : List (AcceleratorSequence Row D)}
    (h : AllTouched m first second) (h' : AllTouched n second third) :
    AllTouched (m+n) first third := by
  induction h generalizing third with
  | nil =>
    cases h'
    exact .nil
  | cons hone _ ih =>
    cases h' with
    | cons hone' hrest' => exact .cons (hone.trans hone') (ih hrest')

/-- Attention touches its sequence. -/
theorem attend_touched (index member : ℕ) (part : AcceleratorStage.Part Row)
    (sequence : AcceleratorSequence Row D) :
    Touched 0 sequence (stage.attend faults index member part sequence).1 := by
  unfold attend
  split
  · exact .refl _
  · exact .refl _
  · dsimp only
    split
    · exact .refl _
    · split
      · exact ⟨rfl,rfl,rfl,rfl⟩
      · exact ⟨rfl,rfl,rfl,rfl⟩

/-- Attention touches its sequences. -/
theorem attendAll_touched (index member : ℕ) (parts : List (AcceleratorStage.Part Row))
    (sequences : List (AcceleratorSequence Row D)) :
    AllTouched 0 sequences (stage.attendAll faults index member parts sequences).1 := by
  induction parts generalizing member sequences with
  | nil =>
    unfold attendAll
    exact allTouched_refl sequences
  | cons part parts ih =>
    cases sequences with
    | nil =>
      unfold attendAll
      exact .nil
    | cons sequence sequences =>
      have hone := @attend_touched _ _ _ stage faults index member part sequence
      rw [attendAll]
      cases hattend : stage.attend faults index member part sequence with
      | mk sequence' result =>
        rw [hattend] at hone
        cases result with
        | error failure => exact .cons hone (allTouched_refl sequences)
        | ok rows => exact .cons hone (ih (member+1) sequences)

/-- A layer touches its sequences. -/
theorem layer_touched (single : Bool) (index position : ℕ) (hidden : List Row)
    (sequences : List (AcceleratorSequence Row D)) :
    AllTouched 0 sequences (stage.layer faults single index position hidden sequences).1 := by
  unfold layer
  split
  · exact allTouched_refl sequences
  · exact attendAll_touched _ _ _ _

/-- The layers touch their sequences. -/
theorem forward_touched (single : Bool) (position : ℕ) (indices : List ℕ) (hidden : List Row)
    (sequences : List (AcceleratorSequence Row D)) :
    AllTouched 0 sequences
      (stage.forward faults single position indices hidden sequences).1 := by
  induction indices generalizing hidden sequences with
  | nil => exact allTouched_refl sequences
  | cons index indices ih =>
    rw [forward]
    split
    · exact allTouched_refl sequences
    · have hone := @layer_touched _ _ _ stage faults single index position hidden sequences
      cases hlayer : stage.layer faults single index position hidden sequences with
      | mk sequences' result =>
        rw [hlayer] at hone
        cases result with
        | error failure => exact hone
        | ok rows => exact hone.trans (ih rows sequences')

variable [Scalar F] [Double F D]

/-- Selecting touches its sequences. -/
theorem selectAll_touched (member : ℕ) (rows : List (List F))
    (sequences : List (AcceleratorSequence Row D)) :
    AllTouched 0 sequences (stage.selectAll faults member rows sequences).1 := by
  induction rows generalizing member sequences with
  | nil =>
    unfold selectAll
    exact allTouched_refl sequences
  | cons logits rows ih =>
    cases sequences with
    | nil =>
      unfold selectAll
      exact .nil
    | cons sequence sequences =>
      have hone : Touched 0 sequence (stage.select faults member logits sequence).1 := by
        unfold select
        split
        · exact .refl _
        · exact ⟨rfl,rfl,rfl,rfl⟩
      rw [selectAll]
      cases hselect : stage.select faults member logits sequence with
      | mk sequence' result =>
        rw [hselect] at hone
        cases result with
        | error failure => exact .cons hone (allTouched_refl sequences)
        | ok token => exact .cons hone (ih (member+1) sequences)

/-- The end of a pass touches its sequences. -/
theorem outputOf_touched (single : Bool) (hidden : List Row)
    (sequences : List (AcceleratorSequence Row D)) :
    AllTouched 0 sequences (stage.outputOf faults single hidden sequences).1 := by
  unfold outputOf
  split
  · exact allTouched_refl sequences
  · split
    · unfold head
      generalize (if single then hidden.getLast?.toList else hidden)=rows
      split
      · exact allTouched_refl sequences
      · dsimp only
        split
        · exact allTouched_refl sequences
        · exact selectAll_touched _ _ _
    · exact allTouched_refl sequences

/-- The end of a pass moves all its sequences on or none. -/
theorem conclude_touched (single : Bool) (count : ℕ)
    {sequences : List (AcceleratorSequence Row D)}
    {returned : List (AcceleratorSequence Row D)×Except Failure (List (StageOutput D))}
    (h : AllTouched 0 sequences returned.1) :
    ∃ rows,(rows=0 ∨ rows=if single then count else 1) ∧
      AllTouched rows sequences (conclude faults single count returned).1 := by
  unfold conclude
  cases returned.2.bind fun outputs => (faults.running .advance).map fun _ => outputs with
  | error failure => exact ⟨0,.inl rfl,h⟩
  | ok outputs =>
    refine ⟨_,.inr rfl,?_⟩
    dsimp only
    rw [AllTouched,List.forall₂_map_right_iff]
    refine h.imp fun sequence sequence' htouched => ?_
    refine ⟨htouched.owned,htouched.capacity,htouched.failed,?_⟩
    rw [AcceleratorSequence.advance,htouched.length,Nat.add_zero]

/-- A pass touches its sequences, and moves all of them on or none. -/
theorem pass_touched (single : Bool) (count position : ℕ) (input : StageInput)
    (sequences : List (AcceleratorSequence Row D)) :
    ∃ rows,(rows=0 ∨ rows=if single then count else 1) ∧
      AllTouched rows sequences (stage.pass faults single count position input sequences).1 := by
  unfold AcceleratorStage.pass
  cases hinput : stage.inputRows faults input with
  | error failure => exact ⟨0,.inl rfl,allTouched_refl sequences⟩
  | ok hidden =>
    have hforward := @forward_touched _ _ _ stage faults single position
      (List.range stage.layers) hidden sequences
    dsimp only
    cases hlayers : stage.forward faults single position (List.range stage.layers) hidden
        sequences with
    | mk sequences₁ result =>
      rw [hlayers] at hforward
      cases result with
      | error failure => exact ⟨0,.inl rfl,hforward⟩
      | ok rows =>
        dsimp only
        cases (faults.pass .finish).bind fun _ => (stage.checkFinite rows).bind fun _ =>
            faults.running .finish with
        | error failure => exact ⟨0,.inl rfl,hforward⟩
        | ok u =>
          exact conclude_touched single count (hforward.trans (outputOf_touched single rows _))

end Touching

section Calls

variable [Scalar F] [Double F D]

omit [Scalar F] [Double F D] in
/-- The number of rows of an input is their count. -/
theorem length_rowsOf (input : StageInput) : (stage.rowsOf input).length=countOf input := by
  cases input with
  | tokens ids => exact List.length_mapIdx
  | boundary tokens width payload =>
    rw [AcceleratorStage.rowsOf,List.length_map,List.length_range]
    rfl

/-- The initial checks of `run` on its first sequence. -/
structure Admitted (stage : AcceleratorStage Row F) (single : Bool) (position : ℕ)
    (input : StageInput) (state : AcceleratorSequence Row D) : Prop where
  owned : state.owned=true
  alive : state.failed=false
  aligned : position=state.length
  kind : isTokens input=stage.first
  positive : 0 < countOf input
  inside : position ≤ state.capacity
  room : single=true → countOf input ≤ state.capacity-position

/-- How `run` ends. -/
theorem run_cases (single : Bool) (position : ℕ) (input : StageInput)
    (state : AcceleratorSequence Row D) (others : List (AcceleratorSequence Row D)) :
    (∃ failure,stage.run faults single position input state others=
      (state::others,.rejected failure)) ∨
    Admitted stage single position input state ∧
      ((∃ failure,stage.run faults single position input state others=
        ((stage.pass faults single (countOf input) position input (state::others)).1.map
          (·.fail),.failed failure)) ∨
      ∃ sequences outputs,stage.pass faults single (countOf input) position input
          (state::others)=(sequences,.ok outputs) ∧
        stage.run faults single position input state others=(sequences,.completed outputs)) := by
  unfold run
  by_cases hstate : state.owned=false ∨ state.failed=true ∨ position≠state.length
  · rw [if_pos hstate]
    exact .inl ⟨_,rfl⟩
  · rw [if_neg hstate]
    by_cases hinput : isTokens input≠stage.first ∨ countOf input=0 ∨ state.capacity < position ∨
        (single=true ∧ state.capacity-position < countOf input)
    · rw [if_pos hinput]
      exact .inl ⟨_,rfl⟩
    · rw [if_neg hinput]
      cases faults.running .entry with
      | error failure => exact .inl ⟨failure,rfl⟩
      | ok u =>
        simp only [not_or,not_not,Bool.not_eq_false,Bool.not_eq_true,not_and,not_lt,ne_eq]
          at hstate hinput
        refine .inr ⟨⟨hstate.1,hstate.2.1,hstate.2.2,hinput.1,Nat.pos_of_ne_zero hinput.2.1,
          hinput.2.2.1,hinput.2.2.2⟩,?_⟩
        dsimp only
        cases hpass : stage.pass faults single (countOf input) position input
            (state::others) with
        | mk sequences result =>
          cases result with
          | error failure => exact .inl ⟨failure,rfl⟩
          | ok outputs => exact .inr ⟨sequences,outputs,rfl,rfl⟩

/-- A sequence after a call that failed on it. -/
structure Failed (count : ℕ) (sequence sequence' : AcceleratorSequence Row D) : Prop where
  owned : sequence'.owned=sequence.owned
  capacity : sequence'.capacity=sequence.capacity
  failed : sequence'.failed=true
  length : sequence'.length=sequence.length ∨ sequence'.length=sequence.length+count

/-- Touched sequences that are given up. -/
theorem failed_of_touched {rows count : ℕ}
    {sequences sequences' : List (AcceleratorSequence Row D)}
    (hrows : rows=0 ∨ rows=count) (h : AllTouched rows sequences sequences') :
    List.Forall₂ (Failed count) sequences (sequences'.map (·.fail)) := by
  rw [List.forall₂_map_right_iff]
  refine h.imp fun sequence sequence' htouched => ⟨htouched.owned,htouched.capacity,rfl,?_⟩
  rcases hrows with rfl | rfl
  · exact .inl htouched.length
  · exact .inr htouched.length

/-- How a call of one sequence ends. -/
theorem execute_cases (input : StageInput) (position : ℕ) (state : AcceleratorSequence Row D)
    (hlayers : state.owned=true → state.failed=false → state.caches.length=stage.layers) :
    (∃ failure,stage.execute faults input position state=([state],.rejected failure)) ∨
    Admitted stage true position input state ∧
      ((∃ failure state',stage.execute faults input position state=([state'],.failed failure) ∧
        Failed (countOf input) state state') ∨
      ∃ state' output,stage.execute faults input position state=
          ([state'],.completed [output]) ∧
        performed stage (countOf input) 0 1 0 (stage.rowsOf input) state=
          .ok (state',output)) := by
  unfold execute
  rcases @run_cases _ _ _ stage faults _ _ true position input state [] with
    hrejected | ⟨hadmitted,⟨failure,hfailed⟩ | ⟨sequences,outputs,hpass,hcompleted⟩⟩
  · exact .inl hrejected
  · refine .inr ⟨hadmitted,.inl ?_⟩
    obtain ⟨rows,hrows,htouched⟩ := @pass_touched _ _ _ stage faults _ _ true (countOf input)
      position input [state]
    have hgiven := failed_of_touched hrows htouched
    rw [hfailed]
    obtain ⟨state',rest,hone,hrest,heq⟩ := List.forall₂_cons_left_iff.mp hgiven
    cases hrest
    exact ⟨failure,state',by rw [heq],hone⟩
  · refine .inr ⟨hadmitted,.inr ?_⟩
    rw [hadmitted.aligned] at hpass
    obtain ⟨state',output,rfl,rfl,hperformed⟩ := pass_alone (length_rowsOf input)
      hadmitted.positive (hlayers hadmitted.owned hadmitted.alive) hpass
    exact ⟨state',output,hcompleted,hperformed⟩

end Calls

section Batches

variable {sequences : ℕ → Option (AcceleratorSequence Row D)}

/-- The row an item of a batch puts at its place. -/
def inputRow (stage : AcceleratorStage Row F) (count place : ℕ) : StageInput → Row
  | .tokens ids => stage.embed count place (ids.headD 0)
  | .boundary _ _ payload => stage.fromWire count place payload

/-- A sequence that can decode is stored. -/
theorem stored_of_ready {id : ℕ} (h : (statesOf sequences id).prefilling=false) :
    ∃ sequence,sequences id=some sequence ∧
      statesOf sequences id=⟨sequence.prefilling,sequence.prefillOnly⟩ := by
  unfold statesOf at h ⊢
  cases hsequence : sequences id with
  | none =>
    rw [hsequence] at h
    cases h
  | some sequence => exact ⟨sequence,rfl,rfl⟩

/-- Ready items name stored sequences past their prompts. -/
theorem exists_members {items : List DecodeBatchItem}
    (h : ∀ item∈items,IsReady (statesOf sequences) item) :
    ∃ (ids : List ℕ) (members : List (AcceleratorSequence Row D)),
      items.map (·.sequence)=ids.map some ∧ ids.map sequences=members.map some ∧
      ∀ sequence∈members,sequence.prefilling=false ∧ sequence.prefillOnly=false := by
  induction items with
  | nil => exact ⟨[],[],rfl,rfl,fun sequence hmem => absurd hmem List.not_mem_nil⟩
  | cons item items ih =>
    obtain ⟨hitem,hitems⟩ := List.forall_mem_cons.mp h
    obtain ⟨ids,members,hids,hmembers,hready⟩ := ih hitems
    obtain ⟨id,hid,hprefilling,honly⟩ := hitem.sequence
    obtain ⟨sequence,hsequence,hstate⟩ := stored_of_ready hprefilling
    rw [hstate] at hprefilling honly
    refine ⟨id::ids,sequence::members,?_,?_,?_⟩
    · rw [List.map_cons,List.map_cons,hid,hids]
    · rw [List.map_cons,List.map_cons,hsequence,hmembers]
    · exact List.forall_mem_cons.mpr ⟨⟨hprefilling,honly⟩,hready⟩

/-- What a batch must be to enter a pass. -/
structure Batch (stage : AcceleratorStage Row F)
    (sequences : ℕ → Option (AcceleratorSequence Row D)) (items : List DecodeBatchItem)
    (input : StageInput) (ids : List ℕ) (members : List (AcceleratorSequence Row D)) :
    Prop where
  distinct : ids.Nodup
  named : items.map (·.sequence)=ids.map some
  present : ids.map sequences=members.map some
  ready : ∀ sequence∈members,sequence.prefilling=false ∧ sequence.prefillOnly=false
  count : countOf input=items.length
  rows : stage.rowsOf input=items.mapIdx fun i item => inputRow stage items.length i item.input

/-- Tokens that are combined. -/
theorem tokens_batch {items : List DecodeBatchItem} {ids values : List ℕ}
    (hvalues : items.map (·.input)=values.map fun token => .tokens [token])
    (hids : ids=values) : countOf (.tokens ids)=items.length ∧ stage.rowsOf (.tokens ids)=
      items.mapIdx fun i item => inputRow stage items.length i item.input := by
  have hlength : values.length=items.length := by
    have hsame := congrArg List.length hvalues
    rw [List.length_map,List.length_map] at hsame
    exact hsame.symm
  subst hids
  refine ⟨hlength,?_⟩
  rw [AcceleratorStage.rowsOf,hlength]
  refine List.ext_getElem (by rw [List.length_mapIdx,List.length_mapIdx,hlength]) ?_
  intro i hleft hright
  rw [List.length_mapIdx] at hleft hright
  have hone := List.getElem_of_eq hvalues (i := i) (by rwa [List.length_map])
  rw [List.getElem_map,List.getElem_map] at hone
  rw [List.getElem_mapIdx,List.getElem_mapIdx,hone]
  rfl

/-- Boundaries that are combined. -/
theorem boundary_batch {items : List DecodeBatchItem} {width : ℕ} {bytes : List UInt8}
    {payloads : List (List UInt8)}
    (hpayloads : items.map (·.input)=payloads.map (.boundary 1 width))
    (hbytes : bytes=payloads.flatten) (hlengths : ∀ payload∈payloads,payload.length=width*2) :
    countOf (.boundary items.length width bytes)=items.length ∧
      stage.rowsOf (.boundary items.length width bytes)=
        items.mapIdx fun i item => inputRow stage items.length i item.input := by
  have hlength : payloads.length=items.length := by
    have hsame := congrArg List.length hpayloads
    rw [List.length_map,List.length_map] at hsame
    exact hsame.symm
  subst hbytes
  refine ⟨rfl,?_⟩
  rw [AcceleratorStage.rowsOf]
  refine List.ext_getElem (by rw [List.length_map,List.length_range,List.length_mapIdx]) ?_
  intro i hleft hright
  rw [List.length_mapIdx] at hright
  have hone := List.getElem_of_eq hpayloads (i := i) (by rwa [List.length_map])
  rw [List.getElem_map,List.getElem_map] at hone
  rw [List.getElem_map,List.getElem_range,List.getElem_mapIdx,hone,
    rowBytes_flatten hlengths i (by omega)]
  rfl

/-- Items that are combined are a batch. -/
theorem combineDecodeInputs_ok {items : List DecodeBatchItem} {input : StageInput}
    (h : combineDecodeInputs (statesOf sequences) items=.ok input) :
    ∃ ids members,Batch stage sequences items input ids members := by
  have hbatch := combineDecodeInputs_ok_iff.mp h
  obtain ⟨ids,members,hids,hmembers,hready⟩ := exists_members hbatch.ready
  have hdistinct : ids.Nodup := by
    have hnodup := hbatch.distinct
    rw [hids] at hnodup
    exact hnodup.of_map
  suffices hshape : countOf input=items.length ∧ stage.rowsOf input=
      items.mapIdx fun i item => inputRow stage items.length i item.input from
    ⟨ids,members,hdistinct,hids,hmembers,hready,hshape.1,hshape.2⟩
  cases hbatch.rows with
  | tokens values hvalues => exact tokens_batch hvalues rfl
  | boundary width payloads hpositive hfits hinputs hbytes =>
    have hlength : payloads.length=items.length := by
      have hsame := congrArg List.length hinputs
      rw [List.length_map,List.length_map] at hsame
      exact hsame.symm
    rw [hlength]
    exact boundary_batch hinputs rfl hbytes

variable {items : List DecodeBatchItem} {input : StageInput} {ids : List ℕ}
  {members : List (AcceleratorSequence Row D)}

/-- The members of a batch, by item. -/
theorem Batch.found (h : Batch stage sequences items input ids members) :
    (items.map fun item => item.sequence.bind sequences)=members.map some := by
  have hnamed := congrArg (List.map fun id => Option.bind id sequences) h.named
  rw [List.map_map,List.map_map] at hnamed
  exact hnamed.trans h.present

/-- The members of a batch. -/
theorem Batch.members_eq (h : Batch stage sequences items input ids members) :
    membersOf sequences items=members := by
  have hfound := congrArg (List.filterMap id) h.found
  rw [List.filterMap_map,List.filterMap_map] at hfound
  exact hfound.trans List.filterMap_some

/-- A batch has a member for each item. -/
theorem Batch.size (h : Batch stage sequences items input ids members) :
    members.length=items.length := by
  have hsame := congrArg List.length h.found
  rw [List.length_map,List.length_map] at hsame
  exact hsame.symm

/-- A member of a batch is the sequence of one of its ids. -/
theorem Batch.holder (h : Batch stage sequences items input ids members)
    {sequence : AcceleratorSequence Row D} (hmem : sequence∈members) :
    ∃ id,sequences id=some sequence := by
  have hsome : some sequence∈ids.map sequences := by
    rw [h.present]
    exact List.mem_map_of_mem hmem
  obtain ⟨id,-,hid⟩ := List.mem_map.mp hsome
  exact ⟨id,hid⟩

/-- A member of a batch has an item. -/
theorem Batch.paired (h : Batch stage sequences items input ids members)
    {sequence : AcceleratorSequence Row D} (hmem : sequence∈members) :
    ∃ item,(item,sequence)∈items.zip members := by
  obtain ⟨i,hi,rfl⟩ := List.getElem_of_mem hmem
  have hitem : i < items.length := h.size ▸ hi
  have hzip : i < (items.zip members).length := by
    rw [List.length_zip]
    omega
  refine ⟨items[i],?_⟩
  rw [←List.getElem_zip (h := hzip)]
  exact List.getElem_mem hzip

/-- How a batched call ends. -/
theorem executeDecodeBatch_cases [Scalar F] [Double F D] (items : List DecodeBatchItem)
    (hlayers : ∀ id sequence,sequences id=some sequence → sequence.owned=true →
      sequence.failed=false → sequence.caches.length=stage.layers) :
    (∃ failure,stage.executeDecodeBatch faults sequences items=
      (membersOf sequences items,.rejected failure)) ∨
    ∃ input ids members,Batch stage sequences items input ids members ∧
      isTokens input=stage.first ∧
      (∀ pair∈items.zip members,decodable pair.1 pair.2=true) ∧
      ((∃ failure members',stage.executeDecodeBatch faults sequences items=
          (members',.failed failure) ∧ List.Forall₂ (Failed 1) members members') ∨
        ∃ members' outputs,stage.executeDecodeBatch faults sequences items=
            (members',.completed outputs) ∧ members'.length=members.length ∧
          outputs.length=members.length ∧
          ((items.zip members).mapIdx fun i pair => performed stage items.length i items.length
            i [inputRow stage items.length i pair.1.input] pair.2)=
              (members'.zip outputs).map Except.ok) := by
  unfold executeDecodeBatch
  cases hcombine : combineDecodeInputs (statesOf sequences) items with
  | error failure => exact .inl ⟨failure,rfl⟩
  | ok input =>
    obtain ⟨ids,members,hbatch⟩ := @combineDecodeInputs_ok _ _ _ stage _ _ _ hcombine
    rw [hbatch.members_eq]
    dsimp only
    by_cases hchecks : (items.zip members).any (fun pair => !decodable pair.1 pair.2)=true
    · rw [if_pos hchecks]
      exact .inl ⟨_,rfl⟩
    · rw [if_neg hchecks]
      have hdecodable : ∀ pair∈items.zip members,decodable pair.1 pair.2=true := by
        intro pair hmem
        by_contra hnot
        refine hchecks (List.any_eq_true.mpr ⟨pair,hmem,?_⟩)
        rw [Bool.eq_false_of_not_eq_true hnot]
        rfl
      cases hmembers : members with
      | nil => exact .inl ⟨_,rfl⟩
      | cons front others =>
        dsimp only
        rcases @run_cases _ _ _ stage faults.uncancelled _ _ false front.length input front
          others with ⟨failure,hrejected⟩ | ⟨hadmitted,hentered⟩
        · rw [hrejected]
          exact .inl ⟨failure,rfl⟩
        · refine .inr ⟨input,ids,members,hbatch,hadmitted.kind,hdecodable,?_⟩
          rw [hmembers] at hbatch ⊢
          rcases hentered with ⟨failure,hfailed⟩ | ⟨moved,outputs,hpass,hcompleted⟩
          · rw [hfailed]
            obtain ⟨rows,hrows,htouched⟩ := @pass_touched _ _ _ stage faults.uncancelled _ _ false
              (countOf input) front.length input (front::others)
            exact .inl ⟨failure,_,rfl,failed_of_touched hrows htouched⟩
          · have hpresent : ∀ sequence∈front::others,sequence.caches.length=stage.layers := by
              intro sequence hmem
              obtain ⟨id,hid⟩ := hbatch.holder hmem
              obtain ⟨item,hitem⟩ := hbatch.paired hmem
              rw [←hmembers] at hitem
              have hchecked := hdecodable _ hitem
              simp only [decodable,Bool.and_eq_true,Bool.not_eq_true'] at hchecked
              exact hlayers id sequence hid hchecked.1.1.1 hchecked.1.1.2
            obtain ⟨returned,hsplit,hperformed,hsize,hcount⟩ := pass_batched
              (by rw [length_rowsOf,hbatch.count,hbatch.size]) hpresent
              (fun sequence hmem => (hbatch.ready sequence hmem).2) hpass
            rw [hcompleted]
            refine .inr ⟨moved,returned,by rw [hsplit],hsize,hcount,?_⟩
            rw [←hperformed,hbatch.rows,hbatch.size]
            refine List.ext_getElem ?_ fun i hleft hright => ?_
            · simp only [List.length_mapIdx,List.length_zip]
            · simp only [List.getElem_mapIdx,List.getElem_zip]

end Batches

section Storing

variable {sequences : ℕ → Option (AcceleratorSequence Row D)} {ids : List ℕ}
  {members members' : List (AcceleratorSequence Row D)}

/-- Sequences that are not named stay. -/
theorem store_other {id : ℕ} (h : id∉ids) : store sequences ids members id=sequences id := by
  unfold store
  have hnone : (ids.zip members).lookup id=none := by
    induction ids generalizing members with
    | nil => rfl
    | cons first ids ih =>
      cases members with
      | nil => rfl
      | cons member members =>
        rw [List.mem_cons,not_or] at h
        rw [List.zip_cons_cons,List.lookup_cons,beq_false_of_ne h.1]
        exact ih h.2
  rw [hnone,Option.none_or]

/-- Storing what is there changes nothing. -/
theorem store_same (h : ids.map sequences=members.map some) :
    store sequences ids members=sequences := by
  funext id
  induction ids generalizing members with
  | nil =>
    unfold store
    rw [List.zip_nil_left,List.lookup_nil,Option.none_or]
  | cons first ids ih =>
    cases members with
    | nil => cases h
    | cons member members =>
      rw [List.map_cons,List.map_cons,List.cons.injEq] at h
      have hrest := ih h.2
      unfold store at hrest ⊢
      rw [List.zip_cons_cons,List.lookup_cons]
      split
      next hfirst =>
        rw [beq_iff_eq.mp hfirst,h.1]
        rfl
      · exact hrest

/-- Different sequences are stored as they are related. -/
theorem store_related {rel : AcceleratorSequence Row D → AcceleratorSequence Row D → Prop}
    (hpresent : ids.map sequences=members.map some) (hnodup : ids.Nodup)
    (hrel : List.Forall₂ rel members members') {id : ℕ} (hid : id∈ids) :
    ∃ sequence sequence',sequences id=some sequence ∧
      store sequences ids members' id=some sequence' ∧ rel sequence sequence' := by
  induction ids generalizing members members' with
  | nil => cases hid
  | cons first ids ih =>
    cases hrel with
    | nil => cases hpresent
    | cons hone hrest =>
      rename_i member member' members members'
      rw [List.map_cons,List.map_cons,List.cons.injEq] at hpresent
      rw [List.nodup_cons] at hnodup
      unfold store at ih ⊢
      rw [List.zip_cons_cons,List.lookup_cons]
      rcases List.mem_cons.mp hid with rfl | hid
      · rw [beq_self_eq_true]
        exact ⟨member,member',hpresent.1,rfl,hone⟩
      · have hne : id≠first := fun heq => hnodup.1 (heq ▸ hid)
        rw [beq_false_of_ne hne]
        exact ih hpresent.2 hnodup.2 hrest hid

/-- Different sequences are stored under their names. -/
theorem store_at (hnodup : ids.Nodup) (hlength : members.length=ids.length) {i : ℕ}
    (hi : i < ids.length) :
    store sequences ids members ids[i]=some (members.get ⟨i,hlength ▸ hi⟩) := by
  induction ids generalizing members i with
  | nil => exact absurd hi (Nat.not_lt_zero i)
  | cons first ids ih =>
    cases members with
    | nil => cases hlength
    | cons member members =>
      rw [List.nodup_cons] at hnodup
      unfold store at ih ⊢
      rw [List.zip_cons_cons,List.lookup_cons]
      cases i with
      | zero =>
        rw [List.getElem_cons_zero,beq_self_eq_true]
        rfl
      | succ i =>
        rw [List.length_cons,Nat.add_lt_add_iff_right] at hi
        have hne : ids[i]≠first := fun heq => hnodup.1 (heq ▸ List.getElem_mem hi)
        rw [List.getElem_cons_succ,beq_false_of_ne hne]
        exact ih hnodup.2 (Nat.succ.inj hlength) hi

end Storing

section Worlds

/-- Rows of the calls of a sequence that completed. -/
def credit (log : List (Record D)) (id : ℕ) : ℕ :=
  (log.map fun record => match record.ending with
    | .completed _ => ((record.rows.filter fun pair => decide (pair.1=id)).map Prod.snd).sum
    | _ => 0).sum

/-- The length of a sequence against its calls. -/
structure Counted (log : List (Record D)) (id : ℕ) (sequence : AcceleratorSequence Row D) :
    Prop where
  inside : sequence.length ≤ sequence.capacity
  alive : sequence.failed=false → sequence.length=credit log id
  /-- The call that failed may have been counted. -/
  dead : sequence.failed=true → ∃ record∈log,∃ failure,record.ending=.failed failure ∧
    ∃ count,(id,count)∈record.rows ∧
      (sequence.length=credit log id ∨ sequence.length=credit log id+count)

/-- After a call failed on a sequence every call on it is rejected. -/
def Final (log : List (Record D)) : Prop :=
  log.Pairwise fun earlier later => ∀ failure,earlier.ending=.failed failure →
    ∀ id∈earlier.rows.map Prod.fst,id∈later.rows.map Prod.fst →
      ∃ failure',later.ending=.rejected failure'

/-- What holds in every run. -/
structure Inv (stage : AcceleratorStage Row F) (world : World Row D) : Prop where
  counted : ∀ id sequence,world.sequences id=some sequence → sequence.owned=true →
    Counted world.log id sequence
  shaped : ∀ id sequence,world.sequences id=some sequence → sequence.owned=true →
    sequence.failed=false → stage.shaped sequence.capacity sequence.caches=true
  named : ∀ record∈world.log,∀ id∈record.rows.map Prod.fst,(world.sequences id).isSome=true
  failed : ∀ record∈world.log,∀ failure,record.ending=.failed failure →
    ∀ id∈record.rows.map Prod.fst,∃ sequence,world.sequences id=some sequence ∧
      sequence.owned=true ∧ sequence.failed=true
  final : Final world.log

/-- A sequence before a call that entered the pass. -/
structure Entered (count : ℕ) (sequence : AcceleratorSequence Row D) : Prop where
  owned : sequence.owned=true
  alive : sequence.failed=false
  room : sequence.length+count ≤ sequence.capacity

/-- A sequence after a call that completed. -/
structure Moved (stage : AcceleratorStage Row F) (count : ℕ)
    (sequence sequence' : AcceleratorSequence Row D) : Prop where
  owned : sequence'.owned=true
  alive : sequence'.failed=false
  capacity : sequence'.capacity=sequence.capacity
  length : sequence'.length=sequence.length+count
  shaped : stage.shaped sequence'.capacity sequence'.caches=true

/-- The sequences of a call before and after it. -/
structure Called (stage : AcceleratorStage Row F) (world : World Row D) (ids : List ℕ)
    (count : ℕ) (members members' : List (AcceleratorSequence Row D)) (ending : Ending D) :
    Prop where
  present : ids.map world.sequences=members.map some
  rejected : ∀ failure,ending=.rejected failure → members'=members
  distinct : (∀ failure,ending≠.rejected failure) → ids.Nodup
  entered : (∀ failure,ending≠.rejected failure) → ∀ sequence∈members,Entered count sequence
  failed : ∀ failure,ending=.failed failure → List.Forall₂ (Failed count) members members'
  completed : ∀ outputs,ending=.completed outputs →
    List.Forall₂ (Moved stage count) members members'

/-- The rows of a call. -/
def rowsOfCall (ids : List ℕ) (count : ℕ) : List (ℕ×ℕ) := ids.map fun id => (id,count)

/-- The names of a call. -/
theorem names_rowsOfCall (ids : List ℕ) (count : ℕ) :
    (rowsOfCall ids count).map Prod.fst=ids := by
  rw [rowsOfCall,List.map_map]
  exact List.map_id ids

/-- One more record. -/
theorem credit_append (log : List (Record D)) (record : Record D) (id : ℕ) :
    credit (log++[record]) id=credit log id+credit [record] id := by
  unfold credit
  rw [List.map_append,List.sum_append]

/-- A call that failed did not complete. -/
theorem failed_incomplete (failure : Failure) (outputs : List (StageOutput D)) :
    Ending.failed failure≠.completed outputs := nofun

/-- A call that was rejected did not complete. -/
theorem rejected_incomplete (failure : Failure) (outputs : List (StageOutput D)) :
    Ending.rejected failure≠.completed outputs := nofun

/-- A record of a call that did not complete counts nothing. -/
theorem credit_incomplete {rows : List (ℕ×ℕ)} {ending : Ending D}
    (h : ∀ outputs,ending≠.completed outputs) (id : ℕ) : credit [⟨rows,ending⟩] id=0 := by
  cases ending with
  | rejected failure => rfl
  | failed failure => rfl
  | completed outputs => exact absurd rfl (h outputs)

/-- A record counts nothing for what it does not name. -/
theorem credit_unnamed {record : Record D} {id : ℕ} (h : id∉record.rows.map Prod.fst) :
    credit [record] id=0 := by
  have hnone : (record.rows.filter fun pair => decide (pair.1=id))=[] := by
    rw [List.filter_eq_nil_iff]
    intro pair hmem hsame
    exact h (List.mem_map.mpr ⟨pair,hmem,of_decide_eq_true hsame⟩)
  unfold credit
  rw [List.map_singleton,List.sum_singleton,hnone]
  split <;> rfl

/-- A record of a completed call counts its rows once for each sequence. -/
theorem credit_named {ids : List ℕ} {count : ℕ} {outputs : List (StageOutput D)} {id : ℕ}
    (hnodup : ids.Nodup) (hid : id∈ids) :
    credit [⟨rowsOfCall ids count,.completed outputs⟩] id=count := by
  have hone : ((rowsOfCall ids count).filter fun pair => decide (pair.1=id))=[(id,count)] := by
    rw [rowsOfCall,List.filter_map]
    have hfilter : (ids.filter ((fun pair : ℕ×ℕ => decide (pair.1=id))∘fun id => (id,count)))=
        List.replicate (ids.count id) id := List.filter_eq id
    rw [hfilter,List.count_eq_one_of_mem hnodup hid]
    rfl
  unfold credit
  rw [List.map_singleton,List.sum_singleton]
  dsimp only
  rw [hone]
  rfl

/-- A count stays right when a record counts nothing. -/
theorem Counted.extend {log : List (Record D)} {id : ℕ} {sequence : AcceleratorSequence Row D}
    (h : Counted log id sequence) {record : Record D} (hnone : credit [record] id=0) :
    Counted (log++[record]) id sequence := by
  have hcredit : credit (log++[record]) id=credit log id := by
    rw [credit_append,hnone,Nat.add_zero]
  refine ⟨h.inside,?_,?_⟩
  · intro halive
    rw [hcredit]
    exact h.alive halive
  · intro hdead
    obtain ⟨old,hmem,failure,hending,count,hrows,hlength⟩ := h.dead hdead
    rw [hcredit]
    exact ⟨old,List.mem_append_left _ hmem,failure,hending,count,hrows,hlength⟩

variable {world : World Row D} {ids : List ℕ} {count : ℕ}
  {members members' : List (AcceleratorSequence Row D)} {ending : Ending D}

/-- The sequences after a call. -/
theorem after_sequences : (world.after (rowsOfCall ids count) (members',ending)).sequences=
    store world.sequences ids members' := by
  unfold World.after
  rw [names_rowsOfCall]

/-- A rejected call changes no sequence. -/
theorem Called.unchanged (h : Called stage world ids count members members' ending)
    {failure : Failure} (hrejected : ending=.rejected failure) :
    (world.after (rowsOfCall ids count) (members',ending)).sequences=world.sequences := by
  rw [after_sequences,h.rejected failure hrejected]
  exact store_same h.present

/-- A call that entered the pass names live sequences only. -/
theorem Called.live (h : Called stage world ids count members members' ending)
    (hentered : ∀ failure,ending≠.rejected failure) {id : ℕ} (hid : id∈ids) :
    ∃ sequence,world.sequences id=some sequence ∧ Entered count sequence := by
  have hsome : world.sequences id∈members.map some := by
    rw [←h.present]
    exact List.mem_map_of_mem hid
  obtain ⟨sequence,hmem,heq⟩ := List.mem_map.mp hsome
  exact ⟨sequence,heq.symm,h.entered hentered sequence hmem⟩

/-- A sequence after a call. -/
theorem Called.trace (h : Called stage world ids count members members' ending) {id : ℕ}
    {sequence' : AcceleratorSequence Row D}
    (hid : (world.after (rowsOfCall ids count) (members',ending)).sequences id=
      some sequence') :
    world.sequences id=some sequence' ∧
        ((∃ failure,ending=.rejected failure) ∨ id∉ids) ∨
      id∈ids ∧ ∃ sequence,world.sequences id=some sequence ∧ Entered count sequence ∧
        ((∃ failure,ending=.failed failure) ∧ Failed count sequence sequence' ∨
          (∃ outputs,ending=.completed outputs) ∧ Moved stage count sequence sequence') := by
  by_cases hmem : id∈ids
  · cases hending : ending with
    | rejected failure =>
      rw [h.unchanged hending] at hid
      exact .inl ⟨hid,.inl ⟨failure,rfl⟩⟩
    | failed failure =>
      have hentered : ∀ other,ending≠.rejected other := by
        intro other
        rw [hending]
        exact nofun
      obtain ⟨sequence,hsequence,hlive⟩ := h.live hentered hmem
      obtain ⟨old,new,hold,hnew,hrel⟩ := store_related h.present (h.distinct hentered)
        (h.failed failure hending) hmem
      rw [after_sequences,hnew,Option.some.injEq] at hid
      rw [hsequence,Option.some.injEq] at hold
      subst hid hold
      exact .inr ⟨hmem,sequence,hsequence,hlive,.inl ⟨⟨failure,rfl⟩,hrel⟩⟩
    | completed outputs =>
      have hentered : ∀ other,ending≠.rejected other := by
        intro other
        rw [hending]
        exact nofun
      obtain ⟨sequence,hsequence,hlive⟩ := h.live hentered hmem
      obtain ⟨old,new,hold,hnew,hrel⟩ := store_related h.present (h.distinct hentered)
        (h.completed outputs hending) hmem
      rw [after_sequences,hnew,Option.some.injEq] at hid
      rw [hsequence,Option.some.injEq] at hold
      subst hid hold
      exact .inr ⟨hmem,sequence,hsequence,hlive,.inr ⟨⟨outputs,rfl⟩,hrel⟩⟩
  · rw [after_sequences,store_other hmem] at hid
    exact .inl ⟨hid,.inr hmem⟩

/-- The count of a sequence after a call. -/
theorem Called.counted (h : Called stage world ids count members members' ending)
    (hinv : Inv stage world) {id : ℕ} {sequence' : AcceleratorSequence Row D}
    (hid : (world.after (rowsOfCall ids count) (members',ending)).sequences id=some sequence')
    (howned : sequence'.owned=true) :
    Counted (world.log++[⟨rowsOfCall ids count,ending⟩]) id sequence' := by
  rcases h.trace hid with ⟨hold,hwhy⟩ | ⟨hmem,sequence,hold,hlive,hfailed | hcompleted⟩
  · refine (hinv.counted id sequence' hold howned).extend ?_
    rcases hwhy with ⟨failure,rfl⟩ | hother
    · exact credit_incomplete (rejected_incomplete failure) id
    · refine credit_unnamed ?_
      rw [names_rowsOfCall]
      exact hother
  · obtain ⟨⟨failure,rfl⟩,hrel⟩ := hfailed
    have hcount := (hinv.counted id sequence hold hlive.owned).alive hlive.alive
    have hcredit : credit (world.log++[⟨rowsOfCall ids count,.failed failure⟩]) id=
        credit world.log id := by
      rw [credit_append,credit_incomplete (failed_incomplete failure),Nat.add_zero]
    have hroom := hlive.room
    refine ⟨?_,?_,fun _ => ⟨_,List.mem_append_right _ (.head _),failure,rfl,count,
      List.mem_map.mpr ⟨id,hmem,rfl⟩,?_⟩⟩
    · rw [hrel.capacity]
      rcases hrel.length with hlength | hlength <;> omega
    · intro halive
      rw [hrel.failed] at halive
      cases halive
    · rw [hcredit,←hcount]
      exact hrel.length
  · obtain ⟨⟨outputs,rfl⟩,hrel⟩ := hcompleted
    have hcount := (hinv.counted id sequence hold hlive.owned).alive hlive.alive
    refine ⟨?_,?_,?_⟩
    · rw [hrel.capacity,hrel.length]
      exact hlive.room
    · intro _
      rw [credit_append,credit_named (h.distinct fun failure heq => by cases heq) hmem,
        hrel.length,hcount]
    · intro hdead
      rw [hrel.alive] at hdead
      cases hdead

/-- A call that names a failed sequence is rejected. -/
theorem Called.rejects (h : Called stage world ids count members members' ending) {id : ℕ}
    {sequence : AcceleratorSequence Row D} (hsequence : world.sequences id=some sequence)
    (hdead : sequence.failed=true) (hmem : id∈ids) :
    ∃ failure,ending=.rejected failure := by
  by_contra hnone
  rw [not_exists] at hnone
  obtain ⟨other,hother,hlive⟩ := h.live hnone hmem
  rw [hsequence,Option.some.injEq] at hother
  subst hother
  rw [hlive.alive] at hdead
  cases hdead

/-- A call keeps what holds in every run. -/
theorem Called.inv (h : Called stage world ids count members members' ending)
    (hinv : Inv stage world) :
    Inv stage (world.after (rowsOfCall ids count) (members',ending)) where
  counted id sequence' hid howned := h.counted hinv hid howned
  shaped id sequence' hid howned halive := by
    rcases h.trace hid with ⟨hold,-⟩ | ⟨-,sequence,hold,hlive,⟨-,hrel⟩ | ⟨-,hrel⟩⟩
    · exact hinv.shaped id sequence' hold howned halive
    · rw [hrel.failed] at halive
      cases halive
    · exact hrel.shaped
  named record hrecord id hid := by
    have hbefore : (world.sequences id).isSome=true := by
      rcases List.mem_append.mp hrecord with hold | hnew
      · exact hinv.named record hold id hid
      · rw [List.mem_singleton.mp hnew,names_rowsOfCall] at hid
        have hsome : world.sequences id∈members.map some := by
          rw [←h.present]
          exact List.mem_map_of_mem hid
        obtain ⟨sequence,-,heq⟩ := List.mem_map.mp hsome
        rw [←heq]
        rfl
    rw [after_sequences,store,Option.isSome_or,hbefore,Bool.or_true]
  failed record hrecord failure hending id hid := by
    rcases List.mem_append.mp hrecord with hold | hnew
    · obtain ⟨sequence,hsequence,howned,hdead⟩ := hinv.failed record hold failure hending id hid
      refine ⟨sequence,?_,howned,hdead⟩
      by_cases hmem : id∈ids
      · obtain ⟨failure',hrejected⟩ := h.rejects hsequence hdead hmem
        rw [h.unchanged hrejected]
        exact hsequence
      · rw [after_sequences,store_other hmem]
        exact hsequence
    · rw [List.mem_singleton.mp hnew] at hending hid
      rw [names_rowsOfCall] at hid
      dsimp only at hending
      subst hending
      have hentered : ∀ other,(Ending.failed failure : Ending D)≠.rejected other :=
        fun other heq => by cases heq
      obtain ⟨old,new,hold,hafter,hrel⟩ := store_related h.present (h.distinct hentered)
        (h.failed failure rfl) hid
      obtain ⟨sequence,hsequence,hlive⟩ := h.live hentered hid
      rw [hold,Option.some.injEq] at hsequence
      subst hsequence
      rw [after_sequences]
      exact ⟨new,hafter,hrel.owned.trans hlive.owned,hrel.failed⟩
  final := by
    refine List.pairwise_append.mpr ⟨hinv.final,List.pairwise_singleton _ _,?_⟩
    intro earlier hearlier later hlater failure hending id hid hid'
    rw [List.mem_singleton.mp hlater] at hid' ⊢
    rw [names_rowsOfCall] at hid'
    obtain ⟨sequence,hsequence,-,hdead⟩ := hinv.failed earlier hearlier failure hending id hid
    exact h.rejects hsequence hdead hid'

end Worlds

section Performing

variable [Scalar F] [Double F D] {count place heads head : ℕ} {group : List Row}
  {sequence sequence' : AcceleratorSequence Row D} {output : StageOutput D}

/-- Returning changes no cache, and what it changes depends on no cache. -/
theorem outputOne_kept (h : outputOne stage count place heads head group sequence=
      .ok (sequence',output)) (caches : List (Cache Row)) :
    sequence'={ sequence with generatedIndex := sequence'.generatedIndex } ∧
      outputOne stage count place heads head group { sequence with caches := caches }=
        .ok ({ sequence' with caches := caches },output) := by
  unfold outputOne at h ⊢
  by_cases hfinal : stage.final=true
  · rw [if_pos hfinal] at h ⊢
    by_cases hprefill : sequence.prefillOnly=true
    · rw [if_pos hprefill] at h
      rw [if_pos hprefill]
      cases h
      exact ⟨rfl,rfl⟩
    · rw [if_neg hprefill] at h
      rw [if_neg hprefill]
      cases hlast : group.getLast? with
      | none =>
        rw [hlast] at h
        cases h
      | some row =>
        rw [hlast] at h
        unfold selectOne at h ⊢
        dsimp only at h ⊢
        split at h
        next hgreedy =>
          rw [if_pos hgreedy]
          cases h
          exact ⟨rfl,rfl⟩
        next hgreedy =>
          rw [if_neg hgreedy]
          cases hsampled : sampleToken (stage.logits heads head row) sequence.sampling
              sequence.generatedIndex with
          | error error =>
            rw [hsampled] at h
            cases h
          | ok sampled =>
            rw [hsampled] at h
            cases h
            exact ⟨rfl,rfl⟩
  · rw [if_neg hfinal] at h ⊢
    cases h
    exact ⟨rfl,rfl⟩

/-- What a completed call did to a sequence it names: it is that many rows further,
rows were added to its caches at the old position and nowhere else, and these rows
and the output would be the same with any caches that hold the same before that. -/
structure Performed (stage : AcceleratorStage Row F) (count place heads head : ℕ)
    (group : List Row) (sequence sequence' : AcceleratorSequence Row D)
    (output : StageOutput D) : Prop where
  result : performed stage count place heads head group sequence=.ok (sequence',output)
  kept : sequence'={ sequence with
    length := sequence.length+group.length
    caches := sequence'.caches
    generatedIndex := sequence'.generatedIndex }
  local_caches : ∃ added : List (List Row×List Row),added.length=sequence.caches.length ∧
    (∀ rows∈added,rows.1.length=group.length ∧ rows.2.length=group.length) ∧
    sequence'.caches=addRows sequence.length sequence.caches added ∧
    ∀ caches,pastOf sequence.length caches=pastOf sequence.length sequence.caches →
      performed stage count place heads head group { sequence with caches := caches }=
        .ok ({ sequence' with caches := addRows sequence.length caches added },output)

/-- What a completed call did. -/
theorem performed_local (h : performed stage count place heads head group sequence=
      .ok (sequence',output)) :
    Performed stage count place heads head group sequence sequence' output := by
  have hresult := h
  unfold performed moved at h
  dsimp only at h
  cases hone : outputOne stage count place heads head
      (block stage count place sequence.length 0 group
        (pastOf sequence.length sequence.caches)).1
      { sequence with caches := addRows sequence.length sequence.caches (block stage count place
        sequence.length 0 group (pastOf sequence.length sequence.caches)).2 } with
  | error failure =>
    rw [hone] at h
    cases h
  | ok done =>
    obtain ⟨last,output'⟩ := done
    rw [hone] at h
    cases h
    have hkept := (outputOne_kept hone []).1
    refine ⟨hresult,?_,(block stage count place sequence.length 0 group
      (pastOf sequence.length sequence.caches)).2,?_,(length_block _ _ _ _ _ _).2.2,?_,?_⟩
    · rw [hkept]
      rfl
    · rw [(length_block _ _ _ _ _ _).2.1,pastOf,List.length_map]
    · rw [AcceleratorSequence.advance,hkept]
    · intro caches hpast
      have hother := (outputOne_kept hone (addRows sequence.length caches (block stage count
        place sequence.length 0 group (pastOf sequence.length sequence.caches)).2)).2
      unfold performed moved
      dsimp only at hother ⊢
      rw [hpast,hother]
      rfl

/-- A sequence after a completed call. -/
theorem performed_moved (hentered : Entered group.length sequence)
    (hshaped : stage.shaped sequence.capacity sequence.caches=true)
    (h : performed stage count place heads head group sequence=.ok (sequence',output)) :
    Moved stage group.length sequence sequence' := by
  obtain ⟨-,hkept,added,hadded,hsizes,hcaches,-⟩ := performed_local h
  have hroom := hentered.room
  have hlayers : sequence'.caches.length=sequence.caches.length := by
    rw [hcaches,addRows,List.length_zipWith,hadded,Nat.min_self]
  simp only [shaped,Bool.and_eq_true,decide_eq_true_eq,List.all_eq_true] at hshaped
  refine ⟨?_,?_,?_,?_,?_⟩
  · rw [hkept]
    exact hentered.owned
  · rw [hkept]
    exact hentered.alive
  · rw [hkept]
  · rw [hkept]
  · have hcapacity : sequence'.capacity=sequence.capacity := by
      rw [hkept]
    simp only [shaped,Bool.and_eq_true,decide_eq_true_eq,List.all_eq_true]
    rw [hcapacity,hlayers]
    refine ⟨hshaped.1,?_⟩
    intro cache hmem
    rw [hcaches] at hmem
    obtain ⟨i,hi,rfl⟩ := List.getElem_of_mem hmem
    unfold addRows at hi ⊢
    rw [List.length_zipWith] at hi
    rw [List.getElem_zipWith]
    have hheld := hshaped.2 sequence.caches[i] (List.getElem_mem _)
    have hsize := hsizes added[i] (List.getElem_mem _)
    dsimp only
    rw [length_write (by omega),length_write (by omega)]
    exact hheld

end Performing

section Steps

variable [Scalar F] [Double F D] {world : World Row D}

omit [Scalar F] [Double F D] in
/-- Admission on a single sequence. -/
theorem Admitted.entered {position : ℕ} {input : StageInput}
    {state : AcceleratorSequence Row D} (h : Admitted stage true position input state) :
    Entered (countOf input) state := by
  refine ⟨h.owned,h.alive,?_⟩
  have hroom := h.room rfl
  have hinside := h.inside
  rw [h.aligned] at hroom hinside
  omega

omit [Scalar F] [Double F D] in
/-- A live sequence has a cache for each layer. -/
theorem Inv.layers (hinv : Inv stage world) {id : ℕ} {sequence : AcceleratorSequence Row D}
    (hid : world.sequences id=some sequence) (howned : sequence.owned=true)
    (halive : sequence.failed=false) : sequence.caches.length=stage.layers := by
  have hshaped := hinv.shaped id sequence hid howned halive
  simp only [AcceleratorStage.shaped,Bool.and_eq_true,decide_eq_true_eq] at hshaped
  exact hshaped.1

omit [Scalar F] [Double F D] in
/-- What the check of a member says. -/
theorem decodable_entered {item : DecodeBatchItem} {sequence : AcceleratorSequence Row D}
    (h : decodable item sequence=true) :
    Entered 1 sequence ∧ item.position=sequence.length := by
  simp only [decodable,Bool.and_eq_true,Bool.not_eq_true',decide_eq_true_eq] at h
  exact ⟨⟨h.1.1.1,h.1.1.2,h.2⟩,h.1.2.symm⟩

/-- A call of one sequence. -/
theorem execute_called (hinv : Inv stage world) {id position : ℕ} {input : StageInput}
    {state : AcceleratorSequence Row D} (hid : world.sequences id=some state) :
    Called stage world [id] (countOf input) [state]
      (stage.execute faults input position state).1
      (stage.execute faults input position state).2 := by
  have hpresent : [id].map world.sequences=[state].map some := by
    rw [List.map_singleton,List.map_singleton,hid]
  rcases @execute_cases _ _ _ stage faults _ _ input position state (hinv.layers hid) with
    ⟨failure,hcall⟩ | ⟨hadmitted,⟨failure,state',hcall,hfailed⟩ |
      ⟨state',output,hcall,hperformed⟩⟩
  · rw [hcall]
    refine ⟨hpresent,fun _ _ => rfl,fun hnot => absurd rfl (hnot failure),
      fun hnot => absurd rfl (hnot failure),nofun,nofun⟩
  · rw [hcall]
    refine ⟨hpresent,nofun,fun _ => List.nodup_singleton id,?_,?_,nofun⟩
    · intro _ sequence hmem
      rw [List.mem_singleton.mp hmem]
      exact hadmitted.entered
    · exact fun _ _ => .cons hfailed .nil
  · rw [hcall]
    refine ⟨hpresent,nofun,fun _ => List.nodup_singleton id,?_,nofun,?_⟩
    · intro _ sequence hmem
      rw [List.mem_singleton.mp hmem]
      exact hadmitted.entered
    · intro _ _
      have hmoved := performed_moved (by rw [length_rowsOf]; exact hadmitted.entered)
        (hinv.shaped id state hid hadmitted.owned hadmitted.alive) hperformed
      rw [length_rowsOf] at hmoved
      exact .cons hmoved .nil

/-- The sequences that items name are there. -/
theorem membersOf_present {items : List DecodeBatchItem}
    {sequences : ℕ → Option (AcceleratorSequence Row D)}
    (h : ∀ item∈items,∀ id∈item.sequence,(sequences id).isSome=true) :
    (items.filterMap (·.sequence)).map sequences=(membersOf sequences items).map some := by
  induction items with
  | nil => rfl
  | cons item items ih =>
    have hrest := ih fun other hmem => h other (.tail _ hmem)
    unfold membersOf at hrest ⊢
    cases hid : item.sequence with
    | none =>
      rw [List.filterMap_cons_none hid,List.filterMap_cons_none (by rw [hid]; rfl)]
      exact hrest
    | some id =>
      obtain ⟨sequence,hsequence⟩ := Option.isSome_iff_exists.mp (h item (.head _) id hid)
      rw [List.filterMap_cons_some hid,List.filterMap_cons_some (b := sequence)
        (by rw [hid]; exact hsequence),List.map_cons,List.map_cons,hrest,hsequence]

omit [Scalar F] [Double F D] in
/-- The names of a batch. -/
theorem Batch.names {sequences : ℕ → Option (AcceleratorSequence Row D)}
    {items : List DecodeBatchItem} {input : StageInput} {ids : List ℕ}
    {members : List (AcceleratorSequence Row D)}
    (h : Batch stage sequences items input ids members) :
    items.filterMap (·.sequence)=ids := by
  have hnamed := congrArg (List.filterMap id) h.named
  rw [List.filterMap_map,List.filterMap_map] at hnamed
  exact hnamed.trans List.filterMap_some

/-- What a completed batch did to one of its sequences. -/
theorem Batch.performed_at {sequences : ℕ → Option (AcceleratorSequence Row D)}
    {items : List DecodeBatchItem} {input : StageInput} {ids : List ℕ}
    {members members' : List (AcceleratorSequence Row D)} {outputs : List (StageOutput D)}
    (h : Batch stage sequences items input ids members)
    (hsize : members'.length=members.length) (hcount : outputs.length=members.length)
    (hperformed : ((items.zip members).mapIdx fun i pair => performed stage items.length i
      items.length i [inputRow stage items.length i pair.1.input] pair.2)=
        (members'.zip outputs).map Except.ok) {i : ℕ} (hi : i < members.length) :
    performed stage items.length i items.length i
        [inputRow stage items.length i (items.get ⟨i,h.size ▸ hi⟩).input] members[i]=
      .ok (members'[i],outputs[i]) := by
  have hitems := h.size
  have hone := List.getElem_of_eq hperformed (i := i) (by
    rw [List.length_mapIdx,List.length_zip]
    omega)
  simp only [List.getElem_mapIdx,List.getElem_zip,List.getElem_map] at hone
  exact hone

/-- A batched call. -/
theorem executeDecodeBatch_called (hinv : Inv stage world) {items : List DecodeBatchItem}
    (hthere : ∀ item∈items,∀ id∈item.sequence,(world.sequences id).isSome=true) :
    Called stage world (items.filterMap (·.sequence)) 1 (membersOf world.sequences items)
      (stage.executeDecodeBatch faults world.sequences items).1
      (stage.executeDecodeBatch faults world.sequences items).2 := by
  have hpresent := membersOf_present hthere
  rcases @executeDecodeBatch_cases _ _ _ stage faults _ _ _ items
    (fun id sequence hid => hinv.layers hid) with
    ⟨failure,hcall⟩ | ⟨input,ids,members,hbatch,hkind,hdecodable,hentered⟩
  · rw [hcall]
    exact ⟨hpresent,fun _ _ => rfl,fun hnot => absurd rfl (hnot failure),
      fun hnot => absurd rfl (hnot failure),nofun,nofun⟩
  · rw [hbatch.names,hbatch.members_eq] at hpresent ⊢
    have hlive : ∀ sequence∈members,Entered 1 sequence := by
      intro sequence hmem
      obtain ⟨item,hitem⟩ := hbatch.paired hmem
      exact (decodable_entered (hdecodable _ hitem)).1
    rcases hentered with ⟨failure,members',hcall,hfailed⟩ |
      ⟨members',outputs,hcall,hsize,hcount,hperformed⟩
    · rw [hcall]
      exact ⟨hpresent,nofun,fun _ => hbatch.distinct,fun _ => hlive,fun _ _ => hfailed,nofun⟩
    · rw [hcall]
      refine ⟨hpresent,nofun,fun _ => hbatch.distinct,fun _ => hlive,nofun,fun _ _ => ?_⟩
      refine List.forall₂_of_length_eq_of_get hsize.symm fun i hi hi' => ?_
      rw [List.get_eq_getElem,List.get_eq_getElem]
      have hmember := hlive members[i] (List.getElem_mem hi)
      obtain ⟨id,hid⟩ := hbatch.holder (List.getElem_mem hi)
      have hone := hbatch.performed_at hsize hcount hperformed hi
      exact performed_moved (show Entered (List.length [_]) _ from hmember)
        (hinv.shaped id _ hid hmember.owned hmember.alive) hone

omit [Scalar F] [Double F D] in
/-- A step that is not a call keeps what holds in every run, when the sequence it
sets is new or counted as before. -/
theorem Inv.update (hinv : Inv stage world) {id : ℕ} {sequence : AcceleratorSequence Row D}
    (hcounted : sequence.owned=true → Counted world.log id sequence)
    (hshaped : sequence.owned=true → sequence.failed=false →
      stage.shaped sequence.capacity sequence.caches=true)
    (hdead : ∀ old,world.sequences id=some old → old.owned=true → old.failed=true →
      sequence.owned=true ∧ sequence.failed=true) :
    Inv stage { world with
      sequences := Function.update world.sequences id (some sequence) } where
  counted other found hfound howned := by
    dsimp only at hfound
    by_cases hsame : other=id
    · subst hsame
      rw [Function.update_self,Option.some.injEq] at hfound
      subst hfound
      exact hcounted howned
    · rw [Function.update_of_ne hsame] at hfound
      exact hinv.counted other found hfound howned
  shaped other found hfound howned halive := by
    dsimp only at hfound
    by_cases hsame : other=id
    · subst hsame
      rw [Function.update_self,Option.some.injEq] at hfound
      subst hfound
      exact hshaped howned halive
    · rw [Function.update_of_ne hsame] at hfound
      exact hinv.shaped other found hfound howned halive
  named record hrecord other hother := by
    dsimp only
    by_cases hsame : other=id
    · subst hsame
      rw [Function.update_self]
      rfl
    · rw [Function.update_of_ne hsame]
      exact hinv.named record hrecord other hother
  failed record hrecord failure hending other hother := by
    obtain ⟨old,hold,howned,hfailed⟩ := hinv.failed record hrecord failure hending other hother
    dsimp only
    by_cases hsame : other=id
    · subst hsame
      rw [Function.update_self]
      exact ⟨sequence,rfl,hdead old hold howned hfailed⟩
    · rw [Function.update_of_ne hsame]
      exact ⟨old,hold,howned,hfailed⟩
  final := hinv.final

omit [Scalar F] [Double F D] in
/-- What no call has named is counted with nothing. -/
theorem Inv.credit_new (hinv : Inv stage world) {id : ℕ} (h : world.sequences id=none) :
    credit world.log id=0 := by
  unfold credit
  refine List.sum_eq_zero fun value hmem => ?_
  obtain ⟨record,hrecord,rfl⟩ := List.mem_map.mp hmem
  have hunnamed : id∉record.rows.map Prod.fst := by
    intro hnamed
    have hsome := hinv.named record hrecord id hnamed
    rw [h] at hsome
    cases hsome
  have hone := credit_unnamed hunnamed
  unfold credit at hone
  rw [List.map_singleton,List.sum_singleton] at hone
  exact hone

/-- The rows of a batch. -/
theorem rowsOfCall_batch (items : List DecodeBatchItem) :
    (items.filterMap fun item => item.sequence.map fun id => (id,1))=
      rowsOfCall (items.filterMap (·.sequence)) 1 := by
  rw [rowsOfCall,List.map_filterMap]

/-- A step keeps what holds in every run. -/
theorem step_inv (hinv : Inv stage world) {action : Action Row D} {world' : World Row D}
    (h : stage.step world action=some world') : Inv stage world' := by
  cases action with
  | allocate id tokens caches sampling =>
    simp only [AcceleratorStage.step] at h
    split at h
    next hnew =>
      cases h
      refine hinv.update (fun _ => ⟨Nat.zero_le _,?_,nofun⟩) (fun _ _ => hnew.2) ?_
      · intro _
        rw [hinv.credit_new hnew.1]
        rfl
      · intro old hold
        rw [hnew.1] at hold
        cases hold
    · cases h
  | foreign id sequence =>
    simp only [AcceleratorStage.step] at h
    split at h
    next hnew =>
      cases h
      have hforeign : sequence.owned≠true := by
        rw [hnew.2]
        exact Bool.false_ne_true
      refine hinv.update (fun howned => absurd howned hforeign)
        (fun howned => absurd howned hforeign) ?_
      intro old hold
      rw [hnew.1] at hold
      cases hold
    · cases h
  | prepare id sampling prefilling prefillOnly =>
    obtain ⟨sequence,hsequence,rfl⟩ := Option.map_eq_some_iff.mp h
    refine hinv.update (fun howned => ?_) (hinv.shaped id sequence hsequence) ?_
    · obtain ⟨hinside,halive,hdead⟩ := hinv.counted id sequence hsequence howned
      exact ⟨hinside,halive,hdead⟩
    · intro old hold howned hfailed
      rw [hsequence,Option.some.injEq] at hold
      subst hold
      exact ⟨howned,hfailed⟩
  | execute id position input faults =>
    obtain ⟨state,hstate,rfl⟩ := Option.map_eq_some_iff.mp h
    exact (execute_called hinv hstate).inv hinv
  | executeDecodeBatch items faults =>
    simp only [AcceleratorStage.step] at h
    split at h
    next hthere =>
      cases h
      rw [rowsOfCall_batch]
      exact (executeDecodeBatch_called hinv hthere.2).inv hinv
    · cases h

/-- What holds in every run. -/
theorem reachable_inv (h : (@machine Row F D stage _ _).Reachable world) : Inv stage world := by
  refine @Machine.Reachable.induct _ _ _ (Inv stage) (fun start hstart => ?_)
    (fun start action next hinv hstep => step_inv hinv hstep) _ h
  obtain ⟨hnone,hlog⟩ := hstart
  refine ⟨?_,?_,?_,?_,?_⟩
  · intro id sequence hid
    rw [hnone] at hid
    cases hid
  · intro id sequence hid
    rw [hnone] at hid
    cases hid
  · rw [hlog]
    exact fun record hmem => absurd hmem List.not_mem_nil
  · rw [hlog]
    exact fun record hmem => absurd hmem List.not_mem_nil
  · rw [hlog]
    exact .nil

/-- What a call leaves behind: only the sequences it names may change, none when it is
rejected, and when it fails in the pass all it names are failed. -/
def Leaves (world world' : World Row D) (rows : List (ℕ×ℕ))
    (completes : List (StageOutput D) → Prop) : Prop :=
  ∃ ending,world'.log=world.log++[⟨rows,ending⟩] ∧
    (∀ id,id∉rows.map Prod.fst → world'.sequences id=world.sequences id) ∧
    match ending with
    | .rejected _ => world'.sequences=world.sequences
    | .failed _ => ∀ id∈rows.map Prod.fst,∃ sequence,world'.sequences id=some sequence ∧
        sequence.failed=true
    | .completed outputs => completes outputs

/-- What a completed call did to the sequence with a name. -/
def Advanced (stage : AcceleratorStage Row F) (world world' : World Row D) (id position : ℕ)
    (count place heads head : ℕ) (group : List Row) (output : StageOutput D) : Prop :=
  ∃ sequence sequence',world.sequences id=some sequence ∧ world'.sequences id=some sequence' ∧
    Entered group.length sequence ∧ position=sequence.length ∧
    Performed stage count place heads head group sequence sequence' output

/-- What calls leave behind. -/
def CallEffect (stage : AcceleratorStage Row F) (world world' : World Row D) :
    Action Row D → Prop
  | .execute id position input _ =>
    Leaves world world' [(id,countOf input)] fun outputs => ∃ output,outputs=[output] ∧
      Advanced stage world world' id position (countOf input) 0 1 0 (stage.rowsOf input) output
  | .executeDecodeBatch items _ =>
    Leaves world world' (items.filterMap fun item => item.sequence.map fun id => (id,1))
      fun outputs => outputs.length=items.length ∧ (items.map (·.sequence)).Nodup ∧
        ∀ i item,items[i]?=some item → ∃ id output,item.sequence=some id ∧
          outputs[i]?=some output ∧
          Advanced stage world world' id item.position items.length i items.length i
            [inputRow stage items.length i item.input] output
  | _ => True

omit [Scalar F] [Double F D] in
/-- What a call leaves behind, but for what it completes. -/
theorem Called.leaves {ids : List ℕ} {count : ℕ}
    {members members' : List (AcceleratorSequence Row D)} {ending : Ending D}
    (h : Called stage world ids count members members' ending)
    {completes : List (StageOutput D) → Prop}
    (hcompletes : ∀ outputs,ending=.completed outputs → completes outputs) :
    Leaves world (world.after (rowsOfCall ids count) (members',ending))
      (rowsOfCall ids count) completes := by
  refine ⟨ending,rfl,?_,?_⟩
  · intro id hid
    rw [names_rowsOfCall] at hid
    rw [after_sequences,store_other hid]
  · cases ending with
    | rejected failure => exact h.unchanged rfl
    | failed failure =>
      intro id hid
      rw [names_rowsOfCall] at hid
      obtain ⟨sequence,sequence',hold,hnew,hfailed⟩ := store_related h.present
        (h.distinct fun other heq => by cases heq) (h.failed failure rfl) hid
      rw [after_sequences]
      exact ⟨sequence',hnew,hfailed.failed⟩
    | completed outputs => exact hcompletes outputs rfl

/-- What a call of one sequence leaves behind. -/
theorem execute_effect (hinv : Inv stage world) {id position : ℕ} {input : StageInput}
    {state : AcceleratorSequence Row D} (hid : world.sequences id=some state) :
    CallEffect stage world (world.after [(id,countOf input)]
      (stage.execute faults input position state)) (.execute id position input faults) := by
  refine (execute_called hinv hid).leaves fun outputs hending => ?_
  rcases @execute_cases _ _ _ stage faults _ _ input position state (hinv.layers hid) with
    ⟨failure,hcall⟩ | ⟨hadmitted,⟨failure,state',hcall,-⟩ | ⟨state',output,hcall,hperformed⟩⟩
  · rw [hcall] at hending
    cases hending
  · rw [hcall] at hending
    cases hending
  · rw [hcall] at hending ⊢
    cases hending
    refine ⟨output,rfl,state,state',hid,?_,?_,hadmitted.aligned,performed_local hperformed⟩
    · exact store_at (i := 0) (List.nodup_singleton id) rfl Nat.one_pos
    · rw [length_rowsOf]
      exact hadmitted.entered

/-- What a batched call leaves behind. -/
theorem executeDecodeBatch_effect (hinv : Inv stage world) {items : List DecodeBatchItem}
    (hthere : ∀ item∈items,∀ id∈item.sequence,(world.sequences id).isSome=true) :
    CallEffect stage world (world.after
      (items.filterMap fun item => item.sequence.map fun id => (id,1))
      (stage.executeDecodeBatch faults world.sequences items))
        (.executeDecodeBatch items faults) := by
  dsimp only [CallEffect]
  rw [rowsOfCall_batch]
  refine (executeDecodeBatch_called hinv hthere).leaves fun outputs hending => ?_
  rcases @executeDecodeBatch_cases _ _ _ stage faults _ _ _ items
      (fun id sequence hid => hinv.layers hid) with
    ⟨failure,hcall⟩ | ⟨input,ids,members,hbatch,-,hdecodable,⟨failure,members',hcall,-⟩ |
      ⟨members',outputs',hcall,hsize,hcount,hperformed⟩⟩
  · rw [hcall] at hending
    cases hending
  · rw [hcall] at hending
    cases hending
  · rw [hcall] at hending ⊢
    cases hending
    have hitems := hbatch.size
    have hids : ids.length=items.length := by
      have hsame := congrArg List.length hbatch.named
      rw [List.length_map,List.length_map] at hsame
      exact hsame.symm
    refine ⟨by omega,?_,?_⟩
    · rw [hbatch.named]
      exact hbatch.distinct.map (Option.some_injective _)
    · intro i item hitem
      obtain ⟨hi,rfl⟩ := List.getElem?_eq_some_iff.mp hitem
      have hnamed := List.getElem_of_eq hbatch.named (i := i) (by rwa [List.length_map])
      have hpresent := List.getElem_of_eq hbatch.present (i := i)
        (by rw [List.length_map]; omega)
      rw [List.getElem_map,List.getElem_map] at hnamed hpresent
      have hmember := decodable_entered (hdecodable (items[i],members[i])
        (List.mem_iff_getElem.mpr ⟨i,by rw [List.length_zip]; omega,List.getElem_zip⟩))
      refine ⟨ids[i],outputs[i],hnamed,List.getElem?_eq_getElem _,members[i],members'[i],
        hpresent,?_,hmember.1,hmember.2,
        performed_local (hbatch.performed_at hsize hcount hperformed (by omega))⟩
      rw [after_sequences,hbatch.names]
      exact store_at hbatch.distinct (by omega) (by omega)

/-- Accelerator sequences over any run: what their lengths count, that a failed one is
never executed again, and what each call does to them. -/
theorem accelerator_runs (stage : AcceleratorStage Row F) (world : World Row D)
    (h : (@machine Row F D stage _ _).Reachable world) :
    (∀ id sequence,world.sequences id=some sequence → sequence.owned=true →
      Counted world.log id sequence) ∧
    Final world.log ∧
    ∀ action world',stage.step world action=some world' →
      CallEffect stage world world' action := by
  have hinv := reachable_inv h
  refine ⟨hinv.counted,hinv.final,?_⟩
  intro action world' hstep
  cases action with
  | allocate id tokens caches sampling => trivial
  | foreign id sequence => trivial
  | prepare id sampling prefilling prefillOnly => trivial
  | execute id position input faults =>
    obtain ⟨state,hstate,rfl⟩ := Option.map_eq_some_iff.mp hstep
    exact execute_effect hinv hstate
  | executeDecodeBatch items faults =>
    simp only [AcceleratorStage.step] at hstep
    split at hstep
    next hthere =>
      cases hstep
      exact executeDecodeBatch_effect hinv hthere.2
    · cases hstep

/-- A stage of one layer on integers. -/
def sampleStage : AcceleratorStage ℤ ℤ where
  accelerator := .cuda false
  hiddenSize := 1
  vocab := 4
  layers := 1
  first := true
  final := true
  embed _ _ id := id
  fromWire _ _ _ := 0
  queries _ _ _ row := row
  keys _ _ _ row := row
  values _ _ _ row := row
  rope position row := row+position
  attention _ _ _ values _ := values.sum
  mix _ _ _ row attended := row+attended
  finite _ := true
  logits _ _ row := [row]
  argmax _ := 0
  half _ _ row := row
  toWire _ _ := 0

/-- Greedy sampling. -/
def sampleOptions : SamplingOptions ℤ := ⟨0,1,0,0,false,0⟩

/-- Nothing goes wrong but what is thrown at one point. -/
def sampleFaults (point : Option Point) : Faults where
  thrown other := if point=some other then some (.runtimeError "device") else none
  cancelled _ := false

/-- A sequence of two tokens, of which one is executed. -/
def sampleStart (id : ℕ) : List (AcceleratorStage.Action ℤ ℤ) :=
  [.allocate id 2 [⟨[0,0],[0,0]⟩] sampleOptions,
    .execute id 0 (.tokens [1]) (sampleFaults none)]

/-- An item of a batch for such a sequence. -/
def sampleItem (id : ℕ) : DecodeBatchItem where
  input := .tokens [1]
  position := 1
  sequence := some id
  hasFlag := true

/-- A stage without sequences. -/
def emptyWorld : World ℤ ℤ := ⟨fun _ => none,[]⟩

/-- Two sequences after a batch are as long as what they completed. -/
theorem sample_batch : ∃ world,(@machine ℤ ℤ ℤ sampleStage _ _).Reachable world ∧
    ∀ id∈[0,1],∃ sequence,world.sequences id=some sequence ∧ sequence.failed=false ∧
      sequence.length=2 ∧ credit world.log id=2 := by
  obtain ⟨world,hrun,hworld⟩ := (Option.any_eq_true _ _).mp
    (show ((@machine ℤ ℤ ℤ sampleStage _ _).run emptyWorld (sampleStart 0++sampleStart 1++
      [.executeDecodeBatch [sampleItem 0,sampleItem 1] (sampleFaults none)])).any
        (fun world => [0,1].all fun id => (world.sequences id).any fun sequence =>
          sequence.owned && !sequence.failed && sequence.length=2)=true by decide +kernel)
  have hreachable : (@machine ℤ ℤ ℤ sampleStage _ _).Reachable world :=
    ⟨emptyWorld,_,⟨rfl,rfl⟩,Machine.path_of_run hrun⟩
  refine ⟨world,hreachable,fun id hid => ?_⟩
  obtain ⟨sequence,hsequence,hfacts⟩ :=
    (Option.any_eq_true _ _).mp (List.all_eq_true.mp hworld id hid)
  simp only [Bool.and_eq_true,Bool.not_eq_true',decide_eq_true_eq] at hfacts
  have hcounted := (accelerator_runs sampleStage world hreachable).1 id sequence hsequence
    hfacts.1.1
  exact ⟨sequence,hsequence,hfacts.1.2,hfacts.2,
    (hcounted.alive hfacts.1.2).symm.trans hfacts.2⟩

/-- A sequence on which only the wait for the stream failed is one row longer than what
it completed. -/
theorem sample_failed : ∃ world sequence,
    (@machine ℤ ℤ ℤ sampleStage _ _).Reachable world ∧ world.sequences 0=some sequence ∧
      sequence.owned=true ∧ sequence.length=2 ∧ credit world.log 0=1 := by
  obtain ⟨world,hrun,hworld⟩ := (Option.any_eq_true _ _).mp
    (show ((@machine ℤ ℤ ℤ sampleStage _ _).run emptyWorld (sampleStart 0++
      [.execute 0 1 (.tokens [1]) (sampleFaults (some .complete))])).any
        (fun world => decide (credit world.log 0=1) && (world.sequences 0).any fun sequence =>
          sequence.owned && sequence.length=2)=true by decide +kernel)
  rw [Bool.and_eq_true,decide_eq_true_eq] at hworld
  obtain ⟨sequence,hsequence,hfacts⟩ := (Option.any_eq_true _ _).mp hworld.2
  simp only [Bool.and_eq_true,decide_eq_true_eq] at hfacts
  exact ⟨world,sequence,⟨emptyWorld,_,⟨rfl,rfl⟩,Machine.path_of_run hrun⟩,hsequence,
    hfacts.1,hfacts.2,hworld.1⟩

end Steps

end Hllm.AcceleratorRuns
