import Hllm.AcceleratorModel

/-!
# Passes of accelerator stages

What a pass that does not throw computes, one sequence at a time. The rows of
the sequences of a pass stand one group after the other; each group meets only
the cache of its own sequence, at the position of that sequence and before it.
Alone a sequence has all rows, in a batch each has one.
-/

namespace Hllm.AcceleratorPasses

open AcceleratorModel AcceleratorModel.AcceleratorStage
open CpuModel (Failure StageInput StageOutput)
open DecodeBatch (rowBytes_flatten)
open SamplingModel

variable {Row F D : Type} {stage : AcceleratorStage Row F} {faults : Faults}

section Writing

/-- Writing inside keeps the number of rows. -/
theorem length_write {cache rows : List Row} {past : ℕ} (h : past+rows.length ≤ cache.length) :
    (write cache past rows).length=cache.length := by
  unfold write
  rw [List.length_append,List.length_append,List.length_take,List.length_drop]
  omega

/-- What is read back are the rows before the position and the new ones. -/
theorem take_write {cache rows : List Row} {past : ℕ} (h : past ≤ cache.length) :
    (write cache past rows).take (past+rows.length)=cache.take past++rows := by
  unfold write
  rw [List.take_append_of_le_length]
  · refine List.take_of_length_le ?_
    rw [List.length_append,List.length_take]
    omega
  · rw [List.length_append,List.length_take]
    omega

end Writing

section Groups

/-- Something for each group of rows with its sequence, and the place of its
first row. -/
def columns {β : Type} (f : ℕ → List Row → AcceleratorSequence Row D → β) :
    ℕ → List (List Row) → List (AcceleratorSequence Row D) → List β
  | place,group::groups,sequence::sequences =>
    f place group sequence::columns f (place+group.length) groups sequences
  | _,_,_ => []

variable {β γ : Type}

/-- Columns of a composition. -/
theorem columns_map (f : ℕ → List Row → AcceleratorSequence Row D → β) (g : β → γ)
    (place : ℕ) (groups : List (List Row)) (sequences : List (AcceleratorSequence Row D)) :
    (columns f place groups sequences).map g=
      columns (fun place group sequence => g (f place group sequence)) place groups
        sequences := by
  induction groups generalizing place sequences with
  | nil => rfl
  | cons group groups ih =>
    cases sequences with
    | nil => rfl
    | cons sequence sequences =>
      rw [columns,columns,List.map_cons,ih]

/-- One column for each sequence. -/
theorem length_columns (f : ℕ → List Row → AcceleratorSequence Row D → β) (place : ℕ)
    {groups : List (List Row)} {sequences : List (AcceleratorSequence Row D)}
    (h : groups.length=sequences.length) :
    (columns f place groups sequences).length=sequences.length := by
  induction groups generalizing place sequences with
  | nil => exact h
  | cons group groups ih =>
    cases sequences with
    | nil => cases h
    | cons sequence sequences =>
      rw [columns,List.length_cons,List.length_cons,ih _ (Nat.succ.inj h)]

/-- The groups themselves. -/
theorem columns_groups (place : ℕ) {groups : List (List Row)}
    {sequences : List (AcceleratorSequence Row D)} (h : groups.length=sequences.length) :
    columns (fun _ group _ => group) place groups sequences=groups := by
  induction groups generalizing place sequences with
  | nil => rfl
  | cons group groups ih =>
    cases sequences with
    | nil => cases h
    | cons sequence sequences => rw [columns,ih _ (Nat.succ.inj h)]

/-- The sequences themselves. -/
theorem columns_sequences (place : ℕ) {groups : List (List Row)}
    {sequences : List (AcceleratorSequence Row D)} (h : groups.length=sequences.length) :
    columns (fun _ _ sequence => sequence) place groups sequences=sequences := by
  induction groups generalizing place sequences with
  | nil =>
    cases sequences with
    | nil => rfl
    | cons sequence sequences => cases h
  | cons group groups ih =>
    cases sequences with
    | nil => cases h
    | cons sequence sequences => rw [columns,ih _ (Nat.succ.inj h)]

/-- Columns of columns that keep the size of each group. -/
theorem columns_columns {f : ℕ → List Row → AcceleratorSequence Row D →
      List Row×AcceleratorSequence Row D}
    (g : ℕ → List Row → AcceleratorSequence Row D → β)
    (hsize : ∀ place group sequence,(f place group sequence).1.length=group.length)
    (place : ℕ) (groups : List (List Row)) (sequences : List (AcceleratorSequence Row D)) :
    columns g place ((columns f place groups sequences).map Prod.fst)
        ((columns f place groups sequences).map Prod.snd)=
      columns (fun place group sequence => g place (f place group sequence).1
        (f place group sequence).2) place groups sequences := by
  induction groups generalizing place sequences with
  | nil => rfl
  | cons group groups ih =>
    cases sequences with
    | nil => rfl
    | cons sequence sequences =>
      simp only [columns,List.map_cons]
      rw [hsize,ih]

/-- Columns of equal functions on groups. -/
theorem columns_congr {f g : ℕ → List Row → AcceleratorSequence Row D → β}
    {groups : List (List Row)} {sequences : List (AcceleratorSequence Row D)} (place : ℕ)
    (h : ∀ place,∀ group∈groups,∀ sequence∈sequences,f place group sequence=
      g place group sequence) :
    columns f place groups sequences=columns g place groups sequences := by
  induction groups generalizing place sequences with
  | nil => rfl
  | cons group groups ih =>
    cases sequences with
    | nil => rfl
    | cons sequence sequences =>
      simp only [columns]
      rw [h _ _ (.head _) _ (.head _),ih _ fun place group hgroup sequence hsequence =>
        h place group (.tail _ hgroup) sequence (.tail _ hsequence)]

end Groups

section Layers

/-- Rotation of the rows of a part. -/
def rotated (stage : AcceleratorStage Row F) (position : ℕ) (rows : List Row) : List Row :=
  rows.mapIdx fun j row => stage.rope (position+j) row

/-- What a part attends to is what is held before its position and the part itself. -/
def attended (stage : AcceleratorStage Row F) (part : AcceleratorStage.Part Row)
    (past : List Row×List Row) :
    List Row :=
  (List.range part.queries.length).map (stage.attention
    (rotated stage part.position part.queries) part.position
    (past.1++rotated stage part.position part.keys) (past.2++part.values))

/-- The part of a group of rows. -/
def groupPart (stage : AcceleratorStage Row F) (index count place position : ℕ)
    (group : List Row) : AcceleratorStage.Part Row where
  queries := group.mapIdx fun j row => stage.queries index count (place+j) row
  keys := group.mapIdx fun j row => stage.keys index count (place+j) row
  values := group.mapIdx fun j row => stage.values index count (place+j) row
  position := position

/-- The rows of a group after a layer, with the keys and values it adds. -/
def groupLayer (stage : AcceleratorStage Row F) (index count place position : ℕ)
    (group : List Row) (past : List Row×List Row) : List Row×(List Row×List Row) :=
  let part := groupPart stage index count place position group
  ((group.zip (attended stage part past)).mapIdx fun j pair =>
    stage.mix index count (place+j) pair.1 pair.2,(rotated stage position part.keys,part.values))

/-- The cache of a layer, empty where there is none. -/
def cacheOf (sequence : AcceleratorSequence Row D) (index : ℕ) : Cache Row :=
  (sequence.caches[index]?).getD ⟨[],[]⟩

/-- The rows a layer holds before the position of its sequence. -/
def before (sequence : AcceleratorSequence Row D) (index : ℕ) : List Row×List Row :=
  ((cacheOf sequence index).keys.take sequence.length,
    (cacheOf sequence index).values.take sequence.length)

/-- A sequence with rows added to a layer. -/
def extend (sequence : AcceleratorSequence Row D) (index : ℕ) (rows : List Row×List Row) :
    AcceleratorSequence Row D :=
  sequence.setCache index {
    keys := write (cacheOf sequence index).keys sequence.length rows.1
    values := write (cacheOf sequence index).values sequence.length rows.2}

/-- A group and its sequence after a layer. -/
def stepLayer (stage : AcceleratorStage Row F) (index count place : ℕ) (group : List Row)
    (sequence : AcceleratorSequence Row D) : List Row×AcceleratorSequence Row D :=
  let moved := groupLayer stage index count place sequence.length group (before sequence index)
  (moved.1,extend sequence index moved.2)

/-- A layer keeps the size of a group. -/
theorem length_stepLayer (index count place : ℕ) (group : List Row)
    (sequence : AcceleratorSequence Row D) :
    (stepLayer stage index count place group sequence).1.length=group.length := by
  simp only [stepLayer,groupLayer,attended,groupPart,List.length_mapIdx,List.length_zip,
    List.length_map,List.length_range,Nat.min_self]

/-- A part that has attended. -/
theorem attend_ok {index member : ℕ} {part : AcceleratorStage.Part Row} {rows : List Row}
    {sequence sequence' : AcceleratorSequence Row D} (hposition : part.position=sequence.length)
    (hkeys : part.keys.length=part.queries.length)
    (hvalues : part.values.length=part.queries.length)
    (h : stage.attend faults index member part sequence=(sequence',.ok rows)) :
    sequence'=extend sequence index (rotated stage sequence.length part.keys,part.values) ∧
      rows=attended stage part (before sequence index) := by
  unfold attend at h
  split at h
  · cases h
  · cases h
  · rename_i cache hpass hcache
    have hheld : cacheOf sequence index=cache := by
      unfold cacheOf
      rw [hcache]
      rfl
    dsimp only at h
    split at h
    · cases h
    · rename_i hfits
      rw [not_or,not_lt,not_lt] at hfits
      split at h
      · cases h
      · rw [Prod.mk.injEq] at h
        obtain ⟨hsequence,hrows⟩ := h
        cases hscores : faults.pass (.scores index member) with
        | error failure =>
          rw [hscores] at hrows
          cases hrows
        | ok u =>
          rw [hscores] at hrows
          have hrotated : (rotated stage part.position part.keys).length=part.queries.length := by
            rw [rotated,List.length_mapIdx,hkeys]
          have hreadKeys := @take_write _ _ (rotated stage part.position part.keys) _
            (show part.position ≤ cache.keys.length by omega)
          have hreadValues := @take_write _ _ part.values _
            (show part.position ≤ cache.values.length by omega)
          rw [hrotated] at hreadKeys
          rw [hvalues] at hreadValues
          constructor
          · rw [←hsequence,extend,hheld,←hposition]
            rfl
          · rw [attended,before,hheld,←hposition,←hreadKeys,←hreadValues]
            exact (Except.ok.inj hrows).symm

/-- All parts that have attended, one after the other. -/
theorem attendAll_ok {index : ℕ} {count : ℕ} {groups : List (List Row)}
    {sequences sequences' : List (AcceleratorSequence Row D)} {place member : ℕ}
    {rows : List Row}
    (h : stage.attendAll faults index member (columns (fun place group sequence =>
      groupPart stage index count place sequence.length group) place groups sequences) sequences=
        (sequences',.ok rows)) (hlength : groups.length=sequences.length) :
    sequences'=columns (fun place group sequence =>
        (stepLayer stage index count place group sequence).2) place groups sequences ∧
      rows=(columns (fun place group sequence => attended stage
        (groupPart stage index count place sequence.length group) (before sequence index))
          place groups sequences).flatten := by
  induction groups generalizing place member sequences sequences' rows with
  | nil =>
    cases sequences with
    | nil =>
      cases h
      exact ⟨rfl,rfl⟩
    | cons sequence sequences => cases hlength
  | cons group groups ih =>
    cases sequences with
    | nil => cases hlength
    | cons sequence sequences =>
      rw [columns,attendAll] at h
      cases hone : stage.attend faults index member
          (groupPart stage index count place sequence.length group) sequence with
      | mk sequence₁ result =>
        rw [hone] at h
        cases result with
        | error failure =>
          simp only [Prod.mk.injEq,reduceCtorEq,and_false] at h
        | ok rows₁ =>
          obtain ⟨hsequence,hrows⟩ := attend_ok rfl
            (by simp only [groupPart,List.length_mapIdx])
            (by simp only [groupPart,List.length_mapIdx]) hone
          cases hrest : stage.attendAll faults index (member+1) (columns
              (fun place group sequence => groupPart stage index count place sequence.length
                group) (place+group.length) groups sequences) sequences with
          | mk sequences₁ result₁ =>
            rw [hrest] at h
            cases result₁ with
            | error failure =>
              simp only [Except.map,Prod.mk.injEq,reduceCtorEq,and_false] at h
            | ok rows₂ =>
              obtain ⟨hsequences,hlater⟩ := ih hrest (Nat.succ.inj hlength)
              simp only [Except.map,Prod.mk.injEq,Except.ok.injEq] at h
              obtain ⟨rfl,rfl⟩ := h
              rw [columns,columns,List.flatten_cons,hsequence,hrows,hsequences,hlater]
              exact ⟨rfl,rfl⟩

/-- An operation on pairs of rows, group by group. -/
theorem mapIdx_zip_flatten (f : ℕ → Row×Row → Row)
    (g : ℕ → List Row → AcceleratorSequence Row D → List Row)
    (hsize : ∀ place group sequence,(g place group sequence).length=group.length) (place : ℕ)
    {groups : List (List Row)} {sequences : List (AcceleratorSequence Row D)}
    (hlength : groups.length=sequences.length) :
    (groups.flatten.zip (columns g place groups sequences).flatten).mapIdx
        (fun j pair => f (place+j) pair)=
      (columns (fun place group sequence => (group.zip (g place group sequence)).mapIdx
        fun j pair => f (place+j) pair) place groups sequences).flatten := by
  induction groups generalizing place sequences with
  | nil => rfl
  | cons group groups ih =>
    cases sequences with
    | nil => cases hlength
    | cons sequence sequences =>
      simp only [columns,List.flatten_cons]
      rw [List.zip_append (hsize _ _ _).symm,List.mapIdx_append,
        ←ih (place+group.length) (Nat.succ.inj hlength)]
      have hcount : (group.zip (g place group sequence)).length=group.length := by
        rw [List.length_zip,hsize,Nat.min_self]
      have hshift : ∀ j,place+(j+group.length)=place+group.length+j := by
        intro j
        omega
      simp only [hcount,hshift]

/-- The groups of a pass: all rows of one sequence, or one row of each. -/
structure Grouped (single : Bool) (groups : List (List Row))
    (sequences : List (AcceleratorSequence Row D)) : Prop where
  size : groups.length=sequences.length
  alone : single=true → groups.length=1
  batched : single=false → ∀ group∈groups,group.length=1

/-- Places counted from the next row. -/
theorem mapIdx_next (f : ℕ → Row → Row) (place : ℕ) (rows : List Row) :
    (rows.mapIdx fun j row => f (place+(j+1)) row)=
      rows.mapIdx fun j row => f (place+1+j) row := by
  have hshift : (fun j row => f (place+(j+1)) row)=fun j row => f (place+1+j) row := by
    funext j row
    congr 1
    omega
  rw [hshift]

/-- The parts of a batch. -/
theorem zipWith_parts (index count : ℕ) (place : ℕ) {groups : List (List Row)}
    {sequences : List (AcceleratorSequence Row D)} (hone : ∀ group∈groups,group.length=1) :
    List.zipWith (fun (rows : Row×Row×Row) (sequence : AcceleratorSequence Row D) =>
        (⟨[rows.1],[rows.2.1],[rows.2.2],sequence.length⟩ : AcceleratorStage.Part Row))
      ((groups.flatten.mapIdx fun j row => stage.queries index count (place+j) row).zip
        ((groups.flatten.mapIdx fun j row => stage.keys index count (place+j) row).zip
          (groups.flatten.mapIdx fun j row => stage.values index count (place+j) row)))
      sequences=
    columns (fun place group sequence => groupPart stage index count place sequence.length group)
      place groups sequences := by
  induction groups generalizing place sequences with
  | nil => rfl
  | cons group groups ih =>
    obtain ⟨row,rfl⟩ := List.length_eq_one_iff.mp (hone group (.head _))
    cases sequences with
    | nil => exact List.zipWith_nil_right
    | cons sequence sequences =>
      have hrest := @ih (place+1) sequences fun group hgroup => hone group (.tail _ hgroup)
      simp only [List.flatten_cons,List.singleton_append,List.mapIdx_cons,List.zip_cons_cons,
        List.zipWith_cons_cons,columns]
      rw [mapIdx_next (stage.queries index count),mapIdx_next (stage.keys index count),
        mapIdx_next (stage.values index count),hrest]
      rfl

/-- The parts of a pass. -/
theorem partsOf_grouped {single : Bool} {groups : List (List Row)}
    {sequences : List (AcceleratorSequence Row D)} (hgrouped : Grouped single groups sequences)
    {position : ℕ} (hposition : single=true → ∀ sequence∈sequences,sequence.length=position)
    (index count : ℕ) :
    partsOf single position (groups.flatten.mapIdx (stage.queries index count))
        (groups.flatten.mapIdx (stage.keys index count))
        (groups.flatten.mapIdx (stage.values index count)) sequences=
      columns (fun place group sequence => groupPart stage index count place sequence.length
        group) 0 groups sequences := by
  cases single with
  | true =>
    obtain ⟨group,rfl⟩ := List.length_eq_one_iff.mp (hgrouped.alone rfl)
    obtain ⟨sequence,rfl⟩ := List.length_eq_one_iff.mp (hgrouped.size.symm.trans rfl)
    have hlength := hposition rfl sequence (.head _)
    simp only [partsOf,columns,groupPart,List.flatten_cons,List.flatten_nil,List.append_nil,
      Nat.zero_add,hlength,if_pos]
  | false =>
    have hparts := @zipWith_parts _ _ _ stage index count 0 groups sequences
      (hgrouped.batched rfl)
    simp only [Nat.zero_add] at hparts
    exact hparts

/-- A layer that does not throw. -/
theorem layer_ok {single : Bool} {index position : ℕ} {groups : List (List Row)}
    {sequences sequences' : List (AcceleratorSequence Row D)} {hidden : List Row}
    (hgrouped : Grouped single groups sequences)
    (hposition : single=true → ∀ sequence∈sequences,sequence.length=position)
    (h : stage.layer faults single index position groups.flatten sequences=
      (sequences',.ok hidden)) :
    sequences'=columns (fun place group sequence =>
        (stepLayer stage index groups.flatten.length place group sequence).2) 0 groups
          sequences ∧
      hidden=(columns (fun place group sequence =>
        (stepLayer stage index groups.flatten.length place group sequence).1) 0 groups
          sequences).flatten := by
  unfold layer at h
  split at h
  · cases h
  · dsimp only at h
    rw [partsOf_grouped hgrouped hposition] at h
    cases hattend : stage.attendAll faults index 0 (columns (fun place group sequence =>
        groupPart stage index groups.flatten.length place sequence.length group) 0 groups
          sequences) sequences with
    | mk sequences₁ result =>
      rw [hattend] at h
      cases result with
      | error failure =>
        simp only [Except.bind,Prod.mk.injEq,reduceCtorEq,and_false] at h
      | ok rows =>
        obtain ⟨hsequences,hrows⟩ := attendAll_ok hattend hgrouped.size
        simp only [Except.bind,Prod.mk.injEq] at h
        obtain ⟨rfl,hmix⟩ := h
        refine ⟨hsequences,?_⟩
        cases hpass : faults.pass (.mix index) with
        | error failure =>
          rw [hpass] at hmix
          cases hmix
        | ok u =>
          rw [hpass] at hmix
          have hpairs := mapIdx_zip_flatten (fun j pair =>
              stage.mix index groups.flatten.length j pair.1 pair.2)
            (fun place group sequence => attended stage (groupPart stage index
              groups.flatten.length place sequence.length group) (before sequence index))
            (fun place group sequence => by
              simp only [attended,groupPart,List.length_map,List.length_range,
                List.length_mapIdx]) 0 hgrouped.size
          simp only [Nat.zero_add] at hpairs
          rw [←hrows] at hpairs
          exact (Except.ok.inj hmix).symm.trans hpairs

/-- A group and its sequence after some layers. -/
def forwardGroup (stage : AcceleratorStage Row F) (count place : ℕ) : List ℕ → List Row →
    AcceleratorSequence Row D → List Row×AcceleratorSequence Row D
  | [],group,sequence => (group,sequence)
  | index::indices,group,sequence =>
    let moved := stepLayer stage index count place group sequence
    forwardGroup stage count place indices moved.1 moved.2

/-- Columns that keep the size of each group keep the size of all. -/
theorem length_flatten_columns {f : ℕ → List Row → AcceleratorSequence Row D → List Row}
    (hsize : ∀ place group sequence,(f place group sequence).length=group.length) (place : ℕ)
    {groups : List (List Row)} {sequences : List (AcceleratorSequence Row D)}
    (hlength : groups.length=sequences.length) :
    (columns f place groups sequences).flatten.length=groups.flatten.length := by
  induction groups generalizing place sequences with
  | nil => rfl
  | cons group groups ih =>
    cases sequences with
    | nil => cases hlength
    | cons sequence sequences =>
      rw [columns,List.flatten_cons,List.flatten_cons,List.length_append,List.length_append,
        hsize,ih _ (Nat.succ.inj hlength)]

/-- Members of columns. -/
theorem mem_columns {β : Type} {f : ℕ → List Row → AcceleratorSequence Row D → β} {place : ℕ}
    {groups : List (List Row)} {sequences : List (AcceleratorSequence Row D)} {b : β}
    (h : b∈columns f place groups sequences) :
    ∃ place,∃ group∈groups,∃ sequence∈sequences,b=f place group sequence := by
  induction groups generalizing place sequences with
  | nil => cases h
  | cons group groups ih =>
    cases sequences with
    | nil => cases h
    | cons sequence sequences =>
      rw [columns,List.mem_cons] at h
      rcases h with rfl | h
      · exact ⟨place,group,.head _,sequence,.head _,rfl⟩
      · obtain ⟨place',group',hgroup,sequence',hsequence,hb⟩ := ih h
        exact ⟨place',group',.tail _ hgroup,sequence',.tail _ hsequence,hb⟩

/-- The groups after a layer are groups of the same pass. -/
theorem Grouped.step {single : Bool} {groups : List (List Row)}
    {sequences : List (AcceleratorSequence Row D)} (h : Grouped single groups sequences)
    (index count : ℕ) :
    Grouped single (columns (fun place group sequence =>
        (stepLayer stage index count place group sequence).1) 0 groups sequences)
      (columns (fun place group sequence =>
        (stepLayer stage index count place group sequence).2) 0 groups sequences) where
  size := by rw [length_columns _ _ h.size,length_columns _ _ h.size]
  alone hsingle := by
    rw [length_columns _ _ h.size,←h.size]
    exact h.alone hsingle
  batched hsingle group hgroup := by
    obtain ⟨place,group',hmem,sequence,-,rfl⟩ := mem_columns hgroup
    rw [length_stepLayer]
    exact h.batched hsingle group' hmem

/-- Layers that do not throw. -/
theorem forward_ok {single : Bool} {position : ℕ} {indices : List ℕ}
    {groups : List (List Row)} {sequences sequences' : List (AcceleratorSequence Row D)}
    {hidden : List Row} (hgrouped : Grouped single groups sequences)
    (hposition : single=true → ∀ sequence∈sequences,sequence.length=position)
    (h : stage.forward faults single position indices groups.flatten sequences=
      (sequences',.ok hidden)) :
    sequences'=columns (fun place group sequence =>
        (forwardGroup stage groups.flatten.length place indices group sequence).2) 0 groups
          sequences ∧
      hidden=(columns (fun place group sequence =>
        (forwardGroup stage groups.flatten.length place indices group sequence).1) 0 groups
          sequences).flatten := by
  induction indices generalizing groups sequences with
  | nil =>
    cases h
    simp only [forwardGroup]
    exact ⟨(columns_sequences 0 hgrouped.size).symm,
      congrArg List.flatten (columns_groups 0 hgrouped.size).symm⟩
  | cons index indices ih =>
    rw [forward] at h
    split at h
    · cases h
    · cases hlayer : stage.layer faults single index position groups.flatten sequences with
      | mk sequences₁ result =>
        rw [hlayer] at h
        cases result with
        | error failure =>
          cases h
        | ok hidden₁ =>
          obtain ⟨rfl,rfl⟩ := layer_ok hgrouped hposition hlayer
          have hcount := length_flatten_columns (fun place group sequence =>
            @length_stepLayer _ _ _ stage index groups.flatten.length place group sequence) 0
              hgrouped.size
          have hkept : single=true → ∀ sequence∈columns (fun place group sequence =>
              (stepLayer stage index groups.flatten.length place group sequence).2) 0 groups
                sequences,sequence.length=position := by
            intro hsingle sequence hmem
            obtain ⟨place,group,-,old,hold,rfl⟩ := mem_columns hmem
            exact hposition hsingle old hold
          obtain ⟨hsequences,hhidden⟩ := ih (hgrouped.step index groups.flatten.length) hkept h
          rw [hcount] at hsequences hhidden
          have hmaps := columns_map (fun place group sequence => stepLayer stage index
            groups.flatten.length place group sequence) Prod.fst 0 groups sequences
          have hmapsSequences := columns_map (fun place group sequence => stepLayer stage index
            groups.flatten.length place group sequence) Prod.snd 0 groups sequences
          rw [←hmaps,←hmapsSequences,columns_columns _ fun place group sequence =>
            length_stepLayer index _ place group sequence] at hsequences hhidden
          exact ⟨hsequences,hhidden⟩

end Layers

section Blocks

/-- The rows of a group through the layers from some on, with the keys and values
they add, from what the sequence holds before the position. -/
def block (stage : AcceleratorStage Row F) (count place position : ℕ) :
    ℕ → List Row → List (List Row×List Row) → List Row×List (List Row×List Row)
  | _,group,[] => (group,[])
  | index,group,past::rest =>
    let moved := groupLayer stage index count place position group past
    let later := block stage count place position (index+1) moved.1 rest
    (later.1,moved.2::later.2)

/-- The rows before a position. -/
def pastOf (position : ℕ) (caches : List (Cache Row)) : List (List Row×List Row) :=
  caches.map fun cache => (cache.keys.take position,cache.values.take position)

/-- Caches with rows added at a position. -/
def addRows (position : ℕ) (caches : List (Cache Row)) (added : List (List Row×List Row)) :
    List (Cache Row) :=
  List.zipWith (fun cache rows =>
    ⟨write cache.keys position rows.1,write cache.values position rows.2⟩) caches added

/-- The layers from some on, on the caches from there on. -/
theorem forwardGroup_eq (count place : ℕ) (done rest : List (Cache Row)) (group : List Row)
    (sequence : AcceleratorSequence Row D) (h : sequence.caches=done++rest) :
    forwardGroup stage count place (List.range' done.length rest.length) group sequence=
      ((block stage count place sequence.length done.length group
          (pastOf sequence.length rest)).1,
        { sequence with caches := done++addRows sequence.length rest (block stage count place
          sequence.length done.length group (pastOf sequence.length rest)).2 }) := by
  induction rest generalizing done group sequence with
  | nil =>
    simp only [List.length_nil,List.range'_zero,forwardGroup,pastOf,List.map_nil,block,addRows,
      List.zipWith_nil_left,←h]
  | cons cache rest ih =>
    have hcache : cacheOf sequence done.length=cache := by
      simp only [cacheOf,h,List.getElem?_append_right (Nat.le_refl _),Nat.sub_self,
        List.getElem?_cons_zero,Option.getD_some]
    rw [List.length_cons,List.range'_succ,forwardGroup]
    have hcaches : (stepLayer stage done.length count place group sequence).2.caches=
        (done++[⟨write cache.keys sequence.length (groupLayer stage done.length count place
          sequence.length group (before sequence done.length)).2.1,
          write cache.values sequence.length (groupLayer stage done.length count place
          sequence.length group (before sequence done.length)).2.2⟩])++rest := by
      simp only [stepLayer,extend,AcceleratorSequence.setCache,hcache,h,
        List.set_append_right _ _ (Nat.le_refl _),Nat.sub_self,List.set_cons_zero,
        List.append_assoc,List.singleton_append]
    have hmoved := ih _ (stepLayer stage done.length count place group sequence).1 _ hcaches
    rw [List.length_append,List.length_singleton] at hmoved
    rw [hmoved]
    have hbefore : before sequence done.length=
        (cache.keys.take sequence.length,cache.values.take sequence.length) := by
      rw [before,hcache]
    simp only [pastOf,List.map_cons,block,addRows,List.zipWith_cons_cons,stepLayer,extend,
      AcceleratorSequence.setCache,hbefore,List.append_assoc,List.singleton_append]

/-- All layers, on all caches. -/
theorem forwardGroup_all (count place : ℕ) (group : List Row)
    (sequence : AcceleratorSequence Row D) {layers : ℕ} (h : sequence.caches.length=layers) :
    forwardGroup stage count place (List.range layers) group sequence=
      ((block stage count place sequence.length 0 group
          (pastOf sequence.length sequence.caches)).1,
        { sequence with caches := addRows sequence.length sequence.caches (block stage count
          place sequence.length 0 group (pastOf sequence.length sequence.caches)).2 }) := by
  have hall := @forwardGroup_eq _ _ _ stage count place [] sequence.caches group sequence rfl
  rw [h,List.length_nil,←List.range_eq_range'] at hall
  exact hall

/-- The layers add rows to each cache. -/
theorem length_block (count place position index : ℕ) (group : List Row)
    (past : List (List Row×List Row)) :
    (block stage count place position index group past).1.length=group.length ∧
      (block stage count place position index group past).2.length=past.length ∧
      ∀ added∈(block stage count place position index group past).2,
        added.1.length=group.length ∧ added.2.length=group.length := by
  induction past generalizing index group with
  | nil => exact ⟨rfl,rfl,fun added h => absurd h List.not_mem_nil⟩
  | cons held rest ih =>
    have hmoved : (groupLayer stage index count place position group held).1.length=
        group.length := by
      simp only [groupLayer,attended,groupPart,List.length_mapIdx,List.length_zip,
        List.length_map,List.length_range,Nat.min_self]
    obtain ⟨hrows,hcount,hadded⟩ := ih (index+1)
      (groupLayer stage index count place position group held).1
    refine ⟨?_,?_,?_⟩
    · rw [block,hrows,hmoved]
    · rw [block,List.length_cons,List.length_cons,hcount]
    · intro added hmem
      rw [block,List.mem_cons] at hmem
      rcases hmem with rfl | hmem
      · simp only [groupLayer,rotated,groupPart,List.length_mapIdx,and_self]
      · rw [hmoved] at hadded
        exact hadded added hmem

end Blocks

section Outputs

variable [Scalar F] [Double F D]

/-- `select` that does not throw. -/
def selectOne (stage : AcceleratorStage Row F) (logits : List F)
    (sequence : AcceleratorSequence Row D) :
    Except Failure (AcceleratorSequence Row D×StageOutput D) :=
  if Double.eq sequence.sampling.temperature Double.zero &&
      !sequence.sampling.returnLogprobs then
    .ok (sequence,.sampled ⟨stage.argmax logits,none,[]⟩)
  else match sampleToken logits sequence.sampling sequence.generatedIndex with
    | .error error => .error (.error error)
    | .ok (token,_) =>
      .ok ({ sequence with generatedIndex := sequence.generatedIndex+1 },.sampled token)

/-- A token that is selected. -/
theorem select_ok {member : ℕ} {logits : List F} {sequence sequence' : AcceleratorSequence Row D}
    {token : SampledToken D}
    (h : stage.select faults member logits sequence=(sequence',.ok token)) :
    selectOne stage logits sequence=.ok (sequence',.sampled token) := by
  unfold select at h
  unfold selectOne
  split
  next hgreedy =>
    rw [if_pos hgreedy,Prod.mk.injEq] at h
    cases hpass : faults.pass (.sample member) with
    | error failure =>
      rw [hpass] at h
      cases h.2
    | ok u =>
      rw [hpass] at h
      cases h.2
      rw [h.1]
  next hgreedy =>
    rw [if_neg hgreedy,Prod.mk.injEq] at h
    cases hpass : faults.pass (.sample member) with
    | error failure =>
      rw [hpass] at h
      cases h.2
    | ok u =>
      rw [hpass] at h
      cases hsample : sampleToken logits sequence.sampling sequence.generatedIndex with
      | error error =>
        rw [hsample] at h
        cases h.2
      | ok sampled =>
        rw [hsample] at h
        cases h.2
        rw [←h.1]

/-- Tokens that are selected, each for its own sequence. -/
theorem selectAll_ok {member : ℕ} {rows : List (List F)}
    {sequences sequences' : List (AcceleratorSequence Row D)} {outputs : List (StageOutput D)}
    (hlength : rows.length=sequences.length)
    (h : stage.selectAll faults member rows sequences=(sequences',.ok outputs)) :
    List.zipWith (selectOne stage) rows sequences=
      (sequences'.zip outputs).map Except.ok ∧ sequences'.length=sequences.length ∧
        outputs.length=sequences.length ∧ ∀ output∈outputs,∃ token,output=.sampled token := by
  induction rows generalizing member sequences sequences' outputs with
  | nil =>
    cases sequences with
    | nil =>
      cases h
      exact ⟨rfl,rfl,rfl,fun output houtput => absurd houtput List.not_mem_nil⟩
    | cons sequence sequences => cases hlength
  | cons logits rows ih =>
    cases sequences with
    | nil => cases hlength
    | cons sequence sequences =>
      rw [selectAll] at h
      cases hone : stage.select faults member logits sequence with
      | mk sequence₁ result =>
        rw [hone] at h
        cases result with
        | error failure => cases h
        | ok token =>
          have hselected := select_ok hone
          cases hrest : stage.selectAll faults (member+1) rows sequences with
          | mk sequences₁ result₁ =>
            rw [hrest] at h
            cases result₁ with
            | error failure => cases h
            | ok later =>
              cases h
              obtain ⟨hzip,hcount,houtputs,htokens⟩ := ih (Nat.succ.inj hlength) hrest
              refine ⟨?_,congrArg Nat.succ hcount,congrArg Nat.succ houtputs,?_⟩
              · rw [List.zipWith_cons_cons,List.zip_cons_cons,List.map_cons,hselected,hzip]
              · intro output houtput
                rcases List.mem_cons.mp houtput with rfl | houtput
                · exact ⟨token,rfl⟩
                · exact htokens output houtput

/-- The bytes of a row of `hidden` on the wire. -/
def wireRow (stage : AcceleratorStage Row F) (count place : ℕ) (row : Row) : List UInt8 :=
  (List.range (stage.hiddenSize*2)).map (stage.toWire (stage.half count place row))

/-- What a pass returns for one sequence, from its rows after the layers. A
selecting stage takes the last of them, as one of so many rows at some place. -/
def outputOne (stage : AcceleratorStage Row F) (count place heads head : ℕ) (group : List Row)
    (sequence : AcceleratorSequence Row D) :
    Except Failure (AcceleratorSequence Row D×StageOutput D) :=
  if stage.final then
    if sequence.prefillOnly then .ok (sequence,.progress)
    else match group.getLast? with
      | none => .error (.outOfRange "vector")
      | some row => selectOne stage (stage.logits heads head row) sequence
  else .ok (sequence,.boundary group.length stage.hiddenSize
    (group.mapIdx fun j row => wireRow stage count (place+j) row).flatten)

/-- A group and its sequence after all layers. -/
def moved (stage : AcceleratorStage Row F) (count place : ℕ) (group : List Row)
    (sequence : AcceleratorSequence Row D) : List Row×AcceleratorSequence Row D :=
  let added := block stage count place sequence.length 0 group
    (pastOf sequence.length sequence.caches)
  (added.1,{ sequence with caches := addRows sequence.length sequence.caches added.2 })

/-- What a call that completes does to one sequence it names. -/
def performed (stage : AcceleratorStage Row F) (count place heads head : ℕ) (group : List Row)
    (sequence : AcceleratorSequence Row D) :
    Except Failure (AcceleratorSequence Row D×StageOutput D) :=
  (outputOne stage count place heads head (moved stage count place group sequence).1
    (moved stage count place group sequence).2).map fun done =>
      (done.1.advance group.length,done.2)

omit [Scalar F] [Double F D] in
/-- A boundary that is written. -/
theorem boundaryOf_ok {hidden : List Row} {outputs : List (StageOutput D)}
    (h : stage.boundaryOf faults hidden=.ok outputs) :
    outputs=[.boundary hidden.length stage.hiddenSize
      (hidden.mapIdx fun j row => wireRow stage hidden.length j row).flatten] := by
  unfold boundaryOf at h
  cases hpass : faults.pass .boundary with
  | error failure =>
    rw [hpass] at h
    cases h
  | ok u =>
    rw [hpass] at h
    unfold checkFinite at h
    dsimp only [bind,Except.bind] at h
    split at h
    · cases h
    · cases h
      rw [List.flatMap_def,List.mapIdx_eq_zipIdx_map,List.map_map,List.mapIdx_eq_zipIdx_map]
      rfl

/-- A pass whose end does not throw. -/
theorem conclude_ok {single : Bool} {count : ℕ}
    {returned : List (AcceleratorSequence Row D)×Except Failure (List (StageOutput D))}
    {sequences : List (AcceleratorSequence Row D)} {outputs : List (StageOutput D)}
    (h : conclude faults single count returned=(sequences,.ok outputs)) :
    returned.2=.ok outputs ∧
      sequences=returned.1.map fun sequence => sequence.advance (if single then count else 1) := by
  obtain ⟨moved,result⟩ := returned
  unfold conclude at h
  cases result with
  | error failure => cases h
  | ok values =>
    dsimp only [Except.bind] at h
    cases hrunning : faults.running .advance with
    | error failure =>
      rw [hrunning] at h
      cases h
    | ok u =>
      rw [hrunning] at h
      dsimp only [Except.map] at h
      cases hcomplete : faults.pass .complete with
      | error failure =>
        rw [hcomplete] at h
        cases h
      | ok u =>
        rw [hcomplete] at h
        cases h
        exact ⟨rfl,rfl⟩

omit [Scalar F] in
/-- An input that is read. -/
theorem inputRows_ok {input : StageInput} {rows : List Row}
    (h : stage.inputRows faults input=.ok rows) : rows=stage.rowsOf input := by
  cases input with
  | tokens ids =>
    unfold inputRows at h
    dsimp only at h
    split at h
    · cases h
    · cases hpass : faults.pass .input with
      | error failure =>
        rw [hpass] at h
        cases h
      | ok u =>
        rw [hpass] at h
        cases h
        rfl
  | boundary tokens width payload =>
    unfold inputRows at h
    dsimp only at h
    split at h
    · cases h
    · cases hpass : faults.pass .input with
      | error failure =>
        rw [hpass] at h
        cases h
      | ok u =>
        rw [hpass] at h
        dsimp only [Except.bind] at h
        split at h
        · cases h
          rfl
        · cases h

/-- A pass that does not throw, up to what it returns. -/
theorem pass_ok {single : Bool} {count position : ℕ} {input : StageInput}
    {groups : List (List Row)} {sequences sequences' : List (AcceleratorSequence Row D)}
    {outputs : List (StageOutput D)} (hrows : stage.rowsOf input=groups.flatten)
    (hgrouped : Grouped single groups sequences)
    (hposition : single=true → ∀ sequence∈sequences,sequence.length=position)
    (hlayers : ∀ sequence∈sequences,sequence.caches.length=stage.layers)
    (h : stage.pass faults single count position input sequences=(sequences',.ok outputs)) :
    ∃ ends,stage.outputOf faults single
        (columns (fun place group sequence =>
          (moved stage groups.flatten.length place group sequence).1) 0 groups
            sequences).flatten
        (columns (fun place group sequence =>
          (moved stage groups.flatten.length place group sequence).2) 0 groups
            sequences)=(ends,.ok outputs) ∧
      sequences'=ends.map fun sequence => sequence.advance (if single then count else 1) := by
  unfold AcceleratorStage.pass at h
  cases hinput : stage.inputRows faults input with
  | error failure =>
    rw [hinput] at h
    cases h
  | ok hidden =>
    have hhidden := inputRows_ok hinput
    rw [hrows] at hhidden
    subst hhidden
    rw [hinput] at h
    dsimp only at h
    cases hforward : stage.forward faults single position (List.range stage.layers)
        groups.flatten sequences with
    | mk sequences₁ result =>
      rw [hforward] at h
      cases result with
      | error failure => cases h
      | ok hidden =>
        obtain ⟨hsequences,hhidden⟩ := forward_ok hgrouped hposition hforward
        have hall : ∀ place,∀ group∈groups,∀ sequence∈sequences,
            forwardGroup stage groups.flatten.length place (List.range stage.layers) group
              sequence=moved stage groups.flatten.length place group sequence :=
          fun place group _ sequence hsequence =>
            forwardGroup_all _ place group sequence (hlayers sequence hsequence)
        rw [columns_congr 0 fun place group hgroup sequence hsequence => congrArg Prod.snd
          (hall place group hgroup sequence hsequence)] at hsequences
        rw [columns_congr 0 fun place group hgroup sequence hsequence => congrArg Prod.fst
          (hall place group hgroup sequence hsequence)] at hhidden
        dsimp only at h
        split at h
        · cases h
        · obtain ⟨hreturned,hends⟩ := conclude_ok h
          rw [hhidden,hsequences] at hreturned hends
          refine ⟨_,?_,hends⟩
          rw [←hreturned]

/-- The end of the pass of a single sequence. -/
theorem outputOf_alone {hidden : List Row} {sequence : AcceleratorSequence Row D}
    {ends : List (AcceleratorSequence Row D)} {outputs : List (StageOutput D)}
    (hrows : hidden≠[])
    (h : stage.outputOf faults true hidden [sequence]=(ends,.ok outputs)) :
    ∃ sequence' output,ends=[sequence'] ∧ outputs=[output] ∧
      outputOne stage hidden.length 0 1 0 hidden sequence=.ok (sequence',output) := by
  unfold outputOf at h
  unfold outputOne
  by_cases hfinal : stage.final=true
  · simp only [hfinal,Bool.true_and,if_true,List.head?_cons,Option.any_some] at h ⊢
    by_cases hprefill : sequence.prefillOnly=true
    · rw [if_pos hprefill] at h ⊢
      cases h
      exact ⟨sequence,.progress,rfl,rfl,rfl⟩
    · rw [if_neg hprefill] at h ⊢
      obtain ⟨row,hrow⟩ := Option.ne_none_iff_exists'.mp
        (mt List.getLast?_eq_none_iff.mp hrows)
      unfold head at h
      simp only [if_true,hrow,Option.toList_some,List.mapIdx_cons,List.mapIdx_nil,
        List.length_singleton] at h
      split at h
      · cases h
      · split at h
        · cases h
        · obtain ⟨hzip,hcount,houtputs,-⟩ := selectAll_ok rfl h
          obtain ⟨sequence',rfl⟩ := List.length_eq_one_iff.mp hcount
          obtain ⟨output,rfl⟩ := List.length_eq_one_iff.mp houtputs
          refine ⟨sequence',output,rfl,rfl,?_⟩
          rw [hrow]
          exact (List.cons.inj hzip).1
  · simp only [Bool.eq_false_of_not_eq_true hfinal,Bool.false_and] at h ⊢
    rw [if_neg Bool.false_ne_true,if_neg Bool.false_ne_true,Prod.mk.injEq] at h
    obtain ⟨hends,houtputs⟩ := h
    rw [boundaryOf_ok houtputs,←hends]
    refine ⟨sequence,_,rfl,rfl,?_⟩
    simp only [Nat.zero_add]
    rfl

/-- The pass of a single sequence. -/
theorem pass_alone {count : ℕ} {input : StageInput} {sequence : AcceleratorSequence Row D}
    {sequences' : List (AcceleratorSequence Row D)} {outputs : List (StageOutput D)}
    (hcount : (stage.rowsOf input).length=count) (hpositive : 0 < count)
    (hlayers : sequence.caches.length=stage.layers)
    (h : stage.pass faults true count sequence.length input [sequence]=
      (sequences',.ok outputs)) :
    ∃ sequence' output,sequences'=[sequence'] ∧ outputs=[output] ∧
      performed stage count 0 1 0 (stage.rowsOf input) sequence=.ok (sequence',output) := by
  have hgrouped : Grouped true [stage.rowsOf input] [sequence] :=
    ⟨rfl,fun _ => rfl,fun hnot => Bool.noConfusion hnot⟩
  have hflat : [stage.rowsOf input].flatten=stage.rowsOf input := by
    rw [List.flatten_cons,List.flatten_nil,List.append_nil]
  obtain ⟨ends,hreturned,rfl⟩ := pass_ok hflat.symm hgrouped
    (fun _ s hs => by rw [List.mem_singleton.mp hs])
    (fun s hs => by rw [List.mem_singleton.mp hs,hlayers]) h
  rw [hflat,hcount] at hreturned
  simp only [columns,List.flatten_cons,List.flatten_nil,List.append_nil] at hreturned
  have hlength : (moved stage count 0 (stage.rowsOf input) sequence).1.length=count := by
    rw [←hcount]
    exact (length_block _ _ _ _ _ _).1
  have hrows : (moved stage count 0 (stage.rowsOf input) sequence).1≠[] := by
    intro hnone
    rw [hnone] at hlength
    exact hpositive.ne hlength
  obtain ⟨sequence',output,rfl,rfl,hone⟩ := outputOf_alone hrows hreturned
  refine ⟨_,output,rfl,rfl,?_⟩
  rw [hlength] at hone
  rw [performed,hone,hcount]
  rfl

omit [Scalar F] in
/-- The bytes of a row. -/
theorem length_wireRow (count place : ℕ) (row : Row) :
    (wireRow stage count place row).length=stage.hiddenSize*2 := by
  rw [wireRow,List.length_map,List.length_range]

/-- A boundary in memory that has rows is split as with checked products. -/
theorem splitDecodeBoundary_checked {tokens width : ℕ} {payload : List UInt8}
    {outputs : List (StageOutput D)} (htokens : 0 < tokens) (hmemory : payload.length < 2^64) :
    splitDecodeBoundary tokens width payload=.ok outputs ↔
      DecodeBatch.splitDecodeBoundary tokens width payload=.ok outputs := by
  have hsplit : splitDecodeBoundary tokens width payload=.ok outputs ↔
      payload.length=tokens*(width*2) ∧
        outputs=(FixedRows.rows (width*2) tokens payload).map fun r => .boundary 1 width r := by
    rw [splitDecodeBoundary,DecodeBatch.map_rowBytes,MemoryAccounting.check_iff,not_not,
      Except.ok.injEq]
    exact and_congr_right fun _ => eq_comm
  rw [hsplit]
  by_cases hwidth : width*2 < 2^64
  · exact (DecodeBatch.splitDecodeBoundary_ok_iff hwidth hmemory).symm
  · refine iff_of_false (fun h => ?_) (DecodeBatch.splitDecodeBoundary_wide hwidth)
    have hle : width*2 ≤ tokens*(width*2) := Nat.le_mul_of_pos_left _ htokens
    omega

omit [Scalar F] [Double F D] in
/-- A boundary of several rows is split into its rows. -/
theorem split_boundary (hidden : List Row) :
    (splitDecodeBoundary hidden.length stage.hiddenSize
      (hidden.mapIdx fun j row => wireRow stage hidden.length j row).flatten :
        Except Failure (List (StageOutput D)))=
      .ok (hidden.mapIdx fun j row =>
        .boundary 1 stage.hiddenSize (wireRow stage hidden.length j row)) := by
  have hbytes : ∀ row∈hidden.mapIdx fun j row => wireRow stage hidden.length j row,
      row.length=stage.hiddenSize*2 := by
    intro row hmem
    obtain ⟨i,hi,rfl⟩ := List.exists_of_mem_mapIdx hmem
    exact length_wireRow _ _ _
  have htotal : (hidden.mapIdx fun j row => wireRow stage hidden.length j row).flatten.length=
      hidden.length*(stage.hiddenSize*2) := by
    rw [List.length_flatten,List.map_congr_left hbytes,List.map_const',List.length_mapIdx,
      List.sum_replicate_nat]
  rw [splitDecodeBoundary,if_neg (not_not.mpr htotal)]
  congr 1
  refine List.ext_getElem ?_ fun i hleft hright => ?_
  · rw [List.length_map,List.length_range,List.length_mapIdx]
  · rw [List.length_map,List.length_range] at hleft
    rw [List.getElem_map,List.getElem_range,List.getElem_mapIdx,
      rowBytes_flatten hbytes i (by rwa [List.length_mapIdx]),List.getElem_mapIdx]

/-- The end of the pass of a batch, with its boundary split. -/
theorem outputOf_batched {hidden : List Row} {sequences ends : List (AcceleratorSequence Row D)}
    {outputs : List (StageOutput D)} (hsize : hidden.length=sequences.length)
    (hready : ∀ sequence∈sequences,sequence.prefillOnly=false)
    (h : stage.outputOf faults false hidden sequences=(ends,.ok outputs)) :
    ∃ returned,splitEnding (.completed outputs)=.completed returned ∧
      ((hidden.zip sequences).mapIdx fun i pair =>
        outputOne stage hidden.length i hidden.length i [pair.1] pair.2)=
          (ends.zip returned).map Except.ok ∧
      ends.length=sequences.length ∧ returned.length=sequences.length := by
  unfold outputOf at h
  have hhead : sequences.head?.any (·.prefillOnly)=false := by
    cases sequences with
    | nil => rfl
    | cons sequence sequences => exact hready sequence (.head _)
  rw [hhead,Bool.and_false,if_neg Bool.false_ne_true] at h
  by_cases hfinal : stage.final=true
  · rw [if_pos hfinal] at h
    unfold head at h
    simp only [Bool.false_eq_true,if_false] at h
    split at h
    · cases h
    · split at h
      · cases h
      · obtain ⟨hzip,hends,houtputs,htokens⟩ := selectAll_ok
          (by rw [List.length_mapIdx,hsize]) h
        refine ⟨outputs,?_,?_,hends,houtputs⟩
        · unfold splitEnding
          split
          next tokens width payload hboundary =>
            cases hboundary
            obtain ⟨token,htoken⟩ := htokens _ (.head _)
            cases htoken
          · rfl
        · rw [←hzip]
          refine List.ext_getElem ?_ fun i hleft hright => ?_
          · rw [List.length_mapIdx,List.length_zip,List.length_zipWith,List.length_mapIdx]
          · rw [List.length_mapIdx,List.length_zip] at hleft
            have hmember : sequences[i].prefillOnly=false :=
              hready _ (List.getElem_mem (by omega))
            simp only [List.getElem_mapIdx,List.getElem_zip,List.getElem_zipWith,outputOne,
              hfinal,if_true,hmember,Bool.false_eq_true,if_false,List.getLast?_singleton]
  · rw [if_neg hfinal,Prod.mk.injEq] at h
    obtain ⟨rfl,houtputs⟩ := h
    refine ⟨hidden.mapIdx fun j row =>
      .boundary 1 stage.hiddenSize (wireRow stage hidden.length j row),?_,?_,rfl,?_⟩
    · rw [boundaryOf_ok houtputs]
      unfold splitEnding
      simp only [split_boundary]
    · refine List.ext_getElem ?_ fun i hleft hright => ?_
      · rw [List.length_mapIdx,List.length_zip,List.length_map,List.length_zip,
          List.length_mapIdx,Nat.min_comm]
      · simp only [List.getElem_mapIdx,List.getElem_zip,List.getElem_map,outputOne,hfinal,
          Bool.false_eq_true,if_false,List.length_singleton,List.mapIdx_cons,List.mapIdx_nil,
          Nat.add_zero,List.flatten_cons,List.flatten_nil,List.append_nil]
    · rw [List.length_mapIdx,hsize]

/-- Columns of single rows. -/
theorem columns_singletons {β : Type} (f : ℕ → List Row → AcceleratorSequence Row D → β)
    (place : ℕ) (rows : List Row) (sequences : List (AcceleratorSequence Row D)) :
    columns f place (rows.map fun row => [row]) sequences=
      (rows.zip sequences).mapIdx fun i pair => f (place+i) [pair.1] pair.2 := by
  induction rows generalizing place sequences with
  | nil => rfl
  | cons row rows ih =>
    cases sequences with
    | nil => rfl
    | cons sequence sequences =>
      rw [List.map_cons,columns,ih,List.zip_cons_cons,List.mapIdx_cons,List.length_singleton]
      have hshift : ∀ i,place+1+i=place+(i+1) := by
        intro i
        omega
      simp only [hshift]
      rfl

/-- The pass of a batch. -/
theorem pass_batched {count position : ℕ} {input : StageInput}
    {sequences sequences' : List (AcceleratorSequence Row D)} {outputs : List (StageOutput D)}
    (hsize : (stage.rowsOf input).length=sequences.length)
    (hlayers : ∀ sequence∈sequences,sequence.caches.length=stage.layers)
    (hready : ∀ sequence∈sequences,sequence.prefillOnly=false)
    (h : stage.pass faults false count position input sequences=(sequences',.ok outputs)) :
    ∃ returned,splitEnding (.completed outputs)=.completed returned ∧
      (((stage.rowsOf input).zip sequences).mapIdx fun i pair =>
        performed stage sequences.length i sequences.length i [pair.1] pair.2)=
          (sequences'.zip returned).map Except.ok ∧
      sequences'.length=sequences.length ∧ returned.length=sequences.length := by
  have hflat : ((stage.rowsOf input).map fun row => [row]).flatten=stage.rowsOf input := by
    rw [←List.flatMap_def,List.flatMap_singleton']
  have hgrouped : Grouped false ((stage.rowsOf input).map fun row => [row]) sequences := by
    refine ⟨by rw [List.length_map,hsize],fun hnot => Bool.noConfusion hnot,?_⟩
    intro _ group hgroup
    obtain ⟨row,-,rfl⟩ := List.mem_map.mp hgroup
    rfl
  obtain ⟨ends,hreturned,rfl⟩ := pass_ok hflat.symm hgrouped
    (fun hnot => Bool.noConfusion hnot) hlayers h
  rw [hflat,hsize,columns_singletons,columns_singletons] at hreturned
  simp only [Nat.zero_add] at hreturned
  have hsingle : ∀ i (pair : Row×AcceleratorSequence Row D),∃ row,
      (moved stage sequences.length i [pair.1] pair.2).1=[row] := fun i pair =>
    List.length_eq_one_iff.mp (length_block _ _ _ _ _ _).1
  choose last hlast using hsingle
  have hrows : (((stage.rowsOf input).zip sequences).mapIdx fun i pair =>
      (moved stage sequences.length i [pair.1] pair.2).1).flatten=
        ((stage.rowsOf input).zip sequences).mapIdx last := by
    simp only [hlast]
    rw [List.mapIdx_eq_zipIdx_map,List.mapIdx_eq_zipIdx_map,←List.flatMap_def,
      List.map_eq_flatMap]
  have hpairs : ((stage.rowsOf input).zip sequences).length=sequences.length := by
    rw [List.length_zip,hsize,Nat.min_self]
  rw [hrows] at hreturned
  obtain ⟨returned,hsplit,houtputs,hends,hcount⟩ := outputOf_batched
    (by rw [List.length_mapIdx,List.length_mapIdx]) (by
      intro sequence hmem
      obtain ⟨i,hi,rfl⟩ := List.exists_of_mem_mapIdx hmem
      have hold := hready _ (List.of_mem_zip (List.getElem_mem hi)).2
      exact hold) hreturned
  rw [List.length_mapIdx,hpairs] at hends hcount houtputs
  refine ⟨returned,hsplit,?_,by rw [List.length_map,hends],hcount⟩
  refine List.ext_getElem ?_ fun i hleft hright => ?_
  · rw [List.length_mapIdx,hpairs,List.length_map,List.length_zip,List.length_map,hends,hcount,
      Nat.min_self]
  · rw [List.length_mapIdx,hpairs] at hleft
    have hone := List.getElem_of_eq houtputs (i := i) (by
      rw [List.length_mapIdx,List.length_zip,List.length_mapIdx,List.length_mapIdx]
      omega)
    simp only [List.getElem_mapIdx,List.getElem_zip,List.getElem_map] at hone ⊢
    rw [←hlast] at hone
    rw [performed,hone]
    rfl

end Outputs

end Hllm.AcceleratorPasses
