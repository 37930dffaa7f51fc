import Hllm.ListPositions
import Hllm.RunInvariants
import Mathlib

/-!
# Pooled host buffers

Pools keep released blocks for reuse. A buffer refers to its pool weakly and
may outlive it, and buffers move between variables. Every block allocated so
far is leased, cached or freed. Sizes are machine words, the allocator gives
memory only within their range, and the memory kind of a buffer, always the
host's here, is left out.
-/

namespace Hllm.BufferPool

open ListPositions RunInvariants

/-- `Block`. The data is the number of the allocation. -/
structure Block where
  data : ℕ
  capacity : UInt64
  alignment : UInt64
  deriving DecidableEq,Repr

/-- `BufferPoolState` -/
structure BufferPoolState where
  cached : List Block
  maximumCachedBytes : UInt64
  cachedBytes : UInt64
  buffersInUse : UInt64
  bytesInUse : UInt64
  allocations : UInt64
  deriving DecidableEq,Repr

/-- `Buffer`, with the number of the pool its control refers to. -/
structure Buffer where
  data : Option ℕ
  size : UInt64
  capacity : UInt64
  alignment : UInt64
  control : Option ℕ
  deriving DecidableEq,Repr

/-- What is thrown. -/
inductive Thrown
  /-- `std::invalid_argument` -/
  | invalidArgument (message : String)
  /-- `std::length_error` -/
  | lengthError (message : String)
  /-- `std::bad_alloc` -/
  | badAlloc
  deriving DecidableEq,Repr

/-- Buffers and pools of a program, with the allocations made and the blocks
freed so far. A destroyed pool leaves its place empty. -/
structure World where
  buffers : List Buffer
  pools : List (Option BufferPoolState)
  next : ℕ
  freed : List ℕ
  deriving DecidableEq,Repr

section Pools

/-- `valid_alignment`, above the alignment of the largest scalar. -/
def validAlignment (maximum alignment : UInt64) : Bool :=
  decide (maximum ≤ alignment) && alignment &&& (alignment-1)==0

/-- A block serves a request. -/
def fits (minimumCapacity alignment : UInt64) (block : Block) : Bool :=
  decide (minimumCapacity ≤ block.capacity) && decide (alignment ≤ block.alignment)

/-- The comparison of `acquire`. -/
def before (minimumCapacity alignment : UInt64) (lhs rhs : Block) : Bool :=
  let lhsFits := fits minimumCapacity alignment lhs
  let rhsFits := fits minimumCapacity alignment rhs
  if lhsFits≠rhsFits then lhsFits else decide (lhs.capacity < rhs.capacity)

/-- No block comes before itself. -/
theorem before_irrefl (minimumCapacity alignment : UInt64) (block : Block) :
    before minimumCapacity alignment block block=false := by
  rw [before,if_neg (fun hne => hne rfl)]
  exact decide_eq_false (UInt64.lt_irrefl _)

/-- The comparison of `acquire` is transitive. -/
theorem before_trans (minimumCapacity alignment : UInt64) (a b c : Block)
    (hab : before minimumCapacity alignment a b=true)
    (hbc : before minimumCapacity alignment b c=true) :
    before minimumCapacity alignment a c=true := by
  rw [before] at hab hbc ⊢
  cases ha : fits minimumCapacity alignment a <;> cases hb : fits minimumCapacity alignment b <;>
    cases hc : fits minimumCapacity alignment c <;> simp_all only [ne_eq,not_true_eq_false,
      if_false,if_true,reduceCtorEq,not_false_eq_true,decide_eq_true_eq]
  · exact UInt64.lt_trans hab hbc
  · exact UInt64.lt_trans hab hbc

/-- The cached block that `acquire` takes, and its position. -/
def candidate (state : BufferPoolState) (minimumCapacity alignment : UInt64) :
    Option (ℕ×Block) :=
  (minElement (before minimumCapacity alignment) state.cached).filter fun found =>
    fits minimumCapacity alignment found.2

/-- A pool whose cached block at a position was leased. -/
def BufferPoolState.reuse (state : BufferPoolState) (position : ℕ) (block : Block) :
    BufferPoolState :=
  { state with
    cached := state.cached.eraseIdx position
    cachedBytes := state.cachedBytes-block.capacity
    buffersInUse := state.buffersInUse+1
    bytesInUse := state.bytesInUse+block.capacity }

/-- A pool for which a block was allocated. -/
def BufferPoolState.allocate (state : BufferPoolState) (block : Block) : BufferPoolState :=
  { state with
    allocations := state.allocations+1
    buffersInUse := state.buffersInUse+1
    bytesInUse := state.bytesInUse+block.capacity }

/-- A pool that counts a block as returned. -/
def BufferPoolState.return (state : BufferPoolState) (block : Block) : BufferPoolState :=
  { state with
    buffersInUse := state.buffersInUse-1
    bytesInUse := state.bytesInUse-block.capacity }

/-- A returned block may be kept. -/
def BufferPoolState.keeps (state : BufferPoolState) (block : Block) : Bool :=
  state.maximumCachedBytes==0 || decide (block.capacity ≤
    state.maximumCachedBytes-min state.cachedBytes state.maximumCachedBytes)

/-- A pool that keeps a block. -/
def BufferPoolState.keep (state : BufferPoolState) (block : Block) : BufferPoolState :=
  { state with cached := state.cached++[block],cachedBytes := state.cachedBytes+block.capacity }

/-- A pool without cached blocks. -/
def BufferPoolState.clear (state : BufferPoolState) : BufferPoolState :=
  { state with cached := [],cachedBytes := 0 }

end Pools

section Buffers

/-- The block of a buffer that has one. -/
def Buffer.block (buffer : Buffer) : Option Block :=
  buffer.data.map fun data => ⟨data,buffer.capacity,buffer.alignment⟩

/-- What is left of a buffer that was released or moved from. -/
def Buffer.emptied (buffer : Buffer) : Buffer :=
  { buffer with data := none,size := 0,capacity := 0,control := none }

namespace World

variable (world : World)

/-- A pool that was not destroyed. -/
def pool (p : ℕ) : Option BufferPoolState := (world.pools[p]?).join

/-- Replace a pool. -/
def setPool (p : ℕ) (state : Option BufferPoolState) : World :=
  { world with pools := world.pools.set p state }

/-- `delete_block` -/
def deleteBlock (block : Block) : World := { world with freed := world.freed++[block.data] }

/-- `control_->pool.lock()` -/
def lock (buffer : Buffer) : Option (ℕ×BufferPoolState) :=
  buffer.control.bind fun p => (world.pool p).map fun state => (p,state)

/-- `Buffer::release` up to the fields of the buffer. -/
def giveBack (buffer : Buffer) (block : Block) : World :=
  match world.lock buffer with
  | some (p,state) =>
    let state := state.return block
    if state.keeps block then world.setPool p (some (state.keep block))
    else (world.setPool p (some state)).deleteBlock block
  | none => world.deleteBlock block

/-- `Buffer::release` -/
def release (i : ℕ) (buffer : Buffer) : World :=
  match buffer.block with
  | none => world
  | some block =>
    let world := world.giveBack buffer block
    { world with buffers := world.buffers.set i buffer.emptied }

/-- Bytes allocated and not freed. -/
def heapBytes : ℕ :=
  (world.buffers.map fun buffer => buffer.capacity.toNat).sum+
    (world.pools.map fun pool =>
      ((pool.map (·.cached)).getD [] |>.map fun block => block.capacity.toNat).sum).sum

/-- `BufferPool::acquire`; the new buffer is the last one. Whether there is
memory is the allocator's choice, within the range of sizes. -/
def acquire (maximumAlignment : UInt64) (p : ℕ) (state : BufferPoolState)
    (minimumCapacity alignment : UInt64) (memory : Bool) : Except Thrown World :=
  if minimumCapacity=0 then .error (.invalidArgument "buffer capacity must be positive")
  else if !validAlignment maximumAlignment alignment then
    .error (.invalidArgument "buffer alignment must be a power of two and at least max_align_t")
  else match candidate state minimumCapacity alignment with
  | some (position,block) =>
    let world := world.setPool p (some (state.reuse position block))
    .ok { world with
      buffers := world.buffers++[⟨some block.data,0,block.capacity,block.alignment,some p⟩] }
  | none =>
    if memory && decide (world.heapBytes+minimumCapacity.toNat < 2^64) then
      let block : Block := ⟨world.next,minimumCapacity,alignment⟩
      let world := world.setPool p (some (state.allocate block))
      .ok { world with
        next := world.next+1
        buffers := world.buffers++[⟨some block.data,0,block.capacity,block.alignment,some p⟩] }
    else .error .badAlloc

/-- `Buffer::resize` -/
def resize (i : ℕ) (buffer : Buffer) (logicalSize : UInt64) : Except Thrown World :=
  if buffer.capacity < logicalSize then
    .error (.lengthError "buffer logical size exceeds capacity")
  else .ok { world with buffers := world.buffers.set i { buffer with size := logicalSize } }

/-- Move construction; the new buffer is the last one. -/
def moveConstruct (j : ℕ) (other : Buffer) : World :=
  { world with buffers := world.buffers.set j other.emptied++[other] }

/-- Move assignment. Assigning a buffer to itself does nothing. -/
def moveAssign (i j : ℕ) (buffer other : Buffer) : World :=
  if i=j then world
  else
    let world := world.release i buffer
    { world with buffers := (world.buffers.set j other.emptied).set i other }

/-- `BufferPool::clear_cached` -/
def clearCached (p : ℕ) (state : BufferPoolState) : World :=
  let world := world.setPool p (some state.clear)
  { world with freed := world.freed++state.cached.map (·.data) }

/-- The last reference to a pool goes away. -/
def destroyPool (p : ℕ) (state : BufferPoolState) : World :=
  let world := world.setPool p none
  { world with freed := world.freed++state.cached.map (·.data) }

/-- `BufferPool::stats` -/
def stats (state : BufferPoolState) : UInt64×UInt64×ℕ×UInt64×UInt64 :=
  (state.buffersInUse,state.bytesInUse,state.cached.length,state.cachedBytes,state.allocations)

end World

end Buffers

/-- What a program does with buffers and pools. Buffers are named by position. -/
inductive Action
  /-- `BufferPool` -/
  | create (maximumCachedBytes : UInt64)
  /-- `Buffer` without a block. -/
  | declare
  /-- `BufferPool::acquire` -/
  | acquire (p : ℕ) (minimumCapacity alignment : UInt64) (memory : Bool)
  /-- `Buffer::resize` -/
  | resize (i : ℕ) (logicalSize : UInt64)
  /-- Move construction. -/
  | moveConstruct (j : ℕ)
  /-- Move assignment, of a buffer to itself too. -/
  | moveAssign (i j : ℕ)
  /-- Destruction of a buffer. -/
  | release (i : ℕ)
  /-- `BufferPool::clear_cached` -/
  | clearCached (p : ℕ)
  /-- Destruction of a pool. -/
  | destroyPool (p : ℕ)
  deriving DecidableEq,Repr

/-- The state after a call that may throw. What throws changes nothing. -/
def World.after (world : World) : Except Thrown World → World
  | .ok changed => changed
  | .error _ => world

/-- One action of a program. -/
def step (maximumAlignment : UInt64) (world : World) : Action → Option World
  | .create maximumCachedBytes =>
    some { world with pools := world.pools++[some ⟨[],maximumCachedBytes,0,0,0,0⟩] }
  | .declare => some { world with buffers := world.buffers++[⟨none,0,0,maximumAlignment,none⟩] }
  | .acquire p minimumCapacity alignment memory => (world.pool p).map fun state =>
    world.after (world.acquire maximumAlignment p state minimumCapacity alignment memory)
  | .resize i logicalSize => (world.buffers[i]?).map fun buffer =>
    world.after (world.resize i buffer logicalSize)
  | .moveConstruct j => (world.buffers[j]?).map fun other => world.moveConstruct j other
  | .moveAssign i j => (world.buffers[i]?).bind fun buffer => (world.buffers[j]?).map fun other =>
    world.moveAssign i j buffer other
  | .release i => (world.buffers[i]?).map fun buffer => world.release i buffer
  | .clearCached p => (world.pool p).map fun state => world.clearCached p state
  | .destroyPool p => (world.pool p).map fun state => world.destroyPool p state

/-- Programs start without buffers and pools. -/
def machine (maximumAlignment : UInt64) : Machine World Action where
  initial world := world=⟨[],[],0,[]⟩
  step := step maximumAlignment

section Accounting

/-- A block in use, with the number of its pool. -/
structure Lease where
  block : Block
  pool : Option ℕ

/-- Bytes of blocks. -/
def bytes (blocks : List Block) : ℕ := (blocks.map fun block => block.capacity.toNat).sum

/-- The blocks leased from a pool. -/
def leasedFrom (leases : List Lease) (p : ℕ) : List Block :=
  (leases.filter fun lease => lease.pool=some p).map Lease.block

/-- The blocks a pool caches, none once it is destroyed. -/
def cachedOf (pool : Option BufferPoolState) : List Block := (pool.map (·.cached)).getD []

/-- The blocks that any pool caches. -/
def cachedBlocks (pools : List (Option BufferPoolState)) : List Block := pools.flatMap cachedOf

/-- The counters of a pool are the number and the bytes of the blocks leased
from it and the bytes it caches, within its limit. -/
structure Balanced (leases : List Lease) (p : ℕ) (state : BufferPoolState) : Prop where
  buffers : state.buffersInUse.toNat=(leasedFrom leases p).length
  leased : state.bytesInUse.toNat=bytes (leasedFrom leases p)
  cached : state.cachedBytes.toNat=bytes state.cached
  limit : state.maximumCachedBytes≠0 → state.cachedBytes ≤ state.maximumCachedBytes

/-- Every block allocated is leased, cached or freed, once, and all pools are
balanced. -/
structure Accounts (leases : List Lease) (pools : List (Option BufferPoolState)) (next : ℕ)
    (freed : List ℕ) : Prop where
  partition : ∀ id,(leases.map fun lease => lease.block.data).count id+
    ((cachedBlocks pools).map Block.data).count id+freed.count id=if id < next then 1 else 0
  space : bytes (leases.map Lease.block)+bytes (cachedBlocks pools) < 2^64
  leased : ∀ lease∈leases,0 < lease.block.capacity.toNat
  cached : ∀ block∈cachedBlocks pools,0 < block.capacity.toNat
  owned : ∀ lease∈leases,∃ p < pools.length,lease.pool=some p
  balanced : ∀ p state,pools[p]?=some (some state) → Balanced leases p state

@[simp] theorem bytes_nil : bytes []=0 := rfl

@[simp] theorem bytes_cons (block : Block) (blocks : List Block) :
    bytes (block::blocks)=block.capacity.toNat+bytes blocks := by
  simp [bytes]

@[simp] theorem bytes_append (blocks blocks' : List Block) :
    bytes (blocks++blocks')=bytes blocks+bytes blocks' := by
  simp [bytes]

/-- The order of blocks does not matter. -/
theorem bytes_perm {blocks blocks' : List Block} (h : blocks.Perm blocks') :
    bytes blocks=bytes blocks' :=
  (h.map _).sum_eq

/-- A lease counts for its own pool. -/
theorem leasedFrom_cons (lease : Lease) (leases : List Lease) (p : ℕ) :
    leasedFrom (lease::leases) p=
      if lease.pool=some p then lease.block::leasedFrom leases p else leasedFrom leases p := by
  by_cases h : lease.pool=some p
  · simp [leasedFrom,h]
  · simp [leasedFrom,h]

/-- The blocks leased from a pool have positive sizes within the leased bytes. -/
theorem leasedFrom_bounds {leases : List Lease}
    (hpos : ∀ lease∈leases,0 < lease.block.capacity.toNat)
    (p : ℕ) : (leasedFrom leases p).length ≤ bytes (leasedFrom leases p) ∧
      bytes (leasedFrom leases p) ≤ bytes (leases.map Lease.block) := by
  induction leases with
  | nil => exact ⟨Nat.le_refl 0,Nat.le_refl 0⟩
  | cons lease leases ih =>
    obtain ⟨hfirst,hrest⟩ := List.forall_mem_cons.mp hpos
    obtain ⟨hlength,hbytes⟩ := ih hrest
    rw [leasedFrom_cons,List.map_cons,bytes_cons]
    split
    · rw [List.length_cons,bytes_cons]
      omega
    · omega

/-- The order of leases does not matter. -/
theorem leasedFrom_perm {leases leases' : List Lease} (h : leases.Perm leases') (p : ℕ) :
    (leasedFrom leases p).Perm (leasedFrom leases' p) :=
  (h.filter _).map _

/-- Accounts of leases in another order. -/
theorem Accounts.perm {leases leases' : List Lease} {pools : List (Option BufferPoolState)}
    {next : ℕ} {freed : List ℕ} (h : Accounts leases pools next freed)
    (hperm : leases.Perm leases') : Accounts leases' pools next freed := by
  refine ⟨fun id => ?_,?_,fun lease hl => h.leased lease (hperm.mem_iff.mpr hl),h.cached,
    fun lease hl => h.owned lease (hperm.mem_iff.mpr hl),fun p state hp => ?_⟩
  · rw [←(hperm.map _).count_eq]
    exact h.partition id
  · rw [←bytes_perm (hperm.map _)]
    exact h.space
  · obtain ⟨hbuffers,hleased,hcached,hlimit⟩ := h.balanced p state hp
    have hfrom := leasedFrom_perm hperm p
    exact ⟨hbuffers.trans hfrom.length_eq,hleased.trans (bytes_perm hfrom),hcached,hlimit⟩

/-- Replacing a pool replaces what it caches. -/
theorem cachedBlocks_set {pools : List (Option BufferPoolState)} {p : ℕ}
    {pool : Option BufferPoolState} (h : pools[p]?=some pool) :
    ∃ others,(cachedBlocks pools).Perm (cachedOf pool++others) ∧
      ∀ changed,(cachedBlocks (pools.set p changed)).Perm (cachedOf changed++others) := by
  obtain ⟨rest,hall,hset,-⟩ := exists_rest h
  exact ⟨cachedBlocks rest,hall.flatMap_right _,fun changed => (hset changed).flatMap_right _⟩

/-- Other pools than the one of a lease are balanced without it. -/
theorem Balanced.of_other {lease : Lease} {leases : List Lease} {p : ℕ} {state : BufferPoolState}
    (hother : lease.pool≠some p) :
    Balanced (lease::leases) p state ↔ Balanced leases p state := by
  have hsame : leasedFrom (lease::leases) p=leasedFrom leases p := by
    rw [leasedFrom_cons,if_neg hother]
  constructor
  · rintro ⟨hbuffers,hleased,hcached,hlimit⟩
    rw [hsame] at hbuffers hleased
    exact ⟨hbuffers,hleased,hcached,hlimit⟩
  · rintro ⟨hbuffers,hleased,hcached,hlimit⟩
    exact ⟨by rw [hsame]; exact hbuffers,by rw [hsame]; exact hleased,hcached,hlimit⟩

/-- Pools are balanced after one of them changed. -/
theorem balanced_set {leases : List Lease} {pools : List (Option BufferPoolState)} {p : ℕ}
    {changed : Option BufferPoolState}
    (hself : ∀ state,changed=some state → Balanced leases p state)
    (hothers : ∀ q state,q≠p → pools[q]?=some (some state) → Balanced leases q state) (q : ℕ)
    (state : BufferPoolState) (h : (pools.set p changed)[q]?=some (some state)) :
    Balanced leases q state := by
  by_cases hq : q=p
  · subst hq
    rw [List.getElem?_set_self'] at h
    cases hp : pools[q]? with
    | none =>
      rw [hp] at h
      cases h
    | some pool =>
      rw [hp] at h
      exact hself state (Option.some.inj h)
  · rw [List.getElem?_set_ne (Ne.symm hq)] at h
    exact hothers q state hq h

variable {leases : List Lease} {pools : List (Option BufferPoolState)} {next : ℕ} {freed : List ℕ}
  {p : ℕ} {state : BufferPoolState} {block : Block}

/-- A cached block is leased again. -/
theorem Accounts.reuse (h : Accounts leases pools next freed) (hp : pools[p]?=some (some state))
    {k : ℕ} (hk : state.cached[k]?=some block) :
    Accounts (⟨block,some p⟩::leases) (pools.set p (some (state.reuse k block))) next freed := by
  obtain ⟨others,hold,hset⟩ := cachedBlocks_set hp
  have hnew := hset (some (state.reuse k block))
  obtain ⟨rest,hall,-,herase⟩ := exists_rest hk
  have hcached : (cachedBlocks pools).Perm (block::(rest++others)) :=
    hold.trans (hall.append_right others)
  have hrest : (cachedBlocks (pools.set p (some (state.reuse k block)))).Perm (rest++others) :=
    hnew.trans (herase.append_right others)
  have hbalanced := h.balanced p state hp
  have hbytes := hbalanced.cached
  rw [bytes_perm hall,bytes_cons] at hbytes
  have hspace := h.space
  rw [bytes_perm hcached,bytes_cons] at hspace
  have hpos := h.cached block (hcached.mem_iff.mpr List.mem_cons_self)
  obtain ⟨hfew,hless⟩ := leasedFrom_bounds h.leased p
  have hone : (1 : UInt64).toNat=1 := rfl
  refine ⟨fun id => ?_,?_,List.forall_mem_cons.mpr ⟨hpos,h.leased⟩,fun b hb => ?_,?_,
    balanced_set ?_ fun q other hq hother => ?_⟩
  · have hpart := h.partition id
    rw [(hcached.map _).count_eq,List.map_cons,List.count_cons] at hpart
    rw [(hrest.map _).count_eq,List.map_cons,List.count_cons]
    dsimp only
    omega
  · rw [bytes_perm hrest,List.map_cons,bytes_cons]
    dsimp only
    omega
  · exact h.cached b (hcached.mem_iff.mpr (List.mem_cons_of_mem _ (hrest.mem_iff.mp hb)))
  · rw [List.length_set]
    exact List.forall_mem_cons.mpr ⟨⟨p,(List.getElem?_eq_some_iff.mp hp).1,rfl⟩,h.owned⟩
  · intro changed heq
    cases heq
    have hle : block.capacity ≤ state.cachedBytes := by
      rw [UInt64.le_iff_toNat_le]
      omega
    constructor
    · rw [leasedFrom_cons,if_pos rfl,List.length_cons,←hbalanced.buffers]
      change (state.buffersInUse+1).toNat=_
      rw [UInt64.toNat_add,hone,hbalanced.buffers,Nat.mod_eq_of_lt (by omega)]
    · rw [leasedFrom_cons,if_pos rfl,bytes_cons,←hbalanced.leased,Nat.add_comm]
      change (state.bytesInUse+block.capacity).toNat=_
      rw [UInt64.toNat_add,Nat.mod_eq_of_lt (by rw [hbalanced.leased]; omega)]
    · change (state.cachedBytes-block.capacity).toNat=bytes (state.cached.eraseIdx k)
      rw [UInt64.toNat_sub_of_le _ _ hle,bytes_perm herase]
      omega
    · intro hlimited
      change state.cachedBytes-block.capacity ≤ state.maximumCachedBytes
      have hlimit := hbalanced.limit hlimited
      rw [UInt64.le_iff_toNat_le] at hlimit ⊢
      rw [UInt64.toNat_sub_of_le _ _ hle]
      omega
  · exact (Balanced.of_other fun heq => hq (Option.some.inj heq).symm).mpr
      (h.balanced q other hother)

/-- A new block is leased. -/
theorem Accounts.allocate (h : Accounts leases pools next freed) (hp : pools[p]?=some (some state))
    (hdata : block.data=next) (hpos : 0 < block.capacity.toNat)
    (hroom : bytes (leases.map Lease.block)+bytes (cachedBlocks pools)+block.capacity.toNat <
      2^64) :
    Accounts (⟨block,some p⟩::leases) (pools.set p (some (state.allocate block))) (next+1)
      freed := by
  obtain ⟨others,hold,hset⟩ := cachedBlocks_set hp
  have hsame : (cachedBlocks (pools.set p (some (state.allocate block)))).Perm
      (cachedBlocks pools) := (hset _).trans hold.symm
  have hbalanced := h.balanced p state hp
  obtain ⟨hfew,hless⟩ := leasedFrom_bounds h.leased p
  have hone : (1 : UInt64).toNat=1 := rfl
  refine ⟨fun id => ?_,?_,List.forall_mem_cons.mpr ⟨hpos,h.leased⟩,fun b hb => ?_,?_,
    balanced_set ?_ fun q other hq hother => ?_⟩
  · have hpart := h.partition id
    rw [(hsame.map _).count_eq,List.map_cons,List.count_cons,hdata]
    by_cases hid : id=next
    · subst hid
      rw [if_neg (Nat.lt_irrefl id)] at hpart
      rw [beq_self_eq_true,if_pos rfl,if_pos (Nat.lt_succ_self id)]
      omega
    · have hne : (next==id)=false := beq_eq_false_iff_ne.mpr (Ne.symm hid)
      rw [hne,if_neg Bool.false_ne_true]
      split at hpart <;> split <;> omega
  · rw [bytes_perm hsame,List.map_cons,bytes_cons]
    dsimp only
    omega
  · exact h.cached b (hsame.mem_iff.mp hb)
  · rw [List.length_set]
    exact List.forall_mem_cons.mpr ⟨⟨p,(List.getElem?_eq_some_iff.mp hp).1,rfl⟩,h.owned⟩
  · intro changed heq
    cases heq
    constructor
    · rw [leasedFrom_cons,if_pos rfl,List.length_cons,←hbalanced.buffers]
      change (state.buffersInUse+1).toNat=_
      rw [UInt64.toNat_add,hone,hbalanced.buffers,Nat.mod_eq_of_lt (by omega)]
    · rw [leasedFrom_cons,if_pos rfl,bytes_cons,←hbalanced.leased,Nat.add_comm]
      change (state.bytesInUse+block.capacity).toNat=_
      rw [UInt64.toNat_add,Nat.mod_eq_of_lt (by rw [hbalanced.leased]; omega)]
    · exact hbalanced.cached
    · exact hbalanced.limit
  · exact (Balanced.of_other fun heq => hq (Option.some.inj heq).symm).mpr
      (h.balanced q other hother)

/-- What a pool counts after one of its blocks was returned. -/
theorem Balanced.return (h : Balanced (⟨block,some p⟩::leases) p state) :
    Balanced leases p (state.return block) := by
  obtain ⟨hbuffers,hleased,hcached,hlimit⟩ := h
  rw [leasedFrom_cons,if_pos rfl] at hbuffers hleased
  rw [List.length_cons] at hbuffers
  rw [bytes_cons] at hleased
  dsimp only at hleased
  have hone : (1 : UInt64).toNat=1 := rfl
  refine ⟨?_,?_,hcached,hlimit⟩
  · change (state.buffersInUse-1).toNat=_
    rw [UInt64.toNat_sub_of_le _ _ (by rw [UInt64.le_iff_toNat_le]; omega)]
    omega
  · change (state.bytesInUse-block.capacity).toNat=_
    rw [UInt64.toNat_sub_of_le _ _ (by rw [UInt64.le_iff_toNat_le]; omega)]
    omega

/-- A returned block is kept. -/
theorem Accounts.keep (h : Accounts (⟨block,some p⟩::leases) pools next freed)
    (hp : pools[p]?=some (some state)) (hkeeps : (state.return block).keeps block=true) :
    Accounts leases (pools.set p (some ((state.return block).keep block))) next freed := by
  obtain ⟨others,hold,hset⟩ := cachedBlocks_set hp
  have hnew : (cachedBlocks (pools.set p (some ((state.return block).keep block)))).Perm
      (block::cachedBlocks pools) := by
    refine (hset _).trans (List.Perm.trans ?_ (hold.symm.cons block))
    change ((state.cached++[block])++others).Perm (block::(state.cached++others))
    rw [List.append_assoc]
    exact List.perm_middle
  have hspace := h.space
  rw [List.map_cons,bytes_cons] at hspace
  dsimp only at hspace
  have hpool : bytes state.cached ≤ bytes (cachedBlocks pools) := by
    rw [bytes_perm hold,bytes_append]
    exact Nat.le_add_right _ _
  obtain ⟨hpos,hleased⟩ := List.forall_mem_cons.mp h.leased
  refine ⟨fun id => ?_,?_,hleased,fun b hb => ?_,fun lease hl => ?_,
    balanced_set ?_ fun q other hq hother => ?_⟩
  · have hpart := h.partition id
    rw [List.map_cons,List.count_cons] at hpart
    dsimp only at hpart
    rw [(hnew.map _).count_eq,List.map_cons,List.count_cons]
    omega
  · rw [bytes_perm hnew,bytes_cons]
    omega
  · rcases List.mem_cons.mp (hnew.mem_iff.mp hb) with rfl|hb
    · exact hpos
    · exact h.cached b hb
  · rw [List.length_set]
    exact h.owned lease (List.mem_cons_of_mem _ hl)
  · intro changed heq
    cases heq
    obtain ⟨hbuffers,hbytes,hcached,hlimit⟩ := (h.balanced p state hp).return
    have hsum : (state.cachedBytes+block.capacity).toNat=
        state.cachedBytes.toNat+block.capacity.toNat := by
      change state.cachedBytes.toNat=bytes state.cached at hcached
      rw [UInt64.toNat_add,Nat.mod_eq_of_lt (by omega)]
    refine ⟨hbuffers,hbytes,?_,fun hlimited => ?_⟩
    · change (state.cachedBytes+block.capacity).toNat=bytes (state.cached++[block])
      rw [hsum,bytes_append,bytes_cons,bytes_nil]
      exact congrArg (·+block.capacity.toNat) hcached
    · change state.cachedBytes+block.capacity ≤ state.maximumCachedBytes
      have hwithin := hlimit hlimited
      change state.cachedBytes ≤ state.maximumCachedBytes at hwithin
      have hroom : block.capacity ≤ state.maximumCachedBytes-state.cachedBytes := by
        have hmin : min state.cachedBytes state.maximumCachedBytes=state.cachedBytes :=
          if_pos hwithin
        rw [BufferPoolState.keeps,Bool.or_eq_true,decide_eq_true_eq] at hkeeps
        rcases hkeeps with hzero|hfits
        · exact absurd (eq_of_beq hzero) hlimited
        · change block.capacity ≤
            state.maximumCachedBytes-min state.cachedBytes state.maximumCachedBytes at hfits
          rwa [hmin] at hfits
      rw [UInt64.le_iff_toNat_le,UInt64.toNat_sub_of_le _ _ hwithin] at hroom
      rw [UInt64.le_iff_toNat_le] at hwithin ⊢
      rw [hsum]
      omega
  · have hne : (⟨block,some p⟩ : Lease).pool≠some q := fun heq => hq (Option.some.inj heq).symm
    exact (Balanced.of_other hne).mp (h.balanced q other hother)

/-- A block counted as freed instead of leased keeps the rest of the accounts. -/
theorem Accounts.drop (h : Accounts (⟨block,some p⟩::leases) pools next freed)
    {changed : Option BufferPoolState} {pool : Option BufferPoolState} (hp : pools[p]?=some pool)
    (hcached : cachedOf changed=cachedOf pool)
    (hself : ∀ state,changed=some state → Balanced leases p state) :
    Accounts leases (pools.set p changed) next (freed++[block.data]) := by
  obtain ⟨others,hold,hset⟩ := cachedBlocks_set hp
  have hsame : (cachedBlocks (pools.set p changed)).Perm (cachedBlocks pools) := by
    refine (hset changed).trans ?_
    rw [hcached]
    exact hold.symm
  have hspace := h.space
  rw [List.map_cons,bytes_cons] at hspace
  refine ⟨fun id => ?_,?_,(List.forall_mem_cons.mp h.leased).2,
    fun b hb => h.cached b (hsame.mem_iff.mp hb),fun lease hl => ?_,
    balanced_set hself fun q other hq hother => ?_⟩
  · have hpart := h.partition id
    rw [List.map_cons,List.count_cons] at hpart
    dsimp only at hpart
    rw [(hsame.map _).count_eq,List.count_append,List.count_singleton]
    omega
  · rw [bytes_perm hsame]
    omega
  · rw [List.length_set]
    exact h.owned lease (List.mem_cons_of_mem _ hl)
  · have hne : (⟨block,some p⟩ : Lease).pool≠some q := fun heq => hq (Option.some.inj heq).symm
    exact (Balanced.of_other hne).mp (h.balanced q other hother)

/-- What a pool caches is freed, and the pool with it unless it stays balanced. -/
theorem Accounts.empty (h : Accounts leases pools next freed) (hp : pools[p]?=some (some state))
    {changed : Option BufferPoolState} (hcached : cachedOf changed=[])
    (hself : ∀ state,changed=some state → Balanced leases p state) :
    Accounts leases (pools.set p changed) next (freed++state.cached.map Block.data) := by
  obtain ⟨others,hold,hset⟩ := cachedBlocks_set hp
  have hrest : (cachedBlocks (pools.set p changed)).Perm others := by
    have hnew := hset changed
    rwa [hcached,List.nil_append] at hnew
  have hall : (cachedBlocks pools).Perm (state.cached++others) := hold
  have hspace := h.space
  rw [bytes_perm hall,bytes_append] at hspace
  refine ⟨fun id => ?_,?_,h.leased,fun b hb => ?_,fun lease hl => ?_,
    balanced_set hself fun q other _ hother => h.balanced q other hother⟩
  · have hpart := h.partition id
    rw [(hall.map _).count_eq,List.map_append,List.count_append] at hpart
    rw [(hrest.map _).count_eq,List.count_append]
    omega
  · rw [bytes_perm hrest]
    omega
  · exact h.cached b (hall.mem_iff.mpr (List.mem_append_right _ (hrest.mem_iff.mp hb)))
  · rw [List.length_set]
    exact h.owned lease hl

/-- A new pool has nothing to account for. -/
theorem Accounts.create (h : Accounts leases pools next freed) (maximumCachedBytes : UInt64) :
    Accounts leases (pools++[some ⟨[],maximumCachedBytes,0,0,0,0⟩]) next freed := by
  have hsame : cachedBlocks (pools++[some ⟨[],maximumCachedBytes,0,0,0,0⟩])=
      cachedBlocks pools := by
    rw [cachedBlocks,List.flatMap_append]
    exact List.append_nil _
  refine ⟨fun id => ?_,?_,h.leased,?_,fun lease hl => ?_,fun q state hq => ?_⟩
  · rw [hsame]
    exact h.partition id
  · rw [hsame]
    exact h.space
  · rw [hsame]
    exact h.cached
  · obtain ⟨p,hlt,hp⟩ := h.owned lease hl
    rw [List.length_append]
    exact ⟨p,Nat.lt_add_right _ hlt,hp⟩
  · rcases Nat.lt_trichotomy q pools.length with hlt|heq|hgt
    · rw [List.getElem?_append_left hlt] at hq
      exact h.balanced q state hq
    · subst heq
      rw [List.getElem?_concat_length] at hq
      cases hq
      have hnone : leasedFrom leases pools.length=[] := by
        rw [leasedFrom,List.map_eq_nil_iff,List.filter_eq_nil_iff]
        intro lease hl
        obtain ⟨p,hlt,hp⟩ := h.owned lease hl
        rw [hp,decide_eq_true_eq,Option.some.injEq]
        omega
      refine ⟨?_,?_,rfl,fun _ => UInt64.zero_le⟩
      · rw [hnone]
        rfl
      · rw [hnone]
        rfl
    · rw [List.getElem?_eq_none (by rw [List.length_append,List.length_singleton]; omega)] at hq
      cases hq

end Accounting

section Programs

/-- The lease of a buffer that has a block. -/
def Buffer.lease (buffer : Buffer) : Option Lease :=
  buffer.block.map fun block => ⟨block,buffer.control⟩

/-- The leases of buffers. -/
def leases (buffers : List Buffer) : List Lease := buffers.filterMap Buffer.lease

/-- A buffer without a block has no capacity, and the logical size of a buffer
is within its capacity. -/
def Buffer.Sound (buffer : Buffer) : Prop :=
  (buffer.data=none → buffer.capacity=0) ∧ buffer.size ≤ buffer.capacity

/-- The blocks of a program are accounted for and its buffers are sound. -/
structure Consistent (world : World) : Prop where
  accounts : Accounts (leases world.buffers) world.pools world.next world.freed
  sound : ∀ buffer∈world.buffers,buffer.Sound

@[simp] theorem Buffer.emptied_lease (buffer : Buffer) : buffer.emptied.lease=none := rfl

theorem Buffer.emptied_sound (buffer : Buffer) : buffer.emptied.Sound :=
  ⟨fun _ => rfl,UInt64.le_refl 0⟩

/-- The lease of a buffer comes before those of the others. -/
theorem leases_cons (buffer : Buffer) (buffers : List Buffer) :
    leases (buffer::buffers)=buffer.lease.toList++leases buffers := by
  rw [leases,List.filterMap_cons]
  cases buffer.lease with
  | none => rfl
  | some lease => rfl

theorem leases_append (buffers buffers' : List Buffer) :
    leases (buffers++buffers')=leases buffers++leases buffers' :=
  List.filterMap_append

/-- A buffer that replaces one of the same lease changes no lease. -/
theorem leases_set {buffers : List Buffer} {i : ℕ} {buffer changed : Buffer}
    (hi : buffers[i]?=some buffer) (hsame : changed.lease=buffer.lease) :
    (leases (buffers.set i changed)).Perm (leases buffers) := by
  obtain ⟨rest,hall,hset,-⟩ := exists_rest hi
  have hbefore := hall.filterMap Buffer.lease
  have hafter := (hset changed).filterMap Buffer.lease
  change (leases (buffers.set i changed)).Perm (leases (changed::rest)) at hafter
  change (leases buffers).Perm (leases (buffer::rest)) at hbefore
  rw [leases_cons] at hbefore hafter
  rw [hsame] at hafter
  exact hafter.trans hbefore.symm

/-- Emptying a buffer takes its lease away. -/
theorem leases_emptied {buffers : List Buffer} {i : ℕ} {buffer : Buffer}
    (hi : buffers[i]?=some buffer) :
    (leases buffers).Perm (buffer.lease.toList++leases (buffers.set i buffer.emptied)) := by
  obtain ⟨rest,hall,hset,-⟩ := exists_rest hi
  have hbefore := hall.filterMap Buffer.lease
  have hafter := (hset buffer.emptied).filterMap Buffer.lease
  change (leases buffers).Perm (leases (buffer::rest)) at hbefore
  change (leases (buffers.set i buffer.emptied)).Perm (leases (buffer.emptied::rest)) at hafter
  rw [leases_cons] at hbefore hafter
  exact hbefore.trans (hafter.symm.append_left _)

/-- A lease that moves to a buffer without one stays a lease. -/
theorem leases_moved {buffers : List Buffer} {i j : ℕ} {buffer other : Buffer} (hij : i≠j)
    (hi : buffers[i]?=some buffer) (hj : buffers[j]?=some other) (hempty : buffer.lease=none) :
    (leases ((buffers.set j other.emptied).set i other)).Perm (leases buffers) := by
  have htarget : (buffers.set j other.emptied)[i]?=some buffer := by
    rw [List.getElem?_set_ne (Ne.symm hij)]
    exact hi
  obtain ⟨rest,hall,hset,-⟩ := exists_rest htarget
  have hbefore := hall.filterMap Buffer.lease
  have hafter := (hset other).filterMap Buffer.lease
  change (leases (buffers.set j other.emptied)).Perm (leases (buffer::rest)) at hbefore
  change (leases ((buffers.set j other.emptied).set i other)).Perm (leases (other::rest)) at hafter
  rw [leases_cons] at hbefore hafter
  rw [hempty] at hbefore
  exact (hafter.trans (hbefore.symm.append_left _)).trans (leases_emptied hj).symm

/-- Replacing one buffer by a sound one keeps the buffers sound. -/
theorem sound_set {buffers : List Buffer} (h : ∀ buffer∈buffers,buffer.Sound) {i : ℕ}
    {changed : Buffer} (hsound : changed.Sound) : ∀ buffer∈buffers.set i changed,buffer.Sound := by
  intro buffer hb
  rcases List.mem_or_eq_of_mem_set hb with hb|rfl
  · exact h buffer hb
  · exact hsound

/-- A buffer gives its block back to its pool, or to the allocator. -/
theorem giveBack_accounts {world : World} {buffer : Buffer} {block : Block}
    {leases : List Lease}
    (h : Accounts (⟨block,buffer.control⟩::leases) world.pools world.next world.freed) :
    Accounts leases (world.giveBack buffer block).pools (world.giveBack buffer block).next
      (world.giveBack buffer block).freed := by
  obtain ⟨p,hlt,hcontrol⟩ := h.owned _ List.mem_cons_self
  change buffer.control=some p at hcontrol
  rw [hcontrol] at h
  obtain ⟨pool,hp⟩ : ∃ pool,world.pools[p]?=some pool := ⟨_,List.getElem?_eq_getElem hlt⟩
  have hlock : world.lock buffer=pool.map fun state => (p,state) := by
    rw [World.lock,hcontrol,Option.bind_some,World.pool,hp]
    rfl
  rw [World.giveBack,hlock]
  cases pool with
  | none =>
    have hsame : world.pools.set p none=world.pools := by
      refine List.ext_getElem? fun q => ?_
      by_cases hq : q=p
      · subst hq
        rw [List.getElem?_set_self hlt,hp]
      · rw [List.getElem?_set_ne (Ne.symm hq)]
    have hdrop := h.drop hp rfl fun state heq => nomatch heq
    rw [hsame] at hdrop
    exact hdrop
  | some state =>
    simp only [Option.map_some]
    split
    · rename_i hkeeps
      exact h.keep hp hkeeps
    · refine h.drop hp rfl fun changed heq => ?_
      cases heq
      exact (h.balanced p state hp).return

/-- Giving a block back changes no buffer. -/
theorem giveBack_buffers (world : World) (buffer : Buffer) (block : Block) :
    (world.giveBack buffer block).buffers=world.buffers := by
  rw [World.giveBack]
  split
  · dsimp only
    split
    · rfl
    · rfl
  · rfl

/-- A released buffer has no lease, and the blocks stay accounted for. -/
theorem release_consistent {world : World} (h : Consistent world) {i : ℕ} {buffer : Buffer}
    (hi : world.buffers[i]?=some buffer) :
    Consistent (world.release i buffer) ∧
      ∃ left,left.lease=none ∧ (world.release i buffer).buffers=world.buffers.set i left := by
  rw [World.release]
  split
  · rename_i hblock
    refine ⟨h,buffer,by rw [Buffer.lease,hblock]; rfl,?_⟩
    obtain ⟨hlt,hget⟩ := List.getElem?_eq_some_iff.mp hi
    rw [←hget,List.set_getElem_self]
  · rename_i block hblock
    have hlease : buffer.lease=some ⟨block,buffer.control⟩ := by
      rw [Buffer.lease,hblock]
      rfl
    have hperm := leases_emptied hi
    rw [hlease] at hperm
    have haccounts := giveBack_accounts (h.accounts.perm hperm)
    dsimp only
    rw [giveBack_buffers]
    exact ⟨⟨haccounts,sound_set h.sound buffer.emptied_sound⟩,buffer.emptied,rfl,rfl⟩

/-- The capacities of sound buffers are those of their leases. -/
theorem leasedBytes_eq {buffers : List Buffer} (h : ∀ buffer∈buffers,buffer.Sound) :
    (buffers.map fun buffer => buffer.capacity.toNat).sum=
      bytes ((leases buffers).map Lease.block) := by
  induction buffers with
  | nil => rfl
  | cons buffer buffers ih =>
    obtain ⟨hfirst,hrest⟩ := List.forall_mem_cons.mp h
    rw [List.map_cons,List.sum_cons,ih hrest,leases_cons,List.map_append,bytes_append]
    congr 1
    cases hdata : buffer.data with
    | none =>
      rw [hfirst.1 hdata,Buffer.lease,Buffer.block,hdata]
      rfl
    | some data =>
      rw [Buffer.lease,Buffer.block,hdata]
      exact (Nat.add_zero _).symm

/-- The bytes allocated and not freed are those of leases and cached blocks. -/
theorem heapBytes_eq {world : World} (h : Consistent world) :
    world.heapBytes=bytes ((leases world.buffers).map Lease.block)+
      bytes (cachedBlocks world.pools) := by
  have hpools : ∀ pools : List (Option BufferPoolState),
      (pools.map fun pool =>
        ((pool.map (·.cached)).getD [] |>.map fun block => block.capacity.toNat).sum).sum=
        bytes (cachedBlocks pools) := by
    intro pools
    induction pools with
    | nil => rfl
    | cons pool pools ih =>
      have hcons : cachedBlocks (pool::pools)=cachedOf pool++cachedBlocks pools :=
        List.flatMap_cons
      rw [List.map_cons,List.sum_cons,ih,hcons,bytes_append]
      rfl
  rw [World.heapBytes,leasedBytes_eq h.sound,hpools]

/-- A pool that was not destroyed is at its place. -/
theorem pool_some {world : World} {p : ℕ} {state : BufferPoolState} :
    world.pool p=some state ↔ world.pools[p]?=some (some state) := by
  rw [World.pool]
  exact Option.join_eq_some_iff

/-- The block that `acquire` takes from the cache fits, and no cached block that
fits is smaller. -/
theorem candidate_some {state : BufferPoolState} {minimumCapacity alignment : UInt64} {k : ℕ}
    {block : Block} (h : candidate state minimumCapacity alignment=some (k,block)) :
    state.cached[k]?=some block ∧ fits minimumCapacity alignment block=true ∧
      ∀ other∈state.cached,fits minimumCapacity alignment other=true →
        block.capacity ≤ other.capacity := by
  obtain ⟨hfound,hfits⟩ := Option.filter_eq_some_iff.mp h
  obtain ⟨hk,hleast⟩ := minElement_spec (before_irrefl minimumCapacity alignment)
    (before_trans minimumCapacity alignment) hfound
  refine ⟨hk,hfits,fun other ho hother => ?_⟩
  have hnot := hleast other ho
  change fits minimumCapacity alignment block=true at hfits
  rw [before,hother,hfits] at hnot
  exact UInt64.not_lt.mp (of_decide_eq_false hnot)

/-- `acquire` takes no block from the cache only if none fits. -/
theorem candidate_none {state : BufferPoolState} {minimumCapacity alignment : UInt64}
    (h : candidate state minimumCapacity alignment=none) :
    ∀ block∈state.cached,fits minimumCapacity alignment block=false := by
  intro block hb
  obtain ⟨⟨k,found⟩,hfound⟩ := Option.ne_none_iff_exists'.mp
    (@minElement_ne_none _ (before minimumCapacity alignment) _ (List.ne_nil_of_mem hb))
  obtain ⟨-,hleast⟩ := minElement_spec (before_irrefl minimumCapacity alignment)
    (before_trans minimumCapacity alignment) hfound
  have hnofit : fits minimumCapacity alignment found=false := by
    rw [←Bool.not_eq_true]
    intro hfits
    rw [candidate,hfound,Option.filter_some,if_pos hfits] at h
    cases h
  have hnot := hleast block hb
  rw [←Bool.not_eq_true]
  intro hfits
  rw [before,hnofit,hfits] at hnot
  cases hnot

/-- An acquired buffer has a block that was cached or is new. -/
theorem acquire_consistent {world changed : World} (h : Consistent world) {p : ℕ}
    {state : BufferPoolState} (hp : world.pool p=some state)
    {maximumAlignment minimumCapacity alignment : UInt64} {memory : Bool}
    (hok : world.acquire maximumAlignment p state minimumCapacity alignment memory=.ok changed) :
    Consistent changed := by
  rw [World.acquire] at hok
  split at hok
  · cases hok
  · rename_i hsome
    split at hok
    · cases hok
    · split at hok
      · rename_i k block hcandidate
        cases hok
        obtain ⟨hk,-,-⟩ := candidate_some hcandidate
        have haccounts := h.accounts.reuse (pool_some.mp hp) hk
        refine ⟨haccounts.perm ?_,fun buffer hb => ?_⟩
        · rw [leases_append]
          exact (List.perm_append_singleton _ _).symm
        · rcases List.mem_append.mp hb with hb|hb
          · exact h.sound buffer hb
          · rw [List.mem_singleton.mp hb]
            exact ⟨fun hnone => (nomatch hnone),UInt64.zero_le⟩
      · split at hok
        · rename_i hmemory
          cases hok
          rw [Bool.and_eq_true,decide_eq_true_eq,heapBytes_eq h] at hmemory
          have hpos : 0 < minimumCapacity.toNat := by
            rcases Nat.eq_zero_or_pos minimumCapacity.toNat with hzero|hpos
            · exact absurd (UInt64.toNat_inj.mp hzero) hsome
            · exact hpos
          have haccounts := @Accounts.allocate _ _ _ _ _ _ ⟨world.next,minimumCapacity,alignment⟩
            h.accounts (pool_some.mp hp) rfl hpos hmemory.2
          refine ⟨haccounts.perm ?_,fun buffer hb => ?_⟩
          · rw [leases_append]
            exact (List.perm_append_singleton _ _).symm
          · rcases List.mem_append.mp hb with hb|hb
            · exact h.sound buffer hb
            · rw [List.mem_singleton.mp hb]
              exact ⟨fun hnone => (nomatch hnone),UInt64.zero_le⟩
        · cases hok

/-- Moving a buffer moves its lease. -/
theorem moveAssign_consistent {world : World} (h : Consistent world) {i j : ℕ}
    {buffer other : Buffer} (hi : world.buffers[i]?=some buffer)
    (hj : world.buffers[j]?=some other) : Consistent (world.moveAssign i j buffer other) := by
  rw [World.moveAssign]
  split
  · exact h
  · rename_i hij
    obtain ⟨hreleased,left,hleft,hbuffers⟩ := release_consistent h hi
    have hlt := (List.getElem?_eq_some_iff.mp hi).1
    have hsource : (world.release i buffer).buffers[j]?=some other := by
      rw [hbuffers,List.getElem?_set_ne hij]
      exact hj
    have htarget : (world.release i buffer).buffers[i]?=some left := by
      rw [hbuffers,List.getElem?_set_self hlt]
    have hsound := h.sound other (List.mem_of_getElem? hj)
    exact ⟨hreleased.accounts.perm (leases_moved hij htarget hsource hleft).symm,
      sound_set (sound_set hreleased.sound other.emptied_sound) hsound⟩

/-- One action keeps the blocks accounted for. -/
theorem step_consistent {maximumAlignment : UInt64} {world changed : World} {action : Action}
    (h : Consistent world) (hstep : step maximumAlignment world action=some changed) :
    Consistent changed := by
  cases action with
  | create maximumCachedBytes =>
    cases hstep
    exact ⟨h.accounts.create maximumCachedBytes,h.sound⟩
  | declare =>
    cases hstep
    refine ⟨h.accounts.perm ?_,fun buffer hb => ?_⟩
    · rw [leases_append]
      exact List.Perm.of_eq (List.append_nil _).symm
    · rcases List.mem_append.mp hb with hb|hb
      · exact h.sound buffer hb
      · rw [List.mem_singleton.mp hb]
        exact ⟨fun _ => rfl,UInt64.le_refl 0⟩
  | acquire p minimumCapacity alignment memory =>
    obtain ⟨state,hp,hafter⟩ := Option.map_eq_some_iff.mp hstep
    cases hacquire : world.acquire maximumAlignment p state minimumCapacity alignment memory with
    | error thrown =>
      rw [hacquire] at hafter
      cases hafter
      exact h
    | ok acquired =>
      rw [hacquire] at hafter
      cases hafter
      exact acquire_consistent h hp hacquire
  | resize i logicalSize =>
    obtain ⟨buffer,hi,hafter⟩ := Option.map_eq_some_iff.mp hstep
    rw [World.resize] at hafter
    split at hafter
    · cases hafter
      exact h
    · rename_i hfits
      cases hafter
      have hsound := h.sound buffer (List.mem_of_getElem? hi)
      have hperm := @leases_set _ _ _ { buffer with size := logicalSize } hi rfl
      refine ⟨h.accounts.perm hperm.symm,sound_set h.sound ⟨hsound.1,?_⟩⟩
      exact UInt64.not_lt.mp hfits
  | moveConstruct j =>
    obtain ⟨other,hj,hafter⟩ := Option.map_eq_some_iff.mp hstep
    cases hafter
    have hsound := h.sound other (List.mem_of_getElem? hj)
    refine ⟨h.accounts.perm ?_,fun buffer hb => ?_⟩
    · refine (leases_emptied hj).trans ?_
      rw [World.moveConstruct,leases_append]
      refine List.perm_append_comm.trans (List.Perm.append_left _ (List.Perm.of_eq ?_))
      rw [leases_cons]
      exact (List.append_nil _).symm
    · rcases List.mem_append.mp hb with hb|hb
      · exact sound_set h.sound other.emptied_sound buffer hb
      · rw [List.mem_singleton.mp hb]
        exact hsound
  | moveAssign i j =>
    obtain ⟨buffer,hi,hafter⟩ := Option.bind_eq_some_iff.mp hstep
    obtain ⟨other,hj,hafter⟩ := Option.map_eq_some_iff.mp hafter
    cases hafter
    exact moveAssign_consistent h hi hj
  | release i =>
    obtain ⟨buffer,hi,hafter⟩ := Option.map_eq_some_iff.mp hstep
    cases hafter
    exact (release_consistent h hi).1
  | clearCached p =>
    obtain ⟨state,hp,hafter⟩ := Option.map_eq_some_iff.mp hstep
    cases hafter
    have hbalanced := h.accounts.balanced p state (pool_some.mp hp)
    refine ⟨h.accounts.empty (pool_some.mp hp) rfl fun changed heq => ?_,h.sound⟩
    cases heq
    exact ⟨hbalanced.buffers,hbalanced.leased,rfl,fun _ => UInt64.zero_le⟩
  | destroyPool p =>
    obtain ⟨state,hp,hafter⟩ := Option.map_eq_some_iff.mp hstep
    cases hafter
    exact ⟨h.accounts.empty (pool_some.mp hp) rfl fun changed heq => (nomatch heq),h.sound⟩

/-- The blocks of every program are accounted for. -/
theorem reachable_consistent {maximumAlignment : UInt64} {world : World}
    (h : (machine maximumAlignment).Reachable world) : Consistent world := by
  refine Machine.Reachable.induct (I:=Consistent) (fun world hinit => ?_)
    (fun world action changed hworld hstep => step_consistent hworld hstep) h
  cases hinit
  refine ⟨⟨fun id => ?_,?_,?_,?_,?_,fun p state hp => ?_⟩,fun buffer hb => nomatch hb⟩
  · rfl
  · exact Nat.two_pow_pos 64
  · exact fun lease hl => nomatch hl
  · exact fun block hb => nomatch hb
  · exact fun lease hl => nomatch hl
  · cases hp

/-- The buffer that `acquire` makes of a block. -/
def Block.acquired (block : Block) (p : ℕ) : Buffer :=
  ⟨some block.data,0,block.capacity,block.alignment,some p⟩

/-- Buffers with a block of a pool. -/
def World.live (world : World) (p : ℕ) : List Buffer :=
  world.buffers.filter fun buffer => buffer.data.isSome && buffer.control==some p

/-- The counters of a pool are exact, and what they count of a buffer or a
cached block can be taken off them. -/
structure Exact (world : World) (p : ℕ) (state : BufferPoolState) : Prop where
  buffers : state.buffersInUse.toNat=(world.live p).length
  bytes : state.bytesInUse.toNat=((world.live p).map fun buffer => buffer.capacity.toNat).sum
  cached : state.cachedBytes.toNat=(state.cached.map fun block => block.capacity.toNat).sum
  limit : state.maximumCachedBytes≠0 → state.cachedBytes ≤ state.maximumCachedBytes
  returned : ∀ buffer∈world.live p,1 ≤ state.buffersInUse ∧ buffer.capacity ≤ state.bytesInUse
  reused : ∀ block∈state.cached,block.capacity ≤ state.cachedBytes

/-- The blocks leased from a pool are those of its live buffers. -/
theorem live_blocks (buffers : List Buffer) (p : ℕ) :
    leasedFrom (leases buffers) p=
      (buffers.filter fun buffer => buffer.data.isSome && buffer.control==some p).filterMap
        Buffer.block := by
  induction buffers with
  | nil => rfl
  | cons buffer buffers ih =>
    cases hdata : buffer.data with
    | none =>
      have hlease : buffer.lease=none := by
        rw [Buffer.lease,Buffer.block,hdata]
        rfl
      rw [leases_cons,hlease,Option.toList_none,List.nil_append,ih,List.filter_cons_of_neg]
      rw [hdata]
      exact Bool.false_ne_true
    | some data =>
      have hblock : buffer.block=some ⟨data,buffer.capacity,buffer.alignment⟩ := by
        rw [Buffer.block,hdata]
        rfl
      have hlease : buffer.lease=
          some ⟨⟨data,buffer.capacity,buffer.alignment⟩,buffer.control⟩ := by
        rw [Buffer.lease,hblock]
        rfl
      rw [leases_cons,hlease,Option.toList_some,List.singleton_append,leasedFrom_cons,ih,
        List.filter_cons,hdata,Option.isSome_some,Bool.true_and]
      by_cases hcontrol : buffer.control=some p
      · rw [if_pos hcontrol,if_pos (beq_iff_eq.mpr hcontrol),List.filterMap_cons_some hblock]
      · rw [if_neg hcontrol,if_neg (fun heq => hcontrol (beq_iff_eq.mp heq))]

/-- Live buffers have one block each, of their own capacity. -/
theorem live_counts {buffers : List Buffer} (h : ∀ buffer∈buffers,buffer.data.isSome=true) :
    (buffers.filterMap Buffer.block).length=buffers.length ∧
      bytes (buffers.filterMap Buffer.block)=
        (buffers.map fun buffer => buffer.capacity.toNat).sum := by
  induction buffers with
  | nil => exact ⟨rfl,rfl⟩
  | cons buffer buffers ih =>
    obtain ⟨hfirst,hrest⟩ := List.forall_mem_cons.mp h
    obtain ⟨hlength,hbytes⟩ := ih hrest
    obtain ⟨data,hdata⟩ := Option.isSome_iff_exists.mp hfirst
    have hblock : buffer.block=some ⟨data,buffer.capacity,buffer.alignment⟩ := by
      rw [Buffer.block,hdata]
      rfl
    rw [List.filterMap_cons_some hblock,List.length_cons,List.length_cons,hlength,bytes_cons,
      hbytes,List.map_cons,List.sum_cons]
    exact ⟨rfl,rfl⟩

/-- The numbers of the leased blocks are those in buffers. -/
theorem leases_data (buffers : List Buffer) :
    (leases buffers).map (fun lease => lease.block.data)=buffers.filterMap Buffer.data := by
  induction buffers with
  | nil => rfl
  | cons buffer buffers ih =>
    rw [leases_cons,List.map_append,ih,List.filterMap_cons]
    cases hdata : buffer.data with
    | none =>
      rw [Buffer.lease,Buffer.block,hdata]
      rfl
    | some data =>
      rw [Buffer.lease,Buffer.block,hdata]
      rfl

/-- The counters of the pools of a program are exact. -/
theorem Consistent.exact {world : World} (h : Consistent world) {p : ℕ} {state : BufferPoolState}
    (hp : world.pool p=some state) : Exact world p state := by
  obtain ⟨hbuffers,hleased,hcached,hlimit⟩ := h.accounts.balanced p state (pool_some.mp hp)
  have hsome : ∀ buffer∈world.live p,buffer.data.isSome=true := fun buffer hb =>
    (Bool.and_eq_true_iff.mp (List.mem_filter.mp hb).2).1
  obtain ⟨hlength,hbytes⟩ := live_counts hsome
  have hlive : leasedFrom (leases world.buffers) p=(world.live p).filterMap Buffer.block :=
    live_blocks world.buffers p
  rw [hlive,hlength] at hbuffers
  rw [hlive,hbytes] at hleased
  refine ⟨hbuffers,hleased,hcached,hlimit,fun buffer hb => ⟨?_,?_⟩,fun block hb => ?_⟩
  · have hpos := List.length_pos_of_mem hb
    rw [UInt64.le_iff_toNat_le,hbuffers]
    exact hpos
  · rw [UInt64.le_iff_toNat_le,hleased]
    exact List.le_sum_of_mem (List.mem_map_of_mem hb)
  · rw [UInt64.le_iff_toNat_le,hcached]
    exact List.le_sum_of_mem (List.mem_map_of_mem hb)

/-- An acquired buffer is as large and as aligned as requested. -/
theorem acquire_serves {world changed : World} {p : ℕ} {state : BufferPoolState}
    {maximumAlignment minimumCapacity alignment : UInt64} {memory : Bool}
    (hok : world.acquire maximumAlignment p state minimumCapacity alignment memory=.ok changed) :
    ∃ block : Block,changed.buffers=world.buffers++[block.acquired p] ∧
      minimumCapacity ≤ block.capacity ∧ alignment ≤ block.alignment := by
  rw [World.acquire] at hok
  split at hok
  · cases hok
  · split at hok
    · cases hok
    · split at hok
      · rename_i k block hcandidate
        cases hok
        obtain ⟨-,hfits,-⟩ := candidate_some hcandidate
        rw [fits,Bool.and_eq_true,decide_eq_true_eq,decide_eq_true_eq] at hfits
        exact ⟨block,rfl,hfits⟩
      · split at hok
        · cases hok
          exact ⟨⟨world.next,minimumCapacity,alignment⟩,rfl,UInt64.le_refl _,UInt64.le_refl _⟩
        · cases hok

/-- A valid request that some cached block fits is served by the smallest such
block, without an allocation. -/
theorem acquire_reuses {world : World} {p : ℕ} {state : BufferPoolState}
    (hp : world.pool p=some state) {maximumAlignment minimumCapacity alignment : UInt64}
    {memory : Bool} (hsome : minimumCapacity≠0)
    (hvalid : validAlignment maximumAlignment alignment=true)
    (hfits : ∃ block∈state.cached,fits minimumCapacity alignment block=true) :
    ∃ changed left,∃ block∈state.cached,
      world.acquire maximumAlignment p state minimumCapacity alignment memory=.ok changed ∧
      changed.buffers=world.buffers++[block.acquired p] ∧ changed.next=world.next ∧
      changed.freed=world.freed ∧ changed.pool p=some left ∧
      state.cached.Perm (block::left.cached) ∧ left.allocations=state.allocations ∧
      ∀ other∈state.cached,fits minimumCapacity alignment other=true →
        block.capacity ≤ other.capacity := by
  rw [World.acquire,if_neg hsome,hvalid]
  cases hcandidate : candidate state minimumCapacity alignment with
  | none =>
    obtain ⟨block,hb,hblock⟩ := hfits
    rw [candidate_none hcandidate block hb] at hblock
    cases hblock
  | some found =>
    obtain ⟨k,block⟩ := found
    obtain ⟨hk,-,hleast⟩ := candidate_some hcandidate
    obtain ⟨rest,hall,-,herase⟩ := exists_rest hk
    have hlt := (List.getElem?_eq_some_iff.mp (pool_some.mp hp)).1
    refine ⟨_,state.reuse k block,block,List.mem_of_getElem? hk,rfl,rfl,rfl,rfl,?_,
      hall.trans (herase.symm.cons block),rfl,hleast⟩
    exact pool_some.mpr (List.getElem?_set_self hlt)

/-- In every program, every block allocated so far is in use, cached or freed,
and once, the counters of every pool are exact and within its limit, and
`acquire` gives what was requested, from the cache whenever some cached block
fits. -/
theorem pool_accounting {maximumAlignment : UInt64} {world : World}
    (h : (machine maximumAlignment).Reachable world) :
    (∀ id,(world.buffers.filterMap Buffer.data).count id+
      ((cachedBlocks world.pools).map Block.data).count id+world.freed.count id=
        if id < world.next then 1 else 0) ∧
    ∀ p state,world.pool p=some state → Exact world p state ∧
      ∀ minimumCapacity alignment memory,
        (∀ changed,
          world.acquire maximumAlignment p state minimumCapacity alignment memory=.ok changed →
          ∃ block : Block,changed.buffers=world.buffers++[block.acquired p] ∧
            minimumCapacity ≤ block.capacity ∧ alignment ≤ block.alignment) ∧
        (minimumCapacity≠0 → validAlignment maximumAlignment alignment=true →
          (∃ block∈state.cached,fits minimumCapacity alignment block=true) →
          ∃ changed left,∃ block∈state.cached,
            world.acquire maximumAlignment p state minimumCapacity alignment memory=.ok changed ∧
            changed.buffers=world.buffers++[block.acquired p] ∧ changed.next=world.next ∧
            changed.freed=world.freed ∧ changed.pool p=some left ∧
            state.cached.Perm (block::left.cached) ∧ left.allocations=state.allocations ∧
            ∀ other∈state.cached,fits minimumCapacity alignment other=true →
              block.capacity ≤ other.capacity) := by
  have hworld := reachable_consistent h
  refine ⟨fun id => ?_,fun p state hp => ⟨hworld.exact hp,fun minimumCapacity alignment memory =>
    ⟨fun changed hok => acquire_serves hok,fun hsome hvalid hfits => ?_⟩⟩⟩
  · rw [←leases_data]
    exact hworld.accounts.partition id
  · exact acquire_reuses hp hsome hvalid hfits

/-- A program whose second buffer outlives the pool, and that moves, resizes and
releases buffers. -/
def outlivingActions : List Action :=
  [.create 100,.acquire 0 64 16 true,.acquire 0 64 32 true,.declare,.resize 0 8,.moveAssign 2 0,
    .moveAssign 2 2,.release 2,.acquire 0 32 16 true,.release 3,.clearCached 0,.destroyPool 0,
    .release 1]

/-- Both blocks of that program are freed once. -/
theorem outliving_accounting : ∃ world,
    (machine 16).run ⟨[],[],0,[]⟩ outlivingActions=some world ∧ world.freed=[0,1] ∧
      ∀ id,(world.buffers.filterMap Buffer.data).count id+
        ((cachedBlocks world.pools).map Block.data).count id+world.freed.count id=
          if id < 2 then 1 else 0 := by
  have hrun : ((machine 16).run ⟨[],[],0,[]⟩ outlivingActions).isSome=true := by decide +kernel
  obtain ⟨world,hworld⟩ := Option.isSome_iff_exists.mp hrun
  have hfreed : ((machine 16).run ⟨[],[],0,[]⟩ outlivingActions).map
      (fun world => (world.freed,world.next))=some ([0,1],2) := by decide +kernel
  rw [hworld,Option.map_some,Option.some.injEq,Prod.mk.injEq] at hfreed
  have haccounts := (pool_accounting (Machine.reachable_of_run rfl hworld)).1
  rw [hfreed.2] at haccounts
  exact ⟨world,hworld,hfreed.1,haccounts⟩

end Programs

end Hllm.BufferPool
