import Hllm.LargestSums
import Mathlib.Data.UInt
import Mathlib.Tactic.Linarith

/-!
# Checked memory accounting

Sizes are 64-bit machine words. Every addition is checked and throws instead
of wrapping. Each sum the admission code forms is therefore either exact or
an error, and an error means that the exact value needs more than 64 bits
and so exceeds every capacity. Pinned bytes are part of the host bytes.
-/

namespace Hllm.MemoryAccounting

open LargestSums

/-- Failure categories of the runtime. -/
inductive ErrorCode
  | invalidRequest
  | incompatibleWorker
  | resourceExhausted
  | deadlineExceeded
  | cancelled
  | internal
  deriving DecidableEq,Repr

/-- A thrown runtime error. -/
structure Error where
  /-- Category translated into wire codes. -/
  code : ErrorCode
  /-- Text of the error. -/
  message : String
  deriving DecidableEq,Repr

/-- Largest value of `std::size_t`. -/
def sizeMax : UInt64 := 18446744073709551615

/-- Addition that throws instead of wrapping. -/
def addOrThrow (message : String) (a b : UInt64) : Except Error UInt64 :=
  if sizeMax-a < b then .error ⟨.resourceExhausted,message⟩ else .ok (a+b)

/-- `checked_add` -/
def checkedAdd : UInt64 → UInt64 → Except Error UInt64 := addOrThrow "stage memory size overflow"

/-- Domains with a budget of their own. -/
inductive MemoryDomain
  | host
  | device
  | hostPinned
  | unified
  deriving DecidableEq,Repr

/-- Bytes in each domain. -/
structure MemoryAmounts where
  /-- Host bytes, pinned ones included. -/
  hostBytes : UInt64
  /-- Device bytes. -/
  deviceBytes : UInt64
  /-- Pinned part of the host bytes. -/
  pinnedHostBytes : UInt64
  /-- Unified bytes, disjoint from host and device. -/
  unifiedBytes : UInt64
  deriving DecidableEq,Repr

/-- The amount in one domain. -/
def MemoryAmounts.bytes (a : MemoryAmounts) : MemoryDomain → UInt64
  | .host => a.hostBytes
  | .device => a.deviceBytes
  | .hostPinned => a.pinnedHostBytes
  | .unified => a.unifiedBytes

/-- The amount in one domain as an unbounded natural. -/
def MemoryAmounts.total (a : MemoryAmounts) (d : MemoryDomain) : ℕ := (a.bytes d).toNat

/-- Pinned bytes are counted in the host bytes too. -/
def MemoryAmounts.PinnedInHost (a : MemoryAmounts) : Prop := a.total .hostPinned ≤ a.total .host

/-- Memory of one request: kept for its lifetime, and used by one pass. -/
structure SequenceMemory where
  /-- Held by the request until it is retired. -/
  cache : MemoryAmounts
  /-- Temporaries of a single pass. -/
  workspace : MemoryAmounts
  deriving DecidableEq,Repr

/-- The addition `add_memory` makes in each domain. -/
def addBytes : UInt64 → UInt64 → Except Error UInt64 := addOrThrow "memory accounting overflow"

/-- `add_memory` -/
def addMemory (a b : MemoryAmounts) : Except Error MemoryAmounts := do
  let host ← addBytes a.hostBytes b.hostBytes
  let device ← addBytes a.deviceBytes b.deviceBytes
  let pinned ← addBytes a.pinnedHostBytes b.pinnedHostBytes
  let unified ← addBytes a.unifiedBytes b.unifiedBytes
  pure ⟨host,device,pinned,unified⟩

/-- `require_memory` -/
def requireMemory (used capacity : MemoryAmounts) : Except Error Unit :=
  if used.hostBytes < used.pinnedHostBytes then
    .error ⟨.internal,"pinned memory must also be counted in host memory"⟩
  else if capacity.hostBytes < used.hostBytes ∨ capacity.deviceBytes < used.deviceBytes ∨
      capacity.pinnedHostBytes < used.pinnedHostBytes ∨
      capacity.unifiedBytes < used.unifiedBytes then
    .error ⟨.resourceExhausted,
      "allocation exceeds host, device, pinned-host, or unified memory budget"⟩
  else .ok ()

/-- The `top` lambda of `largest_workspaces`: the checked sum of the leading
entries after sorting in descending order. -/
def topWorkspaces (workspaces : List MemoryAmounts) (rows : ℕ) (d : MemoryDomain) :
    Except Error UInt64 :=
  let values := workspaces.map (·.bytes d)
  let count := min rows values.length
  ((values.insertionSort (·≥·)).take count).foldlM checkedAdd 0

/-- `largest_workspaces` -/
def largestWorkspaces (workspaces : List MemoryAmounts) (rows : ℕ) :
    Except Error MemoryAmounts := do
  let host ← topWorkspaces workspaces rows .host
  let device ← topWorkspaces workspaces rows .device
  let pinned ← topWorkspaces workspaces rows .hostPinned
  let unified ← topWorkspaces workspaces rows .unified
  pure ⟨host,device,pinned,unified⟩

/-- A computation returns a natural if it fits into 64 bits and otherwise
throws that resources are exhausted. -/
def Exact (r : Except Error UInt64) (n : ℕ) : Prop :=
  (n<2^64 ∧ ∃ c,r=.ok c ∧ c.toNat=n) ∨
  (2^64 ≤ n ∧ ∃ message,r=.error ⟨.resourceExhausted,message⟩)

/-- The same in every domain at once. -/
def ExactAmounts (r : Except Error MemoryAmounts) (n : MemoryDomain → ℕ) : Prop :=
  ((∀ d,n d<2^64) ∧ ∃ a,r=.ok a ∧ ∀ d,a.total d=n d) ∨
  ((∃ d,2^64 ≤ n d) ∧ ∃ message,r=.error ⟨.resourceExhausted,message⟩)

/-- Checked addition is exact. -/
theorem addOrThrow_exact (message : String) (a b : UInt64) :
    Exact (addOrThrow message a b) (a.toNat+b.toNat) := by
  have ha := a.toNat_lt
  have hmax : (sizeMax-a).toNat=2^64-1-a.toNat := by
    rw [UInt64.toNat_sub_of_le]
    · rfl
    · rw [UInt64.le_iff_toNat_le]
      exact Nat.le_of_lt_succ ha
  unfold addOrThrow
  split
  · rename_i h
    rw [UInt64.lt_iff_toNat_lt,hmax] at h
    exact .inr ⟨by omega,message,rfl⟩
  · rename_i h
    rw [UInt64.lt_iff_toNat_lt,hmax] at h
    refine .inl ⟨by omega,a+b,rfl,?_⟩
    rw [UInt64.toNat_add]
    exact Nat.mod_eq_of_lt (by omega)

/-- A checked sum of a list is exact. -/
theorem foldlM_checkedAdd_exact (l : List UInt64) (a : UInt64) :
    Exact (l.foldlM checkedAdd a) (a.toNat+(l.map UInt64.toNat).sum) := by
  induction l generalizing a with
  | nil => exact .inl ⟨by simpa using a.toNat_lt,a,rfl,by simp⟩
  | cons x l ih =>
    rw [List.foldlM_cons,List.map_cons,List.sum_cons,←Nat.add_assoc]
    rcases addOrThrow_exact "stage memory size overflow" a x with ⟨-,c,hc,hn⟩|⟨hn,message,hc⟩
    · have hstep : checkedAdd a x=.ok c := hc
      rw [hstep,←hn]
      exact ih c
    · have hstep : checkedAdd a x=.error ⟨.resourceExhausted,message⟩ := hc
      rw [hstep]
      exact .inr ⟨by omega,message,rfl⟩

/-- The sorted prefix of machine words is the sorted prefix of their values. -/
theorem sum_take_insertionSort (l : List UInt64) (k : ℕ) :
    (((l.insertionSort (·≥·)).take k).map UInt64.toNat).sum=
      largestSum k (l.map UInt64.toNat) := by
  rw [largestSum,List.map_take,
    List.map_insertionSort (r:=(·≥·)) (s:=(·≥·)) UInt64.toNat l
      fun a _ b _ => UInt64.le_iff_toNat_le]

/-- Each domain's reserved workspace is the exact sum of its largest entries. -/
theorem topWorkspaces_exact (workspaces : List MemoryAmounts) (rows : ℕ) (d : MemoryDomain) :
    Exact (topWorkspaces workspaces rows d) (largestSum rows (workspaces.map (·.total d))) := by
  have h := foldlM_checkedAdd_exact
    (((workspaces.map (·.bytes d)).insertionSort (·≥·)).take
      (min rows (workspaces.map (·.bytes d)).length)) 0
  rw [sum_take_insertionSort,List.map_map] at h
  have hcount : largestSum (min rows (workspaces.map (·.bytes d)).length)
      (workspaces.map (UInt64.toNat ∘ (·.bytes d)))=
      largestSum rows (workspaces.map (·.total d)) := by
    rw [largestSum,largestSum,List.length_map,
      ←@List.length_map _ _ workspaces (UInt64.toNat ∘ (·.bytes d)),
      ←List.length_insertionSort (·≥·),←List.take_eq_take_min]
    rfl
  rw [hcount] at h
  simpa [topWorkspaces] using h

/-- Four exact computations make an exact amount. -/
theorem exactAmounts_of_exact {rs : MemoryDomain → Except Error UInt64}
    {n : MemoryDomain → ℕ} (h : ∀ d,Exact (rs d) (n d)) :
    ExactAmounts (do
      let host ← rs .host
      let device ← rs .device
      let pinned ← rs .hostPinned
      let unified ← rs .unified
      pure ⟨host,device,pinned,unified⟩) n := by
  have hall : ∀ {r : Except Error MemoryAmounts} {message : String} (d : MemoryDomain),
      2^64 ≤ n d → r=.error ⟨.resourceExhausted,message⟩ → ExactAmounts r n :=
    fun d hd hr => .inr ⟨⟨d,hd⟩,_,hr⟩
  rcases h .host with ⟨hh,host,hhost,hhn⟩|⟨hh,message,hhost⟩
  · rcases h .device with ⟨hd,device,hdevice,hdn⟩|⟨hd,message,hdevice⟩
    · rcases h .hostPinned with ⟨hp,pinned,hpinned,hpn⟩|⟨hp,message,hpinned⟩
      · rcases h .unified with ⟨hu,unified,hunified,hun⟩|⟨hu,message,hunified⟩
        · refine .inl ⟨fun d => by cases d <;> assumption,⟨host,device,pinned,unified⟩,?_,?_⟩
          · rw [hhost,hdevice,hpinned,hunified]
            rfl
          · intro d
            cases d <;> assumption
        · exact hall .unified hu (by rw [hhost,hdevice,hpinned,hunified]; rfl)
      · exact hall .hostPinned hp (by rw [hhost,hdevice,hpinned]; rfl)
    · exact hall .device hd (by rw [hhost,hdevice]; rfl)
  · exact hall .host hh (by rw [hhost]; rfl)

/-- `add_memory` is exact. -/
theorem addMemory_exact (a b : MemoryAmounts) :
    ExactAmounts (addMemory a b) fun d => a.total d+b.total d :=
  @exactAmounts_of_exact (fun d => addBytes (a.bytes d) (b.bytes d)) _
    fun d => addOrThrow_exact _ (a.bytes d) (b.bytes d)

/-- `largest_workspaces` is exact. -/
theorem largestWorkspaces_exact (workspaces : List MemoryAmounts) (rows : ℕ) :
    ExactAmounts (largestWorkspaces workspaces rows)
      fun d => largestSum rows (workspaces.map (·.total d)) :=
  exactAmounts_of_exact fun d => topWorkspaces_exact workspaces rows d

/-- A returned value is handed to the continuation. -/
theorem ok_bind {α β : Type} (a : α) (f : α → Except Error β) : (Except.ok a >>= f)=f a := rfl

/-- A check before the rest. -/
theorem check_iff {ε α : Type} {p : Prop} [Decidable p] {error : ε} {rest : Except ε α}
    {a : α} : (if p then .error error else rest)=.ok a ↔ ¬p ∧ rest=.ok a := by
  by_cases hp : p
  · rw [if_pos hp]
    constructor
    · intro h
      cases h
    · exact fun h => absurd hp h.1
  · rw [if_neg hp]
    exact ⟨fun h => ⟨hp,h⟩,fun h => h.2⟩

/-- A call followed by the rest. -/
theorem call_bind {ε α β : Type} {x : Except ε β} {rest : β → Except ε α} {a : α} :
    (x >>= rest)=.ok a ↔ ∃ b,x=.ok b ∧ rest b=.ok a := by
  cases x with
  | error e =>
    constructor
    · intro h
      cases h
    · rintro ⟨b,h,-⟩
      cases h
  | ok b =>
    constructor
    · exact fun h => ⟨b,rfl,h⟩
    · rintro ⟨b',h,hrest⟩
      cases h
      exact hrest

/-- A thrown error skips the continuation. -/
theorem error_bind {α β : Type} (e : Error) (f : α → Except Error β) :
    (Except.error e >>= f)=.error e := rfl

/-- Adding an exact amount to a known one is exact. -/
theorem ExactAmounts.bind_addMemory {r : Except Error MemoryAmounts} {n : MemoryDomain → ℕ}
    (h : ExactAmounts r n) (a : MemoryAmounts) :
    ExactAmounts (r >>= addMemory a) fun d => a.total d+n d := by
  rcases h with ⟨-,b,rfl,hb⟩|⟨⟨d,hd⟩,message,rfl⟩
  · have hn : n=b.total := funext fun d => (hb d).symm
    rw [ok_bind,hn]
    exact addMemory_exact a b
  · rw [error_bind]
    exact .inr ⟨⟨d,hd.trans (Nat.le_add_left _ _)⟩,message,rfl⟩

/-- What `require_memory` accepts. -/
theorem requireMemory_ok_iff (used capacity : MemoryAmounts) :
    requireMemory used capacity=.ok () ↔
      used.PinnedInHost ∧ ∀ d,used.total d ≤ capacity.total d := by
  have hforall : (∀ d,used.total d ≤ capacity.total d) ↔
      used.hostBytes ≤ capacity.hostBytes ∧ used.deviceBytes ≤ capacity.deviceBytes ∧
      used.pinnedHostBytes ≤ capacity.pinnedHostBytes ∧
      used.unifiedBytes ≤ capacity.unifiedBytes := by
    simp only [UInt64.le_iff_toNat_le]
    constructor
    · exact fun h => ⟨h .host,h .device,h .hostPinned,h .unified⟩
    · rintro ⟨hh,hd,hp,hu⟩ d
      cases d <;> assumption
  have hpinned : used.PinnedInHost ↔ used.pinnedHostBytes ≤ used.hostBytes :=
    UInt64.le_iff_toNat_le.symm
  rw [hforall,hpinned]
  unfold requireMemory
  split
  · rename_i h
    simp [UInt64.not_le.mpr h]
  · rename_i h
    split
    · rename_i hover
      simp only [reduceCtorEq,false_iff,not_and_or,UInt64.not_le]
      exact .inr hover
    · rename_i hover
      simp only [not_or,UInt64.not_lt] at h hover
      exact ⟨fun _ => ⟨h,hover⟩,fun _ => rfl⟩

end Hllm.MemoryAccounting
