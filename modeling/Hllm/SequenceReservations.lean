import Hllm.SequenceMemory
import Mathlib.Tactic.GCongr

/-!
# What a reservation amounts to

The terms of `sequence_memory` in unbounded numbers, and what
`allocate_sequence` creates. A reservation that is returned has exactly these
amounts, so no product or sum in it has wrapped, and its kept part is what the
sequence holds and what is reserved for the buffers of the handlers.
-/

namespace Hllm.SequenceReservations

open ControlModel (queryRows)
open MemoryAccounting SequenceMemory

section Needs

variable (s : NativeStage)

/-- What `request_transport_bytes` reserves for the buffers of the handlers, as a
number: the formula itself, not what Generate and Execute hold at some moment. -/
def transportNeed (tokens rows : ℕ) : ℕ := tokens*24+rows*s.hiddenSize.toNat*6

/-- Bytes of the pinned staging buffer. -/
def stagingNeed (tokens : ℕ) : ℕ :=
  if s.pinned=true ∧ s.whole=false then min 8388608 (tokens*s.hiddenSize.toNat*2) else 0

/-- Dense temporaries of a pass on an accelerator. -/
def denseNeed (tokens rows : ℕ) : ℕ :=
  rows*(s.hiddenSize.toNat*32+s.attentionHeads.toNat*s.headDimension.toNat*16+
      s.intermediateSize.toNat*16)*4+
    tokens*(s.attentionHeads.toNat*s.headDimension.toNat*16)*4

/-- Attention scores of a pass on an accelerator. -/
def attentionNeed (tokens rows : ℕ) : ℕ := rows*tokens*s.attentionHeads.toNat*16

/-- What a request keeps in each domain. -/
def keptNeed (tokens rows : ℕ) (d : MemoryDomain) : ℕ :=
  match s.backend,d with
  | .cpu,.host | .mlx,.unified => tokens*s.kvPerToken+transportNeed s tokens rows
  | .cuda,.host => stagingNeed s tokens+transportNeed s tokens rows
  | .cuda,.device => tokens*s.kvPerToken
  | .cuda,.hostPinned => stagingNeed s tokens
  | _,_ => 0

/-- What a pass needs in each domain. -/
def passingNeed (tokens rows : ℕ) (d : MemoryDomain) : ℕ :=
  match s.backend,d with
  | .cpu,.host =>
    rows*(s.hiddenSize.toNat*24+s.attentionHeads.toNat*s.headDimension.toNat*12+
      s.intermediateSize.toNat*6)*4+tokens*4*4+s.vocab.toNat*32+65536
  | .mlx,.unified =>
    denseNeed s tokens rows+attentionNeed s tokens rows+tokens*s.kvPerToken+
      (rows*s.hiddenSize.toNat*12+rows*16)+(s.vocab.toNat*64+8388608)+s.castWorkspace.toNat
  | .cuda,.host => rows*s.hiddenSize.toNat*6+rows*16+65536+s.vocab.toNat*32
  | .cuda,.device =>
    denseNeed s tokens rows+attentionNeed s tokens rows+s.vocab.toNat*32+8388608+
      s.castWorkspace.toNat
  | _,_ => 0

end Needs

section Allocations

/-- The keys and values of one layer, each with these dimensions. -/
structure LayerCache where
  heads : ℕ
  tokens : ℕ
  dimension : ℕ

/-- What a sequence owns. -/
structure Allocation where
  /-- One cache for each layer. -/
  caches : List LayerCache
  /-- Bytes of the pinned buffer, zero without one. -/
  staging : UInt64

/-- `cache_size` of a layer on the CPU, in floats. -/
def cacheSize (length heads dimension : UInt64) : Except Error UInt64 :=
  if length=0 ∨ heads=0 ∨ dimension=0 then
    .error ⟨.internal,"KV cache dimensions must be positive"⟩
  else if sizeMax/dimension < heads ∨ sizeMax/(heads*dimension) < length then
    .error ⟨.internal,"KV cache size overflows size_t"⟩
  else .ok (length*heads*dimension)

variable (s : NativeStage)

/-- The checks on the dimensions of one layer. -/
def layerDimensions (tokens : UInt64) : Except Error Unit :=
  match s.backend with
  | .cpu => do
    let _ ← cacheSize tokens s.keyValueHeads s.headDimension
    pure ()
  | .mlx => do
    dimension 2147483647 "MLX" s.keyValueHeads
    dimension 2147483647 "MLX" tokens
    dimension 2147483647 "MLX" s.headDimension
  | .cuda => do
    dimension 9223372036854775807 "ATen" s.keyValueHeads
    dimension 9223372036854775807 "ATen" tokens
    dimension 9223372036854775807 "ATen" s.headDimension

/-- One round of the loop over the layers in `allocate_sequence`. -/
def layerCache (tokens : UInt64) : Except Error LayerCache := do
  layerDimensions s tokens
  pure ⟨s.keyValueHeads.toNat,tokens.toNat,s.headDimension.toNat⟩

/-- Bytes of the buffer `allocate_sequence` pins. Only CUDA has one. -/
def sequenceStaging (tokens : UInt64) : Checked :=
  match s.backend with
  | .cuda => stagingBytes s tokens
  | .cpu | .mlx => .ok 0

/-- `allocate_sequence` -/
def allocateSequence (tokens : UInt64) : Except Error Allocation := do
  let _ ← s.sequenceMemory tokens tokens
  let staging ← sequenceStaging s tokens
  let caches ← (List.replicate s.layers.toNat ()).mapM fun _ => layerCache s tokens
  pure ⟨caches,staging⟩

/-- Bytes of the keys and values of one layer. -/
def LayerCache.bytes (cache : LayerCache) : ℕ :=
  2*(cache.heads*cache.tokens*cache.dimension*s.elementBytes.toNat)

/-- What a sequence holds in each domain, with the buffers of the handlers at the
number `request_transport_bytes` gives for them. -/
def Allocation.held (a : Allocation) (tokens rows : ℕ) (d : MemoryDomain) : ℕ :=
  (if d=s.domain then (a.caches.map (LayerCache.bytes s)).sum else 0)+
    (if d=.host ∨ d=.hostPinned then a.staging.toNat else 0)+
    if d=(if s.backend=.mlx then .unified else .host) then transportNeed s tokens rows else 0

end Allocations

section Exact

/-- A size, if computed, is the number. -/
def Exact (c : Checked) (n : ℕ) : Prop := ∀ w,c=.ok w → w.toNat=n

/-- A given size. -/
theorem exact_word (w : UInt64) : Exact (word w) w.toNat := by
  intro x hx
  cases hx
  rfl

variable {a b : Checked} {m n : ℕ}

/-- A product. -/
theorem exact_mul (ha : Exact a m) (hb : Exact b n) : Exact (mul a b) (m*n) := by
  intro w hw
  obtain ⟨x,y,hx,hy,hvalue⟩ := mul_iff.mp hw
  rw [hvalue,ha x hx,hb y hy]

/-- A sum. -/
theorem exact_add (ha : Exact a m) (hb : Exact b n) : Exact (add a b) (m+n) := by
  intro w hw
  obtain ⟨x,y,hx,hy,hvalue⟩ := add_iff.mp hw
  rw [hvalue,ha x hx,hb y hy]

variable {s : NativeStage} {tokens rows chunk : UInt64}

/-- The cache. -/
theorem exact_cacheBytes : Exact (s.cacheBytes tokens) (tokens.toNat*s.kvPerToken) :=
  fun _ h => cacheBytes_exact h

/-- The transport bytes. -/
theorem exact_transport :
    Exact (requestTransportBytes (word tokens) (word rows) (word s.hiddenSize))
      (transportNeed s tokens.toNat rows.toNat) :=
  exact_add (exact_mul (exact_word _) (exact_word _))
    (exact_mul (exact_mul (exact_word _) (exact_word _)) (exact_word _))

/-- The dense temporaries. -/
theorem exact_denseBytes :
    Exact (denseBytes s tokens rows) (denseNeed s tokens.toNat rows.toNat) :=
  exact_add
    (exact_mul (exact_mul (exact_word _) (exact_add (exact_add
      (exact_mul (exact_word _) (exact_word _))
      (exact_mul (exact_mul (exact_word _) (exact_word _)) (exact_word _)))
      (exact_mul (exact_word _) (exact_word _)))) (exact_word _))
    (exact_mul (exact_mul (exact_word _)
      (exact_mul (exact_mul (exact_word _) (exact_word _)) (exact_word _))) (exact_word _))

/-- The attention scores. -/
theorem exact_attentionBytes :
    Exact (attentionBytes s tokens rows) (attentionNeed s tokens.toNat rows.toNat) :=
  exact_mul (exact_mul (exact_mul (exact_word _) (exact_word _)) (exact_word _)) (exact_word _)

/-- The staging buffer. -/
theorem exact_stagingBytes : Exact (stagingBytes s tokens) (stagingNeed s tokens.toNat) := by
  unfold stagingBytes stagingNeed
  split
  · intro w hw
    cases hbytes : mul (mul (word tokens) (word s.hiddenSize)) (word 2) with
    | error e =>
      rw [hbytes] at hw
      cases hw
    | ok bytes =>
      rw [hbytes] at hw
      cases hw
      have hvalue := exact_mul (exact_mul (exact_word tokens) (exact_word s.hiddenSize))
        (exact_word 2) bytes hbytes
      have htwo : (2 : UInt64).toNat=2 := rfl
      have hlimit : (8388608 : UInt64).toNat=8388608 := rfl
      unfold atMost
      rw [htwo] at hvalue
      rw [←hvalue]
      simp only [UInt64.lt_iff_toNat_lt]
      split <;> omega
  · intro w hw
    cases hw
    rfl

/-- The amounts of a reservation. -/
theorem sequenceMemory_amounts {memory : SequenceMemory}
    (h : s.sequenceMemory tokens chunk=.ok memory) (d : MemoryDomain) :
    memory.cache.total d=keptNeed s tokens.toNat (queryRows tokens chunk).toNat d ∧
      memory.workspace.total d=passingNeed s tokens.toNat (queryRows tokens chunk).toNat d := by
  unfold NativeStage.sequenceMemory at h
  rw [check_iff] at h
  obtain ⟨-,h⟩ := h
  generalize queryRows tokens chunk=rows at h ⊢
  unfold keptNeed passingNeed
  cases hbackend : s.backend with
  | cpu =>
    simp only [hbackend] at h
    obtain ⟨workspace,hworkspace,h⟩ := call_bind.mp h
    obtain ⟨host,hhost,h⟩ := call_bind.mp h
    cases h
    have hkept := exact_add exact_cacheBytes exact_transport host hhost
    have hpassing := exact_add (exact_add (exact_add
      (exact_mul (exact_mul (exact_word rows) (exact_add (exact_add
        (exact_mul (exact_word s.hiddenSize) (exact_word 24))
        (exact_mul (exact_mul (exact_word s.attentionHeads) (exact_word s.headDimension))
          (exact_word 12)))
        (exact_mul (exact_word s.intermediateSize) (exact_word 6)))) (exact_word 4))
      (exact_mul (exact_mul (exact_word tokens) (exact_word 4)) (exact_word 4)))
      (exact_mul (exact_word s.vocab) (exact_word 32))) (exact_word 65536) workspace hworkspace
    cases d with
    | host => exact ⟨hkept,hpassing⟩
    | device => exact ⟨rfl,rfl⟩
    | hostPinned => exact ⟨rfl,rfl⟩
    | unified => exact ⟨rfl,rfl⟩
  | mlx =>
    simp only [hbackend] at h
    obtain ⟨_,-,h⟩ := call_bind.mp h
    obtain ⟨kept,hkeptBytes,h⟩ := call_bind.mp h
    obtain ⟨passing,hpassingBytes,h⟩ := call_bind.mp h
    cases h
    have hkept := exact_add exact_cacheBytes exact_transport kept hkeptBytes
    have hpassing := exact_add (exact_add (exact_add (exact_add (exact_add exact_denseBytes
      exact_attentionBytes) exact_cacheBytes) (exact_add (exact_mul (exact_mul (exact_word rows)
        (exact_word s.hiddenSize)) (exact_word 12)) (exact_mul (exact_word rows)
        (exact_word 16)))) (exact_add (exact_mul (exact_word s.vocab) (exact_word 64))
      (exact_word 8388608))) (exact_word s.castWorkspace) passing hpassingBytes
    cases d with
    | host => exact ⟨rfl,rfl⟩
    | device => exact ⟨rfl,rfl⟩
    | hostPinned => exact ⟨rfl,rfl⟩
    | unified => exact ⟨hkept,hpassing⟩
  | cuda =>
    simp only [hbackend] at h
    obtain ⟨_,-,h⟩ := call_bind.mp h
    obtain ⟨cache,hcacheBytes,h⟩ := call_bind.mp h
    obtain ⟨staging,hstagingBytes,h⟩ := call_bind.mp h
    obtain ⟨keptHost,hkeptHost,h⟩ := call_bind.mp h
    obtain ⟨passingHost,hpassingHost,h⟩ := call_bind.mp h
    obtain ⟨passingDevice,hpassingDevice,h⟩ := call_bind.mp h
    cases h
    have hcache := cacheBytes_exact hcacheBytes
    have hstaging := exact_stagingBytes staging hstagingBytes
    have hkept := exact_add (exact_word staging) exact_transport keptHost hkeptHost
    rw [hstaging] at hkept
    have hhost := exact_add (exact_add (exact_add (exact_mul (exact_mul (exact_word rows)
      (exact_word s.hiddenSize)) (exact_word 6)) (exact_mul (exact_word rows) (exact_word 16)))
      (exact_word 65536)) (exact_mul (exact_word s.vocab) (exact_word 32)) passingHost
      hpassingHost
    have hdevice := exact_add (exact_add (exact_add (exact_add exact_denseBytes
      exact_attentionBytes) (exact_mul (exact_word s.vocab) (exact_word 32)))
      (exact_word 8388608)) (exact_word s.castWorkspace) passingDevice hpassingDevice
    cases d with
    | host => exact ⟨hkept,hhost⟩
    | device => exact ⟨hcache,hdevice⟩
    | hostPinned => exact ⟨hstaging,rfl⟩
    | unified => exact ⟨rfl,rfl⟩

end Exact

section Monotone

variable {s : NativeStage} {t t' r r' : ℕ}

/-- The transport bytes grow. -/
theorem transportNeed_mono (ht : t ≤ t') (hr : r ≤ r') :
    transportNeed s t r ≤ transportNeed s t' r' := by
  unfold transportNeed
  gcongr

/-- The staging buffer grows. -/
theorem stagingNeed_mono (ht : t ≤ t') : stagingNeed s t ≤ stagingNeed s t' := by
  unfold stagingNeed
  split
  · gcongr
  · exact Nat.le_refl _

/-- The dense temporaries grow. -/
theorem denseNeed_mono (ht : t ≤ t') (hr : r ≤ r') : denseNeed s t r ≤ denseNeed s t' r' := by
  unfold denseNeed
  gcongr

/-- The attention scores grow. -/
theorem attentionNeed_mono (ht : t ≤ t') (hr : r ≤ r') :
    attentionNeed s t r ≤ attentionNeed s t' r' := by
  unfold attentionNeed
  gcongr

/-- What a request keeps grows. -/
theorem keptNeed_mono (ht : t ≤ t') (hr : r ≤ r') (d : MemoryDomain) :
    keptNeed s t r d ≤ keptNeed s t' r' d := by
  have htransport := transportNeed_mono (s:=s) ht hr
  have hstaging := stagingNeed_mono (s:=s) ht
  have hcache := Nat.mul_le_mul_right s.kvPerToken ht
  unfold keptNeed
  split <;> omega

/-- What a pass needs grows. -/
theorem passingNeed_mono (ht : t ≤ t') (hr : r ≤ r') (d : MemoryDomain) :
    passingNeed s t r d ≤ passingNeed s t' r' d := by
  have hdense := denseNeed_mono (s:=s) ht hr
  have hattention := attentionNeed_mono (s:=s) ht hr
  unfold passingNeed
  split
  · gcongr
  · gcongr
  · gcongr
  · gcongr
  · exact Nat.le_refl _

end Monotone

section Reservations

variable {s : NativeStage} {tokens chunk : UInt64}

/-- A chunk has no more rows than the whole prompt. -/
theorem queryRows_le_tokens : (queryRows tokens chunk).toNat ≤ tokens.toNat := by
  unfold queryRows
  split
  · exact Nat.le_refl _
  · rename_i hchunk
    rw [not_or,UInt64.lt_iff_toNat_lt] at hchunk
    omega

/-- Without a chunk, or with one as long as the prompt, the rows are the tokens. -/
theorem queryRows_whole (h : chunk=0 ∨ tokens ≤ chunk) : queryRows tokens chunk=tokens := by
  unfold queryRows
  split
  · rfl
  · rename_i hchunk
    rw [not_or,UInt64.lt_iff_toNat_lt] at hchunk
    rcases h with h|h
    · exact absurd h hchunk.1
    · rw [UInt64.le_iff_toNat_le] at h
      exact UInt64.toNat_inj.mp (by omega)

/-- The rows of a whole prompt. -/
theorem queryRows_self : queryRows tokens tokens=tokens :=
  queryRows_whole (.inr (UInt64.le_refl _))

/-- A stage that accepts the whole prompt at once accepts it in chunks. -/
theorem accepts_chunked (h : s.Accepts tokens tokens) : s.Accepts tokens chunk := by
  obtain ⟨memory,hmemory⟩ := h
  unfold NativeStage.Accepts NativeStage.sequenceMemory at *
  rw [check_iff,queryRows_self] at hmemory
  obtain ⟨hguard,hmemory⟩ := hmemory
  rw [if_neg hguard]
  have hrows := @queryRows_le_tokens tokens chunk
  cases hbackend : s.backend with
  | cpu =>
    simp only [hbackend] at hmemory
    exact cpu_accepts (Nat.le_refl _) hrows hmemory
  | mlx =>
    simp only [hbackend] at hmemory
    exact mlx_accepts (Nat.le_refl _) hrows hmemory
  | cuda =>
    simp only [hbackend] at hmemory
    exact cuda_accepts (Nat.le_refl _) hrows hmemory

/-- The whole prompt at once, spelled in either way. -/
theorem sequenceMemory_whole (h : chunk=0 ∨ tokens ≤ chunk) :
    s.sequenceMemory tokens chunk=s.sequenceMemory tokens tokens := by
  unfold NativeStage.sequenceMemory
  rw [queryRows_whole h,queryRows_self]

/-- Each layer gets keys and values for all tokens. -/
theorem layerCache_ok {cache : LayerCache} (h : layerCache s tokens=.ok cache) :
    cache=⟨s.keyValueHeads.toNat,tokens.toNat,s.headDimension.toNat⟩ := by
  obtain ⟨_,-,h⟩ := call_bind.mp h
  cases h
  rfl

/-- One cache for each round of a loop that creates the same one each time. -/
theorem replicate_of_mapM {cache : LayerCache} {n : ℕ} {caches : List LayerCache}
    (hlayer : ∀ c,layerCache s tokens=.ok c → c=cache)
    (h : (List.replicate n ()).mapM (fun _ => layerCache s tokens)=.ok caches) :
    caches=List.replicate n cache := by
  induction n generalizing caches with
  | zero =>
    cases h
    rfl
  | succ n ih =>
    rw [List.replicate_succ,List.mapM_cons] at h
    obtain ⟨c,hc,h⟩ := call_bind.mp h
    obtain ⟨rest,hrest,h⟩ := call_bind.mp h
    cases h
    rw [hlayer c hc,ih hrest,List.replicate_succ]

/-- Keys and values of all layers take the bytes of the cache. -/
theorem allocated_bytes {a : Allocation} (h : allocateSequence s tokens=.ok a) :
    (a.caches.map (LayerCache.bytes s)).sum=tokens.toNat*s.kvPerToken ∧
      a.staging.toNat=if s.backend=.cuda then stagingNeed s tokens.toNat else 0 := by
  obtain ⟨_,-,h⟩ := call_bind.mp h
  obtain ⟨staging,hstaging,h⟩ := call_bind.mp h
  obtain ⟨caches,hcaches,h⟩ := call_bind.mp h
  cases h
  constructor
  · rw [replicate_of_mapM (fun _ => layerCache_ok) hcaches,List.map_replicate,
      List.sum_replicate_nat]
    unfold LayerCache.bytes NativeStage.kvPerToken
    ring
  · unfold sequenceStaging at hstaging
    cases hbackend : s.backend with
    | cpu =>
      simp only [hbackend] at hstaging
      cases hstaging
      rfl
    | mlx =>
      simp only [hbackend] at hstaging
      cases hstaging
      rfl
    | cuda =>
      simp only [hbackend] at hstaging
      exact exact_stagingBytes staging hstaging

/-- What a sequence and the handlers hold is what a request keeps. -/
theorem held_keptNeed {a : Allocation} {rows : ℕ} (h : allocateSequence s tokens=.ok a)
    (d : MemoryDomain) : a.held s tokens.toNat rows d=keptNeed s tokens.toNat rows d := by
  obtain ⟨hcaches,hstaging⟩ := allocated_bytes h
  unfold Allocation.held keptNeed NativeStage.domain
  rw [hcaches,hstaging]
  cases s.backend <;> cases d <;> simp

end Reservations

/-- `sequence_memory` is exact, sufficient and monotone. Every amount of a
reservation is its formula in unbounded numbers; the kept part is what the
sequence that is allocated for the tokens and the handlers hold, and pinned
bytes are host bytes; more tokens and rows need no less; a chunked reservation
is returned whenever that of the whole prompt is and is no larger; and no chunk
or one as long as the prompt is the whole prompt. -/
theorem sequence_memory_exact {s : NativeStage} {tokens chunk : UInt64}
    {memory : SequenceMemory} (h : s.sequenceMemory tokens chunk=.ok memory) :
    (∀ d,memory.cache.total d=keptNeed s tokens.toNat (queryRows tokens chunk).toNat d ∧
      memory.workspace.total d=passingNeed s tokens.toNat (queryRows tokens chunk).toNat d) ∧
    (∀ a,allocateSequence s tokens=.ok a → ∀ d,
      a.held s tokens.toNat (queryRows tokens chunk).toNat d ≤ memory.cache.total d) ∧
    (memory.cache.total .hostPinned ≤ memory.cache.total .host ∧
      memory.workspace.total .hostPinned ≤ memory.workspace.total .host) ∧
    (∀ tokens' chunk' memory',s.sequenceMemory tokens' chunk'=.ok memory' →
      tokens ≤ tokens' → queryRows tokens chunk ≤ queryRows tokens' chunk' →
      ∀ d,memory.cache.total d ≤ memory'.cache.total d ∧
        memory.workspace.total d ≤ memory'.workspace.total d) ∧
    (∀ whole,s.sequenceMemory tokens tokens=.ok whole → ∀ chunk',
      ∃ chunked,s.sequenceMemory tokens chunk'=.ok chunked ∧
        ∀ d,chunked.cache.total d ≤ whole.cache.total d ∧
          chunked.workspace.total d ≤ whole.workspace.total d) ∧
    ((chunk=0 ∨ tokens ≤ chunk) → s.sequenceMemory tokens tokens=.ok memory) := by
  have hamounts := sequenceMemory_amounts h
  have hordered : ∀ {tokens chunk tokens' chunk' : UInt64} {memory memory' : SequenceMemory},
      s.sequenceMemory tokens chunk=.ok memory → s.sequenceMemory tokens' chunk'=.ok memory' →
      tokens ≤ tokens' → queryRows tokens chunk ≤ queryRows tokens' chunk' →
      ∀ d,memory.cache.total d ≤ memory'.cache.total d ∧
        memory.workspace.total d ≤ memory'.workspace.total d := by
    intro tokens chunk tokens' chunk' memory memory' h h' htokens hrows d
    rw [UInt64.le_iff_toNat_le] at htokens hrows
    obtain ⟨hkept,hpassing⟩ := sequenceMemory_amounts h d
    obtain ⟨hkept',hpassing'⟩ := sequenceMemory_amounts h' d
    rw [hkept,hpassing,hkept',hpassing']
    exact ⟨keptNeed_mono htokens hrows d,passingNeed_mono htokens hrows d⟩
  refine ⟨hamounts,?_,?_,fun _ _ _ h' => hordered h h',?_,?_⟩
  · intro a ha d
    rw [held_keptNeed ha,(hamounts d).1]
  · rw [(hamounts .host).1,(hamounts .host).2,(hamounts .hostPinned).1,(hamounts .hostPinned).2]
    unfold keptNeed passingNeed
    cases s.backend <;> simp
  · intro whole hwhole chunk'
    obtain ⟨chunked,hchunked⟩ := @accepts_chunked s tokens chunk' ⟨whole,hwhole⟩
    refine ⟨chunked,hchunked,hordered hchunked hwhole (UInt64.le_refl _) ?_⟩
    rw [queryRows_self,UInt64.le_iff_toNat_le]
    exact queryRows_le_tokens
  · intro hwhole
    rw [←sequenceMemory_whole hwhole]
    exact h

/-- A CUDA stage with pinned staging. -/
def smallStage : NativeStage :=
  ⟨.cuda,.f16,8,16,2,1,4,64,10,3,0,true,false⟩

/-- Twelve tokens in chunks of five keep 576 bytes of cache and 192 of staging. -/
theorem smallStage_reserves :
    ∃ memory,smallStage.sequenceMemory 12 5=.ok memory ∧ memory.cache.deviceBytes.toNat=576 ∧
      memory.cache.pinnedHostBytes.toNat=192 := by
  obtain ⟨memory,hmemory⟩ : ∃ memory,smallStage.sequenceMemory 12 5=.ok memory := ⟨_,rfl⟩
  have hexact := (sequence_memory_exact hmemory).1
  exact ⟨memory,hmemory,(hexact .device).1,(hexact .hostPinned).1⟩

end Hllm.SequenceReservations
