import Hllm.CheckedSizes
import Hllm.ControlModel
import Hllm.PlannerModels

/-!
# What the backends reserve for a sequence

`sequence_memory` of the three backends, written with checked words: a product
or a sum that needs more than 64 bits throws. The bytes of the KV cache are the
same expression everywhere. What a backend accepts it also accepts for fewer
tokens and rows.
-/

namespace Hllm.SequenceMemory

open CheckedSizes MemoryAccounting PlannerModels
open ControlModel (queryRows)

/-- A size that was computed with checks. -/
abbrev Checked := Except Error UInt64

/-- A size that is given. -/
def word (value : UInt64) : Checked := .ok value

/-- `mul` of two computed sizes. -/
def mul (a b : Checked) : Checked := do
  let a ← a
  let b ← b
  checkedMultiply a b

/-- `add` of two computed sizes. -/
def add (a b : Checked) : Checked := do
  let a ← a
  let b ← b
  checkedAdd a b

/-- `request_transport_bytes` -/
def requestTransportBytes (tokens rows hidden : Checked) : Checked :=
  add (mul tokens (word 24)) (mul (mul rows hidden) (word 6))

/-- What `sequence_memory` of a loaded stage reads. -/
structure NativeStage where
  backend : Backend
  executionDtype : DType
  hiddenSize : UInt64
  intermediateSize : UInt64
  attentionHeads : UInt64
  keyValueHeads : UInt64
  headDimension : UInt64
  maximumSequenceLength : UInt64
  vocab : UInt64
  /-- Layers of the stage. -/
  layers : UInt64
  /-- Most bytes one weight takes when it is cast. -/
  castWorkspace : UInt64
  /-- Pinned staging is in use. -/
  pinned : Bool
  /-- The stage is the whole model. -/
  whole : Bool

/-- The element types a backend executes. -/
def NativeStage.Runs (s : NativeStage) : Prop :=
  s.executionDtype=.f32 ∨ (s.executionDtype=.f16 ∧ s.backend≠.cpu)

/-- `element_bytes`, and `sizeof(float)` on the CPU. -/
def NativeStage.elementBytes (s : NativeStage) : UInt64 :=
  match s.backend with
  | .cpu => 4
  | .mlx | .cuda => if s.executionDtype=.f16 then 2 else 4

/-- The bytes of the KV cache, `cache` in every `sequence_memory`. -/
def NativeStage.cacheBytes (s : NativeStage) (tokens : UInt64) : Checked :=
  mul (mul (mul (mul (word tokens) (word s.layers)) (word s.keyValueHeads))
    (word s.headDimension)) (word (2*s.elementBytes))

/-- `sequence_memory` on the CPU. -/
def cpuSequenceMemory (s : NativeStage) (tokens rows : UInt64) : Except Error SequenceMemory := do
  let cache := s.cacheBytes tokens
  let queryWidth := add (add (mul (word s.hiddenSize) (word 24))
    (mul (mul (word s.attentionHeads) (word s.headDimension)) (word 12)))
    (mul (word s.intermediateSize) (word 6))
  let workspace ← add (add (add (mul (mul (word rows) queryWidth) (word 4))
    (mul (mul (word tokens) (word 4)) (word 4))) (mul (word s.vocab) (word 32))) (word 65536)
  let host ← add cache (requestTransportBytes (word tokens) (word rows) (word s.hiddenSize))
  pure ⟨⟨host,0,0,0⟩,⟨workspace,0,0,0⟩⟩

/-- Dense temporaries of a pass on the accelerators. -/
def denseBytes (s : NativeStage) (tokens rows : UInt64) : Checked :=
  let projections := mul (word s.attentionHeads) (word s.headDimension)
  let queryWidth := add (add (mul (word s.hiddenSize) (word 32)) (mul projections (word 16)))
    (mul (word s.intermediateSize) (word 16))
  add (mul (mul (word rows) queryWidth) (word 4))
    (mul (mul (word tokens) (mul projections (word 16))) (word 4))

/-- Attention scores of a pass on the accelerators. -/
def attentionBytes (s : NativeStage) (tokens rows : UInt64) : Checked :=
  mul (mul (mul (word rows) (word tokens)) (word s.attentionHeads)) (word 16)

/-- `dimension`: a tensor dimension has a limit. -/
def dimension (limit : UInt64) (library : String) (value : UInt64) : Except Error Unit :=
  if limit < value then
    .error ⟨.resourceExhausted,"tensor dimension exceeds "++library++" capacity"⟩
  else .ok ()

/-- `sequence_memory` on MLX. -/
def mlxSequenceMemory (s : NativeStage) (tokens rows : UInt64) : Except Error SequenceMemory := do
  dimension 2147483647 "MLX" tokens
  let cache := s.cacheBytes tokens
  let transport := add (mul (mul (word rows) (word s.hiddenSize)) (word 12))
    (mul (word rows) (word 16))
  let workspace := add (add (add (add (denseBytes s tokens rows) (attentionBytes s tokens rows))
    cache) transport) (add (mul (word s.vocab) (word 64)) (word 8388608))
  let kept ← add cache (requestTransportBytes (word tokens) (word rows) (word s.hiddenSize))
  let passing ← add workspace (word s.castWorkspace)
  pure ⟨⟨0,0,0,kept⟩,⟨0,0,0,passing⟩⟩

/-- `std::min` with a limit. -/
def atMost (limit bytes : UInt64) : UInt64 := if limit < bytes then limit else bytes

/-- `staging_bytes` -/
def stagingBytes (s : NativeStage) (tokens : UInt64) : Checked :=
  if s.pinned=true ∧ s.whole=false then
    (mul (mul (word tokens) (word s.hiddenSize)) (word 2)).map (atMost 8388608)
  else word 0

/-- `sequence_memory` on CUDA. -/
def cudaSequenceMemory (s : NativeStage) (tokens rows : UInt64) : Except Error SequenceMemory := do
  dimension 9223372036854775807 "ATen" tokens
  let cache ← s.cacheBytes tokens
  let device := add (add (add (denseBytes s tokens rows) (attentionBytes s tokens rows))
    (mul (word s.vocab) (word 32))) (word 8388608)
  let host := add (add (mul (mul (word rows) (word s.hiddenSize)) (word 6))
    (mul (word rows) (word 16))) (word 65536)
  let staging ← stagingBytes s tokens
  let keptHost ← add (word staging)
    (requestTransportBytes (word tokens) (word rows) (word s.hiddenSize))
  let passingHost ← add host (mul (word s.vocab) (word 32))
  let passingDevice ← add device (word s.castWorkspace)
  pure ⟨⟨keptHost,cache,staging,0⟩,⟨passingHost,passingDevice,0,0⟩⟩

/-- `sequence_memory` -/
def NativeStage.sequenceMemory (s : NativeStage) (tokens maximumQueryTokens : UInt64) :
    Except Error SequenceMemory :=
  if tokens=0 ∨ s.maximumSequenceLength < tokens then
    .error ⟨.invalidRequest,"request exceeds model context capacity"⟩
  else
    let rows := queryRows tokens maximumQueryTokens
    match s.backend with
    | .cpu => cpuSequenceMemory s tokens rows
    | .mlx => mlxSequenceMemory s tokens rows
    | .cuda => cudaSequenceMemory s tokens rows

/-- The KV cache a stage charges for a request, if it accepts the request. -/
def NativeStage.charged (s : NativeStage) (tokens maximumQueryTokens : UInt64) : ℕ :=
  match s.sequenceMemory tokens maximumQueryTokens,s.cacheBytes tokens with
  | .ok _,.ok cache => cache.toNat
  | _,_ => 0

/-- The domain a backend keeps its caches in. -/
def NativeStage.domain (s : NativeStage) : MemoryAccounting.MemoryDomain :=
  match s.backend with
  | .cpu => .host
  | .mlx => .unified
  | .cuda => .device

/-- A product of two sizes that were computed. -/
theorem mul_ok (x y : UInt64) : mul (.ok x) (.ok y)=checkedMultiply x y := rfl

/-- A sum of two sizes that were computed. -/
theorem add_ok (x y : UInt64) : add (.ok x) (.ok y)=checkedAdd x y := by
  rw [add,ok_bind,ok_bind]

/-- Values of a computed product. -/
theorem mul_iff {a b : Checked} {c : UInt64} :
    mul a b=.ok c ↔ ∃ x y,a=.ok x ∧ b=.ok y ∧ c.toNat=x.toNat*y.toNat := by
  constructor
  · intro h
    cases a with
    | error e => cases h
    | ok x =>
      cases b with
      | error e => cases h
      | ok y =>
        rw [mul_ok,checkedMultiply_iff] at h
        exact ⟨x,y,rfl,rfl,h⟩
  · rintro ⟨x,y,rfl,rfl,h⟩
    rw [mul_ok,checkedMultiply_iff]
    exact h

/-- Values of a computed sum. -/
theorem add_iff {a b : Checked} {c : UInt64} :
    add a b=.ok c ↔ ∃ x y,a=.ok x ∧ b=.ok y ∧ c.toNat=x.toNat+y.toNat := by
  constructor
  · intro h
    cases a with
    | error e => cases h
    | ok x =>
      cases b with
      | error e => cases h
      | ok y =>
        rw [add_ok,checkedAdd_iff] at h
        exact ⟨x,y,rfl,rfl,h⟩
  · rintro ⟨x,y,rfl,rfl,h⟩
    rw [add_ok,checkedAdd_iff]
    exact h

/-- A size is computed whenever another is, and is no larger. -/
def Within (a b : Checked) : Prop := ∀ y,b=.ok y → ∃ x,a=.ok x ∧ x.toNat ≤ y.toNat

/-- A size is within itself. -/
theorem Within.refl (a : Checked) : Within a a := fun y h => ⟨y,h,Nat.le_refl _⟩

/-- Given sizes in order. -/
theorem within_word {a b : UInt64} (h : a.toNat ≤ b.toNat) : Within (word a) (word b) := by
  intro y hy
  cases hy
  exact ⟨a,rfl,h⟩

/-- A natural below a word is a word. -/
theorem exists_word {n : ℕ} {bound : UInt64} (h : n ≤ bound.toNat) : ∃ w : UInt64,w.toNat=n := by
  have hbound := bound.toNat_lt
  refine ⟨UInt64.ofNat n,?_⟩
  rw [UInt64.toNat_ofNat',Nat.mod_eq_of_lt (by omega)]

section Monotone

variable {a b a' b' : Checked}

/-- Products of smaller sizes. -/
theorem within_mul (ha : Within a a') (hb : Within b b') : Within (mul a b) (mul a' b') := by
  intro c hc
  obtain ⟨x,y,hx,hy,hvalue⟩ := mul_iff.mp hc
  obtain ⟨u,hu,hle⟩ := ha x hx
  obtain ⟨v,hv,hle'⟩ := hb y hy
  have hproduct : u.toNat*v.toNat ≤ c.toNat := by
    rw [hvalue]
    exact Nat.mul_le_mul hle hle'
  obtain ⟨w,hw⟩ := exists_word hproduct
  exact ⟨w,mul_iff.mpr ⟨u,v,hu,hv,hw⟩,hw.trans_le hproduct⟩

/-- Sums of smaller sizes. -/
theorem within_add (ha : Within a a') (hb : Within b b') : Within (add a b) (add a' b') := by
  intro c hc
  obtain ⟨x,y,hx,hy,hvalue⟩ := add_iff.mp hc
  obtain ⟨u,hu,hle⟩ := ha x hx
  obtain ⟨v,hv,hle'⟩ := hb y hy
  have hsum : u.toNat+v.toNat ≤ c.toNat := by
    rw [hvalue]
    exact Nat.add_le_add hle hle'
  obtain ⟨w,hw⟩ := exists_word hsum
  exact ⟨w,add_iff.mpr ⟨u,v,hu,hv,hw⟩,hw.trans_le hsum⟩

/-- The smaller of a size and a limit. -/
theorem within_atMost (h : Within a a') (limit : UInt64) :
    Within (a.map (atMost limit)) (a'.map (atMost limit)) := by
  intro c hc
  cases a' with
  | error e => cases hc
  | ok x =>
    obtain ⟨u,rfl,hle⟩ := h x rfl
    cases hc
    refine ⟨atMost limit u,rfl,?_⟩
    unfold atMost
    simp only [UInt64.lt_iff_toNat_lt]
    split <;> split <;> omega

end Monotone

section Stages

variable {s : NativeStage} {tokens rows tokens' rows' : UInt64}

/-- The transport bytes of fewer tokens and rows. -/
theorem within_transport (htokens : tokens.toNat ≤ tokens'.toNat)
    (hrows : rows.toNat ≤ rows'.toNat) :
    Within (requestTransportBytes (word tokens) (word rows) (word s.hiddenSize))
      (requestTransportBytes (word tokens') (word rows') (word s.hiddenSize)) :=
  within_add (within_mul (within_word htokens) (.refl _))
    (within_mul (within_mul (within_word hrows) (.refl _)) (.refl _))

/-- The cache of fewer tokens. -/
theorem within_cacheBytes (htokens : tokens.toNat ≤ tokens'.toNat) :
    Within (s.cacheBytes tokens) (s.cacheBytes tokens') :=
  within_mul (within_mul (within_mul (within_mul (within_word htokens) (.refl _)) (.refl _))
    (.refl _)) (.refl _)

/-- The CPU accepts fewer tokens and rows. -/
theorem cpu_accepts (htokens : tokens.toNat ≤ tokens'.toNat) (hrows : rows.toNat ≤ rows'.toNat)
    {memory : SequenceMemory} (h : cpuSequenceMemory s tokens' rows'=.ok memory) :
    ∃ smaller,cpuSequenceMemory s tokens rows=.ok smaller := by
  obtain ⟨workspace,hworkspace,h⟩ := call_bind.mp h
  obtain ⟨host,hhost,-⟩ := call_bind.mp h
  obtain ⟨workspace',hworkspace',-⟩ := within_add (within_add (within_add
    (within_mul (within_mul (within_word hrows) (.refl _)) (.refl _))
    (within_mul (within_mul (within_word htokens) (.refl _)) (.refl _))) (.refl _)) (.refl _)
    workspace hworkspace
  obtain ⟨host',hhost',-⟩ := within_add (within_cacheBytes htokens)
    (within_transport htokens hrows) host hhost
  exact ⟨_,call_bind.mpr ⟨workspace',hworkspace',call_bind.mpr ⟨host',hhost',rfl⟩⟩⟩

/-- The dense temporaries of fewer tokens and rows. -/
theorem within_denseBytes (htokens : tokens.toNat ≤ tokens'.toNat)
    (hrows : rows.toNat ≤ rows'.toNat) :
    Within (denseBytes s tokens rows) (denseBytes s tokens' rows') :=
  within_add (within_mul (within_mul (within_word hrows) (.refl _)) (.refl _))
    (within_mul (within_mul (within_word htokens) (.refl _)) (.refl _))

/-- The attention scores of fewer tokens and rows. -/
theorem within_attentionBytes (htokens : tokens.toNat ≤ tokens'.toNat)
    (hrows : rows.toNat ≤ rows'.toNat) :
    Within (attentionBytes s tokens rows) (attentionBytes s tokens' rows') :=
  within_mul (within_mul (within_mul (within_word hrows) (within_word htokens)) (.refl _))
    (.refl _)

/-- Smaller dimensions pass. -/
theorem dimension_passes {limit : UInt64} {library : String}
    (htokens : tokens.toNat ≤ tokens'.toNat) (h : dimension limit library tokens'=.ok ()) :
    dimension limit library tokens=.ok () := by
  unfold dimension at h ⊢
  rw [check_iff,UInt64.lt_iff_toNat_lt] at h ⊢
  exact ⟨by omega,rfl⟩

/-- MLX accepts fewer tokens and rows. -/
theorem mlx_accepts (htokens : tokens.toNat ≤ tokens'.toNat) (hrows : rows.toNat ≤ rows'.toNat)
    {memory : SequenceMemory} (h : mlxSequenceMemory s tokens' rows'=.ok memory) :
    ∃ smaller,mlxSequenceMemory s tokens rows=.ok smaller := by
  obtain ⟨_,hdimension,h⟩ := call_bind.mp h
  obtain ⟨kept,hkept,h⟩ := call_bind.mp h
  obtain ⟨passing,hpassing,-⟩ := call_bind.mp h
  obtain ⟨kept',hkept',-⟩ := within_add (within_cacheBytes htokens)
    (within_transport htokens hrows) kept hkept
  have htransport := within_add (within_mul (within_mul (within_word hrows)
    (.refl (word s.hiddenSize))) (.refl (word 12))) (within_mul (within_word hrows)
    (.refl (word 16)))
  have hworkspace := within_add (within_add (within_add (within_add
    (within_denseBytes (s:=s) htokens hrows) (within_attentionBytes (s:=s) htokens hrows))
    (within_cacheBytes (s:=s) htokens)) htransport)
    (.refl (add (mul (word s.vocab) (word 64)) (word 8388608)))
  obtain ⟨passing',hpassing',-⟩ := within_add hworkspace (.refl (word s.castWorkspace)) passing
    hpassing
  exact ⟨_,call_bind.mpr ⟨(),dimension_passes htokens hdimension,
    call_bind.mpr ⟨kept',hkept',call_bind.mpr ⟨passing',hpassing',rfl⟩⟩⟩⟩

/-- The staging buffer of fewer tokens. -/
theorem within_stagingBytes (htokens : tokens.toNat ≤ tokens'.toNat) :
    Within (stagingBytes s tokens) (stagingBytes s tokens') := by
  unfold stagingBytes
  split
  · exact within_atMost (within_mul (within_mul (within_word htokens) (.refl _)) (.refl _)) _
  · exact .refl _

/-- CUDA accepts fewer tokens and rows. -/
theorem cuda_accepts (htokens : tokens.toNat ≤ tokens'.toNat) (hrows : rows.toNat ≤ rows'.toNat)
    {memory : SequenceMemory} (h : cudaSequenceMemory s tokens' rows'=.ok memory) :
    ∃ smaller,cudaSequenceMemory s tokens rows=.ok smaller := by
  obtain ⟨_,hdimension,h⟩ := call_bind.mp h
  obtain ⟨cache,hcache,h⟩ := call_bind.mp h
  obtain ⟨staging,hstaging,h⟩ := call_bind.mp h
  obtain ⟨keptHost,hkeptHost,h⟩ := call_bind.mp h
  obtain ⟨passingHost,hpassingHost,h⟩ := call_bind.mp h
  obtain ⟨passingDevice,hpassingDevice,-⟩ := call_bind.mp h
  obtain ⟨cache',hcache',-⟩ := within_cacheBytes htokens cache hcache
  obtain ⟨staging',hstaging',hstagingLe⟩ := within_stagingBytes htokens staging hstaging
  obtain ⟨keptHost',hkeptHost',-⟩ := within_add (within_word hstagingLe)
    (within_transport htokens hrows) keptHost hkeptHost
  have hhost := within_add (within_add (within_mul (within_mul (within_word hrows)
    (.refl (word s.hiddenSize))) (.refl (word 6))) (within_mul (within_word hrows)
    (.refl (word 16)))) (.refl (word 65536))
  obtain ⟨passingHost',hpassingHost',-⟩ := within_add hhost
    (.refl (mul (word s.vocab) (word 32))) passingHost hpassingHost
  have hdevice := within_add (within_add (within_add (within_denseBytes (s:=s) htokens hrows)
    (within_attentionBytes (s:=s) htokens hrows)) (.refl (mul (word s.vocab) (word 32))))
    (.refl (word 8388608))
  obtain ⟨passingDevice',hpassingDevice',-⟩ := within_add hdevice (.refl (word s.castWorkspace))
    passingDevice hpassingDevice
  exact ⟨_,call_bind.mpr ⟨(),dimension_passes htokens hdimension,
    call_bind.mpr ⟨cache',hcache',call_bind.mpr ⟨staging',hstaging',
    call_bind.mpr ⟨keptHost',hkeptHost',call_bind.mpr ⟨passingHost',hpassingHost',
    call_bind.mpr ⟨passingDevice',hpassingDevice',rfl⟩⟩⟩⟩⟩⟩⟩

/-- The stage accepts a request of these tokens. -/
def NativeStage.Accepts (s : NativeStage) (tokens maximumQueryTokens : UInt64) : Prop :=
  ∃ memory,s.sequenceMemory tokens maximumQueryTokens=.ok memory

/-- Fewer tokens have fewer query rows. -/
theorem queryRows_le {chunk : UInt64} (h : tokens.toNat ≤ tokens'.toNat) :
    (queryRows tokens chunk).toNat ≤ (queryRows tokens' chunk).toNat := by
  unfold queryRows
  simp only [UInt64.lt_iff_toNat_lt]
  split
  · split
    · exact h
    · rename_i hchunk hlarge
      rcases hchunk with hzero|hless
      · exact absurd (.inl hzero) hlarge
      · omega
  · split
    · rename_i hlarge hchunk
      rcases hchunk with hzero|hless
      · exact absurd (.inl hzero) hlarge
      · omega
    · exact Nat.le_refl _

/-- A stage that accepts a request accepts a shorter one. -/
theorem NativeStage.Accepts.shorter {chunk : UInt64} (h : s.Accepts tokens' chunk)
    (hpos : tokens≠0) (hle : tokens.toNat ≤ tokens'.toNat) : s.Accepts tokens chunk := by
  obtain ⟨memory,hmemory⟩ := h
  unfold NativeStage.Accepts NativeStage.sequenceMemory at *
  rw [check_iff] at hmemory
  obtain ⟨hguard,hmemory⟩ := hmemory
  have hrows := @queryRows_le tokens tokens' chunk hle
  rw [not_or,UInt64.lt_iff_toNat_lt] at hguard
  have hcontext : ¬(tokens=0 ∨ s.maximumSequenceLength < tokens) := by
    rw [UInt64.lt_iff_toNat_lt]
    rintro (hzero|hlong)
    · exact hpos hzero
    · omega
  rw [if_neg hcontext]
  cases hbackend : s.backend with
  | cpu =>
    simp only [hbackend] at hmemory
    exact cpu_accepts hle hrows hmemory
  | mlx =>
    simp only [hbackend] at hmemory
    exact mlx_accepts hle hrows hmemory
  | cuda =>
    simp only [hbackend] at hmemory
    exact cuda_accepts hle hrows hmemory

/-- The rows of a one-token request do not depend on the chunk. -/
theorem sequenceMemory_one (chunk : UInt64) :
    s.sequenceMemory 1 chunk=s.sequenceMemory 1 0 := by
  have hrows : queryRows 1 chunk=1 := by
    unfold queryRows
    split
    · rfl
    · rename_i hlarge
      rw [not_or,UInt64.lt_iff_toNat_lt] at hlarge
      have hone : (1 : UInt64).toNat=1 := rfl
      have hzero : chunk.toNat≠0 := fun h => hlarge.1 (UInt64.toNat_inj.mp h)
      exact UInt64.toNat_inj.mp (by omega)
  unfold NativeStage.sequenceMemory
  rw [hrows]
  rfl

/-- KV bytes of one token of the stage. -/
def NativeStage.kvPerToken (s : NativeStage) : ℕ :=
  s.layers.toNat*s.keyValueHeads.toNat*s.headDimension.toNat*(2*s.elementBytes.toNat)

/-- Cache bytes are computed exactly. -/
theorem cacheBytes_exact {cache : UInt64} (h : s.cacheBytes tokens=.ok cache) :
    cache.toNat=tokens.toNat*s.kvPerToken := by
  obtain ⟨a,b,ha,hb,hcache⟩ := mul_iff.mp h
  obtain ⟨c,d,hc,hd,ha⟩ := mul_iff.mp ha
  obtain ⟨e,f,he,hf,hc⟩ := mul_iff.mp hc
  obtain ⟨g,k,hg,hk,he⟩ := mul_iff.mp he
  cases hb
  cases hd
  cases hf
  cases hg
  cases hk
  have hdouble : (2*s.elementBytes).toNat=2*s.elementBytes.toNat := by
    unfold NativeStage.elementBytes
    split
    · rfl
    all_goals
      split <;> rfl
  rw [hcache,ha,hc,he,hdouble,NativeStage.kvPerToken]
  simp only [Nat.mul_assoc]

/-- A reservation contains the cache, in the domain of the backend. -/
theorem sequenceMemory_cache {chunk : UInt64} {memory : SequenceMemory}
    (h : s.sequenceMemory tokens chunk=.ok memory) :
    ∃ cache,s.cacheBytes tokens=.ok cache ∧ cache.toNat ≤ memory.cache.total s.domain := by
  unfold NativeStage.sequenceMemory at h
  rw [check_iff] at h
  obtain ⟨-,h⟩ := h
  unfold NativeStage.domain
  cases hbackend : s.backend with
  | cpu =>
    simp only [hbackend] at h
    obtain ⟨workspace,-,h⟩ := call_bind.mp h
    obtain ⟨host,hhost,h⟩ := call_bind.mp h
    obtain ⟨cache,transport,hcache,-,hsum⟩ := add_iff.mp hhost
    cases h
    refine ⟨cache,hcache,?_⟩
    change cache.toNat ≤ host.toNat
    omega
  | mlx =>
    simp only [hbackend] at h
    obtain ⟨_,-,h⟩ := call_bind.mp h
    obtain ⟨kept,hkept,h⟩ := call_bind.mp h
    obtain ⟨passing,-,h⟩ := call_bind.mp h
    obtain ⟨cache,transport,hcache,-,hsum⟩ := add_iff.mp hkept
    cases h
    refine ⟨cache,hcache,?_⟩
    change cache.toNat ≤ kept.toNat
    omega
  | cuda =>
    simp only [hbackend] at h
    obtain ⟨_,-,h⟩ := call_bind.mp h
    obtain ⟨cache,hcache,h⟩ := call_bind.mp h
    obtain ⟨staging,-,h⟩ := call_bind.mp h
    obtain ⟨keptHost,-,h⟩ := call_bind.mp h
    obtain ⟨passingHost,-,h⟩ := call_bind.mp h
    obtain ⟨passingDevice,-,h⟩ := call_bind.mp h
    cases h
    exact ⟨cache,hcache,Nat.le_refl _⟩

/-- An accepted request is charged its tokens. -/
theorem charged_accepted {chunk : UInt64} (h : s.Accepts tokens chunk) :
    s.charged tokens chunk=tokens.toNat*s.kvPerToken := by
  obtain ⟨memory,hmemory⟩ := h
  obtain ⟨cache,hcache,-⟩ := sequenceMemory_cache hmemory
  rw [NativeStage.charged,hmemory,hcache]
  exact cacheBytes_exact hcache

/-- A refused request is charged nothing. -/
theorem charged_refused {chunk : UInt64} (h : ¬s.Accepts tokens chunk) :
    s.charged tokens chunk=0 := by
  unfold NativeStage.charged
  split
  · rename_i memory cache hmemory hcache
    exact absurd ⟨memory,hmemory⟩ h
  · rfl

end Stages

end Hllm.SequenceMemory
