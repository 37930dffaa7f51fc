import Hllm.MemoryAccounting

/-!
# Floating point scalars and token sampling

Floats and doubles are types with the operations the code applies to them.
Nothing is assumed about the operations. Sums, maxima and comparisons are
evaluated in the order of the code. Random draws are counter based: a draw is
a function of the request's seed and its counter.
-/

namespace Hllm.SamplingModel

open MemoryAccounting

/-- A single precision type. -/
class Scalar (F : Type) where
  zero : F
  one : F
  negativeInfinity : F
  add : F → F → F
  sub : F → F → F
  mul : F → F → F
  div : F → F → F
  neg : F → F
  sqrt : F → F
  exp : F → F
  cos : F → F
  sin : F → F
  pow : F → F → F
  /-- Conversion of a size. -/
  ofSize : ℕ → F
  lt : F → F → Bool
  le : F → F → Bool
  /-- `std::isfinite` -/
  finite : F → Bool
  /-- `float_to_float16` -/
  toHalf : F → UInt16
  /-- `float16_to_float` -/
  ofHalf : UInt16 → F

/-- A double precision type for a single precision one. -/
class Double (F : outParam Type) (D : Type) where
  zero : D
  one : D
  /-- Literal one hundred. -/
  hundred : D
  /-- `0x1.0p-53` -/
  unit : D
  add : D → D → D
  sub : D → D → D
  mul : D → D → D
  div : D → D → D
  exp : D → D
  log : D → D
  lt : D → D → Bool
  le : D → D → Bool
  eq : D → D → Bool
  finite : D → Bool
  /-- Conversion of a float. -/
  widen : F → D
  /-- Conversion of a word. -/
  ofWord : UInt64 → D

variable {F D : Type}

/-- `SamplingOptions` -/
structure SamplingOptions (D : Type) where
  temperature : D
  topP : D
  topK : UInt64
  seed : UInt64
  returnLogprobs : Bool
  topLogprobs : ℕ

/-- `TokenLogProbability` -/
structure TokenLogProbability (D : Type) where
  tokenId : ℕ
  logprob : D
  deriving DecidableEq

/-- `SampledToken` -/
structure SampledToken (D : Type) where
  id : ℕ
  logprob : Option D
  topLogprobs : List (TokenLogProbability D)
  deriving DecidableEq

/-- The first largest number of a list and its place, as `std::max_element`
and the greedy loop find it. -/
def maxElement [Scalar F] (logits : List F) (first : F) : ℕ×F :=
  logits.zipIdx.foldl (fun best x => if Scalar.lt best.2 x.1 then (x.2,x.1) else best) (0,first)

section Doubles

variable [Scalar F] [Double F D]

/-- `validate_sampling` -/
def validateSampling (options : SamplingOptions D) : Except Error Unit :=
  if !Double.finite options.temperature || Double.lt options.temperature Double.zero ||
      Double.lt Double.hundred options.temperature || !Double.finite options.topP ||
      Double.le options.topP Double.zero || Double.lt Double.one options.topP ||
      decide (5 < options.topLogprobs) ||
      (!options.returnLogprobs && decide (options.topLogprobs≠0)) then
    .error ⟨.invalidRequest,"invalid sampling parameters"⟩
  else .ok ()

/-- A token with its weight. -/
structure Candidate (D : Type) where
  probability : D
  token : ℕ

/-- The order of candidates: likelier first, ties by token. -/
def Candidate.before (a b : Candidate D) : Bool :=
  if Double.eq a.probability b.probability then a.token < b.token
  else Double.lt b.probability a.probability

/-- Candidates in their order. -/
def sortCandidates (candidates : List (Candidate D)) : List (Candidate D) :=
  candidates.mergeSort fun a b => !b.before a

/-- The loop that retains candidates up to the threshold: what is retained and
how many. At least one is. -/
def retain (threshold : D) : List (Candidate D) → D → ℕ → D×ℕ
  | [],retained,count => (retained,count)
  | candidate::rest,retained,count =>
    let retained := Double.add retained candidate.probability
    if Double.lt retained threshold then retain threshold rest retained (count+1)
    else (retained,count+1)

/-- `SplitMix64` on the seed and the counter. -/
def randomBits (seed generatedIndex : UInt64) : UInt64 :=
  let bits := seed+0x9e3779b97f4a7c15*(generatedIndex+1)
  let bits := (bits ^^^ (bits >>> 30))*0xbf58476d1ce4e5b9
  let bits := (bits ^^^ (bits >>> 27))*0x94d049bb133111eb
  bits ^^^ (bits >>> 31)

/-- The loop that spends the target on the retained candidates. -/
def choose : List (Candidate D) → D → ℕ
  | [],_ => 0
  | [last],_ => last.token
  | candidate::rest,target =>
    let target := Double.sub target candidate.probability
    if Double.lt target Double.zero then candidate.token else choose rest target

/-- The choice of a sampling request, from one random draw. -/
def draw (logits : List F) (best : F) (options : SamplingOptions D) (bits : UInt64) : ℕ :=
  let candidates := sortCandidates (logits.zipIdx.map fun x =>
    ⟨Double.exp (Double.div (Double.sub (Double.widen x.1) (Double.widen best))
      options.temperature),x.2⟩)
  let candidates :=
    if options.topK≠0 ∧ options.topK.toNat < candidates.length then
      candidates.take options.topK.toNat
    else candidates
  let total := candidates.foldl (fun total c => Double.add total c.probability) Double.zero
  let retained := retain (Double.mul total options.topP) candidates Double.zero 0
  let target := Double.mul (Double.mul (Double.ofWord (bits >>> 11)) Double.unit) retained.1
  choose (candidates.take retained.2) target

/-- `sample_logits`, with the seed and counter of the random draw if one was
made. -/
def sampleLogits (logits : List F) (options : SamplingOptions D) (generatedIndex : UInt64) :
    Except Error (ℕ×Option (UInt64×UInt64)) := do
  validateSampling options
  match logits with
  | [] => .error ⟨.internal,"cannot sample empty logits"⟩
  | first::_ =>
    if logits.any fun value => !Scalar.finite value then
      .error ⟨.internal,"cannot sample nonfinite logits"⟩
    let best := maxElement logits first
    if Double.eq options.temperature Double.zero then .ok (best.1,none)
    else
      .ok (draw logits best.2 options (randomBits options.seed generatedIndex),
        some (options.seed,generatedIndex))

/-- `sample_token` -/
def sampleToken (logits : List F) (options : SamplingOptions D) (generatedIndex : UInt64) :
    Except Error (SampledToken D×Option (UInt64×UInt64)) := do
  let (id,drawn) ← sampleLogits logits options generatedIndex
  if !options.returnLogprobs then pure (⟨id,none,[]⟩,drawn)
  else
    let maximum := Double.widen (maxElement logits (logits.headD Scalar.zero)).2
    let sum := logits.foldl (fun sum value =>
      Double.add sum (Double.exp (Double.sub (Double.widen value) maximum))) Double.zero
    let logSum := Double.log sum
    let logprob := fun value : F =>
      Double.sub (Double.sub (Double.widen value) maximum) logSum
    let candidates := sortCandidates (logits.zipIdx.map fun x => ⟨logprob x.1,x.2⟩)
    pure (⟨id,some (logprob (logits.getD id Scalar.zero)),
      (candidates.take options.topLogprobs).map fun c => ⟨c.token,c.probability⟩⟩,drawn)

end Doubles

end Hllm.SamplingModel
