import Hllm.FitComparisons

/-!
# Assessments are monotone

More capacity and easier budgets never make a safe fit worse, and larger byte
counters never make a fit safe nor an envelope smaller. For the footprint
policy the larger counters must still be coherent, since otherwise another
formula is applied to them.
-/

namespace Hllm.FitMonotone

open FitAssessment FitComparisons
open PlannerModels (Backend Raised)

section Growth

/-- Amounts in order. -/
def AmountsLe (a b : MemoryAmounts) : Prop := ∀ field,a.get field ≤ b.get field

/-- Amounts are within themselves. -/
theorem amountsLe_refl (a : MemoryAmounts) : AmountsLe a a := fun _ => Nat.le_refl _

/-- An allocator sample with larger counters. -/
structure AllocatorGrows (a b : AllocatorSample) : Prop where
  active : a.activeBytes ≤ b.activeBytes
  cached : a.cachedBytes ≤ b.cachedBytes
  peak : a.peakBytes ≤ b.peakBytes
  scope : b.peakScope=a.peakScope

/-- A process observation with larger counters. -/
structure ProcessGrows (p q : ProcessMemoryObservation) : Prop where
  processId : q.processId=p.processId
  observedAt : q.observedAtUnixNs=p.observedAtUnixNs
  rss : Option.Rel (· ≤ ·) p.rssBytes q.rssBytes
  rssPeak : Option.Rel (· ≤ ·) p.rssLifetimePeakBytes q.rssLifetimePeakBytes
  footprint : Option.Rel (· ≤ ·) p.physicalFootprintBytes q.physicalFootprintBytes
  footprintPeak : Option.Rel (· ≤ ·) p.physicalFootprintLifetimePeakBytes
    q.physicalFootprintLifetimePeakBytes

/-- A sample with larger reservations and counters. -/
structure SampleGrows (x y : MemorySample) : Prop where
  cycle : y.cycle=x.cycle
  phase : y.phase=x.phase
  weights : AmountsLe x.weights y.weights
  cache : AmountsLe x.cache y.cache
  workspace : AmountsLe x.workspace y.workspace
  allocator : Option.Rel AllocatorGrows x.allocator y.allocator
  rss : Option.Rel (· ≤ ·) x.rssBytes y.rssBytes
  rssPeak : Option.Rel (· ≤ ·) x.rssLifetimePeakBytes y.rssLifetimePeakBytes
  processMemory : Option.Rel ProcessGrows x.processMemory y.processMemory

/-- A physical sample with larger counters. -/
structure PhysicalGrows (x y : PhysicalSample) : Prop where
  rss : Option.Rel (· ≤ ·) x.rssBytes y.rssBytes
  device : Option.Rel (· ≤ ·) x.deviceProcessBytes y.deviceProcessBytes

/-- A measurement with larger counters. -/
structure MeasurementGrows (m m' : MemoryMeasurement) : Prop where
  admissionCapacity : m'.admissionCapacity=m.admissionCapacity
  samples : List.Forall₂ SampleGrows m.samples m'.samples
  physicalSamples : List.Forall₂ PhysicalGrows m.physicalSamples m'.physicalSamples
  completed : m'.completed=m.completed

/-- An artifact whose measurement has larger counters. -/
structure ArtifactGrows (a a' : ProfileArtifact) : Prop where
  schema : a'.schemaVersion=a.schemaVersion
  key : a'.key=a.key
  conditions : a'.conditions=a.conditions
  measurement : ∃ m m',a.measurement=.memory m ∧ a'.measurement=.memory m' ∧
    MeasurementGrows m m'

end Growth

section Values

variable {α : Type} {R : α → α → Prop} {xs ys : List α} {f : α → Option ℕ}

/-- Observed values grow with what they are observed in. -/
theorem forall₂_filterMap (h : List.Forall₂ R xs ys)
    (hf : ∀ x y,R x y → Option.Rel (· ≤ ·) (f x) (f y)) :
    List.Forall₂ (· ≤ ·) (xs.filterMap f) (ys.filterMap f) := by
  induction h with
  | nil => exact .nil
  | @cons x y xs ys hxy _ ih =>
    have hone := hf x y hxy
    generalize hfx : f x=u at hone
    generalize hfy : f y=v at hone
    cases hone with
    | none =>
      rw [List.filterMap_cons_none hfx,List.filterMap_cons_none hfy]
      exact ih
    | some hle =>
      rw [List.filterMap_cons_some hfx,List.filterMap_cons_some hfy]
      exact .cons hle ih

/-- Larger values are reached. -/
theorem reached_of_forall₂ {xs ys : List ℕ} (h : List.Forall₂ (· ≤ ·) xs ys) : Reached xs ys := by
  induction h with
  | nil => exact fun x hx => absurd hx List.not_mem_nil
  | cons hle _ ih =>
    intro x hx
    rcases List.mem_cons.mp hx with rfl|hx
    · exact ⟨_,.head _,hle⟩
    · obtain ⟨y,hy,hxy⟩ := ih x hx
      exact ⟨y,.tail _ hy,hxy⟩

/-- The largest of larger values. -/
theorem max?_grows {xs ys : List ℕ} (h : List.Forall₂ (· ≤ ·) xs ys) :
    Option.Rel (· ≤ ·) xs.max? ys.max? := by
  cases hxs : xs.max? with
  | none =>
    rw [List.max?_eq_none_iff] at hxs
    subst hxs
    cases h
    exact .none
  | some a =>
    cases hys : ys.max? with
    | none =>
      rw [List.max?_eq_none_iff] at hys
      subst hys
      cases h
      cases hxs
    | some b => exact .some ((reached_iff hxs hys).mp (reached_of_forall₂ h))

/-- A largest value or zero. -/
theorem getD_grows {x y : Option ℕ} (h : Option.Rel (· ≤ ·) x y) : x.getD 0 ≤ y.getD 0 := by
  cases h with
  | some hle => exact hle
  | none => exact Nat.le_refl 0

variable {m m' : MemoryMeasurement}

/-- The host values grow. -/
theorem hostValues_grow (h : MeasurementGrows m m') :
    List.Forall₂ (· ≤ ·) (hostValues m) (hostValues m') :=
  List.rel_append (forall₂_filterMap h.samples fun _ _ hxy => hxy.rssPeak)
    (forall₂_filterMap h.physicalSamples fun _ _ hxy => hxy.rss)

/-- The allocator values grow. -/
theorem allocatorValues_grow (h : MeasurementGrows m m') :
    List.Forall₂ (· ≤ ·) (allocatorValues m) (allocatorValues m') := by
  refine forall₂_filterMap h.samples fun x y hxy => ?_
  have hallocator := hxy.allocator
  generalize x.allocator=a at hallocator ⊢
  generalize y.allocator=b at hallocator ⊢
  cases hallocator with
  | none => exact .none
  | some hab =>
    exact .some (max_le_max hab.peak (Nat.add_le_add hab.active hab.cached))

/-- The device values grow. -/
theorem deviceValues_grow (h : MeasurementGrows m m') (backend : Backend) :
    List.Forall₂ (· ≤ ·) (deviceValues backend m) (deviceValues backend m') := by
  refine List.rel_append (forall₂_filterMap h.physicalSamples fun _ _ hxy => hxy.device) ?_
  split
  · exact allocatorValues_grow h
  · exact .nil

/-- The allocator peak grows. -/
theorem unifiedAllocatorPeak_grows (h : MeasurementGrows m m') (backend : Backend) :
    unifiedAllocatorPeak backend m ≤ unifiedAllocatorPeak backend m' := by
  unfold unifiedAllocatorPeak
  split
  · exact getD_grows (max?_grows (allocatorValues_grow h))
  · exact Nat.le_refl 0

/-- The conservative peak grows. -/
theorem conservativePeak_grows (h : MeasurementGrows m m') (backend : Backend) :
    Option.Rel (· ≤ ·) (conservativePeak backend m) (conservativePeak backend m') := by
  have hhost := max?_grows (hostValues_grow h)
  have hallocator := unifiedAllocatorPeak_grows h backend
  unfold conservativePeak
  generalize (hostValues m).max?=x at hhost ⊢
  generalize (hostValues m').max?=y at hhost ⊢
  cases hhost with
  | none => exact .none
  | some hle => exact .some (Nat.add_le_add hle hallocator)

end Values

section Footprints

/-- A round of the footprint loop ends with the peak of its sample. -/
theorem footprintStep_ok {state next : FootprintState} {sample : MemorySample}
    (h : footprintStep state sample=.ok next) : ∃ p,sample.processMemory=some p ∧
      p.physicalFootprintLifetimePeakBytes=some next.previousFootprint := by
  unfold footprintStep at h
  split at h
  · cases h
  · rename_i p rss rssPeak footprint peak hread
    obtain ⟨q,hq,hread⟩ := Option.bind_eq_some_iff.mp hread
    obtain ⟨a,-,hread⟩ := Option.bind_eq_some_iff.mp hread
    obtain ⟨b,-,hread⟩ := Option.bind_eq_some_iff.mp hread
    obtain ⟨c,-,hread⟩ := Option.bind_eq_some_iff.mp hread
    obtain ⟨d,hd,hread⟩ := Option.bind_eq_some_iff.mp hread
    split at hread
    · cases hread
    · cases hread
      split at h
      · cases h
      · split at h
        · cases h
        · cases h
          exact ⟨p,hq,hd⟩

/-- Two footprint loops over samples in order end with peaks in order. -/
theorem foldlM_footprintStep_grows {xs ys : List MemorySample}
    (h : List.Forall₂ SampleGrows xs ys) {s s' t t' : FootprintState}
    (hs : s.previousFootprint ≤ s'.previousFootprint)
    (hx : xs.foldlM footprintStep s=.ok t) (hy : ys.foldlM footprintStep s'=.ok t') :
    t.previousFootprint ≤ t'.previousFootprint := by
  induction h generalizing s s' with
  | nil =>
    cases hx
    cases hy
    exact hs
  | @cons x y xs ys hxy _ ih =>
    rw [List.foldlM_cons] at hx hy
    cases hu : footprintStep s x with
    | error e =>
      rw [hu] at hx
      cases hx
    | ok u =>
      cases hv : footprintStep s' y with
      | error e =>
        rw [hv] at hy
        cases hy
      | ok v =>
        rw [hu] at hx
        rw [hv] at hy
        obtain ⟨p,hp,hpeak⟩ := footprintStep_ok hu
        obtain ⟨q,hq,hpeak'⟩ := footprintStep_ok hv
        have hprocess := hxy.processMemory
        rw [hp,hq] at hprocess
        cases hprocess with
        | some hpq =>
          have hgrows := hpq.footprintPeak
          rw [hpeak,hpeak'] at hgrows
          cases hgrows with
          | some hle => exact ih hle hx hy

variable {a a' : ProfileArtifact} {m m' : MemoryMeasurement}

/-- The footprint of a coherent exercise is that of the loop. -/
theorem footprintPeak_ok {f : ℕ} (h : footprintPeak a m=.ok f) :
    ∃ t,m.samples.foldlM footprintStep {}=.ok t ∧ t.previousFootprint=f := by
  unfold footprintPeak at h
  split at h
  · cases h
  · split at h
    · cases h
    · cases hfold : m.samples.foldlM footprintStep {} with
      | error e =>
        rw [hfold] at h
        cases h
      | ok t =>
        rw [hfold] at h
        cases h
        exact ⟨t,rfl,rfl⟩

/-- The footprints of two coherent exercises. -/
theorem footprintPeak_grows (h : MeasurementGrows m m') {f f' : ℕ}
    (hf : footprintPeak a m=.ok f) (hf' : footprintPeak a' m'=.ok f') : f ≤ f' := by
  obtain ⟨t,ht,rfl⟩ := footprintPeak_ok hf
  obtain ⟨t',ht',rfl⟩ := footprintPeak_ok hf'
  exact foldlM_footprintStep_grows h.samples (Nat.le_refl _) ht ht'

/-- The peak of the host grows as long as the same policy is applied. -/
theorem hostPeak_grows (h : MeasurementGrows m m') (hkey : a'.key=a.key) {policy : MlxFitPolicy}
    (hsame : (hostPeak a' m' policy).2.1=(hostPeak a m policy).2.1) :
    Option.Rel (· ≤ ·) (hostPeak a m policy).1 (hostPeak a' m' policy).1 := by
  by_cases happlied : (hostPeak a m policy).2.1=.mlxFootprintMax
  · obtain ⟨hbackend,hpolicy,f,hf⟩ := footprint_applied_iff.mp happlied
    obtain ⟨hbackend',-,f',hf'⟩ := footprint_applied_iff.mp (hsame.trans happlied)
    rw [hostPeak_of_footprint hbackend hpolicy hf,hostPeak_of_footprint hbackend' hpolicy hf',hkey]
    refine max?_grows (.cons (footprintPeak_grows h hf hf')
      (.cons (unifiedAllocatorPeak_grows h _) (List.rel_append (hostValues_grow h) ?_)))
    refine List.rel_map (R:=SampleGrows) ?_ h.samples
    intro x y hxy
    exact getD_grows hxy.rss
  · rw [hostPeak_of_conservative happlied,
      hostPeak_of_conservative (fun h' => happlied (hsame.symm.trans h')),hkey]
    exact conservativePeak_grows h _

end Footprints

section Assessments

variable {backend : Backend} {name : String} {peak peak' : Option ℕ}
variable {budget budget' : Option PhysicalBudget}

/-- An envelope over a larger peak is larger, and no better. -/
theorem envelope_grows (h : Option.Rel (· ≤ ·) peak peak') :
    (∀ e,(envelope name peak budget).needed=some e →
      ∃ e',(envelope name peak' budget).needed=some e' ∧ e ≤ e') ∧
    ((envelope name peak' budget).unsafeReasons=[] →
      (envelope name peak budget).unsafeReasons=[]) ∧
    ((envelope name peak' budget).unknownReasons=[] →
      (envelope name peak budget).unknownReasons=[]) := by
  cases h with
  | none =>
    obtain ⟨hneeded,hunfit,hunknown⟩ := @envelope_none name none budget (.inl rfl)
    exact ⟨fun e he => ⟨e,he,Nat.le_refl e⟩,id,id⟩
  | @some p p' hle =>
    cases havailable : budget.bind (·.availableBytes) with
    | none =>
      obtain ⟨hneeded,hunfit,-⟩ := @envelope_none name (some p) budget (.inr havailable)
      obtain ⟨-,-,hunknown⟩ := @envelope_none name (some p') budget (.inr havailable)
      refine ⟨fun e he => ?_,fun _ => hunfit,fun h => absurd h hunknown⟩
      rw [hneeded] at he
      cases he
    | some available =>
      obtain ⟨b,rfl,hb⟩ := Option.bind_eq_some_iff.mp havailable
      have hneeded := (@enveloped_le_iff b p p').mpr hle
      rw [envelope_some hb,envelope_some hb]
      refine ⟨fun e he => ?_,fun h => ?_,fun _ => rfl⟩
      · cases he
        exact ⟨_,rfl,hneeded⟩
      · rw [ite_eq_right_iff] at h ⊢
        intro hunfit
        exact absurd (h (by omega)) (List.cons_ne_nil _ _)

/-- An envelope against an easier budget stays without reasons. -/
theorem envelope_eases (h : Option.Rel Eases budget budget')
    (hunfit : (envelope name peak budget).unsafeReasons=[])
    (hunknown : (envelope name peak budget).unknownReasons=[]) :
    (envelope name peak budget').unsafeReasons=[] ∧
      (envelope name peak budget').unknownReasons=[] := by
  cases peak with
  | none => exact absurd hunknown (@envelope_none name none budget (.inl rfl)).2.2
  | some p =>
    cases h with
    | none => exact ⟨hunfit,hunknown⟩
    | @some b b' heases =>
      have havailable := heases.available
      cases hb : b.availableBytes with
      | none =>
        have hnone : (some b).bind (·.availableBytes)=none := hb
        exact absurd hunknown (envelope_none (.inr hnone)).2.2
      | some x =>
        rw [hb] at havailable
        cases hb' : b'.availableBytes with
        | none =>
          rw [hb'] at havailable
          cases havailable
        | some y =>
          rw [hb'] at havailable
          cases havailable with
          | some hle =>
            have hneeded := @enveloped_eases b b' p heases
            have hheadroom := heases.headroom
            rw [envelope_some hb] at hunfit
            rw [envelope_some hb']
            refine ⟨?_,rfl⟩
            rw [ite_eq_right_iff] at hunfit ⊢
            intro hbad
            exact absurd (hunfit (by omega)) (List.cons_ne_nil _ _)

variable {a a' : ProfileArtifact} {m m' : MemoryMeasurement} {capacity capacity' : MemoryAmounts}
variable {host host' : PhysicalBudget} {device device' : Option PhysicalBudget}
variable {policy : MlxFitPolicy}

/-- A safe fit stays safe with more capacity and easier budgets. -/
theorem fits_eases (hcapacity : AmountsLe capacity capacity') (hhost : Eases host host')
    (hdevice : Option.Rel Eases device device')
    (h : (assessMemory a m capacity host device policy).status=.fits) :
    (assessMemory a m capacity' host' device' policy).status=.fits := by
  obtain ⟨⟨hreserved,htelemetry⟩,⟨hunfit,hunknown⟩,hunfit',hunknown'⟩ := status_fits_iff.mp h
  rw [reservationReasons_eq_nil] at hreserved
  rw [telemetryReasons_eq_nil] at htelemetry
  obtain ⟨hcompleted,hcaps,hphases,hphysical⟩ := htelemetry
  refine status_fits_iff.mpr ⟨⟨?_,?_⟩,?_,?_⟩
  · refine reservationReasons_eq_nil.mpr fun sample hsample field => ?_
    exact (hreserved sample hsample field).trans (hcapacity field)
  · exact telemetryReasons_eq_nil.mpr ⟨hcompleted,fun field => (hcaps field).trans
      (hcapacity field),hphases,hphysical⟩
  · exact envelope_eases (.some hhost) hunfit hunknown
  · unfold deviceEnvelope at hunfit' hunknown' ⊢
    split
    · rename_i hcuda
      rw [if_pos hcuda] at hunfit' hunknown'
      exact envelope_eases hdevice hunfit' hunknown'
    · exact ⟨rfl,rfl⟩

/-- Reservations of a sample grow. -/
theorem required_grows {x y : MemorySample} (h : SampleGrows x y) (field : MemoryField) :
    x.required field ≤ y.required field :=
  Nat.add_le_add (Nat.add_le_add (h.weights field) (h.cache field)) (h.workspace field)

/-- Phases and peak scopes are observed in both samples or in neither. -/
theorem scope_grows {x y : MemorySample} (h : SampleGrows x y) :
    (∃ a,y.allocator=some a ∧ a.peakScope=.phase) → ∃ a,x.allocator=some a ∧ a.peakScope=.phase := by
  rintro ⟨b,hb,hscope⟩
  have hallocator := h.allocator
  rw [hb] at hallocator
  cases ha : x.allocator with
  | none =>
    rw [ha] at hallocator
    cases hallocator
  | some a =>
    rw [ha] at hallocator
    cases hallocator with
    | some hab => exact ⟨a,rfl,hab.scope.symm.trans hscope⟩

/-- Device observations are there in both measurements or in neither. -/
theorem physical_grows (h : MeasurementGrows m m')
    (hsome : m'.physicalSamples.filterMap (·.deviceProcessBytes)≠[]) :
    m.physicalSamples.filterMap (·.deviceProcessBytes)≠[] := by
  have hgrows := forall₂_filterMap h.physicalSamples
    (f:=PhysicalSample.deviceProcessBytes) fun _ _ hxy => hxy.device
  intro hnone
  rw [hnone] at hgrows
  exact hsome (List.forall₂_nil_left_iff.mp hgrows)

/-- A fit that is safe on larger counters is safe on smaller ones. -/
theorem fits_grows (h : MeasurementGrows m m') (hkey : a'.key=a.key)
    (hsame : (hostPeak a' m' policy).2.1=(hostPeak a m policy).2.1)
    (hfits : (assessMemory a' m' capacity host device policy).status=.fits) :
    (assessMemory a m capacity host device policy).status=.fits := by
  obtain ⟨⟨hreserved,htelemetry⟩,⟨hunfit,hunknown⟩,hunfit',hunknown'⟩ := status_fits_iff.mp hfits
  rw [reservationReasons_eq_nil] at hreserved
  rw [telemetryReasons_eq_nil,hkey] at htelemetry
  rw [hkey] at hunfit' hunknown'
  obtain ⟨hcompleted,hcaps,hphases,hphysical⟩ := htelemetry
  rw [h.completed] at hcompleted
  rw [h.admissionCapacity] at hcaps
  obtain ⟨-,hhostUnfit,hhostUnknown⟩ := @envelope_grows "host/unified" _ _ (some host)
    (hostPeak_grows h hkey hsame)
  have hpairs : ∀ x∈m.samples,∃ y∈m'.samples,SampleGrows x y := by
    intro x hx
    obtain ⟨i,hi,rfl⟩ := List.getElem_of_mem hx
    have hlength := h.samples.length_eq
    exact ⟨m'.samples[i],List.getElem_mem _,h.samples.get hi (by omega)⟩
  refine status_fits_iff.mpr ⟨⟨?_,?_⟩,⟨hhostUnfit hunfit,hhostUnknown hunknown⟩,?_⟩
  · refine reservationReasons_eq_nil.mpr fun x hx field => ?_
    obtain ⟨y,hy,hxy⟩ := hpairs x hx
    exact (required_grows hxy field).trans (hreserved y hy field)
  · refine telemetryReasons_eq_nil.mpr ⟨hcompleted,hcaps,fun hbackend x hx hexecutes => ?_,
      fun hcuda => physical_grows h (hphysical hcuda)⟩
    obtain ⟨y,hy,hxy⟩ := hpairs x hx
    rw [←hxy.phase] at hexecutes
    exact scope_grows hxy (hphases hbackend y hy hexecutes)
  · unfold deviceEnvelope at hunfit' hunknown' ⊢
    split
    · rename_i hcuda
      rw [if_pos hcuda] at hunfit' hunknown'
      obtain ⟨-,hdeviceUnfit,hdeviceUnknown⟩ := @envelope_grows "device" _ _ device
        (max?_grows (deviceValues_grow h a.key.backend))
      exact ⟨hdeviceUnfit hunfit',hdeviceUnknown hunknown'⟩
    · exact ⟨rfl,rfl⟩

/-- Envelopes over larger counters are larger. -/
theorem envelopes_grow (h : MeasurementGrows m m') (hkey : a'.key=a.key)
    (hsame : (hostPeak a' m' policy).2.1=(hostPeak a m policy).2.1) :
    (∀ e,(assessMemory a m capacity host device policy).hostEnvelopeBytes=some e →
      ∃ e',(assessMemory a' m' capacity host device policy).hostEnvelopeBytes=some e' ∧ e ≤ e') ∧
    ∀ e,(assessMemory a m capacity host device policy).deviceEnvelopeBytes=some e →
      ∃ e',(assessMemory a' m' capacity host device policy).deviceEnvelopeBytes=some e' ∧
        e ≤ e' := by
  refine ⟨(@envelope_grows "host/unified" _ _ (some host) (hostPeak_grows h hkey hsame)).1,?_⟩
  obtain ⟨-,hparts,-⟩ := @assessMemory_parts a m capacity host device policy
  obtain ⟨-,hparts',-⟩ := @assessMemory_parts a' m' capacity host device policy
  rw [hparts,hparts',hkey]
  unfold deviceEnvelope
  split
  · exact (envelope_grows (max?_grows (deviceValues_grow h a.key.backend))).1
  · intro e he
    cases he

end Assessments

/-- `assess_fit` is monotone. More capacity, more availability and smaller
allowances keep a safe fit safe and never change the policy that is applied.
Larger byte counters never turn another fit into a safe one and never lower an
envelope, on each backend and for each policy, as long as they do not make the
footprint policy inapplicable. -/
theorem assess_fit_monotone {a : ProfileArtifact} {capacity : MemoryAmounts}
    {host : PhysicalBudget} {device : Option PhysicalBudget} {policy : MlxFitPolicy}
    {r : FitResult} (h : assessFit a capacity host device policy=.ok r) :
    (∀ capacity' host' device' r',AmountsLe capacity capacity' → Eases host host' →
      Option.Rel Eases device device' → assessFit a capacity' host' device' policy=.ok r' →
      (r.status=.fits → r'.status=.fits) ∧ r'.policy=r.policy) ∧
    ∀ a' r',ArtifactGrows a a' → assessFit a' capacity host device policy=.ok r' →
      (a.key.backend=.mlx → policy=.footprint → r'.policy=r.policy) →
      (r'.status=.fits → r.status=.fits) ∧
      (∀ e,r.hostEnvelopeBytes=some e → ∃ e',r'.hostEnvelopeBytes=some e' ∧ e ≤ e') ∧
      ∀ e,r.deviceEnvelopeBytes=some e → ∃ e',r'.deviceEnvelopeBytes=some e' ∧ e ≤ e' := by
  unfold assessFit at h
  split at h
  · rename_i m hm
    cases h
    constructor
    · intro capacity' host' device' r' hcapacity hhost hdevice h'
      unfold assessFit at h'
      rw [hm] at h'
      cases h'
      exact ⟨fits_eases hcapacity hhost hdevice,rfl⟩
    · rintro a' r' hgrows h' hpolicy
      obtain ⟨m₁,m',hm₁,hm',hmeasured⟩ := hgrows.measurement
      cases hm.symm.trans hm₁
      unfold assessFit at h'
      rw [hm'] at h'
      cases h'
      have hkey := hgrows.key
      have hsame : (hostPeak a' m' policy).2.1=(hostPeak a m policy).2.1 := by
        by_cases hasked : a.key.backend=.mlx ∧ policy=.footprint
        · exact hpolicy hasked.1 hasked.2
        · unfold hostPeak
          rw [hkey]
          simp only [if_neg hasked]
      exact ⟨fits_grows hmeasured hkey hsame,envelopes_grow hmeasured hkey hsame⟩
  · cases h

/-- A larger peak of the last phase. -/
theorem cpuArtifact_grows : ArtifactGrows (cpuArtifact (some 100)) (cpuArtifact (some 200)) := by
  have hsample : ∀ phase p q,p ≤ q →
      SampleGrows (cpuSample phase (some p)) (cpuSample phase (some q)) := by
    intro phase p q hpq
    exact ⟨rfl,rfl,amountsLe_refl _,amountsLe_refl _,amountsLe_refl _,.none,.some (Nat.le_refl _),
      .some hpq,.none⟩
  refine ⟨rfl,rfl,rfl,_,_,rfl,rfl,rfl,?_,.cons ⟨.some (Nat.le_refl _),.none⟩ .nil,rfl⟩
  refine List.forall₂_map_left_iff.mpr (List.forall₂_map_right_iff.mpr
    (List.forall₂_same.mpr fun phase _ => ?_))
  by_cases hphase : phase=.unload
  · rw [if_pos hphase,if_pos hphase]
    exact hsample phase 100 200 (by omega)
  · rw [if_neg hphase,if_neg hphase]
    exact hsample phase 100 100 (Nat.le_refl _)

/-- A sample of an exercise with MLX, with the counters the footprint policy asks for. -/
def mlxSample (phase : MemoryPhase) (footprintPeak : ℕ) : MemorySample where
  cycle := 0
  phase := phase
  weights := noMemory
  cache := noMemory
  workspace := noMemory
  allocator := some ⟨20,10,40,.phase⟩
  rssBytes := some 90
  rssLifetimePeakBytes := some 100
  deviceAvailableBytes := none
  completedSteps := 1
  processMemory := some ⟨7,1,some 90,some 100,some 95,some footprintPeak⟩
  consistent := by
    rintro p ⟨⟩
    exact ⟨rfl,rfl⟩

/-- A completed exercise with MLX, with the footprint peak of its last phase. -/
def mlxExercise (peak : ℕ) : MemoryMeasurement where
  admissionCapacity := noMemory
  samples := memoryPhases.map fun phase => mlxSample phase (if phase=.unload then peak else 150)
  physicalSamples := [⟨some 95,none⟩]
  completed := true
  error := none

/-- The artifact of such an exercise. -/
def mlxArtifact (peak : ℕ) : ProfileArtifact :=
  { cpuArtifact none with
    schemaVersion := .v13
    key := { (cpuArtifact none).key with backend := .mlx }
    measurement := .memory (mlxExercise peak) }

/-- A larger footprint peak of the last phase. -/
theorem mlxArtifact_grows : ArtifactGrows (mlxArtifact 150) (mlxArtifact 200) := by
  have hsample : ∀ phase p q,p ≤ q → SampleGrows (mlxSample phase p) (mlxSample phase q) := by
    intro phase p q hpq
    refine ⟨rfl,rfl,amountsLe_refl _,amountsLe_refl _,amountsLe_refl _,?_,.some (Nat.le_refl _),
      .some (Nat.le_refl _),?_⟩
    · exact .some ⟨Nat.le_refl _,Nat.le_refl _,Nat.le_refl _,rfl⟩
    · exact .some ⟨rfl,rfl,.some (Nat.le_refl _),.some (Nat.le_refl _),.some (Nat.le_refl _),
        .some hpq⟩
  refine ⟨rfl,rfl,rfl,_,_,rfl,rfl,rfl,?_,.cons ⟨.some (Nat.le_refl _),.none⟩ .nil,rfl⟩
  refine List.forall₂_map_left_iff.mpr (List.forall₂_map_right_iff.mpr
    (List.forall₂_same.mpr fun phase _ => ?_))
  by_cases hphase : phase=.unload
  · rw [if_pos hphase,if_pos hphase]
    exact hsample phase 150 200 (by omega)
  · rw [if_neg hphase,if_neg hphase]
    exact hsample phase 150 150 (Nat.le_refl _)

/-- More availability and a larger peak, on the CPU and for the footprint of MLX. -/
theorem fit_monotone_of_peaks :
    ((assessMemory (cpuArtifact (some 100)) (cpuExercise (some 100)) noMemory (cpuBudget 2000)
      none .conservative).status=.fits ∧
    (assessMemory (cpuArtifact (some 200)) (cpuExercise (some 200)) noMemory (cpuBudget 1000)
      none .conservative).hostEnvelopeBytes=some 220 ∧
    ∃ e,some e=(assessMemory (cpuArtifact (some 200)) (cpuExercise (some 200)) noMemory
      (cpuBudget 1000) none .conservative).hostEnvelopeBytes ∧ 110 ≤ e) ∧
    (assessMemory (mlxArtifact 150) (mlxExercise 150) noMemory (cpuBudget 180) none
      .footprint).status=.fits ∧
    (assessMemory (mlxArtifact 200) (mlxExercise 200) noMemory (cpuBudget 180) none
      .footprint).policy=.mlxFootprintMax ∧
    ∃ e,some e=(assessMemory (mlxArtifact 200) (mlxExercise 200) noMemory (cpuBudget 180) none
      .footprint).hostEnvelopeBytes ∧ 165 ≤ e := by
  refine ⟨?_,?_⟩
  · obtain ⟨heases,hgrows⟩ := @assess_fit_monotone (cpuArtifact (some 100)) noMemory
      (cpuBudget 1000) none .conservative _ rfl
    have hstatus := (heases noMemory (cpuBudget 2000) none _ (amountsLe_refl _)
      ⟨.some (by omega),Nat.le_refl _,Nat.le_refl _,le_rfl⟩ .none rfl).1 (by decide +kernel)
    obtain ⟨-,henvelope,-⟩ := hgrows (cpuArtifact (some 200)) _ cpuArtifact_grows rfl
      (fun _ _ => rfl)
    obtain ⟨e,he,hle⟩ := henvelope 110 (by decide +kernel)
    exact ⟨hstatus,by decide +kernel,e,he.symm,hle⟩
  · obtain ⟨heases,hgrows⟩ := @assess_fit_monotone (mlxArtifact 150) noMemory (cpuBudget 170)
      none .footprint _ rfl
    have hstatus := (heases noMemory (cpuBudget 180) none _ (amountsLe_refl _)
      ⟨.some (by omega),Nat.le_refl _,Nat.le_refl _,le_rfl⟩ .none rfl).1 (by decide +kernel)
    obtain ⟨-,henvelope,-⟩ := hgrows (mlxArtifact 200) _ mlxArtifact_grows rfl
      (fun _ _ => by decide +kernel)
    obtain ⟨e,he,hle⟩ := henvelope 165 (by decide +kernel)
    exact ⟨hstatus,by decide +kernel,e,he.symm,hle⟩

end Hllm.FitMonotone
