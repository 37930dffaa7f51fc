import Hllm.QualificationAcceptance
import Mathlib.Data.List.Dedup

/-!
# Memory of an accepted record

Rounds, gates, snapshots and envelopes are lists joined by worker id and
cycle. The assessment starts its joins at gates and at snapshots, never at
rounds. A round is covered as soon as each worker has a snapshot of its cycle.
-/

namespace Hllm.QualificationMemory

open QualificationModel QualificationAcceptance

variable {hashes : Hashes} {numerics : Numerics} {e : ConcurrentServingEvidence}

/-- The snapshots of a worker in a cycle. -/
def servingSnapshots (observed : WorkerObservations) (cycle : ℕ) : List WorkerSnapshot :=
  observed.snapshots.filter fun s => s.cycle=some cycle

/-- A worker is covered in a cycle: a safe gate, and a recorded safe envelope
of the cycle's snapshots against the budgets of that gate. -/
def Covered (numerics : Numerics) (e : ConcurrentServingEvidence) (worker : WorkerIdentity)
    (observed : WorkerObservations) (cycle : ℕ) : Prop :=
  ∃ gate∈e.preconditions.gates,gate.workerId=worker.workerId ∧ gate.cycle=cycle ∧
    gate.status=.safe ∧ servingSnapshots observed cycle≠[] ∧ ∃ devicePeak,
    ∃ p∈e.results.physical,p=assessServingEnvelope numerics worker.workerId worker.backend
      (servingSnapshots observed cycle) cycle gate.hostBudget gate.deviceBudget
      e.configuration.mlxFitPolicy devicePeak ∧ p.status=.safe

/-- What an accepted record is taken to say about memory. -/
structure CoversMemory (numerics : Numerics) (e : ConcurrentServingEvidence) : Prop where
  /-- Every worker is covered in every cycle of a round. -/
  cycles : ∀ round∈e.results.rounds,∀ x∈zipped e.identity.workers e.observations,
    Covered numerics e x.1 x.2 round.cycle
  /-- No snapshot is of another process. -/
  processes : ∀ x∈zipped e.identity.workers e.observations,∀ s∈x.2.snapshots,
    (∀ p∈s.processId,p=x.1.processId) ∧ ∀ m∈s.processMemory,m.processId=x.1.processId
  /-- Every snapshot fits the admission capacity. -/
  admission : ∀ x∈zipped e.observations e.configuration.workers,∀ s∈x.1.snapshots,
    fits (addAmounts s.loadedWeights (addAmounts s.reservedCache s.reservedWorkspace))
      x.2.admissionCapacity=true

/-- Each worker has a snapshot of the cycle of every round. -/
def SampledRounds (e : ConcurrentServingEvidence) : Prop :=
  ∀ round∈e.results.rounds,∀ observed∈both e.observations,
    ∃ s∈observed.snapshots,s.cycle=some round.cycle

/-- Two pairs are side by side both ways. -/
theorem zipped_swap {α β : Type*} {a : α×α} {b : β×β} {x : α} {y : β} (h : (x,y)∈zipped a b) :
    (y,x)∈zipped b a := by
  simp only [zipped,List.mem_cons,List.not_mem_nil,or_false,Prod.mk.injEq] at h ⊢
  exact h.imp And.symm And.symm

/-- The gates of a worker are the gates with its id. -/
theorem mem_gatesOf {preconditions : Preconditions} {id : String} {gate : CycleGate} :
    gate∈gatesOf preconditions id ↔ gate∈preconditions.gates ∧ gate.workerId=id := by
  rw [gatesOf,List.mem_insertionSort,List.mem_filter,decide_eq_true_eq]

/-- Every gate of a worker has its envelope. -/
theorem mem_physicalOf {configuration : Configuration} {finishedAt : ℤ} {worker : WorkerIdentity}
    {observed : WorkerObservations} {gates : List CycleGate} {gate : CycleGate}
    (h : gate∈gates) : ∃ devicePeak,assessServingEnvelope numerics worker.workerId worker.backend
      (servingSnapshots observed gate.cycle) gate.cycle gate.hostBudget gate.deviceBudget
      configuration.mlxFitPolicy devicePeak∈
        physicalOf numerics configuration finishedAt worker observed gates := by
  induction gates with
  | nil => cases h
  | cons head gates ih =>
    rcases List.mem_cons.mp h with rfl|h
    · exact ⟨_,.head _⟩
    · obtain ⟨devicePeak,hmem⟩ := ih h
      exact ⟨devicePeak,.tail _ hmem⟩

/-- The larger amounts are no smaller. -/
theorem fits_trans {a b c : MemoryAmounts} (h : fits a b=true) (h' : fits b c=true) :
    fits a c=true := by
  simp only [fits,Bool.and_eq_true,decide_eq_true_eq] at h h' ⊢
  omega

/-- Every amount fits the largest. -/
theorem fits_maxAmounts {values : List MemoryAmounts} {value : MemoryAmounts} (h : value∈values) :
    fits value (maxAmounts values)=true := by
  have hfold : ∀ (values : List MemoryAmounts) (first : MemoryAmounts),
      fits first (values.foldl larger first)=true ∧
        ∀ value∈values,fits value (values.foldl larger first)=true := by
    intro values
    induction values with
    | nil => exact fun first => ⟨by simp [fits],by simp⟩
    | cons head values ih =>
      intro first
      obtain ⟨hfirst,hrest⟩ := ih (larger first head)
      have hleft : fits first (larger first head)=true := by simp [fits,larger]
      have hright : fits head (larger first head)=true := by simp [fits,larger]
      refine ⟨fits_trans hleft hfirst,fun value hvalue => ?_⟩
      rcases List.mem_cons.mp hvalue with rfl|hvalue
      · exact fits_trans hright hfirst
      · exact hrest value hvalue
  exact (hfold values {}).2 value h

/-- Sums of amounts that fit, fit. -/
theorem fits_addAmounts {a a' b b' : MemoryAmounts} (h : fits a a'=true) (h' : fits b b'=true) :
    fits (addAmounts a b) (addAmounts a' b')=true := by
  simp only [fits,Bool.and_eq_true,decide_eq_true_eq] at h h' ⊢
  obtain ⟨⟨⟨hhost,hdevice⟩,hpinned⟩,hunified⟩ := h
  obtain ⟨⟨⟨hhost',hdevice'⟩,hpinned'⟩,hunified'⟩ := h'
  exact ⟨⟨⟨Nat.add_le_add hhost hhost',Nat.add_le_add hdevice hdevice'⟩,
    Nat.add_le_add hpinned hpinned'⟩,Nat.add_le_add hunified hunified'⟩

/-- What nothing was found against in an accepted record, apart from its rounds. -/
theorem accepted_sections (h : Accepted hashes numerics e) :
    servingFindings e=[] ∧ resultFindings e=[] := by
  have hnone := h.findings
  simp only [QualificationModel.findings,List.append_eq_nil_iff] at hnone
  exact ⟨hnone.1.1.2,hnone.2⟩

/-- A worker with a snapshot of a cycle is covered in it. -/
theorem covered_of_snapshot (h : Accepted hashes numerics e) {worker : WorkerIdentity}
    {observed : WorkerObservations}
    (hworker : (worker,observed)∈zipped e.identity.workers e.observations)
    {s : WorkerSnapshot} (hs : s∈observed.snapshots) {cycle : ℕ} (hcycle : s.cycle=some cycle) :
    Covered numerics e worker observed cycle := by
  obtain ⟨hserving,hresults⟩ := accepted_sections h
  simp only [servingFindings,List.append_eq_nil_iff,List.flatMap_eq_nil_iff,failedIf_eq_nil,
    ne_eq,not_not] at hserving
  obtain ⟨⟨hgates,-⟩,hworkers⟩ := hserving
  simp only [resultFindings,List.append_eq_nil_iff,List.flatMap_eq_nil_iff] at hresults
  obtain ⟨⟨⟨-,hphysical⟩,-⟩,-⟩ := hresults
  have hids : observed.workerId=worker.workerId := by
    have hobserved := h.observed
    have hordered := e.identity.ordered.1
    rw [←hordered] at hobserved
    simp only [zipped,List.mem_cons,List.not_mem_nil,or_false,Prod.mk.injEq] at hworker
    rcases hworker with ⟨rfl,rfl⟩|⟨rfl,rfl⟩
    · exact congrArg Prod.fst hobserved
    · exact congrArg Prod.snd hobserved
  have hfound := hworkers _ (zipped_swap hworker)
  simp only [workerFindings,List.append_eq_nil_iff,List.flatMap_eq_nil_iff,unknownIf_eq_nil,
    Bool.not_eq_false] at hfound
  obtain ⟨⟨⟨⟨⟨-,hcycles⟩,-⟩,-⟩,-⟩,-⟩ := hfound
  have hmember : cycle∈cyclesOf observed.snapshots := by
    rw [cyclesOf,List.mem_insertionSort,List.mem_dedup,List.mem_filterMap]
    exact ⟨s,hs,hcycle⟩
  have hgated := hcycles cycle hmember
  rw [gated,List.any_eq_true] at hgated
  obtain ⟨gate,hgate,htest⟩ := hgated
  simp only [Bool.and_eq_true,decide_eq_true_eq] at htest
  obtain ⟨hname,rfl⟩ := htest
  rw [hids] at hname
  have hlisted : gate∈gatesOf e.preconditions worker.workerId := mem_gatesOf.mpr ⟨hgate,hname⟩
  obtain ⟨devicePeak,henvelope⟩ := @mem_physicalOf numerics e.configuration e.results.finishedAt
    worker observed _ gate hlisted
  have hrecorded : assessServingEnvelope numerics worker.workerId worker.backend
      (servingSnapshots observed gate.cycle) gate.cycle gate.hostBudget gate.deviceBudget
      e.configuration.mlxFitPolicy devicePeak∈e.results.physical := by
    rw [h.physical,derivePhysical,List.mem_flatMap]
    exact ⟨_,hworker,henvelope⟩
  have hsafe := hphysical _ hrecorded
  refine ⟨gate,hgate,hname,rfl,hgates gate hgate,?_,devicePeak,_,hrecorded,rfl,?_⟩
  · refine List.ne_nil_of_mem (a := s) ?_
    rw [servingSnapshots,List.mem_filter]
    exact ⟨hs,decide_eq_true hcycle⟩
  · split at hsafe
    · cases hsafe
    · cases hsafe
    · assumption

/-- Snapshots of an accepted record are of the worker's process. -/
theorem processes_of_accepted (h : Accepted hashes numerics e) {worker : WorkerIdentity}
    {observed : WorkerObservations}
    (hworker : (worker,observed)∈zipped e.identity.workers e.observations)
    {s : WorkerSnapshot} (hs : s∈observed.snapshots) :
    (∀ p∈s.processId,p=worker.processId) ∧ ∀ m∈s.processMemory,m.processId=worker.processId := by
  obtain ⟨hserving,-⟩ := accepted_sections h
  simp only [servingFindings,List.append_eq_nil_iff,List.flatMap_eq_nil_iff] at hserving
  have hfound := hserving.2 _ (zipped_swap hworker)
  simp only [workerFindings,List.append_eq_nil_iff,failedIf_eq_nil] at hfound
  obtain ⟨⟨⟨⟨-,hprocess⟩,-⟩,-⟩,-⟩ := hfound
  refine ⟨fun p hp => ?_,fun m hm => ?_⟩
  · by_contra hne
    exact hprocess ⟨s,hs,.inl ⟨p,hp,hne⟩⟩
  · by_contra hne
    exact hprocess ⟨s,hs,.inr ⟨m,hm,hne⟩⟩

/-- Snapshots of an accepted record fit the admission capacity. -/
theorem admission_of_accepted (h : Accepted hashes numerics e) {observed : WorkerObservations}
    {config : WorkerConfiguration}
    (hworker : (observed,config)∈zipped e.observations e.configuration.workers)
    {s : WorkerSnapshot} (hs : s∈observed.snapshots) :
    fits (addAmounts s.loadedWeights (addAmounts s.reservedCache s.reservedWorkspace))
      config.admissionCapacity=true := by
  obtain ⟨-,hresults⟩ := accepted_sections h
  simp only [resultFindings,List.append_eq_nil_iff,List.flatMap_eq_nil_iff,failedIf_eq_nil,
    Bool.not_eq_false] at hresults
  obtain ⟨⟨⟨hpeaks,-⟩,-⟩,-⟩ := hresults
  have hmember : logicalPeak observed config∈both e.results.logicalPeaks := by
    rw [h.peaks,deriveLogicalPeaks]
    simp only [zipped,both,List.mem_cons,List.not_mem_nil,or_false,Prod.mk.injEq] at hworker ⊢
    rcases hworker with ⟨rfl,rfl⟩|⟨rfl,rfl⟩
    · exact .inl rfl
    · exact .inr rfl
  have hpeak := hpeaks _ hmember
  refine fits_trans (fits_addAmounts ?_ (fits_addAmounts ?_ ?_)) hpeak
  · exact fits_maxAmounts (List.mem_map_of_mem hs)
  · exact fits_maxAmounts (List.mem_map_of_mem hs)
  · exact fits_maxAmounts (List.mem_map_of_mem hs)

/-- An accepted record covers memory for every cycle that ran if and only if
each worker has a snapshot of the cycle of every round. -/
theorem accepted_covers_iff (h : Accepted hashes numerics e) :
    CoversMemory numerics e ↔ SampledRounds e := by
  constructor
  · intro hcovers round hround observed hobserved
    have hpaired : ∃ worker,(worker,observed)∈zipped e.identity.workers e.observations := by
      simp only [both,List.mem_cons,List.not_mem_nil,or_false] at hobserved
      rcases hobserved with rfl|rfl
      · exact ⟨_,.head _⟩
      · exact ⟨_,.tail _ (.head _)⟩
    obtain ⟨worker,hworker⟩ := hpaired
    obtain ⟨gate,-,-,-,-,hrows,-⟩ := hcovers.cycles round hround _ hworker
    obtain ⟨s,hs⟩ := List.exists_mem_of_ne_nil _ hrows
    rw [servingSnapshots,List.mem_filter,decide_eq_true_eq] at hs
    exact ⟨s,hs⟩
  · intro hsampled
    refine ⟨fun round hround x hx => ?_,fun x hx s hs => processes_of_accepted h hx hs,
      fun x hx s hs => admission_of_accepted h hx hs⟩
    have hobserved : x.2∈both e.observations := by
      simp only [zipped,both,List.mem_cons,List.not_mem_nil,or_false] at hx ⊢
      rcases hx with rfl|rfl
      · exact .inl rfl
      · exact .inr rfl
    obtain ⟨s,hs,hcycle⟩ := hsampled round hround x.2 hobserved
    exact covered_of_snapshot h hx hs hcycle

/-- A cancel round in a cycle without gates and snapshots is accepted. -/
theorem unsampled_cycle_accepted :
    Accepted sampleHashes sampleNumerics (sampleEvidence "a" "b" 7 sampleComparisons) ∧
      ¬CoversMemory sampleNumerics (sampleEvidence "a" "b" 7 sampleComparisons) := by
  refine ⟨sample_accepted (by decide +kernel),fun hcovers => ?_⟩
  obtain ⟨gate,hgate,-,hcycle,-⟩ := hcovers.cycles ⟨7,1,.cancel "victim" "survivor"⟩
    (.tail _ (.head _)) (sampleWorker "first" 0,sampleObserved "first") (.head _)
  have hzero : ∀ gate∈samplePreconditions.gates,gate.cycle=0 := by decide
  rw [hzero gate hgate] at hcycle
  cases hcycle

/-- A record whose rounds are all in the sampled cycle covers their memory. -/
theorem accepted_covers_of_sampled :
    Accepted sampleHashes sampleNumerics (sampleEvidence "a" "b" 0 sampleComparisons) ∧
      CoversMemory sampleNumerics (sampleEvidence "a" "b" 0 sampleComparisons) := by
  have haccepted : Accepted sampleHashes sampleNumerics
      (sampleEvidence "a" "b" 0 sampleComparisons) := sample_accepted (by decide +kernel)
  refine ⟨haccepted,(accepted_covers_iff haccepted).mpr fun round hround observed hobserved => ?_⟩
  have hcycle : ∀ round∈(sampleDraft "a" "b" 0 sampleComparisons).rounds,round.cycle=0 := by decide
  have hsnapshots : ∀ observed∈both (sampleDraft "a" "b" 0 sampleComparisons).observations,
      ∃ s∈observed.snapshots,s.cycle=some 0 := by
    intro observed hobserved
    simp only [both,List.mem_cons,List.not_mem_nil,or_false] at hobserved
    rcases hobserved with rfl|rfl
    · exact ⟨_,.head _,rfl⟩
    · exact ⟨_,.head _,rfl⟩
  rw [hcycle round hround]
  exact hsnapshots observed hobserved

end Hllm.QualificationMemory
