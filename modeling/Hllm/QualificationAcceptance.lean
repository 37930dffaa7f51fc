import Hllm.QualificationModel

/-!
# What an accepted record proves

Acceptance is the absence of findings. Each group of findings is turned into
the facts its absence gives, and these are compared with what a reader of an
accepted record expects of overlap, tokens and cancellation. The assessment
looks comparisons up by the rounds and overlaps up by worker id, so records
exist on which it does not look where it should.
-/

namespace Hllm.QualificationAcceptance

open QualificationModel

@[simp] theorem failedIf_eq_nil {condition : Prop} [Decidable condition] {reason : String} :
    failedIf condition reason=[] ↔ ¬condition := by
  simp [failedIf]

@[simp] theorem unknownIf_eq_nil {condition : Prop} [Decidable condition] {reason : String} :
    unknownIf condition reason=[] ↔ ¬condition := by
  simp [unknownIf]

/-- An accepted record has no findings. -/
theorem findings_of_accepted {e : ConcurrentServingEvidence}
    (h : (assessEvidence e).1=.accepted) : findings e=[] := by
  simp only [assessEvidence] at h
  split at h
  · cases h
  · rename_i hfailed
    split at h
    · cases h
    · rename_i hunknown
      rw [not_not,List.filterMap_eq_nil_iff] at hfailed hunknown
      rw [List.eq_nil_iff_forall_not_mem]
      intro finding hm
      cases finding with
      | failed reason => exact absurd (hfailed _ hm) (by simp)
      | unknown reason => exact absurd (hunknown _ hm) (by simp)

/-- A record without findings is accepted. -/
theorem accepted_of_findings {e : ConcurrentServingEvidence} (h : findings e=[]) :
    assessEvidence e=(.accepted,[]) := by
  simp [assessEvidence,h]

/-- A worker that validates and is accepted. -/
structure Accepted (hashes : Hashes) (numerics : Numerics) (e : ConcurrentServingEvidence) :
    Prop extends Validates hashes numerics e where
  accepted : e.results.acceptance=.accepted

variable {hashes : Hashes} {numerics : Numerics} {e : ConcurrentServingEvidence}

/-- Nothing was found against an accepted record. -/
theorem Accepted.findings (h : Accepted hashes numerics e) : findings e=[] := by
  refine findings_of_accepted ?_
  rw [←h.assessed]
  exact h.accepted

/-- An event some snapshot carries. -/
def Recorded (w : WorkerObservations) (ev : LifecycleEvent) : Prop :=
  ∃ s∈w.snapshots,ev∈s.events

/-- A retirement of one request lists the other as allocated. -/
def RetirementShown (w : WorkerObservations) (a b : String) : Prop :=
  ∃ ev,Recorded w ev ∧ ev.kind=.retired ∧
    (ev.requestId=a ∧ b∈ev.concurrentRequestIds ∨ ev.requestId=b ∧ a∈ev.concurrentRequestIds)

/-- A row of a request that holds allocated memory. -/
def AllocatedRow (s : WorkerSnapshot) (id : String) : Prop :=
  ∃ r∈s.requests,r.requestId=id ∧ r.allocating=false ∧ 0 < r.cache.sum

/-- A snapshot carries allocated rows of both requests. -/
def JointlyShown (w : WorkerObservations) (a b : String) : Prop :=
  ∃ s∈w.snapshots,AllocatedRow s a ∧ AllocatedRow s b

/-- A comparison that reproduces a sealed reference, or for a cancelled
request a long enough proper beginning of it. -/
def Reproduces (c : TokenComparison) (reference : List ℕ) : Prop :=
  c.generatedIds=reference ∨
  c.role=.cancelVictim ∧ c.generatedIds<+:reference ∧ c.generatedIds≠reference ∧
    requiredCancelPrefix ≤ c.generatedIds.length

/-- A comparison without an error that reproduces a reference of the workload. -/
def Exact (e : ConcurrentServingEvidence) (c : TokenComparison) : Prop :=
  told c.error=false ∧ ∃ reference∈sealedIds e,Reproduces c reference

/-- A cancelled retirement of the victim lists the survivor, and the survivor
completes later. -/
def CancellationShown (w : WorkerObservations) (victim survivor : String) : Prop :=
  ∃ ev ev',Recorded w ev ∧ Recorded w ev' ∧ ev.kind=.retired ∧ ev.requestId=victim ∧
    ev.reason="cancelled" ∧ survivor∈ev.concurrentRequestIds ∧ ev'.kind=.retired ∧
    ev'.requestId=survivor ∧ ev'.reason="completed" ∧ ev.sequence < ev'.sequence

/-- What an accepted record is taken to prove. -/
structure Proves (e : ConcurrentServingEvidence) : Prop where
  /-- Pairs are of two requests. -/
  distinct : ∀ round∈e.results.rounds,∀ pair∈round.requests.pair,pair.1≠pair.2
  /-- Both workers show the overlap of every pair. -/
  overlap : ∀ round∈e.results.rounds,∀ pair∈round.requests.pair,∀ w∈both e.observations,
    RetirementShown w pair.1 pair.2 ∨ JointlyShown w pair.1 pair.2
  /-- Every comparison is exact. -/
  tokens : ∀ c∈e.results.comparisons,Exact e c
  /-- Comparisons of a round reproduce the reference of their position. -/
  positions : ∀ round∈e.results.rounds,∀ x∈round.requests.ids.zip (sealedIds e),
    ∀ c∈e.results.comparisons,c.requestId=x.1 → Reproduces c x.2
  /-- Both workers show every cancellation. -/
  cancelled : ∀ round∈e.results.rounds,∀ victim survivor,
    round.requests=.cancel victim survivor → ∀ w∈both e.observations,
      CancellationShown w victim survivor

/-- A cancelled retirement of a request. -/
def CancelledRetirement (id : String) (ev : LifecycleEvent) : Prop :=
  ev.kind=.retired ∧ ev.requestId=id ∧ ev.reason="cancelled"

/-- A record whose parts are all found by the lookups of the assessment. -/
structure Addressed (e : ConcurrentServingEvidence) : Prop where
  /-- No paired round names one request twice. -/
  pairs : ∀ round∈e.results.rounds,∀ first second,round.requests=.paired first second →
    first≠second
  /-- Comparisons are of requests that rounds name. -/
  named : ∀ c∈e.results.comparisons,∃ round∈e.results.rounds,c.requestId∈round.requests.ids
  /-- The workers have two ids. -/
  workers : e.identity.workerOrder.1≠e.identity.workerOrder.2
  /-- No worker recorded two cancelled retirements of a victim. -/
  cancellations : ∀ round∈e.results.rounds,∀ victim survivor,
    round.requests=.cancel victim survivor → ∀ w∈both e.observations,∀ ev ev',
      Recorded w ev → Recorded w ev' → CancelledRetirement victim ev →
      CancelledRetirement victim ev' → ev=ev'

/-- A comparison nothing was found against is exact. -/
theorem reproduces_of_findings {c : TokenComparison} {reference : List ℕ}
    (h : comparisonFindings reference c=[]) : told c.error=false ∧ Reproduces c reference := by
  simp only [comparisonFindings,List.append_eq_nil_iff,failedIf_eq_nil,Bool.not_eq_true,
    Bool.not_eq_false] at h
  obtain ⟨⟨herror,hexact⟩,hreference⟩ := h
  have hsame : c.generatedIds=c.expectedIds := by
    have honest := c.honest
    rw [hexact] at honest
    exact of_decide_eq_true honest.symm
  refine ⟨herror,?_⟩
  split at hreference
  · rename_i hrole
    simp only [List.append_eq_nil_iff,failedIf_eq_nil,not_lt,not_or,not_le,ne_eq,not_not]
      at hreference
    obtain ⟨hlong,hshort,htake⟩ := hreference
    refine .inr ⟨hrole,?_,?_,?_⟩
    · rw [hsame,←htake]
      exact List.take_prefix _ _
    · intro heq
      rw [←heq,hsame] at hshort
      exact Nat.lt_irrefl _ hshort
    · rw [hsame]
      exact hlong
  · simp only [failedIf_eq_nil,ne_eq,not_not] at hreference
    exact .inl (hsame.trans hreference)

/-- With one comparison for each id, the assessment finds it. -/
theorem comparisonOf_mem (hids : (e.results.comparisons.map (·.requestId)).Nodup)
    {c : TokenComparison} (hc : c∈e.results.comparisons) :
    comparisonOf e c.requestId=some c := by
  have hsome : (comparisonOf e c.requestId).isSome := by
    rw [comparisonOf,List.find?_isSome]
    exact ⟨c,List.mem_reverse.mpr hc,by simp⟩
  obtain ⟨found,hfound⟩ := Option.isSome_iff_exists.mp hsome
  have hid : found.requestId=c.requestId := by
    have htest := List.find?_some hfound
    simpa using htest
  have hmem : found∈e.results.comparisons :=
    List.mem_reverse.mp (List.mem_of_find?_eq_some hfound)
  rw [hfound,List.inj_on_of_nodup_map hids hmem hc hid]

/-- A traversal that succeeds maps every element to a result. -/
theorem mapM_some {α β : Type*} {f : α → Option β} {xs : List α} {ys : List β}
    (h : xs.mapM f=some ys) : xs.map f=ys.map some := by
  induction xs generalizing ys with
  | nil =>
    cases h
    rfl
  | cons x xs ih =>
    rw [List.mapM_cons] at h
    obtain ⟨y,hy,hrest⟩ := Option.bind_eq_some_iff.mp h
    obtain ⟨rest,hmapped,hys⟩ := Option.bind_eq_some_iff.mp hrest
    cases hys
    rw [List.map_cons,List.map_cons,hy,ih hmapped]

/-- Results stand at the positions of their arguments. -/
theorem mem_zip_of_map {α β γ : Type*} {f : α → Option β} {xs : List α} {ys : List β}
    {zs : List γ} (h : xs.map f=ys.map some) {x : α} {y : β} {z : γ} (hx : (x,z)∈xs.zip zs)
    (hy : f x=some y) : (z,y)∈zs.zip ys := by
  induction xs generalizing ys zs with
  | nil => cases hx
  | cons head xs ih =>
    cases zs with
    | nil => cases hx
    | cons top zs =>
      cases ys with
      | nil => cases h
      | cons first ys =>
        rw [List.map_cons,List.map_cons,List.cons.injEq] at h
        rw [List.zip_cons_cons,List.mem_cons] at hx ⊢
        rcases hx with hx|hx
        · cases hx
          rw [hy] at h
          cases h.1
          exact .inl rfl
        · exact .inr (ih h.2 hx)

/-- What holds of a round nothing was found against. -/
structure RoundClean (e : ConcurrentServingEvidence) (round : Round) : Prop where
  /-- Its comparisons exist, with the roles of the round. -/
  roles : (round.requests.ids.map fun id => (comparisonOf e id).map (·.role))=
    round.requests.expectedRoles.map some
  /-- They reproduce the reference of their position. -/
  compared : ∀ x∈round.requests.ids.zip (sealedIds e),∀ c,comparisonOf e x.1=some c →
    told c.error=false ∧ Reproduces c x.2
  /-- Its overlap is recorded for both worker ids. -/
  overlapping : ∀ pair∈round.requests.pair,∀ id∈both e.identity.workerOrder,
    ∃ o∈e.results.overlap,o.workerId=id ∧ o.requestIds=pair
  /-- Its cancellation is recorded on both workers. -/
  cancelled : ∀ victim survivor,round.requests=.cancel victim survivor →
    ∀ w∈both e.observations,cancelFindings victim survivor w=[]

/-- Overlap nothing was found against is recorded. -/
theorem overlap_recorded {pair : String×String} (h : overlapFindings e pair=[]) :
    ∀ id∈both e.identity.workerOrder,∃ o∈e.results.overlap,o.workerId=id ∧ o.requestIds=pair := by
  intro id hid
  rw [overlapFindings,List.flatMap_eq_nil_iff] at h
  have hone := h id hid
  rw [unknownIf_eq_nil,not_not,List.mem_map] at hone
  obtain ⟨o,ho,hkey⟩ := hone
  exact ⟨o,ho,congrArg Prod.fst hkey,congrArg Prod.snd hkey⟩

/-- A round nothing was found against is clean. -/
theorem clean_of_findings {round : Round} (h : roundFindings e round=[]) : RoundClean e round := by
  unfold roundFindings at h
  simp only at h
  split at h
  · cases h
  · rename_i comparisons hcomparisons
    simp only [List.append_eq_nil_iff,failedIf_eq_nil,ne_eq,not_not] at h
    obtain ⟨⟨⟨hroles,hcompared⟩,hoverlap⟩,hcancel⟩ := h
    rw [List.flatMap_eq_nil_iff] at hcompared
    have hmap := mapM_some hcomparisons
    refine ⟨?_,fun x hx c hc => ?_,fun pair hpair => ?_,fun victim survivor hround w hw => ?_⟩
    · have hroles' : round.requests.ids.map (fun id => (comparisonOf e id).map (·.role))=
          (round.requests.ids.map (comparisonOf e)).map (Option.map (·.role)) := by
        rw [List.map_map]
        rfl
      rw [hroles',hmap,←hroles,List.map_map,List.map_map]
      rfl
    · exact reproduces_of_findings (hcompared (x.2,c) (mem_zip_of_map hmap hx hc))
    · rw [Option.mem_def] at hpair
      rw [hpair] at hoverlap
      exact overlap_recorded hoverlap
    · rw [hround,List.flatMap_eq_nil_iff] at hcancel
      exact hcancel w hw

/-- The round section of an assessment without findings. -/
theorem Accepted.rounds (h : Accepted hashes numerics e) :
    (e.results.comparisons.map (·.requestId)).Nodup ∧
      ∀ round∈e.results.rounds,RoundClean e round := by
  have hnone := h.findings
  simp only [QualificationModel.findings,List.append_eq_nil_iff,roundsFindings,failedIf_eq_nil,
    not_not,List.flatMap_eq_nil_iff] at hnone
  obtain ⟨⟨⟨⟨-,-⟩,-⟩,⟨⟨hids,hrounds⟩,-⟩,-⟩,-⟩ := hnone
  exact ⟨hids,fun round hround => clean_of_findings (hrounds round hround)⟩

/-- A recorded event of the dictionary is in a snapshot. -/
theorem recorded_of_mem {w : WorkerObservations} {ev : LifecycleEvent}
    (h : ev∈eventsOf w.snapshots) : Recorded w ev := by
  have hflat := OrderedDict.mem_of_mem_ofList h
  obtain ⟨s,hs,hev⟩ := List.mem_flatMap.mp hflat
  exact ⟨s,hs,hev⟩

/-- An allocated row found is an allocated row. -/
theorem row_of_allocated {s : WorkerSnapshot} {id : String} (h : (allocated s id).isSome) :
    AllocatedRow s id := by
  obtain ⟨r,hr⟩ := Option.isSome_iff_exists.mp h
  have htest := List.find?_some hr
  simp only [Bool.and_eq_true,decide_eq_true_eq,Bool.not_eq_true'] at htest
  exact ⟨r,List.mem_of_find?_eq_some hr,htest.1.1,htest.1.2,htest.2⟩

/-- Retirements used for an interval are retirements of the pair. -/
theorem mem_retirementsAfter {events : List LifecycleEvent} {pair : String×String} {start : Start}
    {ev : LifecycleEvent} (h : ev∈retirementsAfter events pair start) :
    ev∈events ∧ ev.kind=.retired ∧ ev.requestId∈both pair ∧ start.ns ≤ ev.atMonotonicNs ∧
      (∀ sequence∈start.admissionSequence,sequence < ev.sequence) ∧
      ev.reason≠"allocation-failed" := by
  rw [retirementsAfter,List.mem_insertionSort,List.mem_filter] at h
  obtain ⟨hmem,htest⟩ := h
  simp only [Bool.and_eq_true,decide_eq_true_eq,Option.all_eq_true] at htest
  obtain ⟨⟨⟨⟨hkind,hid⟩,hns⟩,hsequence⟩,hreason⟩ := htest
  exact ⟨hmem,hkind,hid,hns,hsequence,hreason⟩

/-- An interval was shown by a retirement or a snapshot. -/
theorem shown_of_overlap {w : WorkerObservations} {pair : String×String} {o : OverlapInterval}
    (h : overlapOf w pair=some o) :
    RetirementShown w pair.1 pair.2 ∨ JointlyShown w pair.1 pair.2 := by
  obtain ⟨start,hstart,hrest⟩ := Option.bind_eq_some_iff.mp h
  simp only at hrest
  split at hrest
  · rename_i witness rest hwitness
    have hmem : witness∈(retirementsAfter (eventsOf w.snapshots) pair start).filter
        (isWitness pair) := by
      rw [hwitness]
      exact .head _
    rw [List.mem_filter] at hmem
    obtain ⟨hevents,hkind,hid,-⟩ := mem_retirementsAfter hmem.1
    have htest := hmem.2
    simp only [isWitness,both,List.any_cons,List.any_nil,Bool.or_false,Bool.or_eq_true,
      Bool.and_eq_true,decide_eq_true_eq,ne_eq] at htest
    simp only [both,List.mem_cons,List.not_mem_nil,or_false] at hid
    refine .inl ⟨witness,recorded_of_mem hevents,hkind,?_⟩
    rcases hid with hid|hid
    · rcases htest with ⟨hne,hlisted⟩|⟨hne,hlisted⟩
      · exact absurd hid.symm hne
      · exact .inl ⟨hid,hlisted⟩
    · rcases htest with ⟨hne,hlisted⟩|⟨hne,hlisted⟩
      · exact .inr ⟨hid,hlisted⟩
      · exact absurd hid.symm hne
  · rename_i first rest hnone hjoint
    have hlate : first∈(w.snapshots.filter (isJoint pair)).filter
        fun s => start.ns ≤ s.observedAtMonotonicNs.getD 0 := by
      rw [hjoint]
      exact .head _
    have hmem := (List.mem_filter.mp hlate).1
    obtain ⟨hsnapshot,htest⟩ := List.mem_filter.mp hmem
    simp only [isJoint,both,List.all_cons,List.all_nil,Bool.and_true,Bool.and_eq_true] at htest
    exact .inr ⟨first,hsnapshot,row_of_allocated htest.2.1,row_of_allocated htest.2.2⟩
  · cases hrest

/-- Recorded intervals belong to a worker and a pair of a round. -/
theorem overlapOf_of_mem (h : Validates hashes numerics e) {o : OverlapInterval}
    (ho : o∈e.results.overlap) :
    ∃ w∈both e.observations,w.workerId=o.workerId ∧ overlapOf w o.requestIds=some o := by
  rw [h.overlap,deriveOverlap,List.mem_flatMap] at ho
  obtain ⟨round,hround,ho⟩ := ho
  split at ho
  · cases ho
  · rename_i pair hpair
    obtain ⟨w,hw,hinterval⟩ := List.mem_filterMap.mp ho
    have hfields : o.workerId=w.workerId ∧ o.requestIds=pair := by
      obtain ⟨start,hstart,hrest⟩ := Option.bind_eq_some_iff.mp hinterval
      simp only at hrest
      split at hrest
      · cases hrest
        exact ⟨rfl,rfl⟩
      · cases hrest
        exact ⟨rfl,rfl⟩
      · cases hrest
    refine ⟨w,hw,hfields.1.symm,?_⟩
    rw [hfields.2]
    exact hinterval

/-- With two worker ids, a recorded overlap is that of the worker itself. -/
theorem Accepted.overlap_shown (h : Accepted hashes numerics e) {round : Round}
    (hround : round∈e.results.rounds) {pair : String×String} (hpair : pair∈round.requests.pair)
    (hids : e.identity.workerOrder.1≠e.identity.workerOrder.2)
    {w : WorkerObservations} (hw : w∈both e.observations) :
    RetirementShown w pair.1 pair.2 ∨ JointlyShown w pair.1 pair.2 := by
  have hclean := (h.rounds.2 round hround).overlapping pair hpair
  have hobserved := h.observed
  rw [idPair] at hobserved
  have hfirst : e.observations.1.workerId=e.identity.workerOrder.1 := congrArg Prod.fst hobserved
  have hsecond : e.observations.2.workerId=e.identity.workerOrder.2 := congrArg Prod.snd hobserved
  have hmember : w.workerId∈both e.identity.workerOrder := by
    simp only [both,List.mem_cons,List.not_mem_nil,or_false] at hw ⊢
    rcases hw with rfl|rfl
    · exact .inl hfirst
    · exact .inr hsecond
  obtain ⟨o,ho,hworker,hrequests⟩ := hclean w.workerId hmember
  obtain ⟨w',hw',hsame,hinterval⟩ := overlapOf_of_mem h.toValidates ho
  have heq : w'=w := by
    have hid : w'.workerId=w.workerId := hsame.trans hworker
    simp only [both,List.mem_cons,List.not_mem_nil,or_false] at hw hw'
    rcases hw with rfl|rfl
    · rcases hw' with rfl|rfl
      · rfl
      · rw [hfirst,hsecond] at hid
        exact absurd hid.symm hids
    · rcases hw' with rfl|rfl
      · rw [hfirst,hsecond] at hid
        exact absurd hid hids
      · rfl
  rw [heq,hrequests] at hinterval
  exact shown_of_overlap hinterval

/-- Retirements for a reason. -/
theorem mem_retiredAs {events : List LifecycleEvent} {id reason : String} {ev : LifecycleEvent} :
    ev∈retiredAs events id reason ↔
      ev∈events ∧ ev.kind=.retired ∧ ev.requestId=id ∧ ev.reason=reason := by
  simp only [retiredAs,List.mem_filter,Bool.and_eq_true,decide_eq_true_eq,and_assoc]

/-- A cancellation nothing was found against has a cancelled retirement that
lists the survivor, and a completion after a cancelled retirement. -/
theorem cancelled_of_findings {victim survivor : String} {w : WorkerObservations}
    (h : cancelFindings victim survivor w=[]) :
    (∃ ev∈retiredAs (eventsOf w.snapshots) victim "cancelled",survivor∈ev.concurrentRequestIds) ∧
    ∃ c∈retiredAs (eventsOf w.snapshots) victim "cancelled",
      ∃ ev∈retiredAs (eventsOf w.snapshots) survivor "completed",c.sequence < ev.sequence := by
  simp only [cancelFindings,List.append_eq_nil_iff,unknownIf_eq_nil] at h
  obtain ⟨hindependent,hcompleted⟩ := h
  split at hindependent
  · cases hindependent
  · rw [unknownIf_eq_nil] at hindependent
    obtain ⟨ev,hev⟩ := List.exists_mem_of_ne_nil _ hindependent
    obtain ⟨c,hc⟩ := List.exists_mem_of_ne_nil _ hcompleted
    rw [List.mem_filter,decide_eq_true_eq] at hev
    rw [List.mem_filter,List.any_eq_true] at hc
    obtain ⟨hc,first,hfirst,hlate⟩ := hc
    exact ⟨⟨ev,hev⟩,first,hfirst,c,hc,of_decide_eq_true hlate⟩

/-- The comparison of a request that a round names is exact. -/
theorem Accepted.compared (h : Accepted hashes numerics e) {round : Round}
    (hround : round∈e.results.rounds) {x : String×List ℕ}
    (hx : x∈round.requests.ids.zip (sealedIds e)) {c : TokenComparison}
    (hc : c∈e.results.comparisons) (hid : c.requestId=x.1) :
    told c.error=false ∧ Reproduces c x.2 := by
  obtain ⟨hids,hclean⟩ := h.rounds
  have hfound := comparisonOf_mem hids hc
  rw [hid] at hfound
  exact (hclean round hround).compared x hx c hfound

/-- Every request of a round has a reference at its position. -/
theorem reference_of_mem {requests : RoundRequests} {id : String} (h : id∈requests.ids) :
    ∃ reference∈sealedIds e,(id,reference)∈requests.ids.zip (sealedIds e) := by
  cases requests with
  | serial only =>
    rw [List.mem_singleton.mp h]
    exact ⟨_,.head _,.head _⟩
  | paired first second =>
    simp only [RoundRequests.ids,List.mem_cons,List.not_mem_nil,or_false] at h
    rcases h with rfl|rfl
    · exact ⟨_,.head _,.head _⟩
    · exact ⟨_,.tail _ (.head _),.tail _ (.head _)⟩
  | cancel victim survivor =>
    simp only [RoundRequests.ids,List.mem_cons,List.not_mem_nil,or_false] at h
    rcases h with rfl|rfl
    · exact ⟨_,.head _,.head _⟩
    · exact ⟨_,.tail _ (.head _),.tail _ (.head _)⟩

/-- A cancel round is of two requests, since they have two roles. -/
theorem Accepted.cancel_distinct (h : Accepted hashes numerics e) {round : Round}
    (hround : round∈e.results.rounds) {victim survivor : String}
    (hrequests : round.requests=.cancel victim survivor) : victim≠survivor := by
  intro heq
  have hroles := (h.rounds.2 round hround).roles
  rw [hrequests,heq] at hroles
  simp only [RoundRequests.ids,RoundRequests.expectedRoles,List.map_cons,List.map_nil,
    List.cons.injEq,and_true] at hroles
  have hsame := hroles.1.symm.trans hroles.2
  cases hsame

/-- A cancellation nothing was found against is shown, if the worker recorded
one cancelled retirement of the victim. -/
theorem shown_of_cancelled {victim survivor : String} {w : WorkerObservations}
    (h : cancelFindings victim survivor w=[])
    (hsingle : ∀ ev ev',Recorded w ev → Recorded w ev' → CancelledRetirement victim ev →
      CancelledRetirement victim ev' → ev=ev') : CancellationShown w victim survivor := by
  obtain ⟨⟨ev,hev,hlisted⟩,first,hfirst,done,hdone,hlate⟩ := cancelled_of_findings h
  rw [mem_retiredAs] at hev hfirst hdone
  have hsame := hsingle first ev (recorded_of_mem hfirst.1) (recorded_of_mem hev.1) hfirst.2 hev.2
  rw [hsame] at hlate
  exact ⟨ev,done,recorded_of_mem hev.1,recorded_of_mem hdone.1,hev.2.1,hev.2.2.1,hev.2.2.2,
    hlisted,hdone.2.1,hdone.2.2.1,hdone.2.2.2,hlate⟩

/-- An accepted record proves what it is taken to prove, if the assessment finds
all its parts. -/
theorem accepted_proves (h : Accepted hashes numerics e) (haddressed : Addressed e) :
    Proves e := by
  refine ⟨fun round hround pair hpair => ?_,
    fun round hround pair hpair w hw => h.overlap_shown hround hpair haddressed.workers hw,
    fun c hc => ?_,fun round hround x hx c hc hid => (h.compared hround hx hc hid).2,
    fun round hround victim survivor hrequests w hw => ?_⟩
  · cases hrequests : round.requests with
    | serial id =>
      rw [hrequests] at hpair
      cases hpair
    | paired first second =>
      rw [hrequests] at hpair
      cases hpair
      exact haddressed.pairs round hround first second hrequests
    | cancel victim survivor =>
      rw [hrequests] at hpair
      cases hpair
      exact h.cancel_distinct hround hrequests
  · obtain ⟨round,hround,hnamed⟩ := haddressed.named c hc
    obtain ⟨reference,hreference,hposition⟩ := reference_of_mem (e := e) hnamed
    obtain ⟨herror,hreproduces⟩ := h.compared hround hposition hc rfl
    exact ⟨herror,reference,hreference,hreproduces⟩
  · exact shown_of_cancelled
      ((h.rounds.2 round hround).cancelled victim survivor hrequests w hw)
      (haddressed.cancellations round hround victim survivor hrequests w hw)

/-- Parts of a draft that list the workers in stage order. -/
structure Ordered (d : Draft) : Prop where
  configured : idPair (·.workerId) d.configuration.workers=d.identity.workerOrder
  profiled : idPair (·.workerId) d.preconditions.profiles=d.identity.workerOrder
  observed : idPair (·.workerId) d.observations=d.identity.workerOrder
  guarded : idPair (·.workerId) d.guards=d.identity.workerOrder
  cleaned : idPair (·.workerId) d.cleanup=d.identity.workerOrder

/-- What `make_evidence` derives validates, if its inputs do. -/
theorem makeEvidence_validates {d : Draft}
    (hhashed : ∀ request∈both d.workload.requests,request.promptDigest=hashes.ids request.promptIds ∧
      request.expectedDigest=hashes.ids request.expectedIds)
    (hordered : Ordered d)
    (hgates : ∀ g∈d.preconditions.gates,g.workerId∈both d.identity.workerOrder)
    (hallowances : ∀ g∈d.preconditions.gates,
      g.hostBudget.matches d.configuration d.configuration.hostHeadroomBytes ∧
      ∀ budget∈g.deviceBudget,budget.matches d.configuration
        d.configuration.deviceHeadroomBytes) :
    Validates hashes numerics (makeEvidence hashes numerics d) where
  hashed := hhashed
  configured := hordered.configured
  profiled := hordered.profiled
  observed := hordered.observed
  peaked := hordered.observed
  guarded := hordered.guarded
  cleaned := hordered.cleaned
  gates := hgates
  allowances := hallowances
  digest := (hashes.ownDigest _ _).symm
  overlap := rfl
  peaks := rfl
  physical := rfl
  outcomes := ⟨rfl,rfl⟩
  assessed := rfl

section Sample

/-- Exact rational arithmetic in place of floating point. -/
def sampleNumerics : Numerics where
  timestamp t := t/1000000
  minus a b := a-b
  allowance peak fraction := (peak*fraction).ceil.toNat
  wholeSeconds t := toString t.floor

/-- A digest of sixty-four digits. -/
def sampleDigest : String := "0123456789abcdef0123456789abcdef0123456789abcdef0123456789abcdef"

/-- A hash function that takes one value. -/
def sampleHashes : Hashes := ⟨fun _ => sampleDigest,fun _ => sampleDigest,fun _ _ => rfl⟩

/-- A CPU worker. -/
def sampleWorker (id : String) (stage : ℕ) : WorkerIdentity := ⟨id,stage,.cpu,sampleDigest,42⟩

/-- Two CPU workers. -/
def sampleIdentity : Identity :=
  ⟨"plan",sampleDigest,("first","second"),(sampleWorker "first" 0,sampleWorker "second" 1),by decide⟩

/-- A request of two prompt tokens and four tokens of reference. -/
def sampleRequest : RequestWorkload :=
  ⟨[1,2],[3,4,5,6],sampleDigest,sampleDigest,6,by decide,by decide,by decide⟩

/-- Both requests share prompt and reference. -/
def sampleWorkload : Workload := ⟨(sampleRequest,sampleRequest),.f32⟩

/-- A worker with room for two requests. -/
def sampleConfigured (id : String) : WorkerConfiguration := ⟨id,{host := 1000},true⟩

/-- Allowances of a tenth and ten bytes. -/
def sampleConfiguration : Configuration :=
  ⟨(sampleConfigured "first",sampleConfigured "second"),.conservative,1/10,10,10,10⟩

/-- A host budget with these allowances. -/
def sampleBudget : PhysicalBudget := ⟨some 10000,10,10,1/10⟩

/-- The gate of a worker before the first cycle. -/
def sampleGate (id : String) : CycleGate := ⟨id,0,1000000,.safe,sampleBudget,none⟩

/-- A passed baseline, fresh profiles and one gate for each worker. -/
def samplePreconditions : Preconditions :=
  ⟨⟨.cpuRehearsal,true,"plan",sampleDigest,[("first",sampleDigest),("second",sampleDigest)],true⟩,
    1000000,(⟨"first",0⟩,⟨"second",0⟩),[sampleGate "first",sampleGate "second"],by decide,by decide⟩

/-- An allocated row. -/
def sampleRow (id : String) (admittedAt : ℕ) : RequestReservation :=
  ⟨id,{host := 20},admittedAt,false⟩

/-- Events of a pair and of a cancellation. -/
def sampleEvents : List LifecycleEvent := [
  ⟨.admitted,"a",1,300,[],""⟩,⟨.admitted,"b",2,310,["a"],""⟩,
  ⟨.retired,"a",3,500,["b"],"completed"⟩,⟨.retired,"b",4,510,[],"completed"⟩,
  ⟨.admitted,"victim",5,600,[],""⟩,⟨.admitted,"survivor",6,610,["victim"],""⟩,
  ⟨.retired,"victim",7,650,["survivor"],"cancelled"⟩,
  ⟨.retired,"survivor",8,700,[],"completed"⟩]

/-- A snapshot of the first cycle. -/
def sampleSnapshot (phase : String) (ns : ℕ) (rows : List RequestReservation)
    (events : List LifecycleEvent) : WorkerSnapshot where
  phase := phase
  cycle := some 0
  processId := some 42
  observedAtMonotonicNs := some ns
  loadedWeights := {host := 100}
  reservedCache := {host := 40}
  reservedWorkspace := {host := 30}
  activeRequestIds := rows.map (·.requestId)
  requestObservationsAvailable := true
  requests := rows
  events := events
  eventsTotal := events.length
  allocator := none
  processMemory := some ⟨42,1,some 500,some 600,none,none⟩
  unavailable h := by cases h
  available _ := ⟨by simp,by simp⟩
  rows _ := Iff.rfl
  counted := Nat.le_refl _

/-- Observations of a worker: a joint snapshot and one after the rounds. -/
def sampleObserved (id : String) : WorkerObservations :=
  ⟨id,[sampleSnapshot "paired" 320 [sampleRow "a" 300,sampleRow "b" 310] (sampleEvents.take 2),
    sampleSnapshot "cleanup" 720 [] sampleEvents],[]⟩

/-- A comparison that generated what it expected. -/
def sampleCompared (id : String) (role : Role) (ids : List ℕ) : TokenComparison :=
  ⟨id,role,ids,ids,true,none,by simp⟩

/-- Comparisons of a pair and of a cancellation. -/
def sampleComparisons : List TokenComparison := [
  sampleCompared "a" .paired [3,4,5,6],sampleCompared "b" .paired [3,4,5,6],
  sampleCompared "victim" .cancelVictim [3,4,5],sampleCompared "survivor" .cancelSurvivor [3,4,5,6]]

/-- A guard that watched the worker throughout. -/
def sampleGuard (id : String) : GuardOutcome := ⟨id,some 42,some 0,some 2,none,none,none,.normal,[]⟩

/-- An experiment of a paired round and a cancel round in the given cycle. -/
def sampleDraft (first second : String) (cycle : ℕ) (comparisons : List TokenComparison) : Draft where
  identity := sampleIdentity
  workload := sampleWorkload
  configuration := sampleConfiguration
  preconditions := samplePreconditions
  observations := (sampleObserved "first",sampleObserved "second")
  rounds := [⟨0,0,.paired first second⟩,⟨cycle,1,.cancel "victim" "survivor"⟩]
  comparisons := comparisons
  guards := (sampleGuard "first",sampleGuard "second")
  cleanup := (⟨"first",true,""⟩,⟨"second",true,""⟩)
  finishedAt := 2000000
  failureReason := none

/-- The record of an experiment. -/
def sampleEvidence (first second : String) (cycle : ℕ) (comparisons : List TokenComparison) :
    ConcurrentServingEvidence :=
  makeEvidence sampleHashes sampleNumerics (sampleDraft first second cycle comparisons)

/-- A sample record nothing is found against is accepted. -/
theorem sample_accepted {first second : String} {cycle : ℕ} {comparisons : List TokenComparison}
    (h : findings (sampleEvidence first second cycle comparisons)=[]) :
    Accepted sampleHashes sampleNumerics (sampleEvidence first second cycle comparisons) := by
  refine ⟨makeEvidence_validates ?_ ⟨rfl,rfl,rfl,rfl,rfl⟩ ?_ ?_,?_⟩
  · intro request hrequest
    have hsame : request=sampleRequest := by
      simpa [sampleDraft,sampleWorkload,both] using hrequest
    rw [hsame]
    exact ⟨rfl,rfl⟩
  · intro g hg
    have hgate : g=sampleGate "first" ∨ g=sampleGate "second" := by
      simpa [sampleDraft,samplePreconditions] using hg
    rcases hgate with rfl|rfl
    · exact .head _
    · exact .tail _ (.head _)
  · intro g hg
    have hgate : g=sampleGate "first" ∨ g=sampleGate "second" := by
      simpa [sampleDraft,samplePreconditions] using hg
    rcases hgate with rfl|rfl
    · exact ⟨⟨rfl,rfl,rfl⟩,by simp [sampleGate]⟩
    · exact ⟨⟨rfl,rfl,rfl⟩,by simp [sampleGate]⟩
  · have hassessed := accepted_of_findings h
    exact congrArg Prod.fst hassessed

/-- A paired round of one request, which shares its reference with itself, is
accepted. -/
theorem self_pair_accepted :
    Accepted sampleHashes sampleNumerics (sampleEvidence "a" "a" 0 sampleComparisons) ∧
      ¬Proves (sampleEvidence "a" "a" 0 sampleComparisons) := by
  refine ⟨sample_accepted (by decide +kernel),fun hproves => ?_⟩
  exact hproves.distinct ⟨0,0,.paired "a" "a"⟩ (.head _) ("a","a") rfl rfl

/-- A comparison no round names, of a stream that broke off. -/
def strayComparison : TokenComparison :=
  ⟨"stray",.serial,[9],[3,4,5,6],false,some "disconnected",by decide⟩

/-- A record with such a comparison is accepted. -/
theorem stray_comparison_accepted :
    Accepted sampleHashes sampleNumerics
        (sampleEvidence "a" "b" 0 (sampleComparisons++[strayComparison])) ∧
      ¬Proves (sampleEvidence "a" "b" 0 (sampleComparisons++[strayComparison])) := by
  refine ⟨sample_accepted (by decide +kernel),fun hproves => ?_⟩
  have hexact := hproves.tokens strayComparison (List.mem_append_right _ (.head _))
  exact absurd hexact.1 (by decide)

/-- The rounds of a sample record. -/
theorem sample_rounds {first second : String} {cycle : ℕ} {comparisons : List TokenComparison}
    {round : Round} (h : round∈(sampleEvidence first second cycle comparisons).results.rounds) :
    round=⟨0,0,.paired first second⟩ ∨ round=⟨cycle,1,.cancel "victim" "survivor"⟩ := by
  simpa [sampleEvidence,makeEvidence,draftResults,sampleDraft] using h

/-- Its workers recorded the sample events. -/
theorem sample_events {first second : String} {cycle : ℕ} {comparisons : List TokenComparison}
    {w : WorkerObservations}
    (hw : w∈both (sampleEvidence first second cycle comparisons).observations)
    {ev : LifecycleEvent} (h : Recorded w ev) : ev∈sampleEvents := by
  obtain ⟨s,hs,hev⟩ := h
  have hsnapshots : ∃ id,w=sampleObserved id := by
    have hw' : w=sampleObserved "first" ∨ w=sampleObserved "second" := by
      simpa [sampleEvidence,makeEvidence,sampleDraft,both] using hw
    rcases hw' with rfl|rfl
    · exact ⟨_,rfl⟩
    · exact ⟨_,rfl⟩
  obtain ⟨id,rfl⟩ := hsnapshots
  simp only [sampleObserved,List.mem_cons,List.not_mem_nil,or_false] at hs
  rcases hs with rfl|rfl
  · exact List.mem_of_mem_take hev
  · exact hev

/-- A record of a real pair proves its overlap, tokens and cancellation. -/
theorem accepted_proves_of_pair :
    Accepted sampleHashes sampleNumerics (sampleEvidence "a" "b" 0 sampleComparisons) ∧
      Proves (sampleEvidence "a" "b" 0 sampleComparisons) := by
  have haccepted : Accepted sampleHashes sampleNumerics
      (sampleEvidence "a" "b" 0 sampleComparisons) := sample_accepted (by decide +kernel)
  refine ⟨haccepted,accepted_proves haccepted ⟨?_,?_,by decide,?_⟩⟩
  · intro round hround first second hrequests
    rcases sample_rounds hround with rfl|rfl
    · cases hrequests
      decide
    · cases hrequests
  · intro c hc
    have hnamed : ∀ c∈sampleComparisons,c.requestId∈["a","b"] ∨
        c.requestId∈["victim","survivor"] := by decide
    rcases hnamed c hc with hpair|hcancel
    · exact ⟨⟨0,0,.paired "a" "b"⟩,.head _,hpair⟩
    · exact ⟨⟨0,1,.cancel "victim" "survivor"⟩,.tail _ (.head _),hcancel⟩
  · intro round hround victim survivor hrequests w hw ev ev' hev hev' hcancelled hcancelled'
    have hvictim : victim="victim" := by
      rcases sample_rounds hround with rfl|rfl
      · cases hrequests
      · cases hrequests
        rfl
    subst hvictim
    have hone : ∀ ev∈sampleEvents,ev.requestId="victim" → ev.reason="cancelled" →
        ev=⟨.retired,"victim",7,650,["survivor"],"cancelled"⟩ := by decide
    rw [hone ev (sample_events hw hev) hcancelled.2.1 hcancelled.2.2,
      hone ev' (sample_events hw hev') hcancelled'.2.1 hcancelled'.2.2]

end Sample

end Hllm.QualificationAcceptance
