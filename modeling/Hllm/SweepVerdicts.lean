import Hllm.SweepModel
import Hllm.MemoryAccounting
import Hllm.OrderedMap

/-!
# What a verdict of a sweep rests on

A summary reads its results row by row and reaches its decision through separate
gates. A decision other than incomplete, unstable or inconclusive is only
reached on complete rounds of scheduled jobs, each with evidence of its own.
-/

namespace Hllm.SweepVerdicts

open FitAssessment PlannerModels PlannerPlacement SweepModel
open MemoryAccounting (call_bind)
open OrderedMap (mem_of_lookup)
open PlannerModels (DeploymentPlan)
open SweepModel (PerformanceEstimate)

section Jobs

/-- Digits of a padded number. -/
theorem isDigit_of_mem_padded {n : ℕ} {c : Char} (h : c∈(padded n).toList) : c.isDigit=true := by
  rw [padded,String.toList_ofList,List.mem_append] at h
  rcases h with hzero|hdigit
  · rw [List.eq_of_mem_replicate hzero]
    rfl
  · exact Nat.isDigit_of_mem_toDigits (by decide) (by decide) hdigit

/-- A padded number below a thousand has three digits, which are its value. -/
theorem padded_value : ∀ n < 100,(padded n).toList.length=3 ∧
    Nat.ofDigitChars 10 (padded n).toList 0=n := by
  decide +kernel

/-- The round is read back from the id of a job. -/
theorem roundOf_job {round : ℕ} (h : round < 100) (rest : String) :
    roundOf (roundPrefix round++("-"++rest))=.ok round := by
  have hlist : (roundPrefix round++("-"++rest)).toList=
      ('r'::(padded round).toList)++ '-'::rest.toList := by
    rw [roundPrefix,String.toList_append,String.toList_append,String.toList_append]
    rfl
  have htake : ((roundPrefix round++("-"++rest)).toList.takeWhile (· != '-'))=
      'r'::(padded round).toList := by
    rw [hlist,List.takeWhile_append_of_pos]
    · simp
    · intro c hc
      rcases List.mem_cons.mp hc with hr|hdigit
      · rw [hr]
        rfl
      · have hdig := isDigit_of_mem_padded hdigit
        rw [bne_iff_ne]
        rintro rfl
        exact absurd hdig (by decide)
  obtain ⟨hlength,hvalue⟩ := padded_value round h
  have hdigits : ((padded round).toList.all (·.isDigit))=true :=
    List.all_eq_true.mpr fun c hc => isDigit_of_mem_padded hc
  unfold roundOf
  simp only [htake,List.length_cons,hlength,List.head?_cons,List.tail_cons,hdigits,hvalue]
  rfl

/-- A text occurs in what contains it. -/
theorem occursIn_append (before pattern after : String) :
    occursIn pattern (before++(pattern++after))=true := by
  unfold occursIn
  rw [List.any_eq_true]
  have hsplit : (before++(pattern++after)).toList=before.toList++(pattern++after).toList :=
    String.toList_append
  refine ⟨(pattern++after).toList,?_,?_⟩
  · rw [List.mem_tails,hsplit]
    exact List.suffix_append _ _
  · rw [List.isPrefixOf_iff_prefix,String.toList_append]
    exact List.prefix_append _ _

/-- Its characters occur as well. -/
theorem mem_of_occursIn {pattern text : String} (h : occursIn pattern text=true) {c : Char}
    (hc : c∈pattern.toList) : c∈text.toList := by
  unfold occursIn at h
  obtain ⟨suffix,hsuffix,hstart⟩ := List.any_eq_true.mp h
  rw [List.isPrefixOf_iff_prefix] at hstart
  exact ((List.mem_tails _ _).mp hsuffix).subset (hstart.subset hc)

/-- The first job of a round is a reference run. -/
theorem isReference_before (round : ℕ) : isReference (referenceBefore round)=true := by
  have hshape : referenceBefore round=(roundPrefix round++"-")++("reference"++"-before") := by
    rw [String.append_assoc]
    rfl
  rw [isReference,hshape]
  exact occursIn_append _ _ _

/-- So is the last. -/
theorem isReference_after (round : ℕ) : isReference (referenceAfter round)=true := by
  have hshape : referenceAfter round=(roundPrefix round++"-")++("reference"++"-after") := by
    rw [String.append_assoc]
    rfl
  rw [isReference,hshape]
  exact occursIn_append _ _ _

/-- The others are not. -/
theorem isReference_candidate (round i : ℕ) : isReference (candidateJob round i)=false := by
  rw [←Bool.not_eq_true]
  intro h
  have hmem : 'f'∈(candidateJob round i).toList := mem_of_occursIn h (by decide)
  rw [candidateJob,roundPrefix,String.toList_append,String.toList_append,String.toList_append] at hmem
  simp only [List.mem_append] at hmem
  have hpadded : ∀ n,'f'∉(padded n).toList :=
    fun n hn => absurd (isDigit_of_mem_padded hn) (by decide)
  rcases hmem with ((hr|hround)|hc)|hi
  · exact absurd hr (by decide)
  · exact hpadded _ hround
  · exact absurd hc (by decide)
  · exact hpadded _ hi

/-- The last job of a round ends as the check on its health expects. -/
theorem suffix_after (round : ℕ) :
    "reference-after".toList.isSuffixOf (referenceAfter round).toList=true := by
  rw [List.isSuffixOf_iff_suffix]
  have hshape : referenceAfter round=(roundPrefix round++"-")++"reference-after" := by
    rw [String.append_assoc]
    rfl
  rw [hshape,String.toList_append]
  exact List.suffix_append _ _

/-- Jobs of candidates differ. -/
theorem candidateJob_inj {round i j : ℕ} (h : candidateJob round i=candidateJob round j) : i=j := by
  have hlist : (roundPrefix round++"-c").toList++(padded i).toList=
      (roundPrefix round++"-c").toList++(padded j).toList := by
    rw [←String.toList_append,←String.toList_append]
    exact congrArg String.toList h
  exact PlannerRanking.padded_injective
    (String.toList_injective (List.append_cancel_left hlist))

end Jobs

section Schedules

variable {planHash : DeploymentPlan → String} {random : Randomness} {spec : SweepSpec}
variable {round : ℕ} {jobs : List (String×DeploymentPlan)} {job : String} {plan : DeploymentPlan}

/-- The selected placement of a schedule, with its jobs. -/
theorem schedule_ok (h : schedule planHash random spec round=.ok jobs) :
    ∃ selected∈placements planHash spec,
      selected.selectedCandidateId=spec.selectedPlan.selectedCandidateId ∧
      jobs=(referenceBefore round,selected)::
        (candidateJobs planHash random spec round++[(referenceAfter round,selected)]) := by
  unfold schedule at h
  split at h
  · cases h
  · rename_i selected hfound
    refine ⟨selected,?_,?_,(Except.ok.inj h).symm⟩
    · exact (random.shuffle_perm _ _).mem_iff.mp (List.mem_of_find?_eq_some hfound)
    · have hid := List.find?_some hfound
      exact of_decide_eq_true hid

/-- A candidate job is of a placement. -/
theorem mem_candidateJobs : (job,plan)∈candidateJobs planHash random spec round →
    ∃ i,job=candidateJob round i ∧ plan∈placements planHash spec := by
  intro h
  obtain ⟨i,hi,heq⟩ := List.mem_mapIdx.mp h
  obtain ⟨hjob,hplan⟩ := Prod.mk.inj heq
  refine ⟨i,hjob.symm,?_⟩
  rw [←(random.shuffle_perm _ _).mem_iff,←hplan]
  exact List.getElem_mem hi

/-- Every placement has a candidate job in every round. -/
theorem exists_candidateJob (random : Randomness) (round : ℕ)
    (h : plan∈placements planHash spec) :
    ∃ i,(candidateJob round i,plan)∈candidateJobs planHash random spec round := by
  rw [←(random.shuffle_perm (spec.seed+round) _).mem_iff] at h
  obtain ⟨i,hi,heq⟩ := List.mem_iff_getElem.mp h
  exact ⟨i,List.mem_mapIdx.mpr ⟨i,hi,by rw [heq]⟩⟩

/-- Candidate jobs have distinct ids. -/
theorem candidateJobs_nodup :
    ((candidateJobs planHash random spec round).map Prod.fst).Nodup := by
  rw [List.nodup_iff_injective_getElem]
  intro i j h
  simp only [candidateJobs,List.getElem_map,List.getElem_mapIdx] at h
  exact Fin.ext (candidateJob_inj h)

/-- A scheduled job is a reference run of the selected placement or a candidate job. -/
theorem schedule_cases (h : schedule planHash random spec round=.ok jobs)
    (hjob : (job,plan)∈jobs) :
    ((job=referenceBefore round ∨ job=referenceAfter round) ∧
        plan.selectedCandidateId=spec.selectedPlan.selectedCandidateId ∧
        plan∈placements planHash spec) ∨
      (job,plan)∈candidateJobs planHash random spec round := by
  obtain ⟨selected,hmem,hid,heq⟩ := schedule_ok h
  rw [heq,List.mem_cons,List.mem_append,List.mem_singleton] at hjob
  rcases hjob with hbefore|hcandidate|hafter
  · obtain ⟨hjob,hplan⟩ := Prod.mk.inj hbefore
    exact .inl ⟨.inl hjob,hplan ▸ hid,hplan ▸ hmem⟩
  · exact .inr hcandidate
  · obtain ⟨hjob,hplan⟩ := Prod.mk.inj hafter
    exact .inl ⟨.inr hjob,hplan ▸ hid,hplan ▸ hmem⟩

/-- Every scheduled job belongs to a placement. -/
theorem schedule_placed (h : schedule planHash random spec round=.ok jobs)
    (hjob : (job,plan)∈jobs) : plan∈placements planHash spec := by
  rcases schedule_cases h hjob with ⟨-,-,hmem⟩|hcandidate
  · exact hmem
  · obtain ⟨i,-,hmem⟩ := mem_candidateJobs hcandidate
    exact hmem

/-- Every scheduled job names its round. -/
theorem schedule_round (h : schedule planHash random spec round=.ok jobs) (hround : round < 100)
    (hjob : job∈jobs.map Prod.fst) : roundOf job=.ok round := by
  obtain ⟨⟨name,plan⟩,hmem,rfl⟩ := List.mem_map.mp hjob
  have hbefore : roundOf (referenceBefore round)=.ok round :=
    roundOf_job hround "reference-before"
  have hafter : roundOf (referenceAfter round)=.ok round := roundOf_job hround "reference-after"
  rcases schedule_cases h hmem with ⟨hname|hname,-⟩|hcandidate
  · exact hname ▸ hbefore
  · exact hname ▸ hafter
  · obtain ⟨i,hname,-⟩ := mem_candidateJobs hcandidate
    have hshape : candidateJob round i=roundPrefix round++("-"++("c"++padded i)) := by
      rw [candidateJob,String.append_assoc]
      rfl
    change roundOf name=.ok round
    rw [hname,hshape]
    exact roundOf_job hround _

/-- The first and the last job of a round differ. -/
theorem before_ne_after (round : ℕ) : referenceBefore round≠referenceAfter round := by
  intro h
  have hlist : (roundPrefix round).toList++"-reference-before".toList=
      (roundPrefix round).toList++"-reference-after".toList := by
    rw [←String.toList_append,←String.toList_append]
    exact congrArg String.toList h
  exact absurd (List.append_cancel_left hlist) (by decide)

/-- Scheduled jobs have distinct ids. -/
theorem schedule_nodup (h : schedule planHash random spec round=.ok jobs) :
    (jobs.map Prod.fst).Nodup := by
  obtain ⟨selected,-,-,heq⟩ := schedule_ok h
  have hcandidate : ∀ name,isReference name=true →
      name∉(candidateJobs planHash random spec round).map Prod.fst := by
    intro name hname hmem
    obtain ⟨⟨job,plan⟩,hjob,rfl⟩ := List.mem_map.mp hmem
    obtain ⟨i,hshape,-⟩ := mem_candidateJobs hjob
    change isReference job=true at hname
    rw [hshape,isReference_candidate] at hname
    cases hname
  rw [heq,List.map_cons,List.map_append,List.map_singleton,List.nodup_cons,
    List.nodup_append_comm,List.singleton_append,List.nodup_cons]
  refine ⟨?_,hcandidate _ (isReference_after round),candidateJobs_nodup⟩
  rw [List.mem_append,List.mem_singleton,not_or]
  exact ⟨hcandidate _ (isReference_before round),before_ne_after round⟩

end Schedules

/-- What the first loop of a summary has established about results. -/
structure Covers (planHash : DeploymentPlan → String) (random : Randomness) (spec : SweepSpec)
    (coverage : Coverage) (results : List JobResult) : Prop where
  /-- Rounds are distinct. -/
  rounds : (coverage.rounds.map Prod.fst).Nodup
  /-- Each has its schedule and is one of the sweep. -/
  scheduled : ∀ round jobs,(round,jobs)∈coverage.rounds →
    schedule planHash random spec round=.ok jobs ∧ round < spec.maximumRepetitions
  /-- The seen jobs are those of the results. -/
  seen : coverage.seen=(results.map (·.jobId)).reverse
  /-- No job was seen twice. -/
  once : coverage.seen.Nodup
  /-- Every result was validated against the plan of its job. -/
  validated : ∀ r∈results,∃ round jobs plan,(round,jobs)∈coverage.rounds ∧
    (r.jobId,plan)∈jobs ∧ validateResult spec r r.jobId plan=.ok ()

section Coverages

variable {planHash : DeploymentPlan → String} {random : Randomness} {spec : SweepSpec}
variable {coverage next : Coverage} {results : List JobResult} {result : JobResult}

/-- A check passes exactly when its condition holds. -/
theorem check_bind {α : Type} {condition : Prop} [Decidable condition] {message : String}
    {rest : Unit → Except Raised α} {a : α} :
    (check condition message >>= rest)=.ok a ↔ condition ∧ rest ()=.ok a := by
  rw [call_bind]
  constructor
  · rintro ⟨u,hcheck,hrest⟩
    exact ⟨check_ok_iff.mp hcheck,hrest⟩
  · rintro ⟨hcondition,hrest⟩
    exact ⟨(),check_ok_iff.mpr hcondition,hrest⟩

/-- One more result. -/
theorem Covers.step (h : Covers planHash random spec coverage results)
    (hstep : coverResult planHash random spec coverage result=.ok next) :
    Covers planHash random spec next (results++[result]) := by
  unfold coverResult at hstep
  rw [check_bind] at hstep
  obtain ⟨hnew,hstep⟩ := hstep
  rw [call_bind] at hstep
  obtain ⟨round,hround,hstep⟩ := hstep
  rw [check_bind] at hstep
  obtain ⟨hbound,hstep⟩ := hstep
  rw [call_bind] at hstep
  obtain ⟨rounds,hrounds,hstep⟩ := hstep
  have hextended : (rounds.map Prod.fst).Nodup ∧
      (∀ k jobs,(k,jobs)∈rounds →
        schedule planHash random spec k=.ok jobs ∧ k < spec.maximumRepetitions) ∧
      ∀ entry∈coverage.rounds,entry∈rounds := by
    cases hknown : coverage.rounds.lookup round with
    | some jobs =>
      rw [hknown] at hrounds
      have heq : coverage.rounds=rounds := Except.ok.inj hrounds
      rw [←heq]
      exact ⟨h.rounds,h.scheduled,fun entry hentry => hentry⟩
    | none =>
      rw [hknown] at hrounds
      cases hschedule : schedule planHash random spec round with
      | error e =>
        rw [hschedule] at hrounds
        cases hrounds
      | ok jobs =>
        rw [hschedule] at hrounds
        have heq : coverage.rounds++[(round,jobs)]=rounds := Except.ok.inj hrounds
        rw [←heq]
        refine ⟨?_,?_,fun entry hentry => List.mem_append_left _ hentry⟩
        · rw [List.map_append,List.map_singleton,List.nodup_append_comm,List.singleton_append,
            List.nodup_cons]
          refine ⟨fun hmem => ?_,h.rounds⟩
          obtain ⟨entry,hentry,hkey⟩ := List.mem_map.mp hmem
          have hne := List.lookup_eq_none_iff.mp hknown entry hentry
          rw [hkey] at hne
          simp at hne
        · intro k other hmem
          rcases List.mem_append.mp hmem with hold|hnewRound
          · exact h.scheduled k other hold
          · obtain ⟨hk,hjobs⟩ := Prod.mk.inj (List.mem_singleton.mp hnewRound)
            rw [hk,hjobs]
            exact ⟨hschedule,hbound⟩
  cases hplan : (rounds.lookup round).bind (·.lookup result.jobId) with
  | none =>
    rw [hplan] at hstep
    cases hstep
  | some plan =>
    rw [hplan,call_bind] at hstep
    obtain ⟨_,hvalid,hstep⟩ := hstep
    have heq : ⟨rounds,result.jobId::coverage.seen⟩=next := Except.ok.inj hstep
    obtain ⟨jobs,hjobs,hjob⟩ := Option.bind_eq_some_iff.mp hplan
    rw [←heq]
    refine ⟨hextended.1,hextended.2.1,?_,List.nodup_cons.mpr ⟨hnew,h.once⟩,?_⟩
    · rw [List.map_append,List.map_singleton,List.reverse_append,List.reverse_singleton,
        List.singleton_append,h.seen]
    · intro r hr
      rcases List.mem_append.mp hr with hold|hlast
      · obtain ⟨k,other,p,hmem,hp,hok⟩ := h.validated r hold
        exact ⟨k,other,p,hextended.2.2 _ hmem,hp,hok⟩
      · rw [List.mem_singleton.mp hlast]
        exact ⟨round,jobs,plan,mem_of_lookup hjobs,mem_of_lookup hjob,hvalid⟩

/-- All results. -/
theorem Covers.run {more : List JobResult} (h : Covers planHash random spec coverage results)
    (hrun : more.foldlM (coverResult planHash random spec) coverage=.ok next) :
    Covers planHash random spec next (results++more) := by
  induction more generalizing coverage results with
  | nil =>
    have heq : coverage=next := Except.ok.inj hrun
    rw [List.append_nil,←heq]
    exact h
  | cons r more ih =>
    rw [List.foldlM_cons,call_bind] at hrun
    obtain ⟨middle,hstep,hrun⟩ := hrun
    have hall := ih (h.step hstep) hrun
    rw [List.append_assoc,List.singleton_append] at hall
    exact hall

/-- Before any result. -/
theorem covers_nil : Covers planHash random spec {} [] where
  rounds := List.nodup_nil
  scheduled := fun _ _ hmem => absurd hmem List.not_mem_nil
  seen := rfl
  once := List.nodup_nil
  validated := fun _ hr => absurd hr List.not_mem_nil

/-- The rounds of complete coverage are all up to a number. -/
theorem completeRounds_ok (h : Covers planHash random spec coverage results)
    (hcomplete : completeRounds spec coverage=true) :
    ∃ n,spec.repetitions ≤ n ∧ n ≤ spec.maximumRepetitions ∧
      (∀ k,k∈coverage.rounds.map Prod.fst ↔ k < n) ∧
      ∀ round∈coverage.rounds,∀ job∈round.2,job.1∈coverage.seen := by
  unfold completeRounds at hcomplete
  simp only [Bool.and_eq_true,decide_eq_true_iff,List.all_eq_true,List.contains_iff_mem,
    List.mem_range] at hcomplete
  obtain ⟨⟨hcount,hbelow,habove⟩,hseen⟩ := hcomplete
  generalize hn : ((coverage.rounds.map Prod.fst).max?.map (·+1)).getD 0=n at hbelow habove
  have hiff : ∀ k,k∈coverage.rounds.map Prod.fst ↔ k < n := fun k => ⟨hbelow k,habove k⟩
  have hperm : (coverage.rounds.map Prod.fst).Perm (List.range n) :=
    (List.perm_ext_iff_of_nodup h.rounds List.nodup_range).mpr fun k => by
      rw [hiff,List.mem_range]
  have hlength := hperm.length_eq
  rw [List.length_map,List.length_range] at hlength
  rw [List.length_map] at hcount
  refine ⟨n,by omega,?_,hiff,hseen⟩
  cases n with
  | zero => exact Nat.zero_le _
  | succ last =>
    obtain ⟨⟨round,jobs⟩,hmem,hkey⟩ := List.mem_map.mp ((hiff last).mpr (Nat.lt_succ_self _))
    have hbound := (h.scheduled round jobs hmem).2
    have hround : round=last := hkey
    omega

end Coverages

/-- A measurement with the specified warmups, all with the reference tokens, and
a passed cleanup. -/
structure MeasuredRun (spec : SweepSpec) (r : JobResult) : Prop where
  /-- It claims to be one. -/
  status : r.status=.measured
  /-- It has the specified warmups. -/
  warmups : r.warmups.length=spec.warmups
  /-- Its cleanup passed. -/
  cleanup : r.cleanupPassed=true
  /-- It has a sample, which like all warmups generated the reference tokens. -/
  tokens : ∃ sample,r.sample=some sample ∧
    ∀ s∈r.warmups++[sample],s.tokenIds=spec.reference.generatedIds

/-- A memory exclusion with a complete profile of a stage of the placement, taken
independently under the conditions of the sweep, that does not fit. -/
structure ExcludedRun (spec : SweepSpec) (plan : DeploymentPlan) (r : JobResult) : Prop where
  /-- It claims to be one. -/
  status : r.status=.memoryExcluded
  /-- Its profile is about a stage of the placement and does not fit. -/
  unfit : ∃ e m fit,r.memoryExclusion=some e ∧ e.profile.measurement=.memory m ∧
    m.completed=true ∧ e.profile.key.assignment∈plan.stages ∧
    e.profile.key.weightDtype=plan.weightDtype ∧
    e.profile.key.executionDtype=plan.executionDtype ∧
    e.profile.key.workload=spec.workload ∧
    e.profile.key.checkpointDigest=spec.reference.checkpointDigest ∧
    e.profile.key.manifestDigest=spec.manifest.manifestDigest ∧
    e.profile.conditions.processPolicy=.freshProcessThenReloads ∧
    e.profile.conditions.concurrentLoad=spec.concurrentLoad ∧
    assessFit e.profile e.capacity e.host e.device e.mlxFitPolicy=.ok fit ∧
    fit.status=.exceeds

section Results

variable {spec : SweepSpec} {r : JobResult} {job : String} {plan : DeploymentPlan}

/-- A valid result is about its job. -/
theorem validateResult_scope (h : validateResult spec r job plan=.ok ()) :
    r.sweepDigest=spec.sweepDigest ∧ r.jobId=job ∧ r.candidateId=plan.selectedCandidateId := by
  unfold validateResult at h
  rw [check_bind] at h
  exact h.1

/-- A valid measurement. -/
theorem measuredRun_of_valid (h : validateResult spec r job plan=.ok ())
    (hstatus : r.status=.measured) : MeasuredRun spec r := by
  unfold validateResult at h
  rw [check_bind,hstatus] at h
  obtain ⟨-,h⟩ := h
  unfold checkMeasured at h
  cases hsample : r.sample with
  | none =>
    rw [hsample] at h
    cases h
  | some sample =>
    rw [hsample,check_bind,check_ok_iff] at h
    exact ⟨hstatus,h.1.2,h.1.1,sample,hsample,h.2⟩

/-- A valid exclusion. -/
theorem excludedRun_of_valid (h : validateResult spec r job plan=.ok ())
    (hstatus : r.status=.memoryExcluded) : ExcludedRun spec plan r := by
  unfold validateResult at h
  rw [check_bind,hstatus] at h
  obtain ⟨-,h⟩ := h
  unfold checkExclusion at h
  cases hexclusion : r.memoryExclusion with
  | none =>
    rw [hexclusion] at h
    cases h
  | some e =>
    rw [hexclusion,check_bind,check_bind,call_bind] at h
    obtain ⟨hcompleted,⟨hweight,hexecution,hstage,hworkload,hcheckpoint,hmanifest,hprocess,hload⟩,
      fit,hfit,hunfit⟩ := h
    rw [check_ok_iff] at hunfit
    cases hmeasurement : e.profile.measurement with
    | other kind =>
      rw [hmeasurement] at hcompleted
      cases hcompleted
    | memory m =>
      rw [hmeasurement] at hcompleted
      exact ⟨hstatus,e,m,fit,hexclusion,hmeasurement,hcompleted,hstage,hweight,hexecution,
        hworkload,hcheckpoint,hmanifest,hprocess,hload,hfit,hunfit⟩

end Results

section Gates

variable {spec : SweepSpec} {results : List JobResult} {cid : String}

/-- What a verdict takes. -/
theorem decisionOf_verdict {complete stable health : Bool} {bounds : Option (ℚ×ℚ)}
    (h : decisionOf spec complete stable health bounds=.pass ∨
      decisionOf spec complete stable health bounds=.fail) :
    complete=true ∧ stable=true ∧ health=true := by
  unfold decisionOf at h
  cases complete with
  | false => simp at h
  | true =>
    cases stable with
    | false => simp at h
    | true =>
      cases health with
      | false => cases bounds <;> simp at h
      | true => exact ⟨rfl,rfl,rfl⟩

/-- A covered candidate has one status throughout. -/
theorem covered_status (h : covered spec results cid=true) :
    (∀ r∈rowsOf results cid,r.status=.measured) ∨
      (∀ r∈rowsOf results cid,r.status=.memoryExcluded) := by
  unfold covered at h
  simp only [Bool.or_eq_true,Bool.and_eq_true,List.all_eq_true,decide_eq_true_iff] at h
  rcases h with h|h
  · exact .inl fun r hr => h.2 _ (List.mem_map_of_mem hr)
  · exact .inr fun r hr => h.2 _ (List.mem_map_of_mem hr)

/-- If every reference run has a time, every reference run is measured. -/
theorem references_measured (h : (refs results).length=(referenceJobs results).length) :
    ∀ r∈referenceJobs results,r.status=.measured := by
  have hle : (refs results).length ≤
      ((referenceJobs results).filter fun r => decide (r.status=.measured)).length :=
    List.length_filterMap_le _ _
  have hfilter := List.length_filter_le (fun r : JobResult => decide (r.status=.measured))
    (referenceJobs results)
  have heq : ((referenceJobs results).filter fun r => decide (r.status=.measured)).length=
      (referenceJobs results).length := by omega
  intro r hr
  exact of_decide_eq_true (List.length_filter_eq_length_iff.mp heq r hr)

/-- A drift is that of the least and the greatest time. -/
theorem driftOf_some {times : List ℚ} {drift : ℚ} (h : driftOf times=some drift) :
    ∃ lowest∈times,∃ highest∈times,(∀ t∈times,lowest ≤ t ∧ t ≤ highest) ∧ 0 < lowest ∧
      highest/lowest-1=drift := by
  unfold driftOf at h
  cases hmin : times.min? with
  | none =>
    rw [hmin] at h
    cases h
  | some lowest =>
    cases hmax : times.max? with
    | none =>
      rw [hmin,hmax] at h
      cases h
    | some highest =>
      rw [hmin,hmax] at h
      obtain ⟨hlowest,hbelow⟩ := List.min?_eq_some_iff.mp hmin
      obtain ⟨hhighest,habove⟩ := List.max?_eq_some_iff.mp hmax
      simp only [Option.ite_none_right_eq_some,Option.some.injEq] at h
      exact ⟨lowest,hlowest,highest,hhighest,fun t ht => ⟨hbelow t ht,habove t ht⟩,h.1,h.2⟩

/-- Health is that of every run after the others. -/
theorem healthOf_after (h : healthOf results=true) {r : JobResult} (hr : r∈results)
    {round : ℕ} (hjob : r.jobId=referenceAfter round) : r.selectedHealthPassed=some true := by
  unfold healthOf at h
  rw [List.all_eq_true] at h
  refine of_decide_eq_true (h r (List.mem_filter.mpr ⟨List.mem_filter.mpr ⟨hr,?_⟩,?_⟩))
  · rw [hjob]
    exact isReference_after round
  · rw [hjob]
    exact suffix_after round

end Gates

/-- Evidence for all jobs of so many rounds. -/
structure Evidence (planHash : DeploymentPlan → String) (random : Randomness) (spec : SweepSpec)
    (results : List JobResult) (n : ℕ) (jobs : ℕ → List (String×DeploymentPlan)) : Prop where
  /-- There are enough rounds. -/
  enough : spec.repetitions ≤ n
  /-- There are not too many. -/
  allowed : n ≤ spec.maximumRepetitions
  /-- The jobs are those of the schedule. -/
  scheduled : ∀ k < n,schedule planHash random spec k=.ok (jobs k)
  /-- Each of these jobs has exactly one result, and nothing else has. -/
  exactly : (results.map (·.jobId)).Perm ((List.range n).flatMap fun k => (jobs k).map Prod.fst)
  /-- Every result is of this sweep and about the placement of its job. -/
  own : ∀ r∈results,r.sweepDigest=spec.sweepDigest ∧ ∃ k < n,∃ plan,(r.jobId,plan)∈jobs k ∧
    r.candidateId=plan.selectedCandidateId
  /-- Every placement is measured in every round, or excluded in every round. -/
  placed : ∀ plan∈placements planHash spec,
    (∀ k < n,∃ i,(candidateJob k i,plan)∈jobs k ∧
      ∃ r∈results,r.jobId=candidateJob k i ∧ MeasuredRun spec r) ∨
    (∀ k < n,∃ i,(candidateJob k i,plan)∈jobs k ∧
      ∃ r∈results,r.jobId=candidateJob k i ∧ ExcludedRun spec plan r)
  /-- Every round has measured reference runs of the selected placement, the last
  of them with passed health. -/
  references : ∀ k < n,∃ before∈results,∃ after∈results,
    before.jobId=referenceBefore k ∧ after.jobId=referenceAfter k ∧
    before.candidateId=spec.selectedPlan.selectedCandidateId ∧
    after.candidateId=spec.selectedPlan.selectedCandidateId ∧
    MeasuredRun spec before ∧ MeasuredRun spec after ∧ after.selectedHealthPassed=some true
  /-- Their times drift within the limit. -/
  drift : ∃ lowest∈refs results,∃ highest∈refs results,
    (∀ t∈refs results,lowest ≤ t ∧ t ≤ highest) ∧ 0 < lowest ∧
    highest/lowest-1 ≤ spec.driftLimit
  /-- Nothing failed. -/
  statuses : ∀ r∈results,r.status=.measured ∨ r.status=.memoryExcluded

section Verdicts

variable {planHash : DeploymentPlan → String} {random : Randomness} {spec : SweepSpec}
variable {results : List JobResult} {summary : Summary} {coverage : Coverage} {n : ℕ}

/-- The jobs of a round, none if it cannot be scheduled. -/
def jobsOf (planHash : DeploymentPlan → String) (random : Randomness) (spec : SweepSpec)
    (round : ℕ) : List (String×DeploymentPlan) :=
  match schedule planHash random spec round with
  | .ok jobs => jobs
  | .error _ => []

/-- Complete coverage by validated results. -/
structure Complete (planHash : DeploymentPlan → String) (random : Randomness) (spec : SweepSpec)
    (results : List JobResult) (n : ℕ) : Prop where
  /-- All rounds can be scheduled. -/
  scheduled : ∀ k < n,schedule planHash random spec k=.ok (jobsOf planHash random spec k)
  /-- Rounds have three digits. -/
  small : n ≤ 100
  /-- No job has two results. -/
  once : (results.map (·.jobId)).Nodup
  /-- Every job has a result. -/
  all : ∀ k < n,∀ job∈jobsOf planHash random spec k,job.1∈results.map (·.jobId)
  /-- Every result was validated against the plan of its job. -/
  validated : ∀ r∈results,∃ k < n,∃ plan,(r.jobId,plan)∈jobsOf planHash random spec k ∧
    validateResult spec r r.jobId plan=.ok ()

/-- From the two loops over the coverage. -/
theorem complete_of_covers (h : Covers planHash random spec coverage results)
    (hbound : n ≤ spec.maximumRepetitions)
    (hrounds : ∀ k,k∈coverage.rounds.map Prod.fst ↔ k < n)
    (hseen : ∀ round∈coverage.rounds,∀ job∈round.2,job.1∈coverage.seen) :
    Complete planHash random spec results n := by
  have hjobs : ∀ k jobs,(k,jobs)∈coverage.rounds → jobsOf planHash random spec k=jobs := by
    intro k jobs hmem
    rw [jobsOf,(h.scheduled k jobs hmem).1]
  have hentry : ∀ k < n,(k,jobsOf planHash random spec k)∈coverage.rounds := by
    intro k hk
    obtain ⟨⟨round,jobs⟩,hmem,rfl⟩ := List.mem_map.mp ((hrounds k).mpr hk)
    change (round,jobsOf planHash random spec round)∈coverage.rounds
    rw [hjobs round jobs hmem]
    exact hmem
  refine ⟨?_,le_trans hbound spec.maximumRepetitions_le,?_,?_,?_⟩
  · exact fun k hk => (h.scheduled k _ (hentry k hk)).1
  · rw [←List.nodup_reverse,←h.seen]
    exact h.once
  · intro k hk job hjob
    have hmem := hseen _ (hentry k hk) job hjob
    rw [h.seen,List.mem_reverse] at hmem
    exact hmem
  · intro r hr
    obtain ⟨k,jobs,plan,hmem,hplan,hvalid⟩ := h.validated r hr
    refine ⟨k,(hrounds k).mp (List.mem_map_of_mem hmem),plan,?_,hvalid⟩
    rw [hjobs k jobs hmem]
    exact hplan

/-- The job of a round has a result that was validated against its plan. -/
theorem Complete.result (h : Complete planHash random spec results n) {k : ℕ} (hk : k < n)
    {job : String} {plan : DeploymentPlan} (hjob : (job,plan)∈jobsOf planHash random spec k) :
    ∃ r∈results,r.jobId=job ∧ validateResult spec r job plan=.ok () := by
  obtain ⟨r,hr,hid⟩ := List.mem_map.mp (h.all k hk _ hjob)
  obtain ⟨k',hk',plan',hmem,hvalid⟩ := h.validated r hr
  have hround := schedule_round (h.scheduled k hk) (lt_of_lt_of_le hk h.small)
    (List.mem_map_of_mem hjob)
  have hround' := schedule_round (h.scheduled k' hk') (lt_of_lt_of_le hk' h.small)
    (List.mem_map_of_mem hmem)
  have hsame : k=k' := by
    have heq : (Except.ok k : Except Raised ℕ)=.ok k' := by
      rw [←hround,←hround']
      exact congrArg roundOf hid.symm
    exact Except.ok.inj heq
  have hplan : (r.jobId,plan')=(job,plan) :=
    List.inj_on_of_nodup_map (schedule_nodup (h.scheduled k hk)) (hsame ▸ hmem) hjob hid
  obtain ⟨hjobId,hplan⟩ := Prod.mk.inj hplan
  refine ⟨r,hr,hjobId,?_⟩
  rw [←hjobId,←hplan]
  exact hvalid

/-- The results are exactly those of the jobs. -/
theorem Complete.perm (h : Complete planHash random spec results n) :
    (results.map (·.jobId)).Perm
      ((List.range n).flatMap fun k => (jobsOf planHash random spec k).map Prod.fst) := by
  refine (List.perm_ext_iff_of_nodup h.once ?_).mpr fun job => ?_
  · rw [List.nodup_flatMap]
    refine ⟨fun k hk => schedule_nodup (h.scheduled k (List.mem_range.mp hk)),?_⟩
    refine List.Pairwise.imp_of_mem ?_ List.nodup_range
    intro k k' hk hk' hne job hjob hjob'
    rw [List.mem_range] at hk hk'
    have hround := schedule_round (h.scheduled k hk) (lt_of_lt_of_le hk h.small) hjob
    rw [schedule_round (h.scheduled k' hk') (lt_of_lt_of_le hk' h.small) hjob'] at hround
    exact hne (Except.ok.inj hround).symm
  · rw [List.mem_flatMap]
    constructor
    · intro hjob
      obtain ⟨r,hr,rfl⟩ := List.mem_map.mp hjob
      obtain ⟨k,hk,plan,hmem,-⟩ := h.validated r hr
      exact ⟨k,List.mem_range.mpr hk,List.mem_map_of_mem hmem⟩
    · rintro ⟨k,hk,hjob⟩
      obtain ⟨entry,hentry,rfl⟩ := List.mem_map.mp hjob
      exact h.all k (List.mem_range.mp hk) entry hentry

/-- The candidate job of a placement in a round, with its result. -/
theorem Complete.candidate (h : Complete planHash random spec results n) {k : ℕ} (hk : k < n)
    {plan : DeploymentPlan} (hplan : plan∈placements planHash spec) :
    ∃ i,(candidateJob k i,plan)∈jobsOf planHash random spec k ∧
      ∃ r∈rowsOf results plan.selectedCandidateId,r∈results ∧ r.jobId=candidateJob k i ∧
        validateResult spec r (candidateJob k i) plan=.ok () := by
  have hexists : ∃ i,(candidateJob k i,plan)∈candidateJobs planHash random spec k :=
    exists_candidateJob random k hplan
  obtain ⟨i,hi⟩ := hexists
  obtain ⟨selected,-,-,hjobs⟩ := schedule_ok (h.scheduled k hk)
  have hjob : (candidateJob k i,plan)∈jobsOf planHash random spec k := by
    rw [hjobs]
    exact .tail _ (List.mem_append_left _ hi)
  obtain ⟨r,hr,hid,hvalid⟩ := h.result hk hjob
  refine ⟨i,hjob,r,?_,hr,hid,hvalid⟩
  unfold rowsOf
  rw [List.mem_filter,hid,isReference_candidate,(validateResult_scope hvalid).2.2]
  exact ⟨hr,by simp⟩

/-- Every result is a reference run or a row of a placement. -/
theorem Complete.cases (h : Complete planHash random spec results n) {r : JobResult}
    (hr : r∈results) : r∈referenceJobs results ∨
      ∃ plan∈placements planHash spec,r∈rowsOf results plan.selectedCandidateId := by
  obtain ⟨k,hk,plan,hmem,hvalid⟩ := h.validated r hr
  cases hreference : isReference r.jobId with
  | true => exact .inl (List.mem_filter.mpr ⟨hr,hreference⟩)
  | false =>
    refine .inr ⟨plan,schedule_placed (h.scheduled k hk) hmem,List.mem_filter.mpr ⟨hr,?_⟩⟩
    rw [hreference,(validateResult_scope hvalid).2.2]
    simp

/-- A summary decides pass or fail only on evidence for all jobs of a number of
rounds. -/
theorem verdict_rests_on_evidence (h : summarize planHash random spec results=.ok summary)
    (hverdict : summary.decision=.pass ∨ summary.decision=.fail) :
    ∃ n,Evidence planHash random spec results n (jobsOf planHash random spec) := by
  unfold summarize at h
  rw [call_bind] at h
  obtain ⟨coverage,hfold,h⟩ := h
  rw [check_bind] at h
  obtain ⟨-,h⟩ := h
  have hcovers : Covers planHash random spec coverage results := covers_nil.run hfold
  rw [←Except.ok.inj h] at hverdict
  obtain ⟨hcomplete,hstable,hhealth⟩ := decisionOf_verdict hverdict
  rw [Bool.and_eq_true,List.all_eq_true] at hcomplete
  rw [Bool.and_eq_true,Bool.and_eq_true,decide_eq_true_iff,decide_eq_true_iff,
    Option.any_eq_true] at hstable
  rw [Bool.and_eq_true] at hhealth
  obtain ⟨n,henough,hallowed,hrounds,hseen⟩ := completeRounds_ok hcovers hcomplete.1
  have hall := complete_of_covers hcovers hallowed hrounds hseen
  have hreferences := references_measured hstable.1.2
  have hstatus : ∀ plan∈placements planHash spec,
      (∀ r∈rowsOf results plan.selectedCandidateId,r.status=.measured) ∨
        (∀ r∈rowsOf results plan.selectedCandidateId,r.status=.memoryExcluded) :=
    fun plan hplan => covered_status (hcomplete.2 _ (List.mem_map_of_mem hplan))
  refine ⟨n,henough,hallowed,hall.scheduled,hall.perm,?_,?_,?_,?_,?_⟩
  · intro r hr
    obtain ⟨k,hk,plan,hmem,hvalid⟩ := hall.validated r hr
    obtain ⟨hdigest,-,hcandidate⟩ := validateResult_scope hvalid
    exact ⟨hdigest,k,hk,plan,hmem,hcandidate⟩
  · intro plan hplan
    rcases hstatus plan hplan with hmeasured|hexcluded
    · refine .inl fun k hk => ?_
      obtain ⟨i,hjob,r,hrow,hr,hid,hvalid⟩ := hall.candidate hk hplan
      exact ⟨i,hjob,r,hr,hid,measuredRun_of_valid hvalid (hmeasured r hrow)⟩
    · refine .inr fun k hk => ?_
      obtain ⟨i,hjob,r,hrow,hr,hid,hvalid⟩ := hall.candidate hk hplan
      exact ⟨i,hjob,r,hr,hid,excludedRun_of_valid hvalid (hexcluded r hrow)⟩
  · intro k hk
    obtain ⟨selected,-,hselected,hjobs⟩ := schedule_ok (hall.scheduled k hk)
    have hbefore : (referenceBefore k,selected)∈jobsOf planHash random spec k := by
      rw [hjobs]
      exact .head _
    have hafter : (referenceAfter k,selected)∈jobsOf planHash random spec k := by
      rw [hjobs]
      exact .tail _ (List.mem_append_right _ (.head _))
    obtain ⟨before,hb,hbId,hbValid⟩ := hall.result hk hbefore
    obtain ⟨after,ha,haId,haValid⟩ := hall.result hk hafter
    have hbMeasured := hreferences before (List.mem_filter.mpr ⟨hb,by
      rw [hbId]
      exact isReference_before k⟩)
    have haMeasured := hreferences after (List.mem_filter.mpr ⟨ha,by
      rw [haId]
      exact isReference_after k⟩)
    exact ⟨before,hb,after,ha,hbId,haId,(validateResult_scope hbValid).2.2.trans hselected,
      (validateResult_scope haValid).2.2.trans hselected,measuredRun_of_valid hbValid hbMeasured,
      measuredRun_of_valid haValid haMeasured,healthOf_after hhealth.2 ha haId⟩
  · obtain ⟨drift,hdrift,hlimit⟩ := hstable.2
    obtain ⟨lowest,hlowest,highest,hhighest,hbetween,hpos,heq⟩ := driftOf_some hdrift
    refine ⟨lowest,hlowest,highest,hhighest,hbetween,hpos,?_⟩
    rw [heq]
    exact of_decide_eq_true hlimit
  · intro r hr
    rcases hall.cases hr with hreference|⟨plan,hplan,hrow⟩
    · exact .inl (hreferences r hreference)
    · rcases hstatus plan hplan with hmeasured|hexcluded
      · exact .inl (hmeasured r hrow)
      · exact .inr (hexcluded r hrow)

end Verdicts

/-- A measured plan of two workers. -/
def samplePlan : DeploymentPlan where
  schemaVersion := "1.1"
  plannerVersion := "0.2.0"
  planId := "plan"
  deploymentVersion := 1
  planDigest := "plan"
  manifestDigest := "manifest"
  workloadId := "short"
  planningMode := .measured
  executionDtype := .f32
  weightDtype := none
  activationDtype := .f16
  splitLayer := 1
  workloadDigest := some "workload"
  profileBundleDigest := some "bundle"
  stages := assignmentsFor "x" "y" 1 2
  duplicatedTensorGroups := []
  selectedCandidateId := "x--y-m001"

/-- A sweep of a model with two layers, in five to ten rounds. -/
def sampleSpec : SweepSpec where
  manifest := ⟨"1.1","manifest","llama.v1",⟨1,2,1,1,false⟩,[]⟩
  workload := PlannerRanking.sampleWorkload .f16
  reference := ⟨"manifest","checkpoint","producer","artifact",[1],[2]⟩
  selectedPlan := samplePlan
  planningReportDigest := "report"
  profileBundleDigest := "bundle"
  executorDigest := "executor"
  predictions := []
  mlxFitPolicies := []
  concurrentLoad := "idle"
  seed := 5506
  warmups := 2
  repetitions := 5
  maximumRepetitions := 10
  regretLimit := 3/20
  driftLimit := 1/10
  warmups_ge := le_refl _
  repetitions_ge := le_refl _
  maximumRepetitions_le := by decide
  regretLimit_range := by decide +kernel
  driftLimit_range := by decide +kernel
  scope := ⟨rfl,rfl,rfl,rfl,rfl,rfl⟩
  referenced := ⟨rfl,rfl⟩
  single := ⟨rfl,rfl⟩
  repetitions_le := by decide
  sweepDigest := "sweep"

/-- Plans hash to their candidate. -/
def sampleHash (plan : DeploymentPlan) : String := plan.selectedCandidateId

/-- Nothing is shuffled, and the one time there is is drawn. -/
def sampleRandom : Randomness where
  shuffle := fun _ plans => plans
  shuffle_perm := fun _ plans => .refl plans
  choices := fun _ _ _ _ => [100]

/-- One token after a hundred milliseconds. -/
def sampleRun : Sample where
  tokenIds := [2]
  clientArrivalsMs := [100]
  nativeArrivalsMs := []
  terminalMs := 101
  nativeRequestSetupMs := none
  nonneg := by decide +kernel
  tokens := by decide
  native := fun h => absurd rfl h
  ordered := by decide
  terminal := by decide +kernel

/-- The result of a job. -/
def sampleResult (job : String) (plan : DeploymentPlan) : JobResult where
  sweepDigest := "sweep"
  jobId := job
  candidateId := plan.selectedCandidateId
  status := .measured
  warmups := [sampleRun,sampleRun]
  sample := some sampleRun
  evidenceDigest := job
  memoryExclusion := none
  hostEnvelopeBytes := []
  deviceEnvelopeBytes := []
  cleanupPassed := true
  selectedHealthPassed := some true
  detail := "sample"

/-- The results of five rounds. -/
def sampleResults : List JobResult :=
  (List.range 5).flatMap fun k =>
    (jobsOf sampleHash sampleRandom sampleSpec k).map fun job => sampleResult job.1 job.2

/-- A summary with a decision was returned. -/
theorem exists_of_decision {made : Except Raised Summary} {decision : Decision}
    (h : made.toOption.map (·.decision)=some decision) :
    ∃ summary,made=.ok summary ∧ summary.decision=decision := by
  cases made with
  | error e => cases h
  | ok summary => exact ⟨summary,rfl,Option.some_injective _ h⟩

/-- Five rounds of equal measurements pass, on their evidence. -/
theorem sample_evidence : ∃ n,Evidence sampleHash sampleRandom sampleSpec sampleResults n
    (jobsOf sampleHash sampleRandom sampleSpec) := by
  obtain ⟨summary,hsummary,hpass⟩ :=
    @exists_of_decision (summarize sampleHash sampleRandom sampleSpec sampleResults) .pass
      (by decide +kernel)
  exact verdict_rests_on_evidence hsummary (.inl hpass)

end Hllm.SweepVerdicts
