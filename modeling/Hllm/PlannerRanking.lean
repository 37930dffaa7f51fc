import Hllm.KeyedRanks
import Hllm.PlannerPlacement
import Mathlib.Data.List.Sort
import Mathlib.Data.Prod.Lex
import Mathlib.Data.String.Basic

/-!
# Ranking and selection of placements

Ranks and the selected candidate are looked up again by candidate id, and an
id is two worker ids and a number joined by dashes. Ids of one order never
clash. Ids of the two orders clash exactly when the two worker ids read the
same joined either way, and then every split clashes. Without such a clash
the lookups return what was sorted, and the emitted plan is that of a
feasible candidate with the least score and id.
-/

namespace Hllm.PlannerRanking

open KeyedRanks PlannerModels PlannerPlacement
open WireMessages (StageAssignment)

/-- Padding with zeros keeps numbers apart. -/
theorem padded_injective : Function.Injective padded := by
  intro n n' h
  have hvalue : ∀ m,Nat.ofDigitChars 10 (padded m).toList 0=m := by
    intro m
    rw [padded,String.toList_ofList,Nat.ofDigitChars_append,Nat.ofDigitChars_replicate_zero,
      Nat.mul_zero,Nat.ofDigitChars_ten_toDigits]
  rw [←hvalue n,←hvalue n',h]

/-- The two worker ids of an id, joined. -/
def joined (first final : String) : String := first++"--"++final

/-- Ids agree exactly when the joined worker ids and the splits do, provided
the worker ids are the same two in some order. -/
theorem candidateId_eq_iff {first final first' final' : String} {split split' : ℕ}
    (hlength : first.length+final.length=first'.length+final'.length) :
    candidateId first final split=candidateId first' final' split' ↔
      joined first final=joined first' final' ∧ split=split' := by
  constructor
  · intro h
    have hlists : (joined first final).toList++("-m".toList++(padded split).toList)=
        (joined first' final').toList++("-m".toList++(padded split').toList) := by
      have htext := congrArg String.toList h
      simpa [candidateId,joined,String.toList_append] using htext
    have hlen : (joined first final).toList.length=(joined first' final').toList.length := by
      simp only [joined,String.toList_append,List.length_append,String.length_toList]
      omega
    obtain ⟨hjoined,hrest⟩ := List.append_inj hlists hlen
    refine ⟨String.toList_injective hjoined,padded_injective (String.toList_injective ?_)⟩
    exact List.append_cancel_left hrest
  · rintro ⟨hjoined,rfl⟩
    unfold candidateId
    rw [show first++"--"++final=first'++"--"++final' from hjoined]

section Candidates

variable {evaluate : ProfileBundle → ModelManifest → WorkloadProfile → List StageAssignment →
  Option DType → Except Raised Evaluation}
variable {manifest : ModelManifest} {links : List LinkProfile} {workload : WorkloadProfile}
variable {settings : PlannerSettings} {bundle : Option ProfileBundle}

/-- What the enumeration writes into a candidate. -/
structure Describes (first final : WorkerProfile) (split : ℕ) (c : PlanCandidate) : Prop where
  id : c.candidateId=candidateId first.workerId final.workerId split
  zero : c.stageZeroWorkerId=first.workerId
  final : c.finalStageWorkerId=final.workerId
  split : c.splitLayer=split
  feasible : c.feasible=true ↔ c.rejectionReasons=[]

/-- Every candidate describes its placement. -/
theorem candidate_describes {first final : WorkerProfile} {split : ℕ} {c : PlanCandidate}
    (h : candidate evaluate manifest links workload settings bundle first final split=.ok c) :
    Describes first final split c := by
  unfold candidate at h
  obtain ⟨stageZero,-,h⟩ := bind_eq_ok.mp h
  obtain ⟨stageOne,-,h⟩ := bind_eq_ok.mp h
  obtain ⟨⟨status,reasons,performance⟩,-,h⟩ := bind_eq_ok.mp h
  obtain ⟨score,-,h⟩ := bind_eq_ok.mp h
  cases h
  exact ⟨rfl,rfl,rfl,rfl,by simp⟩

/-- Worker ids and splits in the order they are tried. -/
def allPlacements (a b : String) (layers : ℕ) : List (String×String×ℕ) :=
  (List.range' 1 (layers-1)).map (fun split => (a,b,split))++
    (List.range' 1 (layers-1)).map fun split => (b,a,split)

/-- A candidate's worker order and split. -/
def placementOf (c : PlanCandidate) : String×String×ℕ :=
  (c.stageZeroWorkerId,c.finalStageWorkerId,c.splitLayer)

/-- The id of a placement. -/
def idOf (placement : String×String×ℕ) : String :=
  candidateId placement.1 placement.2.1 placement.2.2

/-- The raw candidates are one for each placement. -/
theorem rawCandidates_ok {first second : WorkerProfile} {raw : List PlanCandidate}
    (h : rawCandidates evaluate manifest (first,second) links workload settings bundle=.ok raw) :
    raw.map placementOf=
        allPlacements first.workerId second.workerId manifest.config.numLayers ∧
      ∀ c∈raw,c.candidateId=idOf (placementOf c) ∧
        (c.feasible=true ↔ c.rejectionReasons=[]) := by
  have hall := (forall₂_of_mapM h).imp fun placement c hc => candidate_describes hc
  constructor
  · rw [map_eq_of_forall₂ (f:=fun p : WorkerProfile×WorkerProfile×ℕ =>
      (p.1.workerId,p.2.1.workerId,p.2.2)) (fun p c hc => ?_) hall]
    · simp [placements,allPlacements,Function.comp_def]
    · rw [placementOf,hc.zero,hc.final,hc.split]
  · intro c hc
    obtain ⟨placement,hdesc⟩ := exists_of_forall₂ hall hc
    refine ⟨?_,hdesc.feasible⟩
    rw [idOf,placementOf,hdesc.zero,hdesc.final,hdesc.split]
    exact hdesc.id

end Candidates

/-- Ids are distinct exactly when there is nothing to tell apart, or the two
worker ids read differently joined either way. -/
theorem ids_nodup_iff (a b : String) (layers : ℕ) :
    ((allPlacements a b layers).map idOf).Nodup ↔ layers≤1 ∨ joined a b≠joined b a := by
  have hone : ∀ x y : String,((List.range' 1 (layers-1)).map fun split =>
      candidateId x y split).Nodup := by
    intro x y
    refine List.Nodup.map (fun s s' h => ?_) List.nodup_range'
    exact ((candidateId_eq_iff rfl).mp h).2
  have hids : (allPlacements a b layers).map idOf=
      ((List.range' 1 (layers-1)).map fun split => candidateId a b split)++
        (List.range' 1 (layers-1)).map fun split => candidateId b a split := by
    simp [allPlacements,idOf,Function.comp_def]
  have hcross : ∀ split split',candidateId a b split=candidateId b a split' ↔
      joined a b=joined b a ∧ split=split' :=
    fun split split' => candidateId_eq_iff (Nat.add_comm _ _)
  rw [hids,List.nodup_append]
  constructor
  · rintro ⟨-,-,hdisjoint⟩
    by_contra hbad
    rw [not_or,not_not,Nat.not_le] at hbad
    have hsplit : 1∈List.range' 1 (layers-1) := by
      rw [List.mem_range'_1]
      omega
    exact hdisjoint _ (List.mem_map_of_mem hsplit) _ (List.mem_map_of_mem hsplit)
      ((hcross 1 1).mpr ⟨hbad.2,rfl⟩)
  · intro hgood
    refine ⟨hone a b,hone b a,fun x hx y hy he => ?_⟩
    obtain ⟨split,hs,rfl⟩ := List.mem_map.mp hx
    obtain ⟨split',hs',rfl⟩ := List.mem_map.mp hy
    rcases hgood with hfew|hne
    · rw [List.mem_range'_1] at hs
      omega
    · exact hne ((hcross split split').mp he).1

/-- The sort key in the lexicographic order. -/
def sortKey (c : PlanCandidate) : WithTop ℚ ×ₗ String := toLex (c.score.getD ⊤,c.candidateId)

/-- Candidates are sorted by their keys. -/
theorem precedesOrTies_iff {c c' : PlanCandidate} :
    PrecedesOrTies c c' ↔ sortKey c ≤ sortKey c' := by
  rw [sortKey,sortKey,Prod.Lex.toLex_le_toLex]
  exact Iff.rfl

instance : Std.Total PrecedesOrTies where
  total c c' := by
    rw [precedesOrTies_iff,precedesOrTies_iff]
    exact le_total _ _

instance : IsTrans PlanCandidate PrecedesOrTies where
  trans c c' c'' := by
    rw [precedesOrTies_iff,precedesOrTies_iff,precedesOrTies_iff]
    exact le_trans

section Ranks

variable {raw : List PlanCandidate}

/-- Sorting keeps the feasible candidates. -/
theorem feasibleCandidates_perm (raw : List PlanCandidate) :
    (feasibleCandidates raw).Perm (raw.filter (·.feasible)) :=
  List.perm_insertionSort _ _

/-- Sorted candidates are the feasible ones. -/
theorem mem_feasibleCandidates {c : PlanCandidate} :
    c∈feasibleCandidates raw ↔ c∈raw ∧ c.feasible=true := by
  rw [(feasibleCandidates_perm raw).mem_iff,List.mem_filter]

/-- Sorted candidates are in order. -/
theorem feasibleCandidates_pairwise (raw : List PlanCandidate) :
    (feasibleCandidates raw).Pairwise PrecedesOrTies :=
  List.pairwise_insertionSort _ _

/-- The first sorted candidate precedes every feasible one. -/
theorem head_precedes {best : PlanCandidate} {rest : List PlanCandidate}
    (hsorted : feasibleCandidates raw=best::rest) {c : PlanCandidate} (hc : c∈raw)
    (hfeasible : c.feasible=true) : PrecedesOrTies best c := by
  have hpairwise := feasibleCandidates_pairwise raw
  have hmem := mem_feasibleCandidates.mpr ⟨hc,hfeasible⟩
  rw [hsorted] at hpairwise hmem
  rcases List.mem_cons.mp hmem with rfl|hrest
  · exact .inr ⟨rfl,le_refl _⟩
  · exact List.rel_of_pairwise_cons hpairwise hrest

/-- Sorted candidates have distinct ids if all candidates have. -/
theorem feasibleCandidates_nodup (hids : (raw.map (·.candidateId)).Nodup) :
    ((feasibleCandidates raw).map (·.candidateId)).Nodup := by
  rw [((feasibleCandidates_perm raw).map _).nodup_iff]
  exact hids.sublist (List.filter_sublist.map _)

/-- The rank looked up for a candidate. -/
def rankOf (raw : List PlanCandidate) (c : PlanCandidate) : Option ℕ :=
  ranks (feasibleCandidates raw) c.candidateId

/-- A ranked candidate. -/
def withRank (raw : List PlanCandidate) (c : PlanCandidate) : PlanCandidate :=
  {c with rank := rankOf raw c}

/-- Reported candidates are the raw ones with their ranks. -/
theorem rankCandidates_eq (raw : List PlanCandidate) :
    rankCandidates raw=raw.map (withRank raw) := rfl

/-- Ranks of the feasible candidates are a permutation of the first positions. -/
theorem rankOf_perm (hids : (raw.map (·.candidateId)).Nodup) :
    ((raw.filter (·.feasible)).map (rankOf raw)).Perm
      ((List.range' 1 (raw.filter (·.feasible)).length).map some) := by
  have hperm := (feasibleCandidates_perm raw).map (rankOf raw)
  have hranks := map_rankTable (feasibleCandidates_nodup hids) 1
  rw [(feasibleCandidates_perm raw).length_eq] at hranks
  rw [←hranks]
  exact hperm.symm

/-- Infeasible candidates have no rank. -/
theorem rankOf_infeasible (hids : (raw.map (·.candidateId)).Nodup) {c : PlanCandidate}
    (hc : c∈raw) (hinfeasible : c.feasible=false) : rankOf raw c=none := by
  refine rankTable_of_not_mem (fun hmem => ?_) 1
  obtain ⟨c',hc',hid⟩ := List.mem_map.mp hmem
  obtain ⟨hraw,hfeasible⟩ := mem_feasibleCandidates.mp hc'
  rw [List.inj_on_of_nodup_map hids hraw hc hid,hinfeasible] at hfeasible
  cases hfeasible

/-- A ranked candidate stands in the sorted list at its rank. -/
theorem rankOf_position (hids : (raw.map (·.candidateId)).Nodup) {c : PlanCandidate}
    (hc : c∈raw) {r : ℕ} (hr : rankOf raw c=some r) :
    ∃ i : Fin (feasibleCandidates raw).length,(feasibleCandidates raw).get i=c ∧ r=1+i := by
  have hfeasible : c.feasible=true := by
    by_contra hnot
    rw [rankOf_infeasible hids hc (Bool.eq_false_iff.mpr hnot)] at hr
    cases hr
  obtain ⟨i,hi⟩ := List.get_of_mem (mem_feasibleCandidates.mpr ⟨hc,hfeasible⟩)
  refine ⟨i,hi,?_⟩
  have hposition := rankTable_get (feasibleCandidates_nodup hids) 1 i
  rw [hi] at hposition
  exact Option.some_injective _ (hr.symm.trans hposition)

/-- Ranks follow the sort keys. -/
theorem rankOf_ordered (hids : (raw.map (·.candidateId)).Nodup) {c c' : PlanCandidate}
    (hc : c∈raw) (hc' : c'∈raw) {r r' : ℕ} (hr : rankOf raw c=some r)
    (hr' : rankOf raw c'=some r') (hle : r ≤ r') : PrecedesOrTies c c' := by
  obtain ⟨i,rfl,rfl⟩ := rankOf_position hids hc hr
  obtain ⟨i',rfl,rfl⟩ := rankOf_position hids hc' hr'
  rcases Nat.lt_or_eq_of_le (Nat.le_of_add_le_add_left hle) with hlt|heq
  · exact List.pairwise_iff_get.mp (feasibleCandidates_pairwise raw) i i' hlt
  · rw [Fin.ext heq]
    exact .inr ⟨rfl,le_refl _⟩

end Ranks

/-- The report is the best feasible placement of two workers in either order. -/
structure OptimalPlacement (layers : ℕ) (a b : String) (result : PlanningReport) : Prop where
  /-- One candidate for each order and split. -/
  enumerated : result.candidates.map placementOf=allPlacements a b layers
  /-- The number of candidates. -/
  count : result.candidates.length=2*(layers-1)
  /-- Ids are distinct. -/
  distinct : (result.candidates.map (·.candidateId)).Nodup
  /-- Feasible is to have no rejection reason. -/
  feasible : ∀ c∈result.candidates,c.feasible=true ↔ c.rejectionReasons=[]
  /-- Ranks of the feasible candidates permute the first positions. -/
  ranked : ((result.candidates.filter (·.feasible)).map (·.rank)).Perm
    ((List.range' 1 (result.candidates.filter (·.feasible)).length).map some)
  /-- Ranks follow score and id. -/
  ordered : ∀ c∈result.candidates,∀ c'∈result.candidates,∀ r r',c.rank=some r →
    c'.rank=some r' → r ≤ r' → PrecedesOrTies c c'
  /-- Infeasible candidates have no rank. -/
  unranked : ∀ c∈result.candidates,c.feasible=false → c.rank=none
  /-- There is a plan exactly when something is feasible. -/
  planned : result.plan.isSome=true ↔ ∃ c∈result.candidates,c.feasible=true
  /-- The plan is that of a least feasible candidate. -/
  selected : ∀ plan,result.plan=some plan → ∃ c∈result.candidates,c.feasible=true ∧
    (∀ c'∈result.candidates,c'.feasible=true → PrecedesOrTies c c') ∧
    plan.splitLayer=c.splitLayer ∧
    plan.stages=assignmentsFor c.stageZeroWorkerId c.finalStageWorkerId c.splitLayer layers ∧
    plan.selectedCandidateId=c.candidateId

section Reports

variable {evaluate : ProfileBundle → ModelManifest → WorkloadProfile → List StageAssignment →
  Option DType → Except Raised Evaluation}
variable {sha256 : String → String} {workloadDigest : WorkloadProfile → String}
variable {manifest : ModelManifest} {links : List LinkProfile} {workload : WorkloadProfile}
variable {settings : PlannerSettings} {bundle : Option ProfileBundle}
variable {raw : List PlanCandidate} {result : PlanningReport}

/-- Feasibility does not depend on the rank. -/
theorem filter_rankCandidates (raw : List PlanCandidate) :
    (rankCandidates raw).filter (·.feasible)=(raw.filter (·.feasible)).map (withRank raw) := by
  rw [rankCandidates_eq,List.filter_map]
  rfl

/-- A plan is emitted exactly when a candidate is feasible. -/
theorem report_planned
    (h : report sha256 workloadDigest manifest workload settings bundle raw=.ok result) :
    result.plan.isSome=true ↔ ∃ c∈result.candidates,c.feasible=true := by
  obtain ⟨hcandidates,hcases⟩ := report_ok h
  have hfeasible : (∃ c∈rankCandidates raw,c.feasible=true) ↔ ∃ c∈raw,c.feasible=true := by
    simp [rankCandidates_eq,withRank]
  rw [hcandidates,hfeasible]
  rcases hcases with ⟨hnone,hplan⟩|⟨best,rest,selected,plan,hsorted,-,-,hplan⟩
  · rw [hplan]
    constructor
    · intro hsome
      cases hsome
    rintro ⟨c,hc,hf⟩
    have hmem := mem_feasibleCandidates.mpr ⟨hc,hf⟩
    rw [hnone] at hmem
    cases hmem
  · rw [hplan]
    refine ⟨fun _ => ?_,fun _ => rfl⟩
    have hbest : best∈feasibleCandidates raw := by
      rw [hsorted]
      exact List.mem_cons_self
    exact ⟨best,mem_feasibleCandidates.mp hbest⟩

/-- With distinct ids the plan is that of the first candidate in order. -/
theorem report_selected (hids : (raw.map (·.candidateId)).Nodup)
    (h : report sha256 workloadDigest manifest workload settings bundle raw=.ok result)
    {plan : DeploymentPlan} (hplan : result.plan=some plan) :
    ∃ best rest,feasibleCandidates raw=best::rest ∧ plan.splitLayer=best.splitLayer ∧
      plan.stages=assignmentsFor best.stageZeroWorkerId best.finalStageWorkerId
        best.splitLayer manifest.config.numLayers ∧
      plan.selectedCandidateId=best.candidateId := by
  obtain ⟨-,hcases⟩ := report_ok h
  rcases hcases with ⟨-,hnone⟩|⟨best,rest,selected,plan',hsorted,hfound,hemit,hsome⟩
  · rw [hnone] at hplan
    cases hplan
  · have hbest : best∈raw := by
      refine (mem_feasibleCandidates.mp (?_ : best∈feasibleCandidates raw)).1
      rw [hsorted]
      exact List.mem_cons_self
    have hranked : ((rankCandidates raw).map (·.candidateId)).Nodup := by
      rw [rankCandidates_eq,List.map_map]
      exact hids
    have hselected : some (withRank raw best)=some selected :=
      (find_key hranked (List.mem_map_of_mem hbest)).symm.trans hfound
    obtain ⟨digests,-,hmade,-⟩ := emitPlan_ok hemit
    have hsame : plan=plan' := Option.some_injective _ (hplan.symm.trans hsome)
    refine ⟨best,rest,hsorted,?_⟩
    rw [hsame,hmade,←Option.some_injective _ hselected]
    exact ⟨rfl,rfl,rfl⟩

/-- Planning of two workers gives the best feasible placement exactly when
there is at most one layer or the worker ids differ when joined either way. -/
theorem optimalPlacement_iff {first second : WorkerProfile}
    (h : createPlan evaluate sha256 workloadDigest manifest [first,second] links workload settings
      bundle=.ok result) :
    OptimalPlacement manifest.config.numLayers first.workerId second.workerId result ↔
      (manifest.config.numLayers : ℕ)≤1 ∨
        joined first.workerId second.workerId≠joined second.workerId first.workerId := by
  obtain ⟨first',second',raw,hworkers,-,-,hraw,hreport⟩ := createPlan_ok h
  cases hworkers
  obtain ⟨henumerated,hdescribed⟩ := rawCandidates_ok hraw
  have hcandidates := (report_ok hreport).1
  have hrawIds : raw.map (·.candidateId)=
      (allPlacements first.workerId second.workerId manifest.config.numLayers).map idOf := by
    rw [←henumerated,List.map_map]
    exact List.map_congr_left fun c hc => (hdescribed c hc).1
  have hsameIds : result.candidates.map (·.candidateId)=raw.map (·.candidateId) := by
    rw [hcandidates,rankCandidates_eq,List.map_map]
    rfl
  rw [←ids_nodup_iff,←hrawIds]
  constructor
  · intro hoptimal
    rw [←hsameIds]
    exact hoptimal.distinct
  · intro hids
    have hplacements : result.candidates.map placementOf=
        allPlacements first.workerId second.workerId manifest.config.numLayers := by
      rw [hcandidates,rankCandidates_eq,List.map_map]
      exact henumerated
    refine {
      enumerated := hplacements
      count := ?_
      distinct := hsameIds ▸ hids
      feasible := ?_
      ranked := ?_
      ordered := ?_
      unranked := ?_
      planned := report_planned hreport
      selected := ?_}
    · have hlength := congrArg List.length hplacements
      rw [List.length_map] at hlength
      rw [hlength,allPlacements,List.length_append,List.length_map,List.length_map,
        List.length_range']
      omega
    · rw [hcandidates,rankCandidates_eq]
      intro c hc
      obtain ⟨c,hmem,rfl⟩ := List.mem_map.mp hc
      exact (hdescribed c hmem).2
    · rw [hcandidates,filter_rankCandidates,List.map_map,List.length_map]
      exact rankOf_perm hids
    · rw [hcandidates,rankCandidates_eq]
      intro c hc c' hc' r r' hr hr' hle
      obtain ⟨c,hmem,rfl⟩ := List.mem_map.mp hc
      obtain ⟨c',hmem',rfl⟩ := List.mem_map.mp hc'
      have hprecedes := rankOf_ordered hids hmem hmem' hr hr' hle
      exact hprecedes
    · rw [hcandidates,rankCandidates_eq]
      intro c hc hinfeasible
      obtain ⟨c,hmem,rfl⟩ := List.mem_map.mp hc
      exact rankOf_infeasible hids hmem hinfeasible
    · intro plan hplan
      obtain ⟨best,rest,hsorted,hsplit,hstages,hid⟩ := report_selected hids hreport hplan
      have hbest : best∈raw ∧ best.feasible=true := by
        refine mem_feasibleCandidates.mp ?_
        rw [hsorted]
        exact List.mem_cons_self
      rw [hcandidates,rankCandidates_eq]
      refine ⟨withRank raw best,List.mem_map_of_mem hbest.1,hbest.2,?_,hsplit,hstages,hid⟩
      intro c hc hfeasible
      obtain ⟨c,hmem,rfl⟩ := List.mem_map.mp hc
      have hprecedes := head_precedes hsorted hmem hfeasible
      exact hprecedes

end Reports

/-- A worker with one host budget. -/
def sampleWorker (workerId : String) (capacity : ℕ+) : WorkerProfile where
  schemaVersion := "1.0"
  workerId := workerId
  endpoint := workerId++":50051"
  backend := .cpu
  primaryMemoryDomain := .host
  supportedArchitectures := ["llama"]
  supportedExecutionDtypes := [.f32]
  supportsMixedPrecision := true
  memoryBudgets := [⟨.host,capacity,0,0,by decide⟩]
  fixedWorkspaceBytes := 0
  activationBufferCount := 1
  allocatorAllowanceFraction := 0
  hostTransportBufferBytes := 0
  provenance := .configured
  observedAvailableHostBytes := none
  observedAt := none
  domains_unique := List.nodup_singleton _
  primary_budgeted := List.mem_singleton.mpr rfl

/-- SHA-256 of the empty text. -/
def sampleDigest : String := "e3b0c44298fc1c149afbf4c8996fb92427ae41e4649b934ca495991b7852b855"

/-- SHA-256 on the two texts it is used for: the empty text, which stands for
the content of the sample manifest, and the text of the plan made below. -/
def sampleHash (content : String) : String :=
  if content="" then sampleDigest
  else "177c0dfceef43e33565b32c78d68e6a570ad24e752cd383604b70150bdb8b7dd"

/-- Two layers, of which the second has 4000 bytes of weights. -/
def sampleManifest : ModelManifest where
  schemaVersion := "1.1"
  manifestDigest := sampleDigest
  architectureId := "llama"
  config := ⟨1,2,1,1,false⟩
  tensors := [⟨[1],.transformerLayer,some 0⟩,⟨[1000],.transformerLayer,some 1⟩]

/-- One prompt token and one output token. -/
def sampleWorkload (activationDtype : DType) : WorkloadProfile where
  workloadId := "short"
  promptTokens := 1
  outputTokens := 1
  concurrency := 1
  totalCachedTokens := 2
  kvOverheadFactor := 1
  kvDtype := .f32
  activationDtype := activationDtype
  prefillChunkTokens := 0
  kvOverheadFactor_ge := le_refl _
  chunk_below_prompt := by decide

/-- Feasibility planning in F32, with F16 weights if mixed. -/
def sampleSettings (mixed : Bool) : PlannerSettings where
  mode := .feasibility
  executionDtype := .f32
  weightDtype := if mixed then some .f16 else none
  objectiveWeights := ⟨1,1,1,1⟩
  precision := by
    intro d hd
    cases mixed with
    | false => cases hd
    | true =>
      cases hd
      exact ⟨rfl,rfl⟩

/-- A large and a small worker. -/
def sampleWorkers (large small : String) : List WorkerProfile :=
  [sampleWorker large 10000,sampleWorker small 1000]

/-- Planning of the two layers on a large and a small worker. -/
def sampleReport (large small : String) (activationDtype : DType) (mixed : Bool) :
    Except Raised PlanningReport :=
  createPlan (fun _ _ _ _ _ => .error .assertion) sampleHash (fun _ => sampleDigest)
    sampleManifest (sampleWorkers large small) []
    (sampleWorkload activationDtype) (sampleSettings mixed) none

/-- Ids, feasibility and ranks of the candidates, with the planned stages. -/
def summary (result : PlanningReport) :
    List (String×Bool×Option ℕ)×Option (List StageAssignment) :=
  (result.candidates.map fun c => (c.candidateId,c.feasible,c.rank),result.plan.map (·.stages))

/-- A report with a summary was returned. -/
theorem exists_of_summary {made : Except Raised PlanningReport}
    {expected : List (String×Bool×Option ℕ)×Option (List StageAssignment)}
    (h : made.toOption.map summary=some expected) :
    ∃ result,made=.ok result ∧ summary result=expected := by
  cases made with
  | error e => cases h
  | ok result => exact ⟨result,rfl,Option.some_injective _ h⟩

/-- The one feasible order is selected. -/
theorem optimalPlacement_of_apart_ids :
    ∃ result,sampleReport "x" "y" .f16 false=.ok result ∧
      OptimalPlacement 2 "x" "y" result ∧
      result.plan.map (·.stages)=some (assignmentsFor "y" "x" 1 2) := by
  have hsummary : (sampleReport "x" "y" .f16 false).toOption.map summary=some
      ([("x--y-m001",false,none),("y--x-m001",true,some 1)],
        some (assignmentsFor "y" "x" 1 2)) := by decide +kernel
  obtain ⟨result,hresult,hshape⟩ := exists_of_summary hsummary
  have hoptimal := (optimalPlacement_iff hresult).mpr (.inr (by decide))
  exact ⟨result,hresult,hoptimal,congrArg Prod.snd hshape⟩

/-- With worker ids `x` and `x--x` both orders have one id, and the plan is
emitted for the order whose second stage does not fit. -/
theorem clashing_ids_select_infeasible :
    ∃ result,sampleReport "x" "x--x" .f16 false=.ok result ∧
      ¬OptimalPlacement 2 "x" "x--x" result ∧
      result.candidates.map (fun c => (c.candidateId,c.feasible))=
        [("x--x--x-m001",false),("x--x--x-m001",true)] ∧
      result.plan.map (·.stages)=some (assignmentsFor "x" "x--x" 1 2) := by
  have hsummary : (sampleReport "x" "x--x" .f16 false).toOption.map summary=some
      ([("x--x--x-m001",false,some 1),("x--x--x-m001",true,some 1)],
        some (assignmentsFor "x" "x--x" 1 2)) := by decide +kernel
  obtain ⟨result,hresult,hshape⟩ := exists_of_summary hsummary
  have hcandidates : result.candidates.map (fun c => (c.candidateId,c.feasible))=
      [("x--x--x-m001",false),("x--x--x-m001",true)] := by
    simpa [summary,Function.comp_def] using
      congrArg (fun shape => shape.1.map fun c => (c.1,c.2.1)) hshape
  refine ⟨result,hresult,fun hoptimal => ?_,hcandidates,congrArg Prod.snd hshape⟩
  have hids : result.candidates.map (·.candidateId)=["x--x--x-m001","x--x--x-m001"] := by
    simpa [Function.comp_def] using congrArg (List.map Prod.fst) hcandidates
  have hdistinct := hoptimal.distinct
  rw [hids] at hdistinct
  exact absurd hdistinct (by decide)

end Hllm.PlannerRanking
