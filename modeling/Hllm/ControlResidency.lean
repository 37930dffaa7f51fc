import Hllm.ControlReservations
import Hllm.ControlAdmission

/-!
# Which deployments are resident

A deployment stays in memory while the service or any thread refers to it.
`UnloadStage` looks at the table only, but a handler that has released its
request keeps its lease, while it writes its last messages or until its guard
is destroyed. Loading the next stage in that window makes two deployments
resident, of which the budgets were checked against one. Without unloads in
that window a new stage is only loaded when nothing else is resident.
-/

namespace Hllm.ControlResidency

open MemoryAccounting WireMessages RunInvariants ControlModel ControlTransitions ControlTable
open ControlAdmission ControlReservations

/-- The deployment a thread refers to. -/
def held : Thread → Option ℕ
  | .allocating _ deployment _ => some deployment
  | .leased deployment _ => deployment
  | .released deployment _ => deployment
  | .dropping deployment _ => deployment
  | _ => none

/-- The service or some thread refers to the deployment. -/
def Resident (w : World) (d : ℕ) : Prop := w.deployment=some d ∨ ∃ t,held (w.thread t)=some d

/-- `LoadStage` reaches its call of the backend factory. -/
def callsFactory (textDigest : String → String) (w : World) (request : LoadStageRequest)
    (readings : String → ℕ) : Prop :=
  (w.pruneExpired readings).deployment=none ∧
    (w.pruneExpired readings).beforeLoad textDigest request=.ok ()

/-- At most one deployment is resident, and the budgets cover it. -/
structure SingleResidency (textDigest : String → String) (w : World) : Prop where
  /-- When the factory is called, no thread keeps an earlier deployment. -/
  alone : ∀ request readings,callsFactory textDigest w request readings →
    ∀ t,held (w.thread t)=none
  /-- No two deployments are resident. -/
  unique : ∀ d d',Resident w d → Resident w d' → d=d'
  /-- The weights of everything resident fit. -/
  covered : ∀ ds : List ℕ,ds.Nodup → (∀ d∈ds,Resident w d) → ∀ domain,
    (ds.map fun d => (w.loaded d).backend.weightMemory.total domain).sum≤
      w.config.capacity.total domain

/-- The step is an `UnloadStage` that removes the loaded deployment. -/
def unloads (w : World) : Action → Prop
  | .unloadStage planId version readings =>
    ((w.pruneExpired readings).matching planId version).isSome=true ∧
      (w.pruneExpired readings).active=[]
  | _ => False

/-- The lease a handler still holds on a request it has released, as completed
or as failed. -/
def outlived : Thread → Option (Option ℕ×ℕ)
  | .released deployment object => some (deployment,object)
  | .dropping deployment object => some (deployment,object)
  | _ => none

/-- No handler still holds the lease of a request it has released. -/
def LeasesReturned (w : World) : Prop := ∀ t,outlived (w.thread t)=none

/-- Accepted unloads happen only when every lease has been returned. -/
def UnloadsAfterLeases (w : World) (a : Action) : Prop := unloads w a → LeasesReturned w

variable {w w' : World} {textDigest : String → String}

/-- Leases on released requests are on the loaded deployment. -/
def Settled (w : World) : Prop :=
  ∀ t d o,outlived (w.thread t)=some (d,o) → d=w.deployment ∧ w.deployment≠none

/-- Pruning keeps the deployment. -/
theorem pruneExpired_deployment (c : Control) (readings : String → ℕ) :
    (c.pruneExpired readings).deployment=c.deployment :=
  foldl_pruneEntry_deployment readings _ _

/-- `reserve` keeps the deployment. -/
theorem reserve_deployment (c : Control) (d : ℕ) (id : String) (tokens chunk : UInt64)
    (deadlineMs : ℕ) (readings : String → ℕ) (now : ℕ) :
    (c.reserve d id tokens chunk deadlineMs readings now).1.deployment=c.deployment := by
  rcases reserve_cases c d id tokens chunk deadlineMs readings now with
    ⟨error,hr⟩|⟨o,-,-,hr|⟨deadline,-,hr⟩⟩|⟨memory,deadline,-,-,hr⟩
  all_goals
    rw [hr]
    simp [pruneExpired_deployment]

/-- The end of an allocation keeps the deployment. -/
theorem allocated_deployment (c : Control) (o : ℕ) (answer : Allocation) (now recheck : ℕ) :
    (c.allocated o answer now recheck).1.deployment=c.deployment := by
  have hfound : ∀ (c : Control) (id reason : String),
      (c.retireFound id reason).deployment=c.deployment := by
    intro c id reason
    unfold Control.retireFound
    split
    · simp [Control.retire]
    · rfl
  unfold Control.allocated
  split
  · exact hfound _ _ _
  · exact hfound _ _ _
  · split
    · simp only [hfound,Control.finishAllocation_deployment]
    · rfl

/-- Claiming keeps the deployment. -/
theorem claim_deployment (w : World) (c : Control) (t o : ℕ) :
    (w.claim c t o).deployment=c.deployment := by
  unfold World.claim Control.claim
  split
  · rfl
  · rename_i hclaim
    split at hclaim
    · cases hclaim
    · cases hclaim
      rfl

/-- A reserving call keeps the deployment. -/
theorem reserveCall_deployment {t : ℕ} {call : ReserveCall} {stage : Option ℕ}
    {readings : String → ℕ} {now : ℕ} (h : w.reserveCall t call stage readings now=some w') :
    w'.deployment=w.deployment := by
  unfold World.reserveCall at h
  split at h
  · split at h
    · cases h
      rfl
    · rename_i d hmatching
      have hkept := reserve_deployment w.toControl d call.requestId call.tokens
        call.prefillChunkTokens call.deadlineMs readings now
      split at h
      · cases h
        rfl
      · split at h
        · rename_i hr
          rw [hr] at hkept
          cases h
          exact hkept
        · rename_i hr
          rw [hr] at hkept
          cases h
          exact hkept
        · rename_i hr
          rw [hr] at hkept
          split at h
          · cases h
            rw [claim_deployment]
            exact hkept
          · cases h
            exact hkept
  · cases h

/-- Handlers' own steps keep the deployment. -/
theorem release_deployment (c : Control) (o : ℕ) (outcome : RequestOutcome) (now : ℕ) :
    (c.release o outcome now).deployment=c.deployment := by
  unfold Control.release
  split
  · simp [Control.retire]
  · rfl

/-- Only `LoadStage` and `UnloadStage` change which deployment is loaded. -/
def loadsOrUnloads : Action → Prop
  | .loadStage _ _ _ => True
  | .unloadStage _ _ _ => True
  | _ => False

/-- All other steps keep the deployment. -/
theorem step_deployment {a : Action} (h : w.step textDigest a=some w') (ha : ¬loadsOrUnloads a) :
    w'.deployment=w.deployment := by
  cases a with
  | loadStage request readings answer => exact absurd trivial ha
  | unloadStage planId version readings => exact absurd trivial ha
  | reserveRequest t call readings now => exact reserveCall_deployment h
  | acquire t call stage readings now => exact reserveCall_deployment h
  | allocationEnds t answer now recheck =>
    simp only [World.step,World.allocationEnds] at h
    split at h
    · rename_i o d claims _
      have hkept := allocated_deployment w.toControl o answer now recheck
      split at h
      · rename_i hr
        rw [hr] at hkept
        cases h
        exact hkept
      · rename_i hr
        rw [hr] at hkept
        split at h
        · cases h
          rw [claim_deployment]
          exact hkept
        · cases h
          exact hkept
    · cases h
  | cancelRequest planId version id =>
    cases h
    simp only [World.within_toControl]
    unfold Control.cancelRequest
    split
    · rfl
    · split
      · rfl
      · split
        · simp [Control.retire]
        · rfl
  | prune readings =>
    cases h
    exact pruneExpired_deployment _ _
  | complete t now =>
    simp only [World.step,World.complete] at h
    split at h
    · cases h
      exact release_deployment _ _ _ _
    · cases h
  | leave t disconnected now recheck =>
    simp only [World.step,World.leave] at h
    split at h
    · cases h
      rw [World.goto_toControl,release_deployment]
      cases disconnected <;> rfl
    · cases h
      rw [World.goto_toControl,release_deployment]
      cases disconnected <;> rfl
    · cases h
  | drop t =>
    obtain ⟨-,rfl⟩ := drop_eq h
    rfl
  | watch t disconnected now recheck =>
    simp only [World.step,World.watch] at h
    split at h
    · split at h
      · cases h
        rfl
      · cases h
    · cases h
  | tick elapsed =>
    cases h
    rfl

/-- Claiming a lease is no release. -/
theorem claim_outlived (w : World) (c : Control) (t o : ℕ) :
    outlived ((w.claim c t o).thread t)=none := by
  unfold World.claim
  split
  · rw [World.goto_thread,Function.update_self]
    rfl
  · rw [World.grant_thread,Function.update_self]
    rfl

/-- A reserving call is no release. -/
theorem reserveCall_outlived {t : ℕ} {call : ReserveCall} {stage : Option ℕ}
    {readings : String → ℕ} {now : ℕ} (h : w.reserveCall t call stage readings now=some w') :
    outlived (w'.thread t)=none := by
  unfold World.reserveCall at h
  split at h
  · split at h
    · cases h
      simp [outlived]
    · split at h
      · cases h
        simp [outlived]
      · split at h
        · cases h
          simp [outlived]
        · cases h
          simp [outlived]
        · split at h
          · cases h
            exact claim_outlived _ _ _ _
          · cases h
            simp [outlived]
  · cases h

/-- The end of an allocation is no release. -/
theorem allocationEnds_outlived {t : ℕ} {answer : Allocation} {now recheck : ℕ}
    (h : w.allocationEnds t answer now recheck=some w') : outlived (w'.thread t)=none := by
  unfold World.allocationEnds at h
  split at h
  · split at h
    · cases h
      simp [outlived]
    · split at h
      · cases h
        exact claim_outlived _ _ _ _
      · cases h
        simp [outlived]
  · cases h

/-- A thread that keeps a lease after its release had it before. -/
theorem step_outlived {a : Action} (h : w.step textDigest a=some w') {t o : ℕ} {d : Option ℕ}
    (ht : outlived (w'.thread t)=some (d,o)) :
    outlived (w.thread t)=some (d,o) ∨ w.thread t=.leased d o := by
  have hother : ∀ {t' : ℕ},(∀ x,x≠t' → w'.thread x=w.thread x) → outlived (w'.thread t')=none →
      outlived (w.thread t)=some (d,o) ∨ w.thread t=.leased d o := by
    intro t' hsame hnone
    refine .inl ?_
    rw [←hsame t]
    · exact ht
    · intro he
      rw [he,hnone] at ht
      cases ht
  have hgoto : ∀ {c : Control} {t' o' : ℕ} {d' : Option ℕ} {thread : Thread},
      w.thread t'=.leased d' o' ∨ outlived (w.thread t')=some (d',o') →
      outlived thread=some (d',o') → outlived ((w.goto c t' thread).thread t)=some (d,o) →
      outlived (w.thread t)=some (d,o) ∨ w.thread t=.leased d o := by
    intro c t' o' d' thread hheld hthread hmoved
    rw [World.goto_thread] at hmoved
    by_cases he : t=t'
    · rw [he,Function.update_self,hthread] at hmoved
      cases hmoved
      rw [he]
      exact hheld.symm
    · rw [Function.update_of_ne he] at hmoved
      exact .inl hmoved
  cases a with
  | reserveRequest t' call readings now =>
    exact hother (reserveCall_thread h).2 (reserveCall_outlived h)
  | acquire t' call stage readings now =>
    exact hother (reserveCall_thread h).2 (reserveCall_outlived h)
  | allocationEnds t' answer now recheck =>
    exact hother (allocationEnds_thread h).2 (allocationEnds_outlived h)
  | complete t' now =>
    simp only [World.step,World.complete] at h
    split at h
    · rename_i hleased
      cases h
      exact hgoto (.inl hleased) rfl ht
    · cases h
  | leave t' disconnected now recheck =>
    simp only [World.step,World.leave] at h
    split at h
    · rename_i hleased
      cases h
      exact hgoto (.inl hleased) rfl ht
    · rename_i hreleased
      cases h
      exact hgoto (.inr (by rw [hreleased]; rfl)) rfl ht
    · cases h
  | drop t' =>
    obtain ⟨-,rfl⟩ := drop_eq h
    refine @hother t' (fun x hx => ?_) ?_
    · rw [World.goto_thread,Function.update_of_ne hx]
    · rw [World.goto_thread,Function.update_self]
      rfl
  | watch t' disconnected now recheck =>
    simp only [World.step,World.watch] at h
    split at h
    · split at h
      · cases h
        exact .inl ht
      · cases h
    · cases h
  | _ =>
    cases h
    exact .inl ht

/-- `LoadStage` keeps the deployment or had none. -/
theorem load_deployment (c : Control) (request : LoadStageRequest)
    (answer : Except Failure (Option StageBackend)) :
    (c.load textDigest request answer).1.deployment=c.deployment ∨ c.deployment=none := by
  cases hd : c.deployment with
  | none => exact .inr rfl
  | some d =>
    refine .inl ?_
    simp only [Control.load,hd]
    split <;> exact hd

/-- An `UnloadStage` that removes nothing keeps the deployment. -/
theorem unload_deployment (c : Control) (planId : String) (version : ℕ)
    (h : ¬((c.matching planId version).isSome=true ∧ c.active=[])) :
    (c.unload planId version).1.deployment=c.deployment := by
  unfold Control.unload
  split
  · rfl
  · split
    · rfl
    · rename_i hmatching
      split
      · rename_i hempty
        rw [hmatching] at h
        exact absurd ⟨rfl,hempty⟩ h
      · rfl

/-- A step keeps released leases on the loaded deployment, unless it unloads
while one is held. -/
theorem Settled.step (h : Settled w) (htable : Table w) {a : Action}
    (hok : UnloadsAfterLeases w a) (hone : w.step textDigest a=some w') : Settled w' := by
  intro t d o ht
  have hbefore : d=w.deployment ∧ w.deployment≠none := by
    rcases step_outlived hone ht with hreleased|hleased
    · exact h t d o hreleased
    · obtain ⟨hentry,-,-,hd⟩ := htable.leasedThread t d o hleased
      refine ⟨hd,?_⟩
      rw [htable.home _ hentry]
      simp
  have hkept : w'.deployment=w.deployment := by
    cases a with
    | loadStage request readings answer =>
      cases hone
      have hload := @load_deployment textDigest (w.pruneExpired readings) request answer
      rw [pruneExpired_deployment] at hload
      exact hload.resolve_right hbefore.2
    | unloadStage planId version readings =>
      cases hone
      by_cases hun : unloads w (.unloadStage planId version readings)
      · rw [World.within_thread,hok hun t] at ht
        cases ht
      · exact (unload_deployment _ _ _ hun).trans (pruneExpired_deployment _ _)
    | _ => exact step_deployment hone (fun hload => hload)
  rw [hkept]
  exact hbefore

/-- In a settled state every resident deployment is the loaded one. -/
theorem Settled.resident (h : Settled w) (htable : Table w) {d : ℕ} (hd : Resident w d) :
    w.deployment=some d := by
  rcases hd with hd|⟨t,ht⟩
  · exact hd
  · cases hthread : w.thread t with
    | allocating o d' claims =>
      rw [hthread] at ht
      cases ht
      exact (htable.allocatingThread t o d claims hthread).2.2.2
    | leased d' o =>
      rw [hthread] at ht
      have hd' := (htable.leasedThread t d' o hthread).2.2.2
      rw [←hd']
      exact ht
    | released d' o =>
      rw [hthread] at ht
      rw [←(h t d' o (by rw [hthread]; rfl)).1]
      exact ht
    | dropping d' o =>
      rw [hthread] at ht
      rw [←(h t d' o (by rw [hthread]; rfl)).1]
      exact ht
    | _ =>
      rw [hthread] at ht
      cases ht

/-- A settled state has a single residency. -/
theorem Settled.single (h : Settled w) (htable : Table w) (hcommitted : Committed w) :
    SingleResidency textDigest w where
  alone request readings hcalls t := by
    have hnone : w.deployment=none := (pruneExpired_deployment _ _).symm.trans hcalls.1
    cases hheld : held (w.thread t) with
    | none => rfl
    | some d =>
      have hd := h.resident htable (.inr ⟨t,hheld⟩)
      rw [hnone] at hd
      cases hd
  unique d d' hd hd' := by
    have hsame := (h.resident htable hd).symm.trans (h.resident htable hd')
    exact Option.some.inj hsame
  covered ds hnodup hds domain := by
    cases ds with
    | nil => exact Nat.zero_le _
    | cons d rest =>
      have hloaded := h.resident htable (hds d (.head _))
      have hrest : rest=[] := by
        rw [List.eq_nil_iff_forall_not_mem]
        intro d' hd'
        have hloaded' := h.resident htable (hds d' (.tail _ hd'))
        rw [hloaded] at hloaded'
        cases hloaded'
        exact (List.nodup_cons.mp hnodup).1 hd'
      have hfits := hcommitted.fits d hloaded domain
      have hweights : (w.loaded d).backend.weightMemory.total domain≤
          tableBytes w.toControl d domain := by
        unfold tableBytes committedBytes
        omega
      rw [hrest]
      simpa using hweights.trans hfits

/-- Runs in which stages are unloaded only after all leases were returned keep
a single deployment resident. -/
theorem single_residency_of_returned_leases
    (h : (machine textDigest).ReachableBy UnloadsAfterLeases w) :
    SingleResidency textDigest w := by
  have hsettled := Machine.ReachableBy.induct
    (I:=fun w => (machine textDigest).Reachable w ∧ Settled w) ?_ ?_ h
  · obtain ⟨htable,hcommitted⟩ := committed_reachable hsettled.1
    exact hsettled.2.single htable hcommitted
  · rintro s hs
    refine ⟨⟨s,[],hs,.nil s⟩,?_⟩
    obtain ⟨config,capabilities,blank,empty,-,rfl⟩ := hs
    intro t d o ht
    cases ht
  · rintro s a t hok ⟨hreach,hs⟩ hone
    exact ⟨hreach.step hone,hs.step (table_reachable hreach) hok hone⟩

/-- A stage that fills most of the sample worker's host budget. -/
def largeBackend : StageBackend :=
  {sampleBackend with
    weightMemory := ⟨12,0,0,0⟩
    weightPinned := Nat.zero_le _}

/-- A request is executed to its end and its handler returns. -/
def servedRun : List Action := [
  .loadStage (sampleLoad "a") (fun _ => 0) (.ok (some largeBackend)),
  .acquire 0 (sampleCall "a") 0 (fun _ => 0) 0,.allocationEnds 0 .sequence 0 0,.complete 0 1,
  .leave 0 false 1 1,.drop 0]

/-- Once its handler has returned, the next stage is loaded alone. -/
theorem single_residency_of_served_request :
    ∃ w,(machine id).ReachableBy UnloadsAfterLeases w ∧ w.deployment=some 1 ∧
      SingleResidency id w := by
  obtain ⟨u,hserved,hthreads,v,hunload,w,hload,hd⟩ : ∃ u,
      (machine id).run sampleStart servedRun=some u ∧
      u.thread=Function.update (Function.update (Function.update (Function.update
        (Function.update (fun _ => .idle) 0 (.allocating 0 0 true)) 0 (.leased (some 0) 0)) 0
          (.released (some 0) 0)) 0 (.dropping (some 0) 0)) 0 .ended ∧
      ∃ v,(machine id).step u (.unloadStage "a" 1 (fun _ => 2))=some v ∧
      ∃ w,(machine id).step v (.loadStage (sampleLoad "b") (fun _ => 2)
        (.ok (some largeBackend)))=some w ∧ w.deployment=some 1 :=
    ⟨_,rfl,rfl,_,rfl,_,rfl,rfl⟩
  have hreturned : LeasesReturned u := by
    intro t
    rw [hthreads]
    by_cases he : t=0
    · rw [he,Function.update_self]
      rfl
    · simp [Function.update_of_ne he,outlived]
  have hpath : (machine id).Path UnloadsAfterLeases sampleStart servedRun u := by
    refine Machine.path_of_run_ok (fun a ha s => ?_) hserved
    simp only [servedRun,List.mem_cons,List.not_mem_nil,or_false] at ha
    rcases ha with rfl|rfl|rfl|rfl|rfl|rfl <;> exact False.elim
  have hlast : (machine id).Path UnloadsAfterLeases v [.loadStage (sampleLoad "b") (fun _ => 2)
      (.ok (some largeBackend))] w := .cons False.elim hload (.nil w)
  have hreach : (machine id).ReachableBy UnloadsAfterLeases w :=
    ⟨_,_,sampleStart_initial id,hpath.append (.cons (fun _ => hreturned) hunload hlast)⟩
  exact ⟨w,hreach,hd,single_residency_of_returned_leases hreach⟩

/-- A handler has completed its request and still writes to a slow client when
the stage is unloaded. -/
def slowClientRun : List Action := [
  .loadStage (sampleLoad "a") (fun _ => 0) (.ok (some largeBackend)),
  .acquire 0 (sampleCall "a") 0 (fun _ => 0) 0,.allocationEnds 0 .sequence 0 0,.complete 0 1,
  .unloadStage "a" 1 (fun _ => 2)]

/-- The next `LoadStage` then calls the factory while the lease is held, and
leaves two deployments resident whose weights exceed the budget. -/
theorem slow_client_keeps_unloaded_stage :
    ∃ w,(machine id).run sampleStart slowClientRun=some w ∧
      callsFactory id w (sampleLoad "b") (fun _ => 2) ∧ held (w.thread 0)=some 0 ∧
      ¬SingleResidency id w ∧
      ∃ w',(machine id).step w (.loadStage (sampleLoad "b") (fun _ => 2)
        (.ok (some largeBackend)))=some w' ∧
        Resident w' 0 ∧ Resident w' 1 ∧ w'.config.capacity.total .host<
          (w'.loaded 0).backend.weightMemory.total .host+
          (w'.loaded 1).backend.weightMemory.total .host := by
  obtain ⟨w,hrun,hcalls,hheld,w',hload,hthread,hloaded,hbytes⟩ : ∃ w,
      (machine id).run sampleStart slowClientRun=some w ∧
      callsFactory id w (sampleLoad "b") (fun _ => 2) ∧ held (w.thread 0)=some 0 ∧
      ∃ w',(machine id).step w (.loadStage (sampleLoad "b") (fun _ => 2)
        (.ok (some largeBackend)))=some w' ∧ held (w'.thread 0)=some 0 ∧
        w'.deployment=some 1 ∧ w'.config.capacity.total .host<
          (w'.loaded 0).backend.weightMemory.total .host+
          (w'.loaded 1).backend.weightMemory.total .host :=
    ⟨_,rfl,⟨rfl,rfl⟩,rfl,_,rfl,rfl,rfl,by decide⟩
  refine ⟨w,hrun,hcalls,hheld,fun hsingle => ?_,w',hload,.inr ⟨0,hthread⟩,.inl hloaded,hbytes⟩
  have hnone := hsingle.alone _ _ hcalls 0
  rw [hheld] at hnone
  cases hnone

end Hllm.ControlResidency
