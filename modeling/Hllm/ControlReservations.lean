import Hllm.ControlTable

/-!
# Reservations over whole runs

The table invariants as a client of the service sees them, and what holds
between two states of one run: deadlines only move forward, granted leases
are never granted again, a lease ends only by its own handler, and a release
through an old lease leaves every other reservation alone.
-/

namespace Hllm.ControlReservations

open MemoryAccounting PlanValidation WireMessages RunInvariants ControlModel ControlTransitions
open ControlTable Relation

variable {w w' : World}

/-- What holds of the table in one state. -/
structure Consistent (w : World) : Prop where
  /-- Reservations belong to the one loaded deployment. -/
  home : w.active≠[] → ∃ d,w.deployment=some d ∧
    ∀ entry∈w.active,(w.object entry.2).admittedUnder=d
  /-- The number of reservations is limited. -/
  limit : w.active.length ≤ w.config.maximumActiveRequests
  /-- The reserved tokens are limited if a limit is configured. -/
  tokens : w.config.maximumCachedTokens≠0 →
    (w.active.map fun entry => (w.object entry.2).maximumTokens.toNat).sum≤
      w.config.maximumCachedTokens.toNat
  /-- No object was leased twice. -/
  leasedOnce : w.granted.Nodup
  /-- Every lease in a handler's hands is one of those granted. -/
  held : ∀ t d o,w.thread t=.leased d o ∨ w.thread t=.released d o → o∈w.granted
  /-- A leased request is in the table with its sequence. -/
  leased : ∀ t d o,w.thread t=.leased d o →
    ((w.object o).id,o)∈w.active ∧ (w.object o).sequence=true

/-- The table invariant in the client's terms. -/
theorem Consistent.of_table (h : Table w) : Consistent w where
  home hne := by
    obtain ⟨first,hfirst⟩ := List.exists_mem_of_ne_nil _ hne
    refine ⟨_,h.home first hfirst,fun entry hentry => ?_⟩
    have hsame := (h.home entry hentry).symm.trans (h.home first hfirst)
    exact Option.some.inj hsame
  limit := h.limit
  tokens := h.tokens
  leasedOnce := h.grantedOnce
  held := h.held
  leased t d o ht := by
    obtain ⟨hentry,hallocating,-⟩ := h.leasedThread t d o ht
    exact ⟨hentry,h.ready _ hentry hallocating⟩

/-- What holds between a state and a later one of the same run. -/
structure Later (w w' : World) : Prop where
  /-- Objects are never removed from the heap. -/
  objects : w.objects ≤ w'.objects
  /-- Stored deadlines never increase. -/
  deadlines : ∀ o,o < w.objects → (w'.object o).deadline≤(w.object o).deadline
  /-- Leases granted so far stay granted. -/
  leases : w.granted<+:w'.granted

/-- A state is no later than itself. -/
theorem Later.refl (w : World) : Later w w :=
  ⟨Nat.le_refl _,fun _ _ => Nat.le_refl _,List.prefix_refl _⟩

/-- Later states of later states. -/
theorem Later.trans {u : World} (h : Later w u) (h' : Later u w') : Later w w' where
  objects := h.objects.trans h'.objects
  deadlines o ho := (h'.deadlines o (Nat.lt_of_lt_of_le ho h.objects)).trans (h.deadlines o ho)
  leases := h.leases.trans h'.leases

/-- Moves that keep the number of objects, all deadlines and the leases. -/
theorem Later.same (hobjects : w'.objects=w.objects)
    (hdeadlines : ∀ o,(w'.object o).deadline≤(w.object o).deadline)
    (hgranted : w.granted<+:w'.granted) : Later w w' :=
  ⟨hobjects.ge,fun o _ => hdeadlines o,hgranted⟩

/-- Replacing one object by one with no later deadline. -/
theorem deadline_withObject (c : Control) {o : ℕ} {r : ActiveRequest}
    (hr : r.deadline≤(c.object o).deadline) (x : ℕ) :
    ((c.withObject o r).object x).deadline≤(c.object x).deadline := by
  rw [Control.withObject_object]
  by_cases hx : x=o
  · rw [hx,Function.update_self]
    exact hr
  · rw [Function.update_of_ne hx]

/-- Retiring changes no request. -/
@[simp] theorem retire_object (c : Control) (id reason : String) (o : ℕ) :
    (c.retire id o reason).object=c.object := by
  simp [Control.retire,Control.erase]

/-- Retiring adds no request. -/
@[simp] theorem retire_objects (c : Control) (id reason : String) (o : ℕ) :
    (c.retire id o reason).objects=c.objects := by
  simp [Control.retire]

/-- Nor does retiring by name change one. -/
@[simp] theorem retireFound_object (c : Control) (id reason : String) :
    (c.retireFound id reason).object=c.object := by
  unfold Control.retireFound
  split <;> simp

/-- Retiring by name adds none. -/
@[simp] theorem retireFound_objects (c : Control) (id reason : String) :
    (c.retireFound id reason).objects=c.objects := by
  unfold Control.retireFound
  split <;> simp

/-- A release adds none. -/
@[simp] theorem release_objects (c : Control) (o : ℕ) (outcome : RequestOutcome) (now : ℕ) :
    (c.release o outcome now).objects=c.objects := by
  unfold Control.release
  split <;> simp

/-- A release keeps all deadlines. -/
theorem release_deadline (c : Control) (o : ℕ) (outcome : RequestOutcome) (now x : ℕ) :
    ((c.release o outcome now).object x).deadline≤(c.object x).deadline := by
  unfold Control.release
  split
  · rw [retire_object]
    exact deadline_withObject c (by rfl) x
  · exact Nat.le_refl _

/-- Every move keeps the relation to the past. -/
theorem Later.move (h : Move w w') : Later w w' := by
  cases h with
  | stopped o cause =>
    exact .same rfl (deadline_withObject _ (by rfl)) (List.prefix_refl _)
  | retired reason _ _ _ => exact .same (by simp) (by simp) (List.prefix_refl _)
  | installed _ _ _ => exact .same rfl (fun _ => Nat.le_refl _) (List.prefix_refl _)
  | unloaded _ => exact .same rfl (fun _ => Nat.le_refl _) (List.prefix_refl _)
  | shortened deadline _ =>
    exact .same rfl (deadline_withObject _ (Nat.min_le_left _ _)) (List.prefix_refl _)
  | returned _ => exact .same rfl (fun _ => Nat.le_refl _) (List.prefix_refl _)
  | admitted _ _ _ _ =>
    refine ⟨by simp,fun o ho => ?_,List.prefix_refl _⟩
    simp [Function.update_of_ne (Nat.ne_of_lt ho)]
  | allocationFailed _ => exact .same (by simp) (by simp) (List.prefix_refl _)
  | allocationDropped reason _ =>
    refine .same (by simp) (fun x => ?_) (List.prefix_refl _)
    rw [World.goto_toControl,retireFound_object]
    exact deadline_withObject w.toControl (by rfl) x
  | allocationKept _ =>
    exact .same (by simp) (deadline_withObject _ (by rfl)) (List.prefix_refl _)
  | @allocationClaimed t o d claims _ _ =>
    refine .same (by simp) (fun x => ?_) (List.prefix_append _ _)
    exact (deadline_withObject (w.keepAllocation o) (by rfl) x).trans
      (deadline_withObject w.toControl (by rfl) x)
  | claimed _ _ _ _ =>
    exact .same (by simp) (deadline_withObject _ (by rfl)) (List.prefix_append _ _)
  | completed now _ => exact .same (by simp) (release_deadline _ _ _ _) (List.prefix_refl _)
  | left now _ => exact .same (by simp) (release_deadline _ _ _ _) (List.prefix_refl _)
  | dropped _ => exact .same rfl (fun _ => Nat.le_refl _) (List.prefix_refl _)
  | ticked elapsed => exact .same rfl (fun _ => Nat.le_refl _) (List.prefix_refl _)

/-- Sequences of moves keep the relation to the past. -/
theorem Later.moves (h : ReflTransGen Move w w') : Later w w' := by
  induction h with
  | refl => exact .refl w
  | tail _ hlast ih => exact ih.trans (.move hlast)

variable {textDigest : String → String}

/-- Every run from a reachable state keeps the relation to the past. -/
theorem Later.path (h : Table w) {as : List Action}
    (path : (machine textDigest).Path (fun _ _ => True) w as w') : Later w w' :=
  path.relates (I:=Table) Later.refl (fun _ _ _ => Later.trans)
    (fun _ _ _ _ hs hone => closure_preserves (fun _ _ hu => hu.move) (hs.step hone) hs)
    (fun _ _ _ _ hs hone => .moves (hs.step hone)) h

/-- Claiming moves only the claiming thread. -/
theorem claim_thread (w : World) (c : Control) {t t' : ℕ} (o : ℕ) (hne : t'≠t) :
    (w.claim c t o).thread t'=w.thread t' := by
  unfold World.claim
  split
  · rw [World.goto_thread,Function.update_of_ne hne]
  · rw [World.grant_thread,Function.update_of_ne hne]

/-- A reserving call is made by an idle thread and moves no other. -/
theorem reserveCall_thread {t : ℕ} {call : ReserveCall} {stage : Option ℕ}
    {readings : String → ℕ} {now : ℕ} (h : w.reserveCall t call stage readings now=some w') :
    w.thread t=.idle ∧ ∀ t',t'≠t → w'.thread t'=w.thread t' := by
  have hgoto : ∀ (c : Control) (thread : Thread) (t' : ℕ),t'≠t →
      (w.goto c t thread).thread t'=w.thread t' :=
    fun c thread t' hne => by rw [World.goto_thread,Function.update_of_ne hne]
  unfold World.reserveCall at h
  split at h
  · refine ⟨‹_›,fun t' hne => ?_⟩
    split at h
    · cases h
      exact hgoto _ _ t' hne
    · split at h
      · cases h
        exact hgoto _ _ t' hne
      · split at h
        · cases h
          exact hgoto _ _ t' hne
        · cases h
          exact hgoto _ _ t' hne
        · split at h
          · cases h
            exact claim_thread w _ _ hne
          · cases h
            exact hgoto _ _ t' hne
  · cases h

/-- An allocation ends in the thread that made it and moves no other. -/
theorem allocationEnds_thread {t : ℕ} {answer : Allocation} {now recheck : ℕ}
    (h : w.allocationEnds t answer now recheck=some w') :
    (∃ o d claims,w.thread t=.allocating o d claims) ∧
      ∀ t',t'≠t → w'.thread t'=w.thread t' := by
  unfold World.allocationEnds at h
  split at h
  · refine ⟨⟨_,_,_,‹_›⟩,fun t' hne => ?_⟩
    split at h
    · cases h
      rw [World.goto_thread,Function.update_of_ne hne]
    · split at h
      · cases h
        exact claim_thread w _ _ hne
      · cases h
        rw [World.goto_thread,Function.update_of_ne hne]
  · cases h

/-- The two steps by which a handler gives up its lease's request. -/
def releases (t : ℕ) : Action → Prop
  | .complete t' _ => t'=t
  | .leave t' _ _ _ => t'=t
  | _ => False

/-- A lease stays with its handler until that handler releases it. -/
theorem leased_stays {a : Action} {t o : ℕ} {d : Option ℕ} (hthread : w.thread t=.leased d o)
    (hone : w.step textDigest a=some w') (hnot : ¬releases t a) : w'.thread t=.leased d o := by
  rw [←hthread]
  cases a with
  | reserveRequest t' call readings now =>
    obtain ⟨hidle,hothers⟩ := reserveCall_thread hone
    exact hothers t fun he => by rw [he,hidle] at hthread; cases hthread
  | acquire t' call stage readings now =>
    obtain ⟨hidle,hothers⟩ := reserveCall_thread hone
    exact hothers t fun he => by rw [he,hidle] at hthread; cases hthread
  | allocationEnds t' answer now recheck =>
    obtain ⟨⟨o',d',claims,hallocating⟩,hothers⟩ := allocationEnds_thread hone
    exact hothers t fun he => by rw [he,hallocating] at hthread; cases hthread
  | complete t' now =>
    simp only [World.step,World.complete] at hone
    split at hone
    · cases hone
      rw [World.goto_thread,Function.update_of_ne (Ne.symm hnot)]
    · cases hone
  | leave t' disconnected now recheck =>
    simp only [World.step,World.leave] at hone
    split at hone
    · cases hone
      rw [World.goto_thread,Function.update_of_ne (Ne.symm hnot)]
    · cases hone
      rw [World.goto_thread,Function.update_of_ne (Ne.symm hnot)]
    · cases hone
  | drop t' =>
    obtain ⟨⟨d',o',hdropping⟩,rfl⟩ := drop_eq hone
    rw [World.goto_thread,Function.update_of_ne]
    intro he
    rw [he,hdropping] at hthread
    cases hthread
  | watch t' disconnected now recheck =>
    simp only [World.step,World.watch] at hone
    split at hone
    · split at hone
      · cases hone
        rfl
      · cases hone
    · cases hone
  | _ =>
    cases hone
    rfl

/-- A release takes away nothing but its own object's entry. -/
theorem release_others (h : Table w) (o : ℕ) (outcome : RequestOutcome) (now : ℕ)
    {entry : String×ℕ} (hentry : entry∈w.active) (hne : entry.2≠o) :
    entry∈(w.release o outcome now).active ∧
      (w.release o outcome now).object entry.2=w.object entry.2 := by
  unfold Control.release
  split
  · rename_i hfound
    have hown := (h.find_iff _ _).mp hfound
    rw [retire_object,Control.withObject_object,Function.update_of_ne hne]
    simp only [Control.retire,recordLifecycle_active,Control.erase_active,
      Control.withObject_active,List.mem_filter,decide_eq_true_eq,and_true]
    exact ⟨hentry,fun hid => hne (congrArg Prod.snd (h.entry_unique hentry hown hid))⟩
  · exact ⟨hentry,rfl⟩

/-- Whatever a handler releases, reservations other than the object of its own
lease stay in the table unchanged, also those that reuse its request id. -/
theorem releases_others (h : Table w) {a : Action} {t o : ℕ} {d : Option ℕ}
    (hlease : w.thread t=.leased d o ∨ w.thread t=.released d o) (hrelease : releases t a)
    (hone : w.step textDigest a=some w') {entry : String×ℕ} (hentry : entry∈w.active)
    (hne : entry.2≠o) : entry∈w'.active ∧ w'.object entry.2=w.object entry.2 := by
  cases a with
  | complete t' now =>
    cases hrelease
    simp only [World.step,World.complete] at hone
    rcases hlease with hlease|hlease
    · rw [hlease] at hone
      cases hone
      exact release_others h o .completed now hentry hne
    · rw [hlease] at hone
      cases hone
  | leave t' disconnected now recheck =>
    cases hrelease
    have hleft : w'=w.goto ((if disconnected then
        w.withObject o ((w.object o).stop
          (if (w.object o).deadline ≤ now then .expired else .cancelled))
        else w.toControl).release o .failed recheck) t (.dropping d o) := by
      simp only [World.step,World.leave] at hone
      rcases hlease with hlease|hlease
      · rw [hlease] at hone
        exact (Option.some.inj hone).symm
      · rw [hlease] at hone
        exact (Option.some.inj hone).symm
    rw [hleft]
    cases disconnected with
    | false => exact release_others h o .failed recheck hentry hne
    | true =>
      have hstop := h.withObject o (r:=(w.object o).stop
        (if (w.object o).deadline ≤ now then .expired else .cancelled)) ⟨rfl,rfl,rfl,rfl,rfl,rfl⟩
      obtain ⟨hmem,hobject⟩ := release_others hstop o .failed recheck hentry hne
      refine ⟨hmem,hobject.trans ?_⟩
      rw [World.within_toControl,Control.withObject_object,Function.update_of_ne hne]
  | _ => cases hrelease

/-- The reservation table in every reachable state and along every run. -/
theorem reservation_table_consistent (h : (machine textDigest).Reachable w) :
    Consistent w ∧
    (∀ as w',(machine textDigest).Path (fun _ _ => True) w as w' → Later w w') ∧
    ∀ a w',(machine textDigest).step w a=some w' → ∀ t d o,
      (w.thread t=.leased d o → ¬releases t a → w'.thread t=.leased d o) ∧
      (w.thread t=.leased d o ∨ w.thread t=.released d o → releases t a →
        ∀ entry∈w.active,entry.2≠o →
          entry∈w'.active ∧ w'.object entry.2=w.object entry.2) := by
  have htable := table_reachable h
  refine ⟨.of_table htable,fun as w' path => .path htable path,fun a w' hone t d o => ⟨?_,?_⟩⟩
  · exact fun ht hnot => leased_stays ht hone hnot
  · exact fun ht hrelease entry hentry hne => releases_others htable ht hrelease hone hentry hne

section Sample

/-- No memory in any domain. -/
def noMemory : MemoryAmounts := ⟨0,0,0,0⟩

/-- A backend whose requests need a little host memory. -/
def sampleBackend : StageBackend where
  weightMemory := ⟨4,0,0,0⟩
  sequenceMemory := fun _ _ => .ok ⟨⟨2,0,0,0⟩,⟨1,0,0,0⟩⟩
  supportsDecodeBatch := false
  weightPinned := Nat.zero_le _
  sequencePinned := by
    rintro tokens rows memory h
    cases h
    exact ⟨Nat.zero_le _,Nat.zero_le _⟩

/-- A one-stage feasibility plan with the given id. -/
def samplePlan (planId : String) : DeploymentPlan where
  schemaVersion := some ⟨1,0⟩
  plannerVersion := "1"
  planId := planId
  planDigest := "digest"
  manifestDigest := "manifest"
  workloadId := "workload"
  planningMode := "feasibility"
  executionDtype := DataType.f32.number
  activationDtype := DataType.f16.number
  splitLayer := 0
  stages := [⟨0,"worker",0,1,true,true,true,true⟩]
  selectedCandidateId := "candidate"
  duplicatedTensorGroups := []
  deploymentVersion := 1
  workloadDigest := ""
  profileBundleDigest := ""
  weightDtype := none

/-- The manifest of a model with one layer. -/
def sampleManifest : ModelManifest :=
  {(default : ModelManifest) with
    schemaVersion := some ⟨1,0⟩
    manifestDigest := "manifest"
    architecture := some ⟨"llama","1",[]⟩
    config := some {(default : ModelConfig) with numLayers := 1}}

/-- The request to load the sample plan. -/
def sampleLoad (planId : String) : LoadStageRequest :=
  ⟨some (samplePlan planId),0,some sampleManifest,[⟨0,"worker","localhost:1"⟩]⟩

/-- A worker with room for the sample stage and four reservations. -/
def sampleConfig : WorkerConfig := ⟨"worker",⟨16,0,0,0⟩,4,1,100,true⟩

/-- A fresh sample worker. -/
def sampleStart : World :=
  World.start sampleConfig ⟨["llama"],[DataType.f32.number],"",false⟩
    ⟨"",0,0,0,⟨noMemory,noMemory⟩,0,false,false,.none,false,false,0⟩ ⟨default,sampleBackend⟩

/-- A call that reserves ten tokens. -/
def sampleCall (planId : String) : ReserveCall := ⟨planId,1,"request",10,0,0⟩

/-- Load, execute a request to completion, and reserve its id again while its
handler still holds the old lease. -/
def reuseRun : List Action := [
  .loadStage (sampleLoad "a") (fun _ => 0) (.ok (some sampleBackend)),
  .acquire 0 (sampleCall "a") 0 (fun _ => 0) 0,.allocationEnds 0 .sequence 0 0,
  .complete 0 1,.reserveRequest 1 (sampleCall "a") (fun _ => 2) 2]

/-- The sample worker is a fresh one with a valid configuration. -/
theorem sampleStart_initial (textDigest : String → String) :
    (machine textDigest).initial sampleStart := by
  refine ⟨_,_,_,_,⟨Nat.zero_le _,?_,?_,?_⟩,rfl⟩
  · decide
  · decide
  · decide

/-- The old lease cannot take the new reservation away. -/
theorem reservation_table_of_reused_id :
    ∃ w,(machine id).Reachable w ∧ w.active=[("request",1)] ∧
      w.thread 0=.released (some 0) 0 ∧ Consistent w ∧
      ∀ w',(machine id).step w (.leave 0 true 3 3)=some w' → ("request",1)∈w'.active := by
  obtain ⟨w,hrun,hactive,hthread⟩ : ∃ w,(machine id).run sampleStart reuseRun=some w ∧
      w.active=[("request",1)] ∧ w.thread 0=.released (some 0) 0 := ⟨_,rfl,by decide,rfl⟩
  have hreach := Machine.reachable_of_run (sampleStart_initial id) hrun
  obtain ⟨hconsistent,-,hsteps⟩ := reservation_table_consistent hreach
  refine ⟨w,hreach,hactive,hthread,hconsistent,fun w' hone => ?_⟩
  have hkept := (hsteps _ _ hone 0 (some 0) 0).2 (.inr hthread) rfl ("request",1)
  exact (hkept (by simp [hactive]) (by decide)).1

end Sample

end Hllm.ControlReservations
