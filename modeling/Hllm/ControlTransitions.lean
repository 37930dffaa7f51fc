import Hllm.ControlModel

/-!
# What a control step can do

Every critical section of the control service is a short sequence of moves,
most of them preceded by a pruning pass that is itself a sequence of stops
and retirements. The inversion below is the only place where the service's
functions are taken apart; invariants are proved move by move.
-/

namespace Hllm.ControlTransitions

open MemoryAccounting PlanValidation WireMessages RunInvariants ControlModel Relation

section RecordLifecycle

variable (c : Control) (kind : LifecycleKind) (id reason : String)

@[simp] theorem recordLifecycle_config : (c.recordLifecycle kind id reason).config=c.config := by
  unfold Control.recordLifecycle
  split <;> rfl

@[simp] theorem recordLifecycle_deployment :
    (c.recordLifecycle kind id reason).deployment=c.deployment := by
  unfold Control.recordLifecycle
  split <;> rfl

@[simp] theorem recordLifecycle_loaded : (c.recordLifecycle kind id reason).loaded=c.loaded := by
  unfold Control.recordLifecycle
  split <;> rfl

@[simp] theorem recordLifecycle_deployments :
    (c.recordLifecycle kind id reason).deployments=c.deployments := by
  unfold Control.recordLifecycle
  split <;> rfl

@[simp] theorem recordLifecycle_active : (c.recordLifecycle kind id reason).active=c.active := by
  unfold Control.recordLifecycle
  split <;> rfl

@[simp] theorem recordLifecycle_object : (c.recordLifecycle kind id reason).object=c.object := by
  unfold Control.recordLifecycle
  split <;> rfl

@[simp] theorem recordLifecycle_objects : (c.recordLifecycle kind id reason).objects=c.objects := by
  unfold Control.recordLifecycle
  split <;> rfl

@[simp] theorem recordLifecycle_retired : (c.recordLifecycle kind id reason).retired=c.retired := by
  unfold Control.recordLifecycle
  split <;> rfl

end RecordLifecycle

/-- Replacing a request by itself changes nothing. -/
@[simp] theorem withObject_self (c : Control) (o : ℕ) : c.withObject o (c.object o)=c := by
  rw [Control.withObject,Function.update_eq_self]

/-- The last replacement of a request counts. -/
@[simp] theorem withObject_withObject (c : Control) (o : ℕ) (r r' : ActiveRequest) :
    (c.withObject o r).withObject o r'=c.withObject o r' := by
  simp [Control.withObject]

/-- The smallest changes steps are made of, with the guards the code tested. -/
inductive Move (w : World) : World → Prop
  /-- A request is asked to stop. -/
  | stopped (o : ℕ) (cause : StopCause) :
      Move w (w.within (w.withObject o ((w.object o).stop cause)))
  /-- A reservation nobody executes or allocates is retired. -/
  | retired {id : String} {o : ℕ} (reason : String) (hentry : (id,o)∈w.active)
      (hrunning : (w.object o).running=false) (hallocating : (w.object o).allocating=false) :
      Move w (w.within (w.retire id o reason))
  /-- A stage is loaded. -/
  | installed {request : LoadStageRequest} {backend : StageBackend} (hnone : w.deployment=none)
      (hbatch : 1 ≤ w.config.maximumDecodeBatch ∧ w.config.maximumDecodeBatch≤8)
      (hweights : requireMemory backend.weightMemory w.config.capacity=.ok ()) :
      Move w (w.within (w.install request backend))
  /-- The stage is unloaded. -/
  | unloaded (hempty : w.active=[]) :
      Move w (w.within {w.toControl with deployment := none})
  /-- A retry shortens the deadline of a reservation. -/
  | shortened {o : ℕ} (deadline : ℕ) (hrunning : (w.object o).running=false) :
      Move w (w.within (w.withObject o
        {w.object o with deadline := min (w.object o).deadline deadline}))
  /-- A call returns without having changed anything else. -/
  | returned {t : ℕ} (hidle : w.thread t=.idle) : Move w (w.goto w.toControl t .ended)
  /-- A new reservation enters the table. -/
  | admitted {t d : ℕ} {id : String} {tokens queryTokens : UInt64} {deadline : ℕ}
      {memory : SequenceMemory} {claims : Bool} (hidle : w.thread t=.idle)
      (hdeployment : w.deployment=some d) (hfind : w.find id=none)
      (hmemory : w.admission d tokens queryTokens=.ok memory) :
      Move w (w.goto ((w.emplace (freshRequest w.toControl d id tokens queryTokens deadline
        memory)).recordLifecycle .admitted id "") t (.allocating w.objects d claims))
  /-- An allocation failed. -/
  | allocationFailed {t o d : ℕ} {claims : Bool} (hthread : w.thread t=.allocating o d claims) :
      Move w (w.goto (w.retireFound (w.object o).id "allocation-failed") t .ended)
  /-- An allocation ended too late. -/
  | allocationDropped {t o d : ℕ} {claims : Bool} (reason : String)
      (hthread : w.thread t=.allocating o d claims) :
      Move w (w.goto ((w.finishAllocation o).retireFound (w.object o).id reason) t .ended)
  /-- An allocation ended and its reservation waits for an owner. -/
  | allocationKept {t o d : ℕ} {claims : Bool} (hthread : w.thread t=.allocating o d claims) :
      Move w (w.goto (w.keepAllocation o) t .ended)
  /-- An allocation ended and its thread becomes the owner. -/
  | allocationClaimed {t o d : ℕ} {claims : Bool} (hthread : w.thread t=.allocating o d claims)
      (hrunning : (w.object o).running=false) :
      Move w (w.grant ((w.keepAllocation o).own o) t o)
  /-- A reservation made earlier gets its owner. -/
  | claimed {t o : ℕ} {id : String} (hidle : w.thread t=.idle) (hentry : (id,o)∈w.active)
      (hallocating : (w.object o).allocating=false) (hrunning : (w.object o).running=false) :
      Move w (w.grant (w.own o) t o)
  /-- A handler releases its request as completed. -/
  | completed {t o : ℕ} {d : Option ℕ} (now : ℕ) (hthread : w.thread t=.leased d o) :
      Move w (w.goto (w.release o .completed now) t (.released d o))
  /-- A handler's guard releases the request. -/
  | left {t o : ℕ} {d : Option ℕ} (now : ℕ)
      (hthread : w.thread t=.leased d o ∨ w.thread t=.released d o) :
      Move w (w.goto (w.release o .failed now) t (.dropping d o))
  /-- A handler's guard gives its lease back. -/
  | dropped {t o : ℕ} {d : Option ℕ} (hthread : w.thread t=.dropping d o) :
      Move w (w.goto w.toControl t .ended)
  /-- Steady time passes. -/
  | ticked (elapsed : ℕ) : Move w (w.within {w.toControl with steady := w.steady+elapsed})

/-- Entries found in the table are in it. -/
theorem mem_of_find {c : Control} {id : String} {o : ℕ} (h : c.find id=some o) :
    (id,o)∈c.active := by
  unfold Control.find at h
  rw [List.lookup_eq_some_iff] at h
  obtain ⟨before,after,hactive,-⟩ := h
  rw [hactive]
  simp

/-- A visit of the pruning pass is a stop and perhaps a retirement. -/
theorem pruneEntry_moves {w : World} (readings : String → ℕ) {entry : String×ℕ}
    (hentry : entry∈w.active) :
    ReflTransGen Move w (w.within (Control.pruneEntry readings w.toControl entry)) := by
  unfold Control.pruneEntry
  split
  · have hstop := Move.stopped (w:=w) entry.2 .expired
    split
    · rename_i hfree
      simp only [Bool.and_eq_true,Bool.not_eq_true'] at hfree
      refine (ReflTransGen.single hstop).tail (.retired "expired" hentry ?_ ?_)
      · simp [ActiveRequest.stop,hfree.1]
      · simp [ActiveRequest.stop,hfree.2]
    · exact .single hstop
  · exact .refl

/-- A visit only removes the entry it visits. -/
theorem mem_pruneEntry {c : Control} (readings : String → ℕ) {entry other : String×ℕ}
    (hother : other∈c.active) (hne : other.1≠entry.1) :
    other∈(Control.pruneEntry readings c entry).active := by
  unfold Control.pruneEntry
  split
  · split
    · simp [Control.retire,hother,hne]
    · exact hother
  · exact hother

/-- The pruning loop over any part of the table. -/
theorem foldl_pruneEntry_moves (readings : String → ℕ) (entries : List (String×ℕ)) {w : World}
    (hkeys : (entries.map Prod.fst).Nodup) (hentries : ∀ entry∈entries,entry∈w.active) :
    ReflTransGen Move w (w.within (entries.foldl (Control.pruneEntry readings) w.toControl)) := by
  induction entries generalizing w with
  | nil => exact .refl
  | cons entry entries ih =>
    rw [List.map_cons,List.nodup_cons] at hkeys
    have hfirst := pruneEntry_moves readings (hentries entry (.head _))
    refine hfirst.trans (ih (w:=w.within (Control.pruneEntry readings w.toControl entry)) hkeys.2 ?_)
    intro other hother
    refine mem_pruneEntry readings (hentries other (.tail _ hother)) fun he => ?_
    exact hkeys.1 (he ▸ List.mem_map_of_mem hother)

/-- A pruning pass is a sequence of moves. -/
theorem pruneExpired_moves {w : World} (hkeys : (w.active.map Prod.fst).Nodup)
    (readings : String → ℕ) : ReflTransGen Move w (w.within (w.pruneExpired readings)) :=
  foldl_pruneEntry_moves readings w.active hkeys fun _ h => h

/-- Loading after a pruning pass installs a stage or changes nothing. -/
theorem load_moves (w : World) (textDigest : String → String) (request : LoadStageRequest)
    (answer : Except Failure (Option StageBackend)) :
    ReflTransGen Move w (w.within (w.load textDigest request answer).1) := by
  unfold Control.load
  split
  · split <;> exact .refl
  · rename_i hnone
    split
    · exact .refl
    · exact .refl
    · exact .refl
    · rename_i backend hbefore
      split
      · exact .refl
      · rename_i hweights
        refine .single (.installed hnone ?_ hweights)
        unfold Control.beforeLoad at hbefore
        cases hvalid : validatePlan textDigest request w.config.workerId w.capabilities with
        | error e =>
          rw [hvalid,error_bind] at hbefore
          cases hbefore
        | ok u =>
          rw [hvalid,ok_bind] at hbefore
          split at hbefore
          · cases hbefore
          · omega

/-- Unloading after a pruning pass removes the deployment or changes nothing. -/
theorem unload_moves (w : World) (planId : String) (version : ℕ) :
    ReflTransGen Move w (w.within (w.unload planId version).1) := by
  unfold Control.unload
  split
  · exact .refl
  · split
    · exact .refl
    · split
      · exact .single (.unloaded ‹_›)
      · exact .refl

/-- A cancellation stops a request and perhaps retires it. -/
theorem cancelRequest_moves (w : World) (planId : String) (version : ℕ) (id : String) :
    ReflTransGen Move w (w.within (w.cancelRequest planId version id).1) := by
  unfold Control.cancelRequest
  split
  · exact .refl
  · split
    · exact .refl
    · rename_i o hfind
      have hstop := Move.stopped (w:=w) o .cancelled
      split
      · rename_i hfree
        simp only [Bool.and_eq_true,Bool.not_eq_true'] at hfree
        refine (ReflTransGen.single hstop).tail (.retired "cancelled" (mem_of_find hfind) ?_ ?_)
        · simp [ActiveRequest.stop,hfree.1]
        · simp [ActiveRequest.stop,hfree.2]
      · exact .single hstop

/-- A thread becomes the owner of a free reservation, or returns with an error. -/
theorem claim_moves {w : World} {t o : ℕ} {id : String} (hidle : w.thread t=.idle)
    (hentry : (id,o)∈w.active) (hallocating : (w.object o).allocating=false) :
    ReflTransGen Move w (w.claim w.toControl t o) := by
  unfold World.claim Control.claim
  split
  · rename_i hclaim
    exact .single (.returned hidle)
  · rename_i hclaim
    split at hclaim
    · cases hclaim
    · rename_i hrunning
      cases hclaim
      exact .single (.claimed hidle hentry hallocating (by simpa using hrunning))

/-- What `reserve` can do after its pruning pass and checks. -/
theorem reserve_cases (c : Control) (d : ℕ) (id : String) (tokens chunk : UInt64)
    (deadlineMs : ℕ) (readings : String → ℕ) (now : ℕ) :
    let pruned := c.pruneExpired readings
    (∃ error,c.reserve d id tokens chunk deadlineMs readings now=(pruned,.error error)) ∨
    (∃ o,pruned.find id=some o ∧ (pruned.object o).allocating=false ∧
      (c.reserve d id tokens chunk deadlineMs readings now=(pruned,.ok (.existing o)) ∨
      ∃ deadline,(pruned.object o).running=false ∧
        c.reserve d id tokens chunk deadlineMs readings now=
          (pruned.withObject o {pruned.object o with
            deadline := min (pruned.object o).deadline deadline},.ok (.existing o)))) ∨
    ∃ memory deadline,pruned.find id=none ∧
      pruned.admission d tokens (queryRows tokens chunk)=.ok memory ∧
      c.reserve d id tokens chunk deadlineMs readings now=
        ((pruned.emplace (freshRequest pruned d id tokens (queryRows tokens chunk) deadline
          memory)).recordLifecycle .admitted id "",.ok (.admitted pruned.objects)) := by
  intro pruned
  simp only [Control.reserve]
  split
  · exact .inl ⟨_,rfl⟩
  · split
    · exact .inl ⟨_,rfl⟩
    · rename_i deadline hdeadline
      split
      · rename_i o hfind
        simp only [Control.retry]
        split
        · exact .inl ⟨_,rfl⟩
        · rename_i hallocating
          split
          · exact .inl ⟨_,rfl⟩
          · split
            · exact .inr (.inl ⟨o,hfind,by simpa using hallocating,.inl rfl⟩)
            · rename_i hrunning
              exact .inr (.inl ⟨o,hfind,by simpa using hallocating,
                .inr ⟨deadline,by simpa using hrunning,rfl⟩⟩)
      · rename_i hfind
        unfold Control.enroll
        split
        · exact .inl ⟨_,rfl⟩
        · rename_i memory hmemory
          exact .inr (.inr ⟨memory,deadline,hfind,hmemory,rfl⟩)

/-- A reserving call is a pruning pass and at most one more change. -/
theorem reserveCall_moves {w w' : World} (hkeys : (w.active.map Prod.fst).Nodup)
    (hdeployment : ∀ readings,(w.pruneExpired readings).deployment=w.deployment) {t : ℕ}
    {call : ReserveCall} {stage : Option ℕ} {readings : String → ℕ} {now : ℕ}
    (h : w.reserveCall t call stage readings now=some w') : ReflTransGen Move w w' := by
  unfold World.reserveCall at h
  split at h
  · rename_i hidle
    have hreturn : ∀ {u : World},u.thread t=.idle → Move u (u.goto u.toControl t .ended) :=
      fun hu => .returned hu
    split at h
    · cases h
      exact .single (hreturn hidle)
    · rename_i d hmatching
      split at h
      · cases h
        exact .single (hreturn hidle)
      · have hprune := pruneExpired_moves hkeys readings
        have hd : (w.pruneExpired readings).deployment=some d := by
          rw [hdeployment]
          exact (Option.filter_eq_some_iff.mp hmatching).1
        rcases reserve_cases w.toControl d call.requestId call.tokens call.prefillChunkTokens
            call.deadlineMs readings now with
          ⟨error,hr⟩|⟨o,hfind,hallocating,hr|⟨deadline,hrunning,hr⟩⟩|
            ⟨memory,deadline,hfind,hmemory,hr⟩
        · rw [hr] at h
          cases h
          exact hprune.tail (hreturn hidle)
        · rw [hr] at h
          simp only at h
          split at h
          · cases h
            exact hprune.trans (claim_moves (w:=w.within (w.pruneExpired readings)) hidle
              (mem_of_find hfind) hallocating)
          · cases h
            exact hprune.tail (hreturn hidle)
        · rw [hr] at h
          have hshort : ReflTransGen Move w (w.within ((w.pruneExpired readings).withObject o
              {(w.pruneExpired readings).object o with
                deadline := min ((w.pruneExpired readings).object o).deadline deadline})) :=
            hprune.tail (.shortened (w:=w.within (w.pruneExpired readings)) deadline hrunning)
          simp only at h
          split at h
          · cases h
            refine hshort.trans (claim_moves (w:=w.within _) hidle (mem_of_find hfind) ?_)
            simp [hallocating]
          · cases h
            exact hshort.tail (hreturn (u:=w.within _) hidle)
        · rw [hr] at h
          cases h
          exact hprune.tail (.admitted (w:=w.within (w.pruneExpired readings)) hidle hd hfind
            hmemory)
  · cases h

/-- The end of an allocation is one move, given that an allocating request
has no owner. -/
theorem allocationEnds_moves {w w' : World} {t : ℕ} {answer : Allocation} {now recheck : ℕ}
    (hfree : ∀ o d claims,w.thread t=.allocating o d claims → (w.object o).running=false)
    (h : w.allocationEnds t answer now recheck=some w') : ReflTransGen Move w w' := by
  unfold World.allocationEnds at h
  split at h
  · rename_i o d claims hthread
    have hrunning := hfree o d claims hthread
    cases answer with
    | null =>
      cases h
      exact .single (.allocationFailed hthread)
    | failed failure =>
      cases h
      exact .single (.allocationFailed hthread)
    | sequence =>
      simp only [Control.allocated] at h
      split at h
      · rename_i c error hallocated
        split at hallocated
        · cases hallocated
          cases h
          exact .single (.allocationDropped _ hthread)
        · cases hallocated
      · rename_i c hallocated
        split at hallocated
        · cases hallocated
        · cases hallocated
          split at h
          · cases h
            have hkept : ((w.keepAllocation o).object o).running=false := by
              simp [hrunning]
            simp only [World.claim,Control.claim,hkept,Bool.false_eq_true,if_false]
            exact .single (.allocationClaimed hthread hrunning)
          · cases h
            exact .single (.allocationKept hthread)
  · cases h

/-- A handler's return is perhaps a stop and then its release. -/
theorem leave_moves {w w' : World} {t : ℕ} {disconnected : Bool} {now recheck : ℕ}
    (h : w.leave t disconnected now recheck=some w') : ReflTransGen Move w w' := by
  have hdestroy : ∀ d o,(w.thread t=.leased d o ∨ w.thread t=.released d o) →
      ReflTransGen Move w (w.goto ((if disconnected then
        w.withObject o ((w.object o).stop
          (if (w.object o).deadline ≤ now then .expired else .cancelled))
        else w.toControl).release o .failed recheck) t (.dropping d o)) := by
    intro d o hthread
    cases disconnected with
    | false => exact .single (.left recheck hthread)
    | true =>
      have hstop := Move.stopped (w:=w) o
        (if (w.object o).deadline ≤ now then .expired else .cancelled)
      exact (ReflTransGen.single hstop).tail (.left (w:=w.within _) recheck hthread)
  simp only [World.leave] at h
  split at h
  · cases h
    exact hdestroy _ _ (.inl ‹_›)
  · cases h
    exact hdestroy _ _ (.inr ‹_›)
  · cases h

/-- Giving a lease back ends its thread and changes nothing else. -/
theorem drop_eq {w w' : World} {t : ℕ} (h : w.drop t=some w') :
    (∃ d o,w.thread t=.dropping d o) ∧ w'=w.goto w.toControl t .ended := by
  unfold World.drop at h
  split at h
  · rename_i d o hthread
    cases h
    exact ⟨⟨d,o,hthread⟩,rfl⟩
  · cases h

/-- Pruning keeps the deployment. -/
theorem foldl_pruneEntry_deployment (readings : String → ℕ) (entries : List (String×ℕ))
    (c : Control) :
    (entries.foldl (Control.pruneEntry readings) c).deployment=c.deployment := by
  induction entries generalizing c with
  | nil => rfl
  | cons entry entries ih =>
    rw [List.foldl_cons,ih]
    unfold Control.pruneEntry
    split
    · split
      · simp [Control.retire]
      · rfl
    · rfl

/-- Inversion of the step function into moves. -/
theorem step_moves {textDigest : String → String} {w w' : World} {a : Action}
    (hkeys : (w.active.map Prod.fst).Nodup)
    (hfree : ∀ t o d claims,w.thread t=.allocating o d claims → (w.object o).running=false)
    (h : w.step textDigest a=some w') : ReflTransGen Move w w' := by
  cases a with
  | loadStage request readings answer =>
    cases h
    exact (pruneExpired_moves hkeys readings).trans
      (load_moves (w.within (w.pruneExpired readings)) textDigest request answer)
  | unloadStage planId version readings =>
    cases h
    exact (pruneExpired_moves hkeys readings).trans
      (unload_moves (w.within (w.pruneExpired readings)) planId version)
  | reserveRequest t call readings now =>
    exact reserveCall_moves hkeys (fun r => foldl_pruneEntry_deployment r _ _) h
  | acquire t call stage readings now =>
    exact reserveCall_moves hkeys (fun r => foldl_pruneEntry_deployment r _ _) h
  | allocationEnds t answer now recheck => exact allocationEnds_moves (hfree t) h
  | cancelRequest planId version id =>
    cases h
    exact cancelRequest_moves w planId version id
  | prune readings =>
    cases h
    exact pruneExpired_moves hkeys readings
  | complete t now =>
    simp only [World.step,World.complete] at h
    split at h
    · cases h
      exact .single (.completed now ‹_›)
    · cases h
  | leave t disconnected now recheck => exact leave_moves h
  | drop t =>
    obtain ⟨⟨d,o,hthread⟩,rfl⟩ := drop_eq h
    exact .single (.dropped hthread)
  | watch t disconnected now recheck =>
    simp only [World.step,World.watch] at h
    split at h
    · split at h
      · cases h
        exact .single (.stopped _ _)
      · cases h
    · cases h
  | tick elapsed =>
    cases h
    exact .single (.ticked elapsed)

/-- Cache bytes of the listed reservations. -/
def cacheTotal (object : ℕ → ActiveRequest) (entries : List (String×ℕ)) (d : MemoryDomain) : ℕ :=
  (entries.map fun entry => (object entry.2).memory.cache.total d).sum

/-- Tokens of the listed reservations. -/
def tokenTotal (object : ℕ → ActiveRequest) (entries : List (String×ℕ)) : ℕ :=
  (entries.map fun entry => (object entry.2).maximumTokens.toNat).sum

/-- The loop of `reserve` returns the exact sums, or a sum needs more than 64 bits. -/
theorem accumulate_cases (object : ℕ → ActiveRequest) (entries : List (String×ℕ))
    (cache : MemoryAmounts) (workspaces : List MemoryAmounts) (tokens : UInt64) :
    (∃ cache' tokens',accumulate object entries cache workspaces tokens=
        .ok (cache',workspaces++entries.map (fun e => (object e.2).memory.workspace),tokens') ∧
      (∀ d,cache'.total d=cache.total d+cacheTotal object entries d) ∧
      tokens'.toNat=tokens.toNat+tokenTotal object entries) ∨
    (∃ message,accumulate object entries cache workspaces tokens=
        .error ⟨.resourceExhausted,message⟩ ∧
      ((∃ d,2^64 ≤ cache.total d+cacheTotal object entries d) ∨
        2^64 ≤ tokens.toNat+tokenTotal object entries)) := by
  induction entries generalizing cache workspaces tokens with
  | nil => exact .inl ⟨cache,tokens,by simp [accumulate],by simp [cacheTotal],by simp [tokenTotal]⟩
  | cons entry entries ih =>
    have hcache : ∀ d,cacheTotal object (entry::entries) d=
        (object entry.2).memory.cache.total d+cacheTotal object entries d :=
      fun d => by simp [cacheTotal]
    have htokens : tokenTotal object (entry::entries)=
        (object entry.2).maximumTokens.toNat+tokenTotal object entries := by simp [tokenTotal]
    simp only [accumulate,hcache,htokens]
    rcases addMemory_exact cache (object entry.2).memory.cache with
      ⟨-,sum,hsum,hn⟩|⟨⟨d,hd⟩,message,hsum⟩
    · have hadd : ∀ d,sum.total d=cache.total d+(object entry.2).memory.cache.total d := hn
      rw [hsum,ok_bind]
      rcases addOrThrow_exact "stage memory size overflow" tokens
          (object entry.2).maximumTokens with ⟨-,next,hnext,ht⟩|⟨ht,message,hnext⟩
      · rw [show checkedAdd tokens (object entry.2).maximumTokens=.ok next from hnext,ok_bind]
        rcases ih sum (workspaces++[(object entry.2).memory.workspace]) next with
          ⟨cache',tokens',hok,hc,hk⟩|⟨message,herror,hover⟩
        · refine .inl ⟨cache',tokens',?_,fun d => ?_,?_⟩
          · rw [hok,List.append_assoc]
            rfl
          · rw [hc,hadd]
            omega
          · rw [hk,ht]
            omega
        · rcases hover with ⟨d,hd⟩|hk
          · rw [hadd] at hd
            exact .inr ⟨message,herror,.inl ⟨d,by omega⟩⟩
          · exact .inr ⟨message,herror,.inr (by omega)⟩
      · rw [show checkedAdd tokens (object entry.2).maximumTokens=
          .error ⟨.resourceExhausted,message⟩ from hnext,error_bind]
        exact .inr ⟨message,rfl,.inr (by omega)⟩
    · rw [hsum,error_bind]
      refine .inr ⟨message,rfl,.inl ⟨d,?_⟩⟩
      have hd' : 2^64 ≤ cache.total d+(object entry.2).memory.cache.total d := hd
      omega

/-- What an admitted request has passed. -/
theorem admission_ok {c : Control} {d : ℕ} {tokens queryTokens : UInt64} {memory : SequenceMemory}
    (h : c.admission d tokens queryTokens=.ok memory) :
    c.active.length < c.config.maximumActiveRequests ∧
    (c.loaded d).backend.sequenceMemory tokens queryTokens=.ok memory ∧
    (c.config.maximumCachedTokens≠0 →
      tokens.toNat+tokenTotal c.object c.active ≤ c.config.maximumCachedTokens.toNat) ∧
    ∃ cache : MemoryAmounts,
      (∀ domain,cache.total domain=
        memory.cache.total domain+cacheTotal c.object c.active domain) ∧
      memoryCheck (c.loaded d).backend.weightMemory cache
        (memory.workspace::c.active.map fun e => (c.object e.2).memory.workspace)
        (c.passRows d) c.config.capacity=.ok () := by
  unfold Control.admission at h
  split at h
  · cases h
  · rename_i hlimit
    cases hmemory : (c.loaded d).backend.sequenceMemory tokens queryTokens with
    | error error =>
      rw [hmemory] at h
      cases h
    | ok found =>
      rw [hmemory] at h
      simp only [ok_bind] at h
      rcases accumulate_cases c.object c.active found.cache [found.workspace] tokens with
        ⟨cache,total,hok,hcache,htokens⟩|⟨message,herror,-⟩
      · rw [hok] at h
        simp only [ok_bind] at h
        split at h
        · cases h
        · rename_i hcached
          cases hcheck : memoryCheck (c.loaded d).backend.weightMemory cache
              ([found.workspace]++c.active.map fun e => (c.object e.2).memory.workspace)
              (c.passRows d) c.config.capacity with
          | error error =>
            rw [hcheck] at h
            cases h
          | ok u =>
            rw [hcheck] at h
            cases h
            refine ⟨Nat.lt_of_not_le hlimit,rfl,fun hne => ?_,cache,hcache,hcheck⟩
            rw [←htokens,←UInt64.le_iff_toNat_le]
            simp only [not_and,UInt64.not_lt] at hcached
            exact hcached hne
      · rw [herror] at h
        cases h

end Hllm.ControlTransitions
