import Hllm.ControlResidency
import Hllm.ControlRetirement
import Hllm.GenerationModel

/-!
# A worker with one of its handlers

What a handler sees of its control service. Its calls of `acquire` and
`release` and the end of its guard are steps of the control service on a thread
of its own, `check_running` reads the flags of its request, and between its
calls the service takes any other step. Whatever the handler is, its request
object and its deployment stay as they were acquired, and what it releases as
completed is retired as completed.
-/

namespace Hllm.HandlerSites

open RunInvariants ControlModel ControlTransitions ControlTable ControlRetirement ControlAdmission
open ControlReservations ControlResidency PlanValidation WireMessages GenerationModel

variable {D H : Type}

section Worlds

variable {w w' : World}

/-- The thread a step of the control service moves. -/
def moved : Action → Option ℕ
  | .reserveRequest t _ _ _ => some t
  | .acquire t _ _ _ _ => some t
  | .allocationEnds t _ _ _ => some t
  | .complete t _ => some t
  | .leave t _ _ _ => some t
  | .drop t => some t
  | _ => none

/-- A step that moves another thread or none leaves a thread where it is. -/
theorem step_thread {textDigest : String → String} {a : Action} {t : ℕ} (h : moved a≠some t)
    (hone : w.step textDigest a=some w') : w'.thread t=w.thread t := by
  have hne : ∀ {t' : ℕ},some t'≠some t → t≠t' := fun h ht => h (congrArg some ht.symm)
  cases a with
  | reserveRequest t' call readings now => exact (reserveCall_thread hone).2 t (hne h)
  | acquire t' call stage readings now => exact (reserveCall_thread hone).2 t (hne h)
  | allocationEnds t' answer now recheck => exact (allocationEnds_thread hone).2 t (hne h)
  | complete t' now =>
    rw [World.step,World.complete] at hone
    split at hone
    · cases hone
      rw [World.goto_thread,Function.update_of_ne (hne h)]
    · cases hone
  | leave t' disconnected now recheck =>
    rw [World.step,World.leave] at hone
    dsimp only at hone
    split at hone
    · cases hone
      rw [World.goto_thread,Function.update_of_ne (hne h)]
    · cases hone
      rw [World.goto_thread,Function.update_of_ne (hne h)]
    · cases hone
  | drop t' =>
    obtain ⟨-,rfl⟩ := drop_eq hone
    rw [World.goto_thread,Function.update_of_ne (hne h)]
  | watch t' disconnected now recheck =>
    rw [World.step,World.watch] at hone
    split at hone
    · split at hone
      · cases hone
        rfl
      · cases hone
    · cases hone
  | _ =>
    cases hone
    rfl

/-- Two values of a request reserve the same. -/
structure SameReservation (r r' : ActiveRequest) : Prop where
  tokens : r.maximumTokens=r'.maximumTokens
  query : r.maximumQueryTokens=r'.maximumQueryTokens
  under : r.admittedUnder=r'.admittedUnder

/-- Every request reserves what it reserves. -/
theorem SameReservation.refl (r : ActiveRequest) : SameReservation r r := ⟨rfl,rfl,rfl⟩

/-- Values that reserve the same as a third. -/
theorem SameReservation.trans {r r' r'' : ActiveRequest} (h : SameReservation r r')
    (h' : SameReservation r' r'') : SameReservation r r'' :=
  ⟨h.tokens.trans h'.tokens,h.query.trans h'.query,h.under.trans h'.under⟩

/-- What later states of a worker keep. -/
structure Stable (w w' : World) : Prop where
  /-- Deployments stay. -/
  loads : SameLoads w w'
  /-- Ids stay. -/
  keeps : Keeps w w'
  /-- Reservations stay. -/
  reserved : ∀ o,o < w.objects → SameReservation (w'.object o) (w.object o)
  /-- Retirements stay. -/
  retired : ∀ x∈w.retired,x∈w'.retired

/-- A worker keeps all of its own. -/
theorem Stable.refl (w : World) : Stable w w :=
  ⟨.refl w,.refl w,fun _ _ => .refl _,fun _ h => h⟩

/-- What is kept twice is kept. -/
theorem Stable.trans {u : World} (h : Stable w u) (h' : Stable u w') : Stable w w' where
  loads := h.loads.trans h'.loads
  keeps := h.keeps.trans h'.keeps
  reserved o ho := (h'.reserved o (Nat.lt_of_lt_of_le ho h.keeps.objects)).trans (h.reserved o ho)
  retired x hx := h'.retired x (h.retired x hx)

/-- Replacing a request by one with the same reservation. -/
theorem reserved_withObject (c : Control) {o : ℕ} {r : ActiveRequest}
    (hr : SameReservation r (c.object o)) (x : ℕ) :
    SameReservation ((c.withObject o r).object x) (c.object x) := by
  rw [Control.withObject_object]
  by_cases hx : x=o
  · rw [hx,Function.update_self]
    exact hr
  · rw [Function.update_of_ne hx]
    exact .refl _

/-- What a retirement by id keeps. -/
theorem retired_retireFound (c : Control) (id reason : String) :
    ∀ x∈c.retired,x∈(c.retireFound id reason).retired := by
  intro x hx
  unfold Control.retireFound
  split
  · rw [retire_retired]
    exact List.mem_append_left _ hx
  · exact hx

/-- What a release keeps. -/
theorem retired_release (c : Control) (o : ℕ) (outcome : RequestOutcome) (now : ℕ) :
    ∀ x∈c.retired,x∈(c.release o outcome now).retired := by
  intro x hx
  unfold Control.release
  split
  · rw [retire_retired]
    exact List.mem_append_left _ hx
  · exact hx

/-- A release keeps the reservations. -/
theorem reserved_release (c : Control) (o : ℕ) (outcome : RequestOutcome) (now x : ℕ) :
    SameReservation ((c.release o outcome now).object x) (c.object x) := by
  unfold Control.release
  split
  · rw [retire_object]
    exact reserved_withObject c ⟨by rfl,by rfl,by rfl⟩ x
  · exact .refl _

/-- Every move keeps the reservations. -/
theorem reserved_move (h : Move w w') (x : ℕ) (hx : x < w.objects) :
    SameReservation (w'.object x) (w.object x) := by
  cases h with
  | stopped o cause => exact reserved_withObject _ ⟨by rfl,by rfl,by rfl⟩ x
  | retired reason =>
    rw [World.within_toControl,retire_object]
    exact .refl _
  | shortened deadline => exact reserved_withObject _ ⟨by rfl,by rfl,by rfl⟩ x
  | admitted =>
    rw [World.goto_toControl,recordLifecycle_object,Control.emplace_object,
      Function.update_of_ne (Nat.ne_of_lt hx)]
    exact .refl _
  | allocationFailed =>
    rw [World.goto_toControl,retireFound_object]
    exact .refl _
  | allocationDropped reason =>
    rw [World.goto_toControl,retireFound_object]
    exact reserved_withObject _ ⟨by rfl,by rfl,by rfl⟩ x
  | allocationKept => exact reserved_withObject _ ⟨by rfl,by rfl,by rfl⟩ x
  | @allocationClaimed t o =>
    have howned : SameReservation (((w.keepAllocation o).own o).object x)
        ((w.keepAllocation o).object x) := reserved_withObject _ ⟨by rfl,by rfl,by rfl⟩ x
    exact howned.trans (reserved_withObject w.toControl ⟨by rfl,by rfl,by rfl⟩ x)
  | claimed => exact reserved_withObject _ ⟨by rfl,by rfl,by rfl⟩ x
  | completed now => exact reserved_release _ _ _ _ x
  | left now => exact reserved_release _ _ _ _ x
  | _ => exact .refl _

/-- Every move keeps the retirements. -/
theorem retired_move (h : Move w w') : ∀ x∈w.retired,x∈w'.retired := by
  intro x hx
  cases h with
  | retired reason =>
    rw [World.within_toControl,retire_retired]
    exact List.mem_append_left _ hx
  | admitted =>
    rw [World.goto_toControl,recordLifecycle_retired]
    exact hx
  | allocationFailed => exact retired_retireFound _ _ _ x hx
  | allocationDropped reason => exact retired_retireFound _ _ _ x hx
  | completed now => exact retired_release _ _ _ _ x hx
  | left now => exact retired_release _ _ _ _ x hx
  | _ => exact hx

/-- Every move of a worker keeps them. -/
theorem Stable.move (h : Move w w') : Stable w w' :=
  ⟨.move h,.move h,reserved_move h,retired_move h⟩

/-- Every sequence of moves keeps them. -/
theorem Stable.moves (h : Relation.ReflTransGen Move w w') : Stable w w' := by
  induction h with
  | refl => exact .refl w
  | tail _ hlast ih => exact ih.trans (.move hlast)

/-- Every step of a worker keeps them. -/
theorem Stable.step {textDigest : String → String} {a : Action}
    (hreach : (machine textDigest).Reachable w) (hone : w.step textDigest a=some w') :
    Stable w w' :=
  .moves ((table_reachable hreach).step hone)

/-- The loaded deployment has an id and a version. -/
def Identified (c : Control) : Prop :=
  ∀ d,c.deployment=some d → ((c.loaded d).spec.plan.getD default).planId≠"" ∧
    ((c.loaded d).spec.plan.getD default).deploymentVersion≠0

/-- Only a valid plan is loaded. -/
theorem identified_load {c : Control} (h : Identified c) (textDigest : String → String)
    (request : LoadStageRequest) (answer : Except Failure (Option StageBackend)) :
    Identified (c.load textDigest request answer).1 := by
  unfold Control.load
  split
  · split <;> exact h
  · split
    · exact h
    · exact h
    · exact h
    · rename_i backend hbefore
      split
      · exact h
      · intro d hd
        cases hd
        unfold Control.beforeLoad at hbefore
        cases hvalid : validatePlan textDigest request c.config.workerId c.capabilities with
        | error e =>
          rw [hvalid] at hbefore
          cases hbefore
        | ok u =>
          obtain ⟨plan,manifest,hplan,-,hidentity,-⟩ := (validatePlan_ok_iff _ _ _ _).mp hvalid
          rw [checkIdentity,reject_ok_iff] at hidentity
          simp only [not_or] at hidentity
          have hspec : ((c.install request backend).loaded c.deployments).spec=request := by
            rw [Control.install_loaded,Function.update_self]
          rw [hspec,hplan,Option.getD_some]
          exact ⟨hidentity.2.2.2.2.1,hidentity.2.2.2.2.2.2.1⟩

/-- What is loaded keeps its identity while the deployment is the same. -/
theorem Identified.kept (h : Identified w.toControl) (hcommitted : Committed w)
    (hloads : SameLoads w w') (hdeployment : w'.deployment=w.deployment) :
    Identified w'.toControl := by
  intro d hd
  rw [hdeployment] at hd
  rw [hloads.loaded d (hcommitted.known d hd)]
  exact h d hd

/-- The loaded deployment of a worker has an id and a version. -/
theorem identified_reachable {textDigest : String → String}
    (hreach : (machine textDigest).Reachable w) : Identified w.toControl := by
  refine (Machine.Reachable.induct
    (I:=fun w => (machine textDigest).Reachable w ∧ Identified w.toControl) ?_ ?_ hreach).2
  · rintro w hinitial
    refine ⟨⟨_,[],hinitial,.nil _⟩,?_⟩
    obtain ⟨config,capabilities,blank,empty,-,rfl⟩ := hinitial
    exact nofun
  · rintro w a w' ⟨hreach,hidentified⟩ hone
    have htable := table_reachable hreach
    have hcommitted := (committed_reachable hreach).2
    have hpruned : ∀ readings,Identified (w.pruneExpired readings) := fun readings =>
      hidentified.kept hcommitted
        (Stable.moves (pruneExpired_moves htable.keys readings)).loads
        (pruneExpired_deployment _ _)
    refine ⟨hreach.step hone,?_⟩
    by_cases hloads : loadsOrUnloads a
    · cases a with
      | loadStage request readings answer =>
        cases hone
        exact identified_load (hpruned readings) textDigest request answer
      | unloadStage planId version readings =>
        cases hone
        change Identified ((w.pruneExpired readings).unload planId version).1
        unfold Control.unload
        split
        · exact hpruned readings
        · split
          · exact hpruned readings
          · split
            · exact nofun
            · exact hpruned readings
      | _ => exact hloads.elim
    · exact hidentified.kept hcommitted (Stable.step hreach hone).loads
        (step_deployment hone hloads)

end Worlds

section Sites

/-- Sizes of a loaded backend. -/
structure BackendSizes where
  hiddenSize : UInt64
  vocabularySize : ℕ

/-- What a handler reads of a lease on a request object of a deployment. -/
def leaseOf (sizes : ℕ → BackendSizes) (w : World) (d o : ℕ) : Lease where
  identity := {
    deploymentId := ((w.loaded d).spec.plan.getD default).planId
    deploymentVersion :=
      UInt64.ofNat ((w.loaded d).spec.plan.getD default).deploymentVersion
    requestId := (w.object o).id
    maximumTokens := (w.object o).maximumTokens
    hiddenSize := (sizes d).hiddenSize}
  deadlineMs := (w.object o).deadline/millisecond
  maximumQueryTokens := (w.object o).maximumQueryTokens.toNat
  vocabularySize := (sizes d).vocabularySize
  split := decide (((w.loaded d).spec.plan.getD default).stages.length=2)

/-- The reserving call inside `acquire`. -/
def reserving (a : Acquisition) : ReserveCall where
  planId := a.deploymentId
  version := a.deploymentVersion.toNat
  requestId := a.requestId
  tokens := UInt64.ofNat a.tokens
  prefillChunkTokens := UInt64.ofNat a.prefillChunkTokens
  deadlineMs := a.deadlineMs

/-- A handler, from one call to the next. -/
structure Handler (D H : Type) where
  /-- A call returns. -/
  resume : H → Reply D → Option H
  /-- The call of `acquire` it is in. -/
  acquisition : H → Option Acquisition
  /-- The lease it works with. -/
  lease : H → Option Lease

/-- A worker with one of its handlers. -/
structure Site (H : Type) where
  world : World
  handler : H
  /-- Ghost: the request object that was acquired, and the lease on it. -/
  grant : Option (ℕ×Lease)

/-- Steps of a worker with one of its handlers. -/
inductive SiteAction (D : Type)
  /-- A step of the control service that is none of the handler. -/
  | control (a : Action)
  /-- The handler calls `acquire`. -/
  | acquire (readings : String → ℕ) (now : ℕ)
  /-- The allocation inside `acquire` ends. -/
  | allocated (answer : Allocation) (now recheck : ℕ)
  /-- `acquire` returns a lease. -/
  | acquired
  /-- `acquire` throws. -/
  | refused (error : Failure)
  /-- `check_running` -/
  | check (disconnected : Bool) (now : ℕ)
  /-- `release` as completed. -/
  | release (now : ℕ)
  /-- The guard's destructor releases the request as failed. -/
  | leave (disconnected : Bool) (now recheck : ℕ)
  /-- The guard gives its lease back; the clock is read once more for the status. -/
  | drop (clock : ℕ)
  /-- Any other call returns. -/
  | call (reply : Reply D)

/-- Replies of calls that are not calls of the control service. -/
def external : Reply D → Bool
  | .started _ _ _ _ => true
  | .threw _ => true
  | .output _ => true
  | .written _ => true
  | .read _ => true
  | .finished _ => true
  | _ => false

/-- The reply of `check_running` for a request. -/
def runningReply (r : ActiveRequest) (disconnected : Bool) (now : ℕ) : Reply D :=
  if r.cancelled || disconnected || decide (r.deadline ≤ now) then
    .threw notRunning
  else .running

namespace Site

variable (handler : Handler D H) (textDigest : String → String) (sizes : ℕ → BackendSizes) (t : ℕ)
  (s : Site H)

/-- The handler goes on in some state of the worker. -/
def goesOn (w : World) (grant : Option (ℕ×Lease)) (reply : Reply D) : Option (Site H) :=
  (handler.resume s.handler reply).map fun h => ⟨w,h,grant⟩

/-- The service takes a step and the handler goes on. -/
def together (a : Action) (reply : World → Reply D) : Option (Site H) :=
  (s.world.step textDigest a).bind fun w => s.goesOn handler w s.grant (reply w)

/-- The service takes a step. -/
def alone (a : Action) : Option (Site H) :=
  (s.world.step textDigest a).map fun w => { s with world := w }

/-- The step function of a worker with one of its handlers, on a thread. -/
def step : SiteAction D → Option (Site H)
  | .control a => if moved a=some t then none else s.alone textDigest a
  | .acquire readings now =>
    (handler.acquisition s.handler).bind fun a =>
      s.alone textDigest (.acquire t (reserving a) a.requiredStage readings now)
  | .allocated answer now recheck => s.alone textDigest (.allocationEnds t answer now recheck)
  | .acquired =>
    match s.world.thread t with
    | .leased (some d) o =>
      s.goesOn handler s.world (some (o,leaseOf sizes s.world d o))
        (.acquired (leaseOf sizes s.world d o))
    | _ => none
  | .refused error =>
    if (handler.acquisition s.handler).isSome ∧ s.world.thread t=.ended then
      s.goesOn handler s.world s.grant (.threw error)
    else none
  | .check disconnected now =>
    if (handler.resume s.handler .running).isSome then
      s.grant.bind fun grant =>
        s.goesOn handler s.world s.grant
          (runningReply (s.world.object grant.1) disconnected now)
    else none
  | .release now => s.together handler textDigest (.complete t now) fun _ => .released
  | .leave disconnected now recheck =>
    if (handler.resume s.handler (.left false false)).isSome then
      s.alone textDigest (.leave t disconnected now recheck)
    else none
  | .drop clock =>
    s.grant.bind fun grant =>
      s.together handler textDigest (.drop t) fun w =>
        .left (decide ((w.object grant.1).deadline ≤ clock)) (w.object grant.1).cancelled
  | .call reply =>
    if external reply=true ∧ (handler.acquisition s.handler).isNone then
      s.goesOn handler s.world s.grant reply
    else none

/-- The reply of the call that an action ends. The end of a guard is left out. -/
def reply : SiteAction D → Option (Reply D)
  | .control _ => none
  | .acquire _ _ => none
  | .allocated _ _ _ => none
  | .acquired =>
    match s.world.thread t with
    | .leased (some d) o => some (.acquired (leaseOf sizes s.world d o))
    | _ => none
  | .refused error => some (.threw error)
  | .check disconnected now =>
    s.grant.map fun grant => runningReply (s.world.object grant.1) disconnected now
  | .release _ => some .released
  | .leave _ _ _ => none
  | .drop _ => none
  | .call reply => some reply

end Site

end Sites

section Acquiring

variable {w w' : World} {textDigest : String → String}

/-- The request object a reservation is about. -/
def objectOf : Reserved → ℕ
  | .existing o => o
  | .admitted o => o

/-- What a successful reservation reserves. -/
theorem reserve_reserved (h : Table w) {d : ℕ} {id : String} {tokens chunk : UInt64}
    {deadlineMs : ℕ} {readings : String → ℕ} {now : ℕ} {c : Control} {r : Reserved}
    (hone : w.reserve d id tokens chunk deadlineMs readings now=(c,.ok r)) :
    id≠"" ∧ (c.object (objectOf r)).id=id ∧ (c.object (objectOf r)).maximumTokens=tokens ∧
      (c.object (objectOf r)).maximumQueryTokens=queryRows tokens chunk := by
  have htable : Table (w.within (w.pruneExpired readings)) :=
    closure_preserves (fun _ _ ht hm => ht.move hm) (pruneExpired_moves h.keys readings) h
  unfold Control.reserve at hone
  dsimp only at hone
  split at hone
  · cases hone
  · rename_i hid
    have hne : id≠"" := fun h => hid (.inl h)
    split at hone
    · cases hone
    · split at hone
      · rename_i o hfind
        have hfound : ((w.pruneExpired readings).object o).id=id :=
          htable.ids _ (mem_of_find hfind)
        unfold Control.retry at hone
        dsimp only at hone
        split at hone
        · cases hone
        · split at hone
          · cases hone
          · rename_i hagrees
            simp only [not_or,not_not] at hagrees
            split at hone
            · cases hone
              exact ⟨hne,hfound,hagrees.1,hagrees.2.1⟩
            · cases hone
              refine ⟨hne,?_,?_,?_⟩
              · rw [objectOf,Control.withObject_object,Function.update_self]
                exact hfound
              · rw [objectOf,Control.withObject_object,Function.update_self]
                exact hagrees.1
              · rw [objectOf,Control.withObject_object,Function.update_self]
                exact hagrees.2.1
      · unfold Control.enroll at hone
        split at hone
        · cases hone
        · cases hone
          refine ⟨hne,?_,?_,?_⟩
          · rw [objectOf,recordLifecycle_object,Control.emplace_object,Function.update_self]
            rfl
          · rw [objectOf,recordLifecycle_object,Control.emplace_object,Function.update_self]
            rfl
          · rw [objectOf,recordLifecycle_object,Control.emplace_object,Function.update_self]
            rfl

/-- What a request object reserves for a call of `acquire`, in the deployment
that is loaded. -/
structure ReservedFor (a : Acquisition) (w : World) (o : ℕ) : Prop where
  named : a.requestId≠""
  id : (w.object o).id=a.requestId
  tokens : (w.object o).maximumTokens=UInt64.ofNat a.tokens
  query : (w.object o).maximumQueryTokens=
    queryRows (UInt64.ofNat a.tokens) (UInt64.ofNat a.prefillChunkTokens)
  deployment : ∃ d,w.deployment=some d ∧
    ((w.loaded d).spec.plan.getD default).planId=a.deploymentId ∧
    ((w.loaded d).spec.plan.getD default).deploymentVersion=a.deploymentVersion.toNat ∧
    (w.loaded d).spec.stageIndex=a.requiredStage

/-- A reservation lasts while its deployment is loaded. -/
theorem ReservedFor.stable {a : Acquisition} {o : ℕ} (h : ReservedFor a w o)
    (hcommitted : Committed w) (ho : o < w.objects) (hstable : Stable w w')
    (hdeployment : w'.deployment=w.deployment) : ReservedFor a w' o := by
  obtain ⟨d,hd,hplan,hversion,hstage⟩ := h.deployment
  have hloaded := hstable.loads.loaded d (hcommitted.known d hd)
  have hsame := hstable.reserved o ho
  refine ⟨h.named,(hstable.keeps.ids o ho).trans h.id,hsame.tokens.trans h.tokens,
    hsame.query.trans h.query,d,hdeployment.trans hd,?_,?_,?_⟩
  · rw [hloaded]
    exact hplan
  · rw [hloaded]
    exact hversion
  · rw [hloaded]
    exact hstage

/-- A thread that keeps its request keeps its reservation. -/
theorem ReservedFor.owned {a : Acquisition} {o t : ℕ} (h : ReservedFor a w o)
    (htable : Table w) (htable' : Table w') (hcommitted : Committed w) (hstable : Stable w w')
    (ho : owned (w.thread t)=some o) (ho' : owned (w'.thread t)=some o) :
    ReservedFor a w' o := by
  have hm := (htable.owned_marked ho).1
  have hm' := (htable'.owned_marked ho').1
  have hlt := htable.fresh _ hm
  have hhome := htable.home _ hm
  have hhome' := htable'.home _ hm'
  refine h.stable hcommitted hlt hstable ?_
  rw [hhome,hhome',(hstable.reserved o hlt).under]

/-- Claiming leaves the requests, but for the mark of the owner. -/
theorem claim_object (w : World) (c : Control) (t o x : ℕ) :
    ((w.claim c t o).object x).id=(c.object x).id ∧
      SameReservation ((w.claim c t o).object x) (c.object x) := by
  unfold World.claim Control.claim
  split
  · exact ⟨rfl,.refl _⟩
  · rename_i c' hclaim
    split at hclaim
    · cases hclaim
    · cases hclaim
      refine ⟨?_,reserved_withObject c ⟨by rfl,by rfl,by rfl⟩ x⟩
      rw [World.grant_toControl,Control.own_object]
      by_cases hx : x=o
      · rw [hx,Function.update_self]
      · rw [Function.update_of_ne hx]

/-- A thread owns what it claims. -/
theorem claim_owned {w : World} {c : Control} {t o x : ℕ}
    (h : owned ((w.claim c t o).thread t)=some x) : x=o := by
  unfold World.claim at h
  split at h
  · rw [World.goto_thread,Function.update_self] at h
    cases h
  · rw [World.grant_thread,Function.update_self] at h
    exact (Option.some.inj h).symm

/-- What a thread owns after it called `acquire` was reserved for the call. -/
theorem reserveCall_reservedFor (htable : Table w) (hcommitted : Committed w) {a : Acquisition}
    {t : ℕ} {readings : String → ℕ} {now : ℕ} (hstable : Stable w w')
    (hone : w.reserveCall t (reserving a) (some a.requiredStage) readings now=some w') {o : ℕ}
    (ho : owned (w'.thread t)=some o) : ReservedFor a w' o := by
  have hended : ∀ {u : World} {c : Control} {x : ℕ},
      owned ((u.goto c t .ended).thread t)≠some x := by
    intro u c x h
    rw [World.goto_thread,Function.update_self] at h
    cases h
  have hdeployment := reserveCall_deployment hone
  unfold World.reserveCall at hone
  split at hone
  · split at hone
    · cases hone
      exact absurd ho hended
    · rename_i d hmatching
      obtain ⟨hd,hmatches⟩ := Option.filter_eq_some_iff.mp hmatching
      rw [Bool.and_eq_true,beq_iff_eq,beq_iff_eq] at hmatches
      split at hone
      · cases hone
        exact absurd ho hended
      · rename_i hstage
        rw [Option.any_some,decide_eq_true_eq,not_not] at hstage
        have hspec : ∃ d,w'.deployment=some d ∧
            ((w'.loaded d).spec.plan.getD default).planId=a.deploymentId ∧
            ((w'.loaded d).spec.plan.getD default).deploymentVersion=
              a.deploymentVersion.toNat ∧
            (w'.loaded d).spec.stageIndex=a.requiredStage := by
          refine ⟨d,hdeployment.trans hd,?_⟩
          rw [hstable.loads.loaded d (hcommitted.known d hd)]
          exact ⟨hmatches.1,hmatches.2,hstage⟩
        split at hone
        · cases hone
          exact absurd ho hended
        · rename_i c x hreserve
          obtain ⟨hne,hid,htokens,hquery⟩ := reserve_reserved htable hreserve
          cases hone
          rw [World.goto_thread,Function.update_self] at ho
          cases ho
          exact ⟨hne,hid,htokens,hquery,hspec⟩
        · rename_i c x hreserve
          obtain ⟨hne,hid,htokens,hquery⟩ := reserve_reserved htable hreserve
          rw [Option.isSome_some,if_pos rfl] at hone
          cases hone
          obtain rfl := claim_owned ho
          have hsame := claim_object w c t o o
          exact ⟨hne,hsame.1.trans hid,hsame.2.tokens.trans htokens,hsame.2.query.trans hquery,
            hspec⟩
  · cases hone

/-- An allocation that ends leaves its thread the request or nothing. -/
theorem allocationEnds_owned {t : ℕ} {answer : Allocation} {now recheck : ℕ}
    (hone : w.allocationEnds t answer now recheck=some w') {o : ℕ}
    (ho : owned (w'.thread t)=some o) : owned (w.thread t)=some o := by
  have hended : ∀ {u : World} {c : Control} {x : ℕ},
      owned ((u.goto c t .ended).thread t)≠some x := by
    intro u c x h
    rw [World.goto_thread,Function.update_self] at h
    cases h
  unfold World.allocationEnds at hone
  split at hone
  · rename_i x d claims hthread
    split at hone
    · cases hone
      exact absurd ho hended
    · split at hone
      · cases hone
        rw [claim_owned ho,hthread]
        rfl
      · cases hone
        exact absurd ho hended
  · cases hone

/-- A request that is released as completed while it is leased is retired so. -/
theorem complete_retires (htable : Table w) {t now o : ℕ} {d : Option ℕ}
    (hthread : w.thread t=.leased d o) (hone : w.complete t now=some w') :
    (o,"completed")∈w'.retired := by
  unfold World.complete at hone
  rw [hthread] at hone
  cases hone
  have hentry := (htable.leasedThread t d o hthread).1
  have hfind := (htable.find_iff _ o).mpr hentry
  rw [World.goto_toControl,Control.release,if_pos hfind,retire_retired]
  exact List.mem_append_right _ (List.mem_singleton.mpr rfl)

end Acquiring

section Handlers

variable (handler : Handler D H) (textDigest : String → String) (sizes : ℕ → BackendSizes) (t : ℕ)

/-- Replies that say that `acquire`, `release` or the guard is over. -/
def owning : Reply D → Bool
  | .acquired _ => true
  | .released => true
  | .left _ _ => true
  | _ => false

/-- What a step of a worker with one of its handlers is. -/
inductive Transition (s : Site H) : Site H → Prop
  /-- The service takes a step of its own. -/
  | served {a : Action} {w : World} (hone : s.world.step textDigest a=some w)
      (hmoved : moved a≠some t) : Transition s { s with world := w }
  /-- The handler calls `acquire`. -/
  | called {a : Acquisition} {readings : String → ℕ} {now : ℕ} {w : World}
      (hcall : handler.acquisition s.handler=some a)
      (hone : s.world.step textDigest (.acquire t (reserving a) a.requiredStage readings now)=
        some w) : Transition s { s with world := w }
  /-- The allocation inside `acquire` ends. -/
  | allocated {answer : Allocation} {now recheck : ℕ} {w : World}
      (hone : s.world.step textDigest (.allocationEnds t answer now recheck)=some w) :
      Transition s { s with world := w }
  /-- `acquire` returns a lease. -/
  | acquired {d o : ℕ} {h : H} (hthread : s.world.thread t=.leased (some d) o)
      (hresume : handler.resume s.handler (.acquired (leaseOf sizes s.world d o))=some h) :
      Transition s ⟨s.world,h,some (o,leaseOf sizes s.world d o)⟩
  /-- `acquire` throws. -/
  | refused {error : Failure} {h : H} (hthread : s.world.thread t=.ended)
      (hresume : handler.resume s.handler (.threw error)=some h) :
      Transition s ⟨s.world,h,s.grant⟩
  /-- Another call returns. -/
  | replied {reply : Reply D} {h : H} (hcall : handler.acquisition s.handler=none)
      (howning : owning reply=false) (hresume : handler.resume s.handler reply=some h) :
      Transition s ⟨s.world,h,s.grant⟩
  /-- `release` as completed returns. -/
  | released {now : ℕ} {w : World} {h : H} (hone : s.world.step textDigest (.complete t now)=some w)
      (hresume : handler.resume s.handler .released=some h) : Transition s ⟨w,h,s.grant⟩
  /-- The guard's destructor releases the request. -/
  | leaving {disconnected : Bool} {now recheck : ℕ} {w : World} {h : H}
      (hleaves : handler.resume s.handler (.left false false)=some h)
      (hone : s.world.step textDigest (.leave t disconnected now recheck)=some w) :
      Transition s { s with world := w }
  /-- The guard gives its lease back. -/
  | left {expired cancelled : Bool} {w : World} {h : H}
      (hone : s.world.step textDigest (.drop t)=some w)
      (hresume : handler.resume s.handler (.left expired cancelled)=some h) :
      Transition s ⟨w,h,s.grant⟩

/-- What is known of a handler: where it has not acquired its request, where it
holds it, and where it has released it as completed. -/
structure Lawful (before holds commits : H → Prop) : Prop where
  /-- Before the request is acquired it was not acquired. -/
  before_back : ∀ {h reply h'},handler.resume h reply=some h' → before h' → before h
  /-- `acquire` is called before. -/
  asks_before : ∀ {h a},handler.acquisition h=some a → before h
  /-- Only a call of `acquire` returns a lease, and the request is acquired then. -/
  acquired : ∀ {h lease h'},handler.resume h (.acquired lease)=some h' →
    (∃ a,handler.acquisition h=some a) ∧ ¬before h'
  /-- A call of `acquire` returns a lease or throws. -/
  asking : ∀ {h a reply h'},handler.acquisition h=some a → handler.resume h reply=some h' →
    ¬before h'
  /-- The flags are read after the request was acquired. -/
  checks : ∀ {h h'},handler.resume h .running=some h' → handler.acquisition h=none
  /-- A request is held from where it was acquired. -/
  holds_back : ∀ {h reply h'},handler.resume h reply=some h' → holds h' →
    (∃ lease,reply=.acquired lease) ∨ holds h ∧ owning reply=false
  /-- It is released as completed from where it is held. -/
  commits_back : ∀ {h reply h'},handler.resume h reply=some h' → commits h' →
    commits h ∨ holds h ∧ reply=.released
  /-- A handler that leaves does not execute its request. -/
  leaves : ∀ {h expired cancelled h'},handler.resume h (.left expired cancelled)=some h' → ¬holds h
  /-- The lease is the one that was acquired. -/
  lease_back : ∀ {h reply h' lease},handler.resume h reply=some h' →
    handler.lease h'=some lease → handler.lease h=some lease ∨ reply=.acquired lease

/-- A worker and its handler agree about the request. -/
structure Sound (before holds commits : H → Prop) (s : Site H) : Prop where
  reachable : (machine textDigest).Reachable s.world
  fresh : before s.handler → s.grant=none
  /-- Before `acquire` is called and after it failed, the thread owns nothing. -/
  unowned : s.grant=none → handler.acquisition s.handler=none →
    owned (s.world.thread t)=none
  /-- Inside `acquire` the thread owns what was reserved for the call. -/
  attached : ∀ a,handler.acquisition s.handler=some a → ∀ o,owned (s.world.thread t)=some o →
    ReservedFor a s.world o
  /-- A lease is on a request object of its id. -/
  named : ∀ o lease,s.grant=some (o,lease) →
    o < s.world.objects ∧ (s.world.object o).id=lease.identity.requestId
  held : holds s.handler → ∃ o lease d,s.grant=some (o,lease) ∧ s.world.thread t=.leased d o
  /-- What was released as completed is retired as completed. -/
  committed : commits s.handler →
    ∃ o lease,s.grant=some (o,lease) ∧ (o,"completed")∈s.world.retired
  leased : ∀ lease,handler.lease s.handler=some lease → ∃ o,s.grant=some (o,lease)

end Handlers

section Steps

variable {handler : Handler D H} {textDigest : String → String} {sizes : ℕ → BackendSizes} {t : ℕ}
variable {before holds commits : H → Prop} {s s' : Site H}

/-- A handler that goes on. -/
theorem goesOn_some {w : World} {grant : Option (ℕ×Lease)} {reply : Reply D}
    (h : s.goesOn handler w grant reply=some s') :
    ∃ h',handler.resume s.handler reply=some h' ∧ s'=⟨w,h',grant⟩ := by
  obtain ⟨h',hresume,heq⟩ := Option.map_eq_some_iff.mp h
  exact ⟨h',hresume,heq.symm⟩

/-- A service that takes a step. -/
theorem alone_some {a : Action} (h : s.alone textDigest a=some s') :
    ∃ w,s.world.step textDigest a=some w ∧ s'={ s with world := w } := by
  obtain ⟨w,hone,heq⟩ := Option.map_eq_some_iff.mp h
  exact ⟨w,hone,heq.symm⟩

/-- A service that takes a step with the handler. -/
theorem together_some {a : Action} {reply : World → Reply D}
    (h : s.together handler textDigest a reply=some s') :
    ∃ w h',s.world.step textDigest a=some w ∧ handler.resume s.handler (reply w)=some h' ∧
      s'=⟨w,h',s.grant⟩ := by
  obtain ⟨w,hone,hrest⟩ := Option.bind_eq_some_iff.mp h
  obtain ⟨h',hresume,heq⟩ := goesOn_some hrest
  exact ⟨w,h',hone,hresume,heq⟩

/-- External replies are not about the request. -/
theorem owning_of_external {reply : Reply D} (h : external reply=true) : owning reply=false := by
  cases reply with
  | acquired lease => cases h
  | released => cases h
  | left expired cancelled => cases h
  | _ => rfl

/-- The reply of `check_running` is not about the request. -/
theorem owning_runningReply (r : ActiveRequest) (disconnected : Bool) (now : ℕ) :
    owning (runningReply r disconnected now : Reply D)=false := by
  unfold runningReply
  split
  · rfl
  · rfl

/-- Every step of a worker with one of its handlers is one of these. -/
theorem step_transition (hlawful : Lawful handler before holds commits) {a : SiteAction D}
    (hone : s.step handler textDigest sizes t a=some s') :
    Transition handler textDigest sizes t s s' := by
  cases a with
  | control a =>
    rw [Site.step] at hone
    split at hone
    · cases hone
    · rename_i hmoved
      obtain ⟨w,hw,rfl⟩ := alone_some hone
      exact .served hw hmoved
  | acquire readings now =>
    obtain ⟨call,hcall,hrest⟩ := Option.bind_eq_some_iff.mp hone
    obtain ⟨w,hw,rfl⟩ := alone_some hrest
    exact .called hcall hw
  | allocated answer now recheck =>
    obtain ⟨w,hw,rfl⟩ := alone_some hone
    exact .allocated hw
  | acquired =>
    rw [Site.step] at hone
    split at hone
    · rename_i d o hthread
      obtain ⟨h,hresume,rfl⟩ := goesOn_some hone
      exact .acquired hthread hresume
    · cases hone
  | refused error =>
    rw [Site.step] at hone
    split at hone
    · rename_i hcall
      obtain ⟨h,hresume,rfl⟩ := goesOn_some hone
      exact .refused hcall.2 hresume
    · cases hone
  | check disconnected now =>
    rw [Site.step] at hone
    split at hone
    · rename_i hchecks
      obtain ⟨h₀,hchecks⟩ := Option.isSome_iff_exists.mp hchecks
      obtain ⟨grant,-,hrest⟩ := Option.bind_eq_some_iff.mp hone
      obtain ⟨h,hresume,rfl⟩ := goesOn_some hrest
      exact .replied (hlawful.checks hchecks) (owning_runningReply _ _ _) hresume
    · cases hone
  | release now =>
    obtain ⟨w,h,hw,hresume,rfl⟩ := together_some hone
    exact .released hw hresume
  | leave disconnected now recheck =>
    rw [Site.step] at hone
    split at hone
    · rename_i hleaves
      obtain ⟨h,hleaves⟩ := Option.isSome_iff_exists.mp hleaves
      obtain ⟨w,hw,rfl⟩ := alone_some hone
      exact .leaving hleaves hw
    · cases hone
  | drop clock =>
    obtain ⟨grant,-,hrest⟩ := Option.bind_eq_some_iff.mp hone
    obtain ⟨w,h,hw,hresume,rfl⟩ := together_some hrest
    exact .left hw hresume
  | call reply =>
    rw [Site.step] at hone
    split at hone
    · rename_i hcall
      obtain ⟨h,hresume,rfl⟩ := goesOn_some hone
      exact .replied (Option.isNone_iff_eq_none.mp hcall.2) (owning_of_external hcall.1) hresume
    · cases hone

/-- The service takes a step that leaves the handler's thread sound. -/
theorem Sound.serve (h : Sound handler textDigest t before holds commits s) {a : Action} {w : World}
    (hone : s.world.step textDigest a=some w)
    (hunowned : s.grant=none → handler.acquisition s.handler=none → owned (w.thread t)=none)
    (hattached : ∀ call,handler.acquisition s.handler=some call → Stable s.world w →
      ∀ o,owned (w.thread t)=some o → ReservedFor call w o)
    (hheld : holds s.handler → ∀ d o,s.world.thread t=.leased d o → w.thread t=.leased d o) :
    Sound handler textDigest t before holds commits { s with world := w } := by
  have hstable := Stable.step h.reachable hone
  refine ⟨h.reachable.step hone,h.fresh,hunowned,fun call hcall => hattached call hcall hstable,
    fun o lease hgrant => ?_,fun hholds => ?_,fun hcommits => ?_,h.leased⟩
  · obtain ⟨ho,hid⟩ := h.named o lease hgrant
    exact ⟨Nat.lt_of_lt_of_le ho hstable.keeps.objects,(hstable.keeps.ids o ho).trans hid⟩
  · obtain ⟨o,lease,d,hgrant,hthread⟩ := h.held hholds
    exact ⟨o,lease,d,hgrant,hheld hholds d o hthread⟩
  · obtain ⟨o,lease,hgrant,hretired⟩ := h.committed hcommits
    exact ⟨o,lease,hgrant,hstable.retired _ hretired⟩

/-- The handler goes on without its request changing hands. -/
theorem Sound.reply (h : Sound handler textDigest t before holds commits s)
    (hlawful : Lawful handler before holds commits) {reply : Reply D} {h' : H}
    (hresume : handler.resume s.handler reply=some h') (howning : owning reply=false)
    (hidle : s.grant=none → owned (s.world.thread t)=none) :
    Sound handler textDigest t before holds commits ⟨s.world,h',s.grant⟩ := by
  refine ⟨h.reachable,fun hbefore => h.fresh (hlawful.before_back hresume hbefore),
    fun hgrant _ => hidle hgrant,fun a ha o ho => ?_,h.named,fun hholds => ?_,fun hcommits => ?_,
    fun lease hlease => ?_⟩
  · have hgrant := h.fresh (hlawful.before_back hresume (hlawful.asks_before ha))
    have hnone := hidle hgrant
    rw [hnone] at ho
    cases ho
  · rcases hlawful.holds_back hresume hholds with ⟨lease,rfl⟩|⟨hholds,-⟩
    · cases howning
    · exact h.held hholds
  · rcases hlawful.commits_back hresume hcommits with hcommits|⟨-,rfl⟩
    · exact h.committed hcommits
    · cases howning
  · rcases hlawful.lease_back hresume hlease with hlease|rfl
    · exact h.leased lease hlease
    · cases howning

/-- A handler whose request leaves its hands. -/
theorem Sound.letGo (h : Sound handler textDigest t before holds commits s)
    (hlawful : Lawful handler before holds commits) {reply : Reply D} {a : Action} {w : World}
    {h' : H} (hone : s.world.step textDigest a=some w)
    (hresume : handler.resume s.handler reply=some h') (howning : owning reply=true)
    (hacquired : ∀ lease,reply≠.acquired lease) (hgone : owned (w.thread t)=none)
    (hretires : reply=.released → ∀ d o,s.world.thread t=.leased d o → (o,"completed")∈w.retired) :
    Sound handler textDigest t before holds commits ⟨w,h',s.grant⟩ := by
  have hstable := Stable.step h.reachable hone
  refine ⟨h.reachable.step hone,fun hbefore => h.fresh (hlawful.before_back hresume hbefore),
    fun _ _ => hgone,fun call _ o ho => ?_,fun o lease hgrant => ?_,fun hholds => ?_,
    fun hcommits => ?_,fun lease hlease => ?_⟩
  · rw [hgone] at ho
    cases ho
  · obtain ⟨ho,hid⟩ := h.named o lease hgrant
    exact ⟨Nat.lt_of_lt_of_le ho hstable.keeps.objects,(hstable.keeps.ids o ho).trans hid⟩
  · rcases hlawful.holds_back hresume hholds with ⟨lease,hreply⟩|⟨-,hnot⟩
    · exact absurd hreply (hacquired lease)
    · rw [howning] at hnot
      cases hnot
  · rcases hlawful.commits_back hresume hcommits with hcommits|⟨hholds,hreply⟩
    · obtain ⟨o,lease,hgrant,hretired⟩ := h.committed hcommits
      exact ⟨o,lease,hgrant,hstable.retired _ hretired⟩
    · obtain ⟨o,lease,d,hgrant,hthread⟩ := h.held hholds
      exact ⟨o,lease,hgrant,hretires hreply d o hthread⟩
  · rcases hlawful.lease_back hresume hlease with hlease|hreply
    · exact h.leased lease hlease
    · exact absurd hreply (hacquired lease)

/-- A thread that was moved past its request owns nothing. -/
theorem complete_owned {w w' : World} {now : ℕ} (hone : w.complete t now=some w') :
    owned (w'.thread t)=none := by
  unfold World.complete at hone
  split at hone
  · cases hone
    rw [World.goto_thread,Function.update_self]
    rfl
  · cases hone

/-- A thread whose guard has released the request owns nothing. -/
theorem leave_owned {w w' : World} {disconnected : Bool} {now recheck : ℕ}
    (hone : w.leave t disconnected now recheck=some w') : owned (w'.thread t)=none := by
  unfold World.leave at hone
  dsimp only at hone
  split at hone
  · cases hone
    rw [World.goto_thread,Function.update_self]
    rfl
  · cases hone
    rw [World.goto_thread,Function.update_self]
    rfl
  · cases hone

/-- A thread that gave its lease back owns nothing. -/
theorem drop_owned {w w' : World} (hone : w.drop t=some w') : owned (w'.thread t)=none := by
  obtain ⟨-,rfl⟩ := drop_eq hone
  rw [World.goto_thread,Function.update_self]
  rfl

/-- A lease is taken on the request the thread owns. -/
theorem Sound.acquire (h : Sound handler textDigest t before holds commits s)
    (hlawful : Lawful handler before holds commits) {d o : ℕ} {h' : H}
    (hthread : s.world.thread t=.leased (some d) o)
    (hresume : handler.resume s.handler (.acquired (leaseOf sizes s.world d o))=some h') :
    Sound handler textDigest t before holds commits
      ⟨s.world,h',some (o,leaseOf sizes s.world d o)⟩ := by
  have hentry := ((table_reachable h.reachable).leasedThread t (some d) o hthread).1
  obtain ⟨⟨a,hcall⟩,hafter⟩ := hlawful.acquired hresume
  have hgrant := h.fresh (hlawful.asks_before hcall)
  refine ⟨h.reachable,fun hbefore => absurd hbefore hafter,fun hnone => ?_,fun a ha => ?_,
    fun x lease hx => ?_,fun _ => ⟨o,_,some d,rfl,hthread⟩,fun hcommits => ?_,
    fun lease hlease => ?_⟩
  · cases hnone
  · exact absurd (hlawful.asks_before ha) hafter
  · cases hx
    exact ⟨(table_reachable h.reachable).fresh _ hentry,rfl⟩
  · rcases hlawful.commits_back hresume hcommits with hcommits|⟨-,hreply⟩
    · obtain ⟨x,lease,hx,-⟩ := h.committed hcommits
      rw [hgrant] at hx
      cases hx
    · cases hreply
  · rcases hlawful.lease_back hresume hlease with hlease|hreply
    · obtain ⟨x,hx⟩ := h.leased lease hlease
      rw [hgrant] at hx
      cases hx
    · cases hreply
      exact ⟨o,rfl⟩

/-- Every step keeps a worker and its handler in agreement. -/
theorem Sound.transition (h : Sound handler textDigest t before holds commits s)
    (hlawful : Lawful handler before holds commits)
    (hone : Transition handler textDigest sizes t s s') :
    Sound handler textDigest t before holds commits s' := by
  have htable := table_reachable h.reachable
  have hcommitted := (committed_reachable h.reachable).2
  cases hone with
  | @served a w hone hmoved =>
    have hthread : w.thread t=s.world.thread t := step_thread hmoved hone
    have htable' : Table w := table_reachable (h.reachable.step hone)
    refine h.serve hone (fun hgrant hcall => ?_) (fun call hcall hstable o ho => ?_)
      fun _ d o hleased => hthread.trans hleased
    · rw [hthread]
      exact h.unowned hgrant hcall
    · have hbefore : owned (s.world.thread t)=some o := hthread ▸ ho
      exact (h.attached call hcall o hbefore).owned htable htable' hcommitted hstable hbefore ho
  | @called a readings now w hcall hone =>
    refine h.serve hone (fun _ hnone => ?_) (fun call hcall' hstable o ho => ?_)
      fun _ d o hleased => ?_
    · rw [hcall] at hnone
      cases hnone
    · rw [hcall] at hcall'
      cases hcall'
      exact reserveCall_reservedFor htable hcommitted hstable hone ho
    · rw [World.step,World.reserveCall,hleased] at hone
      cases hone
  | @allocated answer now recheck w hone =>
    have htable' : Table w := table_reachable
      (Machine.Reachable.step (a:=.allocationEnds t answer now recheck) h.reachable hone)
    have howned : ∀ o,owned (w.thread t)=some o → owned (s.world.thread t)=some o :=
      fun o ho => allocationEnds_owned hone ho
    refine h.serve hone (fun hgrant hcall => ?_) (fun call hcall hstable o ho => ?_)
      fun _ d o hleased => ?_
    · have hnone := h.unowned hgrant hcall
      rw [Option.eq_none_iff_forall_ne_some]
      intro o ho
      rw [howned o ho] at hnone
      cases hnone
    · exact (h.attached call hcall o (howned o ho)).owned htable htable' hcommitted hstable
        (howned o ho) ho
    · rw [World.step,World.allocationEnds,hleased] at hone
      cases hone
  | acquired hthread hresume => exact h.acquire hlawful hthread hresume
  | refused hthread hresume =>
    refine h.reply hlawful hresume rfl fun _ => ?_
    rw [hthread]
    rfl
  | replied hcall howning hresume =>
    exact h.reply hlawful hresume howning fun hgrant => h.unowned hgrant hcall
  | released hone hresume =>
    refine h.letGo hlawful hone hresume rfl (fun lease heq => ?_) (complete_owned hone)
      fun _ d o hthread => ?_
    · cases heq
    · exact complete_retires htable hthread hone
  | leaving hleaves hone =>
    refine h.serve hone (fun _ _ => leave_owned hone) (fun call hcall hstable o ho => ?_)
      fun hholds => absurd hholds (hlawful.leaves hleaves)
    rw [leave_owned hone] at ho
    cases ho
  | left hone hresume =>
    refine h.letGo hlawful hone hresume rfl (fun lease heq => ?_) (drop_owned hone) fun heq => ?_
    · cases heq
    · cases heq

/-- Every step of a worker with one of its handlers keeps them in agreement. -/
theorem Sound.step (h : Sound handler textDigest t before holds commits s)
    (hlawful : Lawful handler before holds commits) {a : SiteAction D}
    (hone : s.step handler textDigest sizes t a=some s') :
    Sound handler textDigest t before holds commits s' :=
  h.transition hlawful (step_transition hlawful hone)

/-- What a lease says of the call it was acquired by. -/
structure Granted (a : Acquisition) (lease : Lease) : Prop where
  named : a.requestId≠""
  id : lease.identity.requestId=a.requestId
  tokens : lease.identity.maximumTokens=UInt64.ofNat a.tokens
  query : lease.maximumQueryTokens=
    (queryRows (UInt64.ofNat a.tokens) (UInt64.ofNat a.prefillChunkTokens)).toNat
  deploymentId : lease.identity.deploymentId=a.deploymentId
  deploymentVersion : lease.identity.deploymentVersion=a.deploymentVersion
  identified : a.deploymentId≠"" ∧ a.deploymentVersion≠0

/-- The lease on a request is one on what was asked for. -/
theorem granted_leaseOf {a : Acquisition} {w : World} {d o : ℕ} (h : ReservedFor a w o)
    (hidentified : Identified w.toControl) (hd : w.deployment=some d) :
    Granted a (leaseOf sizes w d o) := by
  obtain ⟨d',hd',hplan,hversion,-⟩ := h.deployment
  rw [hd,Option.some.injEq] at hd'
  subst hd'
  obtain ⟨hnamed,hpositive⟩ := hidentified d hd
  refine ⟨h.named,h.id,h.tokens,congrArg UInt64.toNat h.query,hplan,?_,hplan ▸ hnamed,
    fun hzero => ?_⟩
  · rw [leaseOf]
    simp only [hversion,UInt64.ofNat_toNat]
  · rw [hversion,hzero] at hpositive
    exact hpositive rfl

/-- A lease that was taken stays. -/
theorem Sound.grant_lasts (h : Sound handler textDigest t before holds commits s)
    (hlawful : Lawful handler before holds commits)
    (hone : Transition handler textDigest sizes t s s') {grant : ℕ×Lease}
    (hgrant : s.grant=some grant) : s'.grant=some grant := by
  cases hone with
  | acquired hthread hresume =>
    obtain ⟨⟨a,hcall⟩,-⟩ := hlawful.acquired hresume
    rw [h.fresh (hlawful.asks_before hcall)] at hgrant
    cases hgrant
  | _ => exact hgrant

/-- Every step of a worker with one of its handlers keeps what its worker keeps. -/
theorem Sound.stable (h : Sound handler textDigest t before holds commits s)
    (hone : Transition handler textDigest sizes t s s') : Stable s.world s'.world := by
  cases hone with
  | served hone hmoved => exact Stable.step h.reachable hone
  | called hcall hone => exact Stable.step h.reachable hone
  | allocated hone => exact Stable.step h.reachable hone
  | released hone hresume => exact Stable.step h.reachable hone
  | leaving hleaves hone => exact Stable.step h.reachable hone
  | left hone hresume => exact Stable.step h.reachable hone
  | acquired hthread hresume => exact .refl _
  | refused hthread hresume => exact .refl _
  | replied hcall howning hresume => exact .refl _

/-- Replies of reads and writes. -/
def streams : Reply D → Bool
  | .written _ => true
  | .read _ => true
  | _ => false

/-- The reply of `check_running` is none of a read or a write. -/
theorem streams_runningReply (r : ActiveRequest) (disconnected : Bool) (now : ℕ) :
    streams (runningReply r disconnected now : Reply D)=false := by
  unfold runningReply
  split
  · rfl
  · rfl

/-- What resumes a handler in a step: the reply of the call that returns.
Messages are read and written in calls of their own. -/
structure Resumed (handler : Handler D H) (sizes : ℕ → BackendSizes) (t : ℕ) (s s' : Site H)
    (a : SiteAction D) (reply : Reply D) : Prop where
  resumes : handler.resume s.handler reply=some s'.handler
  replied : s.reply sizes t a=some reply ∨ ∃ expired cancelled,reply=.left expired cancelled
  called : ∀ reply',a=.call reply' → reply'=reply
  streamed : streams reply=true → a=.call reply

/-- A step leaves the handler alone or resumes it with the reply of a call. -/
theorem step_resumes {a : SiteAction D} (hone : s.step handler textDigest sizes t a=some s') :
    s'.handler=s.handler ∧ (∀ reply,a≠.call reply) ∨
      ∃ reply,Resumed handler sizes t s s' a reply := by
  have hother : ∀ {reply : Reply D} {w : World} {grant : Option (ℕ×Lease)},
      s.goesOn handler w grant reply=some s' → s.reply sizes t a=some reply →
      (∀ reply',a≠.call reply') → streams reply=false →
      ∃ reply,Resumed handler sizes t s s' a reply := by
    intro reply w grant hrest hreply hcall hstream
    obtain ⟨h,hresume,rfl⟩ := goesOn_some hrest
    refine ⟨reply,hresume,.inl hreply,fun reply' heq => absurd heq (hcall reply'),
      fun htrue => ?_⟩
    rw [hstream] at htrue
    cases htrue
  cases a with
  | control a =>
    rw [Site.step] at hone
    split at hone
    · cases hone
    · obtain ⟨w,-,rfl⟩ := alone_some hone
      exact .inl ⟨rfl,fun reply heq => by cases heq⟩
  | acquire readings now =>
    obtain ⟨call,-,hrest⟩ := Option.bind_eq_some_iff.mp hone
    obtain ⟨w,-,rfl⟩ := alone_some hrest
    exact .inl ⟨rfl,fun reply heq => by cases heq⟩
  | allocated answer now recheck =>
    obtain ⟨w,-,rfl⟩ := alone_some hone
    exact .inl ⟨rfl,fun reply heq => by cases heq⟩
  | acquired =>
    rw [Site.step] at hone
    split at hone
    · rename_i d o hthread
      refine .inr (hother hone ?_ (fun reply heq => by cases heq) rfl)
      rw [Site.reply,hthread]
    · cases hone
  | refused error =>
    rw [Site.step] at hone
    split at hone
    · exact .inr (hother hone rfl (fun reply heq => by cases heq) rfl)
    · cases hone
  | check disconnected now =>
    rw [Site.step] at hone
    split at hone
    · obtain ⟨grant,hgrant,hrest⟩ := Option.bind_eq_some_iff.mp hone
      refine .inr (hother hrest ?_ (fun reply heq => by cases heq) (streams_runningReply _ _ _))
      rw [Site.reply,hgrant]
      rfl
    · cases hone
  | release now =>
    obtain ⟨w,h,-,hresume,rfl⟩ := together_some hone
    exact .inr ⟨_,hresume,.inl rfl,(fun reply heq => by cases heq),fun htrue => by cases htrue⟩
  | leave disconnected now recheck =>
    rw [Site.step] at hone
    split at hone
    · obtain ⟨w,-,rfl⟩ := alone_some hone
      exact .inl ⟨rfl,fun reply heq => by cases heq⟩
    · cases hone
  | drop clock =>
    obtain ⟨grant,-,hrest⟩ := Option.bind_eq_some_iff.mp hone
    obtain ⟨w,h,-,hresume,rfl⟩ := together_some hrest
    exact .inr ⟨_,hresume,.inr ⟨_,_,rfl⟩,(fun reply heq => by cases heq),
      fun htrue => by cases htrue⟩
  | call reply =>
    rw [Site.step] at hone
    split at hone
    · obtain ⟨h,hresume,rfl⟩ := goesOn_some hone
      refine .inr ⟨reply,hresume,.inl rfl,fun reply' heq => ?_,fun _ => rfl⟩
      cases heq
      rfl
    · cases hone

/-- A lease that resumes a handler is one on what it asked for. -/
theorem Sound.granted (h : Sound handler textDigest t before holds commits s)
    (hlawful : Lawful handler before holds commits) {a : SiteAction D} {lease : Lease}
    (hone : s.step handler textDigest sizes t a=some s')
    (hresumed : Resumed handler sizes t s s' a (.acquired lease)) :
    ∃ call,handler.acquisition s.handler=some call ∧ Granted call lease := by
  rcases hresumed.replied with hreply|⟨expired,cancelled,heq⟩
  · cases a with
    | acquired =>
      rw [Site.reply] at hreply
      split at hreply
      · rename_i d o hthread
        cases hreply
        obtain ⟨⟨call,hcall⟩,-⟩ := hlawful.acquired hresumed.resumes
        have ho : owned (s.world.thread t)=some o := by
          rw [hthread]
          rfl
        have hleased := (table_reachable h.reachable).leasedThread t (some d) o hthread
        exact ⟨call,hcall,granted_leaseOf (h.attached call hcall o ho)
          (identified_reachable h.reachable) hleased.2.2.2.symm⟩
      · cases hreply
    | check disconnected now =>
      obtain ⟨grant,-,heq⟩ := Option.map_eq_some_iff.mp hreply
      unfold runningReply at heq
      split at heq <;> cases heq
    | call reply =>
      rw [Site.step] at hone
      split at hone
      · rename_i hcall
        cases hreply
        cases hcall.1
      · cases hone
    | _ => cases hreply
  · cases heq

end Steps

end Hllm.HandlerSites
