import Hllm.PlanValidation
import Hllm.RunInvariants
import Mathlib.Tactic.Simps.Basic

/-!
# The worker's control service as a step machine

`ControlService` with its RPCs, its reaper and the threads that reserve and
execute requests. Request and deployment objects are shared, so they live in
heaps and the table of active requests refers to them by number. A step is
one critical section of the control mutex. `reserve` releases the mutex to
allocate, so its two halves are two steps. System clock readings, backend
answers and client cancellations come with the action. The steady clock is
a state field that never goes back. Fields marked ghost are read by no
modelled function.
-/

namespace Hllm.ControlModel

open MemoryAccounting PlanValidation WireMessages RunInvariants

/-- Configuration of a worker, as far as the control service reads it. -/
structure WorkerConfig where
  /-- Identity checked against the plan. -/
  workerId : String
  /-- Memory budgets of the four domains. -/
  capacity : MemoryAmounts
  /-- Most reservations held at once. -/
  maximumActiveRequests : ℕ
  /-- Decode batch size given to the scheduler. -/
  maximumDecodeBatch : ℕ
  /-- Most tokens reserved at once, or zero for no such limit. -/
  maximumCachedTokens : UInt64
  /-- Whether the lifecycle log is kept. -/
  requestObservations : Bool

/-- The part of a loaded stage that admission reads. Amounts are arbitrary
words whose pinned part lies in their host part. -/
structure StageBackend where
  /-- Resident weights, fixed while loaded. -/
  weightMemory : MemoryAmounts
  /-- Reservation for total tokens and query rows, or the error thrown. -/
  sequenceMemory : UInt64 → UInt64 → Except Error SequenceMemory
  /-- Whether one pass may serve several decodes. -/
  supportsDecodeBatch : Bool
  /-- Pinned weights are host weights. -/
  weightPinned : weightMemory.PinnedInHost
  /-- Pinned request memory is host memory. -/
  sequencePinned : ∀ tokens rows memory,sequenceMemory tokens rows=.ok memory →
    memory.cache.PinnedInHost ∧ memory.workspace.PinnedInHost

/-- A loaded stage. -/
structure LoadedDeployment where
  /-- The request it was loaded from. -/
  spec : LoadStageRequest
  /-- Its executable stage. -/
  backend : StageBackend

/-- Why a request was asked to stop. -/
inductive StopCause
  | none
  | cancelled
  | expired
  deriving DecidableEq,Repr

/-- How the execution owner finished with a request. -/
inductive RequestOutcome
  | completed
  | failed
  deriving DecidableEq,Repr

/-- A reservation. -/
structure ActiveRequest where
  /-- Request id. -/
  id : String
  /-- Reserved total tokens. -/
  maximumTokens : UInt64
  /-- Most query rows of one prefill input. -/
  maximumQueryTokens : UInt64
  /-- Deadline on the system clock. -/
  deadline : ℕ
  /-- Reserved memory. -/
  memory : SequenceMemory
  /-- Admission time on the steady clock. -/
  admitted : ℕ
  /-- Whether the sequence pointer is set. -/
  sequence : Bool
  /-- Flag polled by compute. -/
  cancelled : Bool
  /-- First recorded reason to stop. -/
  stopCause : StopCause
  /-- The sequence is being allocated. -/
  allocating : Bool
  /-- The request has an execution owner. -/
  running : Bool
  /-- Ghost: deployment it was admitted under. -/
  admittedUnder : ℕ

/-- `ActiveRequest::stop`: the first cause wins. -/
def ActiveRequest.stop (r : ActiveRequest) (cause : StopCause) : ActiveRequest :=
  {r with
    stopCause := if r.stopCause=.none then cause else r.stopCause
    cancelled := true}

/-- Kinds of lifecycle events. -/
inductive LifecycleKind
  | admitted
  | retired
  deriving DecidableEq,Repr

/-- One entry of the lifecycle log. -/
structure LifecycleEvent where
  kind : LifecycleKind
  requestId : String
  sequence : ℕ
  atMonotonicNs : ℕ
  concurrentRequestIds : List String
  reason : String

/-- Retained lifecycle events. -/
def kLifecycleHistory : ℕ := 256

/-- The state guarded by the control mutex. -/
structure Control where
  /-- Fixed configuration. -/
  config : WorkerConfig
  /-- Fixed capabilities of the backend factory. -/
  capabilities : BackendCapabilities
  /-- The loaded deployment, by number. -/
  deployment : Option ℕ
  /-- Deployment objects. -/
  loaded : ℕ → LoadedDeployment
  /-- Deployments created so far. -/
  deployments : ℕ
  /-- Table of reservations in key order. -/
  active : List (String×ℕ)
  /-- Request objects. -/
  object : ℕ → ActiveRequest
  /-- Request objects created so far. -/
  objects : ℕ
  /-- Retained lifecycle log. -/
  lifecycle : List LifecycleEvent
  /-- Lifecycle events so far. -/
  lifecycleTotal : ℕ
  /-- Largest number of allocated reservations seen. -/
  peakConcurrentRequests : ℕ
  /-- Steady clock. -/
  steady : ℕ
  /-- Ghost: objects retired so far and the reasons. -/
  retired : List (ℕ×String)
  /-- Ghost: every lifecycle event recorded so far. -/
  history : List LifecycleEvent

/-- Replace one request object. -/
@[simps]
def Control.withObject (c : Control) (o : ℕ) (r : ActiveRequest) : Control :=
  {c with object := Function.update c.object o r}

/-- `record_lifecycle` -/
def Control.recordLifecycle (c : Control) (kind : LifecycleKind) (id reason : String) : Control :=
  if c.config.requestObservations then
    let concurrent := c.active.filter fun entry => entry.1≠id && !(c.object entry.2).allocating
    let event := ⟨kind,id,c.lifecycleTotal+1,c.steady,concurrent.map Prod.fst,reason⟩
    {c with
      lifecycle := (c.lifecycle++[event]).drop (c.lifecycle.length+1-kLifecycleHistory)
      lifecycleTotal := c.lifecycleTotal+1
      history := c.history++[event]}
  else c

/-- `active_.find` -/
def Control.find (c : Control) (id : String) : Option ℕ := c.active.lookup id

/-- `active_.erase`, with the ghost record of the retirement. -/
@[simps]
def Control.erase (c : Control) (id : String) (o : ℕ) (reason : String) : Control :=
  {c with
    active := c.active.filter fun entry => entry.1≠id
    retired := c.retired++[(o,reason)]}

/-- `retire`: erase the entry, then record why. -/
def Control.retire (c : Control) (id : String) (o : ℕ) (reason : String) : Control :=
  (c.erase id o reason).recordLifecycle .retired id reason

/-- One visit of `prune_expired`: an entry past its deadline is stopped, and
retired unless it has an owner or is being allocated. -/
def Control.pruneEntry (readings : String → ℕ) (c : Control) (entry : String×ℕ) : Control :=
  if (c.object entry.2).deadline ≤ readings entry.1 then
    let stopped := c.withObject entry.2 ((c.object entry.2).stop .expired)
    if !(c.object entry.2).running && !(c.object entry.2).allocating then
      stopped.retire entry.1 entry.2 "expired"
    else stopped
  else c

/-- `prune_expired`. The clock is read once for each entry. -/
def Control.pruneExpired (c : Control) (readings : String → ℕ) : Control :=
  c.active.foldl (Control.pruneEntry readings) c

/-- The loaded deployment, if `deployment_matches`. -/
def Control.matching (c : Control) (planId : String) (version : ℕ) : Option ℕ :=
  c.deployment.filter fun d =>
    ((c.loaded d).spec.plan.getD default).planId==planId &&
      ((c.loaded d).spec.plan.getD default).deploymentVersion==version

/-- Wire error codes the service sends. -/
inductive WireCode
  | invalidRequest
  | incompatibleWorker
  | staleDeployment
  | resourceExhausted
  | deadlineExceeded
  | cancelled
  | backendError
  deriving DecidableEq,Repr

/-- `wire_code` -/
def wireCode : ErrorCode → WireCode
  | .invalidRequest => .invalidRequest
  | .incompatibleWorker => .incompatibleWorker
  | .resourceExhausted => .resourceExhausted
  | .deadlineExceeded => .deadlineExceeded
  | .cancelled => .cancelled
  | .internal => .backendError

/-- `LoadStageResponse` and `ReserveResponse`. -/
structure Response where
  accepted : Bool
  detail : String
  error : Option WireCode

/-- `reject` -/
def rejected (code : WireCode) (detail : String) : Response := ⟨false,detail,some code⟩

/-- What escapes from a backend call. -/
inductive Failure
  /-- A categorized error. -/
  | runtime (error : Error)
  /-- `std::bad_alloc` -/
  | badAlloc
  /-- Any other exception. -/
  | other (message : String)

/-- The response to a failure. -/
def Failure.response (allocation : String) : Failure → Response
  | .runtime error => rejected (wireCode error.code) error.message
  | .badAlloc => rejected .resourceExhausted allocation
  | .other message => rejected .backendError message

/-- Checks `LoadStage` makes before it calls the backend factory: the plan,
and the batch size in `StageScheduler::configure`. -/
def Control.beforeLoad (c : Control) (textDigest : String → String) (request : LoadStageRequest) :
    Except Error Unit := do
  validatePlan textDigest request c.config.workerId c.capabilities
  if c.config.maximumDecodeBatch=0 ∨ 8 < c.config.maximumDecodeBatch then
    .error ⟨.invalidRequest,"decode batch size must be between 1 and 8"⟩

/-- The state after a stage was loaded. -/
@[simps]
def Control.install (c : Control) (request : LoadStageRequest) (backend : StageBackend) : Control :=
  {c with
    deployment := some c.deployments
    loaded := Function.update c.loaded c.deployments ⟨request,backend⟩
    deployments := c.deployments+1}

/-- `LoadStage` after pruning. The answer is what the factory returns or throws. -/
def Control.load (c : Control) (textDigest : String → String) (request : LoadStageRequest)
    (answer : Except Failure (Option StageBackend)) : Control×Response :=
  match c.deployment with
  | some d =>
    if (c.loaded d).spec=request then (c,⟨true,"executable stage already loaded",none⟩)
    else (c,rejected .staleDeployment "unload the existing deployment first")
  | none =>
    match c.beforeLoad textDigest request,answer with
    | .error error,_ => (c,Failure.response "weight allocation failed" (.runtime error))
    | .ok (),.error failure => (c,failure.response "weight allocation failed")
    | .ok (),.ok none => (c,rejected .backendError "backend factory returned no stage")
    | .ok (),.ok (some backend) =>
      match requireMemory backend.weightMemory c.config.capacity with
      | .error error => (c,Failure.response "weight allocation failed" (.runtime error))
      | .ok () => (c.install request backend,⟨true,"executable stage loaded",none⟩)

/-- `query_rows` -/
def queryRows (tokens maximumQueryTokens : UInt64) : UInt64 :=
  if maximumQueryTokens=0 ∨ tokens < maximumQueryTokens then tokens else maximumQueryTokens

/-- Nanoseconds in a millisecond. -/
def millisecond : ℕ := 1000000

/-- The deadline `reserve` computes from the wire field and one clock reading. -/
def requestDeadline (deadlineMs now : ℕ) : Except Error ℕ :=
  if deadlineMs=0 then .ok (now+60000*millisecond)
  else if deadlineMs ≤ now/millisecond then
    .error ⟨.deadlineExceeded,"request deadline already expired"⟩
  else if 3600000 < deadlineMs-now/millisecond then
    .error ⟨.invalidRequest,"deadline exceeds one hour"⟩
  else .ok (deadlineMs*millisecond)

/-- `pass_rows` for the given loaded deployment. -/
def Control.passRows (c : Control) (d : ℕ) : ℕ :=
  if (c.loaded d).backend.supportsDecodeBatch then c.config.maximumDecodeBatch else 1

/-- The loop of `reserve` over the table: caches, workspaces and tokens. -/
def accumulate (object : ℕ → ActiveRequest) : List (String×ℕ) → MemoryAmounts →
    List MemoryAmounts → UInt64 → Except Error (MemoryAmounts×List MemoryAmounts×UInt64)
  | [],cache,workspaces,tokens => .ok (cache,workspaces,tokens)
  | entry::entries,cache,workspaces,tokens => do
    let cache ← addMemory cache (object entry.2).memory.cache
    let workspaces := workspaces++[(object entry.2).memory.workspace]
    let tokens ← checkedAdd tokens (object entry.2).maximumTokens
    accumulate object entries cache workspaces tokens

/-- The memory check of `reserve`. -/
def memoryCheck (weights cache : MemoryAmounts) (workspaces : List MemoryAmounts) (rows : ℕ)
    (capacity : MemoryAmounts) : Except Error Unit := do
  let workspace ← largestWorkspaces workspaces rows
  let requested ← addMemory cache workspace
  let used ← addMemory weights requested
  requireMemory used capacity

/-- All capacity checks of `reserve` for an id that is not in the table. -/
def Control.admission (c : Control) (d : ℕ) (tokens queryTokens : UInt64) :
    Except Error SequenceMemory := do
  if c.config.maximumActiveRequests ≤ c.active.length then
    .error ⟨.resourceExhausted,"worker active request limit reached"⟩
  let memory ← (c.loaded d).backend.sequenceMemory tokens queryTokens
  let (cache,workspaces,cachedTokens) ←
    accumulate c.object c.active memory.cache [memory.workspace] tokens
  if c.config.maximumCachedTokens≠0 ∧ c.config.maximumCachedTokens < cachedTokens then
    .error ⟨.resourceExhausted,"worker cached token limit reached"⟩
  memoryCheck (c.loaded d).backend.weightMemory cache workspaces (c.passRows d) c.config.capacity
  pure memory

/-- Insert into the table in key order. -/
def insertEntry (entry : String×ℕ) (active : List (String×ℕ)) : List (String×ℕ) :=
  active.orderedInsert (fun a b => a.1 ≤ b.1) entry

/-- A freshly admitted reservation, still without its sequence. -/
def freshRequest (c : Control) (d : ℕ) (id : String) (tokens queryTokens : UInt64) (deadline : ℕ)
    (memory : SequenceMemory) : ActiveRequest where
  id := id
  maximumTokens := tokens
  maximumQueryTokens := queryTokens
  deadline := deadline
  memory := memory
  admitted := c.steady
  sequence := false
  cancelled := false
  stopCause := .none
  allocating := true
  running := false
  admittedUnder := d

/-- Put a new reservation into the table. -/
@[simps]
def Control.emplace (c : Control) (r : ActiveRequest) : Control :=
  {c with
    active := insertEntry (r.id,c.objects) c.active
    object := Function.update c.object c.objects r
    objects := c.objects+1}

/-- The result of the first half of `reserve`. -/
inductive Reserved
  /-- A retry found this reservation. -/
  | existing (object : ℕ)
  /-- This reservation was admitted and must be allocated. -/
  | admitted (object : ℕ)

/-- A retry of a reservation that is in the table. -/
def Control.retry (c : Control) (o : ℕ) (tokens queryTokens : UInt64) (deadline : ℕ) :
    Control×Except Error Reserved :=
  let existing := c.object o
  if existing.allocating then
    (c,.error ⟨.resourceExhausted,"request allocation is in progress"⟩)
  else if existing.maximumTokens≠tokens ∨ existing.maximumQueryTokens≠queryTokens ∨
      existing.cancelled then
    (c,.error ⟨.invalidRequest,"conflicting request reservation retry"⟩)
  else if existing.running then (c,.ok (.existing o))
  else (c.withObject o {existing with deadline := min existing.deadline deadline},.ok (.existing o))

/-- Admission of a new reservation. -/
def Control.enroll (c : Control) (d : ℕ) (id : String) (tokens queryTokens : UInt64)
    (deadline : ℕ) : Control×Except Error Reserved :=
  match c.admission d tokens queryTokens with
  | .error error => (c,.error error)
  | .ok memory =>
    ((c.emplace (freshRequest c d id tokens queryTokens deadline memory)).recordLifecycle
      .admitted id "",.ok (.admitted c.objects))

/-- The first half of `reserve`, up to the release of the mutex. -/
def Control.reserve (c : Control) (d : ℕ) (id : String) (tokens prefillChunkTokens : UInt64)
    (deadlineMs : ℕ) (readings : String → ℕ) (now : ℕ) : Control×Except Error Reserved :=
  let c := c.pruneExpired readings
  if id="" ∨ 256 < id.utf8ByteSize then (c,.error ⟨.invalidRequest,"invalid request ID"⟩)
  else match requestDeadline deadlineMs now with
    | .error error => (c,.error error)
    | .ok deadline =>
      let queryTokens := queryRows tokens prefillChunkTokens
      match c.find id with
      | some o => c.retry o tokens queryTokens deadline
      | none => c.enroll d id tokens queryTokens deadline

/-- What `allocate_sequence` did. -/
inductive Allocation
  /-- A sequence state was returned. -/
  | sequence
  /-- A null pointer was returned. -/
  | null
  /-- It threw. -/
  | failed (failure : Failure)

/-- Reservations whose sequence is allocated. -/
def Control.allocatedCount (c : Control) : ℕ :=
  (c.active.filter fun entry => !(c.object entry.2).allocating).length

/-- The sequence pointer is set and the allocation is over. -/
@[simps!]
def Control.finishAllocation (c : Control) (o : ℕ) : Control :=
  c.withObject o {c.object o with sequence := true, allocating := false}

/-- A finished allocation is kept and counted. -/
@[simps!]
def Control.keepAllocation (c : Control) (o : ℕ) : Control :=
  let c := c.finishAllocation o
  {c with peakConcurrentRequests := max c.peakConcurrentRequests c.allocatedCount}

/-- Retire whatever the id names, if anything. -/
def Control.retireFound (c : Control) (id reason : String) : Control :=
  match c.find id with
  | some o => c.retire id o reason
  | none => c

/-- The second half of `reserve`, after the mutex was taken again. -/
def Control.allocated (c : Control) (o : ℕ) (answer : Allocation) (now recheck : ℕ) :
    Control×Except Failure Unit :=
  match answer with
  | .null => (c.retireFound (c.object o).id "allocation-failed",
      .error (.runtime ⟨.internal,"backend returned no sequence state"⟩))
  | .failed failure => (c.retireFound (c.object o).id "allocation-failed",.error failure)
  | .sequence =>
    if (c.object o).cancelled || decide ((c.object o).deadline ≤ now) then
      let expired := decide ((c.object o).deadline ≤ recheck)
      ((c.finishAllocation o).retireFound (c.object o).id
          (if expired then "expired" else "cancelled"),
        .error (.runtime (if expired then
            ⟨.deadlineExceeded,"reservation expired during allocation"⟩
          else ⟨.cancelled,"reservation cancelled during allocation"⟩)))
    else (c.keepAllocation o,.ok ())

/-- A request gets its execution owner. -/
@[simps!]
def Control.own (c : Control) (o : ℕ) : Control :=
  c.withObject o {c.object o with running := true}

/-- The end of `acquire`: the first caller becomes the execution owner. -/
def Control.claim (c : Control) (o : ℕ) : Except Error Control :=
  if (c.object o).running then .error ⟨.resourceExhausted,"request already executing"⟩
  else .ok (c.own o)

/-- The reason `release` records. -/
def releaseReason (r : ActiveRequest) (outcome : RequestOutcome) (now : ℕ) : String :=
  match outcome with
  | .completed => "completed"
  | .failed =>
    if r.stopCause=.cancelled then "cancelled"
    else if r.stopCause=.expired ∨ r.deadline ≤ now then "expired"
    else "failed"

/-- `release`: only the very object in the table is reset and retired. -/
def Control.release (c : Control) (o : ℕ) (outcome : RequestOutcome) (now : ℕ) : Control :=
  if c.find (c.object o).id=some o then
    (c.withObject o {c.object o with sequence := false}).retire (c.object o).id o
      (releaseReason (c.object o) outcome now)
  else c

/-- `CancelRequest` -/
def Control.cancelRequest (c : Control) (planId : String) (version : ℕ) (id : String) :
    Control×Except String Unit :=
  match c.matching planId version with
  | none => (c,.error "stale deployment")
  | some _ =>
    match c.find id with
    | none => (c,.ok ())
    | some o =>
      let stopped := c.withObject o ((c.object o).stop .cancelled)
      if !(c.object o).running && !(c.object o).allocating then
        (stopped.retire id o "cancelled",.ok ())
      else (stopped,.ok ())

/-- `UnloadStage` after pruning. -/
def Control.unload (c : Control) (planId : String) (version : ℕ) : Control×Except String Unit :=
  match c.deployment with
  | none => (c,.ok ())
  | some _ =>
    match c.matching planId version with
    | none => (c,.error "stale deployment")
    | some _ =>
      if c.active=[] then ({c with deployment := none},.ok ())
      else (c,.error "deployment has an active request")

/-- Program point of a thread that reserves or executes. -/
inductive Thread
  /-- Not started. -/
  | idle
  /-- Inside `reserve` without the mutex, for `acquire` or `ReserveRequest`.
  The thread keeps the deployment alive. -/
  | allocating (object deployment : ℕ) (claims : Bool)
  /-- A handler with an execution lease. -/
  | leased (deployment : Option ℕ) (object : ℕ)
  /-- A handler that has released its request as completed and still holds
  the lease while it writes its last messages. -/
  | released (deployment : Option ℕ) (object : ℕ)
  /-- A handler whose guard has released the request and still holds the lease. -/
  | dropping (deployment : Option ℕ) (object : ℕ)
  /-- Returned. -/
  | ended
  deriving DecidableEq

/-- The control service with its threads. -/
structure World extends Control where
  /-- Program point of each thread. -/
  thread : ℕ → Thread
  /-- Ghost: objects for which leases were granted, oldest first. -/
  granted : List ℕ

/-- Move a thread after a critical section. -/
@[simps toControl thread granted]
def World.goto (w : World) (c : Control) (t : ℕ) (thread : Thread) : World where
  toControl := c
  thread := Function.update w.thread t thread
  granted := w.granted

/-- A critical section that moves no thread. -/
@[simps toControl thread granted]
def World.within (w : World) (c : Control) : World where
  toControl := c
  thread := w.thread
  granted := w.granted

/-- A handler gets its lease. -/
@[simps toControl thread granted]
def World.grant (w : World) (c : Control) (t o : ℕ) : World where
  toControl := c
  thread := Function.update w.thread t (.leased c.deployment o)
  granted := w.granted++[o]

/-- Try to make the thread the execution owner. -/
def World.claim (w : World) (c : Control) (t o : ℕ) : World :=
  match c.claim o with
  | .error _ => w.goto c t .ended
  | .ok c => w.grant c t o

/-- The fields of a reserving call. -/
structure ReserveCall where
  planId : String
  version : ℕ
  requestId : String
  tokens : UInt64
  prefillChunkTokens : UInt64
  deadlineMs : ℕ

/-- `ReserveRequest` (not claiming) or `acquire` (claiming, for one stage),
up to its return or its allocation. -/
def World.reserveCall (w : World) (t : ℕ) (call : ReserveCall) (stage : Option ℕ)
    (readings : String → ℕ) (now : ℕ) : Option World :=
  match w.thread t with
  | .idle =>
    match w.matching call.planId call.version with
    | none => some (w.goto w.toControl t .ended)
    | some d =>
      if stage.any fun required => (w.loaded d).spec.stageIndex≠required then
        some (w.goto w.toControl t .ended)
      else
        match w.reserve d call.requestId call.tokens call.prefillChunkTokens call.deadlineMs
          readings now with
        | (c,.error _) => some (w.goto c t .ended)
        | (c,.ok (.admitted o)) => some (w.goto c t (.allocating o d stage.isSome))
        | (c,.ok (.existing o)) =>
          if stage.isSome then some (w.claim c t o) else some (w.goto c t .ended)
  | _ => none

/-- The allocation of a thread ends. -/
def World.allocationEnds (w : World) (t : ℕ) (answer : Allocation) (now recheck : ℕ) :
    Option World :=
  match w.thread t with
  | .allocating o _ claims =>
    match w.allocated o answer now recheck with
    | (c,.error _) => some (w.goto c t .ended)
    | (c,.ok ()) => if claims then some (w.claim c t o) else some (w.goto c t .ended)
  | _ => none

/-- A handler releases its request as completed. -/
def World.complete (w : World) (t now : ℕ) : Option World :=
  match w.thread t with
  | .leased d o => some (w.goto (w.release o .completed now) t (.released d o))
  | _ => none

/-- The body of `~RequestGuard`: a client disconnect is recorded, then the
request is released as failed, which changes nothing after a completed release.
The lease is a member of the guard and is still held. -/
def World.leave (w : World) (t : ℕ) (disconnected : Bool) (now recheck : ℕ) : Option World :=
  let destroy (d : Option ℕ) (o : ℕ) : World :=
    let c := if disconnected then
        w.withObject o ((w.object o).stop
          (if (w.object o).deadline ≤ now then .expired else .cancelled))
      else w.toControl
    w.goto (c.release o .failed recheck) t (.dropping d o)
  match w.thread t with
  | .leased d o => some (destroy d o)
  | .released d o => some (destroy d o)
  | _ => none

/-- The members of a guard are destroyed after its body, the lease among them. -/
def World.drop (w : World) (t : ℕ) : Option World :=
  match w.thread t with
  | .dropping _ _ => some (w.goto w.toControl t .ended)
  | _ => none

/-- A handler's watchdog finds its request cancelled, disconnected or expired. -/
def World.watch (w : World) (t : ℕ) (disconnected : Bool) (now recheck : ℕ) : Option World :=
  match w.thread t with
  | .leased _ o =>
    if (w.object o).cancelled || disconnected || decide ((w.object o).deadline ≤ now) then
      some (w.within (w.withObject o ((w.object o).stop
        (if (w.object o).deadline ≤ recheck then .expired else .cancelled))))
    else none
  | _ => none

/-- Steps of the control service and its threads. -/
inductive Action
  /-- `LoadStage` with the factory's answer. -/
  | loadStage (request : LoadStageRequest) (readings : String → ℕ)
      (answer : Except Failure (Option StageBackend))
  /-- `UnloadStage` -/
  | unloadStage (planId : String) (version : ℕ) (readings : String → ℕ)
  /-- `ReserveRequest` up to its return or allocation. -/
  | reserveRequest (thread : ℕ) (call : ReserveCall) (readings : String → ℕ) (now : ℕ)
  /-- `acquire` for a stage up to its return or allocation. -/
  | acquire (thread : ℕ) (call : ReserveCall) (stage : ℕ) (readings : String → ℕ) (now : ℕ)
  /-- An allocation ends, with or without a sequence. -/
  | allocationEnds (thread : ℕ) (answer : Allocation) (now recheck : ℕ)
  /-- `CancelRequest` -/
  | cancelRequest (planId : String) (version : ℕ) (id : String)
  /-- The reaper or `GetMemoryReport` prunes. -/
  | prune (readings : String → ℕ)
  /-- `release` as completed. -/
  | complete (thread now : ℕ)
  /-- A handler leaves and its guard releases as failed. -/
  | leave (thread : ℕ) (disconnected : Bool) (now recheck : ℕ)
  /-- The guard's lease is given back. -/
  | drop (thread : ℕ)
  /-- A watchdog stops its request. -/
  | watch (thread : ℕ) (disconnected : Bool) (now recheck : ℕ)
  /-- Steady time passes. -/
  | tick (elapsed : ℕ)

/-- The step function of the control service. -/
def World.step (textDigest : String → String) (w : World) : Action → Option World
  | .loadStage request readings answer =>
    some (w.within ((w.pruneExpired readings).load textDigest request answer).1)
  | .unloadStage planId version readings =>
    some (w.within ((w.pruneExpired readings).unload planId version).1)
  | .reserveRequest t call readings now => w.reserveCall t call none readings now
  | .acquire t call stage readings now => w.reserveCall t call (some stage) readings now
  | .allocationEnds t answer now recheck => w.allocationEnds t answer now recheck
  | .cancelRequest planId version id => some (w.within (w.cancelRequest planId version id).1)
  | .prune readings => some (w.within (w.pruneExpired readings))
  | .complete t now => w.complete t now
  | .leave t disconnected now recheck => w.leave t disconnected now recheck
  | .drop t => w.drop t
  | .watch t disconnected now recheck => w.watch t disconnected now recheck
  | .tick elapsed => some (w.within {w.toControl with steady := w.steady+elapsed})

/-- Budget and limit checks of the constructor. -/
def WorkerConfig.Valid (config : WorkerConfig) : Prop :=
  config.capacity.PinnedInHost ∧
  config.capacity.total .host+config.capacity.total .device+config.capacity.total .unified<2^64 ∧
  1 ≤ config.maximumActiveRequests ∧ config.maximumActiveRequests≤64

/-- A freshly constructed service. The blanks fill heap cells never written. -/
def World.start (config : WorkerConfig) (capabilities : BackendCapabilities)
    (blank : ActiveRequest) (empty : LoadedDeployment) : World where
  config := config
  capabilities := capabilities
  deployment := none
  loaded := fun _ => empty
  deployments := 0
  active := []
  object := fun _ => blank
  objects := 0
  lifecycle := []
  lifecycleTotal := 0
  peakConcurrentRequests := 0
  steady := 0
  retired := []
  history := []
  thread := fun _ => .idle
  granted := []

/-- All interleavings of the control service of one worker. -/
def machine (textDigest : String → String) : Machine World Action where
  initial := fun w => ∃ config capabilities blank empty,
    config.Valid ∧ w=World.start config capabilities blank empty
  step := World.step textDigest

end Hllm.ControlModel
