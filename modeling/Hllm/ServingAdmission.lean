import Hllm.RunInvariants
import Mathlib.Data.Int.Notation
import Mathlib.Data.Bool.Basic
import Mathlib.Order.Nat

/-!
# Serving admission

The admission queue of the HTTP server and the tasks of its requests, between
the awaits at which other tasks may run. A task is at one await, and a step runs
it from there to the next; answers of the tokenizer, the native generator, the
client and the clock are carried by the actions. An exception thrown at an await
of the queue is a cancellation. Latencies and response bodies are left out, and
so are requests that fail before they are counted.
-/

namespace Hllm.ServingAdmission

open RunInvariants (Machine)

/-- `ApiError` -/
structure ApiError where
  message : String
  status : ℕ := 400
  kind : String := "invalid_request_error"
  deriving DecidableEq

/-- The status codes `native_error` tells apart. -/
inductive StatusCode
  | resourceExhausted
  | deadlineExceeded
  | other
  deriving DecidableEq

/-- `native_error` -/
def nativeError : StatusCode → ApiError
  | .resourceExhausted => ⟨"native admission capacity exceeded",429,"rate_limit_error"⟩
  | .deadlineExceeded => ⟨"generation deadline exceeded",504,"timeout_error"⟩
  | .other => ⟨"native worker failed or became unavailable",503,"server_error"⟩

/-- The counters of `Metrics` a finished request may raise. -/
inductive Outcome
  | completed
  | failed
  | cancelled
  | rejected
  deriving DecidableEq

/-- `Metrics` without its latencies. -/
structure Metrics where
  requests : ℕ := 0
  completed : ℕ := 0
  failed : ℕ := 0
  cancelled : ℕ := 0
  rejected : ℕ := 0
  generatedTokens : ℕ := 0
  deriving DecidableEq

/-- The counter of an outcome. -/
def Metrics.count (m : Metrics) : Outcome → ℕ
  | .completed => m.completed
  | .failed => m.failed
  | .cancelled => m.cancelled
  | .rejected => m.rejected

/-- Raise the counter of an outcome. -/
def Metrics.add (m : Metrics) : Outcome → Metrics
  | .completed => { m with completed := m.completed+1 }
  | .failed => { m with failed := m.failed+1 }
  | .cancelled => { m with cancelled := m.cancelled+1 }
  | .rejected => { m with rejected := m.rejected+1 }

/-- The yields of `events`. -/
inductive Point
  | role
  | token (stopped : Bool)
  | text
  | finish
  | usage
  deriving DecidableEq

/-- How the body of `events` was left. -/
inductive Exit
  | finished
  | raised
  | unwound
  deriving DecidableEq

/-- The await a task is at. -/
inductive Phase
  /-- `request.is_disconnected()` of `acquire`. -/
  | polling
  /-- `asyncio.sleep` of `acquire`. -/
  | sleeping
  /-- `ManagedStream` has not started its generator. -/
  | unstarted
  /-- `anext(native)`. -/
  | awaiting
  /-- `anext(native)` after the task was cancelled there. -/
  | unwinding
  /-- Sending an event of `events`. -/
  | yielded (point : Point)
  /-- `native.aclose()`. -/
  | closing (exit : Exit)
  /-- Sending one of the last lines of `stream`, with the lines after it. -/
  | tail (lines : ℕ)
  | ended
  deriving DecidableEq

/-- The native generator of a request. -/
inductive Native
  | unstarted
  | running
  | suspended
  | closed
  deriving DecidableEq

/-- The options of a request the handler branches on. -/
structure Options where
  stream : Bool
  chat : Bool
  includeUsage : Bool
  deriving DecidableEq

/-- A counted request. Its grants, returns and outcomes are recorded beside it. -/
structure Request where
  options : Options
  /-- The deadline has passed. -/
  expired : Bool
  phase : Phase
  native : Native := .unstarted
  slotOwned : Bool := false
  succeeded : Bool := false
  /-- The error raised to the client. -/
  error : Option ApiError := none
  /-- Slots it was granted, and gave back. -/
  granted : ℕ := 0
  returned : ℕ := 0
  /-- It gave a slot back while its native generator was open. -/
  early : Bool := false
  /-- It was abandoned after its deadline, before it had succeeded. -/
  abandonedLate : Bool := false
  /-- The counters raised for it. -/
  outcomes : List Outcome := []
  deriving DecidableEq

/-- What tasks share: `Admission`, `Metrics` and `runtime.cleanup_failed`, with
the requests granted a slot so far. Tickets are arrival numbers. -/
structure Shared where
  maximum : ℕ
  queued : ℕ
  active : ℤ := 0
  waiters : List ℕ := []
  cleanupFailed : Bool := false
  metrics : Metrics := {}
  grants : List ℕ := []
  deriving DecidableEq

/-- A running task: what is shared and its own request. -/
structure Frame where
  shared : Shared
  own : Request
  deriving DecidableEq

/-- The server, with its counted requests in arrival order. -/
structure World where
  shared : Shared
  requests : List Request := []
  deriving DecidableEq

/-- `metrics.completed += 1` and its siblings. -/
def settle (outcome : Outcome) (f : Frame) : Frame where
  shared := { f.shared with metrics := f.shared.metrics.add outcome }
  own := { f.own with outcomes := f.own.outcomes++[outcome] }

/-- Raise an error to the client. -/
def raising (error : ApiError) (f : Frame) : Frame :=
  { f with own := { f.own with error := some error } }

/-- Suspend the task. -/
def suspend (phase : Phase) (f : Frame) : Frame :=
  { f with own := { f.own with phase := phase } }

/-- `admission.active -= 1` -/
def giveBack (f : Frame) : Frame where
  shared := { f.shared with active := f.shared.active-1 }
  own := { f.own with
    returned := f.own.returned+1
    early := f.own.early || f.own.native=.running || f.own.native=.suspended }

/-- `release_slot` -/
def releaseSlot (f : Frame) : Frame :=
  if f.own.slotOwned then
    giveBack { f with own := { f.own with slotOwned := false } }
  else f

/-- The task leaves `complete`, or `ManagedStream` whose generator has ended. -/
def leave (f : Frame) : Frame :=
  suspend .ended (if f.own.options.stream then releaseSlot f else f)

/-- What follows `events`: the last lines of `stream`, or the end of `complete`. -/
def afterEvents (exit : Exit) (f : Frame) : Frame :=
  if f.own.options.stream then
    match exit with
    | .finished => suspend (.tail 0) f
    | .raised => suspend (.tail 1) f
    | .unwound => leave f
  else leave f

/-- The `finally` of `events` once `native.aclose()` is done. -/
def closed (exit : Exit) (f : Frame) : Frame :=
  afterEvents exit (releaseSlot { f with own := { f.own with native := .closed } })

/-- The `finally` of `events`. Only a suspended generator has something to run. -/
def closeEvents (exit : Exit) (f : Frame) : Frame :=
  if f.own.native=.suspended then suspend (.closing exit) f else closed exit f

/-- The handlers of `events` that count a failure. -/
def fail (error : ApiError) (f : Frame) : Frame :=
  closeEvents .raised (raising error (settle .failed f))

/-- Note an abandonment. -/
def abandoned (f : Frame) : Frame :=
  { f with own := { f.own with
      abandonedLate := f.own.abandonedLate || (f.own.expired && !f.own.succeeded) } }

/-- The handler of `CancelledError` and `GeneratorExit` in `events`. -/
def abandonEvents (f : Frame) : Frame :=
  if f.own.succeeded then closeEvents .unwound f
  else closeEvents .unwound (settle (if f.own.expired then .failed else .cancelled) f)

/-- A yield of `events`: `complete` itself resumes it at once. -/
def yieldEvent (point : Point) (resume : Frame → Frame) (f : Frame) : Frame :=
  if f.own.options.stream then suspend (.yielded point) f else resume f

/-- `events` after the finishing chunk. -/
def yieldUsage (f : Frame) : Frame :=
  if f.own.options.includeUsage then yieldEvent .usage (closeEvents .finished) f
  else closeEvents .finished f

/-- `events` from the assignment of `succeeded`. -/
def succeed (f : Frame) : Frame :=
  yieldEvent .finish yieldUsage
    (settle .completed { f with own := { f.own with succeeded := true } })

/-- `ApiError("generation failed")` -/
def generationFailed : ApiError := ⟨"generation failed",500,"server_error"⟩

/-- `ApiError("generation deadline exceeded")` -/
def deadlineExceeded : ApiError := ⟨"generation deadline exceeded",504,"timeout_error"⟩

/-- `events` from `output.finish()`, which raises or says whether text was left. -/
def flush (flushed : Option Bool) (f : Frame) : Frame :=
  match flushed with
  | none => fail generationFailed f
  | some true => yieldEvent .text succeed f
  | some false => succeed f

/-- `next_token` -/
def nextToken (f : Frame) : Frame :=
  if f.own.expired then fail deadlineExceeded f
  else suspend .awaiting { f with own := { f.own with native := .running } }

/-- `events` up to its first native wait. -/
def startEvents (f : Frame) : Frame :=
  if f.own.options.chat && f.own.options.stream then suspend (.yielded .role) f
  else nextToken f

/-- What a token does: raises, is a stop token, or is pushed to the output. The
flags say whether a chunk is emitted and whether a stop string was found. -/
inductive TokenEffect
  | raises
  | stop (emitted : Bool)
  | pushed (emitted stopped : Bool)
  deriving DecidableEq

/-- The token loop after the chunk of a token. -/
def afterToken (stopped : Bool) (flushed : Option Bool) (f : Frame) : Frame :=
  if stopped then flush flushed f else nextToken f

/-- The token loop from a token the native generator yielded. -/
def takeToken (effect : TokenEffect) (flushed : Option Bool) (f : Frame) : Frame :=
  let f : Frame := {
    shared := { f.shared with metrics := { f.shared.metrics with
      generatedTokens := f.shared.metrics.generatedTokens+1 } }
    own := { f.own with native := .suspended } }
  match effect with
  | .raises => fail generationFailed f
  | .stop true => yieldEvent (.token false) nextToken f
  | .stop false => nextToken f
  | .pushed true stopped => yieldEvent (.token stopped) (afterToken stopped flushed) f
  | .pushed false stopped => afterToken stopped flushed f

/-- What ends a wait on the native generator other than a token or its end. -/
inductive Failure
  | timeout
  | rpc (code : StatusCode)
  | cancelled
  | other
  deriving DecidableEq

/-- The handlers of `events` for what `anext(native)` raised. -/
def interrupted (failure : Failure) (f : Frame) : Frame :=
  let f : Frame := { f with own := { f.own with native := .closed } }
  match failure with
  | .timeout => fail deadlineExceeded f
  | .rpc code => fail (nativeError code) f
  | .cancelled => abandonEvents (abandoned f)
  | .other => fail generationFailed f

/-- The error of an unconfirmed cleanup. -/
def cleanupError : ApiError :=
  ⟨"worker cleanup is unconfirmed; restart the deployment",503,"server_error"⟩

/-- `complete` after `acquire` returned. The deadline may pass before `events`
reads the clock. -/
def admitted (late : Bool) (f : Frame) : Frame :=
  if f.shared.cleanupFailed then suspend .ended (raising cleanupError (giveBack f))
  else
    let f : Frame := { f with own := { f.own with slotOwned := true } }
    if f.own.options.stream then suspend .unstarted f
    else startEvents { f with own := { f.own with expired := f.own.expired || late } }

/-- `acquire` raised an `ApiError`. -/
def reject (error : ApiError) (f : Frame) : Frame :=
  suspend .ended (raising error (settle .rejected f))

/-- The `finally` of `acquire`. -/
def leaveQueue (ticket : ℕ) (f : Frame) : Frame :=
  { f with shared := { f.shared with waiters := f.shared.waiters.erase ticket } }

/-- The last line of `acquire`, with what it does recorded. -/
def grant (ticket : ℕ) (f : Frame) : Frame where
  shared := { f.shared with
    active := f.shared.active+1
    grants := f.shared.grants++[ticket] }
  own := { f.own with granted := f.own.granted+1 }

/-- The error of a deadline that passed in the queue. -/
def queueExpired : ApiError := ⟨"deadline expired while queued",504,"timeout_error"⟩

/-- The loop of `acquire` leaves the ticket waiting. -/
def Waits (ticket : ℕ) (s : Shared) : Prop :=
  s.waiters.head?≠some ticket ∨ s.maximum ≤ s.active

instance (ticket : ℕ) (s : Shared) : Decidable (Waits ticket s) := by
  unfold Waits
  infer_instance

/-- `acquire` from the condition of its loop. -/
def waitTurn (ticket : ℕ) (late : Bool) (f : Frame) : Frame :=
  if Waits ticket f.shared then
    if f.own.expired then reject queueExpired (leaveQueue ticket f)
    else suspend .polling f
  else if f.own.expired then reject queueExpired (leaveQueue ticket f)
  else admitted late (leaveQueue ticket (grant ticket f))

/-- `complete` from the request counter on. -/
def arrive (ticket : ℕ) (late : Bool) (f : Frame) : Frame :=
  let f : Frame := { f with shared := { f.shared with metrics := { f.shared.metrics with
    requests := f.shared.metrics.requests+1 } } }
  if (f.shared.maximum : ℤ)+f.shared.queued ≤ f.shared.active+f.shared.waiters.length then
    reject ⟨"serving queue is full",429,"rate_limit_error"⟩ f
  else
    waitTurn ticket late
      { f with shared := { f.shared with waiters := f.shared.waiters++[ticket] } }

/-- What the rest of the world may do to the task of a request. -/
inductive Event
  /-- `is_disconnected()` answered. -/
  | polled (disconnected : Bool)
  /-- The sleep in the queue is over. -/
  | slept (late : Bool)
  /-- The response started its generator, or sent a line. -/
  | pull (flushed : Option Bool)
  /-- The native generator yielded a token. -/
  | token (effect : TokenEffect) (flushed : Option Bool)
  /-- The native generator is exhausted. -/
  | over (flushed : Option Bool)
  /-- The wait on the native generator raised. -/
  | raised (failure : Failure)
  /-- `native.aclose()` is done, or was itself interrupted. -/
  | retired (interrupted : Bool)
  /-- The task is cancelled, or its client is gone. -/
  | abandon
  /-- The deadline passes. -/
  | expire
  deriving DecidableEq

/-- The task of a request, from the await it is at to the next one. -/
def advance (ticket : ℕ) (f : Frame) (event : Event) : Option Frame :=
  match event,f.own.phase with
  | .expire,_ => some { f with own := { f.own with expired := true } }
  | .polled true,.polling =>
    some (reject ⟨"client disconnected",499,"cancelled_error"⟩ (leaveQueue ticket f))
  | .polled false,.polling => some (suspend .sleeping f)
  | .slept late,.sleeping => some (waitTurn ticket late f)
  | .abandon,.polling => some (suspend .ended (abandoned (leaveQueue ticket f)))
  | .abandon,.sleeping => some (suspend .ended (abandoned (leaveQueue ticket f)))
  | .pull _,.unstarted => some (startEvents f)
  | .abandon,.unstarted => some (leave (abandoned f))
  | .token effect flushed,.awaiting => some (takeToken effect flushed f)
  | .over flushed,.awaiting =>
    some (flush flushed { f with own := { f.own with native := .closed } })
  | .raised failure,.awaiting => some (interrupted failure f)
  | .raised failure,.unwinding => some (interrupted failure f)
  | .abandon,.awaiting => some (suspend .unwinding (abandoned f))
  | .abandon,.unwinding => some f
  | .pull _,.yielded .role => some (nextToken f)
  | .pull flushed,.yielded (.token stopped) => some (afterToken stopped flushed f)
  | .pull _,.yielded .text => some (succeed f)
  | .pull _,.yielded .finish => some (yieldUsage f)
  | .pull _,.yielded .usage => some (closeEvents .finished f)
  | .abandon,.yielded _ => some (abandonEvents (abandoned f))
  | .retired false,.closing exit => some (closed exit f)
  | .retired true,.closing _ => some (closed .unwound f)
  | .pull _,.tail (lines+1) => some (suspend (.tail lines) f)
  | .pull _,.tail 0 => some (leave f)
  | .abandon,.tail _ => some (leave f)
  | _,_ => none

/-- One thing that happens in the server. -/
inductive Action
  /-- A valid request arrives. -/
  | submit (options : Options) (expired late : Bool)
  /-- The task of a request runs. -/
  | runs (ticket : ℕ) (event : Event)
  /-- A native cleanup went unconfirmed. -/
  | cleanupFails
  deriving DecidableEq

/-- A request as it arrives. -/
def Request.new (options : Options) (expired : Bool) : Request where
  options := options
  expired := expired
  phase := .polling

/-- One step of the server. -/
def step (w : World) : Action → Option World
  | .submit options expired late =>
    if w.shared.cleanupFailed then some w
    else
      let f := arrive w.requests.length late ⟨w.shared,.new options expired⟩
      some ⟨f.shared,w.requests++[f.own]⟩
  | .runs ticket event =>
    (w.requests[ticket]?).bind fun r =>
      (advance ticket ⟨w.shared,r⟩ event).map fun f =>
        ⟨f.shared,w.requests.set ticket f.own⟩
  | .cleanupFails => some { w with shared := { w.shared with cleanupFailed := true } }

/-- The server starts with its limits and no request. -/
def server : Machine World Action where
  initial w := ∃ maximum queued : ℕ,1 ≤ maximum ∧ maximum ≤ 64 ∧ queued ≤ 1024 ∧
    w={ shared := { maximum := maximum, queued := queued } }
  step := step

/-- The task is in the queue. -/
def Queued (r : Request) : Prop := r.phase=.polling ∨ r.phase=.sleeping

instance (r : Request) : Decidable (Queued r) := by
  unfold Queued
  infer_instance

/-- A request in the queue has no slot, no generator and no outcome. -/
structure Fresh (r : Request) : Prop where
  native : r.native=.unstarted
  slotOwned : r.slotOwned=false
  succeeded : r.succeeded=false
  granted : r.granted=0
  returned : r.returned=0
  early : r.early=false
  abandonedLate : r.abandonedLate=false
  outcomes : r.outcomes=[]

/-- A request has its slot. -/
structure Holding (r : Request) : Prop where
  slotOwned : r.slotOwned=true
  granted : r.granted=1
  returned : r.returned=0
  early : r.early=false

/-- A request has no slot any more, and no open generator. -/
structure Released (r : Request) : Prop where
  slotOwned : r.slotOwned=false
  granted : r.granted ≤ 1
  returned : r.returned=r.granted
  early : r.early=false
  native : r.native=.unstarted ∨ r.native=.closed

/-- No outcome is counted yet. -/
structure Undecided (r : Request) : Prop where
  outcomes : r.outcomes=[]
  succeeded : r.succeeded=false

/-- One outcome is counted, a failure when the request was abandoned late. -/
structure Decided (r : Request) : Prop where
  once : r.outcomes.length=1
  late : r.abandonedLate=true → r.outcomes=[.failed]

/-- A request past the queue, at each of its awaits. -/
def Served (r : Request) : Prop :=
  match r.phase with
  | .polling => False
  | .sleeping => False
  | .unstarted =>
    Holding r ∧ Undecided r ∧ r.abandonedLate=false ∧ r.native=.unstarted ∧
      r.options.stream=true
  | .awaiting => Holding r ∧ Undecided r ∧ r.abandonedLate=false ∧ r.native=.running
  | .unwinding =>
    Holding r ∧ Undecided r ∧ (r.abandonedLate=true → r.expired=true) ∧ r.native=.running
  | .yielded .finish => Holding r ∧ Decided r ∧ r.succeeded=true ∧ r.native≠.running
  | .yielded .usage => Holding r ∧ Decided r ∧ r.succeeded=true ∧ r.native≠.running
  | .yielded _ => Holding r ∧ Undecided r ∧ r.abandonedLate=false ∧ r.native≠.running
  | .closing _ => Holding r ∧ Decided r ∧ r.native=.suspended
  | .tail _ => Released r ∧ Decided r
  | .ended => Released r ∧ Decided r

/-- A request that ended without an outcome. -/
structure Lost (r : Request) : Prop where
  ended : r.phase=.ended
  released : Released r
  outcomes : r.outcomes=[]

/-- A request in the queue or past it. -/
def Sound (r : Request) : Prop := Queued r ∧ Fresh r ∨ Served r

/-- Counting an outcome decides an undecided request. -/
theorem settle_decided {f : Frame} (outcome : Outcome) (h : Undecided f.own)
    (hlate : f.own.abandonedLate=true → outcome=.failed) : Decided (settle outcome f).own := by
  have houtcomes : (settle outcome f).own.outcomes=[outcome] := by
    simp only [settle,h.outcomes,List.nil_append]
  constructor
  · rw [houtcomes]
    rfl
  · intro habandoned
    rw [houtcomes,hlate habandoned]

/-- Giving the slot back releases a request whose generator is closed. -/
theorem releaseSlot_released {f : Frame} (h : Holding f.own)
    (hnative : f.own.native=.unstarted ∨ f.own.native=.closed) :
    Released (releaseSlot f).own := by
  have hearly : (f.own.early || f.own.native=.running || f.own.native=.suspended)=false := by
    rcases hnative with hnative | hnative <;> simp [h.early,hnative]
  simp only [releaseSlot,h.slotOwned,if_true,giveBack]
  exact ⟨rfl,h.granted.le,by rw [h.returned,h.granted],hearly,hnative⟩

/-- A second release changes nothing. -/
theorem releaseSlot_released_again {f : Frame} (h : Released f.own) : releaseSlot f=f := by
  simp only [releaseSlot,h.slotOwned,Bool.false_eq_true,if_false]

/-- Releasing keeps the outcome. -/
theorem releaseSlot_decided {f : Frame} (h : Decided f.own) : Decided (releaseSlot f).own := by
  unfold releaseSlot
  split
  · exact ⟨h.once,h.late⟩
  · exact h

/-- Leaving ends a released request. -/
theorem leave_served {f : Frame} (h : Released f.own) (hdecided : Decided f.own) :
    Served (leave f).own := by
  have hsame : (if f.own.options.stream then releaseSlot f else f)=f := by
    rw [releaseSlot_released_again h,ite_self]
  simp only [leave,hsame]
  exact ⟨⟨h.slotOwned,h.granted,h.returned,h.early,h.native⟩,hdecided.once,hdecided.late⟩

/-- A request whose generator is done is served to its end. -/
theorem closed_served {f : Frame} {exit : Exit} (h : Holding f.own) (hdecided : Decided f.own) :
    Served (closed exit f).own := by
  have hreleased : Released
      (releaseSlot { f with own := { f.own with native := .closed } }).own :=
    releaseSlot_released ⟨h.slotOwned,h.granted,h.returned,h.early⟩ (.inr rfl)
  have hkept : Decided (releaseSlot { f with own := { f.own with native := .closed } }).own :=
    releaseSlot_decided ⟨hdecided.once,hdecided.late⟩
  unfold closed afterEvents
  split
  · cases exit with
    | finished => exact ⟨⟨hreleased.slotOwned,hreleased.granted,hreleased.returned,
        hreleased.early,hreleased.native⟩,hkept.once,hkept.late⟩
    | raised => exact ⟨⟨hreleased.slotOwned,hreleased.granted,hreleased.returned,
        hreleased.early,hreleased.native⟩,hkept.once,hkept.late⟩
    | unwound => exact leave_served hreleased hkept
  · exact leave_served hreleased hkept

/-- A decided request is served to its end. -/
theorem closeEvents_served {f : Frame} {exit : Exit} (h : Holding f.own)
    (hdecided : Decided f.own) : Served (closeEvents exit f).own := by
  unfold closeEvents
  split
  next hnative =>
    exact ⟨⟨h.slotOwned,h.granted,h.returned,h.early⟩,⟨hdecided.once,hdecided.late⟩,hnative⟩
  · exact closed_served h hdecided

/-- A failure serves an undecided request. -/
theorem fail_served {f : Frame} {error : ApiError} (h : Holding f.own) (hopen : Undecided f.own) :
    Served (fail error f).own := by
  have hdecided := settle_decided .failed hopen fun _ => rfl
  exact closeEvents_served ⟨h.slotOwned,h.granted,h.returned,h.early⟩
    ⟨hdecided.once,hdecided.late⟩

/-- An abandonment before success is counted, as a failure once it is late. -/
theorem abandonEvents_served {f : Frame} (h : Holding f.own) (hopen : Undecided f.own)
    (hlate : f.own.abandonedLate=true → f.own.expired=true) :
    Served (abandonEvents f).own := by
  have hdecided : Decided (settle (if f.own.expired then .failed else .cancelled) f).own := by
    refine settle_decided _ hopen fun habandoned => ?_
    rw [hlate habandoned,if_pos rfl]
  simp only [abandonEvents,hopen.succeeded,Bool.false_eq_true,if_false]
  exact closeEvents_served ⟨h.slotOwned,h.granted,h.returned,h.early⟩ hdecided

/-- Abandoning an undecided request at its clock reading serves it. -/
theorem abandoned_served {f : Frame} (h : Holding f.own) (hopen : Undecided f.own)
    (hlate : f.own.abandonedLate=true → f.own.expired=true) :
    Served (abandonEvents (abandoned f)).own := by
  refine abandonEvents_served ⟨h.slotOwned,h.granted,h.returned,h.early⟩
    ⟨hopen.outcomes,hopen.succeeded⟩ fun habandoned => ?_
  simp only [abandoned,Bool.or_eq_true,Bool.and_eq_true] at habandoned
  rcases habandoned with hbefore | hnow
  · exact hlate hbefore
  · exact hnow.1

/-- Abandoning a request that succeeded leaves its outcome. -/
theorem abandoned_succeeded_served {f : Frame} (h : Holding f.own) (hdecided : Decided f.own)
    (hsucceeded : f.own.succeeded=true) : Served (abandonEvents (abandoned f)).own := by
  have hlate : (abandoned f).own.abandonedLate=f.own.abandonedLate := by
    simp only [abandoned,hsucceeded,Bool.not_true,Bool.and_false,Bool.or_false]
  have hkept : (abandoned f).own.succeeded=true := hsucceeded
  simp only [abandonEvents,hkept,if_true]
  refine closeEvents_served ⟨h.slotOwned,h.granted,h.returned,h.early⟩
    ⟨hdecided.once,fun habandoned => ?_⟩
  rw [hlate] at habandoned
  exact hdecided.late habandoned

/-- The events after success serve a request. -/
theorem yieldUsage_served {f : Frame} (h : Holding f.own) (hdecided : Decided f.own)
    (hsucceeded : f.own.succeeded=true) (hnative : f.own.native≠.running) :
    Served (yieldUsage f).own := by
  unfold yieldUsage yieldEvent
  split
  · split
    · exact ⟨⟨h.slotOwned,h.granted,h.returned,h.early⟩,⟨hdecided.once,hdecided.late⟩,
        hsucceeded,hnative⟩
    · exact closeEvents_served h hdecided
  · exact closeEvents_served h hdecided

/-- Success serves an undecided request. -/
theorem succeed_served {f : Frame} (h : Holding f.own) (hopen : Undecided f.own)
    (hlate : f.own.abandonedLate=false) (hnative : f.own.native≠.running) :
    Served (succeed f).own := by
  let g : Frame := { f with own := { f.own with succeeded := true } }
  have houtcomes : (settle .completed g).own.outcomes=[.completed] := by
    simp only [settle,g,hopen.outcomes,List.nil_append]
  have hdecided : Decided (settle .completed g).own := by
    constructor
    · rw [houtcomes]
      rfl
    · intro habandoned
      have hstill : (settle .completed g).own.abandonedLate=false := hlate
      rw [hstill] at habandoned
      exact absurd habandoned Bool.false_ne_true
  have hholding : Holding (settle .completed g).own :=
    ⟨h.slotOwned,h.granted,h.returned,h.early⟩
  unfold succeed yieldEvent
  split
  · exact ⟨⟨h.slotOwned,h.granted,h.returned,h.early⟩,⟨hdecided.once,hdecided.late⟩,rfl,hnative⟩
  · exact yieldUsage_served hholding hdecided rfl hnative

/-- The final decoding serves an undecided request. -/
theorem flush_served {f : Frame} (flushed : Option Bool) (h : Holding f.own)
    (hopen : Undecided f.own) (hlate : f.own.abandonedLate=false)
    (hnative : f.own.native≠.running) : Served (flush flushed f).own := by
  match flushed with
  | none => exact fail_served h hopen
  | some false => exact succeed_served h hopen hlate hnative
  | some true =>
    simp only [flush,yieldEvent]
    split
    · exact ⟨⟨h.slotOwned,h.granted,h.returned,h.early⟩,⟨hopen.outcomes,hopen.succeeded⟩,
        hlate,hnative⟩
    · exact succeed_served h hopen hlate hnative

/-- Asking for a token serves an undecided request. -/
theorem nextToken_served {f : Frame} (h : Holding f.own) (hopen : Undecided f.own)
    (hlate : f.own.abandonedLate=false) : Served (nextToken f).own := by
  unfold nextToken
  split
  · exact fail_served h hopen
  · exact ⟨⟨h.slotOwned,h.granted,h.returned,h.early⟩,⟨hopen.outcomes,hopen.succeeded⟩,
      hlate,rfl⟩

/-- Starting the events serves an undecided request. -/
theorem startEvents_served {f : Frame} (h : Holding f.own) (hopen : Undecided f.own)
    (hlate : f.own.abandonedLate=false) (hnative : f.own.native=.unstarted) :
    Served (startEvents f).own := by
  have hidle : f.own.native≠.running := by
    rw [hnative]
    decide
  unfold startEvents
  split
  · exact ⟨⟨h.slotOwned,h.granted,h.returned,h.early⟩,⟨hopen.outcomes,hopen.succeeded⟩,
      hlate,hidle⟩
  · exact nextToken_served h hopen hlate

/-- The loop after a chunk serves an undecided request. -/
theorem afterToken_served {f : Frame} (stopped : Bool) (flushed : Option Bool)
    (h : Holding f.own) (hopen : Undecided f.own) (hlate : f.own.abandonedLate=false)
    (hnative : f.own.native≠.running) : Served (afterToken stopped flushed f).own := by
  unfold afterToken
  split
  · exact flush_served flushed h hopen hlate hnative
  · exact nextToken_served h hopen hlate

/-- A token serves an undecided request. -/
theorem takeToken_served {f : Frame} (effect : TokenEffect) (flushed : Option Bool)
    (h : Holding f.own) (hopen : Undecided f.own) (hlate : f.own.abandonedLate=false) :
    Served (takeToken effect flushed f).own := by
  have hidle : Native.suspended≠.running := by decide
  have hholding : ∀ metrics : Metrics,Holding (⟨{ f.shared with metrics := metrics },
      { f.own with native := .suspended }⟩ : Frame).own :=
    fun _ => ⟨h.slotOwned,h.granted,h.returned,h.early⟩
  have hundecided : ∀ metrics : Metrics,Undecided (⟨{ f.shared with metrics := metrics },
      { f.own with native := .suspended }⟩ : Frame).own :=
    fun _ => ⟨hopen.outcomes,hopen.succeeded⟩
  match effect with
  | .raises => exact fail_served (hholding _) (hundecided _)
  | .stop false => exact nextToken_served (hholding _) (hundecided _) hlate
  | .pushed false stopped =>
    exact afterToken_served stopped flushed (hholding _) (hundecided _) hlate hidle
  | .stop true =>
    simp only [takeToken,yieldEvent]
    split
    · exact ⟨⟨h.slotOwned,h.granted,h.returned,h.early⟩,⟨hopen.outcomes,hopen.succeeded⟩,
        hlate,hidle⟩
    · exact nextToken_served (hholding _) (hundecided _) hlate
  | .pushed true stopped =>
    simp only [takeToken,yieldEvent]
    split
    · exact ⟨⟨h.slotOwned,h.granted,h.returned,h.early⟩,⟨hopen.outcomes,hopen.succeeded⟩,
        hlate,hidle⟩
    · exact afterToken_served stopped flushed (hholding _) (hundecided _) hlate hidle

/-- An interrupted wait serves an undecided request. -/
theorem interrupted_served {f : Frame} (failure : Failure) (h : Holding f.own)
    (hopen : Undecided f.own) (hlate : f.own.abandonedLate=true → f.own.expired=true) :
    Served (interrupted failure f).own := by
  let g : Frame := { f with own := { f.own with native := .closed } }
  have hholding : Holding g.own := ⟨h.slotOwned,h.granted,h.returned,h.early⟩
  have hundecided : Undecided g.own := ⟨hopen.outcomes,hopen.succeeded⟩
  cases failure with
  | timeout => exact fail_served hholding hundecided
  | rpc code => exact fail_served hholding hundecided
  | cancelled => exact abandoned_served hholding hundecided hlate
  | other => exact fail_served hholding hundecided

/-- Rejecting releases a fresh request with its outcome. -/
theorem reject_served {f : Frame} {error : ApiError} (h : Fresh f.own) :
    Served (reject error f).own := by
  have hdecided : Decided (settle .rejected f).own :=
    settle_decided .rejected ⟨h.outcomes,h.succeeded⟩ fun hlate => by
      rw [h.abandonedLate] at hlate
      exact absurd hlate Bool.false_ne_true
  refine ⟨⟨h.slotOwned,?_,h.returned.trans h.granted.symm,h.early,.inl h.native⟩,
    hdecided.once,hdecided.late⟩
  have hgranted : (reject error f).own.granted=0 := h.granted
  omega

/-- A granted request is served, unless a cleanup is unconfirmed. -/
theorem admitted_served {f : Frame} {ticket : ℕ} (late : Bool) (h : Fresh f.own)
    (hclean : f.shared.cleanupFailed=false) :
    Served (admitted late (leaveQueue ticket (grant ticket f))).own := by
  have hgranted : (grant ticket f).own.granted=1 := by
    simp only [grant,h.granted]
  have hstate : (leaveQueue ticket (grant ticket f)).shared.cleanupFailed=false := hclean
  simp only [admitted,hstate,Bool.false_eq_true,if_false]
  split
  next hstream =>
    exact ⟨⟨rfl,hgranted,h.returned,h.early⟩,⟨h.outcomes,h.succeeded⟩,h.abandonedLate,
      h.native,hstream⟩
  · exact startEvents_served ⟨rfl,hgranted,h.returned,h.early⟩ ⟨h.outcomes,h.succeeded⟩
      h.abandonedLate h.native

/-- A granted request is lost when a cleanup is unconfirmed. -/
theorem admitted_lost {f : Frame} {ticket : ℕ} (late : Bool) (h : Fresh f.own)
    (hfailed : f.shared.cleanupFailed=true) :
    Lost (admitted late (leaveQueue ticket (grant ticket f))).own := by
  have hgranted : (grant ticket f).own.granted=1 := by
    simp only [grant,h.granted]
  have hreturned : (grant ticket f).own.returned=0 := h.returned
  have hstate : (leaveQueue ticket (grant ticket f)).shared.cleanupFailed=true := hfailed
  have hearly : (f.own.early || f.own.native=.running || f.own.native=.suspended)=false := by
    simp [h.early,h.native]
  simp only [admitted,hstate,if_true]
  refine ⟨rfl,⟨h.slotOwned,hgranted.le,?_,hearly,.inl h.native⟩,h.outcomes⟩
  change (grant ticket f).own.returned+1=(grant ticket f).own.granted
  rw [hreturned,hgranted]

/-- A fresh request at the loop of `acquire` waits on, or is served unless it is
granted a slot while a cleanup is unconfirmed. -/
theorem waitTurn_sound {f : Frame} {ticket : ℕ} (late : Bool) (h : Fresh f.own) :
    Sound (waitTurn ticket late f).own ∧
        ¬(f.shared.cleanupFailed=true ∧ f.own.expired=false ∧ ¬Waits ticket f.shared) ∨
      Lost (waitTurn ticket late f).own ∧
        f.shared.cleanupFailed=true ∧ f.own.expired=false ∧ ¬Waits ticket f.shared := by
  have hrejected : Served (reject queueExpired (leaveQueue ticket f)).own :=
    reject_served ⟨h.native,h.slotOwned,h.succeeded,h.granted,h.returned,h.early,
      h.abandonedLate,h.outcomes⟩
  unfold waitTurn
  by_cases hwaits : Waits ticket f.shared
  · rw [if_pos hwaits]
    refine .inl ⟨?_,fun hlost => hlost.2.2 hwaits⟩
    split
    · exact .inr hrejected
    · exact .inl ⟨.inl rfl,⟨h.native,h.slotOwned,h.succeeded,h.granted,h.returned,h.early,
        h.abandonedLate,h.outcomes⟩⟩
  · rw [if_neg hwaits]
    by_cases hexpired : f.own.expired=true
    · rw [if_pos hexpired]
      refine .inl ⟨.inr hrejected,fun hlost => ?_⟩
      rw [hlost.2.1] at hexpired
      exact absurd hexpired Bool.false_ne_true
    · rw [if_neg hexpired]
      by_cases hfailed : f.shared.cleanupFailed=true
      · exact .inr ⟨admitted_lost late h hfailed,hfailed,Bool.eq_false_of_not_eq_true hexpired,
          hwaits⟩
      · exact .inl ⟨.inr (admitted_served late h (Bool.eq_false_of_not_eq_true hfailed)),
          fun hlost => hfailed hlost.1⟩

/-- An arriving request is sound. -/
theorem arrive_sound (s : Shared) (ticket : ℕ) (options : Options) (expired late : Bool)
    (hclean : s.cleanupFailed=false) :
    Sound (arrive ticket late ⟨s,.new options expired⟩).own := by
  have hfresh : Fresh (Request.new options expired) := ⟨rfl,rfl,rfl,rfl,rfl,rfl,rfl,rfl⟩
  dsimp only [arrive]
  split
  · exact .inr (reject_served hfresh)
  · rcases @waitTurn_sound ⟨_,_⟩ ticket late hfresh with hsound | hlost
    · exact hsound.1
    · have hfailed : s.cleanupFailed=true := hlost.2.1
      rw [hclean] at hfailed
      exact absurd hfailed Bool.false_ne_true

/-- The steps of a task that end its request without an outcome: a cancellation
in the queue or before the stream starts, and a slot granted while a cleanup is
unconfirmed. -/
def Loses (ticket : ℕ) (f : Frame) (event : Event) : Prop :=
  match event,f.own.phase with
  | .abandon,.polling => True
  | .abandon,.sleeping => True
  | .abandon,.unstarted => True
  | .slept _,.sleeping =>
    f.shared.cleanupFailed=true ∧ f.own.expired=false ∧ ¬Waits ticket f.shared
  | _,_ => False

/-- Leaving the queue without a slot loses a fresh request. -/
theorem abandonQueue_lost {f : Frame} (ticket : ℕ) (h : Fresh f.own) :
    Lost (suspend .ended (abandoned (leaveQueue ticket f))).own := by
  refine ⟨rfl,⟨h.slotOwned,?_,h.returned.trans h.granted.symm,h.early,.inl h.native⟩,h.outcomes⟩
  have hgranted : (suspend .ended (abandoned (leaveQueue ticket f))).own.granted=0 := h.granted
  omega

/-- A stream abandoned before it starts is lost. -/
theorem abandonUnstarted_lost {f : Frame} (h : Holding f.own) (hopen : Undecided f.own)
    (hnative : f.own.native=.unstarted) (hstream : f.own.options.stream=true) :
    Lost (leave (abandoned f)).own := by
  have hreleased : Released (releaseSlot (abandoned f)).own :=
    releaseSlot_released ⟨h.slotOwned,h.granted,h.returned,h.early⟩ (.inl hnative)
  have howned : (abandoned f).own.slotOwned=true := h.slotOwned
  have houtcomes : (releaseSlot (abandoned f)).own.outcomes=[] := by
    rw [releaseSlot,if_pos howned]
    exact hopen.outcomes
  have hstill : (abandoned f).own.options.stream=true := hstream
  simp only [leave,hstill,if_true]
  exact ⟨rfl,⟨hreleased.slotOwned,hreleased.granted,hreleased.returned,hreleased.early,
    hreleased.native⟩,houtcomes⟩

/-- The clock does not disturb a request past the queue. -/
theorem expire_served {r : Request} (hserved : Served r) :
    Served { r with expired := true } := by
  obtain ⟨options,expired,phase,native,owned,succeeded,error,granted,returned,early,late,
    outcomes⟩ := r
  cases phase with
  | polling => exact hserved
  | sleeping => exact hserved
  | unstarted => exact ⟨⟨hserved.1.1,hserved.1.2,hserved.1.3,hserved.1.4⟩,
      ⟨hserved.2.1.1,hserved.2.1.2⟩,hserved.2.2⟩
  | awaiting => exact ⟨⟨hserved.1.1,hserved.1.2,hserved.1.3,hserved.1.4⟩,
      ⟨hserved.2.1.1,hserved.2.1.2⟩,hserved.2.2⟩
  | unwinding => exact ⟨⟨hserved.1.1,hserved.1.2,hserved.1.3,hserved.1.4⟩,
      ⟨hserved.2.1.1,hserved.2.1.2⟩,fun _ => rfl,hserved.2.2.2⟩
  | yielded point =>
    cases point <;> exact ⟨⟨hserved.1.1,hserved.1.2,hserved.1.3,hserved.1.4⟩,
      ⟨hserved.2.1.1,hserved.2.1.2⟩,hserved.2.2⟩
  | closing exit => exact ⟨⟨hserved.1.1,hserved.1.2,hserved.1.3,hserved.1.4⟩,
      ⟨hserved.2.1.1,hserved.2.1.2⟩,hserved.2.2⟩
  | tail lines => exact ⟨⟨hserved.1.1,hserved.1.2,hserved.1.3,hserved.1.4,hserved.1.5⟩,
      hserved.2.1,hserved.2.2⟩
  | ended => exact ⟨⟨hserved.1.1,hserved.1.2,hserved.1.3,hserved.1.4,hserved.1.5⟩,
      hserved.2.1,hserved.2.2⟩

/-- A sound request in the queue is fresh. -/
theorem Sound.fresh {r : Request} (h : Sound r) (hqueued : Queued r) : Fresh r := by
  rcases h with ⟨-,hfresh⟩ | hserved
  · exact hfresh
  · exfalso
    rcases hqueued with hphase | hphase
    · rw [Served,hphase] at hserved
      exact hserved
    · rw [Served,hphase] at hserved
      exact hserved

/-- A sound request past the queue is served. -/
theorem Sound.served {r : Request} (h : Sound r) (hpast : ¬Queued r) : Served r := by
  rcases h with ⟨hqueued,-⟩ | hserved
  · exact absurd hqueued hpast
  · exact hserved

/-- A step in the queue: a fresh request stays sound, unless the step loses it. -/
theorem advance_queued {ticket : ℕ} {f g : Frame} {event : Event} (hqueued : Queued f.own)
    (hfresh : Fresh f.own) (hexpire : event≠.expire) (hstep : advance ticket f event=some g) :
    Sound g.own ∧ ¬Loses ticket f event ∨ Lost g.own ∧ Loses ticket f event := by
  unfold advance at hstep
  rcases hqueued with hphase | hphase
  · cases event with
    | polled disconnected =>
      refine .inl ⟨?_,by simp only [Loses,not_false_eq_true]⟩
      cases disconnected with
      | false =>
        simp only [hphase,Option.some.injEq] at hstep
        subst hstep
        exact .inl ⟨.inr rfl,⟨hfresh.native,hfresh.slotOwned,hfresh.succeeded,
          hfresh.granted,hfresh.returned,hfresh.early,hfresh.abandonedLate,hfresh.outcomes⟩⟩
      | true =>
        simp only [hphase,Option.some.injEq] at hstep
        subst hstep
        exact .inr (reject_served ⟨hfresh.native,hfresh.slotOwned,hfresh.succeeded,
          hfresh.granted,hfresh.returned,hfresh.early,hfresh.abandonedLate,hfresh.outcomes⟩)
    | abandon =>
      simp only [hphase,Option.some.injEq] at hstep
      subst hstep
      exact .inr ⟨abandonQueue_lost ticket hfresh,by simp only [Loses,hphase]⟩
    | expire => exact absurd rfl hexpire
    | _ => simp only [hphase,reduceCtorEq] at hstep
  · cases event with
    | slept late =>
      simp only [hphase,Option.some.injEq] at hstep
      subst hstep
      simp only [Loses,hphase]
      exact waitTurn_sound late hfresh
    | abandon =>
      simp only [hphase,Option.some.injEq] at hstep
      subst hstep
      exact .inr ⟨abandonQueue_lost ticket hfresh,by simp only [Loses,hphase]⟩
    | expire => exact absurd rfl hexpire
    | polled disconnected => cases disconnected <;> simp only [hphase,reduceCtorEq] at hstep
    | _ => simp only [hphase,reduceCtorEq] at hstep

/-- A step of a stream that has not started. -/
theorem advance_unstarted {ticket : ℕ} {f g : Frame} {event : Event}
    (hphase : f.own.phase=.unstarted) (hserved : Served f.own) (hexpire : event≠.expire)
    (hstep : advance ticket f event=some g) :
    Served g.own ∧ ¬Loses ticket f event ∨ Lost g.own ∧ Loses ticket f event := by
  unfold advance at hstep
  simp only [Served,hphase] at hserved
  obtain ⟨hholding,hopen,hlate,hnative,hstream⟩ := hserved
  cases event with
  | pull flushed =>
    simp only [hphase,Option.some.injEq] at hstep
    subst hstep
    exact .inl ⟨startEvents_served hholding hopen hlate hnative,
      by simp only [Loses,not_false_eq_true]⟩
  | abandon =>
    simp only [hphase,Option.some.injEq] at hstep
    subst hstep
    exact .inr ⟨abandonUnstarted_lost hholding hopen hnative hstream,by simp only [Loses,hphase]⟩
  | expire => exact absurd rfl hexpire
  | polled disconnected => cases disconnected <;> simp only [hphase,reduceCtorEq] at hstep
  | retired stopped => cases stopped <;> simp only [hphase,reduceCtorEq] at hstep
  | _ => simp only [hphase,reduceCtorEq] at hstep

/-- A step of a wait on the native generator. -/
theorem advance_waiting {ticket : ℕ} {f g : Frame} {event : Event}
    (hphase : f.own.phase=.awaiting ∨ f.own.phase=.unwinding) (hserved : Served f.own)
    (hexpire : event≠.expire) (hstep : advance ticket f event=some g) : Served g.own := by
  unfold advance at hstep
  rcases hphase with hphase | hphase
  · simp only [Served,hphase] at hserved
    obtain ⟨hholding,hopen,hlate,hnative⟩ := hserved
    have hpast : f.own.abandonedLate=true → f.own.expired=true := fun habandoned => by
      rw [hlate] at habandoned
      exact absurd habandoned Bool.false_ne_true
    cases event with
    | token effect flushed =>
      simp only [hphase,Option.some.injEq] at hstep
      subst hstep
      exact takeToken_served effect flushed hholding hopen hlate
    | «over» flushed =>
      simp only [hphase,Option.some.injEq] at hstep
      subst hstep
      have hidle : Native.closed≠.running := by decide
      refine flush_served flushed ?_ ?_ hlate hidle
      · exact ⟨hholding.slotOwned,hholding.granted,hholding.returned,hholding.early⟩
      · exact ⟨hopen.outcomes,hopen.succeeded⟩
    | raised failure =>
      simp only [hphase,Option.some.injEq] at hstep
      subst hstep
      exact interrupted_served failure hholding hopen hpast
    | abandon =>
      simp only [hphase,Option.some.injEq] at hstep
      subst hstep
      refine ⟨⟨hholding.slotOwned,hholding.granted,hholding.returned,hholding.early⟩,
        ⟨hopen.outcomes,hopen.succeeded⟩,fun habandoned => ?_,hnative⟩
      simp only [suspend,abandoned,hlate,Bool.false_or,Bool.and_eq_true] at habandoned
      exact habandoned.1
    | expire => exact absurd rfl hexpire
    | polled disconnected =>
      cases disconnected <;> simp only [hphase,reduceCtorEq] at hstep
    | retired stopped => cases stopped <;> simp only [hphase,reduceCtorEq] at hstep
    | _ => simp only [hphase,reduceCtorEq] at hstep
  · have hkept := hserved
    simp only [Served,hphase] at hserved
    obtain ⟨hholding,hopen,hlate,hnative⟩ := hserved
    cases event with
    | raised failure =>
      simp only [hphase,Option.some.injEq] at hstep
      subst hstep
      exact interrupted_served failure hholding hopen hlate
    | abandon =>
      simp only [hphase,Option.some.injEq] at hstep
      subst hstep
      exact hkept
    | expire => exact absurd rfl hexpire
    | polled disconnected =>
      cases disconnected <;> simp only [hphase,reduceCtorEq] at hstep
    | retired stopped => cases stopped <;> simp only [hphase,reduceCtorEq] at hstep
    | _ => simp only [hphase,reduceCtorEq] at hstep

/-- A step of a stream at a yield before its outcome. -/
theorem yielded_open {ticket : ℕ} {f g : Frame} {event : Event} {point : Point}
    (hphase : f.own.phase=.yielded point) (hfinish : point≠.finish) (husage : point≠.usage)
    (hserved : Served f.own) (hexpire : event≠.expire)
    (hstep : advance ticket f event=some g) : Served g.own := by
  unfold advance at hstep
  have hparts : Holding f.own ∧ Undecided f.own ∧ f.own.abandonedLate=false ∧
      f.own.native≠.running := by
    cases point with
    | finish => exact absurd rfl hfinish
    | usage => exact absurd rfl husage
    | _ => simpa only [Served,hphase] using hserved
  obtain ⟨hholding,hopen,hlate,hnative⟩ := hparts
  have hpast : f.own.abandonedLate=true → f.own.expired=true := fun habandoned => by
    rw [hlate] at habandoned
    exact absurd habandoned Bool.false_ne_true
  cases event with
  | pull flushed =>
    cases point with
    | role =>
      simp only [hphase,Option.some.injEq] at hstep
      subst hstep
      exact nextToken_served hholding hopen hlate
    | token stopped =>
      simp only [hphase,Option.some.injEq] at hstep
      subst hstep
      exact afterToken_served stopped flushed hholding hopen hlate hnative
    | text =>
      simp only [hphase,Option.some.injEq] at hstep
      subst hstep
      exact succeed_served hholding hopen hlate hnative
    | finish => exact absurd rfl hfinish
    | usage => exact absurd rfl husage
  | abandon =>
    simp only [hphase,Option.some.injEq] at hstep
    subst hstep
    exact abandoned_served hholding hopen hpast
  | expire => exact absurd rfl hexpire
  | polled disconnected => cases disconnected <;> simp only [hphase,reduceCtorEq] at hstep
  | retired stopped => cases stopped <;> simp only [hphase,reduceCtorEq] at hstep
  | _ => simp only [hphase,reduceCtorEq] at hstep

/-- A step of a stream at a yield after its success. -/
theorem yielded_succeeded {ticket : ℕ} {f g : Frame} {event : Event} {point : Point}
    (hphase : f.own.phase=.yielded point) (hpoint : point=.finish ∨ point=.usage)
    (hserved : Served f.own) (hexpire : event≠.expire)
    (hstep : advance ticket f event=some g) : Served g.own := by
  unfold advance at hstep
  have hparts : Holding f.own ∧ Decided f.own ∧ f.own.succeeded=true ∧
      f.own.native≠.running := by
    rcases hpoint with rfl | rfl <;> simpa only [Served,hphase] using hserved
  obtain ⟨hholding,hdecided,hsucceeded,hnative⟩ := hparts
  cases event with
  | pull flushed =>
    rcases hpoint with rfl | rfl
    · simp only [hphase,Option.some.injEq] at hstep
      subst hstep
      exact yieldUsage_served hholding hdecided hsucceeded hnative
    · simp only [hphase,Option.some.injEq] at hstep
      subst hstep
      exact closeEvents_served hholding hdecided
  | abandon =>
    simp only [hphase,Option.some.injEq] at hstep
    subst hstep
    exact abandoned_succeeded_served hholding hdecided hsucceeded
  | expire => exact absurd rfl hexpire
  | polled disconnected => cases disconnected <;> simp only [hphase,reduceCtorEq] at hstep
  | retired stopped => cases stopped <;> simp only [hphase,reduceCtorEq] at hstep
  | _ => simp only [hphase,reduceCtorEq] at hstep

/-- A step after the outcome of a request: its generator closes, its last lines
are sent, and an ended request stays. -/
theorem advance_decided {ticket : ℕ} {f g : Frame} {event : Event} (hserved : Served f.own)
    (hphase : (∃ exit,f.own.phase=.closing exit) ∨ (∃ lines,f.own.phase=.tail lines) ∨
      f.own.phase=.ended) (hexpire : event≠.expire) (hstep : advance ticket f event=some g) :
    Served g.own := by
  unfold advance at hstep
  rcases hphase with ⟨exit,hphase⟩ | ⟨lines,hphase⟩ | hphase
  · simp only [Served,hphase] at hserved
    obtain ⟨hholding,hdecided,-⟩ := hserved
    cases event with
    | retired stopped =>
      cases stopped with
      | false =>
        simp only [hphase,Option.some.injEq] at hstep
        subst hstep
        exact closed_served hholding hdecided
      | true =>
        simp only [hphase,Option.some.injEq] at hstep
        subst hstep
        exact closed_served hholding hdecided
    | expire => exact absurd rfl hexpire
    | polled disconnected =>
      cases disconnected <;> simp only [hphase,reduceCtorEq] at hstep
    | _ => simp only [hphase,reduceCtorEq] at hstep
  · simp only [Served,hphase] at hserved
    obtain ⟨hreleased,hdecided⟩ := hserved
    cases event with
    | pull flushed =>
      cases lines with
      | zero =>
        simp only [hphase,Option.some.injEq] at hstep
        subst hstep
        exact leave_served hreleased hdecided
      | succ lines =>
        simp only [hphase,Option.some.injEq] at hstep
        subst hstep
        exact ⟨⟨hreleased.slotOwned,hreleased.granted,hreleased.returned,hreleased.early,
          hreleased.native⟩,hdecided.once,hdecided.late⟩
    | abandon =>
      simp only [hphase,Option.some.injEq] at hstep
      subst hstep
      exact leave_served hreleased hdecided
    | expire => exact absurd rfl hexpire
    | polled disconnected =>
      cases disconnected <;> simp only [hphase,reduceCtorEq] at hstep
    | retired stopped => cases stopped <;> simp only [hphase,reduceCtorEq] at hstep
    | _ => simp only [hphase,reduceCtorEq] at hstep
  · cases event with
    | expire => exact absurd rfl hexpire
    | polled disconnected =>
      cases disconnected <;> simp only [hphase,reduceCtorEq] at hstep
    | retired stopped => cases stopped <;> simp only [hphase,reduceCtorEq] at hstep
    | _ => simp only [hphase,reduceCtorEq] at hstep

/-- One step of a task past the queue. -/
theorem advance_past {ticket : ℕ} {f g : Frame} {event : Event} (hserved : Served f.own)
    (hstep : advance ticket f event=some g) :
    Served g.own ∧ ¬Loses ticket f event ∨ Lost g.own ∧ Loses ticket f event := by
  by_cases hexpire : event=.expire
  · subst hexpire
    unfold advance at hstep
    cases hstep
    exact .inl ⟨expire_served hserved,by simp only [Loses,not_false_eq_true]⟩
  cases hphase : f.own.phase with
  | polling =>
    rw [Served,hphase] at hserved
    exact absurd hserved not_false
  | sleeping =>
    rw [Served,hphase] at hserved
    exact absurd hserved not_false
  | unstarted => exact advance_unstarted hphase hserved hexpire hstep
  | awaiting =>
    exact .inl ⟨advance_waiting (.inl hphase) hserved hexpire hstep,by simp [Loses,hphase]⟩
  | unwinding =>
    exact .inl ⟨advance_waiting (.inr hphase) hserved hexpire hstep,by simp [Loses,hphase]⟩
  | yielded point =>
    refine .inl ⟨?_,by simp [Loses,hphase]⟩
    by_cases hpoint : point=.finish ∨ point=.usage
    · exact yielded_succeeded hphase hpoint hserved hexpire hstep
    · rw [not_or] at hpoint
      exact yielded_open hphase hpoint.1 hpoint.2 hserved hexpire hstep
  | closing exit =>
    exact .inl ⟨advance_decided hserved (.inl ⟨exit,hphase⟩) hexpire hstep,
      by simp [Loses,hphase]⟩
  | tail lines =>
    exact .inl ⟨advance_decided hserved (.inr (.inl ⟨lines,hphase⟩)) hexpire hstep,
      by simp [Loses,hphase]⟩
  | ended =>
    exact .inl ⟨advance_decided hserved (.inr (.inr hphase)) hexpire hstep,
      by simp [Loses,hphase]⟩

/-- One step of a task: a sound request stays sound, unless the step loses it. -/
theorem advance_sound {ticket : ℕ} {f g : Frame} {event : Event} (h : Sound f.own)
    (hstep : advance ticket f event=some g) :
    Sound g.own ∧ ¬Loses ticket f event ∨ Lost g.own ∧ Loses ticket f event := by
  by_cases hqueued : Queued f.own
  · have hfresh := h.fresh hqueued
    by_cases hexpire : event=.expire
    · subst hexpire
      unfold advance at hstep
      cases hstep
      refine .inl ⟨.inl ⟨hqueued,?_⟩,by simp only [Loses,not_false_eq_true]⟩
      exact ⟨hfresh.native,hfresh.slotOwned,hfresh.succeeded,hfresh.granted,hfresh.returned,
        hfresh.early,hfresh.abandonedLate,hfresh.outcomes⟩
    · exact advance_queued hqueued hfresh hexpire hstep
  · rcases advance_past (h.served hqueued) hstep with ⟨hserved,hkeeps⟩ | hlost
    · exact .inl ⟨.inr hserved,hkeeps⟩
    · exact .inr hlost

/-- A lost request stays lost. -/
theorem Lost.advance {ticket : ℕ} {f g : Frame} {event : Event} (h : Lost f.own)
    (hstep : advance ticket f event=some g) : Lost g.own := by
  unfold ServingAdmission.advance at hstep
  have hphase := h.ended
  cases event with
  | expire =>
    simp only [Option.some.injEq] at hstep
    subst hstep
    exact ⟨hphase,⟨h.released.slotOwned,h.released.granted,h.released.returned,
      h.released.early,h.released.native⟩,h.outcomes⟩
  | polled disconnected =>
    cases disconnected <;> simp only [hphase,reduceCtorEq] at hstep
  | retired stopped =>
    cases stopped <;> simp only [hphase,reduceCtorEq] at hstep
  | _ => simp only [hphase,reduceCtorEq] at hstep

/-- A request past the queue is not in it. -/
theorem Served.not_queued {r : Request} (h : Served r) : ¬Queued r := by
  intro hqueued
  rcases hqueued with hphase | hphase
  · rw [Served,hphase] at h
    exact h
  · rw [Served,hphase] at h
    exact h

/-- A lost request is not in the queue. -/
theorem Lost.not_queued {r : Request} (h : Lost r) : ¬Queued r := by
  simp only [Queued,h.ended,reduceCtorEq,or_self,not_false_eq_true]

end Hllm.ServingAdmission
