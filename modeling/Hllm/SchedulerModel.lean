import Hllm.RunInvariants
import Mathlib.Tactic.Simps.Basic
import Mathlib.Tactic.Push
import Mathlib.Order.Basic

/-!
# The native stage scheduler as a step machine

Any number of RPC callers run `StageScheduler::execute` at once. A step is
one piece of that function executed under the scheduler mutex, or the
backend call made without it. Clock readings, cancellations and backend
answers are supplied by the action; nothing is assumed about their order.
Caller numbers stand for the stack tickets shared through raw pointers.
The summed queueing delay is a float statistic read by no decision and is
the only field left out.
-/

namespace Hllm.SchedulerModel

open RunInvariants

/-- Largest decode batch a scheduler may be configured for. -/
def kMaximumDecodeBatch : ℕ := 8

/-- Decode items that may pass a waiting prefill. -/
def kMaximumDecodeStreak : ℕ := 8

/-- Arguments of one `execute` call. -/
structure Call (ι : Type) where
  /-- Stage input handed to the backend. -/
  input : ι
  /-- First position of the input. -/
  position : ℕ
  /-- The sequence object the call works on. -/
  sequence : ℕ
  /-- The sequence's prefilling flag when the call is queued. -/
  prefilling : Bool
  /-- Deadline on the system clock. -/
  deadline : ℕ
  /-- Answer of `supports_decode_batch` for the call's backend. -/
  batchSupported : Bool

/-- Position zero and prefilling sequences go to the prefill queue. -/
def Call.prefill {ι : Type} (call : Call ι) : Bool := call.position==0 || call.prefilling

/-- Errors given to a ticket that leaves the queue without being computed. -/
inductive QueueError
  /-- "deadline expired in native queue" -/
  | deadlineExceeded
  /-- "request cancelled in native queue" -/
  | cancelled
  deriving DecidableEq

/-- Errors shared by every member of one dispatch. -/
inductive DispatchError (ε : Type)
  /-- Whatever the backend threw. -/
  | backend (error : ε)
  /-- "batch output count mismatch" -/
  | outputCountMismatch

/-- Contents of a ticket's exception pointer. -/
inductive TicketError (ε : Type)
  /-- Dropped before compute. -/
  | queue (error : QueueError)
  /-- Failed with its whole dispatch. -/
  | dispatch (error : DispatchError ε)

/-- How an `execute` call ends. The last constructor is the undefined read of
an empty result, which must be unreachable. -/
inductive Outcome (ο ε : Type)
  /-- The call returns an output. -/
  | returned (output : ο)
  /-- The call rethrows the ticket's error. -/
  | thrown (error : TicketError ε)
  /-- Dereference of an empty optional. -/
  | undefined

/-- A caller's stack ticket. -/
structure Ticket (ι ο ε : Type) where
  /-- The queued item with its deadline. -/
  call : Call ι
  /-- Popped from its queue by some leader. -/
  claimed : Bool
  /-- Result or error has been stored. -/
  done : Bool
  /-- Output moved in by the leader. -/
  result : Option ο
  /-- Error stored by the leader. -/
  error : Option (TicketError ε)

/-- The end of `execute`: rethrow the error, else move the result out. -/
def Ticket.outcome {ι ο ε : Type} (ticket : Ticket ι ο ε) : Outcome ο ε :=
  match ticket.error,ticket.result with
  | some error,_ => .thrown error
  | none,some output => .returned output
  | none,none => .undefined

/-- Where a caller stands in `execute`. -/
inductive Phase (ο ε : Type)
  /-- Not called yet. -/
  | absent
  /-- At the loop head with the mutex held. -/
  | checking
  /-- Inside `wait_for`, mutex released. -/
  | waiting
  /-- Inside the claim loop with the mutex held. -/
  | claiming (limit : ℕ) (storage : List ℕ)
  /-- Inside the backend with the mutex released. -/
  | executing (dispatch : List ℕ)
  /-- Backend finished, mutex not yet taken again. -/
  | computed (dispatch : List ℕ) (result : Except (DispatchError ε) (List ο))
  /-- Returned or thrown; the ticket no longer exists. -/
  | ended (outcome : Outcome ο ε)

/-- Ghost record of what happened, in order. -/
inductive Event (ο ε : Type)
  /-- A ticket was pushed on one of the queues. -/
  | enqueued (caller : ℕ) (prefill : Bool)
  /-- A dispatch entered the backend. -/
  | dispatched (members : List ℕ) (prefill : Bool)
  /-- A dispatch's results were delivered. -/
  | completed (members : List ℕ) (result : Except (DispatchError ε) (List ο))

/-- The fields of `StageScheduler`. -/
structure Scheduler where
  /-- FIFO of prefill tickets. -/
  prefills : List ℕ
  /-- FIFO of decode tickets. -/
  decodes : List ℕ
  /-- Configured decode batch limit. -/
  maximumDecodeBatch : ℕ
  /-- Size of the dispatch in the backend, or zero. -/
  executing : ℕ
  /-- Saturating count of decode items since the last prefill dispatch. -/
  decodeStreak : ℕ
  /-- Items delivered so far. -/
  completedSteps : ℕ
  /-- Batches of more than one item delivered so far. -/
  decodeBatches : ℕ
  /-- Largest such batch. -/
  largestDecodeBatch : ℕ

/-- The queue a ticket of the given kind uses. -/
def Scheduler.queue (s : Scheduler) (prefill : Bool) : List ℕ :=
  if prefill then s.prefills else s.decodes

/-- Replace one of the two queues. -/
def Scheduler.withQueue (s : Scheduler) (prefill : Bool) (queue : List ℕ) : Scheduler :=
  if prefill then {s with prefills := queue} else {s with decodes := queue}

/-- `StageScheduler::next`: decodes first, unless the streak is used up. -/
def Scheduler.next (s : Scheduler) : Option ℕ :=
  if s.prefills≠[] ∧ (s.decodes=[] ∨ kMaximumDecodeStreak ≤ s.decodeStreak) then s.prefills.head?
  else s.decodes.head?

/-- Most tickets a leader with this call claims. -/
def Scheduler.limit {ι : Type} (s : Scheduler) (call : Call ι) : ℕ :=
  let limit := if call.prefill || !call.batchSupported then 1 else s.maximumDecodeBatch
  if !call.prefill && !s.prefills.isEmpty then min limit (kMaximumDecodeStreak-s.decodeStreak)
  else limit

/-- The scheduler with all its callers and their cancellation flags. -/
structure World (ι ο ε : Type) extends Scheduler where
  /-- Ticket cell of each caller. -/
  ticket : ℕ → Ticket ι ο ε
  /-- Program point of each caller. -/
  phase : ℕ → Phase ο ε
  /-- Each caller's atomic cancellation flag. -/
  cancelled : ℕ → Bool
  /-- Owner of the scheduler mutex. -/
  holder : Option ℕ
  /-- Ghost history, oldest first. -/
  history : List (Event ο ε)

variable {ι ο ε : Type}

/-- A fresh scheduler. The blank call fills cells no caller has written. -/
def World.start (blank : Call ι) : World ι ο ε where
  prefills := []
  decodes := []
  maximumDecodeBatch := 1
  executing := 0
  decodeStreak := 0
  completedSteps := 0
  decodeBatches := 0
  largestDecodeBatch := 0
  ticket := fun _ => ⟨blank,false,false,none,none⟩
  phase := fun _ => .absent
  cancelled := fun _ => false
  holder := none
  history := []

/-- `configure`: rejected for a size outside 1..8 or on an active scheduler,
in which case nothing changes. -/
def World.configure (w : World ι ο ε) (maximumDecodeBatch : ℕ) : Option (World ι ο ε) :=
  match w.holder with
  | some _ => none
  | none =>
    if maximumDecodeBatch=0 ∨ kMaximumDecodeBatch < maximumDecodeBatch then some w
    else if w.executing≠0 ∨ w.prefills≠[] ∨ w.decodes≠[] then some w
    else some {w with maximumDecodeBatch := maximumDecodeBatch}

/-- The state in which a new caller has pushed its ticket and holds the mutex. -/
@[simps toScheduler ticket phase cancelled holder history]
def World.entered (w : World ι ο ε) (c : ℕ) (call : Call ι) : World ι ο ε where
  toScheduler := w.withQueue call.prefill (w.queue call.prefill++[c])
  ticket := Function.update w.ticket c ⟨call,false,false,none,none⟩
  phase := Function.update w.phase c .checking
  cancelled := w.cancelled
  holder := some c
  history := w.history++[.enqueued c call.prefill]

/-- Take the mutex, push the ticket and reach the loop head. -/
def World.enter (w : World ι ο ε) (c : ℕ) (call : Call ι) : Option (World ι ο ε) :=
  match w.phase c,w.holder with
  | .absent,none => some (w.entered c call)
  | _,_ => none

/-- The error chosen for a dropped ticket by the second clock reading. -/
def dropError (recheck deadline : ℕ) : QueueError :=
  if deadline ≤ recheck then .deadlineExceeded else .cancelled

/-- Leave the loop of a done ticket: rethrow or return, releasing the mutex. -/
@[simps toScheduler ticket phase cancelled holder history]
def World.finish (w : World ι ο ε) (c : ℕ) : World ι ο ε where
  toScheduler := w.toScheduler
  ticket := w.ticket
  phase := Function.update w.phase c (.ended (w.ticket c).outcome)
  cancelled := w.cancelled
  holder := none
  history := w.history

/-- Erase an unclaimed ticket from its queue and throw. -/
@[simps toScheduler ticket phase cancelled holder history]
def World.abandon (w : World ι ο ε) (c recheck : ℕ) : World ι ο ε where
  toScheduler := w.withQueue (w.ticket c).call.prefill
    ((w.queue (w.ticket c).call.prefill).erase c)
  ticket := w.ticket
  phase := Function.update w.phase c
    (.ended (.thrown (.queue (dropError recheck (w.ticket c).call.deadline))))
  cancelled := w.cancelled
  holder := none
  history := w.history

/-- Release the mutex inside `wait_for`. -/
@[simps toScheduler ticket phase cancelled holder history]
def World.rest (w : World ι ο ε) (c : ℕ) : World ι ο ε where
  toScheduler := w.toScheduler
  ticket := w.ticket
  phase := Function.update w.phase c .waiting
  cancelled := w.cancelled
  holder := none
  history := w.history

/-- Become the leader of a new dispatch and enter the claim loop. -/
@[simps toScheduler ticket phase cancelled holder history]
def World.lead (w : World ι ο ε) (c : ℕ) : World ι ο ε where
  toScheduler := w.toScheduler
  ticket := w.ticket
  phase := Function.update w.phase c (.claiming (w.limit (w.ticket c).call) [])
  cancelled := w.cancelled
  holder := w.holder
  history := w.history

/-- One pass of the loop head up to its return, throw, wait or claim loop.
`now` and `recheck` are the two successive clock readings. -/
def World.check (w : World ι ο ε) (c now recheck : ℕ) : Option (World ι ο ε) :=
  match w.phase c with
  | .checking =>
    if (w.ticket c).done then some (w.finish c)
    else if !(w.ticket c).claimed && (w.cancelled c || decide ((w.ticket c).call.deadline ≤ now)) then
      some (w.abandon c recheck)
    else if (w.ticket c).claimed || w.executing≠0 || w.next≠some c then some (w.rest c)
    else some (w.lead c)
  | _ => none

/-- A waiting caller owns the mutex again. -/
@[simps toScheduler ticket phase cancelled holder history]
def World.woken (w : World ι ο ε) (c : ℕ) : World ι ο ε where
  toScheduler := w.toScheduler
  ticket := w.ticket
  phase := Function.update w.phase c .checking
  cancelled := w.cancelled
  holder := some c
  history := w.history

/-- Leave `wait_for` with the mutex. -/
def World.wake (w : World ι ο ε) (c : ℕ) : Option (World ι ο ε) :=
  match w.phase c,w.holder with
  | .waiting,none => some (w.woken c)
  | _,_ => none

/-- Claim a cancelled or expired front ticket and finish it with its error. -/
@[simps toScheduler ticket phase cancelled holder history]
def World.drop (w : World ι ο ε) (c member : ℕ) (rest : List ℕ) (recheck : ℕ) : World ι ο ε where
  toScheduler := w.withQueue (w.ticket c).call.prefill rest
  ticket := Function.update w.ticket member
    {w.ticket member with
      claimed := true
      done := true
      error := some (.queue (dropError recheck (w.ticket member).call.deadline))}
  phase := w.phase
  cancelled := w.cancelled
  holder := w.holder
  history := w.history

/-- Claim a live front ticket for the dispatch. -/
@[simps toScheduler ticket phase cancelled holder history]
def World.take (w : World ι ο ε) (c limit : ℕ) (storage : List ℕ) (member : ℕ)
    (rest : List ℕ) : World ι ο ε where
  toScheduler := w.withQueue (w.ticket c).call.prefill rest
  ticket := Function.update w.ticket member {w.ticket member with claimed := true}
  phase := Function.update w.phase c (.claiming limit (storage++[member]))
  cancelled := w.cancelled
  holder := w.holder
  history := w.history

/-- One iteration of the claim loop: pop the front ticket and either drop it
with its own error or put it into the dispatch. -/
def World.claim (w : World ι ο ε) (c now recheck : ℕ) : Option (World ι ο ε) :=
  match w.phase c with
  | .claiming limit storage =>
    match w.queue (w.ticket c).call.prefill with
    | [] => none
    | member::rest =>
      if storage.length < limit then
        if w.cancelled member || decide ((w.ticket member).call.deadline ≤ now) then
          some (w.drop c member rest recheck)
        else some (w.take c limit storage member rest)
      else none
  | _ => none

/-- An empty dispatch: back to the loop head with the mutex held. -/
@[simps toScheduler ticket phase cancelled holder history]
def World.retry (w : World ι ο ε) (c : ℕ) : World ι ο ε where
  toScheduler := w.toScheduler
  ticket := w.ticket
  phase := Function.update w.phase c .checking
  cancelled := w.cancelled
  holder := w.holder
  history := w.history

/-- Account for a nonempty dispatch and enter the backend without the mutex. -/
@[simps toScheduler ticket phase cancelled holder history]
def World.launch (w : World ι ο ε) (c : ℕ) (storage : List ℕ) : World ι ο ε where
  toScheduler :=
    {w.toScheduler with
      executing := storage.length
      decodeStreak := if (w.ticket c).call.prefill then 0
        else min (w.decodeStreak+storage.length) kMaximumDecodeStreak}
  ticket := w.ticket
  phase := Function.update w.phase c (.executing storage)
  cancelled := w.cancelled
  holder := none
  history := w.history++[.dispatched storage (w.ticket c).call.prefill]

/-- Leave the claim loop once its queue is empty or its limit is reached. -/
def World.dispatch (w : World ι ο ε) (c : ℕ) : Option (World ι ο ε) :=
  match w.phase c with
  | .claiming limit storage =>
    if w.queue (w.ticket c).call.prefill≠[] ∧ storage.length < limit then none
    else if storage=[] then some (w.retry c)
    else some (w.launch c storage)
  | _ => none

/-- The backend's answer as the leader keeps it. A single item has exactly one
output; a batch with a wrong number of outputs is an error. -/
def dispatchResult (dispatch : List ℕ) :
    Except ε (List ο) → Except (DispatchError ε) (List ο)
  | .error error => .error (.backend error)
  | .ok outputs =>
    if outputs.length=dispatch.length then .ok outputs else .error .outputCountMismatch

/-- The backend's answer is held by the leader, still without the mutex. -/
@[simps toScheduler ticket phase cancelled holder history]
def World.answered (w : World ι ο ε) (c : ℕ) (dispatch : List ℕ)
    (result : Except (DispatchError ε) (List ο)) : World ι ο ε where
  toScheduler := w.toScheduler
  ticket := w.ticket
  phase := Function.update w.phase c (.computed dispatch result)
  cancelled := w.cancelled
  holder := w.holder
  history := w.history

/-- The backend returns or throws. `execute` always yields one output. -/
def World.compute (w : World ι ο ε) (c : ℕ) (answer : Except ε (List ο)) :
    Option (World ι ο ε) :=
  match w.phase c with
  | .executing dispatch =>
    match dispatch,answer with
    | [_],.ok [] => none
    | [_],.ok (_::_::_) => none
    | _,_ => some (w.answered c dispatch (dispatchResult dispatch answer))
  | _ => none

/-- What delivery stores in the ticket of dispatch member number `i`. -/
def Ticket.deliver (ticket : Ticket ι ο ε) (i : ℕ) :
    Except (DispatchError ε) (List ο) → Ticket ι ο ε
  | .error error => {ticket with error := some (.dispatch error), done := true}
  | .ok outputs => {ticket with error := none, result := outputs[i]?, done := true}

/-- Every member has its result and the leader is back at the loop head. -/
@[simps toScheduler ticket phase cancelled holder history]
def World.delivered (w : World ι ο ε) (c : ℕ) (dispatch : List ℕ)
    (result : Except (DispatchError ε) (List ο)) : World ι ο ε where
  toScheduler :=
    {w.toScheduler with
      executing := 0
      completedSteps := w.completedSteps+dispatch.length
      decodeBatches := if 1 < dispatch.length then w.decodeBatches+1 else w.decodeBatches
      largestDecodeBatch := if 1 < dispatch.length then max w.largestDecodeBatch dispatch.length
        else w.largestDecodeBatch}
  ticket := fun t => if t∈dispatch then (w.ticket t).deliver (dispatch.idxOf t) result
    else w.ticket t
  phase := Function.update w.phase c .checking
  cancelled := w.cancelled
  holder := some c
  history := w.history++[.completed dispatch result]

/-- Take the mutex again and hand every member its result. -/
def World.deliver (w : World ι ο ε) (c : ℕ) : Option (World ι ο ε) :=
  match w.phase c,w.holder with
  | .computed dispatch result,none => some (w.delivered c dispatch result)
  | _,_ => none

/-- Steps of the scheduler, its callers and their environment. -/
inductive Action (ι ο ε : Type)
  /-- Reconfigure the batch size. -/
  | configure (maximumDecodeBatch : ℕ)
  /-- A new `execute` call takes the mutex and queues its ticket. -/
  | enter (caller : ℕ) (call : Call ι)
  /-- One pass of the loop head. -/
  | check (caller now recheck : ℕ)
  /-- A waiting caller gets the mutex. -/
  | wake (caller : ℕ)
  /-- One iteration of a claim loop. -/
  | claim (caller now recheck : ℕ)
  /-- End of a claim loop. -/
  | dispatch (caller : ℕ)
  /-- The backend answers. -/
  | compute (caller : ℕ) (answer : Except ε (List ο))
  /-- Results are handed out. -/
  | deliver (caller : ℕ)
  /-- Somebody sets a caller's cancellation flag. -/
  | cancel (caller : ℕ)

/-- The step function of the whole scheduler world. -/
def World.step (w : World ι ο ε) : Action ι ο ε → Option (World ι ο ε)
  | .configure size => w.configure size
  | .enter c call => w.enter c call
  | .check c now recheck => w.check c now recheck
  | .wake c => w.wake c
  | .claim c now recheck => w.claim c now recheck
  | .dispatch c => w.dispatch c
  | .compute c answer => w.compute c answer
  | .deliver c => w.deliver c
  | .cancel c => some {w with cancelled := Function.update w.cancelled c true}

/-- All interleavings of all callers of one scheduler. -/
def machine (ι ο ε : Type) : Machine (World ι ο ε) (Action ι ο ε) where
  initial := fun w => ∃ blank,w=World.start blank
  step := World.step

/-- Everything one step can do, with the guard the code tested. -/
inductive Transition (w : World ι ο ε) : World ι ο ε → Prop
  /-- A valid size on an idle scheduler. -/
  | configured {size : ℕ} (hpos : 1 ≤ size) (hmax : size ≤ kMaximumDecodeBatch)
      (hidle : w.executing=0 ∧ w.prefills=[] ∧ w.decodes=[]) :
      Transition w {w with maximumDecodeBatch := size}
  /-- A new caller queues its ticket. -/
  | entered {c : ℕ} {call : Call ι} (hphase : w.phase c=.absent) (hfree : w.holder=none) :
      Transition w (w.entered c call)
  /-- A done ticket's call ends. -/
  | finish {c : ℕ} (hphase : w.phase c=.checking) (hdone : (w.ticket c).done=true) :
      Transition w (w.finish c)
  /-- An unclaimed ticket's call ends with its own error. -/
  | abandon {c now recheck : ℕ} (hphase : w.phase c=.checking)
      (hdone : (w.ticket c).done=false) (hclaimed : (w.ticket c).claimed=false)
      (hstop : w.cancelled c=true ∨ (w.ticket c).call.deadline ≤ now) :
      Transition w (w.abandon c recheck)
  /-- The caller waits. -/
  | rest {c : ℕ} (hphase : w.phase c=.checking) (hdone : (w.ticket c).done=false)
      (hwait : (w.ticket c).claimed=true ∨ w.executing≠0 ∨ w.next≠some c) :
      Transition w (w.rest c)
  /-- The caller leads. -/
  | lead {c : ℕ} (hphase : w.phase c=.checking) (hdone : (w.ticket c).done=false)
      (hclaimed : (w.ticket c).claimed=false) (hidle : w.executing=0) (hnext : w.next=some c) :
      Transition w (w.lead c)
  /-- A waiting caller gets the mutex. -/
  | woken {c : ℕ} (hphase : w.phase c=.waiting) (hfree : w.holder=none) :
      Transition w (w.woken c)
  /-- The front ticket is dropped. -/
  | drop {c limit : ℕ} {storage : List ℕ} {member : ℕ} {rest : List ℕ} {now recheck : ℕ}
      (hphase : w.phase c=.claiming limit storage)
      (hqueue : w.queue (w.ticket c).call.prefill=member::rest) (hroom : storage.length < limit)
      (hstop : w.cancelled member=true ∨ (w.ticket member).call.deadline ≤ now) :
      Transition w (w.drop c member rest recheck)
  /-- The front ticket joins the dispatch. -/
  | take {c limit : ℕ} {storage : List ℕ} {member : ℕ} {rest : List ℕ} {now : ℕ}
      (hphase : w.phase c=.claiming limit storage)
      (hqueue : w.queue (w.ticket c).call.prefill=member::rest) (hroom : storage.length < limit)
      (hlive : w.cancelled member=false ∧ now<(w.ticket member).call.deadline) :
      Transition w (w.take c limit storage member rest)
  /-- Nothing was claimed. -/
  | retry {c limit : ℕ} (hphase : w.phase c=.claiming limit [])
      (hend : w.queue (w.ticket c).call.prefill=[] ∨ limit=0) : Transition w (w.retry c)
  /-- A dispatch enters the backend. -/
  | launch {c limit : ℕ} {storage : List ℕ} (hphase : w.phase c=.claiming limit storage)
      (hend : w.queue (w.ticket c).call.prefill=[] ∨ limit ≤ storage.length) (hsome : storage≠[]) :
      Transition w (w.launch c storage)
  /-- The backend answers. -/
  | answered {c : ℕ} {dispatch : List ℕ} {answer : Except ε (List ο)}
      (hphase : w.phase c=.executing dispatch) :
      Transition w (w.answered c dispatch (dispatchResult dispatch answer))
  /-- Results are handed out. -/
  | delivered {c : ℕ} {dispatch : List ℕ} {result : Except (DispatchError ε) (List ο)}
      (hphase : w.phase c=.computed dispatch result) (hfree : w.holder=none) :
      Transition w (w.delivered c dispatch result)
  /-- A cancellation flag is set. -/
  | cancel {c : ℕ} : Transition w {w with cancelled := Function.update w.cancelled c true}

/-- Inversion of the step function: every step is one of the transitions or
leaves the world as it was. -/
theorem step_transition {w w' : World ι ο ε} {a : Action ι ο ε} (h : w.step a=some w') :
    w'=w ∨ Transition w w' := by
  cases a with
  | configure size =>
    simp only [World.step,World.configure] at h
    split at h
    · cases h
    · split at h
      · exact .inl (Option.some.inj h).symm
      · split at h
        · exact .inl (Option.some.inj h).symm
        · rename_i hsize hbusy
          cases h
          rw [not_or] at hsize
          push Not at hbusy
          exact .inr (.configured (Nat.one_le_iff_ne_zero.mpr hsize.1) (Nat.le_of_not_lt hsize.2)
            hbusy)
  | enter c call =>
    simp only [World.step,World.enter] at h
    split at h
    · cases h
      exact .inr (.entered ‹_› ‹_›)
    · cases h
  | check c now recheck =>
    simp only [World.step,World.check] at h
    split at h
    · rename_i hphase
      split at h
      · cases h
        exact .inr (.finish hphase ‹_›)
      · rename_i hdone
        simp only [Bool.not_eq_true] at hdone
        split at h
        · rename_i hstop
          simp only [Bool.and_eq_true,Bool.not_eq_true',Bool.or_eq_true,decide_eq_true_eq] at hstop
          cases h
          exact .inr (@Transition.abandon ι ο ε w c now recheck hphase hdone hstop.1 hstop.2)
        · split at h
          · rename_i hwait
            simp only [Bool.or_eq_true,decide_eq_true_eq,or_assoc] at hwait
            cases h
            exact .inr (.rest hphase hdone hwait)
          · rename_i hlead
            simp only [Bool.or_eq_true,decide_eq_true_eq,not_or,Bool.not_eq_true,not_not] at hlead
            cases h
            exact .inr (.lead hphase hdone hlead.1.1 hlead.1.2 hlead.2)
    · cases h
  | wake c =>
    simp only [World.step,World.wake] at h
    split at h
    · cases h
      exact .inr (.woken ‹_› ‹_›)
    · cases h
  | claim c now recheck =>
    simp only [World.step,World.claim] at h
    split at h
    · rename_i limit storage hphase
      split at h
      · cases h
      · rename_i member rest hqueue
        split at h
        · rename_i hroom
          split at h
          · rename_i hstop
            simp only [Bool.or_eq_true,decide_eq_true_eq] at hstop
            cases h
            exact .inr (@Transition.drop ι ο ε w c limit storage member rest now recheck hphase hqueue
              hroom hstop)
          · rename_i hlive
            simp only [Bool.or_eq_true,decide_eq_true_eq,not_or,Bool.not_eq_true,
              Nat.not_le] at hlive
            cases h
            exact .inr (@Transition.take ι ο ε w c limit storage member rest now hphase hqueue hroom
              hlive)
        · cases h
    · cases h
  | dispatch c =>
    simp only [World.step,World.dispatch] at h
    split at h
    · rename_i limit storage hphase
      split at h
      · cases h
      · rename_i hend
        have hend' : w.queue (w.ticket c).call.prefill=[] ∨ limit ≤ storage.length := by
          by_cases hq : w.queue (w.ticket c).call.prefill=[]
          · exact .inl hq
          · exact .inr (by by_contra hlt; exact hend ⟨hq,by omega⟩)
        split at h
        · rename_i hnil
          subst hnil
          cases h
          exact .inr (.retry hphase (hend'.imp_right (by simp)))
        · rename_i hsome
          cases h
          exact .inr (.launch hphase hend' hsome)
    · cases h
  | compute c answer =>
    simp only [World.step,World.compute] at h
    split at h
    · rename_i dispatch hphase
      split at h
      · cases h
      · cases h
      · cases h
        exact .inr (.answered hphase)
    · cases h
  | deliver c =>
    simp only [World.step,World.deliver] at h
    split at h
    · cases h
      exact .inr (.delivered ‹_› ‹_›)
    · cases h
  | cancel c =>
    cases h
    exact .inr .cancel

end Hllm.SchedulerModel
