import Hllm.ControlReservations
import Hllm.ControlAdmission
import Hllm.SchedulerBatches

/-!
# A worker: control service, handlers and schedulers together

Every deployment object has a scheduler of its own, configured once when the
stage is loaded. A handler with a lease calls `execute` on the scheduler of
its lease's deployment, with the sequence, deadline and cancellation flag of
its request, and is inside that call until it returns or throws. It neither
releases its request nor returns meanwhile. Cancellation flags may be seen
raised at any time.
-/

namespace Hllm.WorkerModel

open RunInvariants ControlModel ControlTable ControlAdmission

variable {ι ο ε : Type}

/-- A worker process. -/
structure Worker (ι ο ε : Type) where
  /-- The control service and its threads. -/
  control : ControlModel.World
  /-- The scheduler of each deployment. -/
  scheduler : ℕ → SchedulerModel.World ι ο ε
  /-- The `execute` call a handler is in, by its caller number. -/
  call : ℕ → Option ℕ

/-- Steps of a worker. -/
inductive Action (ι ο ε : Type)
  /-- A step of the control service. -/
  | control (action : ControlModel.Action)
  /-- A handler calls `execute` with an input at a position. -/
  | execute (thread caller : ℕ) (input : ι) (position : ℕ) (prefilling : Bool)
  /-- A step inside the `execute` calls of one deployment. -/
  | schedule (deployment : ℕ) (action : SchedulerModel.Action ι ο ε)
  /-- A handler's `execute` call is over. -/
  | finish (thread : ℕ)

/-- Control steps a handler cannot make from inside a call. -/
def Worker.blocked (w : Worker ι ο ε) : ControlModel.Action → Bool
  | .complete t _ => (w.call t).isSome
  | .leave t _ _ _ => (w.call t).isSome
  | _ => false

/-- The arguments a handler passes to `execute`. -/
def executeCall (c : Control) (d o : ℕ) (input : ι) (position : ℕ) (prefilling : Bool) :
    SchedulerModel.Call ι :=
  ⟨input,position,o,prefilling,(c.object o).deadline,(c.loaded d).backend.supportsDecodeBatch⟩

/-- A handler enters `execute`. -/
def Worker.execute (w : Worker ι ο ε) (t c : ℕ) (input : ι) (position : ℕ) (prefilling : Bool) :
    Option (Worker ι ο ε) :=
  match w.control.thread t,w.call t with
  | .leased (some d) o,none =>
    ((w.scheduler d).enter c (executeCall w.control.toControl d o input position prefilling)).map
      fun s => {w with
        scheduler := Function.update w.scheduler d s
        call := Function.update w.call t (some c)}
  | _,_ => none

/-- Steps made by callers that are already inside `execute`. -/
def inside : SchedulerModel.Action ι ο ε → Bool
  | .enter _ _ => false
  | .configure _ => false
  | _ => true

/-- A handler leaves `execute`. -/
def Worker.finish (w : Worker ι ο ε) (t : ℕ) : Option (Worker ι ο ε) :=
  match w.control.thread t,w.call t with
  | .leased (some d) _,some c =>
    match (w.scheduler d).phase c with
    | .ended _ => some {w with call := Function.update w.call t none}
    | _ => none
  | _,_ => none

/-- The step function of a worker. -/
def Worker.step (textDigest : String → String) (w : Worker ι ο ε) :
    Action ι ο ε → Option (Worker ι ο ε)
  | .control a =>
    if w.blocked a then none
    else (w.control.step textDigest a).map fun c => {w with control := c}
  | .execute t c input position prefilling => w.execute t c input position prefilling
  | .schedule d a =>
    if inside a then
      ((w.scheduler d).step a).map fun s =>
        {w with scheduler := Function.update w.scheduler d s}
    else none
  | .finish t => w.finish t

/-- A new deployment's scheduler after `configure`. With a size it rejects the
stage is never loaded. -/
def newScheduler (blank : SchedulerModel.Call ι) (maximumDecodeBatch : ℕ) :
    SchedulerModel.World ι ο ε :=
  ((SchedulerModel.World.start blank).configure maximumDecodeBatch).getD
    (SchedulerModel.World.start blank)

/-- A fresh worker. -/
def Worker.start (control : ControlModel.World) (blank : SchedulerModel.Call ι) :
    Worker ι ο ε where
  control := control
  scheduler := fun _ => newScheduler blank control.config.maximumDecodeBatch
  call := fun _ => none

/-- All interleavings of one worker. -/
def machine (ι ο ε : Type) (textDigest : String → String) :
    Machine (Worker ι ο ε) (Action ι ο ε) where
  initial := fun w => ∃ control blank,(ControlModel.machine textDigest).initial control ∧
    w=Worker.start control blank
  step := Worker.step textDigest

variable {w w' : Worker ι ο ε} {textDigest : String → String}

/-- Everything a worker's step can do, with the guards it tested. -/
inductive Transition (textDigest : String → String) (w : Worker ι ο ε) : Worker ι ο ε → Prop
  /-- The control service steps. -/
  | control {a : ControlModel.Action} {control : ControlModel.World} (hfree : w.blocked a=false)
      (hone : (ControlModel.machine textDigest).step w.control a=some control) :
      Transition textDigest w {w with control := control}
  /-- Somebody inside `execute` steps. -/
  | scheduled {d : ℕ} {a : SchedulerModel.Action ι ο ε} {s : SchedulerModel.World ι ο ε}
      (hinside : inside a=true)
      (hone : (SchedulerModel.machine ι ο ε).step (w.scheduler d) a=some s) :
      Transition textDigest w {w with scheduler := Function.update w.scheduler d s}
  /-- A handler enters `execute`. -/
  | entered {t c d o : ℕ} {input : ι} {position : ℕ} {prefilling : Bool}
      (hthread : w.control.thread t=.leased (some d) o) (hcall : w.call t=none)
      (hphase : (w.scheduler d).phase c=.absent) (hholder : (w.scheduler d).holder=none) :
      Transition textDigest w {w with
        scheduler := Function.update w.scheduler d ((w.scheduler d).entered c
          (executeCall w.control.toControl d o input position prefilling))
        call := Function.update w.call t (some c)}
  /-- A handler leaves `execute`. -/
  | finished {t c d o : ℕ} {outcome : SchedulerModel.Outcome ο ε}
      (hthread : w.control.thread t=.leased (some d) o) (hcall : w.call t=some c)
      (hphase : (w.scheduler d).phase c=.ended outcome) :
      Transition textDigest w {w with call := Function.update w.call t none}

/-- Inversion of the step function. -/
theorem step_transition {a : Action ι ο ε} (h : w.step textDigest a=some w') :
    Transition textDigest w w' := by
  cases a with
  | control b =>
    simp only [Worker.step] at h
    split at h
    · cases h
    · rename_i hfree
      obtain ⟨c,hc,rfl⟩ := Option.map_eq_some_iff.mp h
      exact .control (by simpa using hfree) hc
  | execute t c input position prefilling =>
    simp only [Worker.step,Worker.execute] at h
    split at h
    · rename_i d o hthread hcall
      obtain ⟨s,hs,rfl⟩ := Option.map_eq_some_iff.mp h
      unfold SchedulerModel.World.enter at hs
      split at hs
      · cases hs
        exact .entered hthread hcall ‹_› ‹_›
      · cases hs
    · cases h
  | schedule d b =>
    simp only [Worker.step] at h
    split at h
    · rename_i hinside
      obtain ⟨s,hs,rfl⟩ := Option.map_eq_some_iff.mp h
      exact .scheduled hinside hs
    · cases h
  | finish t =>
    simp only [Worker.step,Worker.finish] at h
    split at h
    · rename_i d o c hthread hcall
      split at h
      · cases h
        exact .finished hthread hcall ‹_›
      · cases h
    · cases h

/-- The control service of a worker runs as it does on its own. -/
theorem control_reachable (h : (machine ι ο ε textDigest).Reachable w) :
    (ControlModel.machine textDigest).Reachable w.control := by
  refine Machine.Reachable.induct
    (I:=fun w => (ControlModel.machine textDigest).Reachable w.control) ?_ ?_ h
  · rintro s ⟨control,blank,hcontrol,rfl⟩
    exact ⟨control,[],hcontrol,.nil _⟩
  · intro s a t hs hone
    cases step_transition hone with
    | control _ hb => exact hs.step hb
    | _ => exact hs

/-- A new scheduler is one the scheduler's own machine reaches. -/
theorem newScheduler_reachable (blank : SchedulerModel.Call ι) (size : ℕ) :
    (SchedulerModel.machine ι ο ε).Reachable (newScheduler blank size) := by
  have hstart : (SchedulerModel.machine ι ο ε).Reachable (SchedulerModel.World.start blank) :=
    ⟨_,[],⟨blank,rfl⟩,.nil _⟩
  unfold newScheduler
  cases hconfigure : (SchedulerModel.World.start blank : SchedulerModel.World ι ο ε).configure
      size with
  | none => exact hstart
  | some s => exact hstart.step (a:=.configure size) hconfigure

/-- Every scheduler of a worker runs as it does on its own. -/
theorem scheduler_reachable (h : (machine ι ο ε textDigest).Reachable w) (d : ℕ) :
    (SchedulerModel.machine ι ο ε).Reachable (w.scheduler d) := by
  refine Machine.Reachable.induct
    (I:=fun w => ∀ d,(SchedulerModel.machine ι ο ε).Reachable (w.scheduler d)) ?_ ?_ h d
  · rintro s ⟨control,blank,-,rfl⟩ d
    exact newScheduler_reachable blank _
  · intro s a t hs hone
    have hupdate : ∀ {d : ℕ} {next : SchedulerModel.World ι ο ε},
        (SchedulerModel.machine ι ο ε).Reachable next →
        ∀ d',(SchedulerModel.machine ι ο ε).Reachable (Function.update s.scheduler d next d') :=
      fun hnext => (Function.forall_update_iff s.scheduler fun _ =>
        (SchedulerModel.machine ι ο ε).Reachable).mpr ⟨hnext,fun d' _ => hs d'⟩
    cases step_transition hone with
    | scheduled _ hb => exact hupdate ((hs _).step hb)
    | @entered _ c d' o input position prefilling _ _ hphase hholder =>
      refine hupdate ((hs d').step (a:=.enter c
        (executeCall s.control.toControl d' o input position prefilling)) ?_)
      simp only [SchedulerModel.machine,SchedulerModel.World.step,SchedulerModel.World.enter,
        hphase,hholder]
    | _ => exact hs

end Hllm.WorkerModel
