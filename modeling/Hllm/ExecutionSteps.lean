import Hllm.GenerationModel

/-!
# The steps of the second stage

What the calls of `Execute` lead to. It acknowledges only a termination that
names its own request, after it has released the request as completed.
-/

namespace Hllm.ExecutionSteps

open BoundaryCodec SamplingModel GenerationModel

variable {F D : Type} {e : Execution D}

/-- Points where a call may throw. -/
def throws : ExecutePoint D → Prop
  | .releasing _ => False
  | .leaving _ => False
  | _ => True

/-- Reads and writes that fail. -/
inductive Loses : ExecutePoint D → Reply D → String → Prop
  | reading : Loses .reading (.read none) "stage stream disconnected before termination"
  | progressed {progress} : Loses (.progressed progress) (.written false)
      "prefill acknowledgment failed"
  | answered {sampled} : Loses (.answered sampled) (.written false) "sampled token send failed"
  | acknowledging {terminal} : Loses (.acknowledging terminal) (.written false)
      "termination acknowledgment failed"

/-- The steps of `Execute` after it acquired its request. -/
inductive Follows (e : Execution D) : ExecutePoint D → Reply D → Execute D → Prop
  | threw {point error} (hthrows : throws point) :
      Follows e point (.threw error) (e.fails (.escaped error))
  | loses {point reply message} (h : Loses point reply message) :
      Follows e point reply (e.fails (disconnected message))
  | awaited : Follows e .awaiting .running (.running e .reading)
  | read {message} : Follows e .reading (.read (some message)) (.running e (.received message))
  | received {message} : Follows e (.received message) .running (e.takeMessage message)
  | computed {input output} : Follows e (.executing input) (.output output)
      ({ e with executed := e.executed+e.count }.takeOutput output)
  | progressing {progress} :
      Follows e (.progressing progress) .running (.running e (.progressed progress))
  | progressed {progress} : Follows e (.progressed progress) (.written true) (.running e .awaiting)
  | sampled {token} : Follows e (.sampled token) .running (e.answer token)
  | answering {sampled} :
      Follows e (.answering sampled) .running (.running e (.answered sampled))
  | answered {sampled} : Follows e (.answered sampled) (.written true) (.running e .awaiting)
  | released {terminal} :
      Follows e (.releasing terminal) .released (.running e (.acknowledging terminal))
  | acknowledged {terminal} :
      Follows e (.acknowledging terminal) (.written true) (.running e (.leaving (.ok ())))
  | left {expired cancelled} : Follows e (.leaving (.ok ())) (.left expired cancelled)
      (.returned .ok)
  | failed {error expired cancelled} : Follows e (.leaving (.error error))
      (.left expired cancelled) (.returned (GenerationModel.failure error expired cancelled))

/-- Inversion of what a call of `Execute` returns to. -/
theorem follows_of_resume {point : ExecutePoint D} {reply : Reply D} {h : Execute D}
    (hone : e.resume point reply=some h) : Follows e point reply h := by
  cases reply with
  | started now later contextDeadline random => cases hone
  | acquired lease => cases hone
  | finished status => cases hone
  | threw error =>
    cases point with
    | releasing terminal => cases hone
    | leaving result => cases hone
    | _ =>
      cases hone
      exact .threw trivial
  | running =>
    cases point with
    | awaiting =>
      cases hone
      exact .awaited
    | received message =>
      cases hone
      exact .received
    | progressing progress =>
      cases hone
      exact .progressing
    | sampled token =>
      cases hone
      exact .sampled
    | answering sampled =>
      cases hone
      exact .answering
    | _ => cases hone
  | output output =>
    cases point with
    | executing input =>
      cases hone
      exact .computed
    | _ => cases hone
  | written ok =>
    cases ok with
    | true =>
      cases point with
      | progressed progress =>
        cases hone
        exact .progressed
      | answered sampled =>
        cases hone
        exact .answered
      | acknowledging terminal =>
        cases hone
        exact .acknowledged
      | _ => cases hone
    | false =>
      cases point with
      | progressed progress =>
        cases hone
        exact .loses .progressed
      | answered sampled =>
        cases hone
        exact .loses .answered
      | acknowledging terminal =>
        cases hone
        exact .loses .acknowledging
      | _ => cases hone
  | read message =>
    cases point with
    | reading =>
      cases message with
      | none =>
        cases hone
        exact .loses .reading
      | some message =>
        cases hone
        exact .read
    | _ => cases message <;> cases hone
  | released =>
    cases point with
    | releasing terminal =>
      cases hone
      exact .released
    | _ => cases hone
  | left expired cancelled =>
    cases point with
    | leaving result =>
      cases result with
      | ok done =>
        cases hone
        exact .left
      | error error =>
        cases hone
        exact .failed
    | _ => cases hone

/-- The loop body leads on with the lease, short of the acknowledgment, and a
termination it accepts names the request of the lease. -/
def Continues (e : Execution D) (h : Execute D) : Prop :=
  ∃ e' point,h=.running e' point ∧ e'.lease=e.lease ∧
    (∀ terminal,point≠.acknowledging terminal) ∧ point≠.leaving (.ok ()) ∧
    ∀ terminal,point=.releasing terminal → terminal.requestId=e.lease.identity.requestId

/-- An exception leaves the loop. -/
theorem continues_fails (e : Execution D) (error : Thrown) : Continues e (e.fails error) :=
  ⟨e,_,rfl,rfl,nofun,nofun,nofun⟩

/-- An identity that passes is the lease's. -/
theorem requestId_of_validateIdentity {deployment request : String} {version microbatch : UInt64}
    {lease : Lease}
    (h : GenerationModel.validateIdentity deployment version request microbatch lease=.ok ()) :
    request=lease.identity.requestId := by
  unfold GenerationModel.validateIdentity BoundaryCodec.validateIdentity at h
  split at h
  · cases h
  · rename_i hsame
    simp only [not_or,not_not] at hsame
    exact hsame.2.2.1

/-- A termination is checked before the loop ends. -/
theorem continues_takeTermination (e : Execution D) (terminal : SequenceTermination) :
    Continues e (e.takeTermination terminal) := by
  unfold Execution.takeTermination
  split
  · exact continues_fails e _
  · rename_i hvalid
    split
    · exact continues_fails e _
    · refine ⟨e,_,rfl,rfl,nofun,nofun,?_⟩
      rintro _ ⟨⟩
      exact requestId_of_validateIdentity hvalid

/-- A boundary that is within the reservation goes to the backend. -/
theorem continues_enterBackend (e : Execution D) (input : BoundaryActivation) (prefilling : Bool) :
    Continues e (e.enterBackend input prefilling) := by
  unfold Execution.enterBackend
  dsimp only
  generalize (if e.sequence=0 ∧ e.prompt=0 then input.tokens.toNat else e.prompt)=prompt
  by_cases hlong : e.sequence=0 ∧ e.prompt=0 ∧ e.maximumPrompt < prompt
  · rw [if_pos hlong]
    exact continues_fails e _
  · rw [if_neg hlong]
    split
    · exact continues_fails e _
    · split
      · exact continues_fails e _
      · exact ⟨_,_,rfl,rfl,nofun,nofun,nofun⟩

/-- A message of the driver is a boundary or a termination, or throws. -/
theorem continues_takeMessage (e : Execution D) (message : StageMessage D) :
    Continues e (e.takeMessage message) := by
  unfold Execution.takeMessage
  split
  · exact continues_takeTermination e _
  · split
    · exact continues_fails e _
    · unfold Execution.takeTensor
      dsimp only
      split
      · exact continues_fails e _
      · exact continues_enterBackend e _ _
  · exact continues_fails e _

/-- The output of a pass is sent back. -/
theorem continues_takeOutput (e : Execution D) (output : StageOutput D) :
    Continues e (e.takeOutput output) := by
  unfold Execution.takeOutput
  split
  · split
    · exact ⟨_,_,rfl,rfl,nofun,nofun,nofun⟩
    · exact continues_fails e _
  · split
    · split
      · exact continues_fails e _
      · exact ⟨_,_,rfl,rfl,nofun,nofun,nofun⟩
    · exact continues_fails e _

/-- After `acquire`, the loop begins or an exception is thrown. -/
theorem continues_afterLease [Double F D] (opening : SequenceOpen D) (sampling : SamplingOptions D)
    (lease : Lease) : Continues (opening.execution lease) (opening.afterLease sampling lease) := by
  unfold SequenceOpen.afterLease
  split
  · exact continues_fails _ _
  · exact ⟨_,_,rfl,rfl,nofun,nofun,nofun⟩

/-- What every step after `acquire` keeps, and where the termination is acknowledged. -/
theorem follows_cases {point : ExecutePoint D} {reply : Reply D} {h : Execute D}
    (hone : Follows e point reply h) :
    Continues e h ∧ ((∀ terminal,point≠.acknowledging terminal) ∧
        (∀ result,point≠.leaving result) ∧ (∀ terminal,point≠.releasing terminal) ∨
        ∃ error,h=e.fails error) ∨
      (∃ terminal,point=.releasing terminal ∧ reply=.released ∧
        h=.running e (.acknowledging terminal)) ∨
      (∃ terminal,point=.acknowledging terminal ∧ h=.running e (.leaving (.ok ()))) ∨
      (∃ result,point=.leaving result) ∧ ∃ status,h=.returned status ∧
        (status.code=.ok → point=.leaving (.ok ())) := by
  have hsame : ∀ point',(∀ terminal,point'≠.acknowledging terminal) →
      point'≠.leaving (.ok ()) → (∀ terminal,point'≠.releasing terminal) →
      Continues e (.running e point') := fun point' hnot hleaving hfree =>
    ⟨e,point',rfl,rfl,hnot,hleaving,fun terminal heq => absurd heq (hfree terminal)⟩
  cases hone with
  | threw hthrows => exact .inl ⟨continues_fails e _,.inr ⟨_,rfl⟩⟩
  | loses hloses => exact .inl ⟨continues_fails e _,.inr ⟨_,rfl⟩⟩
  | received => exact .inl ⟨continues_takeMessage e _,.inl ⟨nofun,nofun,nofun⟩⟩
  | computed =>
    obtain ⟨e',point',heq,hlease,hpoint⟩ := continues_takeOutput
      { e with executed := e.executed+e.count } _
    exact .inl ⟨⟨e',point',heq,hlease,hpoint⟩,.inl ⟨nofun,nofun,nofun⟩⟩
  | sampled => exact .inl ⟨⟨_,_,rfl,rfl,nofun,nofun,nofun⟩,.inl ⟨nofun,nofun,nofun⟩⟩
  | released => exact .inr (.inl ⟨_,rfl,rfl,rfl⟩)
  | acknowledged => exact .inr (.inr (.inl ⟨_,rfl,rfl⟩))
  | left => exact .inr (.inr (.inr ⟨⟨_,rfl⟩,_,rfl,fun _ => rfl⟩))
  | failed =>
    exact .inr (.inr (.inr ⟨⟨_,rfl⟩,_,rfl,fun hok => absurd hok (failure_code _ _ _)⟩))
  | _ => exact .inl ⟨hsame _ nofun nofun nofun,.inl ⟨nofun,nofun,nofun⟩⟩

end Hllm.ExecutionSteps
