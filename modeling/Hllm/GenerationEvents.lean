import Hllm.GenerationModel

/-!
# The events of a generation

Whatever its calls come back with, `Generate` writes a prefix of one stream of
events, returns `OK` exactly when it wrote all of it, and generates as many
tokens as the request allows unless a stop token ends it.
-/

namespace Hllm.GenerationEvents

open SamplingModel GenerationModel
open ControlModel (Failure)

variable {F D : Type}

section Steps

/-- Points where a call may throw. -/
def throws : GeneratePoint D → Prop
  | .releasing => False
  | .leaving _ => False
  | _ => True

/-- Points where a failed peer is finished. -/
inductive PeerFails (g : Generation D) : GeneratePoint D → Reply D → String → Prop
  | opening : PeerFails g .opening (.written false) "cannot open downstream sequence"
  | sending {tensor} :
      PeerFails g (.sending tensor) (.written false) "downstream activation send failed"
  | reading : PeerFails g .reading (.read none) "downstream failed to return a sampled token"

/-- Calls on the peer or the client that fail for good. -/
inductive Disconnects (g : Generation D) : GeneratePoint D → Reply D → String → Prop
  | announced {token} : Disconnects g (.announced token) (.written false)
      "generation client disconnected"
  | emitted {token} : Disconnects g (.emitted token) (.written false)
      "generation client disconnected"
  | terminating : Disconnects g .terminating (.written false) "downstream termination failed"
  | unacknowledged : Disconnects g .acknowledging (.read none)
      "downstream cleanup was not acknowledged"
  | otherwise {message} (hack : g.acknowledges message=false) :
      Disconnects g .acknowledging (.read (some message))
        "downstream cleanup was not acknowledged"
  | undrained {message} : Disconnects g .draining (.read (some message))
      "downstream cleanup was not acknowledged"
  | unfinished {status : Status} (hstatus : status.code≠.ok) :
      Disconnects g .finishing (.finished status) "downstream cleanup was not acknowledged"
  | usage : Disconnects g .usage (.written false) "generation client disconnected"
  | terminal : Disconnects g .terminal (.written false) "generation client disconnected"

/-- The steps of `Generate` after it acquired its request. -/
inductive Drives (g : Generation D) : GeneratePoint D → Reply D → Generate D → Prop
  | threw {point error} (hthrows : throws point) :
      Drives g point (.threw error) (g.fails (.escaped error))
  | peerFails {point reply detail} (h : PeerFails g point reply detail) :
      Drives g point reply (.running g (.peerFailing detail))
  | disconnects {point reply message} (h : Disconnects g point reply message) :
      Drives g point reply (g.fails (disconnected message))
  | peerFailed {detail status} :
      Drives g (.peerFailing detail) (.finished status) (g.fails (peerFailure status detail))
  | opened : Drives g .opening (.written true) g.loopHead
  | entered : Drives g .looping .running g.enterBackend
  | sends {output} (hsplit : g.lease.split=true) : Drives g .executing (.output output)
      ({ g with executed := g.executed+g.tokens.length }.sendBoundary output)
  | takes {output} (hsplit : g.lease.split=false) : Drives g .executing (.output output)
      ({ g with executed := g.executed+g.tokens.length }.takeOutput output)
  | sent {tensor} : Drives g (.sending tensor) (.written true) (.running g .reading)
  | responded {message} : Drives g .reading (.read (some message)) (g.takeResponse message)
  | announces {token} (hfirst : g.generated=0) :
      Drives g (.sampled token) .running (.running g (.announcing token))
  | emits {token} (hfirst : g.generated≠0) : Drives g (.sampled token) .running (g.moveOn token)
  | announcing {token} :
      Drives g (.announcing token) .running (.running g (.announced token))
  | announced {token} : Drives g (.announced token) (.written true)
      ((g.record (.prefillComplete g.request.tokenIds.length)).moveOn token)
  | emitting {token} : Drives g (.emitting token) .running (.running g (.emitted token))
  | emitted {token} : Drives g (.emitted token) (.written true)
      ((g.record (.token token.id g.position token.logprob token.topLogprobs)).afterToken token)
  | terminating : Drives g .terminating (.written true) (.running g .acknowledging)
  | acknowledged {message} (hack : g.acknowledges message=true) :
      Drives g .acknowledging (.read (some message)) (.running g .draining)
  | drained : Drives g .draining (.read none) (.running g .finishing)
  | finished {status : Status} (hstatus : status.code=.ok) :
      Drives g .finishing (.finished status) (.running g .committing)
  | committing : Drives g .committing .running (.running g .releasing)
  | released : Drives g .releasing .released (.running g .usage)
  | usage : Drives g .usage (.written true)
      (.running (g.record (.usage g.request.tokenIds.length g.generated)) .terminal)
  | terminal : Drives g .terminal (.written true)
      (.running (g.record (.terminal terminalStateCompleted)) (.leaving (.ok ())))
  | left {expired cancelled} :
      Drives g (.leaving (.ok ())) (.left expired cancelled) (.returned g.request g.events .ok)
  | failed {error expired cancelled} : Drives g (.leaving (.error error)) (.left expired cancelled)
      (.returned g.request g.events (GenerationModel.failure error expired cancelled))

/-- Inversion of what a call of `Generate` returns to. -/
theorem drives_of_resume {g : Generation D} {point : GeneratePoint D} {reply : Reply D}
    {h : Generate D} (hone : g.resume point reply=some h) : Drives g point reply h := by
  cases reply with
  | started now later contextDeadline random => cases hone
  | acquired lease => cases hone
  | threw error =>
    cases point with
    | releasing => cases hone
    | leaving result => cases hone
    | _ =>
      cases hone
      exact .threw trivial
  | running =>
    cases point with
    | looping =>
      cases hone
      exact .entered
    | sampled token =>
      rw [Generation.resume,Generation.checked,Option.some.injEq] at hone
      subst hone
      split
      · exact .announces ‹_›
      · exact .emits ‹_›
    | announcing token =>
      cases hone
      exact .announcing
    | emitting token =>
      cases hone
      exact .emitting
    | committing =>
      cases hone
      exact .committing
    | _ => cases hone
  | output output =>
    cases point with
    | executing =>
      rw [Generation.resume,Generation.computed,Option.some.injEq] at hone
      subst hone
      split
      · exact .sends ‹_›
      · exact .takes (Bool.eq_false_iff.mpr ‹_›)
    | _ => cases hone
  | written ok =>
    cases ok with
    | true =>
      cases point with
      | opening =>
        cases hone
        exact .opened
      | sending tensor =>
        cases hone
        exact .sent
      | announced token =>
        cases hone
        exact .announced
      | emitted token =>
        cases hone
        exact .emitted
      | terminating =>
        cases hone
        exact .terminating
      | usage =>
        cases hone
        exact .usage
      | terminal =>
        cases hone
        exact .terminal
      | _ => cases hone
    | false =>
      cases point with
      | opening =>
        cases hone
        exact .peerFails .opening
      | sending tensor =>
        cases hone
        exact .peerFails .sending
      | announced token =>
        cases hone
        exact .disconnects .announced
      | emitted token =>
        cases hone
        exact .disconnects .emitted
      | terminating =>
        cases hone
        exact .disconnects .terminating
      | usage =>
        cases hone
        exact .disconnects .usage
      | terminal =>
        cases hone
        exact .disconnects .terminal
      | _ => cases hone
  | read message =>
    cases message with
    | none =>
      cases point with
      | reading =>
        cases hone
        exact .peerFails .reading
      | acknowledging =>
        cases hone
        exact .disconnects .unacknowledged
      | draining =>
        cases hone
        exact .drained
      | _ => cases hone
    | some message =>
      cases point with
      | reading =>
        cases hone
        exact .responded
      | acknowledging =>
        rw [Generation.resume,Generation.received,Option.some.injEq] at hone
        subst hone
        split
        · exact .acknowledged ‹_›
        · exact .disconnects (.otherwise (Bool.eq_false_iff.mpr ‹_›))
      | draining =>
        cases hone
        exact .disconnects .undrained
      | _ => cases hone
  | finished status =>
    cases point with
    | peerFailing detail =>
      cases hone
      exact .peerFailed
    | finishing =>
      rw [Generation.resume,Generation.finished,Option.some.injEq] at hone
      subst hone
      split
      · exact .finished ‹_›
      · exact .disconnects (.unfinished ‹_›)
    | _ => cases hone
  | released =>
    cases point with
    | releasing =>
      cases hone
      exact .released
    | _ => cases hone
  | left expired cancelled =>
    cases point with
    | leaving result =>
      cases result with
      | ok done =>
        cases hone
        exact .left
      | error error =>
        cases hone
        exact .failed
    | _ => cases hone

end Steps

section Stream

variable (request : GenerationRequest D)

/-- The event of the token in some place. -/
def tokenEvent (i : ℕ) (token : SampledToken D) : GenerationEvent D :=
  ⟨request.requestId,
    .token token.id (request.tokenIds.length+i) token.logprob token.topLogprobs⟩

/-- The events up to the last of some tokens. -/
def emitted (tokens : List (SampledToken D)) : List (GenerationEvent D) :=
  ⟨request.requestId,.prefillComplete request.tokenIds.length⟩::tokens.mapIdx (tokenEvent request)

/-- The event with the usage. -/
def usageEvent (tokens : List (SampledToken D)) : GenerationEvent D :=
  ⟨request.requestId,.usage request.tokenIds.length tokens.length⟩

/-- The event that ends the stream. -/
def terminalEvent : GenerationEvent D := ⟨request.requestId,.terminal terminalStateCompleted⟩

/-- The events of a generation of some tokens. -/
def stream (tokens : List (SampledToken D)) : List (GenerationEvent D) :=
  emitted request tokens++[usageEvent request tokens,terminalEvent request]

/-- The request is answered by these tokens: as many as it allows, or the last
one stops it. -/
structure Answers (tokens : List (SampledToken D)) : Prop where
  positive : 1 ≤ tokens.length
  bounded : tokens.length ≤ request.maximumNewTokens
  unstopped : ∀ token∈tokens.dropLast,token.id∉request.stopTokenIds
  stopped : tokens.length < request.maximumNewTokens →
    ∃ token,tokens.getLast?=some token ∧ token.id∈request.stopTokenIds

/-- Some events before the last one of a stream. -/
def Partial (events : List (GenerationEvent D)) : Prop :=
  ∃ tokens,events<+:emitted request tokens++[usageEvent request tokens]

variable {request}

/-- One more token is one more event. -/
theorem emitted_concat (tokens : List (SampledToken D)) (token : SampledToken D) :
    emitted request (tokens++[token])=
      emitted request tokens++[tokenEvent request tokens.length token] := by
  unfold emitted
  rw [List.mapIdx_append,List.mapIdx_singleton,Nat.zero_add,List.cons_append]

/-- Parts of a stream are prefixes of it. -/
theorem Partial.begins {events : List (GenerationEvent D)} (h : Partial request events) :
    ∃ tokens,events<+:stream request tokens := by
  obtain ⟨tokens,rest,hrest⟩ := h
  refine ⟨tokens,rest++[terminalEvent request],?_⟩
  rw [←List.append_assoc,hrest,stream,List.append_assoc]
  rfl

/-- A stream does not end before its last event. -/
theorem Partial.ne_stream {events : List (GenerationEvent D)} (h : Partial request events)
    (tokens : List (SampledToken D)) : events≠stream request tokens := by
  obtain ⟨others,hpart⟩ := h
  rintro rfl
  have hmem : terminalEvent request∈emitted request others++[usageEvent request others] := by
    refine hpart.subset ?_
    rw [stream]
    exact List.mem_append_right _ (List.mem_cons_of_mem _ (List.mem_singleton.mpr rfl))
  rcases List.mem_append.mp hmem with hmem|hmem
  · rcases List.mem_cons.mp hmem with hmem|hmem
    · cases congrArg GenerationEvent.body hmem
    · obtain ⟨i,hi,htoken⟩ := List.mem_mapIdx.mp hmem
      cases congrArg GenerationEvent.body htoken
  · cases congrArg GenerationEvent.body (List.mem_singleton.mp hmem)

/-- What was emitted is a part of a stream. -/
theorem part_emitted (tokens : List (SampledToken D)) :
    Partial request (emitted request tokens) :=
  ⟨tokens,List.prefix_append _ _⟩

end Stream

section Grammar

variable {g : Generation D} {tokens : List (SampledToken D)}

/-- The loop goes on after some tokens were emitted. -/
structure Generating (g : Generation D) (tokens : List (SampledToken D)) : Prop where
  prompt : 0 < g.request.tokenIds.length
  chunk : 0 < g.chunkSize
  counted : g.generated=tokens.length
  below : tokens.length < g.request.maximumNewTokens
  unstopped : ∀ token∈tokens,token.id∉g.request.stopTokenIds
  events : g.events=if tokens=[] then [] else emitted g.request tokens

/-- At the head of the loop: the prompt goes on, or the last token does. -/
structure Ready (g : Generation D) (tokens : List (SampledToken D)) : Prop
    extends Generating g tokens where
  input : tokens=[] ∧ g.position < g.request.tokenIds.length ∨
    tokens≠[] ∧ g.position+1=g.request.tokenIds.length+tokens.length ∧ g.tokens.length=1

/-- In a pass of the loop: it ends inside the prompt, or right before the next token. -/
structure Passing (g : Generation D) (tokens : List (SampledToken D)) : Prop
    extends Generating g tokens where
  inside : g.prefillOnly=true →
    tokens=[] ∧ g.position+g.tokens.length < g.request.tokenIds.length
  complete : g.prefillOnly=false →
    g.position+g.tokens.length=g.request.tokenIds.length+tokens.length

/-- The next token is emitted. -/
structure Emitting (g : Generation D) (tokens : List (SampledToken D)) : Prop where
  prompt : 0 < g.request.tokenIds.length
  chunk : 0 < g.chunkSize
  counted : g.generated=tokens.length
  below : tokens.length < g.request.maximumNewTokens
  unstopped : ∀ token∈tokens,token.id∉g.request.stopTokenIds
  events : g.events=emitted g.request tokens
  position : g.position=g.request.tokenIds.length+tokens.length

/-- The loop is over. -/
structure Generated (g : Generation D) (tokens : List (SampledToken D)) : Prop where
  counted : g.generated=tokens.length
  events : g.events=emitted g.request tokens
  answers : Answers g.request tokens

/-- What holds of the events at each point. -/
def AtPoint (g : Generation D) : GeneratePoint D → Prop
  | .opening => Ready g []
  | .looping => ∃ tokens,Ready g tokens
  | .executing => ∃ tokens,Passing g tokens
  | .sending _ => ∃ tokens,Passing g tokens
  | .reading => ∃ tokens,Passing g tokens
  | .peerFailing _ => Partial g.request g.events
  | .sampled _ => ∃ tokens,Passing g tokens ∧ g.prefillOnly=false
  | .announcing _ => Passing g [] ∧ g.prefillOnly=false
  | .announced _ => Passing g [] ∧ g.prefillOnly=false
  | .emitting _ => ∃ tokens,Emitting g tokens
  | .emitted _ => ∃ tokens,Emitting g tokens
  | .terminal => ∃ tokens,g.events=emitted g.request tokens++[usageEvent g.request tokens] ∧
      Answers g.request tokens
  | .leaving (.ok ()) => ∃ tokens,g.events=stream g.request tokens ∧ Answers g.request tokens
  | .leaving (.error _) => Partial g.request g.events
  | _ => ∃ tokens,Generated g tokens

/-- What holds of the events of `Generate`. -/
def Grammatical : Generate D → Prop
  | .starting _ => True
  | .acquiring request _ _ => 0 < request.tokenIds.length ∧ 0 < request.maximumNewTokens
  | .running g point => AtPoint g point
  | .returned request events status =>
    status.code=.ok ∧ (∃ tokens,events=stream request tokens ∧ Answers request tokens) ∨
      status.code≠.ok ∧ Partial request events

/-- The events of a loop that goes on. -/
theorem Generating.part (h : Generating g tokens) : Partial g.request g.events := by
  rw [h.events]
  split
  · exact ⟨[], List.nil_prefix⟩
  · exact part_emitted tokens

/-- The events before an exception. -/
theorem AtPoint.part {point : GeneratePoint D} (h : AtPoint g point)
    (hpoint : ∀ result,point≠.leaving result) : Partial g.request g.events := by
  have hgenerated : (∃ tokens,Generated g tokens) → Partial g.request g.events := by
    rintro ⟨tokens,h⟩
    rw [h.events]
    exact part_emitted tokens
  cases point with
  | opening => exact Generating.part (Ready.toGenerating h)
  | looping =>
    obtain ⟨tokens,h⟩ := h
    exact h.toGenerating.part
  | executing =>
    obtain ⟨tokens,h⟩ := h
    exact h.toGenerating.part
  | sending tensor =>
    obtain ⟨tokens,h⟩ := h
    exact h.toGenerating.part
  | reading =>
    obtain ⟨tokens,h⟩ := h
    exact h.toGenerating.part
  | peerFailing detail => exact h
  | sampled token =>
    obtain ⟨tokens,h,-⟩ := h
    exact h.toGenerating.part
  | announcing token => exact h.1.toGenerating.part
  | announced token => exact h.1.toGenerating.part
  | emitting token =>
    obtain ⟨tokens,h⟩ := h
    rw [h.events]
    exact part_emitted tokens
  | emitted token =>
    obtain ⟨tokens,h⟩ := h
    rw [h.events]
    exact part_emitted tokens
  | terminal =>
    obtain ⟨tokens,h,-⟩ := h
    rw [h]
    exact ⟨tokens,List.prefix_refl _⟩
  | leaving result => exact absurd rfl (hpoint result)
  | _ => exact hgenerated h

/-- The loop goes on, or a generation that is long enough is over. -/
theorem atPoint_loopHead {tokens : List (SampledToken D)}
    (hready : g.generated < g.request.maximumNewTokens → Ready g tokens)
    (hover : ¬g.generated < g.request.maximumNewTokens → Generated g tokens) :
    Grammatical g.loopHead := by
  unfold Generation.loopHead Generation.afterLoop
  split
  · exact ⟨tokens,hready ‹_›⟩
  · split
    · exact ⟨tokens,hover ‹_›⟩
    · exact ⟨tokens,hover ‹_›⟩

/-- An exception leaves what was written. -/
theorem grammatical_fails {point : GeneratePoint D} (h : AtPoint g point)
    (hpoint : ∀ result,point≠.leaving result) (error : Thrown) :
    Grammatical (g.fails error) :=
  h.part hpoint

/-- A pass starts inside the prompt or with the last token. -/
theorem passing_enterBackend (h : Ready g tokens) : Grammatical g.enterBackend := by
  refine ⟨tokens,⟨h.prompt,h.chunk,h.counted,h.below,h.unstopped,h.events⟩,fun hinside => ?_,
    fun hcomplete => ?_⟩
  · simp only [Bool.and_eq_true,decide_eq_true_eq] at hinside
    rcases h.input with ⟨hnone,-⟩|⟨hsome,hposition,-⟩
    · exact ⟨hnone,hinside.2⟩
    · have hpositive : 0 < tokens.length := List.length_pos_iff.mpr hsome
      have hin : g.position < g.request.tokenIds.length := hinside.1
      omega
  · simp only [Bool.and_eq_false_iff,decide_eq_false_iff_not] at hcomplete
    rcases h.input with ⟨hnone,hposition⟩|⟨hsome,hposition,hone⟩
    · have hlength : g.nextTokens.length=min g.chunkSize (g.request.tokenIds.length-g.position) := by
        rw [Generation.nextTokens,if_pos hposition,List.length_take,List.length_drop]
        omega
      have hend : ¬g.position+g.nextTokens.length < g.request.tokenIds.length := by
        rcases hcomplete with hcomplete|hcomplete
        · exact absurd hposition hcomplete
        · exact hcomplete
      rw [hnone,List.length_nil]
      change g.position+g.nextTokens.length=g.request.tokenIds.length+0
      omega
    · have hpositive : 0 < tokens.length := List.length_pos_iff.mpr hsome
      have hnext : g.nextTokens=g.tokens := by
        rw [Generation.nextTokens,if_neg (by omega)]
      change g.position+g.nextTokens.length=g.request.tokenIds.length+tokens.length
      rw [hnext,hone]
      exact hposition

/-- A chunk of the prompt leads to the next one. -/
theorem Passing.continueLoop (h : Passing g tokens) (hinside : g.prefillOnly=true) :
    Grammatical g.continueLoop := by
  obtain ⟨hnone,hposition⟩ := h.inside hinside
  refine @atPoint_loopHead _ _ tokens (fun _ => ?_) fun hover => ?_
  · exact ⟨⟨h.prompt,h.chunk,h.counted,h.below,h.unstopped,h.events⟩,.inl ⟨hnone,hposition⟩⟩
  · have hbelow := h.below
    rw [←h.counted] at hbelow
    exact absurd hbelow hover

/-- The output of the only stage. -/
theorem Passing.takeOutput (h : Passing g tokens) (output : StageOutput D) :
    Grammatical (g.takeOutput output) := by
  have hfails : ∀ error,Grammatical (g.fails error) := fun _ => h.part
  unfold Generation.takeOutput
  split
  · split
    · exact h.continueLoop ‹_›
    · exact hfails _
  · split
    · split
      · exact hfails _
      · exact ⟨tokens,h,Bool.eq_false_iff.mpr ‹_›⟩
    · exact hfails _

/-- The output of the first of two stages. -/
theorem Passing.sendBoundary (h : Passing g tokens) (output : StageOutput D) :
    Grammatical (g.sendBoundary output) := by
  have hfails : ∀ error,Grammatical (g.fails error) := fun _ => h.part
  unfold Generation.sendBoundary
  split
  · split
    · exact hfails _
    · split
      · exact hfails _
      · exact ⟨tokens,h⟩
  · exact hfails _

/-- The answer of the peer. -/
theorem Passing.takeResponse (h : Passing g tokens) (message : StageMessage D) :
    Grammatical (g.takeResponse message) := by
  have hfails : ∀ error,Grammatical (g.fails error) := fun _ => h.part
  unfold Generation.takeResponse
  split
  · split
    · unfold Generation.takeProgress
      split
      · exact hfails _
      · split
        · exact hfails _
        · exact h.continueLoop ‹_›
    · exact hfails _
  · split
    · unfold Generation.takeSampled
      split
      · exact hfails _
      · split
        · exact hfails _
        · exact ⟨tokens,h,Bool.eq_false_iff.mpr ‹_›⟩
    · exact hfails _

/-- After a token was written the loop goes on, unless the token stops it. -/
theorem Emitting.afterToken (h : Emitting g tokens) (token : SampledToken D) :
    Grammatical ((g.record (.token token.id g.position token.logprob
      token.topLogprobs)).afterToken token) := by
  have hevents : g.events++[⟨g.request.requestId,.token token.id g.position token.logprob
      token.topLogprobs⟩]=emitted g.request (tokens++[token]) := by
    rw [emitted_concat,h.events,tokenEvent,h.position]
  have hcounted : g.generated+1=(tokens++[token]).length := by
    rw [List.length_append,List.length_singleton,h.counted]
  have hbelow := h.below
  have hlength : (tokens++[token]).length=tokens.length+1 := by
    rw [List.length_append,List.length_singleton]
  have hdrop : (tokens++[token]).dropLast=tokens := List.dropLast_concat
  unfold Generation.afterToken
  dsimp only
  split
  · rename_i hstop
    have hanswers : Answers g.request (tokens++[token]) := by
      refine ⟨by omega,by omega,?_,fun _ => ⟨token,List.getLast?_concat,hstop⟩⟩
      rw [hdrop]
      exact h.unstopped
    unfold Generation.afterLoop
    split
    · exact ⟨tokens++[token],hcounted,hevents,hanswers⟩
    · exact ⟨tokens++[token],hcounted,hevents,hanswers⟩
  · rename_i hgoes
    refine @atPoint_loopHead _ _ (tokens++[token]) (fun hmore => ?_) fun hover => ?_
    · change g.generated+1 < g.request.maximumNewTokens at hmore
      refine ⟨⟨h.prompt,h.chunk,hcounted,hcounted ▸ hmore,fun x hx => ?_,?_⟩,
        .inr ⟨List.concat_ne_nil _ _,?_,rfl⟩⟩
      · rcases List.mem_append.mp hx with hx|hx
        · exact h.unstopped x hx
        · rw [List.mem_singleton.mp hx]
          exact hgoes
      · rw [if_neg (List.concat_ne_nil _ _)]
        exact hevents
      · rw [hlength,←Nat.add_assoc]
        exact congrArg (·+1) h.position
    · change ¬g.generated+1 < g.request.maximumNewTokens at hover
      refine ⟨hcounted,hevents,by omega,?_,?_,fun hmore => ?_⟩
      · change (tokens++[token]).length ≤ g.request.maximumNewTokens
        omega
      · rw [hdrop]
        exact h.unstopped
      · change (tokens++[token]).length < g.request.maximumNewTokens at hmore
        omega

/-- Every step after `acquire` keeps to the stream. -/
theorem grammatical_drives {point : GeneratePoint D} {reply : Reply D} {h : Generate D}
    (hg : AtPoint g point) (hone : Drives g point reply h) : Grammatical h := by
  cases hone with
  | threw hthrows =>
    refine grammatical_fails hg (fun result hpoint => ?_) _
    rw [hpoint] at hthrows
    exact hthrows
  | peerFails hfails =>
    refine AtPoint.part hg fun result hpoint => ?_
    rw [hpoint] at hfails
    cases hfails
  | disconnects hdisconnects =>
    refine grammatical_fails hg (fun result hpoint => ?_) _
    rw [hpoint] at hdisconnects
    cases hdisconnects
  | peerFailed => exact hg
  | opened =>
    refine atPoint_loopHead (fun _ => hg) fun hover => ?_
    have hready : Ready g [] := hg
    have hbelow := hready.below
    rw [←hready.counted] at hbelow
    exact absurd hbelow hover
  | entered =>
    obtain ⟨tokens,hready⟩ := hg
    exact passing_enterBackend hready
  | sends hsplit =>
    obtain ⟨tokens,hpassing⟩ := hg
    exact Passing.sendBoundary (g:={ g with executed := g.executed+g.tokens.length })
      ⟨⟨hpassing.prompt,hpassing.chunk,hpassing.counted,hpassing.below,hpassing.unstopped,
        hpassing.events⟩,hpassing.inside,hpassing.complete⟩ _
  | takes hsplit =>
    obtain ⟨tokens,hpassing⟩ := hg
    exact Passing.takeOutput (g:={ g with executed := g.executed+g.tokens.length })
      ⟨⟨hpassing.prompt,hpassing.chunk,hpassing.counted,hpassing.below,hpassing.unstopped,
        hpassing.events⟩,hpassing.inside,hpassing.complete⟩ _
  | sent => exact hg
  | responded =>
    obtain ⟨tokens,hpassing⟩ := hg
    exact hpassing.takeResponse _
  | announces hfirst =>
    obtain ⟨tokens,hpassing,hend⟩ := hg
    have hnone : tokens=[] := by
      rw [←List.length_eq_zero_iff,←hpassing.counted]
      exact hfirst
    exact ⟨hnone ▸ hpassing,hend⟩
  | emits hfirst =>
    obtain ⟨tokens,hpassing,hend⟩ := hg
    have hsome : tokens≠[] := by
      rw [Ne,←List.length_eq_zero_iff,←hpassing.counted]
      exact hfirst
    have hevents := hpassing.events
    rw [if_neg hsome] at hevents
    exact ⟨tokens,hpassing.prompt,hpassing.chunk,hpassing.counted,hpassing.below,
      hpassing.unstopped,hevents,hpassing.complete hend⟩
  | announcing => exact hg
  | announced =>
    obtain ⟨hpassing,hend⟩ := hg
    have hevents := hpassing.events
    rw [if_pos rfl] at hevents
    refine ⟨[],hpassing.prompt,hpassing.chunk,hpassing.counted,hpassing.below,
      hpassing.unstopped,?_,hpassing.complete hend⟩
    change g.events++_=_
    rw [hevents]
    rfl
  | emitting => exact hg
  | emitted =>
    obtain ⟨tokens,hemitting⟩ := hg
    exact hemitting.afterToken _
  | usage =>
    obtain ⟨tokens,hgenerated⟩ := hg
    refine ⟨tokens,?_,hgenerated.answers⟩
    change g.events++_=_
    rw [hgenerated.events,hgenerated.counted]
    rfl
  | terminal =>
    obtain ⟨tokens,hevents,hanswers⟩ := hg
    refine ⟨tokens,?_,hanswers⟩
    change g.events++_=_
    rw [hevents,List.append_assoc]
    rfl
  | left => exact .inl ⟨rfl,hg⟩
  | failed => exact .inr ⟨failure_code _ _ _,hg⟩
  | _ => exact hg

variable [Double F D]

/-- What `Generate` asks `acquire` for. -/
structure Asks (request : GenerationRequest D) (sampling : SamplingOptions D)
    (call : Acquisition) : Prop where
  prompt : 0 < request.tokenIds.length
  output : 0 < request.maximumNewTokens
  bounded : request.tokenIds.length+request.maximumNewTokens < 2^64
  sampled : ∃ random,samplingOptions request.sampling random=.ok sampling
  deploymentId : call.deploymentId=request.deploymentId
  deploymentVersion : call.deploymentVersion=request.deploymentVersion
  requestId : call.requestId=request.requestId
  tokens : call.tokens=request.tokenIds.length+request.maximumNewTokens
  stage : call.requiredStage=0
  chunk : call.prefillChunkTokens=request.prefillChunkTokens

/-- A request that passes the first checks. -/
theorem asks_of_start {request : GenerationRequest D} {now later contextDeadline : ℕ}
    {random : UInt64} {sampling : SamplingOptions D} {call : Acquisition}
    (h : request.start now later contextDeadline random=.ok (sampling,call)) :
    Asks request sampling call := by
  unfold GenerationRequest.start at h
  split at h
  · cases h
  · rename_i hchecks
    simp only [not_or] at hchecks
    obtain ⟨hprompt,houtput,hbounded⟩ := hchecks
    cases hsampled : samplingOptions request.sampling random with
    | error error =>
      rw [hsampled] at h
      cases h
    | ok options =>
      rw [hsampled] at h
      cases hdeadline : effectiveDeadline now later contextDeadline request.deadlineUnixMs with
      | error error =>
        rw [hdeadline] at h
        cases h
      | ok deadline =>
        rw [hdeadline] at h
        cases h
        exact ⟨by omega,by omega,by omega,⟨random,hsampled⟩,rfl,rfl,rfl,rfl,rfl,rfl⟩

/-- The steps of `Generate`. -/
theorem grammatical_resume {h h' : Generate D} {reply : Reply D} (hg : Grammatical h)
    (hone : Generate.resume h reply=some h') : Grammatical h' := by
  cases h with
  | starting request =>
    cases reply with
    | started now later contextDeadline random =>
      rw [Generate.resume] at hone
      split at hone
      · cases hone
        exact .inr ⟨failure_code _ _ _,[], List.nil_prefix⟩
      · rename_i sampling call hstart
        cases hone
        exact ⟨(asks_of_start hstart).prompt,(asks_of_start hstart).output⟩
    | _ => cases hone
  | acquiring request sampling call =>
    cases reply with
    | threw error =>
      cases hone
      exact .inr ⟨failure_code _ _ _,[], List.nil_prefix⟩
    | acquired lease =>
      cases hone
      obtain ⟨hprompt,houtput⟩ := hg
      have hchunk : 0 < request.chunkSize := by
        unfold GenerationRequest.chunkSize
        split
        · exact hprompt
        · omega
      have hready : Ready (request.generation sampling lease) [] :=
        ⟨⟨hprompt,hchunk,rfl,houtput,nofun,rfl⟩,.inl ⟨rfl,hprompt⟩⟩
      unfold GenerationRequest.afterLease
      dsimp only
      split
      · exact hready.toGenerating.part
      · split
        · exact hready
        · exact atPoint_loopHead (fun _ => hready) fun hover => absurd houtput hover
    | _ => cases hone
  | running g point => exact grammatical_drives hg (drives_of_resume hone)
  | returned request events status => cases hone

end Grammar

section Frame

variable {g : Generation D}

/-- The peer has acknowledged its termination, if there is one. -/
def Drained : GeneratePoint D → Prop
  | .draining => True
  | .finishing => True
  | .committing => True
  | .releasing => True
  | .usage => True
  | .terminal => True
  | _ => False

/-- A step leads on with the request and its lease, short of the usage. -/
def Continues (g : Generation D) (h : Generate D) : Prop :=
  ∃ g' point,h=.running g' point ∧ g'.request=g.request ∧ g'.lease=g.lease ∧
    point≠.usage ∧ point≠.terminal ∧ point≠.leaving (.ok ())

/-- The loop body leads on without an event, and with a peer short of its
acknowledgment. -/
def Loops (g : Generation D) (h : Generate D) : Prop :=
  ∃ g' point,h=.running g' point ∧ g'.request=g.request ∧ g'.lease=g.lease ∧
    g'.events=g.events ∧ (g.lease.split=true → ¬Drained point) ∧ point≠.usage ∧
    point≠.terminal ∧ point≠.leaving (.ok ())

/-- The loop leads on. -/
theorem Loops.continues {h : Generate D} (hg : Loops g h) : Continues g h := by
  obtain ⟨g',point,heq,hrequest,hlease,-,-,hpoint⟩ := hg
  exact ⟨g',point,heq,hrequest,hlease,hpoint⟩

/-- The events that were written stay. -/
theorem Loops.events {h : Generate D} (hg : Loops g h) : h.events=g.events := by
  obtain ⟨g',point,rfl,-,-,hevents,-⟩ := hg
  exact hevents

/-- An exception leaves the loop and writes nothing. -/
theorem loops_fails (g : Generation D) (error : Thrown) : Loops g (g.fails error) :=
  ⟨g,_,rfl,rfl,rfl,rfl,fun _ => id,nofun,nofun,nofun⟩

/-- The end of the loop drains the follower, or releases without one. -/
theorem loops_afterLoop (g : Generation D) : Loops g g.afterLoop := by
  unfold Generation.afterLoop
  split
  · exact ⟨g,_,rfl,rfl,rfl,rfl,fun _ => id,nofun,nofun,nofun⟩
  · rename_i hwhole
    exact ⟨g,_,rfl,rfl,rfl,rfl,fun hsplit => absurd hsplit hwhole,nofun,nofun,nofun⟩

/-- The head of the loop computes again or ends it. -/
theorem loops_loopHead (g : Generation D) : Loops g g.loopHead := by
  unfold Generation.loopHead
  split
  · exact ⟨g,_,rfl,rfl,rfl,rfl,fun _ => id,nofun,nofun,nofun⟩
  · exact loops_afterLoop g

/-- The next chunk of a prompt. -/
theorem loops_continueLoop (g : Generation D) : Loops g g.continueLoop :=
  loops_loopHead { g with position := g.position+g.tokens.length,step := g.step+1 }

/-- A boundary is sent on, or its encoding throws. -/
theorem loops_sendBoundary (g : Generation D) (output : StageOutput D) :
    Loops g (g.sendBoundary output) := by
  unfold Generation.sendBoundary
  split
  · split
    · exact loops_fails g _
    · split
      · exact loops_fails g _
      · exact ⟨g,_,rfl,rfl,rfl,rfl,fun _ => id,nofun,nofun,nofun⟩
  · exact loops_fails g _

/-- The output of a stage without a follower. -/
theorem loops_takeOutput (g : Generation D) (output : StageOutput D) :
    Loops g (g.takeOutput output) := by
  unfold Generation.takeOutput
  split
  · split
    · exact loops_continueLoop g
    · exact loops_fails g _
  · split
    · split
      · exact loops_fails g _
      · exact ⟨g,_,rfl,rfl,rfl,rfl,fun _ => id,nofun,nofun,nofun⟩
    · exact loops_fails g _

/-- The answer of the follower to a boundary. -/
theorem loops_takeResponse (g : Generation D) (message : StageMessage D) :
    Loops g (g.takeResponse message) := by
  unfold Generation.takeResponse Generation.takeProgress Generation.takeSampled
  split
  · split
    · split
      · exact loops_fails g _
      · split
        · exact loops_fails g _
        · exact loops_continueLoop g
    · exact loops_fails g _
  · split
    · split
      · exact loops_fails g _
      · split
        · exact loops_fails g _
        · exact ⟨g,_,rfl,rfl,rfl,rfl,fun _ => id,nofun,nofun,nofun⟩
    · exact loops_fails g _

/-- A token that was written ends the loop or goes into the next pass. -/
theorem loops_afterToken (g : Generation D) (token : SampledToken D) :
    Loops g (g.afterToken token) := by
  unfold Generation.afterToken
  dsimp only
  split
  · exact loops_afterLoop { g with generated := g.generated+1 }
  · exact loops_loopHead
      { g with generated := g.generated+1,tokens := [token.id],step := g.step+1 }

/-- After `acquire`, the loop begins or an exception is thrown. -/
theorem loops_afterLease (request : GenerationRequest D) (sampling : SamplingOptions D)
    (lease : Lease) :
    Loops (request.generation sampling lease) (request.afterLease sampling lease) := by
  unfold GenerationRequest.afterLease
  dsimp only
  split
  · exact loops_fails _ _
  · split
    · exact ⟨_,_,rfl,rfl,rfl,rfl,fun _ => id,nofun,nofun,nofun⟩
    · exact loops_loopHead _

/-- With a peer, every way past its acknowledgment goes through it. -/
theorem drained_back {point : GeneratePoint D} {reply : Reply D} {h : Generate D}
    (hone : Drives g point reply h) (hsplit : g.lease.split=true) :
    (∀ g' point',h=.running g' point' → ¬Drained point') ∨ Drained point ∨
      point=.acknowledging ∧ ∃ message,reply=.read (some message) ∧ g.acknowledges message=true
        := by
  have hloops : ∀ {g₀ : Generation D} {h : Generate D},g₀.lease=g.lease → Loops g₀ h →
      ∀ g' point',h=.running g' point' → ¬Drained point' := by
    intro g₀ h hlease hg g' point' heq
    obtain ⟨g₁,point₁,rfl,-,-,-,hnot,-⟩ := hg
    cases heq
    exact hnot (hlease ▸ hsplit)
  cases hone with
  | threw hthrows => exact .inl (hloops rfl (loops_fails g _))
  | disconnects hdisconnects => exact .inl (hloops rfl (loops_fails g _))
  | peerFailed => exact .inl (hloops rfl (loops_fails g _))
  | opened => exact .inl (hloops rfl (loops_loopHead g))
  | sends hsplit =>
    exact .inl (hloops rfl (loops_sendBoundary { g with executed := g.executed+g.tokens.length } _))
  | takes hwhole =>
    rw [hsplit] at hwhole
    cases hwhole
  | responded => exact .inl (hloops rfl (loops_takeResponse g _))
  | emitted => exact .inl (hloops (by rfl) (loops_afterToken (g.record _) _))
  | acknowledged hack => exact .inr (.inr ⟨rfl,_,rfl,hack⟩)
  | drained => exact .inr (.inl trivial)
  | finished => exact .inr (.inl trivial)
  | committing => exact .inr (.inl trivial)
  | released => exact .inr (.inl trivial)
  | usage => exact .inr (.inl trivial)
  | left =>
    refine .inl fun g' point' heq => ?_
    cases heq
  | failed =>
    refine .inl fun g' point' heq => ?_
    cases heq
  | _ =>
    refine .inl fun g' point' heq => ?_
    cases heq
    exact id

/-- What every step after `acquire` keeps, and where the usage is written. -/
theorem drives_cases {point : GeneratePoint D} {reply : Reply D} {h : Generate D}
    (hone : Drives g point reply h) :
    Continues g h ∧ (point≠.usage ∧ point≠.terminal ∧ (∀ result,point≠.leaving result) ∧
        point≠.releasing ∨ ∃ error,h=g.fails error) ∨
      (point=.releasing ∧ reply=.released ∧ h=.running g .usage) ∨
      (point=.usage ∧ ∃ body,h=.running (g.record body) .terminal) ∨
      (point=.terminal ∧ ∃ body,h=.running (g.record body) (.leaving (.ok ()))) ∨
      (∃ result,point=.leaving result) ∧ ∃ status,h=.returned g.request g.events status ∧
        (status.code=.ok → point=.leaving (.ok ())) := by
  have hsame : ∀ point',point'≠.usage → point'≠.terminal → point'≠.leaving (.ok ()) →
      Continues g (.running g point') := fun point' husage hterminal hleaving =>
    ⟨g,point',rfl,rfl,rfl,husage,hterminal,hleaving⟩
  cases hone with
  | threw hthrows => exact .inl ⟨(loops_fails g _).continues,.inr ⟨_,rfl⟩⟩
  | disconnects hdisconnects => exact .inl ⟨(loops_fails g _).continues,.inr ⟨_,rfl⟩⟩
  | peerFailed => exact .inl ⟨(loops_fails g _).continues,.inr ⟨_,rfl⟩⟩
  | peerFails hfails =>
    cases hfails with
    | opening => exact .inl ⟨hsame _ nofun nofun nofun,.inl ⟨nofun,nofun,nofun,nofun⟩⟩
    | sending => exact .inl ⟨hsame _ nofun nofun nofun,.inl ⟨nofun,nofun,nofun,nofun⟩⟩
    | reading => exact .inl ⟨hsame _ nofun nofun nofun,.inl ⟨nofun,nofun,nofun,nofun⟩⟩
  | opened => exact .inl ⟨(loops_loopHead g).continues,.inl ⟨nofun,nofun,nofun,nofun⟩⟩
  | entered => exact .inl ⟨⟨_,_,rfl,rfl,rfl,nofun,nofun,nofun⟩,.inl ⟨nofun,nofun,nofun,nofun⟩⟩
  | sends hsplit =>
    have hloops := loops_sendBoundary { g with executed := g.executed+g.tokens.length }
    exact .inl ⟨(hloops _).continues,.inl ⟨nofun,nofun,nofun,nofun⟩⟩
  | takes hsplit =>
    have hloops := loops_takeOutput { g with executed := g.executed+g.tokens.length }
    exact .inl ⟨(hloops _).continues,.inl ⟨nofun,nofun,nofun,nofun⟩⟩
  | responded => exact .inl ⟨(loops_takeResponse g _).continues,.inl ⟨nofun,nofun,nofun,nofun⟩⟩
  | announced =>
    exact .inl ⟨⟨_,_,rfl,rfl,rfl,nofun,nofun,nofun⟩,.inl ⟨nofun,nofun,nofun,nofun⟩⟩
  | emits => exact .inl ⟨⟨_,_,rfl,rfl,rfl,nofun,nofun,nofun⟩,.inl ⟨nofun,nofun,nofun,nofun⟩⟩
  | emitted =>
    exact .inl ⟨(loops_afterToken (g.record _) _).continues,.inl ⟨nofun,nofun,nofun,nofun⟩⟩
  | released => exact .inr (.inl ⟨rfl,rfl,rfl⟩)
  | usage => exact .inr (.inr (.inl ⟨rfl,_,rfl⟩))
  | terminal => exact .inr (.inr (.inr (.inl ⟨rfl,_,rfl⟩)))
  | left => exact .inr (.inr (.inr (.inr ⟨⟨_,rfl⟩,_,rfl,fun _ => rfl⟩)))
  | failed =>
    exact .inr (.inr (.inr (.inr ⟨⟨_,rfl⟩,_,rfl,fun hok => absurd hok (failure_code _ _ _)⟩)))
  | _ => exact .inl ⟨hsame _ nofun nofun nofun,.inl ⟨nofun,nofun,nofun,nofun⟩⟩

/-- Every step that stays in the scope of the guard keeps the request and its lease. -/
theorem running_back {point point' : GeneratePoint D} {reply : Reply D} {g' : Generation D}
    (hone : Drives g point reply (.running g' point')) :
    g'.request=g.request ∧ g'.lease=g.lease := by
  rcases drives_cases hone with ⟨⟨g₁,point₁,heq,hrequest,hlease,-⟩,-⟩|⟨-,-,heq⟩|⟨-,body,heq⟩|
    ⟨-,body,heq⟩|⟨-,status,heq,-⟩
  · cases heq
    exact ⟨hrequest,hlease⟩
  · cases heq
    exact ⟨rfl,rfl⟩
  · cases heq
    exact ⟨rfl,rfl⟩
  · cases heq
    exact ⟨rfl,rfl⟩
  · cases heq

/-- The last events of a stream. -/
def closing : EventBody D → Bool
  | .usage _ _ => true
  | .terminal _ => true
  | _ => false

/-- A step writes one event at most, and the last ones where they are due. -/
theorem events_drives {point : GeneratePoint D} {reply : Reply D} {h : Generate D}
    (hone : Drives g point reply h) :
    h.events=g.events ∨ ∃ body,h.events=g.events++[⟨g.request.requestId,body⟩] ∧
      (closing body=true → point=.usage ∨ point=.terminal) := by
  cases hone with
  | opened => exact .inl (loops_loopHead g).events
  | sends hsplit =>
    exact .inl (loops_sendBoundary { g with executed := g.executed+g.tokens.length } _).events
  | takes hwhole =>
    exact .inl (loops_takeOutput { g with executed := g.executed+g.tokens.length } _).events
  | responded => exact .inl (loops_takeResponse g _).events
  | announced => exact .inr ⟨_,rfl,nofun⟩
  | emitted => exact .inr ⟨_,(loops_afterToken (g.record _) _).events,nofun⟩
  | usage => exact .inr ⟨_,rfl,fun _ => .inl rfl⟩
  | terminal => exact .inr ⟨_,rfl,fun _ => .inr rfl⟩
  | _ => exact .inl rfl

end Frame

end Hllm.GenerationEvents
