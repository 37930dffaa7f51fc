import Hllm.CpuPrefill
import Hllm.SchedulerDelivery
import Hllm.SchedulerBatches

/-!
# Requests on one CPU stage

Any number of requests call one scheduler over a CPU `DenseStage`. The
handler of a request sets the flags of its sequence, queues one input at the
next position and waits for the outcome; it stops at the first error. A
backend call is one step, since no two run at once and nothing else touches
the sequence of the item it serves. Whatever the interleaving, a request gets
what it would get alone.
-/

namespace Hllm.RequestIsolation

open SamplingModel CpuModel CpuPrefill SchedulerModel SchedulerTickets SchedulerDelivery
open SchedulerBatches RunInvariants

variable {F D : Type}

/-- One input a handler issues, with the flags it sets before. -/
structure Input where
  input : StageInput
  prefilling : Bool
  prefillOnly : Bool

/-- The sequence with the flags of an input. -/
def Input.flag (i : Input) (sequence : CpuSequence F D) : CpuSequence F D :=
  {sequence with prefilling := i.prefilling, prefillOnly := i.prefillOnly}

/-- Rows of some inputs. -/
def rows (inputs : List Input) : ℕ := (inputs.map fun i => inputRows i.input).sum

/-- A request on a stage. -/
structure Request (F D : Type) where
  /-- Ghost: the sequence as it was allocated. -/
  start : CpuSequence F D
  /-- The sequence object. -/
  sequence : CpuSequence F D
  /-- Inputs issued so far. -/
  inputs : List Input
  /-- Outputs returned so far. -/
  outputs : List (StageOutput D)
  /-- The `execute` call whose outcome the handler waits for. -/
  pending : Option ℕ
  /-- The handler has given up. -/
  stopped : Bool

/-- A stage with its scheduler and all its requests. -/
structure World (F D : Type) where
  scheduler : SchedulerModel.World StageInput (StageOutput D) Failure
  requests : ℕ → Option (Request F D)
  /-- Ghost: what the backend answered for the item of each call. -/
  answers : ℕ → Option (Except Failure (StageOutput D))

/-- A stage before its first request. The blank call fills cells no caller
has written. -/
def World.start (blank : Call StageInput) : World F D where
  scheduler := .start blank
  requests := fun _ => none
  answers := fun _ => none

/-- Steps of the handlers, the scheduler and their environment. -/
inductive Action (D : Type)
  /-- A sequence is allocated for a new request. -/
  | openSequence (request capacity : ℕ) (sampling : SamplingOptions D)
  /-- A handler queues its next input. -/
  | issue (request caller : ℕ) (input : Input) (deadline : ℕ)
  /-- Any step of the scheduler but a new call or a backend answer. -/
  | schedule (action : SchedulerModel.Action StageInput (StageOutput D) Failure)
  /-- The backend call of a leader, with the readings of the member's flag. -/
  | compute (leader : ℕ) (cancelled : List Bool)
  /-- A handler sees the outcome of its call. -/
  | collect (request : ℕ)
  /-- A handler gives up between two calls. -/
  | stop (request : ℕ)

/-- Steps of the scheduler itself. -/
def internal : SchedulerModel.Action StageInput (StageOutput D) Failure → Bool
  | .enter _ _ => false
  | .compute _ _ => false
  | _ => true

/-- Replace a request. -/
def World.withRequest (w : World F D) (r : ℕ) (request : Request F D) : World F D :=
  {w with requests := Function.update w.requests r (some request)}

/-- The call a handler makes. The CPU stage cannot batch. -/
def Request.call (request : Request F D) (r : ℕ) (i : Input) (deadline : ℕ) : Call StageInput :=
  ⟨i.input,rows request.inputs,r,i.prefilling,deadline,false⟩

/-- A request whose handler has issued one more input. -/
def Request.issued (request : Request F D) (i : Input) (c : ℕ) : Request F D :=
  {request with
    sequence := i.flag request.sequence
    inputs := request.inputs++[i]
    pending := some c}

/-- A handler sees the outcome of its call. -/
def Request.collected (request : Request F D) : Outcome (StageOutput D) Failure → Request F D
  | .returned output => {request with outputs := request.outputs++[output], pending := none}
  | _ => {request with pending := none, stopped := true}

/-- The answer as the leader of a single item sees it. -/
def single (answer : Except Failure (StageOutput D)) : Except Failure (List (StageOutput D)) :=
  answer.map fun output => [output]

/-- The first `n` draws of a request: its seed with the counters from zero. -/
def drawsOf (seed : UInt64) (n : ℕ) : List (UInt64×UInt64) :=
  (List.range n).map fun i => (seed,UInt64.ofNat i)

/-- One more draw. -/
theorem drawsOf_succ (seed : UInt64) (n : ℕ) :
    drawsOf seed (n+1)=drawsOf seed n++[(seed,UInt64.ofNat n)] := by
  rw [drawsOf,List.range_succ,List.map_append]
  rfl

/-- Sampled tokens among some outputs. -/
def sampledCount (outputs : List (StageOutput D)) : ℕ :=
  outputs.countP fun
    | .sampled _ => true
    | _ => false

/-- The call a request waits for. -/
def Calls (s : SchedulerModel.World StageInput (StageOutput D) Failure) (r : ℕ)
    (request : Request F D) (c : ℕ) : Prop :=
  s.phase c≠.absent ∧ ∃ done i deadline,request.inputs=done++[i] ∧
    (s.ticket c).call=⟨i.input,rows done,r,i.prefilling,deadline,false⟩

/-- What a step may do to the calls under way. -/
structure KeepsCalls (s s' : SchedulerModel.World StageInput (StageOutput D) Failure) : Prop where
  started : ∀ c,s.phase c≠.absent → s'.phase c≠.absent
  call : ∀ c,s.phase c≠.absent → (s'.ticket c).call=(s.ticket c).call

/-- Nothing happens to the calls under way. -/
theorem keepsCalls_refl (s : SchedulerModel.World StageInput (StageOutput D) Failure) :
    KeepsCalls s s where
  started := fun _ hc => hc
  call := fun _ _ => rfl

/-- A call stays the one its request waits for. -/
theorem Calls.keep {s s' : SchedulerModel.World StageInput (StageOutput D) Failure} {r c : ℕ}
    {request : Request F D} (h : Calls s r request c) (hkeep : KeepsCalls s s') :
    Calls s' r request c := by
  obtain ⟨hstarted,done,i,deadline,hinputs,hcall⟩ := h
  exact ⟨hkeep.started c hstarted,done,i,deadline,hinputs,(hkeep.call c hstarted).trans hcall⟩

variable [Double F D]

/-- A sequence with `n` sampled tokens. At temperature zero nothing is drawn. -/
structure Counted (sequence : CpuSequence F D) (n : ℕ) : Prop where
  draws : sequence.draws=
    if Double.eq sequence.sampling.temperature Double.zero then []
    else drawsOf sequence.sampling.seed n
  next : Double.eq sequence.sampling.temperature Double.zero=false →
    sequence.generatedIndex=UInt64.ofNat n

/-- The draws of a sequence are the first ones of its request. -/
def Drawn (sequence : CpuSequence F D) : Prop :=
  ∃ n,sequence.draws=drawsOf sequence.sampling.seed n

/-- A counted sequence has drawn in order. -/
theorem Counted.drawn {sequence : CpuSequence F D} {n : ℕ} (h : Counted sequence n) :
    Drawn sequence := by
  have hdraws := h.draws
  split at hdraws
  · exact ⟨0,hdraws⟩
  · exact ⟨n,hdraws⟩

/-- What a step may do to a sequence with `n` sampled tokens. -/
structure Advances (sequence s : CpuSequence F D) (n : ℕ)
    (result : Except Failure (StageOutput D)) : Prop where
  sampling : s.sampling=sequence.sampling
  drawn : Drawn s
  counted : ∀ output,result=.ok output → Counted s (n+sampledCount [output])

/-- A step that leaves sampling alone and samples no token. -/
theorem Counted.advances {sequence s : CpuSequence F D} {n : ℕ}
    {result : Except Failure (StageOutput D)} (h : Counted sequence n)
    (hsampling : s.sampling=sequence.sampling) (hdraws : s.draws=sequence.draws)
    (hindex : s.generatedIndex=sequence.generatedIndex)
    (hresult : ∀ output,result=.ok output → sampledCount [output]=0) :
    Advances sequence s n result := by
  have hcounted : Counted s n := by
    refine ⟨?_,?_⟩
    · rw [hdraws,hsampling]
      exact h.draws
    · rw [hindex,hsampling]
      exact h.next
  refine ⟨hsampling,hcounted.drawn,fun output houtput => ?_⟩
  rw [hresult output houtput]
  exact hcounted

variable [Scalar F]

/-- The backend call of a leader. -/
def World.serve (w : World F D) (stage : DenseStage F) (l : ℕ) (cancelled : List Bool) :
    Option (World F D) :=
  match w.scheduler.phase l with
  | .executing [c] =>
    let call := (w.scheduler.ticket c).call
    match w.requests call.sequence with
    | none => none
    | some request =>
      let done := stage.execute call.input call.position request.sequence cancelled
      (w.scheduler.compute l (single done.2)).map fun scheduler =>
        {scheduler
         requests := Function.update w.requests call.sequence
          (some {request with sequence := done.1})
         answers := Function.update w.answers c (some done.2)}
  | _ => none

/-- The step function of a stage with its requests. -/
def World.step (stage : DenseStage F) (w : World F D) : Action D → Option (World F D)
  | .openSequence r capacity sampling =>
    match w.requests r with
    | some _ => none
    | none =>
      match stage.allocateSequence capacity sampling with
      | .error _ => some w
      | .ok sequence => some (w.withRequest r ⟨sequence,sequence,[],[],none,false⟩)
  | .issue r c i deadline =>
    match w.requests r with
    | none => none
    | some request =>
      if request.stopped ∨ request.pending≠none then none
      else (w.scheduler.enter c (request.call r i deadline)).map fun scheduler =>
        {w.withRequest r (request.issued i c) with scheduler := scheduler}
  | .schedule a =>
    if internal a then (w.scheduler.step a).map fun scheduler => {w with scheduler := scheduler}
    else none
  | .compute l cancelled => w.serve stage l cancelled
  | .collect r =>
    match w.requests r with
    | none => none
    | some request =>
      match request.pending with
      | none => none
      | some c =>
        match w.scheduler.phase c with
        | .ended outcome => some (w.withRequest r (request.collected outcome))
        | _ => none
  | .stop r =>
    match w.requests r with
    | none => none
    | some request =>
      if request.pending≠none then none
      else some (w.withRequest r {request with stopped := true})

/-- All interleavings of all requests of one stage. -/
def machine (stage : DenseStage F) : Machine (World F D) (Action D) where
  initial := fun w => ∃ blank,w=.start blank
  step := World.step stage

/-- Inputs of one request alone, from a position. -/
def alone (stage : DenseStage F) : ℕ → CpuSequence F D → List Input →
    CpuSequence F D×Except Failure (List (StageOutput D))
  | _,sequence,[] => (sequence,.ok [])
  | position,sequence,i::inputs =>
    match stage.execute i.input position (i.flag sequence) [] with
    | (sequence,.error failure) => (sequence,.error failure)
    | (sequence,.ok output) =>
      let rest := alone stage (position+inputRows i.input) sequence inputs
      (rest.1,rest.2.map (output::·))

section Alone

variable {stage : DenseStage F}

/-- One more input alone. -/
theorem alone_append {inputs : List Input} {i : Input} {position : ℕ}
    {sequence middle s : CpuSequence F D} {outputs : List (StageOutput D)} {output : StageOutput D}
    (h : alone stage position sequence inputs=(middle,.ok outputs))
    (hlast : stage.execute i.input (position+rows inputs) (i.flag middle) []=(s,.ok output)) :
    alone stage position sequence (inputs++[i])=(s,.ok (outputs++[output])) := by
  induction inputs generalizing position sequence outputs with
  | nil =>
    cases h
    have hposition : position+rows []=position := rfl
    rw [hposition] at hlast
    simp only [List.nil_append,alone,hlast]
    rfl
  | cons first inputs ih =>
    simp only [alone] at h
    rw [List.cons_append,alone]
    split at h
    · cases h
    · rename_i next o hfirst
      obtain ⟨hmiddle,houtputs⟩ := Prod.mk.inj h
      obtain ⟨rest,hrest,rfl⟩ := exists_of_map_eq_ok houtputs
      have hposition : position+rows (first::inputs)=
          position+inputRows first.input+rows inputs := by
        rw [rows,rows,List.map_cons,List.sum_cons,Nat.add_assoc]
      rw [hposition] at hlast
      have hnext := ih (Prod.ext hmiddle hrest) hlast
      simp only [hnext]
      rfl

/-- Alone, each input has one output. -/
theorem alone_length {inputs : List Input} {position : ℕ} {sequence s : CpuSequence F D}
    {outputs : List (StageOutput D)}
    (h : alone stage position sequence inputs=(s,.ok outputs)) : outputs.length=inputs.length := by
  induction inputs generalizing position sequence outputs with
  | nil =>
    cases h
    rfl
  | cons first inputs ih =>
    simp only [alone] at h
    split at h
    · cases h
    · obtain ⟨hs,houtputs⟩ := Prod.mk.inj h
      obtain ⟨rest,hrest,rfl⟩ := exists_of_map_eq_ok houtputs
      rw [List.length_cons,List.length_cons,ih (Prod.ext hs hrest)]

/-- Alone, the first inputs have the first outputs. -/
theorem alone_take {inputs : List Input} {position : ℕ} {sequence s : CpuSequence F D}
    {outputs : List (StageOutput D)}
    (h : alone stage position sequence inputs=(s,.ok outputs)) (n : ℕ) :
    ∃ s',alone stage position sequence (inputs.take n)=(s',.ok (outputs.take n)) := by
  induction inputs generalizing position sequence outputs n with
  | nil =>
    cases h
    rw [List.take_nil,List.take_nil]
    exact ⟨s,rfl⟩
  | cons first inputs ih =>
    cases n with
    | zero => exact ⟨sequence,rfl⟩
    | succ n =>
      simp only [alone] at h
      rw [List.take_succ_cons,alone]
      split at h
      · cases h
      · obtain ⟨hs,houtputs⟩ := Prod.mk.inj h
        obtain ⟨rest,hrest,rfl⟩ := exists_of_map_eq_ok houtputs
        obtain ⟨s',hs'⟩ := ih (Prod.ext hs hrest) n
        rw [List.take_succ_cons,hs']
        exact ⟨s',rfl⟩

/-- A call that returns an output returns it without any cancellation. -/
theorem execute_uncancelled {input : StageInput} {position : ℕ} {sequence s : CpuSequence F D}
    {cancelled : List Bool} {output : StageOutput D}
    (h : stage.execute input position sequence cancelled=(s,.ok output)) :
    stage.execute input position sequence []=(s,.ok output) := by
  unfold DenseStage.execute at h ⊢
  cases hinput : stage.hiddenOf input with
  | error failure =>
    simp only [hinput] at h
    cases h
  | ok x =>
    simp only [hinput] at h ⊢
    cases hforward : forwardLayers stage.config position stage.layers sequence.caches cancelled x
      with
    | mk caches result =>
      simp only [hforward] at h
      cases result with
      | error failure => cases h
      | ok m =>
        simp only [(ready_of_ok hforward).2]
        exact h

end Alone

/-- A token is sampled with one draw, or with none at temperature zero. -/
theorem sampleToken_drawn {logits : List F} {options : SamplingOptions D} {index : UInt64}
    {token : SampledToken D} {drawn : Option (UInt64×UInt64)}
    (h : sampleToken logits options index=.ok (token,drawn)) :
    drawn=if Double.eq options.temperature Double.zero then none
      else some (options.seed,index) := by
  have hlogits : ∀ {id drawn'},sampleLogits logits options index=.ok (id,drawn') →
      drawn'=if Double.eq options.temperature Double.zero then none
        else some (options.seed,index) := by
    intro id drawn' h'
    unfold sampleLogits at h'
    cases hvalid : validateSampling options with
    | error error =>
      rw [hvalid] at h'
      cases h'
    | ok _ =>
      rw [hvalid] at h'
      cases logits with
      | nil => cases h'
      | cons first rest =>
        simp only [bind,Except.bind] at h'
        split at h'
        · cases h'
        · split at h'
          · rename_i hzero
            cases h'
            rw [if_pos hzero]
          · rename_i hzero
            cases h'
            rw [if_neg hzero]
  unfold sampleToken at h
  cases hsample : sampleLogits logits options index with
  | error error =>
    rw [hsample] at h
    cases h
  | ok sampled =>
    rw [hsample] at h
    simp only [bind,Except.bind] at h
    split at h
    · cases h
      exact hlogits hsample
    · cases h
      exact hlogits hsample

/-- The end of a pass samples at most one token, with its own draw. -/
theorem finish_advances {stage : DenseStage F} {sequence : CpuSequence F D} {n : ℕ}
    (h : Counted sequence n) (hidden : Matrix F) :
    Advances sequence (stage.finish sequence hidden).1 n (stage.finish sequence hidden).2 := by
  unfold DenseStage.finish
  split
  · refine h.advances rfl rfl rfl fun output houtput => ?_
    cases houtput
    rfl
  · split
    · rename_i hgreedy
      rw [Bool.and_eq_true] at hgreedy
      refine ⟨rfl,h.drawn,fun output _ => ⟨?_,fun hzero => ?_⟩⟩
      · have hdraws := h.draws
        rw [if_pos hgreedy.1] at hdraws ⊢
        exact hdraws
      · rw [hgreedy.1] at hzero
        cases hzero
    · dsimp only
      split
      · exact h.advances rfl rfl rfl fun output houtput => by cases houtput
      · split
        · exact ⟨rfl,h.drawn,fun output houtput => by cases houtput⟩
        · rename_i logits _ token drawn hsample
          have hdrawn := sampleToken_drawn hsample
          have hdraws := h.draws
          have hcounted : Counted {sequence with
              generatedIndex := sequence.generatedIndex+1
              draws := sequence.draws++drawn.toList} (n+1) := by
            by_cases hzero : Double.eq sequence.sampling.temperature Double.zero=true
            · rw [if_pos hzero] at hdrawn hdraws
              refine ⟨?_,fun hpositive => ?_⟩
              · change sequence.draws++drawn.toList=_
                rw [if_pos hzero,hdraws,hdrawn]
                rfl
              · rw [hzero] at hpositive
                cases hpositive
            · have hnext := h.next (Bool.not_eq_true _ ▸ hzero)
              rw [if_neg hzero] at hdrawn hdraws
              refine ⟨?_,fun _ => ?_⟩
              · change sequence.draws++drawn.toList=_
                rw [if_neg hzero,hdraws,hdrawn,drawsOf_succ,hnext]
                rfl
              · change sequence.generatedIndex+1=_
                rw [hnext,UInt64.ofNat_add]
                rfl
          refine ⟨rfl,hcounted.drawn,fun output houtput => ?_⟩
          cases houtput
          exact hcounted

/-- A call samples at most one token, with its own draw. -/
theorem execute_advances {stage : DenseStage F} {sequence : CpuSequence F D} {n : ℕ}
    (h : Counted sequence n) (input : StageInput) (position : ℕ) (cancelled : List Bool) :
    Advances sequence (stage.execute input position sequence cancelled).1 n
      (stage.execute input position sequence cancelled).2 := by
  unfold DenseStage.execute
  cases stage.hiddenOf input with
  | error failure => exact h.advances rfl rfl rfl fun output houtput => by cases houtput
  | ok x =>
    dsimp only
    cases forwardLayers stage.config position stage.layers sequence.caches cancelled x with
    | mk caches result =>
      cases result with
      | error failure => exact h.advances rfl rfl rfl fun output houtput => by cases houtput
      | ok m =>
        dsimp only
        split
        · have hcaches : Counted {sequence with caches := caches} n := ⟨h.draws,h.next⟩
          have hfinish := @finish_advances _ _ _ _ stage _ _ hcaches m
          exact ⟨hfinish.sampling,hfinish.drawn,hfinish.counted⟩
        · refine h.advances rfl rfl rfl fun output houtput => ?_
          unfold DenseStage.toWire at houtput
          cases hbytes : m.data.mapM DenseStage.wireRow with
          | error failure =>
            rw [hbytes] at houtput
            cases houtput
          | ok bytes =>
            rw [hbytes] at houtput
            cases houtput
            rfl

section Answers

variable {ι ο ε : Type}

/-- What the backend answered for each call, as far as the scheduler knows. -/
structure Answered (s : SchedulerModel.World ι ο ε) (answers : ℕ → Option (Except ε ο)) :
    Prop where
  /-- Nothing is answered before a call. -/
  unstarted : ∀ c,s.phase c=.absent → answers c=none
  /-- Nothing is answered before the item is computed. -/
  unserved : ∀ c,live (s.phase c)=true → (s.ticket c).done=false →
    (∀ l d result,s.phase l=.computed d result → c∉d) → answers c=none
  /-- A leader holds the answer for its one item. -/
  computed : ∀ l d result,s.phase l=.computed d result → ∃ c answer,d=[c] ∧
    answers c=some answer ∧ result=dispatchResult [c] (answer.map fun output => [output])
  /-- A ticket with an output has the answer. -/
  finished : ∀ c output,(s.ticket c).done=true → (s.ticket c).outcome=.returned output →
    answers c=some (.ok output)
  /-- So has a call that returned. -/
  returned : ∀ c output,s.phase c=.ended (.returned output) → answers c=some (.ok output)
  /-- A leader claims one item. -/
  claiming : ∀ l limit storage,s.phase l=.claiming limit storage →
    limit ≤ 1 ∧ storage.length ≤ limit
  /-- A dispatch is one item. -/
  executing : ∀ l d,s.phase l=.executing d → d.length=1
  /-- No call may be batched. -/
  serial : ∀ c,s.phase c≠.absent → (s.ticket c).call.batchSupported=false

variable {s s' : SchedulerModel.World ι ο ε} {answers : ℕ → Option (Except ε ο)}

/-- A fresh scheduler has no answers. -/
theorem answered_start (blank : Call ι) :
    Answered (SchedulerModel.World.start (ο:=ο) (ε:=ε) blank) fun _ => none := by
  refine ⟨?_,?_,?_,?_,?_,?_,?_,?_⟩ <;> simp [SchedulerModel.World.start]

/-- Tickets that agree in what answers depend on. -/
def SameTickets (s s' : SchedulerModel.World ι ο ε) : Prop :=
  ∀ t,(s'.ticket t).done=(s.ticket t).done ∧ (s'.ticket t).outcome=(s.ticket t).outcome ∧
    (s'.ticket t).call=(s.ticket t).call

/-- Steps that move no caller. -/
theorem Answered.stay (h : Answered s answers) (hphase : s'.phase=s.phase)
    (hticket : SameTickets s s') : Answered s' answers where
  unstarted := by
    rw [hphase]
    exact h.unstarted
  unserved := by
    intro c hlive hdone hcomputed
    rw [hphase] at hlive hcomputed
    rw [(hticket c).1] at hdone
    exact h.unserved c hlive hdone hcomputed
  computed := by
    rw [hphase]
    exact h.computed
  finished := by
    intro c output hdone houtcome
    rw [(hticket c).1] at hdone
    rw [(hticket c).2.1] at houtcome
    exact h.finished c output hdone houtcome
  returned := by
    rw [hphase]
    exact h.returned
  claiming := by
    rw [hphase]
    exact h.claiming
  executing := by
    rw [hphase]
    exact h.executing
  serial := by
    intro c hc
    rw [hphase] at hc
    rw [(hticket c).2.2]
    exact h.serial c hc

/-- Program points a caller may be moved to without a new answer. -/
structure Moves (answers : ℕ → Option (Except ε ο)) (c : ℕ) (phase phase' : Phase ο ε) :
    Prop where
  started : phase≠.absent
  starts : phase'≠.absent
  stays : live phase'=true → live phase=true
  before : ∀ d result,phase≠.computed d result
  after : ∀ d result,phase'≠.computed d result
  returned : ∀ output,phase'=.ended (.returned output) → answers c=some (.ok output)
  claiming : ∀ limit storage,phase'=.claiming limit storage → limit ≤ 1 ∧ storage.length ≤ limit
  executing : ∀ d,phase'=.executing d → d.length=1

/-- Steps that move one caller. -/
theorem Answered.move (h : Answered s answers) {c : ℕ} {phase : Phase ο ε}
    (hphase : s'.phase=Function.update s.phase c phase) (hticket : SameTickets s s')
    (hmoves : Moves answers c (s.phase c) phase) : Answered s' answers := by
  have hself : s'.phase c=phase := by rw [hphase,Function.update_self]
  have hother : ∀ t,t≠c → s'.phase t=s.phase t := by
    intro t ht
    rw [hphase,Function.update_of_ne ht]
  have hcomputed : ∀ l d result,s'.phase l=.computed d result ↔ s.phase l=.computed d result := by
    intro l d result
    by_cases hl : l=c
    · rw [hl,hself]
      exact ⟨fun heq => absurd heq (hmoves.after d result),
        fun heq => absurd heq (hmoves.before d result)⟩
    · rw [hother l hl]
  constructor
  case unstarted =>
    intro t ht
    by_cases htc : t=c
    · rw [htc,hself] at ht
      exact absurd ht hmoves.starts
    · rw [hother t htc] at ht
      exact h.unstarted t ht
  case unserved =>
    intro t hlive hdone hnot
    rw [(hticket t).1] at hdone
    have hold : ∀ l d result,s.phase l=.computed d result → t∉d := fun l d result hl =>
      hnot l d result ((hcomputed l d result).mpr hl)
    by_cases htc : t=c
    · rw [htc,hself] at hlive
      rw [htc] at hdone hold ⊢
      exact h.unserved c (hmoves.stays hlive) hdone hold
    · rw [hother t htc] at hlive
      exact h.unserved t hlive hdone hold
  case computed =>
    intro l d result hl
    exact h.computed l d result ((hcomputed l d result).mp hl)
  case finished =>
    intro t output hdone houtcome
    rw [(hticket t).1] at hdone
    rw [(hticket t).2.1] at houtcome
    exact h.finished t output hdone houtcome
  case returned =>
    intro t output ht
    by_cases htc : t=c
    · rw [htc,hself] at ht
      rw [htc]
      exact hmoves.returned output ht
    · rw [hother t htc] at ht
      exact h.returned t output ht
  case claiming =>
    intro l limit storage hl
    by_cases hlc : l=c
    · rw [hlc,hself] at hl
      exact hmoves.claiming limit storage hl
    · rw [hother l hlc] at hl
      exact h.claiming l limit storage hl
  case executing =>
    intro l d hl
    by_cases hlc : l=c
    · rw [hlc,hself] at hl
      exact hmoves.executing d hl
    · rw [hother l hlc] at hl
      exact h.executing l d hl
  case serial =>
    intro t ht
    rw [(hticket t).2.2]
    by_cases htc : t=c
    · rw [htc]
      exact h.serial c hmoves.started
    · rw [hother t htc] at ht
      exact h.serial t ht

/-- A dropped ticket ends with its own error. -/
theorem Answered.drop (h : Answered s answers) {c member recheck : ℕ} {rest : List ℕ} :
    Answered (s.drop c member rest recheck) answers := by
  have hother : ∀ t,t≠member → (s.drop c member rest recheck).ticket t=s.ticket t := by
    intro t ht
    rw [World.drop_ticket,Function.update_of_ne ht]
  constructor
  case unstarted => exact h.unstarted
  case unserved =>
    intro t hlive hdone hnot
    by_cases ht : t=member
    · rw [ht,World.drop_ticket,Function.update_self] at hdone
      cases hdone
    · rw [hother t ht] at hdone
      exact h.unserved t hlive hdone hnot
  case computed => exact h.computed
  case finished =>
    intro t output hdone houtcome
    by_cases ht : t=member
    · rw [ht,World.drop_ticket,Function.update_self] at houtcome
      cases houtcome
    · rw [hother t ht] at hdone houtcome
      exact h.finished t output hdone houtcome
  case returned => exact h.returned
  case claiming => exact h.claiming
  case executing => exact h.executing
  case serial =>
    intro t ht
    by_cases htm : t=member
    · rw [htm,World.drop_ticket,Function.update_self]
      rw [htm] at ht
      exact h.serial member ht
    · rw [hother t htm]
      exact h.serial t ht

/-- A new call has no answer yet. -/
theorem Answered.entered (h : Answered s answers) {c : ℕ} {call : Call ι}
    (hphase : s.phase c=.absent) (hserial : call.batchSupported=false) :
    Answered (s.entered c call) answers := by
  have hself : (s.entered c call).phase c=.checking := by
    rw [World.entered_phase,Function.update_self]
  have hother : ∀ t,t≠c → (s.entered c call).phase t=s.phase t ∧
      (s.entered c call).ticket t=s.ticket t := by
    intro t ht
    rw [World.entered_phase,World.entered_ticket,Function.update_of_ne ht,Function.update_of_ne ht]
    exact ⟨rfl,rfl⟩
  have hnone := h.unstarted c hphase
  constructor
  case unstarted =>
    intro t ht
    by_cases htc : t=c
    · rw [htc]
      exact hnone
    · rw [(hother t htc).1] at ht
      exact h.unstarted t ht
  case unserved =>
    intro t hlive hdone hnot
    by_cases htc : t=c
    · rw [htc]
      exact hnone
    · rw [(hother t htc).1] at hlive
      rw [(hother t htc).2] at hdone
      refine h.unserved t hlive hdone fun l d result hl => ?_
      have hlc : l≠c := by
        intro heq
        rw [heq,hphase] at hl
        cases hl
      exact hnot l d result (by rw [(hother l hlc).1]; exact hl)
  case computed =>
    intro l d result hl
    by_cases hlc : l=c
    · rw [hlc,hself] at hl
      cases hl
    · rw [(hother l hlc).1] at hl
      exact h.computed l d result hl
  case finished =>
    intro t output hdone houtcome
    by_cases htc : t=c
    · rw [htc,World.entered_ticket,Function.update_self] at hdone
      cases hdone
    · rw [(hother t htc).2] at hdone houtcome
      exact h.finished t output hdone houtcome
  case returned =>
    intro t output ht
    by_cases htc : t=c
    · rw [htc,hself] at ht
      cases ht
    · rw [(hother t htc).1] at ht
      exact h.returned t output ht
  case claiming =>
    intro l limit storage hl
    by_cases hlc : l=c
    · rw [hlc,hself] at hl
      cases hl
    · rw [(hother l hlc).1] at hl
      exact h.claiming l limit storage hl
  case executing =>
    intro l d hl
    by_cases hlc : l=c
    · rw [hlc,hself] at hl
      cases hl
    · rw [(hother l hlc).1] at hl
      exact h.executing l d hl
  case serial =>
    intro t ht
    by_cases htc : t=c
    · rw [htc,World.entered_ticket,Function.update_self]
      exact hserial
    · rw [(hother t htc).1] at ht
      rw [(hother t htc).2]
      exact h.serial t ht

/-- Delivery hands the answer to the ticket. -/
theorem Answered.delivered (h : Answered s answers) {c : ℕ} {dispatch : List ℕ}
    {result : Except (DispatchError ε) (List ο)} (hphase : s.phase c=.computed dispatch result) :
    Answered (s.delivered c dispatch result) answers := by
  obtain ⟨m,answer,rfl,hanswer,rfl⟩ := h.computed c dispatch result hphase
  have hself : (s.delivered c [m] (dispatchResult [m] (answer.map fun o => [o]))).phase c=
      .checking := by
    rw [World.delivered_phase,Function.update_self]
  have hother : ∀ t,t≠c →
      (s.delivered c [m] (dispatchResult [m] (answer.map fun o => [o]))).phase t=s.phase t := by
    intro t ht
    rw [World.delivered_phase,Function.update_of_ne ht]
  have hticket : ∀ t,t≠m →
      (s.delivered c [m] (dispatchResult [m] (answer.map fun o => [o]))).ticket t=s.ticket t := by
    intro t ht
    rw [World.delivered_ticket,if_neg (by simpa using ht)]
  have hmember : (s.delivered c [m] (dispatchResult [m] (answer.map fun o => [o]))).ticket m=
      (s.ticket m).deliver 0 (dispatchResult [m] (answer.map fun o => [o])) := by
    rw [World.delivered_ticket,if_pos (List.mem_singleton_self m),List.idxOf_cons_self]
  constructor
  case unstarted =>
    intro t ht
    by_cases htc : t=c
    · rw [htc,hself] at ht
      cases ht
    · rw [hother t htc] at ht
      exact h.unstarted t ht
  case unserved =>
    intro t hlive hdone hnot
    by_cases htm : t=m
    · rw [htm,hmember] at hdone
      cases answer <;> cases hdone
    · rw [hticket t htm] at hdone
      have hold : ∀ l d result,s.phase l=.computed d result → t∉d := by
        intro l d result hl
        by_cases hlc : l=c
        · rw [hlc,hphase] at hl
          cases hl
          simpa using htm
        · exact hnot l d result (by rw [hother l hlc]; exact hl)
      by_cases htc : t=c
      · refine h.unserved t ?_ hdone hold
        rw [htc,hphase]
        rfl
      · rw [hother t htc] at hlive
        exact h.unserved t hlive hdone hold
  case computed =>
    intro l d result hl
    by_cases hlc : l=c
    · rw [hlc,hself] at hl
      cases hl
    · rw [hother l hlc] at hl
      exact h.computed l d result hl
  case finished =>
    intro t output hdone houtcome
    by_cases htm : t=m
    · rw [htm,hmember] at houtcome
      rw [htm,hanswer]
      cases answer with
      | error e => cases houtcome
      | ok o =>
        cases houtcome
        rfl
    · rw [hticket t htm] at hdone houtcome
      exact h.finished t output hdone houtcome
  case returned =>
    intro t output ht
    by_cases htc : t=c
    · rw [htc,hself] at ht
      cases ht
    · rw [hother t htc] at ht
      exact h.returned t output ht
  case claiming =>
    intro l limit storage hl
    by_cases hlc : l=c
    · rw [hlc,hself] at hl
      cases hl
    · rw [hother l hlc] at hl
      exact h.claiming l limit storage hl
  case executing =>
    intro l d hl
    by_cases hlc : l=c
    · rw [hlc,hself] at hl
      cases hl
    · rw [hother l hlc] at hl
      exact h.executing l d hl
  case serial =>
    intro t ht
    have hcall : (s.ticket t).call.batchSupported=false := by
      by_cases htc : t=c
      · refine h.serial t ?_
        rw [htc,hphase]
        simp
      · rw [hother t htc] at ht
        exact h.serial t ht
    by_cases htm : t=m
    · rw [htm] at hcall ⊢
      rw [hmember]
      cases answer <;> exact hcall
    · rw [hticket t htm]
      exact hcall

/-- The backend answers for the item of a leader. -/
theorem Answered.answered (h : Answered s answers) (hown : Ownership s) {l c : ℕ}
    (hphase : s.phase l=.executing [c]) (answer : Except ε ο) :
    Answered (s.answered l [c] (dispatchResult [c] (answer.map fun o => [o])))
      (Function.update answers c (some answer)) := by
  have hgroup : c∈group (s.phase l) := by
    rw [hphase]
    exact List.mem_singleton_self c
  obtain ⟨hlive,-,hopen,-⟩ := hown.member l c hgroup
  have hleads : leads (s.phase l)=true := by
    rw [hphase]
    rfl
  have hself : (s.answered l [c] (dispatchResult [c] (answer.map fun o => [o]))).phase l=
      .computed [c] (dispatchResult [c] (answer.map fun o => [o])) := by
    rw [World.answered_phase,Function.update_self]
  have hother : ∀ t,t≠l →
      (s.answered l [c] (dispatchResult [c] (answer.map fun o => [o]))).phase t=s.phase t := by
    intro t ht
    rw [World.answered_phase,Function.update_of_ne ht]
  constructor
  case unstarted =>
    intro t ht
    by_cases htl : t=l
    · rw [htl,hself] at ht
      cases ht
    · rw [hother t htl] at ht
      have htc : t≠c := by
        rintro rfl
        rw [ht] at hlive
        cases hlive
      rw [Function.update_of_ne htc]
      exact h.unstarted t ht
  case unserved =>
    intro t htlive hdone hnot
    have htc : t≠c := by
      rintro rfl
      exact hnot l _ _ hself (List.mem_singleton_self _)
    rw [Function.update_of_ne htc]
    refine h.unserved t ?_ hdone fun l' d result hl' => ?_
    · by_cases htl : t=l
      · rw [htl,hphase]
        rfl
      · rw [hother t htl] at htlive
        exact htlive
    · have hne : l'≠l := by
        rintro rfl
        rw [hphase] at hl'
        cases hl'
      exact hnot l' d result (by rw [hother l' hne]; exact hl')
  case computed =>
    intro l' d result hl'
    by_cases hne : l'=l
    · rw [hne,hself] at hl'
      cases hl'
      exact ⟨c,answer,rfl,Function.update_self _ _ _,rfl⟩
    · rw [hother l' hne] at hl'
      have hleads' : leads (s.phase l')=true := by
        rw [hl']
        rfl
      exact absurd (hown.oneLeader l' l hleads' hleads) hne
  case finished =>
    intro t output hdone houtcome
    have htc : t≠c := by
      rintro rfl
      have hclosed : (s.ticket t).done=true := hdone
      rw [hopen] at hclosed
      cases hclosed
    rw [Function.update_of_ne htc]
    exact h.finished t output hdone houtcome
  case returned =>
    intro t output ht
    by_cases htl : t=l
    · rw [htl,hself] at ht
      cases ht
    · rw [hother t htl] at ht
      have htc : t≠c := by
        rintro rfl
        rw [ht] at hlive
        cases hlive
      rw [Function.update_of_ne htc]
      exact h.returned t output ht
  case claiming =>
    intro l' limit storage hl'
    by_cases hne : l'=l
    · rw [hne,hself] at hl'
      cases hl'
    · rw [hother l' hne] at hl'
      exact h.claiming l' limit storage hl'
  case executing =>
    intro l' d hl'
    by_cases hne : l'=l
    · rw [hne,hself] at hl'
      cases hl'
    · rw [hother l' hne] at hl'
      exact h.executing l' d hl'
  case serial =>
    intro t ht
    by_cases htl : t=l
    · refine h.serial t ?_
      rw [htl,hphase]
      simp
    · rw [hother t htl] at ht
      exact h.serial t ht

/-- What an internal step may do to program points. -/
structure Inner (s s' : SchedulerModel.World ι ο ε) : Prop where
  /-- No call begins. -/
  absent : ∀ c,s.phase c=.absent → s'.phase c=.absent
  /-- No backend call ends. -/
  computed : ∀ l d result,s'.phase l=.computed d result → s.phase l=.computed d result

/-- Moving a caller that has begun to a point without a backend result. -/
theorem inner_update {c : ℕ} {phase : Phase ο ε} (hphase : s'.phase=Function.update s.phase c phase)
    (hstarted : s.phase c≠.absent) (hafter : ∀ d result,phase≠.computed d result) :
    Inner s s' := by
  constructor
  · intro t ht
    have htc : t≠c := by
      rintro rfl
      exact hstarted ht
    rw [hphase,Function.update_of_ne htc]
    exact ht
  · intro l d result hl
    by_cases hlc : l=c
    · rw [hlc,hphase,Function.update_self] at hl
      exact absurd hl (hafter d result)
    · rw [hphase,Function.update_of_ne hlc] at hl
      exact hl

/-- Leaving program points alone. -/
theorem inner_of_eq (hphase : s'.phase=s.phase) : Inner s s' := by
  constructor
  · rw [hphase]
    exact fun _ h => h
  · rw [hphase]
    exact fun _ _ _ h => h

/-- The call of a started caller stays. -/
theorem call_transition {c : ℕ} (h : s.phase c≠.absent) (hstep : Transition s s') :
    (s'.ticket c).call=(s.ticket c).call := by
  cases hstep with
  | @entered c' call hphase _ =>
    have hc : c≠c' := by
      rintro rfl
      exact h hphase
    rw [World.entered_ticket,Function.update_of_ne hc]
  | drop _ _ _ _ => exact update_call (by rfl) c
  | take _ _ _ _ => exact update_call (by rfl) c
  | delivered _ _ =>
    rw [World.delivered_ticket]
    split
    · exact deliver_call _ _ _
    · rfl
  | _ => rfl

end Answers

section Internal

variable {s s' : SchedulerModel.World StageInput (StageOutput D) Failure}

/-- Internal steps begin no call and end no backend call. -/
theorem inner_of_internal {a : SchedulerModel.Action StageInput (StageOutput D) Failure}
    (ha : internal a=true) (h : s.step a=some s') : Inner s s' := by
  cases a with
  | configure size =>
    simp only [SchedulerModel.World.step,World.configure] at h
    split at h
    · cases h
    · split at h
      · cases h
        exact inner_of_eq rfl
      · split at h <;> cases h <;> exact inner_of_eq rfl
  | enter c call => cases ha
  | check c now recheck =>
    simp only [SchedulerModel.World.step,World.check] at h
    split at h
    · rename_i hphase
      have hstarted : s.phase c≠.absent := by
        rw [hphase]
        simp
      split at h
      · cases h
        exact inner_update rfl hstarted (by simp)
      · split at h
        · cases h
          exact inner_update rfl hstarted (by simp)
        · split at h
          · cases h
            exact inner_update rfl hstarted (by simp)
          · cases h
            exact inner_update rfl hstarted (by simp)
    · cases h
  | wake c =>
    simp only [SchedulerModel.World.step,World.wake] at h
    split at h
    · rename_i hphase _
      cases h
      exact inner_update rfl (by rw [hphase]; simp) (by simp)
    · cases h
  | claim c now recheck =>
    simp only [SchedulerModel.World.step,World.claim] at h
    split at h
    · rename_i limit storage hphase
      split at h
      · cases h
      · split at h
        · split at h
          · cases h
            exact inner_of_eq rfl
          · cases h
            exact inner_update rfl (by rw [hphase]; simp) (by simp)
        · cases h
    · cases h
  | dispatch c =>
    simp only [SchedulerModel.World.step,World.dispatch] at h
    split at h
    · rename_i limit storage hphase
      have hstarted : s.phase c≠.absent := by
        rw [hphase]
        simp
      split at h
      · cases h
      · split at h
        · cases h
          exact inner_update rfl hstarted (by simp)
        · cases h
          exact inner_update rfl hstarted (by simp)
    · cases h
  | compute c answer => cases ha
  | deliver c =>
    simp only [SchedulerModel.World.step,World.deliver] at h
    split at h
    · rename_i dispatch result hphase _
      cases h
      exact inner_update rfl (by rw [hphase]; simp) (by simp)
    · cases h
  | cancel c =>
    cases h
    exact inner_of_eq rfl

/-- Internal steps keep what is answered. -/
theorem Answered.internal {answers : ℕ → Option (Except Failure (StageOutput D))}
    (hanswered : Answered s answers)
    {a : SchedulerModel.Action StageInput (StageOutput D) Failure} (ha : internal a=true)
    (h : s.step a=some s') : Answered s' answers := by
  have hinner := inner_of_internal ha h
  have hsame : ∀ {s₁ s₂ : SchedulerModel.World StageInput (StageOutput D) Failure},
      s₂.ticket=s₁.ticket → SameTickets s₁ s₂ := by
    intro s₁ s₂ htickets t
    rw [htickets]
    exact ⟨rfl,rfl,rfl⟩
  rcases step_transition h with rfl|htransition
  · exact hanswered
  · cases htransition with
    | configured _ _ _ => exact hanswered.stay rfl (hsame rfl)
    | @entered c call hphase hfree =>
      have habsent := hinner.absent c hphase
      rw [World.entered_phase,Function.update_self] at habsent
      cases habsent
    | @finish c hphase hdone =>
      refine hanswered.move rfl (hsame rfl) ?_
      rw [hphase]
      refine ⟨by simp,by simp,fun hlive => (by cases hlive),by simp,by simp,?_,by simp,by simp⟩
      intro output houtput
      exact hanswered.finished c output hdone (Phase.ended.inj houtput)
    | @abandon c _ _ hphase _ _ _ =>
      refine hanswered.move rfl (hsame rfl) ?_
      rw [hphase]
      exact ⟨by simp,by simp,fun hlive => (by cases hlive),by simp,by simp,by simp,by simp,by simp⟩
    | @rest c hphase _ _ =>
      refine hanswered.move rfl (hsame rfl) ?_
      rw [hphase]
      exact ⟨by simp,by simp,fun _ => rfl,by simp,by simp,by simp,by simp,by simp⟩
    | @lead c hphase _ _ _ _ =>
      refine hanswered.move rfl (hsame rfl) ?_
      have hserial := hanswered.serial c (by rw [hphase]; simp)
      rw [hphase]
      refine ⟨by simp,by simp,fun _ => rfl,by simp,by simp,by simp,?_,by simp⟩
      intro limit storage heq
      cases heq
      refine ⟨?_,Nat.zero_le _⟩
      unfold Scheduler.limit
      rw [hserial]
      simp only [Bool.not_false,Bool.or_true,if_true]
      split
      · exact Nat.min_le_left _ _
      · exact Nat.le_refl _
    | @woken c hphase _ =>
      refine hanswered.move rfl (hsame rfl) ?_
      rw [hphase]
      exact ⟨by simp,by simp,fun _ => rfl,by simp,by simp,by simp,by simp,by simp⟩
    | drop _ _ _ _ => exact hanswered.drop
    | @take c limit storage member rest _ hphase _ hroom _ =>
      have htickets : SameTickets s (s.take c limit storage member rest) := by
        intro t
        rw [World.take_ticket]
        by_cases ht : t=member
        · rw [ht,Function.update_self]
          exact ⟨rfl,rfl,rfl⟩
        · rw [Function.update_of_ne ht]
          exact ⟨rfl,rfl,rfl⟩
      refine hanswered.move rfl htickets ?_
      obtain ⟨hlimit,-⟩ := hanswered.claiming c limit storage hphase
      rw [hphase]
      refine ⟨by simp,by simp,fun _ => rfl,by simp,by simp,by simp,?_,by simp⟩
      intro limit' storage' heq
      cases heq
      rw [List.length_append,List.length_singleton]
      exact ⟨hlimit,hroom⟩
    | @retry c _ hphase _ =>
      refine hanswered.move rfl (hsame rfl) ?_
      rw [hphase]
      exact ⟨by simp,by simp,fun _ => rfl,by simp,by simp,by simp,by simp,by simp⟩
    | @launch c limit storage hphase _ hsome =>
      refine hanswered.move rfl (hsame rfl) ?_
      obtain ⟨hlimit,hlength⟩ := hanswered.claiming c limit storage hphase
      rw [hphase]
      refine ⟨by simp,by simp,fun _ => rfl,by simp,by simp,by simp,by simp,?_⟩
      intro d heq
      cases heq
      have hpos := List.length_pos_of_ne_nil hsome
      omega
    | @answered c d answer hphase =>
      have hcomputed := hinner.computed c d (dispatchResult d answer)
        (by rw [World.answered_phase,Function.update_self])
      rw [hphase] at hcomputed
      cases hcomputed
    | delivered hphase _ => exact hanswered.delivered hphase
    | cancel => exact hanswered.stay rfl (hsame rfl)

end Internal

section Isolation

variable {stage : DenseStage F}

/-- A request against its run alone. -/
structure Against (stage : DenseStage F) (request : Request F D) (inputs : List Input)
    (s : CpuSequence F D) (outputs : List (StageOutput D)) : Prop where
  alone : alone stage 0 request.start inputs=(s,.ok outputs)
  issued : inputs<+:request.inputs
  counted : Counted s (sampledCount outputs)

/-- How far a request is. -/
inductive Progress (stage : DenseStage F) (answers : ℕ → Option (Except Failure (StageOutput D)))
    (request : Request F D) : Prop
  /-- All outputs have returned. -/
  | idle (hpending : request.pending=none)
      (hagainst : Against stage request request.inputs request.sequence request.outputs)
  /-- The last input waits for the backend. -/
  | waiting {c : ℕ} {done : List Input} {i : Input} {s : CpuSequence F D}
      (hpending : request.pending=some c) (hinputs : request.inputs=done++[i])
      (hagainst : Against stage request done s request.outputs) (hanswer : answers c=none)
      (hsequence : request.sequence=i.flag s)
  /-- The output of the last input has not returned yet. -/
  | served {c : ℕ} {output : StageOutput D} {done : List Input} {s : CpuSequence F D}
      (hpending : request.pending=some c)
      (hbefore : Against stage request done s request.outputs)
      (hagainst : Against stage request request.inputs request.sequence
        (request.outputs++[output])) (hanswer : answers c=some (.ok output))
  /-- The last input has failed. -/
  | failed {c : ℕ} {failure : Failure} {done : List Input} {s : CpuSequence F D}
      (hpending : request.pending=some c)
      (hagainst : Against stage request done s request.outputs)
      (hanswer : answers c=some (.error failure))
  /-- The handler has stopped. -/
  | stopped {done : List Input} {s : CpuSequence F D} (hpending : request.pending=none)
      (hstopped : request.stopped=true) (hagainst : Against stage request done s request.outputs)

/-- A request on a stage. -/
structure Sound (stage : DenseStage F) (answers : ℕ → Option (Except Failure (StageOutput D)))
    (request : Request F D) : Prop where
  fresh : ∃ capacity sampling,stage.allocateSequence capacity sampling=.ok request.start
  sampling : request.sequence.sampling=request.start.sampling
  drawn : Drawn request.sequence
  progress : Progress stage answers request

/-- What holds in every state of a stage with its requests. -/
structure Isolated (stage : DenseStage F) (w : World F D) : Prop where
  owned : Ownership w.scheduler
  answered : Answered w.scheduler w.answers
  /-- Every live call is the one its request waits for. -/
  owner : ∀ c,live (w.scheduler.phase c)=true →
    ∃ request,w.requests (w.scheduler.ticket c).call.sequence=some request ∧
      request.pending=some c
  called : ∀ r request c,w.requests r=some request → request.pending=some c →
    Calls w.scheduler r request c
  sound : ∀ r request,w.requests r=some request → Sound stage w.answers request

/-- A stage before its first request. -/
theorem isolated_start (blank : Call StageInput) : Isolated stage (World.start (D := D) blank) where
  owned := ownership_start blank
  answered := answered_start blank
  owner := by
    intro c hlive
    cases hlive
  called := by
    intro r request c hr
    cases hr
  sound := by
    intro r request hr
    cases hr

/-- A call of one request is not the call of another. -/
theorem Isolated.call_unique {w : World F D} (h : Isolated stage w) {r r' c : ℕ}
    {request request' : Request F D} (hr : w.requests r=some request)
    (hr' : w.requests r'=some request') (hc : request.pending=some c)
    (hc' : request'.pending=some c) : r=r' := by
  obtain ⟨-,done,i,deadline,-,hcall⟩ := h.called r request c hr hc
  obtain ⟨-,done',i',deadline',-,hcall'⟩ := h.called r' request' c hr' hc'
  rw [hcall] at hcall'
  exact congrArg Call.sequence hcall'

/-- What has returned is what the request alone returns. -/
theorem Progress.against {answers : ℕ → Option (Except Failure (StageOutput D))}
    {request : Request F D} (h : Progress stage answers request) :
    ∃ done s,Against stage request done s request.outputs := by
  cases h with
  | idle _ hagainst => exact ⟨_,_,hagainst⟩
  | waiting _ _ hagainst _ _ => exact ⟨_,_,hagainst⟩
  | served _ hbefore _ _ => exact ⟨_,_,hbefore⟩
  | failed _ hagainst _ => exact ⟨_,_,hagainst⟩
  | stopped _ _ hagainst => exact ⟨_,_,hagainst⟩

/-- A handler may stop at any point. -/
theorem Sound.stop {answers : ℕ → Option (Except Failure (StageOutput D))} {request : Request F D}
    (h : Sound stage answers request) :
    Sound stage answers {request with pending := none, stopped := true} := by
  obtain ⟨done,s,hagainst⟩ := h.progress.against
  exact ⟨h.fresh,h.sampling,h.drawn,
    .stopped rfl rfl ⟨hagainst.alone,hagainst.issued,hagainst.counted⟩⟩

/-- A request depends on the answer to its own call alone. -/
theorem Sound.congr {answers answers' : ℕ → Option (Except Failure (StageOutput D))}
    {request : Request F D} (h : Sound stage answers request)
    (hsame : ∀ c,request.pending=some c → answers' c=answers c) : Sound stage answers' request := by
  refine ⟨h.fresh,h.sampling,h.drawn,?_⟩
  cases h.progress with
  | idle hpending hagainst => exact .idle hpending hagainst
  | waiting hpending hinputs hagainst hanswer hsequence =>
    exact .waiting hpending hinputs hagainst ((hsame _ hpending).trans hanswer) hsequence
  | served hpending hbefore hagainst hanswer =>
    exact .served hpending hbefore hagainst ((hsame _ hpending).trans hanswer)
  | failed hpending hagainst hanswer =>
    exact .failed hpending hagainst ((hsame _ hpending).trans hanswer)
  | stopped hpending hstopped hagainst => exact .stopped hpending hstopped hagainst

/-- Steps of the scheduler keep the calls under way. -/
theorem keepsCalls_of_transition {s s' : SchedulerModel.World StageInput (StageOutput D) Failure}
    (h : Transition s s') : KeepsCalls s s' where
  started := fun _ hc => started_transition hc h
  call := fun _ hc => call_transition hc h

/-- Who is live has started. -/
theorem started_of_live {ο ε : Type} {phase : Phase ο ε} (h : live phase=true) :
    phase≠.absent := by
  rintro rfl
  cases h

/-- Steps that change one request and answer at most its own call. -/
theorem Isolated.replace {w w' : World F D} (h : Isolated stage w) {r : ℕ} {request : Request F D}
    (howned : Ownership w'.scheduler) (hanswered : Answered w'.scheduler w'.answers)
    (hrequests : w'.requests=Function.update w.requests r (some request))
    (hkeep : KeepsCalls w.scheduler w'.scheduler)
    (howner : ∀ c,live (w'.scheduler.phase c)=true →
      (w'.scheduler.ticket c).call.sequence=r ∧ request.pending=some c ∨
        (w'.scheduler.ticket c).call.sequence≠r ∧ live (w.scheduler.phase c)=true)
    (hcalls : ∀ c,request.pending=some c → Calls w'.scheduler r request c)
    (hsound : Sound stage w'.answers request)
    (hanswers : ∀ r' request' c,r'≠r → w.requests r'=some request' →
      request'.pending=some c → w'.answers c=w.answers c) :
    Isolated stage w' where
  owned := howned
  answered := hanswered
  owner := by
    intro c hlive
    rw [hrequests]
    rcases howner c hlive with ⟨hr,hpending⟩|⟨hr,hbefore⟩
    · exact ⟨request,by rw [hr,Function.update_self],hpending⟩
    · have hcall := hkeep.call c (started_of_live hbefore)
      obtain ⟨old,hold,hpending⟩ := h.owner c hbefore
      rw [hcall] at hr ⊢
      exact ⟨old,by rw [Function.update_of_ne hr,hold],hpending⟩
  called := by
    intro r' request' c hr' hpending
    rw [hrequests] at hr'
    by_cases hr : r'=r
    · rw [hr,Function.update_self] at hr'
      cases hr'
      rw [hr]
      exact hcalls c hpending
    · rw [Function.update_of_ne hr] at hr'
      exact (h.called r' request' c hr' hpending).keep hkeep
  sound := by
    intro r' request' hr'
    rw [hrequests] at hr'
    by_cases hr : r'=r
    · rw [hr,Function.update_self] at hr'
      cases hr'
      exact hsound
    · rw [Function.update_of_ne hr] at hr'
      exact (h.sound r' request' hr').congr fun c hc => hanswers r' request' c hr hr' hc

/-- Steps of a handler that waits for no live call, before and after. -/
theorem Isolated.handle {w : World F D} (h : Isolated stage w) {r : ℕ} {request : Request F D}
    (hpending : request.pending=none) (hsound : Sound stage w.answers request)
    (hidle : ∀ old c,w.requests r=some old → old.pending=some c →
      live (w.scheduler.phase c)=false) :
    Isolated stage (w.withRequest r request) := by
  refine @replace _ _ _ _ stage w (w.withRequest r request) h r request h.owned h.answered rfl
    (keepsCalls_refl _) (fun c hlive => .inr ⟨?_,hlive⟩) (fun c hc => ?_) hsound
    fun _ _ _ _ _ _ => rfl
  · intro hr
    have hlive' : live (w.scheduler.phase c)=true := hlive
    obtain ⟨old,hold,hc⟩ := h.owner c hlive'
    have hr' : (w.scheduler.ticket c).call.sequence=r := hr
    rw [hidle old c (hr' ▸ hold) hc] at hlive'
    cases hlive'
  · rw [hpending] at hc
    cases hc

/-- A new request. -/
theorem Isolated.openSequence {w : World F D} (h : Isolated stage w) {r capacity : ℕ}
    {sampling : SamplingOptions D} {sequence : CpuSequence F D} (hr : w.requests r=none)
    (hsequence : stage.allocateSequence capacity sampling=.ok sequence) :
    Isolated stage (w.withRequest r ⟨sequence,sequence,[],[],none,false⟩) := by
  have hcounted : Counted sequence 0 := by
    unfold DenseStage.allocateSequence at hsequence
    split at hsequence
    · cases hsequence
    · cases hsequence
      refine ⟨?_,fun _ => rfl⟩
      split <;> rfl
  refine h.handle rfl ⟨⟨capacity,sampling,hsequence⟩,rfl,hcounted.drawn,
    .idle rfl ⟨rfl,List.prefix_rfl,hcounted⟩⟩ fun old c hold => ?_
  rw [hr] at hold
  cases hold

/-- A handler sees the outcome of its call. -/
theorem Isolated.collect {w : World F D} (h : Isolated stage w) {r c : ℕ}
    {request : Request F D} {outcome : Outcome (StageOutput D) Failure}
    (hr : w.requests r=some request) (hpending : request.pending=some c)
    (hphase : w.scheduler.phase c=.ended outcome) :
    Isolated stage (w.withRequest r (request.collected outcome)) := by
  have hsound := h.sound r request hr
  refine h.handle (by cases outcome <;> rfl) ?_ fun old c' hold hc' => ?_
  · cases outcome with
    | returned output =>
      have hanswer := h.answered.returned c output hphase
      refine ⟨hsound.fresh,hsound.sampling,hsound.drawn,?_⟩
      cases hsound.progress with
      | idle hnone _ =>
        rw [hpending] at hnone
        cases hnone
      | waiting hsome _ _ hnone _ =>
        rw [hpending] at hsome
        cases hsome
        rw [hanswer] at hnone
        cases hnone
      | served hsome _ hagainst hsame =>
        rw [hpending] at hsome
        cases hsome
        rw [hanswer] at hsame
        cases hsame
        exact .idle rfl ⟨hagainst.alone,hagainst.issued,hagainst.counted⟩
      | failed hsome _ hsame =>
        rw [hpending] at hsome
        cases hsome
        rw [hanswer] at hsame
        cases hsame
      | stopped hnone _ _ =>
        rw [hpending] at hnone
        cases hnone
    | thrown error => exact hsound.stop
    | undefined => exact hsound.stop
  · rw [hr] at hold
    cases hold
    rw [hpending] at hc'
    cases hc'
    rw [hphase]
    rfl

/-- A handler issues its next input. -/
theorem Isolated.issue {w : World F D} (h : Isolated stage w) {r c : ℕ} {request : Request F D}
    {i : Input} {deadline : ℕ} (hr : w.requests r=some request) (hstopped : request.stopped=false)
    (hpending : request.pending=none) (hphase : w.scheduler.phase c=.absent)
    (hfree : w.scheduler.holder=none) :
    Isolated stage {w.withRequest r (request.issued i c) with
      scheduler := w.scheduler.entered c (request.call r i deadline)} := by
  have htransition : Transition w.scheduler (w.scheduler.entered c (request.call r i deadline)) :=
    .entered hphase hfree
  have hsound := h.sound r request hr
  have hself : (w.scheduler.entered c (request.call r i deadline)).phase c=.checking := by
    rw [World.entered_phase,Function.update_self]
  have hticket : ((w.scheduler.entered c (request.call r i deadline)).ticket c).call=
      request.call r i deadline := by
    rw [World.entered_ticket,Function.update_self]
  refine h.replace (h.owned.transition htransition) (h.answered.entered hphase rfl) rfl
    (keepsCalls_of_transition htransition) (fun c' hlive => ?_) (fun c' hc' => ?_) ?_
    fun _ _ _ _ _ _ => rfl
  · by_cases hc : c'=c
    · refine .inl ⟨?_,by rw [hc]; rfl⟩
      rw [hc]
      exact congrArg Call.sequence hticket
    · have hlive' : live (w.scheduler.phase c')=true := by
        have hentered : live ((w.scheduler.entered c (request.call r i deadline)).phase c')=
          true := hlive
        rw [World.entered_phase,Function.update_of_ne hc] at hentered
        exact hentered
      refine .inr ⟨?_,hlive'⟩
      intro hsequence
      have hsame : (w.scheduler.ticket c').call.sequence=r := by
        have hkept := call_transition (started_of_live hlive') htransition
        rw [←hkept]
        exact hsequence
      obtain ⟨old,hold,hc'⟩ := h.owner c' hlive'
      rw [hsame,hr] at hold
      cases hold
      rw [hpending] at hc'
      cases hc'
  · cases hc'
    exact ⟨by rw [hself]; simp,request.inputs,i,deadline,rfl,hticket⟩
  · refine ⟨hsound.fresh,hsound.sampling,hsound.drawn,?_⟩
    cases hsound.progress with
    | idle _ hagainst =>
      exact .waiting rfl rfl ⟨hagainst.alone,List.prefix_append _ _,hagainst.counted⟩
        (h.answered.unstarted c hphase) rfl
    | waiting hsome _ _ _ _ =>
      rw [hpending] at hsome
      cases hsome
    | served hsome _ _ _ =>
      rw [hpending] at hsome
      cases hsome
    | failed hsome _ _ =>
      rw [hpending] at hsome
      cases hsome
    | stopped _ hstop _ =>
      rw [hstopped] at hstop
      cases hstop

/-- A backend call gives its request what the request alone would get. -/
theorem Sound.serve {w : World F D} (h : Isolated stage w) {r c : ℕ} {request : Request F D}
    (hr : w.requests r=some request) (hpending : request.pending=some c)
    (hanswer : w.answers c=none) (cancelled : List Bool) :
    Sound stage (Function.update w.answers c (some (stage.execute (w.scheduler.ticket c).call.input
      (w.scheduler.ticket c).call.position request.sequence cancelled).2))
      {request with sequence := (stage.execute (w.scheduler.ticket c).call.input
        (w.scheduler.ticket c).call.position request.sequence cancelled).1} := by
  have hsound := h.sound r request hr
  obtain ⟨-,done,i,deadline,hinputs,hcall⟩ := h.called r request c hr hpending
  rw [hcall]
  cases hsound.progress with
  | idle hnone _ =>
    rw [hpending] at hnone
    cases hnone
  | @waiting c' done' i' s hsome hinputs' hagainst hanswer' hsequence =>
    obtain ⟨hdone,hlast⟩ := List.append_inj' (hinputs.symm.trans hinputs') rfl
    have hi : i=i' := List.singleton_inj.mp hlast
    subst hdone hi
    have hflagged : Counted request.sequence (sampledCount request.outputs) := by
      rw [hsequence]
      exact ⟨hagainst.counted.draws,hagainst.counted.next⟩
    have hadvances := @execute_advances _ _ _ _ stage _ _ hflagged i.input (rows done) cancelled
    refine ⟨hsound.fresh,hadvances.sampling.trans hsound.sampling,hadvances.drawn,?_⟩
    cases hresult : (stage.execute i.input (rows done) request.sequence cancelled).2 with
    | error failure =>
      exact .failed hpending ⟨hagainst.alone,hagainst.issued,hagainst.counted⟩
        (Function.update_self _ _ _)
    | ok output =>
      have hexecute : stage.execute i.input (0+rows done) (i.flag s) []=
          ((stage.execute i.input (rows done) request.sequence cancelled).1,.ok output) := by
        rw [Nat.zero_add,←hsequence]
        exact execute_uncancelled (Prod.ext rfl hresult)
      have halone := alone_append hagainst.alone hexecute
      have hcounted := hadvances.counted output hresult
      have hall : sampledCount request.outputs+sampledCount [output]=
          sampledCount (request.outputs++[output]) := by
        rw [sampledCount,sampledCount,sampledCount,List.countP_append]
      rw [hall] at hcounted
      refine .served hpending ⟨hagainst.alone,hagainst.issued,hagainst.counted⟩
        ⟨?_,List.prefix_rfl,hcounted⟩ (Function.update_self _ _ _)
      change alone stage 0 request.start request.inputs=_
      rw [hinputs]
      exact halone
  | served hsome _ _ hsame =>
    rw [hpending] at hsome
    cases hsome
    rw [hanswer] at hsame
    cases hsame
  | failed hsome _ hsame =>
    rw [hpending] at hsome
    cases hsome
    rw [hanswer] at hsame
    cases hsame
  | stopped hnone _ _ =>
    rw [hpending] at hnone
    cases hnone

/-- The backend call of a leader. -/
theorem Isolated.serve {w w' : World F D} (h : Isolated stage w) {l : ℕ} {cancelled : List Bool}
    (hserve : w.serve stage l cancelled=some w') : Isolated stage w' := by
  unfold World.serve at hserve
  split at hserve
  · rename_i c hphase
    have hgroup : c∈group (w.scheduler.phase l) := by
      rw [hphase]
      exact List.mem_singleton_self c
    obtain ⟨hlive,-,hopen,-⟩ := h.owned.member l c hgroup
    have hleads : leads (w.scheduler.phase l)=true := by
      rw [hphase]
      rfl
    have hanswer : w.answers c=none := by
      refine h.answered.unserved c hlive hopen fun l' d result hl' => ?_
      have hleads' : leads (w.scheduler.phase l')=true := by
        rw [hl']
        rfl
      rw [h.owned.oneLeader l' l hleads' hleads,hphase] at hl'
      cases hl'
    obtain ⟨request,hr,hpending⟩ := h.owner c hlive
    simp only [hr] at hserve
    obtain ⟨scheduler,hcompute,rfl⟩ := Option.map_eq_some_iff.mp hserve
    generalize hexecute : stage.execute (w.scheduler.ticket c).call.input
      (w.scheduler.ticket c).call.position request.sequence cancelled=executed at hcompute
    have hsingle : w.scheduler.compute l (single executed.2)=
        some (w.scheduler.answered l [c] (dispatchResult [c] (single executed.2))) := by
      unfold SchedulerModel.World.compute
      rw [hphase]
      cases executed.2 <;> rfl
    rw [hsingle] at hcompute
    cases hcompute
    have htransition : Transition w.scheduler
        (w.scheduler.answered l [c] (dispatchResult [c] (single executed.2))) := .answered hphase
    have hserved := Sound.serve h hr hpending hanswer cancelled
    rw [hexecute] at hserved
    refine h.replace (h.owned.transition htransition)
      (h.answered.answered h.owned hphase executed.2) rfl (keepsCalls_of_transition htransition)
      (fun c' hlive' => ?_) (fun c' hc' => ?_) hserved fun r' request' c' hne hr' hc' => ?_
    · have hbefore : live (w.scheduler.phase c')=true := by
        have hmoved : live ((w.scheduler.answered l [c]
          (dispatchResult [c] (single executed.2))).phase c')=true := hlive'
        rw [World.answered_phase,update_agrees live (by rw [hphase]; rfl)] at hmoved
        exact hmoved
      by_cases hsequence : (w.scheduler.ticket c').call.sequence=
          (w.scheduler.ticket c).call.sequence
      · obtain ⟨old,hold,hc'⟩ := h.owner c' hbefore
        rw [hsequence,hr] at hold
        cases hold
        exact .inl ⟨hsequence,hc'⟩
      · exact .inr ⟨hsequence,hbefore⟩
    · exact (h.called _ request c' hr hc').keep (keepsCalls_of_transition htransition)
    · refine Function.update_of_ne ?_ _ _
      rintro rfl
      exact hne (h.call_unique hr' hr hc' hpending)
  · cases hserve

/-- Steps of the scheduler itself. -/
theorem Isolated.schedule {w : World F D} (h : Isolated stage w)
    {a : SchedulerModel.Action StageInput (StageOutput D) Failure}
    {scheduler : SchedulerModel.World StageInput (StageOutput D) Failure}
    (ha : internal a=true) (hstep : w.scheduler.step a=some scheduler) :
    Isolated stage {w with scheduler := scheduler} := by
  have hinner := inner_of_internal ha hstep
  have hanswered := h.answered.internal ha hstep
  rcases step_transition hstep with rfl|htransition
  · exact h
  · refine ⟨h.owned.transition htransition,hanswered,fun c hlive => ?_,fun r request c hr hc => ?_,
      h.sound⟩
    · have hbefore : live (w.scheduler.phase c)=true := by
        have hafter : live (scheduler.phase c)=true := hlive
        cases hphase : w.scheduler.phase c with
        | absent =>
          rw [hinner.absent c hphase] at hafter
          cases hafter
        | ended outcome =>
          rw [ended_transition hphase htransition] at hafter
          cases hafter
        | _ => rfl
      have hcall := call_transition (started_of_live hbefore) htransition
      change ∃ request,w.requests (scheduler.ticket c).call.sequence=some request ∧ _
      rw [hcall]
      exact h.owner c hbefore
    · exact (h.called r request c hr hc).keep (keepsCalls_of_transition htransition)

/-- Every step keeps requests apart. -/
theorem Isolated.step {w w' : World F D} (h : Isolated stage w) {a : Action D}
    (hstep : w.step stage a=some w') : Isolated stage w' := by
  cases a with
  | openSequence r capacity sampling =>
    simp only [World.step] at hstep
    split at hstep
    · cases hstep
    · rename_i hr
      split at hstep
      · cases hstep
        exact h
      · rename_i sequence hsequence
        cases hstep
        exact h.openSequence hr hsequence
  | issue r c i deadline =>
    simp only [World.step] at hstep
    split at hstep
    · cases hstep
    · rename_i request hr
      split at hstep
      · cases hstep
      · rename_i hopen
        simp only [not_or,Bool.not_eq_true,not_not] at hopen
        obtain ⟨scheduler,henter,rfl⟩ := Option.map_eq_some_iff.mp hstep
        unfold SchedulerModel.World.enter at henter
        split at henter
        · rename_i hphase hfree
          cases henter
          exact h.issue hr hopen.1 hopen.2 hphase hfree
        · cases henter
  | schedule a =>
    simp only [World.step] at hstep
    split at hstep
    · rename_i ha
      obtain ⟨scheduler,hscheduler,rfl⟩ := Option.map_eq_some_iff.mp hstep
      exact h.schedule ha hscheduler
    · cases hstep
  | compute l cancelled => exact h.serve hstep
  | collect r =>
    simp only [World.step] at hstep
    split at hstep
    · cases hstep
    · rename_i request hr
      split at hstep
      · cases hstep
      · rename_i c hpending
        split at hstep
        · rename_i outcome hphase
          cases hstep
          exact h.collect hr hpending hphase
        · cases hstep
  | stop r =>
    simp only [World.step] at hstep
    split at hstep
    · cases hstep
    · rename_i request hr
      split at hstep
      · cases hstep
      · rename_i hpending
        cases hstep
        rw [not_not] at hpending
        have hstopped := (h.sound r request hr).stop
        have hsame : {request with pending := none, stopped := true}=
            {request with stopped := true} := by rw [←hpending]
        rw [hsame] at hstopped
        refine h.handle hpending hstopped fun old c hold hc => ?_
        rw [hr] at hold
        cases hold
        rw [hpending] at hc
        cases hc

/-- Requests are apart in every state. -/
theorem isolated_reachable {w : World F D} (h : (machine stage).Reachable w) : Isolated stage w := by
  refine h.induct ?_ ?_
  · rintro _ ⟨blank,rfl⟩
    exact isolated_start blank
  · intro w a w' hw hstep
    exact hw.step hstep

/-- What has returned is what the request alone returns for the same inputs. -/
theorem Isolated.alone {w : World F D} (h : Isolated stage w) {r : ℕ} {request : Request F D}
    (hr : w.requests r=some request) :
    ∃ s,alone stage 0 request.start (request.inputs.take request.outputs.length)=
      (s,.ok request.outputs) := by
  obtain ⟨done,s,hagainst⟩ := (h.sound r request hr).progress.against
  rw [alone_length hagainst.alone,←List.prefix_iff_eq_take.mp hagainst.issued]
  exact ⟨s,hagainst.alone⟩

/-- Whatever the other requests do, a request starts on a new sequence and
its outputs are those it gets alone for the same inputs; so two runs agree as
far as the inputs of a request do. Its draws are its seed with the counters
from zero, one for each sampled token of a request at positive temperature. -/
theorem request_isolated (stage : DenseStage F) {w : World F D} (h : (machine stage).Reachable w)
    {r : ℕ} {request : Request F D} (hr : w.requests r=some request) :
    (∃ capacity sampling,stage.allocateSequence capacity sampling=.ok request.start) ∧
    (∃ s,alone stage 0 request.start (request.inputs.take request.outputs.length)=
      (s,.ok request.outputs)) ∧
    (∀ w' r' request',(machine stage).Reachable w' → w'.requests r'=some request' →
      request'.start=request.start → ∀ n,request'.inputs.take n=request.inputs.take n →
        n ≤ request'.outputs.length → n ≤ request.outputs.length →
        request'.outputs.take n=request.outputs.take n) ∧
    (∃ n,request.sequence.draws=drawsOf request.start.sampling.seed n) ∧
    (request.pending=none → request.stopped=false → request.sequence.draws=
      if Double.eq request.start.sampling.temperature Double.zero then []
      else drawsOf request.start.sampling.seed (sampledCount request.outputs)) := by
  have hisolated := isolated_reachable h
  have hsound := hisolated.sound r request hr
  obtain ⟨s,halone⟩ := hisolated.alone hr
  refine ⟨hsound.fresh,⟨s,halone⟩,?_,?_,?_⟩
  · intro w' r' request' hw' hr' hstart n hinputs hn' hn
    obtain ⟨s',halone'⟩ := (isolated_reachable hw').alone hr'
    obtain ⟨t,ht⟩ := alone_take halone n
    obtain ⟨t',ht'⟩ := alone_take halone' n
    rw [List.take_take,Nat.min_eq_left hn] at ht
    rw [List.take_take,Nat.min_eq_left hn',hinputs,hstart,ht] at ht'
    exact (Except.ok.inj (Prod.mk.inj ht').2).symm
  · rw [←hsound.sampling]
    exact hsound.drawn
  · intro hpending hstopped
    cases hsound.progress with
    | idle _ hagainst =>
      rw [←hsound.sampling]
      exact hagainst.counted.draws
    | waiting hsome _ _ _ _ =>
      rw [hpending] at hsome
      cases hsome
    | served hsome _ _ _ =>
      rw [hpending] at hsome
      cases hsome
    | failed hsome _ _ =>
      rw [hpending] at hsome
      cases hsome
    | stopped _ hstop _ =>
      rw [hstopped] at hstop
      cases hstop

end Isolation

/-- A sampling request of two chunks beside a greedy one that is served in
between, on the same stage. -/
def smallRun : List (Action ℤ) :=
  let lead : ℕ → List (Action ℤ) := fun c => [Action.schedule (.check c 0 0),.schedule (.claim c 0 0),
    .schedule (.dispatch c)]
  let done : ℕ → ℕ → List (Action ℤ) := fun r c =>
    [Action.compute c [],.schedule (.deliver c),.schedule (.check c 0 0),
    .collect r]
  [.openSequence 0 3 ⟨1,1,0,7,false,0⟩,.openSequence 1 3 ⟨0,1,0,8,false,0⟩,
    .issue 0 0 ⟨.tokens [0],true,true⟩ 9]++lead 0++
  [.issue 1 1 ⟨.tokens [1,0],true,false⟩ 9,.schedule (.check 1 0 0)]++done 0 0++
  [.issue 0 2 ⟨.tokens [1],true,false⟩ 9,.schedule (.check 2 0 0),.schedule (.wake 1)]++
  lead 1++done 1 1++[.schedule (.wake 2)]++lead 2++done 0 2

/-- The call in the cells no caller has written. -/
def blankCall : Call StageInput := ⟨.tokens [],0,0,false,0,false⟩

/-- The sampling request draws once, for its one token. -/
theorem smallRun_isolated :
    ∃ w request,(machine smallStage).run (.start blankCall) smallRun=some w ∧
      w.requests 0=some request ∧ request.outputs.length=2 ∧
      sampledCount request.outputs=1 ∧ request.sequence.draws=[(7,0)] ∧
      ∃ s,alone smallStage 0 request.start (request.inputs.take 2)=(s,.ok request.outputs) := by
  have hrun : (((machine smallStage).run (.start blankCall) smallRun).bind fun w =>
      (w.requests 0).map fun request => (request.outputs.length,sampledCount request.outputs,
        request.sequence.draws))=some (2,1,[(7,0)]) := by decide +kernel
  obtain ⟨w,hw,hmap⟩ := Option.bind_eq_some_iff.mp hrun
  obtain ⟨request,hr,heq⟩ := Option.map_eq_some_iff.mp hmap
  obtain ⟨hlength,hrest⟩ := Prod.mk.inj heq
  obtain ⟨hcount,hdraws⟩ := Prod.mk.inj hrest
  have hreachable : (machine smallStage).Reachable w :=
    Machine.reachable_of_run ⟨blankCall,rfl⟩ hw
  obtain ⟨s,halone⟩ := (request_isolated smallStage hreachable hr).2.1
  rw [hlength] at halone
  exact ⟨w,request,hw,hr,hlength,hcount,hdraws,s,halone⟩

end Hllm.RequestIsolation
