import Hllm.GenerationLockstep

/-!
# Runs in lockstep

A run of the two stages without a failure keeps them together at every step:
no check of either side fails, each pass starts at the row after the last one,
both sides end the sequence on the same token, and neither waits for a message
while the other waits for its own.
-/

namespace Hllm.LockstepRuns

open RunInvariants BoundaryCodec SamplingModel GenerationModel GenerationEvents HandlerSites
open GenerationPipeline GenerationLockstep

variable {F D : Type}

section Steps

variable [Double F D] {g : Generation D} {upstream : Generate D} {downstream : Execute D}
variable {toPeer toDriver : List (StageMessage D)}

/-- A call of the driver returns. -/
theorem lockstep_drive {point : GeneratePoint D} {reply : Reply D} {h' : Generate D}
    (ha : Admissible g) (hg : AtPoint g point) (hl : Lockstep g point downstream toPeer toDriver)
    (hone : g.resume point reply=some h')
    (hsmooth : DriverSmooth downstream toDriver (.running g point) reply)
    (hunread : ∀ message,reply≠.read (some message)) :
    Joined h' downstream (toPeer++written (Generate.outgoing (.running g point)) reply)
      toDriver := by
  have hsilent : ∀ {h' : Generate D} {reply : Reply D},
      written (Generate.outgoing (.running g point)) reply=[] → Joined h' downstream toPeer toDriver →
      Joined h' downstream (toPeer++written (Generate.outgoing (.running g point)) reply)
        toDriver := by
    intro h' reply hnone hj
    rw [hnone,List.append_nil]
    exact hj
  cases reply with
  | threw error => exact hsmooth.elim
  | started now later contextDeadline random => cases hone
  | acquired lease => cases hone
  | running =>
    refine hsilent rfl ?_
    cases hl with
    | looping first executed waits =>
      obtain ⟨tokens,hready⟩ := hg
      obtain ⟨g',henter,hphased,hrequest,hsampling,hlease,hchunk,hstep,hposition,hgenerated,
        hexecuted⟩ := phased_enterBackend hready first
      cases hone
      rw [henter]
      have hopening : g'.opening=g.opening := by
        rw [Generation.opening,Generation.opening,hrequest,hsampling,hlease]
      refine .running ⟨?_,?_,?_,?_⟩ (.executing hphased ?_ ?_)
      · rw [hrequest,hsampling,hlease]
        exact ha.asked
      · rw [hrequest,hsampling,hlease]
        exact ha.admitted
      · rw [hlease]
        exact ha.split
      · rw [hchunk,hrequest]
        exact ha.chunk
      · rw [hexecuted,hposition]
        exact executed
      · rw [hstep,hposition,hgenerated]
        exact waits.congr hopening hlease hrequest
    | @sampled h toPeer token decides =>
      rw [Generation.resume,Generation.checked,Option.some.injEq] at hone
      subst hone
      split
      · exact .running ha (.announcing decides)
      · exact .running ⟨ha.asked,ha.admitted,ha.split,ha.chunk⟩
          (.emitting ⟨decides.executed,decides.waits.congr rfl rfl rfl⟩)
    | announcing decides =>
      cases hone
      exact .running ha (.announced decides)
    | emitting tells =>
      cases hone
      exact .running ha (.emitted tells)
    | committing hdone =>
      cases hone
      exact .running ha (.releasing hdone)
    | _ => cases hone
  | output output =>
    refine hsilent rfl ?_
    cases hl with
    | executing phased executed waits =>
      obtain ⟨tokens,hpassing⟩ := hg
      rw [Generation.resume,Generation.computed,Option.some.injEq] at hone
      subst hone
      rw [if_pos ha.split]
      have hrows : g.executed+g.tokens.length=g.position+g.tokens.length := by rw [executed]
      have hfits := passing_bound hpassing
      have hphased : Phased { g with executed := g.executed+g.tokens.length } :=
        ⟨phased.first,phased.prefilling,phased.prefillOnly,phased.nonempty,phased.chunk,
          phased.inside,phased.single⟩
      have hadmissible : Admissible { g with executed := g.executed+g.tokens.length } :=
        ⟨ha.asked,ha.admitted,ha.split,ha.chunk⟩
      obtain ⟨tensor,hsends,hcarries⟩ := hphased.sends hadmissible hfits (hsmooth g rfl)
      rw [hsends]
      exact .running hadmissible (.sending hphased hrows hcarries (waits.congr rfl rfl rfl))
    | _ => cases hone
  | written ok =>
    cases ok with
    | false => cases hsmooth
    | true =>
      cases hl with
      | opening hzero executed =>
        have hready : Ready g [] := hg
        have hmore : g.generated < g.request.maximumNewTokens := hready.counted ▸ hready.below
        have hprompt := hready.prompt
        cases hone
        rw [Generation.loopHead,if_pos hmore]
        refine .running ha (.looping (fun _ => ?_) ?_ (.starting hzero))
        · rw [hzero.position]
          exact hprompt
        · rw [executed,hzero.position]
      | sending phased executed carries waits =>
        cases hone
        exact .running ha (.reading phased executed (.sent carries (waits.push _)))
      | announced decides =>
        cases hone
        exact hsilent rfl (.running ⟨ha.asked,ha.admitted,ha.split,ha.chunk⟩
          (.emitting ⟨decides.executed,decides.waits.congr rfl rfl rfl⟩))
      | emitted tells =>
        obtain ⟨tokens,hemitting⟩ := hg
        cases hone
        exact hsilent rfl (tells.joins ha hemitting _)
      | terminating waits =>
        cases hone
        exact .running ha (.acknowledging (.sent (waits.push _)))
      | usage hdone =>
        cases hone
        exact hsilent rfl (.running ⟨ha.asked,ha.admitted,ha.split,ha.chunk⟩ (.terminal hdone))
      | terminal hdone =>
        cases hone
        exact hsilent rfl (.running ⟨ha.asked,ha.admitted,ha.split,ha.chunk⟩ (.leaving hdone))
      | _ => cases hone
  | read message =>
    cases message with
    | some message => exact absurd rfl (hunread message)
    | none =>
      refine hsilent rfl ?_
      obtain ⟨hempty,status,rfl⟩ := hsmooth
      cases hl with
      | reading phased executed exchange =>
        subst hempty
        cases exchange with
        | sent carries waits => cases waits
      | acknowledging ends =>
        subst hempty
        cases ends with
        | sent waits => cases waits
      | draining hdone =>
        cases hone
        exact .running ha (.finishing hdone)
      | _ => cases hone
  | finished status =>
    refine hsilent rfl ?_
    cases hl with
    | finishing hdone =>
      have hreturned : downstream=.returned status := hsmooth
      rw [hreturned] at hdone ⊢
      cases hdone
      cases hone
      exact .running ha (.committing .returned)
    | _ => cases hone
  | released =>
    refine hsilent rfl ?_
    cases hl with
    | releasing hdone =>
      cases hone
      exact .running ha (.usage hdone)
    | _ => cases hone
  | left expired cancelled =>
    refine hsilent rfl ?_
    cases hl with
    | leaving hdone =>
      cases hone
      exact .returned hdone
    | _ => cases hone

/-- A call of the driver that reads no message returns. -/
theorem joined_drive {h h' : Generate D} {reply : Reply D}
    (hj : Joined h downstream toPeer toDriver) (hg : Grammatical h) (hasked : Asked h)
    (hone : Generate.resume h reply=some h') (hsmooth : DriverSmooth downstream toDriver h reply)
    (hgranted : ∀ lease,reply=.acquired lease →
      ∃ call,h.acquisition=some call ∧ Granted call lease)
    (hunread : ∀ message,reply≠.read (some message)) :
    Joined h' downstream (toPeer++written h.outgoing reply) toDriver := by
  cases hj with
  | starting =>
    cases reply with
    | started now later contextDeadline random =>
      obtain ⟨⟨sampling,call⟩,hstart⟩ := hsmooth _ rfl
      rw [Generate.resume,hstart] at hone
      cases hone
      exact .acquiring
    | _ => cases hone
  | @acquiring request sampling call =>
    cases reply with
    | threw error => exact hsmooth.elim
    | acquired lease =>
      obtain ⟨call',hcall,hlease⟩ := hgranted lease rfl
      cases hcall
      obtain ⟨hadmitted,hsplit⟩ := hsmooth request sampling call rfl
      rw [Generate.resume,GenerationRequest.afterLease,hadmitted] at hone
      dsimp only at hone
      rw [if_pos hsplit] at hone
      cases hone
      exact .running ⟨⟨call,hasked,hlease⟩,hadmitted,hsplit,rfl⟩
        (.opening ⟨rfl,rfl,rfl,rfl⟩ rfl)
    | _ => cases hone
  | running admissible lockstep => exact lockstep_drive admissible hg lockstep hone hsmooth hunread
  | returned hdone => cases hone

/-- The driver reads a message. -/
theorem joined_receive {h h' : Generate D} {message : StageMessage D}
    {rest : List (StageMessage D)} (hj : Joined h downstream toPeer (message::rest))
    (hg : Grammatical h) (hone : Generate.resume h (.read (some message))=some h') :
    Joined h' downstream toPeer rest := by
  cases hj with
  | @running g _ _ _ _ admissible lockstep =>
    cases lockstep with
    | reading phased executed exchange =>
      obtain ⟨tokens,hpassing⟩ := hg
      cases exchange with
      | replied hpoint answered =>
        cases hone
        exact answered.joins admissible hpassing executed hpoint
    | acknowledging ends =>
      cases ends with
      | acknowledged hdone =>
        have hack : g.acknowledges (.terminate g.termination)=true := decide_eq_true rfl
        rw [Generate.resume,Generation.resume,Generation.received,hack,if_pos rfl] at hone
        cases hone
        exact .running admissible (.draining hdone)

/-- A step of the follower at some point of the driver. -/
theorem lockstep_follow {point : GeneratePoint D} {h h' : Execute D} {reply : Reply D}
    (ha : Admissible g)
    (hdefault : validateSampling (defaultSampling : SamplingOptions D)=.ok ())
    (hl : Lockstep g point h toPeer toDriver)
    (hone : Returns g (.running g point) toPeer h reply h') :
    Lockstep g point h' toPeer (toDriver++written h.outgoing reply) := by
  have hdone : Done h → Done h' ∧ toDriver++written h.outgoing reply=toDriver := by
    intro hdone
    obtain ⟨hdone',hwritten⟩ := hdone.follow hone.resumes
    rw [hwritten,List.append_nil]
    exact ⟨hdone',rfl⟩
  cases hl with
  | opening hzero executed =>
    cases reply with
    | read message =>
      cases message with
      | none => cases hone.smooth.2
      | some message => exact absurd rfl (hone.unread message)
    | _ => cases hone.resumes
  | looping first executed waits =>
    obtain ⟨hwaits,hwritten⟩ := waits.follow ha hdefault hone fun _ => rfl
    rw [hwritten]
    exact .looping first executed hwaits
  | executing phased executed waits =>
    obtain ⟨hwaits,hwritten⟩ := waits.follow ha hdefault hone fun _ => rfl
    rw [hwritten]
    exact .executing phased executed hwaits
  | sending phased executed carries waits =>
    obtain ⟨hwaits,hwritten⟩ := waits.follow ha hdefault hone fun _ => rfl
    rw [hwritten]
    exact .sending phased executed carries hwaits
  | reading phased executed exchange =>
    exact .reading phased executed (exchange.follow ha hdefault phased hone rfl)
  | sampled decides =>
    obtain ⟨hwaits,hwritten⟩ := decides.waits.follow ha hdefault hone fun _ => rfl
    rw [hwritten]
    exact .sampled ⟨decides.executed,hwaits⟩
  | announcing decides =>
    obtain ⟨hwaits,hwritten⟩ := decides.waits.follow ha hdefault hone fun _ => rfl
    rw [hwritten]
    exact .announcing ⟨decides.executed,hwaits⟩
  | announced decides =>
    obtain ⟨hwaits,hwritten⟩ := decides.waits.follow ha hdefault hone fun _ => rfl
    rw [hwritten]
    exact .announced ⟨decides.executed,hwaits⟩
  | emitting tells =>
    obtain ⟨hwaits,hwritten⟩ := tells.waits.follow ha hdefault hone fun _ => rfl
    rw [hwritten]
    exact .emitting ⟨tells.executed,hwaits⟩
  | emitted tells =>
    obtain ⟨hwaits,hwritten⟩ := tells.waits.follow ha hdefault hone fun _ => rfl
    rw [hwritten]
    exact .emitted ⟨tells.executed,hwaits⟩
  | terminating waits =>
    obtain ⟨hwaits,hwritten⟩ := waits.follow ha hdefault hone fun _ => rfl
    rw [hwritten]
    exact .terminating hwaits
  | acknowledging ends => exact .acknowledging (ends.follow ha hdefault hone)
  | draining hend =>
    obtain ⟨hend',hsame⟩ := hdone hend
    rw [hsame]
    exact .draining hend'
  | finishing hend =>
    obtain ⟨hend',hsame⟩ := hdone hend
    rw [hsame]
    exact .finishing hend'
  | committing hend =>
    obtain ⟨hend',hsame⟩ := hdone hend
    rw [hsame]
    exact .committing hend'
  | releasing hend =>
    obtain ⟨hend',hsame⟩ := hdone hend
    rw [hsame]
    exact .releasing hend'
  | usage hend =>
    obtain ⟨hend',hsame⟩ := hdone hend
    rw [hsame]
    exact .usage hend'
  | terminal hend =>
    obtain ⟨hend',hsame⟩ := hdone hend
    rw [hsame]
    exact .terminal hend'
  | leaving hend =>
    obtain ⟨hend',hsame⟩ := hdone hend
    rw [hsame]
    exact .leaving hend'

/-- A read of the follower where it only has its opening to read. -/
theorem waits_opening {sequence position generated : ℕ} {stopped : Bool} {h h' : Execute D}
    {message : StageMessage D} {rest : List (StageMessage D)}
    (hw : Waits g sequence position generated stopped [] h (message::rest))
    (hone : Execute.resume h (.read (some message))=some h') :
    Waits g sequence position generated stopped [] h' rest := by
  rcases hw.read hone with hwaits|⟨e,-,hpending,-⟩
  · exact hwaits
  · cases hpending

/-- A read of the follower at some point of the driver. -/
theorem lockstep_read {point : GeneratePoint D} {h h' : Execute D} {message : StageMessage D}
    {rest : List (StageMessage D)} (hl : Lockstep g point h (message::rest) toDriver)
    (hone : Execute.resume h (.read (some message))=some h') :
    Lockstep g point h' rest toDriver := by
  cases hl with
  | looping first executed waits => exact .looping first executed (waits_opening waits hone)
  | executing phased executed waits => exact .executing phased executed (waits_opening waits hone)
  | sending phased executed carries waits =>
    exact .sending phased executed carries (waits_opening waits hone)
  | reading phased executed exchange => exact .reading phased executed (exchange.read hone)
  | sampled decides => exact .sampled ⟨decides.executed,waits_opening decides.waits hone⟩
  | announcing decides => exact .announcing ⟨decides.executed,waits_opening decides.waits hone⟩
  | announced decides => exact .announced ⟨decides.executed,waits_opening decides.waits hone⟩
  | emitting tells => exact .emitting ⟨tells.executed,waits_opening tells.waits hone⟩
  | emitted tells => exact .emitted ⟨tells.executed,waits_opening tells.waits hone⟩
  | terminating waits => exact .terminating (waits_opening waits hone)
  | acknowledging ends => exact .acknowledging (ends.read hone)

/-- A call of the follower that reads no message returns. -/
theorem joined_follow {h h' : Execute D} {reply : Reply D}
    (hdefault : validateSampling (defaultSampling : SamplingOptions D)=.ok ())
    (hj : Joined upstream h toPeer toDriver) (hone : Execute.resume h reply=some h')
    (hsmooth : FollowerSmooth upstream toPeer h reply)
    (hgranted : ∀ lease,reply=.acquired lease →
      ∃ call,h.acquisition=some call ∧ Granted call lease)
    (hunread : ∀ message,reply≠.read (some message)) :
    Joined upstream h' toPeer (toDriver++written h.outgoing reply) := by
  have hstarting : writesDone upstream=false → h=.starting → toPeer=[] → False := by
    rintro hopen rfl rfl
    cases reply with
    | read message =>
      cases message with
      | none =>
        have hdone := hsmooth.2
        rw [hopen] at hdone
        cases hdone
      | some message => exact hunread message rfl
    | _ => cases hone
  cases hj with
  | starting => exact (hstarting rfl rfl rfl).elim
  | acquiring => exact (hstarting rfl rfl rfl).elim
  | running admissible lockstep =>
    exact .running admissible (lockstep_follow admissible hdefault lockstep
      ⟨hone,hsmooth,rfl,hgranted,hunread⟩)
  | returned hdone =>
    obtain ⟨hdone',hwritten⟩ := hdone.follow hone
    rw [hwritten]
    exact .returned hdone'

/-- The follower reads a message. -/
theorem joined_read {h h' : Execute D} {message : StageMessage D} {rest : List (StageMessage D)}
    (hj : Joined upstream h (message::rest) toDriver)
    (hone : Execute.resume h (.read (some message))=some h') :
    Joined upstream h' rest toDriver := by
  cases hj with
  | running admissible lockstep => exact .running admissible (lockstep_read lockstep hone)

end Steps

section Runs

variable [Double F D] {setting : Setting} {s s' : Pipeline D}

/-- Steps without a failure: no cancellation, no deadline and no loss, requests
that pass the driver's checks and are acquired by both workers, and two regular
backends of equal sizes. -/
def Calm (setting : Setting) (s : Pipeline D) : PipelineAction D → Prop
  | .driver a => ∀ reply,
      s.upstream.reply setting.driverSizes setting.driverThread a=some reply →
        DriverSmooth s.downstream.handler s.toDriver s.upstream.handler reply
  | .driverReads => True
  | .follower a => ∀ reply,
      s.downstream.reply setting.followerSizes setting.followerThread a=some reply →
        FollowerSmooth s.upstream.handler s.toPeer s.downstream.handler reply
  | .followerReads => True

/-- What a step sends is what its handler has written. -/
theorem sent_resumed {H : Type} {handler : Handler D H} {sizes : ℕ → BackendSizes} {t : ℕ}
    {u u' : Site H} {a : SiteAction D} {reply : Reply D} (outgoing : Option (StageMessage D))
    (h : Resumed handler sizes t u u' a reply) : sent outgoing a=written outgoing reply := by
  unfold sent
  split
  · have heq := h.called (.written true) rfl
    rw [←heq]
    rfl
  · rename_i hother
    unfold written
    split
    · exact absurd (h.streamed rfl) hother
    · rfl

/-- Where nothing resumes a handler, nothing is sent. -/
theorem sent_eq_nil {outgoing : Option (StageMessage D)} {a : SiteAction D}
    (h : ∀ reply,a≠.call reply) : sent outgoing a=[] := by
  unfold sent
  split
  · exact absurd rfl (h _)
  · rfl

/-- A step without a failure keeps the two stages together. -/
theorem joined_step (hexecutes : setting.peerExecutes=true)
    (hdefault : validateSampling (defaultSampling : SamplingOptions D)=.ok ())
    (haligned : Aligned setting s)
    (hj : Joined s.upstream.handler s.downstream.handler s.toPeer s.toDriver)
    {a : PipelineAction D} (hcalm : Calm setting s a) (hone : s.step setting a=some s') :
    Joined s'.upstream.handler s'.downstream.handler s'.toPeer s'.toDriver := by
  cases a with
  | driver a =>
    obtain ⟨u,hu,hfree,rfl⟩ := step_driver hone
    dsimp only
    rcases step_resumes hu with ⟨hsame,hcall⟩|⟨reply,hresumed⟩
    · rw [hsame,sent_eq_nil hcall,List.append_nil]
      exact hj
    · rw [sent_resumed _ hresumed]
      refine joined_drive hj haligned.grammatical haligned.asked hresumed.resumes ?_ ?_ ?_
      · rcases hresumed.replied with hreply|⟨expired,cancelled,rfl⟩
        · exact hcalm reply hreply
        · exact trivial
      · rintro lease rfl
        exact haligned.upstream.granted driver_lawful hu hresumed
      · rintro message rfl
        have hreads := hfree hexecutes
        rw [hresumed.streamed rfl] at hreads
        cases hreads
  | driverReads =>
    obtain ⟨message,rest,u,hchannel,hu,rfl⟩ := step_driverReads hone
    dsimp only
    rcases step_resumes hu with ⟨-,hcall⟩|⟨reply,hresumed⟩
    · exact absurd rfl (hcall _)
    · cases hresumed.called _ rfl
      rw [hchannel] at hj
      exact joined_receive hj haligned.grammatical hresumed.resumes
  | follower a =>
    obtain ⟨d,hd,hreads,rfl⟩ := step_follower hone
    dsimp only
    rcases step_resumes hd with ⟨hsame,hcall⟩|⟨reply,hresumed⟩
    · rw [hsame,sent_eq_nil hcall,List.append_nil]
      exact hj
    · rw [sent_resumed _ hresumed]
      refine joined_follow hdefault hj hresumed.resumes ?_ ?_ ?_
      · rcases hresumed.replied with hreply|⟨expired,cancelled,rfl⟩
        · exact hcalm reply hreply
        · exact trivial
      · rintro lease rfl
        exact haligned.downstream.granted follower_lawful hd hresumed
      · rintro message rfl
        rw [hresumed.streamed rfl] at hreads
        cases hreads
  | followerReads =>
    obtain ⟨message,rest,d,hchannel,hd,rfl⟩ := step_followerReads hone
    dsimp only
    rcases step_resumes hd with ⟨-,hcall⟩|⟨reply,hresumed⟩
    · exact absurd rfl (hcall _)
    · cases hresumed.called _ rfl
      rw [hchannel] at hj
      exact joined_read hj hresumed.resumes

/-- In every run without a failure the two stages are together. -/
theorem joined_reachable (hexecutes : setting.peerExecutes=true)
    (hdefault : validateSampling (defaultSampling : SamplingOptions D)=.ok ())
    (h : (pipeline setting).ReachableBy (Calm setting) s) :
    Aligned setting s ∧
      Joined s.upstream.handler s.downstream.handler s.toPeer s.toDriver := by
  refine Machine.ReachableBy.induct (I:=fun s => Aligned setting s ∧
    Joined s.upstream.handler s.downstream.handler s.toPeer s.toDriver) (fun s hinitial => ?_)
    (fun s a s' hcalm hs hone => ⟨hs.1.step hone,
      joined_step hexecutes hdefault hs.1 hs.2 hcalm hone⟩) h
  refine ⟨aligned_reachable ⟨_,[],hinitial,.nil _⟩,?_⟩
  obtain ⟨w,w',request,-,-,rfl⟩ := hinitial
  exact .starting

end Runs

section Results

variable [Double F D] {setting : Setting} {s : Pipeline D}

/-- The second stage works on what the first one has sent. -/
structure Together (g : Generation D) (e : Execution D) : Prop where
  prompt : e.prompt=g.request.tokenIds.length
  sequence : e.sequence=g.step
  position : e.position=g.position
  count : e.count=g.tokens.length
  prefilling : e.prefilling=g.prefilling
  prefillOnly : e.prefillOnly=g.prefillOnly
  generated : e.generated=g.generated

/-- The driver waits for a message of its peer, or for its end. -/
def driverWaits : Generate D → Prop
  | .running _ .reading => True
  | .running _ .acknowledging => True
  | .running _ .draining => True
  | .running _ .finishing => True
  | _ => False

/-- The follower waits for its opening or for another message. -/
def followerWaits : Execute D → Prop
  | .starting => True
  | .running _ .reading => True
  | _ => False

/-- What the two stages are to each other. -/
structure InLockstep (s : Pipeline D) : Prop where
  /-- The driver fails nowhere. -/
  drives : ∀ g error,s.upstream.handler≠.running g (.leaving (.error error))
  /-- The follower fails nowhere. -/
  follows : ∀ e error,s.downstream.handler≠.running e (.leaving (.error error))
  /-- A driver that returned has succeeded, and its follower with it. -/
  driven : ∀ request events status,s.upstream.handler=.returned request events status →
    status=.ok ∧ Done s.downstream.handler
  /-- A follower that returned has succeeded. -/
  followed : ∀ status,s.downstream.handler=.returned status → status=.ok
  /-- A pass of the first stage starts where the last one ended and is reserved. -/
  firstPass : ∀ g,s.upstream.handler=.running g .executing →
    g.position=g.executed ∧ 0 < g.tokens.length ∧
      g.tokens.length ≤ g.lease.maximumQueryTokens ∧
      g.position+g.tokens.length ≤ g.lease.identity.maximumTokens.toNat
  /-- So does a pass of the second, which is the same pass. -/
  secondPass : ∀ e input,s.downstream.handler=.running e (.executing input) →
    (e.position=e.executed ∧ 0 < e.count ∧ e.count ≤ e.lease.maximumQueryTokens ∧
      e.position+e.count ≤ e.lease.identity.maximumTokens.toNat) ∧
    ∃ g,s.upstream.handler=.running g .reading ∧ Together g e
  /-- While the driver goes on, the follower has not stopped. -/
  goesOn : ∀ g e point,s.upstream.handler=.running g .looping →
    s.downstream.handler=.running e point →
    e.stopped=false ∧ e.sequence=g.step ∧ e.position=g.position ∧ e.generated=g.generated
  /-- When the driver ends the sequence, the follower has stopped. -/
  ends : ∀ g,s.upstream.handler=.running g .terminating →
    ∃ e point,s.downstream.handler=.running e point ∧ e.stopped=true ∧
      e.prompt=g.request.tokenIds.length ∧ e.generated=g.generated
  /-- A message is under way while both of them wait for one. -/
  unblocked : driverWaits s.upstream.handler → followerWaits s.downstream.handler →
    s.toPeer≠[] ∨ s.toDriver≠[]

/-- A pass of the first stage in lockstep. -/
theorem pass_of_phased {g : Generation D} {tokens : List (SampledToken D)} (ha : Admissible g)
    (hphased : Phased g) (hpassing : Passing g tokens) :
    0 < g.tokens.length ∧ g.tokens.length ≤ g.lease.maximumQueryTokens ∧
      g.position+g.tokens.length ≤ g.lease.identity.maximumTokens.toNat := by
  have hchunk := hphased.chunk
  have hquery := ha.bounded.query
  have hbound := passing_bound hpassing
  rw [ha.chunk] at hchunk
  refine ⟨hphased.nonempty,Nat.le_trans hchunk hquery,?_⟩
  rw [ha.identified.tokens]
  omega

/-- Where a follower may be. -/
theorem joined_view {upstream : Generate D} {h : Execute D}
    {toPeer toDriver : List (StageMessage D)} (hj : Joined upstream h toPeer toDriver) :
    h=.starting ∨
      (∃ g point sequence position generated stopped pending,upstream=.running g point ∧
        Waits g sequence position generated stopped pending h toPeer) ∨
      (∃ g,upstream=.running g .reading ∧ Admissible g ∧ Phased g ∧
        Exchange g h toPeer toDriver) ∨
      (∃ g,upstream=.running g .acknowledging ∧ Ends g h toPeer toDriver) ∨ Done h := by
  cases hj with
  | starting => exact .inl rfl
  | acquiring => exact .inl rfl
  | returned hdone => exact .inr (.inr (.inr (.inr hdone)))
  | @running g _ _ _ _ admissible lockstep =>
    have hwaits : ∀ {point : GeneratePoint D} {sequence position generated : ℕ} {stopped : Bool}
        {pending : List (StageMessage D)},
        Waits g sequence position generated stopped pending h toPeer →
        ∃ g' point' sequence position generated stopped pending,
          Generate.running g point=.running g' point' ∧
          Waits g' sequence position generated stopped pending h toPeer :=
      fun hw => ⟨_,_,_,_,_,_,_,rfl,hw⟩
    cases lockstep with
    | opening => exact .inl rfl
    | looping _ _ waits => exact .inr (.inl (hwaits waits))
    | executing _ _ waits => exact .inr (.inl (hwaits waits))
    | sending _ _ _ waits => exact .inr (.inl (hwaits waits))
    | reading phased _ exchange =>
      exact .inr (.inr (.inl ⟨g,rfl,admissible,phased,exchange⟩))
    | sampled decides => exact .inr (.inl (hwaits decides.waits))
    | announcing decides => exact .inr (.inl (hwaits decides.waits))
    | announced decides => exact .inr (.inl (hwaits decides.waits))
    | emitting tells => exact .inr (.inl (hwaits tells.waits))
    | emitted tells => exact .inr (.inl (hwaits tells.waits))
    | terminating waits => exact .inr (.inl (hwaits waits))
    | acknowledging ends => exact .inr (.inr (.inr (.inl ⟨g,rfl,ends⟩)))
    | draining hdone => exact .inr (.inr (.inr (.inr hdone)))
    | finishing hdone => exact .inr (.inr (.inr (.inr hdone)))
    | committing hdone => exact .inr (.inr (.inr (.inr hdone)))
    | releasing hdone => exact .inr (.inr (.inr (.inr hdone)))
    | usage hdone => exact .inr (.inr (.inr (.inr hdone)))
    | terminal hdone => exact .inr (.inr (.inr (.inr hdone)))
    | leaving hdone => exact .inr (.inr (.inr (.inr hdone)))

/-- A follower that waits stands at a read. -/
theorem waits_point {g : Generation D} {sequence position generated : ℕ} {stopped : Bool}
    {pending toPeer : List (StageMessage D)} {e : Execution D} {point : ExecutePoint D}
    (hw : Waits g sequence position generated stopped pending (.running e point) toPeer) :
    (point=.awaiting ∨ point=.reading) ∧ Paired g e sequence position generated stopped ∧
      toPeer=pending := by
  cases hw with
  | waiting hpoint paired executed => exact ⟨hpoint,paired,rfl⟩

/-- What a waiting follower has to read was not read. -/
theorem waits_unread {g : Generation D} {sequence position generated : ℕ} {stopped : Bool}
    {pending toPeer : List (StageMessage D)} {h : Execute D}
    (hw : Waits g sequence position generated stopped pending h toPeer) (hpending : pending≠[]) :
    toPeer≠[] := by
  cases hw with
  | starting => exact List.cons_ne_nil _ _
  | _ => exact hpending

/-- A follower that is done waits for no message. -/
theorem done_waits {h : Execute D} (hdone : Done h) : ¬followerWaits h := by
  cases hdone with
  | leaving => exact id
  | returned => exact id

/-- A follower in lockstep has not failed. -/
theorem joined_succeeds {upstream : Generate D} {toPeer toDriver : List (StageMessage D)}
    {h : Execute D} (hj : Joined upstream h toPeer toDriver) :
    (∀ e error,h≠.running e (.leaving (.error error))) ∧
      ∀ status,h=.returned status → status=.ok := by
  rcases joined_view hj with rfl|⟨g,point,sequence,position,generated,stopped,pending,-,hw⟩|
    ⟨g,-,-,-,hexchange⟩|⟨g,-,hends⟩|hdone
  · exact ⟨(fun e error heq => by cases heq),fun status heq => by cases heq⟩
  · refine ⟨?_,?_⟩
    · rintro e error rfl
      rcases (waits_point hw).1 with h|h <;> cases h
    · rintro status rfl
      cases hw
  · refine ⟨?_,?_⟩
    · rintro e error rfl
      cases hexchange with
      | sent carries waits => rcases (waits_point waits).1 with h|h <;> cases h
      | replied hpoint => rcases hpoint with h|h <;> cases h
    · rintro status rfl
      cases hexchange with
      | sent carries waits => cases waits
  · refine ⟨?_,?_⟩
    · rintro e error rfl
      cases hends with
      | sent waits => rcases (waits_point waits).1 with h|h <;> cases h
      | acknowledged hdone => cases hdone
    · rintro status rfl
      cases hends with
      | sent waits => cases waits
      | acknowledged hdone =>
        cases hdone
        rfl
  · refine ⟨?_,?_⟩
    · rintro e error rfl
      cases hdone
    · rintro status rfl
      cases hdone
      rfl

/-- A follower in its backend works on the pass of the driver. -/
theorem joined_executing {upstream : Generate D} {toPeer toDriver : List (StageMessage D)}
    {e : Execution D} {input : BoundaryActivation}
    (hj : Joined upstream (.running e (.executing input)) toPeer toDriver) :
    ∃ g,upstream=.running g .reading ∧ Admissible g ∧ Phased g ∧
      SameLease g.lease e.lease ∧ e.executed=e.position ∧ Together g e := by
  rcases joined_view hj with hstarting|⟨g,point,sequence,position,generated,stopped,pending,-,hw⟩|
    ⟨g,hreading,hadmissible,hphased,hexchange⟩|⟨g,-,hends⟩|hdone
  · cases hstarting
  · rcases (waits_point hw).1 with h|h <;> cases h
  · refine ⟨g,hreading,hadmissible,hphased,?_⟩
    cases hexchange with
    | sent carries waits => rcases (waits_point waits).1 with h|h <;> cases h
    | replied hpoint => rcases hpoint with h|h <;> cases h
    | executing paired executed count prefilling prefillOnly =>
      exact ⟨paired.lease,executed.trans paired.position.symm,paired.prompt,paired.sequence,
        paired.position,count,prefilling,prefillOnly,paired.generated⟩
  · cases hends with
    | sent waits => rcases (waits_point waits).1 with h|h <;> cases h
    | acknowledged hdone => cases hdone
  · cases hdone

/-- In every run without a failure the driver and the follower stay in lockstep. -/
theorem lockstep (hexecutes : setting.peerExecutes=true)
    (hdefault : validateSampling (defaultSampling : SamplingOptions D)=.ok ())
    (h : (pipeline setting).ReachableBy (Calm setting) s) : InLockstep s := by
  obtain ⟨haligned,hj⟩ := joined_reachable hexecutes hdefault h
  have hgrammatical := haligned.grammatical
  obtain ⟨⟨w,upstream,grant⟩,⟨w',downstream,grant'⟩,toPeer,toDriver⟩ := s
  dsimp only at hj hgrammatical
  obtain ⟨hfollows,hfollowed⟩ := joined_succeeds hj
  refine ⟨?_,hfollows,?_,hfollowed,?_,?_,?_,?_,?_⟩ <;> dsimp only
  · rintro g error rfl
    cases hj with
    | running admissible lockstep => cases lockstep
  · rintro request events status rfl
    cases hj with
    | returned hdone => exact ⟨rfl,hdone⟩
  · rintro g rfl
    obtain ⟨tokens,hpassing⟩ := hgrammatical
    cases hj with
    | running admissible lockstep =>
      cases lockstep with
      | executing phased executed waits =>
        exact ⟨executed.symm,pass_of_phased admissible phased hpassing⟩
  · rintro e input rfl
    obtain ⟨g,rfl,hadmissible,hphased,hlease,hexecuted,htogether⟩ := joined_executing hj
    obtain ⟨tokens,hpassing⟩ := hgrammatical
    refine ⟨⟨hexecuted.symm,?_⟩,g,rfl,htogether⟩
    rw [htogether.count,htogether.position,hlease.query,hlease.identity]
    exact pass_of_phased hadmissible hphased hpassing
  · rintro g e point rfl rfl
    cases hj with
    | running admissible lockstep =>
      cases lockstep with
      | looping first executed waits =>
        obtain ⟨-,paired,-⟩ := waits_point waits
        exact ⟨paired.stopped,paired.sequence,paired.position,paired.generated⟩
  · rintro g rfl
    cases hj with
    | running admissible lockstep =>
      cases lockstep with
      | terminating waits =>
        cases waits with
        | starting hzero => cases hzero.stopped
        | opened hzero => cases hzero.stopped
        | acquiring hzero => cases hzero.stopped
        | waiting hpoint paired executed =>
          exact ⟨_,_,rfl,paired.stopped,paired.prompt,paired.generated⟩
  · intro hdriver hfollower
    cases hj with
    | starting => exact hdriver.elim
    | acquiring => exact hdriver.elim
    | returned hdone => exact hdriver.elim
    | running admissible lockstep =>
      cases lockstep with
      | reading phased executed exchange =>
        cases exchange with
        | sent carries waits => exact .inl (waits_unread waits (List.cons_ne_nil _ _))
        | replied => exact .inr (List.cons_ne_nil _ _)
        | _ => exact hfollower.elim
      | acknowledging ends =>
        cases ends with
        | sent waits => exact .inl (waits_unread waits (List.cons_ne_nil _ _))
        | acknowledged => exact .inr (List.cons_ne_nil _ _)
        | _ => exact hfollower.elim
      | draining hdone => exact (done_waits hdone hfollower).elim
      | finishing hdone => exact (done_waits hdone hfollower).elim
      | _ => exact hdriver.elim

end Results

section Sample

open ControlModel ControlReservations PlanValidation WireMessages

/-- Whether a reply of the driver is smooth. -/
def driverChecks [Double F D] (downstream : Execute D) (toDriver : List (StageMessage D))
    (h : Generate D) : Reply D → Bool
  | .threw _ => false
  | .started now later contextDeadline random =>
    match h with
    | .starting request => (request.start now later contextDeadline random).isOk
    | _ => true
  | .acquired lease =>
    match h with
    | .acquiring request sampling _ => (request.admitted sampling lease).isOk && lease.split
    | _ => true
  | .output output =>
    match h,output with
    | .running g .executing,.boundary hidden =>
      hidden.tokens.toNat==g.tokens.length && hidden.width==g.lease.identity.hiddenSize &&
        hidden.payload.length==hidden.tokens.toNat*hidden.width.toNat*2 &&
        !nonFinite hidden.payload
    | .running _ .executing,_ => false
    | _,_ => true
  | .written ok => ok
  | .read none =>
    toDriver.isEmpty &&
      match downstream with
      | .returned _ => true
      | _ => false
  | .finished status =>
    match downstream with
    | .returned status' => decide (status'=status)
    | _ => false
  | _ => true

/-- Whether a reply of the follower is smooth. -/
def followerChecks (upstream : Generate D) (toPeer : List (StageMessage D)) (h : Execute D) :
    Reply D → Bool
  | .threw _ => false
  | .started now later contextDeadline _ =>
    match h with
    | .opened opening =>
      (effectiveDeadline now later contextDeadline opening.deadlineUnixMs).isOk
    | _ => true
  | .acquired lease =>
    match driverLease upstream with
    | some lease' => lease.identity.hiddenSize==lease'.identity.hiddenSize &&
        lease.vocabularySize==lease'.vocabularySize
    | none => true
  | .output output =>
    match h,output with
    | .running e (.executing _),.progress => e.prefillOnly
    | .running e (.executing _),.sampled token =>
      !e.prefillOnly && decide (token.id < e.lease.vocabularySize)
    | .running _ (.executing _),_ => false
    | _,_ => true
  | .written ok => ok
  | .read none => toPeer.isEmpty && writesDone upstream
  | _ => true

/-- A result that is no error. -/
theorem exists_of_isOk {ε α : Type} {x : Except ε α} (h : x.isOk=true) : ∃ a,x=.ok a := by
  cases x with
  | error error => cases h
  | ok a => exact ⟨a,rfl⟩

/-- The checks of the driver's replies are sound. -/
theorem driverSmooth_of_checks [Double F D] {downstream : Execute D}
    {toDriver : List (StageMessage D)} {h : Generate D} {reply : Reply D}
    (hchecks : driverChecks downstream toDriver h reply=true) :
    DriverSmooth downstream toDriver h reply := by
  cases reply with
  | threw error => cases hchecks
  | started now later contextDeadline random =>
    rintro request rfl
    exact exists_of_isOk hchecks
  | acquired lease =>
    rintro request sampling call rfl
    obtain ⟨hadmitted,hsplit⟩ := Bool.and_eq_true_iff.mp hchecks
    obtain ⟨_,hadmitted⟩ := exists_of_isOk hadmitted
    exact ⟨hadmitted,hsplit⟩
  | output output =>
    rintro g rfl
    cases output with
    | boundary hidden =>
      simp only [driverChecks,Bool.and_eq_true,beq_iff_eq,Bool.not_eq_true'] at hchecks
      exact ⟨hidden,rfl,hchecks.1.1.1,hchecks.1.1.2,hchecks.1.2,hchecks.2⟩
    | sampled token => cases hchecks
    | progress => cases hchecks
  | written ok => exact hchecks
  | read message =>
    cases message with
    | some message => exact trivial
    | none =>
      obtain ⟨hempty,hreturned⟩ := Bool.and_eq_true_iff.mp hchecks
      refine ⟨List.isEmpty_iff.mp hempty,?_⟩
      cases downstream with
      | returned status => exact ⟨status,rfl⟩
      | _ => cases hreturned
  | finished status =>
    cases downstream with
    | returned status' =>
      obtain rfl : status'=status := of_decide_eq_true hchecks
      rfl
    | _ => cases hchecks
  | _ => exact trivial

/-- The checks of the follower's replies are sound. -/
theorem followerSmooth_of_checks {upstream : Generate D} {toPeer : List (StageMessage D)}
    {h : Execute D} {reply : Reply D} (hchecks : followerChecks upstream toPeer h reply=true) :
    FollowerSmooth upstream toPeer h reply := by
  cases reply with
  | threw error => cases hchecks
  | started now later contextDeadline random =>
    rintro opening rfl
    exact exists_of_isOk hchecks
  | acquired lease =>
    intro lease' hlease
    rw [followerChecks,hlease] at hchecks
    simp only [Bool.and_eq_true,beq_iff_eq] at hchecks
    exact hchecks
  | output output =>
    rintro e input rfl
    cases output with
    | boundary hidden => cases hchecks
    | progress => exact .inl ⟨hchecks,rfl⟩
    | sampled token =>
      simp only [followerChecks,Bool.and_eq_true,Bool.not_eq_true',decide_eq_true_eq] at hchecks
      exact .inr ⟨hchecks.1,token,rfl,hchecks.2⟩
  | written ok => exact hchecks
  | read message =>
    cases message with
    | some message => exact trivial
    | none =>
      obtain ⟨hempty,hdone⟩ := Bool.and_eq_true_iff.mp hchecks
      exact ⟨List.isEmpty_iff.mp hempty,hdone⟩
  | _ => exact trivial

/-- Whether a step is one without a failure. -/
def calm [Double F D] (setting : Setting) (s : Pipeline D) : PipelineAction D → Bool
  | .driver a => (s.upstream.reply setting.driverSizes setting.driverThread a).all
      (driverChecks s.downstream.handler s.toDriver s.upstream.handler)
  | .driverReads => true
  | .follower a => (s.downstream.reply setting.followerSizes setting.followerThread a).all
      (followerChecks s.upstream.handler s.toPeer s.downstream.handler)
  | .followerReads => true

/-- Steps that pass the checks are calm. -/
theorem calm_sound [Double F D] {setting : Setting} (s : Pipeline D) (a : PipelineAction D)
    (h : calm setting s a=true) : Calm setting s a := by
  cases a with
  | driver a =>
    intro reply hreply
    rw [calm,hreply] at h
    exact driverSmooth_of_checks h
  | driverReads => exact trivial
  | follower a =>
    intro reply hreply
    rw [calm,hreply] at h
    exact followerSmooth_of_checks h
  | followerReads => exact trivial

/-- A plan of two stages with a layer each. -/
def splitPlan : DeploymentPlan :=
  { samplePlan "a" with
    splitLayer := 1
    stages := [⟨0,"upper",0,1,true,false,false,false⟩,⟨1,"lower",1,2,false,true,true,true⟩] }

/-- The request to load one of the two stages. -/
def splitLoad (stage : ℕ) : LoadStageRequest :=
  ⟨some splitPlan,stage,some { sampleManifest with
    config := some { (default : ModelConfig) with numLayers := 2 } },
    [⟨0,"upper","upper:1"⟩,⟨1,"lower","lower:1"⟩]⟩

/-- A worker for one of the two stages that has just started. -/
def splitStart (worker : String) : World :=
  World.start { sampleConfig with workerId := worker }
    ⟨["llama"],[DataType.f32.number],"",false⟩
    ⟨"",0,0,0,⟨noMemory,noMemory⟩,0,false,false,.none,false,false,0⟩ ⟨default,sampleBackend⟩

/-- A worker of the split that has just started may be a start. -/
theorem splitStart_initial (worker : String) :
    (ControlModel.machine id).initial (splitStart worker) := by
  refine ⟨_,_,_,_,⟨Nat.zero_le _,?_,?_,?_⟩,rfl⟩
  · exact (by decide : sampleConfig.capacity.total .host+sampleConfig.capacity.total .device+
      sampleConfig.capacity.total .unified < 2^64)
  · exact (by decide : 1 ≤ sampleConfig.maximumActiveRequests)
  · exact (by decide : sampleConfig.maximumActiveRequests ≤ 64)

/-- Two workers with a hidden size of one. -/
def splitSetting : Setting := ⟨id,fun _ => ⟨1,8⟩,fun _ => ⟨1,8⟩,0,0,true⟩

/-- The sample request at the first of two workers. -/
def splitPipeline : Pipeline ℚ :=
  ⟨⟨splitStart "upper",.starting sampleRequest,none⟩,⟨splitStart "lower",.starting,none⟩,[],[]⟩

/-- Both stages are loaded, and the driver's request is acquired. -/
def splitOpening : List (PipelineAction ℚ) := [
  .driver (.control (.loadStage (splitLoad 0) (fun _ => 0) (.ok (some sampleBackend)))),
  .follower (.control (.loadStage (splitLoad 1) (fun _ => 0) (.ok (some sampleBackend)))),
  .driver (.call (.started 0 0 60000 0)),.driver (.acquire (fun _ => 0) 0),
  .driver (.allocated .sequence 0 0),.driver .acquired,.driver (.call (.written true)),
  .followerReads,.follower (.call (.started 0 0 60000 0)),
  .follower (.acquire (fun _ => 0) 0),.follower (.allocated .sequence 0 0),.follower .acquired]

/-- The first stage executes a pass of one row and sends it. -/
def splitPass : List (PipelineAction ℚ) := [
  .driver (.check false 1),.driver (.call (.output (.boundary ⟨1,1,[0,0x3c]⟩))),
  .driver (.call (.written true)),.follower (.check false 1),.followerReads,
  .follower (.check false 1)]

/-- The second stage samples a token, and its event is written. -/
def splitToken (id : ℕ) (first : Bool) : List (PipelineAction ℚ) := [
  .follower (.call (.output (.sampled ⟨id,none,[]⟩))),.follower (.check false 1),
  .follower (.check false 1),.follower (.call (.written true)),.driverReads,
  .driver (.check false 1)]++
  (if first then [.driver (.check false 1),.driver (.call (.written true))] else [])++
  [.driver (.check false 1),.driver (.call (.written true))]

/-- The whole run: a chunk of the prompt, a token, and a token that stops. -/
def splitRun : List (PipelineAction ℚ) :=
  splitOpening++splitPass++
  [.follower (.call (.output .progress)),.follower (.check false 1),
    .follower (.call (.written true)),.driverReads]++
  splitPass++splitToken 4 true++splitPass++splitToken 7 false++
  [.driver (.call (.written true)),.follower (.check false 1),.followerReads,
    .follower (.check false 1),.follower (.release 1),.follower (.call (.written true)),
    .driverReads,.follower (.leave false 1 1),.follower (.drop 1),.driver (.call (.read none)),
    .driver (.call (.finished .ok)),.driver (.check false 1),.driver (.release 1),
    .driver (.call (.written true)),.driver (.call (.written true)),.driver (.leave false 1 1),
    .driver (.drop 1)]

/-- A split request is served in lockstep. -/
theorem lockstep_of_split_request :
    ∃ s,(pipeline splitSetting).checkedRun (calm splitSetting) splitPipeline splitRun=some s ∧
      s.upstream.handler=.returned sampleRequest
        (stream sampleRequest [⟨4,none,[]⟩,⟨7,none,[]⟩]) .ok ∧
      s.downstream.handler=.returned .ok ∧ InLockstep s := by
  obtain ⟨s,hrun,hupstream,hdownstream⟩ : ∃ s,
      (pipeline splitSetting).checkedRun (calm splitSetting) splitPipeline splitRun=some s ∧
      s.upstream.handler=.returned sampleRequest
        (stream sampleRequest [⟨4,none,[]⟩,⟨7,none,[]⟩]) .ok ∧
      s.downstream.handler=.returned .ok := ⟨_,rfl,rfl,rfl⟩
  have hinitial : (pipeline splitSetting).initial splitPipeline :=
    ⟨_,_,_,splitStart_initial "upper",splitStart_initial "lower",rfl⟩
  exact ⟨s,hrun,hupstream,hdownstream,lockstep rfl rfl
    ⟨_,_,hinitial,Machine.path_of_checkedRun calm_sound hrun⟩⟩

/-- The run up to where the driver has released its request and writes the usage. -/
def splitServed : List (PipelineAction ℚ) := splitRun.take (splitRun.length-4)

/-- The stream of a request that one worker serves, and the closing events of one
that two workers serve. -/
theorem event_stream_of_served_request :
    (∃ s,(pipeline sampleSetting).run sampleDriver (sampleCalls.map .driver)=some s ∧
      s.upstream.handler=.returned sampleRequest
        (stream sampleRequest [⟨4,none,[]⟩,⟨7,none,[]⟩]) .ok ∧
      EventStream sampleSetting s) ∧
    ∃ s s' event,(pipeline splitSetting).run splitPipeline splitServed=some s ∧
      s.step splitSetting (.driver (.call (.written true)))=some s' ∧
      s'.upstream.handler.events=s.upstream.handler.events++[event] ∧
      closing event.body=true ∧ Completed s.upstream "request" ∧
      Completed s.downstream "request" ∧ EventStream splitSetting s := by
  constructor
  · obtain ⟨s,hrun,hhandler⟩ : ∃ s,
        (pipeline sampleSetting).run sampleDriver (sampleCalls.map .driver)=some s ∧
        s.upstream.handler=.returned sampleRequest
          (stream sampleRequest [⟨4,none,[]⟩,⟨7,none,[]⟩]) .ok := ⟨_,rfl,rfl⟩
    have hinitial : (pipeline sampleSetting).initial sampleDriver :=
      ⟨_,_,_,sampleStart_initial id,sampleStart_initial id,rfl⟩
    exact ⟨s,hrun,hhandler,event_stream (Machine.reachable_of_run hinitial hrun)⟩
  · obtain ⟨s,s',event,o,lease,hrun,hone,hevents,hclosing,hid,hgrant,hsplit⟩ :
        ∃ s s' event o lease,(pipeline splitSetting).run splitPipeline splitServed=some s ∧
          s.step splitSetting (.driver (.call (.written true)))=some s' ∧
          s'.upstream.handler.events=s.upstream.handler.events++[event] ∧
          closing event.body=true ∧ s.upstream.handler.request.requestId="request" ∧
          s.upstream.grant=some (o,lease) ∧ lease.split=true :=
      ⟨_,_,usageEvent sampleRequest [⟨4,none,[]⟩,⟨7,none,[]⟩],_,_,rfl,rfl,rfl,rfl,rfl,rfl,rfl⟩
    have hinitial : (pipeline splitSetting).initial splitPipeline :=
      ⟨_,_,_,splitStart_initial "upper",splitStart_initial "lower",rfl⟩
    have hstream := event_stream (Machine.reachable_of_run hinitial hrun)
    obtain ⟨hupstream,hdownstream⟩ := hstream.completed _ s' event hone hevents hclosing
    rw [hid] at hupstream hdownstream
    exact ⟨s,s',event,hrun,hone,hevents,hclosing,hupstream,hdownstream rfl o lease hgrant hsplit,
      hstream⟩

end Sample

end Hllm.LockstepRuns
