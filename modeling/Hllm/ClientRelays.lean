import Hllm.RequestAccounts

/-!
# What a client makes of the events

Both clients of `Generate` relay its events, and cancel the request when they
leave their loop unless its terminal event told them that it is complete. They
never see an event they would reject, and a request that is not cancelled was
completed by every worker.
-/

namespace Hllm.ClientRelays

open RunInvariants ControlModel HandlerSites GenerationModel GenerationEvents GenerationPipeline
open LockstepRuns SamplingModel

section Clients

variable {D β : Type}

/-- What the loop of a client raises. -/
inductive ClientError
  | mismatch
  | failed (state : ℤ)
  | incomplete
  | rpc (status : Status)
  deriving DecidableEq

/-- The variables of a client: what it yielded, `completed`, and what was raised. -/
structure Relay (β : Type) where
  yielded : List β := []
  completed : Bool := false
  raised : Option ClientError := none

/-- The body of the loop for one event. What it yields is up to the client. -/
def Relay.take (identifier : String) (yields : GenerationEvent D → Option β) (r : Relay β)
    (event : GenerationEvent D) : Relay β :=
  if r.raised.isSome then r
  else if event.requestId≠identifier then { r with raised := some .mismatch }
  else match event.body with
  | .terminal state =>
    if state≠terminalStateCompleted then { r with raised := some (.failed state) }
    else { r with yielded := r.yielded++(yields event).toList, completed := true }
  | _ => { r with yielded := r.yielded++(yields event).toList }

/-- How the loop over the events of a call ends, unless its body raises. -/
inductive CallEnd
  /-- There are no more events. -/
  | finished
  | raised (status : Status)
  /-- The caller of the client listens no longer. -/
  | closed

/-- What is raised after the loop. -/
def CallEnd.error (completed : Bool) : CallEnd → Option ClientError
  | .finished => if completed then none else some .incomplete
  | .raised status => some (.rpc status)
  | .closed => none

/-- The client has relayed some events and the loop has ended. -/
def relayed (identifier : String) (yields : GenerationEvent D → Option β)
    (received : List (GenerationEvent D)) (ending : CallEnd) : Relay β :=
  let r := received.foldl (Relay.take identifier yields) {}
  { r with raised := r.raised <|> ending.error r.completed }

/-- The `finally` of the client: it cancels the request that it does not know to
be complete. -/
def Relay.cancels (r : Relay β) : Bool := !r.completed

/-- `DeploymentSession.generate` yields the events. -/
def sessionEvent (event : GenerationEvent D) : Option (GenerationEvent D) := some event

/-- `ServingRuntime.generate` yields the tokens. -/
def servingToken (event : GenerationEvent D) : Option ℕ :=
  match event.body with
  | .token tokenId _ _ _ => some tokenId
  | _ => none

/-- The last event of a stream. -/
def isTerminal (event : GenerationEvent D) : Bool :=
  match event.body with
  | .terminal _ => true
  | _ => false

/-- Events of the request, which no client rejects. -/
def Accepted (identifier : String) (event : GenerationEvent D) : Prop :=
  event.requestId=identifier ∧ ∀ state,event.body=.terminal state → state=terminalStateCompleted

/-- An event that no client rejects is relayed. -/
theorem take_accepted {identifier : String} {event : GenerationEvent D}
    (h : Accepted identifier event) (yields : GenerationEvent D → Option β) {r : Relay β}
    (hr : r.raised=none) : r.take identifier yields event=
      ⟨r.yielded++(yields event).toList,r.completed || isTerminal event,none⟩ := by
  obtain ⟨yielded,completed,raised⟩ := r
  dsimp only at hr
  subst hr
  have hid : ¬event.requestId≠identifier := not_not.mpr h.1
  have hnone : ¬(none : Option ClientError).isSome=true := Bool.false_ne_true
  unfold Relay.take isTerminal
  dsimp only
  rw [if_neg hnone,if_neg hid]
  cases hbody : event.body with
  | terminal state =>
    have hstate : ¬state≠terminalStateCompleted := not_not.mpr (h.2 state hbody)
    dsimp only
    rw [if_neg hstate,Bool.or_true]
  | _ =>
    dsimp only
    rw [Bool.or_false]

/-- All of them are. -/
theorem foldl_accepted {identifier : String} {events : List (GenerationEvent D)}
    (h : ∀ event∈events,Accepted identifier event) (yields : GenerationEvent D → Option β)
    {r : Relay β} (hr : r.raised=none) : events.foldl (Relay.take identifier yields) r=
      ⟨r.yielded++events.filterMap yields,r.completed || events.any isTerminal,none⟩ := by
  induction events generalizing r with
  | nil =>
    obtain ⟨yielded,completed,raised⟩ := r
    dsimp only at hr
    subst hr
    rw [List.foldl_nil,List.filterMap_nil,List.append_nil,List.any_nil,Bool.or_false]
  | cons event events ih =>
    have hevent := take_accepted (h event List.mem_cons_self) yields hr
    rw [List.foldl_cons,hevent,ih (fun event hmem => h event (List.mem_cons_of_mem _ hmem)) rfl]
    dsimp only
    rw [List.filterMap_cons,List.any_cons,Bool.or_assoc,List.append_assoc]
    cases yields event with
    | none => rfl
    | some b => rfl

end Clients

section Streams

variable {D : Type} {request : GenerationRequest D} {tokens : List (SampledToken D)}
variable {events received : List (GenerationEvent D)}

/-- Events before the last one are of the request and none of them is the last. -/
theorem mem_part {event : GenerationEvent D}
    (h : event∈emitted request tokens++[usageEvent request tokens]) :
    event.requestId=request.requestId ∧ isTerminal event=false := by
  rcases List.mem_append.mp h with hmem|hmem
  · rcases List.mem_cons.mp hmem with rfl|hmem
    · exact ⟨rfl,rfl⟩
    · obtain ⟨i,hi,rfl⟩ := List.mem_mapIdx.mp hmem
      exact ⟨rfl,rfl⟩
  · rw [List.mem_singleton.mp hmem]
    exact ⟨rfl,rfl⟩

/-- A stream is its part and its last event. -/
theorem stream_concat (request : GenerationRequest D) (tokens : List (SampledToken D)) :
    stream request tokens=
      emitted request tokens++[usageEvent request tokens]++[terminalEvent request] := by
  rw [stream,List.append_assoc]
  rfl

/-- Every event of a stream is accepted. -/
theorem accepted_stream {event : GenerationEvent D} (h : event∈stream request tokens) :
    Accepted request.requestId event := by
  rw [stream_concat] at h
  rcases List.mem_append.mp h with hmem|hmem
  · obtain ⟨hid,hterminal⟩ := mem_part hmem
    refine ⟨hid,fun state hbody => ?_⟩
    unfold isTerminal at hterminal
    rw [hbody] at hterminal
    cases hterminal
  · rw [List.mem_singleton.mp hmem]
    refine ⟨rfl,fun state hbody => ?_⟩
    cases hbody
    rfl

/-- The last event comes at the end of a stream only. -/
theorem whole_of_terminal (h : received<+:stream request tokens)
    (hterminal : received.any isTerminal=true) : received=stream request tokens := by
  rw [stream_concat] at h ⊢
  rcases List.prefix_concat_iff.mp h with hwhole|hpart
  · exact hwhole
  · obtain ⟨event,hevent,hlast⟩ := List.any_eq_true.mp hterminal
    rw [(mem_part (hpart.subset hevent)).2] at hlast
    cases hlast

/-- The tokens of a stream, as a server yields them. -/
theorem servingTokens_stream :
    (stream request tokens).filterMap servingToken=tokens.map (·.id) := by
  have htokens : ∀ (i : ℕ) (token : SampledToken D),
      servingToken (tokenEvent request i token)=some token.id := fun i token => rfl
  have hemitted : (tokens.mapIdx (tokenEvent request)).filterMap servingToken=
      tokens.map (·.id) := by
    induction tokens using List.reverseRecOn with
    | nil => rfl
    | append_singleton tokens token ih =>
      rw [List.mapIdx_append,List.mapIdx_singleton,List.filterMap_append,ih,List.map_append,
        List.map_singleton,List.filterMap_cons,htokens]
      rfl
  rw [stream,emitted,List.filterMap_append,List.filterMap_cons]
  change (tokens.mapIdx (tokenEvent request)).filterMap servingToken++[]=_
  rw [List.append_nil,hemitted]

/-- The events of a handler are a stream that answers the request, or end before
its last event. -/
theorem whole_or_part {h : Generate D} (hg : Grammatical h) :
    (∃ tokens,h.events=stream h.request tokens ∧ Answers h.request tokens) ∨
      Partial h.request h.events := by
  cases h with
  | starting request => exact .inr ⟨[],List.nil_prefix⟩
  | acquiring request sampling call => exact .inr ⟨[],List.nil_prefix⟩
  | returned request events status =>
    rcases hg with ⟨-,hwhole⟩|⟨-,hpart⟩
    · exact .inl hwhole
    · exact .inr hpart
  | running g point =>
    by_cases hleaving : ∃ result,point=.leaving result
    · obtain ⟨result,rfl⟩ := hleaving
      cases result with
      | ok done => exact .inl hg
      | error error => exact .inr hg
    · by_cases hterminal : point=.terminal
      · subst hterminal
        obtain ⟨tokens,hevents,-⟩ := hg
        refine .inr ⟨tokens,?_⟩
        rw [Generate.events,hevents]
        exact List.prefix_refl _
      · exact .inr (AtPoint.part hg fun result heq => hleaving ⟨result,heq⟩)

end Streams

section Workers

variable {D H F : Type} {handler : Handler D H} {textDigest : String → String}
variable {sizes : ℕ → BackendSizes} {t : ℕ} {before holds commits : H → Prop} {u u' : Site H}

/-- A request that was completed stays so. -/
theorem Completed.lasts {id : String} (h : Completed u id)
    (hsound : Sound handler textDigest t before holds commits u)
    (hlawful : Lawful handler before holds commits)
    (hone : Transition handler textDigest sizes t u u') : Completed u' id := by
  obtain ⟨o,lease,hgrant,hid,hretired⟩ := h
  have hgrant' := hsound.grant_lasts hlawful hone hgrant
  have hnamed := (hsound.named o lease hgrant).2
  have hnamed' := ((hsound.transition hlawful hone).named o lease hgrant').2
  exact ⟨o,lease,hgrant',(hnamed'.trans hnamed.symm).trans hid,
    (hsound.stable hone).retired _ hretired⟩

variable [Double F D] {setting : Setting} {s s' : Pipeline D}

/-- Every worker that has the request completed it. -/
structure CompletedEverywhere (setting : Setting) (s : Pipeline D) : Prop where
  upstream : Completed s.upstream s.upstream.handler.request.requestId
  downstream : setting.peerExecutes=true → ∀ o lease,s.upstream.grant=some (o,lease) →
    lease.split=true → Completed s.downstream s.upstream.handler.request.requestId

/-- A step of the driver keeps it so. -/
theorem CompletedEverywhere.drive (h : CompletedEverywhere setting s) (haligned : Aligned setting s)
    {a : SiteAction D} {u : Site (Generate D)} {toPeer toDriver : List (StageMessage D)}
    (hone : s.upstream.step driver setting.textDigest setting.driverSizes setting.driverThread
      a=some u) : CompletedEverywhere setting ⟨u,s.downstream,toPeer,toDriver⟩ := by
  have htransition := step_transition driver_lawful hone
  have hrequest : u.handler.request=s.upstream.handler.request := by
    rcases step_resumes hone with ⟨hsame,-⟩|⟨reply,hresumed⟩
    · exact congrArg Generate.request hsame
    · exact request_resume hresumed.resumes
  obtain ⟨o,lease,hgrant,hid,hretired⟩ := h.upstream
  have hlasts := haligned.upstream.grant_lasts driver_lawful htransition hgrant
  refine ⟨?_,fun hexecutes o' lease' hgrant' hsplit => ?_⟩
  · dsimp only
    rw [hrequest]
    exact Completed.lasts h.upstream haligned.upstream driver_lawful htransition
  · dsimp only at hgrant' ⊢
    rw [hlasts] at hgrant'
    cases hgrant'
    rw [hrequest]
    exact h.downstream hexecutes o lease hgrant hsplit

/-- A step of the follower keeps it so. -/
theorem CompletedEverywhere.follow (h : CompletedEverywhere setting s)
    (haligned : Aligned setting s) {a : SiteAction D} {d : Site (Execute D)}
    {toPeer toDriver : List (StageMessage D)}
    (hone : s.downstream.step follower setting.textDigest setting.followerSizes
      setting.followerThread a=some d) :
    CompletedEverywhere setting ⟨s.upstream,d,toPeer,toDriver⟩ := by
  refine ⟨h.upstream,fun hexecutes o lease hgrant hsplit => ?_⟩
  exact Completed.lasts (h.downstream hexecutes o lease hgrant hsplit) haligned.downstream
    follower_lawful (step_transition follower_lawful hone)

/-- Every step keeps it so. -/
theorem CompletedEverywhere.step (h : CompletedEverywhere setting s) (haligned : Aligned setting s)
    {a : PipelineAction D} (hone : s.step setting a=some s') :
    CompletedEverywhere setting s' := by
  cases a with
  | driver a =>
    obtain ⟨u,hu,-,rfl⟩ := step_driver hone
    exact h.drive haligned hu
  | driverReads =>
    obtain ⟨message,rest,u,-,hu,rfl⟩ := step_driverReads hone
    exact h.drive haligned hu
  | follower a =>
    obtain ⟨d,hd,-,rfl⟩ := step_follower hone
    exact h.follow haligned hd
  | followerReads =>
    obtain ⟨message,rest,d,-,hd,rfl⟩ := step_followerReads hone
    exact h.follow haligned hd

/-- A terminal event is written after every worker has completed the request. -/
def Settled (setting : Setting) (s : Pipeline D) : Prop :=
  s.upstream.handler.events.any isTerminal=true → CompletedEverywhere setting s

/-- Every step keeps it so. -/
theorem Settled.step (h : Settled setting s) (haligned : Aligned setting s)
    {a : PipelineAction D} (hone : s.step setting a=some s') : Settled setting s' := by
  intro hterminal
  rcases events_step hone with hsame|⟨event,hevents,hpoint⟩
  · rw [hsame] at hterminal
    exact (h hterminal).step haligned hone
  · rw [hevents,List.any_append,Bool.or_eq_true] at hterminal
    rcases hterminal with hterminal|hterminal
    · exact (h hterminal).step haligned hone
    · rw [List.any_cons,List.any_nil,Bool.or_false] at hterminal
      have hclosing : closing event.body=true := by
        unfold isTerminal at hterminal
        split at hterminal
        · rename_i state hbody
          rw [hbody]
          rfl
        · cases hterminal
      obtain ⟨g,point,hhandler,hpoint⟩ := hpoint hclosing
      obtain ⟨hupstream,hdownstream⟩ := haligned.completed hhandler hpoint
      have hcompleted : CompletedEverywhere setting s := by
        refine ⟨?_,?_⟩
        · rw [hhandler]
          exact hupstream
        · rw [hhandler]
          exact hdownstream
      exact hcompleted.step haligned hone

/-- It is so in every reachable state. -/
theorem settled_reachable (h : (pipeline setting).Reachable s) : Settled setting s := by
  have hboth : Aligned setting s ∧ Settled setting s := by
    refine Machine.Reachable.induct (I:=fun s => Aligned setting s ∧ Settled setting s)
      (fun s hinitial => ⟨aligned_reachable ⟨s,[],hinitial,.nil s⟩,fun hterminal => ?_⟩)
      (fun s a s' hs hone => ⟨hs.1.step hone,hs.2.step hs.1 hone⟩) h
    obtain ⟨w,w',request,-,-,rfl⟩ := hinitial
    cases hterminal
  exact hboth.2

/-- What a client received of the events written so far, and how its call ended.
A call ends without an error when its status is `OK` and all was received. -/
structure Delivered (s : Pipeline D) (received : List (GenerationEvent D)) (ending : CallEnd) :
    Prop where
  written : received<+:s.upstream.handler.events
  finished : ending=.finished → ∃ request events status,
    s.upstream.handler=.returned request events status ∧ status.code=.ok ∧ received=events

/-- What the clients make of the events. -/
structure Served (setting : Setting) (s : Pipeline D) (received : List (GenerationEvent D))
    (ending : CallEnd) : Prop where
  /-- A client yields all it received, and raises nothing of its own. -/
  faithful : ∀ {β : Type} (yields : GenerationEvent D → Option β),
    (relayed s.upstream.handler.request.requestId yields received ending).yielded=
        received.filterMap yields ∧
      (relayed s.upstream.handler.request.requestId yields received ending).raised=
        ending.error true
  /-- A request that it does not cancel was answered, and every worker completed it. -/
  spared : ∀ {β : Type} (yields : GenerationEvent D → Option β),
    (relayed s.upstream.handler.request.requestId yields received ending).cancels=false →
    CompletedEverywhere setting s ∧ ∃ tokens,
      received=stream s.upstream.handler.request tokens ∧
      received.filterMap servingToken=tokens.map (·.id) ∧
      Answers s.upstream.handler.request tokens
  /-- It does not cancel when the call ends without an error. -/
  finished : ∀ {β : Type} (yields : GenerationEvent D → Option β),ending=.finished →
    (relayed s.upstream.handler.request.requestId yields received ending).cancels=false

/-- In any run of the workers and however the call ends, a client relays what it
received, and leaves a request alone only if all workers have completed it. -/
theorem clients_served (h : (pipeline setting).Reachable s)
    {received : List (GenerationEvent D)} {ending : CallEnd}
    (hdelivered : Delivered s received ending) : Served setting s received ending := by
  have hgrammatical := (aligned_reachable h).grammatical
  obtain ⟨all,hall⟩ := grammatical_begins hgrammatical
  have haccepted : ∀ event∈received,Accepted s.upstream.handler.request.requestId event :=
    fun event hevent => accepted_stream ((hdelivered.written.trans hall).subset hevent)
  have hrelayed : ∀ {β : Type} (yields : GenerationEvent D → Option β),
      relayed s.upstream.handler.request.requestId yields received ending=
        ⟨received.filterMap yields,received.any isTerminal,
          ending.error (received.any isTerminal)⟩ := by
    intro β yields
    have hfold := @foldl_accepted D β _ _ haccepted yields {} rfl
    unfold relayed
    rw [hfold]
    rfl
  have hwhole : received.any isTerminal=true → ∃ tokens,
      s.upstream.handler.events=stream s.upstream.handler.request tokens ∧
      received=stream s.upstream.handler.request tokens ∧
      Answers s.upstream.handler.request tokens := by
    intro hterminal
    rcases whole_or_part hgrammatical with ⟨tokens,hevents,hanswers⟩|⟨others,hpart⟩
    · have hprefix := hdelivered.written
      rw [hevents] at hprefix
      exact ⟨tokens,hevents,whole_of_terminal hprefix hterminal,hanswers⟩
    · obtain ⟨event,hevent,hlast⟩ := List.any_eq_true.mp hterminal
      rw [(mem_part (hpart.subset (hdelivered.written.subset hevent))).2] at hlast
      cases hlast
  have hfinished : ending=.finished → received.any isTerminal=true := by
    intro hending
    obtain ⟨request,events,status,hhandler,hok,rfl⟩ := hdelivered.finished hending
    rw [hhandler] at hgrammatical
    rcases hgrammatical with ⟨-,tokens,rfl,-⟩|⟨hfailed,-⟩
    · rw [stream_concat,List.any_append,Bool.or_eq_true]
      exact .inr rfl
    · exact absurd hok hfailed
  refine ⟨fun yields => ?_,fun yields hspared => ?_,fun yields hending => ?_⟩
  · rw [hrelayed]
    refine ⟨rfl,?_⟩
    cases ending with
    | finished =>
      dsimp only
      rw [hfinished rfl]
    | raised status => rfl
    | closed => rfl
  · rw [hrelayed,Relay.cancels,Bool.not_eq_false'] at hspared
    obtain ⟨tokens,hevents,hreceived,hanswers⟩ := hwhole hspared
    have hterminal : s.upstream.handler.events.any isTerminal=true := by
      rw [hevents,←hreceived]
      exact hspared
    refine ⟨settled_reachable h hterminal,tokens,hreceived,?_,hanswers⟩
    rw [hreceived]
    exact servingTokens_stream
  · rw [hrelayed,Relay.cancels,hfinished hending]
    rfl

end Workers

section Sample

/-- The clients of a split request that is served get the whole stream and its
tokens, and cancel nothing. -/
theorem clients_served_of_split_request :
    ∃ s,(pipeline splitSetting).run splitPipeline splitRun=some s ∧
      Served splitSetting s (stream sampleRequest [⟨4,none,[]⟩,⟨7,none,[]⟩]) .finished ∧
      relayed "request" sessionEvent (stream sampleRequest [⟨4,none,[]⟩,⟨7,none,[]⟩]) .finished=
        ⟨stream sampleRequest [⟨4,none,[]⟩,⟨7,none,[]⟩],true,none⟩ ∧
      relayed "request" servingToken (stream sampleRequest [⟨4,none,[]⟩,⟨7,none,[]⟩]) .finished=
        ⟨[4,7],true,none⟩ := by
  obtain ⟨s,hrun,hhandler⟩ : ∃ s,
      (pipeline splitSetting).run splitPipeline splitRun=some s ∧
      s.upstream.handler=.returned sampleRequest
        (stream sampleRequest [⟨4,none,[]⟩,⟨7,none,[]⟩]) .ok := ⟨_,rfl,rfl⟩
  have hinitial : (pipeline splitSetting).initial splitPipeline :=
    ⟨_,_,_,splitStart_initial "upper",splitStart_initial "lower",rfl⟩
  refine ⟨s,hrun,clients_served (Machine.reachable_of_run hinitial hrun) ⟨?_,fun _ => ?_⟩,rfl,rfl⟩
  · rw [hhandler]
    exact List.prefix_refl _
  · exact ⟨_,_,_,hhandler,rfl,rfl⟩

end Sample

end Hllm.ClientRelays
