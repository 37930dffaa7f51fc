import Hllm.ControlReservations
import Hllm.ExecutionSteps
import Hllm.GenerationEvents
import Hllm.HandlerSites
import Hllm.SamplingDistribution

/-!
# The generation pipeline

`Generate` on one worker and, if the plan has two stages, `Execute` on the
other, joined by the two directions of their stream. Every call may fail, the
stream may break anywhere, and both control services take their own steps in
between. A peer that is not known to run `Execute` may send anything.
-/

namespace Hllm.GenerationPipeline

open RunInvariants SamplingModel GenerationModel GenerationEvents HandlerSites

variable {F D : Type}

section Driver

/-- The lease of a driver. -/
def driverLease : Generate D → Option Lease
  | .running g _ => some g.lease
  | _ => none

/-- `GenerationService::Generate` as a handler. -/
def driver [Double F D] : Handler D (Generate D) :=
  ⟨Generate.resume,Generate.acquisition,driverLease⟩

/-- The driver has not acquired its request. -/
def driverBefore : Generate D → Prop
  | .starting _ => True
  | .acquiring _ _ _ => True
  | _ => False

/-- The driver holds its request. -/
def driverHolds : Generate D → Prop
  | .running _ .usage => False
  | .running _ .terminal => False
  | .running _ (.leaving _) => False
  | .running _ _ => True
  | _ => False

/-- The driver has released its request as completed and is about to say so. -/
def driverCommits : Generate D → Prop
  | .running _ .usage => True
  | .running _ .terminal => True
  | _ => False

/-- A point where the request is still held. -/
theorem driverHolds_of_ne {g : Generation D} {point : GeneratePoint D} (husage : point≠.usage)
    (hterminal : point≠.terminal) (hleaving : ∀ result,point≠.leaving result) :
    driverHolds (.running g point) := by
  cases point with
  | usage => exact absurd rfl husage
  | terminal => exact absurd rfl hterminal
  | leaving result => exact absurd rfl (hleaving result)
  | _ => exact trivial

/-- A driver that leads on is neither before its request nor past it. -/
theorem Continues.points {g : Generation D} {h : Generate D} (hg : Continues g h) :
    ¬driverBefore h ∧ ¬driverCommits h ∧ driverLease h=some g.lease := by
  obtain ⟨g',point,rfl,-,hlease,husage,hterminal,-⟩ := hg
  refine ⟨id,fun hcommits => ?_,congrArg some hlease⟩
  cases point with
  | usage => exact husage rfl
  | terminal => exact hterminal rfl
  | _ => exact hcommits

/-- Replies of `acquire`, `release` and the guard come where they are awaited. -/
theorem owning_drives {g : Generation D} {point : GeneratePoint D} {reply : Reply D}
    {h : Generate D} (hone : Drives g point reply h) (howning : owning reply=true) :
    point=.releasing ∨ ∃ result,point=.leaving result := by
  cases hone with
  | released => exact .inl rfl
  | left => exact .inr ⟨_,rfl⟩
  | failed => exact .inr ⟨_,rfl⟩
  | peerFails hfails => cases hfails <;> cases howning
  | disconnects hdisconnects => cases hdisconnects <;> cases howning
  | _ => cases howning

variable [Double F D]

/-- What a call of the driver leads to before its request is acquired. -/
theorem driver_before {h h' : Generate D} {reply : Reply D} (hbefore : driverBefore h)
    (hone : Generate.resume h reply=some h') :
    ¬driverHolds h' ∧ ¬driverCommits h' ∧ driverLease h'=none ∨
      ∃ g : Generation D,reply=.acquired g.lease ∧ Continues g h' := by
  cases h with
  | starting request =>
    cases reply with
    | started now later contextDeadline random =>
      rw [Generate.resume] at hone
      split at hone
      · cases hone
        exact .inl ⟨id,id,rfl⟩
      · cases hone
        exact .inl ⟨id,id,rfl⟩
    | _ => cases hone
  | acquiring request sampling call =>
    cases reply with
    | threw error =>
      cases hone
      exact .inl ⟨id,id,rfl⟩
    | acquired lease =>
      cases hone
      exact .inr ⟨request.generation sampling lease,rfl,
        (loops_afterLease request sampling lease).continues⟩
    | _ => cases hone
  | running g point => exact hbefore.elim
  | returned request events status => exact hbefore.elim

/-- What a call of the driver leads to once its request is acquired. -/
theorem driver_after {h h' : Generate D} {reply : Reply D} (hafter : ¬driverBefore h)
    (hone : Generate.resume h reply=some h') :
    ∃ g point,h=.running g point ∧ Drives g point reply h' := by
  cases h with
  | starting request => exact absurd trivial hafter
  | acquiring request sampling call => exact absurd trivial hafter
  | running g point => exact ⟨g,point,rfl,drives_of_resume hone⟩
  | returned request events status => cases hone

/-- What a driver may hold, release and lease after a step. -/
theorem drives_points {g : Generation D} {point : GeneratePoint D} {reply : Reply D}
    {h : Generate D} (hone : Drives g point reply h) :
    ¬driverBefore h ∧ (driverHolds h → driverHolds (.running g point) ∧ owning reply=false) ∧
      (driverCommits h → driverCommits (.running g point) ∨
        driverHolds (.running g point) ∧ reply=.released) ∧
      (∀ lease,driverLease h=some lease → g.lease=lease) := by
  rcases drives_cases hone with ⟨hcontinues,hpoint⟩|⟨rfl,rfl,rfl⟩|⟨rfl,body,rfl⟩|
    ⟨rfl,body,rfl⟩|⟨-,status,rfl,-⟩
  · obtain ⟨hbefore,hcommits,hlease⟩ := Continues.points hcontinues
    refine ⟨hbefore,fun hholds => ?_,fun h => absurd h hcommits,fun lease heq => ?_⟩
    · rcases hpoint with ⟨husage,hterminal,hleaving,hreleasing⟩|⟨error,rfl⟩
      · refine ⟨driverHolds_of_ne husage hterminal hleaving,?_⟩
        rw [Bool.eq_false_iff]
        intro howning
        rcases owning_drives hone howning with hpoint|⟨result,hpoint⟩
        · exact hreleasing hpoint
        · exact hleaving result hpoint
      · exact hholds.elim
    · rw [hlease] at heq
      exact Option.some.inj heq
  · exact ⟨id,False.elim,fun _ => .inr ⟨trivial,rfl⟩,fun lease heq => Option.some.inj heq⟩
  · exact ⟨id,False.elim,fun _ => .inl trivial,fun lease heq => Option.some.inj heq⟩
  · exact ⟨id,False.elim,False.elim,fun lease heq => Option.some.inj heq⟩
  · exact ⟨id,False.elim,False.elim,nofun⟩

/-- The driver acquires, holds and releases its request once. -/
theorem driver_lawful : Lawful (driver (D:=D)) driverBefore driverHolds driverCommits where
  before_back {h reply h'} hone hbefore := by
    by_contra hafter
    obtain ⟨g,point,rfl,hdrives⟩ := driver_after hafter hone
    exact (drives_points hdrives).1 hbefore
  asks_before {h a} hcall := by
    cases h with
    | acquiring request sampling call => exact trivial
    | _ => cases hcall
  acquired {h lease h'} hone := by
    cases h with
    | acquiring request sampling call =>
      cases hone
      exact ⟨⟨call,rfl⟩,(Continues.points (loops_afterLease request sampling lease).continues).1⟩
    | _ => cases hone
  asking {h a reply h'} hcall hone := by
    cases h with
    | acquiring request sampling call =>
      cases reply with
      | threw error =>
        cases hone
        exact id
      | acquired lease =>
        cases hone
        exact (Continues.points (loops_afterLease request sampling lease).continues).1
      | _ => cases hone
    | _ => cases hcall
  checks {h h'} hone := by
    cases h with
    | running g point => rfl
    | _ => cases hone
  holds_back {h reply h'} hone hholds := by
    by_cases hbefore : driverBefore h
    · rcases driver_before hbefore hone with ⟨hnot,-⟩|⟨g,hreply,-⟩
      · exact absurd hholds hnot
      · exact .inl ⟨g.lease,hreply⟩
    · obtain ⟨g,point,rfl,hdrives⟩ := driver_after hbefore hone
      exact .inr ((drives_points hdrives).2.1 hholds)
  commits_back {h reply h'} hone hcommits := by
    by_cases hbefore : driverBefore h
    · rcases driver_before hbefore hone with ⟨-,hnot,-⟩|⟨g,-,hcontinues⟩
      · exact absurd hcommits hnot
      · exact absurd hcommits (Continues.points hcontinues).2.1
    · obtain ⟨g,point,rfl,hdrives⟩ := driver_after hbefore hone
      exact (drives_points hdrives).2.2.1 hcommits
  leaves {h expired cancelled h'} hone hholds := by
    cases h with
    | running g point =>
      cases point with
      | leaving result => exact hholds
      | _ => cases hone
    | _ => exact hholds
  lease_back {h reply h' lease} hone hlease := by
    change driverLease h'=some lease at hlease
    by_cases hbefore : driverBefore h
    · rcases driver_before hbefore hone with ⟨-,-,hnone⟩|⟨g,hreply,hcontinues⟩
      · rw [hnone] at hlease
        cases hlease
      · rw [(Continues.points hcontinues).2.2,Option.some.injEq] at hlease
        exact .inr (hlease ▸ hreply)
    · obtain ⟨g,point,rfl,hdrives⟩ := driver_after hbefore hone
      exact .inl (congrArg some ((drives_points hdrives).2.2.2 lease hlease))

end Driver

section Follower

/-- The lease of a follower. -/
def followerLease : Execute D → Option Lease
  | .running e _ => some e.lease
  | _ => none

/-- `ExecutionService::Execute` as a handler. -/
def follower [Double F D] : Handler D (Execute D) :=
  ⟨Execute.resume,Execute.acquisition,followerLease⟩

/-- The follower has not acquired its request. -/
def followerBefore : Execute D → Prop
  | .starting => True
  | .opened _ => True
  | .acquiring _ _ _ => True
  | _ => False

/-- The follower holds its request. -/
def followerHolds : Execute D → Prop
  | .running _ (.acknowledging _) => False
  | .running _ (.leaving _) => False
  | .running _ _ => True
  | _ => False

/-- The follower has released its request as completed and is about to say so. -/
def followerCommits : Execute D → Prop
  | .running _ (.acknowledging _) => True
  | _ => False

/-- A point where the request is still held. -/
theorem followerHolds_of_ne {e : Execution D} {point : ExecutePoint D}
    (hacknowledging : ∀ terminal,point≠.acknowledging terminal)
    (hleaving : ∀ result,point≠.leaving result) : followerHolds (.running e point) := by
  cases point with
  | acknowledging terminal => exact absurd rfl (hacknowledging terminal)
  | leaving result => exact absurd rfl (hleaving result)
  | _ => exact trivial

/-- A follower that leads on is neither before its request nor past it. -/
theorem continues_points {e : Execution D} {h : Execute D} (he : ExecutionSteps.Continues e h) :
    ¬followerBefore h ∧ ¬followerCommits h ∧ followerLease h=some e.lease := by
  obtain ⟨e',point,rfl,hlease,hacknowledging,-⟩ := he
  refine ⟨id,fun hcommits => ?_,congrArg some hlease⟩
  cases point with
  | acknowledging terminal => exact hacknowledging terminal rfl
  | _ => exact hcommits

/-- Replies of `acquire`, `release` and the guard come where they are awaited. -/
theorem owning_follows {e : Execution D} {point : ExecutePoint D} {reply : Reply D}
    {h : Execute D} (hone : ExecutionSteps.Follows e point reply h)
    (howning : owning reply=true) :
    (∃ terminal,point=.releasing terminal) ∨ ∃ result,point=.leaving result := by
  cases hone with
  | released => exact .inl ⟨_,rfl⟩
  | left => exact .inr ⟨_,rfl⟩
  | failed => exact .inr ⟨_,rfl⟩
  | loses hloses => cases hloses <;> cases howning
  | _ => cases howning

variable [Double F D]

/-- What a call of the follower leads to before its request is acquired. -/
theorem follower_before {h h' : Execute D} {reply : Reply D} (hbefore : followerBefore h)
    (hone : Execute.resume h reply=some h') :
    ¬followerHolds h' ∧ ¬followerCommits h' ∧ followerLease h'=none ∨
      ∃ e : Execution D,reply=.acquired e.lease ∧ ExecutionSteps.Continues e h' := by
  cases h with
  | starting =>
    cases reply with
    | read message =>
      cases hone
      unfold firstMessage
      split
      · exact .inl ⟨id,id,rfl⟩
      · exact .inl ⟨id,id,rfl⟩
    | _ => cases hone
  | opened opening =>
    cases reply with
    | started now later contextDeadline random =>
      rw [Execute.resume] at hone
      split at hone
      · cases hone
        exact .inl ⟨id,id,rfl⟩
      · cases hone
        exact .inl ⟨id,id,rfl⟩
    | _ => cases hone
  | acquiring opening sampling call =>
    cases reply with
    | threw error =>
      cases hone
      exact .inl ⟨id,id,rfl⟩
    | acquired lease =>
      cases hone
      exact .inr ⟨opening.execution lease,rfl,
        ExecutionSteps.continues_afterLease opening sampling lease⟩
    | _ => cases hone
  | running e point => exact hbefore.elim
  | returned status => exact hbefore.elim

/-- What a call of the follower leads to once its request is acquired. -/
theorem follower_after {h h' : Execute D} {reply : Reply D} (hafter : ¬followerBefore h)
    (hone : Execute.resume h reply=some h') :
    ∃ e point,h=.running e point ∧ ExecutionSteps.Follows e point reply h' := by
  cases h with
  | starting => exact absurd trivial hafter
  | opened opening => exact absurd trivial hafter
  | acquiring opening sampling call => exact absurd trivial hafter
  | running e point => exact ⟨e,point,rfl,ExecutionSteps.follows_of_resume hone⟩
  | returned status => cases hone

/-- What a follower may hold, release and lease after a step. -/
theorem follows_points {e : Execution D} {point : ExecutePoint D} {reply : Reply D}
    {h : Execute D} (hone : ExecutionSteps.Follows e point reply h) :
    ¬followerBefore h ∧
      (followerHolds h → followerHolds (.running e point) ∧ owning reply=false) ∧
      (followerCommits h → followerCommits (.running e point) ∨
        followerHolds (.running e point) ∧ reply=.released) ∧
      (∀ lease,followerLease h=some lease → e.lease=lease) := by
  rcases ExecutionSteps.follows_cases hone with ⟨hcontinues,hpoint⟩|⟨terminal,rfl,rfl,rfl⟩|
    ⟨terminal,rfl,rfl⟩|⟨-,status,rfl,-⟩
  · obtain ⟨hbefore,hcommits,hlease⟩ := continues_points hcontinues
    refine ⟨hbefore,fun hholds => ?_,fun h => absurd h hcommits,fun lease heq => ?_⟩
    · rcases hpoint with ⟨hacknowledging,hleaving,hreleasing⟩|⟨error,rfl⟩
      · refine ⟨followerHolds_of_ne hacknowledging hleaving,?_⟩
        rw [Bool.eq_false_iff]
        intro howning
        rcases owning_follows hone howning with ⟨terminal,hpoint⟩|⟨result,hpoint⟩
        · exact hreleasing terminal hpoint
        · exact hleaving result hpoint
      · exact hholds.elim
    · rw [hlease] at heq
      exact Option.some.inj heq
  · exact ⟨id,False.elim,fun _ => .inr ⟨trivial,rfl⟩,fun lease heq => Option.some.inj heq⟩
  · exact ⟨id,False.elim,False.elim,fun lease heq => Option.some.inj heq⟩
  · exact ⟨id,False.elim,False.elim,nofun⟩

/-- The follower acquires, holds and releases its request once. -/
theorem follower_lawful :
    Lawful (follower (D:=D)) followerBefore followerHolds followerCommits where
  before_back {h reply h'} hone hbefore := by
    by_contra hafter
    obtain ⟨e,point,rfl,hfollows⟩ := follower_after hafter hone
    exact (follows_points hfollows).1 hbefore
  asks_before {h a} hcall := by
    cases h with
    | acquiring opening sampling call => exact trivial
    | _ => cases hcall
  acquired {h lease h'} hone := by
    cases h with
    | acquiring opening sampling call =>
      cases hone
      exact ⟨⟨call,rfl⟩,(continues_points
        (ExecutionSteps.continues_afterLease opening sampling lease)).1⟩
    | _ => cases hone
  asking {h a reply h'} hcall hone := by
    cases h with
    | acquiring opening sampling call =>
      cases reply with
      | threw error =>
        cases hone
        exact id
      | acquired lease =>
        cases hone
        exact (continues_points (ExecutionSteps.continues_afterLease opening sampling lease)).1
      | _ => cases hone
    | _ => cases hcall
  checks {h h'} hone := by
    cases h with
    | running e point => rfl
    | _ => cases hone
  holds_back {h reply h'} hone hholds := by
    by_cases hbefore : followerBefore h
    · rcases follower_before hbefore hone with ⟨hnot,-⟩|⟨e,hreply,-⟩
      · exact absurd hholds hnot
      · exact .inl ⟨e.lease,hreply⟩
    · obtain ⟨e,point,rfl,hfollows⟩ := follower_after hbefore hone
      exact .inr ((follows_points hfollows).2.1 hholds)
  commits_back {h reply h'} hone hcommits := by
    by_cases hbefore : followerBefore h
    · rcases follower_before hbefore hone with ⟨-,hnot,-⟩|⟨e,-,hcontinues⟩
      · exact absurd hcommits hnot
      · exact absurd hcommits (continues_points hcontinues).2.1
    · obtain ⟨e,point,rfl,hfollows⟩ := follower_after hbefore hone
      exact (follows_points hfollows).2.2.1 hcommits
  leaves {h expired cancelled h'} hone hholds := by
    cases h with
    | running e point =>
      cases point with
      | leaving result => exact hholds
      | _ => cases hone
    | _ => exact hholds
  lease_back {h reply h' lease} hone hlease := by
    change followerLease h'=some lease at hlease
    by_cases hbefore : followerBefore h
    · rcases follower_before hbefore hone with ⟨-,-,hnone⟩|⟨e,hreply,hcontinues⟩
      · rw [hnone] at hlease
        cases hlease
      · rw [(continues_points hcontinues).2.2,Option.some.injEq] at hlease
        exact .inr (hlease ▸ hreply)
    · obtain ⟨e,point,rfl,hfollows⟩ := follower_after hbefore hone
      exact .inl (congrArg some ((follows_points hfollows).2.2.2 lease hlease))

end Follower

section Pipelines

/-- What the two workers are. -/
structure Setting where
  textDigest : String → String
  driverSizes : ℕ → BackendSizes
  followerSizes : ℕ → BackendSizes
  driverThread : ℕ
  followerThread : ℕ
  /-- The peer is known to run `Execute`. -/
  peerExecutes : Bool

/-- `Generate` and `Execute`, and the messages between them that were not read. -/
structure Pipeline (D : Type) where
  upstream : Site (Generate D)
  downstream : Site (Execute D)
  toPeer : List (StageMessage D)
  toDriver : List (StageMessage D)

/-- Steps of a pipeline. -/
inductive PipelineAction (D : Type)
  | driver (a : SiteAction D)
  | driverReads
  | follower (a : SiteAction D)
  | followerReads

/-- Steps that read a message. -/
def reads : SiteAction D → Bool
  | .call (.read (some _)) => true
  | _ => false

/-- What a step sends of the message its handler is writing. -/
def sent (outgoing : Option (StageMessage D)) : SiteAction D → List (StageMessage D)
  | .call (.written true) => outgoing.toList
  | _ => []

variable [Double F D] (setting : Setting)

/-- The step function of a pipeline. Messages of a peer that runs `Execute` are
read in the order it wrote them. -/
def Pipeline.step (s : Pipeline D) : PipelineAction D → Option (Pipeline D)
  | .driver a =>
    if setting.peerExecutes && reads a then none
    else (s.upstream.step driver setting.textDigest setting.driverSizes setting.driverThread
      a).map fun u => { s with
        upstream := u
        toPeer := s.toPeer++sent s.upstream.handler.outgoing a }
  | .driverReads =>
    match s.toDriver with
    | [] => none
    | message::rest =>
      (s.upstream.step driver setting.textDigest setting.driverSizes setting.driverThread
        (.call (.read (some message)))).map fun u => { s with upstream := u, toDriver := rest }
  | .follower a =>
    if reads a then none
    else (s.downstream.step follower setting.textDigest setting.followerSizes
      setting.followerThread a).map fun u => { s with
        downstream := u
        toDriver := s.toDriver++sent s.downstream.handler.outgoing a }
  | .followerReads =>
    match s.toPeer with
    | [] => none
    | message::rest =>
      (s.downstream.step follower setting.textDigest setting.followerSizes
        setting.followerThread (.call (.read (some message)))).map fun u =>
          { s with downstream := u, toPeer := rest }

/-- All runs of a pipeline, from workers that have just started. -/
def pipeline : Machine (Pipeline D) (PipelineAction D) where
  initial := fun s => ∃ w w' request,(ControlModel.machine setting.textDigest).initial w ∧
    (ControlModel.machine setting.textDigest).initial w' ∧
    s=⟨⟨w,.starting request,none⟩,⟨w',.starting,none⟩,[],[]⟩
  step := Pipeline.step setting

variable {setting} {s s' : Pipeline D}

/-- The driver's worker and handler agree. -/
abbrev DriverSound (setting : Setting) (s : Site (Generate D)) : Prop :=
  Sound driver setting.textDigest setting.driverThread driverBefore driverHolds driverCommits s

/-- The follower's worker and handler agree. -/
abbrev FollowerSound (setting : Setting) (s : Site (Execute D)) : Prop :=
  Sound follower setting.textDigest setting.followerThread followerBefore followerHolds
    followerCommits s

/-- A worker that has just started agrees with a handler that has just started. -/
theorem sound_initial {H : Type} {handler : Handler D H} {t : ℕ} {before holds commits : H → Prop}
    {textDigest : String → String} {w : ControlModel.World} {h : H}
    (hinitial : (ControlModel.machine textDigest).initial w) (hcall : handler.acquisition h=none)
    (hholds : ¬holds h) (hcommits : ¬commits h) (hlease : handler.lease h=none) :
    Sound handler textDigest t before holds commits ⟨w,h,none⟩ := by
  refine ⟨⟨_,[],hinitial,.nil _⟩,fun _ => rfl,fun _ _ => ?_,
    fun a ha => ?_,nofun,fun h => absurd h hholds,fun h => absurd h hcommits,fun lease heq => ?_⟩
  · obtain ⟨config,capabilities,blank,empty,-,rfl⟩ := hinitial
    rfl
  · rw [hcall] at ha
    cases ha
  · rw [hlease] at heq
    cases heq

/-- What a step of a pipeline does to the driver and to the messages. -/
theorem step_driver {a : SiteAction D} (hone : s.step setting (.driver a)=some s') :
    ∃ u,s.upstream.step driver setting.textDigest setting.driverSizes setting.driverThread a=
        some u ∧ (setting.peerExecutes=true → reads a=false) ∧
      s'={ s with upstream := u, toPeer := s.toPeer++sent s.upstream.handler.outgoing a } := by
  rw [Pipeline.step] at hone
  split at hone
  · cases hone
  · rename_i hfree
    obtain ⟨u,hu,rfl⟩ := Option.map_eq_some_iff.mp hone
    refine ⟨u,hu,fun hexecutes => ?_,rfl⟩
    rw [hexecutes,Bool.true_and] at hfree
    exact Bool.eq_false_iff.mpr hfree

/-- What a read of the driver does. -/
theorem step_driverReads (hone : s.step setting .driverReads=some s') :
    ∃ message rest u,s.toDriver=message::rest ∧
      s.upstream.step driver setting.textDigest setting.driverSizes setting.driverThread
        (.call (.read (some message)))=some u ∧
      s'={ s with upstream := u, toDriver := rest } := by
  rw [Pipeline.step] at hone
  split at hone
  · cases hone
  · rename_i message rest hchannel
    obtain ⟨u,hu,rfl⟩ := Option.map_eq_some_iff.mp hone
    exact ⟨message,rest,u,hchannel,hu,rfl⟩

/-- What a step of a pipeline does to the follower and to the messages. -/
theorem step_follower {a : SiteAction D} (hone : s.step setting (.follower a)=some s') :
    ∃ u,s.downstream.step follower setting.textDigest setting.followerSizes
        setting.followerThread a=some u ∧ reads a=false ∧
      s'={ s with
        downstream := u
        toDriver := s.toDriver++sent s.downstream.handler.outgoing a } := by
  rw [Pipeline.step] at hone
  split at hone
  · cases hone
  · rename_i hfree
    obtain ⟨u,hu,rfl⟩ := Option.map_eq_some_iff.mp hone
    exact ⟨u,hu,Bool.eq_false_iff.mpr hfree,rfl⟩

/-- What a read of the follower does. -/
theorem step_followerReads (hone : s.step setting .followerReads=some s') :
    ∃ message rest u,s.toPeer=message::rest ∧
      s.downstream.step follower setting.textDigest setting.followerSizes
        setting.followerThread (.call (.read (some message)))=some u ∧
      s'={ s with downstream := u, toPeer := rest } := by
  rw [Pipeline.step] at hone
  split at hone
  · cases hone
  · rename_i message rest hchannel
    obtain ⟨u,hu,rfl⟩ := Option.map_eq_some_iff.mp hone
    exact ⟨message,rest,u,hchannel,hu,rfl⟩

end Pipelines

section Runs

variable [Double F D] {setting : Setting} {s s' : Pipeline D}

/-- What the driver asked for and got. -/
def Asked : Generate D → Prop
  | .acquiring request sampling call => Asks request sampling call
  | .running g _ => ∃ sampling call,Asks g.request sampling call ∧ Granted call g.lease
  | _ => True

/-- A handler keeps its request. -/
theorem request_resume {h h' : Generate D} {reply : Reply D}
    (hone : Generate.resume h reply=some h') : h'.request=h.request := by
  cases h with
  | starting request =>
    cases reply with
    | started now later contextDeadline random =>
      rw [Generate.resume] at hone
      split at hone <;> cases hone <;> rfl
    | _ => cases hone
  | acquiring request sampling call =>
    cases reply with
    | threw error =>
      cases hone
      rfl
    | acquired lease =>
      cases hone
      obtain ⟨g,point,heq,hrequest,-⟩ := loops_afterLease request sampling lease
      rw [heq]
      exact hrequest
    | _ => cases hone
  | running g point =>
    rcases drives_cases (drives_of_resume hone) with ⟨⟨g',point',rfl,hrequest,-⟩,-⟩|
      ⟨-,-,rfl⟩|⟨-,body,rfl⟩|⟨-,body,rfl⟩|⟨-,status,rfl,-⟩
    · exact hrequest
    · rfl
    · rfl
    · rfl
    · rfl
  | returned request events status => cases hone

/-- What the driver asked for and got stays so. -/
theorem asked_resume {h h' : Generate D} {reply : Reply D} (hasked : Asked h)
    (hone : Generate.resume h reply=some h')
    (hgranted : ∀ lease,reply=.acquired lease →
      ∃ call,h.acquisition=some call ∧ Granted call lease) : Asked h' := by
  cases h with
  | starting request =>
    cases reply with
    | started now later contextDeadline random =>
      rw [Generate.resume] at hone
      split at hone
      · cases hone
        exact trivial
      · cases hone
        exact asks_of_start ‹_›
    | _ => cases hone
  | acquiring request sampling call =>
    cases reply with
    | threw error =>
      cases hone
      exact trivial
    | acquired lease =>
      cases hone
      obtain ⟨call',hcall,hlease⟩ := hgranted lease rfl
      cases hcall
      obtain ⟨g,point,heq,hrequest,hsame,-⟩ := loops_afterLease request sampling lease
      rw [heq]
      refine ⟨sampling,call,?_,?_⟩
      · rw [hrequest]
        exact hasked
      · rw [hsame]
        exact hlease
    | _ => cases hone
  | running g point =>
    obtain ⟨sampling,call,hasks,hlease⟩ := hasked
    cases h' with
    | running g' point' =>
      obtain ⟨hrequest,hsame⟩ := running_back (drives_of_resume hone)
      refine ⟨sampling,call,?_,?_⟩
      · rw [hrequest]
        exact hasks
      · rw [hsame]
        exact hlease
    | acquiring request sampling call =>
      exact absurd trivial (drives_points (drives_of_resume hone)).1
    | _ => exact trivial
  | returned request events status => cases hone

/-- The follower's request of some id is retired as completed. -/
def CompletedBelow (s : Site (Execute D)) (id : String) : Prop :=
  ∃ o lease,s.grant=some (o,lease) ∧ lease.identity.requestId=id ∧
    (o,"completed")∈s.world.retired

/-- The termination a follower is about to release or acknowledge names its request. -/
def Named : Execute D → Prop
  | .running e (.releasing terminal) => terminal.requestId=e.lease.identity.requestId
  | .running e (.acknowledging terminal) => terminal.requestId=e.lease.identity.requestId
  | _ => True

/-- A driver past the acknowledgment has a follower that has completed its request. -/
def Acknowledged (below : Site (Execute D)) : Generate D → Prop
  | .running g point =>
    g.lease.split=true → Drained point → CompletedBelow below g.request.requestId
  | _ => True

/-- What holds in every state of a pipeline. -/
structure Aligned (setting : Setting) (s : Pipeline D) : Prop where
  upstream : DriverSound setting s.upstream
  downstream : FollowerSound setting s.downstream
  grammatical : Grammatical s.upstream.handler
  asked : Asked s.upstream.handler
  named : Named s.downstream.handler
  acknowledging : ∀ terminal,StageMessage.terminate terminal∈s.toDriver →
    CompletedBelow s.downstream terminal.requestId
  acknowledged : setting.peerExecutes=true → Acknowledged s.downstream s.upstream.handler

/-- Terminations keep naming the request. -/
theorem named_resume {h h' : Execute D} {reply : Reply D} (hnamed : Named h)
    (hone : Execute.resume h reply=some h') : Named h' := by
  cases h with
  | starting =>
    cases reply with
    | read message =>
      cases hone
      unfold firstMessage
      split <;> exact trivial
    | _ => cases hone
  | opened opening =>
    cases reply with
    | started now later contextDeadline random =>
      rw [Execute.resume] at hone
      split at hone <;> cases hone <;> exact trivial
    | _ => cases hone
  | acquiring opening sampling call =>
    cases reply with
    | threw error =>
      cases hone
      exact trivial
    | acquired lease =>
      cases hone
      unfold SequenceOpen.afterLease
      split <;> exact trivial
    | _ => cases hone
  | running e point =>
    rcases ExecutionSteps.follows_cases (ExecutionSteps.follows_of_resume hone) with
      ⟨⟨e',point',rfl,hlease,hacknowledging,-,hreleasing⟩,-⟩|⟨terminal,rfl,-,rfl⟩|
      ⟨terminal,-,rfl⟩|⟨-,status,rfl,-⟩
    · cases point' with
      | releasing terminal =>
        change terminal.requestId=e'.lease.identity.requestId
        rw [hlease]
        exact hreleasing terminal rfl
      | acknowledging terminal => exact absurd rfl (hacknowledging terminal)
      | _ => exact trivial
    · exact hnamed
    · exact trivial
    · exact trivial
  | returned status => cases hone

/-- A completed request stays completed. -/
theorem CompletedBelow.lasts {d d' : Site (Execute D)} {id : String}
    (h : CompletedBelow d id) (hsound : FollowerSound setting d)
    (hone : Transition follower setting.textDigest setting.followerSizes setting.followerThread
      d d') : CompletedBelow d' id := by
  obtain ⟨o,lease,hgrant,hid,hretired⟩ := h
  exact ⟨o,lease,hsound.grant_lasts follower_lawful hone hgrant,hid,
    (hsound.stable hone).retired _ hretired⟩

/-- A termination is acknowledged once the request is completed. -/
theorem completedBelow_of_outgoing {d : Site (Execute D)} {terminal : SequenceTermination}
    (hsound : FollowerSound setting d) (hnamed : Named d.handler)
    (hout : d.handler.outgoing=some (.terminate terminal)) :
    CompletedBelow d terminal.requestId := by
  cases hhandler : d.handler with
  | running e point =>
    rw [hhandler] at hout hnamed
    cases point with
    | acknowledging terminal' =>
      cases hout
      obtain ⟨o,lease,hgrant,hretired⟩ := hsound.committed (by rw [hhandler]; exact trivial)
      obtain ⟨o',hgrant'⟩ := hsound.leased e.lease (by rw [hhandler]; rfl)
      rw [hgrant,Option.some.injEq,Prod.mk.injEq] at hgrant'
      exact ⟨o,lease,hgrant,by rw [hgrant'.2]; exact hnamed.symm,hretired⟩
    | _ => cases hout
  | _ =>
    rw [hhandler] at hout
    cases hout

/-- Messages a step sends are the one its handler is writing. -/
theorem mem_sent {outgoing : Option (StageMessage D)} {a : SiteAction D} {message : StageMessage D}
    (h : message∈sent outgoing a) : outgoing=some message ∧ a=.call (.written true) := by
  unfold sent at h
  split at h
  · rw [Option.mem_toList] at h
    exact ⟨h,rfl⟩
  · cases h

/-- A step of the follower keeps a pipeline aligned. -/
theorem Aligned.follow (h : Aligned setting s) {a : SiteAction D} {d : Site (Execute D)}
    (hone : s.downstream.step follower setting.textDigest setting.followerSizes
      setting.followerThread a=some d) {toPeer : List (StageMessage D)} :
    Aligned setting ⟨s.upstream,d,toPeer,s.toDriver++sent s.downstream.handler.outgoing a⟩ := by
  have htransition := step_transition follower_lawful hone
  refine ⟨h.upstream,h.downstream.transition follower_lawful htransition,h.grammatical,h.asked,
    ?_,fun terminal hterminal => ?_,fun hexecutes => ?_⟩
  · rcases step_resumes hone with ⟨hsame,-⟩|⟨reply,hresumed⟩
    · change Named d.handler
      rw [hsame]
      exact h.named
    · exact named_resume h.named hresumed.resumes
  · rcases List.mem_append.mp hterminal with hterminal|hterminal
    · exact (h.acknowledging terminal hterminal).lasts h.downstream htransition
    · obtain ⟨hout,-⟩ := mem_sent hterminal
      exact (completedBelow_of_outgoing h.downstream h.named hout).lasts h.downstream htransition
  · have hacknowledged := h.acknowledged hexecutes
    change Acknowledged d s.upstream.handler
    cases hhandler : s.upstream.handler with
    | running g point =>
      rw [hhandler] at hacknowledged
      exact fun hsplit hdrained => (hacknowledged hsplit hdrained).lasts h.downstream htransition
    | _ => exact trivial

/-- A driver that goes past the acknowledgment has read it. -/
theorem acknowledged_resume {below : Site (Execute D)} {h h' : Generate D} {reply : Reply D}
    (hacknowledged : Acknowledged below h) (hone : Generate.resume h reply=some h')
    (hread : ∀ terminal,reply=.read (some (.terminate terminal)) →
      CompletedBelow below terminal.requestId) : Acknowledged below h' := by
  cases h' with
  | running g' point' =>
    cases h with
    | starting request =>
      cases reply with
      | started now later contextDeadline random =>
        rw [Generate.resume] at hone
        split at hone <;> cases hone
      | _ => cases hone
    | acquiring request sampling call =>
      cases reply with
      | acquired lease =>
        obtain ⟨g,point,heq,-,hlease,-,hnot,-⟩ := loops_afterLease request sampling lease
        rw [Generate.resume,heq] at hone
        cases hone
        intro hsplit hdrained
        rw [hlease] at hsplit
        exact absurd hdrained (hnot hsplit)
      | _ => cases hone
    | running g point =>
      have hdrives := drives_of_resume hone
      obtain ⟨hrequest,hlease⟩ := running_back hdrives
      intro hsplit hdrained
      rw [hlease] at hsplit
      rw [hrequest]
      rcases drained_back hdrives hsplit with hnot|hbefore|⟨-,message,rfl,hack⟩
      · exact absurd hdrained (hnot g' point' rfl)
      · exact hacknowledged hsplit hbefore
      · cases message with
        | terminate terminal =>
          rw [Generation.acknowledges,decide_eq_true_eq] at hack
          have hbelow := hread terminal rfl
          rw [hack] at hbelow
          exact hbelow
        | _ => cases hack
    | returned request events status => cases hone
  | _ => exact trivial

/-- A step of the driver keeps a pipeline aligned. -/
theorem Aligned.drive (h : Aligned setting s) {a : SiteAction D} {u : Site (Generate D)}
    (hone : s.upstream.step driver setting.textDigest setting.driverSizes setting.driverThread
      a=some u) (hread : setting.peerExecutes=true → ∀ message,a=.call (.read (some message)) →
        message∈s.toDriver) {toPeer toDriver : List (StageMessage D)}
    (hchannel : ∀ message∈toDriver,message∈s.toDriver) :
    Aligned setting ⟨u,s.downstream,toPeer,toDriver⟩ := by
  have htransition := step_transition driver_lawful hone
  refine ⟨h.upstream.transition driver_lawful htransition,h.downstream,?_,?_,h.named,
    fun terminal hterminal => h.acknowledging terminal (hchannel _ hterminal),
    fun hexecutes => ?_⟩
  · rcases step_resumes hone with ⟨hsame,-⟩|⟨reply,hresumed⟩
    · change Grammatical u.handler
      rw [hsame]
      exact h.grammatical
    · exact grammatical_resume h.grammatical hresumed.resumes
  · rcases step_resumes hone with ⟨hsame,-⟩|⟨reply,hresumed⟩
    · change Asked u.handler
      rw [hsame]
      exact h.asked
    · refine asked_resume h.asked hresumed.resumes fun lease heq => ?_
      subst heq
      exact h.upstream.granted driver_lawful hone hresumed
  · have hacknowledged := h.acknowledged hexecutes
    change Acknowledged s.downstream u.handler
    rcases step_resumes hone with ⟨hsame,-⟩|⟨reply,hresumed⟩
    · rw [hsame]
      exact hacknowledged
    · refine acknowledged_resume hacknowledged hresumed.resumes fun terminal hreply => ?_
      subst hreply
      exact h.acknowledging terminal (hread hexecutes _ (hresumed.streamed rfl))

/-- Every step of a pipeline keeps it aligned. -/
theorem Aligned.step (h : Aligned setting s) {a : PipelineAction D}
    (hone : s.step setting a=some s') : Aligned setting s' := by
  cases a with
  | driver a =>
    obtain ⟨u,hu,hfree,rfl⟩ := step_driver hone
    refine h.drive hu (fun hexecutes message ha => ?_) fun _ => id
    have hreads := hfree hexecutes
    rw [ha] at hreads
    cases hreads
  | driverReads =>
    obtain ⟨message,rest,u,hchannel,hu,rfl⟩ := step_driverReads hone
    refine h.drive hu (fun _ message' heq => ?_) fun message' hmem => ?_
    · cases heq
      rw [hchannel]
      exact List.mem_cons_self
    · rw [hchannel]
      exact List.mem_cons_of_mem _ hmem
  | follower a =>
    obtain ⟨d,hd,-,rfl⟩ := step_follower hone
    exact h.follow hd
  | followerReads =>
    obtain ⟨message,rest,d,-,hd,rfl⟩ := step_followerReads hone
    have hkept := @Aligned.follow _ _ _ _ _ h _ _ hd rest
    have hempty : sent s.downstream.handler.outgoing (.call (.read (some message)))=[] := rfl
    rw [hempty,List.append_nil] at hkept
    exact hkept

/-- Every state of a pipeline is aligned. -/
theorem aligned_reachable (h : (pipeline setting).Reachable s) : Aligned setting s := by
  refine Machine.Reachable.induct (I:=Aligned setting) (fun s hinitial => ?_)
    (fun s a s' hs hone => hs.step hone) h
  obtain ⟨w,w',request,hw,hw',rfl⟩ := hinitial
  exact ⟨sound_initial hw rfl id id rfl,sound_initial hw' rfl id id rfl,trivial,trivial,trivial,
    nofun,fun _ => trivial⟩

/-- A worker has retired the request of its handler, of some id, as completed. -/
def Completed {H : Type} (s : Site H) (id : String) : Prop :=
  ∃ o lease,s.grant=some (o,lease) ∧ (s.world.object o).id=id ∧
    (o,"completed")∈s.world.retired

/-- What the events of a request say about it. -/
structure EventStream (setting : Setting) (s : Pipeline D) : Prop where
  /-- They are the beginning of one stream. -/
  written : ∃ tokens,s.upstream.handler.events<+:stream s.upstream.handler.request tokens
  /-- `OK` is the status of a whole stream, which answers the request. -/
  returned : ∀ request events status,s.upstream.handler=.returned request events status →
    (status.code=.ok ↔ ∃ tokens,events=stream request tokens) ∧
    (status.code=.ok → ∃ tokens,events=stream request tokens ∧ Answers request tokens)
  /-- A step writes one event at most. -/
  appended : ∀ a s',s.step setting a=some s' →
    s'.upstream.handler.events=s.upstream.handler.events ∨
      ∃ event,s'.upstream.handler.events=s.upstream.handler.events++[event]
  /-- The last events are written after every worker has retired the request as
  completed. -/
  completed : ∀ a s' event,s.step setting a=some s' →
    s'.upstream.handler.events=s.upstream.handler.events++[event] → closing event.body=true →
    Completed s.upstream s.upstream.handler.request.requestId ∧
      (setting.peerExecutes=true → ∀ o lease,s.upstream.grant=some (o,lease) →
        lease.split=true → Completed s.downstream s.upstream.handler.request.requestId)

/-- The events of a handler are the beginning of a stream. -/
theorem grammatical_begins {h : Generate D} (hg : Grammatical h) :
    ∃ tokens,h.events<+:stream h.request tokens := by
  cases h with
  | starting request => exact ⟨[], List.nil_prefix⟩
  | acquiring request sampling call => exact ⟨[], List.nil_prefix⟩
  | returned request events status =>
    rcases hg with ⟨-,tokens,rfl,-⟩|⟨-,hpart⟩
    · exact ⟨tokens,List.prefix_refl _⟩
    · exact hpart.begins
  | running g point =>
    by_cases hleaving : ∃ result,point=.leaving result
    · obtain ⟨result,rfl⟩ := hleaving
      cases result with
      | ok done =>
        obtain ⟨tokens,hevents,-⟩ := hg
        exact ⟨tokens,hevents ▸ List.prefix_refl _⟩
      | error error => exact Partial.begins hg
    · by_cases hterminal : point=.terminal
      · subst hterminal
        obtain ⟨tokens,hevents,-⟩ := hg
        refine ⟨tokens,[terminalEvent g.request],?_⟩
        rw [Generate.events,hevents,Generate.request,stream,List.append_assoc]
        rfl
      · exact (AtPoint.part hg fun result heq => hleaving ⟨result,heq⟩).begins

/-- A handler that is about to write its last events has retired its request. -/
theorem Aligned.completed (h : Aligned setting s) {g : Generation D} {point : GeneratePoint D}
    (hhandler : s.upstream.handler=.running g point) (hpoint : point=.usage ∨ point=.terminal) :
    Completed s.upstream g.request.requestId ∧
      (setting.peerExecutes=true → ∀ o lease,s.upstream.grant=some (o,lease) →
        lease.split=true → Completed s.downstream g.request.requestId) := by
  have hcommits : driverCommits s.upstream.handler := by
    rw [hhandler]
    rcases hpoint with rfl|rfl
    · exact trivial
    · exact trivial
  obtain ⟨o,lease,hgrant,hretired⟩ := h.upstream.committed hcommits
  obtain ⟨o',hleased⟩ := h.upstream.leased g.lease (by rw [hhandler]; rfl)
  have hlease : lease=g.lease := by
    rw [hgrant,Option.some.injEq,Prod.mk.injEq] at hleased
    exact hleased.2
  have hasked := h.asked
  rw [hhandler] at hasked
  obtain ⟨sampling,call,hasks,hgranted⟩ := hasked
  refine ⟨⟨o,lease,hgrant,?_,hretired⟩,fun hexecutes o₁ lease₁ hgrant₁ hsplit => ?_⟩
  · rw [(h.upstream.named o lease hgrant).2,hlease,hgranted.id,hasks.requestId]
  · have hacknowledged := h.acknowledged hexecutes
    rw [hhandler] at hacknowledged
    rw [hgrant,Option.some.injEq,Prod.mk.injEq] at hgrant₁
    have hdrained : Drained point := by
      rcases hpoint with rfl|rfl
      · exact trivial
      · exact trivial
    obtain ⟨o₂,lease₂,hgrant₂,hid,hretired₂⟩ := hacknowledged
      (hlease ▸ hgrant₁.2.symm ▸ hsplit) hdrained
    exact ⟨o₂,lease₂,hgrant₂,(h.downstream.named o₂ lease₂ hgrant₂).2.trans hid,hretired₂⟩

/-- What a step of a driver does to its events. -/
theorem events_resume {h h' : Generate D} {reply : Reply D}
    (hone : Generate.resume h reply=some h') :
    h'.events=h.events ∨ ∃ event,h'.events=h.events++[event] ∧ (closing event.body=true →
      ∃ g point,h=.running g point ∧ (point=.usage ∨ point=.terminal)) := by
  cases h with
  | starting request =>
    cases reply with
    | started now later contextDeadline random =>
      rw [Generate.resume] at hone
      split at hone <;> cases hone <;> exact .inl rfl
    | _ => cases hone
  | acquiring request sampling call =>
    cases reply with
    | threw error =>
      cases hone
      exact .inl rfl
    | acquired lease =>
      cases hone
      exact .inl (loops_afterLease request sampling lease).events
    | _ => cases hone
  | running g point =>
    rcases events_drives (drives_of_resume hone) with hsame|⟨body,hbody,hclosing⟩
    · exact .inl hsame
    · exact .inr ⟨_,hbody,fun hclose => ⟨g,point,rfl,hclosing hclose⟩⟩
  | returned request events status => cases hone

/-- What a step of a pipeline does to the events. -/
theorem events_step {a : PipelineAction D} (hone : s.step setting a=some s') :
    s'.upstream.handler.events=s.upstream.handler.events ∨
      ∃ event,s'.upstream.handler.events=s.upstream.handler.events++[event] ∧
        (closing event.body=true → ∃ g point,s.upstream.handler=.running g point ∧
          (point=.usage ∨ point=.terminal)) := by
  have hdrive : ∀ {a : SiteAction D} {u : Site (Generate D)},s.upstream.step driver
      setting.textDigest setting.driverSizes setting.driverThread a=some u →
      u.handler.events=s.upstream.handler.events ∨
        ∃ event,u.handler.events=s.upstream.handler.events++[event] ∧
          (closing event.body=true → ∃ g point,s.upstream.handler=.running g point ∧
            (point=.usage ∨ point=.terminal)) := by
    intro a u hu
    rcases step_resumes hu with ⟨hsame,-⟩|⟨reply,hresumed⟩
    · exact .inl (congrArg Generate.events hsame)
    · exact events_resume hresumed.resumes
  cases a with
  | driver a =>
    obtain ⟨u,hu,-,rfl⟩ := step_driver hone
    exact hdrive hu
  | driverReads =>
    obtain ⟨message,rest,u,-,hu,rfl⟩ := step_driverReads hone
    exact hdrive hu
  | follower a =>
    obtain ⟨d,-,-,rfl⟩ := step_follower hone
    exact .inl rfl
  | followerReads =>
    obtain ⟨message,rest,d,-,-,rfl⟩ := step_followerReads hone
    exact .inl rfl

/-- In any run of the two workers, wherever calls fail, the stream breaks or the
control services interfere, the events of a request are the beginning of one
stream, `OK` means the whole of it, and its last events come after the request
was retired as completed by every worker. -/
theorem event_stream (h : (pipeline setting).Reachable s) : EventStream setting s := by
  have haligned := aligned_reachable h
  refine ⟨grammatical_begins haligned.grammatical,fun request events status hhandler => ?_,
    fun a s' hone => ?_,fun a s' event hone hevents hclosing => ?_⟩
  · have hgrammatical := haligned.grammatical
    rw [hhandler] at hgrammatical
    rcases hgrammatical with ⟨hok,tokens,heq,hanswers⟩|⟨hfailed,hpart⟩
    · exact ⟨⟨fun _ => ⟨tokens,heq⟩,fun _ => hok⟩,fun _ => ⟨tokens,heq,hanswers⟩⟩
    · refine ⟨⟨fun hok => absurd hok hfailed,?_⟩,fun hok => absurd hok hfailed⟩
      rintro ⟨tokens,rfl⟩
      exact absurd rfl (hpart.ne_stream tokens)
  · rcases events_step hone with hsame|⟨event,hevents,-⟩
    · exact .inl hsame
    · exact .inr ⟨event,hevents⟩
  · rcases events_step hone with hsame|⟨event',hevents',hpoint⟩
    · rw [hsame] at hevents
      cases List.self_eq_append_right.mp hevents
    · rw [hevents'] at hevents
      cases List.append_cancel_left hevents
      obtain ⟨g,point,hhandler,hpoint⟩ := hpoint hclosing
      have hcompleted := haligned.completed hhandler hpoint
      rw [hhandler]
      exact hcompleted

end Runs

section Sample

open ControlReservations

/-- A worker that runs a model on its own. -/
def sampleSetting : Setting := ⟨id,fun _ => ⟨1,8⟩,fun _ => ⟨1,8⟩,0,0,false⟩

/-- Two prompt tokens in chunks of one, and two new tokens at most. -/
def sampleRequest : GenerationRequest ℚ := ⟨none,1,"a","request",[3,5],2,1,[7],0⟩

/-- The request at a worker that has just started. -/
def sampleDriver : Pipeline ℚ :=
  ⟨⟨sampleStart,.starting sampleRequest,none⟩,⟨sampleStart,.starting,none⟩,[],[]⟩

/-- The stage is loaded and the request is served; its second token stops it. -/
def sampleCalls : List (SiteAction ℚ) := [
  .control (.loadStage (sampleLoad "a") (fun _ => 0) (.ok (some sampleBackend))),
  .call (.started 0 0 60000 0),.acquire (fun _ => 0) 0,.allocated .sequence 0 0,.acquired,
  .check false 1,.call (.output .progress),
  .check false 1,.call (.output (.sampled ⟨4,none,[]⟩)),.check false 1,.check false 1,
  .call (.written true),.check false 1,.call (.written true),
  .check false 1,.call (.output (.sampled ⟨7,none,[]⟩)),.check false 1,.check false 1,
  .call (.written true),.check false 1,.release 1,.call (.written true),.call (.written true),
  .leave false 1 1,.drop 1]

end Sample

end Hllm.GenerationPipeline
