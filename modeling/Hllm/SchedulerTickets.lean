import Hllm.SchedulerModel
import Mathlib.Data.List.Nodup

/-!
# Ticket ownership

Tickets live on their callers' stacks and are shared through raw pointers.
The ownership invariant says who may still refer to a ticket: its queue
until a leader claims it, that leader until delivery, and nobody after its
call has ended. Every transition keeps it, so it holds at every point of
every interleaving.
-/

namespace Hllm.SchedulerTickets

open SchedulerModel RunInvariants

variable {ι ο ε : Type}

/-- The call has started and not ended, so its stack ticket exists. -/
def live : Phase ο ε → Bool
  | .absent => false
  | .ended _ => false
  | _ => true

/-- Program points at which the caller owns the mutex. -/
def locked : Phase ο ε → Bool
  | .checking => true
  | .claiming _ _ => true
  | _ => false

/-- Tickets a leader has claimed and not yet delivered. -/
def group : Phase ο ε → List ℕ
  | .claiming _ storage => storage
  | .executing dispatch => dispatch
  | .computed dispatch _ => dispatch
  | _ => []

/-- Tickets claimed for a dispatch that has not entered the backend. -/
def storage : Phase ο ε → List ℕ
  | .claiming _ storage => storage
  | _ => []

/-- The dispatch a caller has in the backend. -/
def inBackend : Phase ο ε → Option (List ℕ)
  | .executing dispatch => some dispatch
  | .computed dispatch _ => some dispatch
  | _ => none

/-- Program points of a leader. -/
def leads : Phase ο ε → Bool
  | .claiming _ _ => true
  | .executing _ => true
  | .computed _ _ => true
  | _ => false

/-- A leader owns the mutex or has a dispatch in the backend. -/
theorem leads_cases {phase : Phase ο ε} (h : leads phase=true) :
    locked phase=true ∨ ∃ d,inBackend phase=some d := by
  cases phase <;> simp_all [leads,locked,inBackend]

/-- Nobody claims tickets without leading. -/
theorem leads_of_group {phase : Phase ο ε} {t : ℕ} (h : t∈group phase) : leads phase=true := by
  cases phase <;> simp_all [leads,group]

/-- Who has a dispatch in the backend leads. -/
theorem leads_of_inBackend {phase : Phase ο ε} {d : List ℕ} (h : inBackend phase=some d) :
    leads phase=true := by
  cases phase <;> simp_all [leads,inBackend]

/-- Who does not lead has claimed nothing and computes nothing. -/
theorem not_leads {phase : Phase ο ε} (h : leads phase=false) :
    group phase=[] ∧ storage phase=[] ∧ inBackend phase=none := by
  cases phase <;> simp_all [leads,group,storage,inBackend]

/-- Updating one queue leaves the other and sets its own. -/
@[simp] theorem queue_withQueue (s : Scheduler) (p q : Bool) (l : List ℕ) :
    (s.withQueue p l).queue q=if q=p then l else s.queue q := by
  cases p <;> cases q <;> rfl

/-- Queue updates do not touch the dispatch size. -/
@[simp] theorem executing_withQueue (s : Scheduler) (p : Bool) (l : List ℕ) :
    (s.withQueue p l).executing=s.executing := by
  cases p <;> rfl

/-- Queue updates do not touch the streak. -/
@[simp] theorem decodeStreak_withQueue (s : Scheduler) (p : Bool) (l : List ℕ) :
    (s.withQueue p l).decodeStreak=s.decodeStreak := by
  cases p <;> rfl

/-- Queue updates do not touch the configuration. -/
@[simp] theorem maximumDecodeBatch_withQueue (s : Scheduler) (p : Bool) (l : List ℕ) :
    (s.withQueue p l).maximumDecodeBatch=s.maximumDecodeBatch := by
  cases p <;> rfl

/-- Who may refer to which ticket. -/
structure Ownership (w : World ι ο ε) : Prop where
  /-- Exactly the mutex owner is at a locked program point. -/
  lock : ∀ c,locked (w.phase c)=true ↔ w.holder=some c
  /-- No ticket is queued twice. -/
  nodup : ∀ p,(w.queue p).Nodup
  /-- The queues hold exactly the live unclaimed tickets, each in the queue
  its caller chose. -/
  queued : ∀ c p,c∈w.queue p ↔ live (w.phase c)=true ∧ (w.ticket c).claimed=false ∧
    (w.ticket c).call.prefill=p
  /-- Only claimed tickets are finished by somebody. -/
  doneClaimed : ∀ c,(w.ticket c).done=true → (w.ticket c).claimed=true
  /-- A claimed unfinished ticket belongs to a leader. -/
  hasLeader : ∀ c,live (w.phase c)=true → (w.ticket c).claimed=true → (w.ticket c).done=false →
    ∃ l,c∈group (w.phase l)
  /-- A leader's tickets are live, claimed and unfinished. -/
  member : ∀ l c,c∈group (w.phase l) → live (w.phase c)=true ∧ (w.ticket c).claimed=true ∧
    (w.ticket c).done=false ∧ (w.ticket c).call.prefill=(w.ticket l).call.prefill
  /-- A dispatch names each member once. -/
  groupNodup : ∀ l,(group (w.phase l)).Nodup
  /-- There is at most one leader. -/
  oneLeader : ∀ l l',leads (w.phase l)=true → leads (w.phase l')=true → l=l'
  /-- The executing counter is the size of the dispatch in the backend. -/
  busy : ∀ l d,inBackend (w.phase l)=some d → w.executing=d.length ∧ d≠[]
  /-- With no dispatch in the backend the counter is zero. -/
  idle : (∀ l,inBackend (w.phase l)=none) → w.executing=0

variable {w w' : World ι ο ε}

/-- A fresh scheduler owns nothing. -/
theorem ownership_start (blank : Call ι) : Ownership (World.start (ο:=ο) (ε:=ε) blank) where
  lock := by simp [World.start,locked]
  nodup := by intro p; cases p <;> exact List.nodup_nil
  queued := by intro c p; cases p <;> simp [World.start,live,Scheduler.queue]
  doneClaimed := by simp [World.start]
  hasLeader := by simp [World.start,live]
  member := by simp [World.start,group]
  groupNodup := by simp [World.start,group]
  oneLeader := by simp [World.start,leads]
  busy := by simp [World.start,inBackend]
  idle := by simp [World.start]

/-- A caller at the loop head of an idle scheduler is alone: any leader would
own the mutex or keep the executing counter positive. -/
theorem Ownership.no_leader (h : Ownership w) {c : ℕ} (hphase : w.phase c=.checking)
    (hidle : w.executing=0) (l : ℕ) : leads (w.phase l)=false := by
  have hc : w.holder=some c := (h.lock c).mp (by rw [hphase]; rfl)
  by_contra hl
  rw [Bool.not_eq_false] at hl
  rcases leads_cases hl with hlock|⟨d,hd⟩
  · have he : c=l := Option.some.inj (hc.symm.trans ((h.lock l).mp hlock))
    rw [←he,hphase] at hl
    cases hl
  · obtain ⟨hlen,hne⟩ := h.busy l d hd
    have hpos := List.length_pos_iff.mpr hne
    omega

/-- With the mutex free no caller is at a locked point. -/
theorem Ownership.unlocked (h : Ownership w) (hfree : w.holder=none) (l : ℕ) :
    locked (w.phase l)=false := by
  have hl := h.lock l
  rw [hfree] at hl
  simpa using hl

/-- A claiming leader owns the mutex, so every other caller is elsewhere. -/
theorem Ownership.holder_of_locked (h : Ownership w) {c : ℕ} (hc : locked (w.phase c)=true)
    {l : ℕ} (hl : l≠c) : locked (w.phase l)=false := by
  have hholder := (h.lock c).mp hc
  have hother := h.lock l
  rw [hholder] at hother
  by_contra hn
  rw [Bool.not_eq_false] at hn
  exact hl (Option.some.inj (hother.mp hn)).symm

/-- Nobody else leads beside a leader. -/
theorem Ownership.alone (h : Ownership w) {c : ℕ} (hc : leads (w.phase c)=true) {l : ℕ}
    (hl : l≠c) : leads (w.phase l)=false := by
  by_contra hn
  rw [Bool.not_eq_false] at hn
  exact hl (h.oneLeader l c hn hc)

/-- A phase observation that the new program point keeps is kept everywhere. -/
theorem update_agrees {β : Type} (f : Phase ο ε → β) {phases : ℕ → Phase ο ε} {c : ℕ}
    {phase : Phase ο ε} (h : f phase=f (phases c)) (t : ℕ) :
    f (Function.update phases c phase t)=f (phases t) := by
  by_cases ht : t=c
  · rw [ht,Function.update_self,h]
  · rw [Function.update_of_ne ht]

/-- Releasing the mutex. -/
theorem Ownership.lock_release (h : Ownership w) {c : ℕ} {phase : Phase ο ε}
    (hc : locked (w.phase c)=true) (hphase : locked phase=false) (t : ℕ) :
    locked (Function.update w.phase c phase t)=true ↔ (none : Option ℕ)=some t := by
  by_cases ht : t=c
  · rw [ht,Function.update_self,hphase]
    simp
  · rw [Function.update_of_ne ht,h.holder_of_locked hc ht]
    simp

/-- Taking the free mutex. -/
theorem Ownership.lock_take (h : Ownership w) {c : ℕ} {phase : Phase ο ε}
    (hfree : w.holder=none) (hphase : locked phase=true) (t : ℕ) :
    locked (Function.update w.phase c phase t)=true ↔ some c=some t := by
  by_cases ht : t=c
  · rw [ht,Function.update_self,hphase]
    simp
  · rw [Function.update_of_ne ht,h.unlocked hfree t]
    simpa using Ne.symm ht

/-- Moving the mutex owner between locked program points. -/
theorem Ownership.lock_keep (h : Ownership w) {c : ℕ} {phase : Phase ο ε}
    (hc : locked (w.phase c)=true) (hphase : locked phase=true) (t : ℕ) :
    locked (Function.update w.phase c phase t)=true ↔ w.holder=some t := by
  rw [update_agrees locked (hphase.trans hc.symm)]
  exact h.lock t

/-- Moving a caller without making it a leader keeps leaders unique. -/
theorem Ownership.leader_keep (h : Ownership w) {c : ℕ} {phase : Phase ο ε}
    (hphase : leads phase=true → leads (w.phase c)=true) (l l' : ℕ)
    (hl : leads (Function.update w.phase c phase l)=true)
    (hl' : leads (Function.update w.phase c phase l')=true) : l=l' := by
  have back : ∀ t,leads (Function.update w.phase c phase t)=true → leads (w.phase t)=true := by
    intro t ht
    by_cases he : t=c
    · rw [he] at ht ⊢
      rw [Function.update_self] at ht
      exact hphase ht
    · rwa [Function.update_of_ne he] at ht
  exact h.oneLeader l l' (back l hl) (back l' hl')

/-- Transitions that keep queues, tickets and ticket rights only have to
account for the mutex and for leaders. -/
theorem Ownership.frame (h : Ownership w) (hqueue : ∀ p,w'.queue p=w.queue p)
    (hexecuting : w'.executing=w.executing) (hticket : w'.ticket=w.ticket)
    (hlive : ∀ t,live (w'.phase t)=live (w.phase t))
    (hgroup : ∀ t,group (w'.phase t)=group (w.phase t))
    (hback : ∀ t,inBackend (w'.phase t)=inBackend (w.phase t))
    (hlock : ∀ c,locked (w'.phase c)=true ↔ w'.holder=some c)
    (hone : ∀ l l',leads (w'.phase l)=true → leads (w'.phase l')=true → l=l') : Ownership w' where
  lock := hlock
  nodup := fun p => by rw [hqueue]; exact h.nodup p
  queued := fun c p => by rw [hqueue,hlive,hticket]; exact h.queued c p
  doneClaimed := fun c => by rw [hticket]; exact h.doneClaimed c
  hasLeader := fun c hl hc hd => by
    rw [hlive] at hl
    rw [hticket] at hc hd
    obtain ⟨l,hm⟩ := h.hasLeader c hl hc hd
    exact ⟨l,by rw [hgroup]; exact hm⟩
  member := fun l c hm => by
    rw [hgroup] at hm
    rw [hlive,hticket]
    exact h.member l c hm
  groupNodup := fun l => by rw [hgroup]; exact h.groupNodup l
  oneLeader := hone
  busy := fun l d hd => by
    rw [hback] at hd
    rw [hexecuting]
    exact h.busy l d hd
  idle := fun hn => by
    rw [hexecuting]
    exact h.idle fun l => by rw [←hback l]; exact hn l

/-- Waiting keeps ownership. -/
theorem Ownership.rest (h : Ownership w) {c : ℕ} (hphase : w.phase c=.checking) :
    Ownership (w.rest c) := by
  refine h.frame (fun _ => rfl) rfl rfl ?_ ?_ ?_ ?_ ?_
  · exact update_agrees live (by rw [hphase]; rfl)
  · exact update_agrees group (by rw [hphase]; rfl)
  · exact update_agrees inBackend (by rw [hphase]; rfl)
  · exact h.lock_release (by rw [hphase]; rfl) rfl
  · exact h.leader_keep (fun hn => by cases hn)

/-- Waking keeps ownership. -/
theorem Ownership.woken (h : Ownership w) {c : ℕ} (hphase : w.phase c=.waiting)
    (hfree : w.holder=none) : Ownership (w.woken c) := by
  refine h.frame (fun _ => rfl) rfl rfl ?_ ?_ ?_ ?_ ?_
  · exact update_agrees live (by rw [hphase]; rfl)
  · exact update_agrees group (by rw [hphase]; rfl)
  · exact update_agrees inBackend (by rw [hphase]; rfl)
  · exact h.lock_take hfree rfl
  · exact h.leader_keep (fun hn => by cases hn)

/-- A new leader starts with an empty group, and it is the only leader. -/
theorem Ownership.lead (h : Ownership w) {c : ℕ} (hphase : w.phase c=.checking)
    (hidle : w.executing=0) : Ownership (w.lead c) := by
  refine h.frame (fun _ => rfl) rfl rfl ?_ ?_ ?_ ?_ ?_
  · exact update_agrees live (by rw [hphase]; rfl)
  · exact update_agrees group (by rw [hphase]; rfl)
  · exact update_agrees inBackend (by rw [hphase]; rfl)
  · exact h.lock_keep (by rw [hphase]; rfl) rfl
  · have hself : ∀ l,leads ((w.lead c).phase l)=true → l=c := by
      intro l hl
      by_contra he
      rw [World.lead_phase,Function.update_of_ne he,h.no_leader hphase hidle l] at hl
      cases hl
    intro l l' hl hl'
    rw [hself l hl,hself l' hl']

/-- An empty dispatch gives up the lead. -/
theorem Ownership.retry (h : Ownership w) {c limit : ℕ} (hphase : w.phase c=.claiming limit []) :
    Ownership (w.retry c) := by
  refine h.frame (fun _ => rfl) rfl rfl ?_ ?_ ?_ ?_ ?_
  · exact update_agrees live (by rw [hphase]; rfl)
  · exact update_agrees group (by rw [hphase]; rfl)
  · exact update_agrees inBackend (by rw [hphase]; rfl)
  · exact h.lock_keep (by rw [hphase]; rfl) rfl
  · exact h.leader_keep (fun hn => by cases hn)

/-- The backend's answer changes no ownership. -/
theorem Ownership.answered (h : Ownership w) {c : ℕ} {dispatch : List ℕ}
    {result : Except (DispatchError ε) (List ο)} (hphase : w.phase c=.executing dispatch) :
    Ownership (w.answered c dispatch result) := by
  refine h.frame (fun _ => rfl) rfl rfl ?_ ?_ ?_ ?_ ?_
  · exact update_agrees live (by rw [hphase]; rfl)
  · exact update_agrees group (by rw [hphase]; rfl)
  · exact update_agrees inBackend (by rw [hphase]; rfl)
  · intro t
    rw [World.answered_phase,update_agrees locked (by rw [hphase]; rfl)]
    exact h.lock t
  · exact h.leader_keep (fun _ => by rw [hphase]; rfl)

/-- A ticket whose caller is at the loop head and done is in nobody's group. -/
theorem Ownership.finish (h : Ownership w) {c : ℕ} (hphase : w.phase c=.checking)
    (hdone : (w.ticket c).done=true) : Ownership (w.finish c) := by
  have hclaimed := h.doneClaimed c hdone
  have hfree : ∀ l,c∉group (w.phase l) := by
    intro l hm
    have hopen := (h.member l c hm).2.2.1
    rw [hdone] at hopen
    cases hopen
  constructor
  case lock => exact h.lock_release (by rw [hphase]; rfl) rfl
  case oneLeader => exact h.leader_keep (fun hn => by cases hn)
  case doneClaimed => exact h.doneClaimed
  case nodup => exact h.nodup
  all_goals
    have := h.queued
    have := h.hasLeader
    have := h.member
    have := h.groupNodup
    have := h.busy
    have := h.idle
    simp only [World.finish_phase,World.finish_ticket,World.finish_toScheduler,
      Function.update_apply]
    grind [live,group,inBackend]

/-- An abandoned ticket leaves its queue before its call ends. -/
theorem Ownership.abandon (h : Ownership w) {c recheck : ℕ} (hphase : w.phase c=.checking)
    (hclaimed : (w.ticket c).claimed=false) : Ownership (w.abandon c recheck) := by
  have hnodup := h.nodup
  have hqueued := h.queued
  have hfree : ∀ l,c∉group (w.phase l) := by
    intro l hm
    have hc := (h.member l c hm).2.1
    rw [hclaimed] at hc
    cases hc
  constructor
  case lock => exact h.lock_release (by rw [hphase]; rfl) rfl
  case oneLeader => exact h.leader_keep (fun hn => by cases hn)
  case doneClaimed => exact h.doneClaimed
  case nodup =>
    intro p
    rw [World.abandon_toScheduler,queue_withQueue]
    split
    · exact (hnodup _).erase c
    · exact hnodup p
  case queued =>
    intro t p
    have hmem := (hnodup p).mem_erase_iff (a:=t) (b:=c)
    simp only [World.abandon_phase,World.abandon_ticket,World.abandon_toScheduler,
      Function.update_apply,queue_withQueue]
    grind [live]
  all_goals
    have := h.hasLeader
    have := h.member
    have := h.groupNodup
    have := h.busy
    have := h.idle
    simp only [World.abandon_phase,World.abandon_ticket,World.abandon_toScheduler,
      Function.update_apply,executing_withQueue]
    grind [live,group,inBackend]

/-- A new caller's ticket is queued once and claimed by nobody. -/
theorem Ownership.entered (h : Ownership w) {c : ℕ} {call : Call ι} (hphase : w.phase c=.absent)
    (hfree : w.holder=none) : Ownership (w.entered c call) := by
  have hnodup := h.nodup
  have hqueued := h.queued
  have hout : ∀ p,c∉w.queue p := by
    intro p hm
    have hl := ((hqueued c p).mp hm).1
    rw [hphase] at hl
    cases hl
  have hnone : ∀ l,c∉group (w.phase l) := by
    intro l hm
    have hl := (h.member l c hm).1
    rw [hphase] at hl
    cases hl
  have hlead : ∀ l,leads (w.phase l)=true → l≠c := by
    intro l hl he
    rw [he,hphase] at hl
    cases hl
  constructor
  case lock => exact h.lock_take hfree rfl
  case oneLeader => exact h.leader_keep (fun hn => by cases hn)
  case nodup =>
    intro p
    rw [World.entered_toScheduler,queue_withQueue]
    split
    · exact List.nodup_append.mpr ⟨hnodup _,List.nodup_singleton c,by
        intro a ha b hb
        rw [List.mem_singleton.mp hb]
        exact fun he => hout _ (he ▸ ha)⟩
    · exact hnodup p
  case member =>
    intro l t
    have := h.member l t
    have := hlead l
    have hgroup : t∈group (w.phase l) → leads (w.phase l)=true := leads_of_group
    simp only [World.entered_phase,World.entered_ticket,Function.update_apply]
    grind [live,group]
  all_goals
    have := h.doneClaimed
    have := h.hasLeader
    have := h.groupNodup
    have := h.busy
    have := h.idle
    simp only [World.entered_phase,World.entered_ticket,World.entered_toScheduler,
      Function.update_apply,queue_withQueue,executing_withQueue]
    grind [live,group,inBackend]

/-- The front ticket of a queue is live and unclaimed, and leaves it for good. -/
theorem Ownership.front (h : Ownership w) {p : Bool} {member : ℕ} {rest : List ℕ}
    (hqueue : w.queue p=member::rest) :
    live (w.phase member)=true ∧ (w.ticket member).claimed=false ∧
      (w.ticket member).done=false ∧ (w.ticket member).call.prefill=p ∧ member∉rest ∧
      rest.Nodup ∧ ∀ l,member∉group (w.phase l) := by
  have hn := h.nodup p
  rw [hqueue,List.nodup_cons] at hn
  obtain ⟨hlive,hclaimed,hkind⟩ := (h.queued member p).mp (by rw [hqueue]; exact .head _)
  refine ⟨hlive,hclaimed,?_,hkind,hn.1,hn.2,fun l hm => ?_⟩
  · by_contra hd
    have hc := h.doneClaimed member (eq_true_of_ne_false hd)
    rw [hclaimed] at hc
    cases hc
  · have hc := (h.member l member hm).2.1
    rw [hclaimed] at hc
    cases hc

/-- The ticket chosen by `next` is at the head of the queue of its kind. -/
theorem Ownership.next_head (h : Ownership w) {c : ℕ} (hnext : w.next=some c) :
    (w.queue (w.ticket c).call.prefill).head?=some c := by
  have hhead : ∃ p,(w.queue p).head?=some c := by
    unfold Scheduler.next at hnext
    split at hnext
    · exact ⟨true,hnext⟩
    · exact ⟨false,hnext⟩
  obtain ⟨p,hp⟩ := hhead
  rw [((h.queued c p).mp (List.mem_of_mem_head? hp)).2.2]
  exact hp

/-- A dropped ticket is done as soon as it is claimed. -/
theorem Ownership.drop (h : Ownership w) {c member recheck : ℕ} {rest : List ℕ}
    (hqueue : w.queue (w.ticket c).call.prefill=member::rest) :
    Ownership (w.drop c member rest recheck) := by
  obtain ⟨hlive,hclaimed,hdone,hkind,hout,hrest,hnone⟩ := h.front hqueue
  have hnodup := h.nodup
  have hqueued := h.queued
  constructor
  case lock => exact h.lock
  case oneLeader => exact h.oneLeader
  case groupNodup => exact h.groupNodup
  all_goals
    have := h.doneClaimed
    have := h.hasLeader
    have := h.member
    have := h.busy
    have := h.idle
    simp only [World.drop_phase,World.drop_ticket,World.drop_toScheduler,
      Function.update_apply,queue_withQueue,executing_withQueue]
    grind

/-- A claimed live ticket moves from its queue into the leader's group. -/
theorem Ownership.take (h : Ownership w) {c limit member : ℕ} {storage rest : List ℕ}
    (hphase : w.phase c=.claiming limit storage)
    (hqueue : w.queue (w.ticket c).call.prefill=member::rest) :
    Ownership (w.take c limit storage member rest) := by
  obtain ⟨hlive,hclaimed,hdone,hkind,hout,hrest,hnone⟩ := h.front hqueue
  have hnodup := h.nodup
  have hqueued := h.queued
  have hstorage : member∉storage := by
    have hm := hnone c
    rwa [hphase] at hm
  have hgroup : ∀ l t,t∈group ((w.take c limit storage member rest).phase l) ↔
      t∈group (w.phase l) ∨ l=c ∧ t=member := by
    intro l t
    simp only [World.take_phase,Function.update_apply]
    grind [group]
  constructor
  case lock => exact h.lock_keep (by rw [hphase]; rfl) rfl
  case oneLeader => exact h.leader_keep (fun _ => by rw [hphase]; rfl)
  case hasLeader =>
    intro t hl hc hd
    by_cases ht : t=member
    · exact ⟨c,(hgroup c t).mpr (.inr ⟨rfl,ht⟩)⟩
    · rw [World.take_phase,update_agrees live (by rw [hphase]; rfl)] at hl
      rw [World.take_ticket,Function.update_of_ne ht] at hc hd
      obtain ⟨l,hm⟩ := h.hasLeader t hl hc hd
      exact ⟨l,(hgroup l t).mpr (.inl hm)⟩
  case member =>
    intro l t hm
    have hold := h.member l t
    rw [World.take_phase,update_agrees live (by rw [hphase]; rfl)]
    simp only [World.take_ticket,Function.update_apply]
    grind
  all_goals
    have := h.doneClaimed
    have := h.groupNodup
    have := h.busy
    have := h.idle
    simp only [World.take_phase,World.take_ticket,World.take_toScheduler,
      Function.update_apply,queue_withQueue,executing_withQueue]
    grind [live,group,inBackend,List.nodup_append]

/-- Entering the backend turns the claimed group into the dispatch. -/
theorem Ownership.launch (h : Ownership w) {c limit : ℕ} {storage : List ℕ}
    (hphase : w.phase c=.claiming limit storage) (hsome : storage≠[]) :
    Ownership (w.launch c storage) := by
  constructor
  case lock => exact h.lock_release (by rw [hphase]; rfl) rfl
  case oneLeader => exact h.leader_keep (fun _ => by rw [hphase]; rfl)
  case nodup => exact h.nodup
  case doneClaimed => exact h.doneClaimed
  case busy =>
    intro l d hd
    rw [World.launch_phase] at hd
    by_cases hl : l=c
    · rw [hl,Function.update_self] at hd
      cases hd
      exact ⟨rfl,hsome⟩
    · rw [Function.update_of_ne hl,(not_leads (h.alone (by rw [hphase]; rfl) hl)).2.2] at hd
      cases hd
  case queued =>
    intro t p
    rw [World.launch_phase,update_agrees live (by rw [hphase]; rfl)]
    exact h.queued t p
  all_goals
    have := h.hasLeader
    have := h.member
    have := h.groupNodup
    simp only [World.launch_phase,World.launch_ticket,World.launch_toScheduler,
      Function.update_apply]
    grind [live,group,inBackend]

/-- Delivery finishes exactly the members of the dispatch. -/
theorem Ownership.delivered (h : Ownership w) {c : ℕ} {dispatch : List ℕ}
    {result : Except (DispatchError ε) (List ο)} (hphase : w.phase c=.computed dispatch result)
    (hfree : w.holder=none) : Ownership (w.delivered c dispatch result) := by
  have hcall : ∀ t i,((w.ticket t).deliver i result).call=(w.ticket t).call := by
    intro t i
    cases result <;> rfl
  have hclaimed : ∀ t i,((w.ticket t).deliver i result).claimed=(w.ticket t).claimed := by
    intro t i
    cases result <;> rfl
  have hdone : ∀ t i,((w.ticket t).deliver i result).done=true := by
    intro t i
    cases result <;> rfl
  have hmember := h.member c
  rw [hphase] at hmember
  have halone : ∀ l,l≠c → group (w.phase l)=[] ∧ storage (w.phase l)=[] ∧
      inBackend (w.phase l)=none :=
    fun l hl => not_leads (h.alone (by rw [hphase]; rfl) hl)
  constructor
  case lock => exact h.lock_take hfree rfl
  case oneLeader => exact h.leader_keep (fun hn => by cases hn)
  case nodup => exact h.nodup
  case busy =>
    intro l d
    simp only [World.delivered_phase,Function.update_apply]
    grind [inBackend]
  case queued =>
    intro t p
    have hold := h.queued t p
    have hsame : (w.delivered c dispatch result).queue p=w.queue p := rfl
    rw [hsame,World.delivered_phase,update_agrees live (by rw [hphase]; rfl)]
    simp only [World.delivered_ticket]
    grind
  all_goals
    have := h.doneClaimed
    have := h.hasLeader
    have := h.member
    have := h.groupNodup
    simp only [World.delivered_phase,World.delivered_ticket,World.delivered_toScheduler,
      Function.update_apply]
    grind [live,group]

/-- Every transition keeps ownership. -/
theorem Ownership.transition (h : Ownership w) (hstep : Transition w w') : Ownership w' := by
  cases hstep with
  | configured => exact ⟨h.lock,h.nodup,h.queued,h.doneClaimed,h.hasLeader,h.member,
      h.groupNodup,h.oneLeader,h.busy,h.idle⟩
  | entered hphase hfree => exact h.entered hphase hfree
  | finish hphase hdone => exact h.finish hphase hdone
  | abandon hphase _ hclaimed _ => exact h.abandon hphase hclaimed
  | rest hphase => exact h.rest hphase
  | lead hphase _ _ hidle _ => exact h.lead hphase hidle
  | woken hphase hfree => exact h.woken hphase hfree
  | drop _ hqueue => exact h.drop hqueue
  | take hphase hqueue => exact h.take hphase hqueue
  | retry hphase => exact h.retry hphase
  | launch hphase _ hsome => exact h.launch hphase hsome
  | answered hphase => exact h.answered hphase
  | delivered hphase hfree => exact h.delivered hphase hfree
  | cancel => exact ⟨h.lock,h.nodup,h.queued,h.doneClaimed,h.hasLeader,h.member,
      h.groupNodup,h.oneLeader,h.busy,h.idle⟩

/-- Ownership holds at every point of every interleaving. -/
theorem ownership_reachable (h : (machine ι ο ε).Reachable w) : Ownership w := by
  refine Machine.Reachable.induct ?_ ?_ h
  · rintro s ⟨blank,rfl⟩
    exact ownership_start blank
  · intro s a t hs hone
    rcases step_transition hone with rfl|hstep
    · exact hs
    · exact hs.transition hstep

end Hllm.SchedulerTickets
