import Hllm.SchedulerFairness

/-!
# The size of a dispatch

A dispatch serves one request, or up to the configured number of decodes if
the leader's backend can batch. The limit is read once when the claim loop
is entered, and the configuration may not change while a dispatch is formed
or computed.
-/

namespace Hllm.SchedulerBatches

open SchedulerModel SchedulerTickets SchedulerFairness RunInvariants

variable {ι ο ε : Type}

/-- Most members of a dispatch led by the given caller. -/
def rowLimit (w : World ι ο ε) (l : ℕ) : ℕ :=
  if (w.ticket l).call.prefill || !(w.ticket l).call.batchSupported then 1
  else w.maximumDecodeBatch

/-- A phase claims or computes no more than the given number of tickets. -/
def Within (rows : ℕ) : Phase ο ε → Prop
  | .claiming limit _ => limit ≤ rows
  | .executing dispatch => dispatch.length ≤ rows
  | .computed dispatch _ => dispatch.length ≤ rows
  | _ => True

/-- No leader exceeds the limit of its call. -/
def Sized (w : World ι ο ε) : Prop := ∀ l,Within (rowLimit w l) (w.phase l)

variable {w w' : World ι ο ε}

/-- The limit the code computes is never above the row limit. -/
theorem limit_le_rowLimit (w : World ι ο ε) (l : ℕ) :
    w.limit (w.ticket l).call ≤ rowLimit w l := by
  simp only [Scheduler.limit,rowLimit]
  split
  · exact Nat.min_le_left _ _
  · exact Nat.le_refl _

/-- The row limit depends on the call and the configuration only. -/
theorem rowLimit_congr {l : ℕ} (hcall : (w'.ticket l).call=(w.ticket l).call)
    (hbatch : w'.maximumDecodeBatch=w.maximumDecodeBatch) : rowLimit w' l=rowLimit w l := by
  unfold rowLimit
  rw [hcall,hbatch]

/-- Moving one caller to a phase within its limit. -/
theorem Sized.move (h : Sized w) {c : ℕ} {phase : Phase ο ε}
    (hcall : ∀ l,l≠c → (w'.ticket l).call=(w.ticket l).call)
    (hbatch : w'.maximumDecodeBatch=w.maximumDecodeBatch)
    (hphase : w'.phase=Function.update w.phase c phase) (hnew : Within (rowLimit w' c) phase) :
    Sized w' := by
  intro l
  rw [hphase]
  by_cases he : l=c
  · rw [he,Function.update_self]
    exact hnew
  · rw [Function.update_of_ne he,rowLimit_congr (hcall l he) hbatch]
    exact h l

/-- Moving no caller. -/
theorem Sized.stay (h : Sized w) (hcall : ∀ l,(w'.ticket l).call=(w.ticket l).call)
    (hbatch : w'.maximumDecodeBatch=w.maximumDecodeBatch) (hphase : w'.phase=w.phase) :
    Sized w' := by
  intro l
  rw [hphase,rowLimit_congr (hcall l) hbatch]
  exact h l

/-- A ticket rewritten in place keeps its call. -/
theorem update_call {ticket : ℕ → Ticket ι ο ε} {c : ℕ} {changed : Ticket ι ο ε}
    (h : changed.call=(ticket c).call) (l : ℕ) :
    (Function.update ticket c changed l).call=(ticket l).call := by
  by_cases he : l=c
  · rw [he,Function.update_self]
    exact h
  · rw [Function.update_of_ne he]

/-- Delivery keeps the call of a ticket. -/
theorem deliver_call (ticket : Ticket ι ο ε) (i : ℕ) (result : Except (DispatchError ε) (List ο)) :
    (ticket.deliver i result).call=ticket.call := by
  cases result <;> rfl

/-- Every transition that keeps the configuration keeps the sizes. -/
theorem Sized.transition (h : Sized w) (hfair : Fair w) (hstep : Transition w w')
    (hbatch : w'.maximumDecodeBatch=w.maximumDecodeBatch) : Sized w' := by
  cases hstep with
  | configured _ _ _ => exact h.stay (fun _ => rfl) hbatch rfl
  | entered _ _ =>
    exact h.move (fun l hl => by rw [World.entered_ticket,Function.update_of_ne hl]) hbatch rfl
      trivial
  | finish _ _ => exact h.move (fun _ _ => rfl) hbatch rfl trivial
  | abandon _ _ _ _ => exact h.move (fun _ _ => rfl) hbatch rfl trivial
  | rest _ _ _ => exact h.move (fun _ _ => rfl) hbatch rfl trivial
  | lead _ _ _ _ _ => exact h.move (fun _ _ => rfl) hbatch rfl (limit_le_rowLimit w _)
  | woken _ _ => exact h.move (fun _ _ => rfl) hbatch rfl trivial
  | drop _ _ _ _ => exact h.stay (update_call rfl) hbatch rfl
  | @take c _ _ _ _ _ hphase _ _ _ =>
    have hlimit := h c
    rw [hphase] at hlimit
    refine h.move (fun l _ => update_call (by rfl) l) hbatch rfl ?_
    rw [rowLimit_congr (update_call (by rfl) c) hbatch]
    exact hlimit
  | retry _ _ => exact h.move (fun _ _ => rfl) hbatch rfl trivial
  | @launch c _ _ hphase _ _ =>
    have hlimit := h c
    rw [hphase] at hlimit
    have hfull := (hfair.limit _ _ _ hphase).2.2
    exact h.move (fun _ _ => rfl) hbatch rfl (Nat.le_trans hfull hlimit)
  | @answered c _ _ hphase =>
    have hlimit := h c
    rw [hphase] at hlimit
    exact h.move (fun _ _ => rfl) hbatch rfl hlimit
  | delivered _ _ =>
    refine h.move (fun l _ => ?_) hbatch rfl trivial
    rw [World.delivered_ticket]
    split
    · exact deliver_call _ _ _
    · rfl
  | cancel => exact h

end Hllm.SchedulerBatches
