import Hllm.Traversals

/-!
# Conversions that undo each other

Two conversions that may fail mirror each other when what the first makes of a
canonical value is turned back by the second, and what the second makes of a
message in range is turned back by the first. Lists and optional values of
mirrored conversions are mirrored.
-/

namespace Hllm.MirroredConversions

open Traversals

variable {α β ε : Type}

/-- Two conversions undo each other. -/
structure Mirrors (encode : α → Except ε β) (decode : β → Except ε α) (canonical : α → Prop)
    (inRange : β → Prop) : Prop where
  /-- What was encoded decodes to the same value. -/
  forth : ∀ {a b},canonical a → encode a=.ok b → decode b=.ok a
  /-- What was decoded encodes to the same message. -/
  back : ∀ {a b},inRange b → decode b=.ok a → encode a=.ok b

variable {encode : α → Except ε β} {decode : β → Except ε α} {canonical : α → Prop}
  {inRange : β → Prop}

/-- A conversion of lists is undone if it is undone for every element. -/
theorem mapM_undone {first : α → Except ε β} {second : β → Except ε α} {as : List α} {bs : List β}
    (hundone : ∀ a b,a∈as → b∈bs → first a=.ok b → second b=.ok a) (h : as.mapM first=.ok bs) :
    bs.mapM second=.ok as := by
  rw [mapM_ok_iff] at h ⊢
  induction as generalizing bs with
  | nil =>
    cases bs with
    | nil => rfl
    | cons b bs => cases h
  | cons a as ih =>
    cases bs with
    | nil => cases h
    | cons b bs =>
      rw [List.map_cons,List.map_cons,List.cons.injEq] at h
      have hrest : ∀ a' b',a'∈as → b'∈bs → first a'=.ok b' → second b'=.ok a' :=
        fun a' b' ha hb => hundone a' b' (List.mem_cons_of_mem _ ha) (List.mem_cons_of_mem _ hb)
      rw [List.map_cons,List.map_cons,ih hrest h.2,
        hundone a b List.mem_cons_self List.mem_cons_self h.1]

/-- Mirrored conversions of the elements of lists. -/
theorem Mirrors.list (h : Mirrors encode decode canonical inRange) :
    Mirrors (fun as : List α => as.mapM encode) (fun bs : List β => bs.mapM decode)
      (fun as => ∀ a∈as,canonical a) (fun bs => ∀ b∈bs,inRange b) where
  forth hcanonical hencode :=
    mapM_undone (fun a _ ha _ hone => h.forth (hcanonical a ha) hone) hencode
  back hrange hdecode :=
    mapM_undone (fun b _ hb _ hone => h.back (hrange b hb) hone) hdecode

/-- A conversion of an optional value is undone if it is undone for the value. -/
theorem option_undone {first : α → Except ε β} {second : β → Except ε α} {a : Option α}
    {b : Option β} (hundone : ∀ x y,a=some x → first x=.ok y → second y=.ok x)
    (h : a.mapM first=.ok b) : b.mapM second=.ok a := by
  cases a with
  | none =>
    cases h
    rfl
  | some x =>
    cases hx : first x with
    | error e =>
      rw [Option.mapM_some,hx] at h
      cases h
    | ok y =>
      rw [Option.mapM_some,hx] at h
      cases h
      rw [Option.mapM_some,hundone x y rfl hx]
      rfl

/-- Mirrored conversions of an optional value. -/
theorem Mirrors.option (h : Mirrors encode decode canonical inRange) :
    Mirrors (fun a : Option α => a.mapM encode) (fun b : Option β => b.mapM decode)
      (fun a => ∀ x,a=some x → canonical x) (fun b => ∀ y,b=some y → inRange y) where
  forth hcanonical hencode :=
    option_undone (fun x _ hx hone => h.forth (hcanonical x hx) hone) hencode
  back hrange hdecode :=
    option_undone (fun y _ hy hone => h.back (hrange y hy) hone) hdecode

end Hllm.MirroredConversions
