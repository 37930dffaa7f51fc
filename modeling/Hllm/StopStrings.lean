import Hllm.TextMatches
import Mathlib.Data.List.GetD

/-!
# Stop strings in generated text

`TextOutput` filters decoded pieces as they arrive. What may be the beginning
of a stop string is held back; once a stop string is complete, the text from
the earliest match on is withheld and the consumer stops feeding pieces. The
decoder and the final decode belong to the tokenizer and are inputs.
-/

namespace Hllm.StopStrings

open TextMatches

/-- `TextOutput` -/
structure TextOutput where
  stops : List (List Char)
  decoded : List Char
  pending : List Char
  stopped : Bool

/-- A new filter. -/
def TextOutput.init (stops : List (List Char)) : TextOutput := ⟨stops,[],[],false⟩

/-- The inner loop over the proper beginnings of one stop string: the longest
the pending text ends with, or what is retained already. -/
def longest (pending : List Char) (retained : ℕ) (stop : List Char) : ℕ :=
  ((List.range' 1 (min stop.length (pending.length+1)-1)).filter fun length =>
    (stop.take length).isSuffixOf pending).foldl max retained

/-- The end of the pending text that may begin a stop string. -/
def retained (stops : List (List Char)) (pending : List Char) : ℕ :=
  stops.foldl (longest pending) 0

/-- `_release` -/
def TextOutput.release (output : TextOutput) (text : List Char) (final : Bool) :
    TextOutput×List Char :=
  let pending := output.pending++text
  match (output.stops.filterMap fun stop => find stop pending).min? with
  | some first => ({output with pending := [], stopped := true},pending.take first)
  | none =>
    let retained := if final then 0 else retained output.stops pending
    let split := pending.length-retained
    ({output with pending := pending.drop split},pending.take split)

/-- `push`, with the piece the decoder gives for the token. -/
def TextOutput.push (output : TextOutput) (piece : List Char) : TextOutput×List Char :=
  {output with decoded := output.decoded++piece}.release piece false

/-- `finish`, with the decode of all tokens. -/
def TextOutput.finish (output : TextOutput) (full : List Char) :
    Except String (TextOutput×List Char) :=
  if output.stopped then .ok (output,[])
  else if output.decoded.isPrefixOf full then
    .ok (output.release (full.drop output.decoded.length) true)
  else .error "tokenizer decoder does not preserve streamed text"

/-- The consumer: pieces until the output has stopped. -/
def TextOutput.feed (output : TextOutput) : List (List Char) → TextOutput×List Char
  | [] => (output,[])
  | piece::pieces =>
    let first := output.push piece
    if first.1.stopped then first
    else
      let rest := first.1.feed pieces
      (rest.1,first.2++rest.2)

/-- The consumer to its end: all released text and whether it stopped. -/
def consume (stops pieces : List (List Char)) (full : List Char) :
    Except String (List Char×Bool) :=
  let fed := (TextOutput.init stops).feed pieces
  (fed.1.finish full).map fun finished => (fed.2++finished.2,finished.1.stopped)

/-- The fold of maxima is above its start and its members. -/
theorem le_foldl_max (xs : List ℕ) (a : ℕ) :
    a ≤ xs.foldl max a ∧ ∀ x∈xs,x ≤ xs.foldl max a := by
  induction xs generalizing a with
  | nil => exact ⟨Nat.le_refl a,fun x hx => by cases hx⟩
  | cons y xs ih =>
    obtain ⟨hbase,hmem⟩ := ih (max a y)
    refine ⟨(Nat.le_max_left a y).trans hbase,fun x hx => ?_⟩
    rcases List.mem_cons.mp hx with rfl|hx
    · exact (Nat.le_max_right a x).trans hbase
    · exact hmem x hx

/-- Later stop strings retain no less. -/
theorem le_foldl_longest (stops : List (List Char)) (pending : List Char) (a : ℕ) :
    a ≤ stops.foldl (longest pending) a := by
  induction stops generalizing a with
  | nil => exact Nat.le_refl a
  | cons stop stops ih => exact ((le_foldl_max _ a).1).trans (ih _)

/-- An end of the pending text that begins a stop string is retained. -/
theorem le_retained {stops : List (List Char)} {pending stop : List Char} {n : ℕ}
    (hstop : stop∈stops) (hn : 0 < n) (hlength : n < stop.length) (hfits : n ≤ pending.length)
    (hsuffix : stop.take n<:+pending) : n ≤ retained stops pending := by
  have hmember : n∈(List.range' 1 (min stop.length (pending.length+1)-1)).filter fun length =>
      (stop.take length).isSuffixOf pending := by
    rw [List.mem_filter,List.mem_range'_1]
    exact ⟨⟨hn,by omega⟩,List.isSuffixOf_iff_suffix.mpr hsuffix⟩
  obtain ⟨before,after,rfl⟩ := List.append_of_mem hstop
  rw [retained,List.foldl_append,List.foldl_cons]
  exact ((le_foldl_max _ _).2 n hmember).trans (le_foldl_longest _ _ _)

/-- What has been read and released, as long as no stop string is complete. -/
structure Holding (stops : List (List Char)) (output : TextOutput) (released : List Char) :
    Prop where
  same : output.stops=stops
  running : output.stopped=false
  text : output.decoded=released++output.pending
  clear : earliest stops output.decoded=none
  /-- Whatever may begin a stop string is still pending. -/
  held : ∀ stop∈stops,∀ p,p < output.decoded.length → output.decoded.drop p<+:stop →
    released.length ≤ p

/-- A new filter holds nothing. -/
theorem holding_init {stops : List (List Char)} (hstops : ∀ s∈stops,s≠[]) :
    Holding stops (TextOutput.init stops) [] where
  same := rfl
  running := rfl
  text := rfl
  clear := by
    rw [earliest_eq_none hstops]
    intro s hs p hp
    have hend := hp.end_le (hstops s hs)
    have hpos := List.length_pos_of_ne_nil (hstops s hs)
    have hempty : (TextOutput.init stops).decoded.length=0 := rfl
    omega
  held := fun _ _ _ _ _ => Nat.zero_le _

section Release

variable {stops : List (List Char)} (hstops : ∀ s∈stops,s≠[])

include hstops

/-- A stop string in the text with the next piece lies in the pending text. -/
theorem Holding.occursAt {output : TextOutput} {released : List Char}
    (h : Holding stops output released) {stop text : List Char} {p : ℕ} (hstop : stop∈stops)
    (hp : OccursAt stop (output.decoded++text) p) : released.length ≤ p := by
  have hlength : output.decoded.length=released.length+output.pending.length := by
    rw [h.text,List.length_append]
  by_contra hlt
  by_cases hend : p+stop.length ≤ output.decoded.length
  · have hbefore := occursAt_of_append hp hend
    exact (earliest_eq_none hstops).mp h.clear stop hstop p hbefore
  · have hprefix := drop_prefix_of_append hp (by omega) (by omega)
    have hle := h.held stop hstop p (by omega) hprefix
    omega

/-- The matches in the pending text are those in all of the text. -/
theorem Holding.min_find {output : TextOutput} {released : List Char}
    (h : Holding stops output released) (text : List Char) :
    earliest stops (output.decoded++text)=
      (earliest stops (output.pending++text)).map (released.length+·) := by
  have hall : output.decoded++text=released++(output.pending++text) := by
    rw [h.text,List.append_assoc]
  cases hpending : earliest stops (output.pending++text) with
  | none =>
    rw [earliest_eq_none hstops] at hpending
    rw [Option.map_none,earliest_eq_none hstops]
    intro s hs p hp
    have hle := h.occursAt hstops hs hp
    obtain ⟨q,rfl⟩ := Nat.exists_eq_add_of_le hle
    rw [hall,occursAt_append_left] at hp
    exact hpending s hs q hp
  | some first =>
    rw [earliest_eq_some hstops] at hpending
    obtain ⟨⟨s,hs,hp⟩,hfirst⟩ := hpending
    rw [Option.map_some,earliest_eq_some hstops]
    refine ⟨⟨s,hs,?_⟩,fun s' hs' q hq => ?_⟩
    · rw [hall,occursAt_append_left]
      exact hp
    · have hle := h.occursAt hstops hs' hq
      obtain ⟨q,rfl⟩ := Nat.exists_eq_add_of_le hle
      rw [hall,occursAt_append_left] at hq
      have hleast := hfirst s' hs' q hq
      omega

/-- One piece: either a stop string is complete and the text is cut before the
earliest match, or all that may begin one is held back. -/
theorem Holding.push {output : TextOutput} {released : List Char}
    (h : Holding stops output released) (piece : List Char) :
    (∃ first,earliest stops (output.decoded++piece)=some first ∧
      (output.push piece).1.stopped=true ∧
      released++(output.push piece).2=(output.decoded++piece).take first) ∨
    Holding stops (output.push piece).1 (released++(output.push piece).2) ∧
      (output.push piece).1.decoded=output.decoded++piece := by
  have hmatches := h.min_find hstops piece
  have hleast := TextMatches.min_find hstops (output.pending++piece)
  have hall : output.decoded++piece=released++(output.pending++piece) := by
    rw [h.text,List.append_assoc]
  unfold TextOutput.push TextOutput.release
  simp only [h.same,hleast]
  cases hpending : earliest stops (output.pending++piece) with
  | some first =>
    refine .inl ⟨released.length+first,?_,rfl,?_⟩
    · rw [hmatches,hpending]
      rfl
    · rw [hall,List.take_length_add_append]
  | none =>
    rw [hpending] at hmatches
    refine .inr ⟨⟨rfl,h.running,?_,hmatches,?_⟩,rfl⟩
    · simp only [Bool.false_eq_true,if_false]
      rw [hall,List.append_assoc,List.take_append_drop]
    · intro stop hstop p hp hprefix
      have hp' : p < (output.decoded++piece).length := hp
      have hprefix' : (output.decoded++piece).drop p<+:stop := hprefix
      simp only [Bool.false_eq_true,if_false,List.length_append,List.length_take]
      have hlength : output.decoded.length=released.length+output.pending.length := by
        rw [h.text,List.length_append]
      have hbefore : released.length ≤ p := by
        by_contra hlt
        have hshort : output.decoded.drop p<+:stop := by
          rw [List.drop_append_of_le_length (by omega)] at hprefix'
          exact (List.prefix_append _ _).trans hprefix'
        have hle := h.held stop hstop p (by omega) hshort
        omega
      rw [List.length_append] at hp'
      have hdrop : (output.decoded++piece).drop p=
          (output.pending++piece).drop (p-released.length) := by
        rw [hall,List.drop_append,List.drop_of_length_le hbefore,List.nil_append]
      have hcount : ((output.decoded++piece).drop p).length=
          output.decoded.length+piece.length-p := by
        rw [List.length_drop,List.length_append]
      have hproper : ((output.decoded++piece).drop p).length < stop.length := by
        have hle := hprefix'.length_le
        rcases Nat.lt_or_eq_of_le hle with hlt|heq
        · exact hlt
        · have hwhole := hprefix'.eq_of_length heq
          have hnone := (earliest_eq_none hstops).mp hmatches stop hstop p
          exact absurd (by rw [OccursAt,hwhole]) hnone
      have hretained := @le_retained stops (output.pending++piece) stop _ hstop
        (by omega) hproper (by rw [hcount,List.length_append]; omega) (by
          rw [←List.prefix_iff_eq_take.mp hprefix',hdrop]
          exact List.drop_suffix _ _)
      rw [hcount] at hretained
      omega

/-- All pieces: either the text up to some piece holds a stop string and is
cut before its earliest match, or nothing but the held back end is missing. -/
theorem Holding.feed {output : TextOutput} {released : List Char}
    (h : Holding stops output released) (pieces : List (List Char)) :
    (∃ seen first,seen<+:output.decoded++pieces.flatten ∧ earliest stops seen=some first ∧
      (output.feed pieces).1.stopped=true ∧
      released++(output.feed pieces).2=seen.take first) ∨
    Holding stops (output.feed pieces).1 (released++(output.feed pieces).2) ∧
      (output.feed pieces).1.decoded=output.decoded++pieces.flatten := by
  induction pieces generalizing output released with
  | nil =>
    refine .inr ⟨?_,?_⟩
    · rw [TextOutput.feed,List.append_nil]
      exact h
    · rw [TextOutput.feed,List.flatten_nil,List.append_nil]
  | cons piece pieces ih =>
    rw [TextOutput.feed,List.flatten_cons,←List.append_assoc]
    rcases h.push hstops piece with ⟨first,hearliest,hstopped,hcut⟩|⟨hnext,hdecoded⟩
    · rw [if_pos hstopped]
      exact .inl ⟨_,first,List.prefix_append _ _,hearliest,hstopped,hcut⟩
    · rw [if_neg (by rw [hnext.running]; exact Bool.false_ne_true)]
      rcases ih hnext with ⟨seen,first,hseen,hearliest,hstopped,hcut⟩|⟨hrest,htext⟩
      · rw [hdecoded] at hseen
        refine .inl ⟨seen,first,hseen,hearliest,hstopped,?_⟩
        rw [←List.append_assoc]
        exact hcut
      · rw [hdecoded] at htext
        refine .inr ⟨?_,htext⟩
        rw [←List.append_assoc]
        exact hrest

/-- The rest of the text at the end. -/
theorem Holding.finish {output : TextOutput} {released full : List Char}
    (h : Holding stops output released) (hfull : output.decoded<+:full) :
    ∃ finished,output.finish full=.ok finished ∧
      finished.1.stopped=(earliest stops full).isSome ∧
      released++finished.2=cut stops full := by
  obtain ⟨rest,rfl⟩ := hfull
  have hmatches := h.min_find hstops rest
  have hleast := TextMatches.min_find hstops (output.pending++rest)
  have hall : output.decoded++rest=released++(output.pending++rest) := by
    rw [h.text,List.append_assoc]
  have hprefix : output.decoded.isPrefixOf (output.decoded++rest)=true :=
    List.isPrefixOf_iff_prefix.mpr (List.prefix_append _ _)
  unfold TextOutput.finish
  rw [if_neg (by rw [h.running]; exact Bool.false_ne_true),if_pos hprefix,List.drop_left]
  refine ⟨_,rfl,?_⟩
  unfold TextOutput.release cut
  simp only [h.same,hleast,hmatches]
  cases hpending : earliest stops (output.pending++rest) with
  | some first =>
    refine ⟨rfl,?_⟩
    simp only [Option.map_some]
    rw [hall,List.take_length_add_append]
  | none =>
    refine ⟨h.running,?_⟩
    simp only [Option.map_none,if_true,Nat.sub_zero,List.take_length]
    exact hall.symm

/-- A first piece that holds a stop string is cut before its earliest match. -/
theorem consume_one {seen full : List Char} (hseen : seen<+:full) {first : ℕ}
    (hearliest : earliest stops seen=some first) :
    consume stops [seen] full=.ok (full.take first,true) := by
  have hdecoded : (TextOutput.init stops).decoded++seen=seen := rfl
  rcases (holding_init hstops).push hstops seen with ⟨first',hfirst,hstopped,hcut⟩|⟨hnext,htext⟩
  · rw [hdecoded,hearliest] at hfirst
    cases hfirst
    obtain ⟨⟨s,hs,hoccurs⟩,-⟩ := (earliest_eq_some hstops).mp hearliest
    have hend := hoccurs.end_le (hstops s hs)
    obtain ⟨rest,rfl⟩ := hseen
    unfold consume TextOutput.feed TextOutput.finish
    simp only [hstopped,if_true,Except.map,List.append_nil]
    rw [List.take_append_of_le_length (by omega)]
    exact congrArg (fun x => Except.ok (x,true)) hcut
  · have hclear := hnext.clear
    rw [htext,hdecoded,hearliest] at hclear
    cases hclear

/-- What the consumer gets: the text before the earliest match in some
beginning of the text, or before the earliest match in all of it. -/
theorem consume_cases {pieces : List (List Char)} {full : List Char}
    (hpieces : pieces.flatten<+:full) :
    (∃ seen first,seen<+:full ∧ earliest stops seen=some first ∧
      consume stops pieces full=.ok (full.take first,true)) ∨
    consume stops pieces full=.ok (cut stops full,(earliest stops full).isSome) := by
  rcases (holding_init hstops).feed hstops pieces with
    ⟨seen,first,hseen,hearliest,hstopped,hcut⟩|⟨hholding,hdecoded⟩
  · have hfull : seen<+:full := hseen.trans hpieces
    obtain ⟨rest,rfl⟩ := hfull
    obtain ⟨⟨s,hs,hoccurs⟩,-⟩ := (earliest_eq_some hstops).mp hearliest
    have hend := hoccurs.end_le (hstops s hs)
    refine .inl ⟨seen,first,List.prefix_append _ _,hearliest,?_⟩
    unfold consume TextOutput.finish
    simp only [hstopped,if_true,Except.map,List.append_nil]
    rw [List.take_append_of_le_length (by omega),←hcut]
    rfl
  · have hfull : ((TextOutput.init stops).feed pieces).1.decoded<+:full := by
      rw [hdecoded]
      exact hpieces
    obtain ⟨finished,hfinish,hstopped,hcut⟩ := hholding.finish hstops hfull
    refine .inr ?_
    unfold consume
    simp only [hfinish,Except.map,hstopped]
    rw [←hcut]
    rfl

end Release

/-- A pattern is in a text exactly if it begins somewhere. -/
theorem infix_iff_occursAt {pattern text : List Char} :
    pattern<:+:text ↔ ∃ p,OccursAt pattern text p := by
  constructor
  · rintro ⟨before,after,rfl⟩
    refine ⟨before.length,?_⟩
    unfold OccursAt
    rw [List.append_assoc,List.drop_left]
    exact List.prefix_append _ _
  · rintro ⟨p,hp⟩
    exact hp.isInfix.trans (List.drop_suffix p text).isInfix

/-- Whatever the pieces, the released text is a beginning of the full text
and holds no stop string. It is the full text unless the output stopped, and
then a stop string begins where it ends. -/
theorem consume_releases {stops pieces : List (List Char)} {full : List Char}
    (hstops : ∀ s∈stops,s≠[]) (hpieces : pieces.flatten<+:full) :
    ∃ released stopped,consume stops pieces full=.ok (released,stopped) ∧
      released<+:full ∧ (∀ s∈stops,¬s<:+:released) ∧ (stopped=false → released=full) ∧
      (stopped=true → ∃ s∈stops,OccursAt s full released.length) := by
  have hclear : ∀ text,∀ s∈stops,¬s<:+:cut stops text := by
    intro text s hs hinfix
    obtain ⟨p,hp⟩ := infix_iff_occursAt.mp hinfix
    exact (earliest_eq_none hstops).mp (earliest_cut hstops text) s hs p hp
  have hfound : ∀ {seen first},earliest stops seen=some first → seen<+:full →
      cut stops seen=full.take first ∧ ∃ s∈stops,OccursAt s full (full.take first).length := by
    rintro seen first hearliest ⟨rest,rfl⟩
    obtain ⟨⟨s,hs,hoccurs⟩,-⟩ := (earliest_eq_some hstops).mp hearliest
    have hend := hoccurs.end_le (hstops s hs)
    have htake : (seen++rest).take first=seen.take first :=
      List.take_append_of_le_length (by omega)
    have hlength : ((seen++rest).take first).length=first := by
      rw [htake,List.length_take]
      omega
    refine ⟨?_,s,hs,?_⟩
    · rw [htake,cut,hearliest]
    · rw [hlength]
      exact hoccurs.append (hstops s hs)
  rcases consume_cases hstops hpieces with ⟨seen,first,hseen,hearliest,hconsume⟩|hconsume
  · obtain ⟨hcut,hbegins⟩ := hfound hearliest hseen
    refine ⟨_,_,hconsume,List.take_prefix _ _,?_,fun h => (by cases h),fun _ => hbegins⟩
    rw [←hcut]
    exact hclear seen
  · refine ⟨_,_,hconsume,?_,hclear full,?_⟩
    · unfold cut
      split
      · exact List.prefix_rfl
      · exact List.take_prefix _ _
    · cases hearliest : earliest stops full with
      | none =>
        refine ⟨fun _ => ?_,fun h => (by cases h)⟩
        rw [cut,hearliest]
      | some first =>
        obtain ⟨hcut,hbegins⟩ := hfound hearliest List.prefix_rfl
        refine ⟨fun h => (by cases h),fun _ => ?_⟩
        rw [hcut]
        exact hbegins

/-- A stop string over three pieces. -/
theorem consume_releases_hello :
    ∃ released stopped,consume ["lo w".toList] ["hel".toList,"lo".toList," world".toList]
        "hello world".toList=.ok (released,stopped) ∧ released<+:"hello world".toList ∧
      (∀ s∈["lo w".toList],¬s<:+:released) ∧ (stopped=false → released="hello world".toList) ∧
      (stopped=true → ∃ s∈["lo w".toList],OccursAt s "hello world".toList released.length) :=
  consume_releases (by decide) (by decide)

/-- No stop string is completed before one that begins earlier, unless another
that begins no later than both is complete by then. -/
def EarliestCompletesFirst (stops : List (List Char)) (text : List Char) : Prop :=
  ∀ s∈stops,∀ p,OccursAt s text p → ∀ s'∈stops,∀ p',OccursAt s' text p' → p < p' →
    ∃ s''∈stops,∃ p'',OccursAt s'' text p'' ∧ p'' ≤ p ∧ p''+s''.length ≤ p'+s'.length

/-- All ways of cutting a text into pieces give the text before the earliest
stop string exactly if no later stop string is completed before it. -/
theorem consume_cut_iff {stops : List (List Char)} (hstops : ∀ s∈stops,s≠[]) (text : List Char) :
    (∀ pieces : List (List Char),pieces.flatten<+:text →
      consume stops pieces text=.ok (cut stops text,(earliest stops text).isSome)) ↔
    EarliestCompletesFirst stops text := by
  constructor
  · intro hall s hs p hp s' hs' p' hp' hlt
    have hend := hp'.end_le (hstops s' hs')
    let seen := text.take (p'+s'.length)
    have hseen : seen<+:text := List.take_prefix _ _
    have hlength : seen.length=p'+s'.length := by
      rw [List.length_take]
      omega
    have htext : text=seen++text.drop (p'+s'.length) := (List.take_append_drop _ _).symm
    have hoccurs : OccursAt s' seen p' := by
      rw [htext] at hp'
      exact occursAt_of_append hp' (by omega)
    cases hearliest : earliest stops seen with
    | none => exact absurd hoccurs ((earliest_eq_none hstops).mp hearliest s' hs' p')
    | some first =>
      obtain ⟨⟨s'',hs'',hfirst⟩,-⟩ := (earliest_eq_some hstops).mp hearliest
      have hend'' := hfirst.end_le (hstops s'' hs'')
      have hwhole : OccursAt s'' text first := by
        rw [htext]
        exact hfirst.append (hstops s'' hs'')
      refine ⟨s'',hs'',first,hwhole,?_,by omega⟩
      have hconsume := hall [seen] (by rw [List.flatten_singleton]; exact hseen)
      obtain ⟨least,hleast⟩ : ∃ least,earliest stops text=some least := by
        cases hnone : earliest stops text with
        | none => exact absurd hp ((earliest_eq_none hstops).mp hnone s hs p)
        | some least => exact ⟨least,rfl⟩
      have hbefore := ((earliest_eq_some hstops).mp hleast).2 s hs p hp
      rw [consume_one hstops hseen hearliest,cut,hleast] at hconsume
      have htake : text.take first=text.take least := (Prod.mk.inj (Except.ok.inj hconsume)).1
      have hcount := congrArg List.length htake
      rw [List.length_take,List.length_take] at hcount
      omega
  · intro hcompletes pieces hpieces
    rcases consume_cases hstops hpieces with ⟨seen,first,hseen,hearliest,hconsume⟩|hconsume
    · obtain ⟨rest,rfl⟩ := hseen
      obtain ⟨⟨s,hs,hoccurs⟩,hfirst⟩ := (earliest_eq_some hstops).mp hearliest
      have hend := hoccurs.end_le (hstops s hs)
      have hwhole : OccursAt s (seen++rest) first := hoccurs.append (hstops s hs)
      have hleast : earliest stops (seen++rest)=some first := by
        rw [earliest_eq_some hstops]
        refine ⟨⟨s,hs,hwhole⟩,fun s' hs' q hq => ?_⟩
        by_contra hlt
        obtain ⟨s'',hs'',q'',hq'',hle,hends⟩ := hcompletes s' hs' q hq s hs first hwhole (by omega)
        have hbefore := occursAt_of_append hq'' (by omega)
        have hfirst'' := hfirst s'' hs'' q'' hbefore
        omega
      rw [hconsume,cut,hleast]
      rfl
    · exact hconsume

/-- Places within the text are enough. -/
theorem earliestCompletesFirst_of_places {stops : List (List Char)} {text : List Char}
    (hstops : ∀ s∈stops,s≠[])
    (h : ∀ s∈stops,∀ p∈List.range text.length,OccursAt s text p →
      ∀ s'∈stops,∀ p'∈List.range text.length,OccursAt s' text p' → p < p' →
        ∃ s''∈stops,∃ p''∈List.range text.length,
          OccursAt s'' text p'' ∧ p'' ≤ p ∧ p''+s''.length ≤ p'+s'.length) :
    EarliestCompletesFirst stops text := by
  have hplace : ∀ s∈stops,∀ p,OccursAt s text p → p∈List.range text.length := by
    intro s hs p hp
    have hend := hp.end_le (hstops s hs)
    have hlength := List.length_pos_iff.mpr (hstops s hs)
    rw [List.mem_range]
    omega
  intro s hs p hp s' hs' p' hp' hlt
  obtain ⟨s'',hs'',p'',-,hfound⟩ :=
    h s hs p (hplace s hs p hp) hp s' hs' p' (hplace s' hs' p' hp') hp' hlt
  exact ⟨s'',hs'',p'',hfound⟩

/-- Two stop strings that overlap, the earlier one complete no later, in pieces
that end within both. -/
theorem consume_cut_overlapping :
    consume ["abc".toList,"bcd".toList] ["aa".toList,"b".toList,"cd".toList] "aabcd".toList=
      .ok ("a".toList,true) :=
  (consume_cut_iff (by decide) "aabcd".toList).mpr
    (earliestCompletesFirst_of_places (by decide) (by decide +kernel)) _ (by decide)

/-- A stop string within another: token by token it is completed first, while
the whole text is cut before the other. -/
theorem overlapping_stops_depend_on_pieces :
    consume ["abcd".toList,"bc".toList] ["a".toList,"b".toList,"c".toList,"d".toList]
        "abcd".toList=.ok ("a".toList,true) ∧
      consume ["abcd".toList,"bc".toList] ["abcd".toList] "abcd".toList=.ok ([],true) ∧
      cut ["abcd".toList,"bc".toList] "abcd".toList=[] := by
  decide +kernel

end Hllm.StopStrings
