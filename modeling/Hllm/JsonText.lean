import Mathlib.Data.List.Sort
import Mathlib.Data.String.Basic
import Mathlib.Data.Nat.Basic
import Mathlib.Tactic.IntervalCases

/-!
# Compact JSON text

Values without fractions, signs or exponents, and the compact text both
standard writers produce for them: no blanks, object members in ascending
key order, and only quotes, backslashes and control characters escaped. The
text determines the value. The proof reads one value from the front of the
text, with the rest of the text as a continuation that starts no digit.
-/

namespace Hllm.JsonText

/-- JSON values with natural numbers only. -/
inductive Json
  | null
  | bool (value : Bool)
  | number (value : ℕ)
  | string (value : String)
  | array (items : List Json)
  | object (members : List (String×Json))

/-- An object as a sorted map holds it. -/
def Json.sorted (members : List (String×Json)) : Json :=
  .object (members.insertionSort fun a b => a.1 ≤ b.1)

/-- Text of one character inside a string. -/
def escapeChar (c : Char) : List Char :=
  if c = '"' then ['\\','"']
  else if c = '\\' then ['\\','\\']
  else if c.toNat=8 then ['\\','b']
  else if c.toNat=9 then ['\\','t']
  else if c.toNat=10 then ['\\','n']
  else if c.toNat=12 then ['\\','f']
  else if c.toNat=13 then ['\\','r']
  else if c.toNat<32 then
    ['\\','u','0','0',Nat.digitChar (c.toNat/16),Nat.digitChar (c.toNat%16)]
  else [c]

/-- Characters of a string without its quotes. -/
def escape (cs : List Char) : List Char := cs.flatMap escapeChar

/-- Text of a string. -/
def dumpString (s : String) : List Char := '"'::(escape s.toList++['"'])

mutual
/-- Compact text of a value. -/
def dump : Json → List Char
  | .null => ['n','u','l','l']
  | .bool true => ['t','r','u','e']
  | .bool false => ['f','a','l','s','e']
  | .number n => Nat.toDigits 10 n
  | .string s => dumpString s
  | .array [] => ['[',']']
  | .array (item::items) => '['::(dump item++dumpItems items++[']'])
  | .object [] => ['\x7b','\x7d']
  | .object ((key,value)::members) =>
    '\x7b'::(dumpString key ++ ':'::(dump value++dumpMembers members)++['\x7d'])
/-- Further items, each after a comma. -/
def dumpItems : List Json → List Char
  | [] => []
  | item::items => ','::(dump item++dumpItems items)
/-- Further members, each after a comma. -/
def dumpMembers : List (String×Json) → List Char
  | [] => []
  | (key,value)::members => ','::(dumpString key ++ ':'::(dump value++dumpMembers members))
end

/-- The whole text. -/
def text (value : Json) : String := String.ofList (dump value)

/-- Value of a hexadecimal digit as `escapeChar` writes it. -/
def hexValue (c : Char) : ℕ := if c.toNat<58 then c.toNat-48 else c.toNat-87

/-- Read one character of a string back. -/
def unescape : List Char → Option (Char×List Char)
  | '\\' :: 'b'::rest => some (Char.ofNat 8,rest)
  | '\\' :: 't'::rest => some (Char.ofNat 9,rest)
  | '\\' :: 'n'::rest => some (Char.ofNat 10,rest)
  | '\\' :: 'f'::rest => some (Char.ofNat 12,rest)
  | '\\' :: 'r'::rest => some (Char.ofNat 13,rest)
  | '\\' :: 'u'::_::_::high::low::rest => some (Char.ofNat (16*hexValue high+hexValue low),rest)
  | '\\'::c::rest => some (c,rest)
  | c::rest => some (c,rest)
  | [] => none

/-- Control characters are read back from their code points. -/
theorem unescape_control : ∀ n<32,∀ rest,
    unescape (escapeChar (Char.ofNat n)++rest)=some (Char.ofNat n,rest) := by
  intro n hn rest
  interval_cases n <;> rfl

/-- Every character is read back from its text, whatever follows it. -/
theorem unescape_escapeChar (c : Char) (rest : List Char) :
    unescape (escapeChar c++rest)=some (c,rest) := by
  by_cases hcontrol : c.toNat<32
  · have h := unescape_control c.toNat hcontrol rest
    rwa [Char.ofNat_toNat] at h
  · by_cases hquote : c = '"'
    · subst hquote
      rfl
    · by_cases hslash : c = '\\'
      · subst hslash
        rfl
      · have hplain : escapeChar c=[c] := by
          unfold escapeChar
          rw [if_neg hquote,if_neg hslash,if_neg (by omega),if_neg (by omega),if_neg (by omega),
            if_neg (by omega),if_neg (by omega),if_neg hcontrol]
        rw [hplain]
        simp [unescape,hslash]

/-- A character's text starts with no quote. -/
theorem escapeChar_head (c : Char) : ∃ head rest,escapeChar c=head::rest ∧ head ≠ '"' := by
  unfold escapeChar
  split
  · exact ⟨_,_,rfl,by decide⟩
  · rename_i hquote
    repeat' split
    all_goals exact ⟨_,_,rfl,by first | decide | assumption⟩

/-- Escaped characters up to the closing quote are determined by their text. -/
theorem escape_unique (cs cs' rest rest' : List Char)
    (h : escape cs ++ '"'::rest=escape cs' ++ '"'::rest') : cs=cs' ∧ rest=rest' := by
  induction cs generalizing cs' with
  | nil =>
    cases cs' with
    | nil => exact ⟨rfl,(List.cons.inj h).2⟩
    | cons c cs' =>
      obtain ⟨head,tail,hc,hhead⟩ := escapeChar_head c
      simp only [escape,List.flatMap_nil,List.nil_append,List.flatMap_cons,hc,
        List.cons_append] at h
      exact absurd (List.cons.inj h).1.symm hhead
  | cons c cs ih =>
    cases cs' with
    | nil =>
      obtain ⟨head,tail,hc,hhead⟩ := escapeChar_head c
      simp only [escape,List.flatMap_nil,List.nil_append,List.flatMap_cons,hc,
        List.cons_append] at h
      exact absurd (List.cons.inj h).1 hhead
    | cons c' cs' =>
      simp only [escape,List.flatMap_cons,List.append_assoc] at h
      have hread := congrArg unescape h
      rw [unescape_escapeChar,unescape_escapeChar] at hread
      obtain ⟨hc,htail⟩ := Prod.mk.inj (Option.some.inj hread)
      obtain ⟨hcs,hrest⟩ := ih cs' htail
      exact ⟨by rw [hc,hcs],hrest⟩

/-- A string is determined by its text, whatever follows. -/
theorem dumpString_unique {s s' : String} {rest rest' : List Char}
    (h : dumpString s++rest=dumpString s'++rest') : s=s' ∧ rest=rest' := by
  simp only [dumpString,List.cons_append,List.append_assoc,List.nil_append] at h
  obtain ⟨hs,hrest⟩ := escape_unique _ _ _ _ (List.cons.inj h).2
  exact ⟨String.toList_inj.mp hs,hrest⟩

/-- The text goes on with something that does not extend a number. -/
def Stops (rest : List Char) : Prop := ∀ c∈rest.head?,c.isDigit=false

/-- Digits up to a stop are determined by the text. -/
theorem digits_unique {ds ds' rest rest' : List Char} (hds : ∀ c∈ds,c.isDigit=true)
    (hds' : ∀ c∈ds',c.isDigit=true) (hrest : Stops rest) (hrest' : Stops rest')
    (h : ds++rest=ds'++rest') : ds=ds' ∧ rest=rest' := by
  induction ds generalizing ds' with
  | nil =>
    cases ds' with
    | nil => exact ⟨rfl,h⟩
    | cons d ds' =>
      rw [List.nil_append] at h
      have hstop := hrest d (by rw [h]; rfl)
      rw [hds' d (.head _)] at hstop
      cases hstop
  | cons d ds ih =>
    cases ds' with
    | nil =>
      rw [List.nil_append] at h
      have hstop := hrest' d (by rw [←h]; rfl)
      rw [hds d (.head _)] at hstop
      cases hstop
    | cons d' ds' =>
      obtain ⟨hd,htail⟩ := List.cons.inj h
      obtain ⟨hs,hr⟩ := ih (fun c hc => hds c (.tail _ hc)) (fun c hc => hds' c (.tail _ hc)) htail
      exact ⟨by rw [hd,hs],hr⟩

/-- A number is determined by its text up to a stop. -/
theorem number_unique {n n' : ℕ} {rest rest' : List Char} (hrest : Stops rest)
    (hrest' : Stops rest') (h : Nat.toDigits 10 n++rest=Nat.toDigits 10 n'++rest') :
    n=n' ∧ rest=rest' := by
  have hdigit : ∀ m,∀ c∈Nat.toDigits 10 m,c.isDigit=true :=
    fun m c hc => Nat.isDigit_of_mem_toDigits (by decide) (by decide) hc
  obtain ⟨hds,hr⟩ := digits_unique (hdigit n) (hdigit n') hrest hrest' h
  refine ⟨?_,hr⟩
  rw [←Nat.ofDigitChars_ten_toDigits (n:=n),←Nat.ofDigitChars_ten_toDigits (n:=n'),hds]

/-- First character of each kind of value. -/
inductive Head
  | null | yes | no | digit | quote | bracket | brace
  deriving DecidableEq

/-- The kind of value a character starts. -/
def headOf (c : Char) : Option Head :=
  if c = 'n' then some .null else if c = 't' then some .yes else if c = 'f' then some .no
  else if c = '"' then some .quote else if c = '[' then some .bracket
  else if c = '\x7b' then some .brace else if c.isDigit then some .digit else none

/-- The kind of a value. -/
def kindOf : Json → Head
  | .null => .null
  | .bool true => .yes
  | .bool false => .no
  | .number _ => .digit
  | .string _ => .quote
  | .array _ => .bracket
  | .object _ => .brace

/-- The first character tells the kind of the value. -/
theorem headOf_dump (value : Json) :
    ∃ head rest,dump value=head::rest ∧ headOf head=some (kindOf value) := by
  cases value with
  | null => exact ⟨'n',_,rfl,rfl⟩
  | bool b => cases b <;> exact ⟨_,_,rfl,rfl⟩
  | string s => exact ⟨'"',_,rfl,rfl⟩
  | array items => cases items <;> exact ⟨'[',_,by rw [dump],rfl⟩
  | object members => cases members <;> exact ⟨'\x7b',_,by rw [dump],rfl⟩
  | number n =>
    cases hd : Nat.toDigits 10 n with
    | nil => exact absurd hd Nat.toDigits_ne_nil
    | cons d ds =>
      have hdigit : d.isDigit=true :=
        Nat.isDigit_of_mem_toDigits (by decide) (by decide) (hd ▸ List.mem_cons_self)
      refine ⟨d,ds,by rw [dump,hd],?_⟩
      have hne : ∀ c : Char,c.isDigit=false → d≠c := by
        rintro c hc rfl
        rw [hdigit] at hc
        cases hc
      simp [headOf,kindOf,hdigit,hne _ (by decide : 'n'.isDigit=false),
        hne _ (by decide : 't'.isDigit=false),hne _ (by decide : 'f'.isDigit=false),
        hne _ (by decide : '"'.isDigit=false),hne _ (by decide : '['.isDigit=false),
        hne _ (by decide : '\x7b'.isDigit=false)]

/-- Values with one text have one kind. -/
theorem kindOf_unique {value value' : Json} {rest rest' : List Char}
    (h : dump value++rest=dump value'++rest') : kindOf value=kindOf value' := by
  obtain ⟨c,cs,hc,hk⟩ := headOf_dump value
  obtain ⟨c',cs',hc',hk'⟩ := headOf_dump value'
  rw [hc,hc'] at h
  rw [(List.cons.inj h).1,hk'] at hk
  exact (Option.some.inj hk).symm

/-- A value's text starts with none of the closing brackets or separators. -/
theorem dump_head_ne {value : Json} {c : Char} {rest rest' : List Char} (hc : headOf c=none)
    (h : dump value++rest=c::rest') : False := by
  obtain ⟨d,ds,hd,hk⟩ := headOf_dump value
  rw [hd] at h
  rw [(List.cons.inj h).1,hc] at hk
  cases hk

/-- Further items do not extend a number. -/
theorem stops_dumpItems (items : List Json) (rest : List Char) :
    Stops (dumpItems items ++ ']'::rest) := by
  cases items <;> simp [Stops,dumpItems]

/-- Further members do not extend a number. -/
theorem stops_dumpMembers (members : List (String×Json)) (rest : List Char) :
    Stops (dumpMembers members ++ '\x7d'::rest) := by
  rcases members with _|⟨⟨key,value⟩,members⟩ <;> simp [Stops,dumpMembers]

mutual
/-- A value is determined by its text up to a stop. -/
theorem dump_unique (value value' : Json) {rest rest' : List Char} (hrest : Stops rest)
    (hrest' : Stops rest') (h : dump value++rest=dump value'++rest') :
    value=value' ∧ rest=rest' := by
  have hkind := kindOf_unique h
  match value,value' with
  | .null,.null => exact ⟨rfl,by simpa [dump] using h⟩
  | .bool true,.bool true => exact ⟨rfl,by simpa [dump] using h⟩
  | .bool false,.bool false => exact ⟨rfl,by simpa [dump] using h⟩
  | .number n,.number n' =>
    rw [dump,dump] at h
    obtain ⟨hn,hr⟩ := number_unique hrest hrest' h
    exact ⟨by rw [hn],hr⟩
  | .string s,.string s' =>
    rw [dump,dump] at h
    obtain ⟨hs,hr⟩ := dumpString_unique h
    exact ⟨by rw [hs],hr⟩
  | .array [],.array [] => exact ⟨rfl,by simpa [dump] using h⟩
  | .array [],.array (item'::items') =>
    simp only [dump,List.cons_append,List.append_assoc,List.nil_append] at h
    exact (dump_head_ne (c := ']') rfl (List.cons.inj h).2.symm).elim
  | .array (item::items),.array [] =>
    simp only [dump,List.cons_append,List.append_assoc,List.nil_append] at h
    exact (dump_head_ne (c := ']') rfl (List.cons.inj h).2).elim
  | .array (item::items),.array (item'::items') =>
    simp only [dump,List.cons_append,List.append_assoc,List.nil_append] at h
    obtain ⟨hitem,htail⟩ := dump_unique item item' (stops_dumpItems items rest)
      (stops_dumpItems items' rest') (List.cons.inj h).2
    obtain ⟨hitems,hr⟩ := dumpItems_unique items items' htail
    exact ⟨by rw [hitem,hitems],hr⟩
  | .object [],.object [] => exact ⟨rfl,by simpa [dump] using h⟩
  | .object [],.object ((key',value')::members') =>
    simp [dump,dumpString] at h
  | .object ((key,value)::members),.object [] =>
    simp [dump,dumpString] at h
  | .object ((key,value)::members),.object ((key',value')::members') =>
    simp only [dump,List.cons_append,List.append_assoc,List.nil_append] at h
    obtain ⟨hkey,hcolon⟩ := dumpString_unique (List.cons.inj h).2
    obtain ⟨hvalue,htail⟩ := dump_unique value value' (stops_dumpMembers members rest)
      (stops_dumpMembers members' rest') (List.cons.inj hcolon).2
    obtain ⟨hmembers,hr⟩ := dumpMembers_unique members members' htail
    exact ⟨by rw [hkey,hvalue,hmembers],hr⟩
/-- Further items are determined by their text up to the bracket. -/
theorem dumpItems_unique (items items' : List Json) {rest rest' : List Char}
    (h : dumpItems items ++ ']'::rest=dumpItems items' ++ ']'::rest') :
    items=items' ∧ rest=rest' := by
  match items,items' with
  | [],[] => exact ⟨rfl,by simpa [dumpItems] using h⟩
  | [],_::_ => simp [dumpItems] at h
  | _::_,[] => simp [dumpItems] at h
  | item::items,item'::items' =>
    simp only [dumpItems,List.cons_append,List.append_assoc] at h
    obtain ⟨hitem,htail⟩ := dump_unique item item' (stops_dumpItems items rest)
      (stops_dumpItems items' rest') (List.cons.inj h).2
    obtain ⟨hitems,hr⟩ := dumpItems_unique items items' htail
    exact ⟨by rw [hitem,hitems],hr⟩
/-- Further members are determined by their text up to the brace. -/
theorem dumpMembers_unique (members members' : List (String×Json)) {rest rest' : List Char}
    (h : dumpMembers members ++ '\x7d'::rest=dumpMembers members' ++ '\x7d'::rest') :
    members=members' ∧ rest=rest' := by
  match members,members' with
  | [],[] => exact ⟨rfl,by simpa [dumpMembers] using h⟩
  | [],(_,_)::_ => simp [dumpMembers] at h
  | (_,_)::_,[] => simp [dumpMembers] at h
  | (key,value)::members,(key',value')::members' =>
    simp only [dumpMembers,List.cons_append,List.append_assoc] at h
    obtain ⟨hkey,hcolon⟩ := dumpString_unique (List.cons.inj h).2
    obtain ⟨hvalue,htail⟩ := dump_unique value value' (stops_dumpMembers members rest)
      (stops_dumpMembers members' rest') (List.cons.inj hcolon).2
    obtain ⟨hmembers,hr⟩ := dumpMembers_unique members members' htail
    exact ⟨by rw [hkey,hvalue,hmembers],hr⟩
end

/-- The compact text determines the value. -/
theorem text_injective : Function.Injective text := by
  intro value value' h
  have hlist : dump value++[]=dump value'++[] := by
    simpa [text] using congrArg String.toList h
  have hstop : Stops [] := by simp [Stops]
  exact (dump_unique value value' hstop hstop hlist).1

end Hllm.JsonText
