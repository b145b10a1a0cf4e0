import Mathlib.Algebra.Group.Nat.Defs
import Mathlib.Data.List.Basic

/-! JSON objects of integers and strings, as characters and without blanks. A writer chooses
how it escapes a character of a string; whatever it chooses, an object it writes is undone by
the reader as soon as the reader undoes each of its escapes. -/
namespace Guesthopper.JsonObject

inductive Scalar where
  | int (n : Int)
  | str (cs : List Char)
  deriving DecidableEq, Repr

abbrev Member := List Char × Scalar

def quoted (esc : Char → List Char) (cs : List Char) : List Char := '"'::cs.flatMap esc ++ ['"']

def Scalar.text (esc : Char → List Char) : Scalar → List Char
  | .int n => (toString n).toList
  | .str cs => quoted esc cs

def memberText (esc : Char → List Char) (m : Member) : List Char := quoted esc m.1 ++ ':'::m.2.text esc

def membersText (esc : Char → List Char) : List Member → List Char
  | [] => []
  | [m] => memberText esc m
  | m::n::ms => memberText esc m ++ ','::membersText esc (n::ms)

def objectText (esc : Char → List Char) (ms : List Member) : List Char := '{'::membersText esc ms ++ ['}']

def unhex (c : Char) : Option Nat :=
  let n := c.toNat
  if 48 ≤ n ∧ n < 58 then some (n - 48)
  else if 97 ≤ n ∧ n < 103 then some (n - 87)
  else if 65 ≤ n ∧ n < 71 then some (n - 55)
  else none

-- A unit that is half of a surrogate pair is not read.
def readUnit : List Char → Option (Char × List Char)
  | a::b::c::d::rest => do
    let a ← unhex a
    let b ← unhex b
    let c ← unhex c
    let d ← unhex d
    let n := a * 4096 + b * 256 + c * 16 + d
    if 0xD800 ≤ n ∧ n < 0xE000 then none else some (Char.ofNat n,rest)
  | _ => none

def readEscape : List Char → Option (Char × List Char)
  | [] => none
  | e::rest =>
    if e = 'u' then readUnit rest
    else if e = 'b' then some (Char.ofNat 8,rest)
    else if e = 't' then some (Char.ofNat 9,rest)
    else if e = 'n' then some (Char.ofNat 10,rest)
    else if e = 'f' then some (Char.ofNat 12,rest)
    else if e = 'r' then some (Char.ofNat 13,rest)
    else if e = '"' ∨ e = '\\' ∨ e = '/' then some (e,rest)
    else none

def readChar : List Char → Option (Char × List Char)
  | [] => none
  | c::rest =>
    if c = '\\' then readEscape rest
    else if c = '"' ∨ c.toNat < 32 then none
    else some (c,rest)

def readString : Nat → List Char → Option (List Char × List Char)
  | 0,_ => none
  | n+1,raw =>
    if raw.head? = some '"' then some ([],raw.tail)
    else do
      let (c,rest) ← readChar raw
      let (cs,rest) ← readString n rest
      return (c::cs,rest)

def readQuoted (raw : List Char) : Option (List Char × List Char) :=
  if raw.head? = some '"' then readString raw.length raw.tail else none

def readNat (raw : List Char) : Option (Nat × List Char) :=
  let digits := raw.takeWhile Char.isDigit
  if digits = [] then none else some (Nat.ofDigitChars 10 digits 0,raw.dropWhile Char.isDigit)

def readScalar (raw : List Char) : Option (Scalar × List Char) :=
  if raw.head? = some '"' then (readQuoted raw).map fun r => (.str r.1,r.2)
  else if raw.head? = some '-' then (readNat raw.tail).map fun r => (.int (-r.1),r.2)
  else (readNat raw).map fun r => (.int r.1,r.2)

def readMember (raw : List Char) : Option (Member × List Char) := do
  let (key,rest) ← readQuoted raw
  if rest.head? = some ':' then do
    let (value,rest) ← readScalar rest.tail
    return ((key,value),rest)
  else none

def readMembers : Nat → List Char → Option (List Member)
  | 0,_ => none
  | n+1,raw => do
    let (m,rest) ← readMember raw
    if rest = ['}'] then return [m]
    else if rest.head? = some ',' then do
      let ms ← readMembers n rest.tail
      return m::ms
    else none

def readObject (raw : List Char) : Option (List Member) :=
  if raw = ['{','}'] then some []
  else if raw.head? = some '{' then readMembers raw.length raw.tail
  else none

def Undone (esc : Char → List Char) : Prop := ∀ c rest, readChar (esc c ++ rest) = some (c,rest)

section Reading
variable {esc : Char → List Char}

theorem undoneHead (undone : Undone esc) (c : Char) (rest : List Char) : (esc c ++ rest).head? ≠ some '"' := by
  intro quote
  have read := undone c rest
  cases shape : esc c ++ rest with
  | nil => rw [shape] at quote; contradiction
  | cons d ds =>
    rw [shape] at quote read
    cases Option.some.inj quote
    simp [readChar] at read

theorem undoneLength (undone : Undone esc) (c : Char) : 0 < (esc c).length := by
  have read := undone c []
  cases shape : esc c with
  | nil => rw [shape] at read; contradiction
  | cons d ds => simp

theorem readStringText (undone : Undone esc) {fuel : Nat} {cs : List Char} (enough : cs.length < fuel) (rest : List Char) :
    readString fuel (cs.flatMap esc ++ '"'::rest) = some (cs,rest) := by
  induction cs generalizing fuel with
  | nil =>
    cases fuel with
    | zero => contradiction
    | succ n => rfl
  | cons c cs ih =>
    cases fuel with
    | zero => contradiction
    | succ n =>
      have later := ih (Nat.lt_of_succ_lt_succ enough)
      rw [List.flatMap_cons,List.append_assoc,readString,if_neg (undoneHead undone c _),undone]
      simp only [bind,Option.bind,later]
      rfl

theorem escapedLength (undone : Undone esc) (cs : List Char) : cs.length ≤ (cs.flatMap esc).length := by
  induction cs with
  | nil => simp
  | cons c cs ih =>
    have some := undoneLength undone c
    simp only [List.flatMap_cons,List.length_append,List.length_cons]
    omega

theorem readQuotedText (undone : Undone esc) (cs rest : List Char) : readQuoted (quoted esc cs ++ rest) = some (cs,rest) := by
  have shape : quoted esc cs ++ rest = '"'::(cs.flatMap esc ++ '"'::rest) := by simp [quoted]
  rw [shape,readQuoted,List.head?_cons,if_pos rfl,List.tail_cons]
  refine readStringText undone ?_ rest
  have := escapedLength undone cs
  simp only [List.length_cons,List.length_append]
  omega

theorem readNatText (n : Nat) {c : Char} (rest : List Char) (stop : c.isDigit = false) :
    readNat ((toString n).toList ++ c::rest) = some (n,c::rest) := by
  have text : (toString n).toList = Nat.toDigits 10 n := Nat.toList_repr
  have inside : ∀ d ∈ Nat.toDigits 10 n, d.isDigit = true :=
    fun d known => Nat.isDigit_of_mem_toDigits (by decide) (by decide) known
  have taken : (Nat.toDigits 10 n ++ c::rest).takeWhile Char.isDigit = Nat.toDigits 10 n := by
    rw [List.takeWhile_append_of_pos inside,List.takeWhile_cons]
    simp [stop]
  have dropped : (Nat.toDigits 10 n ++ c::rest).dropWhile Char.isDigit = c::rest := by
    rw [List.dropWhile_append_of_pos inside,List.dropWhile_cons]
    simp [stop]
  simp only [text,readNat,taken,dropped,if_neg Nat.toDigits_ne_nil,Nat.ofDigitChars_ten_toDigits]

theorem natHead (n : Nat) (rest : List Char) :
    ((toString n).toList ++ rest).head? ≠ some '"' ∧ ((toString n).toList ++ rest).head? ≠ some '-' := by
  have text : (toString n).toList = Nat.toDigits 10 n := Nat.toList_repr
  have digits : ∀ d ∈ Nat.toDigits 10 n, d.isDigit = true :=
    fun d known => Nat.isDigit_of_mem_toDigits (by decide) (by decide) known
  rw [text]
  cases shape : Nat.toDigits 10 n with
  | nil => exact absurd shape Nat.toDigits_ne_nil
  | cons d ds =>
    have digit := digits d (by simp [shape])
    constructor
    all_goals
      intro is
      cases Option.some.inj is
      simp [Char.isDigit] at digit

theorem readScalarText (undone : Undone esc) (v : Scalar) {c : Char} (rest : List Char) (stop : c.isDigit = false) :
    readScalar (v.text esc ++ c::rest) = some (v,c::rest) := by
  cases v with
  | str cs =>
    have quote : (quoted esc cs ++ c::rest).head? = some '"' := by simp [quoted]
    rw [Scalar.text,readScalar,if_pos quote,readQuotedText undone]
    rfl
  | int n =>
    cases n with
    | ofNat n =>
      have text : (toString (Int.ofNat n)).toList = (toString n).toList := rfl
      obtain ⟨notQuote,notSign⟩ := natHead n (c::rest)
      rw [Scalar.text,text,readScalar,if_neg notQuote,if_neg notSign,readNatText n rest stop]
      rfl
    | negSucc n =>
      have text : (toString (Int.negSucc n)).toList = '-'::(toString (n + 1)).toList := by
        have shape : toString (Int.negSucc n) = "-" ++ toString (n + 1) := rfl
        rw [shape,String.toList_append]
        rfl
      rw [Scalar.text,text,List.cons_append,readScalar,List.head?_cons,if_neg (by decide),if_pos rfl,List.tail_cons,
        readNatText (n + 1) rest stop]
      rfl

theorem readMemberText (undone : Undone esc) (m : Member) {c : Char} (rest : List Char) (stop : c.isDigit = false) :
    readMember (memberText esc m ++ c::rest) = some (m,c::rest) := by
  rw [memberText,List.append_assoc,readMember,readQuotedText undone,List.cons_append]
  simp only [bind,Option.bind,List.head?_cons,if_true,List.tail_cons,readScalarText undone m.2 rest stop]
  rfl

theorem readMembersText (undone : Undone esc) {fuel : Nat} (m : Member) (ms : List Member) (enough : ms.length < fuel) :
    readMembers fuel (membersText esc (m::ms) ++ ['}']) = some (m::ms) := by
  induction ms generalizing fuel m with
  | nil =>
    cases fuel with
    | zero => contradiction
    | succ n =>
      rw [membersText,readMembers,readMemberText undone m [] rfl]
      rfl
  | cons next ms ih =>
    cases fuel with
    | zero => contradiction
    | succ n =>
      have later := ih next (Nat.lt_of_succ_lt_succ enough)
      rw [membersText,List.append_assoc,List.cons_append,readMembers,readMemberText undone m _ rfl]
      simp only [bind,Option.bind,List.head?_cons,if_true,List.tail_cons,later]
      rfl

theorem membersLength (ms : List Member) : ms.length ≤ (membersText esc ms).length := by
  induction ms with
  | nil => simp
  | cons m ms ih =>
    cases ms with
    | nil => simp [membersText,memberText,quoted]
    | cons next ms =>
      simp only [membersText,List.length_append,List.length_cons] at ih ⊢
      omega

theorem readObjectText (undone : Undone esc) (ms : List Member) : readObject (objectText esc ms) = some ms := by
  cases ms with
  | nil => rfl
  | cons m ms =>
    have long := @membersLength esc (m::ms)
    have begun : objectText esc (m::ms) = '{'::(membersText esc (m::ms) ++ ['}']) := rfl
    have second : (membersText esc (m::ms) ++ ['}']).head? = some '"' := by
      cases ms <;> simp [membersText,memberText,quoted]
    have full : objectText esc (m::ms) ≠ ['{','}'] := by
      intro same
      rw [begun] at same
      rw [(List.cons.inj same).2] at second
      contradiction
    rw [readObject,if_neg full,begun,List.head?_cons,if_pos rfl,List.tail_cons]
    refine readMembersText undone m ms ?_
    simp only [List.length_append,List.length_cons] at long ⊢
    omega

end Reading

def lookup (key : List Char) (ms : List Member) : Option Scalar := (ms.find? fun m => m.1 = key).map Prod.snd

end Guesthopper.JsonObject
