import Mathlib.Algebra.Group.Nat.Defs
import Mathlib.Data.List.Basic

/-! JSON text of flat objects, written in printable ASCII. A string literal is a list of
tokens, its meaning the characters they stand for: a surrogate stands for one only together
with its other half. A writer that escapes every character it cannot print is undone by the
meaning, and the text of an object is undone by its reader. -/
namespace Guesthopper.JsonText

abbrev Bytes := List UInt8

inductive Token where
  | plain (n : Nat) (ok : 32 ≤ n ∧ n < 127 ∧ n ≠ 34 ∧ n ≠ 92)
  | short (e : UInt8) (ok : e ∈ ([34,92,47,98,102,110,114,116] : Bytes))
  | unit (u : UInt16)
  deriving DecidableEq, Repr

def hexByte (n : Nat) : UInt8 := UInt8.ofNat (if n < 10 then 48 + n else 87 + n)

def hex4 (u : UInt16) : Bytes :=
  [hexByte (u.toNat / 4096),hexByte (u.toNat / 256 % 16),hexByte (u.toNat / 16 % 16),hexByte (u.toNat % 16)]

def Token.text : Token → Bytes
  | .plain n _ => [UInt8.ofNat n]
  | .short e _ => [92,e]
  | .unit u => 92::117::hex4 u

def shortChar (e : UInt8) : Char :=
  if e = 98 then Char.ofNat 8
  else if e = 102 then Char.ofNat 12
  else if e = 110 then Char.ofNat 10
  else if e = 114 then Char.ofNat 13
  else if e = 116 then Char.ofNat 9
  else Char.ofNat e.toNat

def High (u : UInt16) : Prop := 0xD800 ≤ u.toNat ∧ u.toNat < 0xDC00
def Low (u : UInt16) : Prop := 0xDC00 ≤ u.toNat ∧ u.toNat < 0xE000

instance (u : UInt16) : Decidable (High u) := inferInstanceAs (Decidable (_ ∧ _))
instance (u : UInt16) : Decidable (Low u) := inferInstanceAs (Decidable (_ ∧ _))

def pair (h l : UInt16) : Char := Char.ofNat (0x10000 + (h.toNat - 0xD800) * 1024 + (l.toNat - 0xDC00))

-- The first argument is a high surrogate that waits for its other half.
def denoteFrom : Option UInt16 → List Token → Option (List Char)
  | none,[] => some []
  | some _,[] => none
  | some h,.unit u::ts => if Low u then (denoteFrom none ts).map (pair h u :: ·) else none
  | some _,_::_ => none
  | none,.unit u::ts =>
    if High u then denoteFrom (some u) ts
    else if Low u then none
    else (denoteFrom none ts).map (Char.ofNat u.toNat :: ·)
  | none,.plain n _::ts => (denoteFrom none ts).map (Char.ofNat n :: ·)
  | none,.short e _::ts => (denoteFrom none ts).map (shortChar e :: ·)

def denote (ts : List Token) : Option (List Char) := denoteFrom none ts

def escape (c : Char) : List Token :=
  let n := c.toNat
  if n = 34 then [.short 34 (by decide)]
  else if n = 92 then [.short 92 (by decide)]
  else if n = 10 then [.short 110 (by decide)]
  else if n = 13 then [.short 114 (by decide)]
  else if n = 9 then [.short 116 (by decide)]
  else if n = 12 then [.short 102 (by decide)]
  else if n = 8 then [.short 98 (by decide)]
  else if ok : 32 ≤ n ∧ n < 127 ∧ n ≠ 34 ∧ n ≠ 92 then [.plain n ok]
  else if n < 0x10000 then [.unit (UInt16.ofNat n)]
  else [.unit (UInt16.ofNat (0xD800 + (n - 0x10000) / 1024)),.unit (UInt16.ofNat (0xDC00 + (n - 0x10000) % 1024))]

theorem unitOf {n : Nat} (small : n < 0x10000) : (UInt16.ofNat n).toNat = n := by
  rw [UInt16.toNat_ofNat',Nat.mod_eq_of_lt small]

theorem denotePlain {n : Nat} (ok : 32 ≤ n ∧ n < 127 ∧ n ≠ 34 ∧ n ≠ 92) (ts : List Token) :
    denoteFrom none (.plain n ok::ts) = (denoteFrom none ts).map (Char.ofNat n :: ·) := rfl

theorem denoteUnit {n : Nat} (small : n < 0x10000) (scalar : n < 0xD800 ∨ 0xDFFF < n) (ts : List Token) :
    denoteFrom none (.unit (UInt16.ofNat n)::ts) = (denoteFrom none ts).map (Char.ofNat n :: ·) := by
  have same := unitOf small
  have notHigh : ¬ High (UInt16.ofNat n) := by unfold High; omega
  have notLow : ¬ Low (UInt16.ofNat n) := by unfold Low; omega
  rw [denoteFrom,if_neg notHigh,if_neg notLow,same]

theorem denotePair {n : Nat} (above : 0x10000 ≤ n) (below : n < 0x110000) (ts : List Token) :
    denoteFrom none (.unit (UInt16.ofNat (0xD800 + (n - 0x10000) / 1024))::
      .unit (UInt16.ofNat (0xDC00 + (n - 0x10000) % 1024))::ts) = (denoteFrom none ts).map (Char.ofNat n :: ·) := by
  have first := unitOf (n := 0xD800 + (n - 0x10000) / 1024) (by omega)
  have second := unitOf (n := 0xDC00 + (n - 0x10000) % 1024) (by omega)
  have high : High (UInt16.ofNat (0xD800 + (n - 0x10000) / 1024)) := by unfold High; omega
  have low : Low (UInt16.ofNat (0xDC00 + (n - 0x10000) % 1024)) := by unfold Low; omega
  have value : 0x10000 + (0xD800 + (n - 0x10000) / 1024 - 0xD800) * 1024 +
      (0xDC00 + (n - 0x10000) % 1024 - 0xDC00) = n := by omega
  rw [denoteFrom,if_pos high,denoteFrom,if_pos low,pair,first,second,value]

theorem denoteLow {u : UInt16} (low : Low u) (ts : List Token) : denoteFrom none (.unit u::ts) = none := by
  have notHigh : ¬ High u := by unfold High; unfold Low at low; omega
  rw [denoteFrom,if_neg notHigh,if_pos low]

theorem denoteEscape (c : Char) (ts : List Token) :
    denoteFrom none (escape c ++ ts) = (denoteFrom none ts).map (c :: ·) := by
  have scalar : c.toNat < 0xD800 ∨ 0xDFFF < c.toNat ∧ c.toNat < 0x110000 := c.valid
  have same : Char.ofNat c.toNat = c := Char.ofNat_toNat c
  unfold escape
  dsimp only
  split; · rename_i short; rw [← same,short]; rfl
  split; · rename_i short; rw [← same,short]; rfl
  split; · rename_i short; rw [← same,short]; rfl
  split; · rename_i short; rw [← same,short]; rfl
  split; · rename_i short; rw [← same,short]; rfl
  split; · rename_i short; rw [← same,short]; rfl
  split; · rename_i short; rw [← same,short]; rfl
  split
  · rename_i ok
    rw [List.singleton_append,denotePlain,same]
  · split
    · rename_i small
      rw [List.singleton_append,denoteUnit small (by omega),same]
    · rename_i large
      simp only [List.cons_append,List.nil_append]
      rw [denotePair (by omega) (by omega),same]

theorem denoteEscaped (cs : List Char) (ts : List Token) :
    denoteFrom none (cs.flatMap escape ++ ts) = (denoteFrom none ts).map (cs ++ ·) := by
  induction cs with
  | nil => simp
  | cons c cs ih =>
    rw [List.flatMap_cons,List.append_assoc,denoteEscape,ih,Option.map_map]
    rfl

theorem denoteText (cs : List Char) : denote (cs.flatMap escape) = some cs := by
  have whole := denoteEscaped cs []
  simpa [denote,denoteFrom] using whole

def unhex (b : UInt8) : Option Nat :=
  if 48 ≤ b.toNat ∧ b.toNat < 58 then some (b.toNat - 48)
  else if 97 ≤ b.toNat ∧ b.toNat < 103 then some (b.toNat - 87)
  else if 65 ≤ b.toNat ∧ b.toNat < 71 then some (b.toNat - 55)
  else none

def unhex4 (a b c d : UInt8) : Option UInt16 := do
  let a ← unhex a
  let b ← unhex b
  let c ← unhex c
  let d ← unhex d
  return UInt16.ofNat (a * 4096 + b * 256 + c * 16 + d)

theorem unhexByte {n : Nat} (small : n < 16) : unhex (hexByte n) = some n := by
  have all : ∀ n, n < 16 → unhex (hexByte n) = some n := by decide
  exact all n small

theorem unhexUnit (u : UInt16) : unhex4 (hexByte (u.toNat / 4096)) (hexByte (u.toNat / 256 % 16))
    (hexByte (u.toNat / 16 % 16)) (hexByte (u.toNat % 16)) = some u := by
  have bound := u.toNat_lt
  have value : u.toNat / 4096 * 4096 + u.toNat / 256 % 16 * 256 + u.toNat / 16 % 16 * 16 + u.toNat % 16 = u.toNat := by
    omega
  rw [unhex4,unhexByte (by omega),unhexByte (by omega),unhexByte (by omega),unhexByte (by omega)]
  simp only [bind,Option.bind,value,UInt16.ofNat_toNat]
  rfl

def readUnit : Bytes → Option (Token × Bytes)
  | a::b::c::d::rest => (unhex4 a b c d).map (fun u => (.unit u,rest))
  | _ => none

def readEscape : Bytes → Option (Token × Bytes)
  | [] => none
  | e::rest =>
    if e = 117 then readUnit rest
    else if ok : e ∈ ([34,92,47,98,102,110,114,116] : Bytes) then some (.short e ok,rest)
    else none

def readToken : Bytes → Option (Token × Bytes)
  | [] => none
  | b::rest =>
    if b = 92 then readEscape rest
    else if ok : 32 ≤ b.toNat ∧ b.toNat < 127 ∧ b.toNat ≠ 34 ∧ b.toNat ≠ 92 then some (.plain b.toNat ok,rest)
    else none

def readString : Nat → Bytes → Option (List Token × Bytes)
  | 0,_ => none
  | n+1,raw =>
    if raw.head? = some 34 then some ([],raw.tail)
    else do
      let (t,rest) ← readToken raw
      let (ts,rest) ← readString n rest
      return (t::ts,rest)

def stringText (ts : List Token) : Bytes := 34::ts.flatMap Token.text ++ [34]

theorem readTokenText (t : Token) (rest : Bytes) : readToken (t.text ++ rest) = some (t,rest) := by
  cases t with
  | plain n ok =>
    have same : (UInt8.ofNat n).toNat = n := by rw [UInt8.toNat_ofNat',Nat.mod_eq_of_lt (by omega)]
    have notEscape : UInt8.ofNat n ≠ 92 := by intro is; rw [is] at same; exact ok.2.2.2 same.symm
    rw [Token.text,List.singleton_append,readToken,if_neg notEscape,dif_pos (by rw [same]; exact ok)]
    simp [same]
  | short e ok =>
    have notUnit : e ≠ 117 := by intro is; subst is; simp at ok
    simp only [Token.text,List.cons_append,List.nil_append]
    rw [readToken,if_pos rfl,readEscape,if_neg notUnit,dif_pos ok]
  | unit u =>
    simp only [Token.text,hex4,List.cons_append,List.nil_append]
    rw [readToken,if_pos rfl,readEscape,if_pos rfl,readUnit,unhexUnit]
    rfl

theorem textHead (t : Token) (rest : Bytes) : (t.text ++ rest).head? ≠ some 34 := by
  cases t with
  | plain n ok =>
    have same : (UInt8.ofNat n).toNat = n := by rw [UInt8.toNat_ofNat',Nat.mod_eq_of_lt (by omega)]
    intro quote
    have is : UInt8.ofNat n = 34 := by simpa [Token.text] using quote
    rw [is] at same
    exact ok.2.2.1 same.symm
  | short e ok => simp [Token.text]
  | unit u => simp [Token.text]

theorem readStringText {fuel : Nat} {ts : List Token} (enough : ts.length < fuel) (rest : Bytes) :
    readString fuel (ts.flatMap Token.text ++ 34::rest) = some (ts,rest) := by
  induction ts generalizing fuel with
  | nil =>
    cases fuel with
    | zero => contradiction
    | succ n => rfl
  | cons t ts ih =>
    cases fuel with
    | zero => contradiction
    | succ n =>
      have later := ih (Nat.lt_of_succ_lt_succ enough)
      rw [List.flatMap_cons,List.append_assoc,readString,if_neg (textHead t _),readTokenText]
      simp only [bind,Option.bind,later]
      rfl

-- Text that can stand as a value without quotes: printable, no space, nothing that ends a value.
def Bare (text : Bytes) : Prop :=
  text ≠ [] ∧ ∀ b ∈ text, 32 < b.toNat ∧ b.toNat < 127 ∧ b ≠ 34 ∧ b ≠ 44 ∧ b ≠ 125

instance (text : Bytes) : Decidable (Bare text) := inferInstanceAs (Decidable (_ ∧ _))

inductive Literal where
  | string (ts : List Token)
  | bare (text : Bytes) (ok : Bare text)
  deriving DecidableEq, Repr

structure Member where
  key : List Token
  value : Literal
  deriving DecidableEq, Repr

def Literal.text : Literal → Bytes
  | .string ts => stringText ts
  | .bare text _ => text

def Member.text (m : Member) : Bytes := stringText m.key ++ [58,32] ++ m.value.text

def membersText : List Member → Bytes
  | [] => []
  | [m] => m.text
  | m::ms => m.text ++ [44,32] ++ membersText ms

def flatText (ms : List Member) : Bytes := 123::membersText ms ++ [125]

def ends (b : UInt8) : Bool := b = 44 ∨ b = 125

def readLiteral (raw : Bytes) : Option (Literal × Bytes) :=
  match raw with
  | [] => none
  | b::rest =>
    if b = 34 then (readString raw.length rest).map (fun r => (.string r.1,r.2))
    else
      let text := raw.takeWhile (fun b => !ends b)
      if ok : Bare text then some (.bare text ok,raw.dropWhile (fun b => !ends b))
      else none

def readMember (raw : Bytes) : Option (Member × Bytes) :=
  if raw.head? = some 34 then do
    let (key,rest) ← readString raw.length raw.tail
    if rest.take 2 = [58,32] then do
      let (value,rest) ← readLiteral (rest.drop 2)
      return (⟨key,value⟩,rest)
    else none
  else none

def readMembers : Nat → Bytes → Option (List Member)
  | 0,_ => none
  | n+1,raw => do
    let (m,rest) ← readMember raw
    if rest = [125] then return [m]
    else if rest.take 2 = [44,32] then do
      let ms ← readMembers n (rest.drop 2)
      return m::ms
    else none

def readFlat (raw : Bytes) : Option (List Member) :=
  if raw = [123,125] then some [] else if raw.head? = some 123 then readMembers raw.length raw.tail else none

theorem tokensLength (ts : List Token) : ts.length ≤ (ts.flatMap Token.text).length := by
  induction ts with
  | nil => simp
  | cons t ts ih =>
    have some : 0 < t.text.length := by cases t <;> simp [Token.text]
    simp only [List.flatMap_cons,List.length_append,List.length_cons]
    omega

theorem readLiteralText (l : Literal) {b : UInt8} (rest : Bytes) (stop : ends b = true) :
    readLiteral (l.text ++ b::rest) = some (l,b::rest) := by
  cases l with
  | string ts =>
    have enough : ts.length < (34::(ts.flatMap Token.text ++ 34::b::rest)).length := by
      have := tokensLength ts
      simp only [List.length_cons,List.length_append]
      omega
    have shape : (Literal.string ts).text ++ b::rest = 34::(ts.flatMap Token.text ++ 34::b::rest) := by
      simp [Literal.text,stringText]
    rw [shape,readLiteral,if_pos rfl,readStringText enough]
    rfl
  | bare text ok =>
    have inside : ∀ c ∈ text, (!ends c) = true := by
      intro c known
      have := ok.2 c known
      simp [ends,this]
    have taken : (text ++ b::rest).takeWhile (fun b => !ends b) = text := by
      rw [List.takeWhile_append_of_pos inside,List.takeWhile_cons]
      simp [stop]
    have dropped : (text ++ b::rest).dropWhile (fun b => !ends b) = b::rest := by
      rw [List.dropWhile_append_of_pos inside,List.dropWhile_cons]
      simp [stop]
    cases text with
    | nil => exact absurd rfl ok.1
    | cons c cs =>
      have notQuote : c ≠ 34 := (ok.2 c (by simp)).2.2.1
      simp only [List.cons_append] at taken dropped
      simp only [Literal.text,List.cons_append]
      rw [readLiteral,if_neg notQuote,taken,dropped,dif_pos ok]

theorem readMemberText (m : Member) {b : UInt8} (rest : Bytes) (stop : ends b = true) :
    readMember (m.text ++ b::rest) = some (m,b::rest) := by
  have shape : m.text ++ b::rest = 34::(m.key.flatMap Token.text ++ 34::58::32::(m.value.text ++ b::rest)) := by
    simp [Member.text,stringText]
  have enough : m.key.length < (34::(m.key.flatMap Token.text ++ 34::58::32::(m.value.text ++ b::rest))).length := by
    have := tokensLength m.key
    simp only [List.length_cons,List.length_append]
    omega
  rw [shape,readMember,List.head?_cons,if_pos rfl,List.tail_cons,readStringText enough]
  simp only [bind,Option.bind,List.take_succ_cons,List.take_zero,List.drop_succ_cons,List.drop_zero,
    readLiteralText m.value rest stop]
  rfl

theorem readMembersText {fuel : Nat} (m : Member) (ms : List Member) (enough : ms.length < fuel) :
    readMembers fuel (membersText (m::ms) ++ [125]) = some (m::ms) := by
  induction ms generalizing fuel m with
  | nil =>
    cases fuel with
    | zero => contradiction
    | succ n =>
      rw [membersText,readMembers,readMemberText m [] rfl]
      rfl
  | cons next ms ih =>
    cases fuel with
    | zero => contradiction
    | succ n =>
      have later := ih next (Nat.lt_of_succ_lt_succ enough)
      have shape : membersText (m::next::ms) ++ [125] = m.text ++ 44::32::(membersText (next::ms) ++ [125]) := by
        simp [membersText]
      rw [shape,readMembers,readMemberText m _ rfl]
      simp only [bind,Option.bind,List.cons.injEq,List.take_succ_cons,List.take_zero,List.drop_succ_cons,
        List.drop_zero,later]
      rfl

theorem membersLength (ms : List Member) : ms.length ≤ (membersText ms).length := by
  induction ms with
  | nil => simp
  | cons m ms ih =>
    have some : 0 < m.text.length := by simp [Member.text,stringText]
    cases ms with
    | nil => exact some
    | cons next ms =>
      simp only [membersText,List.length_append,List.length_cons] at ih ⊢
      omega

theorem readFlatText (ms : List Member) : readFlat (flatText ms) = some ms := by
  cases ms with
  | nil => rfl
  | cons m ms =>
    have long := membersLength (m::ms)
    have begun : flatText (m::ms) = 123::(membersText (m::ms) ++ [125]) := rfl
    have second : (membersText (m::ms) ++ [125]).head? = some 34 := by
      cases ms <;> simp [membersText,Member.text,stringText]
    have full : flatText (m::ms) ≠ [123,125] := by
      intro same
      rw [begun] at same
      rw [(List.cons.inj same).2] at second
      contradiction
    rw [readFlat,if_neg full,begun,List.head?_cons,if_pos rfl,List.tail_cons]
    refine readMembersText m ms ?_
    simp only [List.length_append,List.length_cons] at long ⊢
    omega

end Guesthopper.JsonText
