import Mathlib.Data.Nat.Digits.Lemmas
import Guesthopper.SessionText

/-! How much text grows on its way into an ERROR frame: `{:?}` writes a character that is not
printable as `\u` with its number in braces, and JSON doubles the backslash. Which
characters are printable is a table of Rust's. -/
namespace Guesthopper.DebugText
open FrameBytes SessionText

structure Printing where
  shown : Char → Bool
  visible : ∀ c, shown c = true → 32 ≤ c.toNat

def escapeDebug (p : Printing) (c : Char) : List Char :=
  if c = '\x00' then ['\\','0']
  else if c = '\t' then ['\\','t']
  else if c = '\r' then ['\\','r']
  else if c = '\n' then ['\\','n']
  else if c = '\\' then ['\\','\\']
  else if c = '"' then ['\\','"']
  else if p.shown c then [c]
  else ['\\','u','{'] ++ ((Nat.digits 16 c.toNat).reverse.map hexDigit ++ ['}'])

def rustDebug (p : Printing) (s : String) : String :=
  String.ofList ('"' :: s.toList.flatMap (escapeDebug p) ++ ['"'])

def jsonWidth (c : Char) : Nat :=
  if [8,9,10,12,13,34,92].contains c.toNat then 2 else if c.toNat < 32 then 6 else c.utf8Size

def jsonLength (cs : List Char) : Nat := (cs.map jsonWidth).sum

def quotedWidth (p : Printing) (c : Char) : Nat :=
  if c = '\x00' ∨ c = '\t' ∨ c = '\r' ∨ c = '\n' then 3
  else if c = '\\' ∨ c = '"' then 4
  else if p.shown c then c.utf8Size
  else 5 + (Nat.digits 16 c.toNat).length

def quotedLength (p : Printing) (s : String) : Nat := (s.toList.map (quotedWidth p)).sum

theorem utf8Append (xs ys : List Char) : utf8 (xs ++ ys) = utf8 xs ++ utf8 ys := by simp [utf8]

theorem sizeCases (c : Char) : (c.toNat < 128 ∧ c.utf8Size = 1) ∨ (c.toNat < 2048 ∧ c.utf8Size = 2) ∨
    (c.toNat < 65536 ∧ c.utf8Size = 3) ∨ (c.toNat < 1114112 ∧ c.utf8Size = 4) := by
  have top : c.val.toNat < 1114112 := by
    obtain low | high := c.valid
    · exact Nat.lt_trans low (by decide)
    · exact high.2
  unfold Char.utf8Size
  simp only [UInt32.le_iff_toNat_le,Char.toNat]
  split
  · rename_i small
    exact .inl ⟨Nat.lt_succ_of_le small,rfl⟩
  · split
    · rename_i small
      exact .inr (.inl ⟨Nat.lt_succ_of_le small,rfl⟩)
    · split
      · rename_i small
        exact .inr (.inr (.inl ⟨Nat.lt_succ_of_le small,rfl⟩))
      · exact .inr (.inr (.inr ⟨top,rfl⟩))

theorem utf8One (c : Char) : (utf8 [c]).length = c.utf8Size := by simp [utf8]

theorem utf8Length (cs : List Char) : (utf8 cs).length ≤ 4 * cs.length := by
  induction cs with
  | nil => rfl
  | cons c cs ih =>
    have := c.utf8Size_le_four
    rw [← List.singleton_append,utf8Append,List.length_append,List.length_append,utf8One,List.length_singleton]
    omega

theorem jsonLengthAppend (xs ys : List Char) : jsonLength (xs ++ ys) = jsonLength xs + jsonLength ys := by
  simp [jsonLength]

theorem hexDigitWidth : ∀ n < 16, (hexDigit n).utf8Size = 1 ∧ jsonWidth (hexDigit n) = 1 := by decide

theorem jsonCharLength (c : Char) : (utf8 (jsonChar c)).length = jsonWidth c := by
  unfold jsonChar jsonWidth
  split
  case h_8 other8 other9 other10 other12 other13 other34 other92 =>
    have other : [8,9,10,12,13,34,92].contains c.toNat = false := by
      simpa using ⟨other8,other9,other10,other12,other13,other34,other92⟩
    rw [other]
    by_cases small : c.toNat < 32
    · rw [if_pos small,if_neg (by decide),if_pos small]
      have high := (hexDigitWidth (c.toNat / 16) (by omega)).1
      have low := (hexDigitWidth (c.toNat % 16) (by omega)).1
      have shape : utf8 ['\\','u','0','0',hexDigit (c.toNat / 16),hexDigit (c.toNat % 16)] =
          utf8 ['\\','u','0','0'] ++ (utf8 [hexDigit (c.toNat / 16)] ++ utf8 [hexDigit (c.toNat % 16)]) := by
        rw [← utf8Append,← utf8Append]
        rfl
      rw [shape,List.length_append,List.length_append,utf8One,utf8One,high,low]
      rfl
    · rw [if_neg small,if_neg (by decide),if_neg small]
      exact utf8One c
  all_goals
    rename_i same
    rw [same]
    rfl

theorem jsonTextLength (cs : List Char) : (utf8 (cs.flatMap jsonChar)).length = jsonLength cs := by
  induction cs with
  | nil => rfl
  | cons c cs ih =>
    rw [List.flatMap_cons,utf8Append,List.length_append,jsonCharLength,ih]
    rfl

theorem errorLength (msg : String) : (errorFrame msg).payload.length = 14 + jsonLength msg.toList := by
  have shape : (errorFrame msg).payload =
      utf8 ("\x7b\"message\":\"".toList) ++ (utf8 (msg.toList.flatMap jsonChar) ++ utf8 ['"','}']) := by
    rw [← utf8Append,← utf8Append]
    simp [errorFrame,jsonString]
  rw [shape,List.length_append,List.length_append,jsonTextLength]
  have front : (utf8 "\x7b\"message\":\"".toList).length = 12 := rfl
  have back : (utf8 ['"','}']).length = 2 := rfl
  omega

theorem jsonWidthBound (c : Char) : jsonWidth c ≤ 6 := by
  have := c.utf8Size_le_four
  unfold jsonWidth
  split
  · omega
  · split <;> omega

theorem jsonLengthBound (cs : List Char) : jsonLength cs ≤ 6 * cs.length := by
  induction cs with
  | nil => rfl
  | cons c cs ih =>
    have := jsonWidthBound c
    have : jsonLength (c::cs) = jsonWidth c + jsonLength cs := rfl
    rw [List.length_cons]
    omega

section Quotes
variable (p : Printing) (c : Char)

theorem hexLength (n : Nat) : jsonLength ((Nat.digits 16 n).reverse.map hexDigit) = (Nat.digits 16 n).length := by
  have one : ∀ ds : List Nat, (∀ d ∈ ds, d < 16) → jsonLength (ds.map hexDigit) = ds.length := by
    intro ds small
    induction ds with
    | nil => rfl
    | cons d ds ih =>
      obtain ⟨first,later⟩ := List.forall_mem_cons.mp small
      have : jsonLength ((d::ds).map hexDigit) = jsonWidth (hexDigit d) + jsonLength (ds.map hexDigit) := rfl
      rw [this,(hexDigitWidth d first).2,ih later,List.length_cons]
      omega
  rw [one _ (fun d known => Nat.digits_lt_base (by decide) (List.mem_reverse.mp known)),List.length_reverse]

theorem escapeWidth : jsonLength (escapeDebug p c) = quotedWidth p c := by
  unfold escapeDebug quotedWidth
  by_cases zero : c = '\x00'
  · subst zero; rfl
  by_cases tab : c = '\t'
  · subst tab; rfl
  by_cases ret : c = '\r'
  · subst ret; rfl
  by_cases line : c = '\n'
  · subst line; rfl
  by_cases slash : c = '\\'
  · subst slash; rfl
  by_cases mark : c = '"'
  · subst mark; rfl
  simp only [zero,tab,ret,line,slash,mark,if_false,or_self]
  split
  · rename_i shown
    have low := p.visible c shown
    have plain : [8,9,10,12,13,34,92].contains c.toNat = false := by
      have noMark : c.toNat ≠ 34 := fun same => mark (by rw [← Char.ofNat_toNat c,same])
      have noSlash : c.toNat ≠ 92 := fun same => slash (by rw [← Char.ofNat_toNat c,same])
      simp only [List.contains_eq_mem,List.mem_cons,List.not_mem_nil,or_false,decide_eq_false_iff_not,not_or]
      omega
    have one : jsonLength [c] = jsonWidth c := rfl
    rw [one,jsonWidth,plain,if_neg (by decide),if_neg (by omega)]
  · rw [jsonLengthAppend,jsonLengthAppend,hexLength]
    have front : jsonLength ['\\','u','{'] = 4 := rfl
    have back : jsonLength ['}'] = 1 := rfl
    omega

theorem rustDebugLength (s : String) : jsonLength (rustDebug p s).toList = 4 + quotedLength p s := by
  have inner : ∀ cs : List Char, jsonLength (cs.flatMap (escapeDebug p)) = (cs.map (quotedWidth p)).sum := by
    intro cs
    induction cs with
    | nil => rfl
    | cons c cs ih =>
      rw [List.flatMap_cons,jsonLengthAppend,escapeWidth,ih]
      rfl
  have mark : jsonLength ['"'] = 2 := rfl
  rw [rustDebug,String.toList_ofList,List.cons_append,← List.singleton_append,jsonLengthAppend,jsonLengthAppend,inner,mark,
    quotedLength]
  omega

-- DEL is the worst: one byte of the request becomes seven of the ERROR.
theorem quotedWidthBound : quotedWidth p c ≤ 7 * c.utf8Size := by
  have some := c.utf8Size_pos
  unfold quotedWidth
  split
  · omega
  · split
    · omega
    · split
      · omega
      · have digits (k : Nat) (small : c.toNat < 16^k) : (Nat.digits 16 c.toNat).length ≤ k :=
          (Nat.digits_length_le_iff (by decide) _).mpr small
        obtain ⟨small,size⟩ | ⟨small,size⟩ | ⟨small,size⟩ | ⟨small,size⟩ := sizeCases c
        · have := digits 2 (by omega)
          omega
        · have := digits 3 (by omega)
          omega
        · have := digits 4 (by omega)
          omega
        · have := digits 6 (by omega)
          omega

theorem quotedBound (s : String) : quotedLength p s ≤ 7 * (utf8 s.toList).length := by
  have each : ∀ cs : List Char, (cs.map (quotedWidth p)).sum ≤ 7 * (utf8 cs).length := by
    intro cs
    induction cs with
    | nil => rfl
    | cons c cs ih =>
      have one := quotedWidthBound p c
      rw [← List.singleton_append,utf8Append,List.length_append,utf8One,List.map_append,List.sum_append]
      simp only [List.map_cons,List.map_nil,List.sum_cons,List.sum_nil]
      omega
  exact each s.toList

end Quotes

end Guesthopper.DebugText
