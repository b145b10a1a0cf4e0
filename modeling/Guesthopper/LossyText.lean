import Mathlib.Algebra.Group.Nat.Defs
import Mathlib.Data.List.Basic

/-! UTF-8 decoding that replaces what it cannot read, byte by byte. A sequence that is cut
short gives one U+FFFD for what was read of it, a byte that starts none gives one for
itself, and decoding goes on at the byte that did not fit. Text that is UTF-8 decodes to
itself. Nothing here knows where the bytes come from. -/
namespace Guesthopper.LossyText

-- A sequence under way: the bytes still owed, the range of the next one, the bits so far.
structure Partly where
  owed : Nat
  low : Nat
  high : Nat
  bits : Nat
  deriving DecidableEq, Repr

def replacement : Char := Char.ofNat 0xFFFD

def lead (b : UInt8) : List Char × Option Partly :=
  let n := b.toNat
  if n < 0x80 then ([Char.ofNat n],none)
  else if n < 0xC2 then ([replacement],none)
  else if n < 0xE0 then ([],some ⟨1,0x80,0xBF,n - 0xC0⟩)
  else if n < 0xF0 then ([],some ⟨2,if n = 0xE0 then 0xA0 else 0x80,if n = 0xED then 0x9F else 0xBF,n - 0xE0⟩)
  else if n < 0xF5 then ([],some ⟨3,if n = 0xF0 then 0x90 else 0x80,if n = 0xF4 then 0x8F else 0xBF,n - 0xF0⟩)
  else ([replacement],none)

def next (state : Option Partly) (b : UInt8) : List Char × Option Partly :=
  match state with
  | none => lead b
  | some p =>
    if p.low ≤ b.toNat ∧ b.toNat ≤ p.high then
      let bits := p.bits * 64 + (b.toNat - 0x80)
      if p.owed = 1 then ([Char.ofNat bits],none) else ([],some ⟨p.owed - 1,0x80,0xBF,bits⟩)
    else (replacement::(lead b).1,(lead b).2)

def decodeFrom (state : Option Partly) : List UInt8 → List Char
  | [] => if state.isSome then [replacement] else []
  | b::rest => (next state b).1 ++ decodeFrom (next state b).2 rest

def decode (raw : List UInt8) : List Char := decodeFrom none raw

def encode (cs : List Char) : List UInt8 := cs.flatMap String.utf8EncodeChar

theorem byteOf {n : Nat} (small : n < 256) : (UInt8.ofNat n).toNat = n := by
  rw [UInt8.toNat_ofNat',Nat.mod_eq_of_lt small]

theorem leadTwo {n : Nat} (above : 0xC2 ≤ n) (below : n < 0xE0) :
    lead (UInt8.ofNat n) = ([],some ⟨1,0x80,0xBF,n - 0xC0⟩) := by
  simp only [lead,byteOf (Nat.lt_trans below (by decide))]
  rw [if_neg (by omega),if_neg (by omega),if_pos below]

theorem leadThree {n : Nat} (above : 0xE0 ≤ n) (below : n < 0xF0) :
    lead (UInt8.ofNat n) =
      ([],some ⟨2,if n = 0xE0 then 0xA0 else 0x80,if n = 0xED then 0x9F else 0xBF,n - 0xE0⟩) := by
  simp only [lead,byteOf (Nat.lt_trans below (by decide))]
  rw [if_neg (by omega),if_neg (by omega),if_neg (by omega),if_pos below]

theorem leadFour {n : Nat} (above : 0xF0 ≤ n) (below : n < 0xF5) :
    lead (UInt8.ofNat n) =
      ([],some ⟨3,if n = 0xF0 then 0x90 else 0x80,if n = 0xF4 then 0x8F else 0xBF,n - 0xF0⟩) := by
  simp only [lead,byteOf (Nat.lt_trans below (by decide))]
  rw [if_neg (by omega),if_neg (by omega),if_neg (by omega),if_neg (by omega),if_pos below]

section Tail
variable {low high bits tail : Nat} {rest : List UInt8}

theorem tailFits (owed : Nat) (above : 0x80 ≤ tail) (below : tail < 0xC0) (low' : low ≤ tail) (high' : tail ≤ high) :
    decodeFrom (some ⟨owed + 2,low,high,bits⟩) (UInt8.ofNat tail::rest) =
      decodeFrom (some ⟨owed + 1,0x80,0xBF,bits * 64 + (tail - 0x80)⟩) rest := by
  simp [decodeFrom,next,byteOf (n := tail) (by omega),low',high']

theorem tailEnds {n : Nat} (above : 0x80 ≤ tail) (below : tail < 0xC0) (value : bits * 64 + (tail - 0x80) = n) :
    decodeFrom (some ⟨1,0x80,0xBF,bits⟩) (UInt8.ofNat tail::rest) = Char.ofNat n :: decodeFrom none rest := by
  have high : tail ≤ 0xBF := by omega
  simp [decodeFrom,next,byteOf (n := tail) (by omega),above,high,value]

end Tail

section Sequences
variable {n : Nat} {rest : List UInt8}

theorem decodeOne (small : n < 0x80) :
    decodeFrom none (UInt8.ofNat n::rest) = Char.ofNat n :: decodeFrom none rest := by
  have same := byteOf (n := n) (by omega)
  simp [decodeFrom,next,lead,same,small]

theorem decodeTwo (low : 0x80 ≤ n) (high : n < 0x800) :
    decodeFrom none (UInt8.ofNat (n / 64 % 0x20 + 0xc0)::UInt8.ofNat (n % 0x40 + 0x80)::rest) =
      Char.ofNat n :: decodeFrom none rest := by
  rw [decodeFrom,next,leadTwo (by omega) (by omega),List.nil_append]
  exact tailEnds (by omega) (by omega) (by omega)

theorem decodeThree (low : 0x800 ≤ n) (high : n < 0x10000) (scalar : n < 0xD800 ∨ 0xDFFF < n) :
    decodeFrom none (UInt8.ofNat (n / 4096 % 0x10 + 0xe0)::UInt8.ofNat (n / 64 % 0x40 + 0x80)::
      UInt8.ofNat (n % 0x40 + 0x80)::rest) = Char.ofNat n :: decodeFrom none rest := by
  rw [decodeFrom,next,leadThree (by omega) (by omega),List.nil_append]
  refine (tailFits 0 (by omega) (by omega) ?_ ?_).trans ?_
  · split <;> omega
  · split <;> omega
  · exact tailEnds (by omega) (by omega) (by omega)

theorem decodeFour (low : 0x10000 ≤ n) (high : n < 0x110000) :
    decodeFrom none (UInt8.ofNat (n / 262144 % 8 + 0xf0)::UInt8.ofNat (n / 4096 % 0x40 + 0x80)::
      UInt8.ofNat (n / 64 % 0x40 + 0x80)::UInt8.ofNat (n % 0x40 + 0x80)::rest) =
      Char.ofNat n :: decodeFrom none rest := by
  rw [decodeFrom,next,leadFour (by omega) (by omega),List.nil_append]
  refine (tailFits 1 (by omega) (by omega) ?_ ?_).trans ?_
  · split <;> omega
  · split <;> omega
  · refine (tailFits 0 (by omega) (by omega) (by omega) (by omega)).trans ?_
    exact tailEnds (by omega) (by omega) (by omega)

end Sequences

theorem decodeChar (c : Char) (rest : List UInt8) :
    decodeFrom none (String.utf8EncodeChar c ++ rest) = c :: decodeFrom none rest := by
  have scalar : c.val.toNat < 0xD800 ∨ 0xDFFF < c.val.toNat ∧ c.val.toNat < 0x110000 := c.valid
  have same : Char.ofNat c.val.toNat = c := Char.ofNat_toNat c
  unfold String.utf8EncodeChar
  dsimp only
  split
  · rw [List.singleton_append,decodeOne (by omega),same]
  · split
    · simp only [List.cons_append,List.nil_append]
      rw [decodeTwo (by omega) (by omega),same]
    · split
      · simp only [List.cons_append,List.nil_append]
        rw [decodeThree (by omega) (by omega) (by omega),same]
      · simp only [List.cons_append,List.nil_append]
        rw [decodeFour (by omega) (by omega),same]

theorem decodeEncoded (cs : List Char) : decode (encode cs) = cs := by
  induction cs with
  | nil => rfl
  | cons c cs ih =>
    have shape : encode (c::cs) = String.utf8EncodeChar c ++ encode cs := by simp [encode]
    rw [decode,shape,decodeChar]
    exact congrArg (c :: ·) ih

end Guesthopper.LossyText
