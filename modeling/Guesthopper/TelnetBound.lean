import Mathlib.Data.List.Induction
import Guesthopper.TelnetItems

/-! How much a parser holds of an open subnegotiation. The length is checked where an
ordinary payload byte is appended and not where an escaped 0xFF is. -/
namespace Guesthopper.TelnetBound
open FrameBytes TelnetInbound TelnetItems

def between (p : Parser) : Bytes → List Parser
  | [] => [p]
  | b::rest => p::between (feedByte p b).1 rest

def betweenAll (p : Parser) : List Bytes → List Parser
  | [] => [p]
  | chunk::rest => between p chunk ++ betweenAll (feed p chunk).1 rest

-- Where the client is in its own stream, and how much payload it has put into the open
-- subnegotiation, an escaped 0xFF counted once.
inductive Place where
  | text
  | command
  | option
  | payload (sent : Nat)
  | escape (sent : Nat)
  deriving DecidableEq, Repr

def Place.next : Place → UInt8 → Place
  | .text, b => if b = iac then .command else .text
  | .command, b => if b ∈ [will,wont,doOpt,dont] then .option else if b = sb then .payload 0 else .text
  | .option, _ => .text
  | .payload sent, b => if b = iac then .escape sent else .payload (sent + 1)
  | .escape sent, b => if b = iac then .payload (sent + 1) else .text

def placeAfter (raw : Bytes) : Place := raw.foldl Place.next .text

def EscapesFit (raw : Bytes) : Prop :=
  ∀ before sent, before ++ [iac] <+: raw → placeAfter before = .escape sent → sent < maxSubnegLen

theorem placeConcat (raw : Bytes) (b : UInt8) : placeAfter (raw ++ [b]) = (placeAfter raw).next b := by
  simp [placeAfter]

theorem feedConcat (p : Parser) (raw : Bytes) (b : UInt8) : (feed p (raw ++ [b])).1 = (feedByte (feed p raw).1 b).1 := by
  rw [feedAppend]; rfl

theorem betweenIff (p q : Parser) (raw : Bytes) : q ∈ between p raw ↔ ∃ part, part <+: raw ∧ q = (feed p part).1 := by
  induction raw generalizing p with
  | nil => simp [between,feed]
  | cons b rest ih =>
    simp only [between,List.mem_cons,ih,List.prefix_cons_iff]
    constructor
    · intro found
      obtain here | ⟨part,known,later⟩ := found
      · exact ⟨[],.inl rfl,here⟩
      · exact ⟨b::part,.inr ⟨part,rfl,known⟩,later⟩
    · intro found
      obtain ⟨part,none | ⟨more,shape,known⟩,reached⟩ := found
      · rw [none] at reached
        exact .inl reached
      · rw [shape] at reached
        exact .inr ⟨more,known,reached⟩

theorem prefixAppendIff (part front back : Bytes) :
    part <+: front ++ back ↔ part <+: front ∨ ∃ more, part = front ++ more ∧ more <+: back := by
  induction front generalizing part with
  | nil =>
    simp only [List.nil_append,List.prefix_nil]
    constructor
    · intro known
      exact .inr ⟨part,rfl,known⟩
    · intro known
      obtain none | ⟨more,shape,known⟩ := known
      · rw [none]; exact List.nil_prefix
      · rw [shape]; exact known
  | cons b front ih =>
    cases part with
    | nil => simp
    | cons c part => simp only [List.cons_append,List.cons_prefix_cons,ih,List.cons.injEq]; grind

theorem betweenAllIff (p q : Parser) (chunks : List Bytes) :
    q ∈ betweenAll p chunks ↔ ∃ part, part <+: chunks.flatten ∧ q = (feed p part).1 := by
  induction chunks generalizing p with
  | nil => simp [betweenAll,feed]
  | cons chunk rest ih =>
    simp only [betweenAll,List.mem_append,betweenIff,ih,List.flatten_cons,prefixAppendIff]
    constructor
    · intro found
      obtain ⟨part,known,reached⟩ | ⟨part,known,reached⟩ := found
      · exact ⟨part,.inl known,reached⟩
      · exact ⟨chunk ++ part,.inr ⟨part,rfl,known⟩,by rw [feedAppend]; exact reached⟩
    · intro found
      obtain ⟨part,known | ⟨more,shape,known⟩,reached⟩ := found
      · exact .inl ⟨part,known,reached⟩
      · rw [shape,feedAppend] at reached
        exact .inr ⟨more,known,reached⟩

def Held (sent : Nat) (sb : Bytes) : Prop := min sent maxSubnegLen ≤ sb.length ∧ sb.length ≤ sent

def At (p : Parser) : Place → Prop
  | .text => p.state = .data ∧ p.sb = []
  | .command => p.state = .iac ∧ p.sb = []
  | .option => p.state = .opt ∧ p.sb = []
  | .payload sent => p.state = .sb ∧ Held sent p.sb
  | .escape sent => p.state = .sbIac ∧ Held sent p.sb

theorem atNext {p : Parser} {place : Place} (at' : At p place) (b : UInt8) : At (feedByte p b).1 (place.next b) := by
  cases place with
  | text =>
    obtain ⟨state,empty⟩ := at'
    by_cases escaped : b = iac <;> simp [feedByte,state,Place.next,escaped,At,empty]
  | command =>
    obtain ⟨state,empty⟩ := at'
    by_cases escaped : b = iac
    · subst escaped
      simp [feedByte,state,Place.next,At,empty,iac,will,wont,doOpt,dont,sb]
    · by_cases verb : b = will ∨ b = wont ∨ b = doOpt ∨ b = dont
      · simp [feedByte,state,Place.next,At,empty,escaped,verb]
      · by_cases opened : b = sb
        · subst opened
          simp [feedByte,state,Place.next,At,Held,iac,sb,will,wont,doOpt,dont]
        · simp [feedByte,state,Place.next,At,empty,escaped,verb,opened]
  | option =>
    obtain ⟨state,empty⟩ := at'
    simp [feedByte,state,Place.next,At,empty]
  | payload sent =>
    obtain ⟨state,least,most⟩ := at'
    by_cases escaped : b = iac
    · simp [feedByte,state,Place.next,escaped,At,Held,least,most]
    · by_cases room : p.sb.length < maxSubnegLen
      · simp [feedByte,state,Place.next,escaped,At,Held,room]
        omega
      · simp [feedByte,state,Place.next,escaped,At,Held,room]
        omega
  | escape sent =>
    obtain ⟨state,least,most⟩ := at'
    by_cases escaped : b = iac
    · subst escaped
      simp [feedByte,state,Place.next,At,Held,show iac ≠ se by decide]
      omega
    · have closed : (feedByte p b).1 = (endSubneg p).1 := by simp [feedByte,state,escaped]
      rw [closed]
      simp [Place.next,escaped,At,endSubneg]

theorem atAfter (raw : Bytes) : At (feed fresh raw).1 (placeAfter raw) := by
  induction raw using List.reverseRecOn with
  | nil => exact ⟨rfl,rfl⟩
  | append_singleton raw b ih =>
    rw [feedConcat,placeConcat]
    exact atNext ih b

theorem feedByteBounded {p : Parser} {place : Place} (at' : At p place) (held : p.sb.length ≤ maxSubnegLen)
    (b : UInt8) (fits : ∀ sent, place = .escape sent → b = iac → sent < maxSubnegLen) :
    (feedByte p b).1.sb.length ≤ maxSubnegLen := by
  cases place with
  | text | command | option =>
    obtain ⟨state,empty⟩ := at'
    simp only [feedByte,state]
    repeat' split
    all_goals simp [empty,maxSubnegLen]
  | payload sent =>
    obtain ⟨state,least,most⟩ := at'
    simp only [feedByte,state]
    split
    · exact held
    · split
      · simp; omega
      · exact held
  | escape sent =>
    obtain ⟨state,least,most⟩ := at'
    simp only [feedByte,state]
    split
    · simp [endSubneg]
    · split
      · have room := fits sent rfl (by assumption)
        simp; omega
      · simp [endSubneg]

theorem fitsBounded {raw : Bytes} (fit : EscapesFit raw) : (feed fresh raw).1.sb.length ≤ maxSubnegLen := by
  induction raw using List.reverseRecOn with
  | nil => simp [feed,fresh]
  | append_singleton raw b ih =>
    rw [feedConcat]
    refine feedByteBounded (atAfter raw) (ih ?_) b ?_
    · intro before sent known place
      exact fit before sent (known.trans (List.prefix_append raw [b])) place
    · intro sent place escaped
      subst escaped
      exact fit raw sent (List.prefix_refl _) place

theorem overflows {before : Bytes} {sent : Nat} (place : placeAfter before = .escape sent) (full : maxSubnegLen ≤ sent) :
    maxSubnegLen < (feed fresh (before ++ [iac])).1.sb.length := by
  have held := atAfter before
  rw [place] at held
  obtain ⟨state,least,most⟩ := held
  rw [feedConcat]
  simp [feedByte,state,show iac ≠ se by decide]
  omega

theorem subnegotiationBounded (chunks : List Bytes) :
    (∀ p ∈ betweenAll fresh chunks, p.sb.length ≤ maxSubnegLen) ↔ EscapesFit chunks.flatten := by
  constructor
  · intro bounded before sent known place
    by_contra full
    have reached := bounded _ ((betweenAllIff _ _ _).mpr ⟨before ++ [iac],known,rfl⟩)
    have above := overflows place (Nat.not_lt.mp full)
    omega
  · intro fit p reached
    obtain ⟨part,known,rfl⟩ := (betweenAllIff _ _ _).mp reached
    refine fitsBounded ?_
    intro before sent inside place
    exact fit before sent (inside.trans known) place

theorem feedEscapes (acc : Bytes) (n : Nat) :
    feed ⟨.sb,none,acc⟩ (List.replicate n [iac,iac]).flatten = (⟨.sb,none,acc ++ List.replicate n iac⟩,nothing) := by
  induction n generalizing acc with
  | zero => simp [feed]
  | succ n ih =>
    have one : feed ⟨.sb,none,acc⟩ [iac,iac] = (⟨.sb,none,acc ++ [iac]⟩,nothing) := rfl
    rw [List.replicate_succ,List.flatten_cons,feedAppend,one]
    simp [ih,List.replicate_succ]

def escapeFlood (n : Nat) : Bytes := [iac,sb] ++ (List.replicate n [iac,iac]).flatten

theorem floodHeld (n : Nat) : (feed fresh (escapeFlood n)).1.sb.length = n := by
  have opened : feed fresh [iac,sb] = (⟨.sb,none,[]⟩,nothing) := rfl
  rw [escapeFlood,feedAppend,opened,feedEscapes]
  simp

theorem subnegotiationFlooded :
    ¬ ∀ p ∈ betweenAll fresh [escapeFlood (maxSubnegLen + 1)], p.sb.length ≤ maxSubnegLen := by
  intro bounded
  have last : (feed fresh (escapeFlood (maxSubnegLen + 1))).1 ∈ betweenAll fresh [escapeFlood (maxSubnegLen + 1)] :=
    (betweenAllIff _ _ _).mpr ⟨_,by simp only [List.flatten_singleton]; exact List.prefix_refl _,rfl⟩
  have held := bounded _ last
  rw [floodHeld] at held
  exact Nat.not_succ_le_self _ held

end Guesthopper.TelnetBound
