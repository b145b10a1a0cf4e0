import Guesthopper.TelnetInbound

/-! What a conforming telnet client encodes, item by item, and what the parser makes of it.
The encoding is read from the wire side, so an item says which bytes it puts there and,
apart from that, which typed byte, window size or refusal it stands for. -/
namespace Guesthopper.TelnetItems
open FrameBytes TelnetInbound

def telnetEscape (data : Bytes) : Bytes := data.flatMap (fun b => if b = iac then [iac,iac] else [b])

inductive Verb where
  | will
  | wont
  | doOpt
  | dont
  deriving DecidableEq, Repr

def Verb.byte : Verb → UInt8
  | .will => TelnetInbound.will
  | .wont => TelnetInbound.wont
  | .doOpt => TelnetInbound.doOpt
  | .dont => TelnetInbound.dont

inductive Item where
  | data (d : UInt8)
  | command (c : UInt8) (plain : c ∉ [iac,will,wont,doOpt,dont,sb])
  | negotiation (cmd : Verb) (opt : UInt8)
  | subneg (s : Bytes) (fits : s.length ≤ maxSubnegLen)

def Item.encode : Item → Bytes
  | .data d => telnetEscape [d]
  | .command c _ => [iac,c]
  | .negotiation cmd opt => [iac,cmd.byte,opt]
  | .subneg s _ => [iac,sb] ++ telnetEscape s ++ [iac,se]

def encodeItems (items : List Item) : Bytes := items.flatMap Item.encode

def Item.typed : Item → Bytes
  | .data d => [d]
  | _ => []

-- Width first, then height, high bytes first; a zero dimension is no size.
def windowSize (s : Bytes) : Option (Nat × Nat) :=
  let cols := (s.getD 1 0).toNat * 256 + (s.getD 2 0).toNat
  let rows := (s.getD 3 0).toNat * 256 + (s.getD 4 0).toNat
  if 5 ≤ s.length ∧ s.head? = some optNaws ∧ rows ≠ 0 ∧ cols ≠ 0 then some (rows,cols) else none

def Item.size : Item → List (Nat × Nat)
  | .subneg s _ => (windowSize s).toList
  | _ => []

def Item.refusal : Item → Bytes
  | .negotiation .doOpt opt => if opt ∈ [optEcho,optSga] then [] else [iac,TelnetInbound.wont,opt]
  | .negotiation .will opt => if opt = optNaws then [] else [iac,TelnetInbound.dont,opt]
  | _ => []

def Item.yields (i : Item) : Fed := ⟨i.typed,i.size,i.refusal⟩

def yieldsAll (items : List Item) : Fed :=
  ⟨items.flatMap Item.typed,items.flatMap Item.size,items.flatMap Item.refusal⟩

def feedAll (p : Parser) : List Bytes → Parser × Fed
  | [] => (p,nothing)
  | chunk::rest =>
    let (p,one) := feed p chunk
    let (p,more) := feedAll p rest
    (p,one.join more)

@[simp] theorem joinNothing (x : Fed) : x.join nothing = x := by simp [Fed.join,nothing]

@[simp] theorem nothingJoin (x : Fed) : nothing.join x = x := by simp [Fed.join,nothing]

theorem joinAssoc (x y z : Fed) : (x.join y).join z = x.join (y.join z) := by
  simp [Fed.join,List.append_assoc]

theorem feedAppend (p : Parser) (xs ys : Bytes) : feed p (xs ++ ys) =
    ((feed (feed p xs).1 ys).1,(feed p xs).2.join (feed (feed p xs).1 ys).2) := by
  induction xs generalizing p with
  | nil => simp [feed]
  | cons b rest ih => simp only [List.cons_append,feed,ih,joinAssoc]

theorem feedAllFlatten (p : Parser) (chunks : List Bytes) : feedAll p chunks = feed p chunks.flatten := by
  induction chunks generalizing p with
  | nil => rfl
  | cons chunk rest ih =>
    rw [List.flatten_cons,feedAppend]
    simp only [feedAll,ih]

theorem feedSubneg (s acc : Bytes) (fits : acc.length + s.length ≤ maxSubnegLen) :
    feed ⟨.sb,none,acc⟩ (telnetEscape s) = (⟨.sb,none,acc ++ s⟩,nothing) := by
  induction s generalizing acc with
  | nil => simp [telnetEscape,feed]
  | cons b s ih =>
    have more : (acc ++ [b]).length + s.length ≤ maxSubnegLen := by simp at fits ⊢; omega
    have room : acc.length < maxSubnegLen := by simp at fits; omega
    have shape : telnetEscape (b::s) = telnetEscape [b] ++ telnetEscape s := by simp [telnetEscape]
    have one : feed ⟨.sb,none,acc⟩ (telnetEscape [b]) = (⟨.sb,none,acc ++ [b]⟩,nothing) := by
      by_cases escaped : b = iac
      · subst escaped
        rfl
      · simp [telnetEscape,escaped,feed,feedByte,room]
    rw [shape,feedAppend,one]
    simp only [ih (acc ++ [b]) more,nothingJoin,List.append_assoc,List.singleton_append]

theorem endSubnegSize (s : Bytes) : endSubneg ⟨.sbIac,none,s⟩ = (fresh,⟨[],(windowSize s).toList,[]⟩) := by
  unfold endSubneg
  split
  · rename_i o c1 c0 r1 r0 rest shape
    have long : 5 ≤ (o::c1::c0::r1::r0::rest).length := by simp
    cases shape
    simp only [windowSize,List.getD_cons_zero,List.getD_cons_succ,List.head?_cons,Option.some.injEq,long,true_and]
    split <;> rfl
  · rename_i short
    have none : windowSize s = none := by
      refine if_neg ?_
      intro big
      match s with
      | o::c1::c0::r1::r0::rest => exact short o c1 c0 r1 r0 rest rfl
      | [] | [_] | [_,_] | [_,_,_] | [_,_,_,_] => simp at big
    rw [none]
    rfl

theorem negotiateRefusal (cmd : Verb) (opt : UInt8) :
    negotiate (some cmd.byte) opt = (Item.negotiation cmd opt).refusal := by
  cases cmd with
  | will => rfl
  | wont => rfl
  | doOpt => simp [negotiate,Item.refusal,Verb.byte]
  | dont => rfl

theorem feedItem (i : Item) : feed fresh i.encode = (fresh,i.yields) := by
  cases i with
  | data d =>
    by_cases escaped : d = iac
    · subst escaped
      rfl
    · simp [Item.encode,telnetEscape,escaped,feed,feedByte,fresh,Item.yields,Item.typed,Item.size,Item.refusal]
  | command c plain =>
    simp only [List.mem_cons,List.not_mem_nil,or_false,not_or] at plain
    obtain ⟨notIac,notWill,notWont,notDo,notDont,notSb⟩ := plain
    have done : feedByte ⟨.iac,none,[]⟩ c = (fresh,nothing) := by
      simp [feedByte,fresh,notIac,notWill,notWont,notDo,notDont,notSb]
    have begun : feedByte fresh iac = (⟨.iac,none,[]⟩,nothing) := rfl
    simp only [Item.encode,feed,begun,done,joinNothing]
    rfl
  | negotiation cmd opt =>
    have begun : feed fresh [iac,cmd.byte] = (⟨.opt,some cmd.byte,[]⟩,nothing) := by cases cmd <;> rfl
    have shape : (Item.negotiation cmd opt).encode = [iac,cmd.byte] ++ [opt] := rfl
    rw [shape,feedAppend,begun]
    simp only [feed,feedByte,negotiateRefusal,nothingJoin,joinNothing]
    rfl
  | subneg s fits =>
    have opened : feed fresh [iac,sb] = (⟨.sb,none,[]⟩,nothing) := rfl
    have closing : feed ⟨.sb,none,s⟩ [iac,se] = ((endSubneg ⟨.sbIac,none,s⟩).1,(endSubneg ⟨.sbIac,none,s⟩).2) := by
      simp [feed,feedByte]
    have middle := feedSubneg s [] (by simpa using fits)
    rw [List.nil_append] at middle
    rw [Item.encode,List.append_assoc,feedAppend,opened]
    simp only [feedAppend,middle,closing,endSubnegSize,nothingJoin]
    rfl

theorem feedItems (items : List Item) : feed fresh (encodeItems items) = (fresh,yieldsAll items) := by
  induction items with
  | nil => rfl
  | cons i items ih =>
    have shape : encodeItems (i::items) = i.encode ++ encodeItems items := by simp [encodeItems]
    rw [shape,feedAppend,feedItem]
    simp only [ih]
    simp [yieldsAll,Item.yields,Fed.join]

def Item.Refusal (i : Item) : Prop := ∃ opt, i = .negotiation .wont opt ∨ i = .negotiation .dont opt

theorem encodeItemsAppend (xs ys : List Item) : encodeItems (xs ++ ys) = encodeItems xs ++ encodeItems ys := by
  simp [encodeItems]

theorem negotiateRefuses (cmd : Option UInt8) (opt : UInt8) :
    ∃ items, negotiate cmd opt = encodeItems items ∧ ∀ i ∈ items, i.Refusal := by
  unfold negotiate
  split
  · split
    · exact ⟨[],rfl,by simp⟩
    · exact ⟨[.negotiation .wont opt],rfl,by simp [Item.Refusal]⟩
  · split
    · split
      · exact ⟨[],rfl,by simp⟩
      · exact ⟨[.negotiation .dont opt],rfl,by simp [Item.Refusal]⟩
    · exact ⟨[],rfl,by simp⟩

theorem feedByteRefuses (p : Parser) (b : UInt8) :
    ∃ items, (feedByte p b).2.replies = encodeItems items ∧ ∀ i ∈ items, i.Refusal := by
  cases state : p.state with
  | opt =>
    simp only [feedByte,state]
    exact negotiateRefuses p.cmd b
  | data | iac | sb | sbIac =>
    refine ⟨[],?_,by simp⟩
    simp only [feedByte,state]
    repeat' split
    all_goals rfl

theorem feedRefuses (p : Parser) (raw : Bytes) :
    ∃ items, (feed p raw).2.replies = encodeItems items ∧ ∀ i ∈ items, i.Refusal := by
  induction raw generalizing p with
  | nil => exact ⟨[],rfl,by simp⟩
  | cons b rest ih =>
    obtain ⟨first,one,refused⟩ := feedByteRefuses p b
    obtain ⟨later,more,others⟩ := ih (feedByte p b).1
    refine ⟨first ++ later,?_,List.forall_mem_append.mpr ⟨refused,others⟩⟩
    rw [encodeItemsAppend,← one,← more]
    rfl

theorem telnetParses (items : List Item) (chunks : List Bytes) (split : chunks.flatten = encodeItems items) :
    feedAll fresh chunks = (fresh,yieldsAll items) := by
  rw [feedAllFlatten,split,feedItems]

def sizedItems : List Item := [.data 97,.subneg [31,0,80,0,24] (by decide),.negotiation .doOpt 255,.data 255]

theorem telnetParsesSized :
    feedAll fresh [[97,255],[250,31,0,80],[],[0,24,255],[240,255,253],[255,255],[255]] =
      (fresh,⟨[97,255],[(24,80)],[255,252,255]⟩) :=
  telnetParses sizedItems _ (by decide)

end Guesthopper.TelnetItems
