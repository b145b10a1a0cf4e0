import Mathlib.Data.List.Nodup
import Guesthopper.JsonText
import Guesthopper.LossyText
import Guesthopper.SessionText
import Guesthopper.TelnetInbound

/-! The JSON payloads the host builds and what the agent's deserialisation makes of them.
`json.dumps` is written out: it escapes everything outside printable ASCII, lone surrogates
too. serde_json is a parameter; what is relied on is how it reads a flat object that holds
each field of the target at most once. -/
namespace Guesthopper.ControlPayloads
open FrameBytes SessionText
open JsonText hiding Bytes

-- A character of a Python str from argv: a byte that does not decode arrives as a lone surrogate.
inductive ArgvChar where
  | char (c : Char)
  | undecodable (b : UInt8) (high : 128 ≤ b.toNat)
  deriving DecidableEq, Repr

abbrev PyStr := List ArgvChar

def ofText (cs : List Char) : PyStr := cs.map .char

def ArgvChar.tokens : ArgvChar → List Token
  | .char c => escape c
  | .undecodable b _ => [.unit (UInt16.ofNat (0xDC00 + b.toNat))]

def dumpsStr (s : PyStr) : Literal := .string (s.flatMap ArgvChar.tokens)

def decimal (n : Nat) : Bytes := utf8 (toString n).toList

theorem asciiUtf8 {cs : List Char} (ascii : ∀ c ∈ cs, c.toNat < 128) :
    utf8 cs = cs.map (fun c => UInt8.ofNat c.toNat) := by
  induction cs with
  | nil => rfl
  | cons c cs ih =>
    obtain ⟨first,later⟩ := List.forall_mem_cons.mp ascii
    have one : String.utf8EncodeChar c = [UInt8.ofNat c.toNat] := if_pos (show c.val.toNat ≤ 0x7f by
      have : c.val.toNat < 128 := first
      omega)
    have shape : utf8 (c::cs) = String.utf8EncodeChar c ++ utf8 cs := by simp [utf8]
    rw [shape,one,ih later]
    rfl

theorem digitRange {n : Nat} {c : Char} (known : c ∈ Nat.toDigits 10 n) : 48 ≤ c.toNat ∧ c.toNat ≤ 57 := by
  have digit := Nat.isDigit_of_mem_toDigits (by decide) (by decide) known
  simp only [Char.isDigit,Bool.and_eq_true,decide_eq_true_eq] at digit
  exact digit

theorem decimalDigits (n : Nat) : decimal n = (Nat.toDigits 10 n).map (fun c => UInt8.ofNat c.toNat) := by
  have text : (toString n).toList = Nat.toDigits 10 n := Nat.toList_repr
  rw [decimal,text]
  refine asciiUtf8 ?_
  intro c known
  have := digitRange known
  omega

theorem digitByte {n : Nat} {c : Char} (known : c ∈ Nat.toDigits 10 n) :
    (UInt8.ofNat c.toNat).toNat = c.toNat := by
  have := digitRange known
  rw [UInt8.toNat_ofNat',Nat.mod_eq_of_lt (by omega)]

theorem decimalRange {n : Nat} {b : UInt8} (known : b ∈ decimal n) : 48 ≤ b.toNat ∧ b.toNat ≤ 57 := by
  rw [decimalDigits] at known
  obtain ⟨c,digit,rfl⟩ := List.mem_map.mp known
  rw [digitByte digit]
  exact digitRange digit

theorem decimalBare (n : Nat) : Bare (decimal n) := by
  refine ⟨by simp [decimalDigits,Nat.toDigits_ne_nil],?_⟩
  intro b known
  have range := decimalRange known
  have other : ∀ d : UInt8, d.toNat < 48 ∨ 57 < d.toNat → b ≠ d := by
    intro d outside is
    rw [is] at range
    omega
  exact ⟨by omega,by omega,other 34 (by decide),other 44 (by decide),other 125 (by decide)⟩

def dumpsInt (n : Nat) : Literal := .bare (decimal n) (decimalBare n)

def member (key : String) (value : Literal) : Member := ⟨key.toList.flatMap escape,value⟩

def openPtyRequest (rows cols : Nat) : Bytes :=
  flatText [member "verb" (dumpsStr (ofText "open-pty".toList)),member "rows" (dumpsInt rows),member "cols" (dumpsInt cols)]

def execRequest (command : PyStr) : Bytes :=
  flatText [member "verb" (dumpsStr (ofText "exec".toList)),member "cmd" (dumpsStr command)]

def resizePayload (rows cols : Nat) : Bytes := flatText [member "rows" (dumpsInt rows),member "cols" (dumpsInt cols)]

def prepareCommand (command : PyStr) : PyStr := ofText "export PATH=/igloo/utils:$PATH; ".toList ++ command

-- The text json.dumps gives a deadline: any text that can stand as a value of its own.
structure Number where
  text : Bytes
  ok : Bare text

def inlineExecRequest (command : PyStr) (deadline : Option Number) : Bytes :=
  flatText ([member "verb" (dumpsStr (ofText "exec".toList)),member "cmd" (dumpsStr (prepareCommand command))] ++
    (deadline.map (fun d => member "deadline" (.bare d.text d.ok))).toList)

structure Resize where
  rows : UInt16
  cols : UInt16
  deriving DecidableEq, Repr

def field (name : String) (ms : List Member) : Option Literal :=
  (ms.find? (fun m => denote m.key = some name.toList)).map Member.value

def textOf : Literal → Option String
  | .string ts => (denote ts).map String.ofList
  | .bare _ _ => none

def value (text : Bytes) : Nat := Nat.ofDigitChars 10 (text.map (fun b => Char.ofNat b.toNat)) 0

def u16Of : Literal → Option UInt16
  | .bare text _ => if value text < 2^16 ∧ decimal (value text) = text then some (UInt16.ofNat (value text)) else none
  | .string _ => none

-- `#[serde(default)]` on an Option: absent and null are None.
def optional {α : Type} (read : Literal → Option α) : Option Literal → Option (Option α)
  | none => some none
  | some (.bare text ok) => if text = utf8 "null".toList then some none else (read (.bare text ok)).map some
  | some l => (read l).map some

def floatOf (float : Bytes → Option F64) : Literal → Option F64
  | .bare text _ => float text
  | .string _ => none

def requestOf (float : Bytes → Option F64) (ms : List Member) : Option Request := do
  let verb ← (field "verb" ms).bind textOf
  let cmd ← optional textOf (field "cmd" ms)
  let deadline ← optional (floatOf float) (field "deadline" ms)
  let rows ← optional u16Of (field "rows" ms)
  let cols ← optional u16Of (field "cols" ms)
  return ⟨verb,cmd,deadline,rows,cols⟩

def resizeOf (ms : List Member) : Option Resize := do
  let rows ← (field "rows" ms).bind u16Of
  let cols ← (field "cols" ms).bind u16Of
  return ⟨rows,cols⟩

def Known (keys : List String) (ms : List Member) : Prop :=
  (∀ m ∈ ms, ∃ k ∈ keys, denote m.key = some k.toList) ∧ (ms.map (fun m => denote m.key)).Nodup

structure Serde where
  request : Bytes → Option Request
  resize : Bytes → Option Resize
  float : Bytes → Option F64
  requestReads : ∀ ms, Known ["verb","cmd","deadline","rows","cols"] ms → request (flatText ms) = requestOf float ms
  resizeReads : ∀ ms, Known ["rows","cols"] ms → resize (flatText ms) = resizeOf ms

theorem valueDecimal (n : Nat) : value (decimal n) = n := by
  have back : ∀ c ∈ Nat.toDigits 10 n, Char.ofNat (UInt8.ofNat c.toNat).toNat = c := by
    intro c known
    rw [digitByte known]
    exact Char.ofNat_toNat c
  have digits : (Nat.toDigits 10 n).map (fun c => Char.ofNat (UInt8.ofNat c.toNat).toNat) = Nat.toDigits 10 n :=
    (List.map_congr_left back).trans (List.map_id _)
  rw [value,decimalDigits,List.map_map]
  exact (congrArg (fun cs => Nat.ofDigitChars 10 cs 0) digits).trans Nat.ofDigitChars_ten_toDigits

theorem u16Decimal (n : Nat) : u16Of (dumpsInt n) = if n < 2^16 then some (UInt16.ofNat n) else none := by
  simp only [u16Of,dumpsInt,valueDecimal,and_true]

def argvText : PyStr → Option (List Char)
  | [] => some []
  | .char c::s => (argvText s).map (c :: ·)
  | .undecodable _ _::_ => none

theorem denoteArgv (s : PyStr) : denote (s.flatMap ArgvChar.tokens) = argvText s := by
  induction s with
  | nil => rfl
  | cons c s ih =>
    rw [List.flatMap_cons]
    cases c with
    | char c =>
      have first : ArgvChar.tokens (.char c) = escape c := rfl
      rw [first,denote,denoteEscape,argvText,← ih]
      rfl
    | undecodable b high =>
      have first : ArgvChar.tokens (.undecodable b high) = [.unit (UInt16.ofNat (0xDC00 + b.toNat))] := rfl
      have same := unitOf (n := 0xDC00 + b.toNat) (by have := b.toNat_lt; omega)
      have low : Low (UInt16.ofNat (0xDC00 + b.toNat)) := by
        have := b.toNat_lt
        unfold Low
        omega
      rw [first,List.singleton_append,denote,denoteLow low,argvText]

theorem argvOfText (cs : List Char) : argvText (ofText cs) = some cs := by
  induction cs with
  | nil => rfl
  | cons c cs ih =>
    have shape : ofText (c::cs) = .char c::ofText cs := rfl
    rw [shape,argvText,ih]
    rfl

theorem argvAppend (cs : List Char) (s : PyStr) : argvText (ofText cs ++ s) = (argvText s).map (cs ++ ·) := by
  induction cs with
  | nil => simp [ofText]
  | cons c cs ih =>
    have shape : ofText (c::cs) ++ s = .char c::(ofText cs ++ s) := rfl
    rw [shape,argvText,ih,Option.map_map]
    rfl

theorem argvExact {s : PyStr} {cs : List Char} : argvText s = some cs ↔ s = ofText cs := by
  induction s generalizing cs with
  | nil => cases cs <;> simp [argvText,ofText]
  | cons c s ih =>
    cases c with
    | char c => cases cs <;> simp [argvText,ofText,ih,and_comm]
    | undecodable b high => cases cs <;> simp [argvText,ofText]

@[simp] theorem fieldMember (name key : String) (v : Literal) (ms : List Member) :
    field name (member key v::ms) = if key = name then some v else field name ms := by
  have here : denote (member key v).key = some key.toList := denoteText key.toList
  by_cases same : key = name
  · rw [if_pos same]
    subst same
    simp only [field,List.find?_cons,here,decide_true,Option.map_some]
    rfl
  · have other : key.toList ≠ name.toList := fun is => same (String.toList_inj.mp is)
    simp [field,here,same,other]

@[simp] theorem fieldNone (name : String) : field name [] = none := rfl

@[simp] theorem textDumps (s : PyStr) : textOf (dumpsStr s) = (argvText s).map String.ofList := by
  rw [textOf.eq_def,dumpsStr]
  simp only [denoteArgv]

theorem memberKeys (ms : List (String × Literal)) :
    (ms.map (fun m => member m.1 m.2)).map (fun m => denote m.key) = ms.map (fun m => some m.1.toList) := by
  rw [List.map_map]
  exact List.map_congr_left (fun m _ => denoteText m.1.toList)

theorem knownMembers {keys : List String} {ms : List (String × Literal)} (inside : ∀ m ∈ ms, m.1 ∈ keys)
    (once : (ms.map Prod.fst).Nodup) : Known keys (ms.map (fun m => member m.1 m.2)) := by
  refine ⟨?_,?_⟩
  · intro m known
    obtain ⟨pair,present,rfl⟩ := List.mem_map.mp known
    exact ⟨pair.1,inside pair present,denoteText pair.1.toList⟩
  · rw [memberKeys]
    have inj : Function.Injective (fun k : String => some k.toList) := by
      intro a b same
      exact String.toList_inj.mp (Option.some.inj same)
    have shape : ms.map (fun m => some m.1.toList) = (ms.map Prod.fst).map (fun k => some k.toList) := by
      rw [List.map_map]
      rfl
    rw [shape]
    exact List.Nodup.map inj once

theorem requestMembers (serde : Serde) {ms : List (String × Literal)}
    (inside : ∀ m ∈ ms, m.1 ∈ ["verb","cmd","deadline","rows","cols"]) (once : (ms.map Prod.fst).Nodup) :
    serde.request (flatText (ms.map (fun m => member m.1 m.2))) =
      requestOf serde.float (ms.map (fun m => member m.1 m.2)) :=
  serde.requestReads _ (knownMembers inside once)

section Payloads
variable (serde : Serde)

theorem bothFit {p q : Prop} [Decidable p] [Decidable q] {α β γ : Type} (a : α) (b : β) (make : α → β → Option γ) :
    ((if p then some a else none).bind fun x => (if q then some b else none).bind (make x)) =
      if p ∧ q then make a b else none := by
  by_cases first : p
  · by_cases second : q
    · rw [if_pos first,if_pos second,if_pos ⟨first,second⟩]
      rfl
    · rw [if_pos first,if_neg second,if_neg (fun both => second both.2)]
      rfl
  · rw [if_neg first,if_neg (show ¬ (p ∧ q) from fun both => first both.1)]
    rfl

@[simp] theorem optionalInt (n : Nat) : optional u16Of (some (dumpsInt n)) =
    if n < 2^16 then some (some (UInt16.ofNat n)) else none := by
  have digits : decimal n ≠ utf8 "null".toList := by
    intro same
    have letter : (110 : UInt8) ∈ decimal n := by rw [same]; decide
    have range := decimalRange letter
    simp at range
  have read : optional u16Of (some (dumpsInt n)) = (u16Of (dumpsInt n)).map some := if_neg digits
  rw [read,u16Decimal]
  split <;> rfl

@[simp] theorem optionalText (s : PyStr) :
    optional textOf (some (dumpsStr s)) = (argvText s).map (fun cs => some (String.ofList cs)) := by
  have read : optional textOf (some (dumpsStr s)) = (textOf (dumpsStr s)).map some := rfl
  rw [read,textDumps,Option.map_map]
  rfl

@[simp] theorem optionalNone {α : Type} (read : Literal → Option α) : optional read none = some none := rfl

theorem verbReads (verb : String) (ms : List Member) :
    (field "verb" (member "verb" (dumpsStr (ofText verb.toList))::ms)).bind textOf = some verb := by
  rw [fieldMember,if_pos rfl,Option.bind_some,textDumps,argvOfText,Option.map_some,String.ofList_toList]

def openPtyMembers (rows cols : Nat) : List (String × Literal) :=
  [("verb",dumpsStr (ofText "open-pty".toList)),("rows",dumpsInt rows),("cols",dumpsInt cols)]

theorem openPtyReads (rows cols : Nat) : serde.request (openPtyRequest rows cols) =
    if rows < 2^16 ∧ cols < 2^16 then
      some ⟨"open-pty",none,none,some (UInt16.ofNat rows),some (UInt16.ofNat cols)⟩ else none := by
  have reads := @requestMembers serde (openPtyMembers rows cols) (by simp [openPtyMembers]) (by simp [openPtyMembers])
  refine Eq.trans reads ?_
  generalize shape : (openPtyMembers rows cols).map (fun m => member m.1 m.2) = ms
  have verb : (field "verb" ms).bind textOf = some "open-pty" := by rw [← shape]; exact verbReads "open-pty" _
  have cmd : field "cmd" ms = none := by rw [← shape]; simp [openPtyMembers]
  have deadline : field "deadline" ms = none := by rw [← shape]; simp [openPtyMembers]
  have tall : field "rows" ms = some (dumpsInt rows) := by rw [← shape]; simp [openPtyMembers]
  have wide : field "cols" ms = some (dumpsInt cols) := by rw [← shape]; simp [openPtyMembers]
  simp only [requestOf,verb,cmd,deadline,tall,wide,optionalNone,optionalInt]
  exact bothFit _ _ _

def Number.literal (d : Number) : Literal := .bare d.text d.ok

def execMembers (cmd : PyStr) (deadline : Option Number) : List (String × Literal) :=
  [("verb",dumpsStr (ofText "exec".toList)),("cmd",dumpsStr cmd)] ++
    (deadline.map (fun d => ("deadline",d.literal))).toList

theorem execReads (cmd : PyStr) (deadline : Option Number) :
    serde.request (flatText ((execMembers cmd deadline).map (fun m => member m.1 m.2))) =
      (argvText cmd).bind (fun cs => (optional (floatOf serde.float) (deadline.map Number.literal)).map
        (fun d => ⟨"exec",some (String.ofList cs),d,none,none⟩)) := by
  have reads := @requestMembers serde (execMembers cmd deadline)
    (by cases deadline <;> simp [execMembers]) (by cases deadline <;> simp [execMembers])
  refine Eq.trans reads ?_
  generalize shape : (execMembers cmd deadline).map (fun m => member m.1 m.2) = ms
  have verb : (field "verb" ms).bind textOf = some "exec" := by rw [← shape]; exact verbReads "exec" _
  have text : field "cmd" ms = some (dumpsStr cmd) := by rw [← shape]; simp [execMembers]
  have limit : field "deadline" ms = deadline.map Number.literal := by
    rw [← shape]
    cases deadline <;> simp [execMembers]
  have rows : field "rows" ms = none := by
    rw [← shape]
    cases deadline <;> simp [execMembers]
  have cols : field "cols" ms = none := by
    rw [← shape]
    cases deadline <;> simp [execMembers]
  simp only [requestOf,verb,text,limit,rows,cols,optionalNone,optionalText]
  cases argvText cmd with
  | none => rfl
  | some cs => cases optional (floatOf serde.float) (deadline.map Number.literal) <;> rfl

def resizeMembers (rows cols : Nat) : List (String × Literal) := [("rows",dumpsInt rows),("cols",dumpsInt cols)]

theorem resizeReads (rows cols : Nat) : serde.resize (resizePayload rows cols) =
    if rows < 2^16 ∧ cols < 2^16 then some ⟨UInt16.ofNat rows,UInt16.ofNat cols⟩ else none := by
  have known := @knownMembers ["rows","cols"] (resizeMembers rows cols) (by simp [resizeMembers]) (by simp [resizeMembers])
  have reads := serde.resizeReads _ known
  refine Eq.trans reads ?_
  generalize shape : (resizeMembers rows cols).map (fun m => member m.1 m.2) = ms
  have tall : field "rows" ms = some (dumpsInt rows) := by rw [← shape]; simp [resizeMembers]
  have wide : field "cols" ms = some (dumpsInt cols) := by rw [← shape]; simp [resizeMembers]
  simp only [resizeOf,tall,wide,Option.bind_some,u16Decimal]
  exact bothFit _ _ _

end Payloads

def orDefault (n default : Nat) : Nat := if n = 0 then default else n

inductive Built where
  | guestExec (command : PyStr) (deadline : Option Number)
  | shellPty (rows cols : UInt16)
  | shellResize (rows cols : UInt16)
  | telnetPty
  | telnetResize (p : TelnetInbound.Parser) (raw : Bytes) (size : Nat × Nat)
      (emitted : size ∈ (TelnetInbound.feed p raw).2.resizes)
  | sshExec (command : Bytes)
  | sshPty (width height : UInt32)
  | sshResize (width height : UInt32)

inductive Given where
  | exec (cmd : PyStr)
  | openPty (rows cols : Nat)
  | resize (rows cols : Nat)

def Built.given : Built → Given
  | .guestExec command _ => .exec (prepareCommand command)
  | .shellPty rows cols => .openPty (orDefault rows.toNat 24) (orDefault cols.toNat 80)
  | .shellResize rows cols => .resize (orDefault rows.toNat 24) (orDefault cols.toNat 80)
  | .telnetPty => .openPty 24 80
  | .telnetResize _ _ size _ => .resize size.1 size.2
  | .sshExec command => .exec (ofText (LossyText.decode command))
  | .sshPty width height => .openPty (orDefault height.toNat 24) (orDefault width.toNat 80)
  | .sshResize width height => .resize height.toNat width.toNat

def Built.payload (b : Built) : Bytes :=
  match b.given with
  | .exec cmd => match b with
    | .guestExec command deadline => inlineExecRequest command deadline
    | _ => execRequest cmd
  | .openPty rows cols => openPtyRequest rows cols
  | .resize rows cols => resizePayload rows cols

def Decodes (serde : Serde) (b : Built) : Prop :=
  match b.given with
  | .exec cmd => ∃ r text, serde.request b.payload = some r ∧ r.verb = "exec" ∧ r.cmd = some text ∧
      ofText text.toList = cmd ∧ r.rows = none ∧ r.cols = none
  | .openPty rows cols => ∃ r, serde.request b.payload = some r ∧ r.verb = "open-pty" ∧ r.cmd = none ∧
      r.rows.map UInt16.toNat = some rows ∧ r.cols.map UInt16.toNat = some cols
  | .resize rows cols => ∃ r, serde.resize b.payload = some r ∧ r.rows.toNat = rows ∧ r.cols.toNat = cols

def Readable (serde : Serde) (deadline : Option Number) : Prop :=
  (optional (floatOf serde.float) (deadline.map Number.literal)).isSome

def Representable (serde : Serde) : Built → Prop
  | .guestExec command deadline => (∃ cs, command = ofText cs) ∧ Readable serde deadline
  | .sshPty width height | .sshResize width height => width.toNat < 2^16 ∧ height.toNat < 2^16
  | _ => True

theorem inlineExecMembers (command : PyStr) (deadline : Option Number) :
    inlineExecRequest command deadline =
      flatText ((execMembers (prepareCommand command) deadline).map (fun m => member m.1 m.2)) := by
  cases deadline <;> rfl

theorem prepareExact {command : PyStr} {cs : List Char} : argvText (prepareCommand command) = some cs ↔
    ∃ text, command = ofText text ∧ cs = "export PATH=/igloo/utils:$PATH; ".toList ++ text := by
  rw [prepareCommand,argvAppend]
  simp only [Option.map_eq_some_iff,argvExact]
  constructor
  · intro ⟨text,same,shape⟩
    exact ⟨text,same,shape.symm⟩
  · intro ⟨text,same,shape⟩
    exact ⟨text,same,shape.symm⟩

theorem endSubnegFits {p : TelnetInbound.Parser} {size : Nat × Nat}
    (emitted : size ∈ (TelnetInbound.endSubneg p).2.resizes) : size.1 < 2^16 ∧ size.2 < 2^16 := by
  unfold TelnetInbound.endSubneg at emitted
  dsimp only at emitted
  split at emitted
  · rename_i o c1 c0 r1 r0 rest _
    have := c1.toNat_lt
    have := c0.toNat_lt
    have := r1.toNat_lt
    have := r0.toNat_lt
    split at emitted
    · cases List.mem_singleton.mp emitted
      dsimp only
      omega
    · simp at emitted
  · simp at emitted

theorem feedByteFits {p : TelnetInbound.Parser} {b : UInt8} {size : Nat × Nat}
    (emitted : size ∈ (TelnetInbound.feedByte p b).2.resizes) : size.1 < 2^16 ∧ size.2 < 2^16 := by
  unfold TelnetInbound.feedByte at emitted
  repeat' split at emitted
  all_goals first | exact endSubnegFits emitted | simp [TelnetInbound.nothing] at emitted

theorem telnetFits {p : TelnetInbound.Parser} {raw : Bytes} {size : Nat × Nat}
    (emitted : size ∈ (TelnetInbound.feed p raw).2.resizes) : size.1 < 2^16 ∧ size.2 < 2^16 := by
  induction raw generalizing p with
  | nil => simp [TelnetInbound.feed,TelnetInbound.nothing] at emitted
  | cons b rest ih =>
    rcases List.mem_append.mp emitted with now | later
    · exact feedByteFits now
    · exact ih later

theorem sizeFits {serde : Serde} {b : Built} {rows cols : Nat} (given : b.given = .openPty rows cols ∨ b.given = .resize rows cols) :
    Decodes serde b ↔ rows < 2^16 ∧ cols < 2^16 := by
  rcases given with pty | resize
  · have payload : b.payload = openPtyRequest rows cols := by rw [Built.payload,pty]
    simp only [Decodes,pty,payload,openPtyReads]
    by_cases fits : rows < 2^16 ∧ cols < 2^16
    · rw [if_pos fits]
      refine iff_of_true ⟨_,rfl,rfl,rfl,?_,?_⟩ fits
      · exact congrArg some (unitOf fits.1)
      · exact congrArg some (unitOf fits.2)
    · rw [if_neg fits]
      refine iff_of_false ?_ fits
      simp
  · have payload : b.payload = resizePayload rows cols := by rw [Built.payload,resize]
    simp only [Decodes,resize,payload,resizeReads]
    by_cases fits : rows < 2^16 ∧ cols < 2^16
    · rw [if_pos fits]
      refine iff_of_true ⟨_,rfl,?_,?_⟩ fits
      · exact unitOf fits.1
      · exact unitOf fits.2
    · rw [if_neg fits]
      refine iff_of_false ?_ fits
      simp

theorem execFits {serde : Serde} {b : Built} {cmd : PyStr} {deadline : Option Number}
    (payload : b.payload = flatText ((execMembers cmd deadline).map (fun m => member m.1 m.2)))
    (given : b.given = .exec cmd) :
    Decodes serde b ↔ (∃ cs, argvText cmd = some cs) ∧ Readable serde deadline := by
  simp only [Decodes,given,payload,execReads,Readable]
  cases text : argvText cmd with
  | none => simp
  | some cs =>
    cases optional (floatOf serde.float) (deadline.map Number.literal) with
    | none => simp
    | some d =>
      refine iff_of_true ⟨_,_,rfl,rfl,rfl,?_,rfl,rfl⟩ (by simp)
      rw [String.toList_ofList]
      exact (argvExact.mp text).symm

theorem orDefaultFits {n default bound : Nat} (fits : default < bound) : orDefault n default < bound ↔ n < bound := by
  unfold orDefault
  split <;> omega

theorem guestExecFits {serde : Serde} (command : PyStr) (deadline : Option Number) :
    Decodes serde (.guestExec command deadline) ↔ (∃ cs, command = ofText cs) ∧ Readable serde deadline := by
  have payload : (Built.guestExec command deadline).payload =
      flatText ((execMembers (prepareCommand command) deadline).map (fun m => member m.1 m.2)) :=
    inlineExecMembers command deadline
  rw [execFits payload rfl]
  simp only [prepareExact]
  constructor
  · intro ⟨⟨_,text,same,_⟩,readable⟩
    exact ⟨⟨text,same⟩,readable⟩
  · intro ⟨⟨text,same⟩,readable⟩
    exact ⟨⟨_,text,same,rfl⟩,readable⟩

theorem payloadsDecode (serde : Serde) (b : Built) : Decodes serde b ↔ Representable serde b := by
  cases b with
  | guestExec command deadline => exact guestExecFits command deadline
  | shellPty rows cols =>
    refine iff_of_true ((sizeFits (.inl rfl)).mpr ⟨?_,?_⟩) trivial
    · exact (orDefaultFits (by decide)).mpr rows.toNat_lt
    · exact (orDefaultFits (by decide)).mpr cols.toNat_lt
  | shellResize rows cols =>
    refine iff_of_true ((sizeFits (.inr rfl)).mpr ⟨?_,?_⟩) trivial
    · exact (orDefaultFits (by decide)).mpr rows.toNat_lt
    · exact (orDefaultFits (by decide)).mpr cols.toNat_lt
  | telnetPty => exact iff_of_true ((sizeFits (.inl rfl)).mpr (by decide)) trivial
  | telnetResize p raw size emitted => exact iff_of_true ((sizeFits (.inr rfl)).mpr (telnetFits emitted)) trivial
  | sshExec command =>
    have shape : (Built.sshExec command).payload =
        flatText ((execMembers (ofText (LossyText.decode command)) none).map (fun m => member m.1 m.2)) := rfl
    exact iff_of_true ((execFits shape rfl).mpr ⟨⟨_,argvOfText _⟩,rfl⟩) trivial
  | sshPty width height =>
    refine (sizeFits (.inl rfl)).trans ?_
    rw [orDefaultFits (by decide),orDefaultFits (by decide)]
    exact and_comm
  | sshResize width height => exact (sizeFits (.inr rfl)).trans and_comm

def plainFloat (text : Bytes) : Option F64 :=
  if decimal (value text) = text then some (.finite (value text)) else none

def plainSerde : Serde where
  request raw := (readFlat raw).bind (requestOf plainFloat)
  resize raw := (readFlat raw).bind resizeOf
  float := plainFloat
  requestReads ms _ := by rw [readFlatText]; rfl
  resizeReads ms _ := by rw [readFlatText]; rfl

theorem payloadsDecodePlain :
    Decodes plainSerde (.guestExec (ofText "ls".toList) none) ∧ ¬ Decodes plainSerde (.sshResize 65536 24) := by
  constructor
  · exact (payloadsDecode plainSerde _).mpr ⟨⟨_,rfl⟩,rfl⟩
  · intro decodes
    exact absurd ((payloadsDecode plainSerde _).mp decodes).1 (by decide)

theorem surrogateRefused : ¬ Decodes plainSerde (.guestExec [.undecodable 255 (by decide)] none) ∧
    ¬ Decodes plainSerde (.sshResize 65536 24) ∧ ¬ Decodes plainSerde (.sshPty 65536 24) := by
  refine ⟨?_,?_,?_⟩
  · rw [guestExecFits]
    intro both
    obtain ⟨cs,same⟩ := both.1
    cases cs <;> simp [ofText] at same
  · rw [sizeFits (.inr rfl)]
    decide
  · rw [sizeFits (.inl rfl)]
    decide

end Guesthopper.ControlPayloads
