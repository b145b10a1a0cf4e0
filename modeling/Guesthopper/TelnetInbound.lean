import Guesthopper.FrameBytes

/-! The client-to-server half of telnet as `TelnetInbound` parses it: one state machine
over bytes whose state survives from one `feed` to the next. A feed yields application
bytes, window sizes (rows, cols) and negotiation replies. -/
namespace Guesthopper.TelnetInbound
open FrameBytes

def iac : UInt8 := 255
def se : UInt8 := 240
def sb : UInt8 := 250
def will : UInt8 := 251
def wont : UInt8 := 252
def doOpt : UInt8 := 253
def dont : UInt8 := 254

def optEcho : UInt8 := 1
def optSga : UInt8 := 3
def optNaws : UInt8 := 31

def maxSubnegLen : Nat := 8192

inductive State where
  | data
  | iac
  | opt
  | sb
  | sbIac
  deriving DecidableEq, Repr

structure Parser where
  state : State
  cmd : Option UInt8
  sb : Bytes
  deriving DecidableEq, Repr

def fresh : Parser := ⟨.data,none,[]⟩

structure Fed where
  data : Bytes
  resizes : List (Nat × Nat)
  replies : Bytes
  deriving DecidableEq, Repr

def nothing : Fed := ⟨[],[],[]⟩

def Fed.join (x y : Fed) : Fed := ⟨x.data ++ y.data,x.resizes ++ y.resizes,x.replies ++ y.replies⟩

def negotiate (cmd : Option UInt8) (opt : UInt8) : Bytes :=
  if cmd = some doOpt then
    if opt = optEcho ∨ opt = optSga then [] else [iac,wont,opt]
  else if cmd = some will then
    if opt = optNaws then [] else [iac,dont,opt]
  else []

def endSubneg (p : Parser) : Parser × Fed :=
  let resizes := match p.sb with
    | o::c1::c0::r1::r0::_ =>
      let cols := c1.toNat * 256 + c0.toNat
      let rows := r1.toNat * 256 + r0.toNat
      if o = optNaws ∧ rows ≠ 0 ∧ cols ≠ 0 then [(rows,cols)] else []
    | _ => []
  ({p with state := .data, sb := []},⟨[],resizes,[]⟩)

def feedByte (p : Parser) (b : UInt8) : Parser × Fed :=
  match p.state with
  | .data => if b = iac then ({p with state := .iac},nothing) else (p,⟨[b],[],[]⟩)
  | .iac =>
    if b = iac then ({p with state := .data},⟨[iac],[],[]⟩)
    else if b = will ∨ b = wont ∨ b = doOpt ∨ b = dont then ({p with cmd := some b, state := .opt},nothing)
    else if b = sb then ({p with sb := [], state := .sb},nothing)
    else ({p with state := .data},nothing)
  | .opt => ({p with cmd := none, state := .data},⟨[],[],negotiate p.cmd b⟩)
  | .sb =>
    if b = iac then ({p with state := .sbIac},nothing)
    else if p.sb.length < maxSubnegLen then ({p with sb := p.sb ++ [b]},nothing)
    else (p,nothing)
  | .sbIac =>
    if b = se then endSubneg p
    else if b = iac then ({p with sb := p.sb ++ [iac], state := .sb},nothing)
    else endSubneg p

def feed (p : Parser) : Bytes → Parser × Fed
  | [] => (p,nothing)
  | b::rest =>
    let (p,one) := feedByte p b
    let (p,more) := feed p rest
    (p,one.join more)

end Guesthopper.TelnetInbound
