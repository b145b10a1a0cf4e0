import Guesthopper.Machine
import Guesthopper.SessionModel

/-! A select-driven pty client, the agent's open-pty session and a foreground program,
joined by two bounded byte channels, the frame queue and the two bounded tty buffers. No
timeout of a blocked party is modelled, so none of the actions is one. A wake-up of the client
sends a batch of frames (run_shell one, bridge its RESIZEs and one STDIN) back to back
and only then reads a frame; while it is inside a send it reads nothing. The program
reads and writes as it likes and blocks on a full output buffer. -/
namespace Guesthopper.PtyDuplex
open FrameBytes
open Outbox (Box)
open Tap (Stream)

structure Caps where
  up : Nat
  down : Nat
  ttyIn : Nat
  ttyOut : Nat
  inboundLen : Nat
  upSome : 0 < up
  downSome : 0 < down
  ttyInSome : 0 < ttyIn
  ttyOutSome : 0 < ttyOut

inductive Client where
  | selecting
  | sending (rest : Bytes) (thenRead : Bool)
  | reading (buf : Bytes)
  | ended
  deriving DecidableEq, Repr

inductive Input where
  | reading (buf : Bytes)
  | writing (rest : Bytes)
  | ended
  deriving DecidableEq, Repr

inductive Program where
  | ready
  | writing (rest : Bytes)
  deriving DecidableEq, Repr

structure Duplex where
  client : Client
  up : Bytes
  input : Input
  ttyIn : Bytes
  program : Program
  out : Stream UInt8
  box : Box Frame UInt8
  down : Bytes
  deriving DecidableEq, Repr

def start : Duplex := ⟨.selecting,[],.reading [],[],.ready,Tap.opened,Outbox.empty,[]⟩

def pour (cap n : Nat) (src dst : Bytes) : Option (Bytes × Bytes) :=
  if 0 < n ∧ n ≤ src.length ∧ dst.length + n ≤ cap then some (src.drop n,dst ++ src.take n) else none

def missing (buf : Bytes) : Nat :=
  match buf with
  | _::a::b::c::d::rest => fromBe32 a b c d - rest.length
  | _ => 5 - buf.length

theorem missingRest {cap : Nat} {buf taken rest : Bytes} {f : Frame} (some : 0 < taken.length)
    (asked : taken.length ≤ missing buf) (h : head cap (buf ++ taken) = .frame f rest) : rest = [] := by
  have size := (headFrame h).2
  unfold missing at asked
  split at asked
  · rename_i t a b c d tail
    simp only [List.cons_append,head] at h
    split at h <;> try contradiction
    split at h <;> try contradiction
    cases h
    apply List.drop_of_length_le
    simp only [List.length_append]
    omega
  · simp only [List.length_append] at size
    apply List.eq_nil_of_length_eq_zero
    omega

inductive Arrival where
  | short
  | refused
  | whole (f : Frame)

def arrive (cap : Nat) (buf : Bytes) : Arrival :=
  match head cap buf with
  | .frame f _ => .whole f
  | .oversize _ => .refused
  | _ => .short

def takesFor (buf : Bytes) (n : Nat) (src : Bytes) : Bool := 0 < n ∧ n ≤ missing buf ∧ n ≤ src.length

-- Both clients read their local side in chunks of at most 4096 bytes.
def localChunk : Nat := 4096

def clientSends (fs : List Frame) (thenRead : Bool) (s : Duplex) : Option Duplex :=
  if s.client = .selecting ∧ fs ≠ [] ∧ (∀ f ∈ fs, f.payload.length ≤ localChunk) ∧ (thenRead → s.down ≠ []) then
    some {s with client := .sending (encodeAll fs) thenRead}
  else none

def clientReads (s : Duplex) : Option Duplex :=
  if s.client = .selecting ∧ s.down ≠ [] then some {s with client := .reading []} else none

def clientPuts (caps : Caps) (n : Nat) (s : Duplex) : Option Duplex :=
  match s.client with
  | .sending rest thenRead => do
      let (rest,up) ← pour caps.up n rest s.up
      some {s with client := .sending rest thenRead, up := up}
  | _ => none

def clientSent (s : Duplex) : Option Duplex :=
  match s.client with
  | .sending [] thenRead => some {s with client := if thenRead then .reading [] else .selecting}
  | _ => none

def shown (buf : Bytes) : Client :=
  match arrive maxFrameLen buf with
  | .short => .reading buf
  | .refused => .ended
  | .whole f => if f.ftype = frameExit ∨ f.ftype = frameError then .ended else .selecting

def clientTakes (n : Nat) (s : Duplex) : Option Duplex :=
  match s.client with
  | .reading buf =>
    if takesFor buf n s.down then
      some {s with client := shown (buf ++ s.down.take n), down := s.down.drop n}
    else none
  | _ => none

def dispatched (caps : Caps) (buf : Bytes) : Input :=
  match arrive (clampInbound caps.inboundLen) buf with
  | .short => .reading buf
  | .refused => .ended
  | .whole f => if f.ftype = frameStdin ∧ f.payload ≠ [] then .writing f.payload else .reading []

def agentTakes (caps : Caps) (n : Nat) (s : Duplex) : Option Duplex :=
  match s.input with
  | .reading buf =>
    if takesFor buf n s.up then
      some {s with input := dispatched caps (buf ++ s.up.take n), up := s.up.drop n}
    else none
  | _ => none

def agentWrites (caps : Caps) (n : Nat) (s : Duplex) : Option Duplex :=
  match s.input with
  | .writing rest => do
      let (rest,ttyIn) ← pour caps.ttyIn n rest s.ttyIn
      some {s with input := if rest = [] then .reading [] else .writing rest, ttyIn := ttyIn}
  | _ => none

def programTakes (n : Nat) (s : Duplex) : Option Duplex :=
  if s.program = .ready ∧ 0 < n ∧ n ≤ s.ttyIn.length then some {s with ttyIn := s.ttyIn.drop n} else none

def programWrites (raw : Bytes) (s : Duplex) : Option Duplex :=
  if s.program = .ready ∧ raw ≠ [] then some {s with program := .writing raw} else none

def programPuts (caps : Caps) (n : Nat) (s : Duplex) : Option Duplex :=
  match s.program with
  | .writing rest => do
      let (rest',_) ← pour caps.ttyOut n rest s.out.unread
      let out ← Tap.supply (rest.take n) s.out
      some {s with program := if rest' = [] then .ready else .writing rest', out := out}
  | _ => none

def outReads (n : Nat) (s : Duplex) : Option Duplex := do
  let out ← Tap.read SessionModel.readChunk n s.out
  some {s with out := out}

def outSends (s : Duplex) : Option Duplex :=
  match s.out.phase with
  | .holding chunk => do
      let box ← Outbox.offer SessionModel.channelBound ⟨frameStdout,chunk⟩ s.box
      some {s with box := box, out := Tap.release s.out}
  | _ => none

def writerTakes (s : Duplex) : Option Duplex := do
  let box ← Outbox.take encode s.box
  some {s with box := box}

def writerPuts (caps : Caps) (n : Nat) (s : Duplex) : Option Duplex :=
  match s.box.writer with
  | .writing _ rest => do
      let (_,down) ← pour caps.down n rest s.down
      let box ← Outbox.put n s.box
      some {s with box := box, down := down}
  | _ => none

def writerFlushed (s : Duplex) : Option Duplex := do
  let box ← Outbox.finish s.box
  some {s with box := box}

inductive Action where
  | clientSends (fs : List Frame) (thenRead : Bool)
  | clientReads
  | clientPuts (n : Nat)
  | clientSent
  | clientTakes (n : Nat)
  | agentTakes (n : Nat)
  | agentWrites (n : Nat)
  | programTakes (n : Nat)
  | programWrites (raw : Bytes)
  | programPuts (n : Nat)
  | outReads (n : Nat)
  | outSends
  | writerTakes
  | writerPuts (n : Nat)
  | writerFlushed
  deriving DecidableEq, Repr

def step (caps : Caps) (s : Duplex) : Action → Option Duplex
  | .clientSends fs thenRead => clientSends fs thenRead s
  | .clientReads => clientReads s
  | .clientPuts n => clientPuts caps n s
  | .clientSent => clientSent s
  | .clientTakes n => clientTakes n s
  | .agentTakes n => agentTakes caps n s
  | .agentWrites n => agentWrites caps n s
  | .programTakes n => programTakes n s
  | .programWrites raw => programWrites raw s
  | .programPuts n => programPuts caps n s
  | .outReads n => outReads n s
  | .outSends => outSends s
  | .writerTakes => writerTakes s
  | .writerPuts n => writerPuts caps n s
  | .writerFlushed => writerFlushed s

inductive Move (caps : Caps) (s : Duplex) : Action → Duplex → Prop where
  | clientSends {fs thenRead} (pc : s.client = .selecting) (few : ∀ f ∈ fs, f.payload.length ≤ localChunk)
      (nonempty : fs ≠ []) (readable : thenRead = true → s.down ≠ []) :
      Move caps s (.clientSends fs thenRead) {s with client := .sending (encodeAll fs) thenRead}
  | clientReads (pc : s.client = .selecting) (readable : s.down ≠ []) :
      Move caps s .clientReads {s with client := .reading []}
  | clientPuts {n rest thenRead} (pc : s.client = .sending rest thenRead)
      (positive : 0 < n) (enough : n ≤ rest.length) (room : s.up.length + n ≤ caps.up) :
      Move caps s (.clientPuts n) {s with client := .sending (rest.drop n) thenRead, up := s.up ++ rest.take n}
  | clientSent {thenRead} (pc : s.client = .sending [] thenRead) :
      Move caps s .clientSent {s with client := if thenRead then .reading [] else .selecting}
  | clientTakes {n buf} (pc : s.client = .reading buf)
      (positive : 0 < n) (asked : n ≤ missing buf) (enough : n ≤ s.down.length) :
      Move caps s (.clientTakes n) {s with client := shown (buf ++ s.down.take n), down := s.down.drop n}
  | agentTakes {n buf} (pc : s.input = .reading buf)
      (positive : 0 < n) (asked : n ≤ missing buf) (enough : n ≤ s.up.length) :
      Move caps s (.agentTakes n) {s with input := dispatched caps (buf ++ s.up.take n), up := s.up.drop n}
  | agentWrites {n rest} (pc : s.input = .writing rest)
      (positive : 0 < n) (enough : n ≤ rest.length) (room : s.ttyIn.length + n ≤ caps.ttyIn) :
      Move caps s (.agentWrites n) {s with
        input := if rest.drop n = [] then .reading [] else .writing (rest.drop n),
        ttyIn := s.ttyIn ++ rest.take n}
  | programTakes {n} (pc : s.program = .ready) (positive : 0 < n) (enough : n ≤ s.ttyIn.length) :
      Move caps s (.programTakes n) {s with ttyIn := s.ttyIn.drop n}
  | programWrites {raw} (pc : s.program = .ready) (nonempty : raw ≠ []) :
      Move caps s (.programWrites raw) {s with program := .writing raw}
  | programPuts {n rest out} (pc : s.program = .writing rest)
      (positive : 0 < n) (enough : n ≤ rest.length) (room : s.out.unread.length + n ≤ caps.ttyOut)
      (ok : Tap.supply (rest.take n) s.out = some out) :
      Move caps s (.programPuts n) {s with
        program := if rest.drop n = [] then .ready else .writing (rest.drop n), out := out}
  | outReads {n out} (ok : Tap.read SessionModel.readChunk n s.out = some out) :
      Move caps s (.outReads n) {s with out := out}
  | outSends {chunk box} (holds : s.out.phase = .holding chunk)
      (ok : Outbox.offer SessionModel.channelBound ⟨frameStdout,chunk⟩ s.box = some box) :
      Move caps s .outSends {s with box := box, out := Tap.release s.out}
  | writerTakes {box} (ok : Outbox.take encode s.box = some box) : Move caps s .writerTakes {s with box := box}
  | writerPuts {n f rest box} (pc : s.box.writer = .writing f rest)
      (positive : 0 < n) (enough : n ≤ rest.length) (room : s.down.length + n ≤ caps.down)
      (ok : Outbox.put n s.box = some box) :
      Move caps s (.writerPuts n) {s with box := box, down := s.down ++ rest.take n}
  | writerFlushed {box} (ok : Outbox.finish s.box = some box) : Move caps s .writerFlushed {s with box := box}

section Inversion
variable {caps : Caps} {s t : Duplex} {a : Action}

theorem pourCases {cap n : Nat} {src dst src' dst' : Bytes} (h : pour cap n src dst = some (src',dst')) :
    0 < n ∧ n ≤ src.length ∧ dst.length + n ≤ cap ∧ src' = src.drop n ∧ dst' = dst ++ src.take n := by
  unfold pour at h
  split at h <;> try contradiction
  rename_i able
  cases Option.some.inj h
  exact ⟨able.1,able.2.1,able.2.2,rfl,rfl⟩

theorem clientSendsMove {fs thenRead} (h : clientSends fs thenRead s = some t) :
    Move caps s (.clientSends fs thenRead) t := by
  unfold clientSends at h
  split at h <;> try contradiction
  rename_i able
  cases Option.some.inj h
  exact .clientSends able.1 able.2.2.1 able.2.1 able.2.2.2

theorem clientReadsMove (h : clientReads s = some t) : Move caps s .clientReads t := by
  unfold clientReads at h
  split at h <;> try contradiction
  rename_i able
  cases Option.some.inj h
  exact .clientReads able.1 able.2

theorem clientPutsMove {n} (h : clientPuts caps n s = some t) : Move caps s (.clientPuts n) t := by
  unfold clientPuts at h
  split at h <;> try contradiction
  simp only [bind,Option.bind_eq_some_iff] at h
  obtain ⟨⟨rest,up⟩,poured,last⟩ := h
  obtain ⟨positive,enough,room,rfl,rfl⟩ := pourCases poured
  cases Option.some.inj last
  exact .clientPuts (by assumption) positive enough room

theorem clientSentMove (h : clientSent s = some t) : Move caps s .clientSent t := by
  unfold clientSent at h
  split at h <;> try contradiction
  cases Option.some.inj h
  exact .clientSent (by assumption)

theorem clientTakesMove {n} (h : clientTakes n s = some t) : Move caps s (.clientTakes n) t := by
  unfold clientTakes at h
  split at h <;> try contradiction
  split at h <;> try contradiction
  rename_i able
  simp only [takesFor,decide_eq_true_eq] at able
  cases Option.some.inj h
  exact .clientTakes (by assumption) able.1 able.2.1 able.2.2

theorem agentTakesMove {n} (h : agentTakes caps n s = some t) : Move caps s (.agentTakes n) t := by
  unfold agentTakes at h
  split at h <;> try contradiction
  split at h <;> try contradiction
  rename_i able
  simp only [takesFor,decide_eq_true_eq] at able
  cases Option.some.inj h
  exact .agentTakes (by assumption) able.1 able.2.1 able.2.2

theorem agentWritesMove {n} (h : agentWrites caps n s = some t) : Move caps s (.agentWrites n) t := by
  unfold agentWrites at h
  split at h <;> try contradiction
  simp only [bind,Option.bind_eq_some_iff] at h
  obtain ⟨⟨rest,ttyIn⟩,poured,last⟩ := h
  obtain ⟨positive,enough,room,rfl,rfl⟩ := pourCases poured
  cases Option.some.inj last
  exact .agentWrites (by assumption) positive enough room

theorem programTakesMove {n} (h : programTakes n s = some t) : Move caps s (.programTakes n) t := by
  unfold programTakes at h
  split at h <;> try contradiction
  rename_i able
  cases Option.some.inj h
  exact .programTakes able.1 able.2.1 able.2.2

theorem programWritesMove {raw} (h : programWrites raw s = some t) : Move caps s (.programWrites raw) t := by
  unfold programWrites at h
  split at h <;> try contradiction
  rename_i able
  cases Option.some.inj h
  exact .programWrites able.1 able.2

theorem programPutsMove {n} (h : programPuts caps n s = some t) : Move caps s (.programPuts n) t := by
  unfold programPuts at h
  split at h <;> try contradiction
  simp only [bind,Option.bind_eq_some_iff] at h
  obtain ⟨⟨rest,unread⟩,poured,out,supplied,last⟩ := h
  obtain ⟨positive,enough,room,rfl,_⟩ := pourCases poured
  cases Option.some.inj last
  exact .programPuts (by assumption) positive enough room supplied

theorem outReadsMove {n} (h : outReads n s = some t) : Move caps s (.outReads n) t := by
  simp only [outReads,bind,Option.bind_eq_some_iff] at h
  obtain ⟨out,ok,last⟩ := h
  cases Option.some.inj last
  exact .outReads ok

theorem outSendsMove (h : outSends s = some t) : Move caps s .outSends t := by
  unfold outSends at h
  split at h <;> try contradiction
  simp only [bind,Option.bind_eq_some_iff] at h
  obtain ⟨box,ok,last⟩ := h
  cases Option.some.inj last
  exact .outSends (by assumption) ok

theorem writerTakesMove (h : writerTakes s = some t) : Move caps s .writerTakes t := by
  simp only [writerTakes,bind,Option.bind_eq_some_iff] at h
  obtain ⟨box,ok,last⟩ := h
  cases Option.some.inj last
  exact .writerTakes ok

theorem writerPutsMove {n} (h : writerPuts caps n s = some t) : Move caps s (.writerPuts n) t := by
  unfold writerPuts at h
  split at h <;> try contradiction
  simp only [bind,Option.bind_eq_some_iff] at h
  obtain ⟨⟨rest,down⟩,poured,box,ok,last⟩ := h
  obtain ⟨positive,enough,room,_,rfl⟩ := pourCases poured
  cases Option.some.inj last
  exact .writerPuts (by assumption) positive enough room ok

theorem writerFlushedMove (h : writerFlushed s = some t) : Move caps s .writerFlushed t := by
  simp only [writerFlushed,bind,Option.bind_eq_some_iff] at h
  obtain ⟨box,ok,last⟩ := h
  cases Option.some.inj last
  exact .writerFlushed ok

theorem stepMove (h : step caps s a = some t) : Move caps s a t := by
  cases a with
  | clientSends fs thenRead => exact clientSendsMove h
  | clientReads => exact clientReadsMove h
  | clientPuts n => exact clientPutsMove h
  | clientSent => exact clientSentMove h
  | clientTakes n => exact clientTakesMove h
  | agentTakes n => exact agentTakesMove h
  | agentWrites n => exact agentWritesMove h
  | programTakes n => exact programTakesMove h
  | programWrites raw => exact programWritesMove h
  | programPuts n => exact programPutsMove h
  | outReads n => exact outReadsMove h
  | outSends => exact outSendsMove h
  | writerTakes => exact writerTakesMove h
  | writerPuts n => exact writerPutsMove h
  | writerFlushed => exact writerFlushedMove h

end Inversion

def clientBlocked (caps : Caps) (s : Duplex) : Bool :=
  match s.client with
  | .sending (_::_) _ => caps.up ≤ s.up.length
  | _ => false

def inputBlocked (caps : Caps) (s : Duplex) : Bool :=
  match s.input with
  | .writing (_::_) => caps.ttyIn ≤ s.ttyIn.length
  | _ => false

def programBlocked (caps : Caps) (s : Duplex) : Bool :=
  match s.program with
  | .writing (_::_) => caps.ttyOut ≤ s.out.unread.length
  | _ => false

def outBlocked (s : Duplex) : Bool :=
  match s.out.phase with
  | .holding _ => SessionModel.channelBound ≤ s.box.queue.length
  | _ => false

def writerBlocked (caps : Caps) (s : Duplex) : Bool :=
  match s.box.writer with
  | .writing _ (_::_) => caps.down ≤ s.down.length
  | _ => false

def Wedged (caps : Caps) (s : Duplex) : Prop :=
  clientBlocked caps s = true ∧ inputBlocked caps s = true ∧ programBlocked caps s = true ∧
    outBlocked s = true ∧ writerBlocked caps s = true

instance (caps : Caps) : DecidablePred (Wedged caps) := fun s =>
  inferInstanceAs (Decidable (clientBlocked caps s = true ∧ inputBlocked caps s = true ∧
    programBlocked caps s = true ∧ outBlocked s = true ∧ writerBlocked caps s = true))

def Alive (s : Duplex) : Prop := s.client ≠ .ended ∧ s.input ≠ .ended

instance : DecidablePred Alive := fun s => inferInstanceAs (Decidable (s.client ≠ .ended ∧ s.input ≠ .ended))

def prompted : Action → Bool
  | .clientSends _ _ => true
  | _ => false

def Flows (caps : Caps) (s : Duplex) : Prop := ∃ a, prompted a = false ∧ (step caps s a).isSome = true

end Guesthopper.PtyDuplex
