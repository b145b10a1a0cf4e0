import Guesthopper.Machine
import Guesthopper.Outbox
import Guesthopper.Tap
import Guesthopper.SessionText

/-! One session of the agent, from the accepted stream to `run_session`'s return: the
session task, its output tasks, the writer task, the child and the peer. An action is
what happens between two suspensions of a task, or a move of the child or the peer, so
a list of actions is one interleaving. Each system call of a session happens at most
once and its outcome is a field of `Env`; third-party parsers and text formatting are
fields too. A timer that is armed may elapse at any moment. Handing the guidance text of
`warn_long_command` to the console is left out. -/
namespace Guesthopper.SessionModel
open FrameBytes SessionText
open Outbox (Box)
open Tap (Stream)

def readChunk : Nat := 32 * 1024
def channelBound : Nat := 64

inductive OpenptyOutcome where
  | pair
  | osError (text : String)
  | taskFailed (text : String)
  deriving DecidableEq, Repr

structure Env where
  parseRequest : Bytes → Except String Request
  parseResize : Bytes → Option (UInt16 × UInt16)
  debugText : String → String
  floatText : F64 → String
  splitShell : String → Option (List String)
  shell : String
  defaultDeadline : Option Duration
  spawn : Argv → Except String Nat
  openpty : OpenptyOutcome
  setCloexec : Except String Unit
  dup : Except String Unit
  setNonblocking : Except String Unit
  asyncFd : Except String Unit

inductive Side where
  | out
  | err
  deriving DecidableEq, Repr

def Side.ftype : Side → UInt8
  | .out => frameStdout
  | .err => frameStderr

inductive Life where
  | unspawned
  | running
  | zombie (status : ExitStatus)
  | reaped (status : ExitStatus)
  deriving DecidableEq, Repr

structure Child where
  pid : Nat
  life : Life
  deriving DecidableEq, Repr

-- `Child::id` is `None` once the child was reaped.
def Child.id (c : Child) : Option Nat :=
  match c.life with
  | .running | .zombie _ => some c.pid
  | _ => none

inductive Signal where
  | hup
  | kill
  deriving DecidableEq, Repr

structure Sent where
  signal : Signal
  group : Nat
  life : Life
  deriving DecidableEq, Repr

inductive Feed where
  | bytes (raw : Bytes)
  | winsize (rows cols : UInt16)
  | close
  deriving DecidableEq, Repr

-- `error` is the transport's, `oversize` is `read_frame`'s own refusal of a header.
inductive ReadResult where
  | frame (f : Frame)
  | eof
  | error (text : String)
  | oversize (len cap : Nat)
  | elapsed
  deriving DecidableEq, Repr

inductive Input where
  | reading
  | writing (rest : Bytes)
  deriving DecidableEq, Repr

inductive Handler where
  | readRequest
  | openpty (req : Request)
  | abandon (msg : String)
  | execSelect (input : Option Input) (stdin : Bool) (deadline : Option Duration)
  | execReap (why : Override)
  | execDrain (side : Side) (raw : WaitResult) (why : Override)
  | ptySelect (input : Input)
  | hangupWait
  | hangupReap
  | ptyDrain (raw : WaitResult) (why : Override)
  | sending (f : Frame)
  | joinWriter
  | returned
  deriving DecidableEq

structure Session where
  handler : Handler
  pty : Bool
  child : Child
  out : Stream UInt8
  err : Stream UInt8
  box : Box Frame UInt8
  cancel : Bool
  sent : List Sent
  feed : List Feed
  first : Option ReadResult
  reap : Option WaitResult
  deriving DecidableEq

def start : Session :=
  ⟨.readRequest,false,⟨0,.unspawned⟩,Tap.unopened,Tap.unopened,Outbox.empty,false,[],[],none,none⟩

def Session.stream (s : Session) : Side → Stream UInt8
  | .out => s.out
  | .err => s.err

def Session.setStream (s : Session) (side : Side) (t : Stream UInt8) : Session :=
  match side with
  | .out => {s with out := t}
  | .err => {s with err := t}

@[simp] def Session.fire (s : Session) : Session := {s with cancel := true}
@[simp] def Session.go (s : Session) (h : Handler) : Session := {s with handler := h}

def Session.signalGroup (s : Session) (signal : Signal) (group : Option Nat) : Session :=
  match group with
  | some pid => {s with sent := s.sent ++ [⟨signal,pid,s.child.life⟩]}
  | none => s

inductive Admission where
  | refuse (msg : String)
  | exec (pid : Nat) (deadline : Option Duration)
  | openPty (req : Request)

def drive (env : Env) (f : Frame) : Admission :=
  if f.ftype ≠ frameRequest then .refuse "expected a REQUEST frame first"
  else match env.parseRequest f.payload with
    | .error e => .refuse ("invalid REQUEST json: " ++ e)
    | .ok req =>
      if req.verb = "exec" then
        match effectiveDeadline req.deadline env.defaultDeadline with
        | .error s => .refuse ("invalid deadline " ++ env.floatText s ++ ": must be finite, >= 0, and in range")
        | .ok deadline =>
          match env.spawn (shellArgv (env.splitShell env.shell) ["-c",req.cmd.getD ""]) with
          | .error e => .refuse ("session error: " ++ e)
          | .ok pid => .exec pid deadline
      else if req.verb = "open-pty" then .openPty req
      else .refuse ("unsupported verb: " ++ env.debugText req.verb)

inductive Terminal where
  | refuse (msg : String)
  | abandon (msg : String) (pid : Nat)
  | serve (pid : Nat)

def openTerminal (env : Env) : Terminal :=
  match env.openpty with
  | .osError e => .refuse ("openpty failed: " ++ e)
  | .taskFailed e => .refuse ("openpty task failed: " ++ e)
  | .pair => match env.setCloexec with
    | .error e => .refuse ("failed to set pty master close-on-exec: " ++ e)
    | .ok _ => match env.dup with
      | .error e => .refuse ("failed to dup pty slave: " ++ e)
      | .ok _ => match env.spawn (shellArgv (env.splitShell env.shell) []) with
        | .error e => .refuse ("failed to spawn pty shell: " ++ e)
        | .ok pid => match env.setNonblocking with
          | .error e => .abandon ("failed to set pty master non-blocking: " ++ e) pid
          | .ok _ => match env.asyncFd with
            | .error e => .abandon ("failed to register pty master with the runtime: " ++ e) pid
            | .ok _ => .serve pid

def firstRead (env : Env) (r : ReadResult) (s : Session) : Option Session :=
  match s.handler with
  | .readRequest =>
    let s := {s with first := some r}
    match r with
    | .elapsed | .eof => some (s.go .joinWriter)
    | .error e => some (s.go (.sending (errorFrame ("session error: " ++ e))))
    | .oversize len cap =>
        some (s.go (.sending (errorFrame ("session error: " ++ s!"frame payload {len} exceeds inbound cap {cap}"))))
    | .frame f => match drive env f with
      | .refuse msg => some (s.go (.sending (errorFrame msg)))
      | .exec pid deadline => some {s with
          handler := .execSelect (some .reading) true deadline, child := ⟨pid,.running⟩,
          out := Tap.opened, err := Tap.opened}
      | .openPty req => some (s.go (.openpty req))
  | _ => none

def openptyReturns (env : Env) (s : Session) : Option Session :=
  match s.handler with
  | .openpty req =>
    let s := if env.openpty = .pair then
        {s with feed := s.feed ++ [.winsize (req.rows.getD 24) (req.cols.getD 80)]} else s
    match openTerminal env with
    | .refuse msg => some (s.go (.sending (errorFrame msg)))
    | .abandon msg pid =>
        let s := {s with child := ⟨pid,.running⟩}
        some ((s.signalGroup .kill s.child.id).go (.abandon msg))
    | .serve pid => some {s with
        handler := .ptySelect .reading, pty := true, child := ⟨pid,.running⟩, out := Tap.opened}
  | _ => none

/- What `stdin_task` still holds of the child's stdin is dropped with it, at every break of its
loop and at the end of the select. -/
def Session.dropStdin (s : Session) : Session :=
  {s with feed := if .close ∈ s.feed then s.feed else s.feed ++ [.close]}

@[simp] def hangup (s : Session) : Session := (s.signalGroup .hup s.child.id).go .hangupWait

def execFrame (stdin : Bool) (deadline : Option Duration) (f : Frame) (s : Session) : Session :=
  if f.ftype = frameStdin then
    if stdin ∧ f.payload ≠ [] then s.go (.execSelect (some (.writing f.payload)) stdin deadline) else s
  else if f.ftype = frameStdinEof ∧ stdin then
    {s with handler := .execSelect (some .reading) false deadline, feed := s.feed ++ [.close]}
  else s

def ptyFrame (env : Env) (f : Frame) (s : Session) : Session :=
  if f.ftype = frameStdin then
    if f.payload ≠ [] then s.go (.ptySelect (.writing f.payload)) else s
  else if f.ftype = frameResize then
    match env.parseResize f.payload with
    | some (rows,cols) => {s with feed := s.feed ++ [.winsize rows cols]}
    | none => s
  else s

def inbound (env : Env) (r : ReadResult) (s : Session) : Option Session :=
  match s.handler with
  | .execSelect (some .reading) stdin deadline =>
    if s.cancel then none
    else match r with
      | .frame f => some (execFrame stdin deadline f s)
      | _ => some (s.fire.go (.execSelect none stdin deadline)).dropStdin
  | .ptySelect .reading => match r with
    | .frame f => some (ptyFrame env f s)
    | .elapsed => some (hangup s.fire)
    | _ => some (hangup s)
  | _ => none

def Input.after (n : Nat) (rest : Bytes) : Input :=
  if rest.length ≤ n then .reading else .writing (rest.drop n)

def accepts (n : Nat) (s : Session) : Option Session :=
  match s.handler with
  | .execSelect (some (.writing rest)) stdin deadline =>
    if 0 < n ∧ n ≤ rest.length ∧ s.cancel = false then
      some {s with
        handler := .execSelect (some (Input.after n rest)) stdin deadline,
        feed := s.feed ++ [.bytes (rest.take n)]}
    else none
  | .ptySelect (.writing rest) =>
    if 0 < n ∧ n ≤ rest.length ∧ s.cancel = false then
      some {s with handler := .ptySelect (Input.after n rest), feed := s.feed ++ [.bytes (rest.take n)]}
    else none
  | _ => none

def refuses (s : Session) : Option Session :=
  match s.handler with
  | .execSelect (some (.writing _)) stdin deadline =>
    if s.cancel then none else some (s.go (.execSelect none stdin deadline)).dropStdin
  | .ptySelect (.writing _) => if s.cancel then none else some (hangup s)
  | _ => none

def stalls (s : Session) : Option Session :=
  match s.handler with
  | .execSelect (some (.writing _)) stdin deadline =>
    if s.cancel then none else some (s.fire.go (.execSelect none stdin deadline)).dropStdin
  | .ptySelect (.writing _) => if s.cancel then none else some (hangup s.fire)
  | _ => none

def cancelArm (s : Session) : Option Session :=
  if s.cancel then
    match s.handler with
    | .execSelect _ _ _ => some ((s.signalGroup .kill (some s.child.pid)).go (.execReap .disconnected))
    | .ptySelect _ => some (hangup s)
    | _ => none
  else none

def deadlineArm (s : Session) : Option Session :=
  match s.handler with
  | .execSelect _ _ (some _) =>
    if s.cancel then none
    else some ((s.signalGroup .kill (some s.child.pid)).go (.execReap .timeout))
  | _ => none

def wait (failed : Bool) (c : Child) : Option (WaitResult × Child) :=
  if failed then some (.osError,c)
  else match c.life with
    | .zombie status => some (.status status,⟨c.pid,.reaped status⟩)
    | _ => none

def afterWait (raw : WaitResult) : Handler → Option Handler
  | .abandon msg => some (.sending (errorFrame msg))
  | .execSelect _ _ _ => some (.execDrain .out raw .none)
  | .execReap why => some (.execDrain .out raw why)
  | .ptySelect _ => some (.ptyDrain raw .none)
  | .hangupWait | .hangupReap => some (.ptyDrain raw .disconnected)
  | _ => none

-- exec's select is biased: the wait arm is polled only when `cancel` has not fired.
def preempted (s : Session) : Bool :=
  match s.handler with
  | .execSelect _ _ _ => s.cancel
  | _ => false

def ofExec : Handler → Bool
  | .execSelect _ _ _ | .execReap _ => true
  | _ => false

def endSelect (s : Session) : Session := {s with feed := if ofExec s.handler then s.dropStdin.feed else s.feed}

def waitReady (failed : Bool) (s : Session) : Option Session := do
  let (raw,child) ← wait failed s.child
  if preempted s then none
  else
    let handler ← afterWait raw s.handler
    some {endSelect s with handler := handler, child := child, reap := some raw}

def graceArmed : Handler → Bool
  | .abandon _ | .execReap _ | .hangupReap => true
  | _ => false

def reapLapse (s : Session) : Option Session :=
  if graceArmed s.handler then do
    let handler ← afterWait .timedOut s.handler
    some {endSelect s with handler := handler, reap := some .timedOut}
  else none

def hangupLapse (s : Session) : Option Session :=
  match s.handler with
  | .hangupWait => some ((s.signalGroup .kill s.child.id).go .hangupReap)
  | _ => none

def drainSide : Handler → Option Side
  | .execDrain side _ _ => some side
  | .ptyDrain _ _ => some .out
  | _ => none

def afterDrain : Handler → Handler
  | .execDrain .out raw why => .execDrain .err raw why
  | .execDrain .err raw why | .ptyDrain raw why => .sending (exitFrame raw why)
  | h => h

def drainJoined (s : Session) : Option Session := do
  let side ← drainSide s.handler
  if (s.stream side).phase = .finished then some (s.go (afterDrain s.handler)) else none

def drainLapse (s : Session) : Option Session := do
  let side ← drainSide s.handler
  if Tap.live (s.stream side) then
    some ((s.setStream side (Tap.abort (s.stream side))).go (afterDrain s.handler))
  else none

def handSends (s : Session) : Option Session :=
  match s.handler with
  | .sending f => do
      let box ← Outbox.offer channelBound f s.box
      some {s with box := box, handler := .joinWriter}
  | _ => none

def writerJoined (s : Session) : Option Session :=
  if s.handler = .joinWriter ∧ s.box.writer = .exited then some (s.go .returned) else none

def onStream (f : Stream UInt8 → Option (Stream UInt8)) (side : Side) (s : Session) : Option Session :=
  (f (s.stream side)).map (s.setStream side)

-- `pump` ignores a failed send and keeps reading; open_pty's output task stops on it.
def pumpSends (side : Side) (s : Session) : Option Session :=
  match (s.stream side).phase with
  | .holding chunk => do
      let box ← Outbox.offer channelBound ⟨side.ftype,chunk⟩ s.box
      let stream := if s.pty ∧ s.box.writer = .exited then Tap.stop (s.stream side)
        else Tap.release (s.stream side)
      some {(s.setStream side stream) with box := box}
  | _ => none

def sendersGone (s : Session) : Bool :=
  (s.handler = .joinWriter ∨ s.handler = .returned) ∧ ¬ Tap.live s.out ∧ ¬ Tap.live s.err

def sendable (w : Outbox.Writer Frame UInt8) : Bool :=
  match w with
  | .writing f _ => f.payload.length ≤ maxFrameLen
  | _ => false

def onBox (f : Box Frame UInt8 → Option (Box Frame UInt8)) (s : Session) : Option Session :=
  if s.cancel then none else (f s.box).map (fun b => {s with box := b})

def writing (w : Outbox.Writer Frame UInt8) : Bool :=
  match w with
  | .writing _ _ => true
  | _ => false

def writerGivesUp (s : Session) : Option Session :=
  if s.cancel = false ∧ writing s.box.writer then some {s.fire with box := Outbox.leave s.box} else none

def writerCancelled (s : Session) : Option Session :=
  if s.cancel ∧ s.box.writer ≠ .exited then some {s with box := Outbox.leave s.box} else none

def writerCloses (s : Session) : Option Session :=
  if s.cancel = false ∧ s.box.writer = .receiving ∧ s.box.queue = [] ∧ sendersGone s then
    some {s with box := Outbox.leave s.box}
  else none

def exits (status : ExitStatus) (s : Session) : Option Session :=
  match s.child.life with
  | .running => some {s with child := ⟨s.child.pid,.zombie status⟩}
  | _ => none

inductive Action where
  | firstRead (r : ReadResult)
  | openptyReturns
  | inbound (r : ReadResult)
  | accepts (n : Nat)
  | refuses
  | stalls
  | cancelArm
  | deadlineArm
  | waitReady (failed : Bool)
  | reapLapse
  | hangupLapse
  | drainJoined
  | drainLapse
  | handSends
  | writerJoined
  | pumpReads (side : Side) (n : Nat)
  | pumpEof (side : Side)
  | pumpFails (side : Side)
  | pumpSends (side : Side)
  | writerTakes
  | writerPuts (n : Nat)
  | writerFlushed
  | writerFails
  | writerStalls
  | writerCancelled
  | writerCloses
  | supplies (side : Side) (raw : Bytes)
  | detaches (side : Side)
  | exits (status : ExitStatus)
  deriving DecidableEq

def step (env : Env) (s : Session) : Action → Option Session
  | .firstRead r => firstRead env r s
  | .openptyReturns => openptyReturns env s
  | .inbound r => inbound env r s
  | .accepts n => accepts n s
  | .refuses => refuses s
  | .stalls => stalls s
  | .cancelArm => cancelArm s
  | .deadlineArm => deadlineArm s
  | .waitReady failed => waitReady failed s
  | .reapLapse => reapLapse s
  | .hangupLapse => hangupLapse s
  | .drainJoined => drainJoined s
  | .drainLapse => drainLapse s
  | .handSends => handSends s
  | .writerJoined => writerJoined s
  | .pumpReads side n => onStream (Tap.read readChunk n) side s
  | .pumpEof side => onStream Tap.eof side s
  | .pumpFails side => onStream Tap.fail side s
  | .pumpSends side => pumpSends side s
  | .writerTakes => onBox (Outbox.take encode) s
  | .writerPuts n => if sendable s.box.writer then onBox (Outbox.put n) s else none
  | .writerFlushed => if sendable s.box.writer then onBox Outbox.finish s else none
  | .writerFails | .writerStalls => writerGivesUp s
  | .writerCancelled => writerCancelled s
  | .writerCloses => writerCloses s
  | .supplies side raw => onStream (Tap.supply raw) side s
  | .detaches side => onStream Tap.detach side s
  | .exits status => exits status s

def execText : Bytes := utf8 "\x7b\"verb\":\"exec\",\"cmd\":\"cat\",\"deadline\":0\x7d".toList
def ptyText : Bytes := utf8 "\x7b\"verb\":\"open-pty\"\x7d".toList

-- A guest on which every call succeeds; its two requests are spelled out, other payloads are not JSON.
def plainGuest : Env where
  parseRequest raw :=
    if raw = execText then .ok ⟨"exec",some "cat",some (.finite 0),none,none⟩
    else if raw = ptyText then .ok ⟨"open-pty",none,none,none,none⟩
    else .error "expected value at line 1 column 1"
  parseResize _ := none
  debugText verb := String.ofList ('"' :: verb.toList ++ ['"'])
  floatText _ := "-1"
  splitShell shell := some [shell]
  shell := "/bin/sh"
  defaultDeadline := some (3600 * 10^9)
  spawn _ := .ok 41
  openpty := .pair
  setCloexec := .ok ()
  dup := .ok ()
  setNonblocking := .ok ()
  asyncFd := .ok ()

def execOpening : Action := .firstRead (.frame ⟨frameRequest,execText⟩)
def ptyOpening : List Action := [.firstRead (.frame ⟨frameRequest,ptyText⟩),.openptyReturns]

end Guesthopper.SessionModel
