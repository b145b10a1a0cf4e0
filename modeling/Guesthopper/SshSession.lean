import Guesthopper.GuestCommand
import Guesthopper.SshInbound

/-! One SSH session of the gateway, from its callbacks to its exit status. `_run` goes from
one await to the next and so does the outbound pump inside it; the inbound half is
`SshInbound`. Writing to the channel fails once the channel is closed for sending, and any
drain may fail. `read` records the frames the pump took, `asked` the REQUEST that was sent. -/
namespace Guesthopper.SshSession
open FrameBytes ClientStream ClientDoors
open SshInbound (Event)

-- `StreamReader.readline` under asyncio's default limit.
def readLimit : Nat := 2^16

def readline (s : Socket) : Option (Bytes × Socket) :=
  match stored s with
  | some _ => none
  | none =>
    let line := s.bytes.takeWhile (fun b => b ≠ 10)
    if readLimit < line.length then none
    else if line.length < s.bytes.length then some (line ++ [10],⟨s.bytes.drop (line.length + 1),s.cuts.tail,s.ending⟩)
    else match s.ending with
      | .eof => some (line,⟨[],s.cuts.tail,s.ending⟩)
      | .osError _ => none

def space (b : UInt8) : Bool := b = 32 ∨ (9 ≤ b ∧ b ≤ 13)

def strip (raw : Bytes) : Bytes := ((raw.dropWhile space).reverse.dropWhile space).reverse

def connectLine (port : Int) : Bytes := SessionText.utf8 ("CONNECT ".toList ++ (toString port).toList ++ ['\n'])

structure Wish where
  wantPty : Bool
  command : Option ControlPayloads.PyStr
  termSize : Nat × Nat
  deriving DecidableEq

def noWish : Wish := ⟨false,none,(80,24)⟩

def Wish.request (w : Wish) : Frame :=
  match w.command with
  | some command =>
    if w.wantPty then ⟨frameRequest,ControlPayloads.openPtyRequest w.termSize.2 w.termSize.1⟩
    else ⟨frameRequest,ControlPayloads.execRequest command⟩
  | none => ⟨frameRequest,ControlPayloads.openPtyRequest w.termSize.2 w.termSize.1⟩

inductive Pump where
  | waiting (woken : Bool)
  | reading
  deriving DecidableEq, Repr

inductive Run where
  | unstarted
  | connecting
  | greeting
  | answering
  | requesting
  | pumping (p : Pump)
  | ended
  deriving DecidableEq, Repr

inductive Writer where
  | absent
  | opened
  | closed
  deriving DecidableEq, Repr

structure Session where
  run : Run
  wish : Wish
  writeResumed : Bool
  flow : SshInbound.Session
  reader : Socket
  writer : Writer
  opening : Bytes
  asked : Option Frame
  shown : Shown
  exits : List Int
  read : List Frame
  deriving DecidableEq

def start : Session :=
  ⟨.unstarted,noWish,true,SshInbound.start,⟨[],[],.eof⟩,.absent,[],none,⟨[],[]⟩,[],[]⟩

def Session.write (s : Session) (raw : Bytes) : Session := {s with shown := {s.shown with out := s.shown.out ++ raw}}
def Session.writeStderr (s : Session) (raw : Bytes) : Session := {s with shown := {s.shown with err := s.shown.err ++ raw}}
def Session.exit (s : Session) (code : Int) : Session := {s with exits := s.exits ++ [code]}

def text (line : String) : Bytes := SessionText.utf8 line.toList

def Session.cancelSiblings (s : Session) : Session := {s with flow := {s.flow with pump := .ended, keepalive := false}}

def Session.close (s : Session) : Session := {s with writer := if s.writer = .opened then .closed else s.writer}

def finish (s : Session) : Session := {s.cancelSiblings.close with run := .ended}

-- The pump's handler: a complaint that the channel refuses is passed over, and the status is 0.
def complain (s : Session) (ok : Bool) (msg : String) : Session :=
  finish ((if ok then s.write (text ("\r\nssh_gateway: " ++ msg ++ "\r\n")) else s).exit 0)

def loopTop (s : Session) : Session := {s with run := .pumping (if s.writeResumed then .reading else .waiting false)}

def withFields (j : Json) (s : Session) (ok : Bool) (payload : Bytes) (then' : (String → Option Value) → Session) : Session :=
  match parseJson j (orBraces payload) with
  | .ok fields => then' fields
  | .error msg => complain s ok msg
  | .crash _ => finish s

def deliver (j : Json) (s : Session) (ok : Bool) (f : Frame) : Session :=
  if f.ftype = frameStdout then if ok then loopTop (s.write f.payload) else finish (s.exit 0)
  else if f.ftype = frameStderr then
    if ok then loopTop (if s.wish.wantPty then s.write f.payload else s.writeStderr f.payload) else finish (s.exit 0)
  else if f.ftype = frameExit then
    withFields j s ok f.payload fun fields => finish (s.exit ((((fields "code").getD (.int 0)).asInt).getD 0))
  else if f.ftype = frameError then
    withFields j s ok f.payload fun fields =>
      if messageEncodes fields then
        if ok then finish ((s.write (text ("\r\nssh_gateway: guest agent error: " ++ messageText fields ++ "\r\n"))).exit 1)
        else finish (s.exit 0)
      else finish s
  else loopTop s

def pumpReads (j : Json) (s : Session) (ok : Bool) : Session :=
  match sshReadFrame s.reader with
  | .none => finish (s.exit 0)
  | .raised e => complain s ok (faultText e)
  | .frame f t => deliver j {s with reader := t, read := s.read ++ [f]} ok f

-- `ok` says whether the channel takes what is written to it, `fails` whether the drain raises.
inductive Action where
  | connectionMade
  | ptyRequested (cols rows : UInt32)
  | execRequested (command : Bytes)
  | arrives (item : Event)
  | pauseWriting
  | resumeWriting
  | sessionStarted
  | connectionLost
  | connects (outcome : Except String Socket) (ok : Bool)
  | greets (fails : Bool)
  | answers (ok : Bool)
  | requests (fails : Bool)
  | wakes
  | reads (ok : Bool)
  | inbound (a : SshInbound.Action)

def sibling : SshInbound.Action → Bool
  | .takes _ | .drained | .drainFails | .ping | .pingFails => true
  | _ => false

def wishAfter (w : Wish) : Action → Wish
  | .ptyRequested cols rows =>
    {w with wantPty := true, termSize := (ControlPayloads.orDefault cols.toNat 80,ControlPayloads.orDefault rows.toNat 24)}
  | .execRequested command => {w with command := some (ControlPayloads.ofText (LossyText.decode command))}
  | _ => w

def wishOf (acts : List Action) : Wish := acts.foldl wishAfter noWish

def answered (port : Int) (s : Session) (ok : Bool) : Session :=
  match readline s.reader with
  | none => {s with run := .ended}
  | some (line,t) =>
    let s := {s with reader := t}
    if strip line ≠ SessionText.utf8 (GuestCommand.okResponse port) then
      if ok then {(s.write (text "ssh_gateway: vsock handshake failed\r\n")).exit 1 with run := .ended}
      else {s with run := .ended}
    else match FrameCodecs.encodeFrame s.wish.request with
      | .ok raw => {s with opening := s.opening ++ raw, asked := some s.wish.request, run := .requesting}
      | .error _ => {s with run := .ended}

def step (j : Json) (port : Int) (s : Session) : Action → Option Session
  | .connectionMade => some {s with flow := {s.flow with chan := true}}
  | .ptyRequested cols rows => some {s with wish := wishAfter s.wish (.ptyRequested cols rows)}
  | .execRequested command => some {s with wish := wishAfter s.wish (.execRequested command)}
  | .arrives item => some {s with flow := SshInbound.enqueue s.flow item}
  | .pauseWriting => some {s with writeResumed := false}
  | .resumeWriting =>
    some {s with writeResumed := true, run := match s.run with
      | .pumping (.waiting _) => .pumping (.waiting true)
      | run => run}
  | .sessionStarted => if s.run = .unstarted ∧ s.flow.chan then some {s with run := .connecting} else none
  | .connectionLost => some {s.cancelSiblings.close with run := .ended}
  | .connects outcome ok =>
    if s.run = .connecting then
      match outcome with
      | .error e =>
        if ok then some {(s.write (text ("ssh_gateway: cannot reach guest vsock: " ++ e ++ "\r\n"))).exit 1 with run := .ended}
        else some {s with run := .ended}
      | .ok socket => some {s with reader := socket, writer := .opened, opening := connectLine port, run := .greeting}
    else none
  | .greets fails => if s.run = .greeting then some {s with run := if fails then .ended else .answering} else none
  | .answers ok => if s.run = .answering then some (answered port s ok) else none
  | .requests fails =>
    if s.run = .requesting then
      if fails then some {s with run := .ended}
      else (SshInbound.step s.flow .requested).map fun flow => loopTop {s with flow := flow}
    else none
  | .wakes => if s.run = .pumping (.waiting true) then some {s with run := .pumping .reading} else none
  | .reads ok => if s.run = .pumping .reading then some (pumpReads j s ok) else none
  | .inbound a => if sibling a then (SshInbound.step s.flow a).map fun flow => {s with flow := flow} else none

section Moves
def Unpumped : Run → Prop
  | .connecting | .greeting | .answering | .requesting => True
  | _ => False

/- Every way one step can go on. Before the pump `_run` ends with one of two lines to the client
and status 1, or with neither. -/
inductive Move (j : Json) (port : Int) (s : Session) : Action → Session → Prop where
  | opened : Move j port s .connectionMade {s with flow := {s.flow with chan := true}}
  | ptyWished {cols rows} :
      Move j port s (.ptyRequested cols rows) {s with wish := wishAfter s.wish (.ptyRequested cols rows)}
  | execWished {command} :
      Move j port s (.execRequested command) {s with wish := wishAfter s.wish (.execRequested command)}
  | arrived {item} : Move j port s (.arrives item) {s with flow := SshInbound.enqueue s.flow item}
  | paused : Move j port s .pauseWriting {s with writeResumed := false}
  | resumed : Move j port s .resumeWriting {s with writeResumed := true}
  | woke {woken} (pc : s.run = .pumping (.waiting woken)) :
      Move j port s .resumeWriting {s with writeResumed := true, run := .pumping (.waiting true)}
  | started (pc : s.run = .unstarted) : Move j port s .sessionStarted {s with run := .connecting}
  | lost : Move j port s .connectionLost {s.cancelSiblings.close with run := .ended}
  | unreached {e} (pc : s.run = .connecting) : Move j port s (.connects (.error e) true)
      {(s.write (text ("ssh_gateway: cannot reach guest vsock: " ++ e ++ "\r\n"))).exit 1 with run := .ended}
  | mistaken {line rest} (pc : s.run = .answering) (got : readline s.reader = some (line,rest))
      (other : strip line ≠ SessionText.utf8 (GuestCommand.okResponse port)) : Move j port s (.answers true)
      {(s.write (text "ssh_gateway: vsock handshake failed\r\n")).exit 1 with run := .ended, reader := rest}
  | quit {a reader} (pc : Unpumped s.run) (stands : wishAfter s.wish a = s.wish) :
      Move j port s a {s with run := .ended, reader := reader}
  | connected {socket ok} (pc : s.run = .connecting) :
      Move j port s (.connects (.ok socket) ok)
        {s with reader := socket, writer := .opened, opening := connectLine port, run := .greeting}
  | greeted (pc : s.run = .greeting) : Move j port s (.greets false) {s with run := .answering}
  | replied {ok line rest raw} (pc : s.run = .answering) (got : readline s.reader = some (line,rest))
      (encoded : FrameCodecs.encodeFrame s.wish.request = .ok raw) :
      Move j port s (.answers ok)
        {s with reader := rest, opening := s.opening ++ raw, asked := some s.wish.request, run := .requesting}
  | requested {flow} (pc : s.run = .requesting) (moved : SshInbound.step s.flow .requested = some flow) :
      Move j port s (.requests false) (loopTop {s with flow := flow})
  | woken (pc : s.run = .pumping (.waiting true)) : Move j port s .wakes {s with run := .pumping .reading}
  | pumped {ok} (pc : s.run = .pumping .reading) : Move j port s (.reads ok) (pumpReads j s ok)
  | inbound {b flow} (own : sibling b = true) (moved : SshInbound.step s.flow b = some flow) :
      Move j port s (.inbound b) {s with flow := flow}

variable {j : Json} {port : Int} {s t : Session} {a : Action} {ok : Bool}

theorem lineFilled (front back : String) (filled : front.toList ≠ []) : text (front ++ back) ≠ [] := by
  rw [text,String.toList_append]
  cases shape : front.toList with
  | nil => exact absurd shape filled
  | cons c cs => simp [SessionText.utf8,String.utf8EncodeChar_ne_nil]

theorem connectsMove {outcome : Except String Socket} (moved : step j port s (.connects outcome ok) = some t) :
    Move j port s (.connects outcome ok) t := by
  simp only [step] at moved
  split at moved <;> try contradiction
  rename_i pc
  split at moved
  · split at moved <;> cases Option.some.inj moved
    · rename_i able
      cases able
      exact .unreached pc
    · exact .quit (by rw [pc]; trivial) rfl
  · cases Option.some.inj moved
    exact .connected pc

theorem answersMove (moved : step j port s (.answers ok) = some t) : Move j port s (.answers ok) t := by
  simp only [step] at moved
  split at moved <;> try contradiction
  rename_i pc
  cases Option.some.inj moved
  have unpumped : Unpumped s.run := by rw [pc]; trivial
  unfold answered
  split
  · exact .quit unpumped rfl
  · rename_i line rest got
    dsimp only
    split
    · rename_i other
      split
      · rename_i able
        cases able
        exact .mistaken pc got other
      · exact .quit unpumped rfl
    · split
      · rename_i raw encoded
        exact .replied pc got encoded
      · exact .quit unpumped rfl

theorem stepMove (moved : step j port s a = some t) : Move j port s a t := by
  cases a with
  | connectionMade => cases Option.some.inj moved; exact .opened
  | ptyRequested cols rows => cases Option.some.inj moved; exact .ptyWished
  | execRequested command => cases Option.some.inj moved; exact .execWished
  | arrives item => cases Option.some.inj moved; exact .arrived
  | pauseWriting => cases Option.some.inj moved; exact .paused
  | resumeWriting =>
    cases Option.some.inj moved
    split
    · rename_i woken pc
      exact .woke pc
    · exact .resumed
  | sessionStarted =>
    simp only [step] at moved
    split at moved <;> try contradiction
    rename_i able
    cases Option.some.inj moved
    exact .started able.1
  | connectionLost => cases Option.some.inj moved; exact .lost
  | connects outcome ok => exact connectsMove moved
  | greets fails =>
    simp only [step] at moved
    split at moved <;> try contradiction
    rename_i pc
    cases Option.some.inj moved
    cases fails with
    | true => exact .quit (by rw [pc]; trivial) rfl
    | false => exact .greeted pc
  | answers ok => exact answersMove moved
  | requests fails =>
    simp only [step] at moved
    split at moved <;> try contradiction
    rename_i pc
    cases fails with
    | true =>
      cases Option.some.inj moved
      exact .quit (by rw [pc]; trivial) rfl
    | false =>
      obtain ⟨flow,went,rfl⟩ := Option.map_eq_some_iff.mp moved
      exact .requested pc went
  | wakes =>
    simp only [step] at moved
    split at moved <;> try contradiction
    rename_i pc
    cases Option.some.inj moved
    exact .woken pc
  | reads ok =>
    simp only [step] at moved
    split at moved <;> try contradiction
    rename_i pc
    cases Option.some.inj moved
    exact .pumped pc
  | inbound b =>
    simp only [step] at moved
    split at moved <;> try contradiction
    rename_i own
    obtain ⟨flow,went,rfl⟩ := Option.map_eq_some_iff.mp moved
    exact .inbound own went

end Moves

section Steps
variable {j : Json} {port : Int} {s t : Session} {ok : Bool} {f : Frame}

structure Halts (s t : Session) : Prop where
  run : t.run = .ended
  flow : t.flow = {s.flow with pump := .ended, keepalive := false}
  writer : t.writer = if s.writer = .opened then .closed else s.writer
  exits : t.exits = s.exits ∨ ∃ code, t.exits = s.exits ++ [code]
  opening : t.opening = s.opening
  asked : t.asked = s.asked
  read : t.read = s.read
  wish : t.wish = s.wish
  resumed : t.writeResumed = s.writeResumed

structure Goes (s t : Session) : Prop where
  run : t.run = .pumping (if s.writeResumed then .reading else .waiting false)
  flow : t.flow = s.flow
  writer : t.writer = s.writer
  resumed : t.writeResumed = s.writeResumed
  exits : t.exits = s.exits
  opening : t.opening = s.opening
  asked : t.asked = s.asked
  read : t.read = s.read
  wish : t.wish = s.wish
  reader : t.reader = s.reader

theorem complainHalts (msg : String) : Halts s (complain s ok msg) := by
  cases ok <;> exact ⟨rfl,rfl,rfl,.inr ⟨0,rfl⟩,rfl,rfl,rfl,rfl,rfl⟩

theorem exitHalts (code : Int) : Halts s (finish (s.exit code)) := ⟨rfl,rfl,rfl,.inr ⟨code,rfl⟩,rfl,rfl,rfl,rfl,rfl⟩

theorem withFieldsHalts {payload : Bytes} {then' : (String → Option Value) → Session} (halts : ∀ fields, Halts s (then' fields)) :
    Halts s (withFields j s ok payload then') := by
  unfold withFields
  split
  · exact halts _
  · exact complainHalts _
  · exact ⟨rfl,rfl,rfl,.inl rfl,rfl,rfl,rfl,rfl,rfl⟩

theorem deliverCases : Goes s (deliver j s ok f) ∨ Halts s (deliver j s ok f) := by
  unfold deliver
  split
  · cases ok with
    | true => exact .inl ⟨rfl,rfl,rfl,rfl,rfl,rfl,rfl,rfl,rfl,rfl⟩
    | false => exact .inr (exitHalts 0)
  · split
    · cases ok with
      | true =>
        refine .inl ?_
        simp only [if_true]
        split <;> exact ⟨rfl,rfl,rfl,rfl,rfl,rfl,rfl,rfl,rfl,rfl⟩
      | false => exact .inr (exitHalts 0)
    · split
      · exact .inr (withFieldsHalts fun fields => exitHalts _)
      · split
        · refine .inr (withFieldsHalts ?_)
          intro fields
          split
          · cases ok with
            | true => exact ⟨rfl,rfl,rfl,.inr ⟨1,rfl⟩,rfl,rfl,rfl,rfl,rfl⟩
            | false => exact exitHalts 0
          · exact ⟨rfl,rfl,rfl,.inl rfl,rfl,rfl,rfl,rfl,rfl⟩
        · exact .inl ⟨rfl,rfl,rfl,rfl,rfl,rfl,rfl,rfl,rfl,rfl⟩

theorem pumpReadsCases : (∃ f rest, sshReadFrame s.reader = .frame f rest ∧
      (Goes {s with reader := rest, read := s.read ++ [f]} (pumpReads j s ok) ∨
        Halts {s with reader := rest, read := s.read ++ [f]} (pumpReads j s ok))) ∨
    (∀ f rest, sshReadFrame s.reader ≠ .frame f rest) ∧ Halts s (pumpReads j s ok) := by
  cases found : sshReadFrame s.reader with
  | frame f rest =>
    refine .inl ⟨f,rest,rfl,?_⟩
    simp only [pumpReads,found]
    exact deliverCases
  | none =>
    refine .inr ⟨by simp,?_⟩
    simp only [pumpReads,found]
    exact exitHalts 0
  | raised e =>
    refine .inr ⟨by simp,?_⟩
    simp only [pumpReads,found]
    exact complainHalts _

def Dead (flow : SshInbound.Session) : Prop := flow.keepalive = false ∧ (flow.pump = .unborn ∨ flow.pump = .ended)

def Unborn (flow : SshInbound.Session) : Prop := flow.written = [] ∧ flow.keepalive = false ∧ flow.pump = .unborn

def Asks (port : Int) (s : Session) : Prop :=
  ∃ f, s.opening = connectLine port ++ encode f ∧ s.asked = some f ∧ f.payload.length ≤ maxFrameLen

def Staged (port : Int) (s : Session) : Prop :=
  match s.run with
  | .unstarted | .connecting => s.writer = .absent ∧ s.opening = [] ∧ s.asked = none ∧ Unborn s.flow
  | .greeting | .answering => s.writer = .opened ∧ s.opening = connectLine port ∧ s.asked = none ∧ Unborn s.flow
  | .requesting => s.writer = .opened ∧ Asks port s ∧ Unborn s.flow
  | .pumping _ => s.writer = .opened ∧ Asks port s
  | .ended => Dead s.flow ∧ (s.flow.pump = .ended → s.writer ≠ .opened) ∧
      (Asks port s ∨ (s.opening = [] ∨ s.opening = connectLine port) ∧ s.asked = none ∧ s.flow.written = [])

structure Orderly (port : Int) (s : Session) : Prop where
  once : s.exits.length ≤ 1
  open' : s.run ≠ .ended → s.exits = []
  staged : Staged port s

theorem deadSibling {flow next : SshInbound.Session} {a : SshInbound.Action} (own : sibling a = true) (dead : Dead flow) :
    SshInbound.step flow a ≠ some next := by
  intro h
  obtain ⟨keepalive,pump⟩ := dead
  cases a with
  | takes inside =>
    simp only [SshInbound.step] at h
    rcases pump with pc | pc <;> simp [pc] at h
  | drained | drainFails => rcases pump with pc | pc <;> simp [SshInbound.step,pc] at h
  | ping | pingFails => simp [SshInbound.step,keepalive] at h
  | connectionMade | arrives item | requested | cancelled => contradiction

theorem enqueueDead {flow : SshInbound.Session} {item : Event} (dead : Dead flow) : Dead (SshInbound.enqueue flow item) := by
  obtain ⟨_,_,pump,keepalive,_⟩ := @SshInbound.enqueueSame flow item
  exact ⟨keepalive.trans dead.1,pump ▸ dead.2⟩

theorem stagedOpened (staged : Staged port s) :
    Asks port s ∨ (s.opening = [] ∨ s.opening = connectLine port) ∧ s.asked = none ∧ s.flow.written = [] := by
  unfold Staged at staged
  split at staged
  · exact .inr ⟨.inl staged.2.1,staged.2.2.1,staged.2.2.2.1⟩
  · exact .inr ⟨.inl staged.2.1,staged.2.2.1,staged.2.2.2.1⟩
  · exact .inr ⟨.inr staged.2.1,staged.2.2.1,staged.2.2.2.1⟩
  · exact .inr ⟨.inr staged.2.1,staged.2.2.1,staged.2.2.2.1⟩
  · exact .inl staged.2.1
  · exact .inl staged.2
  · exact staged.2.2

theorem haltsOrderly (halts : Halts s t) (orderly : Orderly port s) (first : t.exits = s.exits ∨ s.run ≠ .ended) :
    Orderly port t := by
  refine ⟨?_,fun alive => absurd halts.run alive,?_⟩
  · rcases first with same | running
    · exact same ▸ orderly.once
    · have none := orderly.open' running
      rcases halts.exits with same | ⟨code,same⟩ <;> simp [same,none]
  · unfold Staged
    rw [halts.run]
    refine ⟨by simp [halts.flow,Dead],?_,?_⟩
    · intro _
      rw [halts.writer]
      split
      · simp
      · assumption
    · rcases stagedOpened orderly.staged with ⟨f,opening,asked,small⟩ | ⟨opening,asked,written⟩
      · exact .inl ⟨f,halts.opening.trans opening,halts.asked.trans asked,small⟩
      · refine .inr ⟨halts.opening ▸ opening,halts.asked.trans asked,?_⟩
        rw [halts.flow]
        exact written

theorem notedOrderly (orderly : Orderly port s) (run : t.run = s.run) (writer : t.writer = s.writer)
    (opening : t.opening = s.opening) (asked : t.asked = s.asked) (exits : t.exits = s.exits)
    (flow : t.flow.written = s.flow.written ∧ t.flow.pump = s.flow.pump ∧ t.flow.keepalive = s.flow.keepalive) :
    Orderly port t := by
  obtain ⟨written,pump,keepalive⟩ := flow
  refine ⟨exits ▸ orderly.once,fun alive => exits.trans (orderly.open' (run ▸ alive)),?_⟩
  have staged := orderly.staged
  unfold Staged Asks Unborn Dead at staged ⊢
  rw [run,writer,opening,asked,written,pump,keepalive]
  exact staged

theorem givenUpOrderly (orderly : Orderly port s) (running : s.run ≠ .ended) (unborn : Unborn s.flow)
    (flow : t.flow = s.flow) (run : t.run = .ended) (opening : t.opening = s.opening) (asked : t.asked = s.asked)
    (exits : t.exits = s.exits ∨ ∃ code, t.exits = s.exits ++ [code]) : Orderly port t := by
  have none := orderly.open' running
  refine ⟨?_,fun alive => absurd run alive,?_⟩
  · rcases exits with same | ⟨code,same⟩ <;> simp [same,none]
  · have told := stagedOpened orderly.staged
    obtain ⟨_,keepalive,pump⟩ := unborn
    unfold Asks at told
    unfold Staged Asks
    rw [run,flow,opening,asked]
    exact ⟨⟨keepalive,.inl pump⟩,fun ended => by rw [pump] at ended; contradiction,told⟩

theorem unpumpedUnborn (staged : Staged port s) (pc : Unpumped s.run) : s.run ≠ .ended ∧ Unborn s.flow := by
  unfold Staged at staged
  split at staged <;> rename_i run <;> rw [run] at pc ⊢
  · exact pc.elim
  · exact ⟨by simp,staged.2.2.2⟩
  · exact ⟨by simp,staged.2.2.2⟩
  · exact ⟨by simp,staged.2.2.2⟩
  · exact ⟨by simp,staged.2.2⟩
  · exact pc.elim
  · exact pc.elim

theorem pumpedOrderly (orderly : Orderly port s) (pc : s.run = .pumping .reading) : Orderly port (pumpReads j s ok) := by
  have running : s.run ≠ .ended := by simp [pc]
  have staged := orderly.staged
  unfold Staged at staged
  rw [pc] at staged
  rcases @pumpReadsCases j s ok with ⟨f,rest,_,goes | halts⟩ | ⟨_,halts⟩
  · refine ⟨goes.exits ▸ orderly.once,fun _ => goes.exits.trans (orderly.open' running),?_⟩
    unfold Staged Asks
    rw [goes.run,goes.writer,goes.opening,goes.asked]
    exact staged
  · exact haltsOrderly halts (notedOrderly orderly rfl rfl rfl rfl rfl ⟨rfl,rfl,rfl⟩) (.inr running)
  · exact haltsOrderly halts orderly (.inr running)

theorem inboundOrderly {b : SshInbound.Action} {flow : SshInbound.Session} (orderly : Orderly port s)
    (own : sibling b = true) (moved : SshInbound.step s.flow b = some flow) : Orderly port {s with flow := flow} := by
  have staged := orderly.staged
  unfold Staged at staged
  have alive : ¬ Dead s.flow := fun dead => deadSibling own dead moved
  have early : ¬ Unborn s.flow := fun unborn => alive ⟨unborn.2.1,.inl unborn.2.2⟩
  cases pc : s.run with
  | pumping p =>
    rw [pc] at staged
    exact ⟨orderly.once,fun _ => orderly.open' (by simp [pc]),staged⟩
  | unstarted | connecting => rw [pc] at staged; exact absurd staged.2.2.2 early
  | greeting | answering => rw [pc] at staged; exact absurd staged.2.2.2 early
  | requesting => rw [pc] at staged; exact absurd staged.2.2 early
  | ended => rw [pc] at staged; exact absurd staged.1 alive

theorem stepOrderly {a : Action} (h : step j port s a = some t) (orderly : Orderly port s) : Orderly port t := by
  have staged := orderly.staged
  have unpumped : Unpumped s.run → s.run ≠ .ended ∧ Unborn s.flow := unpumpedUnborn staged
  unfold Staged at staged
  cases stepMove h with
  | opened | ptyWished | execWished | paused | resumed => exact notedOrderly orderly rfl rfl rfl rfl rfl ⟨rfl,rfl,rfl⟩
  | arrived =>
    rename_i item
    obtain ⟨written,_,pump,keepalive,_⟩ := @SshInbound.enqueueSame s.flow item
    exact notedOrderly orderly rfl rfl rfl rfl rfl ⟨written,pump,keepalive⟩
  | woke pc | started pc | greeted pc | woken pc =>
    rw [pc] at staged
    exact ⟨orderly.once,fun _ => orderly.open' (by simp [pc]),staged⟩
  | lost => exact haltsOrderly ⟨rfl,rfl,rfl,.inl rfl,rfl,rfl,rfl,rfl,rfl⟩ orderly (.inl rfl)
  | unreached pc | mistaken pc =>
    obtain ⟨running,unborn⟩ := unpumped (by rw [pc]; trivial)
    exact givenUpOrderly orderly running unborn rfl rfl rfl rfl (.inr ⟨1,rfl⟩)
  | quit pc =>
    obtain ⟨running,unborn⟩ := unpumped pc
    exact givenUpOrderly orderly running unborn rfl rfl rfl rfl (.inl rfl)
  | connected pc =>
    rw [pc] at staged
    exact ⟨orderly.once,fun _ => orderly.open' (by simp [pc]),rfl,rfl,staged.2.2⟩
  | replied pc got encoded =>
    rw [pc] at staged
    obtain ⟨writer,opening,asked,unborn⟩ := staged
    obtain ⟨rfl,small⟩ := SshInbound.encodedFits encoded
    refine ⟨orderly.once,fun _ => orderly.open' (by simp [pc]),?_⟩
    exact ⟨writer,⟨_,congrArg (· ++ _) opening,rfl,small⟩,unborn⟩
  | requested pc =>
    rw [pc] at staged
    exact ⟨orderly.once,fun _ => orderly.open' (by simp [pc]),staged.1,staged.2.1⟩
  | pumped pc => exact pumpedOrderly orderly pc
  | inbound own moved => exact inboundOrderly orderly own moved

structure Settled (s t : Session) : Prop where
  run : t.run = .ended
  dead : Dead t.flow
  opening : t.opening = s.opening
  written : t.flow.written = s.flow.written
  shown : t.shown = s.shown
  exits : t.exits = s.exits
  read : t.read = s.read
  reader : t.reader = s.reader

theorem endedSettles {a : Action} (h : step j port s a = some t) (ended : s.run = .ended) (dead : Dead s.flow) :
    Settled s t := by
  cases stepMove h with
  | opened | ptyWished | execWished | paused | resumed => exact ⟨ended,dead,rfl,rfl,rfl,rfl,rfl,rfl⟩
  | arrived => exact ⟨ended,enqueueDead dead,rfl,SshInbound.enqueueSame.1,rfl,rfl,rfl,rfl⟩
  | lost => exact ⟨rfl,⟨rfl,.inr rfl⟩,rfl,rfl,rfl,rfl,rfl,rfl⟩
  | inbound own moved => exact absurd moved (deadSibling own dead)
  | woke pc | started pc | unreached pc | mistaken pc | quit pc | connected pc | greeted pc | replied pc | requested pc
  | woken pc | pumped pc =>
    rw [ended] at pc
    contradiction

theorem runSettles {acts : List Action} (reached : Machine.run (step j port) s acts = some t) (ended : s.run = .ended)
    (dead : Dead s.flow) : Settled s t := by
  refine Machine.runKeeps (I := Settled s) ?_ ⟨ended,dead,rfl,rfl,rfl,rfl,rfl,rfl⟩ reached
  intro u a v settled h
  have next := endedSettles h settled.run settled.dead
  exact ⟨next.run,next.dead,next.opening.trans settled.opening,next.written.trans settled.written,
    next.shown.trans settled.shown,next.exits.trans settled.exits,next.read.trans settled.read,
    next.reader.trans settled.reader⟩

theorem reachedOrderly {acts : List Action} (reached : Machine.run (step j port) start acts = some s) : Orderly port s := by
  refine Machine.runKeeps (I := Orderly port) (fun _ _ _ orderly h => stepOrderly h orderly) ?_ reached
  exact ⟨Nat.zero_le 1,fun _ => rfl,rfl,rfl,rfl,rfl,rfl,rfl⟩

theorem endedDead (orderly : Orderly port s) (ended : s.run = .ended) :
    Dead s.flow ∧ (s.flow.pump = .ended → s.writer ≠ .opened) := by
  have staged := orderly.staged
  unfold Staged at staged
  rw [ended] at staged
  exact ⟨staged.1,staged.2.1⟩

end Steps

/- The client is told one exit status at the most, and with it the session is over: neither
side is sent anything afterwards, and once the pumps have run the guest's connection is closed. -/
theorem statusOnce (j : Json) (port : Int) (acts : List Action) (s : Session)
    (reached : Machine.run (step j port) start acts = some s) :
    s.exits.length ≤ 1 ∧ (s.exits ≠ [] → s.run = .ended) ∧
    (s.run = .ended → s.flow.pump = .ended → s.writer ≠ .opened) ∧
    ∀ more t, s.run = .ended → Machine.run (step j port) s more = some t →
      t.opening = s.opening ∧ t.flow.written = s.flow.written ∧ t.shown = s.shown ∧ t.exits = s.exits ∧ t.read = s.read := by
  have orderly := reachedOrderly reached
  refine ⟨orderly.once,?_,fun ended => (endedDead orderly ended).2,?_⟩
  · intro told
    by_contra running
    exact told (orderly.open' running)
  · intro more t ended later
    have settled := runSettles later ended (endedDead orderly ended).1
    exact ⟨settled.opening,settled.written,settled.shown,settled.exits,settled.read⟩

def exitStream : Socket := ⟨GuestCommand.okLine 1234 ++ encodeAll [⟨frameStdout,[104]⟩,GuestCommand.sevenExit],[],.eof⟩

def exitActions : List Action :=
  [.connectionMade,.execRequested [105,100],.sessionStarted,.arrives (.data [120]),.connects (.ok exitStream) true,
    .greets false,.answers true,.requests false,.inbound (.takes []),.reads true,.pauseWriting,.resumeWriting,.reads true]

theorem exitEnds : ∃ s, Machine.run (step GuestJson.readerJson 1234) start exitActions = some s ∧
    (s.exits = [7] ∧ s.shown = ⟨[104],[]⟩ ∧ s.flow.pump = .ended ∧ s.asked = some (wishOf exitActions).request) :=
  Machine.runEnds (by decide +kernel)

theorem statusOnceSeven : ∃ s, Machine.run (step GuestJson.readerJson 1234) start exitActions = some s ∧ s.exits = [7] ∧
    s.run = .ended ∧ s.writer ≠ .opened := by
  obtain ⟨s,reached,told,_,pump,_⟩ := exitEnds
  obtain ⟨_,ends,closed,_⟩ := statusOnce GuestJson.readerJson 1234 exitActions s reached
  have ended := ends (by simp [told])
  exact ⟨s,reached,told,ended,closed ended pump⟩

section Wire
variable {j : Json} {port : Int} {s t : Session}

theorem stepAsks {a : Action} (h : step j port s a = some t) : t.wish = wishAfter s.wish a ∧
    (t.asked = s.asked ∨ t.asked = some s.wish.request) ∧
    (t.flow = s.flow ∨ ∃ b, SshInbound.step s.flow b = some t.flow) := by
  cases stepMove h with
  | ptyWished | execWished | paused | resumed | woke | started | unreached | mistaken | connected | greeted | woken =>
    exact ⟨rfl,.inl rfl,.inl rfl⟩
  | opened => exact ⟨rfl,.inl rfl,.inr ⟨.connectionMade,rfl⟩⟩
  | arrived => exact ⟨rfl,.inl rfl,.inr ⟨.arrives _,rfl⟩⟩
  | lost => exact ⟨rfl,.inl rfl,.inr ⟨.cancelled,rfl⟩⟩
  | quit pc stands => exact ⟨stands.symm,.inl rfl,.inl rfl⟩
  | replied => exact ⟨rfl,.inr rfl,.inl rfl⟩
  | requested pc moved => exact ⟨rfl,.inl rfl,.inr ⟨.requested,moved⟩⟩
  | pumped =>
    rename_i ok pc
    rcases @pumpReadsCases j s ok with ⟨f,rest,_,goes | halts⟩ | ⟨_,halts⟩
    · exact ⟨goes.wish,.inl goes.asked,.inl goes.flow⟩
    · exact ⟨halts.wish,.inl halts.asked,.inr ⟨.cancelled,congrArg some halts.flow.symm⟩⟩
    · exact ⟨halts.wish,.inl halts.asked,.inr ⟨.cancelled,congrArg some halts.flow.symm⟩⟩
  | inbound own moved => exact ⟨rfl,.inl rfl,.inr ⟨_,moved⟩⟩

theorem reachedCarried {acts : List Action} (reached : Machine.run (step j port) start acts = some s) :
    SshInbound.Carried s.flow := by
  refine Machine.runKeeps (I := fun s : Session => SshInbound.Carried s.flow) ?_ ?_ reached
  · intro u a v carried h
    rcases (stepAsks h).2.2 with same | ⟨b,moved⟩
    · exact same ▸ carried
    · exact SshInbound.stepCarried moved carried
  · exact ⟨⟨[],rfl,by simp,rfl⟩,fun _ => rfl⟩

theorem wishOfSnoc (acts : List Action) (a : Action) : wishOf (acts ++ [a]) = wishAfter (wishOf acts) a :=
  List.foldl_concat ..

def Remembers (acts : List Action) (s : Session) : Prop :=
  s.wish = wishOf acts ∧ ∀ f, s.asked = some f → ∃ before, before <+: acts ∧ f = (wishOf before).request

theorem reachedRemembers {acts : List Action} (reached : Machine.run (step j port) start acts = some s) :
    Remembers acts s := by
  refine Machine.runHistory (I := Remembers) (P := fun _ _ => True) ?_ ⟨rfl,by simp [start]⟩ ?_ reached
  · intro before v a w _ held _ h
    obtain ⟨wish,asked,_⟩ := stepAsks h
    refine ⟨wish.trans (by rw [wishOfSnoc,held.1]),?_⟩
    intro f sent
    rcases asked with same | now
    · obtain ⟨earlier,part,is⟩ := held.2 f (same.symm.trans sent)
      exact ⟨earlier,part.trans (List.prefix_append _ _),is⟩
    · exact ⟨before,List.prefix_append _ _,by rw [← held.1]; exact Option.some.inj (sent.symm.trans now)⟩
  · exact Machine.alongAll (fun _ _ => trivial)

end Wire

/- Everything the guest's socket is given: the CONNECT line, the one REQUEST for what the
client had asked for by then, and the client's events in their order with PINGs between. -/
theorem wireWhole (j : Json) (port : Int) (acts : List Action) (s : Session)
    (reached : Machine.run (step j port) start acts = some s) :
    s.opening ++ s.flow.written = [] ∨ s.opening ++ s.flow.written = connectLine port ∨
    ∃ before frames, before <+: acts ∧
      s.opening ++ s.flow.written = connectLine port ++ encodeAll ((wishOf before).request::frames) ∧
      (∀ g ∈ (wishOf before).request::frames, g.payload.length ≤ maxFrameLen) ∧
      frames.filter SshInbound.notPing ++ (s.flow.hand ++ s.flow.queue).map Event.frame = s.flow.arrived.map Event.frame := by
  obtain ⟨_,remembers⟩ := reachedRemembers reached
  obtain ⟨⟨frames,written,fits,same⟩,_⟩ := reachedCarried reached
  rcases stagedOpened (reachedOrderly reached).staged with ⟨f,opening,asked,small⟩ | ⟨opening,_,nothing⟩
  · obtain ⟨before,part,rfl⟩ := remembers f asked
    refine .inr (.inr ⟨before,frames,part,?_,List.forall_mem_cons.mpr ⟨small,fits⟩,same⟩)
    rw [opening,written,encodeAllCons,List.append_assoc]
  · rw [nothing,List.append_nil]
    rcases opening with none | line
    · exact .inl none
    · exact .inr (.inl line)

theorem wireWholeSeven : ∃ s, Machine.run (step GuestJson.readerJson 1234) start (exitActions.take 9) = some s ∧
    s.opening ++ s.flow.written = connectLine 1234 ++
      encodeAll [⟨frameRequest,ControlPayloads.execRequest (ControlPayloads.ofText ['i','d'])⟩,⟨frameStdin,[120]⟩] ∧
    (s.opening ++ s.flow.written = [] ∨ s.opening ++ s.flow.written = connectLine 1234 ∨
    ∃ before frames, before <+: exitActions.take 9 ∧
      s.opening ++ s.flow.written = connectLine 1234 ++ encodeAll ((wishOf before).request::frames) ∧
      (∀ g ∈ (wishOf before).request::frames, g.payload.length ≤ maxFrameLen) ∧
      frames.filter SshInbound.notPing ++ (s.flow.hand ++ s.flow.queue).map Event.frame = s.flow.arrived.map Event.frame) := by
  obtain ⟨s,reached,written⟩ : ∃ s, Machine.run (step GuestJson.readerJson 1234) start (exitActions.take 9) = some s ∧
      s.opening ++ s.flow.written = connectLine 1234 ++ encodeAll
        [⟨frameRequest,ControlPayloads.execRequest (ControlPayloads.ofText ['i','d'])⟩,⟨frameStdin,[120]⟩] :=
    Machine.runEnds (by decide +kernel)
  exact ⟨s,reached,written,wireWhole GuestJson.readerJson 1234 _ s reached⟩

section Paused
variable {j : Json} {port : Int} {s t : Session}

def Eager (s : Session) : Prop := s.run = .pumping .reading ∨ s.run = .pumping (.waiting true)

def Held (before : List Frame) (s : Session) : Prop :=
  s.writeResumed = false ∧
    (s.read = before ∨ ¬ Eager s ∧ ∃ f, s.read = before ++ [f] ∧ f.payload.length ≤ maxFrameLen)

theorem heldSame {before : List Frame} (held : Held before s) (resumed : t.writeResumed = false) (read : t.read = s.read)
    (eager : Eager t → Eager s) : Held before t := by
  refine ⟨resumed,?_⟩
  rcases held.2 with none | ⟨lazy,f,more⟩
  · exact .inl (read.trans none)
  · exact .inr ⟨fun e => lazy (eager e),f,read ▸ more⟩

theorem readsHeld {before : List Frame} {ok : Bool} (pc : s.run = .pumping .reading) (held : Held before s) :
    Held before (pumpReads j s ok) := by
  obtain ⟨waits,first | ⟨lazy,_⟩⟩ := held
  · have resumed : ∀ {u : Session}, u.writeResumed = s.writeResumed → u.writeResumed = false := fun same => same.trans waits
    have small : ∀ {f rest}, sshReadFrame s.reader = .frame f rest → f.payload.length ≤ maxFrameLen :=
      fun read => (headFrame (readFrameByGrammar read).1).1
    rcases @pumpReadsCases j s ok with ⟨f,rest,found,goes | halts⟩ | ⟨_,halts⟩
    · refine ⟨resumed goes.resumed,.inr ⟨?_,f,by rw [goes.read,first],small found⟩⟩
      simp [Eager,goes.run,waits]
    · refine ⟨resumed halts.resumed,.inr ⟨?_,f,by rw [halts.read,first],small found⟩⟩
      simp [Eager,halts.run]
    · exact ⟨resumed halts.resumed,.inl (halts.read.trans first)⟩
  · exact absurd (.inl pc) lazy

theorem stepHeld {a : Action} {before : List Frame} (h : step j port s a = some t) (waits : a ≠ .resumeWriting)
    (held : Held before s) : Held before t := by
  cases stepMove h with
  | opened | ptyWished | execWished | arrived | inbound => exact heldSame held held.1 rfl id
  | paused => exact heldSame held rfl rfl id
  | resumed | woke => exact absurd rfl waits
  | started | lost | unreached | mistaken | quit | connected | greeted | replied => exact heldSame held held.1 rfl (by simp [Eager])
  | requested =>
    refine heldSame held held.1 rfl ?_
    simp [Eager,loopTop,held.1]
  | woken pc => exact heldSame held held.1 rfl (fun _ => .inr pc)
  | pumped pc => exact readsHeld pc held

end Paused

-- While the client does not keep up, at most one more frame of the guest's output is taken.
theorem pausedReads (j : Json) (port : Int) (s t : Session) (acts : List Action) (paused : s.writeResumed = false)
    (waits : ∀ a ∈ acts, a ≠ .resumeWriting) (later : Machine.run (step j port) s acts = some t) :
    t.read = s.read ∨ ∃ f, t.read = s.read ++ [f] ∧ f.payload.length ≤ maxFrameLen := by
  have held : Held s.read t := by
    refine Machine.runKeepsAlong (I := Held s.read) (P := fun _ a => a ≠ .resumeWriting) ?_ ⟨paused,.inl rfl⟩
      (Machine.alongAll waits) later
    intro u a v held waits h
    exact stepHeld h waits held
  rcases held.2 with none | ⟨_,more⟩
  · exact .inl none
  · exact .inr more

def chattyStream : Socket := ⟨GuestCommand.okLine 1234 ++ encodeAll [⟨frameStdout,[104]⟩,⟨frameStdout,[105]⟩],[],.eof⟩

def chattyActions : List Action :=
  [.connectionMade,.sessionStarted,.connects (.ok chattyStream) true,.greets false,.answers true,.requests false,.pauseWriting]

theorem chattyEnds : ∃ s, Machine.run (step GuestJson.readerJson 1234) start chattyActions = some s ∧
    (s.writeResumed = false ∧ s.read = [] ∧ ∃ t, Machine.run (step GuestJson.readerJson 1234) s [.reads true,.inbound .ping] =
      some t ∧ t.shown = ⟨[104],[]⟩) := by
  refine ⟨_,rfl,rfl,rfl,_,rfl,?_⟩
  decide +kernel

theorem pausedReadsChatty : ∃ s t, Machine.run (step GuestJson.readerJson 1234) start chattyActions = some s ∧
    Machine.run (step GuestJson.readerJson 1234) s [.reads true,.inbound .ping] = some t ∧ t.shown = ⟨[104],[]⟩ ∧
    (t.read = s.read ∨ ∃ f, t.read = s.read ++ [f] ∧ f.payload.length ≤ maxFrameLen) := by
  obtain ⟨s,reached,paused,_,t,later,shown⟩ := chattyEnds
  refine ⟨s,t,reached,later,shown,?_⟩
  exact pausedReads GuestJson.readerJson 1234 s t _ paused (by simp) later

end Guesthopper.SshSession
