import Guesthopper.GuestCommand
import Guesthopper.Machine

/-! `run_shell` from the moment its handshake has sent the REQUEST and its handlers are
installed. A `sendall` is several sends, and between any two steps of the loop or of a
`sendall` the window-size handler may run, which itself sends a frame on the same socket and
may be interrupted in turn. `os.write` on the local side accepts what it accepts and the
loop does not ask how much. `called` records the arguments of `write_frame` in call order,
`typed` what was read from stdin and `received` what `read_frame` returned. -/
namespace Guesthopper.ShellLoop
open FrameBytes ClientDoors GuestCommand

def readSize : Nat := 4096

-- `TIOCGWINSZ`, or the failure of the ioctl; a zero dimension falls back.
def termSize : Option (UInt16 × UInt16) → Nat × Nat
  | some (rows,cols) => (ControlPayloads.orDefault rows.toNat 24,ControlPayloads.orDefault cols.toNat 80)
  | none => (24,80)

def requestFrame (size : Nat × Nat) : Frame := ⟨frameRequest,ControlPayloads.openPtyRequest size.1 size.2⟩

def resizeFrame (size : Nat × Nat) : Frame := ⟨frameResize,ControlPayloads.resizePayload size.1 size.2⟩

structure Sending where
  frame : Frame
  left : Bytes
  deriving DecidableEq, Repr

def sending (f : Frame) : Sending := ⟨f,encode f⟩

def Sending.after (x : Sending) (n : Nat) : Option Sending :=
  if x.left.length ≤ n then none else some {x with left := x.left.drop n}

inductive Pc where
  | selecting
  | reading
  | leaving
  | gone
  deriving DecidableEq, Repr

structure Shell where
  pc : Pc
  watchesStdin : Bool
  main : Option Sending
  handlers : List Sending
  sent : Bytes
  called : List Frame
  typed : Bytes
  received : List Frame
  shown : Shown
  deriving DecidableEq, Repr

def request (tty : Bool) (window : Option (UInt16 × UInt16)) : Frame :=
  requestFrame (if tty then termSize window else (24,80))

def start (tty : Bool) (window : Option (UInt16 × UInt16)) : Shell :=
  ⟨.selecting,true,none,[],encode (request tty window),[request tty window],[],[],⟨[],[]⟩⟩

def pending (s : Shell) : List Sending := s.handlers ++ s.main.toList

def At (s : Shell) (pc : Pc) : Prop := s.pc = pc ∧ s.main = none ∧ s.handlers = []

instance (s : Shell) (pc : Pc) : Decidable (At s pc) := inferInstanceAs (Decidable (_ ∧ _))

def writeFrame (s : Shell) (f : Frame) : Shell := {s with main := some (sending f), called := s.called ++ [f]}

def readStdin (s : Shell) : Option Bytes → Shell
  | none => s
  | some data =>
    if data = [] then writeFrame {s with watchesStdin := false} ⟨frameStdinEof,[]⟩
    else writeFrame {s with typed := s.typed ++ data} ⟨frameStdin,data⟩

def Output (f : Frame) : Prop := f.ftype = frameStdout ∨ f.ftype = frameStderr

instance (f : Frame) : Decidable (Output f) := inferInstanceAs (Decidable (_ ∨ _))

-- `os.write` accepts a prefix of its argument, a non-empty one where there is one.
def Accepts (n : Nat) (payload : Bytes) : Prop := n ≤ payload.length ∧ (payload ≠ [] → 0 < n)

instance (n : Nat) (payload : Bytes) : Decidable (Accepts n payload) := inferInstanceAs (Decidable (_ ∧ _))

def display (shown : Shown) (f : Frame) (n : Nat) : Shown :=
  if f.ftype = frameStdout then {shown with out := shown.out ++ f.payload.take n}
  else if f.ftype = frameStderr then {shown with err := shown.err ++ f.payload.take n}
  else shown

inductive Action where
  | idles
  | wakes (chunk : Option Bytes) (guest : Bool)
  | guest (f : Frame) (accepted : Nat)
  | stops
  | sends (n : Nat)
  | sendFails
  | winch (window : Option (UInt16 × UInt16))
  | uninstalls
  | killed
  deriving DecidableEq, Repr

def step (tty : Bool) (s : Shell) : Action → Option Shell
  | .idles => if At s .selecting then some (writeFrame s ⟨framePing,[]⟩) else none
  | .wakes chunk guest =>
    if At s .selecting ∧ (chunk.isSome ∨ guest) ∧ (chunk.isSome → s.watchesStdin) ∧ (chunk.getD []).length ≤ readSize then
      some (readStdin {s with pc := if guest then .reading else .selecting} chunk)
    else none
  | .guest f accepted =>
    if At s .reading ∧ (Output f → Accepts accepted f.payload) then
      some {s with pc := if Terminal f then .leaving else .selecting, received := s.received ++ [f],
                   shown := display s.shown f accepted}
    else none
  -- The stream ends, or `select`, `os.read`, `os.write`, `read_frame` or `json.loads` raises.
  | .stops => if At s .selecting ∨ At s .reading then some {s with pc := .leaving} else none
  | .sends n =>
    match s.handlers,s.main with
    | x::rest,_ =>
      if s.pc ≠ .gone ∧ 0 < n ∧ n ≤ x.left.length then
        some {s with sent := s.sent ++ x.left.take n, handlers := (x.after n).toList ++ rest}
      else none
    | [],some x =>
      if (s.pc = .selecting ∨ s.pc = .reading) ∧ 0 < n ∧ n ≤ x.left.length then
        some {s with sent := s.sent ++ x.left.take n, main := x.after n}
      else none
    | [],none => none
  -- An OSError ends the loop, but not a handler: `_safe_resize` passes.
  | .sendFails =>
    match s.handlers,s.main with
    | _::rest,_ => if s.pc ≠ .gone then some {s with handlers := rest} else none
    | [],some _ => if s.pc = .selecting ∨ s.pc = .reading then some {s with pc := .leaving} else none
    | [],none => none
  | .winch window =>
    if tty ∧ s.pc ≠ .gone then
      let f := resizeFrame (termSize window)
      some {s with handlers := sending f::s.handlers, called := s.called ++ [f]}
    else none
  | .uninstalls => if s.pc = .leaving ∧ s.handlers = [] then some {s with pc := .gone} else none
  -- SIGTERM or SIGHUP: the terminal is restored and the process exits.
  | .killed => some {s with pc := .gone}

section Steps
variable {tty : Bool} {s t : Shell} {a : Action}

def Unsent (s t : Shell) : Prop :=
  t.main = s.main ∧ t.handlers = s.handlers ∧ t.sent = s.sent ∧ t.called = s.called ∧ t.typed = s.typed

def Undelivered (s t : Shell) : Prop := t.received = s.received ∧ t.shown = s.shown

def Writes (s t : Shell) (f : Frame) : Prop :=
  pending s = [] ∧ pending t = [sending f] ∧ t.sent = s.sent ∧ t.called = s.called ++ [f] ∧
    t.typed = s.typed ++ output frameStdin [f] ∧ f.payload.length ≤ readSize

theorem idlesCases (h : step tty s .idles = some t) : Writes s t ⟨framePing,[]⟩ ∧ Undelivered s t := by
  simp only [step] at h
  split at h <;> try contradiction
  rename_i able
  obtain ⟨_,main,handlers⟩ := able
  cases Option.some.inj h
  exact ⟨⟨by simp [pending,main,handlers],by simp [pending,writeFrame,handlers],rfl,rfl,
    by simp [writeFrame,output,framePing,frameStdin],Nat.zero_le _⟩,rfl,rfl⟩

theorem wakesCases {chunk : Option Bytes} {guest : Bool} (h : step tty s (.wakes chunk guest) = some t) :
    (Unsent s t ∨ ∃ f, Writes s t f) ∧ Undelivered s t := by
  simp only [step] at h
  split at h <;> try contradiction
  rename_i able
  obtain ⟨⟨_,main,handlers⟩,_,_,small⟩ := able
  cases Option.some.inj h
  cases chunk with
  | none => exact ⟨.inl ⟨rfl,rfl,rfl,rfl,rfl⟩,rfl,rfl⟩
  | some data =>
    simp only [readStdin]
    split
    · refine ⟨.inr ⟨⟨frameStdinEof,[]⟩,?_,?_,rfl,rfl,?_,Nat.zero_le _⟩,rfl,rfl⟩
      · simp [pending,main,handlers]
      · simp [pending,writeFrame,handlers]
      · simp [writeFrame,output,frameStdinEof,frameStdin]
    · refine ⟨.inr ⟨⟨frameStdin,data⟩,?_,?_,rfl,rfl,?_,small⟩,rfl,rfl⟩
      · simp [pending,main,handlers]
      · simp [pending,writeFrame,handlers]
      · simp [writeFrame,output]

theorem guestCases {f : Frame} {n : Nat} (h : step tty s (.guest f n) = some t) :
    At s .reading ∧ (Output f → Accepts n f.payload) ∧ t.received = s.received ++ [f] ∧ t.shown = display s.shown f n ∧ Unsent s t := by
  simp only [step] at h
  split at h <;> try contradiction
  rename_i able
  cases Option.some.inj h
  exact ⟨able.1,able.2,rfl,rfl,rfl,rfl,rfl,rfl,rfl⟩

theorem sendsCases {n : Nat} (h : step tty s (.sends n) = some t) :
    ∃ x rest, pending s = x::rest ∧ 0 < n ∧ n ≤ x.left.length ∧ pending t = (x.after n).toList ++ rest ∧
      t.sent = s.sent ++ x.left.take n ∧ t.called = s.called ∧ t.typed = s.typed ∧ Undelivered s t := by
  simp only [step] at h
  split at h <;> try contradiction
  · rename_i _ x rest inside
    split at h <;> try contradiction
    rename_i able
    cases Option.some.inj h
    refine ⟨x,rest ++ s.main.toList,?_,able.2.1,able.2.2,?_,rfl,rfl,rfl,rfl,rfl⟩
    · simp [pending,inside]
    · simp [pending]
  · rename_i x outside main
    split at h <;> try contradiction
    rename_i able
    cases Option.some.inj h
    refine ⟨x,[],?_,able.2.1,able.2.2,?_,rfl,rfl,rfl,rfl,rfl⟩
    · simp [pending,outside,main]
    · simp [pending,outside]

theorem sendFailsCases (h : step tty s .sendFails = some t) :
    ((∃ x rest, s.handlers = x::rest ∧ t = {s with handlers := rest}) ∨ Unsent s t) ∧ Undelivered s t := by
  simp only [step] at h
  split at h <;> try contradiction
  · rename_i _ x rest inside
    split at h <;> try contradiction
    cases Option.some.inj h
    exact ⟨.inl ⟨x,rest,inside,rfl⟩,rfl,rfl⟩
  · split at h <;> try contradiction
    cases Option.some.inj h
    exact ⟨.inr ⟨rfl,rfl,rfl,rfl,rfl⟩,rfl,rfl⟩

theorem stopsCases (h : step tty s .stops = some t) : Unsent s t ∧ Undelivered s t := by
  simp only [step] at h
  split at h <;> try contradiction
  cases Option.some.inj h
  exact ⟨⟨rfl,rfl,rfl,rfl,rfl⟩,rfl,rfl⟩

theorem uninstallsCases (h : step tty s .uninstalls = some t) : Unsent s t ∧ Undelivered s t := by
  simp only [step] at h
  split at h <;> try contradiction
  cases Option.some.inj h
  exact ⟨⟨rfl,rfl,rfl,rfl,rfl⟩,rfl,rfl⟩

theorem winchCases {window : Option (UInt16 × UInt16)} (h : step tty s (.winch window) = some t) :
    t = {s with handlers := sending (resizeFrame (termSize window))::s.handlers,
                called := s.called ++ [resizeFrame (termSize window)]} := by
  simp only [step] at h
  split at h <;> try contradiction
  exact (Option.some.inj h).symm

theorem stepDelivers (h : step tty s a = some t) :
    (∃ f n, a = .guest f n ∧ (Output f → Accepts n f.payload) ∧ t.received = s.received ++ [f] ∧ t.shown = display s.shown f n) ∨
    (∀ f n, a ≠ .guest f n) ∧ Undelivered s t := by
  cases a with
  | guest f n =>
    obtain ⟨_,accepts,received,shown,_⟩ := guestCases h
    exact .inl ⟨f,n,rfl,accepts,received,shown⟩
  | idles => exact .inr ⟨by simp,(idlesCases h).2⟩
  | wakes chunk guest => exact .inr ⟨by simp,(wakesCases h).2⟩
  | stops => exact .inr ⟨by simp,(stopsCases h).2⟩
  | sends n =>
    obtain ⟨x,rest,_,_,_,_,_,_,_,same⟩ := sendsCases h
    exact .inr ⟨by simp,same⟩
  | sendFails => exact .inr ⟨by simp,(sendFailsCases h).2⟩
  | winch window =>
    rw [winchCases h]
    exact .inr ⟨by simp,rfl,rfl⟩
  | uninstalls => exact .inr ⟨by simp,(uninstallsCases h).2⟩
  | killed =>
    cases Option.some.inj h
    exact .inr ⟨by simp,rfl,rfl⟩

def TakesAll : Action → Prop
  | .guest f n => Output f → n = f.payload.length
  | _ => True

def Complete (s : Shell) : Prop := s.shown = seen ⟨[],[]⟩ s.received

def shownLength (s : Shell) : Nat := s.shown.out.length + s.shown.err.length

def dueLength (s : Shell) : Nat := (output frameStdout s.received).length + (output frameStderr s.received).length

theorem outputConcat (ftype : UInt8) (fs : List Frame) (f : Frame) :
    output ftype (fs ++ [f]) = output ftype fs ++ if f.ftype = ftype then f.payload else [] := by
  by_cases same : f.ftype = ftype <;> simp [output,same]

theorem seenConcat (shown : Shown) (fs : List Frame) (f : Frame) :
    seen shown (fs ++ [f]) = display (seen shown fs) f f.payload.length := by
  by_cases out : f.ftype = frameStdout
  · simp [seen,outputConcat,display,out,frameStdout,frameStderr]
  · by_cases err : f.ftype = frameStderr
    · simp [seen,outputConcat,display,err,show frameStderr ≠ frameStdout by decide]
    · simp [seen,outputConcat,display,out,err]

theorem displayAll {shown : Shown} {f : Frame} {n : Nat} (all : Output f → n = f.payload.length) :
    display shown f n = display shown f f.payload.length := by
  by_cases printed : Output f
  · rw [all printed]
  · obtain ⟨out,err⟩ := not_or.mp printed
    simp [display,out,err]

theorem stepComplete (complete : Complete s) (all : TakesAll a) (h : step tty s a = some t) : Complete t := by
  obtain ⟨f,n,rfl,_,received,shown⟩ | ⟨_,received,shown⟩ := stepDelivers h
  · rw [Complete,received,shown,seenConcat,displayAll all,complete]
  · rw [Complete,received,shown]
    exact complete

theorem displayLength {f : Frame} {n : Nat} (accepts : Output f → Accepts n f.payload) (received : t.received = s.received ++ [f])
    (shown : t.shown = display s.shown f n) :
    shownLength t = shownLength s + (if Output f then n else 0) ∧
    dueLength t = dueLength s + (if Output f then f.payload.length else 0) := by
  have taken : Output f → (f.payload.take n).length = n := by
    intro printed
    rw [List.length_take,Nat.min_eq_left (accepts printed).1]
  simp only [shownLength,dueLength,received,shown,outputConcat,List.length_append]
  by_cases out : f.ftype = frameStdout
  · simp only [display,Output,out,true_or,if_true,List.length_append,taken (.inl out),show frameStdout ≠ frameStderr by decide,
      if_false,List.length_nil]
    omega
  · by_cases err : f.ftype = frameStderr
    · simp only [display,Output,err,or_true,if_true,List.length_append,taken (.inr err),show frameStderr ≠ frameStdout by decide,
        if_false,List.length_nil]
      omega
    · simp [display,Output,out,err]

theorem stepBehind (behind : shownLength s ≤ dueLength s) (h : step tty s a = some t) : shownLength t ≤ dueLength t := by
  obtain ⟨f,n,rfl,accepts,received,shown⟩ | ⟨_,received,shown⟩ := stepDelivers h
  · obtain ⟨now,due⟩ := displayLength accepts received shown
    rw [now,due]
    split
    · rename_i printed
      have short := (accepts printed).1
      omega
    · exact behind
  · simpa only [shownLength,dueLength,received,shown] using behind

theorem stepLost (lost : shownLength s < dueLength s) (h : step tty s a = some t) : shownLength t < dueLength t := by
  obtain ⟨f,n,rfl,accepts,received,shown⟩ | ⟨_,received,shown⟩ := stepDelivers h
  · obtain ⟨now,due⟩ := displayLength accepts received shown
    rw [now,due]
    split
    · rename_i printed
      have short := (accepts printed).1
      omega
    · exact lost
  · simpa only [shownLength,dueLength,received,shown] using lost

theorem shortLoses (behind : shownLength s ≤ dueLength s) (short : ¬ TakesAll a) (h : step tty s a = some t) :
    shownLength t < dueLength t := by
  obtain ⟨f,n,rfl,accepts,received,shown⟩ | ⟨other,_⟩ := stepDelivers h
  · obtain ⟨now,due⟩ := displayLength accepts received shown
    simp only [TakesAll,Classical.not_imp] at short
    have within := (accepts short.1).1
    rw [now,due,if_pos short.1,if_pos short.1]
    omega
  · cases a with
    | guest f n => exact absurd rfl (other f n)
    | idles | wakes | stops | sends | sendFails | winch | uninstalls | killed => exact absurd trivial short

end Steps

theorem startComplete (tty : Bool) (window : Option (UInt16 × UInt16)) : Complete (start tty window) := rfl

theorem shellOutputExact (tty : Bool) (window : Option (UInt16 × UInt16)) (acts : List Action) (s : Shell)
    (reached : Machine.run (step tty) (start tty window) acts = some s) :
    (s.shown.out = output frameStdout s.received ∧ s.shown.err = output frameStderr s.received) ↔
      ∀ f n, .guest f n ∈ acts → Output f → n = f.payload.length := by
  constructor
  · intro ⟨out,err⟩ f n known printed
    have clean : ¬ shownLength s < dueLength s := by
      rw [shownLength,dueLength,out,err]
      exact Nat.lt_irrefl _
    have along : Machine.Along (step tty) (fun _ a => TakesAll a) (start tty window) acts :=
      Machine.alongOfUnmarked (I := fun u => shownLength u ≤ dueLength u) (M := fun u => shownLength u < dueLength u)
        (fun u a v behind h => stepBehind behind h) (fun u a v behind short h => shortLoses behind short h)
        (fun u a v _ lost h => stepLost lost h) (Nat.le_refl _) reached clean
    exact Machine.allOfAlong along reached _ known printed
  · intro all
    have along : Machine.Along (step tty) (fun _ a => TakesAll a) (start tty window) acts := by
      refine Machine.alongAll ?_
      intro a known
      cases a with
      | guest f n => exact all f n known
      | idles | wakes | stops | sends | sendFails | winch | uninstalls | killed => trivial
    have complete : Complete s := Machine.runKeepsAlong (I := Complete)
      (fun u a v before whole h => stepComplete before whole h) (startComplete tty window) along reached
    rw [complete]
    exact ⟨rfl,rfl⟩

def shortWriteActions : List Action :=
  [.wakes none true,.guest ⟨frameStdout,[104,105]⟩ 1,.wakes none true,.guest ⟨frameExit,[123,125]⟩ 0]

theorem shellOutputShort : ∃ s, Machine.run (step true) (start true none) shortWriteActions = some s ∧
    s.received = [⟨frameStdout,[104,105]⟩,⟨frameExit,[123,125]⟩] ∧
    ¬ (s.shown.out = output frameStdout s.received ∧ s.shown.err = output frameStderr s.received) := by
  obtain ⟨s,reached,received,out⟩ : ∃ s, Machine.run (step true) (start true none) shortWriteActions = some s ∧
      s.received = [⟨frameStdout,[104,105]⟩,⟨frameExit,[123,125]⟩] ∧ s.shown.out = [104] := Machine.runEnds (by decide)
  refine ⟨s,reached,received,?_⟩
  intro both
  rw [out,received] at both
  exact absurd both.1 (by decide)

theorem shellOutputExactWhole :
    let acts : List Action := [.wakes none true,.guest ⟨frameStdout,[104,105]⟩ 2]
    ∃ s, Machine.run (step true) (start true none) acts = some s ∧ s.shown.out = [104,105] ∧
      ((s.shown.out = output frameStdout s.received ∧ s.shown.err = output frameStderr s.received) ↔
        ∀ f n, .guest f n ∈ acts → Output f → n = f.payload.length) := by
  intro acts
  obtain ⟨s,reached,out⟩ : ∃ s, Machine.run (step true) (start true none) [.wakes none true,
      .guest ⟨frameStdout,[104,105]⟩ 2] = some s ∧ s.shown.out = [104,105] := Machine.runEnds (by decide)
  exact ⟨s,reached,out,shellOutputExact true none acts s reached⟩

end Guesthopper.ShellLoop
