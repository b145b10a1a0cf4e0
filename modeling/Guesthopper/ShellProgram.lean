import Guesthopper.ShellLoop

/-! `run_shell` from its first statement to its last, with the terminal and the signal
handlers it takes over. A signal may arrive between any two steps; a handler of its own for
SIGTERM or SIGHUP restores the terminal and ends the process, and a KeyboardInterrupt is
raised wherever the program stands. Installing a handler and writing the line for an ERROR are
taken to succeed. `read` records the frames taken from the guest and `said` what was written to
stderr besides the guest's own output. -/
namespace Guesthopper.ShellProgram
open FrameBytes ClientStream ClientDoors GuestCommand
open ShellLoop (Shell Output At)

inductive Sig where
  | winch
  | term
  | hup
  deriving DecidableEq, Repr

def Sig.number : Sig → Nat
  | .winch => 28
  | .term => 15
  | .hup => 1

-- `named` says whether `signal.signal` returned a handler to put back; it returns None for one not set from Python.
structure Host (α : Type) where
  json : Json
  unixSocket : String
  port : Int
  tty : Bool
  window : Option (UInt16 × UInt16)
  terminal : α
  raw : α → α
  named : Sig → Bool

inductive Pc where
  | connecting
  | greeting
  | saving
  | rawing
  | installing (sig : Sig)
  | entering
  | looping
  | restoring
  | uninstalling (sig : Sig)
  | closing
  | over
  | exited (code : Nat)
  | killed (sig : Sig)
  deriving DecidableEq, Repr

inductive Ending where
  | told (r : Report)
  | unexpected (expected response : List Char)
  | interrupted
  deriving DecidableEq, Repr

structure Program (α : Type) where
  pc : Pc
  terminal : α
  saved : Option α
  owned : List Sig
  reader : Socket
  shell : Shell
  read : List Frame
  said : List String
  ending : Option Ending

def unasked : Shell := ⟨.selecting,true,none,[],[],[],[],[],⟨[],[]⟩⟩

section Program
variable {α : Type}

def start (h : Host α) : Program α := ⟨.connecting,h.terminal,none,[],⟨[],[],.eof⟩,unasked,[],[],none⟩

def socketError (h : Host α) (e : String) : Ending :=
  .told (.raised ("Socket error while talking to " ++ h.unixSocket ++ ": " ++ e))

def connectError (h : Host α) (e : String) : Ending := .told (.raised s!"Failed to connect to vsock port {h.port}: {e}")

def shellHandshake (h : Host α) (connectFails requestFails : Option String) (s : Socket) : Except Ending Socket :=
  match connectFails with
  | some e => .error (connectError h e)
  | none => match recvLine lineLimit s with
    | .error (.os e) => .error (connectError h e)
    | .error (.command msg) => .error (.told (.raised msg))
    | .ok (line,t) =>
      let response := strip (LossyText.decode line)
      if response ≠ okResponse h.port then .error (.unexpected (okResponse h.port) response)
      else match requestFails with
        | some e => .error (socketError h e)
        | none => .ok t

def Program.leaves (s : Program α) (e : Ending) : Program α := {s with pc := .closing, ending := some e}

def Program.stops (s : Program α) (e : Ending) : Program α := {s with pc := .restoring, ending := some e}

def abandon (s : Shell) : Shell := {s with handlers := [], pc := .leaving}

def afterInstall : Sig → Pc
  | .winch => .installing .term
  | .term => .installing .hup
  | .hup => .entering

def afterUninstall : Sig → Pc
  | .winch => .uninstalling .term
  | .term => .uninstalling .hup
  | .hup => .closing

def Program.restoreTerminal (s : Program α) (works : Bool) : α := if works then s.saved.getD s.terminal else s.terminal

def Gone : Pc → Prop
  | .over | .exited _ | .killed _ => True
  | _ => False

instance : DecidablePred Gone := fun pc => by cases pc <;> unfold Gone <;> infer_instance

def lastReport (h : Host α) (f : Frame) : Report :=
  if f.ftype = frameExit then (runShell h.json h.unixSocket).onExit f.payload
  else (runShell h.json h.unixSocket).onError f.payload

def complaint (h : Host α) (f : Frame) : List String :=
  if f.ftype = frameError then
    match parseJson h.json f.payload with
    | .ok fields => ["guest_cmd: guest agent error: " ++ messageText fields ++ "\n"]
    | _ => []
  else []

-- `fails` is a failure of the `os.write` on the local side.
def reads (h : Host α) (s : Program α) (accepted : Nat) (fails : Option String) : Option (Program α) :=
  match readFrame s.reader with
  | .none => (ShellLoop.step h.tty s.shell .stops).map fun shell =>
    {s.stops (.told (runShell h.json h.unixSocket).onEnd) with shell := shell}
  | .raised e => (ShellLoop.step h.tty s.shell .stops).map fun shell =>
    {s.stops (.told ((runShell h.json h.unixSocket).onFault e)) with shell := shell}
  | .frame f t =>
    match if Output f then fails else none with
    | some e => (ShellLoop.step h.tty s.shell .stops).map fun shell =>
      {s.stops (socketError h e) with shell := shell, reader := t, read := s.read ++ [f]}
    | none => (ShellLoop.step h.tty s.shell (.guest f accepted)).map fun shell =>
      let s := {s with shell := shell, reader := t, read := s.read ++ [f]}
      if Terminal f then {s.stops (.told (lastReport h f)) with said := s.said ++ complaint h f} else s

inductive Action where
  | connects (outcome : Except String Socket)
  | greets (connectFails requestFails : Option String)
  | saves (fails : Option String)
  | raws (fails : Option String)
  | installs
  | enters
  | idles
  | wakes (chunk : Option Bytes) (guest : Bool)
  | fails (e : String)
  | reads (accepted : Nat) (fails : Option String)
  | sends (n : Nat)
  | sendFails (e : String)
  | winch (window : Option (UInt16 × UInt16))
  | restores (works : Bool)
  | uninstalls
  | closes
  | kills (sig : Sig) (ends works : Bool)
  | interrupts

def step (h : Host α) (s : Program α) : Action → Option (Program α)
  | .connects outcome =>
    if s.pc = .connecting then
      match outcome with
      | .error e => some (s.leaves (socketError h e))
      | .ok socket => some {s with pc := .greeting, reader := socket}
    else none
  | .greets connectFails requestFails =>
    if s.pc = .greeting then
      match shellHandshake h connectFails requestFails s.reader with
      | .error e => some (s.leaves e)
      | .ok t => some {s with pc := if h.tty then .saving else .entering, reader := t, shell := ShellLoop.start h.tty h.window}
    else none
  -- `termios.error` is no OSError.
  | .saves fails =>
    if s.pc = .saving then
      match fails with
      | some e => some (s.leaves (.told (.crashed e)))
      | none => some {s with pc := .rawing, saved := some s.terminal}
    else none
  | .raws fails =>
    if s.pc = .rawing then
      match fails with
      | some e => some (s.leaves (.told (.crashed e)))
      | none => some {s with pc := .installing .winch, terminal := h.raw s.terminal}
    else none
  | .installs =>
    match s.pc with
    | .installing sig =>
      if s.shell.handlers = [] then some {s with pc := afterInstall sig, owned := sig::s.owned} else none
    | _ => none
  | .enters => if s.pc = .entering ∧ s.shell.handlers = [] then some {s with pc := .looping} else none
  | .idles => if s.pc = .looping then (ShellLoop.step h.tty s.shell .idles).map fun shell => {s with shell := shell} else none
  | .wakes chunk guest =>
    if s.pc = .looping then (ShellLoop.step h.tty s.shell (.wakes chunk guest)).map fun shell => {s with shell := shell} else none
  | .fails e =>
    if s.pc = .looping ∧ At s.shell .selecting then
      (ShellLoop.step h.tty s.shell .stops).map fun shell => {s.stops (socketError h e) with shell := shell}
    else none
  | .reads accepted fails => if s.pc = .looping ∧ At s.shell .reading then reads h s accepted fails else none
  | .sends n => if Gone s.pc then none else (ShellLoop.step h.tty s.shell (.sends n)).map fun shell => {s with shell := shell}
  | .sendFails e =>
    if Gone s.pc then none
    else if s.shell.handlers ≠ [] then (ShellLoop.step h.tty s.shell .sendFails).map fun shell => {s with shell := shell}
    else if s.pc = .looping then
      (ShellLoop.step h.tty s.shell .sendFails).map fun shell => {s.stops (socketError h e) with shell := shell}
    else none
  | .winch window =>
    if ¬ Gone s.pc ∧ .winch ∈ s.owned then
      (ShellLoop.step h.tty s.shell (.winch window)).map fun shell => {s with shell := shell}
    else none
  | .restores works =>
    if s.pc = .restoring ∧ s.shell.handlers = [] then
      some {s with pc := if h.tty then .uninstalling .winch else .closing, terminal := s.restoreTerminal works}
    else none
  | .uninstalls =>
    match s.pc with
    | .uninstalling sig =>
      if s.shell.handlers = [] then
        some {s with pc := afterUninstall sig, owned := if h.named sig then s.owned.erase sig else s.owned}
      else none
    | _ => none
  | .closes =>
    if s.pc = .closing ∧ s.shell.handlers = [] then some {s with pc := .over, shell := {s.shell with pc := .gone}} else none
  -- What the process came with either ends it or does nothing.
  | .kills sig ends works =>
    if ¬ Gone s.pc ∧ sig ≠ .winch then
      if sig ∈ s.owned then
        some {s with pc := .exited (128 + sig.number), terminal := s.restoreTerminal works, shell := {s.shell with pc := .gone}}
      else if ends then some {s with pc := .killed sig, shell := {s.shell with pc := .gone}} else some s
    else none
  -- No `except` of the function takes a KeyboardInterrupt.
  | .interrupts =>
    if Gone s.pc then none
    else if s.pc = .closing then some {s with pc := .over, ending := some .interrupted, shell := {s.shell with pc := .gone}}
    else if s.pc = .looping then some {s.stops .interrupted with shell := abandon s.shell}
    else some {s.leaves .interrupted with shell := abandon s.shell}

section Moves

def Early : Pc → Prop
  | .connecting | .greeting | .saving | .rawing => True
  | _ => False

/- Every way one step can go on. `left` is an exception before the inner `try`; what `reads` does
is told apart by what stands in the socket. -/
inductive Move (h : Host α) (s : Program α) : Action → Program α → Prop where
  | left {a e} (early : Early s.pc) (raised : ∀ code, e ≠ .told (.status code)) : Move h s a (s.leaves e)
  | connected (socket) (pc : s.pc = .connecting) :
      Move h s (.connects (.ok socket)) {s with pc := .greeting, reader := socket}
  | greeted {connectFails requestFails rest} (pc : s.pc = .greeting)
      (got : shellHandshake h connectFails requestFails s.reader = .ok rest) :
      Move h s (.greets connectFails requestFails)
        {s with pc := if h.tty then .saving else .entering, reader := rest, shell := ShellLoop.start h.tty h.window}
  | saved (pc : s.pc = .saving) : Move h s (.saves none) {s with pc := .rawing, saved := some s.terminal}
  | rawed (pc : s.pc = .rawing) : Move h s (.raws none) {s with pc := .installing .winch, terminal := h.raw s.terminal}
  | installed {sig} (pc : s.pc = .installing sig) : Move h s .installs {s with pc := afterInstall sig, owned := sig::s.owned}
  | entered (pc : s.pc = .entering) : Move h s .enters {s with pc := .looping}
  | idled {shell} (pc : s.pc = .looping) (went : ShellLoop.step h.tty s.shell .idles = some shell) :
      Move h s .idles {s with shell := shell}
  | woken {chunk guest shell} (pc : s.pc = .looping) (went : ShellLoop.step h.tty s.shell (.wakes chunk guest) = some shell) :
      Move h s (.wakes chunk guest) {s with shell := shell}
  | failed {e shell} (pc : s.pc = .looping) (went : ShellLoop.step h.tty s.shell .stops = some shell) :
      Move h s (.fails e) {s.stops (socketError h e) with shell := shell}
  | ended {n fails shell} (pc : s.pc = .looping) (found : readFrame s.reader = .none)
      (went : ShellLoop.step h.tty s.shell .stops = some shell) :
      Move h s (.reads n fails) {s.stops (.told (runShell h.json h.unixSocket).onEnd) with shell := shell}
  | faulted {n fails e shell} (pc : s.pc = .looping) (found : readFrame s.reader = .raised e)
      (went : ShellLoop.step h.tty s.shell .stops = some shell) :
      Move h s (.reads n fails) {s.stops (.told ((runShell h.json h.unixSocket).onFault e)) with shell := shell}
  | unwritten {n f u e shell} (pc : s.pc = .looping) (found : readFrame s.reader = .frame f u) (printed : Output f)
      (went : ShellLoop.step h.tty s.shell .stops = some shell) :
      Move h s (.reads n (some e)) {s.stops (socketError h e) with shell := shell, reader := u, read := s.read ++ [f]}
  | finished {n fails f u shell} (pc : s.pc = .looping) (found : readFrame s.reader = .frame f u) (last : Terminal f)
      (went : ShellLoop.step h.tty s.shell (.guest f n) = some shell) :
      Move h s (.reads n fails) {s.stops (.told (lastReport h f)) with
        shell := shell, reader := u, read := s.read ++ [f], said := s.said ++ complaint h f}
  | taken {n fails f u shell} (pc : s.pc = .looping) (found : readFrame s.reader = .frame f u) (more : ¬ Terminal f)
      (went : ShellLoop.step h.tty s.shell (.guest f n) = some shell) :
      Move h s (.reads n fails) {s with shell := shell, reader := u, read := s.read ++ [f]}
  | sent {n shell} (went : ShellLoop.step h.tty s.shell (.sends n) = some shell) : Move h s (.sends n) {s with shell := shell}
  | handlerFailed {e shell} (busy : s.shell.handlers ≠ []) (went : ShellLoop.step h.tty s.shell .sendFails = some shell) :
      Move h s (.sendFails e) {s with shell := shell}
  | sendFailed {e shell} (pc : s.pc = .looping) (idle : s.shell.handlers = [])
      (went : ShellLoop.step h.tty s.shell .sendFails = some shell) :
      Move h s (.sendFails e) {s.stops (socketError h e) with shell := shell}
  | resized {window shell} (owned : .winch ∈ s.owned) (went : ShellLoop.step h.tty s.shell (.winch window) = some shell) :
      Move h s (.winch window) {s with shell := shell}
  | restored {works} (pc : s.pc = .restoring) :
      Move h s (.restores works)
        {s with pc := if h.tty then .uninstalling .winch else .closing, terminal := s.restoreTerminal works}
  | uninstalled {sig} (pc : s.pc = .uninstalling sig) :
      Move h s .uninstalls {s with pc := afterUninstall sig, owned := if h.named sig then s.owned.erase sig else s.owned}
  | closed (pc : s.pc = .closing) : Move h s .closes {s with pc := .over, shell := {s.shell with pc := .gone}}
  | exited {sig ends works} (owned : sig ∈ s.owned) :
      Move h s (.kills sig ends works)
        {s with pc := .exited (128 + sig.number), terminal := s.restoreTerminal works, shell := {s.shell with pc := .gone}}
  | killed {sig works} (alive : ¬ Gone s.pc) (foreign : sig ∉ s.owned) :
      Move h s (.kills sig true works) {s with pc := .killed sig, shell := {s.shell with pc := .gone}}
  | spared {sig works} : Move h s (.kills sig false works) s
  | closingInterrupted (pc : s.pc = .closing) :
      Move h s .interrupts {s with pc := .over, ending := some .interrupted, shell := {s.shell with pc := .gone}}
  | loopInterrupted (pc : s.pc = .looping) : Move h s .interrupts {s.stops .interrupted with shell := abandon s.shell}
  | interrupted (alive : ¬ Gone s.pc) (here : s.pc ≠ .looping) :
      Move h s .interrupts {s.leaves .interrupted with shell := abandon s.shell}

variable {h : Host α} {s t : Program α} {a : Action}

theorem socketRaised (e : String) (code : Int) : socketError h e ≠ .told (.status code) := by simp [socketError]

theorem handshakeRaised {connectFails requestFails : Option String} {u : Socket} {e : Ending}
    (got : shellHandshake h connectFails requestFails u = .error e) (code : Int) : e ≠ .told (.status code) := by
  unfold shellHandshake at got
  split at got
  · cases got
    simp [connectError]
  · split at got
    · cases got
      simp [connectError]
    · cases got
      simp
    · dsimp only at got
      split at got
      · cases got
        simp
      · split at got
        · cases got
          exact socketRaised _ code
        · contradiction

theorem readsMove {n : Nat} {fails : Option String} (pc : s.pc = .looping) (moved : reads h s n fails = some t) :
    Move h s (.reads n fails) t := by
  unfold reads at moved
  split at moved
  · rename_i found
    obtain ⟨shell,went,rfl⟩ := Option.map_eq_some_iff.mp moved
    exact .ended pc found went
  · rename_i e found
    obtain ⟨shell,went,rfl⟩ := Option.map_eq_some_iff.mp moved
    exact .faulted pc found went
  · rename_i f u found
    split at moved
    · rename_i e failing
      obtain ⟨shell,went,rfl⟩ := Option.map_eq_some_iff.mp moved
      split at failing <;> try contradiction
      rename_i printed
      subst failing
      exact .unwritten pc found printed went
    · obtain ⟨shell,went,rfl⟩ := Option.map_eq_some_iff.mp moved
      split <;> rename_i last
      · exact .finished pc found last went
      · exact .taken pc found last went

theorem killsMove {sig : Sig} {ends works : Bool} (moved : step h s (.kills sig ends works) = some t) :
    Move h s (.kills sig ends works) t := by
  simp only [step] at moved
  split at moved <;> try contradiction
  rename_i able
  split at moved
  · rename_i owned
    cases Option.some.inj moved
    exact .exited owned
  · rename_i foreign
    split at moved
    · rename_i ending
      cases Option.some.inj moved
      subst ending
      exact .killed able.1 foreign
    · rename_i stays
      cases Option.some.inj moved
      cases (Bool.not_eq_true _).mp stays
      exact .spared

theorem interruptsMove (moved : step h s .interrupts = some t) : Move h s .interrupts t := by
  simp only [step] at moved
  split at moved
  · cases moved
  · rename_i alive
    split at moved
    · rename_i pc
      cases Option.some.inj moved
      exact .closingInterrupted pc
    · split at moved
      · rename_i pc
        cases Option.some.inj moved
        exact .loopInterrupted pc
      · rename_i here
        cases Option.some.inj moved
        exact .interrupted alive here

theorem stepMove (moved : step h s a = some t) : Move h s a t := by
  cases a with
  | connects outcome =>
    simp only [step] at moved
    split at moved <;> try contradiction
    rename_i pc
    split at moved <;> cases Option.some.inj moved
    · exact .left (by rw [pc]; trivial) (socketRaised _)
    · exact .connected _ pc
  | greets connectFails requestFails =>
    simp only [step] at moved
    split at moved <;> try contradiction
    rename_i pc
    split at moved <;> rename_i got <;> cases Option.some.inj moved
    · exact .left (by rw [pc]; trivial) (handshakeRaised got)
    · exact .greeted pc got
  | saves fails =>
    simp only [step] at moved
    split at moved <;> try contradiction
    rename_i pc
    split at moved <;> cases Option.some.inj moved
    · exact .left (by rw [pc]; trivial) (by simp)
    · exact .saved pc
  | raws fails =>
    simp only [step] at moved
    split at moved <;> try contradiction
    rename_i pc
    split at moved <;> cases Option.some.inj moved
    · exact .left (by rw [pc]; trivial) (by simp)
    · exact .rawed pc
  | installs =>
    simp only [step] at moved
    split at moved <;> try contradiction
    rename_i sig pc
    split at moved <;> try contradiction
    cases Option.some.inj moved
    exact .installed pc
  | enters =>
    simp only [step] at moved
    split at moved <;> try contradiction
    rename_i able
    cases Option.some.inj moved
    exact .entered able.1
  | idles =>
    simp only [step] at moved
    split at moved <;> try contradiction
    rename_i pc
    obtain ⟨shell,went,rfl⟩ := Option.map_eq_some_iff.mp moved
    exact .idled pc went
  | wakes chunk guest =>
    simp only [step] at moved
    split at moved <;> try contradiction
    rename_i pc
    obtain ⟨shell,went,rfl⟩ := Option.map_eq_some_iff.mp moved
    exact .woken pc went
  | fails e =>
    simp only [step] at moved
    split at moved <;> try contradiction
    rename_i able
    obtain ⟨shell,went,rfl⟩ := Option.map_eq_some_iff.mp moved
    exact .failed able.1 went
  | reads n fails =>
    simp only [step] at moved
    split at moved <;> try contradiction
    rename_i able
    exact readsMove able.1 moved
  | sends n =>
    simp only [step] at moved
    split at moved
    · cases moved
    · obtain ⟨shell,went,rfl⟩ := Option.map_eq_some_iff.mp moved
      exact .sent went
  | sendFails e =>
    simp only [step] at moved
    split at moved
    · cases moved
    · split at moved
      · rename_i busy
        obtain ⟨shell,went,rfl⟩ := Option.map_eq_some_iff.mp moved
        exact .handlerFailed busy went
      · rename_i idle
        split at moved <;> try contradiction
        rename_i pc
        obtain ⟨shell,went,rfl⟩ := Option.map_eq_some_iff.mp moved
        exact .sendFailed pc (not_not.mp idle) went
  | winch window =>
    simp only [step] at moved
    split at moved <;> try contradiction
    rename_i able
    obtain ⟨shell,went,rfl⟩ := Option.map_eq_some_iff.mp moved
    exact .resized able.2 went
  | restores works =>
    simp only [step] at moved
    split at moved <;> try contradiction
    rename_i able
    cases Option.some.inj moved
    exact .restored able.1
  | uninstalls =>
    simp only [step] at moved
    split at moved <;> try contradiction
    rename_i sig pc
    split at moved <;> try contradiction
    cases Option.some.inj moved
    exact .uninstalled pc
  | closes =>
    simp only [step] at moved
    split at moved <;> try contradiction
    rename_i able
    cases Option.some.inj moved
    exact .closed able.1
  | kills sig ends works => exact killsMove moved
  | interrupts => exact interruptsMove moved

end Moves

section Steps
variable {h : Host α} {s t : Program α} {a : Action}

def rank : Sig → Nat
  | .winch => 0
  | .term => 1
  | .hup => 2

theorem rankSame {g sig : Sig} (same : rank g = rank sig) : g = sig := by cases g <;> cases sig <;> first | rfl | contradiction

def Stage (h : Host α) (s : Program α) : Prop :=
  match s.pc with
  | .connecting | .greeting => s.terminal = h.terminal ∧ s.owned = [] ∧ s.saved = none
  | .saving => h.tty = true ∧ s.terminal = h.terminal ∧ s.owned = []
  | .rawing => h.tty = true ∧ s.terminal = h.terminal ∧ s.saved = some h.terminal ∧ s.owned = []
  | .installing sig => h.tty = true ∧ s.terminal = h.raw h.terminal ∧ s.saved = some h.terminal ∧
      ∀ g, g ∈ s.owned ↔ rank g < rank sig
  | .entering | .looping | .restoring =>
    if h.tty then s.terminal = h.raw h.terminal ∧ s.saved = some h.terminal ∧ ∀ g, g ∈ s.owned
    else s.terminal = h.terminal ∧ s.saved = none ∧ s.owned = []
  | .uninstalling sig => s.terminal = h.terminal ∧ ∀ g ∈ s.owned, h.named g = true → rank sig ≤ rank g
  | .closing | .over => s.terminal = h.terminal ∧ ∀ g ∈ s.owned, h.named g = false
  | .exited _ | .killed _ => s.terminal = h.terminal

structure Tidy (h : Host α) (s : Program α) : Prop where
  kept : ∀ old, s.saved = some old → old = h.terminal
  once : s.owned.Nodup
  stage : Stage h s

def Exposed : Pc → Prop
  | .installing _ | .entering | .restoring => True
  | _ => False

instance : DecidablePred Exposed := fun pc => by cases pc <;> unfold Exposed <;> infer_instance

def Uninstalling : Pc → Prop
  | .uninstalling _ => True
  | _ => False

instance : DecidablePred Uninstalling := fun pc => by cases pc <;> unfold Uninstalling <;> infer_instance

/- `tcsetattr` succeeds; no KeyboardInterrupt comes while the handlers go in or the terminal and
the handlers are put back, and nothing ends the process before its handler is in. -/
def Careful (s : Program α) : Action → Prop
  | .restores works => works = true
  | .kills sig ends works => if sig ∈ s.owned then works = true else ends = true → ¬ Exposed s.pc
  | .interrupts => ¬ Exposed s.pc ∧ ¬ Uninstalling s.pc
  | _ => True

instance (s : Program α) : DecidablePred (Careful s) := fun a => by cases a <;> unfold Careful <;> infer_instance

theorem startTidy : Tidy h (start h) := ⟨by simp [start],List.nodup_nil,rfl,rfl,rfl⟩

theorem tidySame (tidy : Tidy h s) (pc : t.pc = s.pc) (terminal : t.terminal = s.terminal) (saved : t.saved = s.saved)
    (owned : t.owned = s.owned) : Tidy h t := by
  obtain ⟨kept,once,stage⟩ := tidy
  refine ⟨saved ▸ kept,owned ▸ once,?_⟩
  unfold Stage at stage ⊢
  rw [pc,terminal,saved,owned]
  exact stage

theorem restoreTidy (tidy : Tidy h s) (found : s.saved ≠ none ∨ s.terminal = h.terminal) : s.restoreTerminal true = h.terminal := by
  cases saved : s.saved with
  | none =>
    rcases found with some | same
    · exact absurd saved some
    · simpa [Program.restoreTerminal,saved] using same
  | some old => simpa [Program.restoreTerminal,saved] using tidy.kept old saved

theorem stageFound (tidy : Tidy h s) : s.saved ≠ none ∨ s.terminal = h.terminal := by
  have stage := tidy.stage
  unfold Stage at stage
  split at stage
  · exact .inr stage.1
  · exact .inr stage.1
  · exact .inr stage.2.1
  · exact .inr stage.2.1
  · exact .inl (by simp [stage.2.2.1])
  · split at stage
    · exact .inl (by simp [stage.2.1])
    · exact .inr stage.1
  · split at stage
    · exact .inl (by simp [stage.2.1])
    · exact .inr stage.1
  · split at stage
    · exact .inl (by simp [stage.2.1])
    · exact .inr stage.1
  · exact .inr stage.1
  · exact .inr stage.1
  · exact .inr stage.1
  · exact .inr stage
  · exact .inr stage

theorem stopsTidy (tidy : Tidy h s) (pc : s.pc = .looping) (stopped : t.pc = .restoring) (terminal : t.terminal = s.terminal)
    (saved : t.saved = s.saved) (owned : t.owned = s.owned) : Tidy h t := by
  obtain ⟨kept,once,stage⟩ := tidy
  refine ⟨saved ▸ kept,owned ▸ once,?_⟩
  unfold Stage at stage ⊢
  rw [stopped,terminal,saved,owned]
  rw [pc] at stage
  exact stage

def AsFound (h : Host α) (s : Program α) : Prop := s.terminal = h.terminal ∧ ∀ g ∈ s.owned, h.named g = false

theorem stageAsFound (tidy : Tidy h s) (safe : ¬ Exposed s.pc) (alive : ¬ Gone s.pc) (here : s.pc ≠ .looping)
    (still : ¬ Uninstalling s.pc) : AsFound h s := by
  have stage := tidy.stage
  unfold Stage at stage
  split at stage <;> rename_i pc <;> rw [pc] at safe alive here still
  · exact ⟨stage.1,by simp [stage.2.1]⟩
  · exact ⟨stage.1,by simp [stage.2.1]⟩
  · exact ⟨stage.2.1,by simp [stage.2.2]⟩
  · exact ⟨stage.2.1,by simp [stage.2.2.2]⟩
  · exact absurd trivial safe
  · exact absurd trivial safe
  · exact absurd rfl here
  · exact absurd trivial safe
  · exact absurd trivial still
  · exact stage
  · exact absurd trivial alive
  · exact absurd trivial alive
  · exact absurd trivial alive

theorem leavesTidy (tidy : Tidy h s) (found : AsFound h s) (left : t.pc = .closing ∨ t.pc = .over)
    (terminal : t.terminal = s.terminal) (saved : t.saved = s.saved) (owned : t.owned = s.owned) : Tidy h t := by
  obtain ⟨kept,once,_⟩ := tidy
  refine ⟨saved ▸ kept,owned ▸ once,?_⟩
  unfold Stage
  rcases left with left | left
  · rw [left,terminal,owned]
    exact found
  · rw [left,terminal,owned]
    exact found

theorem earlyFound (tidy : Tidy h s) (early : Early s.pc) : AsFound h s := by
  apply stageAsFound tidy <;> intro other <;> cases pc : s.pc <;> rw [pc] at early other <;>
    first | exact early.elim | exact other.elim | cases other

theorem installedTidy {sig : Sig} (tidy : Tidy h s) (pc : s.pc = .installing sig) :
    Tidy h {s with pc := afterInstall sig, owned := sig::s.owned} := by
  obtain ⟨kept,once,stage⟩ := tidy
  unfold Stage at stage
  rw [pc] at stage
  obtain ⟨tty,terminal,saved,before⟩ := stage
  have fresh : sig ∉ s.owned := fun known => Nat.lt_irrefl _ ((before sig).mp known)
  refine ⟨kept,List.nodup_cons.mpr ⟨fresh,once⟩,?_⟩
  cases sig with
  | winch =>
    refine ⟨tty,terminal,saved,?_⟩
    intro g
    rw [List.mem_cons,before]
    cases g <;> decide
  | term =>
    refine ⟨tty,terminal,saved,?_⟩
    intro g
    rw [List.mem_cons,before]
    cases g <;> decide
  | hup =>
    unfold Stage
    dsimp only [afterInstall]
    rw [if_pos tty]
    refine ⟨terminal,saved,?_⟩
    intro g
    rw [List.mem_cons,before]
    cases g <;> decide

theorem uninstalledTidy {sig : Sig} (tidy : Tidy h s) (pc : s.pc = .uninstalling sig) :
    Tidy h {s with pc := afterUninstall sig, owned := if h.named sig then s.owned.erase sig else s.owned} := by
  obtain ⟨kept,once,stage⟩ := tidy
  unfold Stage at stage
  rw [pc] at stage
  obtain ⟨terminal,later⟩ := stage
  have rest : ∀ g ∈ (if h.named sig then s.owned.erase sig else s.owned), h.named g = true → rank sig < rank g := by
    intro g known named
    have other : g ≠ sig := by
      rintro rfl
      rw [if_pos named] at known
      exact (once.mem_erase_iff.mp known).1 rfl
    have inside : g ∈ s.owned := by
      split at known
      · exact List.mem_of_mem_erase known
      · exact known
    exact Nat.lt_of_le_of_ne (later g inside named) fun same => other (rankSame same.symm)
  have once' : (if h.named sig then s.owned.erase sig else s.owned).Nodup := by
    split
    · exact once.erase sig
    · exact once
  refine ⟨kept,once',?_⟩
  cases sig with
  | winch => exact ⟨terminal,rest⟩
  | term => exact ⟨terminal,rest⟩
  | hup =>
    refine ⟨terminal,?_⟩
    intro g known
    cases named : h.named g with
    | false => rfl
    | true =>
      have above := rest g known named
      cases g <;> exact absurd above (by decide)

theorem restoredTidy (tidy : Tidy h s) (pc : s.pc = .restoring) :
    Tidy h {s with pc := if h.tty then .uninstalling .winch else .closing, terminal := s.restoreTerminal true} := by
  have found := restoreTidy tidy (stageFound tidy)
  obtain ⟨kept,once,stage⟩ := tidy
  refine ⟨kept,once,?_⟩
  unfold Stage at stage ⊢
  rw [pc] at stage
  cases tty : h.tty with
  | true => exact ⟨found,fun g _ _ => Nat.zero_le _⟩
  | false =>
    rw [tty] at stage
    refine ⟨found,?_⟩
    intro g known
    rw [stage.2.2] at known
    contradiction

theorem killedTidy {sig : Sig} (tidy : Tidy h s) (alive : ¬ Gone s.pc) (foreign : sig ∉ s.owned) (safe : ¬ Exposed s.pc) :
    Tidy h {s with pc := .killed sig, shell := {s.shell with pc := .gone}} := by
  obtain ⟨kept,once,stage⟩ := tidy
  refine ⟨kept,once,?_⟩
  unfold Stage at stage
  split at stage <;> rename_i pc <;> rw [pc] at safe alive
  · exact stage.1
  · exact stage.1
  · exact stage.2.1
  · exact stage.2.1
  · exact absurd trivial safe
  · exact absurd trivial safe
  · split at stage
    · exact absurd (stage.2.2 sig) foreign
    · exact stage.1
  · exact absurd trivial safe
  · exact stage.1
  · exact stage.1
  · exact absurd trivial alive
  · exact absurd trivial alive
  · exact absurd trivial alive

theorem stepTidy (tidy : Tidy h s) (careful : Careful s a) (moved : step h s a = some t) : Tidy h t := by
  have stage := tidy.stage
  unfold Stage at stage
  cases stepMove moved with
  | left early => exact leavesTidy tidy (earlyFound tidy early) (.inl rfl) rfl rfl rfl
  | connected socket pc =>
    rw [pc] at stage
    exact ⟨tidy.kept,tidy.once,stage⟩
  | greeted pc =>
    rw [pc] at stage
    refine ⟨tidy.kept,tidy.once,?_⟩
    unfold Stage
    cases tty : h.tty with
    | true => exact ⟨rfl,stage.1,stage.2.1⟩
    | false =>
      simp only [Bool.false_eq_true,if_false]
      exact ⟨stage.1,stage.2.2,stage.2.1⟩
  | saved pc =>
    rw [pc] at stage
    refine ⟨?_,tidy.once,stage.1,stage.2.1,congrArg some stage.2.1,stage.2.2⟩
    intro old same
    cases Option.some.inj same
    exact stage.2.1
  | rawed pc =>
    rw [pc] at stage
    refine ⟨tidy.kept,tidy.once,stage.1,congrArg h.raw stage.2.1,stage.2.2.1,?_⟩
    intro g
    simp [stage.2.2.2,rank]
  | installed pc => exact installedTidy tidy pc
  | entered pc =>
    rw [pc] at stage
    exact ⟨tidy.kept,tidy.once,stage⟩
  | idled | woken | taken | sent | handlerFailed | resized => exact tidySame tidy rfl rfl rfl rfl
  | failed pc | ended pc | faulted pc | unwritten pc | finished pc | sendFailed pc | loopInterrupted pc =>
    exact stopsTidy tidy pc rfl rfl rfl rfl
  | restored pc =>
    cases careful
    exact restoredTidy tidy pc
  | uninstalled pc => exact uninstalledTidy tidy pc
  | closed pc =>
    rw [pc] at stage
    exact leavesTidy tidy stage (.inr rfl) rfl rfl rfl
  | exited owned =>
    simp only [Careful,if_pos owned] at careful
    exact ⟨tidy.kept,tidy.once,careful ▸ restoreTidy tidy (stageFound tidy)⟩
  | killed alive foreign =>
    simp only [Careful,if_neg foreign,true_implies] at careful
    exact killedTidy tidy alive foreign careful
  | spared => exact tidy
  | closingInterrupted pc =>
    rw [pc] at stage
    exact leavesTidy tidy stage (.inr rfl) rfl rfl rfl
  | interrupted alive here =>
    exact leavesTidy tidy (stageAsFound tidy careful.1 alive here careful.2) (.inl rfl) rfl rfl rfl

end Steps

/- Whichever way `run_shell` ends, by a status, an exception or a signal to the process, the
user's terminal is as it was, and what it put in for the signals is out again. -/
theorem terminalRestored (h : Host α) (acts : List Action) (s : Program α)
    (careful : Machine.Along (step h) Careful (start h) acts) (reached : Machine.run (step h) (start h) acts = some s) :
    (Gone s.pc → s.terminal = h.terminal) ∧ (s.pc = .over → ∀ sig ∈ s.owned, h.named sig = false) ∧
      (s.pc = .looping → h.tty = true → s.terminal = h.raw h.terminal ∧ ∀ sig, sig ∈ s.owned) := by
  have tidy : Tidy h s := Machine.runKeepsAlong (I := Tidy h) (fun u a v before still moved => stepTidy before still moved)
    startTidy careful reached
  have stage := tidy.stage
  unfold Stage at stage
  refine ⟨?_,?_,?_⟩
  · intro gone
    cases pc : s.pc <;> rw [pc] at stage gone <;> try contradiction
    · exact stage.1
    · exact stage
    · exact stage
  · intro pc
    rw [pc] at stage
    exact stage.2
  · intro pc tty
    rw [pc] at stage
    simp only [if_pos tty] at stage
    exact ⟨stage.1,stage.2.2⟩

section Follows
variable {h : Host α} {s t : Program α} {a : Action} {told : Report × Shown}

/- The local side works: stdin can be read, the terminal written and the socket written to from
the loop. A handler's own send may fail. -/
def Quiet (s : Program α) : Action → Prop
  | .fails _ | .interrupts => False
  | .reads _ fails => fails = none
  | .sendFails _ => s.shell.handlers ≠ []
  | _ => True

instance (s : Program α) : DecidablePred (Quiet s) := fun a => by cases a <;> unfold Quiet <;> infer_instance

def Program.output (s : Program α) : Shown := seen ⟨[],[]⟩ s.read

def Follows (h : Host α) (told : Report × Shown) (s : Program α) : Prop :=
  match s.pc with
  | .looping => serve (runShell h.json h.unixSocket) s.reader s.output = told
  | .restoring | .uninstalling _ | .closing | .over => s.ending = some (.told told.1) ∧ s.output = told.2
  | .exited _ | .killed _ => True
  | _ => False

theorem followsSame (follows : Follows h told s) (pc : t.pc = s.pc) (reader : t.reader = s.reader) (read : t.read = s.read)
    (ending : t.ending = s.ending) : Follows h told t := by
  unfold Follows at follows ⊢
  unfold Program.output at follows ⊢
  rw [pc,reader,read,ending]
  exact follows

theorem serveMore {u : Socket} {f : Frame} (found : readFrame s.reader = .frame f u) :
    serve (runShell h.json h.unixSocket) s.reader s.output =
      if Terminal f then (lastReport h f,seen ⟨[],[]⟩ (s.read ++ [f]))
      else serve (runShell h.json h.unixSocket) u (seen ⟨[],[]⟩ (s.read ++ [f])) := by
  have read : (runShell h.json h.unixSocket).codec.read s.reader = .frame f u := found
  have flat : (runShell h.json h.unixSocket).folds = false := rfl
  rw [serveFrame _ read,flat,ShellLoop.seenConcat]
  unfold ShellLoop.display lastReport Terminal Program.output
  by_cases exit : f.ftype = frameExit
  · simp [exit,frameExit,frameStdout,frameStderr]
  · by_cases error : f.ftype = frameError
    · simp [error,frameError,frameExit,frameStdout,frameStderr]
    · by_cases out : f.ftype = frameStdout
      · simp [out,frameStdout,frameExit,frameError]
      · by_cases err : f.ftype = frameStderr
        · simp [err,frameStdout,frameStderr,frameExit,frameError]
        · simp [exit,error,out,err]

theorem stepFollows (follows : Follows h told s) (quiet : Quiet s a) (moved : step h s a = some t) : Follows h told t := by
  have before := follows
  unfold Follows at before
  cases stepMove moved with
  | left early => cases pc : s.pc <;> rw [pc] at early before <;> first | exact early.elim | exact before.elim
  | connected socket pc | greeted pc | saved pc | rawed pc | installed pc | entered pc =>
    rw [pc] at before
    exact before.elim
  | idled | woken | sent | handlerFailed | resized => exact followsSame follows rfl rfl rfl rfl
  | failed | loopInterrupted | interrupted | closingInterrupted => exact quiet.elim
  | ended pc found =>
    rw [pc] at before
    have last := serveEnd s.output (show (runShell h.json h.unixSocket).codec.read s.reader = .none from found)
    cases last.symm.trans before
    exact ⟨rfl,rfl⟩
  | faulted pc found =>
    rw [pc] at before
    have last := serveFault s.output (show (runShell h.json h.unixSocket).codec.read s.reader = .raised _ from found)
    cases last.symm.trans before
    exact ⟨rfl,rfl⟩
  | unwritten => cases quiet
  | finished pc found last =>
    rw [pc] at before
    have more := serveMore (h := h) found
    rw [if_pos last] at more
    cases more.symm.trans before
    exact ⟨rfl,rfl⟩
  | taken pc found more =>
    rw [pc] at before
    have goes := serveMore (h := h) found
    rw [if_neg more] at goes
    unfold Follows
    dsimp only
    rw [pc]
    exact goes.symm.trans before
  | sendFailed pc idle => exact absurd idle quiet
  | restored pc =>
    rw [pc] at before
    cases h.tty <;> exact before
  | uninstalled pc =>
    rename_i sig
    rw [pc] at before
    cases sig <;> exact before
  | closed pc =>
    rw [pc] at before
    exact before
  | exited | killed => trivial
  | spared => exact follows

end Follows

end Program

def plainHost : Host Bool := ⟨GuestJson.readerJson,"vsocket",5,true,none,false,fun _ => true,fun sig => sig ≠ .hup⟩

def guestSays (fs : List Frame) : Socket := ⟨okLine 5 ++ encodeAll fs,[],.eof⟩

def toLoop (fs : List Frame) : List Action :=
  [.connects (.ok (guestSays fs)),.greets none none,.saves none,.raws none,.installs,.winch none,.sends 29,.installs,.installs,
    .enters]

def exitActions : List Action :=
  [.wakes (some [97]) true,.sends 2,.winch none,.sends 29,.sends 4,.reads 1 none,.idles,.sends 5,.wakes none true,.reads 0 none,
    .restores true,.uninstalls,.uninstalls,.uninstalls,.closes]

def exitFrames : List Frame := [⟨frameStdout,[104]⟩,sevenExit]

theorem exitEnds : ∃ s, Machine.run (step plainHost) (start plainHost) (toLoop exitFrames) = some s ∧
    (s.pc = .looping ∧ Machine.Along (step plainHost) Quiet s exitActions ∧
      (Machine.run (step plainHost) s exitActions).map (fun t => (t.pc,t.ending)) = some (.over,some (.told (.status 7)))) :=
  Machine.runEnds (by decide +kernel)

def killedRun : List Action := toLoop [] ++ [.kills .term false true]

def interruptedRun : List Action := toLoop [] ++ [.interrupts,.restores true,.uninstalls,.uninstalls,.uninstalls,.closes]

theorem terminalRestoredKilled : ∃ s t, Machine.run (step plainHost) (start plainHost) killedRun = some s ∧
    Machine.run (step plainHost) (start plainHost) interruptedRun = some t ∧
    s.pc = .exited 143 ∧ s.terminal = false ∧ t.pc = .over ∧ t.terminal = false ∧ t.owned = [.hup] ∧
    ∀ sig ∈ t.owned, plainHost.named sig = false := by
  obtain ⟨s,killed,exited⟩ : ∃ s, Machine.run (step plainHost) (start plainHost) killedRun = some s ∧ s.pc = .exited 143 :=
    Machine.runEnds (by decide +kernel)
  obtain ⟨t,interrupted,ended,owned⟩ : ∃ t, Machine.run (step plainHost) (start plainHost) interruptedRun = some t ∧
      t.pc = .over ∧ t.owned = [.hup] := Machine.runEnds (by decide +kernel)
  have first := terminalRestored plainHost killedRun s (by decide +kernel) killed
  have second := terminalRestored plainHost interruptedRun t (by decide +kernel) interrupted
  exact ⟨s,t,killed,interrupted,exited,first.1 (exited ▸ trivial),ended,second.1 (ended ▸ trivial),owned,second.2.1 ended⟩

end Guesthopper.ShellProgram
