import Guesthopper.CommandRun
import Guesthopper.SessionInbound
import Guesthopper.ShellResize
import Mathlib.Data.List.Induction

/-! A front door and the guest's program, with the agent's session between them. The door's
frames reach the session as some beginning of their bytes, in any pieces; what the door reads
is some beginning of the session's wire. -/
namespace Guesthopper.SessionPath
open FrameBytes SessionText SessionModel SessionInbound CommandRun SessionAnswer
open SessionWire (payloads)
open SessionTerminal (Data)

section Prefixes
variable {env : Env} {fs gs : List Frame}

end Prefixes

def Atom.typed : Atom → Option UInt8
  | .byte b => some b
  | _ => none

def Atom.size : Atom → Option (Nat × Nat)
  | .winsize rows cols => some (rows.toNat,cols.toNat)
  | _ => none

def typed (s : Session) : Bytes := (atoms s.feed).filterMap Atom.typed
def sizes (s : Session) : List (Nat × Nat) := (atoms s.feed).filterMap Atom.size

structure Speaks (env : Env) (serde : ControlPayloads.Serde) : Prop where
  parses : Parses env serde
  resizes : ∀ raw, env.parseResize raw = (serde.resize raw).map fun size => (size.rows,size.cols)

section Inbound
variable {env : Env} {serde : ControlPayloads.Serde} {installed : Nat} {request : Frame} {sent : List Frame}
  {turns : List Turn} {r : Reader}

theorem openPtyOpens (speaks : Speaks env serde) {rows cols : Nat} (tall : rows < 2^16) (wide : cols < 2^16) :
    drive env ⟨frameRequest,ControlPayloads.openPtyRequest rows cols⟩ =
      .openPty ⟨"open-pty",none,none,some (UInt16.ofNat rows),some (UInt16.ofNat cols)⟩ := by
  have read := speaks.parses (ControlPayloads.openPtyRequest rows cols)
  rw [ControlPayloads.openPtyReads,if_pos ⟨tall,wide⟩] at read
  cases parsed : env.parseRequest (ControlPayloads.openPtyRequest rows cols) with
  | error e => rw [parsed] at read; contradiction
  | ok req =>
    rw [parsed] at read
    cases Option.some.inj read
    simp [drive,parsed]

theorem requestPacks {rows cols : Nat} (tall : rows < 2^16) (wide : cols < 2^16) :
    (ControlPayloads.openPtyRequest rows cols).length < 2^32 := by
  have small := @ShellResize.requestSmall (rows,cols) ⟨tall,wide⟩
  exact Nat.lt_of_le_of_lt small (by decide)

/- What the program of a door is fed comes from the door's request and the frames after it. Past
its input loop an exec has dropped the pipe, and that may be all that closed it. -/
def Ordered (env : Env) (request : Frame) (sent : List Frame) (s : Session) : Prop :=
  atoms s.feed <+: orders env (some (.frame request)) sent ∨
  leftLoop s.handler = true ∧ OpensExec env (some (.frame request)) ∧
    ∃ got, got <+: orders env (some (.frame request)) sent ∧ atoms s.feed = got ++ [.close]

end Inbound

section Outbound
variable {env : Env} {s t : Session} {a : Action} {fs : List Frame} {raw : Bytes}

def SingleStream (env : Env) (s : Session) : Prop :=
  (∃ f pid limit, s.first = some (.frame f) ∧ drive env f = .exec pid limit) ∨ s.err = Tap.unopened

theorem moveSingle (h : SessionMove.Move env s a t) (fresh : SessionWire.Fresh s) (single : SingleStream env s) :
    SingleStream env t := by
  have asked : ∀ {u : Session}, s.handler = .readRequest → u.err = s.err → SingleStream env u := by
    intro u pc same
    exact .inr (same.trans (fresh (by rw [pc]; rfl)).2.2.2)
  cases h with
  | firstQuiet pc quiet => exact asked pc rfl
  | firstRefused msg pc loud => exact asked pc rfl
  | @firstExec f pid deadline pc opens => exact .inl ⟨f,pid,deadline,rfl,opens⟩
  | firstPty pc opens => exact asked pc rfl
  | @streamMoved a x side moved =>
    rcases single with exec | unopened
    · exact .inl (by simpa using exec)
    · cases side with
      | out => exact .inr unopened
      | err =>
        simp only [Session.stream,unopened] at moved
        exact absurd moved SessionWire.unopenedStuck
  | @pumpSent side chunk box u holds offered next =>
    rcases single with exec | unopened
    · exact .inl (by simpa using exec)
    · cases side with
      | out => exact .inr unopened
      | err => simp [Session.stream,unopened,Tap.unopened] at holds
  | @drainLapsed side pc live =>
    rcases single with exec | unopened
    · exact .inl (by simpa using exec)
    · cases side with
      | out => exact .inr unopened
      | err => simp [Session.stream,unopened,Tap.unopened,Tap.live] at live
  | _ => simpa [SingleStream] using single

theorem reachedSingle {actions : List Action} (reached : Machine.run (step env) start actions = some s) :
    SingleStream env s := by
  have both : SessionWire.Fresh s ∧ SingleStream env s := by
    refine Machine.runKeeps (I := fun s => SessionWire.Fresh s ∧ SingleStream env s) ?_ ?_ reached
    · intro u a v before h
      exact ⟨SessionWire.moveFresh (SessionMove.stepMove h) before.1,moveSingle (SessionMove.stepMove h) before.1 before.2⟩
    · exact ⟨SessionWire.soundStart.fresh,.inr rfl⟩
  exact both.2

theorem heardShape (legal : Legal s) (part : fs <+: s.box.handed) :
    ∃ pre last, fs = pre ++ last.toList ∧ (∀ g ∈ pre, Data g) ∧ ∀ f, last = some f →
      s.box.handed = fs ∧ (f.ftype = frameExit ∨ ∃ msg, f = errorFrame msg) := by
  by_cases data : ∀ g ∈ fs, Data g
  · exact ⟨fs,none,by simp,data,by simp⟩
  · simp only [not_forall] at data
    obtain ⟨f,inside,terminal⟩ := data
    obtain ⟨pre,whole,before⟩ := spokenTerminal legal.booked.spoken (part.subset inside) terminal
    have all : fs = s.box.handed := by
      rw [whole] at part ⊢
      refine (List.prefix_concat_iff.mp part).resolve_right ?_
      intro short
      exact terminal (before f (short.subset inside))
    refine ⟨pre,some f,by rw [all,whole]; rfl,before,?_⟩
    intro g same
    cases same
    refine ⟨all.symm,?_⟩
    obtain ⟨_,stated⟩ := (legal.answered.handed f (part.subset inside)).resolve_left terminal
    rcases stated with refusal | ⟨raw,why,rfl,_⟩
    · exact .inr refusal
    · exact .inl rfl

theorem terminalSingle {serde : ControlPayloads.Serde} (speaks : Speaks env serde) {installed rows cols : Nat}
    (tall : rows < 2^16) (wide : cols < 2^16) {sent : List Frame} {actions : List Action}
    (reached : Machine.run (step env) start actions = some s)
    (opening : ∀ first, s.first = some first →
      Hears installed (encodeAll (⟨frameRequest,ControlPayloads.openPtyRequest rows cols⟩::sent)) first) :
    s.err = Tap.unopened := by
  rcases reachedSingle reached with ⟨f,pid,limit,first,opens⟩ | unopened
  · obtain ⟨rfl,_⟩ := hearsFrame (requestPacks tall wide) (opening _ first)
    cases (openPtyOpens speaks tall wide).symm.trans opens
  · exact unopened

end Outbound

def terminalGuest : Env := {readingGuest with
  parseResize raw := (ControlPayloads.plainSerde.resize raw).map fun size => (size.rows,size.cols)}

theorem terminalSpeaks : Speaks terminalGuest ControlPayloads.plainSerde := ⟨readingParses,fun _ => rfl⟩

end Guesthopper.SessionPath
