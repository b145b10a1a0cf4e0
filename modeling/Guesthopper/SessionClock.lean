import Guesthopper.Meter
import Guesthopper.SessionDrain
import Guesthopper.SessionWatch

/-! A session under a clock. Time passes only while every task of the session is parked, and
never past an armed timer; running code takes none. What the peer, the child and the output
tasks do may come at any moment, so a bound proved here holds however slow they are. `waited`
is the age of the handler's present operation, `busy` that of the writer's present frame and
`age` that of exec's select; a duration is in nanoseconds. -/
namespace Guesthopper.SessionClock
open FrameBytes SessionText SessionModel SessionMove SessionWire SessionTerminal SessionTeardown SessionWatch

variable {env : Env} {s : Session} {a : Action}

def reapGrace : Nat := 5 * 10^9
def hangupGrace : Nat := 2 * 10^9
def execGrace : Nat := 250 * 10^6
def ptyGrace : Nat := 200 * 10^6

structure Limits where
  idle : Nat
  write : Nat
  deriving DecidableEq, Repr

structure Timed where
  session : Session
  waited : Nat
  busy : Nat
  age : Nat
  deriving DecidableEq

def fresh : Timed := ⟨SessionModel.start,0,0,0⟩

inductive Event where
  | act (a : Action)
  | pass (d : Nat)
  deriving DecidableEq

def cost : Event → Nat
  | .act _ => 0
  | .pass d => d

def patience (l : Limits) : Handler → Option Nat
  | .readRequest | .execSelect (some _) _ _ | .ptySelect _ => some l.idle
  | .abandon _ | .execReap _ | .hangupReap => some reapGrace
  | .hangupWait => some hangupGrace
  | .execDrain _ _ _ => some execGrace
  | .ptyDrain _ _ => some ptyGrace
  | _ => none

def deadlineOf : Handler → Option Nat
  | .execSelect _ _ deadline => deadline
  | _ => none

-- An expiry is a step only once its timer has run out.
def due (l : Limits) (t : Timed) : Action → Bool
  | .firstRead .elapsed | .inbound .elapsed | .stalls | .reapLapse | .hangupLapse | .drainLapse =>
    (patience l t.session.handler).all (· ≤ t.waited)
  | .deadlineArm => (deadlineOf t.session.handler).all (· ≤ t.age)
  | .writerStalls => l.write ≤ t.busy
  | _ => true

def within (l : Limits) (t : Timed) : Bool :=
  (patience l t.session.handler).all (t.waited ≤ ·) && (deadlineOf t.session.handler).all (t.age ≤ ·) &&
    (!writing t.session.box.writer || t.busy ≤ l.write)

def internals : List Action :=
  [.cancelArm,.drainJoined,.handSends,.writerJoined,.writerTakes,.writerCancelled,.writerCloses]

def parked (env : Env) (s : Session) : Bool := internals.all (fun a => (step env s a).isNone)

-- A frame read to its end arms the next read's timer; a payload accepted in part does not.
def renews (a : Action) (s u : Session) : Bool :=
  match a with
  | .inbound _ => true
  | .accepts _ => match u.handler with
    | .execSelect (some (.writing _)) _ _ | .ptySelect (.writing _) => false
    | _ => true
  | _ => s.handler ≠ u.handler

def after (t : Timed) (a : Action) (u : Session) : Timed where
  session := u
  waited := if renews a t.session u then 0 else t.waited
  busy := if writing u.box.writer ∧ writing t.session.box.writer = false then 0 else t.busy
  age := if t.session.handler = .readRequest then 0 else t.age

@[simp] theorem afterSession (t : Timed) (a : Action) (u : Session) : (after t a u).session = u := rfl

@[simp] def later (t : Timed) (d : Nat) : Timed :=
  {t with waited := t.waited + d, busy := t.busy + d, age := t.age + d}

def tick (env : Env) (l : Limits) (t : Timed) : Event → Option Timed
  | .act a => if due l t a then (step env t.session a).map (after t a) else none
  | .pass d => if parked env t.session ∧ within l (later t d) then some (later t d) else none

variable {l : Limits} {t u : Timed} {e : Event}

theorem actCases (h : tick env l t (.act a) = some u) :
    due l t a = true ∧ ∃ s, step env t.session a = some s ∧ u = after t a s := by
  simp only [tick] at h
  split at h <;> try contradiction
  obtain ⟨s,hs,last⟩ := Option.map_eq_some_iff.mp h
  exact ⟨by assumption,s,hs,last.symm⟩

theorem passCases {d} (h : tick env l t (.pass d) = some u) :
    parked env t.session = true ∧ within l u = true ∧ u = later t d := by
  simp only [tick] at h
  split at h <;> try contradiction
  rename_i able
  cases Option.some.inj h
  exact ⟨able.1,able.2,rfl⟩

theorem internalListed (own : internal a = true) : a ∈ internals := by
  revert own
  cases a <;> simp [internal,internals]

theorem parkedStuck (still : parked env s = true) (own : internal a = true) : step env s a = none :=
  Option.isNone_iff_eq_none.mp (List.all_eq_true.mp still a (internalListed own))

theorem withinIff : within l t = true ↔
    (∀ p, patience l t.session.handler = some p → t.waited ≤ p) ∧
    (∀ d, deadlineOf t.session.handler = some d → t.age ≤ d) ∧
    (writing t.session.box.writer = true → t.busy ≤ l.write) := by
  cases hp : patience l t.session.handler <;> cases hd : deadlineOf t.session.handler <;>
    cases hw : writing t.session.box.writer <;> simp [within,hp,hd,hw,and_assoc]

def actions (events : List Event) : List Action :=
  events.filterMap (fun e => match e with | .act a => some a | .pass _ => none)

theorem runActions {events : List Event} (reached : Machine.run (tick env l) t events = some u) :
    Machine.run (step env) t.session (actions events) = some u.session := by
  induction events generalizing t with
  | nil => cases Option.some.inj reached; rfl
  | cons e rest ih =>
    obtain ⟨next,went,onward⟩ := Machine.runCons.mp reached
    cases e with
    | act a =>
      obtain ⟨_,s,hs,rfl⟩ := actCases went
      exact Machine.runCons.mpr ⟨s,hs,ih onward⟩
    | pass d =>
      obtain ⟨_,_,rfl⟩ := passCases went
      exact @ih (later t d) onward

theorem moveQueue {v : Session} (h : Move env s a v) (room : s.box.queue.length ≤ channelBound) :
    v.box.queue.length ≤ channelBound := by
  have offered : ∀ {x box}, Outbox.offer channelBound x s.box = some box → box.queue.length ≤ channelBound := by
    intro x box ok
    obtain ⟨_,rfl⟩ | ⟨_,fits,rfl⟩ := Outbox.offerCases ok
    · exact room
    · simpa [Nat.succ_le_iff] using fits
  cases h with
  | handSent pc ok => exact offered ok
  | pumpSent t holds ok next => exact offered ok
  | writerMoved calm ok =>
    cases ok with
    | take took => obtain ⟨_,_,_,shape,rfl⟩ := Outbox.takeCases took; simp only [shape,List.length_cons] at room ⊢; omega
    | put went fits => obtain ⟨_,_,_,_,_,rfl⟩ := Outbox.putCases went; exact room
    | finish went fits => obtain ⟨_,_,rfl⟩ := Outbox.finishCases went; exact room
  | writerGaveUp calm busy => exact Nat.zero_le _
  | writerCancelled fired => exact Nat.zero_le _
  | writerClosed calm idle drained gone => exact Nat.zero_le _
  | _ => simpa using room

theorem moveDeadline {v : Session} (h : Move env s a v) (past : s.handler ≠ .readRequest) :
    deadlineOf v.handler = deadlineOf s.handler ∨ deadlineOf v.handler = none := by
  cases h with
  | firstQuiet pc | firstRefused _ pc | firstExec pc | firstPty pc => exact absurd pc past
  | execStays j still feed pc | execLost pc | execRefused pc => exact .inl (by rw [pc]; rfl)
  | waited got free next => exact .inr (by cases hs : s.handler <;> simp [hs,afterWait] at next <;> subst next <;> rfl)
  | reapLapsed armed next => exact .inr (by cases hs : s.handler <;> simp [hs,afterWait] at next <;> subst next <;> rfl)
  | drainJoined pc done | drainLapsed pc live =>
    right
    cases hs : s.handler with
    | execDrain side raw why => cases side <;> simp [afterDrain,deadlineOf]
    | ptyDrain raw why => simp [afterDrain,deadlineOf]
    | _ => simp [hs,drainSide] at pc
  | streamMoved side ok => exact .inl (by simp)
  | pumpSent t holds ok next => exact .inl (by simp)
  | writerMoved | writerGaveUp | writerCancelled | writerClosed | exited => exact .inl rfl
  | _ => exact .inr rfl

theorem sameOperation {v : Session} (h : step env s a = some v) (same : renews a s v = false) :
    patience l v.handler = patience l s.handler := by
  cases a with
  | inbound r => cases same
  | accepts n =>
    obtain ⟨_,raw,_,_,⟨stdin,deadline,pc,rfl⟩ | ⟨pc,rfl⟩⟩ := acceptsCases h
    · rw [pc]; rfl
    · rw [pc]; rfl
  | _ =>
    have kept : s.handler = v.handler := by simpa [renews] using same
    rw [kept]

structure Timely (env : Env) (l : Limits) (t : Timed) : Prop where
  reached : ∃ events, Machine.run (step env) SessionModel.start events = some t.session
  room : t.session.box.queue.length ≤ channelBound
  within : within l t = true

theorem freshTimely : Timely env l fresh where
  reached := ⟨[],rfl⟩
  room := Nat.zero_le _
  within := by simp [SessionClock.within,fresh,SessionModel.start,patience,deadlineOf,Outbox.empty,writing]

theorem tickTimely (timely : Timely env l t) (h : tick env l t e = some u) : Timely env l u := by
  cases e with
  | act a =>
    obtain ⟨_,s,hs,rfl⟩ := actCases h
    obtain ⟨past,reached⟩ := timely.reached
    have moved := stepMove hs
    refine ⟨⟨past ++ [a],Machine.runAppend.mpr ⟨_,reached,Machine.runCons.mpr ⟨s,hs,rfl⟩⟩⟩,moveQueue moved timely.room,?_⟩
    obtain ⟨waited,age,busy⟩ := withinIff.mp timely.within
    refine withinIff.mpr ⟨?_,?_,?_⟩
    · intro p hp
      simp only [after] at hp ⊢
      split
      · exact Nat.zero_le _
      · rename_i same
        exact waited p (by rw [← sameOperation hs (by simpa using same)]; exact hp)
    · intro d hd
      simp only [after] at hd ⊢
      split
      · exact Nat.zero_le _
      · rename_i past
        rcases moveDeadline moved past with kept | gone
        · exact age d (kept ▸ hd)
        · rw [gone] at hd; cases hd
    · intro now
      simp only [after] at now ⊢
      split
      · exact Nat.zero_le _
      · rename_i before
        exact busy (by simpa [now] using before)
  | pass d =>
    obtain ⟨_,within,rfl⟩ := passCases h
    exact ⟨timely.reached,timely.room,within⟩

def closing : Handler → Nat
  | .abandon _ => reapGrace
  | .execSelect _ _ _ | .execReap _ => reapGrace + 2 * execGrace
  | .execDrain .out _ _ => 2 * execGrace
  | .execDrain .err _ _ => execGrace
  | .readRequest | .openpty _ | .ptySelect _ | .hangupWait => hangupGrace + reapGrace + ptyGrace
  | .hangupReap => reapGrace + ptyGrace
  | .ptyDrain _ _ => ptyGrace
  | _ => 0

def late : Handler → Bool
  | .sending _ | .joinWriter => true
  | _ => false

def unsent (s : Session) : Nat := s.box.queue.length + if writing s.box.writer then 1 else 0

def frames (s : Session) : Nat :=
  match s.handler with
  | .sending _ => unsent s + 1
  | .joinWriter => unsent s
  | .returned => 0
  | _ => channelBound + 2

def pending (t : Timed) : Nat := if late t.session.handler ∧ writing t.session.box.writer then t.busy else 0

def flush (l : Limits) (t : Timed) : Nat :=
  if t.session.cancel then 0 else l.write * frames t.session - pending t

def elapsed (t : Timed) : Nat := if begun t.session.handler then t.waited else 0

def settling (l : Limits) (t : Timed) : Nat := closing t.session.handler - elapsed t + flush l t

theorem afterWaitCloses {raw h next} (ok : afterWait raw h = some next) :
    closing next + (if begun h then (patience l h).getD 0 else 0) ≤ closing h := by
  cases h <;> simp [afterWait] at ok <;> subst ok <;> simp [closing,begun,patience,reapGrace,hangupGrace,execGrace,ptyGrace]

theorem afterDrainCloses {h side} (pc : drainSide h = some side) :
    closing (afterDrain h) + (if begun h then (patience l h).getD 0 else 0) ≤ closing h := by
  cases h with
  | execDrain side raw why => cases side <;> simp [afterDrain,closing,begun,patience,execGrace]
  | ptyDrain raw why => simp [afterDrain,closing,begun,patience,ptyGrace]
  | _ => simp [drainSide] at pc

theorem moveCloses {v : Session} (h : Move env s a v) :
    v.handler = s.handler ∨ closing v.handler + (if begun s.handler then (patience l s.handler).getD 0 else 0) ≤ closing s.handler := by
  cases h with
  | firstQuiet pc | firstRefused _ pc | firstExec pc | firstPty pc | ptyRefused _ _ pc | ptyAbandoned _ _ _ pc | ptyServing _ _ pc | execStays _ _ _ pc | execLost pc | execRefused pc
  | ptyStays _ _ pc | ptyLost _ pc | execKilled _ pc | hangupLapsed pc | handSent pc | joined pc =>
    right
    simp [pc,closing,begun,patience,reapGrace,hangupGrace,execGrace,ptyGrace]
  | waited got free next => exact .inr (afterWaitCloses next)
  | reapLapsed armed next => exact .inr (afterWaitCloses next)
  | drainJoined pc done => exact .inr (afterDrainCloses pc)
  | drainLapsed pc live => exact .inr (afterDrainCloses pc)
  | streamMoved side ok => exact .inl (by simp)
  | pumpSent t holds ok next => exact .inl (by simp)
  | writerMoved | writerGaveUp | writerCancelled | writerClosed | exited => exact .inl rfl

theorem unsentFits (room : s.box.queue.length ≤ channelBound) : unsent s + 1 ≤ channelBound + 2 := by
  unfold unsent
  split <;> omega

theorem framesFit (room : s.box.queue.length ≤ channelBound) : frames s ≤ channelBound + 2 := by
  have fits := unsentFits room
  unfold frames
  split <;> omega

def Paced (s v : Session) : Prop :=
  frames v + 1 ≤ frames s ∨ frames v ≤ frames s ∧ (late s.handler = true → writing s.box.writer = true →
    late v.handler = true ∧ writing v.box.writer = true)

theorem earlyFrames (early : late s.handler = false) (more : s.handler ≠ .returned) : frames s = channelBound + 2 := by
  unfold frames
  split <;> simp_all [late]

theorem earlyPaced {v : Session} (early : late s.handler = false) (more : s.handler ≠ .returned)
    (room : v.box.queue.length ≤ channelBound) : Paced s v := by
  refine .inr ⟨?_,?_⟩
  · rw [earlyFrames early more]
    exact framesFit room
  · intro now
    rw [early] at now
    cases now

theorem framesFewer {v : Session} (pc : v.handler = s.handler) (fewer : unsent v ≤ unsent s) : frames v ≤ frames s := by
  unfold frames
  rw [pc]
  split <;> omega

theorem samePaced {v : Session} (pc : v.handler = s.handler) (box : v.box = s.box) : Paced s v := by
  refine .inr ⟨framesFewer pc (by rw [unsent,unsent,box]),?_⟩
  rw [pc,box]
  exact And.intro

theorem boxPaced {v : Session} (pc : v.handler = s.handler) (moved : BoxMove s.box v.box) : Paced s v := by
  have shift : (unsent v = unsent s ∧ (writing s.box.writer = true → writing v.box.writer = true)) ∨
      unsent v + 1 = unsent s := by
    cases moved with
    | take took =>
      obtain ⟨f,rest,idle,shape,made⟩ := Outbox.takeCases took
      left
      simp [unsent,made,idle,shape,writing]
    | put went fits =>
      obtain ⟨f,rest,busy,_,_,made⟩ := Outbox.putCases went
      left
      simp [unsent,made,busy,writing]
    | finish went fits =>
      obtain ⟨f,busy,made⟩ := Outbox.finishCases went
      right
      simp [unsent,made,busy,writing]
  cases at_ : s.handler with
  | sending f =>
    rcases shift with ⟨same,busy⟩ | one
    · exact .inr ⟨framesFewer pc same.le,fun _ now => ⟨by rw [pc,at_]; rfl,busy now⟩⟩
    · exact .inl (by simp [frames,pc,at_,one])
  | joinWriter =>
    rcases shift with ⟨same,busy⟩ | one
    · exact .inr ⟨framesFewer pc same.le,fun _ now => ⟨by rw [pc,at_]; rfl,busy now⟩⟩
    · exact .inl (by simp [frames,pc,at_,one])
  | _ => exact .inr ⟨by simp [frames,pc,at_],fun now => by rw [at_] at now; cases now⟩

theorem movePaced {v : Session} (h : Move env s a v) (quiet : Hushed s) (more : s.handler ≠ .returned)
    (room : v.box.queue.length ≤ channelBound) (calm : v.cancel = false) : Paced s v := by
  cases h with
  | @handSent f box pc ok =>
    refine .inr ⟨?_,?_⟩
    · obtain ⟨gone,rfl⟩ | ⟨alive,fits,rfl⟩ := Outbox.offerCases ok
      · simp [frames,unsent,pc]
      · simp [frames,unsent,pc]
        omega
    · intro _ busy
      obtain ⟨_,rfl⟩ | ⟨_,_,rfl⟩ := Outbox.offerCases ok <;> exact ⟨rfl,busy⟩
  | joined pc gone => exact .inr ⟨Nat.zero_le _,fun _ busy => by simp [gone,writing] at busy⟩
  | streamMoved side ok => exact samePaced (by simp) (by simp)
  | @pumpSent side chunk box t holds ok next =>
    refine earlyPaced ?_ more room
    have talks : hushed s.handler side = false := by
      by_contra hushedNow
      have still := quiet side (by simpa using hushedNow)
      simp [Tap.live,holds] at still
    cases pc : s.handler <;> first | rfl | (rw [pc] at talks; cases side <;> cases talks)
  | writerMoved _ ok => exact boxPaced rfl ok
  | writerGaveUp _ busy => cases calm
  | writerCancelled fired => rw [show s.cancel = false from calm] at fired; cases fired
  | writerClosed _ idle drained gone =>
    refine .inr ⟨framesFewer (by rfl) (Nat.zero_le _),fun _ busy => by simp [idle,writing] at busy⟩
  | exited alive => exact samePaced rfl rfl
  | waited got free next =>
    refine earlyPaced ?_ more room
    cases pc : s.handler <;> first | rfl | simp [pc,afterWait] at next
  | reapLapsed armed next =>
    refine earlyPaced ?_ more room
    cases pc : s.handler <;> first | rfl | simp [pc,afterWait] at next
  | drainJoined now done =>
    refine earlyPaced ?_ more room
    cases pc : s.handler <;> first | rfl | simp [pc,drainSide] at now
  | drainLapsed now live =>
    refine earlyPaced ?_ more room
    cases pc : s.handler <;> first | rfl | simp [pc,drainSide] at now
  | firstQuiet pc | firstRefused _ pc | firstExec pc | firstPty pc | ptyRefused _ _ pc | ptyAbandoned _ _ _ pc
  | ptyServing _ _ pc | execStays _ _ _ pc | execLost pc | execRefused pc | ptyStays _ _ pc | ptyLost _ pc
  | execKilled _ pc | hangupLapsed pc => exact earlyPaced (by rw [pc]; rfl) more room

theorem writerRests (still : parked env s = true) (alive : s.box.writer ≠ .exited)
    (work : s.box.queue ≠ [] ∨ sendersGone s = true) : s.cancel = false ∧ writing s.box.writer = true := by
  have calm : s.cancel = false := by
    by_contra fired
    have stuck := parkedStuck still (a := .writerCancelled) rfl
    simp [step,writerCancelled,fired,alive] at stuck
  refine ⟨calm,?_⟩
  cases at_ : s.box.writer with
  | exited => exact absurd at_ alive
  | writing f rest => rfl
  | receiving =>
    cases queued : s.box.queue with
    | cons f rest =>
      have stuck := parkedStuck still (a := .writerTakes) rfl
      simp [step,onBox,calm,Outbox.take,at_,queued] at stuck
    | nil =>
      have gone := work.resolve_left (fun some => some queued)
      have stuck := parkedStuck still (a := .writerCloses) rfl
      simp [step,writerCloses,calm,at_,queued,gone] at stuck

theorem parkedRests (still : parked env s = true) (torn : Teardown s) (blank : Fresh s) (quiet : Hushed s)
    (more : s.handler ≠ .returned) :
    (begun s.handler = true ∧ late s.handler = false ∧ ∃ p, patience l s.handler = some p) ∨
      (late s.handler = true ∧ s.cancel = false ∧ writing s.box.writer = true) := by
  cases pc : s.handler with
  | readRequest | openpty req =>
    have calm := (blank (by rw [pc]; rfl)).2.1
    simp [Teardown,calm,pc,begun] at torn
  | execSelect input stdin deadline | ptySelect input =>
    have fired := torn.resolve_right (by rw [pc]; simp [begun])
    have stuck := parkedStuck still (a := .cancelArm) rfl
    simp [step,cancelArm,fired,pc] at stuck
  | abandon msg | execReap why | hangupWait | hangupReap | ptyDrain raw why => exact .inl ⟨rfl,rfl,_,rfl⟩
  | execDrain side raw why => exact .inl ⟨rfl,rfl,_,rfl⟩
  | sending f =>
    have stuck : handSends s = none := parkedStuck still (a := .handSends) rfl
    simp only [handSends,pc,bind,Option.bind_eq_none_iff,reduceCtorEq,imp_false] at stuck
    obtain ⟨alive,full⟩ := Outbox.offerBlocked (Option.eq_none_iff_forall_ne_some.mpr stuck)
    refine .inr ⟨rfl,writerRests still alive (.inl ?_)⟩
    intro none
    simp [none,channelBound] at full
  | joinWriter =>
    have stuck := parkedStuck still (a := .writerJoined) rfl
    have alive : s.box.writer ≠ .exited := by
      intro gone
      simp [step,writerJoined,pc,gone] at stuck
    have silent := fun side => quiet side (by rw [pc]; cases side <;> rfl)
    exact .inr ⟨rfl,writerRests still alive (.inr (sendersGoneOf (.inl pc) silent))⟩
  | returned => exact absurd pc more

theorem patienceCloses {h p} (on : begun h = true) (some : patience l h = some p) : p ≤ closing h := by
  cases h with
  | execDrain side raw why => cases side <;> cases Option.some.inj some <;> simp [closing,execGrace]
  | readRequest | openpty | execSelect | ptySelect => cases on
  | sending | joinWriter | returned => cases some
  | _ => cases Option.some.inj some; simp [closing,reapGrace,hangupGrace,execGrace,ptyGrace]

theorem flushSteps {v : Session} (timely : Timely env l t) (h : step env t.session a = some v) (quiet : Hushed t.session)
    (more : t.session.handler ≠ .returned) : flush l (after t a v) ≤ flush l t := by
  have moved := stepMove h
  unfold flush
  cases fired : t.session.cancel with
  | true => simp [after,SessionDrain.cancelStays moved fired]
  | false =>
    cases now : v.cancel with
    | true => simp [after,now]
    | false =>
      simp only [after,now,Bool.false_eq_true,if_false]
      have busy := (withinIff.mp timely.within).2.2
      rcases movePaced moved quiet more (moveQueue moved timely.room) now with one | ⟨same,kept⟩
      · have saved := Nat.mul_le_mul_left l.write one
        have paid : pending t ≤ l.write := by
          unfold pending
          split
          · rename_i both; exact busy both.2
          · exact Nat.zero_le _
        rw [Nat.mul_succ] at saved
        omega
      · have most := Nat.mul_le_mul_left l.write same
        have counts : pending t ≤ pending (after t a v) := by
          unfold pending
          split
          · rename_i both
            obtain ⟨still,writes⟩ := kept both.1 both.2
            simp [after,still,writes,both.2]
          · exact Nat.zero_le _
        simp only [after] at counts
        omega

theorem closingNone {h} (on : begun h = true) (none : patience l h = none) : closing h = 0 := by
  revert on none
  cases h <;> simp [begun,patience,closing]

theorem closingSteps {v : Session} (timely : Timely env l t) (h : step env t.session a = some v) :
    closing v.handler - elapsed (after t a v) ≤ closing t.session.handler - elapsed t := by
  rcases moveCloses (l := l) (stepMove h) with same | less
  · rw [same]
    cases on : begun t.session.handler with
    | false => simp [elapsed,after,same,on]
    | true =>
      have kept : renews a t.session v = false := by
        cases a with
        | inbound r =>
          obtain ⟨_,_,pc,_⟩ | ⟨pc,_⟩ := inboundCases h <;> rw [pc] at on <;> cases on
        | accepts n =>
          obtain ⟨_,_,_,_,⟨_,_,pc,_⟩ | ⟨pc,_⟩⟩ := acceptsCases h <;> rw [pc] at on <;> cases on
        | _ => simp [renews,same]
      simp [elapsed,after,kept,same,on]
  · unfold elapsed
    cases on : begun t.session.handler with
    | false => simp only [on,Bool.false_eq_true,if_false] at less ⊢; omega
    | true =>
      simp only [on,if_true] at less ⊢
      cases bound : patience l t.session.handler with
      | none => have zero := closingNone on bound; omega
      | some p =>
        have waited := (withinIff.mp timely.within).1 p bound
        simp only [bound,Option.getD_some] at less
        omega

theorem framesBusy (last : late s.handler = true) (busy : writing s.box.writer = true) : 1 ≤ frames s := by
  unfold frames
  split <;> simp_all [late,unsent]

theorem lateSilent {h} (last : late h = true) : closing h = 0 := by
  cases h <;> first | rfl | cases last

theorem settlingPays (timely : Timely env l t) (torn : Teardown t.session) (more : t.session.handler ≠ .returned)
    (h : tick env l t e = some u) : cost e + settling l u ≤ settling l t := by
  obtain ⟨past,reached⟩ := timely.reached
  have blank := reachedFresh reached
  have quiet := reachedHushed reached
  cases e with
  | act a =>
    obtain ⟨_,v,hv,rfl⟩ := actCases h
    have own := closingSteps timely hv
    have writes := flushSteps timely hv quiet more
    rw [cost,Nat.zero_add]
    exact Nat.add_le_add own writes
  | pass d =>
    obtain ⟨still,fits,rfl⟩ := passCases h
    obtain ⟨waited,_,busy⟩ := withinIff.mp fits
    rcases parkedRests (l := l) still torn blank quiet more with ⟨on,early,p,bound⟩ | ⟨last,calm,writes⟩
    · have ends := waited p bound
      have most := patienceCloses on bound
      simp [settling,flush,pending,cost,elapsed,on,early] at ends ⊢
      omega
    · have ends := busy writes
      have covers := Nat.mul_le_mul_left l.write (framesBusy last writes)
      simp [settling,flush,pending,cost,last,calm,writes,lateSilent last] at ends ⊢
      omega

instance (s : Session) : Decidable (Teardown s) := inferInstanceAs (Decidable (s.cancel = true ∨ begun s.handler = true))

def flushAll (l : Limits) : Nat := l.write * (channelBound + 2)

theorem settlingMost (timely : Timely env l t) : settling l t ≤ closing t.session.handler + flushAll l := by
  have most := Nat.mul_le_mul_left l.write (framesFit timely.room)
  unfold settling flush flushAll
  split <;> omega

theorem returnedStays {v : Session} (h : Move env s a v) (ended : s.handler = .returned) : v.handler = .returned := by
  cases h with
  | waited got free next => rw [ended] at next; cases next
  | reapLapsed armed next => rw [ended] at armed; cases armed
  | drainJoined pc done => rw [ended] at pc; cases pc
  | drainLapsed pc live => rw [ended] at pc; cases pc
  | streamMoved side ok => simpa using ended
  | pumpSent u holds ok next => simpa using ended
  | writerMoved | writerGaveUp | writerCancelled | writerClosed | exited => exact ended
  | hangupLapsed pc => exact absurd (ended.symm.trans pc) (by simp)
  | firstQuiet pc | firstRefused _ pc | firstExec pc | firstPty pc | ptyRefused _ _ pc | ptyAbandoned _ _ _ pc
  | ptyServing _ _ pc | execStays _ _ _ pc | execLost pc | execRefused pc | ptyStays _ _ pc | ptyLost _ pc
  | execKilled _ pc | handSent pc | joined pc => exact absurd (ended.symm.trans pc) (by simp)

theorem tickReturned (ended : t.session.handler = .returned) (h : tick env l t e = some u) :
    u.session.handler = .returned := by
  cases e with
  | act a =>
    obtain ⟨_,v,hv,rfl⟩ := actCases h
    exact returnedStays (stepMove hv) ended
  | pass d =>
    obtain ⟨_,_,rfl⟩ := passCases h
    exact ended

/- What must be shown of the time before teardown: `ahead` pays for every wait while `J` holds,
and no step leads to a handler with longer timers of its own. -/
structure Counts (env : Env) (l : Limits) (J : Timed → Prop) (P : Timed → Event → Prop) (ahead : Timed → Nat) : Prop where
  act : ∀ t a v, Timely env l t → ¬ Teardown t.session → J t → P t (.act a) → step env t.session a = some v →
    closing v.handler ≤ closing t.session.handler ∧ (Teardown v ∨ J (after t a v) ∧ ahead (after t a v) ≤ ahead t)
  pass : ∀ t d, within l (later t d) = true → ¬ Teardown t.session → J t → J (later t d) ∧ d + ahead (later t d) ≤ ahead t

def lasting (ahead : Timed → Nat) (l : Limits) (t : Timed) : Nat :=
  if Teardown t.session then settling l t else ahead t + closing t.session.handler + flushAll l

variable {J : Timed → Prop} {P : Timed → Event → Prop} {ahead : Timed → Nat}

theorem tickLasts (counts : Counts env l J P ahead) (timely : Timely env l t) (now : Teardown t.session ∨ J t)
    (more : t.session.handler ≠ .returned) (able : P t e) (h : tick env l t e = some u) :
    (Teardown u.session ∨ J u) ∧ cost e + lasting ahead l u ≤ lasting ahead l t := by
  by_cases torn : Teardown t.session
  · have still : Teardown u.session := by
      cases e with
      | act a =>
        obtain ⟨_,v,hv,rfl⟩ := actCases h
        exact teardownStays (stepMove hv) torn
      | pass d =>
        obtain ⟨_,_,rfl⟩ := passCases h
        exact torn
    rw [lasting,lasting,if_pos torn,if_pos still]
    exact ⟨.inl still,settlingPays timely torn more h⟩
  · have holds := now.resolve_left torn
    have next := tickTimely timely h
    cases e with
    | act a =>
      obtain ⟨_,v,hv,rfl⟩ := actCases h
      have shut := settlingMost next
      rw [afterSession] at shut
      rw [lasting,lasting,if_neg torn,cost,afterSession,Nat.zero_add]
      obtain ⟨shorter,ends | ⟨keeps,less⟩⟩ := counts.act t a v timely torn holds able hv
      · rw [if_pos ends]
        exact ⟨.inl ends,by omega⟩
      · refine ⟨.inr keeps,?_⟩
        by_cases ends : Teardown v
        · rw [if_pos ends]
          omega
        · rw [if_neg ends]
          omega
    | pass d =>
      obtain ⟨_,fits,rfl⟩ := passCases h
      obtain ⟨keeps,less⟩ := counts.pass t d fits torn holds
      rw [lasting,lasting,if_neg torn,if_neg (show ¬ Teardown (later t d).session from torn),cost]
      refine ⟨.inr keeps,?_⟩
      simp only [later] at less ⊢
      omega

theorem lastsWithin {events : List Event} (counts : Counts env l J P ahead) (timely : Timely env l t)
    (now : Teardown t.session ∨ J t) (along : Machine.Along (tick env l) P t events)
    (reached : Machine.run (tick env l) t events = some u) (slow : lasting ahead l t < Meter.spent cost events) :
    u.session.handler = .returned := by
  by_cases ended : t.session.handler = .returned
  · exact Machine.runKeeps (I := fun t => t.session.handler = .returned) (fun _ _ _ ended h => tickReturned ended h) ended reached
  · have pay : ∀ v e w, (Timely env l v ∧ (Teardown v.session ∨ J v) ∧ v.session.handler ≠ .returned) → P v e →
        tick env l v e = some w → w.session.handler = .returned ∨
          (Timely env l w ∧ (Teardown w.session ∨ J w) ∧ w.session.handler ≠ .returned) ∧
            cost e + lasting ahead l w ≤ lasting ahead l v := by
      intro v e w holds able h
      by_cases done : w.session.handler = .returned
      · exact .inl done
      · obtain ⟨next,paid⟩ := tickLasts counts holds.1 holds.2.1 holds.2.2 able h
        exact .inr ⟨⟨tickTimely holds.1 h,next,done⟩,paid⟩
    rcases Meter.runSpends (lasting ahead l) pay (fun _ _ _ ended h => tickReturned ended h) ⟨timely,now,ended⟩ along reached with done | ⟨_,paid⟩
    · exact done
    · omega

theorem runTimely {events : List Event} (reached : Machine.run (tick env l) fresh events = some t) : Timely env l t :=
  Machine.runKeeps (fun _ _ _ timely h => tickTimely timely h) freshTimely reached

end Guesthopper.SessionClock
