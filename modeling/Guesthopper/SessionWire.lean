import Guesthopper.SessionMove

/-! The outbound side of a session: the bytes on the transport against the frames that
entered the channel, and those frames against what the child wrote. The channel is FIFO
and refuses every frame once its receiver is gone; an aborted task is never polled
again. Before the child's output is being read, the channel is untouched. -/
namespace Guesthopper.SessionWire
open FrameBytes SessionText SessionModel SessionMove
open Tap (Stream)

variable {env : Env} {s t : Session} {a : Action}

def early : Handler → Bool
  | .readRequest | .openpty _ | .abandon _ => true
  | _ => false

def Fresh (s : Session) : Prop :=
  early s.handler = true → s.box = Outbox.empty ∧ s.cancel = false ∧ s.out = Tap.unopened ∧ s.err = Tap.unopened

theorem endingLate {h} (ok : ending h = true) : early h = false := by
  cases h <;> first | rfl | cases ok

theorem unopenedStuck {side u} : ¬ TapMove side Tap.unopened a u := by
  intro move
  cases move with
  | read ok | eof ok | fail ok | supply ok | detach ok => cases ok

theorem emptyStuck {box} : ¬ BoxMove Outbox.empty box := by
  intro move
  cases move with
  | take ok | put ok _ | finish ok _ => cases ok

theorem moveFresh (h : Move env s a t) (fresh : Fresh s) : Fresh t := by
  intro now
  cases h with
  | firstQuiet pc quiet => cases now
  | firstRefused msg pc loud => cases now
  | firstExec pc ok => cases now
  | firstPty pc ok => exact fresh (by rw [pc]; rfl)
  | ptyRefused msg feed pc => cases now
  | ptyAbandoned msg pid feed pc => exact fresh (by rw [pc]; rfl)
  | ptyServing pid feed pc => cases now
  | execStays j still feed pc calm other => cases now
  | execLost pc calm other => cases now
  | execRefused pc calm => cases now
  | ptyStays j feed pc => cases now
  | ptyLost fired pc keeps => cases now
  | execKilled why pc => cases now
  | waited got free next => simp only [endingLate (afterWaitEnding next)] at now; contradiction
  | reapLapsed armed next => simp only [endingLate (afterWaitEnding next)] at now; contradiction
  | hangupLapsed pc => cases now
  | drainJoined pc done => simp only [endingLate (afterDrainEnding pc)] at now; contradiction
  | drainLapsed pc live => simp only [Session.go,endingLate (afterDrainEnding pc)] at now; contradiction
  | handSent pc ok => cases now
  | joined pc gone => cases now
  | streamMoved side ok =>
    have start := fresh (by simpa using now)
    cases side with
    | out => simp only [Session.stream,start.2.2.1] at ok; exact absurd ok unopenedStuck
    | err => simp only [Session.stream,start.2.2.2] at ok; exact absurd ok unopenedStuck
  | @pumpSent side chunk box t holds ok next =>
    have start := fresh (by simpa using now)
    cases side with
    | out => simp [Session.stream,start.2.2.1,Tap.unopened] at holds
    | err => simp [Session.stream,start.2.2.2,Tap.unopened] at holds
  | writerMoved calm ok =>
    have start := fresh now
    rw [start.1] at ok
    exact absurd ok emptyStuck
  | writerGaveUp calm busy =>
    have start := fresh now
    rw [start.1] at busy
    cases busy
  | writerCancelled fired =>
    have start := fresh now
    rw [start.2.1] at fired
    cases fired
  | writerClosed calm idle drained gone =>
    simp only [sendersGone,decide_eq_true_eq] at gone
    rcases gone.1 with pc | pc <;> simp only [pc] at now <;> cases now
  | exited alive => exact fresh now

theorem reachedFresh {actions} (reached : Machine.run (step env) start actions = some s) : Fresh s :=
  Machine.runKeeps (fun _ _ _ fresh h => moveFresh (stepMove h) fresh)
    (fun _ => ⟨rfl,rfl,rfl,rfl⟩) reached

theorem moveFaithful (h : Move env s a t) (ok : Outbox.Faithful encode s.box) :
    Outbox.Faithful encode t.box := by
  cases h with
  | handSent pc offered => exact Outbox.offerFaithful offered ok
  | pumpSent t holds offered next => exact Outbox.offerFaithful offered ok
  | writerMoved calm moved =>
    cases moved with
    | take taken => exact Outbox.takeFaithful taken ok
    | put written _ => exact Outbox.putFaithful written ok
    | finish flushed _ => exact Outbox.finishFaithful flushed ok
  | writerGaveUp calm busy => exact Outbox.leaveFaithful ok
  | writerCancelled fired => exact Outbox.leaveFaithful ok
  | writerClosed calm idle drained gone => exact Outbox.leaveFaithful ok
  | _ => simpa using ok

def Closing (s : Session) : Prop := ∀ f, s.handler = .sending f → f.ftype = frameError ∨ f.ftype = frameExit

theorem afterWaitClosing {raw h f} (ok : afterWait raw h = some (.sending f)) : f.ftype = frameError := by
  cases h <;> simp [afterWait] at ok
  subst ok
  rfl

theorem afterDrainClosing {h side f} (pc : drainSide h = some side) (ok : afterDrain h = .sending f) :
    f.ftype = frameExit := by
  cases h with
  | execDrain side raw why =>
    cases side with
    | out => cases ok
    | err => cases ok; rfl
  | ptyDrain raw why => cases ok; rfl
  | _ => simp [drainSide] at pc

theorem moveClosing (h : Move env s a t) (closing : Closing s) : Closing t := by
  intro f pc'
  cases h with
  | firstRefused msg pc loud => cases pc'; exact .inl rfl
  | ptyRefused msg feed pc => cases pc'; exact .inl rfl
  | waited got free next => simp only at pc'; subst pc'; exact .inl (afterWaitClosing next)
  | reapLapsed armed next => simp only at pc'; subst pc'; exact .inl (afterWaitClosing next)
  | drainJoined pc done => exact .inr (afterDrainClosing pc pc')
  | drainLapsed pc live => exact .inr (afterDrainClosing pc pc')
  | streamMoved side ok => exact closing f (by simpa using pc')
  | pumpSent u holds ok next => exact closing f (by simpa using pc')
  | writerMoved calm ok => exact closing f pc'
  | writerGaveUp calm busy => exact closing f pc'
  | writerCancelled fired => exact closing f pc'
  | writerClosed calm idle drained gone => exact closing f pc'
  | exited alive => exact closing f pc'
  | _ => cases pc'

def payloads (side : Side) (fs : List Frame) : Bytes :=
  (fs.filter (fun f => f.ftype = side.ftype)).flatMap Frame.payload

theorem payloadsAppend (side : Side) (fs gs : List Frame) :
    payloads side (fs ++ gs) = payloads side fs ++ payloads side gs := by
  simp [payloads]

theorem payloadsOwn (side : Side) (fs : List Frame) (chunk : Bytes) :
    payloads side (fs ++ [⟨side.ftype,chunk⟩]) = payloads side fs ++ chunk := by
  simp [payloads]

theorem payloadsOther {side : Side} {f : Frame} (fs : List Frame) (other : f.ftype ≠ side.ftype) :
    payloads side (fs ++ [f]) = payloads side fs := by
  simp [payloads,other]

theorem terminalType {f : Frame} (side : Side) (h : f.ftype = frameError ∨ f.ftype = frameExit) :
    f.ftype ≠ side.ftype := by
  cases side <;> rcases h with h | h <;> rw [h] <;> decide

theorem sideTypes {x y : Side} (different : x ≠ y) : x.ftype ≠ y.ftype := by
  cases x <;> cases y <;> first | contradiction | decide

def Shut (s : Session) : Prop :=
  s.cancel = false → s.box.writer = .exited → sendersGone s = true ∧ s.box.wire = encodeAll s.box.entered

def Kept (side : Side) (s : Session) : Prop :=
  s.cancel = false ∨ s.box.writer ≠ .exited → Tap.Conserves (payloads side s.box.entered) (s.stream side)

theorem quietAfterSenders (side : Side) (gone : sendersGone s = true) : Tap.live (s.stream side) = false := by
  simp only [sendersGone,decide_eq_true_eq] at gone
  cases side with
  | out => simpa [Session.stream] using gone.2.1
  | err => simpa [Session.stream] using gone.2.2

theorem tapQuiet {side x u} (move : TapMove side x a u) (quiet : Tap.live x = false) : Tap.live u = false := by
  have notReading : x.phase ≠ .reading := by intro ready; simp [Tap.live,ready] at quiet
  cases move with
  | read ok => exact absurd (Tap.readCases ok).1 notReading
  | eof ok => exact absurd (Tap.eofCases ok).1 notReading
  | fail ok => exact absurd (Tap.failCases ok).1 notReading
  | supply ok => rw [(Tap.supplyCases ok).1] at quiet; contradiction
  | detach ok => rw [(Tap.detachCases ok).2]; exact quiet

theorem boxMoveAlive {b c} (move : BoxMove b c) : c.writer ≠ .exited ∧ b.writer ≠ .exited ∧ c.entered = b.entered := by
  cases move with
  | take ok => obtain ⟨x,rest,hw,_,rfl⟩ := Outbox.takeCases ok; simp [hw]
  | put ok _ => obtain ⟨x,rest,hw,_,_,rfl⟩ := Outbox.putCases ok; simp [hw]
  | finish ok _ => obtain ⟨x,hw,rfl⟩ := Outbox.finishCases ok; simp [hw]

theorem streamSame (out : t.out = s.out) (err : t.err = s.err) (side : Side) : t.stream side = s.stream side := by
  cases side
  · exact out
  · exact err

theorem goneHandler (gone : sendersGone s = true) : s.handler = .joinWriter ∨ s.handler = .returned := by
  simp only [sendersGone,decide_eq_true_eq] at gone
  exact gone.1

theorem sendersGoneOf (pc : s.handler = .joinWriter ∨ s.handler = .returned)
    (quiet : ∀ side, Tap.live (s.stream side) = false) : sendersGone s = true := by
  have out := quiet .out
  have err := quiet .err
  simp only [Session.stream] at out err
  simp only [sendersGone,decide_eq_true_eq,out,err]
  exact ⟨pc,by simp,by simp⟩

theorem offerWriter {x b c} (ok : Outbox.offer channelBound x b = some c) :
    c.writer = (b : Outbox.Box Frame UInt8).writer ∧ c.wire = b.wire := by
  rcases Outbox.offerCases ok with ⟨_,rfl⟩ | ⟨_,_,rfl⟩ <;> exact ⟨rfl,rfl⟩

theorem moveShut (h : Move env s a t) (faithful : Outbox.Faithful encode s.box) (shut : Shut s) : Shut t := by
  intro calm exited
  cases h with
  | joined pc gone =>
    have before := shut calm exited
    have quiet := fun side => quietAfterSenders side before.1
    exact ⟨sendersGoneOf (.inr rfl) (fun side => (congrArg Tap.live (streamSame rfl rfl side)).trans (quiet side)),before.2⟩
  | streamMoved side ok =>
    have before := shut (by simpa using calm) (by simpa using exited)
    refine ⟨sendersGoneOf (by simpa using goneHandler before.1) (fun other => ?_),by simpa using before.2⟩
    have quiet := fun x => quietAfterSenders x before.1
    exact setStreamEach (P := fun x => Tap.live x = false) (fun _ => tapQuiet ok (quiet side)) (fun _ => quiet other)
  | pumpSent u holds ok next =>
    rw [(offerWriter ok).1] at exited
    have before := shut (by simpa using calm) exited
    rename_i which chunk box
    have quiet := quietAfterSenders which before.1
    simp [Tap.live,holds] at quiet
  | handSent pc ok =>
    simp only [(offerWriter ok).1] at exited
    have before := shut calm exited
    rcases goneHandler before.1 with other | other <;> rw [pc] at other <;> cases other
  | writerMoved calm ok => exact absurd exited (boxMoveAlive ok).1
  | writerGaveUp calm' busy => cases calm
  | writerCancelled fired => simp only [fired] at calm; cases calm
  | writerClosed calm' idle drained gone =>
    exact ⟨gone,by simpa [encodeAll,Outbox.leave] using Outbox.wireDrained faithful idle drained⟩
  | exited alive => exact shut calm exited
  | execLost pc calm' other => cases calm
  | ptyLost fired pc keeps =>
    have before : s.cancel = false := by
      cases held : s.cancel with
      | false => rfl
      | true => simp [keeps held] at calm
    have gone := shut before (by simpa using exited)
    rcases goneHandler gone.1 with other | other <;> rw [pc] at other <;> cases other
  | waited got free next =>
    have before := shut calm exited
    rcases goneHandler before.1 with other | other <;> simp [other,afterWait] at next
  | reapLapsed armed next =>
    have before := shut calm exited
    rcases goneHandler before.1 with other | other <;> simp [other,afterWait] at next
  | drainJoined pc done =>
    have before := shut calm exited
    rcases goneHandler before.1 with other | other <;> simp [other,drainSide] at pc
  | drainLapsed pc live =>
    have before := shut (by simpa using calm) (by simpa using exited)
    rcases goneHandler before.1 with other | other <;> simp [other,drainSide] at pc
  | execKilled why pc =>
    have before := shut (by simpa using calm) (by simpa using exited)
    rcases goneHandler before.1 with other | other <;> rw [pc] at other <;> cases other
  | hangupLapsed pc =>
    have before := shut (by simpa using calm) (by simpa using exited)
    rcases goneHandler before.1 with other | other <;> rw [pc] at other <;> cases other
  | firstQuiet pc _ | firstRefused _ pc _ | firstExec pc _ | firstPty pc _ | ptyRefused _ _ pc
  | ptyAbandoned _ _ _ pc | ptyServing _ _ pc | execStays _ _ _ pc _ _ | execRefused pc _ | ptyStays _ _ pc =>
    have before := shut calm exited
    rcases goneHandler before.1 with other | other <;> rw [pc] at other <;> cases other

theorem tapConserves {side x u delivered} (move : TapMove side x a u)
    (ok : Tap.Conserves delivered x) : Tap.Conserves delivered u := by
  cases move with
  | read got => exact Tap.readConserves got ok
  | eof got =>
    obtain ⟨ready,_,rfl⟩ := Tap.eofCases got
    exact Tap.finishConserves ready ok
  | fail got =>
    obtain ⟨ready,rfl⟩ := Tap.failCases got
    exact Tap.finishConserves ready ok
  | supply got => exact Tap.supplyConserves got ok
  | detach got => exact Tap.detachConserves got ok

theorem keptSame {side} (kept : Kept side s) (out : t.out = s.out) (err : t.err = s.err)
    (same : t.box.entered = s.box.entered) (able : s.cancel = false ∨ s.box.writer ≠ .exited) :
    Tap.Conserves (payloads side t.box.entered) (t.stream side) := by
  rw [same,streamSame out err]
  exact kept able

theorem holdingBlocksShut {side chunk} (shut : Shut s) (holds : (s.stream side).phase = .holding chunk)
    (gone : s.box.writer = .exited) : s.cancel = true := by
  cases fired : s.cancel with
  | true => rfl
  | false =>
    have quiet := quietAfterSenders side (shut fired gone).1
    simp [Tap.live,holds] at quiet

theorem pumpSentKept {side which chunk box} (shut : Shut s) (kept : Kept side s)
    (holds : (s.stream which).phase = .holding chunk)
    (ok : Outbox.offer channelBound ⟨which.ftype,chunk⟩ s.box = some box)
    (able : s.cancel = false ∨ box.writer ≠ .exited) :
    Tap.Conserves (payloads side box.entered) ((s.setStream which (Tap.release (s.stream which))).stream side) := by
  rcases Outbox.offerCases ok with ⟨gone,rfl⟩ | ⟨alive,_,rfl⟩
  · have fired := holdingBlocksShut shut holds gone
    rcases able with calm | alive
    · rw [fired] at calm; cases calm
    · exact absurd gone alive
  · have before := kept (.inr alive)
    by_cases own : which = side
    · subst own
      rw [payloadsOwn]
      rw [setStreamOwn]
      exact Tap.releaseConserves holds before
    · rw [payloadsOther _ (sideTypes own),setStreamOther own]
      exact before

theorem moveKept (side : Side) (h : Move env s a t) (fresh : Fresh s) (closing : Closing s) (shut : Shut s)
    (kept : Kept side s) : Kept side t := by
  intro able
  cases h with
  | firstExec pc ok =>
    have begin := (fresh (by rw [pc]; rfl)).1
    cases side <;> simp only [Session.stream,begin] <;> exact Tap.conservesOpened
  | ptyServing pid feed pc =>
    have begin := fresh (by rw [pc]; rfl)
    cases side <;> simp only [Session.stream,begin.1,begin.2.2.2]
    · exact Tap.conservesOpened
    · exact Tap.conservesUnopened
  | execLost pc calm other => exact keptSame kept rfl rfl rfl (.inl calm)
  | ptyLost fired pc keeps =>
    refine keptSame kept (by simp) (by simp) (by simp) (able.imp (fun calm => ?_) (by simp))
    cases held : s.cancel with
    | false => rfl
    | true => simp [keeps held] at calm
  | @drainLapsed which pc live =>
    have before := kept (by simpa using able)
    refine setStreamEach (P := Tap.Conserves (payloads side _)) ?_ (fun _ => by simpa using before)
    intro own
    subst own
    exact Tap.abortConserves (by simpa using before)
  | streamMoved which ok =>
    have before := kept (by simpa using able)
    refine setStreamEach (P := Tap.Conserves (payloads side _)) ?_ (fun _ => by simpa using before)
    intro own
    subst own
    exact tapConserves ok (by simpa using before)
  | handSent pc ok =>
    rcases Outbox.offerCases ok with ⟨gone,rfl⟩ | ⟨alive,_,rfl⟩
    · exact keptSame kept rfl rfl rfl able
    · rw [payloadsOther _ (terminalType side (closing _ pc)),streamSame rfl rfl side]
      exact kept (.inr alive)
  | @pumpSent which chunk box u holds ok next =>
    have able' : s.cancel = false ∨ box.writer ≠ .exited := by simpa using able
    have alive : ¬ (s.pty = true ∧ s.box.writer = .exited) := by
      intro ⟨_,gone⟩
      have fired := holdingBlocksShut shut holds gone
      rw [(offerWriter ok).1,gone,fired] at able'
      simp at able'
    rw [if_neg alive] at next
    subst next
    exact pumpSentKept shut kept holds ok able'
  | writerMoved calm ok => exact keptSame kept rfl rfl (boxMoveAlive ok).2.2 (.inl calm)
  | writerGaveUp calm busy => exact keptSame kept rfl rfl rfl (.inl calm)
  | writerCancelled fired =>
    rcases able with calm | alive
    · rw [fired] at calm; cases calm
    · simp [Outbox.leave] at alive
  | writerClosed calm idle drained gone => exact keptSame kept rfl rfl rfl (.inl calm)
  | execKilled why pc => exact keptSame kept (by simp) (by simp) (by simp) (by simpa using able)
  | hangupLapsed pc => exact keptSame kept (by simp) (by simp) (by simp) (by simpa using able)
  | _ => exact keptSame kept rfl rfl rfl able

theorem enteredFrozen (h : Move env s a t) : t.box.entered = s.box.entered ∨ t.box.writer ≠ .exited := by
  cases h with
  | handSent pc ok =>
    rcases Outbox.offerCases ok with ⟨_,rfl⟩ | ⟨alive,_,rfl⟩
    · exact .inl rfl
    · exact .inr alive
  | pumpSent u holds ok next =>
    rcases Outbox.offerCases ok with ⟨_,rfl⟩ | ⟨alive,_,rfl⟩
    · exact .inl rfl
    · exact .inr alive
  | writerMoved calm ok => exact .inl (boxMoveAlive ok).2.2
  | _ => exact .inl (by simp [Outbox.leave])

theorem tapGrows {side x u} (move : TapMove side x a u) : x.produced <+: u.produced := by
  cases move with
  | read ok => obtain ⟨_,_,_,_,rfl⟩ := Tap.readCases ok; exact List.prefix_rfl
  | eof ok => obtain ⟨_,_,rfl⟩ := Tap.eofCases ok; exact List.prefix_rfl
  | fail ok => obtain ⟨_,rfl⟩ := Tap.failCases ok; exact List.prefix_rfl
  | supply ok => obtain ⟨_,_,rfl⟩ := Tap.supplyCases ok; exact List.prefix_append _ _
  | detach ok => obtain ⟨_,rfl⟩ := Tap.detachCases ok; exact List.prefix_rfl

theorem producedGrows (side : Side) (h : Move env s a t) (fresh : Fresh s) :
    (s.stream side).produced <+: (t.stream side).produced := by
  cases h with
  | firstExec pc ok =>
    have begin := fresh (by rw [pc]; rfl)
    cases side <;> simp [Session.stream,begin.2.2.1,begin.2.2.2,Tap.unopened]
  | ptyServing pid feed pc =>
    have begin := fresh (by rw [pc]; rfl)
    cases side <;> simp [Session.stream,begin.2.2.1,begin.2.2.2,Tap.unopened]
  | @drainLapsed which pc live =>
    refine setStreamEach (P := fun x => (s.stream side).produced <+: x.produced) ?_ (fun _ => List.prefix_rfl)
    intro own
    subst own
    exact List.prefix_rfl
  | streamMoved which ok =>
    refine setStreamEach (P := fun x => (s.stream side).produced <+: x.produced) ?_ (fun _ => List.prefix_rfl)
    intro own
    subst own
    exact tapGrows ok
  | @pumpSent which chunk box u holds ok next =>
    have same : u.produced = (s.stream which).produced := by
      rw [next]
      split <;> rfl
    refine setStreamEach (P := fun x => (s.stream side).produced <+: x.produced) ?_ (fun _ => List.prefix_rfl)
    intro own
    subst own
    exact same ▸ List.prefix_rfl
  | _ => cases side <;> simp [Session.stream]

structure Sound (s : Session) : Prop where
  fresh : Fresh s
  closing : Closing s
  faithful : Outbox.Faithful encode s.box
  shut : Shut s
  kept : ∀ side, Kept side s
  ordered : ∀ side, payloads side s.box.entered <+: (s.stream side).produced

theorem soundStart : Sound start where
  fresh _ := ⟨rfl,rfl,rfl,rfl⟩
  closing _ pc := by cases pc
  faithful := Outbox.faithfulEmpty
  shut _ gone := by cases gone
  kept side _ := by cases side <;> exact Tap.conservesUnopened
  ordered side := by cases side <;> exact List.prefix_rfl

theorem moveSound (h : Move env s a t) (sound : Sound s) : Sound t where
  fresh := moveFresh h sound.fresh
  closing := moveClosing h sound.closing
  faithful := moveFaithful h sound.faithful
  shut := moveShut h sound.faithful sound.shut
  kept side := moveKept side h sound.fresh sound.closing sound.shut (sound.kept side)
  ordered side := by
    rcases enteredFrozen h with same | alive
    · rw [same]
      exact (sound.ordered side).trans (producedGrows side h sound.fresh)
    · have kept := moveKept side h sound.fresh sound.closing sound.shut (sound.kept side)
      exact Tap.conservedPrefix (kept (.inr alive))

theorem reachedSound {actions} (reached : Machine.run (step env) start actions = some s) : Sound s :=
  Machine.runKeeps (fun _ _ _ sound h => moveSound (stepMove h) sound) soundStart reached

theorem payloadsPrefix {fs gs : List Frame} (side : Side) (h : fs <+: gs) : payloads side fs <+: payloads side gs := by
  obtain ⟨later,rfl⟩ := h
  rw [payloadsAppend]
  exact List.prefix_append _ _

theorem outboundFaithful {actions} (reached : Machine.run (step env) start actions = some s) :
    s.box.wire <+: encodeAll s.box.entered ∧
    ∀ side fs, fs <+: s.box.entered → encodeAll fs <+: s.box.wire →
      payloads side fs <+: (s.stream side).produced := by
  have sound := reachedSound reached
  refine ⟨Outbox.wirePrefix sound.faithful,?_⟩
  intro side fs first written
  exact (payloadsPrefix side first).trans (sound.ordered side)

def tornRun : List Action :=
  [execOpening,.supplies .out [97,98,99],.supplies .err [33],.pumpReads .err 1,.pumpReads .out 2,.pumpSends .err,
   .pumpSends .out,.writerTakes,.writerPuts 4,.writerPuts 2,.writerFlushed,.writerTakes,.writerPuts 6,
   .pumpReads .out 1,.writerStalls,.pumpSends .out,.cancelArm,.reapLapse]

theorem outboundFaithfulTorn : ∃ s,
    Machine.run (step plainGuest) start tornRun = some s ∧ s.box.wire = [17,0,0,0,1,33,16,0,0,0,2,97] ∧
    s.box.wire <+: encodeAll s.box.entered ∧
    ∀ side fs, fs <+: s.box.entered → encodeAll fs <+: s.box.wire →
      payloads side fs <+: (s.stream side).produced := by
  have ends : ∃ s, Machine.run (step plainGuest) start tornRun = some s ∧
      s.box.wire = [17,0,0,0,1,33,16,0,0,0,2,97] := Machine.runEnds (by decide)
  obtain ⟨s,reached,wire⟩ := ends
  exact ⟨s,reached,wire,outboundFaithful reached⟩

end Guesthopper.SessionWire
