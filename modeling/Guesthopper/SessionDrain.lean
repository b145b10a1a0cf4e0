import Guesthopper.SessionTerminal

/-! Whether the peer gets all of a child's output before EXIT. The pumps are given a
short grace after the child is gone and are then aborted, whatever they still hold; a
session that nothing cancelled loses output exactly through such a lapse (or a failed
read) that finds something left. -/
namespace Guesthopper.SessionDrain
open FrameBytes SessionText SessionModel SessionMove SessionWire SessionTerminal

variable {env : Env} {s t : Session} {a : Action}

def Received (s : Session) : Prop :=
  ∃ pre last, decodeAll maxFrameLen s.box.wire = pre ++ [last] ∧ last.ftype = frameExit ∧
    (∀ g ∈ pre, Data g) ∧ ∀ side, payloads side pre = (s.stream side).produced

def Flushed (s : Session) : Action → Prop
  | .drainLapse => ∀ side, drainSide s.handler = some side → Tap.left (s.stream side) = []
  | .pumpFails side => Tap.left (s.stream side) = []
  | _ => True

def Spilled (side : Side) (s : Session) : Prop :=
  Tap.live (s.stream side) = false ∧ Tap.left (s.stream side) ≠ []

theorem cancelStays (h : Move env s a t) (fired : s.cancel = true) : t.cancel = true := by
  cases h with
  | ptyLost fired' pc keeps => simpa using keeps fired
  | execLost pc calm other => rfl
  | writerGaveUp calm busy => rfl
  | _ => simpa using fired

def Even (s : Session) : Prop :=
  s.cancel = false ∨ s.box.writer ≠ .exited → s.box.handed = s.box.entered

theorem calmBefore (h : Move env s a t) (calm : t.cancel = false) : s.cancel = false := by
  cases fired : s.cancel with
  | false => rfl
  | true => rw [cancelStays h fired] at calm; cases calm

theorem moveEven (h : Move env s a t) (shut : Shut s) (even : Even s) : Even t := by
  intro able
  have before : t.box.writer = s.box.writer → s.box.handed = s.box.entered := by
    intro same
    exact even (able.imp (calmBefore h) (fun alive => same ▸ alive))
  cases h with
  | handSent pc ok =>
    have old := before (offerWriter ok).1
    rcases Outbox.offerCases ok with ⟨gone,rfl⟩ | ⟨_,_,rfl⟩
    · have calm : s.cancel = false := able.resolve_right (fun alive => alive gone)
      rcases goneHandler (shut calm gone).1 with other | other <;> rw [pc] at other <;> cases other
    · simp only [old]
  | pumpSent u holds ok next =>
    have old := before (offerWriter ok).1
    rcases Outbox.offerCases ok with ⟨gone,rfl⟩ | ⟨_,_,rfl⟩
    · have fired := holdingBlocksShut shut holds gone
      rcases able with calm | alive
      · simp [fired] at calm
      · exact absurd gone alive
    · simp only [old]
  | writerMoved calm ok =>
    simp only [boxMoveHanded ok,(boxMoveAlive ok).2.2]
    exact even (.inl calm)
  | writerGaveUp calm busy => exact even (.inl calm)
  | writerCancelled fired => rcases able with calm | alive <;> simp_all [Outbox.leave]
  | writerClosed calm idle drained gone => exact even (.inl calm)
  | _ => simpa using before (by simp)

def fitting (f : Frame) : Prop := f.payload.length ≤ maxFrameLen

def Fits (s : Session) : Prop :=
  match s.box.writer with
  | .receiving => ∃ taken, s.box.entered = taken ++ s.box.queue ∧ ∀ f ∈ taken, fitting f
  | .writing x _ => ∃ taken, s.box.entered = taken ++ x::s.box.queue ∧ ∀ f ∈ taken, fitting f
  | .exited => s.cancel = false → ∀ f ∈ s.box.entered, fitting f

theorem fitsSame (h : Move env s a t) (ok : Fits s) (same : t.box = s.box) : Fits t := by
  unfold Fits at ok ⊢
  rw [same]
  split at ok
  · exact ok
  · exact ok
  · intro calm
    exact ok (calmBefore h calm)

theorem offerFits {x box} (offered : Outbox.offer channelBound x s.box = some box) (ok : Fits s)
    (same : t.box = box) (calm : t.cancel = s.cancel) : Fits t := by
  unfold Fits at ok ⊢
  rw [same,calm]
  rcases Outbox.offerCases offered with ⟨gone,rfl⟩ | ⟨alive,_,rfl⟩
  · simpa only [gone] using ok
  · split at ok
    · obtain ⟨taken,shape,all⟩ := ok
      simp only [*]
      exact ⟨taken,List.append_assoc _ _ _,all⟩
    · obtain ⟨taken,shape,all⟩ := ok
      simp only [*]
      exact ⟨taken,List.append_assoc _ _ _,all⟩
    · contradiction

theorem boxMoveFits {box} (move : BoxMove s.box box) (ok : Fits s) : Fits {s with box := box} := by
  unfold Fits at ok
  cases move with
  | take taken =>
    obtain ⟨x,rest,idle,queue,rfl⟩ := Outbox.takeCases taken
    simpa only [Fits,idle,queue] using ok
  | put written fits =>
    obtain ⟨x,rest,busy,_,_,rfl⟩ := Outbox.putCases written
    simpa only [Fits,busy] using ok
  | finish done fits =>
    obtain ⟨x,busy,rfl⟩ := Outbox.finishCases done
    simp only [busy,sendable,decide_eq_true_eq] at ok fits
    obtain ⟨taken,shape,all⟩ := ok
    refine ⟨taken ++ [x],by simpa using shape,?_⟩
    intro f present
    rcases List.mem_append.mp present with old | new
    · exact all f old
    · rw [List.mem_singleton.mp new]; exact fits

theorem moveFits (h : Move env s a t) (ok : Fits s) : Fits t := by
  have same := fun box => fitsSame h ok box
  cases h with
  | handSent pc offered => exact offerFits offered ok rfl rfl
  | pumpSent u holds offered next => exact offerFits offered ok rfl (by simp)
  | writerMoved calm moved => exact boxMoveFits moved ok
  | writerGaveUp calm busy => intro calm'; cases calm'
  | writerCancelled fired => intro calm; simp [fired] at calm
  | writerClosed calm idle drained gone =>
    simp only [Fits,idle,drained,List.append_nil] at ok
    obtain ⟨taken,shape,all⟩ := ok
    intro _ f present
    simp only [Outbox.leave,shape] at present
    exact all f present
  | _ => exact same (by simp)

def Parted (s : Session) : Prop := s.handler = .returned → s.box.writer = .exited

theorem moveParted (h : Move env s a t) (parted : Parted s) : Parted t := by
  intro past
  cases h with
  | joined pc gone => exact gone
  | waited got free next => exact absurd past (endingWaits (afterWaitEnding next)).1
  | reapLapsed armed next => exact absurd past (endingWaits (afterWaitEnding next)).1
  | drainJoined pc done => exact absurd past (endingWaits (afterDrainEnding pc)).1
  | drainLapsed pc live => exact absurd past (endingWaits (afterDrainEnding pc)).1
  | streamMoved side ok => simpa using parted (by simpa using past)
  | pumpSent u holds ok next => simpa [(offerWriter ok).1] using parted (by simpa using past)
  | writerMoved calm ok => exact absurd (parted past) (boxMoveAlive ok).2.1
  | writerGaveUp calm busy => rfl
  | writerCancelled fired => rfl
  | writerClosed calm idle drained gone => rfl
  | exited alive => exact parted past
  | _ => cases past

structure Booked (s : Session) : Prop where
  sound : Sound s
  hushed : Hushed s
  spoken : Spoken s
  even : Even s
  fits : Fits s
  parted : Parted s

theorem bookedStart : Booked start where
  sound := soundStart
  hushed side _ := by cases side <;> rfl
  spoken := by simp [Spoken,stage,start,silent,streamed,Tap.unopened,Outbox.empty]
  even _ := rfl
  fits := ⟨[],rfl,by simp⟩
  parted past := by cases past

theorem stepBooked {u v : Session} (booked : Booked u) (h : step env u a = some v) : Booked v where
  sound := moveSound (stepMove h) booked.sound
  hushed := moveHushed (stepMove h) booked.hushed
  spoken := moveSpoken (stepMove h) booked.hushed booked.spoken
  even := moveEven (stepMove h) booked.sound.shut booked.even
  fits := moveFits (stepMove h) booked.fits
  parted := moveParted (stepMove h) booked.parted

theorem reachedBooked {actions} (reached : Machine.run (step env) start actions = some s) : Booked s :=
  Machine.runKeeps (fun _ _ _ booked h => stepBooked booked h) bookedStart reached

theorem wireDecodes (booked : Booked s) (past : s.handler = .returned) (calm : s.cancel = false) :
    decodeAll maxFrameLen s.box.wire = s.box.handed := by
  have gone := booked.parted past
  have fits := booked.fits
  simp only [Fits,gone] at fits
  rw [(booked.sound.shut calm gone).2,booked.even (.inl calm)]
  exact decodeAllEncoded (by decide) (fits calm)

theorem receivedLeft (booked : Booked s) (past : s.handler = .returned) (calm : s.cancel = false)
    (begun : streamed s) : Received s ↔ ∀ side, Tap.left (s.stream side) = [] := by
  have spoken := booked.spoken
  simp only [Spoken,past,stage] at spoken
  rcases spoken with ⟨_,fresh,_⟩ | ⟨_,fresh,_⟩ | ⟨_,_,said⟩
  · exact absurd begun fresh
  · exact absurd begun fresh
  obtain ⟨ending,_⟩ | ⟨ending,_⟩ | ⟨_,pre,last,shape,data,kind⟩ := saidShapes said
  · cases ending
  · cases ending
  have decoded := wireDecodes booked past calm
  rw [shape] at decoded
  have own : ∀ side, payloads side pre = (s.stream side).produced ↔ Tap.left (s.stream side) = [] := by
    intro side
    have kept := booked.sound.kept side (.inl calm)
    rw [← booked.even (.inl calm),shape,payloadsOther _ (terminalType side (.inr kind))] at kept
    exact Tap.deliveredAll kept
  constructor
  · intro received side
    obtain ⟨pre',last',same,_,_,all⟩ := received
    obtain ⟨rfl,_⟩ := List.append_inj' (decoded.symm.trans same) rfl
    exact (own side).mp (all side)
  · intro none
    exact ⟨pre,last,decoded,kind,data,fun side => (own side).mpr (none side)⟩

theorem spilledSame {side} (spilled : Spilled side s) (same : t.stream side = s.stream side) : Spilled side t := by
  unfold Spilled
  rw [same]
  exact spilled

theorem tapSpilled {side x u} (move : TapMove side x a u) (quiet : Tap.live x = false) (rest : Tap.left x ≠ []) :
    Tap.left u ≠ [] := by
  have notReading : x.phase ≠ .reading := by intro ready; simp [Tap.live,ready] at quiet
  cases move with
  | read ok => exact absurd (Tap.readCases ok).1 notReading
  | eof ok => exact absurd (Tap.eofCases ok).1 notReading
  | fail ok => exact absurd (Tap.failCases ok).1 notReading
  | supply ok => rw [(Tap.supplyCases ok).1] at quiet; contradiction
  | detach ok => rw [(Tap.detachCases ok).2]; exact rest

theorem moveSpilled (side : Side) (h : Move env s a t) (fresh : Fresh s) (spilled : Spilled side s) : Spilled side t := by
  have unopened : early s.handler = true → False := by
    intro now
    have begin := fresh now
    have rest := spilled.2
    cases side <;> simp [Session.stream,begin.2.2.1,begin.2.2.2,Tap.left,Tap.held,Tap.unopened] at rest
  cases h with
  | firstExec pc ok => exact (unopened (by rw [pc]; rfl)).elim
  | ptyServing pid feed pc => exact (unopened (by rw [pc]; rfl)).elim
  | @drainLapsed which pc live =>
    by_cases own : which = side
    · subst own
      rw [spilled.1] at live
      cases live
    · exact spilledSame spilled (setStreamOther own _)
  | streamMoved which ok =>
    by_cases own : which = side
    · subst own
      unfold Spilled
      rw [setStreamOwn]
      exact ⟨tapQuiet ok spilled.1,tapSpilled ok spilled.1 spilled.2⟩
    · exact spilledSame spilled (setStreamOther own _)
  | @pumpSent which chunk box u holds ok next =>
    by_cases own : which = side
    · subst own
      have quiet := spilled.1
      simp [Tap.live,holds] at quiet
    · exact spilledSame spilled (setStreamOther own _)
  | _ => exact spilledSame spilled (by cases side <;> simp [Session.stream])

theorem abortLeft (t : Tap.Stream UInt8) : Tap.left (Tap.abort t) = Tap.left t := by
  simp [Tap.left,Tap.held,Tap.abort]

theorem lapseSpills (h : step env s a = some t) (bad : ¬ Flushed s a) : ∃ side, Spilled side t := by
  cases a with
  | drainLapse =>
    obtain ⟨side,pc,live,rfl⟩ := drainLapseCases h
    have rest : Tap.left (s.stream side) ≠ [] := by
      intro none
      refine bad (fun other own => ?_)
      cases Option.some.inj (own.symm.trans pc)
      exact none
    have stopped : ((s.setStream side (Tap.abort (s.stream side))).go (afterDrain s.handler)).stream side =
        Tap.abort (s.stream side) := by cases side <;> rfl
    refine ⟨side,?_,?_⟩
    · rw [stopped]; rfl
    · rw [stopped,abortLeft]; exact rest
  | pumpFails side =>
    obtain ⟨u,ok,rfl⟩ := onStreamSource h
    obtain ⟨ready,rfl⟩ := Tap.failCases ok
    simp only [Flushed,Tap.left,Tap.held,ready,List.nil_append] at bad
    exact ⟨side,by rw [setStreamOwn]; rfl,by rw [setStreamOwn]; exact bad⟩
  | _ => exact absurd trivial bad

def Tidy (s : Session) : Prop := s.cancel = false → ∀ side, ¬ Spilled side s

theorem tapTidy {side x u} (move : TapMove side x a u) (flushed : a = .pumpFails side → Tap.left x = [])
    (clean : ¬ (Tap.live x = false ∧ Tap.left x ≠ [])) : ¬ (Tap.live u = false ∧ Tap.left u ≠ []) := by
  intro ⟨quiet,rest⟩
  cases move with
  | read ok => obtain ⟨_,_,_,_,rfl⟩ := Tap.readCases ok; cases quiet
  | eof ok => obtain ⟨_,none,rfl⟩ := Tap.eofCases ok; simp [Tap.left,Tap.held,none] at rest
  | fail ok =>
    obtain ⟨ready,rfl⟩ := Tap.failCases ok
    have none := flushed rfl
    simp only [Tap.left,Tap.held,ready] at none
    exact rest none
  | supply ok =>
    obtain ⟨live,_,rfl⟩ := Tap.supplyCases ok
    exact absurd (quiet.symm.trans live) (by simp)
  | detach ok => obtain ⟨_,rfl⟩ := Tap.detachCases ok; exact clean ⟨quiet,rest⟩

theorem moveTidy (h : Move env s a t) (sound : Sound s) (flushed : Flushed s a) (tidy : Tidy s) : Tidy t := by
  intro calm side spilled
  have before := calmBefore h calm
  have clean := tidy before side
  cases h with
  | firstExec pc ok => cases side <;> exact absurd spilled.1 (by simp [Session.stream,Tap.live,Tap.opened])
  | ptyServing pid feed pc =>
    cases side with
    | out => exact absurd spilled.1 (by simp [Session.stream,Tap.live,Tap.opened])
    | err => exact clean spilled
  | @drainLapsed which pc live =>
    by_cases own : which = side
    · subst own
      have rest := spilled.2
      have stopped : ((s.setStream which (Tap.abort (s.stream which))).go (afterDrain s.handler)).stream which =
          Tap.abort (s.stream which) := by cases which <;> rfl
      rw [stopped,abortLeft] at rest
      exact rest (flushed which pc)
    · exact clean (spilledSame spilled (setStreamOther own _).symm)
  | streamMoved which ok =>
    by_cases own : which = side
    · subst own
      unfold Spilled at spilled
      rw [setStreamOwn] at spilled
      refine tapTidy ok (fun same => ?_) clean spilled
      rw [same] at flushed
      exact flushed
    · exact clean (spilledSame spilled (setStreamOther own _).symm)
  | @pumpSent which chunk box u holds ok next =>
    by_cases own : which = side
    · subst own
      have alive : ¬ (s.pty = true ∧ s.box.writer = .exited) := by
        intro stopped
        have gone := stopped.2
        rw [holdingBlocksShut sound.shut holds gone] at before
        cases before
      rw [if_neg alive] at next
      subst next
      have quiet := spilled.1
      cases which <;> cases quiet
    · exact clean (spilledSame spilled (setStreamOther own _).symm)
  | _ => exact clean (spilledSame spilled (by cases side <;> simp [Session.stream]))

theorem returnedQuiet (booked : Booked s) (past : s.handler = .returned) (side : Side) :
    Tap.live (s.stream side) = false :=
  booked.hushed side (by rw [past]; cases side <;> rfl)

theorem drainExact {actions} (reached : Machine.run (step env) start actions = some s)
    (past : s.handler = .returned) (calm : s.cancel = false) (begun : streamed s) :
    Received s ↔ Machine.Along (step env) Flushed start actions := by
  have booked := reachedBooked reached
  rw [receivedLeft booked past calm begun]
  constructor
  · intro none
    refine Machine.alongOfUnmarked (I := Booked) (M := fun u => ∃ side, Spilled side u) ?_ ?_ ?_ bookedStart reached ?_
    · intro u b v ok h; exact stepBooked ok h
    · intro u b v ok bad h; exact lapseSpills h bad
    · intro u b v ok ⟨side,spilled⟩ h
      exact ⟨side,moveSpilled side (stepMove h) ok.sound.fresh spilled⟩
    · intro ⟨side,spilled⟩
      exact spilled.2 (none side)
  · intro along side
    have both := Machine.runKeepsAlong (I := fun u => Booked u ∧ Tidy u)
      (fun u b v both flushed h =>
        ⟨stepBooked both.1 h,moveTidy (stepMove h) both.1.sound flushed both.2⟩)
      ⟨bookedStart,fun _ side spilled => by cases side <;> exact spilled.2 rfl⟩ along reached
    by_contra rest
    exact both.2 calm side ⟨returnedQuiet booked past side,rest⟩

theorem drainExactShort : ∃ s,
    Machine.run (step plainGuest) start shortRun = some s ∧ s.handler = .returned ∧ s.cancel = false ∧ streamed s ∧
    (Received s ↔ Machine.Along (step plainGuest) Flushed start shortRun) := by
  have ends : ∃ s, Machine.run (step plainGuest) start shortRun = some s ∧
      s.handler = .returned ∧ s.cancel = false ∧ s.out.phase = .finished := Machine.runEnds (by decide)
  obtain ⟨s,reached,past,calm,phase⟩ := ends
  have begun : streamed s := by simp [streamed,phase]
  exact ⟨s,reached,past,calm,begun,drainExact reached past calm begun⟩

/- The child writes 66 bytes and exits with every holder of its pipes, while the peer takes
longer than the grace over one frame: the writer holds that frame, 64 wait in the queue, and
the pump holds the last one when the timer aborts it. The peer then reads everything. -/
def slowReader : List Action :=
  let output : List Action := [.supplies .out [97],.pumpReads .out 1,.pumpSends .out]
  let delivery : List Action := [.writerPuts 6,.writerFlushed,.writerTakes]
  execOpening :: output ++ .writerTakes :: (List.replicate 64 output).flatten ++
    [.supplies .out [98],.pumpReads .out 1,.exits (.code 0),.detaches .out,.detaches .err,.pumpEof .err,
     .waitReady false,.drainLapse,.drainJoined] ++
    delivery ++ .handSends :: (List.replicate 64 delivery).flatten ++
    [.writerPuts 33,.writerFlushed,.writerCloses,.writerJoined]

theorem slowReaderEnds : ∃ s, Machine.run (step plainGuest) start slowReader = some s ∧
    s.handler = .returned ∧ s.cancel = false ∧ s.reap = some (.status (.code 0)) ∧
    s.out.attached = false ∧ s.err.attached = false ∧ s.out.phase = .aborted [98] :=
  Machine.runEnds (by decide +kernel)

theorem slowReaderLosesOutput : ∃ s,
    Machine.run (step plainGuest) start slowReader = some s ∧ s.handler = .returned ∧ s.cancel = false ∧
    .deadlineArm ∉ slowReader ∧ s.reap = some (.status (.code 0)) ∧
    s.out.attached = false ∧ s.err.attached = false ∧ streamed s ∧ ¬ Received s := by
  obtain ⟨s,reached,past,calm,status,out,err,phase⟩ := slowReaderEnds
  have begun : streamed s := by simp [streamed,phase]
  refine ⟨s,reached,past,calm,by decide +kernel,status,out,err,begun,?_⟩
  intro received
  have none := (receivedLeft (reachedBooked reached) past calm begun).mp received .out
  simp [Session.stream,Tap.left,Tap.held,phase] at none

end Guesthopper.SessionDrain
