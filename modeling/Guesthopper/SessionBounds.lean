import Guesthopper.SessionClock
import Mathlib.Data.Prod.Lex

/-! How long a session can keep its slot. Four bounds on the time that passes before it has
returned: from the start of its teardown, from the start of a command with a deadline, from the
last word of a peer that has vanished, and that in teardown time is never stuck. A hung child,
a held pipe and a peer that does not read are all among the runs. -/
namespace Guesthopper.SessionBounds
open FrameBytes SessionText SessionModel SessionMove SessionWire SessionTerminal SessionTeardown SessionWatch SessionClock

variable {env : Env} {s : Session} {a : Action} {l : Limits} {t u : Timed} {e : Event}

theorem closingMost (h : Handler) : closing h ≤ hangupGrace + reapGrace + ptyGrace := by
  cases h with
  | execDrain side raw why => cases side <;> simp [closing,reapGrace,hangupGrace,execGrace,ptyGrace]
  | _ => simp [closing,reapGrace,hangupGrace,execGrace,ptyGrace]

theorem settlingEnds (timely : Timely env l t) : settling l t ≤
    hangupGrace + reapGrace + ptyGrace + if t.session.cancel then 0 else flushAll l := by
  have own := closingMost t.session.handler
  have most := Nat.mul_le_mul_left l.write (framesFit timely.room)
  unfold settling flush flushAll
  split <;> omega

theorem settlesBy {events : List Event} (timely : Timely env l t) (torn : Teardown t.session)
    (onward : Machine.run (tick env l) t events = some u)
    (slow : hangupGrace + reapGrace + ptyGrace + (if t.session.cancel then 0 else flushAll l) < Meter.spent cost events) :
    u.session.handler = .returned := by
  have counts : Counts env l (fun _ => False) (fun _ _ => True) (fun _ => 0) :=
    ⟨fun _ _ _ _ _ never => never.elim,fun _ _ _ _ never => never.elim⟩
  have all : Machine.Along (tick env l) (fun _ _ => True) t events := Machine.alongAll (fun _ _ => trivial)
  refine lastsWithin counts timely (.inl torn) all onward ?_
  have most := settlingEnds timely
  rw [lasting,if_pos torn]
  omega

theorem teardownWithin (env : Env) (l : Limits) (before events : List Event) (t u : Timed)
    (reached : Machine.run (tick env l) fresh before = some t) (torn : Teardown t.session)
    (onward : Machine.run (tick env l) t events = some u)
    (slow : hangupGrace + reapGrace + ptyGrace + (if t.session.cancel then 0 else l.write * (channelBound + 2)) <
      Meter.spent cost events) : u.session.handler = .returned :=
  settlesBy (runTimely reached) torn onward slow

def limits : Limits := ⟨30 * 10^9,60 * 10^9⟩

def lingering : List Event := [.act execOpening,.act (.exits (.code 0)),.act (.waitReady false)]
def lingers : List Event :=
  [.pass execGrace,.act .drainLapse,.pass execGrace,.act .drainLapse,.act .handSends,.act .writerTakes,
    .pass (60 * 10^9),.act .writerStalls,.act .writerJoined]

theorem teardownWithinLingering : ∃ t u, Machine.run (tick plainGuest limits) fresh lingering = some t ∧
    Machine.run (tick plainGuest limits) t (lingers ++ [.pass (10^13)]) = some u ∧ u.session.handler = .returned := by
  have ends : ∃ t, Machine.run (tick plainGuest limits) fresh lingering = some t ∧ Teardown t.session ∧
      (Machine.run (tick plainGuest limits) t (lingers ++ [.pass (10^13)])).isSome = true :=
    Machine.runEnds (by decide +kernel)
  obtain ⟨t,reached,torn,onward⟩ := ends
  obtain ⟨u,onward⟩ := Option.isSome_iff_exists.mp onward
  refine ⟨t,u,reached,onward,teardownWithin plainGuest limits lingering _ t u reached torn onward ?_⟩
  split <;> decide +kernel

theorem selectSteps {v : Session} {i stdin deadline} (h : Move env s a v) (pc : s.handler = .execSelect i stdin deadline) :
    (∃ j still, v.handler = .execSelect j still deadline) ∨ begun v.handler = true := by
  have same : ∀ {v : Session}, v.handler = s.handler → (∃ j still, v.handler = .execSelect j still deadline) :=
    fun kept => ⟨i,stdin,kept.trans pc⟩
  cases h with
  | execStays j still feed now => cases pc.symm.trans now; exact .inl ⟨j,still,rfl⟩
  | execLost now => cases pc.symm.trans now; exact .inl ⟨_,_,rfl⟩
  | execRefused now => cases pc.symm.trans now; exact .inl ⟨_,_,rfl⟩
  | execKilled why now => exact .inr rfl
  | waited got free next => exact .inr (endingBegun (afterWaitEnding next))
  | reapLapsed armed next => exact .inr (endingBegun (afterWaitEnding next))
  | drainJoined now done => exact .inr (endingBegun (afterDrainEnding now))
  | drainLapsed now live => exact .inr (endingBegun (afterDrainEnding now))
  | streamMoved side ok => exact .inl (same (by simp))
  | pumpSent u holds ok next => exact .inl (same (by simp))
  | writerMoved | writerGaveUp | writerCancelled | writerClosed | exited => exact .inl (same rfl)
  | firstQuiet now | firstRefused _ now | firstExec now | firstPty now | ptyRefused _ _ now | ptyAbandoned _ _ _ now
  | ptyServing _ _ now | ptyStays _ _ now | ptyLost _ now | hangupLapsed now | handSent now | joined now =>
    exact absurd (pc.symm.trans now) (by simp)

theorem execCounts (deadline : Nat) :
    Counts env l (fun t => ∃ i stdin, t.session.handler = .execSelect i stdin (some deadline)) (fun _ _ => True)
      (fun t => deadline - t.age) where
  act t a v timely calm selecting able h := by
    obtain ⟨i,stdin,pc⟩ := selecting
    have past : t.session.handler ≠ .readRequest := by rw [pc]; simp
    refine ⟨?_,?_⟩
    · rcases moveCloses (l := l) (stepMove h) with same | less
      · rw [same]
      · omega
    · rcases selectSteps (stepMove h) pc with ⟨j,still,now⟩ | ends
      · exact .inr ⟨⟨j,still,now⟩,by simp [after,past]⟩
      · exact .inl (.inr ends)
  pass t d fits calm selecting := by
    obtain ⟨i,stdin,pc⟩ := selecting
    have ends := (withinIff.mp fits).2.1 deadline (by simp [pc,deadlineOf])
    refine ⟨⟨i,stdin,pc⟩,?_⟩
    simp only [later] at ends ⊢
    omega

-- A command with a deadline is answered for in bounded time, whatever it, its input or the peer do.
theorem execWithin (env : Env) (l : Limits) (before events : List Event) (t u : Timed) (i : Option Input) (stdin : Bool)
    (deadline : Nat) (reached : Machine.run (tick env l) fresh before = some t)
    (runs : t.session.handler = .execSelect i stdin (some deadline)) (onward : Machine.run (tick env l) t events = some u)
    (slow : deadline - t.age + reapGrace + 2 * execGrace + l.write * (channelBound + 2) < Meter.spent cost events) :
    u.session.handler = .returned := by
  have timely := runTimely reached
  have all : Machine.Along (tick env l) (fun _ _ => True) t events := Machine.alongAll (fun _ _ => trivial)
  refine lastsWithin (execCounts deadline) timely (.inr ⟨i,stdin,runs⟩) all onward ?_
  have most := settlingMost timely
  have own : closing t.session.handler = reapGrace + 2 * execGrace := by rw [runs]; rfl
  unfold lasting flushAll at *
  beta_reduce
  split <;> omega

def cappedGuest : Env :=
  {plainGuest with parseRequest := fun _ => .ok ⟨"exec",some "cat",none,none,none⟩, defaultDeadline := some (10 * 10^9)}

def overruns : List Event :=
  [.pass (10 * 10^9),.act .deadlineArm,.pass reapGrace,.act .reapLapse,.pass execGrace,.act .drainLapse,
    .pass execGrace,.act .drainLapse,.act .handSends,.act .writerTakes,.act (.writerPuts 1),.pass (60 * 10^9),
    .act .writerStalls,.act .writerJoined]

theorem execWithinCapped : ∃ t u, Machine.run (tick cappedGuest limits) fresh [.act execOpening] = some t ∧
    Machine.run (tick cappedGuest limits) t (overruns ++ [.pass (10^13)]) = some u ∧ u.session.handler = .returned := by
  have ends : ∃ t, Machine.run (tick cappedGuest limits) fresh [.act execOpening] = some t ∧
      t.session.handler = .execSelect (some .reading) true (some (10 * 10^9)) ∧ t.age = 0 ∧
      (Machine.run (tick cappedGuest limits) t (overruns ++ [.pass (10^13)])).isSome = true :=
    Machine.runEnds (by decide +kernel)
  obtain ⟨t,reached,pc,age,onward⟩ := ends
  obtain ⟨u,onward⟩ := Option.isSome_iff_exists.mp onward
  refine ⟨t,u,reached,onward,?_⟩
  refine execWithin cappedGuest limits [.act execOpening] _ t u (some .reading) true (10 * 10^9) reached pc onward ?_
  rw [age]
  decide +kernel

def beside : Action → Bool
  | .pumpReads _ _ | .pumpEof _ | .pumpFails _ | .pumpSends _ | .writerTakes | .writerPuts _ | .writerFlushed
  | .writerFails | .writerStalls | .writerCancelled | .writerCloses | .supplies _ _ | .detaches _ | .exits _ => true
  | _ => false

theorem onStreamHandler {f side} {v : Session} (h : onStream f side s = some v) : v.handler = s.handler := by
  obtain ⟨x,_,rfl⟩ := Option.map_eq_some_iff.mp h
  simp

theorem onBoxHandler {f} {v : Session} (h : onBox f s = some v) : v.handler = s.handler := by
  unfold onBox at h
  split at h <;> try contradiction
  obtain ⟨x,_,rfl⟩ := Option.map_eq_some_iff.mp h
  rfl

theorem sendableHandler {f} {able : Bool} {v : Session} (h : (if able then onBox f s else none) = some v) :
    v.handler = s.handler := by
  split at h <;> try contradiction
  exact onBoxHandler h

theorem besideHandler {v : Session} (h : step env s a = some v) (other : beside a = true) : v.handler = s.handler := by
  cases a with
  | pumpReads side n => exact onStreamHandler h
  | pumpEof side => exact onStreamHandler h
  | pumpFails side => exact onStreamHandler h
  | supplies side raw => exact onStreamHandler h
  | detaches side => exact onStreamHandler h
  | pumpSends side => obtain ⟨_,_,_,_,rfl⟩ := pumpSendsCases h; simp
  | writerTakes => exact onBoxHandler h
  | writerPuts n => exact sendableHandler h
  | writerFlushed => exact sendableHandler h
  | writerFails => obtain ⟨_,_,rfl⟩ := writerGivesUpCases h; rfl
  | writerStalls => obtain ⟨_,_,rfl⟩ := writerGivesUpCases h; rfl
  | writerCancelled => obtain ⟨_,rfl⟩ := writerCancelledCases h; rfl
  | writerCloses => obtain ⟨_,_,_,_,rfl⟩ := writerClosesCases h; rfl
  | exits status => obtain ⟨_,rfl⟩ := exitsCases h; rfl
  | _ => cases other

-- The peer is gone: no further frame of its is read to the end.
def Mute : Action → Prop
  | .firstRead (.frame _) | .inbound (.frame _) => False
  | _ => True

def Serving (s : Session) : Prop := ¬ Unheard s ∧ ∀ req, s.handler ≠ .openpty req

theorem muteSteps {v : Session} (h : step env s a = some v) (serving : Serving s) (mute : Mute a) (accepted : Accepted s a) :
    Teardown v ∨ (beside a = true ∧ v.handler = s.handler) ∨ ∃ n, a = .accepts n := by
  cases a with
  | firstRead r =>
    obtain ⟨_,⟨_,rfl⟩ | ⟨_,msg,rfl⟩ | ⟨f,pid,deadline,rfl,_⟩ | ⟨f,req,rfl,_⟩⟩ := firstReadCases h
    · exact .inl (.inr rfl)
    · exact .inl (.inr rfl)
    · exact mute.elim
    · exact mute.elim
  | openptyReturns =>
    obtain ⟨req,_,pc,_⟩ := openptyCases h
    exact absurd pc (serving.2 req)
  | inbound r =>
    obtain ⟨stdin,deadline,pc,calm,⟨f,rfl,_⟩ | ⟨_,rfl⟩⟩ | ⟨pc,⟨f,rfl,_⟩ | ⟨_,fired,keeps,rfl⟩⟩ := inboundCases h
    · exact mute.elim
    · exact .inl (.inl rfl)
    · exact mute.elim
    · exact .inl (.inr rfl)
  | accepts n => exact .inr (.inr ⟨n,rfl⟩)
  | refuses =>
    obtain ⟨raw,stdin,deadline,pc,_⟩ | ⟨raw,pc,rfl⟩ := refusesCases h
    · exact absurd pc (accepted _ _ _)
    · exact .inl (.inr rfl)
  | stalls =>
    obtain ⟨raw,stdin,deadline,pc,_,rfl⟩ | ⟨raw,pc,rfl⟩ := stallsCases h
    · exact .inl (.inl rfl)
    · exact .inl (.inr rfl)
  | cancelArm => obtain ⟨_,_,_,_,rfl⟩ | ⟨_,_,rfl⟩ := cancelArmCases h <;> exact .inl (.inr rfl)
  | deadlineArm => obtain ⟨_,_,_,_,rfl⟩ := deadlineArmCases h; exact .inl (.inr rfl)
  | waitReady failed => obtain ⟨_,_,_,_,_,next,rfl⟩ := waitReadyCases h; exact .inl (.inr (endingBegun (afterWaitEnding next)))
  | reapLapse => obtain ⟨_,_,next,rfl⟩ := reapLapseCases h; exact .inl (.inr (endingBegun (afterWaitEnding next)))
  | hangupLapse => obtain ⟨_,rfl⟩ := hangupLapseCases h; exact .inl (.inr rfl)
  | drainJoined => obtain ⟨_,pc,_,rfl⟩ := drainJoinedCases h; exact .inl (.inr (endingBegun (afterDrainEnding pc)))
  | drainLapse => obtain ⟨_,pc,_,rfl⟩ := drainLapseCases h; exact .inl (.inr (endingBegun (afterDrainEnding pc)))
  | handSends => obtain ⟨_,_,_,_,rfl⟩ := handSendsCases h; exact .inl (.inr rfl)
  | writerJoined => obtain ⟨_,_,rfl⟩ := writerJoinedCases h; exact .inl (.inr rfl)
  | _ => exact .inr (.inl ⟨rfl,besideHandler h rfl⟩)

def silence (l : Limits) (t : Timed) : Nat :=
  match t.session.handler with
  | .execSelect (some (.writing _)) _ _ | .ptySelect (.writing _) => 2 * l.idle - t.waited
  | _ => l.idle - t.waited

theorem servingSame {v : Session} (pc : v.handler = s.handler) (serving : Serving s) : Serving v := by
  refine ⟨?_,by rw [pc]; exact serving.2⟩
  intro unheard
  obtain ⟨stdin,deadline,now⟩ := unheard
  exact serving.1 ⟨stdin,deadline,pc ▸ now⟩

def Deaf (t : Timed) : Event → Prop
  | .act a => Mute a ∧ Accepted t.session a
  | .pass _ => True

theorem besideKeeps {v : Session} (other : beside a = true) (same : v.handler = s.handler) : renews a s v = false := by
  cases a with
  | inbound r => cases other
  | accepts n => cases other
  | _ => simp [renews,same]

theorem silenceSame {v : Session} (pc : v.handler = t.session.handler) (kept : renews a t.session v = false) :
    silence l (after t a v) = silence l t := by
  simp only [silence,after,pc,kept,Bool.false_eq_true,if_false]

theorem acceptsServing {n} {v : Session} (h : accepts n s = some v) : Serving v := by
  obtain ⟨_,raw,_,_,⟨stdin,deadline,_,rfl⟩ | ⟨_,rfl⟩⟩ := acceptsCases h
  · exact ⟨by simp [Unheard],by simp⟩
  · exact ⟨by simp [Unheard],by simp⟩

theorem acceptsSilence {n} {v : Session} (timely : Timely env l t) (h : accepts n t.session = some v) :
    silence l (after t (.accepts n) v) ≤ silence l t := by
  have waits := (withinIff.mp timely.within).1
  have fits : ∀ raw : Bytes, Input.after n raw = .reading ∨ ∃ rest, Input.after n raw = .writing rest := by
    intro raw
    cases Input.after n raw with
    | reading => exact .inl rfl
    | writing rest => exact .inr ⟨rest,rfl⟩
  obtain ⟨_,raw,_,_,⟨stdin,deadline,pc,rfl⟩ | ⟨pc,rfl⟩⟩ := acceptsCases h
  all_goals
    have bound := waits l.idle (by rw [pc]; rfl)
    rcases fits raw with whole | ⟨rest,part⟩
    · simp only [silence,after,renews,pc,whole]
      simp only [if_true]
      omega
    · simp [silence,after,renews,pc,part]

theorem silentCounts : Counts env l (fun t => Serving t.session) Deaf (silence l) where
  act t a v timely calm serving able h := by
    refine ⟨?_,?_⟩
    · rcases moveCloses (l := l) (stepMove h) with same | less
      · rw [same]
      · omega
    · rcases muteSteps h serving able.1 able.2 with torn | ⟨other,same⟩ | ⟨n,rfl⟩
      · exact .inl torn
      · exact .inr ⟨servingSame same serving,(silenceSame same (besideKeeps other same)).le⟩
      · exact .inr ⟨acceptsServing h,acceptsSilence timely h⟩
  pass t d fits calm serving := by
    refine ⟨serving,?_⟩
    have waits := (withinIff.mp fits).1
    simp only [later] at waits
    unfold silence
    cases pc : t.session.handler with
    | execSelect input stdin deadline =>
      cases input with
      | none => exact absurd ⟨stdin,deadline,pc⟩ serving.1
      | some input => have ends := waits l.idle (by rw [pc]; rfl); cases input <;> simp [pc] <;> omega
    | ptySelect input => have ends := waits l.idle (by rw [pc]; rfl); cases input <;> simp [pc] <;> omega
    | readRequest => have ends := waits l.idle (by rw [pc]; rfl); simp [pc]; omega
    | openpty req => exact absurd pc (serving.2 req)
    | _ => exact absurd (.inr (by rw [pc]; rfl)) calm

-- A session whose peer has vanished ends, unless exec has stopped reading its peer or the pty is still being opened.
theorem silentWithin (env : Env) (l : Limits) (before events : List Event) (t u : Timed)
    (reached : Machine.run (tick env l) fresh before = some t) (serving : Serving t.session)
    (deaf : Machine.Along (tick env l) Deaf t events) (onward : Machine.run (tick env l) t events = some u)
    (slow : 2 * l.idle + hangupGrace + reapGrace + ptyGrace + l.write * (channelBound + 2) < Meter.spent cost events) :
    u.session.handler = .returned := by
  have timely := runTimely reached
  refine lastsWithin silentCounts timely (.inr serving) deaf onward ?_
  have most := settlingMost timely
  have own := closingMost t.session.handler
  have waits : silence l t ≤ 2 * l.idle := by
    unfold silence
    split <;> omega
  unfold lasting flushAll at *
  split <;> omega

def opened : List Event := ptyOpening.map .act
def vanishes : List Event :=
  [.pass (30 * 10^9),.act (.inbound .elapsed),.act .writerCancelled,.pass hangupGrace,.act .hangupLapse,
    .pass reapGrace,.act .reapLapse,.pass ptyGrace,.act .drainLapse,.act .handSends,.act .writerJoined]

theorem silentWithinOpened : ∃ t u, Machine.run (tick plainGuest limits) fresh opened = some t ∧
    Machine.run (tick plainGuest limits) t (vanishes ++ [.pass (10^13)]) = some u ∧ u.session.handler = .returned := by
  have ends : ∃ t, Machine.run (tick plainGuest limits) fresh opened = some t ∧ t.session.handler = .ptySelect .reading ∧
      (Machine.run (tick plainGuest limits) t (vanishes ++ [.pass (10^13)])).isSome = true :=
    Machine.runEnds (by decide +kernel)
  obtain ⟨t,reached,pc,onward⟩ := ends
  obtain ⟨u,onward⟩ := Option.isSome_iff_exists.mp onward
  refine ⟨t,u,reached,onward,?_⟩
  refine silentWithin plainGuest limits opened _ t u reached ⟨by simp [Unheard,pc],by simp [pc]⟩ ?_ onward (by decide +kernel)
  refine Machine.alongIff.mpr ?_
  intro pre e post w shape _
  have listed : e ∈ vanishes ++ [.pass (10^13)] := by
    rw [shape]
    simp
  simp only [vanishes,List.cons_append,List.nil_append,List.mem_cons,List.not_mem_nil,or_false] at listed
  rcases listed with rfl | rfl | rfl | rfl | rfl | rfl | rfl | rfl | rfl | rfl | rfl | rfl <;> simp [Deaf,Mute,Accepted]

def lapse : Action → Bool
  | .firstRead .elapsed | .inbound .elapsed | .stalls | .deadlineArm => true
  | a => expiry a

def level : Handler → Nat
  | .readRequest => 8
  | .execSelect _ _ _ | .ptySelect _ => 7
  | .hangupWait => 6
  | .abandon _ | .execReap _ | .hangupReap => 5
  | .execDrain .out _ _ => 4
  | .execDrain .err _ _ | .ptyDrain _ _ => 3
  | .sending _ => 2
  | .joinWriter => 1
  | _ => 0

def writerLevel (w : Outbox.Writer Frame UInt8) : Nat :=
  match w with
  | .exited => 0
  | .receiving => 1
  | .writing _ _ => 2

def chores (s : Session) : Nat :=
  3 * level s.handler + 2 * s.box.queue.length + writerLevel s.box.writer + if s.cancel then 0 else 1

theorem afterWaitLevel {raw h next} (armed : graceArmed h = true) (ok : afterWait raw h = some next) : level next < level h := by
  cases h <;> simp [graceArmed] at armed <;> cases Option.some.inj ok <;> simp [level]

theorem afterDrainLevel {h side} (pc : drainSide h = some side) : level (afterDrain h) < level h := by
  cases h with
  | execDrain side raw why => cases side <;> simp [afterDrain,level]
  | ptyDrain raw why => simp [afterDrain,level]
  | _ => simp [drainSide] at pc

theorem lowerLevel {v : Session} (less : level v.handler < level s.handler) (box : v.box = s.box)
    (fired : s.cancel = true → v.cancel = true) : chores v < chores s := by
  simp only [chores,box]
  cases was : s.cancel with
  | true => simp only [fired was,if_true]; omega
  | false => split <;> simp <;> omega

theorem leaveChores {v : Session} (alive : s.box.writer ≠ .exited) (pc : v.handler = s.handler)
    (left : v.box = Outbox.leave s.box) (fired : s.cancel = true → v.cancel = true) : chores v < chores s := by
  have less : 0 < writerLevel s.box.writer := by
    cases at_ : s.box.writer <;> first | exact absurd at_ alive | simp [writerLevel]
  have gone : writerLevel (Outbox.leave s.box).writer = 0 := rfl
  have none : (Outbox.leave s.box).queue.length = 0 := rfl
  simp only [chores,pc,left,gone,none]
  cases was : s.cancel with
  | true => simp only [fired was,if_true]; omega
  | false => split <;> simp <;> omega

theorem fireChores {v : Session} (pc : level v.handler = level s.handler) (box : v.box = s.box) (calm : s.cancel = false)
    (fired : v.cancel = true) : chores v < chores s := by
  simp [chores,pc,box,calm,fired]

theorem ownLowers {v : Session} (h : step env s a = some v) (own : internal a = true ∨ lapse a = true) : chores v < chores s := by
  cases a with
  | firstRead r =>
    cases r with
    | elapsed =>
      have opened : firstRead env .elapsed s = some v := h
      obtain ⟨pc,⟨_,rfl⟩ | ⟨⟨now,_⟩,_⟩ | ⟨_,_,_,now,_⟩ | ⟨_,_,now,_⟩⟩ := firstReadCases opened
      · exact lowerLevel (by simp [pc,level]) rfl id
      · exact absurd rfl now
      · cases now
      · cases now
    | _ => simp [internal,lapse,expiry] at own
  | inbound r =>
    cases r with
    | elapsed =>
      have heard : inbound env .elapsed s = some v := h
      obtain ⟨stdin,deadline,pc,calm,⟨f,now,_⟩ | ⟨_,rfl⟩⟩ | ⟨pc,⟨f,now,_⟩ | ⟨_,fired,keeps,rfl⟩⟩ := inboundCases heard
      · cases now
      · exact fireChores (by simp [pc,level]) rfl calm rfl
      · cases now
      · exact lowerLevel (by simp [pc,level]) (by simp) (by simpa using keeps)
    | _ => simp [internal,lapse,expiry] at own
  | stalls =>
    obtain ⟨raw,stdin,deadline,pc,calm,rfl⟩ | ⟨raw,pc,rfl⟩ := stallsCases h
    · exact fireChores (by simp [pc,level]) rfl calm rfl
    · exact lowerLevel (by simp [pc,level]) (by simp) (by simp)
  | deadlineArm => obtain ⟨_,_,_,pc,rfl⟩ := deadlineArmCases h; exact lowerLevel (by simp [pc,level]) (by simp) (by simp)
  | cancelArm =>
    obtain ⟨_,_,_,pc,rfl⟩ | ⟨_,pc,rfl⟩ := cancelArmCases h
    · exact lowerLevel (by simp [pc,level]) (by simp) (by simp)
    · exact lowerLevel (by simp [pc,level]) (by simp) (by simp)
  | reapLapse => obtain ⟨armed,_,next,rfl⟩ := reapLapseCases h; exact lowerLevel (afterWaitLevel armed next) rfl id
  | hangupLapse => obtain ⟨pc,rfl⟩ := hangupLapseCases h; exact lowerLevel (by simp [pc,level]) (by simp) (by simp)
  | drainJoined => obtain ⟨_,pc,_,rfl⟩ := drainJoinedCases h; exact lowerLevel (afterDrainLevel pc) rfl id
  | drainLapse => obtain ⟨_,pc,_,rfl⟩ := drainLapseCases h; exact lowerLevel (afterDrainLevel pc) (by simp) (by simp)
  | handSends =>
    obtain ⟨f,box,pc,ok,rfl⟩ := handSendsCases h
    obtain ⟨_,rfl⟩ | ⟨_,_,rfl⟩ := Outbox.offerCases ok
    · simp [chores,pc,level]
    · simp [chores,pc,level]
      omega
  | writerJoined => obtain ⟨pc,_,rfl⟩ := writerJoinedCases h; exact lowerLevel (by simp [pc,level]) rfl id
  | writerTakes =>
    simp only [step,onBox] at h
    split at h <;> try contradiction
    obtain ⟨box,took,rfl⟩ := Option.map_eq_some_iff.mp h
    obtain ⟨f,rest,idle,shape,rfl⟩ := Outbox.takeCases took
    simp [chores,idle,shape,writerLevel]
    omega
  | writerStalls =>
    obtain ⟨_,busy,rfl⟩ := writerGivesUpCases h
    exact leaveChores (by intro gone; simp [gone,writing] at busy) rfl rfl (fun _ => rfl)
  | writerCancelled =>
    have alive : s.box.writer ≠ .exited := by
      intro gone
      simp [step,writerCancelled,gone] at h
    obtain ⟨_,rfl⟩ := writerCancelledCases h
    exact leaveChores alive rfl rfl id
  | writerCloses =>
    obtain ⟨_,idle,_,_,rfl⟩ := writerClosesCases h
    exact leaveChores (by simp [idle]) rfl rfl id
  | _ => simp [internal,lapse,expiry] at own

def own : Event → Bool
  | .act a => internal a || lapse a
  | .pass _ => true

theorem parkedCalm (still : parked env s = true) (selecting : begun s.handler = false) (opened : early s.handler = false) :
    s.cancel = false := by
  by_contra fired
  have stuck := parkedStuck still (a := .cancelArm) rfl
  cases pc : s.handler with
  | execSelect input stdin deadline => simp [step,cancelArm,fired,pc] at stuck
  | ptySelect input => simp [step,cancelArm,fired,pc] at stuck
  | readRequest | openpty => rw [pc] at opened; cases opened
  | _ => rw [pc] at selecting; cases selecting

theorem expires (drainable : Drainable s) (still : parked env s = true) {p} (bound : patience l s.handler = some p) :
    ∃ a v, lapse a = true ∧ step env s a = some v ∧ ∀ t, t.session = s → p ≤ t.waited → due l t a = true := by
  have ready : ∀ {a}, (∀ t : Timed, due l t a = (patience l t.session.handler).all (· ≤ t.waited)) → lapse a = true →
      (step env s a).isSome = true → ∃ a v, lapse a = true ∧ step env s a = some v ∧
        ∀ t, t.session = s → p ≤ t.waited → due l t a = true := by
    intro a same exp able
    obtain ⟨v,h⟩ := Option.isSome_iff_exists.mp able
    refine ⟨a,v,exp,h,?_⟩
    intro t pc reached
    rw [same,pc,bound]
    simpa using reached
  have drains : ∀ {side}, drainSide s.handler = some side → hushed s.handler side = false →
      (step env s .drainLapse).isSome = true := by
    intro side pc pending
    rcases drainable side pending with live | done
    · simp [step,drainLapse,pc,live]
    · have stuck := parkedStuck still (a := .drainJoined) rfl
      simp [step,drainJoined,pc,done] at stuck
  cases pc : s.handler with
  | readRequest => exact ready (fun _ => rfl) (a := .firstRead .elapsed) rfl (by simp [step,firstRead,pc])
  | execSelect input stdin deadline =>
    have calm := parkedCalm still (by rw [pc]; rfl) (by rw [pc]; rfl)
    cases input with
    | none => rw [pc] at bound; cases bound
    | some input =>
      cases input with
      | reading => exact ready (fun _ => rfl) (a := .inbound .elapsed) rfl (by simp [step,inbound,pc,calm])
      | writing rest => exact ready (fun _ => rfl) (a := .stalls) rfl (by simp [step,stalls,pc,calm])
  | ptySelect input =>
    have calm := parkedCalm still (by rw [pc]; rfl) (by rw [pc]; rfl)
    cases input with
    | reading => exact ready (fun _ => rfl) (a := .inbound .elapsed) rfl (by simp [step,inbound,pc])
    | writing rest => exact ready (fun _ => rfl) (a := .stalls) rfl (by simp [step,stalls,pc,calm])
  | abandon msg | execReap why | hangupReap =>
    exact ready (fun _ => rfl) (a := .reapLapse) rfl (by simp [step,reapLapse,graceArmed,afterWait,pc])
  | hangupWait => exact ready (fun _ => rfl) (a := .hangupLapse) rfl (by simp [step,hangupLapse,pc])
  | execDrain side raw why =>
    exact ready (fun _ => rfl) (a := .drainLapse) rfl (@drains side (by rw [pc]; rfl) (by rw [pc]; cases side <;> rfl))
  | ptyDrain raw why =>
    exact ready (fun _ => rfl) (a := .drainLapse) rfl (@drains .out (by rw [pc]; rfl) (by rw [pc]; rfl))
  | openpty | sending | joinWriter | returned => rw [pc] at bound; cases bound

theorem deadlineReady (still : parked env t.session = true) {d} (bound : deadlineOf t.session.handler = some d) (past : d ≤ t.age) :
    ∃ v, tick env l t (.act .deadlineArm) = some (after t .deadlineArm v) ∧ step env t.session .deadlineArm = some v := by
  have able : (step env t.session .deadlineArm).isSome = true := by
    cases pc : t.session.handler with
    | execSelect input stdin deadline =>
      have calm := parkedCalm still (by rw [pc]; rfl) (by rw [pc]; rfl)
      rw [pc] at bound
      cases bound
      simp [step,deadlineArm,pc,calm]
    | _ => rw [pc] at bound; cases bound
  obtain ⟨v,h⟩ := Option.isSome_iff_exists.mp able
  exact ⟨v,by simp [tick,due,bound,past,h],h⟩

theorem internalDue (on : internal a = true) : due l t a = true := by
  revert on
  cases a <;> simp [internal,due]

theorem stallReady (still : parked env t.session = true) (busy : writing t.session.box.writer = true) (spent : l.write ≤ t.busy) :
    ∃ v, tick env l t (.act .writerStalls) = some (after t .writerStalls v) ∧ step env t.session .writerStalls = some v := by
  have calm : t.session.cancel = false := by
    by_contra fired
    have alive : t.session.box.writer ≠ .exited := by
      intro gone
      simp [gone,writing] at busy
    have stuck := parkedStuck still (a := .writerCancelled) rfl
    simp [step,writerCancelled,fired,alive] at stuck
  refine ⟨{t.session.fire with box := Outbox.leave t.session.box},?_,?_⟩
  · simp [tick,due,spent,step,writerGivesUp,calm,busy]
  · simp [step,writerGivesUp,calm,busy]

theorem ownMoves (timely : Timely env l t) :
    (∃ a v, (internal a = true ∨ lapse a = true) ∧ step env t.session a = some v ∧
      tick env l t (.act a) = some (after t a v)) ∨ tick env l t (.pass 1) = some (later t 1) := by
  obtain ⟨past,reached⟩ := timely.reached
  cases still : parked env t.session with
  | false =>
    obtain ⟨a,listed,able⟩ := List.all_eq_false.mp still
    obtain ⟨v,h⟩ := Option.ne_none_iff_exists'.mp (by simpa using able)
    have on : internal a = true := by
      simp only [internals,List.mem_cons,List.not_mem_nil,or_false] at listed
      rcases listed with rfl | rfl | rfl | rfl | rfl | rfl | rfl <;> rfl
    exact .inl ⟨a,v,.inl on,h,by simp [tick,internalDue on,h]⟩
  | true =>
    cases fits : within l (later t 1) with
    | true => exact .inr (by simp only [tick,still,fits,and_self,if_true])
    | false =>
      left
      by_cases spent : writing t.session.box.writer = true ∧ l.write ≤ t.busy
      · obtain ⟨v,went,h⟩ := stallReady still spent.1 spent.2
        exact ⟨_,v,.inr rfl,h,went⟩
      by_cases lapsed : ∃ p, patience l t.session.handler = some p ∧ p ≤ t.waited
      · obtain ⟨p,bound,full⟩ := lapsed
        obtain ⟨a,v,exp,h,ready⟩ := expires (reachedDrainable reached) still bound
        exact ⟨a,v,.inr exp,h,by simp [tick,ready t rfl full,h]⟩
      by_cases ended : ∃ d, deadlineOf t.session.handler = some d ∧ d ≤ t.age
      · obtain ⟨d,bound,full⟩ := ended
        obtain ⟨v,went,h⟩ := @deadlineReady env l t still d bound full
        exact ⟨_,v,.inr rfl,h,went⟩
      refine absurd (withinIff.mpr ⟨?_,?_,?_⟩) (Bool.eq_false_iff.mp fits)
      · intro p bound
        by_contra full
        simp only [later] at bound full
        exact lapsed ⟨p,bound,by omega⟩
      · intro d bound
        by_contra full
        simp only [later] at bound full
        exact ended ⟨d,bound,by omega⟩
      · intro busy
        by_contra full
        simp only [later] at busy full
        exact spent ⟨busy,by omega⟩

/- Once teardown has begun, the session's own steps and timers bring it to its end, whatever
the peer, the child and the pipes leave undone. -/
theorem teardownSettles (env : Env) (l : Limits) (before : List Event) (t : Timed)
    (reached : Machine.run (tick env l) fresh before = some t) (torn : Teardown t.session) :
    ∃ events u, (∀ e ∈ events, own e = true) ∧ Machine.run (tick env l) t events = some u ∧ u.session.handler = .returned := by
  have move : ∀ v, (Timely env l v ∧ Teardown v.session) → v.session.handler = .returned ∨
      ∃ e w, own e = true ∧ tick env l v e = some w ∧ (Timely env l w ∧ Teardown w.session) ∧
        toLex (chores w.session,settling l w) < toLex (chores v.session,settling l v) := by
    intro v holds
    by_cases more : v.session.handler = .returned
    · exact .inl more
    right
    rcases ownMoves holds.1 with ⟨a,w,able,h,went⟩ | went
    · refine ⟨.act a,after v a w,by simpa [own] using able,went,⟨tickTimely holds.1 went,teardownStays (stepMove h) holds.2⟩,?_⟩
      exact Prod.Lex.toLex_lt_toLex.mpr (.inl (ownLowers h able))
    · have paid := settlingPays holds.1 holds.2 more went
      refine ⟨.pass 1,later v 1,rfl,went,⟨tickTimely holds.1 went,holds.2⟩,?_⟩
      refine Prod.Lex.toLex_lt_toLex.mpr (.inr ⟨rfl,?_⟩)
      simp only [cost] at paid
      omega
  obtain ⟨events,u,all,went,_,done⟩ :=
    Machine.runSettles (fun t => toLex (chores t.session,settling l t)) move ⟨runTimely reached,torn⟩
  exact ⟨events,u,all,went,done⟩

theorem teardownSettlesLingering : ∃ t, Machine.run (tick plainGuest limits) fresh lingering = some t ∧
    ∃ events u, (∀ e ∈ events, own e = true) ∧ Machine.run (tick plainGuest limits) t events = some u ∧
      u.session.handler = .returned := by
  have ends : ∃ t, Machine.run (tick plainGuest limits) fresh lingering = some t ∧ Teardown t.session :=
    Machine.runEnds (by decide +kernel)
  obtain ⟨t,reached,torn⟩ := ends
  exact ⟨t,reached,teardownSettles plainGuest limits lingering t reached torn⟩

end Guesthopper.SessionBounds
