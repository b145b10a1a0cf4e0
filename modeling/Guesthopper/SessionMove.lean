import Guesthopper.SessionModel

/-! What one enabled action can do to a session, said once. Every invariant of the
session is proved by cases on `Move`; the guards it keeps are the ones the code has. -/
namespace Guesthopper.SessionMove
open FrameBytes SessionText SessionModel
open Outbox (Box)
open Tap (Stream)

section Fields
variable (s : Session) (signal : Signal) (group : Option Nat) (side : Side) (t : Stream UInt8)

@[simp] theorem signalGroupPty : (s.signalGroup signal group).pty = s.pty := by cases group <;> rfl
@[simp] theorem signalGroupChild : (s.signalGroup signal group).child = s.child := by cases group <;> rfl
@[simp] theorem signalGroupOut : (s.signalGroup signal group).out = s.out := by cases group <;> rfl
@[simp] theorem signalGroupErr : (s.signalGroup signal group).err = s.err := by cases group <;> rfl
@[simp] theorem signalGroupBox : (s.signalGroup signal group).box = s.box := by cases group <;> rfl
@[simp] theorem signalGroupCancel : (s.signalGroup signal group).cancel = s.cancel := by cases group <;> rfl
@[simp] theorem signalGroupFeed : (s.signalGroup signal group).feed = s.feed := by cases group <;> rfl
@[simp] theorem signalGroupFirst : (s.signalGroup signal group).first = s.first := by cases group <;> rfl
@[simp] theorem signalGroupReap : (s.signalGroup signal group).reap = s.reap := by cases group <;> rfl
@[simp] theorem signalGroupSent :
    (s.signalGroup signal group).sent = s.sent ++ group.toList.map (fun pid => ⟨signal,pid,s.child.life⟩) := by
  cases group <;> simp [Session.signalGroup]

@[simp] theorem dropStdinHandler : s.dropStdin.handler = s.handler := rfl
@[simp] theorem dropStdinCancel : s.dropStdin.cancel = s.cancel := rfl
@[simp] theorem dropStdinSent : s.dropStdin.sent = s.sent := rfl
@[simp] theorem dropStdinFirst : s.dropStdin.first = s.first := rfl

@[simp] theorem setStreamHandler : (s.setStream side t).handler = s.handler := by cases side <;> rfl
@[simp] theorem setStreamPty : (s.setStream side t).pty = s.pty := by cases side <;> rfl
@[simp] theorem setStreamChild : (s.setStream side t).child = s.child := by cases side <;> rfl
@[simp] theorem setStreamBox : (s.setStream side t).box = s.box := by cases side <;> rfl
@[simp] theorem setStreamCancel : (s.setStream side t).cancel = s.cancel := by cases side <;> rfl
@[simp] theorem setStreamSent : (s.setStream side t).sent = s.sent := by cases side <;> rfl
@[simp] theorem setStreamFirst : (s.setStream side t).first = s.first := by cases side <;> rfl
@[simp] theorem setStreamReap : (s.setStream side t).reap = s.reap := by cases side <;> rfl

theorem setStreamOwn : (s.setStream side t).stream side = t := by
  cases side <;> rfl

end Fields

theorem setStreamOther {s : Session} {which side : Side} (different : which ≠ side) (u : Stream UInt8) :
    (s.setStream which u).stream side = s.stream side := by
  cases which <;> cases side <;> first | contradiction | rfl

theorem setStreamEach {s : Session} {which side : Side} {u : Stream UInt8} {P : Stream UInt8 → Prop}
    (own : which = side → P u) (other : which ≠ side → P (s.stream side)) :
    P ((s.setStream which u).stream side) := by
  by_cases same : which = side
  · subst same
    rw [setStreamOwn]
    exact own rfl
  · rw [setStreamOther same]
    exact other same

inductive TapMove (side : Side) (t : Stream UInt8) : Action → Stream UInt8 → Prop where
  | read {n u} (ok : Tap.read readChunk n t = some u) : TapMove side t (.pumpReads side n) u
  | eof {u} (ok : Tap.eof t = some u) : TapMove side t (.pumpEof side) u
  | fail {u} (ok : Tap.fail t = some u) : TapMove side t (.pumpFails side) u
  | supply {raw u} (ok : Tap.supply raw t = some u) : TapMove side t (.supplies side raw) u
  | detach {u} (ok : Tap.detach t = some u) : TapMove side t (.detaches side) u

inductive BoxMove (b : Box Frame UInt8) : Box Frame UInt8 → Prop where
  | take {c} (ok : Outbox.take encode b = some c) : BoxMove b c
  | put {n c} (ok : Outbox.put n b = some c) (fits : sendable b.writer) : BoxMove b c
  | finish {c} (ok : Outbox.finish b = some c) (fits : sendable b.writer) : BoxMove b c

inductive Move (env : Env) (s : Session) : Action → Session → Prop where
  | firstQuiet {r} (pc : s.handler = .readRequest) (quiet : r = .elapsed ∨ r = .eof) :
      Move env s (.firstRead r) {s with first := some r, handler := .joinWriter}
  | firstRefused {r} (msg) (pc : s.handler = .readRequest) (loud : r ≠ .elapsed ∧ r ≠ .eof) :
      Move env s (.firstRead r) {s with first := some r, handler := .sending (errorFrame msg)}
  | firstExec {f pid deadline} (pc : s.handler = .readRequest) (ok : drive env f = .exec pid deadline) :
      Move env s (.firstRead (.frame f)) {s with
        first := some (.frame f), handler := .execSelect (some .reading) true deadline,
        child := ⟨pid,.running⟩, out := Tap.opened, err := Tap.opened}
  | firstPty {f req} (pc : s.handler = .readRequest) (ok : drive env f = .openPty req) :
      Move env s (.firstRead (.frame f)) {s with first := some (.frame f), handler := .openpty req}
  | ptyRefused {req} (msg feed) (pc : s.handler = .openpty req) :
      Move env s .openptyReturns {s with feed := feed, handler := .sending (errorFrame msg)}
  | ptyAbandoned {req} (msg pid feed) (pc : s.handler = .openpty req) :
      Move env s .openptyReturns {s with
        feed := feed, child := ⟨pid,.running⟩, sent := s.sent ++ [⟨.kill,pid,.running⟩],
        handler := .abandon msg}
  | ptyServing {req} (pid feed) (pc : s.handler = .openpty req) :
      Move env s .openptyReturns {s with
        feed := feed, handler := .ptySelect .reading, pty := true, child := ⟨pid,.running⟩,
        out := Tap.opened}
  | execStays {a i stdin deadline} (j still feed) (pc : s.handler = .execSelect (some i) stdin deadline)
      (calm : s.cancel = false) (other : a ≠ .refuses) :
      Move env s a {s with feed := feed, handler := .execSelect (some j) still deadline}
  | execLost {a i stdin deadline feed} (pc : s.handler = .execSelect (some i) stdin deadline)
      (calm : s.cancel = false) (other : a ≠ .refuses) :
      Move env s a {s with cancel := true, feed := feed, handler := .execSelect none stdin deadline}
  | execRefused {rest stdin deadline feed} (pc : s.handler = .execSelect (some (.writing rest)) stdin deadline)
      (calm : s.cancel = false) :
      Move env s .refuses {s with feed := feed, handler := .execSelect none stdin deadline}
  | ptyStays {a i} (j feed) (pc : s.handler = .ptySelect i) :
      Move env s a {s with feed := feed, handler := .ptySelect j}
  | ptyLost {a i} (fired : Bool) (pc : s.handler = .ptySelect i) (keeps : s.cancel = true → fired = true) :
      Move env s a (hangup {s with cancel := fired})
  | execKilled {a i stdin deadline} (why) (pc : s.handler = .execSelect i stdin deadline) :
      Move env s a ((s.signalGroup .kill (some s.child.pid)).go (.execReap why))
  | waited {failed raw child handler feed} (got : wait failed s.child = some (raw,child))
      (free : preempted s = false) (next : afterWait raw s.handler = some handler) :
      Move env s (.waitReady failed) {s with feed := feed, handler := handler, child := child, reap := some raw}
  | reapLapsed {handler feed} (armed : graceArmed s.handler) (next : afterWait .timedOut s.handler = some handler) :
      Move env s .reapLapse {s with feed := feed, handler := handler, reap := some .timedOut}
  | hangupLapsed (pc : s.handler = .hangupWait) :
      Move env s .hangupLapse ((s.signalGroup .kill s.child.id).go .hangupReap)
  | drainJoined {side} (pc : drainSide s.handler = some side) (done : (s.stream side).phase = .finished) :
      Move env s .drainJoined {s with handler := afterDrain s.handler}
  | drainLapsed {side} (pc : drainSide s.handler = some side) (live : Tap.live (s.stream side)) :
      Move env s .drainLapse ((s.setStream side (Tap.abort (s.stream side))).go (afterDrain s.handler))
  | handSent {f box} (pc : s.handler = .sending f) (ok : Outbox.offer channelBound f s.box = some box) :
      Move env s .handSends {s with box := box, handler := .joinWriter}
  | joined (pc : s.handler = .joinWriter) (gone : s.box.writer = .exited) :
      Move env s .writerJoined {s with handler := .returned}
  | streamMoved {a t} (side) (ok : TapMove side (s.stream side) a t) : Move env s a (s.setStream side t)
  | pumpSent {side chunk box} (t) (holds : (s.stream side).phase = .holding chunk)
      (ok : Outbox.offer channelBound ⟨side.ftype,chunk⟩ s.box = some box)
      (next : t = if s.pty ∧ s.box.writer = .exited then Tap.stop (s.stream side) else Tap.release (s.stream side)) :
      Move env s (.pumpSends side) {(s.setStream side t) with box := box}
  | writerMoved {a box} (calm : s.cancel = false) (ok : BoxMove s.box box) : Move env s a {s with box := box}
  | writerGaveUp {a} (calm : s.cancel = false) (busy : writing s.box.writer) :
      Move env s a {s with cancel := true, box := Outbox.leave s.box}
  | writerCancelled (fired : s.cancel = true) :
      Move env s .writerCancelled {s with box := Outbox.leave s.box}
  | writerClosed (calm : s.cancel = false) (idle : s.box.writer = .receiving) (drained : s.box.queue = [])
      (gone : sendersGone s) : Move env s .writerCloses {s with box := Outbox.leave s.box}
  | exited {status} (alive : s.child.life = .running) :
      Move env s (.exits status) {s with child := ⟨s.child.pid,.zombie status⟩}

variable {env : Env} {s t : Session}

theorem dropStdinFeed (s : Session) : s.dropStdin.feed = s.feed ∨ .close ∉ s.feed ∧ s.dropStdin.feed = s.feed ++ [.close] := by
  simp only [Session.dropStdin]
  split
  · exact .inl rfl
  · rename_i open'
    exact .inr ⟨open',rfl⟩

theorem endSelectFeed (s : Session) : (endSelect s).feed = s.feed ∨
    ofExec s.handler = true ∧ .close ∉ s.feed ∧ (endSelect s).feed = s.feed ++ [.close] := by
  simp only [endSelect]
  split
  · rename_i exec
    exact (dropStdinFeed s).imp_right fun dropped => ⟨exec,dropped⟩
  · exact .inl rfl

theorem firstReadCases {r} (h : firstRead env r s = some t) : s.handler = .readRequest ∧
    (((r = .elapsed ∨ r = .eof) ∧ t = {s with first := some r, handler := .joinWriter}) ∨
    ((r ≠ .elapsed ∧ r ≠ .eof) ∧ ∃ msg, t = {s with first := some r, handler := .sending (errorFrame msg)}) ∨
    (∃ f pid deadline, r = .frame f ∧ drive env f = .exec pid deadline ∧ t = {s with
      first := some (.frame f), handler := .execSelect (some .reading) true deadline,
      child := ⟨pid,.running⟩, out := Tap.opened, err := Tap.opened}) ∨
    ∃ f req, r = .frame f ∧ drive env f = .openPty req ∧ t = {s with first := some (.frame f), handler := .openpty req}) := by
  unfold firstRead at h
  split at h <;> try contradiction
  rename_i pc
  refine ⟨pc,?_⟩
  cases r with
  | elapsed => cases Option.some.inj h; exact .inl ⟨.inl rfl,rfl⟩
  | eof => cases Option.some.inj h; exact .inl ⟨.inr rfl,rfl⟩
  | error e => cases Option.some.inj h; exact .inr (.inl ⟨by simp,_,rfl⟩)
  | oversize len cap => cases Option.some.inj h; exact .inr (.inl ⟨by simp,_,rfl⟩)
  | frame f =>
    simp only at h
    split at h
    · cases Option.some.inj h; exact .inr (.inl ⟨by simp,_,rfl⟩)
    · cases Option.some.inj h; exact .inr (.inr (.inl ⟨f,_,_,rfl,by assumption,rfl⟩))
    · cases Option.some.inj h; exact .inr (.inr (.inr ⟨f,_,rfl,by assumption,rfl⟩))

theorem firstReadMove {r} (h : firstRead env r s = some t) : Move env s (.firstRead r) t := by
  obtain ⟨pc,⟨quiet,rfl⟩ | ⟨loud,msg,rfl⟩ | ⟨f,pid,deadline,rfl,ok,rfl⟩ | ⟨f,req,rfl,ok,rfl⟩⟩ := firstReadCases h
  · exact .firstQuiet pc quiet
  · exact .firstRefused msg pc loud
  · exact .firstExec pc ok
  · exact .firstPty pc ok

theorem openptyCases (h : openptyReturns env s = some t) : ∃ req feed, s.handler = .openpty req ∧
    ((∃ msg, t = {s with feed := feed, handler := .sending (errorFrame msg)}) ∨
    (∃ msg pid, t = {s with feed := feed, child := ⟨pid,.running⟩, sent := s.sent ++ [⟨.kill,pid,.running⟩], handler := .abandon msg}) ∨
    ∃ pid, t = {s with
      feed := feed, handler := .ptySelect .reading, pty := true, child := ⟨pid,.running⟩, out := Tap.opened}) := by
  unfold openptyReturns at h
  split at h <;> try contradiction
  rename_i req pc
  have feed : ∃ feed, (if env.openpty = .pair then
      {s with feed := s.feed ++ [.winsize (req.rows.getD 24) (req.cols.getD 80)]} else s) = {s with feed := feed} := by
    split
    · exact ⟨_,rfl⟩
    · exact ⟨s.feed,rfl⟩
  obtain ⟨feed,same⟩ := feed
  simp only [same] at h
  refine ⟨req,feed,pc,?_⟩
  split at h
  · cases Option.some.inj h; exact .inl ⟨_,rfl⟩
  · cases Option.some.inj h; exact .inr (.inl ⟨_,_,rfl⟩)
  · cases Option.some.inj h; exact .inr (.inr ⟨_,rfl⟩)

theorem openptyMove (h : openptyReturns env s = some t) : Move env s .openptyReturns t := by
  obtain ⟨req,feed,pc,⟨msg,rfl⟩ | ⟨msg,pid,rfl⟩ | ⟨pid,rfl⟩⟩ := openptyCases h
  · exact .ptyRefused msg feed pc
  · exact .ptyAbandoned msg pid feed pc
  · exact .ptyServing pid feed pc

theorem execFrameMove {a stdin deadline f} (pc : s.handler = .execSelect (some .reading) stdin deadline)
    (calm : s.cancel = false) (other : a ≠ .refuses) : Move env s a (execFrame stdin deadline f s) := by
  have unchanged : Move env s a s := by
    have moved : Move env s a _ := .execStays .reading stdin s.feed pc calm other
    rwa [← pc] at moved
  unfold execFrame
  split
  · split
    · exact .execStays _ _ _ pc calm other
    · exact unchanged
  · split
    · exact .execStays _ _ _ pc calm other
    · exact unchanged

theorem ptyFrameMove {a f} (pc : s.handler = .ptySelect .reading) : Move env s a (ptyFrame env f s) := by
  have fed : ∀ feed, Move env s a {s with feed := feed} := by
    intro feed
    have moved : Move env s a _ := .ptyStays .reading feed pc
    rwa [← pc] at moved
  unfold ptyFrame
  split
  · split
    · exact .ptyStays _ _ pc
    · exact fed s.feed
  · split
    · split
      · exact fed _
      · exact fed s.feed
    · exact fed s.feed

theorem inboundCases {r} (h : inbound env r s = some t) :
    (∃ stdin deadline, s.handler = .execSelect (some .reading) stdin deadline ∧ s.cancel = false ∧
      ((∃ f, r = .frame f ∧ t = execFrame stdin deadline f s) ∨
        ((∀ f, r ≠ .frame f) ∧ t = (s.fire.go (.execSelect none stdin deadline)).dropStdin))) ∨
    (s.handler = .ptySelect .reading ∧
      ((∃ f, r = .frame f ∧ t = ptyFrame env f s) ∨
        ((∀ f, r ≠ .frame f) ∧ ∃ fired, (s.cancel = true → fired = true) ∧ t = hangup {s with cancel := fired}))) := by
  unfold inbound at h
  split at h
  · rename_i stdin deadline pc
    split at h <;> try contradiction
    rename_i calm
    refine .inl ⟨stdin,deadline,pc,by simpa using calm,?_⟩
    cases r with
    | frame f => exact .inl ⟨f,rfl,(Option.some.inj h).symm⟩
    | eof | error e | oversize len cap | elapsed => exact .inr ⟨by simp,(Option.some.inj h).symm⟩
  · rename_i pc
    refine .inr ⟨pc,?_⟩
    cases r with
    | frame f => exact .inl ⟨f,rfl,(Option.some.inj h).symm⟩
    | elapsed => exact .inr ⟨by simp,true,fun _ => rfl,(Option.some.inj h).symm⟩
    | eof | error e | oversize len cap => exact .inr ⟨by simp,s.cancel,id,(Option.some.inj h).symm⟩
  · contradiction

theorem inboundMove {r} (h : inbound env r s = some t) : Move env s (.inbound r) t := by
  obtain ⟨stdin,deadline,pc,calm,⟨f,_,rfl⟩ | ⟨_,rfl⟩⟩ | ⟨pc,⟨f,_,rfl⟩ | ⟨_,fired,keeps,rfl⟩⟩ := inboundCases h
  · exact execFrameMove pc calm (by simp)
  · exact .execLost pc calm (by simp)
  · exact ptyFrameMove pc
  · exact .ptyLost fired pc keeps

theorem acceptsCases {n} (h : accepts n s = some t) : s.cancel = false ∧ ∃ raw, 0 < n ∧ n ≤ raw.length ∧
    ((∃ stdin deadline, s.handler = .execSelect (some (.writing raw)) stdin deadline ∧ t = {s with
        handler := .execSelect (some (Input.after n raw)) stdin deadline, feed := s.feed ++ [.bytes (raw.take n)]}) ∨
      (s.handler = .ptySelect (.writing raw) ∧ t = {s with
        handler := .ptySelect (Input.after n raw), feed := s.feed ++ [.bytes (raw.take n)]})) := by
  unfold accepts at h
  split at h <;> try contradiction
  · rename_i raw stdin deadline pc
    split at h <;> try contradiction
    rename_i able
    exact ⟨able.2.2,raw,able.1,able.2.1,.inl ⟨stdin,deadline,pc,(Option.some.inj h).symm⟩⟩
  · rename_i raw pc
    split at h <;> try contradiction
    rename_i able
    exact ⟨able.2.2,raw,able.1,able.2.1,.inr ⟨pc,(Option.some.inj h).symm⟩⟩

theorem acceptsMove {n} (h : accepts n s = some t) : Move env s (.accepts n) t := by
  obtain ⟨calm,raw,_,_,⟨stdin,deadline,pc,rfl⟩ | ⟨pc,rfl⟩⟩ := acceptsCases h
  · exact .execStays _ _ _ pc calm (by simp)
  · exact .ptyStays _ _ pc

theorem refusesCases (h : refuses s = some t) :
    (∃ raw stdin deadline, s.handler = .execSelect (some (.writing raw)) stdin deadline ∧ s.cancel = false ∧
      t = (s.go (.execSelect none stdin deadline)).dropStdin) ∨
    (∃ raw, s.handler = .ptySelect (.writing raw) ∧ t = hangup {s with cancel := s.cancel}) := by
  unfold refuses at h
  split at h <;> try contradiction
  · rename_i raw stdin deadline pc
    split at h <;> try contradiction
    rename_i calm
    exact .inl ⟨raw,stdin,deadline,pc,by simpa using calm,(Option.some.inj h).symm⟩
  · rename_i raw pc
    split at h <;> try contradiction
    exact .inr ⟨raw,pc,(Option.some.inj h).symm⟩

theorem refusesMove (h : refuses s = some t) : Move env s .refuses t := by
  obtain ⟨raw,stdin,deadline,pc,calm,rfl⟩ | ⟨raw,pc,rfl⟩ := refusesCases h
  · exact .execRefused pc calm
  · exact .ptyLost s.cancel pc id

theorem stallsCases (h : stalls s = some t) :
    (∃ raw stdin deadline, s.handler = .execSelect (some (.writing raw)) stdin deadline ∧ s.cancel = false ∧
      t = (s.fire.go (.execSelect none stdin deadline)).dropStdin) ∨
    (∃ raw, s.handler = .ptySelect (.writing raw) ∧ t = hangup {s with cancel := true}) := by
  unfold stalls at h
  split at h <;> try contradiction
  · rename_i raw stdin deadline pc
    split at h <;> try contradiction
    rename_i calm
    exact .inl ⟨raw,stdin,deadline,pc,by simpa using calm,(Option.some.inj h).symm⟩
  · rename_i raw pc
    split at h <;> try contradiction
    exact .inr ⟨raw,pc,(Option.some.inj h).symm⟩

theorem stallsMove (h : stalls s = some t) : Move env s .stalls t := by
  obtain ⟨raw,stdin,deadline,pc,calm,rfl⟩ | ⟨raw,pc,rfl⟩ := stallsCases h
  · exact .execLost pc calm (by simp)
  · exact .ptyLost true pc (by simp)

theorem cancelArmCases (h : cancelArm s = some t) :
    (∃ i stdin deadline, s.handler = .execSelect i stdin deadline ∧
      t = (s.signalGroup .kill (some s.child.pid)).go (.execReap .disconnected)) ∨
    (∃ i, s.handler = .ptySelect i ∧ t = hangup {s with cancel := s.cancel}) := by
  unfold cancelArm at h
  split at h <;> try contradiction
  split at h <;> try contradiction
  · exact .inl ⟨_,_,_,by assumption,(Option.some.inj h).symm⟩
  · exact .inr ⟨_,by assumption,(Option.some.inj h).symm⟩

theorem cancelArmMove (h : cancelArm s = some t) : Move env s .cancelArm t := by
  obtain ⟨i,stdin,deadline,pc,rfl⟩ | ⟨i,pc,rfl⟩ := cancelArmCases h
  · exact .execKilled _ pc
  · exact .ptyLost s.cancel pc id

theorem deadlineArmCases (h : deadlineArm s = some t) :
    ∃ i stdin deadline, s.handler = .execSelect i stdin deadline ∧
      t = (s.signalGroup .kill (some s.child.pid)).go (.execReap .timeout) := by
  unfold deadlineArm at h
  split at h <;> try contradiction
  split at h <;> try contradiction
  exact ⟨_,_,_,by assumption,(Option.some.inj h).symm⟩

theorem deadlineArmMove (h : deadlineArm s = some t) : Move env s .deadlineArm t := by
  obtain ⟨i,stdin,deadline,pc,rfl⟩ := deadlineArmCases h
  exact .execKilled _ pc

theorem waitReadyCases {failed} (h : waitReady failed s = some t) :
    ∃ raw child handler, wait failed s.child = some (raw,child) ∧ preempted s = false ∧
      afterWait raw s.handler = some handler ∧ t = {endSelect s with handler := handler, child := child, reap := some raw} := by
  simp only [waitReady,bind,Option.bind_eq_some_iff] at h
  obtain ⟨⟨raw,child⟩,got,later⟩ := h
  split at later <;> try contradiction
  rename_i free
  obtain ⟨handler,next,last⟩ := Option.bind_eq_some_iff.mp later
  exact ⟨raw,child,handler,got,by simpa using free,next,(Option.some.inj last).symm⟩

theorem waitReadyMove {failed} (h : waitReady failed s = some t) : Move env s (.waitReady failed) t := by
  obtain ⟨raw,child,handler,got,free,next,rfl⟩ := waitReadyCases h
  exact .waited got free next

theorem reapLapseCases (h : reapLapse s = some t) : graceArmed s.handler = true ∧
    ∃ handler, afterWait .timedOut s.handler = some handler ∧
      t = {endSelect s with handler := handler, reap := some .timedOut} := by
  unfold reapLapse at h
  split at h <;> try contradiction
  obtain ⟨handler,next,last⟩ := Option.bind_eq_some_iff.mp h
  exact ⟨by assumption,handler,next,(Option.some.inj last).symm⟩

theorem reapLapseMove (h : reapLapse s = some t) : Move env s .reapLapse t := by
  obtain ⟨armed,handler,next,rfl⟩ := reapLapseCases h
  exact .reapLapsed armed next

theorem hangupLapseCases (h : hangupLapse s = some t) :
    s.handler = .hangupWait ∧ t = (s.signalGroup .kill s.child.id).go .hangupReap := by
  unfold hangupLapse at h
  split at h <;> try contradiction
  exact ⟨by assumption,(Option.some.inj h).symm⟩

theorem hangupLapseMove (h : hangupLapse s = some t) : Move env s .hangupLapse t := by
  obtain ⟨pc,rfl⟩ := hangupLapseCases h
  exact .hangupLapsed pc

theorem drainJoinedCases (h : drainJoined s = some t) : ∃ side, drainSide s.handler = some side ∧
    (s.stream side).phase = .finished ∧ t = s.go (afterDrain s.handler) := by
  simp only [drainJoined,bind,Option.bind_eq_some_iff] at h
  obtain ⟨side,pc,last⟩ := h
  split at last <;> try contradiction
  exact ⟨side,pc,by assumption,(Option.some.inj last).symm⟩

theorem drainJoinedMove (h : drainJoined s = some t) : Move env s .drainJoined t := by
  obtain ⟨side,pc,done,rfl⟩ := drainJoinedCases h
  exact .drainJoined pc done

theorem drainLapseCases (h : drainLapse s = some t) :
    ∃ side, drainSide s.handler = some side ∧ Tap.live (s.stream side) = true ∧
      t = (s.setStream side (Tap.abort (s.stream side))).go (afterDrain s.handler) := by
  simp only [drainLapse,bind,Option.bind_eq_some_iff] at h
  obtain ⟨side,pc,last⟩ := h
  split at last <;> try contradiction
  exact ⟨side,pc,by assumption,(Option.some.inj last).symm⟩

theorem drainLapseMove (h : drainLapse s = some t) : Move env s .drainLapse t := by
  obtain ⟨side,pc,live,rfl⟩ := drainLapseCases h
  exact .drainLapsed pc live

theorem handSendsCases (h : handSends s = some t) : ∃ f box, s.handler = .sending f ∧
    Outbox.offer channelBound f s.box = some box ∧ t = {s with box := box, handler := .joinWriter} := by
  unfold handSends at h
  split at h <;> try contradiction
  rename_i f pc
  obtain ⟨box,ok,last⟩ := Option.bind_eq_some_iff.mp h
  exact ⟨f,box,pc,ok,(Option.some.inj last).symm⟩

theorem handSendsMove (h : handSends s = some t) : Move env s .handSends t := by
  obtain ⟨f,box,pc,ok,rfl⟩ := handSendsCases h
  exact .handSent pc ok

theorem writerJoinedCases (h : writerJoined s = some t) :
    s.handler = .joinWriter ∧ s.box.writer = .exited ∧ t = s.go .returned := by
  unfold writerJoined at h
  split at h <;> try contradiction
  rename_i both
  exact ⟨both.1,both.2,(Option.some.inj h).symm⟩

theorem writerJoinedMove (h : writerJoined s = some t) : Move env s .writerJoined t := by
  obtain ⟨pc,gone,rfl⟩ := writerJoinedCases h
  exact .joined pc gone

theorem pumpSendsCases {side} (h : pumpSends side s = some t) : ∃ chunk box, (s.stream side).phase = .holding chunk ∧
    Outbox.offer channelBound ⟨side.ftype,chunk⟩ s.box = some box ∧
    t = {(s.setStream side (if s.pty ∧ s.box.writer = .exited then Tap.stop (s.stream side)
      else Tap.release (s.stream side))) with box := box} := by
  unfold pumpSends at h
  split at h <;> try contradiction
  rename_i chunk holds
  obtain ⟨box,ok,last⟩ := Option.bind_eq_some_iff.mp h
  exact ⟨chunk,box,holds,ok,(Option.some.inj last).symm⟩

theorem pumpSendsMove {side} (h : pumpSends side s = some t) : Move env s (.pumpSends side) t := by
  obtain ⟨chunk,box,holds,ok,rfl⟩ := pumpSendsCases h
  exact .pumpSent _ holds ok rfl

theorem onStreamSource {f side} (h : onStream f side s = some t) :
    ∃ u, f (s.stream side) = some u ∧ t = s.setStream side u := by
  simp only [onStream,Option.map_eq_some_iff] at h
  obtain ⟨u,ok,rfl⟩ := h
  exact ⟨u,ok,rfl⟩

theorem onBoxSource {f} (h : onBox f s = some t) :
    s.cancel = false ∧ ∃ box, f s.box = some box ∧ t = {s with box := box} := by
  unfold onBox at h
  split at h <;> try contradiction
  rename_i calm
  simp only [Option.map_eq_some_iff] at h
  obtain ⟨box,ok,rfl⟩ := h
  exact ⟨by simpa using calm,box,ok,rfl⟩

theorem writerGivesUpCases (h : writerGivesUp s = some t) :
    s.cancel = false ∧ writing s.box.writer = true ∧ t = {s.fire with box := Outbox.leave s.box} := by
  unfold writerGivesUp at h
  split at h <;> try contradiction
  rename_i both
  exact ⟨both.1,both.2,(Option.some.inj h).symm⟩

theorem writerGivesUpMove {a} (h : writerGivesUp s = some t) : Move env s a t := by
  obtain ⟨calm,busy,rfl⟩ := writerGivesUpCases h
  exact .writerGaveUp calm busy

theorem writerCancelledCases (h : writerCancelled s = some t) :
    s.cancel = true ∧ t = {s with box := Outbox.leave s.box} := by
  unfold writerCancelled at h
  split at h <;> try contradiction
  rename_i both
  exact ⟨both.1,(Option.some.inj h).symm⟩

theorem writerCancelledMove (h : writerCancelled s = some t) : Move env s .writerCancelled t := by
  obtain ⟨fired,rfl⟩ := writerCancelledCases h
  exact .writerCancelled fired

theorem writerClosesCases (h : writerCloses s = some t) : s.cancel = false ∧ s.box.writer = .receiving ∧
    s.box.queue = [] ∧ sendersGone s = true ∧ t = {s with box := Outbox.leave s.box} := by
  unfold writerCloses at h
  split at h <;> try contradiction
  rename_i all
  exact ⟨all.1,all.2.1,all.2.2.1,all.2.2.2,(Option.some.inj h).symm⟩

theorem writerClosesMove (h : writerCloses s = some t) : Move env s .writerCloses t := by
  obtain ⟨calm,idle,drained,gone,rfl⟩ := writerClosesCases h
  exact .writerClosed calm idle drained gone

theorem exitsCases {status} (h : exits status s = some t) :
    s.child.life = .running ∧ t = {s with child := ⟨s.child.pid,.zombie status⟩} := by
  unfold exits at h
  split at h <;> try contradiction
  exact ⟨by assumption,(Option.some.inj h).symm⟩

theorem exitsMove {status} (h : exits status s = some t) : Move env s (.exits status) t := by
  obtain ⟨alive,rfl⟩ := exitsCases h
  exact .exited alive

theorem stepMove {a} (h : step env s a = some t) : Move env s a t := by
  cases a with
  | firstRead r => exact firstReadMove h
  | openptyReturns => exact openptyMove h
  | inbound r => exact inboundMove h
  | accepts n => exact acceptsMove h
  | refuses => exact refusesMove h
  | stalls => exact stallsMove h
  | cancelArm => exact cancelArmMove h
  | deadlineArm => exact deadlineArmMove h
  | waitReady failed => exact waitReadyMove h
  | reapLapse => exact reapLapseMove h
  | hangupLapse => exact hangupLapseMove h
  | drainJoined => exact drainJoinedMove h
  | drainLapse => exact drainLapseMove h
  | handSends => exact handSendsMove h
  | writerJoined => exact writerJoinedMove h
  | pumpReads side n => obtain ⟨u,ok,rfl⟩ := onStreamSource h; exact .streamMoved side (.read ok)
  | pumpEof side => obtain ⟨u,ok,rfl⟩ := onStreamSource h; exact .streamMoved side (.eof ok)
  | pumpFails side => obtain ⟨u,ok,rfl⟩ := onStreamSource h; exact .streamMoved side (.fail ok)
  | supplies side raw => obtain ⟨u,ok,rfl⟩ := onStreamSource h; exact .streamMoved side (.supply ok)
  | detaches side => obtain ⟨u,ok,rfl⟩ := onStreamSource h; exact .streamMoved side (.detach ok)
  | pumpSends side => exact pumpSendsMove h
  | writerTakes => obtain ⟨calm,box,ok,rfl⟩ := onBoxSource h; exact .writerMoved calm (.take ok)
  | writerPuts n =>
    simp only [step] at h
    split at h <;> try contradiction
    obtain ⟨calm,box,ok,rfl⟩ := onBoxSource h
    exact .writerMoved calm (.put ok (by assumption))
  | writerFlushed =>
    simp only [step] at h
    split at h <;> try contradiction
    obtain ⟨calm,box,ok,rfl⟩ := onBoxSource h
    exact .writerMoved calm (.finish ok (by assumption))
  | writerFails => exact writerGivesUpMove h
  | writerStalls => exact writerGivesUpMove h
  | writerCancelled => exact writerCancelledMove h
  | writerCloses => exact writerClosesMove h
  | exits status => exact exitsMove h

def ending : Handler → Bool
  | .execDrain _ _ _ | .ptyDrain _ _ | .sending _ => true
  | _ => false

theorem endingWaits {h} (ok : ending h = true) :
    h ≠ .returned ∧ ∀ i stdin deadline, h ≠ .execSelect i stdin deadline := by
  cases h <;> simp [ending] at ok <;> simp

theorem afterWaitEnding {raw h next} (ok : afterWait raw h = some next) : ending next = true := by
  cases h <;> simp [afterWait] at ok <;> subst ok <;> rfl

theorem afterDrainEnding {h side} (pc : drainSide h = some side) : ending (afterDrain h) = true := by
  cases h with
  | execDrain side raw why => cases side <;> rfl
  | ptyDrain raw why => rfl
  | _ => simp [drainSide] at pc

end Guesthopper.SessionMove
