import Guesthopper.SessionChild

/-! Why a session says its child ended. The override of the EXIT reason is fixed by the arm
that ends the select, so each is traced back to the step that took that arm: a deadline, a
lost peer, or neither. The input loops of both verbs also end on a header `read_frame` itself
refuses, and that of a pty on a write to the master that fails; the peer is there all along. -/
namespace Guesthopper.SessionReason
open FrameBytes SessionText SessionModel SessionMove SessionTerminal SessionChild

variable {env : Env} {s t : Session} {a : Action} {actions : List Action}

def PeerLoss : Action → Prop
  | .inbound .eof | .inbound (.error _) | .inbound .elapsed | .stalls | .writerFails | .writerStalls => True
  | _ => False

def Lost (env : Env) (actions : List Action) : Prop :=
  ∃ before a after u, actions = before ++ a::after ∧ Machine.run (step env) start before = some u ∧ u.sent = [] ∧ PeerLoss a

def Timed (env : Env) (actions : List Action) : Prop :=
  ∃ before after u t, actions = before ++ .deadlineArm::after ∧ Machine.run (step env) start before = some u ∧
    step env u .deadlineArm = some t ∧ unreaped u.child.life = true ∧
    t.sent = u.sent ++ [⟨.kill,u.child.pid,u.child.life⟩]

-- `wait` reports children that exited or were killed, so not the last.
def Reports : ExitStatus → Int → String → Prop
  | .code n,code,reason => reason = "exited" ∧ code = n.toNat
  | .signal n,code,reason => reason = "signaled" ∧ code = 128 + n.val
  | .neither,code,reason => reason = "exited" ∧ code = -1

structure Truthful (env : Env) (actions : List Action) (s : Session) (code : Int) (reason : String) : Prop where
  timeout : reason = "timeout" → Timed env actions
  disconnected : reason = "disconnected" → Lost env actions
  ended : reason = "exited" ∨ reason = "signaled" →
    s.sent = [] ∧ ∃ status, s.child.life = .reaped status ∧ Reports status code reason
  error : reason = "error" → s.reap = some .osError ∨ s.reap = some .timedOut

def Grounds (env : Env) (actions : List Action) (s : Session) : Override → Prop
  | .none => s.sent = []
  | .timeout => Timed env actions
  | .disconnected => Lost env actions

def Stated (env : Env) (actions : List Action) (s : Session) (f : Frame) : Prop :=
  f.ftype = frameExit → ∃ raw why, f = exitFrame raw why ∧ s.reap = some raw ∧ Grounds env actions s why

def unsignalled : Handler → Bool
  | .readRequest | .openpty _ | .execSelect _ _ _ | .ptySelect _ => true
  | _ => false

def settled : Handler → Bool
  | .execDrain _ _ _ | .ptyDrain _ _ | .sending _ | .joinWriter | .returned => true
  | _ => false

def owed : Handler → Option Override
  | .execReap why | .execDrain _ _ why | .ptyDrain _ why => some why
  | .hangupWait | .hangupReap => some .disconnected
  | _ => none

def reaping : Handler → Option WaitResult
  | .execDrain _ raw _ | .ptyDrain raw _ => some raw
  | _ => none

structure Told (env : Env) (actions : List Action) (s : Session) : Prop where
  calm : unsignalled s.handler = true → s.sent = []
  fired : s.cancel = true → s.sent = [] → Lost env actions
  bound : ∀ why, owed s.handler = some why → Grounds env actions s why
  reaped : ∀ raw, reaping s.handler = some raw → s.reap = some raw
  honest : ∀ status, s.reap = some (.status status) → s.child.life = .reaped status
  sending : ∀ f, s.handler = .sending f → Stated env actions s f
  handed : ∀ f ∈ s.box.handed, f.ftype = frameExit → settled s.handler = true ∧ Stated env actions s f

/- The running input loop reads no header over the cap, and that of a pty has no write to the
master fail. -/
def Served (s : Session) : Action → Prop
  | .inbound (.oversize _ _) => s.cancel = true
  | .refuses => ∀ i, s.handler ≠ .ptySelect i
  | _ => True

theorem lostLater (a : Action) (lost : Lost env actions) : Lost env (actions ++ [a]) := by
  obtain ⟨before,b,after,u,shape,reached,fresh,loss⟩ := lost
  exact ⟨before,b,after ++ [a],u,by rw [shape]; simp,reached,fresh,loss⟩

theorem timedLater (a : Action) (timed : Timed env actions) : Timed env (actions ++ [a]) := by
  obtain ⟨before,after,u,t,shape,rest⟩ := timed
  exact ⟨before,after ++ [a],u,t,by rw [shape]; simp,rest⟩

theorem lostNow (reached : Machine.run (step env) start actions = some s) (fresh : s.sent = []) (loss : PeerLoss a) :
    Lost env (actions ++ [a]) := ⟨actions,a,[],s,rfl,reached,fresh,loss⟩

theorem groundsLater {why} (a : Action) (grounds : Grounds env actions s why) (sent : why = .none → t.sent = s.sent) :
    Grounds env (actions ++ [a]) t why := by
  cases why with
  | none => exact (sent rfl).trans grounds
  | timeout => exact timedLater a grounds
  | disconnected => exact lostLater a grounds

theorem statedLater {f} (a : Action) (stated : Stated env actions s f) (reap : t.reap = s.reap) (sent : t.sent = s.sent) :
    Stated env (actions ++ [a]) t f := by
  intro kind
  obtain ⟨raw,why,shape,got,grounds⟩ := stated kind
  exact ⟨raw,why,shape,reap.trans got,groundsLater a grounds (fun _ => sent)⟩

structure Aside (s t : Session) : Prop where
  handler : t.handler = s.handler
  sent : t.sent = s.sent
  reap : t.reap = s.reap
  life : ∀ status, s.child.life = .reaped status → t.child.life = .reaped status
  handed : ∀ f ∈ t.box.handed, f ∈ s.box.handed ∨ Data f

theorem dataNoExit {f} (data : Data f) : f.ftype ≠ frameExit := by
  obtain out | err := data
  · rw [out]; decide
  · rw [err]; decide

theorem toldAside (told : Told env actions s) (aside : Aside s t)
    (fired : t.cancel = true → t.sent = [] → Lost env (actions ++ [a])) : Told env (actions ++ [a]) t := by
  obtain ⟨handler,sent,reap,life,handed⟩ := aside
  refine ⟨?_,fired,?_,?_,?_,?_,?_⟩
  · rw [handler,sent]
    exact told.calm
  · intro why owes
    rw [handler] at owes
    exact groundsLater a (told.bound why owes) (fun _ => sent)
  · rw [handler,reap]
    exact told.reaped
  · intro status got
    rw [reap] at got
    exact life status (told.honest status got)
  · intro f pc
    rw [handler] at pc
    exact statedLater a (told.sending f pc) reap sent
  · intro f known kind
    obtain old | data := handed f known
    · obtain ⟨still,stated⟩ := told.handed f old kind
      exact ⟨by rw [handler]; exact still,statedLater a stated reap sent⟩
    · exact absurd kind (dataNoExit data)

theorem firedLater (told : Told env actions s) (cancel : t.cancel = s.cancel) (sent : t.sent = s.sent) :
    t.cancel = true → t.sent = [] → Lost env (actions ++ [a]) := by
  intro now fresh
  rw [cancel] at now
  rw [sent] at fresh
  exact lostLater a (told.fired now fresh)

theorem unsettledHanded (told : Told env actions s) (open' : settled s.handler = false) :
    ∀ f ∈ s.box.handed, f.ftype ≠ frameExit := by
  intro f known kind
  have closed := (told.handed f known kind).1
  rw [open'] at closed
  contradiction

theorem toldMoves (told : Told env actions s) (open' : settled s.handler = false) (handed : t.box.handed = s.box.handed)
    (calm : unsignalled t.handler = true → t.sent = [])
    (fired : t.cancel = true → t.sent = [] → Lost env (actions ++ [a]))
    (bound : ∀ why, owed t.handler = some why → Grounds env (actions ++ [a]) t why)
    (reaped : ∀ raw, reaping t.handler = some raw → t.reap = some raw)
    (honest : ∀ status, t.reap = some (.status status) → t.child.life = .reaped status)
    (sending : ∀ f, t.handler = .sending f → f.ftype ≠ frameExit) : Told env (actions ++ [a]) t := by
  refine ⟨calm,fired,bound,reaped,honest,fun f pc kind => absurd kind (sending f pc),?_⟩
  intro f known kind
  rw [handed] at known
  exact absurd kind (unsettledHanded told open' f known)

theorem unsignalledOpen {h} (free : unsignalled h = true) :
    settled h = false ∧ owed h = none ∧ reaping h = none ∧ ∀ f, h ≠ .sending f := by
  cases h <;> first | contradiction | simp [settled,owed,reaping]

theorem toldStays (told : Told env actions s) (before : unsignalled s.handler = true) (after : unsignalled t.handler = true)
    (sent : t.sent = s.sent) (handed : t.box.handed = s.box.handed)
    (honest : ∀ status, t.reap = some (.status status) → t.child.life = .reaped status)
    (fired : t.cancel = true → t.sent = [] → Lost env (actions ++ [a])) : Told env (actions ++ [a]) t := by
  obtain ⟨_,owes,reaps,sends⟩ := unsignalledOpen after
  refine toldMoves told (unsignalledOpen before).1 handed ?_ fired ?_ ?_ honest ?_
  · intro _
    exact sent.trans (told.calm before)
  · intro why some
    rw [owes] at some
    contradiction
  · intro raw some
    rw [reaps] at some
    contradiction
  · intro f pc
    exact absurd pc (sends f)

theorem toldSignals {why} (told : Told env actions s) (before : unsignalled s.handler = true)
    (owes : owed t.handler = some why) (reaps : reaping t.handler = none) (handed : t.box.handed = s.box.handed)
    (reap : t.reap = s.reap) (child : t.child = s.child) (grounds : Grounds env (actions ++ [a]) t why)
    (fired : t.cancel = true → t.sent = [] → Lost env (actions ++ [a])) : Told env (actions ++ [a]) t := by
  refine toldMoves told (unsignalledOpen before).1 handed ?_ fired ?_ ?_ ?_ ?_
  · intro free
    rw [(unsignalledOpen free).2.1] at owes
    contradiction
  · intro other also
    rw [owes] at also
    cases Option.some.inj also
    exact grounds
  · intro raw some
    rw [reaps] at some
    contradiction
  · rw [reap,child]
    exact told.honest
  · intro f pc
    rw [pc] at owes
    contradiction

theorem hangupTold {fired : Bool} {i} (told : Told env actions s) (pc : s.handler = .ptySelect i)
    (lost : Lost env (actions ++ [a])) : Told env (actions ++ [a]) (hangup {s with cancel := fired}) :=
  toldSignals told (by rw [pc]; rfl) rfl rfl (by simp) (by simp) (by simp) lost (fun _ _ => lost)

theorem unbornReap (told : Told env actions s) (tended : Tended s) (pc : custody s.handler = .unborn) {status : ExitStatus} :
    s.reap ≠ some (.status status) := by
  intro got
  have life := told.honest status got
  rw [(tendedUnborn tended pc).1] at life
  contradiction

theorem firstReadTold {r} (told : Told env actions s) (tended : Tended s) (h : firstRead env r s = some t) :
    Told env (actions ++ [.firstRead r]) t := by
  have same : ∀ u : Session, u.cancel = s.cancel → u.sent = s.sent →
      u.cancel = true → u.sent = [] → Lost env (actions ++ [.firstRead r]) := fun u => firedLater told
  have quiet : ∀ pc : s.handler = .readRequest, ∀ status, s.reap ≠ some (.status status) :=
    fun pc status => unbornReap told tended (by rw [pc]; rfl)
  obtain ⟨pc,⟨_,rfl⟩ | ⟨_,msg,rfl⟩ | ⟨f,pid,deadline,_,_,rfl⟩ | ⟨f,req,_,_,rfl⟩⟩ := firstReadCases h
  · exact toldMoves told (by rw [pc]; rfl) rfl (by simp [unsignalled]) (same _ rfl rfl) (by simp [owed]) (by simp [reaping])
      told.honest (by simp)
  · refine toldMoves told (by rw [pc]; rfl) rfl (by simp [unsignalled]) (same _ rfl rfl) (by simp [owed]) (by simp [reaping])
      told.honest ?_
    intro f sends
    cases sends
    exact (by decide : frameError ≠ frameExit)
  · exact toldStays told (by rw [pc]; rfl) rfl rfl rfl (fun status got => absurd got (quiet pc status)) (same _ rfl rfl)
  · exact toldStays told (by rw [pc]; rfl) rfl rfl rfl told.honest (same _ rfl rfl)

theorem openptyTold (told : Told env actions s) (tended : Tended s) (h : openptyReturns env s = some t) :
    Told env (actions ++ [.openptyReturns]) t := by
  obtain ⟨req,feed,pc,⟨msg,rfl⟩ | ⟨msg,pid,rfl⟩ | ⟨pid,rfl⟩⟩ := openptyCases h
  · refine toldMoves told (by rw [pc]; rfl) rfl (by simp [unsignalled]) (firedLater told rfl rfl) (by simp [owed])
      (by simp [reaping]) told.honest ?_
    intro f sends
    cases sends
    exact (by decide : frameError ≠ frameExit)
  · refine toldMoves told (by rw [pc]; rfl) rfl (by simp [unsignalled]) (by simp) (by simp [owed]) (by simp [reaping]) ?_ (by simp)
    intro status got
    exact absurd got (unbornReap told tended (by rw [pc]; rfl))
  · refine toldStays told (by rw [pc]; rfl) rfl rfl rfl ?_ (firedLater told rfl rfl)
    intro status got
    exact absurd got (unbornReap told tended (by rw [pc]; rfl))

theorem inboundLost {r} (told : Told env actions s) (reached : Machine.run (step env) start actions = some s)
    (free : unsignalled s.handler = true) (served : Served s (.inbound r)) (other : ∀ f, r ≠ .frame f) :
    Lost env (actions ++ [.inbound r]) := by
  have fresh : s.sent = [] := told.calm free
  cases r with
  | frame f => exact absurd rfl (other f)
  | eof | error _ | elapsed => exact lostNow reached fresh trivial
  | oversize len cap => exact lostLater _ (told.fired served fresh)

theorem inboundTold {r} (told : Told env actions s) (reached : Machine.run (step env) start actions = some s)
    (served : Served s (.inbound r)) (h : inbound env r s = some t) : Told env (actions ++ [.inbound r]) t := by
  obtain ⟨stdin,deadline,pc,_,⟨f,_,rfl⟩ | ⟨other,rfl⟩⟩ | ⟨pc,⟨f,_,rfl⟩ | ⟨other,fired,_,rfl⟩⟩ := inboundCases h
  · obtain ⟨input,still,feed,shape⟩ : ∃ input still feed, execFrame stdin deadline f s =
        {s with feed := feed, handler := .execSelect input still deadline} := by
      unfold execFrame
      repeat' split
      · exact ⟨_,_,_,rfl⟩
      · exact ⟨some .reading,stdin,s.feed,by rw [← pc]⟩
      · exact ⟨_,_,_,rfl⟩
      · exact ⟨some .reading,stdin,s.feed,by rw [← pc]⟩
    rw [shape]
    exact toldStays told (by rw [pc]; rfl) rfl rfl rfl told.honest (firedLater told rfl rfl)
  · have lost := inboundLost told reached (by rw [pc]; rfl) served other
    exact toldStays told (by rw [pc]; rfl) rfl rfl rfl told.honest (fun _ _ => lost)
  · obtain ⟨input,feed,shape⟩ : ∃ input feed, ptyFrame env f s = {s with feed := feed, handler := .ptySelect input} := by
      unfold ptyFrame
      repeat' split
      · exact ⟨_,_,rfl⟩
      · exact ⟨.reading,s.feed,by rw [← pc]⟩
      · exact ⟨.reading,_,by rw [← pc]⟩
      · exact ⟨.reading,s.feed,by rw [← pc]⟩
      · exact ⟨.reading,s.feed,by rw [← pc]⟩
    rw [shape]
    exact toldStays told (by rw [pc]; rfl) rfl rfl rfl told.honest (firedLater told rfl rfl)
  · exact hangupTold told pc (inboundLost told reached (by rw [pc]; rfl) served other)

theorem acceptsTold {n} (told : Told env actions s) (h : accepts n s = some t) : Told env (actions ++ [.accepts n]) t := by
  obtain ⟨_,raw,_,_,⟨stdin,deadline,pc,rfl⟩ | ⟨pc,rfl⟩⟩ := acceptsCases h
  · exact toldStays told (by rw [pc]; rfl) rfl rfl rfl told.honest (firedLater told rfl rfl)
  · exact toldStays told (by rw [pc]; rfl) rfl rfl rfl told.honest (firedLater told rfl rfl)

theorem refusesTold (told : Told env actions s) (served : Served s .refuses) (h : refuses s = some t) :
    Told env (actions ++ [.refuses]) t := by
  obtain ⟨raw,stdin,deadline,pc,_,rfl⟩ | ⟨raw,pc,_⟩ := refusesCases h
  · exact toldStays told (by rw [pc]; rfl) rfl rfl rfl told.honest (firedLater told rfl rfl)
  · exact absurd pc (served (.writing raw))

theorem stallsTold (told : Told env actions s) (reached : Machine.run (step env) start actions = some s)
    (h : stalls s = some t) : Told env (actions ++ [.stalls]) t := by
  obtain ⟨raw,stdin,deadline,pc,_,rfl⟩ | ⟨raw,pc,rfl⟩ := stallsCases h
  · have lost : Lost env (actions ++ [.stalls]) := lostNow reached (told.calm (by rw [pc]; rfl)) trivial
    exact toldStays told (by rw [pc]; rfl) rfl rfl rfl told.honest (fun _ _ => lost)
  · exact hangupTold told pc (lostNow reached (told.calm (by rw [pc]; rfl)) trivial)

theorem cancelArmFired (h : cancelArm s = some t) : s.cancel = true := by
  unfold cancelArm at h
  split at h <;> try contradiction
  assumption

theorem cancelArmTold (told : Told env actions s) (h : cancelArm s = some t) : Told env (actions ++ [.cancelArm]) t := by
  have lost : unsignalled s.handler = true → Lost env (actions ++ [.cancelArm]) :=
    fun free => lostLater _ (told.fired (cancelArmFired h) (told.calm free))
  obtain ⟨i,stdin,deadline,pc,rfl⟩ | ⟨i,pc,rfl⟩ := cancelArmCases h
  · have so := lost (by rw [pc]; rfl)
    exact toldSignals told (by rw [pc]; rfl) rfl rfl (by simp) (by simp) (by simp) so (fun _ _ => so)
  · exact hangupTold told pc (lost (by rw [pc]; rfl))

theorem deadlineArmTold (told : Told env actions s) (tended : Tended s)
    (reached : Machine.run (step env) start actions = some s) (h : deadlineArm s = some t) :
    Told env (actions ++ [.deadlineArm]) t := by
  obtain ⟨i,stdin,deadline,pc,rfl⟩ := deadlineArmCases h
  have alive := tendedAlive tended (.inl (by rw [pc]; rfl))
  have timed : Timed env (actions ++ [.deadlineArm]) := ⟨actions,[],s,_,rfl,reached,h,alive,by simp⟩
  exact toldSignals told (by rw [pc]; rfl) rfl rfl (by simp) (by simp) (by simp) timed (by simp)

theorem afterWaitShape {raw h next} (moved : afterWait raw h = some next) : settled h = false ∧ unsignalled next = false ∧
    ((owed next = none ∧ reaping next = none ∧ ∀ f, next = .sending f → f.ftype ≠ frameExit) ∨
    ((∀ f, next ≠ .sending f) ∧ reaping next = some raw ∧
      ∃ why, owed next = some why ∧ (owed h = some why ∨ (unsignalled h = true ∧ why = .none)))) := by
  cases h <;> simp only [afterWait,Option.some.injEq,reduceCtorEq] at moved <;> subst moved
  · refine ⟨rfl,rfl,.inl ⟨rfl,rfl,?_⟩⟩
    intro f sends
    cases sends
    exact (by decide : frameError ≠ frameExit)
  all_goals exact ⟨rfl,rfl,.inr ⟨by simp,rfl,_,rfl,by simp [owed,unsignalled]⟩⟩

theorem afterWaitTold {raw next child feed} (told : Told env actions s) (moved : afterWait raw s.handler = some next)
    (honest : ∀ status, raw = .status status → child.life = .reaped status) :
    Told env (actions ++ [a]) {s with feed := feed, handler := next, child := child, reap := some raw} := by
  obtain ⟨open',signalled,⟨owes,reaps,errors⟩ | ⟨quiet,reaps,why,owes,grounds⟩⟩ := afterWaitShape moved
  · refine toldMoves told open' rfl (by simp [signalled]) (firedLater told rfl rfl) ?_ ?_
      (fun status got => honest status (Option.some.inj got)) errors
    · intro why some
      rw [owes] at some
      contradiction
    · intro r some
      rw [reaps] at some
      contradiction
  · refine toldMoves told open' rfl (by simp [signalled]) (firedLater told rfl rfl) ?_ ?_
      (fun status got => honest status (Option.some.inj got)) (fun f pc => absurd pc (quiet f))
    · intro other also
      rw [owes] at also
      cases Option.some.inj also
      obtain before | ⟨free,rfl⟩ := grounds
      · exact groundsLater a (told.bound why before) (fun _ => rfl)
      · exact told.calm free
    · intro r some
      exact reaps.symm.trans some

theorem waitReadyTold {failed} (told : Told env actions s) (h : waitReady failed s = some t) :
    Told env (actions ++ [.waitReady failed]) t := by
  obtain ⟨raw,child,handler,got,_,next,rfl⟩ := waitReadyCases h
  refine afterWaitTold (s := s) told next ?_
  intro status same
  obtain ⟨error,_⟩ | ⟨other,_,reported,rfl⟩ := waitCases got
  · rw [error] at same
    contradiction
  · rw [reported] at same
    cases same
    rfl

theorem reapLapseTold (told : Told env actions s) (h : reapLapse s = some t) : Told env (actions ++ [.reapLapse]) t := by
  obtain ⟨_,handler,next,rfl⟩ := reapLapseCases h
  exact afterWaitTold (s := s) told next (by simp)

theorem hangupLapseTold (told : Told env actions s) (h : hangupLapse s = some t) :
    Told env (actions ++ [.hangupLapse]) t := by
  obtain ⟨pc,rfl⟩ := hangupLapseCases h
  have lost : Lost env (actions ++ [.hangupLapse]) := lostLater _ (told.bound .disconnected (by rw [pc]; rfl))
  refine toldMoves told (by rw [pc]; rfl) (by simp) (by simp [unsignalled]) (fun _ _ => lost) ?_ (by simp [reaping]) ?_ (by simp)
  · intro why owes
    cases Option.some.inj owes
    exact lost
  · simpa using told.honest

theorem afterDrainShape {h side} (pc : drainSide h = some side) : ∃ raw why, owed h = some why ∧ reaping h = some raw ∧
    settled (afterDrain h) = true ∧ unsignalled (afterDrain h) = false ∧
    ((owed (afterDrain h) = some why ∧ reaping (afterDrain h) = some raw ∧ ∀ f, afterDrain h ≠ .sending f) ∨
      afterDrain h = .sending (exitFrame raw why)) := by
  cases h with
  | execDrain side' raw why =>
    cases side' with
    | out => exact ⟨raw,why,rfl,rfl,rfl,rfl,.inl ⟨rfl,rfl,by simp [afterDrain]⟩⟩
    | err => exact ⟨raw,why,rfl,rfl,rfl,rfl,.inr rfl⟩
  | ptyDrain raw why => exact ⟨raw,why,rfl,rfl,rfl,rfl,.inr rfl⟩
  | _ => simp [drainSide] at pc

theorem drainTold {side} (told : Told env actions s) (pc : drainSide s.handler = some side)
    (handler : t.handler = afterDrain s.handler) (cancel : t.cancel = s.cancel) (sent : t.sent = s.sent)
    (reap : t.reap = s.reap) (child : t.child = s.child) (handed : t.box.handed = s.box.handed) :
    Told env (actions ++ [a]) t := by
  obtain ⟨raw,why,owes,reaps,closed,signalled,next⟩ := afterDrainShape pc
  have grounds : Grounds env (actions ++ [a]) t why := groundsLater a (told.bound why owes) (fun _ => sent)
  have got : t.reap = some raw := reap.trans (told.reaped raw reaps)
  refine ⟨by rw [handler,signalled]; simp,firedLater told cancel sent,?_,?_,by rw [reap,child]; exact told.honest,?_,?_⟩
  · intro other also
    rw [handler] at also
    obtain ⟨still,_,_⟩ | sends := next
    · cases Option.some.inj (still.symm.trans also)
      exact grounds
    · rw [sends] at also
      contradiction
  · intro r also
    rw [handler] at also
    obtain ⟨_,still,_⟩ | sends := next
    · rw [got]
      exact still.symm.trans also
    · rw [sends] at also
      contradiction
  · intro f sends kind
    rw [handler] at sends
    obtain ⟨_,_,quiet⟩ | exit := next
    · exact absurd sends (quiet f)
    · cases exit.symm.trans sends
      exact ⟨raw,why,rfl,got,grounds⟩
  · intro f known kind
    rw [handed] at known
    exact ⟨by rw [handler]; exact closed,statedLater a (told.handed f known kind).2 reap sent⟩

theorem handSendsTold (told : Told env actions s) (h : handSends s = some t) : Told env (actions ++ [.handSends]) t := by
  obtain ⟨f,box,pc,ok,rfl⟩ := handSendsCases h
  refine ⟨by simp [unsignalled],firedLater told rfl rfl,by simp [owed],by simp [reaping],told.honest,by simp,?_⟩
  intro g known kind
  refine ⟨rfl,?_⟩
  rw [offerHanded ok] at known
  obtain old | new := List.mem_append.mp known
  · exact statedLater _ (told.handed g old kind).2 rfl rfl
  · rw [List.mem_singleton.mp new]
    exact statedLater _ (told.sending f pc) rfl rfl

theorem writerJoinedTold (told : Told env actions s) (h : writerJoined s = some t) :
    Told env (actions ++ [.writerJoined]) t := by
  obtain ⟨_,_,rfl⟩ := writerJoinedCases h
  refine ⟨by simp [unsignalled],firedLater told rfl rfl,by simp [owed],by simp [reaping],told.honest,by simp,?_⟩
  intro f known kind
  exact ⟨rfl,statedLater _ (told.handed f known kind).2 rfl rfl⟩

theorem streamAside (side : Side) (u : Tap.Stream UInt8) : Aside s (s.setStream side u) :=
  ⟨by simp,by simp,by simp,by simp,fun _ known => .inl (by simpa using known)⟩

theorem boxAside {box} (handed : box.handed = s.box.handed) : Aside s {s with box := box} :=
  ⟨rfl,rfl,rfl,fun _ reaped => reaped,fun _ known => .inl (handed ▸ known)⟩

theorem streamTold {f side} (told : Told env actions s) (h : onStream f side s = some t) : Told env (actions ++ [a]) t := by
  obtain ⟨u,_,rfl⟩ := onStreamSource h
  exact toldAside told (streamAside side u) (firedLater told (by simp) (by simp))

theorem boxTold {f} (told : Told env actions s) (h : onBox f s = some t)
    (handed : ∀ box, f s.box = some box → box.handed = s.box.handed) : Told env (actions ++ [a]) t := by
  obtain ⟨_,box,ok,rfl⟩ := onBoxSource h
  exact toldAside told (boxAside (handed box ok)) (firedLater told rfl rfl)

theorem pumpSendsTold {side} (told : Told env actions s) (h : pumpSends side s = some t) :
    Told env (actions ++ [.pumpSends side]) t := by
  obtain ⟨chunk,box,_,ok,rfl⟩ := pumpSendsCases h
  refine toldAside told ⟨by simp,by simp,by simp,by simp,?_⟩ (firedLater told (by simp) (by simp))
  intro f known
  rw [offerHanded ok] at known
  obtain old | new := List.mem_append.mp known
  · exact .inl old
  · rw [List.mem_singleton.mp new]
    exact .inr (sideData side chunk)

theorem writerGivesUpTold (told : Told env actions s) (loss : PeerLoss a)
    (reached : Machine.run (step env) start actions = some s) (h : writerGivesUp s = some t) : Told env (actions ++ [a]) t := by
  obtain ⟨_,_,rfl⟩ := writerGivesUpCases h
  refine toldAside told ⟨rfl,rfl,rfl,fun _ reaped => reaped,fun _ known => .inl known⟩ ?_
  intro _ fresh
  exact lostNow reached fresh loss

theorem exitsTold {status} (told : Told env actions s) (h : exits status s = some t) :
    Told env (actions ++ [.exits status]) t := by
  obtain ⟨alive,rfl⟩ := exitsCases h
  refine toldAside told ⟨rfl,rfl,rfl,?_,fun _ known => .inl known⟩ (firedLater told rfl rfl)
  intro other reaped
  rw [alive] at reaped
  contradiction

theorem stepTold (reached : Machine.run (step env) start actions = some s) (told : Told env actions s)
    (served : Served s a) (h : step env s a = some t) : Told env (actions ++ [a]) t := by
  have tended := (reachedTended reached).1
  cases a with
  | firstRead r => exact firstReadTold told tended h
  | openptyReturns => exact openptyTold told tended h
  | inbound r => exact inboundTold told reached served h
  | accepts n => exact acceptsTold told h
  | refuses => exact refusesTold told served h
  | stalls => exact stallsTold told reached h
  | cancelArm => exact cancelArmTold told h
  | deadlineArm => exact deadlineArmTold told tended reached h
  | waitReady failed => exact waitReadyTold told h
  | reapLapse => exact reapLapseTold told h
  | hangupLapse => exact hangupLapseTold told h
  | drainJoined =>
    obtain ⟨side,pc,_,rfl⟩ := drainJoinedCases h
    exact drainTold told pc rfl rfl rfl rfl rfl rfl
  | drainLapse =>
    obtain ⟨side,pc,_,rfl⟩ := drainLapseCases h
    exact drainTold told pc rfl (by simp) (by simp) (by simp) (by simp) (by simp)
  | handSends => exact handSendsTold told h
  | writerJoined => exact writerJoinedTold told h
  | pumpReads side n | pumpEof side | pumpFails side | supplies side raw | detaches side => exact streamTold told h
  | pumpSends side => exact pumpSendsTold told h
  | writerTakes => exact boxTold told h (fun box ok => boxMoveHanded (.take ok))
  | writerPuts n =>
    simp only [step] at h
    split at h <;> try contradiction
    rename_i fits
    exact boxTold told h (fun box ok => boxMoveHanded (.put ok fits))
  | writerFlushed =>
    simp only [step] at h
    split at h <;> try contradiction
    rename_i fits
    exact boxTold told h (fun box ok => boxMoveHanded (.finish ok fits))
  | writerFails | writerStalls => exact writerGivesUpTold told trivial reached h
  | writerCancelled =>
    obtain ⟨_,rfl⟩ := writerCancelledCases h
    exact toldAside told (boxAside rfl) (firedLater told rfl rfl)
  | writerCloses =>
    obtain ⟨_,_,_,_,rfl⟩ := writerClosesCases h
    exact toldAside told (boxAside rfl) (firedLater told rfl rfl)
  | exits status => exact exitsTold told h

theorem startTold : Told env [] start :=
  ⟨fun _ => rfl,by simp [start],by simp [start,owed],by simp [start,reaping],by simp [start],by simp [start],
    by simp [start,Outbox.empty]⟩

theorem statedTruthful {raw why} (told : Told env actions s) (got : s.reap = some raw) (grounds : Grounds env actions s why) :
    Truthful env actions s (exitFields raw why).1 (exitFields raw why).2 := by
  cases raw with
  | status status =>
    have life := told.honest status got
    cases why with
    | none =>
      have reports : Reports status (exitFields (.status status) .none).1 (exitFields (.status status) .none).2 := by
        cases status <;> exact ⟨rfl,rfl⟩
      have reason : (exitFields (.status status) .none).2 = "exited" ∨ (exitFields (.status status) .none).2 = "signaled" := by
        cases status <;> simp [exitFields,Override.reason]
      refine ⟨?_,?_,fun _ => ⟨grounds,status,life,reports⟩,?_⟩
      all_goals
        intro other
        rw [other] at reason
        exact absurd reason (by decide)
    | timeout =>
      have reason : (exitFields (.status status) .timeout).2 = "timeout" := by cases status <;> rfl
      rw [reason]
      exact ⟨fun _ => grounds,by simp,by simp,by simp⟩
    | disconnected =>
      have reason : (exitFields (.status status) .disconnected).2 = "disconnected" := by cases status <;> rfl
      rw [reason]
      exact ⟨by simp,fun _ => grounds,by simp,by simp⟩
  | osError => exact ⟨by simp [exitFields],by simp [exitFields],by simp [exitFields],fun _ => .inl got⟩
  | timedOut => exact ⟨by simp [exitFields],by simp [exitFields],by simp [exitFields],fun _ => .inr got⟩

theorem exitReasonTruthful (env : Env) (actions : List Action) (s : Session)
    (served : Machine.Along (step env) Served start actions)
    (reached : Machine.run (step env) start actions = some s) (f : Frame) (said : f ∈ s.box.handed)
    (exit : f.ftype = frameExit) :
    ∃ raw why, f = exitFrame raw why ∧ Truthful env actions s (exitFields raw why).1 (exitFields raw why).2 := by
  have told : Told env actions s := Machine.runHistory (I := Told env)
    (fun before u a v so held able h => stepTold so held able h) startTold served reached
  obtain ⟨raw,why,shape,got,grounds⟩ := (told.handed f said exit).2 exit
  exact ⟨raw,why,shape,statedTruthful told got grounds⟩

def ordinary : Action → Bool
  | .refuses | .inbound (.oversize _ _) => false
  | _ => true

theorem ordinaryServed {actions : List Action} (other : ∀ a ∈ actions, ordinary a = true) :
    Machine.Along (step env) Served s actions := by
  refine Machine.alongIff.mpr ?_
  intro pre a post u shape _
  have known : ordinary a = true := other a (by rw [shape]; simp)
  cases a with
  | refuses => contradiction
  | inbound r => cases r <;> first | contradiction | trivial
  | _ => trivial

def hungUpShell : List Action :=
  ptyOpening ++ [.inbound .eof,.exits (.signal 1),.waitReady false,.drainLapse,.handSends]

theorem exitReasonTruthfulHangup : ∃ s, Machine.run (step plainGuest) start hungUpShell = some s ∧
    exitFrame (.status (.signal 1)) .disconnected ∈ s.box.handed ∧
    ∃ raw why, exitFrame (.status (.signal 1)) .disconnected = exitFrame raw why ∧
      Truthful plainGuest hungUpShell s (exitFields raw why).1 (exitFields raw why).2 := by
  obtain ⟨s,reached,said⟩ : ∃ s, Machine.run (step plainGuest) start hungUpShell = some s ∧
      exitFrame (.status (.signal 1)) .disconnected ∈ s.box.handed := Machine.runEnds (by decide +kernel)
  exact ⟨s,reached,said,exitReasonTruthful plainGuest hungUpShell s (ordinaryServed (by decide)) reached _ said rfl⟩

def reasons : List String := ["exited","signaled","timeout","disconnected","error"]

def reasonTail (reason : String) : Bytes := (utf8 (jsonString reason ++ ['}'])).reverse.take 7

theorem exitReasons (raw : WaitResult) (why : Override) : (exitFields raw why).2 ∈ reasons := by
  cases raw with
  | status status => cases status <;> cases why <;> simp [exitFields,Override.reason,reasons]
  | osError | timedOut => simp [exitFields,reasons]

theorem exitTail (raw : WaitResult) (why : Override) :
    (exitFrame raw why).payload.reverse.take 7 = reasonTail (exitFields raw why).2 := by
  have long : ∀ reason ∈ reasons, 7 ≤ (utf8 (jsonString reason ++ ['}'])).reverse.length := by decide +kernel
  have shape : (exitFrame raw why).payload = utf8 ("\x7b\"code\":".toList ++ (toString (exitFields raw why).1).toList ++
      ",\"reason\":".toList) ++ utf8 (jsonString (exitFields raw why).2 ++ ['}']) := by simp [exitFrame,utf8]
  rw [shape,List.reverse_append,List.take_append_of_le_length (long _ (exitReasons raw why)),reasonTail]

theorem exitReason {raw raw' : WaitResult} {why why' : Override} (same : exitFrame raw why = exitFrame raw' why') :
    (exitFields raw why).2 = (exitFields raw' why').2 := by
  have apart : ∀ one ∈ reasons, ∀ two ∈ reasons, reasonTail one = reasonTail two → one = two := by decide +kernel
  refine apart _ (exitReasons raw why) _ (exitReasons raw' why') ?_
  rw [← exitTail,← exitTail,same]

def Untold (actions : List Action) (status : ExitStatus) : Prop :=
  ∃ s, Machine.run (step plainGuest) start actions = some s ∧ exitFrame (.status status) .disconnected ∈ s.box.handed ∧
    ¬ ∃ raw why, exitFrame (.status status) .disconnected = exitFrame raw why ∧
      Truthful plainGuest actions s (exitFields raw why).1 (exitFields raw why).2

theorem untoldBy {actions : List Action} {status : ExitStatus} (none : ∀ a ∈ actions, ¬ PeerLoss a)
    (said : ∃ s, Machine.run (step plainGuest) start actions = some s ∧
      exitFrame (.status status) .disconnected ∈ s.box.handed) : Untold actions status := by
  obtain ⟨s,reached,handed⟩ := said
  refine ⟨s,reached,handed,?_⟩
  intro ⟨raw,why,same,truthful⟩
  have reason : (exitFields raw why).2 = "disconnected" := by
    rw [← exitReason same]
    cases status <;> rfl
  obtain ⟨before,a,after,u,shape,_,_,loss⟩ := truthful.disconnected reason
  exact none a (by rw [shape]; simp) loss

-- The header 02 00 20 00 00 under the cap of 1 MiB.
def overlong : Action := .inbound (.oversize 2097152 1048576)

def overlongCommand : List Action :=
  [execOpening,overlong,.cancelArm,.exits (.signal 9),.waitReady false,.drainLapse,.drainLapse,.handSends]

def overlongShell : List Action := ptyOpening ++ [overlong,.exits (.signal 1),.waitReady false,.drainLapse,.handSends]

theorem exitReasonUntold : Untold overlongCommand (.signal 9) ∧ Untold overlongShell (.signal 1) :=
  ⟨untoldBy (by simp [overlongCommand,execOpening,overlong,PeerLoss]) (Machine.runEnds (by decide +kernel)),
    untoldBy (by simp [overlongShell,ptyOpening,overlong,PeerLoss]) (Machine.runEnds (by decide +kernel))⟩

end Guesthopper.SessionReason
