import Guesthopper.SessionTerminal

/-! Teardown as a wait-for question. Once it has begun, whatever the handler, the pumps
and the writer are parked on, some step of a session task or the expiry of an armed
timer is enabled; the peer and the child have no part in any of them. -/
namespace Guesthopper.SessionTeardown
open FrameBytes SessionText SessionModel SessionMove SessionWire SessionTerminal

variable {env : Env} {s t : Session} {a : Action}

def begun : Handler → Bool
  | .readRequest | .openpty _ | .execSelect _ _ _ | .ptySelect _ => false
  | _ => true

def Teardown (s : Session) : Prop := s.cancel = true ∨ begun s.handler = true

def internal : Action → Bool
  | .cancelArm | .drainJoined | .handSends | .writerJoined | .writerTakes | .writerCancelled | .writerCloses => true
  | _ => false

def expiry : Action → Bool
  | .reapLapse | .hangupLapse | .drainLapse | .writerStalls => true
  | _ => false

def Moves (env : Env) (s : Session) : Prop :=
  ∃ a, (internal a = true ∨ expiry a = true) ∧ (step env s a).isSome = true

def Drainable (s : Session) : Prop :=
  ∀ side, hushed s.handler side = false → Tap.live (s.stream side) = true ∨ (s.stream side).phase = .finished

theorem drainableSame (ok : Drainable s) (out : t.out = s.out) (err : t.err = s.err)
    (more : ∀ side, hushed t.handler side = false → hushed s.handler side = false) : Drainable t := by
  intro side now
  rw [streamSame out err side]
  exact ok side (more side now)

theorem tapDrainable {side x u} (move : TapMove side x a u) (ok : Tap.live x = true ∨ x.phase = .finished) :
    Tap.live u = true ∨ u.phase = .finished := by
  cases move with
  | read got => obtain ⟨_,_,_,_,rfl⟩ := Tap.readCases got; exact .inl rfl
  | eof got => obtain ⟨_,_,rfl⟩ := Tap.eofCases got; exact .inr rfl
  | fail got => obtain ⟨_,rfl⟩ := Tap.failCases got; exact .inr rfl
  | supply got => obtain ⟨_,_,rfl⟩ := Tap.supplyCases got; exact ok
  | detach got => obtain ⟨_,rfl⟩ := Tap.detachCases got; exact ok

theorem afterDrainPending {h which side} (pc : drainSide h = some which) (now : hushed (afterDrain h) side = false) :
    which ≠ side ∧ hushed h side = false := by
  cases h with
  | execDrain first raw why =>
    cases pc
    cases which with
    | out =>
      cases side with
      | out => cases now
      | err => exact ⟨by decide,rfl⟩
    | err => cases side <;> cases now
  | ptyDrain raw why => cases side <;> cases pc <;> cases now
  | _ => simp [drainSide] at pc

theorem moveDrainable (h : Move env s a t) (ok : Drainable s) : Drainable t := by
  cases h with
  | firstExec pc accepted => intro side now; cases side <;> exact .inl rfl
  | ptyServing pid feed pc =>
    intro side now
    cases side with
    | out => exact .inl rfl
    | err => cases now
  | waited got free next => exact drainableSame ok rfl rfl (fun side now => (afterWaitHushed side next).trans now)
  | reapLapsed armed next => exact drainableSame ok rfl rfl (fun side now => (afterWaitHushed side next).trans now)
  | drainJoined pc done => exact drainableSame ok rfl rfl (fun side now => (afterDrainPending pc now).2)
  | @drainLapsed which pc live =>
    intro side now
    obtain ⟨other,before⟩ := afterDrainPending pc now
    refine setStreamEach (P := fun x => Tap.live x = true ∨ x.phase = .finished) ?_ (fun _ => ok side before)
    intro own
    exact absurd own other
  | ptyLost fired pc keeps =>
    refine drainableSame ok (by simp) (by simp) ?_
    intro side now
    rw [pc]
    cases side <;> first | rfl | cases now
  | execKilled why pc => exact drainableSame ok (by simp) (by simp) (fun side _ => by rw [pc]; cases side <;> rfl)
  | hangupLapsed pc =>
    refine drainableSame ok (by simp) (by simp) ?_
    intro side now
    rw [pc]
    cases side <;> first | rfl | cases now
  | streamMoved which moved =>
    intro side now
    rw [setStreamHandler] at now
    have still := ok side now
    refine setStreamEach (P := fun x => Tap.live x = true ∨ x.phase = .finished) ?_ (fun _ => still)
    intro own
    subst own
    exact tapDrainable moved still
  | @pumpSent which chunk box u holds offered next =>
    intro side now
    have own : Tap.live u = true ∨ u.phase = .finished := by
      rw [next]
      split
      · exact .inr rfl
      · exact .inl rfl
    have still := ok side (by simpa using now)
    exact setStreamEach (P := fun x => Tap.live x = true ∨ x.phase = .finished) (fun _ => own) (fun _ => still)
  | firstQuiet pc _ | firstRefused _ pc _ | firstPty pc _ | ptyRefused _ _ pc | ptyAbandoned _ _ _ pc
  | execStays _ _ _ pc _ _ | execLost pc _ _ | execRefused pc _ | ptyStays _ _ pc | handSent pc _ | joined pc _ =>
    refine drainableSame ok rfl rfl ?_
    intro side now
    rw [pc]
    cases side <;> first | rfl | cases now
  | _ => exact drainableSame ok rfl rfl (fun side now => now)

theorem drainableStart : Drainable start := by
  intro side now
  cases side <;> cases now

theorem reachedDrainable {actions} (reached : Machine.run (step env) start actions = some s) : Drainable s :=
  Machine.runKeeps (fun _ _ _ ok h => moveDrainable (stepMove h) ok) drainableStart reached

theorem cancelMoves (fired : s.cancel = true) (selecting : begun s.handler = false) (late : early s.handler = false) :
    Moves env s := by
  refine ⟨.cancelArm,.inl rfl,?_⟩
  cases pc : s.handler with
  | execSelect input stdin deadline => simp [step,cancelArm,fired,pc]
  | ptySelect input => simp [step,cancelArm,fired,pc]
  | readRequest => rw [pc] at late; cases late
  | openpty req => rw [pc] at late; cases late
  | _ => rw [pc] at selecting; cases selecting

theorem graceMoves (armed : graceArmed s.handler = true) : Moves env s := by
  refine ⟨.reapLapse,.inr rfl,?_⟩
  cases pc : s.handler <;> simp [pc,graceArmed] at armed <;> simp [step,reapLapse,graceArmed,afterWait,pc]

theorem drainMoves {side} (pc : drainSide s.handler = some side) (pending : hushed s.handler side = false)
    (ok : Drainable s) : Moves env s := by
  rcases ok side pending with live | done
  · refine ⟨.drainLapse,.inr rfl,?_⟩
    simp [step,drainLapse,pc,live]
  · refine ⟨.drainJoined,.inl rfl,?_⟩
    simp [step,drainJoined,pc,done]

-- A writer that has not left is about to see `cancel`, or is in a timed write, or has a frame to take.
theorem writerMoves (alive : s.box.writer ≠ .exited) (work : s.cancel = true ∨ s.box.queue ≠ [] ∨ writing s.box.writer = true) :
    Moves env s := by
  cases fired : s.cancel with
  | true =>
    refine ⟨.writerCancelled,.inl rfl,?_⟩
    simp [step,writerCancelled,fired,alive]
  | false =>
    cases at_ : s.box.writer with
    | exited => exact absurd at_ alive
    | writing f rest =>
      refine ⟨.writerStalls,.inr rfl,?_⟩
      simp [step,writerGivesUp,fired,writing,at_]
    | receiving =>
      refine ⟨.writerTakes,.inl rfl,?_⟩
      have queued : s.box.queue ≠ [] := by
        rcases work with now | queued | busy
        · rw [fired] at now; cases now
        · exact queued
        · rw [at_] at busy; cases busy
      obtain ⟨f,rest,shape⟩ := List.exists_cons_of_ne_nil queued
      simp [step,onBox,fired,Outbox.take,at_,shape]

theorem sendMoves {f} (pc : s.handler = .sending f) : Moves env s := by
  cases offered : Outbox.offer channelBound f s.box with
  | some box =>
    refine ⟨.handSends,.inl rfl,?_⟩
    simp [step,handSends,pc,offered]
  | none =>
    obtain ⟨alive,full⟩ := Outbox.offerBlocked offered
    refine writerMoves alive (.inr (.inl ?_))
    intro none
    simp [none,channelBound] at full

theorem joinMoves (pc : s.handler = .joinWriter) (quiet : Hushed s) : Moves env s := by
  by_cases gone : s.box.writer = .exited
  · refine ⟨.writerJoined,.inl rfl,?_⟩
    simp [step,writerJoined,pc,gone]
  by_cases work : s.cancel = true ∨ s.box.queue ≠ [] ∨ writing s.box.writer = true
  · exact writerMoves gone work
  refine ⟨.writerCloses,.inl rfl,?_⟩
  have still := fun side => quiet side (by rw [pc]; cases side <;> rfl)
  have senders := sendersGoneOf (.inl pc) still
  cases at_ : s.box.writer with
  | exited => exact absurd at_ gone
  | writing f rest => simp [writing,at_] at work
  | receiving =>
    simp only [at_,writing] at work
    have calm : s.cancel = false := by simpa using fun fired => work (.inl fired)
    have drained : s.box.queue = [] := by
      by_contra queued
      exact work (.inr (.inl queued))
    simp [step,writerCloses,calm,at_,drained,senders]

theorem teardownMoves {actions} (reached : Machine.run (step env) start actions = some s)
    (torn : Teardown s) (pending : s.handler ≠ .returned) : Moves env s := by
  have ok := reachedDrainable reached
  have quiet := reachedHushed reached
  have fresh := reachedFresh reached
  cases pc : s.handler with
  | readRequest =>
    have calm := (fresh (by rw [pc]; rfl)).2.1
    simp [Teardown,calm,pc,begun] at torn
  | openpty req =>
    have calm := (fresh (by rw [pc]; rfl)).2.1
    simp [Teardown,calm,pc,begun] at torn
  | execSelect input stdin deadline =>
    have fired := torn.resolve_right (by rw [pc]; simp [begun])
    exact cancelMoves fired (by rw [pc]; rfl) (by rw [pc]; rfl)
  | ptySelect input =>
    have fired := torn.resolve_right (by rw [pc]; simp [begun])
    exact cancelMoves fired (by rw [pc]; rfl) (by rw [pc]; rfl)
  | abandon msg => exact graceMoves (by rw [pc]; rfl)
  | execReap why => exact graceMoves (by rw [pc]; rfl)
  | hangupReap => exact graceMoves (by rw [pc]; rfl)
  | hangupWait =>
    refine ⟨.hangupLapse,.inr rfl,?_⟩
    simp [step,hangupLapse,pc]
  | execDrain side raw why => exact drainMoves (by rw [pc]; rfl) (by rw [pc]; cases side <;> rfl) ok
  | ptyDrain raw why => exact drainMoves (by rw [pc]; rfl) (by rw [pc]; rfl) ok
  | sending f => exact sendMoves pc
  | joinWriter => exact joinMoves pc quiet
  | returned => exact absurd pc pending

/- The peer has stopped reading: the writer is inside a write, the queue is full, the pump was
aborted with a chunk in hand and EXIT waits for room. -/
def fullQueue : List Action :=
  let output : List Action := [.supplies .out [97],.pumpReads .out 1,.pumpSends .out]
  ptyOpening ++ output ++ .writerTakes :: (List.replicate 64 output).flatten ++
    [.supplies .out [97],.pumpReads .out 1,.exits (.code 0),.waitReady false,.drainLapse]

theorem teardownMovesFull : ∃ s,
    Machine.run (step plainGuest) start fullQueue = some s ∧ (step plainGuest s .handSends).isNone = true ∧
    Moves plainGuest s := by
  have ends : ∃ s, Machine.run (step plainGuest) start fullQueue = some s ∧
      s.handler = .sending (exitFrame (.status (.code 0)) .none) ∧ (step plainGuest s .handSends).isNone = true :=
    Machine.runEnds (by decide +kernel)
  obtain ⟨s,reached,pc,full⟩ := ends
  exact ⟨s,reached,full,teardownMoves reached (.inr (by rw [pc]; rfl)) (by rw [pc]; simp)⟩

end Guesthopper.SessionTeardown
