import Guesthopper.SessionTeardown

/-! Whether a lost peer is noticed before teardown. The watch is an operation bounded by
`idle_timeout`: the first read, the read of an inbound frame, or the write of a STDIN
payload. exec keeps its select running after the loop that reads frames has ended, and
that loop also ends, without firing `cancel`, when the child has closed its stdin. -/
namespace Guesthopper.SessionWatch
open FrameBytes SessionText SessionModel SessionMove SessionWire SessionTeardown

variable {env : Env} {s t : Session} {a : Action}

def reader : Handler → Option (ReadResult → Action)
  | .readRequest => some .firstRead
  | .execSelect (some .reading) _ _ | .ptySelect .reading => some .inbound
  | _ => none

def idleLapse : Handler → Option Action
  | .execSelect (some (.writing _)) _ _ | .ptySelect (.writing _) => some .stalls
  | h => (reader h).map (· .elapsed)

def Catches (env : Env) (s : Session) (a : Action) : Prop := ∃ t, step env s a = some t ∧ Teardown t

-- An operation on the peer's behalf is pending, and silence or a lost transport ends the session.
def Attended (env : Env) (s : Session) : Prop :=
  (∃ a, idleLapse s.handler = some a ∧ Catches env s a) ∧
  ∀ read, reader s.handler = some read → Catches env s (read .eof) ∧ ∀ e, Catches env s (read (.error e))

def Accepted (s : Session) : Action → Prop
  | .refuses => ∀ i stdin deadline, s.handler ≠ .execSelect i stdin deadline
  | _ => True

def Unheard (s : Session) : Prop := ∃ stdin deadline, s.handler = .execSelect none stdin deadline

theorem endingBegun {h} (ok : ending h = true) : begun h = true := by
  cases h <;> first | rfl | cases ok

theorem teardownStays (h : Move env s a t) (torn : Teardown s) : Teardown t := by
  cases h with
  | firstQuiet pc quiet => exact .inr rfl
  | firstRefused msg pc loud => exact .inr rfl
  | firstExec pc ok | firstPty pc ok | ptyServing _ _ pc | execStays _ _ _ pc _ _ | execRefused pc _ | ptyStays _ _ pc =>
    refine .inl (torn.resolve_right ?_)
    rw [pc]
    simp [begun]
  | ptyRefused msg feed pc => exact .inr rfl
  | ptyAbandoned msg pid feed pc => exact .inr rfl
  | execLost pc calm other => exact .inl rfl
  | ptyLost fired pc keeps => exact .inr rfl
  | execKilled why pc => exact .inr rfl
  | waited got free next => exact .inr (endingBegun (afterWaitEnding next))
  | reapLapsed armed next => exact .inr (endingBegun (afterWaitEnding next))
  | hangupLapsed pc => exact .inr rfl
  | drainJoined pc done => exact .inr (endingBegun (afterDrainEnding pc))
  | drainLapsed pc live => exact .inr (endingBegun (afterDrainEnding pc))
  | handSent pc ok => exact .inr rfl
  | joined pc gone => exact .inr rfl
  | writerGaveUp calm busy => exact .inl rfl
  | _ => simpa [Teardown] using torn

theorem unheardStays (h : Move env s a t) (unheard : Unheard s) : Teardown t ∨ Unheard t := by
  obtain ⟨stdin,deadline,pc⟩ := unheard
  cases h with
  | execKilled why pc' => exact .inl (.inr rfl)
  | waited got free next =>
    simp only [pc,afterWait,Option.some.injEq] at next
    exact .inl (.inr (by rw [← next]; rfl))
  | reapLapsed armed next => rw [pc] at armed; cases armed
  | drainJoined now done => rw [pc] at now; cases now
  | drainLapsed now live => rw [pc] at now; cases now
  | streamMoved side ok => exact .inr ⟨stdin,deadline,by simpa using pc⟩
  | pumpSent u holds ok next => exact .inr ⟨stdin,deadline,by simpa using pc⟩
  | writerMoved calm ok => exact .inr ⟨stdin,deadline,pc⟩
  | writerGaveUp calm busy => exact .inr ⟨stdin,deadline,pc⟩
  | writerCancelled fired => exact .inr ⟨stdin,deadline,pc⟩
  | writerClosed calm idle drained gone => exact .inr ⟨stdin,deadline,pc⟩
  | exited alive => exact .inr ⟨stdin,deadline,pc⟩
  | firstQuiet now _ | firstRefused _ now _ | firstExec now _ | firstPty now _ | ptyRefused _ _ now
  | ptyAbandoned _ _ _ now | ptyServing _ _ now | execStays _ _ _ now _ _ | execLost now _ _ | execRefused now _
  | ptyStays _ _ now | ptyLost _ now _ | hangupLapsed now | handSent now _ | joined now _ =>
    rw [pc] at now
    cases now

theorem refusedUnheard (h : step env s a = some t) (bad : ¬ Accepted s a) : Unheard t := by
  cases a with
  | refuses =>
    simp only [Accepted,not_forall,not_not] at bad
    obtain ⟨i,stdin,deadline,pc⟩ := bad
    simp only [step,refuses,pc] at h
    split at h <;> try contradiction
    · rename_i now
      cases now
      split at h <;> try contradiction
      cases Option.some.inj h
      exact ⟨stdin,deadline,rfl⟩
  | _ => exact absurd trivial bad

def Heard (s : Session) : Prop := Unheard s → s.cancel = true

theorem moveHeard (h : Move env s a t) (accepted : Accepted s a) (heard : Heard s) : Heard t := by
  intro unheard
  obtain ⟨stdin,deadline,now⟩ := unheard
  cases h with
  | execLost pc calm other => rfl
  | execRefused pc calm => exact absurd pc (accepted _ _ _)
  | waited got free next => exact absurd now ((endingWaits (afterWaitEnding next)).2 _ _ _)
  | reapLapsed armed next => exact absurd now ((endingWaits (afterWaitEnding next)).2 _ _ _)
  | drainJoined pc done => exact absurd now ((endingWaits (afterDrainEnding pc)).2 _ _ _)
  | drainLapsed pc live => exact absurd now ((endingWaits (afterDrainEnding pc)).2 _ _ _)
  | streamMoved side ok => simpa using heard ⟨stdin,deadline,by simpa using now⟩
  | pumpSent u holds ok next => simpa using heard ⟨stdin,deadline,by simpa using now⟩
  | writerMoved calm ok => exact heard ⟨stdin,deadline,now⟩
  | writerGaveUp calm busy => rfl
  | writerCancelled fired => exact fired
  | writerClosed calm idle drained gone => exact heard ⟨stdin,deadline,now⟩
  | exited alive => exact heard ⟨stdin,deadline,now⟩
  | _ => cases now

theorem attendedHandler (attended : Attended env s) : ¬ Unheard s ∧ ∀ req, s.handler ≠ .openpty req := by
  obtain ⟨⟨a,pending,_⟩,_⟩ := attended
  constructor
  · intro unheard
    obtain ⟨stdin,deadline,pc⟩ := unheard
    rw [pc] at pending
    cases pending
  · intro req pc
    rw [pc] at pending
    cases pending

def Lost (r : ReadResult) : Prop := r = .elapsed ∨ r = .eof ∨ ∃ e, r = .error e

theorem firstReadCatches {r} (pc : s.handler = .readRequest) (lost : Lost r) : Catches env s (.firstRead r) := by
  rcases lost with rfl | rfl | ⟨e,rfl⟩
  · exact ⟨_,by simp only [step,firstRead,pc]; rfl,.inr rfl⟩
  · exact ⟨_,by simp only [step,firstRead,pc]; rfl,.inr rfl⟩
  · exact ⟨_,by simp only [step,firstRead,pc]; rfl,.inr rfl⟩

theorem execInboundCatches {r stdin deadline} (pc : s.handler = .execSelect (some .reading) stdin deadline)
    (calm : s.cancel = false) (lost : Lost r) : Catches env s (.inbound r) := by
  rcases lost with rfl | rfl | ⟨e,rfl⟩
  · exact ⟨_,by simp only [step,inbound,pc,calm]; rfl,.inl rfl⟩
  · exact ⟨_,by simp only [step,inbound,pc,calm]; rfl,.inl rfl⟩
  · exact ⟨_,by simp only [step,inbound,pc,calm]; rfl,.inl rfl⟩

theorem ptyInboundCatches {r} (pc : s.handler = .ptySelect .reading) (lost : Lost r) : Catches env s (.inbound r) := by
  rcases lost with rfl | rfl | ⟨e,rfl⟩
  · exact ⟨_,by simp only [step,inbound,pc]; rfl,.inr rfl⟩
  · exact ⟨_,by simp only [step,inbound,pc]; rfl,.inr rfl⟩
  · exact ⟨_,by simp only [step,inbound,pc]; rfl,.inr rfl⟩

theorem attendedReading {read : ReadResult → Action} (pending : reader s.handler = some read)
    (lapse : idleLapse s.handler = some (read .elapsed)) (lost : ∀ {r}, Lost r → Catches env s (read r)) :
    Attended env s := by
  refine ⟨⟨_,lapse,lost (.inl rfl)⟩,?_⟩
  intro other same
  cases Option.some.inj (pending.symm.trans same)
  exact ⟨lost (.inr (.inl rfl)),fun e => lost (.inr (.inr ⟨e,rfl⟩))⟩

theorem attendedWriting (lapse : idleLapse s.handler = some .stalls) (deaf : reader s.handler = none)
    (lost : Catches env s .stalls) : Attended env s := by
  refine ⟨⟨_,lapse,lost⟩,?_⟩
  intro read pending
  rw [deaf] at pending
  cases pending

theorem attendedOf (calm : ¬ Teardown s) (heard : ¬ Unheard s) (opened : ∀ req, s.handler ≠ .openpty req) :
    Attended env s := by
  have quiet : s.cancel = false := by simpa using fun fired => calm (.inl fired)
  have selecting : begun s.handler = false := by simpa using fun now => calm (.inr now)
  cases pc : s.handler with
  | readRequest => exact attendedReading (by rw [pc]; rfl) (by rw [pc]; rfl) (firstReadCatches pc)
  | openpty req => exact absurd pc (opened req)
  | execSelect input stdin deadline =>
    cases input with
    | none => exact absurd ⟨stdin,deadline,pc⟩ heard
    | some input =>
      cases input with
      | reading => exact attendedReading (by rw [pc]; rfl) (by rw [pc]; rfl) (execInboundCatches pc quiet)
      | writing rest =>
        exact attendedWriting (by rw [pc]; rfl) (by rw [pc]; rfl)
          ⟨_,by simp only [step,stalls,pc,quiet]; rfl,.inl rfl⟩
  | ptySelect input =>
    cases input with
    | reading => exact attendedReading (by rw [pc]; rfl) (by rw [pc]; rfl) (ptyInboundCatches pc)
    | writing rest =>
      exact attendedWriting (by rw [pc]; rfl) (by rw [pc]; rfl)
        ⟨_,by simp only [step,stalls,pc,quiet]; rfl,.inr rfl⟩
  | _ => rw [pc] at selecting; cases selecting

theorem watchedExact {actions} (reached : Machine.run (step env) start actions = some s) (calm : ¬ Teardown s) :
    Attended env s ↔
      Machine.Along (step env) Accepted start actions ∧ ∀ req, s.handler ≠ .openpty req := by
  constructor
  · intro attended
    obtain ⟨heard,opened⟩ := attendedHandler attended
    refine ⟨?_,opened⟩
    refine Machine.alongOfUnmarked (I := fun _ => True) (M := fun u => Teardown u ∨ Unheard u) ?_ ?_ ?_ trivial reached ?_
    · intro u b v _ _; trivial
    · intro u b v _ bad h; exact .inr (refusedUnheard h bad)
    · intro u b v _ marked h
      rcases marked with torn | unheard
      · exact .inl (teardownStays (stepMove h) torn)
      · exact unheardStays (stepMove h) unheard
    · intro marked
      exact marked.elim calm heard
  · intro ⟨along,opened⟩
    have heard := Machine.runKeepsAlong (I := Heard)
      (fun u b v heard accepted h => moveHeard (stepMove h) accepted heard)
      (fun unheard => by obtain ⟨_,_,pc⟩ := unheard; cases pc) along reached
    exact attendedOf calm (fun unheard => calm (.inl (heard unheard))) opened

def closedStdin : List Action := [execOpening,.inbound (.frame ⟨frameStdin,[104,105]⟩),.refuses]

def busyExec : List Action :=
  [execOpening,.inbound (.frame ⟨frameStdin,[104,105]⟩),.accepts 1,.accepts 1,.supplies .out [111],.pumpReads .out 1,
    .pumpSends .out,.writerTakes,.writerPuts 3,.inbound (.frame ⟨framePing,[]⟩)]

theorem watchedExactReading : ∃ s, Machine.run (step plainGuest) start busyExec = some s ∧ ¬ Teardown s ∧
    s.feed = [.bytes [104],.bytes [105]] ∧ Attended plainGuest s := by
  have ends : ∃ s, Machine.run (step plainGuest) start busyExec = some s ∧ (s.cancel = false ∧
      s.handler = .execSelect (some .reading) true none ∧ s.feed = [.bytes [104],.bytes [105]]) := Machine.runEnds (by decide)
  obtain ⟨s,reached,quiet,pc,fed⟩ := ends
  have calm : ¬ Teardown s := by simp [Teardown,quiet,pc,begun]
  have accepted : Machine.Along (step plainGuest) Accepted start busyExec := by
    refine Machine.alongIff.mpr ?_
    intro pre a post u shape _
    have known : a ≠ .refuses := by
      rintro rfl
      have inside : Action.refuses ∈ busyExec := by simp [shape]
      exact absurd inside (by decide)
    cases a <;> trivial
  exact ⟨s,reached,calm,fed,(watchedExact reached calm).mpr ⟨accepted,by simp [pc]⟩⟩

/- The child of an exec without a deadline has closed its stdin: nothing reads the peer any more,
so neither its EOF nor its silence is a step of the session. -/
theorem closedStdinUnwatched : ∃ s,
    Machine.run (step plainGuest) start closedStdin = some s ∧ ¬ Teardown s ∧ s.child.life = .running ∧
    ¬ Attended plainGuest s ∧ step plainGuest s .stalls = none ∧ step plainGuest s .deadlineArm = none ∧
    ∀ r, step plainGuest s (.inbound r) = none := by
  have ends : ∃ s, Machine.run (step plainGuest) start closedStdin = some s ∧
      s.handler = .execSelect none true none ∧ s.cancel = false ∧ s.child.life = .running :=
    Machine.runEnds (by decide)
  obtain ⟨s,reached,pc,quiet,alive⟩ := ends
  refine ⟨s,reached,by simp [Teardown,quiet,pc,begun],alive,?_,?_,?_,?_⟩
  · intro attended
    exact (attendedHandler attended).1 ⟨true,none,pc⟩
  · simp [step,stalls,pc]
  · simp [step,deadlineArm,pc]
  · intro r
    simp [step,inbound,pc]

end Guesthopper.SessionWatch
