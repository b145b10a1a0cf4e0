import Guesthopper.SessionReason
import Guesthopper.SessionDrain

/-! What can be read off a session's wire at any moment, cut anywhere: whole frames, in the
order the session handed them on, and among them at most one EXIT, the last, which states the
outcome of the one wait for the child. -/
namespace Guesthopper.SessionAnswer
open FrameBytes SessionText SessionModel SessionMove SessionWire SessionTerminal SessionDrain
open SessionReason (reaping settled)

variable {env : Env} {s t : Session} {a : Action}

theorem decodePrefix {cap : Nat} (bound : cap < 2^32) {fs : List Frame} {raw : Bytes}
    (fits : ∀ f ∈ fs, f.payload.length ≤ cap) (part : raw <+: encodeAll fs) : decodeAll cap raw <+: fs := by
  obtain ⟨more,whole⟩ := part
  have decoded := decodeAllEncoded bound fits
  rw [← whole,(decodeAllAppend cap raw more).1] at decoded
  exact ⟨_,decoded⟩

-- The frames whose bytes the wire holds were all small enough to be written.
def Legible (s : Session) : Prop :=
  ∃ fs, fs <+: s.box.entered ∧ (∀ f ∈ fs, fitting f) ∧ s.box.wire <+: encodeAll fs

theorem legibleSame (ok : Legible s) (wire : t.box.wire = s.box.wire) (grows : s.box.entered <+: t.box.entered) : Legible t := by
  obtain ⟨fs,first,fits,written⟩ := ok
  exact ⟨fs,first.trans grows,fits,wire ▸ written⟩

theorem offerGrows {x : Frame} {b c : Outbox.Box Frame UInt8} (ok : Outbox.offer channelBound x b = some c) :
    c.wire = b.wire ∧ b.entered <+: c.entered := by
  rcases Outbox.offerCases ok with ⟨_,rfl⟩ | ⟨_,_,rfl⟩
  · exact ⟨rfl,List.prefix_rfl⟩
  · exact ⟨rfl,List.prefix_append _ _⟩

theorem putLegible {n : Nat} {c : Outbox.Box Frame UInt8} (faithful : Outbox.Faithful encode s.box) (fits : Fits s)
    (written : Outbox.put n s.box = some c) (small : sendable s.box.writer = true) : Legible {s with box := c} := by
  obtain ⟨x,rest,busy,_,_,rfl⟩ := Outbox.putCases written
  simp only [Outbox.Faithful,busy] at faithful
  simp only [Fits,busy] at fits
  simp only [busy,sendable,decide_eq_true_eq] at small
  obtain ⟨taken,entered,all⟩ := fits
  obtain ⟨taken',entered',wire⟩ := faithful
  obtain ⟨rfl,_⟩ := List.append_inj' (entered.symm.trans entered') rfl
  refine ⟨taken ++ [x],?_,?_,?_⟩
  · rw [entered]
    exact ⟨s.box.queue,by simp⟩
  · exact List.forall_mem_append.mpr ⟨all,by simpa [fitting] using small⟩
  · have whole : encodeAll (taken ++ [x]) = s.box.wire ++ rest.take n ++ rest.drop n := by
      rw [List.append_assoc,List.take_append_drop,wire]
      simp [encodeAll]
    rw [whole]
    exact List.prefix_append _ _

theorem moveLegible (h : Move env s a t) (faithful : Outbox.Faithful encode s.box) (fits : Fits s) (ok : Legible s) :
    Legible t := by
  cases h with
  | handSent pc offered => exact legibleSame ok (offerGrows offered).1 (offerGrows offered).2
  | pumpSent u holds offered next => exact legibleSame ok (offerGrows offered).1 (offerGrows offered).2
  | writerMoved calm moved =>
    cases moved with
    | take taken =>
      obtain ⟨_,_,_,_,rfl⟩ := Outbox.takeCases taken
      exact ok
    | put written small => exact putLegible faithful fits written small
    | finish done _ =>
      obtain ⟨_,_,rfl⟩ := Outbox.finishCases done
      exact ok
  | _ => exact legibleSame ok (by simp [Outbox.leave]) (by simp [Outbox.leave])

def Enters (s : Session) : Prop := s.box.entered <+: s.box.handed

theorem offerEnters {x : Frame} {b c : Outbox.Box Frame UInt8} (ok : Outbox.offer channelBound x b = some c)
    (enters : b.entered <+: b.handed) (even : b.writer ≠ .exited → b.handed = b.entered) : c.entered <+: c.handed := by
  rcases Outbox.offerCases ok with ⟨_,rfl⟩ | ⟨alive,_,rfl⟩
  · exact enters.trans (List.prefix_append _ _)
  · simp [even alive]

theorem moveEnters (h : Move env s a t) (even : Even s) (enters : Enters s) : Enters t := by
  cases h with
  | handSent pc offered => exact offerEnters offered enters (fun alive => even (.inr alive))
  | pumpSent u holds offered next => exact offerEnters offered enters (fun alive => even (.inr alive))
  | writerMoved calm moved =>
    simp only [Enters,boxMoveHanded moved,(boxMoveAlive moved).2.2]
    exact enters
  | _ => simpa [Enters,Outbox.leave] using enters

def Stated (s : Session) (f : Frame) : Prop :=
  (∃ msg, f = errorFrame msg) ∨ ∃ raw why, f = exitFrame raw why ∧ s.reap = some raw

structure Answered (s : Session) : Prop where
  pending : settled s.handler = false → s.reap = none
  reaped : ∀ raw, reaping s.handler = some raw → s.reap = some raw
  honest : ∀ status, s.reap = some (.status status) → s.child.life = .reaped status
  sending : ∀ f, s.handler = .sending f → Stated s f
  handed : ∀ f ∈ s.box.handed, Data f ∨ settled s.handler = true ∧ Stated s f

theorem statedSame {f : Frame} (reap : t.reap = s.reap) (stated : Stated s f) : Stated t f := by
  rcases stated with refusal | ⟨raw,why,shape,got⟩
  · exact .inl refusal
  · exact .inr ⟨raw,why,shape,reap.trans got⟩

theorem openHanded (ok : Answered s) (open' : settled s.handler = false) : ∀ f ∈ s.box.handed, Data f := by
  intro f said
  rcases ok.handed f said with data | ⟨past,_⟩
  · exact data
  · rw [open'] at past
    contradiction

theorem answeredOpen (ok : Answered s) (open' : settled s.handler = false) (reap : t.reap = s.reap)
    (handed : t.box.handed = s.box.handed) (unread : reaping t.handler = none)
    (refusal : ∀ f, t.handler = .sending f → ∃ msg, f = errorFrame msg) : Answered t where
  pending _ := reap.trans (ok.pending open')
  reaped raw got := by rw [unread] at got; contradiction
  honest status got := by rw [reap,ok.pending open'] at got; contradiction
  sending f pc := .inl (refusal f pc)
  handed f said := .inl (openHanded ok open' f (handed ▸ said))

theorem answeredSame (ok : Answered s) (pc : t.handler = s.handler) (reap : t.reap = s.reap) (child : t.child = s.child)
    (handed : ∀ f ∈ t.box.handed, f ∈ s.box.handed ∨ Data f) : Answered t where
  pending := by rw [pc,reap]; exact ok.pending
  reaped := by rw [pc,reap]; exact ok.reaped
  honest := by rw [reap,child]; exact ok.honest
  sending f at' := statedSame reap (ok.sending f (pc ▸ at'))
  handed f said := by
    rcases handed f said with old | data
    · rcases ok.handed f old with data | ⟨past,stated⟩
      · exact .inl data
      · exact .inr ⟨pc ▸ past,statedSame reap stated⟩
    · exact .inl data

theorem afterWaitAnswered {raw next child feed} (ok : Answered s) (moved : afterWait raw s.handler = some next)
    (honest : ∀ status, raw = .status status → child.life = .reaped status) :
    Answered {s with feed := feed, handler := next, child := child, reap := some raw} := by
  obtain ⟨open',_,_⟩ := SessionReason.afterWaitShape moved
  have shape : settled next = true ∧ (∀ other, reaping next = some other → other = raw) ∧
      ∀ f, next = .sending f → ∃ msg, f = errorFrame msg := by
    cases pc : s.handler <;> simp [pc,afterWait] at moved <;> subst moved <;> simp [settled,reaping]
  refine ⟨?_,?_,?_,?_,?_⟩
  · intro other
    rw [shape.1] at other
    contradiction
  · intro other got
    rw [shape.2.1 other got]
  · intro status got
    exact honest status (Option.some.inj got)
  · intro f pc
    exact .inl (shape.2.2 f pc)
  · intro f said
    exact .inl (openHanded ok open' f said)

theorem afterDrainReaps {h side} (pc : drainSide h = some side) : settled h = true ∧ settled (afterDrain h) = true ∧
    ∃ raw, reaping h = some raw ∧ (∀ other, reaping (afterDrain h) = some other → other = raw) ∧
      ∀ f, afterDrain h = .sending f → ∃ why, f = exitFrame raw why := by
  cases h with
  | execDrain side raw why =>
    cases side with
    | out => exact ⟨rfl,rfl,raw,rfl,by simp [afterDrain,reaping],by simp [afterDrain]⟩
    | err => exact ⟨rfl,rfl,raw,rfl,by simp [afterDrain,reaping],fun f same => ⟨why,(Handler.sending.inj same).symm⟩⟩
  | ptyDrain raw why => exact ⟨rfl,rfl,raw,rfl,by simp [afterDrain,reaping],fun f same => ⟨why,(Handler.sending.inj same).symm⟩⟩
  | _ => simp [drainSide] at pc

theorem afterDrainAnswered {side} (ok : Answered s) (pc : drainSide s.handler = some side)
    (next : t.handler = afterDrain s.handler) (reap : t.reap = s.reap) (child : t.child = s.child)
    (handed : t.box.handed = s.box.handed) : Answered t := by
  obtain ⟨_,after,raw,got,own,sends⟩ := afterDrainReaps pc
  have known := ok.reaped raw got
  refine ⟨?_,?_,?_,?_,?_⟩
  · intro other
    rw [next,after] at other
    contradiction
  · intro other again
    rw [own other (next ▸ again),reap,known]
  · rw [reap,child]
    exact ok.honest
  · intro f at'
    obtain ⟨why,shape⟩ := sends f (next ▸ at')
    exact .inr ⟨raw,why,shape,reap.trans known⟩
  · intro f said
    rcases ok.handed f (handed ▸ said) with data | ⟨_,stated⟩
    · exact .inl data
    · exact .inr ⟨by rw [next,after],statedSame reap stated⟩

theorem moveAnswered (h : Move env s a t) (ok : Answered s) : Answered t := by
  cases h with
  | firstRefused msg pc loud =>
    exact answeredOpen ok (by rw [pc]; rfl) rfl rfl rfl (fun f same => ⟨msg,(Handler.sending.inj same).symm⟩)
  | ptyRefused msg feed pc =>
    exact answeredOpen ok (by rw [pc]; rfl) rfl rfl rfl (fun f same => ⟨msg,(Handler.sending.inj same).symm⟩)
  | firstQuiet pc _ | firstExec pc _ | firstPty pc _ | ptyAbandoned _ _ _ pc | ptyServing _ _ pc | execStays _ _ _ pc _ _
  | execLost pc _ _ | execRefused pc _ | ptyStays _ _ pc =>
    exact answeredOpen ok (by rw [pc]; rfl) rfl rfl rfl (by simp)
  | ptyLost fired pc keeps => exact answeredOpen ok (by rw [pc]; rfl) (by simp) (by simp) rfl (by simp)
  | execKilled why pc => exact answeredOpen ok (by rw [pc]; rfl) (by simp) (by simp) rfl (by simp)
  | hangupLapsed pc => exact answeredOpen ok (by rw [pc]; rfl) (by simp) (by simp) rfl (by simp)
  | waited got free next =>
    refine afterWaitAnswered ok next ?_
    intro status same
    rcases SessionChild.waitCases got with ⟨is,_⟩ | ⟨status',_,is,shape⟩
    · rw [is] at same
      contradiction
    · rw [shape]
      rw [is] at same
      cases same
      rfl
  | reapLapsed armed next => exact afterWaitAnswered ok next (by simp)
  | drainJoined pc done => exact afterDrainAnswered ok pc rfl rfl rfl rfl
  | drainLapsed pc live => exact afterDrainAnswered ok pc rfl (by simp) (by simp) (by simp)
  | @handSent f box pc offered =>
    refine ⟨by simp [settled],by simp [reaping],ok.honest,by simp,?_⟩
    intro g said
    simp only [offerHanded offered] at said
    rcases List.mem_append.mp said with old | new
    · exact (ok.handed g old).imp_right (fun stands => ⟨rfl,stands.2⟩)
    · cases List.mem_singleton.mp new
      exact .inr ⟨rfl,ok.sending _ pc⟩
  | joined pc gone =>
    refine ⟨by simp [settled],by simp [reaping],ok.honest,by simp,?_⟩
    intro f said
    exact (ok.handed f said).imp_right (fun stands => ⟨rfl,stands.2⟩)
  | streamMoved side moved => exact answeredSame ok (by simp) (by simp) (by simp) (fun f said => .inl (by simpa using said))
  | @pumpSent side chunk box u holds offered next =>
    refine answeredSame ok (by simp) (by simp) (by simp) ?_
    intro f said
    simp only [offerHanded offered] at said
    rcases List.mem_append.mp said with old | new
    · exact .inl old
    · cases List.mem_singleton.mp new
      exact .inr (sideData side chunk)
  | writerMoved calm moved => exact answeredSame ok rfl rfl rfl (fun f said => .inl (boxMoveHanded moved ▸ said))
  | writerGaveUp calm busy => exact answeredSame ok rfl rfl rfl (fun f said => .inl said)
  | writerCancelled fired => exact answeredSame ok rfl rfl rfl (fun f said => .inl said)
  | writerClosed calm idle drained gone => exact answeredSame ok rfl rfl rfl (fun f said => .inl said)
  | exited alive =>
    refine ⟨ok.pending,ok.reaped,?_,ok.sending,ok.handed⟩
    intro status got
    have life := ok.honest status got
    rw [alive] at life
    contradiction

structure Legal (s : Session) : Prop where
  booked : Booked s
  legible : Legible s
  enters : Enters s
  answered : Answered s

theorem reachedLegal {actions : List Action} (reached : Machine.run (step env) start actions = some s) : Legal s := by
  refine Machine.runKeeps (I := Legal) ?_ ?_ reached
  · intro u a v legal h
    exact ⟨stepBooked legal.booked h,moveLegible (stepMove h) legal.booked.sound.faithful legal.booked.fits legal.legible,
      moveEnters (stepMove h) legal.booked.even legal.enters,moveAnswered (stepMove h) legal.answered⟩
  · refine ⟨bookedStart,⟨[],List.prefix_rfl,by simp,List.prefix_rfl⟩,List.prefix_rfl,?_⟩
    exact ⟨fun _ => rfl,by simp [start,reaping],by simp [start],by simp [start],by simp [start,Outbox.empty]⟩

theorem heardPrefix (legal : Legal s) {raw : Bytes} (part : raw <+: s.box.wire) :
    decodeAll maxFrameLen raw <+: s.box.entered := by
  obtain ⟨fs,first,fits,written⟩ := legal.legible
  exact (decodePrefix (by decide) fits (part.trans written)).trans first

theorem statedExit {f : Frame} (stated : Stated s f) (exit : f.ftype = frameExit) :
    ∃ raw why, f = exitFrame raw why ∧ s.reap = some raw := by
  rcases stated with ⟨msg,rfl⟩ | states
  · exact absurd exit (by simp [errorFrame,frameExit,frameError])
  · exact states

theorem statedError {f : Frame} (stated : Stated s f) (error : f.ftype = frameError) : ∃ msg, f = errorFrame msg := by
  rcases stated with refusal | ⟨raw,why,rfl,_⟩
  · exact refusal
  · exact absurd error (by simp [exitFrame,frameExit,frameError])

theorem dataNoTerminal {f : Frame} (data : Data f) : f.ftype ≠ frameExit ∧ f.ftype ≠ frameError := by
  rcases data with is | is <;> rw [is] <;> decide

theorem spokenTerminal {f : Frame} (spoken : Spoken s) (known : f ∈ s.box.handed) (terminal : ¬ Data f) :
    ∃ pre, s.box.handed = pre ++ [f] ∧ ∀ g ∈ pre, Data g := by
  have fromSaid : ∀ {ending}, Said ending s.box.handed → ∃ pre, s.box.handed = pre ++ [f] ∧ ∀ g ∈ pre, Data g := by
    intro ending said
    generalize s.box.handed = handed at said known
    cases said with
    | nothing => contradiction
    | refusal kind =>
      cases List.mem_singleton.mp known
      exact ⟨[],rfl,by simp⟩
    | @result pre g data kind =>
      rcases List.mem_append.mp known with old | new
      · exact absurd (data f old) terminal
      · cases List.mem_singleton.mp new
        exact ⟨pre,rfl,data⟩
  unfold Spoken at spoken
  split at spoken
  · rw [spoken.2.2] at known; contradiction
  · rw [spoken.2.2] at known; contradiction
  · exact absurd (spoken.2.2 f known) terminal
  · rcases spoken.2 with ⟨_,_,none⟩ | ⟨_,_,data⟩
    · rw [none] at known; contradiction
    · exact absurd (data f known) terminal
  · rcases spoken with ⟨_,_,said⟩ | ⟨_,_,said⟩ | ⟨_,_,said⟩
    all_goals exact fromSaid said

theorem exitStands (legal : Legal s) {f : Frame} (known : f ∈ s.box.handed) (exit : f.ftype = frameExit) :
    ∃ pre raw why, s.box.handed = pre ++ [f] ∧ (∀ g ∈ pre, Data g) ∧ f = exitFrame raw why ∧
      s.reap = some raw ∧ ∀ status, raw = .status status → s.child.life = .reaped status := by
  have terminal : ¬ Data f := fun data => (dataNoTerminal data).1 exit
  obtain ⟨pre,shape,data⟩ := spokenTerminal legal.booked.spoken known terminal
  obtain ⟨raw,why,is,got⟩ := statedExit ((legal.answered.handed f known).resolve_left terminal).2 exit
  refine ⟨pre,raw,why,shape,data,is,got,?_⟩
  intro status same
  exact legal.answered.honest status (same ▸ got)

end Guesthopper.SessionAnswer
