import Guesthopper.SessionTerminal

/-! The child of a session from spawn to the handler's return. A signal goes to the
group of a pid; the pid is the child's own only while the child was spawned and not yet
reaped, so each signal is recorded with the life of the child at that moment. -/
namespace Guesthopper.SessionChild
open FrameBytes SessionText SessionModel SessionMove SessionTerminal

variable {env : Env} {s t : Session} {a : Action}

def unreaped : Life → Bool
  | .running | .zombie _ => true
  | _ => false

inductive Custody where
  | unborn
  | watched
  | condemned
  | released
  deriving DecidableEq

def custody : Handler → Custody
  | .readRequest | .openpty _ => .unborn
  | .execSelect _ _ _ | .ptySelect _ | .hangupWait => .watched
  | .abandon _ | .execReap _ | .hangupReap => .condemned
  | _ => .released

def Killed (s : Session) : Prop := ∃ x ∈ s.sent, x.signal = .kill ∧ x.group = s.child.pid

def Released (s : Session) : Prop :=
  (∃ status, s.child.life = .reaped status) ∨ s.reap = some .osError ∨ (s.reap = some .timedOut ∧ Killed s)

def Tended (s : Session) : Prop :=
  match custody s.handler with
  | .unborn => s.child.life = .unspawned ∧ s.sent = []
  | .watched => unreaped s.child.life = true
  | .condemned => unreaped s.child.life = true ∧ Killed s
  | .released => s.child.life = .unspawned ∨ Released s

def Signalled (s : Session) : Prop := ∀ x ∈ s.sent, x.group = s.child.pid ∧ unreaped x.life = true

theorem tendedSame (tended : Tended s) (pc : custody t.handler = custody s.handler) (child : t.child = s.child)
    (sent : t.sent = s.sent) (reap : t.reap = s.reap) : Tended t := by
  unfold Tended Released Killed at tended ⊢
  rw [pc,child,sent,reap]
  exact tended

theorem unreapedId {c : Child} (alive : unreaped c.life = true) : c.id = some c.pid := by
  unfold unreaped at alive
  split at alive <;> simp_all [Child.id]

theorem idUnreaped {c : Child} {pid : Nat} (h : c.id = some pid) : pid = c.pid ∧ unreaped c.life = true := by
  unfold Child.id at h
  split at h <;> try contradiction
  · rename_i life; exact ⟨(Option.some.inj h).symm,by rw [life]; rfl⟩
  · rename_i life; exact ⟨(Option.some.inj h).symm,by rw [life]; rfl⟩

theorem signalSignalled {signal : Signal} {group : Option Nat} (ok : Signalled s)
    (own : ∀ pid, group = some pid → pid = s.child.pid ∧ unreaped s.child.life = true) :
    Signalled (s.signalGroup signal group) := by
  intro x present
  rw [signalGroupSent] at present
  rw [signalGroupChild]
  rcases List.mem_append.mp present with old | new
  · exact ok x old
  · obtain ⟨pid,found,rfl⟩ := List.mem_map.mp new
    exact own pid (Option.mem_toList.mp found)

theorem killKilled (s : Session) : Killed (s.signalGroup .kill (some s.child.pid)) :=
  ⟨⟨.kill,s.child.pid,s.child.life⟩,by simp,rfl,by simp⟩

theorem waitCases {failed c raw d} (h : wait failed c = some (raw,d)) :
    (raw = .osError ∧ d = c) ∨
    (∃ status, c.life = .zombie status ∧ raw = .status status ∧ d = ⟨c.pid,.reaped status⟩) := by
  unfold wait at h
  split at h
  · cases Option.some.inj h
    exact .inl ⟨rfl,rfl⟩
  · split at h <;> try contradiction
    cases Option.some.inj h
    exact .inr ⟨_,by assumption,rfl,rfl⟩

theorem afterWaitReleased {raw h next} (ok : afterWait raw h = some next) :
    custody next = .released ∧ (custody h = .watched ∨ custody h = .condemned) := by
  cases h <;> simp [afterWait] at ok <;> subst ok <;> simp [custody]

theorem afterDrainReleased {h side} (pc : drainSide h = some side) :
    custody h = .released ∧ custody (afterDrain h) = .released := by
  cases h with
  | execDrain side raw why => cases side <;> exact ⟨rfl,rfl⟩
  | ptyDrain raw why => exact ⟨rfl,rfl⟩
  | _ => simp [drainSide] at pc

theorem graceCondemned {h} (armed : graceArmed h = true) : custody h = .condemned := by
  cases h <;> first | rfl | cases armed

theorem tendedUnborn (tended : Tended s) (pc : custody s.handler = .unborn) :
    s.child.life = .unspawned ∧ s.sent = [] := by
  simpa only [Tended,pc] using tended

theorem tendedAlive (tended : Tended s) (pc : custody s.handler = .watched ∨ custody s.handler = .condemned) :
    unreaped s.child.life = true := by
  rcases pc with pc | pc
  · simpa only [Tended,pc] using tended
  · simp only [Tended,pc] at tended
    exact tended.1

theorem moveTended (h : Move env s a t) (tended : Tended s) : Tended t := by
  cases h with
  | firstQuiet pc _ | firstRefused _ pc _ | ptyRefused _ _ pc =>
    have born := tendedUnborn tended (by rw [pc]; rfl)
    exact .inl born.1
  | firstExec pc ok => rfl
  | firstPty pc ok => exact tendedSame tended (by rw [pc]; rfl) rfl rfl rfl
  | ptyAbandoned msg pid feed pc => exact ⟨rfl,⟨.kill,pid,.running⟩,by simp,rfl,rfl⟩
  | ptyServing pid feed pc => rfl
  | execStays j still feed pc calm other => exact tendedSame tended (by rw [pc]; rfl) rfl rfl rfl
  | execLost pc calm other => exact tendedSame tended (by rw [pc]; rfl) rfl rfl rfl
  | execRefused pc calm => exact tendedSame tended (by rw [pc]; rfl) rfl rfl rfl
  | ptyStays j feed pc => exact tendedSame tended (by rw [pc]; rfl) rfl rfl rfl
  | ptyLost fired pc keeps =>
    have alive := tendedAlive tended (.inl (by rw [pc]; rfl))
    simpa [Tended,custody] using alive
  | execKilled why pc =>
    have alive := tendedAlive tended (.inl (by rw [pc]; rfl))
    exact ⟨by simpa using alive,killKilled s⟩
  | waited got free next =>
    simp only [Tended,(afterWaitReleased next).1]
    rcases waitCases got with ⟨rfl,rfl⟩ | ⟨status,_,rfl,rfl⟩
    · exact .inr (.inr (.inl rfl))
    · exact .inr (.inl ⟨status,rfl⟩)
  | reapLapsed armed next =>
    have before := tended
    simp only [Tended,graceCondemned armed] at before
    simp only [Tended,(afterWaitReleased next).1]
    exact .inr (.inr (.inr ⟨rfl,before.2⟩))
  | hangupLapsed pc =>
    have alive := tendedAlive tended (.inl (by rw [pc]; rfl))
    rw [unreapedId alive]
    exact ⟨by simpa using alive,killKilled s⟩
  | drainJoined pc done =>
    exact tendedSame tended ((afterDrainReleased pc).2.trans (afterDrainReleased pc).1.symm) rfl rfl rfl
  | drainLapsed pc live =>
    exact tendedSame tended ((afterDrainReleased pc).2.trans (afterDrainReleased pc).1.symm) (by simp) (by simp) (by simp)
  | handSent pc ok => exact tendedSame tended (by rw [pc]; rfl) rfl rfl rfl
  | joined pc gone => exact tendedSame tended (by rw [pc]; rfl) rfl rfl rfl
  | streamMoved side ok => exact tendedSame tended (by simp) (by simp) (by simp) (by simp)
  | pumpSent u holds ok next => exact tendedSame tended (by simp) (by simp) (by simp) (by simp)
  | @exited status alive =>
    unfold Tended at tended ⊢
    split at tended
    · rename_i pc; rw [alive] at tended; cases tended.1
    · rename_i pc; simp only [pc]; rfl
    · rename_i pc; simp only [pc]; exact ⟨rfl,tended.2⟩
    · rename_i pc
      simp only [pc]
      rw [alive] at tended
      rcases tended with none | ⟨st,gone⟩ | later
      · cases none
      · rw [alive] at gone; cases gone
      · exact .inr (.inr later)
  | _ => exact tendedSame tended rfl rfl rfl rfl

theorem moveSignalled (h : Move env s a t) (tended : Tended s) (ok : Signalled s) : Signalled t := by
  cases h with
  | firstExec pc accepted =>
    have born := tendedUnborn tended (by rw [pc]; rfl)
    intro x present
    simp [born.2] at present
  | ptyServing pid feed pc =>
    have born := tendedUnborn tended (by rw [pc]; rfl)
    intro x present
    simp [born.2] at present
  | ptyAbandoned msg pid feed pc =>
    have born := tendedUnborn tended (by rw [pc]; rfl)
    intro x present
    simp only [born.2,List.nil_append,List.mem_singleton] at present
    subst present
    exact ⟨rfl,rfl⟩
  | ptyLost fired pc keeps => exact signalSignalled ok (fun pid found => idUnreaped found)
  | execKilled why pc =>
    have alive := tendedAlive tended (.inl (by rw [pc]; rfl))
    exact signalSignalled ok (fun pid found => ⟨(Option.some.inj found).symm,alive⟩)
  | hangupLapsed pc => exact signalSignalled ok (fun pid found => idUnreaped found)
  | waited got free next =>
    have pid : ∀ {c d raw failed}, wait failed c = some (raw,d) → d.pid = c.pid := by
      intro c d raw failed got
      rcases waitCases got with ⟨_,rfl⟩ | ⟨_,_,_,rfl⟩ <;> rfl
    intro x present
    rw [pid got]
    exact ok x present
  | drainLapsed pc live =>
    intro x present
    simpa using ok x (by simpa using present)
  | streamMoved side moved =>
    intro x present
    simpa using ok x (by simpa using present)
  | pumpSent u holds offered next =>
    intro x present
    simpa using ok x (by simpa using present)
  | _ => exact ok

theorem tendedStart : Tended start ∧ Signalled start := by
  refine ⟨⟨rfl,rfl⟩,?_⟩
  intro x present
  cases present

theorem reachedTended {actions} (reached : Machine.run (step env) start actions = some s) :
    Tended s ∧ Signalled s :=
  Machine.runKeeps (I := fun u => Tended u ∧ Signalled u)
    (fun _ _ _ both h => ⟨moveTended (stepMove h) both.1,moveSignalled (stepMove h) both.1 both.2⟩)
    tendedStart reached

theorem childLifecycle {actions} (reached : Machine.run (step env) start actions = some s) :
    (∀ x ∈ s.sent, x.group = s.child.pid ∧ unreaped x.life = true) ∧
    (s.handler = .joinWriter ∨ s.handler = .returned → s.child.life ≠ .unspawned →
      (∃ status, s.child.life = .reaped status) ∨ s.reap = some .osError ∨
      (s.reap = some .timedOut ∧ ∃ x ∈ s.sent, x.signal = .kill ∧ x.group = s.child.pid)) := by
  have both := reachedTended reached
  refine ⟨both.2,?_⟩
  intro past spawned
  have released : s.child.life = .unspawned ∨ Released s := by
    have tended := both.1
    rcases past with pc | pc <;> simpa only [Tended,pc,custody] using tended
  exact released.resolve_left spawned

def stubbornShell : List Action :=
  ptyOpening ++ [.inbound .eof,.hangupLapse,.reapLapse,.drainLapse,.handSends]

theorem childLifecycleStubborn : ∃ s,
    Machine.run (step plainGuest) start stubbornShell = some s ∧ s.handler = .joinWriter ∧ s.child = ⟨41,.running⟩ ∧
    s.sent = [⟨.hup,41,.running⟩,⟨.kill,41,.running⟩] ∧
    (∀ x ∈ s.sent, x.group = s.child.pid ∧ unreaped x.life = true) ∧
    ((∃ status, s.child.life = .reaped status) ∨ s.reap = some .osError ∨
      (s.reap = some .timedOut ∧ ∃ x ∈ s.sent, x.signal = .kill ∧ x.group = s.child.pid)) := by
  have ends : ∃ s, Machine.run (step plainGuest) start stubbornShell = some s ∧ s.handler = .joinWriter ∧
      s.child = ⟨41,.running⟩ ∧ s.sent = [⟨.hup,41,.running⟩,⟨.kill,41,.running⟩] := Machine.runEnds (by decide)
  obtain ⟨s,reached,past,child,sent⟩ := ends
  have both := childLifecycle reached
  exact ⟨s,reached,past,child,sent,both.1,both.2 (.inl past) (by rw [child]; simp)⟩

end Guesthopper.SessionChild
