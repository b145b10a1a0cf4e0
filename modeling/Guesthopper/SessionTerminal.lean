import Guesthopper.SessionWire

/-! What a session says, and in which order. `handed` is every frame offered to the
channel by the handler and the output tasks, also when nobody receives any more. A task
that may still hand a frame on is live; by the time a terminal frame is sent none is. -/
namespace Guesthopper.SessionTerminal
open FrameBytes SessionText SessionModel SessionMove SessionWire

variable {env : Env} {s t : Session} {a : Action}

def hushed : Handler → Side → Bool
  | .execSelect _ _ _,_ | .execReap _,_ | .execDrain .out _ _,_ | .execDrain .err _ _,.err => false
  | .ptySelect _,.out | .hangupWait,.out | .hangupReap,.out | .ptyDrain _ _,.out => false
  | _,_ => true

def Hushed (s : Session) : Prop := ∀ side, hushed s.handler side = true → Tap.live (s.stream side) = false

theorem hushedSame (h : Hushed s) (out : t.out = s.out) (err : t.err = s.err)
    (less : ∀ side, hushed t.handler side = true → hushed s.handler side = true) : Hushed t := by
  intro side now
  rw [streamSame out err side]
  exact h side (less side now)

theorem afterWaitHushed {raw h next} (side : Side) (ok : afterWait raw h = some next) :
    hushed h side = hushed next side := by
  cases h <;> simp [afterWait] at ok <;> subst ok <;> cases side <;> rfl

theorem afterDrainHushed {h which side} (pc : drainSide h = some which) (now : hushed (afterDrain h) side = true) :
    which = side ∨ hushed h side = true := by
  cases h with
  | execDrain side' raw why => cases side' <;> cases side <;> cases pc <;> first | exact .inl rfl | exact .inr rfl | cases now
  | ptyDrain raw why => cases side <;> cases pc <;> first | exact .inl rfl | exact .inr rfl
  | _ => simp [drainSide] at pc

theorem moveHushed (h : Move env s a t) (quiet : Hushed s) : Hushed t := by
  cases h with
  | firstExec pc ok => intro side now; cases side <;> cases now
  | ptyServing pid feed pc =>
    intro side now
    cases side with
    | out => cases now
    | err => exact quiet .err (by rw [pc]; rfl)
  | execStays j still feed pc calm other => intro side now; cases side <;> cases now
  | execLost pc calm other => intro side now; cases side <;> cases now
  | execRefused pc calm => intro side now; cases side <;> cases now
  | execKilled why pc => intro side now; cases side <;> cases now
  | ptyLost fired pc keeps =>
    refine hushedSame quiet (by simp) (by simp) ?_
    intro side now
    rw [pc]
    cases side <;> first | rfl | cases now
  | hangupLapsed pc =>
    refine hushedSame quiet (by simp) (by simp) ?_
    intro side now
    rw [pc]
    cases side <;> first | rfl | cases now
  | waited got free next => exact hushedSame quiet rfl rfl (fun side now => (afterWaitHushed side next).trans now)
  | reapLapsed armed next => exact hushedSame quiet rfl rfl (fun side now => (afterWaitHushed side next).trans now)
  | @drainJoined which pc done =>
    intro side now
    have same : ({s with handler := afterDrain s.handler} : Session).stream side = s.stream side := by cases side <;> rfl
    rw [same]
    rcases afterDrainHushed pc now with rfl | before
    · simp [Tap.live,done]
    · exact quiet side before
  | @drainLapsed which pc live =>
    intro side now
    refine setStreamEach (P := fun x => Tap.live x = false) (fun _ => rfl) (fun other => ?_)
    exact quiet side ((afterDrainHushed pc now).resolve_left other)
  | streamMoved which ok =>
    intro side now
    rw [setStreamHandler] at now
    refine setStreamEach (P := fun x => Tap.live x = false) ?_ (fun _ => quiet side now)
    intro own
    subst own
    exact tapQuiet ok (quiet which now)
  | @pumpSent which chunk box u holds ok next =>
    intro side now
    have still := quiet side (by simpa using now)
    refine setStreamEach (P := fun x => Tap.live x = false) ?_ (fun _ => still)
    intro own
    subst own
    simp [Tap.live,holds] at still
  | firstQuiet pc _ | firstRefused _ pc _ | firstPty pc _ | ptyRefused _ _ pc | ptyAbandoned _ _ _ pc
  | ptyStays _ _ pc | handSent pc _ | joined pc _ =>
    refine hushedSame quiet rfl rfl ?_
    intro side now
    rw [pc]
    cases side <;> first | rfl | cases now
  | _ => exact hushedSame quiet rfl rfl (fun side now => now)

theorem reachedHushed {actions} (reached : Machine.run (step env) start actions = some s) : Hushed s :=
  Machine.runKeeps (fun _ _ _ quiet h => moveHushed (stepMove h) quiet)
    (fun side _ => by cases side <;> rfl) reached

inductive Stage where
  | unread
  | opening
  | streaming
  | closing (f : Frame)
  | ended

def stage : Handler → Stage
  | .readRequest => .unread
  | .openpty _ | .abandon _ => .opening
  | .sending f => .closing f
  | .joinWriter | .returned => .ended
  | _ => .streaming

def Data (f : Frame) : Prop := f.ftype = frameStdout ∨ f.ftype = frameStderr
def silent (s : Session) : Prop := s.first = some .elapsed ∨ s.first = some .eof
def streamed (s : Session) : Prop := s.out.phase ≠ .idle

inductive Said : Option Bool → List Frame → Prop where
  | nothing : Said none []
  | refusal {f} (kind : f.ftype = frameError) : Said (some false) [f]
  | result {pre f} (data : ∀ g ∈ pre, Data g) (kind : f.ftype = frameExit) : Said (some true) (pre ++ [f])

def Spoken (s : Session) : Prop :=
  match stage s.handler with
  | .unread => ¬ silent s ∧ ¬ streamed s ∧ s.box.handed = []
  | .opening => ¬ silent s ∧ ¬ streamed s ∧ s.box.handed = []
  | .streaming => ¬ silent s ∧ streamed s ∧ ∀ g ∈ s.box.handed, Data g
  | .closing f => ¬ silent s ∧
      ((¬ streamed s ∧ f.ftype = frameError ∧ s.box.handed = []) ∨
        (streamed s ∧ f.ftype = frameExit ∧ ∀ g ∈ s.box.handed, Data g))
  | .ended =>
      (silent s ∧ ¬ streamed s ∧ Said none s.box.handed) ∨
      (¬ silent s ∧ ¬ streamed s ∧ Said (some false) s.box.handed) ∨
      (¬ silent s ∧ streamed s ∧ Said (some true) s.box.handed)

theorem spokenSame (ok : Spoken s) (pc : stage t.handler = stage s.handler) (first : t.first = s.first)
    (phase : t.out.phase = .idle ↔ s.out.phase = .idle) (handed : t.box.handed = s.box.handed) : Spoken t := by
  have quiet : silent t ↔ silent s := by simp only [silent,first]
  have begun : streamed t ↔ streamed s := by simp only [streamed,ne_eq,phase]
  unfold Spoken at ok ⊢
  simpa only [pc,quiet,begun,handed] using ok

theorem afterWaitStage {raw h next} (ok : afterWait raw h = some next) :
    (∃ msg, h = .abandon msg ∧ next = .sending (errorFrame msg)) ∨
    (stage h = .streaming ∧ stage next = .streaming) := by
  cases h <;> simp [afterWait] at ok <;> subst ok
  · exact .inl ⟨_,rfl,rfl⟩
  all_goals exact .inr ⟨rfl,rfl⟩

theorem afterDrainStage {h side} (pc : drainSide h = some side) : stage h = .streaming ∧
    (stage (afterDrain h) = .streaming ∨ ∃ raw why, stage (afterDrain h) = .closing (exitFrame raw why)) := by
  cases h with
  | execDrain side raw why =>
    cases side with
    | out => exact ⟨rfl,.inl rfl⟩
    | err => exact ⟨rfl,.inr ⟨raw,why,rfl⟩⟩
  | ptyDrain raw why => exact ⟨rfl,.inr ⟨raw,why,rfl⟩⟩
  | _ => simp [drainSide] at pc

theorem sideData (side : Side) (chunk : Bytes) : Data ⟨side.ftype,chunk⟩ := by
  cases side
  · exact .inl rfl
  · exact .inr rfl

theorem offerHanded {x : Frame} {b c : Outbox.Box Frame UInt8} (ok : Outbox.offer channelBound x b = some c) :
    c.handed = b.handed ++ [x] := by
  rcases Outbox.offerCases ok with ⟨_,rfl⟩ | ⟨_,_,rfl⟩ <;> rfl

theorem boxMoveHanded {b c} (move : BoxMove b c) : c.handed = b.handed := by
  cases move with
  | take ok => obtain ⟨_,_,_,_,rfl⟩ := Outbox.takeCases ok; rfl
  | put ok _ => obtain ⟨_,_,_,_,_,rfl⟩ := Outbox.putCases ok; rfl
  | finish ok _ => obtain ⟨_,_,rfl⟩ := Outbox.finishCases ok; rfl

theorem tapBegun {side x u} (move : TapMove side x a u) : u.phase = .idle ↔ x.phase = .idle := by
  cases move with
  | read ok => obtain ⟨ready,_,_,_,rfl⟩ := Tap.readCases ok; simp [ready]
  | eof ok => obtain ⟨ready,_,rfl⟩ := Tap.eofCases ok; simp [ready]
  | fail ok => obtain ⟨ready,rfl⟩ := Tap.failCases ok; simp [ready]
  | supply ok => obtain ⟨_,_,rfl⟩ := Tap.supplyCases ok; exact Iff.rfl
  | detach ok => obtain ⟨_,rfl⟩ := Tap.detachCases ok; exact Iff.rfl

theorem handSaid {f box} (ok : Spoken s) (pc : s.handler = .sending f)
    (offered : Outbox.offer channelBound f s.box = some box) : Spoken {s with box := box, handler := .joinWriter} := by
  simp only [Spoken,pc,stage] at ok
  obtain ⟨loud,⟨before,kind,none⟩ | ⟨begun,kind,data⟩⟩ := ok
  · refine .inr (.inl ⟨loud,before,?_⟩)
    simp only [offerHanded offered,none,List.nil_append]
    exact .refusal kind
  · refine .inr (.inr ⟨loud,begun,?_⟩)
    simp only [offerHanded offered]
    exact .result data kind

theorem pumpSaid {side chunk box u} (ok : Spoken s) (quiet : Hushed s) (holds : (s.stream side).phase = .holding chunk)
    (offered : Outbox.offer channelBound ⟨side.ftype,chunk⟩ s.box = some box)
    (begun : (u : Tap.Stream UInt8).phase ≠ .idle) : Spoken {(s.setStream side u) with box := box} := by
  have loud : hushed s.handler side = false := by
    cases now : hushed s.handler side with
    | false => rfl
    | true => simpa [Tap.live,holds] using quiet side now
  have running : stage s.handler = .streaming := by
    cases pc : s.handler <;> simp [pc,hushed] at loud <;> rfl
  simp only [Spoken,running] at ok
  have later : stage (s.setStream side u).handler = .streaming := by rw [setStreamHandler,running]
  simp only [Spoken,later]
  refine ⟨?_,?_,?_⟩
  · simpa [silent] using ok.1
  · cases side with
    | out => exact begun
    | err => exact ok.2.1
  · intro g present
    rw [offerHanded offered] at present
    rcases List.mem_append.mp present with old | new
    · exact ok.2.2 g old
    · rw [List.mem_singleton.mp new]
      exact sideData side chunk

theorem waitSaid {raw next child reap feed} (ok : Spoken s) (moved : afterWait raw s.handler = some next) :
    Spoken {s with feed := feed, handler := next, child := child, reap := reap} := by
  rcases afterWaitStage moved with ⟨msg,pc,rfl⟩ | ⟨before,after⟩
  · simp only [Spoken,pc,stage] at ok
    exact ⟨ok.1,.inl ⟨ok.2.1,rfl,ok.2.2⟩⟩
  · exact spokenSame ok (after.trans before.symm) rfl Iff.rfl rfl

theorem drainSaid {side} (ok : Spoken s) (pc : drainSide s.handler = some side)
    (next : t.handler = afterDrain s.handler) (first : t.first = s.first)
    (phase : t.out.phase = .idle ↔ s.out.phase = .idle) (handed : t.box.handed = s.box.handed) : Spoken t := by
  obtain ⟨before,after | ⟨raw,why,after⟩⟩ := afterDrainStage pc
  · exact spokenSame ok (by rw [next,after,before]) first phase handed
  · simp only [Spoken,before] at ok
    simp only [Spoken,next,after]
    refine ⟨?_,.inr ⟨?_,rfl,?_⟩⟩
    · simpa only [silent,first] using ok.1
    · simpa only [streamed,ne_eq,phase] using ok.2.1
    · simpa only [handed] using ok.2.2

theorem moveSpoken (h : Move env s a t) (quiet : Hushed s) (ok : Spoken s) : Spoken t := by
  cases h with
  | firstQuiet pc now =>
    simp only [Spoken,pc,stage] at ok
    refine .inl ⟨now.imp (congrArg some) (congrArg some),ok.2.1,?_⟩
    simp only [ok.2.2]
    exact .nothing
  | firstRefused msg pc loud =>
    simp only [Spoken,pc,stage] at ok
    refine ⟨?_,.inl ⟨ok.2.1,rfl,ok.2.2⟩⟩
    intro same
    rcases same with same | same
    · exact loud.1 (Option.some.inj same)
    · exact loud.2 (Option.some.inj same)
  | firstExec pc accepted =>
    simp only [Spoken,pc,stage] at ok
    refine ⟨by simp [silent],by simp [streamed,Tap.opened],?_⟩
    simp [ok.2.2]
  | firstPty pc accepted =>
    simp only [Spoken,pc,stage] at ok
    exact ⟨by simp [silent],ok.2⟩
  | ptyRefused msg feed pc =>
    simp only [Spoken,pc,stage] at ok
    exact ⟨ok.1,.inl ⟨ok.2.1,rfl,ok.2.2⟩⟩
  | ptyAbandoned msg pid feed pc =>
    simp only [Spoken,pc,stage] at ok
    exact ok
  | ptyServing pid feed pc =>
    simp only [Spoken,pc,stage] at ok
    refine ⟨ok.1,by simp [streamed,Tap.opened],?_⟩
    simp [ok.2.2]
  | waited got free next => exact waitSaid ok next
  | reapLapsed armed next => exact waitSaid ok next
  | drainJoined pc done => exact drainSaid ok pc rfl rfl Iff.rfl rfl
  | @drainLapsed side pc live =>
    have begun : (s.setStream side (Tap.abort (s.stream side))).out.phase = .idle ↔ s.out.phase = .idle := by
      cases side with
      | out =>
        simp only [Session.setStream,Tap.abort,reduceCtorEq,false_iff]
        intro idle
        simp [Tap.live,Session.stream,idle] at live
      | err => exact Iff.rfl
    exact drainSaid ok pc rfl (by simp) begun (by simp)
  | handSent pc offered => exact handSaid ok pc offered
  | joined pc gone => exact spokenSame ok (by rw [pc]; rfl) rfl Iff.rfl rfl
  | streamMoved side moved =>
    refine spokenSame ok (by simp) (by simp) ?_ (by simp)
    cases side with
    | out => exact tapBegun moved
    | err => exact Iff.rfl
  | pumpSent u holds offered next =>
    refine pumpSaid ok quiet holds offered ?_
    rw [next]
    split <;> simp [Tap.stop,Tap.release]
  | writerMoved calm moved => exact spokenSame ok rfl rfl Iff.rfl (boxMoveHanded moved)
  | execStays j still feed pc calm other => exact spokenSame ok (by rw [pc]; rfl) rfl Iff.rfl rfl
  | execLost pc calm other => exact spokenSame ok (by rw [pc]; rfl) rfl Iff.rfl rfl
  | execRefused pc calm => exact spokenSame ok (by rw [pc]; rfl) rfl Iff.rfl rfl
  | ptyStays j feed pc => exact spokenSame ok (by rw [pc]; rfl) rfl Iff.rfl rfl
  | ptyLost fired pc keeps => exact spokenSame ok (by rw [pc]; rfl) (by simp) (by simp) (by simp)
  | execKilled why pc => exact spokenSame ok (by rw [pc]; rfl) (by simp) (by simp) (by simp)
  | hangupLapsed pc => exact spokenSame ok (by rw [pc]; rfl) (by simp) (by simp) (by simp)
  | _ => exact spokenSame ok rfl rfl Iff.rfl rfl

theorem reachedSpoken {actions} (reached : Machine.run (step env) start actions = some s) : Spoken s := by
  have both := Machine.runKeeps (I := fun u => Hushed u ∧ Spoken u)
    (fun _ _ _ both h => ⟨moveHushed (stepMove h) both.1,moveSpoken (stepMove h) both.1 both.2⟩)
    ⟨fun side _ => by cases side <;> rfl,by simp [Spoken,stage,start,silent,streamed,Tap.unopened,Outbox.empty]⟩ reached
  exact both.2

theorem reachedEnded {actions} (reached : Machine.run (step env) start actions = some s)
    (past : stage s.handler = .ended) :
    (silent s ∧ ¬ streamed s ∧ Said none s.box.handed) ∨
    (¬ silent s ∧ ¬ streamed s ∧ Said (some false) s.box.handed) ∨
    (¬ silent s ∧ streamed s ∧ Said (some true) s.box.handed) := by
  have spoken := reachedSpoken reached
  simpa only [Spoken,past] using spoken

theorem saidShapes {ending : Option Bool} {fs : List Frame} (said : Said ending fs) :
    (ending = none ∧ fs = []) ∨
    (ending = some false ∧ ∃ f, fs = [f] ∧ f.ftype = frameError) ∨
    (ending = some true ∧ ∃ pre f, fs = pre ++ [f] ∧ (∀ g ∈ pre, Data g) ∧ f.ftype = frameExit) := by
  cases said with
  | nothing => exact .inl ⟨rfl,rfl⟩
  | refusal kind => exact .inr (.inl ⟨rfl,_,rfl,kind⟩)
  | result data kind => exact .inr (.inr ⟨rfl,_,_,rfl,data,kind⟩)

theorem saidNothing {ending : Option Bool} {fs : List Frame} (said : Said ending fs) : fs = [] ↔ ending = none := by
  cases said <;> simp

theorem saidResult {ending : Option Bool} {fs : List Frame} (said : Said ending fs) :
    (∃ pre f, fs = pre ++ [f] ∧ f.ftype = frameExit) ↔ ending = some true := by
  cases said with
  | nothing => simp
  | @refusal g kind =>
    simp only [Option.some.injEq,Bool.false_eq_true,iff_false]
    intro ⟨pre,f,same,exit⟩
    have last := congrArg List.getLast? same
    simp only [List.getLast?_singleton,List.getLast?_append,Option.some_or,Option.some.injEq] at last
    rw [last,exit] at kind
    cases kind
  | result data kind => exact ⟨fun _ => rfl,fun _ => ⟨_,_,rfl,kind⟩⟩

theorem terminalDiscipline {actions} (reached : Machine.run (step env) start actions = some s)
    (past : s.handler = .returned) :
    (s.box.handed = [] ∨ (∃ f, s.box.handed = [f] ∧ f.ftype = frameError) ∨
      ∃ pre f, s.box.handed = pre ++ [f] ∧ (∀ g ∈ pre, Data g) ∧ f.ftype = frameExit) ∧
    (s.box.handed = [] ↔ s.first = some .elapsed ∨ s.first = some .eof) ∧
    ((∃ pre f, s.box.handed = pre ++ [f] ∧ f.ftype = frameExit) ↔ streamed s) := by
  have ended := reachedEnded reached (by rw [past]; rfl)
  have shape : ∀ {ending}, Said ending s.box.handed → s.box.handed = [] ∨ (∃ f, s.box.handed = [f] ∧ f.ftype = frameError) ∨
      ∃ pre f, s.box.handed = pre ++ [f] ∧ (∀ g ∈ pre, Data g) ∧ f.ftype = frameExit := by
    intro ending said
    rcases saidShapes said with ⟨_,none⟩ | ⟨_,one⟩ | ⟨_,many⟩
    · exact .inl none
    · exact .inr (.inl one)
    · exact .inr (.inr many)
  rcases ended with ⟨quiet,fresh,said⟩ | ⟨loud,fresh,said⟩ | ⟨loud,begun,said⟩
  · exact ⟨shape said,by simpa [saidNothing said,silent] using quiet,by simpa [saidResult said] using fresh⟩
  · exact ⟨shape said,by simpa [saidNothing said,silent,not_or] using loud,by simpa [saidResult said] using fresh⟩
  · exact ⟨shape said,by simpa [saidNothing said,silent,not_or] using loud,by simpa [saidResult said] using begun⟩

def shortRun : List Action :=
  [execOpening,.supplies .out [104,105],.exits (.code 3),.detaches .out,.detaches .err,.pumpReads .out 2,.pumpSends .out,
   .pumpEof .out,.pumpEof .err,.waitReady false,.drainJoined,.drainJoined,.writerTakes,.writerPuts 7,.handSends,
   .writerFlushed,.writerTakes,.writerPuts 33,.writerFlushed,.writerCloses,.writerJoined]

theorem terminalDisciplineShort : ∃ s,
    Machine.run (step plainGuest) start shortRun = some s ∧ s.handler = .returned ∧
    s.box.handed = [⟨frameStdout,[104,105]⟩,exitFrame (.status (.code 3)) .none] ∧
    (s.box.handed = [] ↔ s.first = some .elapsed ∨ s.first = some .eof) ∧
    ((∃ pre f, s.box.handed = pre ++ [f] ∧ f.ftype = frameExit) ↔ streamed s) := by
  have ends : ∃ s, Machine.run (step plainGuest) start shortRun = some s ∧ s.handler = .returned ∧
      s.box.handed = [⟨frameStdout,[104,105]⟩,exitFrame (.status (.code 3)) .none] := Machine.runEnds (by decide)
  obtain ⟨s,reached,past,handed⟩ := ends
  exact ⟨s,reached,past,handed,(terminalDiscipline reached past).2⟩

end Guesthopper.SessionTerminal
