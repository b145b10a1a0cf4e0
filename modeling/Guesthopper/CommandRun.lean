import Guesthopper.FrameCodecs
import Guesthopper.GuestCommand
import Guesthopper.SessionAnswer

/-! One command from `guest_cmd` to the child and back. The frames the host writes are the
bytes the agent reads its REQUEST from, and what the host reads is some beginning of the
session's wire, in any pieces. -/
namespace Guesthopper.CommandRun
open FrameBytes SessionText SessionModel ClientStream ClientDoors GuestJson GuestCommand SessionAnswer
open SessionWire (payloads)

def agentFirst (installed : Nat) (s : Socket) : ReadResult :=
  match head (clampInbound installed) s.bytes with
  | .oversize len => .oversize len (clampInbound installed)
  | _ => match ((FrameCodecs.Reader.agent installed).ask s).1 with
    | .frame f _ => .frame f
    | .none => .eof
    | .raised (.os e) | .raised (.command e) => .error e

def Hears (installed : Nat) (sent : Bytes) (r : ReadResult) : Prop :=
  r = .elapsed ∨ ∃ given cuts ending, given <+: sent ∧ r = agentFirst installed ⟨given,cuts,ending⟩

theorem headTooLong {cap : Nat} {f : Frame} (rest : Bytes) (long : cap < f.payload.length) (bound : f.payload.length < 2^32) :
    head cap (encode f ++ rest) = .oversize f.payload.length := by
  have len := fromBe32Be32 bound
  simp only [encode,be32,List.cons_append,List.nil_append,head,len]
  rw [if_pos long]

theorem hearsFrame {installed : Nat} {f g : Frame} {fs : List Frame} (packs : f.payload.length < 2^32)
    (hears : Hears installed (encodeAll (f::fs)) (.frame g)) : g = f ∧ f.payload.length ≤ clampInbound installed := by
  rcases hears with never | ⟨given,cuts,ending,⟨more,whole⟩,is⟩
  · contradiction
  unfold agentFirst at is
  split at is <;> try contradiction
  split at is <;> try contradiction
  rename_i t read
  cases is
  have found := headAppend more (askGrammar read).1
  rw [whole,encodeAllCons] at found
  by_cases small : f.payload.length ≤ clampInbound installed
  · have direct := headEncoded (encodeAll fs) small (FrameCodecs.capPacks (.agent installed))
    obtain ⟨same,_⟩ := Head.frame.inj (direct.symm.trans found)
    exact ⟨same.symm,small⟩
  · have refused := headTooLong (encodeAll fs) (Nat.lt_of_not_le small) packs
    cases refused.symm.trans found

theorem agentFirstFrame {installed : Nat} {s t : Socket} {f : Frame} {rest : Bytes}
    (found : head (clampInbound installed) s.bytes = .frame f rest)
    (read : ((FrameCodecs.Reader.agent installed).ask s).1 = .frame f t) : agentFirst installed s = .frame f := by
  unfold agentFirst
  split
  · rename_i len large
    rw [found] at large
    contradiction
  · rw [read]

theorem hearsWhole {installed : Nat} {f : Frame} (fs : List Frame) (small : f.payload.length ≤ clampInbound installed)
    (cuts : List Nat) (ending : Ending) : Hears installed (encodeAll (f::fs)) (.frame f) := by
  refine .inr ⟨encodeAll (f::fs),cuts,ending,List.prefix_rfl,?_⟩
  have found : head (clampInbound installed) (encodeAll (f::fs)) = .frame f (encodeAll fs) := by
    rw [encodeAllCons]
    exact headEncoded (encodeAll fs) small (FrameCodecs.capPacks (.agent installed))
  obtain ⟨t,read,_,_⟩ := @askFrame FrameCodecs.agentExactly ⟨encodeAll (f::fs),cuts,ending⟩ f (clampInbound installed)
    (FrameCodecs.Reader.oversize (.agent installed)) (FrameCodecs.Reader.closed (.agent installed)) (encodeAll fs) trivial found
  exact (agentFirstFrame found read).symm

def Tends (pid : Nat) (s : Session) : Prop :=
  s.child.pid = pid ∧ s.handler ≠ .readRequest ∧ ∀ req, s.handler ≠ .openpty req

section Sessions
variable {env : Env} {s t : Session}

theorem afterWaitTends {raw h next} (moved : afterWait raw h = some next) :
    next ≠ .readRequest ∧ ∀ req, next ≠ .openpty req := by
  cases h <;> simp [afterWait] at moved <;> subst moved <;> simp

theorem afterDrainTends {h side} (pc : drainSide h = some side) :
    afterDrain h ≠ .readRequest ∧ ∀ req, afterDrain h ≠ .openpty req := by
  cases h with
  | execDrain side raw why => cases side <;> simp [afterDrain]
  | ptyDrain raw why => simp [afterDrain]
  | _ => simp [drainSide] at pc

theorem moveTends {a : Action} {pid : Nat} (h : SessionMove.Move env s a t) (tends : Tends pid s) : Tends pid t := by
  obtain ⟨same,begun,single⟩ := tends
  cases h with
  | firstQuiet pc _ | firstRefused _ pc _ | firstExec pc _ | firstPty pc _ => exact absurd pc begun
  | ptyRefused _ _ pc | ptyAbandoned _ _ _ pc | ptyServing _ _ pc => exact absurd pc (single _)
  | waited got free next =>
    refine ⟨?_,afterWaitTends next⟩
    rcases SessionChild.waitCases got with ⟨_,is⟩ | ⟨status,_,_,is⟩
    · exact is ▸ same
    · exact is ▸ same
  | reapLapsed armed next => exact ⟨same,afterWaitTends next⟩
  | drainJoined pc done => exact ⟨same,afterDrainTends pc⟩
  | drainLapsed pc live => exact ⟨by simpa using same,afterDrainTends pc⟩
  | ptyLost fired pc keeps => exact ⟨by simpa using same,by simp,by simp⟩
  | execKilled why pc => exact ⟨by simpa using same,by simp,by simp⟩
  | hangupLapsed pc => exact ⟨by simpa using same,by simp,by simp⟩
  | streamMoved side moved => exact ⟨by simpa using same,by simpa using begun,by simpa using single⟩
  | pumpSent u holds offered next => exact ⟨by simpa using same,by simpa using begun,by simpa using single⟩
  | execStays _ _ _ pc _ _ | execLost pc _ _ | execRefused pc _ | ptyStays _ _ pc | handSent pc _ | joined pc _ =>
    exact ⟨same,by simp,by simp⟩
  | writerMoved calm moved => exact ⟨same,begun,single⟩
  | writerGaveUp calm busy => exact ⟨same,begun,single⟩
  | writerCancelled fired => exact ⟨same,begun,single⟩
  | writerClosed calm idle drained gone => exact ⟨same,begun,single⟩
  | exited alive => exact ⟨same,begun,single⟩

def Unopened (s : Session) : Prop :=
  s.out.phase = .idle ∧ s.handler ≠ .readRequest ∧ ∀ req, s.handler ≠ .openpty req

theorem moveUnopened {a : Action} (h : SessionMove.Move env s a t) (unopened : Unopened s) : Unopened t := by
  obtain ⟨idle,begun,single⟩ := unopened
  cases h with
  | firstQuiet pc _ | firstRefused _ pc _ | firstExec pc _ | firstPty pc _ => exact absurd pc begun
  | ptyRefused _ _ pc | ptyAbandoned _ _ _ pc | ptyServing _ _ pc => exact absurd pc (single _)
  | waited got free next => exact ⟨idle,afterWaitTends next⟩
  | reapLapsed armed next => exact ⟨idle,afterWaitTends next⟩
  | drainJoined pc done => exact ⟨idle,afterDrainTends pc⟩
  | @drainLapsed side pc live =>
    refine ⟨?_,afterDrainTends pc⟩
    cases side with
    | out => simp [Session.stream,Tap.live,idle] at live
    | err => exact idle
  | ptyLost fired pc keeps => exact ⟨by simpa using idle,by simp,by simp⟩
  | execKilled why pc => exact ⟨by simpa using idle,by simp,by simp⟩
  | hangupLapsed pc => exact ⟨by simpa using idle,by simp,by simp⟩
  | streamMoved side moved =>
    refine ⟨?_,by simpa using begun,by simpa using single⟩
    cases side with
    | out => exact (SessionTerminal.tapBegun moved).mpr idle
    | err => exact idle
  | @pumpSent side chunk box u holds offered next =>
    refine ⟨?_,by simpa using begun,by simpa using single⟩
    cases side with
    | out => simp [Session.stream,idle] at holds
    | err => exact idle
  | execStays _ _ _ pc _ _ | execLost pc _ _ | execRefused pc _ | ptyStays _ _ pc | handSent pc _ | joined pc _ =>
    exact ⟨idle,by simp,by simp⟩
  | writerMoved calm moved => exact ⟨idle,begun,single⟩
  | writerGaveUp calm busy => exact ⟨idle,begun,single⟩
  | writerCancelled fired => exact ⟨idle,begun,single⟩
  | writerClosed calm idle' drained gone => exact ⟨idle,begun,single⟩
  | exited alive => exact ⟨idle,begun,single⟩

theorem exitStreams {f : Frame} (spoken : SessionTerminal.Spoken s) (known : f ∈ s.box.handed) (exit : f.ftype = frameExit) :
    SessionTerminal.streamed s := by
  unfold SessionTerminal.Spoken at spoken
  split at spoken
  · rw [spoken.2.2] at known; contradiction
  · rw [spoken.2.2] at known; contradiction
  · exact spoken.2.1
  · rcases spoken.2 with ⟨_,_,none⟩ | ⟨begun,_⟩
    · rw [none] at known; contradiction
    · exact begun
  · rcases spoken with ⟨_,_,said⟩ | ⟨_,_,said⟩ | ⟨_,begun,_⟩
    · rw [(SessionTerminal.saidNothing said).mpr rfl] at known; contradiction
    · generalize s.box.handed = handed at said known
      cases said with
      | refusal kind =>
        cases List.mem_singleton.mp known
        rw [kind] at exit
        contradiction
    · exact begun

end Sessions

def preparedText (cs : List Char) : String := String.ofList ("export PATH=/igloo/utils:$PATH; ".toList ++ cs)

def Parses (env : Env) (serde : ControlPayloads.Serde) : Prop :=
  ∀ raw, (env.parseRequest raw).toOption = serde.request raw

section Request
variable {env : Env} {serde : ControlPayloads.Serde} {command : ControlPayloads.PyStr} {deadline : Option ControlPayloads.Number}

def Started (env : Env) (serde : ControlPayloads.Serde) (command : ControlPayloads.PyStr)
    (deadline : Option ControlPayloads.Number) (pid : Nat) (limit : Option Duration) : Prop :=
  ∃ cs asked, command = ControlPayloads.ofText cs ∧
    ControlPayloads.optional (ControlPayloads.floatOf serde.float) (deadline.map ControlPayloads.Number.literal) = some asked ∧
    effectiveDeadline asked env.defaultDeadline = .ok limit ∧
    env.spawn (shellArgv (env.splitShell env.shell) ["-c",preparedText cs]) = .ok pid

def Opened (env : Env) (command : ControlPayloads.PyStr) (deadline : Option ControlPayloads.Number) (first : ReadResult)
    (pid : Nat) (limit : Option Duration) : Prop :=
  first = .frame ⟨frameRequest,ControlPayloads.inlineExecRequest command deadline⟩ ∧
    drive env ⟨frameRequest,ControlPayloads.inlineExecRequest command deadline⟩ = .exec pid limit

theorem requestParses (parses : Parses env serde) {req : Request}
    (parsed : env.parseRequest (ControlPayloads.inlineExecRequest command deadline) = .ok req) :
    ∃ cs asked, command = ControlPayloads.ofText cs ∧ req = ⟨"exec",some (preparedText cs),asked,none,none⟩ ∧
      ControlPayloads.optional (ControlPayloads.floatOf serde.float) (deadline.map ControlPayloads.Number.literal) = some asked := by
  have read := parses (ControlPayloads.inlineExecRequest command deadline)
  rw [parsed,ControlPayloads.inlineExecMembers,ControlPayloads.execReads] at read
  simp only [Except.toOption] at read
  obtain ⟨text,known,rest⟩ := Option.bind_eq_some_iff.mp read.symm
  obtain ⟨asked,limit,shape⟩ := Option.map_eq_some_iff.mp rest
  obtain ⟨cs,rfl,rfl⟩ := ControlPayloads.prepareExact.mp known
  exact ⟨cs,asked,rfl,shape.symm,limit⟩

theorem driveStarts (parses : Parses env serde) {pid : Nat} {limit : Option Duration}
    (opens : drive env ⟨frameRequest,ControlPayloads.inlineExecRequest command deadline⟩ = .exec pid limit) :
    Started env serde command deadline pid limit := by
  unfold drive at opens
  rw [if_neg (by simp)] at opens
  cases parsed : env.parseRequest (ControlPayloads.inlineExecRequest command deadline) with
  | error e => rw [parsed] at opens; contradiction
  | ok req =>
    obtain ⟨cs,asked,same,rfl,limits⟩ := requestParses parses parsed
    simp only [parsed,if_true] at opens
    cases effective : effectiveDeadline asked env.defaultDeadline with
    | error x => simp [effective] at opens
    | ok d =>
      cases spawned : env.spawn (shellArgv (env.splitShell env.shell) ["-c",preparedText cs]) with
      | error e => simp [effective,spawned] at opens
      | ok p =>
        simp [effective,spawned] at opens
        obtain ⟨rfl,rfl⟩ := opens
        exact ⟨cs,asked,same,limits,effective,spawned⟩

theorem driveExecs (parses : Parses env serde) (req : Request) :
    drive env ⟨frameRequest,ControlPayloads.inlineExecRequest command deadline⟩ ≠ .openPty req := by
  intro opens
  unfold drive at opens
  rw [if_neg (by simp)] at opens
  cases parsed : env.parseRequest (ControlPayloads.inlineExecRequest command deadline) with
  | error e => rw [parsed] at opens; contradiction
  | ok asked =>
    obtain ⟨cs,limit,_,rfl,_⟩ := requestParses parses parsed
    simp only [parsed,if_true] at opens
    repeat' split at opens
    all_goals contradiction

end Request

structure Reported (s : Session) (r : Result) (pre : List Frame) (raw : WaitResult) (why : Override) : Prop where
  handed : s.box.handed = pre ++ [exitFrame raw why]
  waited : s.reap = some raw
  reaped : ∀ status, raw = .status status → s.child.life = .reaped status
  produced : ∀ side, payloads side pre <+: (s.stream side).produced
  result : r = ⟨LossyText.decode (payloads .out pre),LossyText.decode (payloads .err pre),.int (exitFields raw why).1,
    some (.str (exitFields raw why).2)⟩

section Exchange
variable {env : Env} {s : Session} {j : Json} {port : Int} {command : ControlPayloads.PyStr}
  {deadline : Option ControlPayloads.Number} {idles cuts : List Nat} {ending : Ending} {raw : Bytes} {r : Result}

theorem dataQuiet {pre : List Frame} (data : ∀ g ∈ pre, SessionTerminal.Data g) : ∀ g ∈ pre, ¬ Terminal g := by
  intro g known terminal
  obtain ⟨exit,error⟩ := dataNoTerminal (data g known)
  exact terminal.elim exit error

theorem runAsks (fits : (okLine port).length ≤ lineLimit) :
    ∃ wrote, (runGuestWithSocket j port command deadline idles ⟨okLine port ++ raw,cuts,ending⟩).frames =
      ⟨frameRequest,ControlPayloads.inlineExecRequest command deadline⟩::wrote := by
  obtain ⟨t,read,_,_⟩ := @handshakeReads port ⟨okLine port ++ raw,cuts,ending⟩ raw fits rfl
  have same : strip (LossyText.decode (okLine port)) = okResponse port := by rw [okLineDecodes,stripOk]
  refine ⟨(collectResult j idles t ⟨[],[]⟩).2,?_⟩
  unfold runGuestWithSocket
  rw [read]
  dsimp only
  rw [same,if_neg (not_not.mpr rfl)]

theorem runReturned (fits : (okLine port).length ≤ lineLimit)
    (got : (runGuestWithSocket j port command deadline idles ⟨okLine port ++ raw,cuts,ending⟩).outcome = .returned r) :
    ∃ before exit after, decodeAll maxFrameLen raw = before ++ exit::after ∧ (∀ g ∈ before, ¬ Terminal g) ∧
      exit.ftype = frameExit ∧ onExit j exit.payload ⟨output frameStdout before,output frameStderr before⟩ = .returned r := by
  obtain ⟨t,bytes,collects⟩ := @runCollects j port command deadline idles cuts ending raw fits
  rcases splitTerminal (decodeAll maxFrameLen raw) with quiet | ⟨before,f,after,decoded,quiet,terminal⟩
  · obtain ⟨msg,raised⟩ := @collectEndless j idles t ⟨[],[]⟩ _ (by rw [bytes]) quiet
    rw [collects,raised] at got
    contradiction
  · by_cases last : f.ftype = frameExit
    · rw [runExits idles cuts ending fits decoded quiet last] at got
      exact ⟨before,f,after,decoded,quiet,last,got⟩
    · rw [collects,collectTerminal (by rw [bytes]; exact decoded) quiet terminal,if_neg last] at got
      exact absurd got (onErrorRaises j f.payload r)

theorem exitReturns (reads : Reads j) (wait : WaitResult) (why : Override) (shown : Shown) :
    onExit j (exitFrame wait why).payload shown =
      .returned ⟨LossyText.decode shown.out,LossyText.decode shown.err,.int (exitFields wait why).1,
        some (.str (exitFields wait why).2)⟩ := by
  obtain ⟨fields,loads,code,reason⟩ := exitLoads reads wait why
  exact onExitReturns.mpr ⟨fields,_,loads,code,rfl,by rw [reason]⟩

theorem runReports (legal : Legal s) (reads : Reads j) (fits : (okLine port).length ≤ lineLimit) (part : raw <+: s.box.wire)
    (got : (runGuestWithSocket j port command deadline idles ⟨okLine port ++ raw,cuts,ending⟩).outcome = .returned r) :
    ∃ pre wait why, Reported s r pre wait why := by
  obtain ⟨before,exit,after,decoded,quiet,last,returned⟩ := runReturned fits got
  have heard := heardPrefix legal part
  rw [decoded] at heard
  obtain ⟨more,whole⟩ := heard.trans legal.enters
  have known : exit ∈ s.box.handed := by simp [← whole]
  obtain ⟨pre,wait,why,shape,data,rfl,waited,reaped⟩ := exitStands legal known last
  rw [shape,List.append_assoc,List.cons_append] at whole
  obtain ⟨same,_⟩ := splitOnce whole quiet (dataQuiet data) (.inl last) (.inl last)
  subst same
  refine ⟨before,wait,why,shape,waited,reaped,?_,?_⟩
  · intro side
    have first : before <+: s.box.entered := (List.prefix_append before _).trans heard
    exact (SessionWire.payloadsPrefix side first).trans (legal.booked.sound.ordered side)
  · rw [exitReturns reads] at returned
    exact (Outcome.returned.inj returned).symm

end Exchange

-- A result is only ever what the agent's session for that very command came to.
theorem resultTruthful (env : Env) (serde : ControlPayloads.Serde) (j : Json) (parses : Parses env serde) (reads : Reads j)
    (installed : Nat) (port : Int) (command : ControlPayloads.PyStr) (deadline : Option ControlPayloads.Number)
    (packs : (ControlPayloads.inlineExecRequest command deadline).length < 2^32) (fits : (okLine port).length ≤ lineLimit)
    (idles cuts : List Nat) (ending : Ending) (raw : Bytes) (first : ReadResult) (actions : List Action) (s : Session) (r : Result)
    (hears : Hears installed
      (encodeAll (runGuestWithSocket j port command deadline idles ⟨okLine port ++ raw,cuts,ending⟩).frames) first)
    (reached : Machine.run (step env) start (.firstRead first::actions) = some s) (part : raw <+: s.box.wire)
    (got : (runGuestWithSocket j port command deadline idles ⟨okLine port ++ raw,cuts,ending⟩).outcome = .returned r) :
    (∃ pid limit, Started env serde command deadline pid limit ∧ Opened env command deadline first pid limit ∧
      s.child.pid = pid) ∧ ∃ pre wait why, Reported s r pre wait why := by
  have legal := reachedLegal reached
  obtain ⟨pre,wait,why,reported⟩ := runReports legal reads fits part got
  refine ⟨?_,pre,wait,why,reported⟩
  obtain ⟨next,begun,rest⟩ := Machine.runCons.mp reached
  have streams := exitStreams legal.booked.spoken (f := exitFrame wait why) (by simp [reported.handed]) rfl
  have unopened : ¬ Unopened next := fun blank =>
    streams (Machine.runKeeps (I := Unopened) (fun _ _ _ blank h => moveUnopened (SessionMove.stepMove h) blank) blank rest).1
  have opened : firstRead env first start = some next := begun
  obtain ⟨wrote,frames⟩ := @runAsks j port command deadline idles cuts ending raw fits
  rw [frames] at hears
  obtain ⟨_,⟨_,rfl⟩ | ⟨_,msg,rfl⟩ | ⟨g,pid,limit,rfl,opens,rfl⟩ | ⟨g,req,rfl,opens,rfl⟩⟩ := SessionMove.firstReadCases opened
  · exact absurd ⟨rfl,by simp,by simp⟩ unopened
  · exact absurd ⟨rfl,by simp,by simp⟩ unopened
  · obtain ⟨rfl,_⟩ := hearsFrame packs hears
    have tends := Machine.runKeeps (I := Tends pid) (fun _ _ _ tends h => moveTends (SessionMove.stepMove h) tends)
      ⟨rfl,by simp,by simp⟩ rest
    exact ⟨pid,limit,driveStarts parses opens,⟨rfl,opens⟩,tends.1⟩
  · obtain ⟨rfl,_⟩ := hearsFrame packs hears
    exact absurd opens (driveExecs parses req)

def readingGuest : Env := {plainGuest with
  parseRequest raw := match ControlPayloads.plainSerde.request raw with
    | some req => .ok req
    | none => .error "expected value at line 1 column 1"}

theorem readingParses : Parses readingGuest ControlPayloads.plainSerde := by
  intro raw
  simp only [readingGuest]
  cases ControlPayloads.plainSerde.request raw <;> rfl

def idText : ControlPayloads.PyStr := ControlPayloads.ofText ['i','d']
def idRequest : Frame := ⟨frameRequest,ControlPayloads.inlineExecRequest idText none⟩
def idRun : List Action := .firstRead (.frame idRequest)::SessionTerminal.shortRun.tail

theorem idEnds : ∃ s, Machine.run (step readingGuest) start idRun = some s ∧
    (s.handler = .returned ∧ s.cancel = false ∧ s.out.phase = .finished ∧
      s.box.handed = [⟨frameStdout,[104,105]⟩,exitFrame (.status (.code 3)) .none]) := Machine.runEnds (by decide +kernel)

theorem resultTruthfulId : ∃ s r, Machine.run (step readingGuest) start idRun = some s ∧
    (runGuestWithSocket readerJson 1234 idText none [2] ⟨okLine 1234 ++ s.box.wire,[1,3],.eof⟩).outcome = .returned r ∧
    r.stdout = ['h','i'] ∧ r.exitCode = .int 3 ∧
    (∃ pid limit, Started readingGuest ControlPayloads.plainSerde idText none pid limit ∧
      Opened readingGuest idText none (.frame idRequest) pid limit ∧ s.child.pid = pid) ∧
      ∃ pre wait why, Reported s r pre wait why := by
  obtain ⟨s,reached,past,calm,_,handed⟩ := idEnds
  have fits : (okLine 1234).length ≤ lineLimit := portFits (by decide)
  have decoded := SessionDrain.wireDecodes (reachedLegal reached).booked past calm
  have returned := @runExits readerJson 1234 idText none [2] [1,3] .eof s.box.wire [⟨frameStdout,[104,105]⟩] []
    (exitFrame (.status (.code 3)) .none) fits (decoded.trans handed) (by decide) rfl
  rw [exitReturns readerReads] at returned
  obtain ⟨wrote,frames⟩ := @runAsks readerJson 1234 idText none [2] [1,3] .eof s.box.wire fits
  have hears := @hearsWhole 0 idRequest wrote (by decide +kernel) [] .eof
  refine ⟨s,_,reached,returned,by decide,rfl,?_⟩
  exact resultTruthful readingGuest ControlPayloads.plainSerde readerJson readingParses readerReads 0 1234 idText none
    (by decide +kernel) fits [2] [1,3] .eof s.box.wire (.frame idRequest) SessionTerminal.shortRun.tail s _
    (by rw [frames]; exact hears) reached List.prefix_rfl returned

section Whole
variable {env : Env} {s : Session} {j : Json} {port : Int} {command : ControlPayloads.PyStr}
  {deadline : Option ControlPayloads.Number} {idles cuts : List Nat} {ending : Ending}

theorem wholeSaid (legal : Legal s) (past : s.handler = .returned) :
    s.box.handed = [] ∧ ¬ SessionTerminal.streamed s ∨
    (∃ msg, s.box.handed = [errorFrame msg]) ∧ ¬ SessionTerminal.streamed s ∨
    (∃ pre wait why, s.box.handed = pre ++ [exitFrame wait why] ∧ (∀ g ∈ pre, SessionTerminal.Data g) ∧
      s.reap = some wait ∧ ∀ status, wait = .status status → s.child.life = .reaped status) ∧ SessionTerminal.streamed s := by
  have spoken := legal.booked.spoken
  simp only [SessionTerminal.Spoken,past,SessionTerminal.stage] at spoken
  rcases spoken with ⟨_,fresh,said⟩ | ⟨_,fresh,said⟩ | ⟨_,begun,said⟩
  · exact .inl ⟨(SessionTerminal.saidNothing said).mpr rfl,fresh⟩
  · refine .inr (.inl ⟨?_,fresh⟩)
    rcases SessionTerminal.saidShapes said with ⟨none,_⟩ | ⟨_,f,one,kind⟩ | ⟨other,_⟩
    · contradiction
    · have terminal : ¬ SessionTerminal.Data f := fun data => (dataNoTerminal data).2 kind
      obtain ⟨_,stated⟩ := (legal.answered.handed f (by simp [one])).resolve_left terminal
      obtain ⟨msg,rfl⟩ := statedError stated kind
      exact ⟨msg,one⟩
    · contradiction
  · refine .inr (.inr ⟨?_,begun⟩)
    obtain ⟨pre,f,shape,kind⟩ := (SessionTerminal.saidResult said).mpr rfl
    obtain ⟨pre,wait,why,shape,data,rfl,waited,reaped⟩ := exitStands legal (f := f) (by simp [shape]) kind
    exact ⟨pre,wait,why,shape,data,waited,reaped⟩

end Whole

-- Left in peace, a session is reported by the host as it ended, with everything that was read of its child.
theorem resultComplete (env : Env) (j : Json) (reads : Reads j) (port : Int) (command : ControlPayloads.PyStr)
    (deadline : Option ControlPayloads.Number) (fits : (okLine port).length ≤ lineLimit) (idles cuts : List Nat)
    (ending : Ending) (actions : List Action) (s : Session)
    (reached : Machine.run (step env) start actions = some s) (past : s.handler = .returned) (calm : s.cancel = false) :
    (SessionTerminal.streamed s → ∃ r pre wait why,
      (runGuestWithSocket j port command deadline idles ⟨okLine port ++ s.box.wire,cuts,ending⟩).outcome = .returned r ∧
        Reported s r pre wait why ∧
        ((∀ side, Tap.left (s.stream side) = []) → ∀ side, payloads side pre = (s.stream side).produced)) ∧
    (¬ SessionTerminal.streamed s → ∃ msg,
      (runGuestWithSocket j port command deadline idles ⟨okLine port ++ s.box.wire,cuts,ending⟩).outcome = .raised msg ∧
        (s.box.handed = [] ∨ ∃ text, s.box.handed = [errorFrame text] ∧ msg = "Guest agent error: " ++ text)) := by
  have legal := reachedLegal reached
  have decoded := SessionDrain.wireDecodes legal.booked past calm
  rcases wholeSaid legal past with ⟨none,fresh⟩ | ⟨⟨text,one⟩,fresh⟩ | ⟨⟨pre,wait,why,shape,data,waited,reaped⟩,begun⟩
  · refine ⟨fun begun => absurd begun fresh,fun _ => ?_⟩
    obtain ⟨t,bytes,collects⟩ := @runCollects j port command deadline idles cuts ending s.box.wire fits
    obtain ⟨msg,raised⟩ := @collectEndless j idles t ⟨[],[]⟩ [] (by rw [bytes,decoded,none]) (by simp)
    exact ⟨msg,collects.trans raised,.inl none⟩
  · refine ⟨fun begun => absurd begun fresh,fun _ => ⟨"Guest agent error: " ++ text,?_,.inr ⟨text,one,rfl⟩⟩⟩
    obtain ⟨t,bytes,collects⟩ := @runCollects j port command deadline idles cuts ending s.box.wire fits
    have kind : (errorFrame text).ftype ≠ frameExit := by simp [errorFrame,frameError,frameExit]
    have ends := @collectTerminal j idles t ⟨[],[]⟩ (errorFrame text) [] [] (by rw [bytes,decoded,one]; rfl) (by simp) (.inr rfl)
    obtain ⟨fields,loads,message,_⟩ := errorLoads reads text
    rw [collects,ends,if_neg kind,onError,parseJson,loads]
    simp only [message]
  · refine ⟨fun _ => ?_,fun fresh => absurd begun fresh⟩
    refine ⟨_,pre,wait,why,?_,⟨shape,waited,reaped,?_,rfl⟩,?_⟩
    · rw [runExits idles cuts ending fits (decoded.trans shape) (dataQuiet data) rfl,exitReturns reads]
      rfl
    · intro side
      have first : pre <+: s.box.entered := by
        rw [← legal.booked.even (.inl calm),shape]
        exact List.prefix_append _ _
      exact (SessionWire.payloadsPrefix side first).trans (legal.booked.sound.ordered side)
    · intro none side
      obtain ⟨pre',last,same,_,_,all⟩ := (SessionDrain.receivedLeft legal.booked past calm begun).mpr none
      rw [decoded,shape] at same
      obtain ⟨rfl,_⟩ := List.append_inj' same rfl
      exact all side

theorem resultCompleteId : ∃ s, Machine.run (step readingGuest) start idRun = some s ∧ SessionTerminal.streamed s ∧
    ((SessionTerminal.streamed s → ∃ r pre wait why,
      (runGuestWithSocket readerJson 1234 idText none [] ⟨okLine 1234 ++ s.box.wire,[],.eof⟩).outcome = .returned r ∧
        Reported s r pre wait why ∧
        ((∀ side, Tap.left (s.stream side) = []) → ∀ side, payloads side pre = (s.stream side).produced)) ∧
    (¬ SessionTerminal.streamed s → ∃ msg,
      (runGuestWithSocket readerJson 1234 idText none [] ⟨okLine 1234 ++ s.box.wire,[],.eof⟩).outcome = .raised msg ∧
        (s.box.handed = [] ∨ ∃ text, s.box.handed = [errorFrame text] ∧ msg = "Guest agent error: " ++ text))) := by
  obtain ⟨s,reached,past,calm,phase,_⟩ := idEnds
  refine ⟨s,reached,by simp [SessionTerminal.streamed,phase],?_⟩
  exact resultComplete readingGuest readerJson readerReads 1234 idText none (portFits (by decide)) [] [] .eof idRun s reached past calm

end Guesthopper.CommandRun
