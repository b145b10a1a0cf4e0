import Guesthopper.SessionPath
import Guesthopper.SshPump

/-! An SSH client and the guest's program, with the gateway and the agent between them. What
the program is given are the client's events in their order; what the client is shown and
told is what the agent's session said. -/
namespace Guesthopper.SshPath
open FrameBytes SessionText ClientStream ClientDoors SshSession SshPump
open SessionWire (payloads)

section Drunk
variable {j : Json} {port : Int} {s t : SshSession.Session} {raw : Bytes}

def offers (port : Int) (raw : Bytes) : SshSession.Action → Prop
  | .connects (.ok socket) _ => socket.bytes = GuestCommand.okLine port ++ raw
  | _ => True

def stage : Run → Stage
  | .unstarted | .connecting => .unconnected
  | .greeting | .answering => .greeting
  | .requesting | .pumping _ => .reading
  | .ended => .past

def Drunk (port : Int) (raw : Bytes) (s : SshSession.Session) : Prop :=
  Drinks (GuestCommand.okLine port) raw (stage s.run) s.read s.reader.bytes

theorem stripOkLine : strip (GuestCommand.okLine port) = SessionText.utf8 (GuestCommand.okResponse port) := by
  have spelled : SessionText.utf8 (GuestCommand.okResponse port) =
      (GuestCommand.okResponse port).map (fun c => UInt8.ofNat c.toNat) :=
    ControlPayloads.asciiUtf8 fun c known => (GuestCommand.okChars known).1
  have solid : ∀ c ∈ (toString port).toList, space (UInt8.ofNat c.toNat) = false := by
    intro c known
    rcases GuestCommand.portChars known with rfl | range
    · rfl
    · have same : (UInt8.ofNat c.toNat).toNat = c.toNat := by rw [UInt8.toNat_ofNat',Nat.mod_eq_of_lt (by omega)]
      simp only [space,decide_eq_false_iff_not,← UInt8.toNat_inj,UInt8.le_iff_toNat_le,same]
      have blank : (32 : UInt8).toNat = 32 ∧ (13 : UInt8).toNat = 13 := ⟨rfl,rfl⟩
      omega
  rw [GuestCommand.okLineShape,spelled,GuestCommand.okResponse,List.map_append]
  cases digits : (toString port).toList.reverse with
  | nil => exact absurd (List.reverse_eq_nil_iff.mp digits) GuestCommand.portFull
  | cons c cs =>
    have last := solid c (by rw [← List.mem_reverse,digits]; exact List.mem_cons_self)
    have shape : (toString port).toList = cs.reverse ++ [c] := by
      rw [← List.reverse_reverse (toString port).toList,digits,List.reverse_cons]
    have word : space 79 = false ∧ space 10 = true := by decide
    rw [shape]
    simp [strip,word,last]

theorem readlineOk {u rest : Socket} {line : Bytes} (shape : u.bytes = GuestCommand.okLine port ++ raw)
    (got : readline u = some (line,rest)) : line = GuestCommand.okLine port ∧ rest.bytes = raw := by
  have first : u.bytes.takeWhile (fun b => b ≠ 10) = (GuestCommand.okResponse port).map (fun c => UInt8.ofNat c.toNat) := by
    rw [shape,GuestCommand.okLineShape,List.append_assoc,List.takeWhile_append_of_pos]
    · simp
    · intro b known
      obtain ⟨c,inside,rfl⟩ := List.mem_map.mp known
      obtain ⟨small,other⟩ := GuestCommand.okChars inside
      have same : (UInt8.ofNat c.toNat).toNat = c.toNat := by rw [UInt8.toNat_ofNat',Nat.mod_eq_of_lt (by omega)]
      have apart : UInt8.ofNat c.toNat ≠ 10 := fun is => other (by rw [← same,is]; rfl)
      simpa using apart
  unfold readline at got
  split at got <;> try contradiction
  simp only [first] at got
  split at got <;> try contradiction
  have long : ((GuestCommand.okResponse port).map (fun c => UInt8.ofNat c.toNat)).length < u.bytes.length := by
    rw [shape,GuestCommand.okLineShape]
    simp
  rw [if_pos long] at got
  cases got
  refine ⟨GuestCommand.okLineShape.symm,?_⟩
  rw [shape,GuestCommand.okLineShape]
  exact List.drop_left' (by simp)

theorem pumpedDrunk {ok : Bool} (pc : s.run = .pumping .reading) (drunk : Drunk port raw s) :
    Drunk port raw (pumpReads j s ok) := by
  unfold Drunk at drunk ⊢
  rw [pc] at drunk
  have more : ∀ {f rest}, sshReadFrame s.reader = .frame f rest →
      Drinks (GuestCommand.okLine port) raw .reading (s.read ++ [f]) rest.bytes :=
    fun found => drinksFrame drunk (readFrameByGrammar found).1
  rcases @pumpReadsCases j s ok with ⟨f,rest,found,goes | halts⟩ | ⟨_,halts⟩
  · rw [goes.run,goes.read,goes.reader]
    exact more found
  · rw [halts.run,halts.read]
    exact drinksPrefix (more found)
  · rw [halts.run,halts.read]
    exact drinksPrefix drunk

theorem stepDrunk {a : SshSession.Action} (h : step j port s a = some t) (offered : offers port raw a)
    (drunk : Drunk port raw s) : Drunk port raw t := by
  have early := drinksPrefix drunk
  cases stepMove h with
  | opened | ptyWished | execWished | arrived | paused | resumed | inbound => exact drunk
  | lost | unreached | mistaken | quit => exact early
  | woke pc | started pc | greeted pc | requested pc | woken pc =>
    rw [Drunk,pc] at drunk
    exact drunk
  | connected pc =>
    rw [Drunk,pc] at drunk
    exact ⟨drunk,offered⟩
  | replied pc got =>
    rw [Drunk,pc] at drunk
    exact drinksGreeted drunk (readlineOk drunk.2 got).2
  | pumped pc => exact pumpedDrunk pc drunk

theorem reachedDrunk {acts : List SshSession.Action} (reached : Machine.run (step j port) SshSession.start acts = some s)
    (offered : ∀ a ∈ acts, offers port raw a) : s.read <+: decodeAll maxFrameLen raw := by
  have drunk : Drunk port raw s := by
    refine Machine.runKeepsAlong (I := Drunk port raw) (P := fun _ a => offers port raw a) ?_ ?_
      (Machine.alongAll offered) reached
    · intro u a v drunk offered h
      exact stepDrunk h offered drunk
    · have blank : SshSession.start.read = [] := rfl
      exact blank
  exact drinksPrefix drunk

end Drunk

section Client
variable {env : SessionModel.Env} {j : Json} {port : Int} {acts : List SshSession.Action} {s : SshSession.Session}
  {agent : SessionModel.Session} {raw : Bytes}

theorem exitStatus (reads : GuestJson.Reads j) (raw : WaitResult) (why : Override) :
    ∃ fields, parseJson j (orBraces (exitFrame raw why).payload) = .ok fields ∧ statusOf fields = (exitFields raw why).1 := by
  obtain ⟨fields,loads,code,_⟩ := GuestJson.exitLoads reads raw why
  refine ⟨fields,?_,?_⟩
  · rw [orBraces,if_neg (loadsNonempty loads),parseJson,loads]
  · simp [statusOf,code,Value.asInt]

-- The gateway's own line: the guest could not be reached, its connection failed, or it refused.
inductive Note (acts : List SshSession.Action) (s : SshSession.Session) (agent : SessionModel.Session) : Bytes → Prop where
  | silent : Note acts s agent []
  | unreached {e : String} (early : s.read = []) (failed : .connects (.error e) true ∈ acts) :
      Note acts s agent (text ("ssh_gateway: cannot reach guest vsock: " ++ e ++ "\r\n"))
  | cut {e : Fault} (raised : sshReadFrame s.reader = .raised e) : Note acts s agent (complaint (faultText e))
  | refused {msg : String} (handed : errorFrame msg ∈ agent.box.handed) : Note acts s agent (refusal msg)

structure Truthful (acts : List SshSession.Action) (s : SshSession.Session) (agent : SessionModel.Session)
    (pre : List Frame) (note : Bytes) : Prop where
  passed : Passed pre s.read
  shown : s.shown = ⟨payloads .out pre ++ note,payloads .err pre⟩
  running : s.run ≠ .ended → pre = s.read ∧ note = []
  words : Note acts s agent note
  produced : ∀ side, payloads side pre <+: (agent.stream side).produced
  status : ∀ code, s.exits = [code] → code = 0 ∨ code = 1 ∧ note ≠ [] ∨
    ∃ wait why, agent.reap = some wait ∧ exitFrame wait why ∈ agent.box.handed ∧ code = (exitFields wait why).1
  exit : ∀ f ∈ s.read, f.ftype = frameExit → ∃ wait why, agent.reap = some wait ∧ f = exitFrame wait why ∧
    s.exits = [(exitFields wait why).1]

theorem errorRefusal (reads : GuestJson.Reads j) (msg : String) :
    ∃ fields, parseJson j (orBraces (errorFrame msg).payload) = .ok fields ∧ messageText fields = msg := by
  obtain ⟨fields,loads,message,_⟩ := GuestJson.errorLoads reads msg
  refine ⟨fields,?_,message⟩
  rw [orBraces,if_neg (loadsNonempty loads),parseJson,loads]

theorem causeNote (offered : ∀ a ∈ acts, offers port raw a) (early : s.read = []) {note : Bytes}
    (cause : Cause port acts note) : Note acts s agent note := by
  cases cause with
  | unreached failed => exact .unreached early failed
  | mistaken connected got other =>
    obtain ⟨rfl,_⟩ := readlineOk (offered _ connected) got
    exact absurd stripOkLine other

theorem wordsNote (reads : GuestJson.Reads j) (legal : SessionAnswer.Legal agent) (heard : s.read <+: agent.box.handed)
    (offered : ∀ a ∈ acts, offers port raw a) {note : Bytes} (words : Words j port acts s note) : Note acts s agent note := by
  have handed : ∀ {kind f}, Last s kind f → f ∈ agent.box.handed := by
    intro kind f last
    obtain ⟨pre,shape,_⟩ := last
    exact heard.subset (by simp [shape])
  have error : ∀ {f}, Last s frameError f → ∃ msg, f = errorFrame msg := by
    intro f last
    have known := handed last
    obtain ⟨_,_,kind⟩ := last
    have terminal : ¬ SessionTerminal.Data f := fun data => (SessionAnswer.dataNoTerminal data).2 kind
    exact SessionAnswer.statedError ((legal.answered.handed f known).resolve_left terminal).2 kind
  cases words with
  | silent => exact .silent
  | absent early cause => exact causeNote offered early cause
  | cut raised => exact .cut raised
  | unread kind malformed =>
    rcases kind with exit | refused
    · have known := handed exit
      obtain ⟨_,_,is⟩ := exit
      obtain ⟨_,wait,why,_,_,rfl,_⟩ := SessionAnswer.exitStands legal known is
      obtain ⟨fields,parsed,_⟩ := exitStatus reads wait why
      cases malformed.symm.trans parsed
    · obtain ⟨msg,rfl⟩ := error refused
      obtain ⟨fields,parsed,_⟩ := errorRefusal reads msg
      cases malformed.symm.trans parsed
  | refused last parsed =>
    obtain ⟨msg,rfl⟩ := error last
    obtain ⟨fields,parsed',message⟩ := errorRefusal reads msg
    cases parsed.symm.trans parsed'
    rw [message]
    exact .refused (handed last)

theorem spokenTruthful (reads : GuestJson.Reads j) (legal : SessionAnswer.Legal agent) (spoken : Spoken j port acts s)
    (offered : ∀ a ∈ acts, offers port raw a) (heard : s.read <+: agent.box.entered) (plain : Plain s) :
    ∃ pre note, Truthful acts s agent pre note := by
  obtain ⟨pre,note,⟨passed,shown,running⟩,words,tells⟩ := spoken.passes plain
  have states : ∀ f ∈ s.read, f.ftype = frameExit → ∃ wait why, agent.reap = some wait ∧ f = exitFrame wait why := by
    intro f known exit
    obtain ⟨_,wait,why,_,_,is,reaped,_⟩ :=
      SessionAnswer.exitStands legal ((heard.trans legal.enters).subset known) exit
    exact ⟨wait,why,reaped,is⟩
  refine ⟨pre,note,passed,shown,running,wordsNote reads legal (heard.trans legal.enters) offered words,?_,?_,?_⟩
  · intro side
    exact (SessionWire.payloadsPrefix side ((passedPrefix passed).trans heard)).trans (legal.booked.sound.ordered side)
  · intro code told
    rcases tells code told with zero | ⟨f,fields,⟨before,last,exit⟩,parsed,is⟩ | ⟨one,filled,_⟩
    · exact .inl zero
    · have known : f ∈ s.read := by simp [last]
      obtain ⟨wait,why,reaped,rfl⟩ := states f known exit
      obtain ⟨fields',parsed',status⟩ := exitStatus reads wait why
      cases parsed.symm.trans parsed'
      exact .inr (.inr ⟨wait,why,reaped,(heard.trans legal.enters).subset known,is.trans status⟩)
    · exact .inr (.inl ⟨one,filled⟩)
  · intro f known exit
    obtain ⟨wait,why,reaped,rfl⟩ := states f known exit
    obtain ⟨fields,parsed,status⟩ := exitStatus reads wait why
    exact ⟨wait,why,reaped,rfl,status ▸ (spoken.obeys _ known exit).2 fields parsed⟩

def AskedTerminal (installed : Nat) (agent : SessionModel.Session) : Prop :=
  ∃ rows cols sent, rows < 2^16 ∧ cols < 2^16 ∧ ∀ first, agent.first = some first →
    CommandRun.Hears installed (encodeAll (⟨frameRequest,ControlPayloads.openPtyRequest rows cols⟩::sent)) first

end Client

/- Whatever an SSH client is shown is what the guest's program wrote, from the beginning and on
the stream it wrote it to, and then at the most the gateway's own words; a status other than 0
is the one the agent's session gave its child, or 1 with a reason. -/
theorem clientTruthful (env : SessionModel.Env) (serde : ControlPayloads.Serde) (speaks : SessionPath.Speaks env serde)
    (j : Json) (reads : GuestJson.Reads j) (port : Int) (acts : List SshSession.Action) (s : SshSession.Session)
    (reached : Machine.run (step j port) SshSession.start acts = some s) (actions : List SessionModel.Action)
    (agent : SessionModel.Session) (served : Machine.run (SessionModel.step env) SessionModel.start actions = some agent)
    (raw : Bytes) (wire : raw <+: agent.box.wire) (offered : ∀ a ∈ acts, offers port raw a) (installed : Nat)
    (kind : s.wish.wantPty = false ∨ AskedTerminal installed agent) : ∃ pre note, Truthful acts s agent pre note := by
  have legal := SessionAnswer.reachedLegal served
  have heard := (reachedDrunk reached offered).trans (SessionAnswer.heardPrefix legal wire)
  refine spokenTruthful reads legal (reachedSpoken reached) offered heard ?_
  rcases kind with exec | ⟨rows,cols,sent,tall,wide,opening⟩
  · exact .inl exec
  · have single := SessionPath.terminalSingle speaks tall wide served opening
    have ordered := (SessionWire.payloadsPrefix .err heard).trans (legal.booked.sound.ordered .err)
    simp only [SessionModel.Session.stream,single,Tap.unopened,List.prefix_nil] at ordered
    exact .inr ordered

def answerFrames : List Frame := [⟨frameStdout,[104,105]⟩,exitFrame (.status (.code 3)) .none]

def answerActions : List SshSession.Action :=
  [.connectionMade,.execRequested [105,100],.sessionStarted,
    .connects (.ok ⟨GuestCommand.okLine 1234 ++ encodeAll answerFrames,[],.eof⟩) true,.greets false,.answers true,
    .requests false,.reads true,.inbound .ping,.reads true]

theorem answerEnds : ∃ s, Machine.run (step GuestJson.readerJson 1234) SshSession.start answerActions = some s ∧
    (s.exits = [3] ∧ s.shown = ⟨[104,105],[]⟩ ∧ s.wish.wantPty = false) := Machine.runEnds (by decide +kernel)

theorem clientTruthfulId : ∃ s agent, Machine.run (step GuestJson.readerJson 1234) SshSession.start answerActions = some s ∧
    Machine.run (SessionModel.step SessionPath.terminalGuest) SessionModel.start CommandRun.idRun = some agent ∧
    s.exits = [3] ∧ s.shown = ⟨[104,105],[]⟩ ∧ ∃ pre note, Truthful answerActions s agent pre note := by
  obtain ⟨s,reached,told,shown,exec⟩ := answerEnds
  obtain ⟨agent,served,wire⟩ : ∃ agent, Machine.run (SessionModel.step SessionPath.terminalGuest) SessionModel.start
      CommandRun.idRun = some agent ∧ agent.box.wire = encodeAll answerFrames := Machine.runEnds (by decide +kernel)
  refine ⟨s,agent,reached,served,told,shown,?_⟩
  refine clientTruthful SessionPath.terminalGuest ControlPayloads.plainSerde SessionPath.terminalSpeaks GuestJson.readerJson
    GuestJson.readerReads 1234 answerActions s reached CommandRun.idRun agent served (encodeAll answerFrames)
    (wire ▸ List.prefix_rfl) ?_ 0 (.inl exec)
  intro a known
  simp only [answerActions,List.mem_cons,List.not_mem_nil,or_false] at known
  rcases known with rfl | rfl | rfl | rfl | rfl | rfl | rfl | rfl | rfl | rfl <;> trivial

section Events
variable {env : SessionModel.Env} {serde : ControlPayloads.Serde}

def given : List SshInbound.Event → Bytes
  | [] | .eof::_ => []
  | .data val::rest => val ++ given rest
  | .resize _ _::rest => given rest

def window : SshInbound.Event → Option (Nat × Nat)
  | .resize rows cols => if rows < 2^16 ∧ cols < 2^16 then some (rows,cols) else none
  | _ => none

end Events

section Sent
variable {j : Json} {port : Int} {s : SshSession.Session} {acts : List SshSession.Action}

end Sent

end Guesthopper.SshPath
