import Guesthopper.SessionPath
import Guesthopper.ShellProgram
import Guesthopper.ShellResize

/-! A user at `run_shell` and the guest's shell, with the agent between them. What the user is
shown and the status that comes back are the agent's session's own; what the shell is given is
what the user typed, as long as no window change falls into the middle of a frame. -/
namespace Guesthopper.ShellPath
open FrameBytes SessionText ClientStream ClientDoors GuestCommand ShellProgram
open ShellLoop (Shell Output request resizeFrame termSize pending readSize)
open ShellResize (Whole Untouched)

section Outbound
variable {α : Type} {h : Host α} {s t : Program α} {raw : Bytes}

def offers (h : Host α) (raw : Bytes) : ShellProgram.Action → Prop
  | .connects (.ok socket) => socket.bytes = okLine h.port ++ raw
  | _ => True

def stage : Pc → Stage
  | .connecting => .unconnected
  | .greeting => .greeting
  | .saving | .rawing | .installing _ | .entering | .looping => .reading
  | _ => .past

def Drunk (h : Host α) (raw : Bytes) (s : Program α) : Prop := Drinks (okLine h.port) raw (stage s.pc) s.read s.reader.bytes

theorem drunkSame (drunk : Drunk h raw s) (pc : t.pc = s.pc) (read : t.read = s.read) (reader : t.reader = s.reader) :
    Drunk h raw t := by
  unfold Drunk at drunk ⊢
  rw [pc,read,reader]
  exact drunk

def Past : Pc → Prop
  | .restoring | .uninstalling _ | .closing | .over | .exited _ | .killed _ => True
  | _ => False

theorem drunkPast (drunk : Drunk h raw s) (past : Past t.pc) (read : t.read = s.read) : Drunk h raw t := by
  have first := drinksPrefix drunk
  rw [← read] at first
  unfold Drunk
  cases pc : t.pc <;> rw [pc] at past <;> first | exact past.elim | exact first

def Shakes (h : Host α) (raw : Bytes) : Prop := ∀ connectFails requestFails u rest, u.bytes = okLine h.port ++ raw →
  shellHandshake h connectFails requestFails u = .ok rest → rest.bytes = raw

theorem lineShakes (fits : (okLine h.port).length ≤ lineLimit) : Shakes h raw := by
  intro connectFails requestFails u rest shape got
  obtain ⟨v,line,bytes,_⟩ := handshakeReads fits shape
  clear fits
  unfold shellHandshake at got
  rw [line] at got
  split at got <;> try contradiction
  dsimp only at got
  split at got <;> try contradiction
  split at got <;> try contradiction
  cases got
  exact bytes

theorem drunkMore {f : Frame} {u : Socket} (pc : s.pc = .looping) (drunk : Drunk h raw s)
    (found : readFrame s.reader = .frame f u) : Drinks (okLine h.port) raw .reading (s.read ++ [f]) u.bytes := by
  rw [Drunk,pc] at drunk
  exact drinksFrame drunk (readFrameByGrammar found).1

theorem stepDrunk {a : ShellProgram.Action} (shakes : Shakes h raw) (offered : offers h raw a)
    (drunk : Drunk h raw s) (moved : step h s a = some t) : Drunk h raw t := by
  have before := drunk
  unfold Drunk at before
  cases stepMove moved with
  | left | failed | ended | faulted | sendFailed | closed | killed | closingInterrupted | loopInterrupted | interrupted =>
    exact drunkPast drunk trivial rfl
  | connected socket pc =>
    rw [pc] at before
    exact ⟨before,offered⟩
  | greeted pc got =>
    rw [pc] at before
    have reading := drinksGreeted before (shakes _ _ _ _ before.2 got)
    unfold Drunk
    cases h.tty <;> exact reading
  | saved pc | rawed pc | entered pc =>
    rw [pc] at before
    exact before
  | installed pc =>
    rename_i sig
    rw [pc] at before
    cases sig <;> exact before
  | idled | woken | sent | handlerFailed | resized => exact drunkSame drunk rfl rfl rfl
  | unwritten pc found => exact drinksPrefix (drunkMore pc drunk found)
  | finished pc found => exact drinksPrefix (drunkMore pc drunk found)
  | taken pc found =>
    unfold Drunk
    dsimp only
    rw [pc]
    exact drunkMore pc drunk found
  | restored =>
    refine drunkPast drunk ?_ rfl
    cases h.tty <;> trivial
  | uninstalled =>
    rename_i sig pc
    refine drunkPast drunk ?_ rfl
    cases sig <;> trivial
  | exited =>
    have past : ∀ code, Past (.exited code) := fun code => trivial
    exact drunkPast drunk (past _) rfl
  | spared => exact drunk

theorem reachedDrunk {acts : List ShellProgram.Action} (fits : (okLine h.port).length ≤ lineLimit)
    (reached : Machine.run (step h) (start h) acts = some s) (offered : ∀ a ∈ acts, offers h raw a) :
    s.read <+: decodeAll maxFrameLen raw := by
  have drunk : Drunk h raw s := by
    refine Machine.runKeepsAlong (I := Drunk h raw) (P := fun _ a => offers h raw a) ?_ ?_ (Machine.alongAll offered) reached
    · intro u a v before offered moved
      exact stepDrunk (lineShakes fits) offered before moved
    · have blank : (start h).read = [] := rfl
      exact blank
  exact drinksPrefix drunk

-- A frame that ends the loop was the last one, and the report is the one made of it.
def LastWord (h : Host α) (s : Program α) : Prop :=
  ∃ before f, s.read = before ++ [f] ∧ Terminal f ∧ (∀ g ∈ before, ¬ Terminal g) ∧ s.said = complaint h f ∧
    (s.ending = some (.told (lastReport h f)) ∨ s.ending = some .interrupted)

def Wordless (s : Program α) : Prop :=
  s.said = [] ∧ (∀ f ∈ s.read, ¬ Terminal f) ∧ ∀ code, s.ending = some (.told (.status code)) → code = 0

def Spoken (h : Host α) (s : Program α) : Prop := Wordless s ∨ Past s.pc ∧ LastWord h s

theorem wordlessMore (wordless : Wordless s) (said : t.said = s.said) (read : t.read = s.read ∨ ∃ f, t.read = s.read ++ [f] ∧ ¬ Terminal f)
    (ending : ∀ code, t.ending = some (.told (.status code)) → s.ending = some (.told (.status code)) ∨ code = 0) : Wordless t := by
  obtain ⟨quiet,data,zero⟩ := wordless
  refine ⟨said.trans quiet,?_,fun code same => (ending code same).elim (zero code) id⟩
  rcases read with same | ⟨f,more,open'⟩
  · rw [same]
    exact data
  · rw [more]
    exact List.forall_mem_append.mpr ⟨data,by simpa using open'⟩

theorem spokenSame (spoken : Spoken h s) (pc : Past s.pc → Past t.pc) (said : t.said = s.said) (read : t.read = s.read)
    (ending : t.ending = s.ending ∨ t.ending = some .interrupted) : Spoken h t := by
  rcases spoken with wordless | ⟨past,before,f,shape,last,data,complains,reports⟩
  · refine .inl (wordlessMore wordless said (.inl read) ?_)
    intro code told
    rcases ending with same | other
    · exact .inl (same ▸ told)
    · cases other.symm.trans told
  · refine .inr ⟨pc past,before,f,read.trans shape,last,data,said.trans complains,?_⟩
    rcases ending with same | other
    · rw [same]
      exact reports
    · exact .inr other

theorem spokenEarly (spoken : Spoken h s) (early : ¬ Past s.pc) : Wordless s := spoken.resolve_right fun past => early past.1

theorem raisedSpoken (wordless : Wordless s) (said : t.said = s.said) (read : t.read = s.read) {e : ShellProgram.Ending}
    (ending : t.ending = some e) (none : ∀ code, e ≠ .told (.status code)) : Spoken h t := by
  refine .inl (wordlessMore wordless said (.inl read) ?_)
  intro code told
  exact absurd (Option.some.inj (ending.symm.trans told)) (none code)

theorem printedOpen {f : Frame} (printed : Output f) : ¬ Terminal f := by
  rcases printed with is | is <;> rw [Terminal,is] <;> decide

theorem stepSpoken {a : ShellProgram.Action} (spoken : Spoken h s) (moved : step h s a = some t) : Spoken h t := by
  have wordless := spokenEarly spoken
  cases stepMove moved with
  | left early raised =>
    have open' : ¬ Past s.pc := by
      intro past
      cases pc : s.pc <;> rw [pc] at early past <;> first | exact early.elim | exact past.elim
    exact raisedSpoken (wordless open') rfl rfl rfl raised
  | connected socket pc | greeted pc | saved pc | rawed pc | installed pc | entered pc =>
    exact .inl (wordless (by rw [pc]; exact id))
  | idled | woken | sent | handlerFailed | resized => exact spokenSame spoken id rfl rfl (.inl rfl)
  | failed pc | sendFailed pc => exact raisedSpoken (wordless (by rw [pc]; exact id)) rfl rfl rfl (socketRaised _)
  | ended pc =>
    refine .inl (wordlessMore (wordless (by rw [pc]; exact id)) rfl (.inl rfl) ?_)
    intro code told
    cases told
    exact .inr rfl
  | faulted pc =>
    rename_i e shell found went
    refine raisedSpoken (wordless (by rw [pc]; exact id)) rfl rfl rfl ?_
    intro code same
    cases e <;> cases same
  | unwritten pc found printed =>
    rename_i f u e shell went
    refine .inl (wordlessMore (wordless (by rw [pc]; exact id)) rfl (.inr ⟨f,rfl,printedOpen printed⟩) ?_)
    intro code told
    cases told
  | finished pc found last =>
    have quiet := wordless (by rw [pc]; exact id)
    refine .inr ⟨trivial,s.read,_,rfl,last,quiet.2.1,?_,.inl rfl⟩
    rw [quiet.1]
    rfl
  | taken pc found more =>
    exact .inl (wordlessMore (wordless (by rw [pc]; exact id)) rfl (.inr ⟨_,rfl,more⟩) fun code told => .inl told)
  | restored =>
    refine spokenSame spoken ?_ rfl rfl (.inl rfl)
    intro _
    cases h.tty <;> trivial
  | uninstalled =>
    rename_i sig pc
    refine spokenSame spoken ?_ rfl rfl (.inl rfl)
    intro _
    cases sig <;> trivial
  | exited =>
    have past : ∀ code, Past (.exited code) := fun code => trivial
    exact spokenSame spoken (fun _ => past _) rfl rfl (.inl rfl)
  | closed | killed => exact spokenSame spoken (fun _ => trivial) rfl rfl (.inl rfl)
  | spared => exact spoken
  | closingInterrupted | loopInterrupted | interrupted => exact spokenSame spoken (fun _ => trivial) rfl rfl (.inr rfl)

theorem reachedSpoken {acts : List ShellProgram.Action} (reached : Machine.run (step h) (start h) acts = some s) : Spoken h s :=
  Machine.runKeeps (I := Spoken h) (fun u a v before moved => stepSpoken before moved)
    (.inl ⟨rfl,by simp [start],by simp [start]⟩) reached

def Takes (s : Program α) : ShellProgram.Action → Prop
  | .reads n fails =>
    match readFrame s.reader with
    | .frame f _ => Output f → fails = none ∧ n = f.payload.length
    | _ => True
  | _ => True

instance (s : Program α) : DecidablePred (Takes s)
  | .reads n fails =>
    match found : readFrame s.reader with
    | .frame f _ => decidable_of_iff (Output f → fails = none ∧ n = f.payload.length) (by simp only [Takes,found])
    | .none => .isTrue (by simp only [Takes,found])
    | .raised _ => .isTrue (by simp only [Takes,found])
  | .connects _ | .greets _ _ | .saves _ | .raws _ | .installs | .enters | .idles | .wakes _ _ | .fails _ | .sends _
  | .sendFails _ | .winch _ | .restores _ | .uninstalls | .closes | .kills _ _ _ | .interrupts => .isTrue trivial

structure Displayed (s : Program α) : Prop where
  shown : s.shell.shown = s.output
  fresh : s.pc = .connecting ∨ s.pc = .greeting → s.read = []

theorem moveShows {tty : Bool} {u v : Shell} {b : ShellLoop.Action} (moved : ShellLoop.step tty u b = some v)
    (other : ∀ f n, b ≠ .guest f n) : v.shown = u.shown := by
  rcases ShellLoop.stepDelivers moved with ⟨f,n,same,_⟩ | ⟨_,_,shown⟩
  · exact absurd same (other f n)
  · exact shown

theorem displayedSame (displayed : Displayed s) (shown : t.shell.shown = s.shell.shown) (read : t.read = s.read)
    (fresh : t.pc = .connecting ∨ t.pc = .greeting → s.pc = .connecting ∨ s.pc = .greeting) : Displayed t := by
  refine ⟨?_,fun early => read.trans (displayed.fresh (fresh early))⟩
  rw [shown,displayed.shown,Program.output,Program.output,read]

theorem takenShown {f : Frame} {u : Socket} {n : Nat} {fails : Option String} {shell : Shell} (displayed : Displayed s)
    (takes : Takes s (.reads n fails)) (found : readFrame s.reader = .frame f u)
    (went : ShellLoop.step h.tty s.shell (.guest f n) = some shell) : shell.shown = seen ⟨[],[]⟩ (s.read ++ [f]) := by
  have whole : Output f → fails = none ∧ n = f.payload.length := by
    simp only [Takes,found] at takes
    exact takes
  rw [(ShellLoop.guestCases went).2.2.2.1,displayed.shown,ShellLoop.seenConcat]
  exact ShellLoop.displayAll fun printed => (whole printed).2

theorem stepDisplays {a : ShellProgram.Action} (displayed : Displayed s) (takes : Takes s a) (moved : step h s a = some t) :
    Displayed t := by
  cases stepMove moved with
  | left | interrupted => exact displayedSame displayed rfl rfl (by simp [Program.leaves])
  | connected socket pc => exact displayedSame displayed rfl rfl (by simp [pc])
  | greeted pc =>
    have none := displayed.fresh (.inr pc)
    refine ⟨?_,fun _ => none⟩
    rw [Program.output,none]
    rfl
  | installed =>
    rename_i sig pc
    refine displayedSame displayed rfl rfl ?_
    cases sig <;> simp [afterInstall]
  | idled pc went | woken pc went | sent went | handlerFailed busy went | resized owned went =>
    exact displayedSame displayed (moveShows went (by simp)) rfl id
  | failed pc went | ended pc found went | faulted pc found went | sendFailed pc idle went =>
    exact displayedSame displayed (moveShows went (by simp)) rfl (by simp [Program.stops])
  | unwritten pc found printed =>
    simp only [Takes,found] at takes
    cases (takes printed).1
  | finished pc found last went => exact ⟨takenShown displayed takes found went,by simp [Program.stops]⟩
  | taken pc found more went => exact ⟨takenShown displayed takes found went,by simp [pc]⟩
  | restored =>
    refine displayedSame displayed rfl rfl ?_
    cases h.tty <;> simp
  | uninstalled =>
    rename_i sig pc
    refine displayedSame displayed rfl rfl ?_
    cases sig <;> simp [afterUninstall]
  | saved | rawed | entered | closed | exited | killed | closingInterrupted =>
    exact displayedSame displayed rfl rfl (by simp)
  | spared => exact displayed
  | loopInterrupted => exact displayedSame displayed rfl rfl (by simp [Program.stops])

structure Truthful (s : Program α) (agent : SessionModel.Session) : Prop where
  err : s.output.err = []
  out : s.output.out <+: agent.out.produced
  status : ∀ code, s.ending = some (.told (.status code)) →
    code = 0 ∧ (∀ f ∈ s.read, ¬ Terminal f) ∧ s.said = [] ∨
    (∃ msg, errorFrame msg ∈ agent.box.handed ∧ code = 1 ∧ s.said = ["guest_cmd: guest agent error: " ++ msg ++ "\n"]) ∨
    ∃ wait why, agent.reap = some wait ∧ exitFrame wait why ∈ agent.box.handed ∧ code = (exitFields wait why).1 ∧ s.said = []
  whole : (∃ f ∈ s.read, f.ftype = frameExit) → agent.cancel = false → agent.out.produced = s.output.out ++ Tap.left agent.out

theorem exitReport (reads : GuestJson.Reads h.json) (wait : WaitResult) (why : Override) :
    lastReport h (exitFrame wait why) = .status (exitFields wait why).1 ∧ complaint h (exitFrame wait why) = [] := by
  obtain ⟨fields,loads,code,_⟩ := GuestJson.exitLoads reads wait why
  have kind : (exitFrame wait why).ftype = frameExit := rfl
  refine ⟨?_,if_neg (by rw [kind]; decide)⟩
  rw [lastReport,if_pos kind]
  simp [runShell,parseJson,loads,code,Value.asInt]

theorem errorReport (reads : GuestJson.Reads h.json) (msg : String) : lastReport h (errorFrame msg) = .status 1 ∧
    complaint h (errorFrame msg) = ["guest_cmd: guest agent error: " ++ msg ++ "\n"] := by
  obtain ⟨fields,loads,message,_⟩ := GuestJson.errorLoads reads msg
  have kind : (errorFrame msg).ftype = frameError := rfl
  rw [lastReport,complaint,if_neg (by rw [kind]; decide),if_pos kind]
  simp [runShell,parseJson,loads,message]

theorem terminalStands {agent : SessionModel.Session} {f : Frame} (legal : SessionAnswer.Legal agent)
    (heard : s.read <+: agent.box.entered) (known : f ∈ s.read) (terminal : Terminal f) :
    agent.box.handed = s.read ∧ (f.ftype = frameExit ∨ ∃ msg, f = errorFrame msg) := by
  obtain ⟨pre,last,shape,data,ending⟩ := SessionPath.heardShape legal (heard.trans legal.enters)
  refine ending f ?_
  rw [shape] at known
  rcases List.mem_append.mp known with old | new
  · obtain ⟨exit,error⟩ := SessionAnswer.dataNoTerminal (data f old)
    exact absurd terminal (not_or.mpr ⟨exit,error⟩)
  · simpa using new

theorem spokenTruthful {agent : SessionModel.Session} (reads : GuestJson.Reads h.json) (legal : SessionAnswer.Legal agent)
    (single : agent.err = Tap.unopened) (spoken : Spoken h s) (heard : s.read <+: agent.box.entered) : Truthful s agent := by
  have states : ∀ f ∈ s.read, f.ftype = frameExit → ∃ wait why, agent.reap = some wait ∧ f = exitFrame wait why := by
    intro f known exit
    obtain ⟨_,wait,why,_,_,is,reaped,_⟩ :=
      SessionAnswer.exitStands legal ((heard.trans legal.enters).subset known) exit
    exact ⟨wait,why,reaped,is⟩
  have ordered : ∀ side, SessionWire.payloads side s.read <+: (agent.stream side).produced :=
    fun side => (SessionWire.payloadsPrefix side heard).trans (legal.booked.sound.ordered side)
  refine ⟨?_,ordered .out,?_,?_⟩
  · have none := ordered .err
    simp only [SessionModel.Session.stream,single,Tap.unopened,List.prefix_nil] at none
    exact none
  · intro code told
    rcases spoken with ⟨quiet,data,zero⟩ | ⟨_,before,f,read,terminal,_,complains,reports | reports⟩
    · exact .inl ⟨zero code told,data,quiet⟩
    · have known : f ∈ s.read := by simp [read]
      have said : lastReport h f = .status code := Ending.told.inj (Option.some.inj (reports.symm.trans told))
      by_cases exit : f.ftype = frameExit
      · obtain ⟨wait,why,reaped,rfl⟩ := states f known exit
        obtain ⟨status,silent⟩ := exitReport reads wait why
        exact .inr (.inr ⟨wait,why,reaped,(heard.trans legal.enters).subset known,
          (Report.status.inj (status.symm.trans said)).symm,complains.trans silent⟩)
      · obtain ⟨msg,rfl⟩ := (terminalStands legal heard known terminal).2.resolve_left exit
        obtain ⟨status,line⟩ := errorReport reads msg
        exact .inr (.inl ⟨msg,(heard.trans legal.enters).subset known,
          (Report.status.inj (status.symm.trans said)).symm,complains.trans line⟩)
    · cases reports.symm.trans told
  · intro found calm
    obtain ⟨f,known,exit⟩ := found
    have kept := legal.booked.sound.kept .out (.inl calm)
    obtain ⟨handed,_⟩ := terminalStands legal heard known (.inl exit)
    have back : agent.box.entered <+: s.read := handed ▸ legal.enters
    have same : agent.box.entered = s.read := back.eq_of_length (Nat.le_antisymm back.length_le heard.length_le)
    rw [same] at kept
    exact kept

end Outbound

/- What `run_shell` shows is what the guest's shell printed, from its first byte on, and the
status it returns is that of the guest's child, or 1 with the agent's own words for it; it is
0 without either only where the stream ended before it said anything. -/
theorem shellTruthful {α : Type} (env : SessionModel.Env) (serde : ControlPayloads.Serde) (speaks : SessionPath.Speaks env serde)
    (h : Host α) (reads : GuestJson.Reads h.json) (fits : (okLine h.port).length ≤ lineLimit)
    (acts : List ShellProgram.Action) (s : Program α) (reached : Machine.run (step h) (start h) acts = some s)
    (actions : List SessionModel.Action) (agent : SessionModel.Session)
    (served : Machine.run (SessionModel.step env) SessionModel.start actions = some agent)
    (raw : Bytes) (wire : raw <+: agent.box.wire) (offered : ∀ a ∈ acts, offers h raw a) (installed : Nat) (sent : List Frame)
    (opening : ∀ first, agent.first = some first → CommandRun.Hears installed (encodeAll (request h.tty h.window::sent)) first) :
    Truthful s agent ∧ (Machine.Along (step h) Takes (start h) acts → s.shell.shown = s.output) := by
  have legal := SessionAnswer.reachedLegal served
  have size : (if h.tty then termSize h.window else (24,80)).1 < 2^16 ∧ (if h.tty then termSize h.window else (24,80)).2 < 2^16 := by
    split
    · exact ShellResize.termSizeFits h.window
    · decide
  have single := SessionPath.terminalSingle speaks size.1 size.2 served opening
  have heard := (reachedDrunk fits reached offered).trans (SessionAnswer.heardPrefix legal wire)
  refine ⟨spokenTruthful reads legal single (reachedSpoken reached) heard,?_⟩
  intro takes
  have displayed : Displayed s := Machine.runKeepsAlong (I := Displayed)
    (fun u a v before takes moved => stepDisplays before takes moved) ⟨rfl,fun _ => rfl⟩ takes reached
  exact displayed.shown

def userHost : Host Bool := {plainHost with json := GuestJson.readerJson}

def sevenFrames : List Frame := [⟨frameStdout,[36,32]⟩,exitFrame (.status (.code 7)) .none]

def sevenActions : List ShellProgram.Action :=
  toLoop sevenFrames ++ [.wakes none true,.reads 2 none,.idles,.sends 5,.wakes none true,.reads 0 none,.restores true,.uninstalls,
    .uninstalls,.uninstalls,.closes]

def sevenRun : List SessionModel.Action :=
  [.firstRead (.frame (request true none)),.openptyReturns,.supplies .out [36,32],.pumpReads .out 2,.pumpSends .out,
    .writerTakes,.writerPuts 7,.writerFlushed,.exits (.code 7),.waitReady false,.pumpFails .out,.drainJoined,.handSends,
    .writerTakes,.writerPuts 33,.writerFlushed]

theorem sevenEnds : ∃ s, Machine.run (step userHost) (start userHost) sevenActions = some s ∧
    (s.pc = .over ∧ s.ending = some (.told (.status 7)) ∧ s.output = ⟨[36,32],[]⟩) := Machine.runEnds (by decide +kernel)

theorem sevenServed : ∃ agent, Machine.run (SessionModel.step SessionPath.terminalGuest) SessionModel.start sevenRun = some agent ∧
    (agent.first = some (.frame (request true none)) ∧ agent.box.wire = encodeAll sevenFrames) :=
  Machine.runEnds (by decide +kernel)

theorem sevenTakes : Machine.Along (step userHost) Takes (start userHost) sevenActions := by
  decide +kernel

theorem shellTruthfulSeven : ∃ s agent, Machine.run (step userHost) (start userHost) sevenActions = some s ∧
    Machine.run (SessionModel.step SessionPath.terminalGuest) SessionModel.start sevenRun = some agent ∧
    s.pc = .over ∧ s.ending = some (.told (.status 7)) ∧ Truthful s agent ∧ s.shell.shown = ⟨[36,32],[]⟩ := by
  obtain ⟨s,reached,ended,told,shown⟩ := sevenEnds
  obtain ⟨agent,served,first,wire⟩ := sevenServed
  have offered : ∀ a ∈ sevenActions, offers userHost (encodeAll sevenFrames) a := by
    intro a known
    simp only [sevenActions,toLoop,List.cons_append,List.nil_append,List.mem_cons,List.not_mem_nil,or_false] at known
    rcases known with rfl | rfl | rfl | rfl | rfl | rfl | rfl | rfl | rfl | rfl | rfl | rfl | rfl | rfl | rfl | rfl | rfl | rfl |
      rfl | rfl | rfl
    · exact rfl
    all_goals exact True.intro
  have opening : ∀ got, agent.first = some got → CommandRun.Hears 0 (encodeAll [request true none]) got := by
    intro got same
    cases Option.some.inj (first.symm.trans same)
    exact CommandRun.hearsWhole [] (by decide +kernel) [] .eof
  obtain ⟨truthful,displays⟩ := shellTruthful SessionPath.terminalGuest ControlPayloads.plainSerde SessionPath.terminalSpeaks
    userHost GuestJson.readerReads (by decide +kernel) sevenActions s reached sevenRun agent served (encodeAll sevenFrames)
    (wire ▸ List.prefix_rfl) offered 0 [] opening
  exact ⟨s,agent,reached,served,ended,told,truthful,(displays sevenTakes).trans shown⟩

end Guesthopper.ShellPath
