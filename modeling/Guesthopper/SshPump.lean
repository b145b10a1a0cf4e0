import Guesthopper.SessionWire
import Guesthopper.SshSession

/-! What the outbound pump says. As it goes from await to await it tells the client what the
door's loop tells as a whole; at every moment the client has been shown the output of the
frames read so far, and a status other than 0 is the guest's own or comes with a reason. -/
namespace Guesthopper.SshPump
open FrameBytes ClientStream ClientDoors SshSession
open SessionWire (payloads)

-- The client stays and does not change its mind; the channel takes what it is given.
def calm : Action → Bool
  | .connectionLost | .ptyRequested _ _ | .reads false => false
  | _ => true

def complaint (msg : String) : Bytes := text ("\r\nssh_gateway: " ++ msg ++ "\r\n")
def refusal (msg : String) : Bytes := text ("\r\nssh_gateway: guest agent error: " ++ msg ++ "\r\n")

def parting (j : Json) (f : Frame) : Bytes :=
  match parseJson j (orBraces f.payload) with
  | .ok fields => if f.ftype = frameError ∧ messageEncodes fields then refusal (messageText fields) else []
  | .error msg => complaint msg
  | .crash _ => []

def lastWords (j : Json) (s : Socket) : Bytes :=
  match _found : sshReadFrame s with
  | .none => []
  | .raised e => complaint (faultText e)
  | .frame f t => if f.ftype = frameExit ∨ f.ftype = frameError then parting j f else lastWords j t
termination_by s.bytes.length
decreasing_by exact codecShrinks (c := sshCodec) _found

section Pump
variable {j : Json} {port : Int} {s t : Session} {wantPty : Bool} {told : Report × Shown} {words : Bytes} {f : Frame}

theorem lastWordsFrame {r rest : Socket} (read : sshReadFrame r = .frame f rest) :
    lastWords j r = if f.ftype = frameExit ∨ f.ftype = frameError then parting j f else lastWords j rest := by
  rw [lastWords]
  split <;> rename_i found <;> cases read.symm.trans found
  rfl

theorem lastWordsEnd {r : Socket} (read : sshReadFrame r = .none) : lastWords j r = [] := by
  rw [lastWords]
  split <;> rename_i found <;> cases read.symm.trans found
  rfl

theorem lastWordsFault {r : Socket} {e : Fault} (read : sshReadFrame r = .raised e) :
    lastWords j r = complaint (faultText e) := by
  rw [lastWords]
  split <;> rename_i found <;> cases read.symm.trans found
  rfl

structure Reports (told : Report × Shown) (words : Bytes) (s : Session) : Prop where
  shown : s.shown = ⟨told.2.out ++ words,told.2.err⟩
  status : ∀ code, told.1 = .status code → s.exits = [code]
  crashed : ∀ text, told.1 = .crashed text → s.exits = []

def Follows (j : Json) (wantPty : Bool) (told : Report × Shown) (words : Bytes) (s : Session) : Prop :=
  s.wish.wantPty = wantPty ∧ match s.run with
    | .pumping _ => serve (pumpOutbound j wantPty) s.reader s.shown = told ∧ lastWords j s.reader = words ∧ s.exits = []
    | .ended => Reports told words s
    | _ => False

theorem reportsSaid (none : s.exits = []) (code : Int) (words : Bytes) :
    Reports (.status code,s.shown) words (finish ((s.write words).exit code)) := by
  refine ⟨rfl,?_,by simp⟩
  intro c same
  cases same
  exact congrArg (· ++ [code]) none

theorem reportsExit (none : s.exits = []) (code : Int) : Reports (.status code,s.shown) [] (finish (s.exit code)) := by
  have said := reportsSaid none code []
  simp only [Session.write,List.append_nil] at said
  exact said

theorem reportsCrash (none : s.exits = []) (text : String) : Reports (.crashed text,s.shown) [] (finish s) :=
  ⟨by rw [List.append_nil]; rfl,by simp,fun _ _ => none⟩

theorem withFieldsFollows {then' : (String → Option Value) → Session} {d : Report}
    (pty : s.wish.wantPty = wantPty) (none : s.exits = [])
    (ok : ∀ fields, parseJson j (orBraces f.payload) = .ok fields →
      Follows j wantPty (d,s.shown) (parting j f) (then' fields))
    (error : ∀ msg, parseJson j (orBraces f.payload) = .error msg → d = .status 0)
    (crash : ∀ text, parseJson j (orBraces f.payload) = .crash text → d = .crashed text) :
    Follows j wantPty (d,s.shown) (parting j f) (withFields j s true f.payload then') := by
  unfold withFields
  split
  · rename_i fields parsed
    exact ok fields parsed
  · rename_i msg parsed
    rw [error msg parsed,parting,parsed]
    exact ⟨pty,reportsSaid none 0 _⟩
  · rename_i text parsed
    rw [crash text parsed,parting,parsed]
    exact ⟨pty,reportsCrash none text⟩

theorem exitFollows (pty : s.wish.wantPty = wantPty) (none : s.exits = []) (exit : f.ftype = frameExit) :
    Follows j wantPty ((pumpOutbound j wantPty).onExit f.payload,s.shown) (parting j f) (deliver j s true f) := by
  have shape : deliver j s true f = withFields j s true f.payload fun fields =>
      finish (s.exit ((((fields "code").getD (.int 0)).asInt).getD 0)) := by
    rw [deliver,if_neg (by rw [exit]; decide),if_neg (by rw [exit]; decide),if_pos exit]
  rw [shape]
  refine withFieldsFollows pty none ?_ ?_ ?_
  all_goals intro x parsed
  · have other : frameExit ≠ frameError := by decide
    have quiet : parting j f = [] := by simp [parting,parsed,exit,other]
    rw [quiet]
    simp only [pumpOutbound,parsed]
    exact ⟨pty,reportsExit none _⟩
  · simp only [pumpOutbound,parsed]
  · simp only [pumpOutbound,parsed]

theorem errorFollows (pty : s.wish.wantPty = wantPty) (none : s.exits = []) (error : f.ftype = frameError) :
    Follows j wantPty ((pumpOutbound j wantPty).onError f.payload,s.shown) (parting j f) (deliver j s true f) := by
  have shape : deliver j s true f = withFields j s true f.payload fun fields =>
      if messageEncodes fields then finish ((s.write (refusal (messageText fields))).exit 1) else finish s := by
    rw [deliver,if_neg (by rw [error]; decide),if_neg (by rw [error]; decide),if_neg (by rw [error]; decide),if_pos error]
    rfl
  rw [shape]
  refine withFieldsFollows pty none ?_ ?_ ?_
  all_goals intro x parsed
  · simp only [pumpOutbound,parting,parsed]
    cases encodes : messageEncodes x with
    | true =>
      simp only [error,true_and,if_true]
      exact ⟨pty,reportsSaid none 1 _⟩
    | false =>
      simp only [Bool.false_eq_true,and_false,if_false]
      exact ⟨pty,reportsCrash none _⟩
  · simp only [pumpOutbound,parsed]
  · simp only [pumpOutbound,parsed]

theorem deliverFollows (f : Frame) (pty : s.wish.wantPty = wantPty) (none : s.exits = []) :
    Follows j wantPty (if f.ftype = frameExit then ((pumpOutbound j wantPty).onExit f.payload,s.shown)
      else if f.ftype = frameError then ((pumpOutbound j wantPty).onError f.payload,s.shown)
      else serve (pumpOutbound j wantPty) s.reader
        (if f.ftype = frameStdout ∨ f.ftype = frameStderr ∧ (pumpOutbound j wantPty).folds then
          {s.shown with out := s.shown.out ++ f.payload}
        else if f.ftype = frameStderr then {s.shown with err := s.shown.err ++ f.payload} else s.shown))
      (if f.ftype = frameExit ∨ f.ftype = frameError then parting j f else lastWords j s.reader) (deliver j s true f) := by
  have goes : ∀ shown, Follows j wantPty (serve (pumpOutbound j wantPty) s.reader shown) (lastWords j s.reader)
      (loopTop {s with shown := shown}) := fun _ => ⟨pty,rfl,rfl,none⟩
  by_cases exit : f.ftype = frameExit
  · rw [if_pos exit,if_pos (.inl exit)]
    exact exitFollows pty none exit
  by_cases error : f.ftype = frameError
  · rw [if_neg exit,if_pos error,if_pos (.inr error)]
    exact errorFollows pty none error
  have apart : ¬ (f.ftype = frameExit ∨ f.ftype = frameError) := by simp [exit,error]
  rw [if_neg exit,if_neg error,if_neg apart]
  have folds : (pumpOutbound j wantPty).folds = wantPty := rfl
  by_cases out : f.ftype = frameStdout
  · rw [deliver,if_pos out,if_pos rfl,if_pos (.inl out)]
    exact goes _
  by_cases err : f.ftype = frameStderr
  · have shape : deliver j s true f = loopTop (if s.wish.wantPty then s.write f.payload else s.writeStderr f.payload) := by
      rw [deliver,if_neg out,if_pos err]
      rfl
    rw [shape,pty]
    cases wantPty with
    | true =>
      rw [if_pos (.inr ⟨err,folds⟩)]
      exact goes _
    | false =>
      rw [if_neg (by simp [out,folds]),if_pos err]
      exact goes _
  · rw [deliver,if_neg out,if_neg err,if_neg exit,if_neg error,if_neg (by simp [out,err]),if_neg err]
    exact goes _

theorem readsFollows (pc : s.run = .pumping .reading) (follows : Follows j wantPty told words s) :
    Follows j wantPty told words (pumpReads j s true) := by
  unfold Follows at follows
  rw [pc] at follows
  obtain ⟨pty,same,said,none⟩ := follows
  unfold pumpReads
  split
  · rename_i found
    rw [← same,← said,serveEnd s.shown found,lastWordsEnd found]
    exact ⟨pty,reportsExit none 0⟩
  · rename_i e found
    rw [← same,← said,serveFault s.shown found,lastWordsFault found]
    exact ⟨pty,reportsSaid none 0 _⟩
  · rename_i f rest found
    rw [← same,← said,serveFrame s.shown found,lastWordsFrame found]
    exact @deliverFollows j {s with reader := rest, read := s.read ++ [f]} wantPty f pty none

theorem stepFollows {a : Action} (h : step j port s a = some t) (stays : calm a = true) (dead : s.run = .ended → Dead s.flow)
    (follows : Follows j wantPty told words s) : Follows j wantPty told words t := by
  have wish := (stepAsks h).1
  have pty : t.wish.wantPty = wantPty := by
    rw [wish,← follows.1]
    cases a <;> first | contradiction | rfl
  refine ⟨pty,?_⟩
  have before := follows.2
  cases pc : s.run with
  | unstarted | connecting | greeting | answering | requesting => rw [pc] at before; contradiction
  | ended =>
    have settled := endedSettles h pc (dead pc)
    rw [pc] at before
    rw [settled.run]
    obtain ⟨shown,status,crashed⟩ := before
    exact ⟨settled.shown.trans shown,fun code is => settled.exits.trans (status code is),
      fun text is => settled.exits.trans (crashed text is)⟩
  | pumping p =>
    rw [pc] at before
    cases stepMove h with
    | opened | execWished | arrived | paused | resumed | inbound =>
      simp only [pc]
      exact before
    | woke | woken => exact before
    | ptyWished | lost => contradiction
    | pumped reading =>
      rename_i ok
      cases ok with
      | false => contradiction
      | true => exact (readsFollows reading follows).2
    | started other | unreached other | mistaken other | quit other | connected other | greeted other | replied other
    | requested other =>
      rw [pc] at other
      contradiction

end Pump

/- The pump as it goes from await to await, against the loop of `ClientDoors` as a whole: the
same bytes to the client, the gateway's own line after them and the same status, whatever
happens in between. -/
theorem pumpFaithful (j : Json) (port : Int) (before acts : List Action) (s t : Session) (p : SshSession.Pump)
    (reached : Machine.run (step j port) start before = some s) (pc : s.run = .pumping p)
    (stays : ∀ a ∈ acts, calm a = true) (later : Machine.run (step j port) s acts = some t) :
    let told := serve (pumpOutbound j s.wish.wantPty) s.reader s.shown
    (t.run = .ended → t.shown = ⟨told.2.out ++ lastWords j s.reader,told.2.err⟩ ∧
      (∀ code, told.1 = .status code → t.exits = [code]) ∧ ∀ text, told.1 = .crashed text → t.exits = []) ∧
    (t.run ≠ .ended → serve (pumpOutbound j s.wish.wantPty) t.reader t.shown = told ∧
      lastWords j t.reader = lastWords j s.reader ∧ t.exits = []) := by
  intro told
  have orderly := reachedOrderly reached
  have both : Orderly port t ∧ Follows j s.wish.wantPty told (lastWords j s.reader) t := by
    refine Machine.runKeepsAlong (I := fun u => Orderly port u ∧ Follows j s.wish.wantPty told (lastWords j s.reader) u)
      (P := fun _ a => calm a = true) ?_ ⟨orderly,rfl,?_⟩ (Machine.alongAll stays) later
    · intro u a v held stays h
      exact ⟨stepOrderly h held.1,stepFollows h stays (fun ended => (endedDead held.1 ended).1) held.2⟩
    · rw [pc]
      exact ⟨rfl,rfl,orderly.open' (by simp [pc])⟩
  have follows := both.2.2
  refine ⟨?_,?_⟩
  · intro ended
    rw [ended] at follows
    exact ⟨follows.shown,follows.status,follows.crashed⟩
  · intro running
    split at follows
    · exact follows
    · rename_i ended
      exact absurd ended running
    · contradiction

theorem exitPumps : ∃ s t, Machine.run (step GuestJson.readerJson 1234) start (exitActions.take 8) = some s ∧
    s.run = .pumping .reading ∧ Machine.run (step GuestJson.readerJson 1234) s (exitActions.drop 8) = some t ∧
    t.run = .ended ∧ t.exits = [7] := by
  refine ⟨_,_,rfl,rfl,rfl,?_⟩
  decide +kernel

theorem pumpFaithfulSeven : ∃ s t, Machine.run (step GuestJson.readerJson 1234) start (exitActions.take 8) = some s ∧
    Machine.run (step GuestJson.readerJson 1234) s (exitActions.drop 8) = some t ∧ t.exits = [7] ∧
    t.shown =
      ⟨(serve (pumpOutbound GuestJson.readerJson s.wish.wantPty) s.reader s.shown).2.out ++
          lastWords GuestJson.readerJson s.reader,
        (serve (pumpOutbound GuestJson.readerJson s.wish.wantPty) s.reader s.shown).2.err⟩ := by
  obtain ⟨s,t,reached,pc,later,ended,told⟩ := exitPumps
  have faithful := pumpFaithful GuestJson.readerJson 1234 _ _ s t _ reached pc (by decide) later
  exact ⟨s,t,reached,later,told,(faithful.1 ended).1⟩

section Said
variable {j : Json} {port : Int} {acts : List Action} {s t : Session} {raw : Bytes}

-- Why there is no session in the guest, with the line `_run` writes then.
inductive Cause (port : Int) (acts : List Action) : Bytes → Prop where
  | unreached {e : String} (failed : .connects (.error e) true ∈ acts) :
      Cause port acts (text ("ssh_gateway: cannot reach guest vsock: " ++ e ++ "\r\n"))
  | mistaken {socket rest : Socket} {ok : Bool} {line : Bytes} (connected : .connects (.ok socket) ok ∈ acts)
      (got : readline socket = some (line,rest)) (other : strip line ≠ SessionText.utf8 (GuestCommand.okResponse port)) :
      Cause port acts (text "ssh_gateway: vsock handshake failed\r\n")

theorem causeFilled {line : Bytes} (cause : Cause port acts line) : line ≠ [] := by
  cases cause with
  | unreached =>
    rw [String.append_assoc]
    exact lineFilled "ssh_gateway: cannot reach guest vsock: " _ (by decide)
  | mistaken => exact lineFilled "ssh_gateway: " "vsock handshake failed\r\n" (by decide)

-- Until the answer is read the reader is the one the connection came with.
def Dialled (acts : List Action) (s : Session) : Prop :=
  s.run = .greeting ∨ s.run = .answering → ∃ ok, .connects (.ok s.reader) ok ∈ acts

theorem stepDialled {a : Action} (h : step j port s a = some t) (known : a ∈ acts) (dialled : Dialled acts s) :
    Dialled acts t := by
  unfold Dialled at dialled ⊢
  cases stepMove h with
  | opened | ptyWished | execWished | arrived | paused | resumed | inbound => exact dialled
  | connected => exact fun _ => ⟨_,known⟩
  | greeted pc => exact fun _ => dialled (.inl pc)
  | woke | started | lost | unreached | mistaken | quit | replied | woken => simp
  | requested => simp [loopTop]
  | pumped pc =>
    rename_i ok
    rcases @pumpReadsCases j s ok with ⟨f,rest,_,goes | halts⟩ | ⟨_,halts⟩
    · simp [goes.run]
    · simp [halts.run]
    · simp [halts.run]

structure GivesUp (port : Int) (acts : List Action) (s t : Session) (line : Bytes) : Prop where
  run : t.run = .ended
  read : t.read = s.read
  cause : Cause port acts line
  shown : t.shown = {s.shown with out := s.shown.out ++ line}
  exits : t.exits = s.exits ++ [1]

structure Mute (s t : Session) : Prop where
  read : t.read = s.read
  shown : t.shown = s.shown
  exits : t.exits = s.exits
  pumps : ∀ p, s.run = .pumping p → t.run = .ended ∨ ∃ q, t.run = .pumping q

theorem stepSays {a : Action} (h : step j port s a = some t) (known : a ∈ acts) (dialled : Dialled acts s) :
    (∃ ok, s.run = .pumping .reading ∧ t = pumpReads j s ok) ∨
    ((s.run = .connecting ∨ s.run = .answering) ∧ ∃ line, GivesUp port acts s t line) ∨ Mute s t := by
  have aside : ∀ {run : Run} {u : Session}, s.run = run → (∀ p, run ≠ .pumping p) → u.read = s.read →
      u.shown = s.shown → u.exits = s.exits → Mute s u :=
    fun pc other read shown exits => ⟨read,shown,exits,fun p is => absurd (pc.symm.trans is) (other p)⟩
  cases stepMove h with
  | opened | ptyWished | execWished | arrived | paused | resumed | inbound =>
    exact .inr (.inr ⟨rfl,rfl,rfl,fun p pc => .inr ⟨p,pc⟩⟩)
  | woke | woken => exact .inr (.inr ⟨rfl,rfl,rfl,fun _ _ => .inr ⟨_,rfl⟩⟩)
  | lost => exact .inr (.inr ⟨rfl,rfl,rfl,fun _ _ => .inl rfl⟩)
  | unreached pc => exact .inr (.inl ⟨.inl pc,_,rfl,rfl,.unreached known,rfl,rfl⟩)
  | mistaken pc got other =>
    obtain ⟨ok,connected⟩ := dialled (.inr pc)
    exact .inr (.inl ⟨.inr pc,_,rfl,rfl,.mistaken connected got other,rfl,rfl⟩)
  | quit pc =>
    refine .inr (.inr (aside rfl ?_ rfl rfl rfl))
    intro p is
    rw [is] at pc
    contradiction
  | started pc | connected pc | greeted pc | replied pc | requested pc => exact .inr (.inr (aside pc (by simp) rfl rfl rfl))
  | pumped pc => exact .inl ⟨_,pc,rfl⟩

def statusOf (fields : String → Option Value) : Int := (((fields "code").getD (.int 0)).asInt).getD 0

def Plain (s : Session) : Prop := s.wish.wantPty = false ∨ payloads .err s.read = []

-- The frames whose output was passed on: all that were read, or all but the last.
def Passed (pre read : List Frame) : Prop := read = pre ∨ ∃ f, read = pre ++ [f]

theorem passedPrefix {pre read : List Frame} (passed : Passed pre read) : pre <+: read := by
  rcases passed with rfl | ⟨f,rfl⟩
  · exact List.prefix_rfl
  · exact List.prefix_append _ _

def Shows (s : Session) (pre : List Frame) (note : Bytes) : Prop :=
  Passed pre s.read ∧ s.shown = ⟨payloads .out pre ++ note,payloads .err pre⟩ ∧
    (s.run ≠ .ended → pre = s.read ∧ note = [])

def Last (s : Session) (kind : UInt8) (f : Frame) : Prop := ∃ pre, s.read = pre ++ [f] ∧ f.ftype = kind

-- Where the gateway's words come from: no session in the guest, its connection, or its last frame.
inductive Words (j : Json) (port : Int) (acts : List Action) (s : Session) : Bytes → Prop where
  | silent : Words j port acts s []
  | absent {line : Bytes} (early : s.read = []) (cause : Cause port acts line) : Words j port acts s line
  | cut {e : Fault} (raised : sshReadFrame s.reader = .raised e) : Words j port acts s (complaint (faultText e))
  | unread {f : Frame} {msg : String} (last : Last s frameExit f ∨ Last s frameError f)
      (malformed : parseJson j (orBraces f.payload) = .error msg) : Words j port acts s (complaint msg)
  | refused {f : Frame} {fields : String → Option Value} (last : Last s frameError f)
      (parsed : parseJson j (orBraces f.payload) = .ok fields) : Words j port acts s (refusal (messageText fields))

def Tells (j : Json) (s : Session) (note : Bytes) : Prop :=
  ∀ code, s.exits = [code] → code = 0 ∨
    (∃ f fields, Last s frameExit f ∧ parseJson j (orBraces f.payload) = .ok fields ∧ code = statusOf fields) ∨
    code = 1 ∧ note ≠ [] ∧ (s.read = [] ∨ ∃ f, Last s frameError f)

def Obeys (j : Json) (s : Session) : Prop :=
  ∀ f ∈ s.read, f.ftype = frameExit → s.run = .ended ∧
    ∀ fields, parseJson j (orBraces f.payload) = .ok fields → s.exits = [statusOf fields]

structure Spoken (j : Json) (port : Int) (acts : List Action) (s : Session) : Prop where
  passes : Plain s → ∃ pre note, Shows s pre note ∧ Words j port acts s note ∧ Tells j s note
  obeys : Obeys j s
  early : (∀ p, s.run ≠ .pumping p) → s.run ≠ .ended → s.read = []

theorem payloadsSnoc (side : SessionModel.Side) (fs : List Frame) (f : Frame) :
    payloads side (fs ++ [f]) = payloads side fs ++ payloads side [f] := SessionWire.payloadsAppend side fs [f]

theorem plainBefore {f : Frame} (plain : s.wish.wantPty = false ∨ payloads .err (s.read ++ [f]) = []) :
    Plain s ∧ (s.wish.wantPty = false ∨ payloads .err [f] = []) := by
  rcases plain with exec | none
  · exact ⟨.inl exec,.inl exec⟩
  · simp only [payloadsSnoc,List.append_eq_nil_iff] at none
    exact ⟨.inr none.1,.inr none.2⟩

def passedOn (wantPty : Bool) (shown : Shown) (f : Frame) : Shown :=
  if f.ftype = frameStdout then {shown with out := shown.out ++ f.payload}
  else if f.ftype = frameStderr then
    if wantPty then {shown with out := shown.out ++ f.payload} else {shown with err := shown.err ++ f.payload}
  else shown

structure Closes (j : Json) (s t : Session) (f : Frame) (note : Bytes) : Prop where
  run : t.run = .ended
  read : t.read = s.read
  wish : t.wish = s.wish
  shown : t.shown = ⟨s.shown.out ++ note,s.shown.err⟩
  words : note = [] ∨
    (∃ msg, (f.ftype = frameExit ∨ f.ftype = frameError) ∧ parseJson j (orBraces f.payload) = .error msg ∧
      note = complaint msg) ∨
    ∃ fields, f.ftype = frameError ∧ parseJson j (orBraces f.payload) = .ok fields ∧ note = refusal (messageText fields)
  exits : t.exits = s.exits ∨ t.exits = s.exits ++ [0] ∨
    (∃ fields, f.ftype = frameExit ∧ parseJson j (orBraces f.payload) = .ok fields ∧ t.exits = s.exits ++ [statusOf fields]) ∨
    f.ftype = frameError ∧ note ≠ [] ∧ t.exits = s.exits ++ [1]
  exact' : f.ftype = frameExit → ∀ fields, parseJson j (orBraces f.payload) = .ok fields → t.exits = s.exits ++ [statusOf fields]

variable {f : Frame} {ok : Bool}

theorem quitCloses (other : f.ftype ≠ frameExit) : Closes j s (finish (s.exit 0)) f [] :=
  ⟨rfl,rfl,rfl,by rw [List.append_nil]; rfl,.inl rfl,.inr (.inl rfl),fun exit => absurd exit other⟩

theorem crashCloses (invalid : f.ftype = frameExit → ∀ fields, parseJson j (orBraces f.payload) ≠ .ok fields) :
    Closes j s (finish s) f [] :=
  ⟨rfl,rfl,rfl,by rw [List.append_nil]; rfl,.inl rfl,.inl rfl,fun exit fields same => absurd same (invalid exit fields)⟩

theorem complainCloses {msg : String} (kind : f.ftype = frameExit ∨ f.ftype = frameError)
    (malformed : parseJson j (orBraces f.payload) = .error msg) : ∃ note, Closes j s (complain s ok msg) f note := by
  have invalid : ∀ fields, parseJson j (orBraces f.payload) ≠ .ok fields := by simp [malformed]
  cases ok with
  | true =>
    exact ⟨_,rfl,rfl,rfl,rfl,.inr (.inl ⟨msg,kind,malformed,rfl⟩),.inr (.inl rfl),fun _ fields same => absurd same (invalid fields)⟩
  | false =>
    exact ⟨[],rfl,rfl,rfl,by rw [List.append_nil]; rfl,.inl rfl,.inr (.inl rfl),fun _ fields same => absurd same (invalid fields)⟩

theorem withFieldsCloses {then' : (String → Option Value) → Session} (kind : f.ftype = frameExit ∨ f.ftype = frameError)
    (parsed : ∀ fields, parseJson j (orBraces f.payload) = .ok fields → ∃ note, Closes j s (then' fields) f note) :
    ∃ note, Closes j s (withFields j s ok f.payload then') f note := by
  unfold withFields
  split
  · rename_i fields same
    exact parsed fields same
  · rename_i msg same
    exact complainCloses kind same
  · rename_i text same
    exact ⟨[],crashCloses fun _ fields other => by rw [same] at other; contradiction⟩

theorem deliverSays (f : Frame) (ok : Bool) :
    deliver j s ok f = loopTop {s with shown := passedOn s.wish.wantPty s.shown f} ∧ f.ftype ≠ frameExit ∨
    ∃ note, Closes j s (deliver j s ok f) f note := by
  unfold deliver
  split
  · rename_i out
    cases ok with
    | true => exact .inl ⟨by simp [passedOn,out,Session.write],by rw [out]; decide⟩
    | false => exact .inr ⟨[],quitCloses (by rw [out]; decide)⟩
  · rename_i out
    split
    · rename_i err
      cases ok with
      | true =>
        have apart : frameStderr ≠ frameStdout := by decide
        refine .inl ⟨?_,by rw [err]; decide⟩
        cases s.wish.wantPty <;> simp [passedOn,err,apart,Session.write,Session.writeStderr]
      | false => exact .inr ⟨[],quitCloses (by rw [err]; decide)⟩
    · rename_i err
      split
      · rename_i exit
        refine .inr (withFieldsCloses (.inl exit) ?_)
        intro fields parsed
        refine ⟨[],rfl,rfl,rfl,by rw [List.append_nil]; rfl,.inl rfl,.inr (.inr (.inl ⟨fields,exit,parsed,rfl⟩)),?_⟩
        intro _ other same
        cases parsed.symm.trans same
        rfl
      · rename_i exit
        split
        · rename_i error
          refine .inr (withFieldsCloses (.inr error) ?_)
          intro fields parsed
          split
          · cases ok with
            | true =>
              refine ⟨_,rfl,rfl,rfl,rfl,.inr (.inr ⟨fields,error,parsed,rfl⟩),.inr (.inr (.inr ⟨error,?_,rfl⟩)),
                fun same => absurd same exit⟩
              rw [String.append_assoc]
              exact lineFilled "\r\nssh_gateway: guest agent error: " _ (by decide)
            | false => exact ⟨[],quitCloses exit⟩
          · exact ⟨[],crashCloses fun same => absurd same exit⟩
        · exact .inl ⟨by simp [passedOn,out,err],exit⟩

theorem passedPayloads (plain : s.wish.wantPty = false ∨ payloads .err [f] = []) (fs : List Frame) :
    passedOn s.wish.wantPty ⟨payloads .out fs,payloads .err fs⟩ f = ⟨payloads .out (fs ++ [f]),payloads .err (fs ++ [f])⟩ := by
  have apart : frameStdout ≠ frameStderr ∧ frameStderr ≠ frameStdout := by decide
  rw [payloadsSnoc,payloadsSnoc]
  unfold passedOn
  split
  · rename_i out
    simp [payloads,SessionModel.Side.ftype,out,apart]
  · rename_i out
    split
    · rename_i err
      have quiet : payloads .out [f] = [] := by simp [payloads,SessionModel.Side.ftype,out]
      have own : payloads .err [f] = f.payload := by simp [payloads,SessionModel.Side.ftype,err]
      rw [own] at plain
      rw [quiet,own]
      split
      · rename_i pty
        have none : f.payload = [] := plain.resolve_left (by simp [pty])
        simp [none]
      · simp
    · rename_i err
      simp [payloads,SessionModel.Side.ftype,out,err]

theorem spokenShown (alive : s.run ≠ .ended) (plain : Plain s) (spoken : Spoken j port acts s) :
    s.shown = ⟨payloads .out s.read,payloads .err s.read⟩ := by
  obtain ⟨pre,note,⟨_,shown,running⟩,_⟩ := spoken.passes plain
  obtain ⟨rfl,rfl⟩ := running alive
  rw [shown,List.append_nil]

theorem brokenSpoken {note : Bytes} (alive : s.run ≠ .ended) (spoken : Spoken j port acts s)
    (shown : t.shown = ⟨s.shown.out ++ note,s.shown.err⟩) (words : Words j port acts t note) (run : t.run = .ended)
    (read : t.read = s.read) (wish : t.wish = s.wish) (exits : t.exits = [0]) : Spoken j port acts t := by
  refine ⟨?_,?_,fun _ running => absurd run running⟩
  · intro plain
    unfold Plain at plain
    rw [wish,read] at plain
    refine ⟨s.read,note,⟨.inl read,?_,fun running => absurd run running⟩,words,?_⟩
    · rw [shown,spokenShown alive plain spoken]
    · intro code same
      rw [exits] at same
      exact .inl (List.singleton_inj.mp same).symm
  · intro f known exit
    rw [read] at known
    exact absurd (spoken.obeys f known exit).1 alive

theorem closesSpoken {rest : Socket} {note : Bytes} (alive : s.run ≠ .ended) (none : s.exits = []) (spoken : Spoken j port acts s)
    (closes : Closes j {s with reader := rest, read := s.read ++ [f]} t f note) : Spoken j port acts t := by
  refine ⟨?_,?_,fun _ running => absurd closes.run running⟩
  · intro plain
    unfold Plain at plain
    rw [closes.wish,closes.read] at plain
    have last : ∀ {kind}, f.ftype = kind → Last t kind f := fun is => ⟨s.read,closes.read,is⟩
    refine ⟨s.read,note,⟨.inr ⟨f,closes.read⟩,?_,fun running => absurd closes.run running⟩,?_,?_⟩
    · rw [closes.shown,spokenShown alive (plainBefore plain).1 spoken]
    · rcases closes.words with rfl | ⟨msg,kind,malformed,rfl⟩ | ⟨fields,error,parsed,rfl⟩
      · exact .silent
      · exact .unread (kind.imp last last) malformed
      · exact .refused (last error) parsed
    · intro code same
      rcases closes.exits with is | is | ⟨fields,exit,parsed,is⟩ | ⟨error,filled,is⟩
      · rw [is,none] at same
        contradiction
      · rw [is,none] at same
        exact .inl (List.singleton_inj.mp same).symm
      · rw [is,none] at same
        exact .inr (.inl ⟨f,fields,last exit,parsed,(List.singleton_inj.mp same).symm⟩)
      · rw [is,none] at same
        exact .inr (.inr ⟨(List.singleton_inj.mp same).symm,filled,.inr ⟨f,last error⟩⟩)
  · intro g known exit
    rw [closes.read] at known
    rcases List.mem_append.mp known with old | new
    · exact absurd (spoken.obeys g old exit).1 alive
    · cases List.mem_singleton.mp new
      refine ⟨closes.run,?_⟩
      intro fields parsed
      rw [closes.exact' exit fields parsed,none]
      rfl

theorem goesSpoken {rest : Socket} (alive : s.run ≠ .ended) (none : s.exits = []) (spoken : Spoken j port acts s)
    (other : f.ftype ≠ frameExit) :
    Spoken j port acts (loopTop {s with reader := rest, read := s.read ++ [f], shown := passedOn s.wish.wantPty s.shown f}) := by
  refine ⟨?_,?_,fun early => absurd rfl (early _)⟩
  · intro plain
    obtain ⟨before,quiet⟩ := @plainBefore s f plain
    refine ⟨s.read ++ [f],[],⟨.inl rfl,?_,fun _ => ⟨rfl,rfl⟩⟩,.silent,?_⟩
    · rw [List.append_nil,← passedPayloads quiet,← spokenShown alive before spoken]
      rfl
    · intro code same
      have empty : s.exits = [code] := same
      rw [none] at empty
      contradiction
  · intro g known exit
    rcases List.mem_append.mp known with old | new
    · exact absurd (spoken.obeys g old exit).1 alive
    · cases List.mem_singleton.mp new
      exact absurd exit other

theorem readsSpoken (pc : s.run = .pumping .reading) (none : s.exits = []) (spoken : Spoken j port acts s) :
    Spoken j port acts (pumpReads j s ok) := by
  have alive : s.run ≠ .ended := by simp [pc]
  have told : ∀ code : Int, s.exits ++ [code] = [code] := by simp [none]
  cases found : sshReadFrame s.reader with
  | none =>
    simp only [pumpReads,found]
    exact @brokenSpoken j port acts s _ [] alive spoken (by rw [List.append_nil]; rfl) .silent rfl rfl rfl (told 0)
  | raised e =>
    simp only [pumpReads,found]
    cases ok with
    | true => exact brokenSpoken alive spoken rfl (.cut found) rfl rfl rfl (told 0)
    | false => exact @brokenSpoken j port acts s _ [] alive spoken (by rw [List.append_nil]; rfl) .silent rfl rfl rfl (told 0)
  | frame f rest =>
    simp only [pumpReads,found]
    rcases @deliverSays j {s with reader := rest, read := s.read ++ [f]} f ok with ⟨same,other⟩ | ⟨note,closes⟩
    · rw [same]
      exact goesSpoken alive none spoken other
    · exact closesSpoken alive none spoken closes

theorem givesUpSpoken (alive : s.run ≠ .ended) (early : s.read = []) (none : s.exits = []) (spoken : Spoken j port acts s)
    {line : Bytes} (gives : GivesUp port acts s t line) : Spoken j port acts t := by
  obtain ⟨run,read,cause,shown,exits⟩ := gives
  have blank := spokenShown alive (.inr (by rw [early]; rfl)) spoken
  rw [early] at read blank
  refine ⟨?_,by simp [Obeys,read],fun _ running => absurd run running⟩
  intro _
  refine ⟨[],line,⟨.inl read,?_,fun running => absurd run running⟩,.absent read cause,?_⟩
  · rw [shown,blank]
  · intro code same
    rw [exits,none] at same
    exact .inr (.inr ⟨(List.singleton_inj.mp same).symm,causeFilled cause,.inl read⟩)

theorem muteSpoken (mute : Mute s t) (wish : t.wish.wantPty = false → s.wish.wantPty = false)
    (ended : s.run = .ended → t.run = .ended ∧ t.reader = s.reader) (spoken : Spoken j port acts s) : Spoken j port acts t := by
  refine ⟨?_,?_,?_⟩
  · intro plain
    have before : Plain s := plain.imp wish (fun none => mute.read ▸ none)
    obtain ⟨pre,note,⟨part,shown,running⟩,words,tells⟩ := spoken.passes before
    refine ⟨pre,note,⟨mute.read ▸ part,mute.shown.trans shown,?_⟩,?_,?_⟩
    · intro alive
      rw [mute.read]
      exact running (fun gone => alive (ended gone).1)
    · by_cases gone : s.run = .ended
      · have last : ∀ {kind f}, Last s kind f → Last t kind f := by
          intro kind f ends
          rw [Last,mute.read]
          exact ends
        cases words with
        | silent => exact .silent
        | absent early cause => exact .absent (mute.read.trans early) cause
        | cut raised => exact .cut ((ended gone).2 ▸ raised)
        | unread kind malformed => exact .unread (kind.imp last last) malformed
        | refused error parsed => exact .refused (last error) parsed
      · rw [(running gone).2]
        exact .silent
    · unfold Tells Last at tells ⊢
      rw [mute.exits,mute.read]
      exact tells
  · intro f known exit
    rw [mute.read] at known
    obtain ⟨gone,exact'⟩ := spoken.obeys f known exit
    exact ⟨(ended gone).1,fun fields parsed => mute.exits.trans (exact' fields parsed)⟩
  · intro early alive
    rw [mute.read]
    refine spoken.early ?_ (fun gone => alive (ended gone).1)
    intro p pc
    rcases mute.pumps p pc with gone | ⟨q,pumping⟩
    · exact alive gone
    · exact early q pumping

theorem stepSpoken {a : Action} (h : step j port s a = some t) (known : a ∈ acts) (orderly : Orderly port s)
    (dialled : Dialled acts s) (spoken : Spoken j port acts s) : Spoken j port acts t := by
  rcases stepSays h known dialled with ⟨ok,pc,rfl⟩ | ⟨pc,line,gives⟩ | mute
  · exact readsSpoken pc (orderly.open' (by simp [pc])) spoken
  · have alive : s.run ≠ .ended := by rcases pc with pc | pc <;> simp [pc]
    have early : s.read = [] := spoken.early (by rcases pc with pc | pc <;> simp [pc]) alive
    exact givesUpSpoken alive early (orderly.open' alive) spoken gives
  · refine muteSpoken mute ?_ ?_ spoken
    · intro exec
      rw [(stepAsks h).1] at exec
      cases a <;> first | contradiction | exact exec
    · intro ended
      have settled := endedSettles h ended (endedDead orderly ended).1
      exact ⟨settled.run,settled.reader⟩

theorem reachedSpoken (reached : Machine.run (step j port) start acts = some s) : Spoken j port acts s := by
  have all : Orderly port s ∧ Dialled acts s ∧ Spoken j port acts s := by
    refine Machine.runKeepsAlong (I := fun u => Orderly port u ∧ Dialled acts u ∧ Spoken j port acts u)
      (P := fun _ a => a ∈ acts) ?_ ?_ (Machine.alongAll fun _ known => known) reached
    · intro u a v ⟨orderly,dialled,spoken⟩ known h
      exact ⟨stepOrderly h orderly,stepDialled h known dialled,stepSpoken h known orderly dialled spoken⟩
    · refine ⟨@reachedOrderly j port start [] rfl,by simp [Dialled,start],?_,by simp [Obeys,start],fun _ _ => rfl⟩
      intro _
      exact ⟨[],[],⟨.inl rfl,rfl,fun _ => ⟨rfl,rfl⟩⟩,.silent,by simp [Tells,start]⟩
  exact all.2.2

end Said

end Guesthopper.SshPump
