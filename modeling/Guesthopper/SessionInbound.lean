import Guesthopper.PtyDuplex
import Guesthopper.SessionMove
import Mathlib.Data.List.TakeWhile

/-! What a session gives its child, against the bytes its peer sent. The reading of a frame
is one future that every turn of the select polls again, so the bytes it already took stay
in `held` whatever else happens; a frame is dispatched in the poll that completes it.
`taken` and `frames` record what was read after the REQUEST and what was dispatched. The
pipe of an exec is also closed when its loop is dropped, and then by no frame. -/
namespace Guesthopper.SessionInbound
open FrameBytes SessionText SessionModel SessionMove
open PtyDuplex (missing)

structure Reader where
  session : Session
  held : Bytes
  taken : Bytes
  frames : List Frame
  deriving DecidableEq

def accepted : Reader := ⟨SessionModel.start,[],[],[]⟩

-- exec's select is biased: its input is polled only while `cancel` has not fired.
def listens (s : Session) : Bool :=
  match s.handler with
  | .execSelect (some .reading) _ _ => !s.cancel
  | .ptySelect .reading => true
  | _ => false

def readFrame (env : Env) (cap : Nat) (chunk : Bytes) (r : Reader) : Option Reader :=
  if listens r.session ∧ 0 < chunk.length ∧ chunk.length ≤ missing r.held then
    let held := r.held ++ chunk
    let taken := r.taken ++ chunk
    match head cap held with
    | .frame f _ => (inbound env (.frame f) r.session).map fun s => ⟨s,[],taken,r.frames ++ [f]⟩
    | .oversize len =>
      (inbound env (.oversize len cap) r.session).map fun s => ⟨s,held,taken,r.frames⟩
    | _ => some ⟨r.session,held,taken,r.frames⟩
  else none

inductive Turn where
  | reads (chunk : Bytes)
  | other (a : Action)
  deriving DecidableEq

def dispatches : Action → Bool
  | .inbound (.frame _) => true
  | _ => false

def step (env : Env) (cap : Nat) (r : Reader) : Turn → Option Reader
  | .reads chunk => readFrame env cap chunk r
  | .other a => if dispatches a then none else (SessionModel.step env r.session a).map fun s => {r with session := s}

inductive Atom where
  | byte (b : UInt8)
  | winsize (rows cols : UInt16)
  | close
  deriving DecidableEq, Repr

def pieces : Feed → List Atom
  | .bytes raw => raw.map .byte
  | .winsize rows cols => [.winsize rows cols]
  | .close => [.close]

def atoms (feed : List Feed) : List Atom := feed.flatMap pieces

def isStdin (f : Frame) : Bool := f.ftype = frameStdin
def isEof (f : Frame) : Bool := f.ftype = frameStdinEof

def ended (fs : List Frame) : Bool := fs.any isEof
def upToEof (fs : List Frame) : List Frame := fs.takeWhile fun f => !isEof f
def stdinBytes (fs : List Frame) : Bytes := (fs.filter isStdin).flatMap Frame.payload

def execOrders (fs : List Frame) : List Atom :=
  (stdinBytes (upToEof fs)).map .byte ++ if ended fs then [.close] else []

def ptyOrder (env : Env) (f : Frame) : List Atom :=
  if f.ftype = frameStdin then f.payload.map .byte
  else if f.ftype = frameResize then
    match env.parseResize f.payload with
    | some (rows,cols) => [.winsize rows cols]
    | none => []
  else []

def ptyOrders (env : Env) (fs : List Frame) : List Atom := fs.flatMap (ptyOrder env)

def initialSize (req : Request) : Atom := .winsize (req.rows.getD 24) (req.cols.getD 80)

def orders (env : Env) (first : Option ReadResult) (fs : List Frame) : List Atom :=
  match first with
  | some (.frame f) => match drive env f with
    | .exec _ _ => execOrders fs
    | .openPty req => initialSize req :: ptyOrders env fs
    | .refuse _ => []
  | _ => []

def meant (f : Frame) : Bool := isStdin f || isEof f || f.ftype = frameResize

def rest : Input → List Atom
  | .reading => []
  | .writing raw => raw.map .byte

def owed : Handler → Option (List Atom)
  | .execSelect (some i) _ _ | .ptySelect i => some (rest i)
  | _ => none

section Orders
variable {env : Env} {fs gs : List Frame} {f : Frame}

theorem atomsAppend (xs ys : List Feed) : atoms (xs ++ ys) = atoms xs ++ atoms ys := List.flatMap_append

theorem openAll (still : ended fs = false) : ∀ f ∈ fs, (!isEof f) = true := by
  simpa [ended] using still

theorem execOrdersEnded (past : ended fs = true) (f : Frame) : execOrders (fs ++ [f]) = execOrders fs := by
  have stops : upToEof (fs ++ [f]) = upToEof fs := by
    induction fs with
    | nil => contradiction
    | cons g fs ih =>
      simp only [upToEof,List.cons_append,List.takeWhile_cons] at ih ⊢
      split
      · rename_i still
        have other : isEof g = false := by simpa using still
        rw [ih (by simpa [ended,other] using past)]
      · rfl
  have still : ended (fs ++ [f]) = true := by simp only [ended,List.any_append] at past ⊢; simp [past]
  simp only [execOrders,stops,past,still]

theorem execOrdersOpen (still : ended fs = false) (f : Frame) : execOrders (fs ++ [f]) = execOrders fs ++ execOrders [f] := by
  have whole : upToEof fs = fs := List.takeWhile_eq_self_iff.mpr (openAll still)
  have first : upToEof (fs ++ [f]) = fs ++ upToEof [f] := List.takeWhile_append_of_pos (openAll still)
  have later : ended (fs ++ [f]) = ended [f] := by simp only [ended,List.any_append] at still ⊢; simp [still]
  simp only [execOrders,whole,first,later,still]
  simp [stdinBytes]

theorem execOrdersStdin (stdin : f.ftype = frameStdin) : execOrders [f] = f.payload.map .byte := by
  simp [execOrders,upToEof,stdinBytes,ended,isStdin,isEof,stdin,frameStdin,frameStdinEof]

theorem execOrdersEof (eof : f.ftype = frameStdinEof) : execOrders [f] = [.close] := by
  simp [execOrders,upToEof,stdinBytes,ended,isEof,eof]

theorem execOrdersOther (stdin : f.ftype ≠ frameStdin) (eof : f.ftype ≠ frameStdinEof) : execOrders [f] = [] := by
  simp [execOrders,upToEof,stdinBytes,ended,isStdin,isEof,stdin,eof]

theorem execOrdersClose : .close ∈ execOrders fs ↔ ended fs = true := by
  unfold execOrders
  split <;> simp [*]

theorem closeLast {xs : List Atom} (early : xs <+: execOrders fs) (closed : .close ∈ xs) : xs = execOrders fs := by
  have past := execOrdersClose.mp (early.subset closed)
  simp only [execOrders,past,if_true] at early ⊢
  refine (List.prefix_concat_iff.mp early).resolve_right ?_
  intro short
  simpa using short.subset closed

theorem ptyOrdersOpen : Atom.close ∉ ptyOrders env fs := by
  simp only [ptyOrders,List.mem_flatMap,not_exists,not_and]
  intro f _
  unfold ptyOrder
  split
  · simp
  · split
    · split <;> simp
    · simp

theorem meantExec : execOrders (fs.filter meant) = execOrders fs := by
  have last : ended (fs.filter meant) = ended fs := by
    unfold ended
    rw [List.any_filter]
    refine List.any_congr rfl ?_
    intro f
    cases eof : isEof f <;> simp [meant,eof]
  have first : upToEof (fs.filter meant) = (upToEof fs).filter meant := by
    unfold upToEof
    rw [List.takeWhile_filter]
    congr 2
    funext f
    cases eof : isEof f <;> simp [meant,eof]
  have bytes : stdinBytes ((upToEof fs).filter meant) = stdinBytes (upToEof fs) := by
    unfold stdinBytes
    rw [List.filter_filter]
    congr 2
    funext f
    cases stdin : isStdin f <;> simp [meant,stdin]
  simp only [execOrders,last,first,bytes]

theorem meantPty : ptyOrders env (fs.filter meant) = ptyOrders env fs := by
  induction fs with
  | nil => rfl
  | cons f fs ih =>
    cases kind : meant f with
    | true =>
      simp only [List.filter_cons_of_pos kind,ptyOrders,List.flatMap_cons] at ih ⊢
      rw [ih]
    | false =>
      rw [List.filter_cons_of_neg (by simp [kind]),ih]
      simp only [meant,isStdin,Bool.or_eq_false_iff,decide_eq_false_iff_not] at kind
      simp only [ptyOrders,List.flatMap_cons,ptyOrder,if_neg kind.1.1,if_neg kind.2,List.nil_append]

theorem meantOrders (first : Option ReadResult) : orders env first (fs.filter meant) = orders env first fs := by
  unfold orders
  split <;> try rfl
  split
  · exact meantExec
  · rw [meantPty]
  · rfl

theorem closePieces (feed : List Feed) : .close ∈ atoms feed ↔ .close ∈ feed := by
  simp only [atoms,List.mem_flatMap]
  constructor
  · intro ⟨x,inside,found⟩
    cases x with
    | bytes raw => simp [pieces] at found
    | winsize rows cols => simp [pieces] at found
    | close => exact inside
  · intro inside
    exact ⟨.close,inside,by simp [pieces]⟩

theorem restOpen (i : Input) : Atom.close ∉ rest i := by cases i <;> simp [rest]

end Orders

section Sessions
variable {env : Env} {s t : Session} {fs : List Frame} {f : Frame}

def leftLoop : Handler → Bool
  | .readRequest | .openpty _ | .execSelect (some _) _ _ | .ptySelect _ => false
  | _ => true

theorem leftOwed {h : Handler} (gone : leftLoop h = true) : owed h = none := by
  cases h with
  | execSelect input stdin deadline => cases input with
    | none => rfl
    | some i => contradiction
  | ptySelect i => contradiction
  | _ => rfl

-- What is left of exec's pipe is dropped with the loop.
def Drops (s t : Session) : Prop :=
  t.feed = s.feed ∨ ofExec s.handler = true ∧ .close ∉ s.feed ∧ t.feed = s.feed ++ [.close]

/- All but four kinds of action leave the input as it stands or end it. -/
def Passes (s t : Session) : Prop :=
  t.first = s.first ∧ ((t.handler = s.handler ∧ t.feed = s.feed) ∨
    (leftLoop t.handler = true ∧ Drops s t ∧ (ofExec t.handler = true → ofExec s.handler = true)))

def steers : Action → Bool
  | .firstRead _ | .openptyReturns | .inbound (.frame _) | .accepts _ => true
  | _ => false

theorem leaves (first : t.first = s.first) (gone : leftLoop t.handler = true) (drops : Drops s t)
    (exec : ofExec t.handler = true → ofExec s.handler = true) : Passes s t := ⟨first,.inr ⟨gone,drops,exec⟩⟩

theorem stays (first : t.first = s.first) (handler : t.handler = s.handler) (feed : t.feed = s.feed) : Passes s t :=
  ⟨first,.inl ⟨handler,feed⟩⟩

theorem hangupPasses (s : Session) (fired : Bool) : Passes s (hangup {s with cancel := fired}) :=
  leaves (by simp) rfl (.inl (by simp)) (by simp [ofExec])

theorem breakPasses {i stdin deadline} (fired : Bool) (pc : s.handler = .execSelect (some i) stdin deadline) :
    Passes s ({s with cancel := fired}.go (.execSelect none stdin deadline)).dropStdin := by
  have exec : ofExec s.handler = true := by rw [pc]; rfl
  refine leaves rfl rfl ?_ (fun _ => exec)
  exact (dropStdinFeed ({s with cancel := fired}.go (.execSelect none stdin deadline))).imp_right fun dropped => ⟨exec,dropped⟩

theorem inboundPasses {r} (h : inbound env r s = some t) (other : ∀ f, r ≠ .frame f) : Passes s t := by
  obtain ⟨stdin,deadline,pc,_,⟨f,same,_⟩ | ⟨_,rfl⟩⟩ | ⟨_,⟨f,same,_⟩ | ⟨_,fired,_,rfl⟩⟩ := inboundCases h
  · exact absurd same (other f)
  · exact breakPasses true pc
  · exact absurd same (other f)
  · exact hangupPasses s fired

theorem afterWaitLeft {raw h next} (ok : afterWait raw h = some next) : leftLoop next = true ∧ ofExec next = false := by
  cases h <;> cases ok <;> exact ⟨rfl,rfl⟩

theorem afterDrainLeft {h side} (pc : drainSide h = some side) :
    leftLoop (afterDrain h) = true ∧ ofExec (afterDrain h) = false := by
  cases h with
  | execDrain side raw why => cases side <;> exact ⟨rfl,rfl⟩
  | ptyDrain raw why => exact ⟨rfl,rfl⟩
  | _ => contradiction

theorem endPasses {child reap next} (gone : leftLoop next = true ∧ ofExec next = false) :
    Passes s {endSelect s with handler := next, child := child, reap := reap} :=
  leaves rfl gone.1 (endSelectFeed s) (by simp [gone.2])

theorem onStreamPasses {g side} (h : onStream g side s = some t) : Passes s t := by
  obtain ⟨u,_,rfl⟩ := onStreamSource h
  cases side <;> exact stays rfl rfl rfl

theorem onBoxPasses {g} (h : onBox g s = some t) : Passes s t := by
  obtain ⟨_,box,_,rfl⟩ := onBoxSource h
  exact stays rfl rfl rfl

theorem stepPasses {a} (h : SessionModel.step env s a = some t) (plain : steers a = false) : Passes s t := by
  cases a with
  | firstRead r => contradiction
  | openptyReturns => contradiction
  | accepts n => contradiction
  | inbound r =>
    refine inboundPasses h ?_
    intro f same
    rw [same] at plain
    contradiction
  | refuses =>
    obtain ⟨raw,stdin,deadline,pc,_,rfl⟩ | ⟨raw,_,rfl⟩ := refusesCases h
    · exact breakPasses s.cancel pc
    · exact hangupPasses s s.cancel
  | stalls =>
    obtain ⟨raw,stdin,deadline,pc,_,rfl⟩ | ⟨raw,_,rfl⟩ := stallsCases h
    · exact breakPasses true pc
    · exact hangupPasses s true
  | cancelArm =>
    obtain ⟨i,stdin,deadline,pc,rfl⟩ | ⟨i,_,rfl⟩ := cancelArmCases h
    · exact leaves (by simp) rfl (.inl (by simp)) (fun _ => by rw [pc]; rfl)
    · exact hangupPasses s s.cancel
  | deadlineArm =>
    obtain ⟨i,stdin,deadline,pc,rfl⟩ := deadlineArmCases h
    exact leaves (by simp) rfl (.inl (by simp)) (fun _ => by rw [pc]; rfl)
  | waitReady failed =>
    obtain ⟨raw,child,handler,_,_,next,rfl⟩ := waitReadyCases h
    exact endPasses (afterWaitLeft next)
  | reapLapse =>
    obtain ⟨_,handler,next,rfl⟩ := reapLapseCases h
    exact endPasses (afterWaitLeft next)
  | hangupLapse =>
    obtain ⟨_,rfl⟩ := hangupLapseCases h
    exact leaves (by simp) rfl (.inl (by simp)) (by simp [ofExec])
  | drainJoined =>
    obtain ⟨side,pc,_,rfl⟩ := drainJoinedCases h
    exact leaves rfl (afterDrainLeft pc).1 (.inl rfl) (by simp [afterDrainLeft pc])
  | drainLapse =>
    obtain ⟨side,pc,_,rfl⟩ := drainLapseCases h
    cases side <;> exact leaves rfl (afterDrainLeft pc).1 (.inl rfl) (by simp [afterDrainLeft pc])
  | handSends =>
    obtain ⟨f,box,_,_,rfl⟩ := handSendsCases h
    exact leaves rfl rfl (.inl rfl) (by simp [ofExec])
  | writerJoined =>
    obtain ⟨_,_,rfl⟩ := writerJoinedCases h
    exact leaves rfl rfl (.inl rfl) (by simp [ofExec])
  | pumpSends side =>
    obtain ⟨chunk,box,_,_,rfl⟩ := pumpSendsCases h
    cases side <;> exact stays rfl rfl rfl
  | pumpReads side n => exact onStreamPasses h
  | pumpEof side => exact onStreamPasses h
  | pumpFails side => exact onStreamPasses h
  | supplies side raw => exact onStreamPasses h
  | detaches side => exact onStreamPasses h
  | writerTakes => exact onBoxPasses h
  | writerPuts n =>
    simp only [SessionModel.step] at h
    split at h <;> try contradiction
    exact onBoxPasses h
  | writerFlushed =>
    simp only [SessionModel.step] at h
    split at h <;> try contradiction
    exact onBoxPasses h
  | writerFails | writerStalls =>
    obtain ⟨_,_,rfl⟩ := writerGivesUpCases h
    exact stays rfl rfl rfl
  | writerCancelled =>
    obtain ⟨_,rfl⟩ := writerCancelledCases h
    exact stays rfl rfl rfl
  | writerCloses =>
    obtain ⟨_,_,_,_,rfl⟩ := writerClosesCases h
    exact stays rfl rfl rfl
  | exits status =>
    obtain ⟨_,rfl⟩ := exitsCases h
    exact stays rfl rfl rfl

def OpensExec (env : Env) (first : Option ReadResult) : Prop :=
  ∃ f pid deadline, first = some (.frame f) ∧ drive env f = .exec pid deadline

/- Nothing more is given: a prefix of what was ordered, closed by a STDIN_EOF that was
dispatched or, where none was, with the dropped pipe. -/
def Spent (env : Env) (s : Session) (fs : List Frame) : Prop :=
  (atoms s.feed <+: orders env s.first fs ∨ ∃ got, got <+: orders env s.first fs ∧ atoms s.feed = got ++ [.close] ∧
    .close ∉ orders env s.first fs ∧ OpensExec env s.first) ∧
  (.close ∈ orders env s.first fs → .close ∈ atoms s.feed)

def Fed (env : Env) (s : Session) (fs : List Frame) : Prop :=
  match owed s.handler with
  | some due => atoms s.feed ++ due = orders env s.first fs
  | none => Spent env s fs

def Linked (env : Env) (s : Session) (fs : List Frame) : Prop :=
  match s.handler with
  | .readRequest => s.first = none ∧ s.feed = [] ∧ fs = []
  | .openpty req => (∃ f, s.first = some (.frame f) ∧ drive env f = .openPty req) ∧ s.feed = [] ∧ fs = []
  | .execSelect input stdin _ => OpensExec env s.first ∧ (input.isSome = true → stdin = !ended fs)
  | .execReap _ => OpensExec env s.first
  | .ptySelect _ => ∃ f req, s.first = some (.frame f) ∧ drive env f = .openPty req
  | _ => True

def Kept (env : Env) (s : Session) (fs : List Frame) : Prop := Fed env s fs ∧ Linked env s fs

theorem owedOpen {h : Handler} {due : List Atom} (owes : owed h = some due) : Atom.close ∉ due := by
  unfold owed at owes
  split at owes <;> try contradiction
  all_goals
    cases owes
    exact restOpen _

theorem fedSome {due : List Atom} (owes : owed s.handler = some due) :
    Fed env s fs ↔ atoms s.feed ++ due = orders env s.first fs := by
  unfold Fed
  rw [owes]

theorem fedNone (gone : owed s.handler = none) : Fed env s fs ↔ Spent env s fs := by
  unfold Fed
  rw [gone]

theorem fedSettles (fed : Fed env s fs) : Spent env s fs := by
  cases owes : owed s.handler with
  | none => exact (fedNone owes).mp fed
  | some due =>
    have whole := (fedSome owes).mp fed
    refine ⟨.inl ⟨due,whole⟩,?_⟩
    intro closed
    rw [← whole] at closed
    exact (List.mem_append.mp closed).resolve_right (owedOpen owes)

theorem linkedExec (exec : ofExec s.handler = true) (linked : Linked env s fs) : OpensExec env s.first := by
  unfold Linked at linked
  unfold ofExec at exec
  split at exec <;> try contradiction
  · rename_i input stdin deadline pc
    rw [pc] at linked
    exact linked.1
  · rename_i why pc
    rw [pc] at linked
    exact linked

theorem linkedLeft (gone : leftLoop s.handler = true) (exec : ofExec s.handler = true → OpensExec env s.first) :
    Linked env s fs := by
  unfold Linked
  split
  · rename_i pc
    rw [pc] at gone
    contradiction
  · rename_i pc
    rw [pc] at gone
    contradiction
  · rename_i input stdin deadline pc
    refine ⟨exec (by rw [pc]; rfl),?_⟩
    cases input with
    | none => exact nofun
    | some i =>
      rw [pc] at gone
      contradiction
  · rename_i pc
    exact exec (by rw [pc]; rfl)
  · rename_i pc
    rw [pc] at gone
    contradiction
  · trivial

theorem spentDrops (spent : Spent env s fs) (first : t.first = s.first)
    (exec : ofExec s.handler = true → OpensExec env s.first) (drops : Drops s t) : Spent env t fs := by
  obtain same | ⟨within,open',closed⟩ := drops
  · unfold Spent at spent ⊢
    rw [same,first]
    exact spent
  · have unclosed : .close ∉ atoms s.feed := fun inside => open' ((closePieces _).mp inside)
    have unordered : .close ∉ orders env s.first fs := fun ordered => unclosed (spent.2 ordered)
    have early : atoms s.feed <+: orders env s.first fs := by
      refine spent.1.resolve_right ?_
      intro ⟨got,_,shape,_⟩
      exact unclosed (by rw [shape]; simp)
    unfold Spent
    rw [closed,first,atomsAppend]
    exact ⟨.inr ⟨_,early,rfl,unordered,exec within⟩,fun ordered => absurd ordered unordered⟩

theorem passesKept (h : Passes s t) (kept : Kept env s fs) : Kept env t fs := by
  obtain ⟨first,⟨handler,feed⟩ | ⟨gone,drops,still⟩⟩ := h
  · unfold Kept Fed Spent Linked at kept ⊢
    rw [feed,first,handler]
    exact kept
  · have exec : ofExec s.handler = true → OpensExec env s.first := fun within => linkedExec within kept.2
    refine ⟨(fedNone (leftOwed gone)).mpr (spentDrops (fedSettles kept.1) first exec drops),linkedLeft gone ?_⟩
    intro within
    rw [first]
    exact exec (still within)

theorem ordersStart (first : Option ReadResult) : Atom.close ∉ orders env first [] := by
  unfold orders
  split <;> try simp
  split <;> simp [execOrders,stdinBytes,upToEof,ended,ptyOrders,initialSize]

theorem blankSpent (feed : s.feed = []) : Spent env s [] := by
  refine ⟨.inl ?_,fun closed => absurd closed (ordersStart _)⟩
  rw [feed]
  exact List.nil_prefix

theorem blankKept (feed : s.feed = []) (gone : leftLoop s.handler = true) (other : ofExec s.handler = false) :
    Kept env s [] :=
  ⟨(fedNone (leftOwed gone)).mpr (blankSpent feed),linkedLeft gone (by simp [other])⟩

theorem firstReadKept {r} (h : firstRead env r s = some t) (kept : Kept env s fs) : Kept env t fs := by
  unfold firstRead at h
  split at h <;> try contradiction
  rename_i pc
  have fresh := kept.2
  unfold Linked at fresh
  rw [pc] at fresh
  obtain ⟨_,feed,rfl⟩ := fresh
  cases r with
  | elapsed => cases h; exact blankKept feed rfl rfl
  | eof => cases h; exact blankKept feed rfl rfl
  | error e => cases h; exact blankKept feed rfl rfl
  | oversize len cap => cases h; exact blankKept feed rfl rfl
  | frame f =>
    simp only at h
    split at h
    · cases h
      exact blankKept feed rfl rfl
    · rename_i pid deadline opens
      cases h
      refine ⟨(fedSome rfl).mpr ?_,⟨f,pid,deadline,rfl,opens⟩,fun _ => rfl⟩
      simp only [feed,orders,opens]
      rfl
    · rename_i req opens
      cases h
      exact ⟨(fedNone rfl).mpr (blankSpent feed),⟨f,rfl,opens⟩,feed,rfl⟩

theorem servesPair {pid} (h : openTerminal env = .serve pid) : env.openpty = .pair := by
  unfold openTerminal at h
  split at h <;> first | contradiction | assumption

theorem openptyKept (h : openptyReturns env s = some t) (kept : Kept env s fs) : Kept env t fs := by
  unfold openptyReturns at h
  split at h <;> try contradiction
  rename_i req pc
  have fresh := kept.2
  unfold Linked at fresh
  rw [pc] at fresh
  obtain ⟨⟨f,first,opens⟩,feed,rfl⟩ := fresh
  have ordered : orders env s.first [] = [initialSize req] := by simp [orders,first,opens,ptyOrders]
  have sized : ∀ {u : Session}, leftLoop u.handler = true → ofExec u.handler = false → u.first = s.first →
      atoms u.feed <+: [initialSize req] → Kept env u [] := by
    intro u gone other same early
    refine ⟨(fedNone (leftOwed gone)).mpr ?_,linkedLeft gone (by simp [other])⟩
    unfold Spent
    rw [same,ordered]
    exact ⟨.inl early,fun closed => by simp [initialSize] at closed⟩
  have early : atoms (if env.openpty = .pair then {s with
      feed := s.feed ++ [.winsize (req.rows.getD 24) (req.cols.getD 80)]} else s).feed <+: [initialSize req] := by
    split
    · rw [feed]
      exact List.prefix_rfl
    · rw [feed]
      exact List.nil_prefix
  have unread : (if env.openpty = .pair then {s with
      feed := s.feed ++ [.winsize (req.rows.getD 24) (req.cols.getD 80)]} else s).first = s.first := by
    split <;> rfl
  cases outcome : openTerminal env with
  | refuse msg =>
    rw [outcome] at h
    cases h
    exact sized rfl rfl unread early
  | abandon msg pid =>
    rw [outcome] at h
    cases h
    exact sized rfl rfl (by simpa using unread) (by simpa using early)
  | serve pid =>
    rw [outcome] at h
    cases h
    simp only [if_pos (servesPair outcome)]
    refine ⟨(fedSome rfl).mpr ?_,⟨f,req,first,opens⟩⟩
    rw [ordered,feed]
    rfl

theorem execOrdersGrow (fs : List Frame) (f : Frame) :
    execOrders (fs ++ [f]) = execOrders fs ++ if !ended fs then execOrders [f] else [] := by
  cases past : ended fs with
  | true => simpa using execOrdersEnded past f
  | false => simpa using execOrdersOpen past f

theorem restAfter (n : Nat) (raw : Bytes) :
    rest (.writing raw) = atoms [.bytes (raw.take n)] ++ rest (Input.after n raw) := by
  have split : raw = raw.take n ++ raw.drop n := (List.take_append_drop n raw).symm
  simp only [atoms,List.flatMap_singleton,pieces,Input.after]
  split
  · rename_i all
    simp [rest,List.take_of_length_le all]
  · simp only [rest]
    rw [← List.map_append,← split]

theorem acceptsKept {n} (h : accepts n s = some t) (kept : Kept env s fs) : Kept env t fs := by
  obtain ⟨fed,linked⟩ := kept
  unfold Linked at linked
  obtain ⟨_,raw,_,_,⟨stdin,deadline,pc,rfl⟩ | ⟨pc,rfl⟩⟩ := acceptsCases h
  all_goals
    rw [pc] at linked
    have whole := (fedSome (by rw [pc]; rfl)).mp fed
    refine ⟨(fedSome rfl).mpr ?_,linked⟩
    rw [← whole,restAfter n raw,atomsAppend,List.append_assoc]

theorem execKept {i stdin deadline g pid limit} (pc : s.handler = .execSelect (some i) stdin deadline)
    (first : s.first = some (.frame g)) (opens : drive env g = .exec pid limit) (flag : stdin = !ended fs)
    (whole : atoms s.feed ++ rest i = execOrders fs) : Kept env s fs := by
  constructor
  · refine (fedSome (by rw [pc]; rfl)).mpr ?_
    simp only [orders,first,opens,whole]
  · unfold Linked
    rw [pc]
    exact ⟨⟨g,pid,limit,first,opens⟩,fun _ => flag⟩

theorem execFrameKept {stdin deadline} (pc : s.handler = .execSelect (some .reading) stdin deadline)
    (kept : Kept env s fs) : Kept env (execFrame stdin deadline f s) (fs ++ [f]) := by
  obtain ⟨fed,linked⟩ := kept
  have whole := (fedSome (by rw [pc]; rfl)).mp fed
  unfold Linked at linked
  rw [pc] at linked
  obtain ⟨⟨g,pid,limit,first,opens⟩,flagged⟩ := linked
  have flag : stdin = !ended fs := flagged rfl
  simp only [orders,first,opens,rest,List.append_nil] at whole
  have grows := execOrdersGrow fs f
  rw [← flag,← whole] at grows
  have later : ended (fs ++ [f]) = (ended fs || isEof f) := by simp [ended,List.any_append]
  unfold execFrame
  split
  · rename_i kind
    have flag' : stdin = !ended (fs ++ [f]) := by
      rw [later,flag]
      simp [isEof,kind,frameStdin,frameStdinEof]
    rw [execOrdersStdin kind] at grows
    split
    · rename_i feeds
      refine execKept rfl first opens flag' ?_
      rw [grows,if_pos feeds.1]
      rfl
    · rename_i quiet
      refine execKept pc first opens flag' ?_
      rw [grows]
      by_cases empty : f.payload = []
      · simp [rest,empty]
      · simp [rest,show stdin = false by simpa [empty] using quiet]
  · rename_i kind
    split
    · rename_i closes
      refine execKept rfl first opens ?_ ?_
      · rw [later]
        simp [isEof,closes.1]
      · rw [grows,if_pos closes.2,execOrdersEof closes.1,atomsAppend,rest,List.append_nil]
        rfl
    · rename_i quiet
      refine execKept pc first opens ?_ ?_
      · rw [later,flag]
        cases past : ended fs with
        | true => rfl
        | false =>
          have open' : f.ftype ≠ frameStdinEof := fun eof => quiet ⟨eof,by rw [flag,past]; rfl⟩
          simp [isEof,open']
      · rw [grows,rest]
        split
        · rename_i feeds
          rw [execOrdersOther kind (fun eof => quiet ⟨eof,feeds⟩)]
        · rfl

theorem ptyKept {i g req} (pc : s.handler = .ptySelect i) (first : s.first = some (.frame g))
    (opens : drive env g = .openPty req) (whole : atoms s.feed ++ rest i = orders env s.first fs) : Kept env s fs := by
  constructor
  · exact (fedSome (by rw [pc]; rfl)).mpr whole
  · unfold Linked
    rw [pc]
    exact ⟨g,req,first,opens⟩

theorem ptyFrameKept (pc : s.handler = .ptySelect .reading) (kept : Kept env s fs) :
    Kept env (ptyFrame env f s) (fs ++ [f]) := by
  obtain ⟨fed,linked⟩ := kept
  have whole := (fedSome (by rw [pc]; rfl)).mp fed
  unfold Linked at linked
  rw [pc] at linked
  obtain ⟨g,req,first,opens⟩ := linked
  have grows : orders env s.first (fs ++ [f]) = orders env s.first fs ++ ptyOrder env f := by
    simp [orders,first,opens,ptyOrders]
  rw [← whole,rest,List.append_nil] at grows
  unfold ptyFrame
  split
  · rename_i kind
    split
    · refine ptyKept rfl first opens ?_
      simp only [Session.go,grows,ptyOrder,if_pos kind,rest]
    · rename_i empty
      refine ptyKept pc first opens ?_
      simp only [ne_eq,not_not] at empty
      simp [grows,ptyOrder,kind,rest,empty]
  · rename_i kind
    split
    · rename_i resize
      split
      · rename_i rows cols parsed
        refine ptyKept pc first opens ?_
        simp only [grows,ptyOrder,if_neg kind,if_pos resize,parsed,rest,List.append_nil,atomsAppend]
        rfl
      · rename_i bad
        refine ptyKept pc first opens ?_
        simp only [grows,ptyOrder,if_neg kind,if_pos resize,bad,rest,List.append_nil]
    · rename_i other
      refine ptyKept pc first opens ?_
      simp [grows,ptyOrder,kind,other,rest]

theorem dispatchKept (h : inbound env (.frame f) s = some t) (kept : Kept env s fs) : Kept env t (fs ++ [f]) := by
  obtain ⟨stdin,deadline,pc,_,⟨g,same,rfl⟩ | ⟨other,_⟩⟩ | ⟨pc,⟨g,same,rfl⟩ | ⟨other,_⟩⟩ := inboundCases h
  · cases same
    exact execFrameKept pc kept
  · exact absurd rfl (other f)
  · cases same
    exact ptyFrameKept pc kept
  · exact absurd rfl (other f)

theorem otherKept {a} (h : SessionModel.step env s a = some t) (other : dispatches a = false) (kept : Kept env s fs) :
    Kept env t fs := by
  cases plain : steers a with
  | false => exact passesKept (stepPasses h plain) kept
  | true =>
    cases a with
    | firstRead r => exact firstReadKept h kept
    | openptyReturns => exact openptyKept h kept
    | accepts n => exact acceptsKept h kept
    | inbound r => cases r <;> contradiction
    | _ => contradiction

end Sessions

section Readers
variable {env : Env} {cap : Nat} {r u v : Reader}

def Accounted (cap : Nat) (r : Reader) : Prop := decodeAll cap r.taken = r.frames ∧ remainder cap r.taken = r.held

def Sound (env : Env) (cap : Nat) (r : Reader) : Prop := Accounted cap r ∧ Kept env r.session r.frames

theorem accountedMore {chunk : Bytes} (before : Accounted cap r)
    (stuck : ∀ f rest, head cap (r.held ++ chunk) ≠ .frame f rest) (s : Session) :
    Accounted cap ⟨s,r.held ++ chunk,r.taken ++ chunk,r.frames⟩ := by
  obtain ⟨frames,held⟩ := before
  have longer := decodeAllAppend cap r.taken chunk
  rw [frames,held,decodeAllStuck stuck,remainderStuck stuck,List.append_nil] at longer
  exact longer

theorem accountedFrame {chunk tail : Bytes} {f : Frame} (before : Accounted cap r) (long : 0 < chunk.length)
    (asked : chunk.length ≤ missing r.held) (found : head cap (r.held ++ chunk) = .frame f tail) (s : Session) :
    Accounted cap ⟨s,[],r.taken ++ chunk,r.frames ++ [f]⟩ := by
  obtain ⟨frames,held⟩ := before
  have none : ∀ f rest, head cap [] ≠ .frame f rest := by simp [head]
  have longer := decodeAllAppend cap r.taken chunk
  rw [frames,held,decodeAllFrame found,remainderFrame found,PtyDuplex.missingRest long asked found,
    decodeAllStuck none,remainderStuck none] at longer
  exact longer

theorem stepSound {turn : Turn} (h : step env cap u turn = some v) (sound : Sound env cap u) : Sound env cap v := by
  obtain ⟨accounted,kept⟩ := sound
  cases turn with
  | other a =>
    simp only [step] at h
    split at h <;> try contradiction
    rename_i other
    obtain ⟨s,moved,rfl⟩ := Option.map_eq_some_iff.mp h
    exact ⟨accounted,otherKept moved (by simpa using other) kept⟩
  | reads chunk =>
    simp only [step,readFrame] at h
    split at h <;> try contradiction
    rename_i able
    split at h
    · rename_i f tail found
      obtain ⟨s,moved,rfl⟩ := Option.map_eq_some_iff.mp h
      exact ⟨accountedFrame accounted able.2.1 able.2.2 found s,dispatchKept moved kept⟩
    · rename_i len large
      obtain ⟨s,moved,rfl⟩ := Option.map_eq_some_iff.mp h
      exact ⟨accountedMore accounted (by simp [large]) s,passesKept (inboundPasses moved (by simp)) kept⟩
    · rename_i short _
      cases h
      exact ⟨accountedMore accounted short u.session,kept⟩

def dispatched : Action → Option Frame
  | .inbound (.frame f) => some f
  | _ => none

theorem otherUndispatched {a : Action} (other : dispatches a = false) : dispatched a = none := by
  cases a with
  | inbound r => cases r <;> first | contradiction | rfl
  | _ => rfl

theorem stepRefines {turn : Turn} (h : step env cap u turn = some v) :
    (v.session = u.session ∧ v.frames = u.frames) ∨
      ∃ a, SessionModel.step env u.session a = some v.session ∧ v.frames = u.frames ++ (dispatched a).toList := by
  cases turn with
  | other a =>
    simp only [step] at h
    split at h <;> try contradiction
    rename_i other
    obtain ⟨s,moved,rfl⟩ := Option.map_eq_some_iff.mp h
    exact .inr ⟨a,moved,by simp [otherUndispatched (by simpa using other)]⟩
  | reads chunk =>
    simp only [step,readFrame] at h
    split at h <;> try contradiction
    split at h
    · rename_i f tail found
      obtain ⟨s,moved,rfl⟩ := Option.map_eq_some_iff.mp h
      exact .inr ⟨.inbound (.frame f),moved,rfl⟩
    · rename_i len large
      obtain ⟨s,moved,rfl⟩ := Option.map_eq_some_iff.mp h
      exact .inr ⟨.inbound (.oversize len cap),moved,(List.append_nil _).symm⟩
    · cases h
      exact .inl ⟨rfl,rfl⟩

theorem runRefines {turns : List Turn} (reached : Machine.run (step env cap) u turns = some v) :
    ∃ acts, Machine.run (SessionModel.step env) u.session acts = some v.session ∧
      v.frames = u.frames ++ acts.filterMap dispatched := by
  induction turns generalizing u with
  | nil =>
    cases reached
    exact ⟨[],rfl,by simp⟩
  | cons turn turns ih =>
    obtain ⟨next,moved,later⟩ := Machine.runCons.mp reached
    obtain ⟨acts,rest,frames⟩ := ih later
    obtain ⟨session,same⟩ | ⟨a,first,more⟩ := stepRefines moved
    · exact ⟨acts,session ▸ rest,same ▸ frames⟩
    · refine ⟨a::acts,Machine.runCons.mpr ⟨_,first,rest⟩,?_⟩
      rw [frames,more,List.append_assoc]
      cases sent : dispatched a <;> simp [sent]

theorem reachedSound {turns : List Turn} (reached : Machine.run (step env cap) accepted turns = some r) :
    Sound env cap r := by
  refine Machine.runKeeps (fun _ _ _ sound h => stepSound h sound) ?_ reached
  refine ⟨⟨decodeAllStuck (by simp [accepted,head]),remainderStuck (by simp [accepted,head])⟩,?_⟩
  exact ⟨(fedNone rfl).mpr (blankSpent rfl),rfl,rfl,rfl⟩

theorem listensAt {s : Session} (open' : listens s = true) :
    (∃ stdin deadline, s.handler = .execSelect (some .reading) stdin deadline ∧ s.cancel = false) ∨
      s.handler = .ptySelect .reading := by
  unfold listens at open'
  split at open' <;> try contradiction
  · rename_i stdin deadline pc
    exact .inl ⟨stdin,deadline,pc,by simpa using open'⟩
  · rename_i pc
    exact .inr pc

theorem noiseInbound {s : Session} {g : Frame} (open' : listens s = true) (noise : meant g = false) :
    inbound env (.frame g) s = some s := by
  simp only [meant,isStdin,isEof,Bool.or_eq_false_iff,decide_eq_false_iff_not] at noise
  obtain ⟨stdin,deadline,pc,calm⟩ | pc := listensAt open'
  · simp [inbound,pc,calm,execFrame,noise]
  · simp [inbound,pc,ptyFrame,noise]

theorem readShort {chunk : Bytes} (open' : listens u.session = true) (long : 0 < chunk.length)
    (asked : chunk.length ≤ missing u.held) (short : head cap (u.held ++ chunk) = .tornPayload) :
    step env cap u (.reads chunk) = some ⟨u.session,u.held ++ chunk,u.taken ++ chunk,u.frames⟩ := by
  simp only [step,readFrame]
  rw [if_pos ⟨open',long,asked⟩,short]

theorem readWhole {chunk tail : Bytes} {f : Frame} {s : Session} (open' : listens u.session = true)
    (long : 0 < chunk.length) (asked : chunk.length ≤ missing u.held)
    (found : head cap (u.held ++ chunk) = .frame f tail) (moved : inbound env (.frame f) u.session = some s) :
    step env cap u (.reads chunk) = some ⟨s,[],u.taken ++ chunk,u.frames ++ [f]⟩ := by
  simp only [step,readFrame]
  rw [if_pos ⟨open',long,asked⟩,found]
  simp only [moved,Option.map_some]

theorem headHeader {n : Nat} (t : UInt8) (positive : 0 < n) (fits : n ≤ cap) (bound : cap < 2^32) :
    head cap (t :: be32 n) = .tornPayload ∧ missing (t :: be32 n) = n := by
  have len := fromBe32Be32 (Nat.lt_of_le_of_lt fits bound)
  simp only [be32,head,missing,len]
  rw [if_neg (by omega),if_pos (by simpa using positive)]
  exact ⟨rfl,rfl⟩

theorem noiseRead {g : Frame} (open' : listens u.session = true) (empty : u.held = []) (noise : meant g = false)
    (fits : g.payload.length ≤ cap) (bound : cap < 2^32) :
    ∃ turns v, Machine.run (step env cap) u turns = some v ∧
      v.session = u.session ∧ v.held = [] ∧ v.frames = u.frames ++ [g] := by
  have whole := headEncoded [] fits bound
  rw [List.append_nil] at whole
  have quiet : inbound env (.frame g) u.session = some u.session := noiseInbound open' noise
  have asked : (g.ftype :: be32 g.payload.length).length ≤ missing u.held := by
    rw [empty]
    exact Nat.le_refl 5
  have long : 0 < (g.ftype :: be32 g.payload.length).length := Nat.succ_pos _
  by_cases bare : g.payload = []
  · have found : head cap (u.held ++ g.ftype :: be32 g.payload.length) = .frame g [] := by
      rw [empty,List.nil_append,← whole,encode,bare,List.append_nil]
    exact ⟨[.reads _],_,Machine.runCons.mpr ⟨_,readWhole open' long asked found quiet,rfl⟩,rfl,rfl,rfl⟩
  · have positive := List.length_pos_iff.mpr bare
    obtain ⟨torn,lacks⟩ := headHeader g.ftype positive fits bound
    rw [← List.nil_append (g.ftype :: _),← empty] at torn lacks
    have first := @readShort env cap u _ open' long asked torn
    have found : head cap (u.held ++ g.ftype :: be32 g.payload.length ++ g.payload) = .frame g [] := by
      rw [empty,List.nil_append]
      exact whole
    have second := @readWhole env cap ⟨u.session,u.held ++ g.ftype :: be32 g.payload.length,
      u.taken ++ g.ftype :: be32 g.payload.length,u.frames⟩ g.payload []
      g u.session open' positive (Nat.le_of_eq lacks.symm) found quiet
    exact ⟨[.reads _,.reads _],_,Machine.runCons.mpr ⟨_,first,Machine.runCons.mpr ⟨_,second,rfl⟩⟩,rfl,rfl,rfl⟩

def Inserted (before : List Frame) (g : Frame) (u v : Reader) : Prop :=
  v.session = u.session ∧ v.held = u.held ∧ ∃ later, u.frames = before ++ later ∧ v.frames = before ++ g::later

theorem stepInserted {before : List Frame} {g : Frame} {turn : Turn} {u' : Reader}
    (h : step env cap u turn = some u') (pair : Inserted before g u v) :
    ∃ v', step env cap v turn = some v' ∧ Inserted before g u' v' := by
  obtain ⟨session,held,later,mine,theirs⟩ := pair
  cases turn with
  | other a =>
    simp only [step] at h ⊢
    split at h <;> try contradiction
    rename_i other
    obtain ⟨s,moved,rfl⟩ := Option.map_eq_some_iff.mp h
    rw [if_neg other,session,moved]
    exact ⟨_,rfl,rfl,held,later,mine,theirs⟩
  | reads chunk =>
    simp only [step,readFrame] at h ⊢
    rw [session,held]
    split at h <;> try contradiction
    rename_i able
    rw [if_pos able]
    cases found : head cap (u.held ++ chunk) with
    | frame f tail =>
      rw [found] at h
      obtain ⟨s,moved,rfl⟩ := Option.map_eq_some_iff.mp h
      simp only [moved,Option.map_some]
      exact ⟨_,rfl,rfl,rfl,later ++ [f],by simp [mine],by simp [theirs]⟩
    | oversize len =>
      rw [found] at h
      obtain ⟨s,moved,rfl⟩ := Option.map_eq_some_iff.mp h
      simp only [moved,Option.map_some]
      exact ⟨_,rfl,rfl,rfl,later,mine,theirs⟩
    | clean | tornHeader | tornPayload =>
      rw [found] at h
      cases h
      exact ⟨_,rfl,rfl,rfl,later,mine,theirs⟩

theorem runInserted {before : List Frame} {g : Frame} {turns : List Turn} {u' : Reader}
    (h : Machine.run (step env cap) u turns = some u') (pair : Inserted before g u v) :
    ∃ v', Machine.run (step env cap) v turns = some v' ∧ Inserted before g u' v' := by
  induction turns generalizing u v with
  | nil =>
    cases h
    exact ⟨v,rfl,pair⟩
  | cons turn turns ih =>
    obtain ⟨next,moved,later⟩ := Machine.runCons.mp h
    obtain ⟨next',moved',pair'⟩ := stepInserted moved pair
    obtain ⟨last,reached,pair''⟩ := ih later pair'
    exact ⟨last,Machine.runCons.mpr ⟨next',moved',reached⟩,pair''⟩

theorem execOrdersUnclosed {fs : List Frame} (still : .close ∉ execOrders fs) :
    execOrders fs = (stdinBytes (upToEof fs)).map .byte := by
  rw [execOrdersClose] at still
  simp [execOrders,still]

theorem bytesPrefix {got : List Atom} {raw : Bytes} (early : got <+: raw.map .byte) :
    ∃ given, given <+: raw ∧ got = given.map .byte := by
  rw [List.prefix_iff_eq_take,← List.map_take] at early
  exact ⟨_,List.take_prefix _ _,early⟩

/- What an exec gives: bytes, then perhaps the end. In the loop the end is that of the first
STDIN_EOF; past it the pipe is dropped. -/
def Piped (fs : List Frame) (feed : List Feed) : Prop :=
  ∃ given, given <+: stdinBytes (upToEof fs) ∧ (atoms feed = given.map .byte ∨ atoms feed = given.map .byte ++ [.close])

theorem spentGiven {g : Frame} {pid : Nat} {limit : Option Duration} {s : Session} {fs : List Frame}
    (spent : Spent env s fs) (first : s.first = some (.frame g)) (opens : drive env g = .exec pid limit) :
    Piped fs s.feed ∧ (ended fs = true → atoms s.feed = execOrders fs) := by
  have ordered : orders env s.first fs = execOrders fs := by simp only [orders,first,opens]
  obtain ⟨early | ⟨got,early,shape,still,_⟩,shut⟩ := spent
  · rw [ordered] at early shut
    have all : ended fs = true → atoms s.feed = execOrders fs :=
      fun past => closeLast early (shut (execOrdersClose.mpr past))
    refine ⟨?_,all⟩
    cases past : ended fs with
    | true => exact ⟨_,List.prefix_rfl,.inr (by rw [all past,execOrders,past]; rfl)⟩
    | false =>
      rw [execOrdersUnclosed (by simp [execOrdersClose,past])] at early
      obtain ⟨given,within,same⟩ := bytesPrefix early
      exact ⟨given,within,.inl same⟩
  · rw [ordered] at early still
    refine ⟨?_,fun past => absurd (execOrdersClose.mpr past) still⟩
    rw [execOrdersUnclosed still] at early
    obtain ⟨given,within,rfl⟩ := bytesPrefix early
    exact ⟨given,within,.inr shape⟩

theorem execGets {g : Frame} {pid : Nat} {limit : Option Duration} {s : Session} {fs : List Frame} (kept : Kept env s fs)
    (first : s.first = some (.frame g)) (opens : drive env g = .exec pid limit) :
    Piped fs s.feed ∧ (ended fs = true → atoms s.feed = execOrders fs) ∧
      ∀ due, owed s.handler = some due → (.close ∈ s.feed ↔ ended fs = true) := by
  obtain ⟨given,all⟩ := spentGiven (fedSettles kept.1) first opens
  refine ⟨given,all,?_⟩
  intro due owes
  have whole : atoms s.feed ++ due = execOrders fs := by
    have fed := (fedSome owes).mp kept.1
    rwa [show orders env s.first fs = execOrders fs by simp only [orders,first,opens]] at fed
  rw [← closePieces,← execOrdersClose,← whole]
  exact ⟨fun closed => List.mem_append_left _ closed,
    fun closed => (List.mem_append.mp closed).resolve_right (owedOpen owes)⟩

theorem ptyGets {g : Frame} {req : Request} {s : Session} {fs : List Frame} (kept : Kept env s fs)
    (first : s.first = some (.frame g)) (opens : drive env g = .openPty req) :
    atoms s.feed <+: initialSize req :: ptyOrders env fs := by
  have ordered : orders env s.first fs = initialSize req :: ptyOrders env fs := by simp only [orders,first,opens]
  rw [← ordered]
  refine (fedSettles kept.1).1.resolve_right ?_
  intro ⟨_,_,_,_,f,_,_,read,runs⟩
  cases first.symm.trans read
  cases opens.symm.trans runs

end Readers

/- What holds of a session at any moment: nothing its peer sent is lost on the way to a frame,
the child gets what the frames order as far as it got, in the loop all but what a write still
owes, and frames that order nothing make no difference, to another schedule or to this one. -/
structure Faithful (env : Env) (cap : Nat) (turns : List Turn) (r : Reader) : Prop where
  accounted : decodeAll cap r.taken = r.frames ∧ r.taken = encodeAll r.frames ++ r.held
  exec : ∀ g pid limit, r.session.first = some (.frame g) → drive env g = .exec pid limit →
    Piped r.frames r.session.feed ∧ (ended r.frames = true → atoms r.session.feed = execOrders r.frames) ∧
      ∀ due, owed r.session.handler = some due → (.close ∈ r.session.feed ↔ ended r.frames = true)
  openPty : ∀ g req, r.session.first = some (.frame g) → drive env g = .openPty req →
    atoms r.session.feed <+: initialSize req :: ptyOrders env r.frames
  looping : ∀ due, owed r.session.handler = some due →
    atoms r.session.feed ++ due = orders env r.session.first r.frames
  schedule : ∀ turns' r' due due', Machine.run (step env cap) accepted turns' = some r' →
    r'.session.first = r.session.first → r'.frames.filter meant = r.frames.filter meant →
    owed r.session.handler = some due → owed r'.session.handler = some due' →
    atoms r'.session.feed ++ due' = atoms r.session.feed ++ due
  inserted : ∀ before after u g, turns = before ++ after → Machine.run (step env cap) accepted before = some u →
    listens u.session = true → u.held = [] → meant g = false → g.payload.length ≤ cap →
    ∃ more r', Machine.run (step env cap) accepted (before ++ more ++ after) = some r' ∧ r'.session = r.session ∧
      ∃ later, r.frames = u.frames ++ later ∧ r'.frames = u.frames ++ g::later

theorem inboundFaithful (env : Env) (limit : Nat) (turns : List Turn) (r : Reader)
    (reached : Machine.run (step env (clampInbound limit)) accepted turns = some r) :
    Faithful env (clampInbound limit) turns r := by
  obtain ⟨⟨frames,held⟩,kept⟩ := reachedSound reached
  have looping : ∀ due, owed r.session.handler = some due →
      atoms r.session.feed ++ due = orders env r.session.first r.frames :=
    fun due owes => (fedSome owes).mp kept.1
  have bound : clampInbound limit < 2^32 := Nat.lt_of_le_of_lt (clampInboundBounds limit).2 (by decide)
  refine ⟨⟨frames,?_⟩,fun _ _ _ first opens => execGets kept first opens,
    fun _ _ first opens => ptyGets kept first opens,looping,?_,?_⟩
  · rw [← frames,← held]
    exact decodeAllRemainder _ _
  · intro turns' r' due due' reached' first same owes owes'
    have kept' := (reachedSound reached').2
    rw [looping due owes,(fedSome owes').mp kept'.1,← meantOrders,← meantOrders r.session.first,first,same]
  · intro before after u g shape start open' empty noise fits
    obtain ⟨mid,start',rest⟩ := Machine.runAppend.mp (shape ▸ reached)
    cases start.symm.trans start'
    obtain ⟨more,v,read,session,held',frames'⟩ := noiseRead open' empty noise fits bound
    have pair : Inserted u.frames g u v := ⟨session,held'.trans empty.symm,[],by simp,frames'⟩
    obtain ⟨r',rest',session',_,later⟩ := runInserted rest pair
    refine ⟨more,r',?_,session',later⟩
    exact Machine.runAppend.mpr ⟨v,Machine.runAppend.mpr ⟨u,start,read⟩,rest'⟩

def tornTurns : List Turn :=
  [.other execOpening,.reads [2,0,0],.other (.supplies .out [111]),.reads [0,2],.reads [104,105],.other (.accepts 1),
    .other (.accepts 1),.reads [4,0,0,0,0],.reads [3,0,0,0,0]]

theorem inboundFaithfulTorn : ∃ r, Machine.run (step plainGuest (clampInbound 0)) accepted tornTurns = some r ∧
    (r.session.feed = [.bytes [104],.bytes [105],.close] ∧ owed r.session.handler = some []) ∧
    Faithful plainGuest (clampInbound 0) tornTurns r := by
  obtain ⟨r,reached,fed⟩ : ∃ r, Machine.run (step plainGuest (clampInbound 0)) accepted tornTurns = some r ∧
      (r.session.feed = [.bytes [104],.bytes [105],.close] ∧ owed r.session.handler = some []) :=
    Machine.runEnds (by decide +kernel)
  exact ⟨r,reached,fed,inboundFaithful plainGuest 0 tornTurns r reached⟩

end Guesthopper.SessionInbound
