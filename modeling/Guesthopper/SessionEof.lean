import Guesthopper.SessionInbound

/-! End of input. exec drops the child's stdin at the first STDIN_EOF; open_pty has no arm
for that frame and passes it over as it does a PING, so its child is never told. -/
namespace Guesthopper.SessionEof
open FrameBytes SessionText SessionModel SessionInbound

def notSize : Atom → Bool
  | .winsize _ _ => false
  | _ => true

def given (s : Session) : List Atom := (atoms s.feed).filter notSize

-- Once a STDIN_EOF was dispatched: exactly the bytes before it and then the end, nothing later.
def EndsInput (r : Reader) : Prop := ended r.frames = true → given r.session = execOrders r.frames

def Execs (env : Env) (r : Reader) : Prop := ∃ g pid limit, r.session.first = some (.frame g) ∧ drive env g = .exec pid limit
def OpensPty (env : Env) (r : Reader) : Prop := ∃ g req, r.session.first = some (.frame g) ∧ drive env g = .openPty req

section Given
variable {env : Env} {cap : Nat} {turns : List Turn} {r : Reader} {fs : List Frame}

theorem bytesGiven (raw : Bytes) : (raw.map Atom.byte).filter notSize = raw.map .byte := by
  refine List.filter_eq_self.mpr ?_
  intro x inside
  obtain ⟨b,_,rfl⟩ := List.mem_map.mp inside
  rfl

theorem execGiven : (execOrders fs).filter notSize = execOrders fs := by
  unfold execOrders
  rw [List.filter_append,bytesGiven]
  split <;> rfl

theorem ptyOrderGiven (f : Frame) :
    (ptyOrder env f).filter notSize = if isStdin f then f.payload.map .byte else [] := by
  unfold ptyOrder isStdin
  simp only [decide_eq_true_eq]
  split
  · exact bytesGiven f.payload
  · split
    · split <;> rfl
    · rfl

theorem ptyGiven : (ptyOrders env fs).filter notSize = (stdinBytes fs).map .byte := by
  induction fs with
  | nil => rfl
  | cons f fs ih =>
    simp only [ptyOrders,List.flatMap_cons,List.filter_append,ptyOrderGiven] at ih ⊢
    rw [ih]
    cases stdin : isStdin f <;> simp [stdinBytes,stdin]

theorem openGiven (still : ended fs = false) : execOrders fs = (stdinBytes fs).map .byte := by
  have whole : upToEof fs = fs := List.takeWhile_eq_self_iff.mpr (openAll still)
  simp [execOrders,whole,still]

theorem restGiven (i : Input) : (rest i).filter notSize = rest i := by
  cases i with
  | reading => rfl
  | writing raw => exact bytesGiven raw

theorem owedGiven {h : Handler} {due : List Atom} (owes : owed h = some due) : due.filter notSize = due := by
  unfold owed at owes
  split at owes <;> try contradiction
  all_goals
    cases owes
    exact restGiven _

theorem loopGiven {due : List Atom} (reached : Machine.run (step env cap) accepted turns = some r)
    (owes : owed r.session.handler = some due) :
    given r.session ++ due = (orders env r.session.first r.frames).filter notSize := by
  rw [← (fedSome owes).mp (reachedSound reached).2.1,List.filter_append,owedGiven owes,given]

theorem execInput (opens : Execs env r) :
    (orders env r.session.first r.frames).filter notSize = execOrders r.frames := by
  obtain ⟨g,pid,limit,first,opens⟩ := opens
  simp only [orders,first,opens,execGiven]

theorem ptyInput (opens : OpensPty env r) :
    (orders env r.session.first r.frames).filter notSize = (stdinBytes r.frames).map .byte := by
  obtain ⟨g,req,first,opens⟩ := opens
  simp only [orders,first,opens]
  exact ptyGiven

theorem execEnds (reached : Machine.run (step env cap) accepted turns = some r) (opens : Execs env r) : EndsInput r := by
  obtain ⟨g,pid,limit,first,opens⟩ := opens
  obtain ⟨_,whole,_⟩ := execGets (reachedSound reached).2 first opens
  intro past
  rw [given,whole past,execGiven]

theorem ptyEnds (reached : Machine.run (step env cap) accepted turns = some r) (opens : OpensPty env r) :
    EndsInput r ↔ ended r.frames = false := by
  obtain ⟨g,req,first,opens⟩ := opens
  have early := ptyGets (reachedSound reached).2 first opens
  constructor
  · intro ends
    by_contra past
    have closed : .close ∈ given r.session := by
      rw [ends (by simpa using past)]
      exact execOrdersClose.mpr (by simpa using past)
    have ordered := early.subset (List.mem_filter.mp closed).1
    exact (List.mem_cons.mp ordered).elim (by simp [initialSize]) ptyOrdersOpen
  · intro still past
    rw [still] at past
    contradiction

end Given

theorem eofExact (env : Env) (limit : Nat) (turns : List Turn) (r : Reader)
    (reached : Machine.run (step env (clampInbound limit)) accepted turns = some r) :
    (Execs env r → EndsInput r) ∧ (OpensPty env r → (EndsInput r ↔ ended r.frames = false)) ∧
    ∀ turns' r' due due', Machine.run (step env (clampInbound limit)) accepted turns' = some r' →
      Execs env r → OpensPty env r' → r'.frames = r.frames →
      owed r.session.handler = some due → owed r'.session.handler = some due' →
      (given r.session ++ due = given r'.session ++ due' ↔ ended r.frames = false) := by
  refine ⟨execEnds reached,ptyEnds reached,?_⟩
  intro turns' r' due due' reached' opens opens' same owes owes'
  rw [loopGiven reached owes,loopGiven reached' owes',execInput opens,ptyInput opens',same]
  constructor
  · intro agree
    by_contra past
    have closed := execOrdersClose.mpr (by simpa using past)
    rw [agree] at closed
    simp at closed
  · exact openGiven

def typed : List Turn := [.reads [2,0,0,0,1],.reads [97],.other (.accepts 1),.reads [4,0,0,0,0]]
def finished : List Turn := typed ++ [.reads [3,0,0,0,0],.reads [4,0,0,0,0]]

def execTurns (input : List Turn) : List Turn := .other execOpening :: input
def ptyTurns (input : List Turn) : List Turn := ptyOpening.map .other ++ input

theorem eofExactTyped : ∃ r r', Machine.run (step plainGuest (clampInbound 0)) accepted (execTurns typed) = some r ∧
    Machine.run (step plainGuest (clampInbound 0)) accepted (ptyTurns typed) = some r' ∧ r'.frames = r.frames ∧
    EndsInput r ∧ EndsInput r' ∧ given r.session ++ [] = given r'.session ++ [] := by
  obtain ⟨r,reached,first,frames,owes⟩ :
      ∃ r, Machine.run (step plainGuest (clampInbound 0)) accepted (execTurns typed) = some r ∧
        r.session.first = some (.frame ⟨frameRequest,execText⟩) ∧
        r.frames = [⟨frameStdin,[97]⟩,⟨framePing,[]⟩] ∧ owed r.session.handler = some [] :=
    Machine.runEnds (by decide +kernel)
  obtain ⟨r',reached',first',frames',owes'⟩ :
      ∃ r', Machine.run (step plainGuest (clampInbound 0)) accepted (ptyTurns typed) = some r' ∧
        r'.session.first = some (.frame ⟨frameRequest,ptyText⟩) ∧
        r'.frames = [⟨frameStdin,[97]⟩,⟨framePing,[]⟩] ∧ owed r'.session.handler = some [] :=
    Machine.runEnds (by decide +kernel)
  have opens : Execs plainGuest r := ⟨_,_,_,first,rfl⟩
  have opens' : OpensPty plainGuest r' := ⟨_,_,first',rfl⟩
  have still : ended r.frames = false := by rw [frames]; rfl
  have still' : ended r'.frames = false := by rw [frames']; rfl
  have same : r'.frames = r.frames := frames'.trans frames.symm
  have exact := eofExact plainGuest 0 (execTurns typed) r reached
  have exact' := eofExact plainGuest 0 (ptyTurns typed) r' reached'
  refine ⟨r,r',reached,reached',same,exact.1 opens,(exact'.2.1 opens').mpr still',?_⟩
  exact (exact.2.2 (ptyTurns typed) r' [] [] reached' opens opens' same owes owes').mpr still

/-- The client's input ended, the agent dispatched the STDIN_EOF and owes its child nothing;
exec's child has the end of its input, the shell on the pty has not and goes on waiting. -/
theorem ptyIgnoresEof :
    (∃ r, Machine.run (step plainGuest (clampInbound 0)) accepted (execTurns finished) = some r ∧
      r.frames = [⟨frameStdin,[97]⟩,⟨framePing,[]⟩,⟨frameStdinEof,[]⟩,⟨framePing,[]⟩] ∧
      owed r.session.handler = some [] ∧ given r.session = [.byte 97,.close]) ∧
    ∃ r, Machine.run (step plainGuest (clampInbound 0)) accepted (ptyTurns finished) = some r ∧
      r.frames = [⟨frameStdin,[97]⟩,⟨framePing,[]⟩,⟨frameStdinEof,[]⟩,⟨framePing,[]⟩] ∧
      owed r.session.handler = some [] ∧ given r.session = [.byte 97] ∧ ¬ EndsInput r := by
  constructor
  · exact Machine.runEnds (by decide +kernel)
  · obtain ⟨r,reached,frames,owes,got⟩ :
        ∃ r, Machine.run (step plainGuest (clampInbound 0)) accepted (ptyTurns finished) = some r ∧
          r.frames = [⟨frameStdin,[97]⟩,⟨framePing,[]⟩,⟨frameStdinEof,[]⟩,⟨framePing,[]⟩] ∧
          owed r.session.handler = some [] ∧ given r.session = [.byte 97] :=
      Machine.runEnds (by decide +kernel)
    refine ⟨r,reached,frames,owes,got,?_⟩
    intro ends
    have all := ends (by rw [frames]; rfl)
    rw [got,frames] at all
    exact absurd all (by decide)

end Guesthopper.SessionEof
