import Guesthopper.ClientStream

/-! The three host front doors and the exit status each reports for a guest stream. The
loops share their shape (`serve`) and differ in what they make of an EXIT, an ERROR, the
end of the stream and an exception. `json.loads` after a UTF-8 decode is a parameter; a
`crash` is any exception that `_parse_json` does not translate. Writing to the local
side is taken to succeed, once what is to be written can be encoded. -/
namespace Guesthopper.ClientDoors
open FrameBytes ClientStream

/- `surrogates` is a str with a surrogate of its own, as stderr shows it: JSON can spell one, and
`encode()` raises on it. -/
inductive Value where
  | int (n : Int)
  | bool (b : Bool)
  | str (text : String)
  | surrogates (shown : String)
  | other (text : String)
  deriving DecidableEq, Repr

def Value.text : Value → String
  | .int n => toString n
  | .bool b => if b then "True" else "False"
  | .str s | .surrogates s | .other s => s

def Value.encodes : Value → Bool
  | .surrogates _ => false
  | _ => true

-- `isinstance(v, int)`, with the integer it is; in Python a bool is one.
def Value.asInt : Value → Option Int
  | .int n => some n
  | .bool b => some (if b then 1 else 0)
  | _ => none

inductive Loaded where
  | object (fields : String → Option Value)
  | notObject
  | invalid (text : String)
  | crash (text : String)

structure Json where
  loads : Bytes → Loaded
  loadsEmpty : ∃ e, loads [] = .invalid e
  loadsBraces : loads [123,125] = .object (fun _ => none)

inductive Parsed where
  | ok (fields : String → Option Value)
  | error (msg : String)
  | crash (text : String)

def parseJson (j : Json) (payload : Bytes) : Parsed :=
  match j.loads payload with
  | .object fields => .ok fields
  | .notObject => .error "Guest control frame was not a JSON object"
  | .invalid e => .error ("Guest control frame was not valid JSON: " ++ e)
  | .crash e => .crash e

def messageText (fields : String → Option Value) : String := ((fields "message").map Value.text).getD ""

def messageEncodes (fields : String → Option Value) : Bool := ((fields "message").map Value.encodes).getD true

def faultText : Fault → String
  | .command msg => msg
  | .os e => e

inductive Report where
  | status (code : Int)
  | raised (msg : String)
  | crashed (text : String)
  deriving DecidableEq, Repr

structure Shown where
  out : Bytes
  err : Bytes
  deriving DecidableEq, Repr

structure Door where
  codec : Codec
  folds : Bool
  onExit : Bytes → Report
  onError : Bytes → Report
  onEnd : Report
  onFault : Fault → Report

def serve (d : Door) (s : Socket) (shown : Shown) : Report × Shown :=
  match _found : d.codec.read s with
  | .none => (d.onEnd,shown)
  | .raised e => (d.onFault e,shown)
  | .frame f t =>
    if f.ftype = frameStdout then serve d t {shown with out := shown.out ++ f.payload}
    else if f.ftype = frameStderr then
      serve d t (if d.folds then {shown with out := shown.out ++ f.payload}
        else {shown with err := shown.err ++ f.payload})
    else if f.ftype = frameExit then (d.onExit f.payload,shown)
    else if f.ftype = frameError then (d.onError f.payload,shown)
    else serve d t shown
termination_by s.bytes.length
decreasing_by all_goals exact codecShrinks _found

-- `_collect_result` under `run_guest`: the code it returns goes to sys.exit.
def collectResult (j : Json) : Door where
  codec := syncCodec
  folds := false
  onExit payload := match parseJson j payload with
    | .ok fields => match (fields "code").bind Value.asInt with
      | some code => .status code
      | none => .raised "EXIT frame missing integer 'code'"
    | .error msg => .raised msg
    | .crash e => .crashed e
  onError payload := match parseJson j payload with
    | .ok fields => .raised ("Guest agent error: " ++ messageText fields)
    | .error msg => .raised msg
    | .crash e => .crashed e
  onEnd := .raised "Guest command closed without an EXIT frame"
  onFault
    | .command msg => .raised msg
    | .os e => .raised ("Failed while running guest command: " ++ e)

def runShell (j : Json) (unixSocket : String) : Door where
  codec := syncCodec
  folds := false
  onExit payload := match parseJson j payload with
    | .ok fields => .status ((((fields "code").getD (.int 0)).asInt).getD 0)
    | .error msg => .raised msg
    | .crash e => .crashed e
  onError payload := match parseJson j payload with
    | .ok _ => .status 1
    | .error msg => .raised msg
    | .crash e => .crashed e
  onEnd := .status 0
  onFault
    | .command msg => .raised msg
    | .os e => .raised ("Socket error while talking to " ++ unixSocket ++ ": " ++ e)

def orBraces (payload : Bytes) : Bytes := if payload = [] then [123,125] else payload

def pumpOutbound (j : Json) (wantPty : Bool) : Door where
  codec := sshCodec
  folds := wantPty
  onExit payload := match parseJson j (orBraces payload) with
    | .ok fields => .status ((((fields "code").getD (.int 0)).asInt).getD 0)
    | .error _ => .status 0
    | .crash e => .crashed e
  onError payload := match parseJson j (orBraces payload) with
    | .ok fields => if messageEncodes fields then .status 1 else .crashed "UnicodeEncodeError"
    | .error _ => .status 0
    | .crash e => .crashed e
  onEnd := .status 0
  onFault _ := .status 0

def report (d : Door) (s : Socket) : Report := (serve d s ⟨[],[]⟩).1

inductive Stop where
  | exit (payload : Bytes)
  | error (payload : Bytes)
  | broken

def firstTerminal (raw : Bytes) : Stop :=
  match _found : head maxFrameLen raw with
  | .frame f rest =>
    if f.ftype = frameExit then .exit f.payload
    else if f.ftype = frameError then .error f.payload
    else firstTerminal rest
  | _ => .broken
termination_by raw.length
decreasing_by
  have := (headFrame _found).2
  omega

def told (d : Door) : Stop → Report → Prop
  | .exit payload,r => r = d.onExit payload
  | .error payload,r => r = d.onError payload
  | .broken,r => r = d.onEnd ∨ ∃ e, r = d.onFault e

theorem firstTerminalFrame {raw rest : Bytes} {f : Frame} (h : head maxFrameLen raw = .frame f rest) :
    firstTerminal raw = if f.ftype = frameExit then .exit f.payload
      else if f.ftype = frameError then .error f.payload else firstTerminal rest := by
  rw [firstTerminal]
  split
  · rename_i g tail found
    rw [h] at found
    cases found
    rfl
  · rename_i other
    exact absurd h (other f rest)

theorem firstTerminalBroken {raw : Bytes} (h : ∀ f rest, head maxFrameLen raw ≠ .frame f rest) :
    firstTerminal raw = .broken := by
  rw [firstTerminal]
  split
  · rename_i f rest found; exact absurd found (h f rest)
  · rfl

theorem serveFrame {d : Door} {s t : Socket} {f : Frame} (shown : Shown) (read : d.codec.read s = .frame f t) :
    serve d s shown = if f.ftype = frameExit then (d.onExit f.payload,shown)
      else if f.ftype = frameError then (d.onError f.payload,shown)
      else serve d t (if f.ftype = frameStdout ∨ f.ftype = frameStderr ∧ d.folds then
          {shown with out := shown.out ++ f.payload}
        else if f.ftype = frameStderr then {shown with err := shown.err ++ f.payload} else shown) := by
  rw [serve]
  split <;> rename_i found <;> cases read.symm.trans found
  by_cases out : f.ftype = frameStdout
  · simp [out,frameStdout,frameExit,frameError]
  by_cases err : f.ftype = frameStderr
  · simp [err,frameStdout,frameStderr,frameExit,frameError]
  · simp [out,err]

theorem serveEnd {d : Door} {s : Socket} (shown : Shown) (read : d.codec.read s = .none) :
    serve d s shown = (d.onEnd,shown) := by
  rw [serve]
  split <;> rename_i found <;> cases read.symm.trans found
  rfl

theorem serveFault {d : Door} {s : Socket} {e : Fault} (shown : Shown) (read : d.codec.read s = .raised e) :
    serve d s shown = (d.onFault e,shown) := by
  rw [serve]
  split <;> rename_i found <;> cases read.symm.trans found
  rfl

theorem syncWhole {s : Socket} {f : Frame} {rest : Bytes} (h : head maxFrameLen s.bytes = .frame f rest) :
    ∃ t, syncCodec.read s = .frame f t := by
  obtain ⟨t,read,_⟩ := @readFrameByFrame syncExactly "connection closed before frame payload" s f rest trivial h
  exact ⟨t,read⟩

theorem serveTells (d : Door) (sync : d.codec = syncCodec) (s : Socket) (shown : Shown) :
    told d (firstTerminal s.bytes) (serve d s shown).1 := by
  induction long : s.bytes.length using Nat.strongRecOn generalizing s shown with
  | ind n ih =>
    have broken : (∀ f t, d.codec.read s ≠ .frame f t) → firstTerminal s.bytes = .broken := by
      intro none
      refine firstTerminalBroken ?_
      intro f rest found
      obtain ⟨t,read⟩ := syncWhole found
      exact none f t (sync ▸ read)
    cases read : d.codec.read s with
    | none =>
      rw [broken (by simp [read]),serveEnd shown read]
      exact .inl rfl
    | raised e =>
      rw [broken (by simp [read]),serveFault shown read]
      exact .inr ⟨e,rfl⟩
    | frame f t =>
      rw [firstTerminalFrame (d.codec.grammar read),serveFrame shown read]
      split
      · exact rfl
      · split
        · exact rfl
        · exact ih t.bytes.length (long ▸ codecShrinks read) t _ rfl

theorem reportTells (d : Door) (sync : d.codec = syncCodec) (s : Socket) :
    told d (firstTerminal s.bytes) (report d s) := serveTells d sync s _

def reads (f : Frame) : Nat := if f.payload = [] then 1 else 2

def readsTo (raw : Bytes) : Nat :=
  match _found : head maxFrameLen raw with
  | .frame f rest => reads f + if f.ftype = frameExit ∨ f.ftype = frameError then 0 else readsTo rest
  | _ => 0
termination_by raw.length
decreasing_by
  have := (headFrame _found).2
  omega

def Struck (s : Socket) : Prop := ∃ e, s.ending = .osError e ∧ 0 ∈ s.cuts.take (readsTo s.bytes)

section Struck
variable {s : Socket} {f : Frame} {rest : Bytes}

theorem readsToFrame (h : head maxFrameLen s.bytes = .frame f rest) :
    readsTo s.bytes = reads f + if f.ftype = frameExit ∨ f.ftype = frameError then 0 else readsTo rest := by
  rw [readsTo]
  split
  · rename_i g tail found
    rw [h] at found
    cases found
    rfl
  · rename_i other
    exact absurd h (other f rest)

theorem zeroFirst (cuts : List Nat) : 0 ∈ cuts.take 1 ↔ cuts.head? = some 0 := by
  cases cuts <;> simp [eq_comm]

theorem zeroEither (cuts : List Nat) : 0 ∈ cuts.take 2 ↔ cuts.head? = some 0 ∨ cuts.tail.head? = some 0 := by
  cases cuts with
  | nil => simp
  | cons n cuts => cases cuts <;> simp [eq_comm]

theorem sshHeader (h : head maxFrameLen s.bytes = .frame f rest) (clear : s.ending = .eof ∨ s.cuts.head? ≠ some 0) :
    sshReadFrame s = if f.payload = [] then .frame f ⟨rest,s.cuts.tail,s.ending⟩
      else match readexactly f.payload.length ⟨f.payload ++ rest,s.cuts.tail,s.ending⟩ with
        | .none => .raised (.command "connection closed mid-frame")
        | .raised e => .raised e
        | .data payload s => .frame ⟨f.ftype,payload⟩ s := by
  obtain ⟨small,total⟩ := headFrame h
  have packs : f.payload.length < 2^32 := Nat.lt_of_le_of_lt small (by decide)
  have shape : s.bytes = f.ftype::be32 f.payload.length ++ (f.payload ++ rest) := by
    rw [headEncode h,encode]
    simp
  have got : asyncExactly.read 5 s = .data (f.ftype::be32 f.payload.length) ⟨f.payload ++ rest,s.cuts.tail,s.ending⟩ := by
    have read : readexactly 5 s = .data (s.bytes.take 5) ⟨s.bytes.drop 5,s.cuts.tail,s.ending⟩ :=
      readexactlyData clear (by omega)
    rw [shape] at read
    exact read
  have length := fromBe32Be32 packs
  have within : ¬ f.payload.length > maxFrameLen := Nat.not_lt.mpr small
  simp only [sshReadFrame,readFrameBy,got,be32,List.getD_cons_zero,List.getD_cons_succ,length,if_neg within,
    List.length_eq_zero_iff]
  split
  · rename_i none
    obtain ⟨ftype,payload⟩ := f
    cases none
    rfl
  · rfl

theorem sshFrameStruck {e : String} (h : head maxFrameLen s.bytes = .frame f rest) (fails : s.ending = .osError e)
    (struck : 0 ∈ s.cuts.take (reads f)) : sshReadFrame s = .raised (.os e) := by
  by_cases now : s.cuts.head? = some 0
  · have raised : asyncExactly.read 5 s = .raised (.os e) := readexactlyStored fails now
    simp only [sshReadFrame,readFrameBy,raised]
  · rw [sshHeader h (.inr now)]
    unfold reads at struck
    split at struck
    · exact absurd ((zeroFirst _).mp struck) now
    · rename_i more
      have later : s.cuts.tail.head? = some 0 := ((zeroEither _).mp struck).resolve_left now
      have raised : readexactly f.payload.length ⟨f.payload ++ rest,s.cuts.tail,s.ending⟩ = .raised (.os e) :=
        readexactlyStored fails later
      rw [if_neg more,raised]

theorem sshFrameClear (h : head maxFrameLen s.bytes = .frame f rest) (clear : s.ending = .eof ∨ 0 ∉ s.cuts.take (reads f)) :
    sshReadFrame s = .frame f ⟨rest,s.cuts.drop (reads f),s.ending⟩ := by
  unfold reads at clear ⊢
  split at clear
  · rename_i none
    rw [zeroFirst] at clear
    rw [sshHeader h clear,if_pos none,if_pos none,List.drop_one]
  · rename_i more
    rw [zeroEither,not_or] at clear
    have enough : f.payload.length ≤ (f.payload ++ rest).length := by simp
    have read : readexactly f.payload.length ⟨f.payload ++ rest,s.cuts.tail,s.ending⟩ = _ :=
      readexactlyData (clear.imp_right And.right) enough
    rw [sshHeader h (clear.imp_right And.left),if_neg more,if_neg more,read]
    simp [← List.drop_one]

def Hit (s : Socket) (f : Frame) : Prop := ∃ e, s.ending = .osError e ∧ 0 ∈ s.cuts.take (reads f)

theorem hitClear (miss : ¬ Hit s f) : s.ending = .eof ∨ 0 ∉ s.cuts.take (reads f) := by
  cases ending : s.ending with
  | eof => exact .inl rfl
  | osError e => exact .inr fun inside => miss ⟨e,ending,inside⟩

theorem struckFrame (h : head maxFrameLen s.bytes = .frame f rest) : Struck s ↔
    Hit s f ∨ ¬ (f.ftype = frameExit ∨ f.ftype = frameError) ∧ Struck ⟨rest,s.cuts.drop (reads f),s.ending⟩ := by
  unfold Struck Hit
  rw [readsToFrame h]
  split
  · rename_i terminal
    simp [terminal]
  · rename_i other
    simp only [List.take_add,List.mem_append,and_or_left,exists_or,other,not_false_eq_true,true_and]

theorem struckStops (none : ∀ f rest, head maxFrameLen s.bytes ≠ .frame f rest) : ¬ Struck s := by
  intro ⟨e,_,inside⟩
  rw [readsTo] at inside
  split at inside
  · rename_i f rest found
    exact none f rest found
  · simp at inside

end Struck

def ZeroExit (j : Json) (raw : Bytes) : Prop :=
  ∃ payload fields, firstTerminal raw = .exit payload ∧ j.loads payload = .object fields ∧
    (fields "code").bind Value.asInt = some 0

def ZeroCoded (j : Json) (payload : Bytes) : Prop :=
  ∃ fields, j.loads payload = .object fields ∧ (fields "code").bind Value.asInt = some 0

theorem zeroExit {j : Json} {raw payload : Bytes} (stop : firstTerminal raw = .exit payload) :
    ZeroExit j raw ↔ ZeroCoded j payload := by
  constructor
  · intro ⟨other,fields,found,rest⟩
    cases stop.symm.trans found
    exact ⟨fields,rest⟩
  · intro ⟨fields,rest⟩
    exact ⟨payload,fields,stop,rest⟩

def Fails (r : Report) : Prop := (∃ msg, r = .raised msg) ∨ ∃ code, r = .status code ∧ code ≠ 0

def Truthful (j : Json) (unixSocket : String) (wantPty : Bool) (s : Socket) : Prop :=
  (∀ d ∈ [collectResult j,runShell j unixSocket,pumpOutbound j wantPty], report d s = .status 0 → ZeroExit j s.bytes) ∧
  ∀ msg, report (collectResult j) s = .raised msg →
    Fails (report (runShell j unixSocket) s) ∧ Fails (report (pumpOutbound j wantPty) s)

def Coded (j : Json) (payload : Bytes) : Prop :=
  ∃ fields code, j.loads payload = .object fields ∧ (fields "code").bind Value.asInt = some code

def Worded (j : Json) (payload : Bytes) : Prop := ∃ fields, j.loads payload = .object fields ∧ messageEncodes fields = true

def Crashes (j : Json) (payload : Bytes) : Prop := ∃ e, j.loads payload = .crash e

/- The pump is told of no error before the terminal frame, or would say 0 anyway: its status is
the guest's own. -/
def Settled (j : Json) (s : Socket) : Prop :=
  match firstTerminal s.bytes with
  | .exit payload => ZeroCoded j payload ∨ (Coded j payload ∨ Crashes j payload) ∧ ¬ Struck s
  | .error payload => (payload = [] ∨ Worded j payload ∨ Crashes j payload) ∧ ¬ Struck s
  | .broken => False

section Doors
variable {j : Json} {unixSocket : String} {wantPty : Bool} {s : Socket} {payload : Bytes}

theorem pumpStruck (s : Socket) (shown : Shown) (struck : Struck s) : (serve (pumpOutbound j wantPty) s shown).1 = .status 0 := by
  induction long : s.bytes.length using Nat.strongRecOn generalizing s shown with
  | ind n ih =>
    by_cases found : ∃ f rest, head maxFrameLen s.bytes = .frame f rest
    · obtain ⟨f,rest,found⟩ := found
      by_cases hit : Hit s f
      · obtain ⟨e,fails,inside⟩ := hit
        have read : (pumpOutbound j wantPty).codec.read s = .raised (.os e) := sshFrameStruck found fails inside
        rw [serveFault shown read]
        rfl
      · obtain ⟨other,later⟩ := ((struckFrame found).mp struck).resolve_left hit
        obtain ⟨exit,error⟩ := not_or.mp other
        have read : (pumpOutbound j wantPty).codec.read s = .frame f ⟨rest,s.cuts.drop (reads f),s.ending⟩ :=
          sshFrameClear found (hitClear hit)
        rw [serveFrame shown read,if_neg exit,if_neg error]
        exact ih rest.length (long ▸ codecShrinks read) _ _ later rfl
    · exact absurd struck (struckStops fun f rest same => found ⟨f,rest,same⟩)

theorem pumpTells (s : Socket) (shown : Shown) (clear : ¬ Struck s) :
    told (pumpOutbound j wantPty) (firstTerminal s.bytes) (serve (pumpOutbound j wantPty) s shown).1 := by
  induction long : s.bytes.length using Nat.strongRecOn generalizing s shown with
  | ind n ih =>
    by_cases found : ∃ f rest, head maxFrameLen s.bytes = .frame f rest
    · obtain ⟨f,rest,found⟩ := found
      rw [struckFrame found,not_or] at clear
      have read : (pumpOutbound j wantPty).codec.read s = .frame f ⟨rest,s.cuts.drop (reads f),s.ending⟩ :=
        sshFrameClear found (hitClear clear.1)
      rw [firstTerminalFrame found,serveFrame shown read]
      split
      · exact rfl
      · rename_i exit
        split
        · exact rfl
        · rename_i error
          exact ih rest.length (long ▸ codecShrinks read) _ _ (fun later => clear.2 ⟨not_or.mpr ⟨exit,error⟩,later⟩) rfl
    · rw [firstTerminalBroken (fun f rest same => found ⟨f,rest,same⟩)]
      cases read : (pumpOutbound j wantPty).codec.read s with
      | none =>
        rw [serveEnd shown read]
        exact .inl rfl
      | raised e =>
        rw [serveFault shown read]
        exact .inr ⟨e,rfl⟩
      | frame f t => exact absurd ⟨f,t.bytes,(pumpOutbound j wantPty).codec.grammar read⟩ found

theorem brokenLies (stop : firstTerminal s.bytes = .broken) : ¬ Truthful j unixSocket wantPty s := by
  intro truthful
  have zero : report (pumpOutbound j wantPty) s = .status 0 := by
    by_cases struck : Struck s
    · exact pumpStruck s _ struck
    · have tells := @pumpTells j wantPty s ⟨[],[]⟩ struck
      rw [stop] at tells
      rcases tells with ended | ⟨e,fault⟩
      · exact ended
      · exact fault
  obtain ⟨payload,fields,found,_⟩ := truthful.1 (pumpOutbound j wantPty) (by simp) zero
  rw [stop] at found
  cases found

theorem loadsNonempty {fields : String → Option Value} (h : j.loads payload = .object fields) : payload ≠ [] := by
  intro none
  obtain ⟨e,invalid⟩ := j.loadsEmpty
  rw [none,invalid] at h
  cases h

theorem crashNonempty (h : Crashes j payload) : payload ≠ [] := by
  intro none
  obtain ⟨e,invalid⟩ := j.loadsEmpty
  obtain ⟨text,crash⟩ := h
  rw [none,invalid] at crash
  cases crash

theorem exitReports (stop : firstTerminal s.bytes = .exit payload) (d : Door) (sync : d.codec = syncCodec) :
    report d s = d.onExit payload := by
  have tells := reportTells d sync s
  rwa [stop] at tells

theorem errorReports (stop : firstTerminal s.bytes = .error payload) (d : Door) (sync : d.codec = syncCodec) :
    report d s = d.onError payload := by
  have tells := reportTells d sync s
  rwa [stop] at tells

theorem pumpExit (stop : firstTerminal s.bytes = .exit payload) (clear : ¬ Struck s) :
    report (pumpOutbound j wantPty) s = (pumpOutbound j wantPty).onExit payload := by
  have tells := @pumpTells j wantPty s ⟨[],[]⟩ clear
  rwa [stop] at tells

theorem pumpError (stop : firstTerminal s.bytes = .error payload) (clear : ¬ Struck s) :
    report (pumpOutbound j wantPty) s = (pumpOutbound j wantPty).onError payload := by
  have tells := @pumpTells j wantPty s ⟨[],[]⟩ clear
  rwa [stop] at tells

theorem codedReports (unixSocket : String) (wantPty : Bool) {fields : String → Option Value} {code : Int}
    (loaded : j.loads payload = .object fields) (int : (fields "code").bind Value.asInt = some code) :
    (collectResult j).onExit payload = .status code ∧ (runShell j unixSocket).onExit payload = .status code ∧
      (pumpOutbound j wantPty).onExit payload = .status code := by
  have full : orBraces payload = payload := by simp [orBraces,loadsNonempty loaded]
  obtain ⟨v,have_,same⟩ := Option.bind_eq_some_iff.mp int
  simp [collectResult,runShell,pumpOutbound,parseJson,loaded,full,have_,same]

theorem crashReports (unixSocket : String) (wantPty : Bool) {text : String} (loaded : j.loads payload = .crash text)
    (full : orBraces payload = payload) :
    ((collectResult j).onExit payload = .crashed text ∧ (runShell j unixSocket).onExit payload = .crashed text ∧
      (pumpOutbound j wantPty).onExit payload = .crashed text) ∧
    (collectResult j).onError payload = .crashed text ∧ (runShell j unixSocket).onError payload = .crashed text ∧
      (pumpOutbound j wantPty).onError payload = .crashed text := by
  simp [collectResult,runShell,pumpOutbound,parseJson,loaded,full]

theorem orBracesFull (full : payload ≠ []) : orBraces payload = payload := by simp [orBraces,full]

theorem uncodedZero (wantPty : Bool) (uncoded : ¬ Coded j payload) (calm : ¬ Crashes j payload) :
    (pumpOutbound j wantPty).onExit payload = .status 0 := by
  by_cases none : payload = []
  · simp [pumpOutbound,parseJson,orBraces,none,j.loadsBraces,Value.asInt]
  simp only [pumpOutbound,orBracesFull none]
  cases loaded : j.loads payload with
  | object fields =>
    simp only [parseJson,loaded]
    cases code : fields "code" with
    | none => rfl
    | some v =>
      cases int : v.asInt with
      | none => simp [int]
      | some n => exact absurd ⟨fields,n,loaded,by simp [code,int]⟩ uncoded
  | notObject => simp only [parseJson,loaded]
  | invalid e => simp only [parseJson,loaded]
  | crash e => exact absurd ⟨e,loaded⟩ calm

theorem exitTruthful (stop : firstTerminal s.bytes = .exit payload) :
    Truthful j unixSocket wantPty s ↔ ZeroCoded j payload ∨ (Coded j payload ∨ Crashes j payload) ∧ ¬ Struck s := by
  have collected := exitReports stop (collectResult j) rfl
  have returned := exitReports stop (runShell j unixSocket) rfl
  constructor
  · intro truthful
    refine or_iff_not_imp_left.mpr ?_
    intro nonzero
    have unsaid : report (pumpOutbound j wantPty) s ≠ .status 0 :=
      fun zero => nonzero ((zeroExit stop).mp (truthful.1 (pumpOutbound j wantPty) (by simp) zero))
    have clear : ¬ Struck s := fun struck => unsaid (pumpStruck s _ struck)
    refine ⟨?_,clear⟩
    by_contra unsettled
    simp only [not_or] at unsettled
    exact unsaid ((pumpExit stop clear).trans (uncodedZero wantPty unsettled.1 unsettled.2))
  · intro settled
    rcases settled with zero | ⟨⟨fields,code,loaded,int⟩ | crash,clear⟩
    · refine ⟨fun _ _ _ => (zeroExit stop).mpr zero,?_⟩
      obtain ⟨fields,loaded,int⟩ := zero
      rw [collected,(codedReports unixSocket wantPty loaded int).1]
      simp
    · obtain ⟨collect,shell,ssh⟩ := codedReports unixSocket wantPty loaded int
      have zero : Report.status code = .status 0 → ZeroExit j s.bytes := by
        intro same
        cases same
        exact ⟨payload,fields,stop,loaded,int⟩
      unfold Truthful
      simp only [List.forall_mem_cons]
      rw [collected,returned,pumpExit stop clear,collect,shell,ssh]
      exact ⟨⟨zero,zero,zero,by simp⟩,by simp⟩
    · have full := orBracesFull (crashNonempty crash)
      obtain ⟨text,loaded⟩ := crash
      obtain ⟨⟨collect,shell,ssh⟩,_⟩ := crashReports unixSocket wantPty loaded full
      unfold Truthful
      simp only [List.forall_mem_cons]
      rw [collected,returned,pumpExit stop clear,collect,shell,ssh]
      simp

theorem unreadableZero (wantPty : Bool) (none : payload ≠ []) (object : ∀ fields, j.loads payload ≠ .object fields)
    (calm : ¬ Crashes j payload) : (pumpOutbound j wantPty).onError payload = .status 0 := by
  simp only [pumpOutbound,orBracesFull none]
  cases loaded : j.loads payload with
  | object fields => exact absurd loaded (object fields)
  | notObject => simp only [parseJson,loaded]
  | invalid e => simp only [parseJson,loaded]
  | crash e => exact absurd ⟨e,loaded⟩ calm

theorem unwordedCrashes (wantPty : Bool) {fields : String → Option Value}
    (loaded : j.loads payload = .object fields) (unworded : messageEncodes fields = false) :
    (∃ msg, (collectResult j).onError payload = .raised msg) ∧ ¬ Fails ((pumpOutbound j wantPty).onError payload) := by
  have full := orBracesFull (loadsNonempty loaded)
  constructor
  · simp [collectResult,parseJson,loaded]
  · simp [pumpOutbound,parseJson,full,loaded,unworded,Fails]

theorem errorTruthful (stop : firstTerminal s.bytes = .error payload) : Truthful j unixSocket wantPty s ↔
    (payload = [] ∨ Worded j payload ∨ Crashes j payload) ∧ ¬ Struck s := by
  have collected := errorReports stop (collectResult j) rfl
  have returned := errorReports stop (runShell j unixSocket) rfl
  constructor
  · intro truthful
    have unsaid : report (pumpOutbound j wantPty) s ≠ .status 0 := by
      intro zero
      obtain ⟨other,fields,found,_⟩ := truthful.1 (pumpOutbound j wantPty) (by simp) zero
      rw [stop] at found
      cases found
    have clear : ¬ Struck s := fun struck => unsaid (pumpStruck s _ struck)
    have pumped : report (pumpOutbound j wantPty) s = _ := pumpError stop clear
    refine ⟨?_,clear⟩
    by_contra unsettled
    simp only [not_or] at unsettled
    obtain ⟨some,unworded,calm⟩ := unsettled
    by_cases object : ∃ fields, j.loads payload = .object fields
    · obtain ⟨fields,loaded⟩ := object
      have mute : messageEncodes fields = false := by simpa using fun worded => unworded ⟨fields,loaded,worded⟩
      obtain ⟨⟨msg,raised⟩,passes⟩ := unwordedCrashes wantPty loaded mute
      exact passes (pumped ▸ (truthful.2 msg (collected.trans raised)).2)
    · exact unsaid (pumped.trans (unreadableZero wantPty some (fun fields same => object ⟨fields,same⟩) calm))
  · intro ⟨settled,clear⟩
    unfold Truthful
    simp only [List.forall_mem_cons]
    rw [collected,returned,pumpError stop clear]
    rcases settled with rfl | ⟨fields,loaded,worded⟩ | crash
    · obtain ⟨e,invalid⟩ := j.loadsEmpty
      simp [collectResult,runShell,pumpOutbound,parseJson,orBraces,invalid,j.loadsBraces,messageEncodes,Fails]
    · have full := orBracesFull (loadsNonempty loaded)
      simp [collectResult,runShell,pumpOutbound,parseJson,full,loaded,worded,Fails]
    · have full := orBracesFull (crashNonempty crash)
      obtain ⟨text,loaded⟩ := crash
      obtain ⟨_,collect,shell,ssh⟩ := crashReports unixSocket wantPty loaded full
      rw [collect,shell,ssh]
      simp

theorem doorsTruthful (j : Json) (unixSocket : String) (wantPty : Bool) (s : Socket) :
    Truthful j unixSocket wantPty s ↔ Settled j s := by
  unfold Settled
  cases stop : firstTerminal s.bytes with
  | exit payload => exact exitTruthful stop
  | error payload => exact errorTruthful stop
  | broken => exact iff_of_false (brokenLies stop) id

end Doors

theorem endReports {s : Socket} (d : Door) (h : d.codec.read s = .none) : report d s = d.onEnd := by
  rw [report,serveEnd _ h]

def plainJson : Json where
  loads raw := if raw = [123,125] then .object (fun _ => none) else .invalid "Expecting value: line 1 column 1 (char 0)"
  loadsEmpty := ⟨_,rfl⟩
  loadsBraces := rfl

def closedEarly : Socket := ⟨[],[],.eof⟩

theorem closedEarlyRead : readFrame closedEarly = .none ∧ sshReadFrame closedEarly = .none := by
  have short : recvMore 5 [] closedEarly = torn ([] ++ closedEarly.bytes) closedEarly.ending := recvMoreShort (by decide)
  constructor
  · simp only [readFrame,readFrameBy,syncExactly,recvExact,short]
    rfl
  · rfl

theorem closedEarlySucceeds :
    report (runShell plainJson "/tmp/vsocket") closedEarly = .status 0 ∧
    report (pumpOutbound plainJson false) closedEarly = .status 0 ∧
    report (collectResult plainJson) closedEarly = .raised "Guest command closed without an EXIT frame" ∧
    ¬ Truthful plainJson "/tmp/vsocket" false closedEarly := by
  have broken : firstTerminal closedEarly.bytes = .broken := by
    rw [firstTerminal]
    rfl
  exact ⟨endReports _ closedEarlyRead.1,endReports _ closedEarlyRead.2,endReports _ closedEarlyRead.1,
    brokenLies broken⟩

end Guesthopper.ClientDoors
