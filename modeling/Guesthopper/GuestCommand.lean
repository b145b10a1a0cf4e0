import Guesthopper.ControlPayloads
import Guesthopper.GuestJson

/-! One command over an open socket: the handshake line, the request, and the frames up to the
EXIT. `idles` says how often `select` times out before each frame; every timeout writes a
PING. Writing to the guest is taken to succeed. -/
namespace Guesthopper.GuestCommand
open FrameBytes ClientStream ClientDoors

def lineLimit : Nat := 4096

-- One byte at a time, so that nothing after the newline is taken.
def recvLine : Nat → Socket → Except Fault (Bytes × Socket)
  | 0,s => .ok ([],s)
  | n+1,s => match recv 1 s with
    | .closed => .ok ([],s)
    | .failed e => .error (.os e)
    | .chunk raw t =>
      if raw = [10] then .ok (raw,t)
      else match recvLine n t with
        | .ok (rest,t) => .ok (raw ++ rest,t)
        | .error e => .error e

-- What `str.strip` takes for whitespace.
def space (c : Char) : Bool :=
  let n := c.toNat
  (9 ≤ n ∧ n ≤ 13) ∨ (28 ≤ n ∧ n ≤ 32) ∨ n = 0x85 ∨ n = 0xA0 ∨ n = 0x1680 ∨ (0x2000 ≤ n ∧ n ≤ 0x200A) ∨
    n = 0x2028 ∨ n = 0x2029 ∨ n = 0x202F ∨ n = 0x205F ∨ n = 0x3000

def strip (cs : List Char) : List Char := ((cs.dropWhile space).reverse.dropWhile space).reverse

def okResponse (port : Int) : List Char := "OK ".toList ++ (toString port).toList

def okLine (port : Int) : Bytes := SessionText.utf8 (okResponse port ++ ['\n'])

structure Result where
  stdout : List Char
  stderr : List Char
  exitCode : Value
  reason : Option Value
  deriving DecidableEq, Repr

-- `crashed` is an exception that is not a GuestCommandError.
inductive Outcome where
  | returned (r : Result)
  | raised (msg : String)
  | unexpected (expected response : List Char)
  | crashed (text : String)
  deriving DecidableEq, Repr

def onExit (j : Json) (payload : Bytes) (shown : Shown) : Outcome :=
  match parseJson j payload with
  | .ok fields => match fields "code" with
    | some code =>
      if code.asInt.isSome then
        .returned ⟨LossyText.decode shown.out,LossyText.decode shown.err,code,fields "reason"⟩
      else .raised "EXIT frame missing integer 'code'"
    | none => .raised "EXIT frame missing integer 'code'"
  | .error msg => .raised msg
  | .crash e => .crashed e

def onError (j : Json) (payload : Bytes) : Outcome :=
  match parseJson j payload with
  | .ok fields => .raised ("Guest agent error: " ++ messageText fields)
  | .error msg => .raised msg
  | .crash e => .crashed e

def pings (idles : List Nat) : List Frame := List.replicate (idles.headD 0) ⟨framePing,[]⟩

def collectResult (j : Json) (idles : List Nat) (s : Socket) (shown : Shown) : Outcome × List Frame :=
  match _found : readFrame s with
  | .none => (.raised "Guest command closed without an EXIT frame",pings idles)
  | .raised (.command msg) => (.raised msg,pings idles)
  | .raised (.os e) => (.raised ("Failed while running guest command: " ++ e),pings idles)
  | .frame f t =>
    if f.ftype = frameExit then (onExit j f.payload shown,pings idles)
    else if f.ftype = frameError then (onError j f.payload,pings idles)
    else
      let shown := if f.ftype = frameStdout then {shown with out := shown.out ++ f.payload}
        else if f.ftype = frameStderr then {shown with err := shown.err ++ f.payload}
        else shown
      let (outcome,wrote) := collectResult j idles.tail t shown
      (outcome,pings idles ++ wrote)
termination_by s.bytes.length
decreasing_by
  have found : syncCodec.read s = .frame f t := _found
  exact codecShrinks found

structure Ran where
  outcome : Outcome
  connect : Bytes
  frames : List Frame

def runGuestWithSocket (j : Json) (port : Int) (command : ControlPayloads.PyStr)
    (deadline : Option ControlPayloads.Number) (idles : List Nat) (s : Socket) : Ran :=
  let connect := SessionText.utf8 ("CONNECT ".toList ++ (toString port).toList ++ ['\n'])
  match recvLine lineLimit s with
  | .error (.os e) => ⟨.raised s!"Failed to connect to vsock port {port}: {e}",connect,[]⟩
  | .error (.command msg) => ⟨.raised msg,connect,[]⟩
  | .ok (line,t) =>
    let response := strip (LossyText.decode line)
    if response ≠ okResponse port then ⟨.unexpected (okResponse port) response,connect,[]⟩
    else
      let request := ControlPayloads.inlineExecRequest command deadline
      let (outcome,wrote) := collectResult j idles t ⟨[],[]⟩
      ⟨outcome,connect,⟨frameRequest,request⟩::wrote⟩

theorem recvOne {s : Socket} {b : UInt8} {rest : Bytes} (shape : s.bytes = b::rest) :
    ∃ t, recv 1 s = .chunk [b] t ∧ t.bytes = rest ∧ t.ending = s.ending := by
  obtain ⟨raw,t,got⟩ := @recvSome 1 s (by simp [shape])
  obtain ⟨positive,small,whole,ending⟩ := recvChunk got (by decide)
  obtain ⟨c,rfl⟩ := List.length_eq_one_iff.mp (Nat.le_antisymm small positive)
  rw [shape] at whole
  obtain ⟨same,later⟩ := List.cons.inj whole
  exact ⟨t,same ▸ got,later.symm,ending⟩

theorem recvLineText {n : Nat} {s : Socket} {line raw : Bytes} (room : line.length < n)
    (inside : ∀ b ∈ line, b ≠ 10) (shape : s.bytes = line ++ 10::raw) :
    ∃ t, recvLine n s = .ok (line ++ [10],t) ∧ t.bytes = raw ∧ t.ending = s.ending := by
  induction line generalizing n s with
  | nil =>
    cases n with
    | zero => exact absurd room (Nat.not_lt_zero _)
    | succ n =>
      obtain ⟨t,got,bytes,ending⟩ := recvOne shape
      refine ⟨t,?_,bytes,ending⟩
      rw [recvLine,got]
      rfl
  | cons b line ih =>
    cases n with
    | zero => exact absurd room (Nat.not_lt_zero _)
    | succ n =>
      obtain ⟨first,later⟩ := List.forall_mem_cons.mp inside
      obtain ⟨mid,got,bytes,ending⟩ := recvOne shape
      obtain ⟨t,read,after,last⟩ := ih (Nat.lt_of_succ_lt_succ room) later bytes
      refine ⟨t,?_,after,last.trans ending⟩
      have other : [b] ≠ [10] := fun same => first (List.cons.inj same).1
      rw [recvLine,got]
      simp only [if_neg other,read]
      rfl

section Port
variable {port : Int}

theorem portChars {c : Char} (known : c ∈ (toString port).toList) : c = '-' ∨ 48 ≤ c.toNat ∧ c.toNat ≤ 57 := by
  have digits : ∀ n : Nat, c ∈ (toString n).toList → 48 ≤ c.toNat ∧ c.toNat ≤ 57 := by
    intro n known
    have text : (toString n).toList = Nat.toDigits 10 n := Nat.toList_repr
    rw [text] at known
    exact ControlPayloads.digitRange known
  cases port with
  | ofNat n => exact .inr (digits n known)
  | negSucc n =>
    have shape : toString (Int.negSucc n) = "-" ++ toString (n + 1) := rfl
    rw [shape,String.toList_append] at known
    rcases List.mem_append.mp known with sign | digit
    · exact .inl (by simpa using sign)
    · exact .inr (digits (n + 1) digit)

theorem portFull : (toString port).toList ≠ [] := by
  cases port with
  | ofNat n =>
    have text : (toString (Int.ofNat n)).toList = Nat.toDigits 10 n := Nat.toList_repr
    rw [text]
    exact Nat.toDigits_ne_nil
  | negSucc n =>
    have shape : toString (Int.negSucc n) = "-" ++ toString (n + 1) := rfl
    rw [shape,String.toList_append]
    simp

theorem okChars {c : Char} (known : c ∈ okResponse port) : c.toNat < 128 ∧ c.toNat ≠ 10 := by
  rcases List.mem_append.mp known with word | digit
  · have few : c = 'O' ∨ c = 'K' ∨ c = ' ' := by simpa using word
    rcases few with rfl | rfl | rfl <;> decide
  · rcases portChars digit with rfl | range
    · decide
    · omega

theorem digitSolid {c : Char} (known : c ∈ (toString port).toList) : space c = false := by
  rcases portChars known with rfl | range
  · rfl
  · simp only [space,decide_eq_false_iff_not]
    omega

theorem dropNone {p : Char → Bool} {c : Char} {cs : List Char} (stays : p c = false) : (c::cs).dropWhile p = c::cs := by
  simp [stays]

theorem stripOk : strip (okResponse port ++ ['\n']) = okResponse port := by
  have front : (okResponse port ++ ['\n']).dropWhile space = okResponse port ++ ['\n'] := dropNone rfl
  have back : (okResponse port).reverse.dropWhile space = (okResponse port).reverse := by
    rw [okResponse,List.reverse_append]
    cases digits : (toString port).toList.reverse with
    | nil => exact absurd (List.reverse_eq_nil_iff.mp digits) portFull
    | cons c cs =>
      have known : c ∈ (toString port).toList := by
        rw [← List.mem_reverse,digits]
        exact List.mem_cons_self
      exact dropNone (digitSolid known)
  rw [strip,front,List.reverse_append,List.reverse_singleton,List.singleton_append,List.dropWhile_cons,
    if_pos (show space '\n' = true from rfl),back,List.reverse_reverse]

theorem okLineShape : okLine port = (okResponse port).map (fun c => UInt8.ofNat c.toNat) ++ [10] := by
  have ascii : ∀ c ∈ okResponse port ++ ['\n'], c.toNat < 128 := by
    refine List.forall_mem_append.mpr ⟨fun c known => (okChars known).1,?_⟩
    intro c known
    cases List.mem_singleton.mp known
    decide
  rw [okLine,ControlPayloads.asciiUtf8 ascii,List.map_append]
  rfl

theorem okLineDecodes : LossyText.decode (okLine port) = okResponse port ++ ['\n'] :=
  LossyText.decodeEncoded (okResponse port ++ ['\n'])

theorem handshakeReads {s : Socket} {raw : Bytes} (fits : (okLine port).length ≤ lineLimit)
    (shape : s.bytes = okLine port ++ raw) :
    ∃ t, recvLine lineLimit s = .ok (okLine port,t) ∧ t.bytes = raw ∧ t.ending = s.ending := by
  rw [okLineShape] at shape fits ⊢
  refine recvLineText ?_ ?_ (by rw [shape,List.append_assoc]; rfl)
  · rw [List.length_append,List.length_singleton] at fits
    exact fits
  · intro b known is
    obtain ⟨c,present,rfl⟩ := List.mem_map.mp known
    obtain ⟨ascii,other⟩ := okChars present
    have same : (UInt8.ofNat c.toNat).toNat = c.toNat := by rw [UInt8.toNat_ofNat',Nat.mod_eq_of_lt (by omega)]
    rw [is] at same
    exact other same.symm

end Port

theorem portFits {port : Nat} (bound : port < 2^32) : (okLine port).length ≤ lineLimit := by
  have text : (toString (port : Int)).toList = Nat.toDigits 10 port := Nat.toList_repr
  have short : (Nat.toDigits 10 port).length ≤ 10 :=
    (Nat.length_toDigits_le_iff (by decide) (by decide)).mpr (Nat.lt_trans bound (by decide))
  rw [okLineShape,okResponse,text]
  simp only [List.length_append,List.length_map,List.length_singleton]
  have word : "OK ".toList.length = 3 := rfl
  unfold lineLimit
  omega

def output (t : UInt8) (fs : List Frame) : Bytes := (fs.filter (fun f => f.ftype = t)).flatMap Frame.payload

def Terminal (f : Frame) : Prop := f.ftype = frameExit ∨ f.ftype = frameError

instance (f : Frame) : Decidable (Terminal f) := inferInstanceAs (Decidable (_ ∨ _))

section Collect
variable {j : Json} {idles : List Nat} {s : Socket} {shown : Shown} {f : Frame} {before after : List Frame}

def seen (shown : Shown) (before : List Frame) : Shown :=
  ⟨shown.out ++ output frameStdout before,shown.err ++ output frameStderr before⟩

theorem seenNone : seen shown [] = shown := by simp [seen,output]

theorem seenOne : seen shown [f] = if f.ftype = frameStdout then {shown with out := shown.out ++ f.payload}
    else if f.ftype = frameStderr then {shown with err := shown.err ++ f.payload} else shown := by
  by_cases out : f.ftype = frameStdout
  · simp [seen,output,out,frameStdout,frameStderr]
  · by_cases err : f.ftype = frameStderr
    · simp [seen,output,err,frameStdout,frameStderr]
    · simp [seen,output,out,err]

theorem seenCons : seen shown (f::before) = seen (seen shown [f]) before := by
  have both : ∀ t, output t (f::before) = output t [f] ++ output t before := by
    intro t
    have shape : f::before = [f] ++ before := rfl
    rw [shape,output,List.filter_append,List.flatMap_append]
    rfl
  simp only [seen,both,List.append_assoc]

theorem readsNext (decoded : decodeAll maxFrameLen s.bytes = f::after) :
    ∃ t, readFrame s = .frame f t ∧ decodeAll maxFrameLen t.bytes = after := by
  obtain ⟨rest,found,later⟩ := decodeAllCons decoded
  obtain ⟨t,read,bytes,_⟩ := @readFrameByFrame syncExactly "connection closed before frame payload" s f rest trivial found
  exact ⟨t,read,by rw [bytes]; exact later⟩

theorem collectFrame {t : Socket} (read : readFrame s = .frame f t) : (collectResult j idles s shown).1 =
    if f.ftype = frameExit then onExit j f.payload shown
    else if f.ftype = frameError then onError j f.payload
    else (collectResult j idles.tail t (seen shown [f])).1 := by
  rw [collectResult]
  split <;> rename_i found <;> cases read.symm.trans found
  rw [seenOne]
  split
  · rfl
  · split <;> rfl

theorem collectTerminal (decoded : decodeAll maxFrameLen s.bytes = before ++ f::after)
    (quiet : ∀ g ∈ before, ¬ Terminal g) (terminal : Terminal f) : (collectResult j idles s shown).1 =
      if f.ftype = frameExit then onExit j f.payload (seen shown before) else onError j f.payload := by
  induction before generalizing s shown idles with
  | nil =>
    obtain ⟨t,read,_⟩ := readsNext decoded
    rw [collectFrame read,seenNone]
    split
    · rfl
    · rename_i exit
      exact if_pos (terminal.resolve_left exit)
  | cons g before ih =>
    obtain ⟨t,read,later⟩ := readsNext decoded
    obtain ⟨first,others⟩ := List.forall_mem_cons.mp quiet
    obtain ⟨exit,error⟩ := not_or.mp first
    rw [collectFrame read,if_neg exit,if_neg error,ih later others,← seenCons]

theorem collectStops (stuck : ∀ f t, readFrame s ≠ .frame f t) :
    ∃ msg, (collectResult j idles s shown).1 = .raised msg := by
  rw [collectResult]
  split
  · exact ⟨_,rfl⟩
  · exact ⟨_,rfl⟩
  · exact ⟨_,rfl⟩
  · rename_i f t read
    exact absurd read (stuck f t)

theorem collectEndless {fs : List Frame} (decoded : decodeAll maxFrameLen s.bytes = fs)
    (quiet : ∀ g ∈ fs, ¬ Terminal g) : ∃ msg, (collectResult j idles s shown).1 = .raised msg := by
  induction fs generalizing s shown idles with
  | nil =>
    refine collectStops ?_
    intro f t read
    rw [decodeAllFrame (readFrameByGrammar read).1] at decoded
    contradiction
  | cons g fs ih =>
    obtain ⟨t,read,later⟩ := readsNext decoded
    obtain ⟨first,others⟩ := List.forall_mem_cons.mp quiet
    obtain ⟨exit,error⟩ := not_or.mp first
    rw [collectFrame read,if_neg exit,if_neg error]
    exact ih later others

end Collect

def Outcome.report : Outcome → Report
  | .returned r => .status (r.exitCode.asInt.getD 0)
  | .raised msg => .raised msg
  | .unexpected _ _ => .raised "Unexpected response from vsock unix socket"
  | .crashed text => .crashed text

theorem onExitReports (j : Json) (payload : Bytes) (shown : Shown) :
    (onExit j payload shown).report = (ClientDoors.collectResult j).onExit payload := by
  unfold onExit ClientDoors.collectResult
  dsimp only
  cases parseJson j payload with
  | error msg => rfl
  | crash e => rfl
  | ok fields =>
    dsimp only
    cases code : fields "code" with
    | none => rfl
    | some v => cases v <;> rfl

theorem onErrorReports (j : Json) (payload : Bytes) :
    (onError j payload).report = (ClientDoors.collectResult j).onError payload := by
  unfold onError ClientDoors.collectResult
  dsimp only
  cases parseJson j payload <;> rfl

theorem collectReports (j : Json) (idles : List Nat) (s : Socket) (shown : Shown) :
    (collectResult j idles s shown).1.report = (serve (ClientDoors.collectResult j) s shown).1 := by
  induction long : s.bytes.length using Nat.strongRecOn generalizing s idles shown with
  | ind n ih =>
    cases read : readFrame s with
    | frame f t =>
      have there : (ClientDoors.collectResult j).codec.read s = .frame f t := read
      have again := fun shown => ih t.bytes.length (long ▸ codecShrinks there) idles.tail t shown rfl
      rw [collectFrame read,serveFrame shown there]
      split
      · exact onExitReports j f.payload shown
      · split
        · exact onErrorReports j f.payload
        · rw [again,seenOne]
          congr 2
          simp [ClientDoors.collectResult]
    | none =>
      have there : (ClientDoors.collectResult j).codec.read s = .none := read
      rw [serveEnd shown there,collectResult]
      split <;> rename_i found <;> cases read.symm.trans found
      rfl
    | raised e =>
      have there : (ClientDoors.collectResult j).codec.read s = .raised e := read
      rw [serveFault shown there,collectResult]
      split <;> rename_i found <;> cases read.symm.trans found
      · rfl
      · rfl

def Collected (j : Json) (raw : Bytes) (r : Result) : Prop :=
  ∃ before exit after fields code, decodeAll maxFrameLen raw = before ++ exit::after ∧
    (∀ g ∈ before, ¬ Terminal g) ∧ exit.ftype = frameExit ∧ j.loads exit.payload = .object fields ∧
    fields "code" = some code ∧ code.asInt.isSome ∧
    r = ⟨LossyText.decode (output frameStdout before),LossyText.decode (output frameStderr before),code,fields "reason"⟩

theorem onErrorRaises (j : Json) (payload : Bytes) (r : Result) : onError j payload ≠ .returned r := by
  unfold onError
  split <;> simp

theorem onExitReturns {j : Json} {payload : Bytes} {shown : Shown} {r : Result} :
    onExit j payload shown = .returned r ↔ ∃ fields code, j.loads payload = .object fields ∧
      fields "code" = some code ∧ code.asInt.isSome ∧
      r = ⟨LossyText.decode shown.out,LossyText.decode shown.err,code,fields "reason"⟩ := by
  unfold onExit parseJson
  cases j.loads payload with
  | notObject | invalid e | crash e => simp
  | object fields =>
    dsimp only
    cases code : fields "code" with
    | none => simp [code]
    | some v =>
      dsimp only
      by_cases int : v.asInt.isSome
      · rw [if_pos int]
        constructor
        · intro same
          exact ⟨fields,v,rfl,code,int,(Outcome.returned.inj same).symm⟩
        · intro ⟨other,w,loads,found,_,shape⟩
          cases Loaded.object.inj loads
          cases Option.some.inj (code.symm.trans found)
          rw [shape]
      · rw [if_neg int]
        refine iff_of_false (by simp) ?_
        intro ⟨other,w,loads,found,isInt,_⟩
        cases Loaded.object.inj loads
        cases Option.some.inj (code.symm.trans found)
        exact int isInt

theorem splitTerminal (fs : List Frame) : (∀ g ∈ fs, ¬ Terminal g) ∨
    ∃ before f after, fs = before ++ f::after ∧ (∀ g ∈ before, ¬ Terminal g) ∧ Terminal f := by
  induction fs with
  | nil => exact .inl (by simp)
  | cons f fs ih =>
    by_cases terminal : Terminal f
    · exact .inr ⟨[],f,fs,rfl,by simp,terminal⟩
    · rcases ih with quiet | ⟨before,g,after,shape,quiet,last⟩
      · exact .inl (List.forall_mem_cons.mpr ⟨terminal,quiet⟩)
      · exact .inr ⟨f::before,g,after,by rw [shape]; rfl,List.forall_mem_cons.mpr ⟨terminal,quiet⟩,last⟩

theorem splitOnce {before before' after after' : List Frame} {f f' : Frame}
    (same : before ++ f::after = before' ++ f'::after') (quiet : ∀ g ∈ before, ¬ Terminal g)
    (quiet' : ∀ g ∈ before', ¬ Terminal g) (terminal : Terminal f) (terminal' : Terminal f') :
    before = before' ∧ f = f' := by
  induction before generalizing before' with
  | nil =>
    cases before' with
    | nil => exact ⟨rfl,(List.cons.inj same).1⟩
    | cons g before' => exact absurd ((List.cons.inj same).1 ▸ terminal) (quiet' g (by simp))
  | cons g before ih =>
    cases before' with
    | nil => exact absurd ((List.cons.inj same).1 ▸ terminal') (quiet g (by simp))
    | cons h before' =>
      obtain ⟨head,tail⟩ := List.cons.inj same
      obtain ⟨rest,last⟩ := ih tail (fun x known => quiet x (List.mem_cons_of_mem _ known))
        (fun x known => quiet' x (List.mem_cons_of_mem _ known))
      exact ⟨by rw [head,rest],last⟩

section Run
variable {j : Json} {port : Int} {command : ControlPayloads.PyStr} {deadline : Option ControlPayloads.Number}

theorem runCollects (idles cuts : List Nat) (ending : Ending) (raw : Bytes) (fits : (okLine port).length ≤ lineLimit) :
    ∃ t, t.bytes = raw ∧ (runGuestWithSocket j port command deadline idles ⟨okLine port ++ raw,cuts,ending⟩).outcome =
      (collectResult j idles t ⟨[],[]⟩).1 := by
  obtain ⟨t,read,bytes,_⟩ := @handshakeReads port ⟨okLine port ++ raw,cuts,ending⟩ raw fits rfl
  refine ⟨t,bytes,?_⟩
  have same : strip (LossyText.decode (okLine port)) = okResponse port := by rw [okLineDecodes,stripOk]
  unfold runGuestWithSocket
  rw [read]
  dsimp only
  rw [same,if_neg (not_not.mpr rfl)]

theorem runExits (idles cuts : List Nat) (ending : Ending) {raw : Bytes} {before after : List Frame} {exit : Frame}
    (fits : (okLine port).length ≤ lineLimit) (decoded : decodeAll maxFrameLen raw = before ++ exit::after)
    (quiet : ∀ g ∈ before, ¬ Terminal g) (last : exit.ftype = frameExit) :
    (runGuestWithSocket j port command deadline idles ⟨okLine port ++ raw,cuts,ending⟩).outcome =
      onExit j exit.payload ⟨output frameStdout before,output frameStderr before⟩ := by
  obtain ⟨t,bytes,collects⟩ := @runCollects j port command deadline idles cuts ending raw fits
  rw [collects,collectTerminal (by rw [bytes]; exact decoded) quiet (.inl last),if_pos last]
  rfl

end Run

theorem guestCommandExact (j : Json) (port : Int) (command : ControlPayloads.PyStr)
    (deadline : Option ControlPayloads.Number) (raw : Bytes) (fits : (okLine port).length ≤ lineLimit) :
    (∀ idles cuts ending r,
      (runGuestWithSocket j port command deadline idles ⟨okLine port ++ raw,cuts,ending⟩).outcome = .returned r ↔
        Collected j raw r) ∧
    ∀ raw' before before' exit after after', decodeAll maxFrameLen raw = before ++ exit::after →
      decodeAll maxFrameLen raw' = before' ++ exit::after' → (∀ g ∈ before, ¬ Terminal g) →
      (∀ g ∈ before', ¬ Terminal g) → exit.ftype = frameExit →
      output frameStdout before = output frameStdout before' → output frameStderr before = output frameStderr before' →
      ∀ idles idles' cuts cuts' ending ending',
        (runGuestWithSocket j port command deadline idles ⟨okLine port ++ raw,cuts,ending⟩).outcome =
        (runGuestWithSocket j port command deadline idles' ⟨okLine port ++ raw',cuts',ending'⟩).outcome := by
  constructor
  · intro idles cuts ending r
    rcases splitTerminal (decodeAll maxFrameLen raw) with quiet | ⟨before,f,after,decoded,quiet,terminal⟩
    · obtain ⟨t,bytes,collects⟩ := @runCollects j port command deadline idles cuts ending raw fits
      obtain ⟨msg,raised⟩ := @collectEndless j idles t ⟨[],[]⟩ _ (by rw [bytes]) quiet
      rw [collects,raised]
      refine iff_of_false (by simp) ?_
      intro ⟨before,exit,after,_,_,decoded,_,last,_⟩
      exact quiet exit (by simp [decoded]) (.inl last)
    · by_cases last : f.ftype = frameExit
      · rw [runExits idles cuts ending fits decoded quiet last,onExitReturns]
        constructor
        · intro ⟨fields,code,loads,found,int,shape⟩
          exact ⟨before,f,after,fields,code,decoded,quiet,last,loads,found,int,shape⟩
        · intro ⟨before',exit,after',fields,code,decoded',quiet',last',loads,found,int,shape⟩
          obtain ⟨same,frame⟩ := splitOnce (decoded.symm.trans decoded') quiet quiet' terminal (.inl last')
          subst same frame
          exact ⟨fields,code,loads,found,int,shape⟩
      · obtain ⟨t,bytes,collects⟩ := @runCollects j port command deadline idles cuts ending raw fits
        rw [collects,collectTerminal (by rw [bytes]; exact decoded) quiet terminal,if_neg last]
        refine iff_of_false (onErrorRaises j f.payload r) ?_
        intro ⟨before',exit,after',_,_,decoded',quiet',last',_⟩
        obtain ⟨_,frame⟩ := splitOnce (decoded.symm.trans decoded') quiet quiet' terminal (.inl last')
        exact last (frame ▸ last')
  · intro raw' before before' exit after after' decoded decoded' quiet quiet' last out err idles idles' cuts cuts'
      ending ending'
    rw [runExits idles cuts ending fits decoded quiet last,runExits idles' cuts' ending' fits decoded' quiet' last,out,err]

def sevenExit : Frame := SessionText.exitFrame (.status (.code 7)) .none

def helloStream : List Frame := [⟨frameStdout,[104]⟩,⟨99,[1]⟩,⟨frameStdout,[105]⟩,sevenExit]

theorem guestCommandExactHello :
    (runGuestWithSocket GuestJson.readerJson 1234 [] none [2] ⟨okLine 1234 ++ encodeAll helloStream,[1,1,3,2],.eof⟩).outcome =
      .returned ⟨['h','i'],[],.int 7,some (.str "exited")⟩ := by
  have decoded : decodeAll maxFrameLen (encodeAll helloStream) = helloStream := decodeAllEncoded (by decide) (by decide)
  obtain ⟨fields,loads,code,reason⟩ := GuestJson.exitLoads GuestJson.readerReads (.status (.code 7)) .none
  refine ((guestCommandExact GuestJson.readerJson 1234 [] none (encodeAll helloStream) (portFits (by decide))).1 _ _ _ _).mpr ?_
  exact ⟨[⟨frameStdout,[104]⟩,⟨99,[1]⟩,⟨frameStdout,[105]⟩],sevenExit,[],fields,.int 7,decoded,by decide,rfl,loads,code,rfl,
    by rw [reason]; rfl⟩

end Guesthopper.GuestCommand
