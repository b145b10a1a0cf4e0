import Guesthopper.FrameBytes

/-! What a host-side client reads from the guest. A socket holds the bytes the guest
delivers and how they end; `cuts` says how many bytes each `recv` happens to return. The
sync codec of `guest_cmd` and the asyncio codec of `ssh_gateway` read the same frames and
differ in how they report a stream that stops inside one, and in when they report an error
of the transport: a stream reader that was left one raises it ahead of the bytes it holds. -/
namespace Guesthopper.ClientStream
open FrameBytes

inductive Ending where
  | eof
  | osError (text : String)
  deriving DecidableEq, Repr

structure Socket where
  bytes : Bytes
  cuts : List Nat
  ending : Ending
  deriving DecidableEq, Repr

inductive Fault where
  | command (msg : String)
  | os (text : String)
  deriving DecidableEq, Repr

inductive Recv where
  | chunk (raw : Bytes) (s : Socket)
  | closed
  | failed (text : String)

def recv (n : Nat) (s : Socket) : Recv :=
  match s.bytes,s.ending with
  | [],.eof => .closed
  | [],.osError e => .failed e
  | _,_ =>
    let k := max 1 (min n (s.cuts.headD n))
    .chunk (s.bytes.take k) ⟨s.bytes.drop k,s.cuts.tail,s.ending⟩

inductive Exact where
  | data (raw : Bytes) (s : Socket)
  | none
  | raised (f : Fault)

inductive Read where
  | frame (f : Frame) (s : Socket)
  | none
  | raised (f : Fault)

theorem recvChunk {n : Nat} {s t : Socket} {raw : Bytes} (h : recv n s = .chunk raw t) (need : n ≠ 0) :
    0 < raw.length ∧ raw.length ≤ n ∧ s.bytes = raw ++ t.bytes ∧ t.ending = s.ending := by
  unfold recv at h
  split at h <;> try contradiction
  rename_i empty failed
  cases h
  have some : s.bytes ≠ [] := by
    intro none
    cases s with
    | mk bytes cuts ending => cases ending <;> simp_all
  have long := List.length_pos_iff.mpr some
  refine ⟨?_,?_,(List.take_append_drop _ _).symm,rfl⟩
  · simp only [List.length_take]; omega
  · simp only [List.length_take]; omega

def recvMore (need : Nat) (buf : Bytes) (s : Socket) : Exact :=
  if _done : need = 0 then .data buf s
  else match _got : recv need s with
    | .closed => if buf = [] then .none else .raised (.command "connection closed mid-frame")
    | .failed e => .raised (.os e)
    | .chunk raw next => recvMore (need - raw.length) (buf ++ raw) next
termination_by need
decreasing_by
  have := recvChunk _got _done
  omega

def recvExact (n : Nat) (s : Socket) : Exact := recvMore n [] s

theorem recvSome {n : Nat} {s : Socket} (some : s.bytes ≠ []) : ∃ raw t, recv n s = .chunk raw t := by
  unfold recv
  split
  · contradiction
  · contradiction
  · exact ⟨_,_,rfl⟩

theorem recvMoreStep {need : Nat} {buf : Bytes} {s : Socket} {r : Recv} (pending : need ≠ 0) :
    recv need s = r → recvMore need buf s = match r with
      | .closed => if buf = [] then .none else .raised (.command "connection closed mid-frame")
      | .failed e => .raised (.os e)
      | .chunk raw next => recvMore (need - raw.length) (buf ++ raw) next := by
  intro got
  rw [recvMore,dif_neg pending]
  split
  all_goals
    rename_i same
    cases same.symm.trans got
    rfl

theorem recvMoreEnough {need : Nat} {buf : Bytes} {s : Socket} (enough : need ≤ s.bytes.length) :
    ∃ t, recvMore need buf s = .data (buf ++ s.bytes.take need) t ∧
      t.bytes = s.bytes.drop need ∧ t.ending = s.ending := by
  induction need using Nat.strongRecOn generalizing buf s with
  | ind need ih =>
    by_cases done : need = 0
    · subst done
      exact ⟨s,by simp [recvMore],by simp,rfl⟩
    have some : s.bytes ≠ [] := by intro none; simp [none] at enough; omega
    obtain ⟨raw,next,got⟩ := recvSome (n := need) some
    obtain ⟨positive,small,shape,ending⟩ := recvChunk got done
    have rest : need - raw.length ≤ next.bytes.length := by
      rw [shape,List.length_append] at enough
      omega
    have later : ∃ t, recvMore (need - raw.length) (buf ++ raw) next =
        .data (buf ++ raw ++ next.bytes.take (need - raw.length)) t ∧
        t.bytes = next.bytes.drop (need - raw.length) ∧ t.ending = next.ending := ih _ (by omega) rest
    obtain ⟨t,read,bytes,last⟩ := later
    refine ⟨t,?_,?_,last.trans ending⟩
    · have more : recvMore need buf s = recvMore (need - raw.length) (buf ++ raw) next := recvMoreStep done got
      rw [more,read,shape,List.take_append,List.take_of_length_le small,List.append_assoc]
    · rw [bytes,shape,List.drop_append,List.drop_of_length_le small,List.nil_append]

def torn (buf : Bytes) : Ending → Exact
  | .eof => if buf = [] then .none else .raised (.command "connection closed mid-frame")
  | .osError e => .raised (.os e)

theorem recvMoreShort {need : Nat} {buf : Bytes} {s : Socket} (short : s.bytes.length < need) :
    recvMore need buf s = torn (buf ++ s.bytes) s.ending := by
  induction need using Nat.strongRecOn generalizing buf s with
  | ind need ih =>
    have pending : need ≠ 0 := by omega
    by_cases none : s.bytes = []
    · rw [recvMore,dif_neg pending]
      cases s with
      | mk bytes cuts ending =>
        cases none
        cases ending <;> simp [recv,torn]
    obtain ⟨raw,next,got⟩ := recvSome (n := need) none
    obtain ⟨positive,small,shape,ending⟩ := recvChunk got pending
    have rest : next.bytes.length < need - raw.length := by
      rw [shape,List.length_append] at short
      omega
    have more : recvMore need buf s = recvMore (need - raw.length) (buf ++ raw) next := recvMoreStep pending got
    rw [more,ih (need - raw.length) (by omega) rest,shape,ending,List.append_assoc]

/- The transport's error, if the stream reader holds it already when it is called. The reader's
buffer is filled behind its back, so of a cut only this is left: it is 0 from then on. -/
def stored (s : Socket) : Option String :=
  match s.ending with
  | .eof => none
  | .osError e => if s.cuts.head? = some 0 then some e else none

-- asyncio's `readexactly`: all n bytes, IncompleteReadError on EOF, or the transport's error.
def readexactly (n : Nat) (s : Socket) : Exact :=
  match stored s with
  | some e => .raised (.os e)
  | none =>
    if n ≤ s.bytes.length then .data (s.bytes.take n) ⟨s.bytes.drop n,s.cuts.tail,s.ending⟩
    else match s.ending with
      | .eof => .none
      | .osError e => .raised (.os e)

theorem storedNone {s : Socket} (clear : s.ending = .eof ∨ s.cuts.head? ≠ some 0) : stored s = none := by
  unfold stored
  split
  · rfl
  · rename_i e fails
    exact if_neg (clear.resolve_left (by simp [fails]))

theorem readexactlyStored {n : Nat} {s : Socket} {e : String} (fails : s.ending = .osError e) (zero : s.cuts.head? = some 0) :
    readexactly n s = .raised (.os e) := by
  have found : stored s = some e := by simp [stored,fails,zero]
  simp only [readexactly,found]

theorem readexactlyData {n : Nat} {s : Socket} (clear : s.ending = .eof ∨ s.cuts.head? ≠ some 0) (enough : n ≤ s.bytes.length) :
    readexactly n s = .data (s.bytes.take n) ⟨s.bytes.drop n,s.cuts.tail,s.ending⟩ := by
  simp only [readexactly,storedNone clear,if_pos enough]

theorem readexactlyGets {n : Nat} {s t : Socket} {raw : Bytes} (h : readexactly n s = .data raw t) :
    n ≤ s.bytes.length ∧ raw = s.bytes.take n ∧ t = ⟨s.bytes.drop n,s.cuts.tail,s.ending⟩ := by
  unfold readexactly at h
  split at h <;> try contradiction
  split at h
  · rename_i enough
    cases h
    exact ⟨enough,rfl,rfl⟩
  · split at h <;> contradiction

structure Exactly where
  read : Nat → Socket → Exact
  steady : Socket → Prop
  calm : ∀ {s}, s.ending = .eof → steady s
  gets : ∀ {n s raw t}, read n s = .data raw t → n ≤ s.bytes.length ∧ raw = s.bytes.take n ∧
    t.bytes = s.bytes.drop n ∧ t.ending = s.ending ∧ (steady s → steady t)
  enough : ∀ {n s}, n ≤ s.bytes.length → steady s → ∃ raw t, read n s = .data raw t

theorem recvExactGets {n : Nat} {s t : Socket} {raw : Bytes} (h : recvExact n s = .data raw t) :
    n ≤ s.bytes.length ∧ raw = s.bytes.take n ∧ t.bytes = s.bytes.drop n ∧ t.ending = s.ending := by
  by_cases enough : n ≤ s.bytes.length
  · obtain ⟨u,read,bytes,ending⟩ := @recvMoreEnough n [] s enough
    cases h.symm.trans read
    exact ⟨enough,rfl,bytes,ending⟩
  · rw [recvExact,recvMoreShort (Nat.lt_of_not_le enough)] at h
    unfold torn at h
    split at h <;> try contradiction
    split at h <;> contradiction

def syncExactly : Exactly where
  read := recvExact
  steady _ := True
  calm _ := trivial
  gets h := by
    obtain ⟨enough,raw,bytes,ending⟩ := recvExactGets h
    exact ⟨enough,raw,bytes,ending,id⟩
  enough := by
    intro n s enough _
    obtain ⟨t,read,_⟩ := @recvMoreEnough n [] s enough
    exact ⟨_,t,read⟩

def asyncExactly : Exactly where
  read := readexactly
  steady s := s.ending = .eof ∨ 0 ∉ s.cuts
  calm eof := .inl eof
  gets h := by
    obtain ⟨enough,raw,rfl⟩ := readexactlyGets h
    exact ⟨enough,raw,rfl,rfl,Or.imp_right fun clear inside => clear (List.mem_of_mem_tail inside)⟩
  enough := by
    intro n s enough steady
    exact ⟨_,_,readexactlyData (steady.imp_right fun clear zero => clear (List.mem_of_mem_head? zero)) enough⟩

/- One frame under a cap, with the length of the payload asked for: the body the three readers share.
`none` from the header read is the clean end, from the payload read it is `closed`. -/
def askPayload (x : Exactly) (cap : Nat) (oversize : Nat → Fault) (closed : Fault) (ftype : UInt8) (length : Nat)
    (s : Socket) : Read × Option Nat :=
  if length > cap then (.raised (oversize length),none)
  else if length = 0 then (.frame ⟨ftype,[]⟩ s,none)
  else match x.read length s with
    | .none => (.raised closed,some length)
    | .raised f => (.raised f,some length)
    | .data payload s => (.frame ⟨ftype,payload⟩ s,some length)

def ask (x : Exactly) (cap : Nat) (oversize : Nat → Fault) (closed : Fault) (s : Socket) : Read × Option Nat :=
  match x.read 5 s with
  | .none => (.none,none)
  | .raised f => (.raised f,none)
  | .data hdr s => askPayload x cap oversize closed (hdr.getD 0 0)
      (fromBe32 (hdr.getD 1 0) (hdr.getD 2 0) (hdr.getD 3 0) (hdr.getD 4 0)) s

def readFrameBy (x : Exactly) (closed : String) (s : Socket) : Read :=
  match x.read 5 s with
  | .none => .none
  | .raised f => .raised f
  | .data hdr s =>
    let ftype := hdr.getD 0 0
    let length := fromBe32 (hdr.getD 1 0) (hdr.getD 2 0) (hdr.getD 3 0) (hdr.getD 4 0)
    if length > maxFrameLen then .raised (.command s!"frame payload {length} exceeds maximum {maxFrameLen}")
    else if length = 0 then .frame ⟨ftype,[]⟩ s
    else match x.read length s with
      | .none => .raised (.command closed)
      | .raised f => .raised f
      | .data payload s => .frame ⟨ftype,payload⟩ s

def readFrame : Socket → Read := readFrameBy syncExactly "connection closed before frame payload"
def sshReadFrame : Socket → Read := readFrameBy asyncExactly "connection closed mid-frame"

variable {x : Exactly} {closed : String} {s t : Socket} {f : Frame}

theorem headCons {raw : Bytes} (long : 5 ≤ raw.length) :
    ∃ a b c d e rest, raw = a::b::c::d::e::rest := by
  match raw with
  | a::b::c::d::e::rest => exact ⟨a,b,c,d,e,rest,rfl⟩
  | [] | [_] | [_,_] | [_,_,_] | [_,_,_,_] => simp at long

theorem headShort {cap : Nat} {raw rest : Bytes} (h : head cap raw = .frame f rest) : 5 ≤ raw.length := by
  have := (headFrame h).2
  omega

section Ask
variable {cap : Nat} {oversize : Nat → Fault} {shut : Fault} {hdr : Bytes} {mid : Socket}

theorem askPayloadWhole {ftype : UInt8} {length : Nat} (steady : x.steady s) (small : length ≤ cap)
    (enough : length ≤ s.bytes.length) : ∃ f t, (askPayload x cap oversize shut ftype length s).1 = .frame f t := by
  unfold askPayload
  rw [if_neg (by omega)]
  by_cases none : length = 0
  · rw [if_pos none]
    exact ⟨_,_,rfl⟩
  · rw [if_neg none]
    obtain ⟨raw,t,payload⟩ := x.enough enough steady
    rw [payload]
    exact ⟨_,_,rfl⟩

theorem askPayloadGets {ftype : UInt8} {length : Nat} (h : (askPayload x cap oversize shut ftype length s).1 = .frame f t) :
    length ≤ cap ∧ length ≤ s.bytes.length ∧ f = ⟨ftype,s.bytes.take length⟩ ∧ t.bytes = s.bytes.drop length ∧
      t.ending = s.ending ∧ (x.steady s → x.steady t) := by
  unfold askPayload at h
  split at h <;> try contradiction
  rename_i small
  split at h
  · rename_i none
    cases h
    subst none
    exact ⟨Nat.zero_le _,Nat.zero_le _,rfl,rfl,rfl,id⟩
  · split at h <;> try contradiction
    rename_i payload last got
    cases h
    obtain ⟨enough,rfl,rest⟩ := x.gets got
    exact ⟨Nat.le_of_not_lt small,enough,rfl,rest⟩

theorem askPayloadTorn {ftype : UInt8} {length : Nat} (torn : cap < length ∨ s.bytes.length < length) :
    ∃ e, (askPayload x cap oversize shut ftype length s).1 = .raised e := by
  unfold askPayload
  split
  · exact ⟨_,rfl⟩
  · rename_i small
    rw [if_neg (by omega)]
    split
    · exact ⟨_,rfl⟩
    · exact ⟨_,rfl⟩
    · rename_i payload last got
      have enough := (x.gets got).1
      omega

theorem askPayloadWithin {ftype : UInt8} {length n : Nat}
    (h : (askPayload x cap oversize shut ftype length s).2 = some n) : n ≤ cap := by
  unfold askPayload at h
  split at h <;> try contradiction
  rename_i small
  split at h <;> try contradiction
  split at h <;> cases h <;> omega

theorem askHeader (h : x.read 5 s = .data hdr mid) : ∃ a b c d e, s.bytes = a::b::c::d::e::mid.bytes ∧
    ask x cap oversize shut s = askPayload x cap oversize shut a (fromBe32 b c d e) mid := by
  obtain ⟨long,got,bytes,_⟩ := x.gets h
  obtain ⟨a,b,c,d,e,tail,shape⟩ := headCons long
  rw [shape] at got bytes
  simp only [List.take_succ_cons,List.take_zero,List.drop_succ_cons,List.drop_zero] at got bytes
  refine ⟨a,b,c,d,e,by rw [shape,bytes],?_⟩
  unfold ask
  rw [h,got]
  rfl

theorem askGrammar (h : (ask x cap oversize shut s).1 = .frame f t) :
    head cap s.bytes = .frame f t.bytes ∧ t.ending = s.ending ∧ (x.steady s → x.steady t) := by
  cases read : x.read 5 s with
  | none | raised _ => simp [ask,read] at h
  | data hdr mid =>
    obtain ⟨a,b,c,d,e,shape,asked⟩ := @askHeader x s cap oversize shut hdr mid read
    obtain ⟨_,_,_,ending,keeps⟩ := x.gets read
    rw [asked] at h
    obtain ⟨small,enough,rfl,bytes,last,later⟩ := askPayloadGets h
    refine ⟨?_,last.trans ending,later ∘ keeps⟩
    rw [shape,bytes]
    simp only [head]
    rw [if_neg (by omega),if_neg (by omega)]

theorem askFrame {rest : Bytes} (steady : x.steady s) (h : head cap s.bytes = .frame f rest) :
    ∃ t, (ask x cap oversize shut s).1 = .frame f t ∧ t.bytes = rest ∧ t.ending = s.ending ∧ x.steady t := by
  obtain ⟨hdr,mid,read⟩ := x.enough (headShort h) steady
  obtain ⟨a,b,c,d,e,shape,asked⟩ := @askHeader x s cap oversize shut hdr mid read
  obtain ⟨_,_,_,_,keeps⟩ := x.gets read
  have fits : fromBe32 b c d e ≤ cap ∧ fromBe32 b c d e ≤ mid.bytes.length := by
    rw [shape] at h
    simp only [head] at h
    split at h <;> try contradiction
    split at h <;> try contradiction
    omega
  obtain ⟨g,t,got⟩ := @askPayloadWhole x mid cap oversize shut a _ (keeps steady) fits.1 fits.2
  have asks : (ask x cap oversize shut s).1 = .frame g t := asked ▸ got
  obtain ⟨found,ending,later⟩ := askGrammar asks
  cases h.symm.trans found
  exact ⟨t,asks,rfl,ending,later steady⟩

theorem askBroken (steady : x.steady s) (broken : ∀ f rest, head cap s.bytes ≠ .frame f rest) (long : 5 ≤ s.bytes.length) :
    ∃ e, (ask x cap oversize shut s).1 = .raised e := by
  obtain ⟨hdr,mid,read⟩ := x.enough long steady
  obtain ⟨a,b,c,d,e,shape,asked⟩ := @askHeader x s cap oversize shut hdr mid read
  rw [asked]
  refine askPayloadTorn ?_
  by_contra whole
  obtain ⟨small,enough⟩ := not_or.mp whole
  refine broken ⟨a,mid.bytes.take (fromBe32 b c d e)⟩ (mid.bytes.drop (fromBe32 b c d e)) ?_
  rw [shape]
  simp only [head]
  rw [if_neg small,if_neg enough]

theorem askWithin {n : Nat} (h : (ask x cap oversize shut s).2 = some n) : n ≤ cap := by
  unfold ask at h
  split at h <;> try contradiction
  exact askPayloadWithin h

end Ask

def tooLong (length : Nat) : Fault := .command s!"frame payload {length} exceeds maximum {maxFrameLen}"

theorem readFrameByAsk (x : Exactly) (closed : String) (s : Socket) :
    readFrameBy x closed s = (ask x maxFrameLen tooLong (.command closed) s).1 := by
  unfold readFrameBy ask
  cases x.read 5 s with
  | none => rfl
  | raised f => rfl
  | data hdr s =>
    simp only [askPayload]
    split
    · rfl
    · split
      · rfl
      · split <;> rfl

theorem readFrameByFrame {rest : Bytes} (steady : x.steady s) (h : head maxFrameLen s.bytes = .frame f rest) :
    ∃ t, readFrameBy x closed s = .frame f t ∧ t.bytes = rest ∧ t.ending = s.ending := by
  rw [readFrameByAsk]
  obtain ⟨t,read,bytes,ending,_⟩ := @askFrame x s f maxFrameLen tooLong (.command closed) rest steady h
  exact ⟨t,read,bytes,ending⟩

theorem readFrameByGrammar (h : readFrameBy x closed s = .frame f t) :
    head maxFrameLen s.bytes = .frame f t.bytes ∧ t.ending = s.ending := by
  rw [readFrameByAsk] at h
  exact ⟨(askGrammar h).1,(askGrammar h).2.1⟩

structure Codec where
  read : Socket → Read
  grammar : ∀ {s f t}, read s = .frame f t → head maxFrameLen s.bytes = .frame f t.bytes

def syncCodec : Codec where
  read := readFrame
  grammar read := (readFrameByGrammar read).1

def sshCodec : Codec where
  read := sshReadFrame
  grammar read := (readFrameByGrammar read).1

theorem codecShrinks {c : Codec} (h : c.read s = .frame f t) : t.bytes.length < s.bytes.length := by
  have := (headFrame (c.grammar h)).2
  omega

/- How far a reader of the guest's stream has come: to the connection, to the line that answers its
handshake, among the frames or past them. -/
inductive Stage where
  | unconnected
  | greeting
  | reading
  | past
  deriving DecidableEq, Repr

def Drinks (line raw : Bytes) (stage : Stage) (read : List Frame) (rest : Bytes) : Prop :=
  match stage with
  | .unconnected => read = []
  | .greeting => read = [] ∧ rest = line ++ raw
  | .reading => decodeAll maxFrameLen raw = read ++ decodeAll maxFrameLen rest
  | .past => read <+: decodeAll maxFrameLen raw

section Drinks
variable {line raw rest left : Bytes} {stage : Stage} {read : List Frame}

theorem drinksPrefix (drinks : Drinks line raw stage read rest) : read <+: decodeAll maxFrameLen raw := by
  cases stage with
  | unconnected => exact drinks ▸ List.nil_prefix
  | greeting => exact drinks.1 ▸ List.nil_prefix
  | reading => exact ⟨_,drinks.symm⟩
  | past => exact drinks

theorem drinksGreeted (drinks : Drinks line raw .greeting read rest) (behind : left = raw) :
    Drinks line raw .reading read left := by
  obtain ⟨none,_⟩ := drinks
  rw [none,behind]
  rfl

theorem drinksFrame (drinks : Drinks line raw .reading read rest) (found : head maxFrameLen rest = .frame f left) :
    Drinks line raw .reading (read ++ [f]) left := by
  have more : decodeAll maxFrameLen raw = read ++ decodeAll maxFrameLen rest := drinks
  rw [decodeAllFrame found] at more
  exact more.trans (List.append_cons ..)

end Drinks

end Guesthopper.ClientStream
