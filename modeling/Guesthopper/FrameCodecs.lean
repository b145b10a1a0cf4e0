import Guesthopper.ClientStream

/-! The three writers and the three readers of the frame format. Each writer has its own
bound on the payload and each reader its own cap and its own read-exactly loop; `drain`
reads frames until one of them is not there. -/
namespace Guesthopper.FrameCodecs
open FrameBytes ClientStream

-- `struct.pack(">I", ..)` is the only bound here.
def cmdWriteFrame (f : Frame) : Except String Bytes :=
  if f.payload.length < 2^32 then .ok (encode f)
  else .error "'I' format requires 0 <= number <= 4294967295"

def encodeFrame (f : Frame) : Except String Bytes :=
  if f.payload.length > maxFrameLen then .error s!"frame payload {f.payload.length} exceeds {maxFrameLen}"
  else .ok (encode f)

inductive Writer where
  | agent
  | guestCmd
  | sshGateway
  deriving DecidableEq, Repr

def Writer.write : Writer → Frame → Except String Bytes
  | .agent => writeFrame
  | .guestCmd => cmdWriteFrame
  | .sshGateway => encodeFrame

def Writer.writeAll (w : Writer) : List Frame → Except String Bytes
  | [] => .ok []
  | f::fs => do
      let raw ← w.write f
      let rest ← w.writeAll fs
      return raw ++ rest

theorem writeSmall (w : Writer) {f : Frame} (fits : f.payload.length ≤ maxFrameLen) : w.write f = .ok (encode f) := by
  have packed : f.payload.length < 2^32 := by unfold maxFrameLen at fits; omega
  cases w with
  | agent => exact if_neg (Nat.not_lt.mpr fits)
  | guestCmd => exact if_pos packed
  | sshGateway => exact if_neg (Nat.not_lt.mpr fits)

theorem writeAllSmall (w : Writer) {fs : List Frame} (fits : ∀ f ∈ fs, f.payload.length ≤ maxFrameLen) :
    w.writeAll fs = .ok (encodeAll fs) := by
  induction fs with
  | nil => rfl
  | cons f fs ih =>
    obtain ⟨first,later⟩ := List.forall_mem_cons.mp fits
    simp only [Writer.writeAll,writeSmall w first,ih later,encodeAllCons]
    rfl

/- tokio's `read_exact`: end of file before the buffer is full is UnexpectedEof, here
`none`, however much of it was read. -/
def readExactMore (need : Nat) (buf : Bytes) (s : Socket) : Exact :=
  if _done : need = 0 then .data buf s
  else match _got : recv need s with
    | .closed => .none
    | .failed e => .raised (.os e)
    | .chunk raw next => readExactMore (need - raw.length) (buf ++ raw) next
termination_by need
decreasing_by
  have := recvChunk _got _done
  omega

def overlook : Exact → Exact
  | .raised (.command _) => .none
  | e => e

section ReadExact
variable {need : Nat} {buf : Bytes} {s : Socket}

theorem readExactStep {r : Recv} (pending : need ≠ 0) :
    recv need s = r → readExactMore need buf s = match r with
      | .closed => .none
      | .failed e => .raised (.os e)
      | .chunk raw next => readExactMore (need - raw.length) (buf ++ raw) next := by
  intro got
  rw [readExactMore,dif_neg pending]
  split
  all_goals
    rename_i same
    cases same.symm.trans got
    rfl

theorem readExactOverlooks (need : Nat) (buf : Bytes) (s : Socket) :
    readExactMore need buf s = overlook (recvMore need buf s) := by
  induction need using Nat.strongRecOn generalizing buf s with
  | ind need ih =>
    by_cases done : need = 0
    · rw [readExactMore,recvMore,dif_pos done,dif_pos done]
      rfl
    cases got : recv need s with
    | closed =>
      rw [readExactStep done got,recvMoreStep done got]
      dsimp only
      by_cases empty : buf = []
      · rw [if_pos empty]; rfl
      · rw [if_neg empty]; rfl
    | failed e =>
      rw [readExactStep done got,recvMoreStep done got]
      rfl
    | chunk raw next =>
      have small := recvChunk got done
      rw [readExactStep done got,recvMoreStep done got]
      exact ih _ (by omega) _ _

end ReadExact

theorem recvExactShort {n : Nat} {s : Socket} (short : s.bytes.length < n) :
    recvExact n s = torn s.bytes s.ending := recvMoreShort short

def agentExactly : Exactly where
  read n s := readExactMore n [] s
  steady _ := True
  calm _ := trivial
  gets := by
    intro n s raw t read
    rw [readExactOverlooks] at read
    cases got : recvMore n [] s with
    | data raw' t' =>
      rw [got] at read
      cases read
      obtain ⟨enough,shape,bytes,ending⟩ := @recvExactGets n s t raw got
      exact ⟨enough,shape,bytes,ending,id⟩
    | none | raised e =>
      rw [got] at read
      unfold overlook at read
      split at read <;> contradiction
  enough := by
    intro n s enough _
    obtain ⟨t,read,_⟩ := @recvMoreEnough n [] s enough
    exact ⟨_,t,by rw [readExactOverlooks,read]; rfl⟩

-- The agent's cap is what was installed, clamped; the host's readers have the fixed limit.
inductive Reader where
  | agent (installed : Nat)
  | guestCmd
  | sshGateway
  deriving DecidableEq, Repr

def Reader.exactly : Reader → Exactly
  | .agent _ => agentExactly
  | .guestCmd => syncExactly
  | .sshGateway => asyncExactly

def Reader.cap : Reader → Nat
  | .agent installed => clampInbound installed
  | .guestCmd | .sshGateway => maxFrameLen

def Reader.oversize : Reader → Nat → Fault
  | .agent installed,len => .os s!"frame payload {len} exceeds inbound cap {clampInbound installed}"
  | .guestCmd,len | .sshGateway,len => tooLong len

def Reader.closed : Reader → Fault
  | .agent _ => .os "early eof"
  | .guestCmd => .command "connection closed before frame payload"
  | .sshGateway => .command "connection closed mid-frame"

def Reader.ask (r : Reader) (s : Socket) : Read × Option Nat :=
  ClientStream.ask r.exactly r.cap r.oversize r.closed s

theorem readFrameAsks (s : Socket) : readFrame s = (Reader.guestCmd.ask s).1 := readFrameByAsk _ _ s

theorem sshReadFrameAsks (s : Socket) : sshReadFrame s = (Reader.sshGateway.ask s).1 := readFrameByAsk _ _ s

theorem capFits (r : Reader) : r.cap ≤ maxFrameLen := by
  cases r with
  | agent installed => exact (clampInboundBounds installed).2
  | guestCmd => exact Nat.le_refl _
  | sshGateway => exact Nat.le_refl _

theorem capPacks (r : Reader) : r.cap < 2^32 := by
  have := capFits r
  unfold maxFrameLen at this
  omega

inductive Verdict where
  | clean
  | fault (e : Fault)
  deriving DecidableEq, Repr

structure Drained where
  frames : List Frame
  asked : List Nat
  verdict : Verdict
  left : Socket

/- Frames until the reader reports something else: what was read, the payload lengths asked
for, the verdict, and the socket as the last whole frame left it. -/
def drain (r : Reader) (s : Socket) : Drained :=
  match _found : (r.ask s).1 with
  | .none => ⟨[],(r.ask s).2.toList,.clean,s⟩
  | .raised e => ⟨[],(r.ask s).2.toList,.fault e,s⟩
  | .frame f t =>
    let rest := drain r t
    ⟨f::rest.frames,(r.ask s).2.toList ++ rest.asked,rest.verdict,rest.left⟩
termination_by s.bytes.length
decreasing_by
  have := (headFrame (askGrammar _found).1).2
  omega

theorem drainFrame {r : Reader} {s t : Socket} {f : Frame} (h : (r.ask s).1 = .frame f t) : drain r s =
    ⟨f::(drain r t).frames,(r.ask s).2.toList ++ (drain r t).asked,(drain r t).verdict,(drain r t).left⟩ := by
  rw [drain]
  split <;> rename_i found <;> cases h.symm.trans found
  rfl

structure Stopped (r : Reader) (s : Socket) : Prop where
  broken : r.exactly.steady s → ∀ f rest, head r.cap s.bytes ≠ .frame f rest
  verdict : (drain r s).verdict = .clean ↔ (r.ask s).1 = .none
  none : (drain r s).frames = []
  left : (drain r s).left = s
  asked : (drain r s).asked = (r.ask s).2.toList

theorem drainStopped {r : Reader} {s : Socket} (stops : ∀ f t, (r.ask s).1 ≠ .frame f t) : Stopped r s := by
  have broken : r.exactly.steady s → ∀ f rest, head r.cap s.bytes ≠ .frame f rest := by
    intro steady f rest found
    obtain ⟨t,read,_⟩ := @askFrame r.exactly s f r.cap r.oversize r.closed rest steady found
    exact stops f t read
  cases read : (r.ask s).1 with
  | frame f t => exact absurd read (stops f t)
  | none =>
    have same : drain r s = ⟨[],(r.ask s).2.toList,.clean,s⟩ := by
      rw [drain]
      split <;> rename_i found <;> cases read.symm.trans found
      rfl
    exact ⟨broken,by simp [same,read],by rw [same],by rw [same],by rw [same]⟩
  | raised e =>
    have same : drain r s = ⟨[],(r.ask s).2.toList,.fault e,s⟩ := by
      rw [drain]
      split <;> rename_i found <;> cases read.symm.trans found
      rfl
    exact ⟨broken,by simp [same,read],by rw [same],by rw [same],by rw [same]⟩

theorem drainInduct (r : Reader) {P : Socket → Prop}
    (more : ∀ s f t, head r.cap s.bytes = .frame f t.bytes → (r.ask s).1 = .frame f t → t.ending = s.ending →
      (r.exactly.steady s → r.exactly.steady t) → P t → P s)
    (stop : ∀ s, Stopped r s → P s) (s : Socket) : P s := by
  induction long : s.bytes.length using Nat.strongRecOn generalizing s with
  | ind n ih =>
    by_cases read : ∃ f t, (r.ask s).1 = .frame f t
    · obtain ⟨f,t,read⟩ := read
      obtain ⟨found,ending,steady⟩ := askGrammar read
      have less := (headFrame found).2
      exact more s f t found read ending steady (ih t.bytes.length (by omega) t rfl)
    · exact stop s (drainStopped (fun f t same => read ⟨f,t,same⟩))

section Drain
variable {r : Reader} {s : Socket}

theorem drainConsumes (r : Reader) (s : Socket) :
    s.bytes = encodeAll (drain r s).frames ++ (drain r s).left.bytes := by
  induction s using drainInduct r with
  | more s f t found read _ _ ih =>
    have whole := headEncode found
    rw [ih] at whole
    rw [drainFrame read,encodeAllCons,List.append_assoc]
    exact whole
  | stop s stopped =>
    rw [stopped.none,stopped.left]
    rfl

theorem drainFits (r : Reader) (s : Socket) : ∀ f ∈ (drain r s).frames, f.payload.length ≤ r.cap := by
  induction s using drainInduct r with
  | more s f t found read _ _ ih =>
    rw [drainFrame read]
    exact List.forall_mem_cons.mpr ⟨(headFrame found).1,ih⟩
  | stop s stopped =>
    rw [stopped.none]
    simp

theorem drainFrames (steady : r.exactly.steady s) : (drain r s).frames = decodeAll r.cap s.bytes := by
  induction s using drainInduct r with
  | more s f t found read _ keeps ih => rw [drainFrame read,decodeAllFrame found,ih (keeps steady)]
  | stop s stopped => rw [stopped.none,decodeAllStuck (stopped.broken steady)]

theorem drainLeft (steady : r.exactly.steady s) : (drain r s).left.bytes = remainder r.cap s.bytes ∧
    (drain r s).left.ending = s.ending ∧ r.exactly.steady (drain r s).left := by
  induction s using drainInduct r with
  | more s f t found read ending keeps ih =>
    rw [drainFrame read,remainderFrame found,← ending]
    exact ih (keeps steady)
  | stop s stopped =>
    rw [stopped.left,remainderStuck (stopped.broken steady)]
    exact ⟨rfl,rfl,steady⟩

theorem drainVerdict (r : Reader) (s : Socket) :
    (drain r s).verdict = .clean ↔ (r.ask (drain r s).left).1 = .none := by
  induction s using drainInduct r with
  | more s f t _ read _ _ ih =>
    rw [drainFrame read]
    exact ih
  | stop s stopped =>
    rw [stopped.left]
    exact stopped.verdict

theorem drainWithin (r : Reader) (s : Socket) : ∀ n ∈ (drain r s).asked, n ≤ r.cap := by
  have one : ∀ s n, n ∈ (r.ask s).2.toList → n ≤ r.cap := by
    intro s n asked
    exact askWithin (Option.mem_toList.mp asked)
  induction s using drainInduct r with
  | more s f t _ read _ _ ih =>
    intro n asked
    rw [drainFrame read,List.mem_append] at asked
    rcases asked with now | later
    · exact one s n now
    · exact ih n later
  | stop s stopped =>
    intro n
    rw [stopped.asked]
    exact one s n

-- A header that is not whole: only the blocking reader tells it from the end of the stream.
theorem askShort (short : s.bytes.length < 5) (eof : s.ending = .eof) :
    (r.ask s).1 = .none ↔ s.bytes = [] ∨ r ≠ .guestCmd := by
  unfold Reader.ask ask
  cases r with
  | agent installed =>
    have read : agentExactly.read 5 s = overlook (torn s.bytes .eof) := by
      rw [← eof,← recvExactShort short]
      exact readExactOverlooks 5 [] s
    have none : overlook (torn s.bytes .eof) = .none := by
      by_cases empty : s.bytes = [] <;> simp [torn,empty,overlook]
    rw [none] at read
    simp [Reader.exactly,read]
  | guestCmd =>
    have read : syncExactly.read 5 s = torn s.bytes .eof := by
      rw [← eof,← recvExactShort short]
      rfl
    by_cases none : s.bytes = []
    · simp [Reader.exactly,read,torn,none]
    · simp [Reader.exactly,read,torn,none]
  | sshGateway =>
    have read : asyncExactly.read 5 s = .none := by
      have clear : stored s = none := storedNone (.inl eof)
      simp only [asyncExactly,readexactly,clear,if_neg (Nat.not_le.mpr short),eof]
    simp [Reader.exactly,read]

theorem drainClean (eof : s.ending = .eof) : (drain r s).verdict = .clean ↔
    (drain r s).left.bytes = [] ∨ (drain r s).left.bytes.length < 5 ∧ r ≠ .guestCmd := by
  obtain ⟨bytes,ending,steady⟩ := drainLeft (r.exactly.calm eof)
  have last := ending.trans eof
  rw [drainVerdict]
  by_cases short : (drain r s).left.bytes.length < 5
  · rw [askShort short last]
    simp [short]
  · have broken : ∀ f rest, head r.cap (drain r s).left.bytes ≠ .frame f rest := by
      rw [bytes]
      exact remainderStops r.cap s.bytes
    obtain ⟨e,raised⟩ := @askBroken r.exactly (drain r s).left r.cap r.oversize r.closed steady broken (by omega)
    have some : (drain r s).left.bytes ≠ [] := by
      intro none
      simp [none] at short
    simp [Reader.ask,raised,some,short]

end Drain

theorem frameRoundTrip (w : Writer) (r : Reader) :
    (∀ fs cuts, (∀ f ∈ fs, f.payload.length ≤ r.cap) → ∃ raw, w.writeAll fs = .ok raw ∧
      (drain r ⟨raw,cuts,.eof⟩).frames = fs ∧ (drain r ⟨raw,cuts,.eof⟩).verdict = .clean ∧
      (drain r ⟨raw,cuts,.eof⟩).left.bytes = []) ∧
    ∀ s, ∃ raw, w.writeAll (drain r s).frames = .ok raw ∧ s.bytes = raw ++ (drain r s).left.bytes ∧
      (∀ n ∈ (drain r s).asked, n ≤ r.cap) ∧ 5 * (drain r s).frames.length ≤ s.bytes.length := by
  constructor
  · intro fs cuts fits
    have frames : (drain r ⟨encodeAll fs,cuts,.eof⟩).frames = fs := by
      rw [drainFrames (r.exactly.calm rfl),decodeAllEncoded (capPacks r) fits]
    have left : (drain r ⟨encodeAll fs,cuts,.eof⟩).left.bytes = [] := by
      have consumes := drainConsumes r ⟨encodeAll fs,cuts,.eof⟩
      rw [frames] at consumes
      exact List.append_right_eq_self.mp consumes.symm
    refine ⟨encodeAll fs,writeAllSmall w ?_,frames,?_,left⟩
    · intro f known
      exact Nat.le_trans (fits f known) (capFits r)
    · exact (drainClean rfl).mpr (.inl left)
  · intro s
    have consumes := drainConsumes r s
    refine ⟨encodeAll (drain r s).frames,writeAllSmall w ?_,consumes,drainWithin r s,?_⟩
    · intro f known
      exact Nat.le_trans (drainFits r s f known) (capFits r)
    · have long := encodeAllLength (drain r s).frames
      have total := congrArg List.length consumes
      rw [List.length_append] at total
      omega

def twoFrames : List Frame := [⟨16,[104,105]⟩,⟨3,[]⟩]

theorem frameRoundTripTwo : ∃ raw, Writer.guestCmd.writeAll twoFrames = .ok raw ∧
    (drain (.agent 0) ⟨raw,[1,3],.eof⟩).frames = twoFrames := by
  obtain ⟨raw,wrote,read,_⟩ := (frameRoundTrip .guestCmd (.agent 0)).1 twoFrames [1,3] (by decide)
  exact ⟨raw,wrote,read⟩

def readers (installed : Nat) : List Reader := [.agent installed,.guestCmd,.sshGateway]

def Announces (raw : Bytes) (n : Nat) : Prop :=
  ∃ fs t a b c d rest, raw = encodeAll fs ++ t::a::b::c::d::rest ∧ (∀ f ∈ fs, f.payload.length < 2^32) ∧
    n = fromBe32 a b c d

def CleanAtBoundary (installed : Nat) (raw : Bytes) : Prop :=
  ∀ r ∈ readers installed, ∀ cuts, (drain r ⟨raw,cuts,.eof⟩).verdict = .clean →
    (drain r ⟨raw,cuts,.eof⟩).left.bytes = []

def Lockstep (installed : Nat) (raw : Bytes) : Prop :=
  ∀ r ∈ readers installed, ∀ r' ∈ readers installed, ∀ cuts cuts',
    (drain r ⟨raw,cuts,.eof⟩).frames = (drain r' ⟨raw,cuts',.eof⟩).frames ∧
    ((drain r ⟨raw,cuts,.eof⟩).verdict = .clean ↔ (drain r' ⟨raw,cuts',.eof⟩).verdict = .clean)

def SameEmission (f : Frame) : Prop := ∀ raw, cmdWriteFrame f = .ok raw ↔ encodeFrame f = .ok raw

def EndsInHeader (cap : Nat) (raw : Bytes) : Prop :=
  ∃ fs tail, raw = encodeAll fs ++ tail ∧ (∀ f ∈ fs, f.payload.length ≤ cap) ∧ 0 < tail.length ∧ tail.length < 5

theorem emissionExact (f : Frame) :
    SameEmission f ↔ f.payload.length ≤ maxFrameLen ∨ 2^32 ≤ f.payload.length := by
  by_cases small : f.payload.length ≤ maxFrameLen
  · have cmd : cmdWriteFrame f = .ok (encode f) := writeSmall .guestCmd small
    have ssh : encodeFrame f = .ok (encode f) := writeSmall .sshGateway small
    simp only [SameEmission,cmd,ssh,small,true_or,implies_true]
  obtain ⟨e,ssh⟩ : ∃ e, encodeFrame f = .error e := ⟨_,if_pos (Nat.lt_of_not_le small)⟩
  by_cases packed : f.payload.length < 2^32
  · have cmd : cmdWriteFrame f = .ok (encode f) := if_pos packed
    have differ : ¬ SameEmission f := by
      intro same
      have other := (same (encode f)).mp cmd
      rw [ssh] at other
      contradiction
    exact iff_of_false differ (not_or.mpr ⟨small,Nat.not_le.mpr packed⟩)
  · obtain ⟨e',cmd⟩ : ∃ e, cmdWriteFrame f = .error e := ⟨_,if_neg packed⟩
    refine iff_of_true ?_ (.inr (Nat.le_of_not_lt packed))
    intro raw
    rw [cmd,ssh]
    simp

section Clean
variable {installed : Nat} {raw : Bytes} {cuts : List Nat} {r : Reader}

theorem endsInHeader {cap : Nat} (bound : cap < 2^32) :
    EndsInHeader cap raw ↔ 0 < (remainder cap raw).length ∧ (remainder cap raw).length < 5 := by
  constructor
  · intro ends
    obtain ⟨fs,tail,shape,fits,begun,short⟩ := ends
    have broken : ∀ f rest, head cap tail ≠ .frame f rest := by
      intro f rest found
      have long := (headFrame found).2
      omega
    rw [shape,remainderEncoded bound tail fits,remainderStuck broken]
    exact ⟨begun,short⟩
  · intro ⟨begun,short⟩
    exact ⟨decodeAll cap raw,remainder cap raw,decodeAllRemainder cap raw,decodeAllFits cap raw,begun,short⟩

theorem announcedWithin {cap : Nat} (bound : cap < 2^32) (within : ∀ n, Announces raw n → n ≤ cap) (n : Nat) :
    head cap (remainder cap raw) ≠ .oversize n := by
  intro large
  have shape := decodeAllRemainder cap raw
  generalize remainder cap raw = left at large shape
  unfold head at large
  split at large <;> try contradiction
  rename_i t a b c d rest
  have packed : ∀ f ∈ decodeAll cap raw, f.payload.length < 2^32 := by
    intro f known
    exact Nat.lt_of_le_of_lt (decodeAllFits cap raw f known) bound
  have small := within _ ⟨decodeAll cap raw,t,a,b,c,d,rest,shape,packed,rfl⟩
  rw [if_neg (Nat.not_lt.mpr small)] at large
  split at large <;> contradiction

theorem readersAgree (known : r ∈ readers installed) (within : ∀ n, Announces raw n → n ≤ clampInbound installed) :
    (drain r ⟨raw,cuts,.eof⟩).frames = decodeAll (clampInbound installed) raw ∧
    (drain r ⟨raw,cuts,.eof⟩).left.bytes = remainder (clampInbound installed) raw := by
  have smallest : clampInbound installed ≤ r.cap := by
    simp only [readers,List.mem_cons,List.not_mem_nil,or_false] at known
    rcases known with rfl | rfl | rfl
    · exact Nat.le_refl _
    · exact (clampInboundBounds installed).2
    · exact (clampInboundBounds installed).2
  have same := streamWiden smallest (announcedWithin (capPacks (.agent installed)) within)
  rw [drainFrames (r.exactly.calm rfl),(drainLeft (r.exactly.calm rfl)).1]
  exact same

end Clean

theorem codecLockstep (installed : Nat) (raw : Bytes) (f : Frame)
    (within : ∀ n, Announces raw n → n ≤ clampInbound installed) :
    (CleanAtBoundary installed raw ∧ Lockstep installed raw ↔ ¬ EndsInHeader (clampInbound installed) raw) ∧
    (SameEmission f ↔ f.payload.length ≤ maxFrameLen ∨ 2^32 ≤ f.payload.length) := by
  refine ⟨?_,emissionExact f⟩
  have packs : clampInbound installed < 2^32 := capPacks (.agent installed)
  rw [endsInHeader packs]
  have clean : ∀ r ∈ readers installed, ∀ cuts, (drain r ⟨raw,cuts,.eof⟩).verdict = .clean ↔
      remainder (clampInbound installed) raw = [] ∨
        (remainder (clampInbound installed) raw).length < 5 ∧ r ≠ .guestCmd := by
    intro r known cuts
    rw [drainClean rfl,(readersAgree known within).2]
  constructor
  · intro ⟨boundary,_⟩ ⟨begun,short⟩
    have agent : Reader.agent installed ∈ readers installed := by simp [readers]
    have empty := boundary _ agent [] ((clean _ agent []).mpr (.inr ⟨short,by simp⟩))
    rw [(readersAgree agent within).2] at empty
    simp [empty] at begun
  · intro whole
    have verdict : ∀ r ∈ readers installed, ∀ cuts, (drain r ⟨raw,cuts,.eof⟩).verdict = .clean ↔
        remainder (clampInbound installed) raw = [] := by
      intro r known cuts
      rw [clean r known cuts]
      refine ⟨?_,.inl⟩
      intro either
      rcases either with empty | ⟨short,_⟩
      · exact empty
      · exact List.length_eq_zero_iff.mp (by omega)
    constructor
    · intro r known cuts said
      rw [(readersAgree known within).2]
      exact (verdict r known cuts).mp said
    · intro r known r' known' cuts cuts'
      rw [(readersAgree known within).1,(readersAgree known' within).1,verdict r known,verdict r' known']
      exact ⟨rfl,Iff.rfl⟩

theorem lonelyByteWithin : ∀ n, Announces [16] n → n ≤ clampInbound 0 := by
  intro n announced
  obtain ⟨fs,t,a,b,c,d,rest,shape,_⟩ := announced
  have long := congrArg List.length shape
  simp only [List.length_append,List.length_cons,List.length_nil] at long
  omega

theorem lonelyByteSplits : (∀ n, Announces [16] n → n ≤ clampInbound 0) ∧
    ¬ CleanAtBoundary 0 [16] ∧ ¬ Lockstep 0 [16] ∧ ¬ SameEmission ⟨16,List.replicate (maxFrameLen + 1) 0⟩ := by
  have left : ∀ r cuts, (drain r ⟨[16],cuts,.eof⟩).left.bytes = [16] := by
    intro r cuts
    rw [(drainLeft (r.exactly.calm rfl)).1]
    exact remainderStuck (fun f rest found => by simp [head] at found)
  have agent : (drain (.agent 0) ⟨[16],[],.eof⟩).verdict = .clean := (drainClean rfl).mpr (by simp [left])
  have client : (drain .guestCmd ⟨[16],[],.eof⟩).verdict ≠ .clean := by
    intro said
    have none := (drainClean rfl).mp said
    simp [left] at none
  refine ⟨lonelyByteWithin,?_,?_,?_⟩
  · intro boundary
    have none := boundary (.agent 0) (by simp [readers]) [] agent
    simp [left] at none
  · intro lockstep
    exact client ((lockstep (.agent 0) (by simp [readers]) .guestCmd (by simp [readers]) [] []).2.mp agent)
  · rw [emissionExact,List.length_replicate]
    unfold maxFrameLen
    omega

theorem announcesRest {f : Frame} {tail : Bytes} {n : Nat} (packs : f.payload.length < 2^32)
    (announced : Announces (encode f ++ tail) n) : n = f.payload.length ∨ Announces tail n := by
  obtain ⟨fs,t,a,b,c,d,rest,shape,packed,rfl⟩ := announced
  cases fs with
  | nil =>
    simp only [encode,be32,encodeAll,List.flatMap_nil,List.nil_append,List.cons_append,List.cons.injEq] at shape
    obtain ⟨_,rfl,rfl,rfl,rfl,_⟩ := shape
    exact .inl (fromBe32Be32 packs)
  | cons g gs =>
    obtain ⟨first,later⟩ := List.forall_mem_cons.mp packed
    rw [encodeAllCons,List.append_assoc] at shape
    have mine : head (2^32 - 1) (encode f ++ tail) = .frame f tail := headEncoded tail (Nat.le_sub_one_of_lt packs) (by decide)
    rw [shape,headEncoded _ (Nat.le_sub_one_of_lt first) (by decide)] at mine
    cases mine
    exact .inr ⟨gs,t,a,b,c,d,rest,rfl,later,rfl⟩

def tornStream : Bytes := encode ⟨16,[104,105]⟩ ++ [16,0]

theorem tornStreamWithin : ∀ n, Announces tornStream n → n ≤ clampInbound 0 := by
  intro n announced
  rcases announcesRest (by decide) announced with rfl | ⟨fs,t,a,b,c,d,rest,shape,_⟩
  · decide
  · have long := congrArg List.length shape
    simp only [List.length_append,List.length_cons,List.length_nil] at long
    omega

theorem codecLockstepTorn : ¬ (CleanAtBoundary 0 tornStream ∧ Lockstep 0 tornStream) := by
  intro both
  exact (codecLockstep 0 tornStream ⟨16,[]⟩ tornStreamWithin).1.mp both
    ⟨[⟨16,[104,105]⟩],[16,0],rfl,by decide,by decide,by decide⟩

end Guesthopper.FrameCodecs
