import Guesthopper.PtyDuplex

/-! When the composed session keeps moving. The client stops reading for the length of a
send, so a send must be able to end without the program's help: after the agent has
written what the tty input buffer has room for, the frames still behind the one it is
stuck on, the new ones included, must fit the channel. A batch for which they do not can
close the cycle of five full buffers. -/
namespace Guesthopper.PtyFlow
open FrameBytes PtyDuplex Machine

variable {caps : Caps} {s t : Duplex} {a : Action}

def stdinLen (f : Frame) : Nat := if f.ftype = frameStdin then f.payload.length else 0

def leftover (room pending : Nat) : List Frame → Nat
  | [] => 0
  | f::fs => if pending ≤ room then leftover (room - pending) (stdinLen f) fs else (encodeAll (f::fs)).length

theorem leftoverBound (room pending : Nat) (fs : List Frame) : leftover room pending fs ≤ (encodeAll fs).length := by
  induction fs generalizing room pending with
  | nil => exact Nat.zero_le _
  | cons f fs ih =>
    unfold leftover
    split
    · have tail := ih (room - pending) (stdinLen f)
      rw [encodeAllCons,List.length_append]
      omega
    · exact Nat.le_refl _

theorem leftoverMono {room more pending : Nat} (fs : List Frame) (grows : room ≤ more) :
    leftover more pending fs ≤ leftover room pending fs := by
  induction fs generalizing room more pending with
  | nil => exact Nat.le_refl _
  | cons f fs ih =>
    by_cases fits : pending ≤ room
    · have later : pending ≤ more := by omega
      have less : room - pending ≤ more - pending := by omega
      simp only [leftover,if_pos fits,if_pos later]
      exact ih less
    · have bound := leftoverBound more pending (f::fs)
      simpa only [leftover,if_neg fits] using bound

theorem leftoverShift {room pending n : Nat} (fs : List Frame) (left : n ≤ pending) (right : n ≤ room) :
    leftover (room - n) (pending - n) fs = leftover room pending fs := by
  cases fs with
  | nil => rfl
  | cons f fs =>
    have same : room - n - (pending - n) = room - pending := by omega
    by_cases fits : pending ≤ room
    · have later : pending - n ≤ room - n := by omega
      simp only [leftover,if_pos fits,if_pos later,same]
    · have later : ¬ pending - n ≤ room - n := by omega
      simp only [leftover,if_neg fits,if_neg later]

theorem leftoverPop (room : Nat) (f : Frame) (fs : List Frame) :
    leftover room 0 (f::fs) = leftover room (stdinLen f) fs := by
  simp [leftover]

theorem leftoverStuck {pending : Nat} {fs : List Frame} (some : fs ≠ []) (stuck : 0 < pending) :
    leftover 0 pending fs = (encodeAll fs).length := by
  cases fs with
  | nil => contradiction
  | cons f fs =>
    have huge : ¬ pending ≤ 0 := by omega
    simp only [leftover,if_neg huge]

def agentBuf : Input → Bytes
  | .reading buf => buf
  | _ => []

def pending : Input → Nat
  | .writing rest => rest.length
  | _ => 0

def unsent : Client → Bytes
  | .sending rest _ => rest
  | _ => []

def Absorbs (caps : Caps) (s : Duplex) : Action → Prop
  | .clientSends fs _ =>
    leftover (caps.ttyIn - s.ttyIn.length) (pending s.input)
      (decodeAll maxFrameLen (agentBuf s.input ++ s.up) ++ fs) ≤ caps.up
  | _ => True

def small (fs : List Frame) : Prop := ∀ f ∈ fs, f.payload.length ≤ localChunk

structure Upward (caps : Caps) (s : Duplex) (k : Nat) (fs : List Frame) : Prop where
  alive : s.input ≠ .ended
  framed : agentBuf s.input ++ s.up ++ unsent s.client = encodeAll fs
  small : small fs
  rests : leftover (caps.ttyIn - s.ttyIn.length) (pending s.input) fs = k

def Rests (caps : Caps) (s : Duplex) (k : Nat) : Prop := ∃ fs, Upward caps s k fs

def Carries (caps : Caps) (s : Duplex) : Prop := ∃ k, Rests caps s k ∧ (unsent s.client ≠ [] → k ≤ caps.up)

theorem pourOne {cap : Nat} {src dst : Bytes} (nonempty : src ≠ []) (room : dst.length < cap) :
    ∃ pair, pour cap 1 src dst = some pair := by
  have long := List.length_pos_iff.mpr nonempty
  unfold pour
  rw [if_pos (by omega)]
  exact ⟨_,rfl⟩

theorem shortMissing {cap : Nat} {buf : Bytes} (h : arrive cap buf = .short) : 0 < missing buf := by
  unfold arrive at h
  split at h <;> try contradiction
  rename_i whole huge
  unfold missing
  split
  · rename_i t a b c d tail
    by_contra none
    simp only [head] at whole huge
    split at whole
    · rename_i big
      rw [if_pos big] at huge
      exact huge _ rfl
    · rename_i fits
      rw [if_neg (by omega)] at whole
      exact whole _ _ rfl
  · rename_i other
    rcases buf with _ | ⟨t,_ | ⟨a,_ | ⟨b,_ | ⟨c,_ | ⟨d,tail⟩⟩⟩⟩⟩
    iterate 5 · simp
    exact absurd rfl (other t a b c d tail)

theorem smallFits {fs : List Frame} (few : small fs) : ∀ f ∈ fs, f.payload.length ≤ maxFrameLen := by
  intro f present
  have le := few f present
  unfold localChunk at le
  unfold maxFrameLen
  omega

theorem headOversize {cap n : Nat} {raw : Bytes} (more : Bytes) (h : head cap raw = .oversize n) :
    head cap (raw ++ more) = .oversize n := by
  unfold head at h
  split at h <;> try contradiction
  split at h
  · rename_i big
    cases h
    simp only [List.cons_append,head]
    rw [if_pos big]
  · split at h <;> contradiction

theorem headSmall {g : Frame} {gs : List Frame} (cap : Nat) (few : small (g::gs)) :
    head (clampInbound cap) (encodeAll (g::gs)) = .frame g (encodeAll gs) := by
  have bound := clampInboundBounds cap
  have fits : g.payload.length ≤ clampInbound cap := by
    have le := few g (by simp)
    unfold localChunk at le
    unfold minInboundFrameLen at bound
    omega
  have limit : clampInbound cap < 2^32 := by
    unfold maxFrameLen at bound
    omega
  rw [encodeAllCons,headEncoded (encodeAll gs) fits limit]

theorem framedFits {buf more : Bytes} {fs : List Frame} (cap : Nat) (whole : buf ++ more = encodeAll fs)
    (few : small fs) (n : Nat) : head (clampInbound cap) buf ≠ .oversize n := by
  intro big
  have late := headOversize more big
  rw [whole] at late
  cases fs with
  | nil => simp [encodeAll,head] at late
  | cons g gs => rw [headSmall cap few] at late; contradiction

theorem restsSame {k : Nat} (ok : Rests caps s k) (up : t.up = s.up) (input : t.input = s.input)
    (client : unsent t.client = unsent s.client) (tty : t.ttyIn = s.ttyIn) : Rests caps t k := by
  obtain ⟨fs,alive,framed,few,rests⟩ := ok
  refine ⟨fs,?_,?_,few,?_⟩
  · rw [input]; exact alive
  · rw [input,up,client]; exact framed
  · rw [input,tty]; exact rests

theorem sendsRests {k : Nat} {fs : List Frame} {thenRead : Bool} (pc : s.client = .selecting) (new : small fs)
    (ok : Rests caps s k) : Rests caps {s with client := .sending (encodeAll fs) thenRead}
      (leftover (caps.ttyIn - s.ttyIn.length) (pending s.input)
        (decodeAll maxFrameLen (agentBuf s.input ++ s.up) ++ fs)) := by
  obtain ⟨gs,alive,framed,few,_⟩ := ok
  simp only [pc,unsent,List.append_nil] at framed
  refine ⟨gs ++ fs,alive,?_,?_,?_⟩
  · simp only [unsent]
    rw [framed,encodeAllAppend]
  · intro f present
    rcases List.mem_append.mp present with old | young
    · exact few f old
    · exact new f young
  · rw [framed,decodeAllEncoded (by decide) (smallFits few)]

theorem putsRests {k n : Nat} {rest : Bytes} {thenRead : Bool} (pc : s.client = .sending rest thenRead)
    (ok : Rests caps s k) :
    Rests caps {s with client := .sending (rest.drop n) thenRead, up := s.up ++ rest.take n} k := by
  obtain ⟨fs,alive,framed,few,rests⟩ := ok
  simp only [pc,unsent] at framed
  refine ⟨fs,alive,?_,few,rests⟩
  simp only [unsent]
  rw [← framed]
  simp only [List.append_assoc,List.take_append_drop]

theorem arriveWhole {cap : Nat} {buf : Bytes} {f : Frame} (h : arrive cap buf = .whole f) :
    ∃ rest, head cap buf = .frame f rest := by
  unfold arrive at h
  split at h <;> try contradiction
  cases h
  exact ⟨_,by assumption⟩

theorem stdinOwed (f : Frame) :
    agentBuf (if f.ftype = frameStdin ∧ f.payload ≠ [] then .writing f.payload else .reading []) = [] ∧
    pending (if f.ftype = frameStdin ∧ f.payload ≠ [] then .writing f.payload else .reading []) = stdinLen f := by
  by_cases kind : f.ftype = frameStdin
  · by_cases none : f.payload = []
    · simp [kind,none,agentBuf,pending,stdinLen]
    · simp [kind,none,agentBuf,pending,stdinLen]
  · simp [kind,agentBuf,pending,stdinLen]

theorem dispatchedCases {buf : Bytes} (fits : ∀ n, head (clampInbound caps.inboundLen) buf ≠ .oversize n) :
    dispatched caps buf = .reading buf ∨
    ∃ f rest, head (clampInbound caps.inboundLen) buf = .frame f rest ∧ dispatched caps buf ≠ .ended ∧
      agentBuf (dispatched caps buf) = [] ∧ pending (dispatched caps buf) = stdinLen f := by
  unfold dispatched
  cases found : arrive (clampInbound caps.inboundLen) buf with
  | short => exact .inl rfl
  | refused =>
    unfold arrive at found
    split at found <;> try contradiction
    rename_i n big
    exact absurd big (fits n)
  | whole f =>
    obtain ⟨rest,parsed⟩ := arriveWhole found
    refine .inr ⟨f,rest,parsed,?_,stdinOwed f⟩
    dsimp only
    split <;> simp

theorem writtenOwed (rest : Bytes) :
    agentBuf (if rest = [] then .reading [] else .writing rest) = [] ∧
    pending (if rest = [] then .reading [] else .writing rest) = rest.length := by
  by_cases done : rest = []
  · simp [done,agentBuf,pending]
  · simp [done,agentBuf,pending]

theorem passing (n : Nat) (x y z : Bytes) : x ++ y.take n ++ (y.drop n ++ z) = x ++ y ++ z := by
  rw [List.append_assoc,← List.append_assoc (y.take n),List.take_append_drop,List.append_assoc]

theorem takesRests {k n : Nat} {buf : Bytes} (pc : s.input = .reading buf) (positive : 0 < n)
    (asked : n ≤ missing buf) (enough : n ≤ s.up.length) (ok : Rests caps s k) :
    Rests caps {s with input := dispatched caps (buf ++ s.up.take n), up := s.up.drop n} k := by
  obtain ⟨fs,_,framed,few,rests⟩ := ok
  simp only [pc,agentBuf,pending] at framed rests
  have whole := (passing n buf s.up (unsent s.client)).trans framed
  rcases dispatchedCases (framedFits caps.inboundLen whole few) with short | ⟨f,rest,found,alive,empty,owed⟩
  · refine ⟨fs,?_,?_,few,?_⟩
    · simp [short]
    · simp only [short,agentBuf]
      rw [← whole,List.append_assoc]
    · simp only [short,pending]
      exact rests
  · have taken : (s.up.take n).length = n := by rw [List.length_take]; omega
    have done : rest = [] := missingRest (by omega) (by omega) found
    subst done
    have parsed := headAppend (s.up.drop n ++ unsent s.client) found
    rw [whole] at parsed
    cases fs with
    | nil => simp [encodeAll,head] at parsed
    | cons g gs =>
      rw [headSmall _ few] at parsed
      obtain ⟨same,tail⟩ := Head.frame.inj parsed
      refine ⟨gs,alive,?_,fun f present => few f (List.mem_cons_of_mem _ present),?_⟩
      · simp only [empty,List.nil_append]
        exact tail.symm
      · rw [leftoverPop,same] at rests
        simpa only [owed] using rests

theorem writesRests {k n : Nat} {rest : Bytes} (pc : s.input = .writing rest) (enough : n ≤ rest.length)
    (room : s.ttyIn.length + n ≤ caps.ttyIn) (ok : Rests caps s k) :
    Rests caps {s with
      input := if rest.drop n = [] then .reading [] else .writing (rest.drop n),
      ttyIn := s.ttyIn ++ rest.take n} k := by
  obtain ⟨fs,_,framed,few,rests⟩ := ok
  simp only [pc,agentBuf,pending] at framed rests
  refine ⟨fs,?_,?_,few,?_⟩
  · dsimp only
    split <;> simp
  · rw [(writtenOwed _).1]
    exact framed
  · have less : caps.ttyIn - (s.ttyIn ++ rest.take n).length = caps.ttyIn - s.ttyIn.length - n := by
      simp only [List.length_append,List.length_take]
      omega
    rw [(writtenOwed _).2,less,List.length_drop,leftoverShift fs enough (by omega)]
    exact rests

theorem programTakesRests {k : Nat} (n : Nat) (ok : Rests caps s k) :
    ∃ j, j ≤ k ∧ Rests caps {s with ttyIn := s.ttyIn.drop n} j := by
  obtain ⟨fs,alive,framed,few,rests⟩ := ok
  have grows : caps.ttyIn - s.ttyIn.length ≤ caps.ttyIn - (s.ttyIn.drop n).length := by
    rw [List.length_drop]
    omega
  have less : leftover (caps.ttyIn - (s.ttyIn.drop n).length) (pending s.input) fs ≤
      leftover (caps.ttyIn - s.ttyIn.length) (pending s.input) fs := leftoverMono fs grows
  rw [rests] at less
  exact ⟨_,less,fs,alive,framed,few,rfl⟩

theorem shownUnsent (buf : Bytes) : unsent (shown buf) = [] := by
  unfold shown
  split
  · rfl
  · rfl
  · split <;> rfl

theorem sentUnsent (thenRead : Bool) : unsent (if thenRead then .reading [] else .selecting) = [] := by
  cases thenRead <;> rfl

theorem moveRests {k : Nat} (h : Move caps s a t) (own : prompted a = false) (ok : Rests caps s k) :
    ∃ j, j ≤ k ∧ Rests caps t j ∧ (unsent t.client ≠ [] → unsent s.client ≠ []) := by
  cases h with
  | clientSends => contradiction
  | clientReads pc => exact ⟨k,Nat.le_refl _,restsSame ok rfl rfl (by rw [pc]; rfl) rfl,fun more => absurd rfl more⟩
  | clientPuts pc =>
    refine ⟨k,Nat.le_refl _,putsRests pc ok,fun more none => ?_⟩
    simp only [pc,unsent] at none
    simp [unsent,none] at more
  | clientSent pc =>
    exact ⟨k,Nat.le_refl _,restsSame ok rfl rfl (by rw [pc]; exact sentUnsent _) rfl,
      fun more => absurd (sentUnsent _) more⟩
  | clientTakes pc =>
    exact ⟨k,Nat.le_refl _,restsSame ok rfl rfl (by rw [pc]; exact shownUnsent _) rfl,
      fun more => absurd (shownUnsent _) more⟩
  | agentTakes pc positive asked enough => exact ⟨k,Nat.le_refl _,takesRests pc positive asked enough ok,id⟩
  | agentWrites pc _ enough room => exact ⟨k,Nat.le_refl _,writesRests pc enough room ok,id⟩
  | programTakes =>
    obtain ⟨j,less,after⟩ := programTakesRests _ ok
    exact ⟨j,less,after,id⟩
  | programWrites | programPuts | outReads | outSends | writerTakes | writerPuts | writerFlushed =>
    exact ⟨k,Nat.le_refl _,restsSame ok rfl rfl rfl rfl,id⟩

theorem moveCarries (h : Move caps s a t) (absorbs : Absorbs caps s a) (ok : Carries caps s) : Carries caps t := by
  obtain ⟨k,rests,ends⟩ := ok
  by_cases own : prompted a = false
  · obtain ⟨j,less,after,still⟩ := moveRests h own rests
    exact ⟨j,after,fun more => Nat.le_trans less (ends (still more))⟩
  · cases h with
    | clientSends pc few => exact ⟨_,sendsRests pc few rests,fun _ => absorbs⟩
    | _ => exact absurd rfl own

-- No party waits for nothing: a reader of a frame still lacks bytes, a writer has some in hand.
structure Working (s : Duplex) : Prop where
  client : ∀ buf, s.client = .reading buf → 0 < missing buf
  input : ∀ buf, s.input = .reading buf → 0 < missing buf
  owed : ∀ rest, s.input = .writing rest → rest ≠ []
  program : ∀ rest, s.program = .writing rest → rest ≠ []
  attached : s.out.attached = true
  live : Tap.live s.out = true
  writer : s.box.writer ≠ .exited

theorem missingNone : 0 < missing [] := by decide

theorem shownMissing {buf part : Bytes} (h : shown buf = .reading part) : 0 < missing part := by
  unfold shown at h
  split at h
  · rename_i short
    cases h
    exact shortMissing short
  · contradiction
  · split at h <;> contradiction

theorem moveClient (h : Move caps s a t) (ok : ∀ buf, s.client = .reading buf → 0 < missing buf) :
    ∀ buf, t.client = .reading buf → 0 < missing buf := by
  intro part reads
  cases h with
  | clientSends | clientPuts => contradiction
  | clientReads => cases reads; exact missingNone
  | clientSent =>
    dsimp only at reads
    split at reads
    · cases reads; exact missingNone
    · contradiction
  | clientTakes => exact shownMissing reads
  | _ => exact ok part reads

theorem dispatchedMissing {buf part : Bytes} (h : dispatched caps buf = .reading part) : 0 < missing part := by
  unfold dispatched at h
  split at h
  · rename_i short
    cases h
    exact shortMissing short
  · contradiction
  · split at h <;> cases h
    exact missingNone

theorem dispatchedOwed {buf rest : Bytes} (h : dispatched caps buf = .writing rest) : rest ≠ [] := by
  unfold dispatched at h
  split at h <;> try contradiction
  split at h <;> cases h
  rename_i data
  exact data.2

theorem moveInput (h : Move caps s a t) (ok : ∀ buf, s.input = .reading buf → 0 < missing buf) :
    ∀ buf, t.input = .reading buf → 0 < missing buf := by
  intro part reads
  cases h with
  | agentTakes => exact dispatchedMissing reads
  | agentWrites =>
    dsimp only at reads
    split at reads <;> cases reads
    exact missingNone
  | _ => exact ok part reads

theorem moveOwed (h : Move caps s a t) (ok : ∀ rest, s.input = .writing rest → rest ≠ []) :
    ∀ rest, t.input = .writing rest → rest ≠ [] := by
  intro rest writes
  cases h with
  | agentTakes => exact dispatchedOwed writes
  | agentWrites =>
    dsimp only at writes
    split at writes <;> cases writes
    assumption
  | _ => exact ok rest writes

theorem moveProgram (h : Move caps s a t) (ok : ∀ rest, s.program = .writing rest → rest ≠ []) :
    ∀ rest, t.program = .writing rest → rest ≠ [] := by
  intro rest writes
  cases h with
  | programWrites _ nonempty => cases writes; exact nonempty
  | programPuts =>
    dsimp only at writes
    split at writes <;> cases writes
    assumption
  | _ => exact ok rest writes

theorem moveTap (h : Move caps s a t) (attached : s.out.attached = true) (live : Tap.live s.out = true) :
    t.out.attached = true ∧ Tap.live t.out = true := by
  cases h with
  | programPuts _ _ _ _ ok =>
    obtain ⟨_,_,rfl⟩ := Tap.supplyCases ok
    exact ⟨attached,live⟩
  | outReads ok =>
    obtain ⟨_,_,_,_,rfl⟩ := Tap.readCases ok
    exact ⟨attached,rfl⟩
  | outSends => exact ⟨attached,rfl⟩
  | _ => exact ⟨attached,live⟩

theorem moveWriter (h : Move caps s a t) (ok : s.box.writer ≠ .exited) : t.box.writer ≠ .exited := by
  cases h with
  | outSends _ sent =>
    rcases Outbox.offerCases sent with ⟨gone,_⟩ | ⟨_,_,rfl⟩
    · contradiction
    · exact ok
  | writerTakes taken =>
    obtain ⟨_,_,_,_,rfl⟩ := Outbox.takeCases taken
    simp
  | writerPuts _ _ _ _ wrote =>
    obtain ⟨_,_,_,_,_,rfl⟩ := Outbox.putCases wrote
    simp
  | writerFlushed done =>
    obtain ⟨_,_,rfl⟩ := Outbox.finishCases done
    simp
  | _ => exact ok

theorem moveWorking (h : Move caps s a t) (ok : Working s) : Working t := by
  obtain ⟨attached,live⟩ := moveTap h ok.attached ok.live
  exact ⟨moveClient h ok.client,moveInput h ok.input,moveOwed h ok.owed,moveProgram h ok.program,attached,live,
    moveWriter h ok.writer⟩

theorem workingStart : Working start := by
  refine ⟨?_,?_,?_,?_,rfl,rfl,?_⟩
  · intro buf reads; contradiction
  · intro buf reads; cases reads; exact missingNone
  · intro rest writes; contradiction
  · intro rest writes; contradiction
  · simp [start,Outbox.empty]

theorem restsStart : Rests caps start 0 := by
  refine ⟨[],?_,rfl,?_,rfl⟩
  · simp [start]
  · intro f present; contradiction

theorem reachedWorking {actions : List Action} (along : Along (step caps) (Absorbs caps) start actions)
    (reached : run (step caps) start actions = some s) : Working s ∧ Carries caps s := by
  refine runKeepsAlong (I := fun u => Working u ∧ Carries caps u) ?_ ⟨workingStart,0,restsStart,fun _ => Nat.zero_le _⟩ along reached
  intro u b v both absorbs h
  exact ⟨moveWorking (stepMove h) both.1,moveCarries (stepMove h) absorbs both.2⟩

def inward : Action → Bool
  | .clientPuts _ | .agentTakes _ | .agentWrites _ => true
  | _ => false

def outward : Action → Bool
  | .programWrites _ | .programPuts _ | .outReads _ | .outSends | .writerTakes | .writerPuts _ | .writerFlushed => true
  | _ => false

def Moves (caps : Caps) (kind : Action → Bool) (s : Duplex) : Prop := ∃ a t, kind a = true ∧ step caps s a = some t

theorem movesFlow {kind : Action → Bool} (own : ∀ a, kind a = true → prompted a = false) (h : Moves caps kind s) :
    Flows caps s := by
  obtain ⟨a,t,able,moved⟩ := h
  exact ⟨a,own a able,by rw [moved]; rfl⟩

theorem inwardOwn (a : Action) (h : inward a = true) : prompted a = false := by
  cases a <;> first | rfl | cases h

theorem outwardOwn (a : Action) (h : outward a = true) : prompted a = false := by
  cases a <;> first | rfl | cases h

theorem takesForOne {buf src : Bytes} (lacks : 0 < missing buf) (more : src ≠ []) : takesFor buf 1 src = true := by
  have long := List.length_pos_iff.mpr more
  simp only [takesFor,decide_eq_true_eq]
  omega

theorem inputMoves (ok : Working s) (alive : s.input ≠ .ended) (queued : s.up ≠ []) :
    inputBlocked caps s = true ∨ Moves caps inward s := by
  cases ready : s.input with
  | ended => contradiction
  | reading buf =>
    have able := takesForOne (ok.input buf ready) queued
    exact .inr ⟨.agentTakes 1,_,rfl,by simp only [step,agentTakes,ready,able,if_true]; rfl⟩
  | writing data =>
    have nonempty := ok.owed data ready
    by_cases free : s.ttyIn.length < caps.ttyIn
    · obtain ⟨pair,poured⟩ := pourOne nonempty free
      exact .inr ⟨.agentWrites 1,_,rfl,by simp only [step,agentWrites,ready,poured]; rfl⟩
    · cases data with
      | nil => contradiction
      | cons b rest =>
        left
        simp only [inputBlocked,ready,decide_eq_true_eq]
        omega

theorem sendMoves {b : UInt8} {rest : Bytes} {thenRead : Bool} (pc : s.client = .sending (b::rest) thenRead)
    (ok : Working s) (alive : s.input ≠ .ended) :
    (clientBlocked caps s = true ∧ inputBlocked caps s = true) ∨ Moves caps inward s := by
  by_cases room : s.up.length < caps.up
  · obtain ⟨pair,poured⟩ := pourOne (List.cons_ne_nil b rest) room
    exact .inr ⟨.clientPuts 1,_,rfl,by simp only [step,clientPuts,pc,poured]; rfl⟩
  have queued : s.up ≠ [] := by
    have := caps.upSome
    exact List.length_pos_iff.mp (by omega)
  have full : clientBlocked caps s = true := by
    simp only [clientBlocked,pc,decide_eq_true_eq]
    omega
  exact (inputMoves ok alive queued).imp (fun stuck => ⟨full,stuck⟩) id

/- A send that has bytes left always ends: were the client and the agent both stuck, the agent
would sit behind a full tty, and what is left does not fit the channel. -/
theorem sendFlows {b : UInt8} {rest : Bytes} {thenRead : Bool} (pc : s.client = .sending (b::rest) thenRead)
    (ok : Working s) (carries : Carries caps s) : Flows caps s := by
  obtain ⟨k,⟨fs,alive,framed,_,rests⟩,ends⟩ := carries
  rcases (sendMoves pc ok alive : _ ∨ Moves caps inward s) with ⟨client,input⟩ | moves
  · unfold inputBlocked at input
    split at input <;> try contradiction
    rename_i c data ready
    simp only [clientBlocked,pc,decide_eq_true_eq] at client input
    simp only [ready,pc,agentBuf,pending,unsent,List.nil_append] at framed rests ends
    have full : caps.ttyIn - s.ttyIn.length = 0 := by omega
    have size := congrArg List.length framed
    simp only [List.length_append,List.length_cons] at size
    have frames : fs ≠ [] := by
      intro none
      simp [none,encodeAll] at size
    have le := ends (by simp)
    rw [full,leftoverStuck frames (by simp)] at rests
    omega
  · exact movesFlow inwardOwn moves

theorem programMoves (ok : Working s) : programBlocked caps s = true ∨ Moves caps outward s := by
  cases writes : s.program with
  | ready => exact .inr ⟨.programWrites [0],_,rfl,by simp only [step,programWrites,writes]; rfl⟩
  | writing rest =>
    have nonempty := ok.program rest writes
    by_cases free : s.out.unread.length < caps.ttyOut
    · obtain ⟨pair,poured⟩ := pourOne nonempty free
      have opened : Tap.live s.out = true ∧ s.out.attached = true := ⟨ok.live,ok.attached⟩
      exact .inr ⟨.programPuts 1,_,rfl,by simp only [step,programPuts,writes,poured,Tap.supply,if_pos opened]; rfl⟩
    · cases rest with
      | nil => contradiction
      | cons b rest =>
        left
        simp only [programBlocked,writes,decide_eq_true_eq]
        omega

theorem outMoves (ok : Working s) (more : s.out.unread ≠ []) : outBlocked s = true ∨ Moves caps outward s := by
  have live := ok.live
  cases phase : s.out.phase with
  | holding chunk =>
    by_cases free : s.box.queue.length < SessionModel.channelBound
    · obtain ⟨box,offered⟩ := Outbox.offerFree ⟨frameStdout,chunk⟩ ok.writer free
      exact .inr ⟨.outSends,_,rfl,by simp only [step,outSends,phase,offered]; rfl⟩
    · left
      simp only [outBlocked,phase,decide_eq_true_eq]
      omega
  | reading =>
    have long := List.length_pos_iff.mpr more
    have able : 0 < 1 ∧ 1 ≤ SessionModel.readChunk ∧ 1 ≤ s.out.unread.length := ⟨by decide,by decide,long⟩
    exact .inr ⟨.outReads 1,_,rfl,by simp only [step,outReads,Tap.read,phase,if_pos able]; rfl⟩
  | idle | finished | aborted => simp [Tap.live,phase] at live

theorem writerMoves (ok : Working s) (more : s.box.queue ≠ []) : writerBlocked caps s = true ∨ Moves caps outward s := by
  cases writes : s.box.writer with
  | exited => exact absurd writes ok.writer
  | receiving =>
    cases queued : s.box.queue with
    | nil => contradiction
    | cons f queue => exact .inr ⟨.writerTakes,_,rfl,by simp only [step,writerTakes,Outbox.take,writes,queued]; rfl⟩
  | writing item rest =>
    cases rest with
    | nil => exact .inr ⟨.writerFlushed,_,rfl,by simp only [step,writerFlushed,Outbox.finish,writes]; rfl⟩
    | cons b rest =>
      by_cases free : s.down.length < caps.down
      · obtain ⟨pair,poured⟩ := pourOne (List.cons_ne_nil b rest) free
        exact .inr ⟨.writerPuts 1,_,rfl,by simp only [step,writerPuts,Outbox.put,writes,poured]; rfl⟩
      · left
        simp only [writerBlocked,writes,decide_eq_true_eq]
        omega

theorem outputMoves (ok : Working s) :
    (programBlocked caps s = true ∧ outBlocked s = true ∧ writerBlocked caps s = true) ∨ Moves caps outward s := by
  rcases (programMoves ok : _ ∨ Moves caps outward s) with program | moves
  · have unread : s.out.unread ≠ [] := by
      unfold programBlocked at program
      split at program <;> try contradiction
      simp only [decide_eq_true_eq] at program
      have := caps.ttyOutSome
      exact List.length_pos_iff.mp (by omega)
    rcases (outMoves ok unread : _ ∨ Moves caps outward s) with out | moves
    · have queued : s.box.queue ≠ [] := by
        unfold outBlocked at out
        split at out <;> try contradiction
        exact List.length_pos_iff.mp (Nat.lt_of_lt_of_le (by decide) (of_decide_eq_true out))
      exact (writerMoves ok queued).imp (fun writer => ⟨program,out,writer⟩) id
    · exact .inr moves
  · exact .inr moves

theorem outputFlows (ok : Working s) (dry : s.down = []) : Flows caps s := by
  rcases outputMoves ok with ⟨_,_,writer⟩ | moves
  · unfold writerBlocked at writer
    split at writer <;> try contradiction
    have full := of_decide_eq_true writer
    rw [dry] at full
    exact absurd caps.downSome (Nat.not_lt_of_le full)
  · exact movesFlow outwardOwn moves

theorem workingFlows (ok : Working s) (carries : Carries caps s) (alive : Alive s) : Flows caps s := by
  cases pc : s.client with
  | ended => exact absurd pc alive.1
  | selecting =>
    by_cases dry : s.down = []
    · exact outputFlows ok dry
    · have able : s.client = .selecting ∧ s.down ≠ [] := ⟨pc,dry⟩
      exact ⟨.clientReads,rfl,by simp only [step,clientReads,if_pos able]; rfl⟩
  | reading buf =>
    by_cases dry : s.down = []
    · exact outputFlows ok dry
    · have able := takesForOne (ok.client buf pc) dry
      exact ⟨.clientTakes 1,rfl,by simp only [step,clientTakes,pc,able,if_true]; rfl⟩
  | sending rest thenRead =>
    cases rest with
    | nil => exact ⟨.clientSent,rfl,by simp only [step,clientSent,pc]; rfl⟩
    | cons b rest => exact sendFlows pc ok carries

structure Jam (caps : Caps) (s : Duplex) : Prop where
  client : ∃ b rest thenRead, s.client = .sending (b::rest) thenRead
  up : caps.up ≤ s.up.length
  input : ∃ b rest, s.input = .writing (b::rest)
  ttyIn : caps.ttyIn ≤ s.ttyIn.length
  program : ∃ b rest, s.program = .writing (b::rest)
  ttyOut : caps.ttyOut ≤ s.out.unread.length
  out : ∃ chunk, s.out.phase = .holding chunk
  queue : SessionModel.channelBound ≤ s.box.queue.length
  writer : ∃ f b rest, s.box.writer = .writing f (b::rest)
  down : caps.down ≤ s.down.length

theorem wedgedJam (h : Wedged caps s) : Jam caps s := by
  obtain ⟨client,input,program,out,writer⟩ := h
  unfold clientBlocked at client
  unfold inputBlocked at input
  unfold programBlocked at program
  unfold outBlocked at out
  unfold writerBlocked at writer
  split at client <;> try contradiction
  split at input <;> try contradiction
  split at program <;> try contradiction
  split at out <;> try contradiction
  split at writer <;> try contradiction
  exact ⟨⟨_,_,_,by assumption⟩,of_decide_eq_true client,⟨_,_,by assumption⟩,of_decide_eq_true input,
    ⟨_,_,by assumption⟩,of_decide_eq_true program,⟨_,by assumption⟩,of_decide_eq_true out,
    ⟨_,_,_,by assumption⟩,of_decide_eq_true writer⟩

theorem jamStuck (jam : Jam caps s) (h : Move caps s a t) : False := by
  obtain ⟨b,rest,thenRead,client⟩ := jam.client
  obtain ⟨c,data,input⟩ := jam.input
  obtain ⟨d,raw,program⟩ := jam.program
  obtain ⟨chunk,out⟩ := jam.out
  obtain ⟨f,e,wire,writer⟩ := jam.writer
  have up := jam.up
  have ttyIn := jam.ttyIn
  have ttyOut := jam.ttyOut
  have queue := jam.queue
  have down := jam.down
  cases h with
  | clientSends pc | clientReads pc | clientSent pc | clientTakes pc => simp [client] at pc
  | agentTakes pc => simp [input] at pc
  | programTakes pc | programWrites pc => simp [program] at pc
  | clientPuts _ positive _ room => omega
  | agentWrites _ positive _ room => omega
  | programPuts _ positive _ room => omega
  | writerPuts _ positive _ room => omega
  | outReads ok =>
    have idle := (Tap.readCases ok).1
    simp [out] at idle
  | outSends _ ok =>
    rcases Outbox.offerCases ok with ⟨gone,_⟩ | ⟨_,free,_⟩
    · simp [writer] at gone
    · omega
  | writerTakes ok =>
    obtain ⟨_,_,idle,_⟩ := Outbox.takeCases ok
    simp [writer] at idle
  | writerFlushed ok =>
    obtain ⟨_,done,_⟩ := Outbox.finishCases ok
    simp [writer] at done

theorem wedgedStuck (h : Wedged caps s) (a : Action) : step caps s a = none := by
  by_contra able
  obtain ⟨t,moved⟩ := Option.ne_none_iff_exists'.mp able
  exact jamStuck (wedgedJam h) (stepMove moved)

theorem wedgedAlive (h : Wedged caps s) : Alive s := by
  have jam := wedgedJam h
  obtain ⟨b,rest,thenRead,client⟩ := jam.client
  obtain ⟨c,data,input⟩ := jam.input
  exact ⟨by rw [client]; simp,by rw [input]; simp⟩

theorem workingSafe (ok : Working s) (carries : Carries caps s) : ¬ Wedged caps s ∧ (Alive s → Flows caps s) := by
  refine ⟨?_,workingFlows ok carries⟩
  intro stuck
  obtain ⟨a,_,able⟩ := workingFlows ok carries (wedgedAlive stuck)
  simp [wedgedStuck stuck a] at able

theorem duplexFlows {actions : List Action} (along : Along (step caps) (Absorbs caps) start actions)
    (reached : run (step caps) start actions = some s) : ¬ Wedged caps s ∧ (Alive s → Flows caps s) := by
  obtain ⟨ok,carries⟩ := reachedWorking along reached
  exact workingSafe ok carries

theorem alongUnprompted {actions : List Action} (own : ∀ a ∈ actions, prompted a = false) :
    Along (step caps) (Absorbs caps) s actions := by
  induction actions generalizing s with
  | nil => trivial
  | cons a rest ih =>
    refine ⟨?_,fun next _ => ih (fun b present => own b (List.mem_cons_of_mem a present))⟩
    have first := own a (List.mem_cons_self)
    cases a with
    | clientSends fs thenRead => contradiction
    | _ => trivial

end Guesthopper.PtyFlow
