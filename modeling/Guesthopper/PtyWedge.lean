import Mathlib.Data.Prod.Lex
import Guesthopper.PtyFlow

/-! A send that the agent cannot absorb can always be driven into the wedge: let the agent
write what the tty takes, let the client fill the channel, and let a program that no longer
reads write until every buffer towards the client is full. So the condition on a send is
exact. Both fillings are runs that lower a rank; the output side has six coordinates, from
the client's end of the pipeline back to the program. -/
namespace Guesthopper.PtyWedge
open FrameBytes PtyDuplex PtyFlow Machine

variable {caps : Caps} {s t : Duplex} {a : Action}

abbrev Rank := ℕ ×ₗ ℕ ×ₗ ℕ ×ₗ ℕ ×ₗ ℕ ×ₗ ℕ

def rank (a b c d e f : Nat) : Rank := toLex (a,toLex (b,toLex (c,toLex (d,toLex (e,f)))))

theorem rankLower (a b c d e f a' b' c' d' e' f' : Nat) : rank a b c d e f < rank a' b' c' d' e' f' ↔
    a < a' ∨ a = a' ∧ (b < b' ∨ b = b' ∧ (c < c' ∨ c = c' ∧ (d < d' ∨ d = d' ∧ (e < e' ∨ e = e' ∧ f < f')))) := by
  simp only [rank,Prod.Lex.toLex_lt_toLex]

def writerRank : Outbox.Writer Frame UInt8 → Nat
  | .writing _ [] => 2
  | .receiving => 1
  | _ => 0

def phaseRank : Tap.Phase UInt8 → Nat
  | .reading => 1
  | _ => 0

def programRank : Program → Nat
  | .ready => 1
  | _ => 0

def outputRank (caps : Caps) (s : Duplex) : Rank :=
  rank (caps.down - s.down.length) (writerRank s.box.writer) (SessionModel.channelBound - s.box.queue.length)
    (phaseRank s.out.phase) (caps.ttyOut - s.out.unread.length) (programRank s.program)

theorem outwardLowers (h : Move caps s a t) (out : outward a = true) (ok : Working s) :
    outputRank caps t < outputRank caps s := by
  refine (rankLower ..).mpr ?_
  cases h with
  | clientSends | clientReads | clientPuts | clientSent | clientTakes | agentTakes | agentWrites | programTakes =>
    cases out
  | programWrites pc => simp [pc,programRank]
  | programPuts pc positive enough room supplied =>
    obtain ⟨_,_,rfl⟩ := Tap.supplyCases supplied
    refine .inr ⟨rfl,.inr ⟨rfl,.inr ⟨rfl,.inr ⟨rfl,.inl ?_⟩⟩⟩⟩
    simp only [List.length_append,List.length_take]
    omega
  | outReads got =>
    obtain ⟨ready,_,_,_,rfl⟩ := Tap.readCases got
    simp [ready,phaseRank]
  | outSends holds sent =>
    rcases Outbox.offerCases sent with ⟨gone,_⟩ | ⟨_,free,rfl⟩
    · exact absurd gone ok.writer
    · refine .inr ⟨rfl,.inr ⟨rfl,.inl ?_⟩⟩
      simp only [List.length_append,List.length_singleton]
      omega
  | writerTakes taken =>
    obtain ⟨f,rest,idle,_,rfl⟩ := Outbox.takeCases taken
    simp [idle,writerRank,encode]
  | writerPuts pc positive enough room wrote =>
    refine .inl ?_
    simp only [List.length_append,List.length_take]
    omega
  | writerFlushed done =>
    obtain ⟨f,flushed,rfl⟩ := Outbox.finishCases done
    simp [flushed,writerRank]

structure Beside (s t : Duplex) : Prop where
  client : t.client = s.client
  up : t.up = s.up
  input : t.input = s.input
  ttyIn : t.ttyIn = s.ttyIn

theorem outwardBeside (h : Move caps s a t) (out : outward a = true) : Beside s t := by
  cases h with
  | clientSends | clientReads | clientPuts | clientSent | clientTakes | agentTakes | agentWrites | programTakes =>
    cases out
  | _ => exact ⟨rfl,rfl,rfl,rfl⟩

theorem outputFills (caps : Caps) (ok : Working s) : ∃ actions t, (∀ a ∈ actions, outward a = true) ∧
    run (step caps) s actions = some t ∧ Beside s t ∧
    programBlocked caps t = true ∧ outBlocked t = true ∧ writerBlocked caps t = true := by
  have moves : ∀ u, Working u ∧ Beside s u →
      (programBlocked caps u = true ∧ outBlocked u = true ∧ writerBlocked caps u = true) ∨
      ∃ a v, outward a = true ∧ step caps u a = some v ∧ (Working v ∧ Beside s v) ∧
        outputRank caps v < outputRank caps u := by
    intro u both
    refine (outputMoves both.1).imp id ?_
    intro more
    obtain ⟨a,v,out,moved⟩ := more
    have move := stepMove moved
    have beside := outwardBeside move out
    refine ⟨a,v,out,moved,⟨moveWorking move both.1,?_⟩,outwardLowers move out both.1⟩
    exact ⟨beside.client.trans both.2.client,beside.up.trans both.2.up,beside.input.trans both.2.input,
      beside.ttyIn.trans both.2.ttyIn⟩
  obtain ⟨actions,t,all,reached,both,full⟩ := runSettles (outputRank caps) moves ⟨ok,rfl,rfl,rfl,rfl⟩
  exact ⟨actions,t,all,reached,both.2,full⟩

def inputRank (s : Duplex) : Nat :=
  4 * (unsent s.client).length + 3 * s.up.length + 2 * (agentBuf s.input).length + pending s.input

theorem dispatchedRank (caps : Caps) (buf : Bytes) :
    2 * (agentBuf (dispatched caps buf)).length + pending (dispatched caps buf) ≤ 2 * buf.length := by
  unfold dispatched
  cases found : arrive (clampInbound caps.inboundLen) buf with
  | short => simp [agentBuf,pending]
  | refused => simp [agentBuf,pending]
  | whole f =>
    obtain ⟨rest,parsed⟩ := arriveWhole found
    have size := (headFrame parsed).2
    dsimp only
    split
    · simp only [agentBuf,pending,List.length_nil]
      omega
    · simp [agentBuf,pending]

theorem inwardLowers (h : Move caps s a t) (into : inward a = true) : inputRank t < inputRank s := by
  unfold inputRank
  cases h with
  | clientPuts pc positive enough room =>
    simp only [pc,unsent,List.length_append,List.length_take,List.length_drop]
    omega
  | @agentTakes n buf pc positive asked enough =>
    have less := dispatchedRank caps (buf ++ s.up.take n)
    simp only [List.length_append,List.length_take] at less
    simp only [pc,agentBuf,pending,List.length_drop]
    simp only [agentBuf,pending] at less
    omega
  | @agentWrites n rest pc positive enough room =>
    rw [(writtenOwed _).1,(writtenOwed _).2]
    simp only [pc,agentBuf,pending,List.length_drop]
    omega
  | clientSends | clientReads | clientSent | clientTakes | programTakes | programWrites | programPuts | outReads
  | outSends | writerTakes | writerPuts | writerFlushed => cases into

theorem inwardRests {k : Nat} (h : Move caps s a t) (into : inward a = true) (ok : Rests caps s k) : Rests caps t k := by
  cases h with
  | clientPuts pc => exact putsRests pc ok
  | agentTakes pc positive asked enough => exact takesRests pc positive asked enough ok
  | agentWrites pc _ enough room => exact writesRests pc enough room ok
  | clientSends | clientReads | clientSent | clientTakes | programTakes | programWrites | programPuts | outReads
  | outSends | writerTakes | writerPuts | writerFlushed => cases into

theorem moveWithin (h : Move caps s a t) (within : s.up.length ≤ caps.up) : t.up.length ≤ caps.up := by
  cases h with
  | clientPuts pc positive enough room =>
    simp only [List.length_append,List.length_take]
    omega
  | agentTakes =>
    simp only [List.length_drop]
    omega
  | _ => exact within

structure Pressed (caps : Caps) (k : Nat) (s : Duplex) : Prop where
  working : Working s
  within : s.up.length ≤ caps.up
  rests : Rests caps s k
  sending : ∃ rest thenRead, s.client = .sending rest thenRead

theorem inwardPressed {k : Nat} (h : Move caps s a t) (into : inward a = true) (ok : Pressed caps k s) :
    Pressed caps k t where
  working := moveWorking h ok.working
  within := moveWithin h ok.within
  rests := inwardRests h into ok.rests
  sending := by
    cases h with
    | clientPuts => exact ⟨_,_,rfl⟩
    | agentTakes | agentWrites => exact ok.sending
    | clientSends | clientReads | clientSent | clientTakes | programTakes | programWrites | programPuts | outReads
    | outSends | writerTakes | writerPuts | writerFlushed => cases into

theorem frameMissing {cap : Nat} {buf rest : Bytes} {f : Frame} (h : head cap buf = .frame f rest) : missing buf = 0 := by
  unfold head at h
  split at h <;> try contradiction
  split at h <;> try contradiction
  split at h <;> try contradiction
  simp only [missing]
  omega

theorem pressedFrames {k : Nat} {fs : List Frame} (more : caps.up < k) (ok : Upward caps s k fs) : fs ≠ [] := by
  intro none
  have rests := ok.rests
  simp only [none,leftover] at rests
  omega

-- With every byte of the send handed over, the agent is not yet stuck: the channel could not hold the rest.
theorem handedMoves {k : Nat} {thenRead : Bool} (more : caps.up < k) (ok : Pressed caps k s)
    (pc : s.client = .sending [] thenRead) : Moves caps inward s := by
  obtain ⟨fs,up⟩ := ok.rests
  have frames := pressedFrames more up
  have framed := up.framed
  have rests := up.rests
  simp only [pc,unsent,List.append_nil] at framed
  by_cases queued : s.up = []
  · rw [queued,List.append_nil] at framed
    cases fs with
    | nil => contradiction
    | cons g gs =>
      have parsed := headSmall caps.inboundLen up.small
      rw [← framed] at parsed
      cases ready : s.input with
      | reading buf =>
        rw [ready] at parsed
        have lacks := ok.working.input buf ready
        have enough : missing buf = 0 := frameMissing parsed
        omega
      | writing data => rw [ready] at parsed; contradiction
      | ended => exact absurd ready up.alive
  · rcases (inputMoves ok.working up.alive queued : _ ∨ Moves caps inward s) with stuck | moves
    · unfold inputBlocked at stuck
      split at stuck <;> try contradiction
      rename_i b data ready
      have full : caps.ttyIn - s.ttyIn.length = 0 := Nat.sub_eq_zero_of_le (of_decide_eq_true stuck)
      simp only [ready,agentBuf,List.nil_append] at framed
      simp only [ready,pending,full] at rests
      rw [leftoverStuck frames (by simp),← framed] at rests
      have within := ok.within
      omega
    · exact moves

theorem pressedMoves {k : Nat} (more : caps.up < k) (ok : Pressed caps k s) :
    (clientBlocked caps s = true ∧ inputBlocked caps s = true) ∨ Moves caps inward s := by
  obtain ⟨rest,thenRead,pc⟩ := ok.sending
  obtain ⟨fs,up⟩ := ok.rests
  cases rest with
  | nil => exact .inr (handedMoves more ok pc)
  | cons b rest => exact sendMoves pc ok.working up.alive

theorem inputFills {k : Nat} (more : caps.up < k) (ok : Pressed caps k s) :
    ∃ actions t, (∀ a ∈ actions, inward a = true) ∧ run (step caps) s actions = some t ∧ Working t ∧
      clientBlocked caps t = true ∧ inputBlocked caps t = true := by
  have moves : ∀ u, Pressed caps k u → (clientBlocked caps u = true ∧ inputBlocked caps u = true) ∨
      ∃ a v, inward a = true ∧ step caps u a = some v ∧ Pressed caps k v ∧ inputRank v < inputRank u := by
    intro u pressed
    refine (pressedMoves more pressed).imp id ?_
    intro next
    obtain ⟨a,v,into,moved⟩ := next
    have move := stepMove moved
    exact ⟨a,v,into,moved,inwardPressed move into pressed,inwardLowers move into⟩
  obtain ⟨actions,t,all,reached,pressed,full⟩ := runSettles inputRank moves ok
  exact ⟨actions,t,all,reached,pressed.working,full⟩

theorem besideWedged (beside : Beside s t) (client : clientBlocked caps s = true) (input : inputBlocked caps s = true)
    (output : programBlocked caps t = true ∧ outBlocked t = true ∧ writerBlocked caps t = true) : Wedged caps t := by
  refine ⟨?_,?_,output⟩
  · unfold clientBlocked at client ⊢
    rw [beside.client,beside.up]
    exact client
  · unfold inputBlocked at input ⊢
    rw [beside.input,beside.ttyIn]
    exact input

theorem pressedWedges {k : Nat} (more : caps.up < k) (ok : Pressed caps k s) :
    ∃ actions t, (∀ a ∈ actions, prompted a = false) ∧ run (step caps) s actions = some t ∧ Wedged caps t := by
  obtain ⟨first,u,into,reached,working,client,input⟩ := inputFills more ok
  obtain ⟨second,t,out,later,beside,output⟩ := outputFills caps working
  refine ⟨first ++ second,t,?_,runAppend.mpr ⟨u,reached,later⟩,besideWedged beside client input output⟩
  intro a present
  rcases List.mem_append.mp present with early | late
  · exact inwardOwn a (into a early)
  · exact outwardOwn a (out a late)

structure Sane (caps : Caps) (s : Duplex) : Prop where
  working : Working s
  within : s.up.length ≤ caps.up
  rests : ∃ k, Rests caps s k

theorem moveSane (h : Move caps s a t) (ok : Sane caps s) : Sane caps t where
  working := moveWorking h ok.working
  within := moveWithin h ok.within
  rests := by
    obtain ⟨k,rests⟩ := ok.rests
    by_cases own : prompted a = false
    · obtain ⟨j,_,after,_⟩ := moveRests h own rests
      exact ⟨j,after⟩
    · cases h with
      | clientSends pc few => exact ⟨_,sendsRests pc few rests⟩
      | _ => exact absurd rfl own

theorem reachedSane {actions : List Action} (reached : run (step caps) start actions = some s) : Sane caps s :=
  runKeeps (fun _ _ _ ok h => moveSane (stepMove h) ok) ⟨workingStart,Nat.zero_le _,0,restsStart⟩ reached

theorem sendExact {actions fs thenRead} (reached : run (step caps) start actions = some s)
    (sent : step caps s (.clientSends fs thenRead) = some t) :
    Absorbs caps s (.clientSends fs thenRead) ↔
      ∀ more u, (∀ a ∈ more, prompted a = false) → run (step caps) t more = some u → ¬ Wedged caps u := by
  have sane := reachedSane reached
  have move := stepMove sent
  have after := moveSane move sane
  obtain ⟨k,rests⟩ := sane.rests
  cases move with
  | clientSends pc few nonempty readable =>
    have left : Rests caps {s with client := .sending (encodeAll fs) thenRead} _ := sendsRests pc few rests
    constructor
    · intro absorbs more u own later stuck
      have both := runKeepsAlong (I := fun v => Working v ∧ Carries caps v)
        (fun v b w both absorbs h => ⟨moveWorking (stepMove h) both.1,moveCarries (stepMove h) absorbs both.2⟩)
        ⟨after.working,_,left,fun _ => absorbs⟩ (alongUnprompted own) later
      exact (workingSafe both.1 both.2).1 stuck
    · intro never
      by_contra wide
      obtain ⟨more,u,own,later,stuck⟩ := pressedWedges (Nat.lt_of_not_le wide)
        ⟨after.working,after.within,left,_,_,rfl⟩
      exact never more u own later stuck

theorem duplexExact {actions : List Action} (reached : run (step caps) start actions = some s) :
    Along (step caps) (Absorbs caps) start actions ↔
      ∀ pre more u, pre <+: actions → (∀ a ∈ more, prompted a = false) →
        run (step caps) start (pre ++ more) = some u → ¬ Wedged caps u ∧ (Alive u → Flows caps u) := by
  constructor
  · intro along pre more u first own later
    have whole := alongAppend (alongPrefix first along) (fun mid _ => alongUnprompted own)
    exact duplexFlows whole later
  · intro safe
    rw [alongIff]
    intro pre a post u shape before
    rw [shape,runAppend] at reached
    obtain ⟨mid,same,later⟩ := reached
    cases Option.some.inj (before.symm.trans same)
    obtain ⟨t,stepped,_⟩ := runCons.mp later
    cases a with
    | clientSends fs thenRead =>
      refine (sendExact before stepped).mpr ?_
      intro more v own further
      have sent : run (step caps) start (pre ++ [.clientSends fs thenRead]) = some t :=
        runAppend.mpr ⟨u,before,runCons.mpr ⟨t,stepped,rfl⟩⟩
      have first : pre ++ [.clientSends fs thenRead] <+: actions := ⟨post,by rw [shape,List.append_assoc]; rfl⟩
      exact (safe _ more v first own (runAppend.mpr ⟨t,sent,further⟩)).1
    | _ => trivial

def tight : Caps := ⟨1,1,1,1,0,by decide,by decide,by decide,by decide⟩

def typing : List Action :=
  [.clientSends [⟨frameStdin,[108]⟩] false,.programWrites [62,32],.programPuts 1,.clientPuts 1,.agentTakes 1,
    .outReads 1,.clientPuts 1]

theorem duplexExactTyping : ∃ s, run (step tight) start typing = some s ∧ Alive s ∧
    (Along (step tight) (Absorbs tight) start typing ↔
      ∀ pre more u, pre <+: typing → (∀ a ∈ more, prompted a = false) →
        run (step tight) start (pre ++ more) = some u → ¬ Wedged tight u ∧ (Alive u → Flows tight u)) := by
  have found : (run (step tight) start typing).any (fun u => decide (Alive u)) = true := by decide
  obtain ⟨s,reached,alive⟩ := runEnds (P := Alive) found
  exact ⟨s,reached,alive,duplexExact reached⟩

def churn : List Action := [.programPuts 1,.outReads 1,.outSends]
def flood : List Action := .programWrites (List.replicate 70 46)::churn ++ [.writerTakes,.writerPuts 1] ++
  (List.replicate 64 churn).flatten ++ [.programPuts 1,.outReads 1,.programPuts 1]
def paste : List Action := .clientSends [⟨frameStdin,[97,98,99]⟩] false::
  (List.replicate 8 [.clientPuts 1,.agentTakes 1]).flatten ++
  [.clientSent,.agentWrites 1,.clientSends [⟨frameStdin,[100]⟩] false,.clientPuts 1]

theorem floodedPasteWedges : ∃ s, run (step tight) start (flood ++ paste) = some s ∧ Alive s ∧ Wedged tight s ∧
    ∀ a, step tight s a = none := by
  have found : (run (step tight) start (flood ++ paste)).any (fun u => decide (Alive u ∧ Wedged tight u)) = true := by
    decide +kernel
  obtain ⟨s,reached,alive,stuck⟩ := runEnds (P := fun u => Alive u ∧ Wedged tight u) found
  exact ⟨s,reached,alive,stuck,wedgedStuck stuck⟩

end Guesthopper.PtyWedge
