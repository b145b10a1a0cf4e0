import Guesthopper.ControlPayloads
import Guesthopper.FrameCodecs
import Guesthopper.Machine

/-! The SSH-to-guest half of one session: callbacks queue events and pause the channel, the
inbound pump takes them one at a time and resumes it, the keepalive writes PINGs between. A
task runs from one await to the next, so an action is what happens up to there. `arrived`
records the events in callback order, `hand` one that was taken and never written. -/
namespace Guesthopper.SshInbound
open FrameBytes

def inboundHighWater : Nat := 1024
def inboundLowWater : Nat := 256

inductive Event where
  | data (val : Bytes)
  | resize (rows cols : Nat)
  | eof
  deriving DecidableEq, Repr

def Event.frame : Event → Frame
  | .data val => ⟨frameStdin,val⟩
  | .resize rows cols => ⟨frameResize,ControlPayloads.resizePayload rows cols⟩
  | .eof => ⟨frameStdinEof,[]⟩

inductive Pump where
  | unborn
  | getting
  | draining
  | ended
  deriving DecidableEq, Repr

structure Session where
  chan : Bool
  queue : List Event
  readingPaused : Bool
  pump : Pump
  keepalive : Bool
  written : Bytes
  hand : List Event
  arrived : List Event
  deriving DecidableEq, Repr

def start : Session := ⟨false,[],false,.unborn,false,[],[],[]⟩

def enqueue (s : Session) (item : Event) : Session :=
  let s := {s with queue := s.queue ++ [item], arrived := s.arrived ++ [item]}
  if s.readingPaused = false ∧ s.chan ∧ inboundHighWater ≤ s.queue.length then {s with readingPaused := true} else s

-- `write` is atomic; a frame that `encode_frame` refuses ends the task that wanted it.
def write (s : Session) (item : Event) : Session :=
  match FrameCodecs.encodeFrame item.frame with
  | .ok raw => {s with written := s.written ++ raw, pump := .draining}
  | .error _ => {s with hand := [item], pump := .ended}

-- `resume_reading` may deliver events before it returns; the flag is cleared after them.
def resume (s : Session) (inside : List Event) : Session :=
  if s.readingPaused ∧ s.queue.length ≤ inboundLowWater then {inside.foldl enqueue s with readingPaused := false} else s

inductive Action where
  | connectionMade
  | arrives (item : Event)
  | requested
  | takes (inside : List Event)
  | drained
  | drainFails
  | ping
  | pingFails
  | cancelled
  deriving DecidableEq, Repr

def step (s : Session) : Action → Option Session
  | .connectionMade => some {s with chan := true}
  | .arrives item => some (enqueue s item)
  | .requested => if s.pump = .unborn then some {s with pump := .getting, keepalive := true} else none
  | .takes inside => match s.pump,s.queue with
    | .getting,item::rest => some (write (resume {s with queue := rest} inside) item)
    | _,_ => none
  | .drained => if s.pump = .draining then some {s with pump := .getting} else none
  | .drainFails => if s.pump = .draining then some {s with pump := .ended} else none
  | .ping => if s.keepalive then some {s with written := s.written ++ encode ⟨framePing,[]⟩} else none
  | .pingFails => if s.keepalive then some {s with keepalive := false} else none
  | .cancelled => some {s with pump := .ended, keepalive := false}

def notPing (f : Frame) : Bool := f.ftype ≠ framePing

/- What was written is whole frames that a reader takes apart again; without the PINGs they
are the events that were taken, in their order, before those held and those still queued. -/
def Carries (held : List Event) (s : Session) : Prop :=
  ∃ frames, s.written = encodeAll frames ∧ (∀ f ∈ frames, f.payload.length ≤ maxFrameLen) ∧
    frames.filter notPing ++ (held ++ s.queue).map Event.frame = s.arrived.map Event.frame

def Carried (s : Session) : Prop := Carries s.hand s ∧ (s.pump ≠ .ended → s.hand = [])

def Awake (s : Session) : Prop := s.readingPaused = true → inboundLowWater < s.queue.length

section Steps
variable {s t : Session} {item : Event} {held : List Event}

theorem frameNotPing (item : Event) : notPing item.frame = true := by cases item <;> rfl

theorem enqueueSame : (enqueue s item).written = s.written ∧ (enqueue s item).hand = s.hand ∧
    (enqueue s item).pump = s.pump ∧ (enqueue s item).keepalive = s.keepalive ∧
    (enqueue s item).queue = s.queue ++ [item] ∧ (enqueue s item).arrived = s.arrived ++ [item] := by
  unfold enqueue
  dsimp only
  split <;> exact ⟨rfl,rfl,rfl,rfl,rfl,rfl⟩

theorem enqueueCarries (carries : Carries held s) : Carries held (enqueue s item) := by
  obtain ⟨frames,written,fits,same⟩ := carries
  obtain ⟨written',_,_,_,queue,arrived⟩ := @enqueueSame s item
  refine ⟨frames,written'.trans written,fits,?_⟩
  rw [queue,arrived,← List.append_assoc,List.map_append,← List.append_assoc,same,List.map_append]

theorem enqueueAwake (awake : Awake s) : Awake (enqueue s item) := by
  unfold enqueue
  dsimp only
  split
  · rename_i full
    intro _
    exact Nat.lt_of_lt_of_le (by decide) full.2.2
  · intro paused
    have before := awake paused
    simp only [List.length_append]
    omega

theorem resumeAwake (s : Session) (inside : List Event) : Awake (resume s inside) := by
  unfold resume
  split
  · intro paused
    contradiction
  · rename_i stays
    intro paused
    by_contra few
    exact stays ⟨paused,Nat.le_of_not_lt few⟩

theorem insideSame (inside : List Event) : (inside.foldl enqueue s).hand = s.hand ∧
    (Carries held s → Carries held (inside.foldl enqueue s)) := by
  induction inside generalizing s with
  | nil => exact ⟨rfl,id⟩
  | cons item inside ih =>
    obtain ⟨hand,carries⟩ := @ih (enqueue s item)
    exact ⟨hand.trans enqueueSame.2.1,fun before => carries (enqueueCarries before)⟩

theorem resumeCarries (inside : List Event) (carries : Carries held s) : Carries held (resume s inside) := by
  unfold resume
  split
  · exact (insideSame inside).2 carries
  · exact carries

theorem resumeHand (inside : List Event) : (resume s inside).hand = s.hand := by
  unfold resume
  split
  · exact (@insideSame s [] inside).1
  · rfl

theorem encodedFits {f : Frame} {raw : Bytes} (h : FrameCodecs.encodeFrame f = .ok raw) :
    raw = encode f ∧ f.payload.length ≤ maxFrameLen := by
  unfold FrameCodecs.encodeFrame at h
  split at h <;> try contradiction
  rename_i small
  cases h
  exact ⟨rfl,Nat.le_of_not_lt small⟩

theorem writeCarried (carries : Carries [item] s) (hand : s.hand = []) : Carried (write s item) := by
  obtain ⟨frames,written,fits,same⟩ := carries
  unfold write
  split
  · rename_i raw ok
    obtain ⟨rfl,small⟩ := encodedFits ok
    refine ⟨⟨frames ++ [item.frame],?_,?_,?_⟩,fun _ => hand⟩
    · simp [written,encodeAll]
    · exact List.forall_mem_append.mpr ⟨fits,by simpa using small⟩
    · rw [← same,List.filter_append]
      simp [hand,frameNotPing]
  · exact ⟨⟨frames,written,fits,same⟩,fun alive => absurd rfl alive⟩

theorem writeAwake (awake : Awake s) : Awake (write s item) := by
  unfold write
  split <;> exact awake

theorem pingCarries (carries : Carries held s) : Carries held {s with written := s.written ++ encode ⟨framePing,[]⟩} := by
  obtain ⟨frames,written,fits,same⟩ := carries
  refine ⟨frames ++ [⟨framePing,[]⟩],?_,?_,?_⟩
  · simp [written,encodeAll]
  · exact List.forall_mem_append.mpr ⟨fits,by simp⟩
  · rw [← same,List.filter_append]
    simp [notPing]

theorem stepCases {a : Action} (h : step s a = some t) :
    (∃ item, t = enqueue s item) ∨
    (∃ inside item rest, s.pump = .getting ∧ s.queue = item::rest ∧
      t = write (resume {s with queue := rest} inside) item) ∨
    t = {s with written := s.written ++ encode ⟨framePing,[]⟩} ∨
    ∃ chan pump keepalive, (pump ≠ .ended → s.pump ≠ .ended) ∧
      t = {s with chan := chan, pump := pump, keepalive := keepalive} := by
  cases a with
  | connectionMade => exact .inr (.inr (.inr ⟨true,s.pump,s.keepalive,id,(Option.some.inj h).symm⟩))
  | arrives item => exact .inl ⟨item,(Option.some.inj h).symm⟩
  | cancelled =>
    exact .inr (.inr (.inr ⟨s.chan,.ended,false,fun alive => absurd rfl alive,(Option.some.inj h).symm⟩))
  | takes inside =>
    simp only [step] at h
    split at h <;> try contradiction
    rename_i item rest getting queue
    exact .inr (.inl ⟨inside,item,rest,getting,queue,(Option.some.inj h).symm⟩)
  | requested =>
    simp only [step] at h
    split at h <;> try contradiction
    rename_i unborn
    refine .inr (.inr (.inr ⟨s.chan,.getting,true,?_,(Option.some.inj h).symm⟩))
    rw [unborn]
    simp
  | drained =>
    simp only [step] at h
    split at h <;> try contradiction
    rename_i draining
    refine .inr (.inr (.inr ⟨s.chan,.getting,s.keepalive,?_,(Option.some.inj h).symm⟩))
    rw [draining]
    simp
  | drainFails =>
    simp only [step] at h
    split at h <;> try contradiction
    exact .inr (.inr (.inr ⟨s.chan,.ended,s.keepalive,fun alive => absurd rfl alive,(Option.some.inj h).symm⟩))
  | ping =>
    simp only [step] at h
    split at h <;> try contradiction
    exact .inr (.inr (.inl (Option.some.inj h).symm))
  | pingFails =>
    simp only [step] at h
    split at h <;> try contradiction
    exact .inr (.inr (.inr ⟨s.chan,s.pump,false,id,(Option.some.inj h).symm⟩))

theorem takeCarries {rest : List Event} (carries : Carries [] s) (queue : s.queue = item::rest) :
    Carries [item] {s with queue := rest} := by
  obtain ⟨frames,written,fits,same⟩ := carries
  refine ⟨frames,written,fits,?_⟩
  rw [queue] at same
  exact same

theorem stepCarried {a : Action} (h : step s a = some t) (carried : Carried s) : Carried t := by
  obtain ⟨carries,hand⟩ := carried
  obtain ⟨item,rfl⟩ | ⟨inside,item,rest,getting,queue,rfl⟩ | rfl | ⟨chan,pump,keepalive,alive,rfl⟩ := stepCases h
  · obtain ⟨_,hand',pump,_⟩ := @enqueueSame s item
    constructor
    · rw [hand']
      exact enqueueCarries carries
    · rw [hand',pump]
      exact hand
  · have empty : s.hand = [] := hand (by rw [getting]; simp)
    rw [empty] at carries
    exact writeCarried (resumeCarries inside (takeCarries carries queue)) ((resumeHand inside).trans empty)
  · exact ⟨pingCarries carries,hand⟩
  · exact ⟨carries,fun still => hand (alive still)⟩

theorem stepAwake {a : Action} (h : step s a = some t) (awake : Awake s) : Awake t := by
  obtain ⟨item,rfl⟩ | ⟨inside,item,rest,_,_,rfl⟩ | rfl | ⟨chan,pump,keepalive,_,rfl⟩ := stepCases h
  · exact enqueueAwake awake
  · exact writeAwake (resumeAwake _ inside)
  · exact awake
  · exact awake

end Steps

theorem sshInboundFaithful (acts : List Action) (s : Session) (reached : Machine.run step start acts = some s) :
    (∃ frames, s.written = encodeAll frames ∧ decodeAll maxFrameLen s.written = frames ∧
      frames.filter notPing ++ (s.hand ++ s.queue).map Event.frame = s.arrived.map Event.frame) ∧
    (s.readingPaused = true → inboundLowWater < s.queue.length) := by
  have carried : Carried s := Machine.runKeeps (I := Carried) (fun u a v before h => stepCarried h before)
    ⟨⟨[],rfl,by simp,rfl⟩,fun _ => rfl⟩ reached
  have awake : Awake s := Machine.runKeeps (I := Awake) (fun u a v before h => stepAwake h before)
    (fun paused => by contradiction) reached
  obtain ⟨⟨frames,written,fits,same⟩,_⟩ := carried
  refine ⟨⟨frames,written,?_,same⟩,awake⟩
  rw [written]
  exact decodeAllEncoded (by decide) fits

theorem sshInboundFaithfulPing :
    let acts : List Action := [.connectionMade,.arrives (.data [104]),.arrives .eof,.requested,.takes [],
      .drained,.ping,.takes [],.arrives (.data [105])]
    let frames : List Frame := [⟨frameStdin,[104]⟩,⟨framePing,[]⟩,⟨frameStdinEof,[]⟩]
    let s : Session := ⟨true,[.data [105]],false,.draining,true,encodeAll frames,[],[.data [104],.eof,.data [105]]⟩
    Machine.run step start acts = some s ∧
      (∃ frames, s.written = encodeAll frames ∧ decodeAll maxFrameLen s.written = frames ∧
        frames.filter notPing ++ (s.hand ++ s.queue).map Event.frame = s.arrived.map Event.frame) ∧
      (s.readingPaused = true → inboundLowWater < s.queue.length) := by
  intro acts frames s
  have reached : Machine.run step start acts = some s := by decide
  exact ⟨reached,sshInboundFaithful acts s reached⟩

end Guesthopper.SshInbound
