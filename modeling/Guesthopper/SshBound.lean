import Guesthopper.SshInbound

/-! How many events the inbound queue of an SSH session can hold. Pausing stops `data`
only: a window change is queued whatever the flag says, and a resumption delivers what was
buffered before the flag is cleared. -/
namespace Guesthopper.SshBound
open SshInbound

-- asyncssh hands a session its channel before it makes any other callback.
def opened : Session := {start with chan := true}

/- What asyncssh does: no `data_received` while reading is paused, and nothing but the
buffered data inside a `resume_reading`. -/
def Permitted (s : Session) : Action → Prop
  | .arrives (.data _) => s.readingPaused = false
  | .takes inside => ∀ item ∈ inside, ∃ val, item = .data val
  | _ => True

def Resumes (s : Session) (rest : List Event) : Prop := s.readingPaused ∧ rest.length ≤ inboundLowWater

instance (s : Session) (rest : List Event) : Decidable (Resumes s rest) := inferInstanceAs (Decidable (_ ∧ _))

-- What arrives while reading is paused, and what a resumption delivers, finds room.
def Clear (s : Session) : Action → Prop
  | .arrives _ => s.readingPaused → s.queue.length ≤ inboundHighWater
  | .takes inside => Resumes s s.queue.tail → s.queue.tail.length + inside.length ≤ inboundHighWater
  | _ => True

instance (s : Session) : DecidablePred (Clear s)
  | .arrives _ => inferInstanceAs (Decidable (_ → _))
  | .takes _ => inferInstanceAs (Decidable (_ → _))
  | .connectionMade | .cancelled | .requested | .drained | .drainFails | .ping | .pingFails => .isTrue trivial

def Bounded (s : Session) : Prop :=
  s.chan = true ∧ s.queue.length ≤ inboundHighWater + 1 ∧ (s.readingPaused = false → s.queue.length ≤ inboundHighWater)

section Steps
variable {s t : Session} {item : Event}

theorem enqueueChan : (enqueue s item).chan = s.chan := by
  unfold enqueue
  dsimp only
  split <;> rfl

theorem enqueueUnpaused (chan : s.chan = true) (open' : (enqueue s item).readingPaused = false) :
    (enqueue s item).queue.length < inboundHighWater := by
  unfold enqueue at open' ⊢
  dsimp only at open' ⊢
  split at open' <;> try contradiction
  rename_i below
  rw [if_neg below]
  by_contra full
  exact below ⟨open',chan,Nat.le_of_not_lt full⟩

theorem enqueueLength : (enqueue s item).queue.length = s.queue.length + 1 := by
  rw [enqueueSame.2.2.2.2.1,List.length_append,List.length_singleton]

theorem insideLength (inside : List Event) :
    (inside.foldl enqueue s).queue.length = s.queue.length + inside.length ∧ (inside.foldl enqueue s).chan = s.chan := by
  induction inside generalizing s with
  | nil => exact ⟨rfl,rfl⟩
  | cons item inside ih =>
    obtain ⟨length,chan⟩ := @ih (enqueue s item)
    rw [List.foldl_cons,length,chan,enqueueLength,enqueueChan,List.length_cons]
    exact ⟨by omega,rfl⟩

theorem enqueueBounded (bounded : Bounded s) (room : s.readingPaused → s.queue.length ≤ inboundHighWater) :
    Bounded (enqueue s item) := by
  obtain ⟨chan,_,unpaused⟩ := bounded
  refine ⟨enqueueChan.trans chan,?_,fun open' => Nat.le_of_lt (enqueueUnpaused chan open')⟩
  rw [enqueueLength]
  cases paused : s.readingPaused with
  | true => exact Nat.succ_le_succ (room paused)
  | false => exact Nat.succ_le_succ (unpaused paused)

theorem resumeLength (inside : List Event) (resumes : Resumes s s.queue) :
    (resume s inside).queue.length = s.queue.length + inside.length := by
  unfold Resumes at resumes
  unfold resume
  rw [if_pos resumes]
  exact (insideLength inside).1

theorem resumeBounded (inside : List Event) (bounded : Bounded s)
    (room : Resumes s s.queue → s.queue.length + inside.length ≤ inboundHighWater) : Bounded (resume s inside) := by
  unfold resume
  split
  · rename_i resumes
    obtain ⟨length,chan⟩ := @insideLength s inside
    have fits : (inside.foldl enqueue s).queue.length ≤ inboundHighWater := by rw [length]; exact room resumes
    exact ⟨chan.trans bounded.1,Nat.le_succ_of_le fits,fun _ => fits⟩
  · exact bounded

theorem writeSame : (write s item).queue = s.queue ∧ (write s item).chan = s.chan ∧
    (write s item).readingPaused = s.readingPaused := by
  unfold write
  split <;> exact ⟨rfl,rfl,rfl⟩

theorem stepBounded {a : Action} (bounded : Bounded s) (clear : Clear s a) (h : step s a = some t) : Bounded t := by
  cases a with
  | arrives item =>
    cases Option.some.inj h
    exact enqueueBounded bounded clear
  | takes inside =>
    simp only [step] at h
    split at h <;> try contradiction
    rename_i item rest getting queue
    cases Option.some.inj h
    obtain ⟨chan,most,unpaused⟩ := bounded
    simp only [Clear,queue,List.tail_cons] at clear
    rw [queue,List.length_cons] at most unpaused
    have taken : Bounded {s with queue := rest} :=
      ⟨chan,Nat.le_of_succ_le most,fun open' => Nat.le_of_succ_le (unpaused open')⟩
    obtain ⟨queue',chan',paused'⟩ := @writeSame (resume {s with queue := rest} inside) item
    simp only [Bounded,queue',chan',paused']
    exact resumeBounded inside taken clear
  | connectionMade =>
    cases Option.some.inj h
    exact ⟨rfl,bounded.2⟩
  | cancelled =>
    cases Option.some.inj h
    exact bounded
  | requested | drained | drainFails | ping | pingFails =>
    simp only [step] at h
    split at h <;> try contradiction
    cases Option.some.inj h
    exact bounded

/- The condition leaves out nothing harmless: where it fails, the queue is above its bound
at once, or one window change later. -/
theorem uncleanOverflows {a : Action} (unclean : ¬ Clear s a) (h : step s a = some t) (rows cols : Nat) :
    inboundHighWater + 1 < (enqueue t (.resize rows cols)).queue.length := by
  rw [enqueueLength]
  cases a with
  | arrives item =>
    cases Option.some.inj h
    simp only [Clear,not_forall,exists_prop] at unclean
    rw [enqueueLength]
    omega
  | takes inside =>
    simp only [step] at h
    split at h <;> try contradiction
    rename_i item rest getting queue
    cases Option.some.inj h
    simp only [Clear,queue,List.tail_cons,not_forall,exists_prop] at unclean
    obtain ⟨resumes,flood⟩ := unclean
    rw [writeSame.1,resumeLength inside resumes]
    dsimp only
    omega
  | connectionMade | cancelled | requested | drained | drainFails | ping | pingFails => exact absurd trivial unclean

end Steps

theorem inboundBounded (acts : List Action) (s : Session) (clear : Machine.Along step Clear opened acts)
    (reached : Machine.run step opened acts = some s) : s.queue.length ≤ inboundHighWater + 1 := by
  have bounded : Bounded s := Machine.runKeepsAlong (I := Bounded) (fun u a v before able h => stepBounded before able h)
    ⟨rfl,Nat.zero_le _,fun _ => Nat.zero_le _⟩ clear reached
  exact bounded.2.1

def stalledActions : List Action :=
  [.requested,.arrives (.data [104]),.takes [],.arrives (.data [105]),.arrives (.resize 24 80)]

theorem inboundBoundedStalled :
    Machine.Along step Clear opened stalledActions ∧
      ∃ s, Machine.run step opened stalledActions = some s ∧ s.queue.length = 2 ∧
        s.queue.length ≤ inboundHighWater + 1 := by
  have clear : Machine.Along step Clear opened stalledActions := by decide
  obtain ⟨s,reached,two⟩ : ∃ s, Machine.run step opened stalledActions = some s ∧ s.queue.length = 2 :=
    Machine.runEnds (by decide)
  exact ⟨clear,s,reached,two,inboundBounded stalledActions s clear reached⟩

theorem arrivalsQueued (s : Session) (item : Event) (n : Nat) :
    ∃ t, Machine.run step s (List.replicate n (.arrives item)) = some t ∧ t.queue.length = s.queue.length + n := by
  induction n generalizing s with
  | zero => exact ⟨s,rfl,rfl⟩
  | succ n ih =>
    obtain ⟨t,later,length⟩ := ih (enqueue s item)
    refine ⟨t,Machine.runCons.mpr ⟨enqueue s item,rfl,later⟩,?_⟩
    rw [length,enqueueLength]
    omega

def resizeFlood (n : Nat) : List Action :=
  [.requested,.arrives (.data [104]),.takes []] ++ List.replicate n (.arrives (.resize 24 80))

theorem floodPermitted (n : Nat) : Machine.Along step Permitted opened (resizeFlood n) := by
  refine Machine.alongAppend ?_ ?_
  · refine ⟨trivial,?_⟩
    intro first one
    cases Option.some.inj one
    refine ⟨rfl,?_⟩
    intro second two
    cases Option.some.inj two
    exact ⟨by simp [Permitted],fun _ _ => trivial⟩
  · intro mid _
    refine Machine.alongIff.mpr ?_
    intro pre a post u shape _
    have resizes : a = .arrives (.resize 24 80) := List.eq_of_mem_replicate (by rw [shape]; simp)
    rw [resizes]
    trivial

theorem inboundFlooded :
    ¬ ∀ acts s, Machine.Along step Permitted opened acts → Machine.run step opened acts = some s →
      s.queue.length ≤ inboundHighWater + 1 := by
  intro bounded
  obtain ⟨mid,stalled,empty⟩ : ∃ s, Machine.run step opened [.requested,.arrives (.data [104]),.takes []] = some s ∧
      s.queue.length = 0 := Machine.runEnds (by decide)
  obtain ⟨t,flooded,length⟩ := arrivalsQueued mid (.resize 24 80) (inboundHighWater + 2)
  have reached : Machine.run step opened (resizeFlood (inboundHighWater + 2)) = some t :=
    Machine.runAppend.mpr ⟨mid,stalled,flooded⟩
  have held := bounded _ t (floodPermitted _) reached
  rw [length,empty] at held
  omega

end Guesthopper.SshBound
