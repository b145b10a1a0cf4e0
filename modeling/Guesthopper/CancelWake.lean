import Guesthopper.Machine

/-! `Cancel`: a flag and a `Notify` shared by any number of `fire` and `wait` calls. A step
is one load, one store or one operation of the `Notify`; a `wait` whose future is dropped
stops where it stands. -/
namespace Guesthopper.CancelWake

inductive Fire where
  | stores
  | notifies
  | done
  deriving DecidableEq, Repr

inductive Wait where
  | loads
  | creates
  | enables
  | reloads (notified : Bool)
  | awaits (notified : Bool)
  | returned
  | dropped
  deriving DecidableEq, Repr

structure Cancel where
  fired : Bool
  fires : List Fire
  waits : List Wait
  deriving DecidableEq, Repr

def start : Cancel := ⟨false,[],[]⟩

def notifyWaiter : Wait → Wait
  | .reloads _ => .reloads true
  | .awaits _ => .awaits true
  | other => other

-- The loop of `wait`; an await that was not notified does not move.
def waitStep (fired : Bool) : Wait → Option Wait
  | .loads => some (if fired then .returned else .creates)
  | .creates => some .enables
  | .enables => some (.reloads false)
  | .reloads notified => some (if fired then .returned else .awaits notified)
  | .awaits true => some .loads
  | .awaits false | .returned | .dropped => none

def dropStep : Wait → Option Wait
  | .returned | .dropped => none
  | _ => some .dropped

inductive Action where
  | callsFire
  | fire (j : Nat)
  | callsWait
  | wait (i : Nat)
  | drop (i : Nat)
  deriving DecidableEq, Repr

def step (s : Cancel) : Action → Option Cancel
  | .callsFire => some {s with fires := s.fires ++ [.stores]}
  | .fire j => match s.fires[j]? with
    | some .stores => some {s with fired := true, fires := s.fires.set j .notifies}
    | some .notifies => some {s with waits := s.waits.map notifyWaiter, fires := s.fires.set j .done}
    | _ => none
  | .callsWait => some {s with waits := s.waits ++ [.loads]}
  | .wait i => do
      let w ← s.waits[i]?
      let next ← waitStep s.fired w
      some {s with waits := s.waits.set i next}
  | .drop i => do
      let w ← s.waits[i]?
      let next ← dropStep w
      some {s with waits := s.waits.set i next}

structure Sound (s : Cancel) : Prop where
  flag : ∀ f ∈ s.fires, f ≠ .stores → s.fired = true
  early : .returned ∈ s.waits → s.fired = true
  parked : .done ∈ s.fires → .awaits false ∉ s.waits

def LoadsOnly (first : Nat) (s : Cancel) : Prop :=
  ∀ i w, first ≤ i → s.waits[i]? = some w → w = .loads ∨ w = .returned ∨ w = .dropped

section Steps
variable {s t : Cancel} {a : Action}

theorem stepCases (h : step s a = some t) :
    t = {s with fires := s.fires ++ [.stores]} ∨
    (∃ j, s.fires[j]? = some .stores ∧ t = {s with fired := true, fires := s.fires.set j .notifies}) ∨
    (∃ j, s.fires[j]? = some .notifies ∧
      t = {s with waits := s.waits.map notifyWaiter, fires := s.fires.set j .done}) ∨
    t = {s with waits := s.waits ++ [.loads]} ∨
    ∃ i w next, s.waits[i]? = some w ∧ (waitStep s.fired w = some next ∨ dropStep w = some next) ∧
      t = {s with waits := s.waits.set i next} := by
  cases a with
  | callsFire => exact .inl (Option.some.inj h).symm
  | fire j =>
    simp only [step] at h
    split at h <;> try contradiction
    · rename_i stores
      exact .inr (.inl ⟨j,stores,(Option.some.inj h).symm⟩)
    · rename_i notifies
      exact .inr (.inr (.inl ⟨j,notifies,(Option.some.inj h).symm⟩))
  | callsWait => exact .inr (.inr (.inr (.inl (Option.some.inj h).symm)))
  | wait i =>
    simp only [step,bind,Option.bind_eq_some_iff] at h
    obtain ⟨w,known,next,moved,same⟩ := h
    exact .inr (.inr (.inr (.inr ⟨i,w,next,known,.inl moved,(Option.some.inj same).symm⟩)))
  | drop i =>
    simp only [step,bind,Option.bind_eq_some_iff] at h
    obtain ⟨w,known,next,moved,same⟩ := h
    exact .inr (.inr (.inr (.inr ⟨i,w,next,known,.inr moved,(Option.some.inj same).symm⟩)))

theorem moveCases {fired : Bool} {w next : Wait} (h : waitStep fired w = some next ∨ dropStep w = some next) :
    (next = .returned → fired = true) ∧ (next = .awaits false → fired = false) := by
  obtain moved | moved := h
  · cases w with
    | loads => cases fired <;> cases Option.some.inj moved <;> simp
    | creates => cases Option.some.inj moved; simp
    | enables => cases Option.some.inj moved; simp
    | reloads notified => cases fired <;> cases Option.some.inj moved <;> simp
    | awaits notified =>
      cases notified with
      | true => cases Option.some.inj moved; simp
      | false => contradiction
    | returned => contradiction
    | dropped => contradiction
  · cases w <;> first | contradiction | (cases Option.some.inj moved; simp)

theorem wokenNotParked (waits : List Wait) : .awaits false ∉ waits.map notifyWaiter := by
  intro parked
  obtain ⟨w,_,same⟩ := List.mem_map.mp parked
  cases w <;> simp [notifyWaiter] at same

theorem stepFired (h : step s a = some t) (fired : s.fired = true) : t.fired = true := by
  obtain rfl | ⟨j,_,rfl⟩ | ⟨j,_,rfl⟩ | rfl | ⟨i,w,next,_,_,rfl⟩ := stepCases h
  · exact fired
  · rfl
  · exact fired
  · exact fired
  · exact fired

theorem stepDone (h : step s a = some t) (done : .done ∈ s.fires) : .done ∈ t.fires := by
  obtain rfl | ⟨j,stores,rfl⟩ | ⟨j,notifies,rfl⟩ | rfl | ⟨i,w,next,_,_,rfl⟩ := stepCases h
  · exact List.mem_append_left _ done
  · obtain ⟨k,known⟩ := List.mem_iff_getElem?.mp done
    have apart : j ≠ k := fun same => by rw [same,known] at stores; contradiction
    exact List.mem_iff_getElem?.mpr ⟨k,(List.getElem?_set_ne apart).trans known⟩
  · obtain ⟨within,_⟩ := List.getElem?_eq_some_iff.mp notifies
    exact List.mem_set within .done
  · exact done
  · exact done

theorem startSound : Sound start := ⟨by simp [start],by simp [start],by simp [start]⟩

theorem stepSound (sound : Sound s) (h : step s a = some t) : Sound t := by
  obtain rfl | ⟨j,stores,rfl⟩ | ⟨j,notifies,rfl⟩ | rfl | ⟨i,w,next,_,moved,rfl⟩ := stepCases h
  · constructor
    · intro f known begun
      obtain old | new := List.mem_append.mp known
      · exact sound.flag f old begun
      · exact absurd (List.mem_singleton.mp new) begun
    · exact sound.early
    · intro done
      obtain old | new := List.mem_append.mp done
      · exact sound.parked old
      · exact absurd (List.mem_singleton.mp new) (by simp)
  · constructor
    · exact fun _ _ _ => rfl
    · exact fun _ => rfl
    · intro done
      obtain old | new := List.mem_or_eq_of_mem_set done
      · exact sound.parked old
      · contradiction
  · have fired : s.fired = true := sound.flag _ (List.mem_of_getElem? notifies) (by simp)
    constructor
    · exact fun _ _ _ => fired
    · exact fun _ => fired
    · exact fun _ => wokenNotParked s.waits
  · constructor
    · exact sound.flag
    · intro returned
      obtain old | new := List.mem_append.mp returned
      · exact sound.early old
      · exact absurd (List.mem_singleton.mp new) (by simp)
    · intro done parked
      obtain old | new := List.mem_append.mp parked
      · exact sound.parked done old
      · exact absurd (List.mem_singleton.mp new) (by simp)
  · obtain ⟨ends,parks⟩ := moveCases moved
    constructor
    · exact sound.flag
    · intro returned
      obtain old | new := List.mem_or_eq_of_mem_set returned
      · exact sound.early old
      · exact ends new.symm
    · intro done parked
      obtain old | new := List.mem_or_eq_of_mem_set parked
      · exact sound.parked done old
      · have fired : s.fired = true := sound.flag _ done (by simp)
        rw [parks new.symm] at fired
        contradiction

theorem loadsOnlyNow : LoadsOnly s.waits.length s := by
  intro i w late known
  rw [List.getElem?_eq_none late] at known
  contradiction

theorem firedLoadsOnly {fired : Bool} {w next : Wait} (set : fired = true)
    (early : w = .loads ∨ w = .returned ∨ w = .dropped) (h : waitStep fired w = some next ∨ dropStep w = some next) :
    next = .loads ∨ next = .returned ∨ next = .dropped := by
  subst set
  obtain rfl | rfl | rfl := early
  · obtain moved | moved := h
    · cases Option.some.inj moved; exact .inr (.inl rfl)
    · cases Option.some.inj moved; exact .inr (.inr rfl)
  · obtain moved | moved := h <;> contradiction
  · obtain moved | moved := h <;> contradiction

theorem stepLoadsOnly {first : Nat} (fired : s.fired = true) (only : LoadsOnly first s) (within : first ≤ s.waits.length)
    (h : step s a = some t) : LoadsOnly first t ∧ first ≤ t.waits.length := by
  obtain rfl | ⟨j,_,rfl⟩ | ⟨j,_,rfl⟩ | rfl | ⟨i,w,next,known,moved,rfl⟩ := stepCases h
  · exact ⟨only,within⟩
  · exact ⟨only,within⟩
  · refine ⟨?_,by simpa using within⟩
    intro i w late known
    simp only [List.getElem?_map,Option.map_eq_some_iff] at known
    obtain ⟨old,before,woken⟩ := known
    obtain rfl | rfl | rfl := only i old late before
    · exact .inl woken.symm
    · exact .inr (.inl woken.symm)
    · exact .inr (.inr woken.symm)
  · refine ⟨?_,by simp; omega⟩
    intro i w late known
    rw [List.getElem?_append] at known
    split at known
    · exact only i w late known
    · exact .inl (List.mem_singleton.mp (List.mem_of_getElem? known))
  · refine ⟨?_,by simpa using within⟩
    intro k u late after
    simp only [List.getElem?_set] at after
    split at after
    · rename_i here
      subst here
      split at after <;> try contradiction
      cases Option.some.inj after
      exact firedLoadsOnly fired (only i w late known) moved
    · exact only k u late after

end Steps

theorem cancelWakes (before after : List Action) (s t : Cancel) (first : Machine.run step start before = some s)
    (later : Machine.run step s after = some t) :
    (.returned ∈ s.waits → s.fired = true) ∧
    (.done ∈ s.fires → .awaits false ∉ t.waits ∧
      ∀ i w, s.waits.length ≤ i → t.waits[i]? = some w →
        w = .returned ∨ w = .dropped ∨ (w = .loads ∧ step t (.wait i) = some {t with waits := t.waits.set i .returned})) := by
  have sound : Sound s := Machine.runKeeps (I := Sound) (fun u a v before h => stepSound before h) startSound first
  have still : Sound t := Machine.runKeeps (I := Sound) (fun u a v before h => stepSound before h) sound later
  refine ⟨sound.early,fun done => ?_⟩
  have fired : s.fired = true := sound.flag _ done (by simp)
  obtain ⟨done',fired',only,_⟩ := Machine.runKeeps
    (I := fun u => .done ∈ u.fires ∧ u.fired = true ∧ LoadsOnly s.waits.length u ∧ s.waits.length ≤ u.waits.length)
    (fun u a v held h => ⟨stepDone h held.1,stepFired h held.2.1,stepLoadsOnly held.2.1 held.2.2.1 held.2.2.2 h⟩)
    ⟨done,fired,loadsOnlyNow,Nat.le_refl _⟩ later
  refine ⟨still.parked done',?_⟩
  intro i w late known
  obtain rfl | rfl | rfl := only i w late known
  · exact .inr (.inr ⟨rfl,by simp [step,known,waitStep,fired']⟩)
  · exact .inl rfl
  · exact .inr (.inl rfl)

def raceActions : List Action :=
  [.callsWait,.wait 0,.wait 0,.wait 0,.callsFire,.wait 0,.fire 0,.fire 0,.callsWait]

theorem cancelWakesRace :
    ∃ s, Machine.run step start raceActions = some s ∧ (s.fires = [.done] ∧ s.waits = [.awaits true,.loads]) ∧
      (.returned ∈ s.waits → s.fired = true) ∧
      (.done ∈ s.fires → .awaits false ∉ s.waits ∧
        ∀ i w, s.waits.length ≤ i → s.waits[i]? = some w →
          w = .returned ∨ w = .dropped ∨ (w = .loads ∧ step s (.wait i) = some {s with waits := s.waits.set i .returned})) := by
  obtain ⟨s,reached,woken⟩ : ∃ s, Machine.run step start raceActions = some s ∧
      (s.fires = [.done] ∧ s.waits = [.awaits true,.loads]) :=
    Machine.runEnds (by decide)
  exact ⟨s,reached,woken,cancelWakes raceActions [] s s reached rfl⟩

end Guesthopper.CancelWake
