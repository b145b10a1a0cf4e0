import Guesthopper.Ledger
import Guesthopper.Machine
import Guesthopper.SessionText

/-! `open_pty` as the descriptors see it. `table` is the agent's descriptor table, shared with
every other session and thread, which open and close their own between any two of its
system calls. A number is raw while the code means to close it itself and owned once it is in
an `OwnedFd`, `Stdio` or `AsyncFd`; a close that meets anything else is a fault. What a path
still has to do before its next system call that can fail is `todo`, in the source's order.
Descriptors that the standard library and the runtime open and close for themselves (the pipe
of a spawn, a pidfd) are theirs. -/
namespace Guesthopper.PtyBalance

inductive Holder where
  | other
  | raw
  | owned
  deriving DecidableEq, Repr

abbrev Table := Nat → Option Holder

def tableOf (used : Nat → Bool) : Table := fun n => if used n then some .other else none

-- The three `Arc`s of the master: the local one, and one in each task.
inductive Sharer where
  | am
  | input
  | out
  deriving DecidableEq, Repr

inductive Event where
  | spawned
  | killed
  | awaited
  | error (msg : String)
  | exit
  deriving DecidableEq, Repr

inductive Op where
  | close (n : Nat)
  | drop (n : Nat)
  | release (who : Sharer)
  | does (e : Event)
  deriving DecidableEq, Repr

inductive Pc where
  | opening
  | flagging (m s : Nat)
  | dupping (m s : Nat) (tried : List (Except String Nat))
  | spawning (m s : Nat) (ds : List Nat)
  | setting (m : Nat)
  | wrapping (m : Nat)
  | selecting
  | draining
  | returning

@[simp] def Pc.last : Pc → Bool
  | .returning => true
  | _ => false

structure Pty where
  table : Table
  theirs : Table
  pc : Pc
  todo : List Op
  master : Nat
  arc : List Sharer
  failure : Option String
  log : List Event
  faults : List Nat

def start (used : Nat → Bool) : Pty := ⟨tableOf used,tableOf used,.opening,[],0,[],none,[],[]⟩

def closeAs (holder : Holder) (n : Nat) (s : Pty) : Pty :=
  {s with
    table := Function.update s.table n none
    faults := if s.table n = some holder then s.faults else s.faults ++ [n]}

@[simp] def opened (n : Nat) (s : Pty) : Pty := {s with table := Function.update s.table n (some .raw)}

def own (n : Nat) (s : Pty) : Pty :=
  {s with
    table := Function.update s.table n (some .owned)
    faults := if s.table n = some .raw then s.faults else s.faults ++ [n]}

def release (who : Sharer) (s : Pty) : Pty :=
  let left := s.arc.erase who
  let s := if s.arc ≠ [] ∧ left = [] then closeAs .owned s.master s else s
  {s with arc := left}

def exec (op : Op) (s : Pty) : Pty :=
  match op with
  | .close n => closeAs .raw n s
  | .drop n => closeAs .owned n s
  | .release who => release who s
  | .does e => {s with log := s.log ++ [e]}

inductive Opened where
  | pair (m s : Nat)
  | osError (text : String)
  | taskFailed (text : String)
  deriving DecidableEq, Repr

inductive Action where
  | otherOpens (n : Nat)
  | otherCloses (n : Nat)
  | proceeds
  | openpty (r : Opened)
  | setCloexec (r : Except String Unit)
  | dup (r : Except String Nat)
  | spawn (r : Except String Unit)
  | setNonblocking (r : Except String Unit)
  | asyncFd (r : Except String Unit)
  | outEnds
  | inputEnds
  | shellExits
  | cancels
  | drainEnds

def Action.others : Action → Bool
  | .otherOpens _ | .otherCloses _ => true
  | _ => false

@[simp] def fail (msg : String) (before after : List Op) (s : Pty) : Pty :=
  {s with pc := .returning, failure := some msg, todo := before ++ [.does (.error msg)] ++ after}

@[simp] def errorOf : Except String Nat → Option String
  | .error e => some e
  | .ok _ => none

@[simp] def numberOf : Except String Nat → Option Nat
  | .error _ => none
  | .ok n => some n

-- The third `dup` is followed by the check of all three; `last_os_error` is the last failure's.
def dupped (m sl : Nat) (tried : List (Except String Nat)) (s : Pty) : Pty :=
  let ds := tried.filterMap numberOf
  if tried.length < 3 then {s with pc := .dupping m sl tried}
  else match (tried.filterMap errorOf).getLast? with
    | some e => fail ("failed to dup pty slave: " ++ e) (ds.map .close ++ [.close m,.close sl]) [] s
    | none => {ds.foldl (fun s d => own d s) s with pc := .spawning m sl ds}

@[simp] def returns (s : Pty) : Pty := {s with pc := .returning, todo := [.does .exit,.release .input,.release .am]}

def openpty (r : Opened) (s : Pty) : Option Pty :=
  match s.pc with
  | .opening => match r with
    | .pair m sl =>
      if s.table m = none ∧ s.table sl = none ∧ m ≠ sl then
        some {opened sl (opened m s) with pc := .flagging m sl}
      else none
    | .osError e => some (fail ("openpty failed: " ++ e) [] [] s)
    | .taskFailed e => some (fail ("openpty task failed: " ++ e) [] [] s)
  | _ => none

def setCloexec (r : Except String Unit) (s : Pty) : Option Pty :=
  match s.pc with
  | .flagging m sl => match r with
    | .ok _ => some {s with pc := .dupping m sl []}
    | .error e => some (fail ("failed to set pty master close-on-exec: " ++ e) [.close m,.close sl] [] s)
  | _ => none

def dup (r : Except String Nat) (s : Pty) : Option Pty :=
  match s.pc with
  | .dupping m sl tried => match r with
    | .ok d => if s.table d = none then some (dupped m sl (tried ++ [r]) (opened d s)) else none
    | .error _ => some (dupped m sl (tried ++ [r]) s)
  | _ => none

def spawn (r : Except String Unit) (s : Pty) : Option Pty :=
  match s.pc with
  | .spawning m sl ds => match r with
    | .ok _ => some {s with pc := .setting m, todo := ds.map .drop ++ [.close sl], log := s.log ++ [.spawned]}
    -- `cmd` still owns the three dups, and is dropped on return.
    | .error e => some (fail ("failed to spawn pty shell: " ++ e) [.close m,.close sl] (ds.map .drop) s)
  | _ => none

def setNonblocking (r : Except String Unit) (s : Pty) : Option Pty :=
  match s.pc with
  | .setting m => match r with
    | .ok _ => some {s with pc := .wrapping m}
    | .error e => some (fail ("failed to set pty master non-blocking: " ++ e) [.does .killed,.does .awaited,.close m] [] s)
  | _ => none

def asyncFd (r : Except String Unit) (s : Pty) : Option Pty :=
  match s.pc with
  | .wrapping m => match r with
    | .ok _ => some {own m s with pc := .selecting, master := m, arc := [.am,.input,.out]}
    | .error e => some (fail ("failed to register pty master with the runtime: " ++ e)
        [.drop m,.does .killed,.does .awaited] [] (own m s))
  | _ => none

def selected (ended : List Op) (s : Pty) : Option Pty :=
  match s.pc with
  | .selecting => some {s with pc := .draining, todo := ended}
  | _ => none

def drained (s : Pty) : Option Pty :=
  match s.pc with
  | .draining => some (returns s)
  | _ => none

def move (s : Pty) : Action → Option Pty
  | .openpty r => openpty r s
  | .setCloexec r => setCloexec r s
  | .dup r => dup r s
  | .spawn r => spawn r s
  | .setNonblocking r => setNonblocking r s
  | .asyncFd r => asyncFd r s
  | .inputEnds => selected [.release .input] s
  | .shellExits | .cancels => selected [] s
  | .drainEnds => drained s
  | _ => none

def step (s : Pty) : Action → Option Pty
  | .otherOpens n =>
    if s.table n = none then
      some {s with
        table := Function.update s.table n (some .other), theirs := Function.update s.theirs n (some .other)}
    else none
  | .otherCloses n =>
    if s.theirs n ≠ none then
      some {s with table := Function.update s.table n none, theirs := Function.update s.theirs n none}
    else none
  | .proceeds => match s.todo with
    | op::rest => some (exec op {s with todo := rest})
    | [] => none
  -- The task drops its `Arc` when it is done, and when the runtime drops it after an abort.
  | .outEnds => if .out ∈ s.arc then some (release .out s) else none
  | a => if s.todo = [] then move s a else none

def theirDoing (table : Table) : Action → Table
  | .otherOpens n => Function.update table n (some .other)
  | .otherCloses n => Function.update table n none
  | _ => table

@[simp] def Action.fails : Action → Bool
  | .openpty (.osError _) | .openpty (.taskFailed _) | .setCloexec (.error _) | .dup (.error _) | .spawn (.error _)
  | .setNonblocking (.error _) | .asyncFd (.error _) => true
  | _ => false

def Done (s : Pty) : Prop := s.pc.last = true ∧ s.todo = [] ∧ .out ∉ s.arc

instance (s : Pty) : Decidable (Done s) := inferInstanceAs (Decidable (_ ∧ _ ∧ _))

section Cases
variable {s t : Pty}

theorem openptyCases {r} (h : openpty r s = some t) : s.pc = .opening ∧
    ((∃ m sl, r = .pair m sl ∧ (s.table m = none ∧ s.table sl = none ∧ m ≠ sl) ∧
        t = {opened sl (opened m s) with pc := .flagging m sl}) ∨
      (∃ e, r = .osError e ∧ t = fail ("openpty failed: " ++ e) [] [] s) ∨
      ∃ e, r = .taskFailed e ∧ t = fail ("openpty task failed: " ++ e) [] [] s) := by
  unfold openpty at h
  split at h <;> try contradiction
  refine ⟨by assumption,?_⟩
  cases r with
  | pair m sl =>
    dsimp only at h
    split at h <;> try contradiction
    exact .inl ⟨m,sl,rfl,by assumption,(Option.some.inj h).symm⟩
  | osError e => exact .inr (.inl ⟨e,rfl,(Option.some.inj h).symm⟩)
  | taskFailed e => exact .inr (.inr ⟨e,rfl,(Option.some.inj h).symm⟩)

theorem setCloexecCases {r} (h : setCloexec r s = some t) : ∃ m sl, s.pc = .flagging m sl ∧
    ((∃ u, r = .ok u ∧ t = {s with pc := .dupping m sl []}) ∨
      ∃ e, r = .error e ∧ t = fail ("failed to set pty master close-on-exec: " ++ e) [.close m,.close sl] [] s) := by
  unfold setCloexec at h
  split at h <;> try contradiction
  refine ⟨_,_,by assumption,?_⟩
  cases r with
  | ok u => exact .inl ⟨u,rfl,(Option.some.inj h).symm⟩
  | error e => exact .inr ⟨e,rfl,(Option.some.inj h).symm⟩

theorem dupCases {r} (h : dup r s = some t) : ∃ m sl tried, s.pc = .dupping m sl tried ∧
    ((∃ d, r = .ok d ∧ s.table d = none ∧ t = dupped m sl (tried ++ [r]) (opened d s)) ∨
      ∃ e, r = .error e ∧ t = dupped m sl (tried ++ [r]) s) := by
  unfold dup at h
  split at h <;> try contradiction
  refine ⟨_,_,_,by assumption,?_⟩
  cases r with
  | ok d =>
    dsimp only at h
    split at h <;> try contradiction
    exact .inl ⟨d,rfl,by assumption,(Option.some.inj h).symm⟩
  | error e => exact .inr ⟨e,rfl,(Option.some.inj h).symm⟩

theorem spawnCases {r} (h : spawn r s = some t) : ∃ m sl ds, s.pc = .spawning m sl ds ∧
    ((∃ u, r = .ok u ∧
        t = {s with pc := .setting m, todo := ds.map .drop ++ [.close sl], log := s.log ++ [.spawned]}) ∨
      ∃ e, r = .error e ∧
        t = fail ("failed to spawn pty shell: " ++ e) [.close m,.close sl] (ds.map .drop) s) := by
  unfold spawn at h
  split at h <;> try contradiction
  refine ⟨_,_,_,by assumption,?_⟩
  cases r with
  | ok u => exact .inl ⟨u,rfl,(Option.some.inj h).symm⟩
  | error e => exact .inr ⟨e,rfl,(Option.some.inj h).symm⟩

theorem setNonblockingCases {r} (h : setNonblocking r s = some t) : ∃ m, s.pc = .setting m ∧
    ((∃ u, r = .ok u ∧ t = {s with pc := .wrapping m}) ∨
      ∃ e, r = .error e ∧
        t = fail ("failed to set pty master non-blocking: " ++ e) [.does .killed,.does .awaited,.close m] [] s) := by
  unfold setNonblocking at h
  split at h <;> try contradiction
  refine ⟨_,by assumption,?_⟩
  cases r with
  | ok u => exact .inl ⟨u,rfl,(Option.some.inj h).symm⟩
  | error e => exact .inr ⟨e,rfl,(Option.some.inj h).symm⟩

theorem asyncFdCases {r} (h : asyncFd r s = some t) : ∃ m, s.pc = .wrapping m ∧
    ((∃ u, r = .ok u ∧ t = {own m s with pc := .selecting, master := m, arc := [.am,.input,.out]}) ∨
      ∃ e, r = .error e ∧ t = fail ("failed to register pty master with the runtime: " ++ e)
        [.drop m,.does .killed,.does .awaited] [] (own m s)) := by
  unfold asyncFd at h
  split at h <;> try contradiction
  refine ⟨_,by assumption,?_⟩
  cases r with
  | ok u => exact .inl ⟨u,rfl,(Option.some.inj h).symm⟩
  | error e => exact .inr ⟨e,rfl,(Option.some.inj h).symm⟩

theorem selectedCases {ended : List Op} (h : selected ended s = some t) :
    s.pc = .selecting ∧ t = {s with pc := .draining, todo := ended} := by
  unfold selected at h
  split at h <;> try contradiction
  exact ⟨by assumption,(Option.some.inj h).symm⟩

theorem drainedCases (h : drained s = some t) : s.pc = .draining ∧ t = returns s := by
  unfold drained at h
  split at h <;> try contradiction
  exact ⟨by assumption,(Option.some.inj h).symm⟩

end Cases

@[simp] def Op.settles : Op → List (Nat × Holder)
  | .close n => [(n,.raw)]
  | .drop n => [(n,.owned)]
  | _ => []

@[simp] def Op.voices : Op → List Event
  | .does e => [e]
  | _ => []

@[simp] def heldRaw (ns : List Nat) : List (Nat × Holder) := ns.map (·,.raw)
@[simp] def heldOwned (ns : List Nat) : List (Nat × Holder) := ns.map (·,.owned)

@[simp] def Pc.held : Pc → List (Nat × Holder)
  | .flagging m sl => heldRaw [m,sl]
  | .dupping m sl tried => heldRaw [m,sl] ++ heldRaw (tried.filterMap numberOf)
  | .spawning m sl ds => heldRaw [m,sl] ++ heldOwned ds
  | .setting m | .wrapping m => heldRaw [m]
  | _ => []

@[simp] def shared (master : Nat) (arc : List Sharer) : List (Nat × Holder) := if arc = [] then [] else heldOwned [master]

@[simp] def mine (s : Pty) : List (Nat × Holder) := s.todo.flatMap Op.settles ++ (s.pc.held ++ shared s.master s.arc)

@[simp] def plan (s : Pty) : List Event := s.log ++ s.todo.flatMap Op.voices

@[simp] def Pc.said : Pc → List Event
  | .opening | .flagging _ _ | .dupping _ _ _ | .spawning _ _ _ => []
  | _ => [.spawned]

def Spoken (pc : Pc) (failure : Option String) (said : List Event) : Prop :=
  match pc,failure with
  | .returning,none => said = [.spawned,.exit]
  | .returning,some msg => said = [.error msg] ∨ said = [.spawned,.killed,.awaited,.error msg]
  | pc,none => said = pc.said
  | _,some _ => False

@[simp] def Pc.solo : Pc → Bool
  | .selecting | .draining | .returning => false
  | _ => true

@[simp] def troubled (s : Pty) : Bool :=
  s.failure.isSome || match s.pc with
    | .dupping _ _ tried => tried.any (fun r => (errorOf r).isSome)
    | _ => false

structure Sound (s : Pty) : Prop where
  balanced : Ledger.Balanced s.table s.theirs (mine s)
  clean : s.faults = []
  solo : s.pc.solo = true → s.arc = []
  once : s.arc.Nodup
  released : s.pc.last = true → ∀ x ∈ s.arc, x ≠ .out → .release x ∈ s.todo
  spoken : Spoken s.pc s.failure (plan s)

section Steps
variable {s t : Pty} {a : Action} {rest : List (Nat × Holder)} {holder : Holder} {n : Nat}

theorem permLast {α : Type} (xs ys zs : List α) : (zs ++ (xs ++ ys)).Perm (xs ++ (ys ++ zs)) := by
  rw [← List.append_assoc xs ys zs]
  exact List.perm_append_comm

theorem closeAsKeeps (balanced : Ledger.Balanced s.table s.theirs ((n,holder)::rest)) :
    ∃ table, closeAs holder n s = {s with table := table} ∧ Ledger.Balanced table s.theirs rest := by
  obtain ⟨open',closed⟩ := Ledger.closes balanced
  refine ⟨Function.update s.table n none,?_,closed⟩
  rw [closeAs,if_pos open']

theorem ownKeeps (balanced : Ledger.Balanced s.table s.theirs ((n,.raw)::rest)) :
    ∃ table, own n s = {s with table := table} ∧ Ledger.Balanced table s.theirs ((n,.owned)::rest) := by
  obtain ⟨open',owned⟩ := Ledger.hands balanced .owned
  refine ⟨Function.update s.table n (some .owned),?_,owned⟩
  rw [own,if_pos open']

theorem ownAll (ds : List Nat) (balanced : Ledger.Balanced s.table s.theirs (heldRaw ds ++ rest)) :
    ∃ table, ds.foldl (fun s d => own d s) s = {s with table := table} ∧
      Ledger.Balanced table s.theirs (heldOwned ds ++ rest) := by
  induction ds generalizing s rest with
  | nil => exact ⟨s.table,rfl,balanced⟩
  | cons d ds ih =>
    obtain ⟨first,one,owned⟩ := ownKeeps balanced
    have moved : Ledger.Balanced first s.theirs (heldRaw ds ++ (d,.owned)::rest) :=
      Ledger.balancedPerm owned List.perm_middle.symm
    obtain ⟨table,all,held⟩ := @ih {s with table := first} ((d,.owned)::rest) moved
    refine ⟨table,?_,Ledger.balancedPerm held List.perm_middle⟩
    rw [List.foldl_cons,one,all]

theorem releaseKeeps (who : Sharer) (balanced : Ledger.Balanced s.table s.theirs (shared s.master s.arc ++ rest)) :
    ∃ table, release who s = {s with table := table, arc := s.arc.erase who} ∧
      Ledger.Balanced table s.theirs (shared s.master (s.arc.erase who) ++ rest) := by
  unfold release
  by_cases last : s.arc ≠ [] ∧ s.arc.erase who = []
  · rw [shared,if_neg last.1] at balanced
    obtain ⟨table,same,closed⟩ := closeAsKeeps balanced
    refine ⟨table,?_,?_⟩
    · dsimp only
      rw [if_pos last,same]
    · rw [shared,if_pos last.2]
      exact closed
  · refine ⟨s.table,?_,?_⟩
    · dsimp only
      rw [if_neg last]
    · have kept : shared s.master (s.arc.erase who) = shared s.master s.arc := by
        by_cases none : s.arc = []
        · simp [none]
        · have some : s.arc.erase who ≠ [] := fun gone => last ⟨none,gone⟩
          simp [none,some]
      rw [kept]
      exact balanced

theorem execSound {op : Op} {todo : List Op} (sound : Sound s) (next : s.todo = op::todo) :
    Sound (exec op {s with todo := todo}) := by
  obtain ⟨balanced,clean,solo,once,released,spoken⟩ := sound
  have said : plan s = s.log ++ (op.voices ++ todo.flatMap Op.voices) := by simp [next]
  have holds : mine s = op.settles ++ (todo.flatMap Op.settles ++ (s.pc.held ++ shared s.master s.arc)) := by simp [next]
  rw [holds] at balanced
  rw [said] at spoken
  have rest' : ∀ x, .release x ∈ s.todo → op ≠ .release x → .release x ∈ todo := by
    intro x known other
    rw [next] at known
    exact (List.mem_cons.mp known).resolve_left (fun same => other same.symm)
  cases op with
  | close n =>
    obtain ⟨table,same,closed⟩ := @closeAsKeeps {s with todo := todo} _ _ n balanced
    rw [exec,same]
    exact ⟨closed,clean,solo,once,fun last x known other => rest' x (released last x known other) (by simp),spoken⟩
  | drop n =>
    obtain ⟨table,same,closed⟩ := @closeAsKeeps {s with todo := todo} _ _ n balanced
    rw [exec,same]
    exact ⟨closed,clean,solo,once,fun last x known other => rest' x (released last x known other) (by simp),spoken⟩
  | does e =>
    refine ⟨balanced,clean,solo,once,fun last x known other => rest' x (released last x known other) (by simp),?_⟩
    have same : plan (exec (.does e) {s with todo := todo}) = s.log ++ ((Op.does e).voices ++ todo.flatMap Op.voices) := by
      simp [exec]
    rw [same]
    exact spoken
  | release who =>
    have front : Ledger.Balanced s.table s.theirs (shared s.master s.arc ++ (todo.flatMap Op.settles ++ s.pc.held)) := by
      have none : (Op.release who).settles = [] := rfl
      rw [none,List.nil_append] at balanced
      exact Ledger.balancedPerm balanced (permLast _ _ _).symm
    obtain ⟨table,same,kept⟩ := @releaseKeeps {s with todo := todo} _ who front
    rw [exec,same]
    refine ⟨?_,clean,?_,once.erase who,?_,spoken⟩
    · exact Ledger.balancedPerm kept (permLast _ _ _)
    · intro early
      simp [solo early]
    · intro last x known other
      have inside := List.mem_of_mem_erase known
      refine rest' x (released last x inside other) ?_
      intro same
      cases same
      exact absurd known (once.not_mem_erase)

theorem outEndsSound (sound : Sound s) : Sound (release .out s) := by
  obtain ⟨balanced,clean,solo,once,released,spoken⟩ := sound
  obtain ⟨table,same,kept⟩ := releaseKeeps .out (Ledger.balancedPerm balanced (permLast _ _ _).symm)
  rw [same]
  refine ⟨Ledger.balancedPerm kept (permLast _ _ _),clean,?_,once.erase _,?_,spoken⟩
  · intro early
    simp [solo early]
  · intro last x known other
    exact released last x (List.mem_of_mem_erase known) other

theorem othersSound {table theirs : Table} (sound : Sound s) (balanced : Ledger.Balanced table theirs (mine s)) :
    Sound {s with table := table, theirs := theirs} :=
  ⟨balanced,sound.clean,sound.solo,sound.once,sound.released,sound.spoken⟩

theorem spokenOpen {pc : Pc} {failure : Option String} {said : List Event} (open' : pc.last = false) :
    Spoken pc failure said ↔ failure = none ∧ said = pc.said := by
  cases pc with
  | returning => contradiction
  | _ => cases failure <;> simp [Spoken]

theorem openIdle {pc : Pc} (sound : Sound s) (idle : s.todo = []) (here : s.pc = pc) (open' : pc.last = false) :
    Ledger.Balanced s.table s.theirs (pc.held ++ shared s.master s.arc) ∧ s.failure = none ∧ s.log = pc.said := by
  subst here
  have balanced := sound.balanced
  have spoken := (spokenOpen open').mp sound.spoken
  rw [mine,idle] at balanced
  rw [plan,idle,List.flatMap_nil,List.append_nil] at spoken
  exact ⟨balanced,spoken⟩

theorem soloOpen {pc : Pc} (solo : pc.solo = true) : pc.last = false := by
  cases pc with
  | returning => contradiction
  | _ => rfl

theorem soloIdle {pc : Pc} (sound : Sound s) (idle : s.todo = []) (here : s.pc = pc) (solo : pc.solo = true) :
    s.arc = [] ∧ Ledger.Balanced s.table s.theirs pc.held ∧ s.failure = none ∧ s.log = pc.said := by
  have arc := sound.solo (by rw [here,solo])
  obtain ⟨balanced,spoken⟩ := openIdle sound idle here (soloOpen solo)
  rw [arc,shared,if_pos rfl,List.append_nil] at balanced
  exact ⟨arc,balanced,spoken⟩

theorem failSound {before after : List Op} (msg : String) (clean : s.faults = []) (arc : s.arc = [])
    (balanced : Ledger.Balanced s.table s.theirs ((before ++ after).flatMap Op.settles))
    (quiet : after.flatMap Op.voices = [])
    (said : s.log ++ before.flatMap Op.voices = [] ∨ s.log ++ before.flatMap Op.voices = [.spawned,.killed,.awaited]) :
    Sound (fail msg before after s) := by
  refine ⟨?_,clean,fun _ => arc,?_,?_,?_⟩
  · have same : mine (fail msg before after s) = (before ++ after).flatMap Op.settles := by
      simp [arc]
    rw [same]
    exact balanced
  · rw [fail,arc]
    exact List.nodup_nil
  · intro _ x known
    rw [fail,arc] at known
    contradiction
  · have same : plan (fail msg before after s) = (s.log ++ before.flatMap Op.voices) ++ [.error msg] := by
      simp [quiet]
    rw [same]
    obtain early | late := said
    · rw [early]
      exact .inl rfl
    · rw [late]
      exact .inr rfl

theorem soloSound (arc : t.arc = []) (clean : t.faults = []) (open' : t.pc.last = false)
    (balanced : Ledger.Balanced t.table t.theirs (t.todo.flatMap Op.settles ++ t.pc.held))
    (failure : t.failure = none) (said : plan t = t.pc.said) : Sound t := by
  refine ⟨?_,clean,fun _ => arc,?_,?_,(spokenOpen open').mpr ⟨failure,said⟩⟩
  · have none : shared t.master t.arc = [] := by simp [arc]
    rw [mine,none,List.append_nil]
    exact balanced
  · rw [arc]
    exact List.nodup_nil
  · intro last
    rw [open'] at last
    contradiction

theorem openptySound {r : Opened} (sound : Sound s) (idle : s.todo = []) (h : openpty r s = some t) : Sound t := by
  obtain ⟨pc,outcome⟩ := openptyCases h
  obtain ⟨arc,balanced,failure,said⟩ := soloIdle sound idle pc rfl
  obtain ⟨m,sl,_,free,rfl⟩ | ⟨e,_,rfl⟩ | ⟨e,_,rfl⟩ := outcome
  · have first := Ledger.opens balanced free.1 .raw
    have apart : Function.update s.table m (some .raw) sl = none := by
      rw [Function.update_of_ne (Ne.symm free.2.2)]
      exact free.2.1
    have second := Ledger.balancedPerm (Ledger.opens first apart .raw) (List.Perm.swap ..)
    refine soloSound arc sound.clean rfl ?_ failure ?_
    · simpa [idle] using second
    · simpa [idle] using said
  · exact failSound _ sound.clean arc balanced rfl (.inl (by rw [said]; rfl))
  · exact failSound _ sound.clean arc balanced rfl (.inl (by rw [said]; rfl))

theorem setCloexecSound {r : Except String Unit} (sound : Sound s) (idle : s.todo = [])
    (h : setCloexec r s = some t) : Sound t := by
  obtain ⟨m,sl,pc,outcome⟩ := setCloexecCases h
  obtain ⟨arc,balanced,failure,said⟩ := soloIdle sound idle pc rfl
  obtain ⟨_,_,rfl⟩ | ⟨e,_,rfl⟩ := outcome
  · refine soloSound arc sound.clean rfl ?_ failure ?_
    · simpa [idle] using balanced
    · simpa [idle] using said
  · exact failSound _ sound.clean arc balanced rfl (.inl (by rw [said]; rfl))

theorem closeSettles (ds : List Nat) : (ds.map Op.close).flatMap Op.settles = heldRaw ds := by
  induction ds with
  | nil => rfl
  | cons d ds ih =>
    rw [List.map_cons,List.flatMap_cons,ih]
    rfl

theorem dropSettles (ds : List Nat) : (ds.map Op.drop).flatMap Op.settles = heldOwned ds := by
  induction ds with
  | nil => rfl
  | cons d ds ih =>
    rw [List.map_cons,List.flatMap_cons,ih]
    rfl

theorem silentOps (ds : List Nat) : (ds.map Op.close).flatMap Op.voices = [] ∧ (ds.map Op.drop).flatMap Op.voices = [] := by
  induction ds with
  | nil => exact ⟨rfl,rfl⟩
  | cons d ds ih => exact ih

theorem duppedSound {m sl : Nat} {tried : List (Except String Nat)} (arc : s.arc = []) (clean : s.faults = [])
    (idle : s.todo = []) (failure : s.failure = none) (said : s.log = [])
    (balanced : Ledger.Balanced s.table s.theirs (heldRaw [m,sl] ++ heldRaw (tried.filterMap numberOf))) :
    Sound (dupped m sl tried s) := by
  unfold dupped
  dsimp only
  split
  · refine soloSound arc clean rfl ?_ failure ?_
    · simpa [idle] using balanced
    · simpa [idle] using said
  · have swapped := Ledger.balancedPerm balanced List.perm_append_comm
    split
    · rename_i e _
      refine failSound _ clean arc ?_ rfl (.inl ?_)
      · rw [List.append_nil,List.flatMap_append,closeSettles]
        exact swapped
      · rw [said,List.flatMap_append,(silentOps _).1]
        rfl
    · obtain ⟨table,owned,held⟩ := ownAll _ swapped
      rw [owned]
      refine soloSound arc clean rfl ?_ failure ?_
      · rw [idle]
        exact Ledger.balancedPerm held List.perm_append_comm
      · simpa [idle] using said

theorem dupSound {r : Except String Nat} (sound : Sound s) (idle : s.todo = []) (h : dup r s = some t) : Sound t := by
  obtain ⟨m,sl,tried,pc,outcome⟩ := dupCases h
  obtain ⟨arc,balanced,failure,said⟩ := soloIdle sound idle pc rfl
  obtain ⟨d,rfl,free,rfl⟩ | ⟨e,rfl,rfl⟩ := outcome
  · refine @duppedSound (opened d s) m sl _ arc sound.clean idle failure said ?_
    have more := Ledger.opens balanced free .raw
    refine Ledger.balancedPerm more ?_
    have longer : heldRaw ((tried ++ [Except.ok d]).filterMap numberOf) =
        heldRaw (tried.filterMap numberOf) ++ [(d,.raw)] := by
      rw [List.filterMap_append,heldRaw,List.map_append]
      rfl
    rw [longer,← List.append_assoc]
    exact (List.perm_append_singleton _ _).symm
  · refine duppedSound arc sound.clean idle failure said ?_
    have same : (tried ++ [Except.error e]).filterMap numberOf = tried.filterMap numberOf := by
      rw [List.filterMap_append]
      exact List.append_nil _
    rw [same]
    exact balanced

theorem spawnSound {r : Except String Unit} (sound : Sound s) (idle : s.todo = []) (h : spawn r s = some t) :
    Sound t := by
  obtain ⟨m,sl,ds,pc,outcome⟩ := spawnCases h
  obtain ⟨arc,balanced,failure,said⟩ := soloIdle sound idle pc rfl
  obtain ⟨_,_,rfl⟩ | ⟨e,_,rfl⟩ := outcome
  · refine soloSound arc sound.clean rfl ?_ failure ?_
    · rw [List.flatMap_append,dropSettles]
      have order : (heldRaw [m,sl] ++ heldOwned ds).Perm (heldOwned ds ++ ([(sl,.raw)] ++ heldRaw [m])) :=
        List.perm_append_comm.trans ((List.Perm.swap _ _ _).append_left _)
      have moved := Ledger.balancedPerm balanced order
      rw [← List.append_assoc] at moved
      exact moved
    · rw [plan,said,List.flatMap_append,(silentOps ds).2]
      rfl
  · refine failSound _ sound.clean arc ?_ (silentOps ds).2 (.inl (by rw [said]; rfl))
    rw [List.flatMap_append,dropSettles]
    exact balanced

theorem setNonblockingSound {r : Except String Unit} (sound : Sound s) (idle : s.todo = [])
    (h : setNonblocking r s = some t) : Sound t := by
  obtain ⟨m,pc,outcome⟩ := setNonblockingCases h
  obtain ⟨arc,balanced,failure,said⟩ := soloIdle sound idle pc rfl
  obtain ⟨_,_,rfl⟩ | ⟨e,_,rfl⟩ := outcome
  · refine soloSound arc sound.clean rfl ?_ failure ?_
    · simpa [idle] using balanced
    · simpa [idle] using said
  · refine failSound _ sound.clean arc balanced rfl (.inr ?_)
    rw [said]
    rfl

theorem asyncFdSound {r : Except String Unit} (sound : Sound s) (idle : s.todo = [])
    (h : asyncFd r s = some t) : Sound t := by
  obtain ⟨m,pc,outcome⟩ := asyncFdCases h
  obtain ⟨arc,balanced,failure,said⟩ := soloIdle sound idle pc rfl
  obtain ⟨table,owned,held⟩ := ownKeeps balanced
  rw [owned] at outcome
  obtain ⟨_,_,rfl⟩ | ⟨e,_,rfl⟩ := outcome
  · refine ⟨?_,sound.clean,by simp,by simp,by simp,(spokenOpen rfl).mpr ⟨failure,?_⟩⟩
    · simpa [idle] using held
    · simpa [idle] using said
  · refine failSound _ sound.clean arc held rfl (.inr ?_)
    dsimp only
    rw [said]
    rfl

theorem selectedSound {todo : List Op} (sound : Sound s) (idle : s.todo = [])
    (quiet : todo.flatMap Op.settles = [] ∧ todo.flatMap Op.voices = []) (h : selected todo s = some t) : Sound t := by
  obtain ⟨pc,rfl⟩ := selectedCases h
  obtain ⟨balanced,failure,said⟩ := openIdle sound idle pc rfl
  refine ⟨?_,sound.clean,by simp,sound.once,by simp,(spokenOpen rfl).mpr ⟨failure,?_⟩⟩
  · rw [mine,quiet.1]
    exact balanced
  · rw [plan,quiet.2,List.append_nil,said]
    rfl

theorem drainedSound (sound : Sound s) (idle : s.todo = []) (h : drained s = some t) : Sound t := by
  obtain ⟨pc,rfl⟩ := drainedCases h
  obtain ⟨balanced,failure,said⟩ := openIdle sound idle pc rfl
  refine ⟨balanced,sound.clean,by simp,sound.once,?_,?_⟩
  · intro _ x _ other
    cases x with
    | am => simp
    | input => simp
    | out => contradiction
  · have shape : plan (returns s) = s.log ++ [.exit] := rfl
    rw [shape,said]
    simp only [returns,failure]
    rfl

theorem moveSound (sound : Sound s) (idle : s.todo = []) (h : move s a = some t) : Sound t := by
  cases a with
  | openpty r => exact openptySound sound idle h
  | setCloexec r => exact setCloexecSound sound idle h
  | dup r => exact dupSound sound idle h
  | spawn r => exact spawnSound sound idle h
  | setNonblocking r => exact setNonblockingSound sound idle h
  | asyncFd r => exact asyncFdSound sound idle h
  | inputEnds => exact selectedSound sound idle ⟨rfl,rfl⟩ h
  | shellExits | cancels => exact selectedSound sound idle ⟨rfl,rfl⟩ h
  | drainEnds => exact drainedSound sound idle h
  | otherOpens n | otherCloses n | proceeds | outEnds => contradiction

theorem idleMoves (h : (if s.todo = [] then move s a else none) = some t) : s.todo = [] ∧ move s a = some t := by
  split at h
  · exact ⟨by assumption,h⟩
  · contradiction

theorem stepSound (sound : Sound s) (h : step s a = some t) : Sound t := by
  cases a with
  | otherOpens n =>
    simp only [step] at h
    split at h <;> try contradiction
    rename_i free
    cases Option.some.inj h
    exact othersSound sound (Ledger.theyOpen sound.balanced free .other)
  | otherCloses n =>
    simp only [step] at h
    split at h <;> try contradiction
    rename_i open'
    cases Option.some.inj h
    exact othersSound sound (Ledger.theyClose sound.balanced open')
  | proceeds =>
    simp only [step] at h
    split at h <;> try contradiction
    rename_i op rest next
    cases Option.some.inj h
    exact execSound sound next
  | outEnds =>
    simp only [step] at h
    split at h <;> try contradiction
    cases Option.some.inj h
    exact outEndsSound sound
  | _ =>
    obtain ⟨idle,moved⟩ := idleMoves h
    exact moveSound sound idle moved

end Steps

section Frames
variable {s t : Pty} {a : Action}

theorem releaseFrame (who : Sharer) (s : Pty) :
    (release who s).theirs = s.theirs ∧ (release who s).pc = s.pc ∧ (release who s).failure = s.failure := by
  unfold release
  dsimp only
  split <;> exact ⟨rfl,rfl,rfl⟩

theorem execFrame (op : Op) (s : Pty) :
    (exec op s).theirs = s.theirs ∧ (exec op s).pc = s.pc ∧ (exec op s).failure = s.failure := by
  cases op with
  | close n | drop n | does e => exact ⟨rfl,rfl,rfl⟩
  | release who => exact releaseFrame who s

theorem ownsFrame (ds : List Nat) (s : Pty) :
    (ds.foldl (fun s d => own d s) s).theirs = s.theirs ∧ (ds.foldl (fun s d => own d s) s).failure = s.failure := by
  induction ds generalizing s with
  | nil => exact ⟨rfl,rfl⟩
  | cons d ds ih => exact ih (own d s)

theorem duppedFrame (m sl : Nat) (tried : List (Except String Nat)) (s : Pty) :
    (dupped m sl tried s).theirs = s.theirs ∧
      troubled (dupped m sl tried s) = (s.failure.isSome || tried.any (fun r => (errorOf r).isSome)) := by
  unfold dupped
  dsimp only
  split
  · exact ⟨rfl,rfl⟩
  · split
    · rename_i e last
      refine ⟨rfl,?_⟩
      obtain ⟨r,known,said⟩ := List.mem_filterMap.mp (List.mem_of_getLast? last)
      have some : tried.any (fun r => (errorOf r).isSome) = true := List.any_eq_true.mpr ⟨r,known,by rw [said]; rfl⟩
      rw [some,Bool.or_true]
      rfl
    · rename_i last
      obtain ⟨theirs,failure⟩ := ownsFrame (tried.filterMap numberOf) s
      refine ⟨theirs,?_⟩
      have none : tried.any (fun r => (errorOf r).isSome) = false := by
        refine List.any_eq_false.mpr ?_
        intro r known
        rw [List.filterMap_eq_nil_iff.mp (List.getLast?_eq_none_iff.mp last) r known]
        simp
      rw [none]
      simp only [troubled,failure]

theorem moveFrame (h : move s a = some t) : t.theirs = s.theirs ∧ troubled t = (troubled s || a.fails) := by
  cases a with
  | openpty r =>
    obtain ⟨pc,⟨m,sl,rfl,free,rfl⟩ | ⟨e,rfl,rfl⟩ | ⟨e,rfl,rfl⟩⟩ := openptyCases h
    · exact ⟨rfl,by simp [pc]⟩
    · exact ⟨rfl,by simp⟩
    · exact ⟨rfl,by simp⟩
  | setCloexec r =>
    obtain ⟨m,sl,pc,⟨_,rfl,rfl⟩ | ⟨e,rfl,rfl⟩⟩ := setCloexecCases h
    · exact ⟨rfl,by simp [pc]⟩
    · exact ⟨rfl,by simp⟩
  | dup r =>
    obtain ⟨m,sl,tried,pc,⟨d,rfl,free,rfl⟩ | ⟨e,rfl,rfl⟩⟩ := dupCases h
    · obtain ⟨theirs,trouble⟩ := duppedFrame m sl (tried ++ [.ok d]) (opened d s)
      exact ⟨theirs,trouble.trans (by simp [pc])⟩
    · obtain ⟨theirs,trouble⟩ := duppedFrame m sl (tried ++ [.error e]) s
      exact ⟨theirs,trouble.trans (by simp)⟩
  | spawn r =>
    obtain ⟨m,sl,ds,pc,⟨_,rfl,rfl⟩ | ⟨e,rfl,rfl⟩⟩ := spawnCases h
    · exact ⟨rfl,by simp [pc]⟩
    · exact ⟨rfl,by simp⟩
  | setNonblocking r =>
    obtain ⟨m,pc,⟨_,rfl,rfl⟩ | ⟨e,rfl,rfl⟩⟩ := setNonblockingCases h
    · exact ⟨rfl,by simp [pc]⟩
    · exact ⟨rfl,by simp⟩
  | asyncFd r =>
    obtain ⟨m,pc,⟨_,rfl,rfl⟩ | ⟨e,rfl,rfl⟩⟩ := asyncFdCases h
    · exact ⟨rfl,by simp [own,pc]⟩
    · exact ⟨rfl,by simp⟩
  | inputEnds | shellExits | cancels =>
    obtain ⟨pc,rfl⟩ := selectedCases h
    exact ⟨rfl,by simp [pc]⟩
  | drainEnds =>
    obtain ⟨pc,rfl⟩ := drainedCases h
    exact ⟨rfl,by simp [pc]⟩
  | otherOpens n | otherCloses n | proceeds | outEnds => contradiction

theorem stepFrame (h : step s a = some t) : t.theirs = theirDoing s.theirs a ∧ troubled t = (troubled s || a.fails) := by
  cases a with
  | otherOpens n | otherCloses n =>
    simp only [step] at h
    split at h <;> try contradiction
    cases Option.some.inj h
    exact ⟨rfl,by simp⟩
  | proceeds =>
    simp only [step] at h
    split at h <;> try contradiction
    rename_i op rest _
    cases Option.some.inj h
    obtain ⟨theirs,pc,failure⟩ := execFrame op {s with todo := rest}
    exact ⟨theirs,by simp [pc,failure]⟩
  | outEnds =>
    simp only [step] at h
    split at h <;> try contradiction
    cases Option.some.inj h
    obtain ⟨theirs,pc,failure⟩ := releaseFrame .out s
    exact ⟨theirs,by simp [pc,failure]⟩
  | _ => exact moveFrame (idleMoves h).2

end Frames

section Runs
variable {used : Nat → Bool} {acts : List Action} {s : Pty}

theorem startSound (used : Nat → Bool) : Sound (start used) :=
  ⟨Ledger.balancedNone _,rfl,fun _ => rfl,List.nodup_nil,by simp [start],rfl⟩

theorem runSound (reached : Machine.run step (start used) acts = some s) : Sound s :=
  Machine.runKeeps (fun _ _ _ sound h => stepSound sound h) (startSound used) reached

theorem runFrame (reached : Machine.run step (start used) acts = some s) :
    s.theirs = acts.foldl theirDoing (tableOf used) ∧ troubled s = acts.any Action.fails := by
  refine @Machine.runHistory _ _ step
    (fun done u => u.theirs = done.foldl theirDoing (tableOf used) ∧ troubled u = done.any Action.fails)
    (fun _ _ => True) _ _ _ ?_ ⟨rfl,rfl⟩ (Machine.alongAll (by simp)) reached
  intro before u a v _ held _ ha
  obtain ⟨theirs,trouble⟩ := stepFrame ha
  rw [theirs,trouble,held.1,held.2]
  simp

theorem alonePlain (alone : ∀ a ∈ acts, a.others = false) (table : Table) : acts.foldl theirDoing table = table := by
  induction acts generalizing table with
  | nil => rfl
  | cons a rest ih =>
    obtain ⟨first,later⟩ := List.forall_mem_cons.mp alone
    have same : theirDoing table a = table := by
      cases a <;> first | rfl | contradiction
    rw [List.foldl_cons,same]
    exact ih later table

theorem doneSettles (sound : Sound s) (done : Done s) : mine s = [] := by
  obtain ⟨last,idle,gone⟩ := done
  have arc : s.arc = [] := by
    refine List.eq_nil_iff_forall_not_mem.mpr ?_
    intro x known
    have left := sound.released last x known (fun same => gone (same ▸ known))
    rw [idle] at left
    contradiction
  have pc : s.pc = .returning := by
    have shape := last
    cases here : s.pc with
    | returning => rfl
    | _ => rw [here] at shape; contradiction
  simp [idle,pc,arc]

theorem doneSaid (sound : Sound s) (done : Done s) :
    if troubled s = true then ∃ msg, s.log = [.error msg] ∨ s.log = [.spawned,.killed,.awaited,.error msg]
    else s.log = [.spawned,.exit] := by
  obtain ⟨last,idle,-⟩ := done
  have spoken := sound.spoken
  have whole : plan s = s.log := by simp [idle]
  rw [whole] at spoken
  cases pc : s.pc with
  | returning =>
    rw [pc] at spoken
    cases failure : s.failure with
    | none =>
      rw [failure] at spoken
      have fine : troubled s = false := by simp [pc,failure]
      rw [fine]
      exact spoken
    | some msg =>
      rw [failure] at spoken
      have trouble : troubled s = true := by simp [failure]
      rw [if_pos trouble]
      exact ⟨msg,spoken⟩
  | _ =>
    rw [pc] at last
    contradiction

theorem openPtyBalances (used : Nat → Bool) (acts : List Action) (s : Pty)
    (reached : Machine.run step (start used) acts = some s) :
    s.faults = [] ∧
    (Done s →
      s.table = acts.foldl theirDoing (tableOf used) ∧
      ((∀ a ∈ acts, a.others = false) → s.table = tableOf used) ∧
      (acts.any Action.fails = true →
        ∃ msg, s.log = [.error msg] ∨ s.log = [.spawned,.killed,.awaited,.error msg]) ∧
      (acts.any Action.fails = false → s.log = [.spawned,.exit])) := by
  have sound := runSound reached
  obtain ⟨theirs,trouble⟩ := runFrame reached
  refine ⟨sound.clean,?_⟩
  intro done
  have balanced := sound.balanced
  rw [doneSettles sound done] at balanced
  have table := (Ledger.settled balanced).trans theirs
  have said := doneSaid sound done
  rw [trouble] at said
  refine ⟨table,?_,?_,?_⟩
  · intro alone
    rw [table]
    exact alonePlain alone _
  · intro failed
    rwa [if_pos failed] at said
  · intro fine
    rwa [fine] at said

theorem openPtyBalancesAborted :
    ∃ s acts, acts.any Action.fails = false ∧ Machine.run step (start (· < 3)) acts = some s ∧ s.faults = [] ∧
      s.table = Function.update (tableOf (· < 3)) 4 (some .other) ∧ s.log = [.spawned,.exit] := by
  let acts : List Action :=
    [.openpty (.pair 3 4),.setCloexec (.ok ()),.dup (.ok 5),.dup (.ok 6),.dup (.ok 7),.spawn (.ok ()),
      .proceeds,.proceeds,.proceeds,.proceeds,.otherOpens 4,.setNonblocking (.ok ()),.asyncFd (.ok ()),
      .shellExits,.drainEnds,.proceeds,.proceeds,.proceeds,.outEnds]
  obtain ⟨s,reached,done⟩ : ∃ s, Machine.run step (start (· < 3)) acts = some s ∧ Done s :=
    Machine.runEnds (by decide +kernel)
  obtain ⟨clean,settled⟩ := openPtyBalances (· < 3) acts s reached
  obtain ⟨table,-,-,said⟩ := settled done
  exact ⟨s,acts,rfl,reached,clean,table,said rfl⟩

end Runs

end Guesthopper.PtyBalance
