import Guesthopper.Machine

/-! The agent's descriptor table across any number of sessions. A session task runs alone
between two awaits (`running`); openpty runs on a blocking thread, which interleaves with
everything, and opens the master, then the slave, both without close-on-exec. The task
flags the master when it resumes. A spawn hands the child every descriptor that is not
flagged. The first frame of a session finds an empty channel, so reporting a failure
does not suspend before the descriptors are closed. -/
namespace Guesthopper.PtyDescriptors

inductive Role where
  | master
  | slave
  | stdio
  deriving DecidableEq, Repr

structure Descriptor where
  session : Nat
  role : Role
  cloexec : Bool
  deriving DecidableEq, Repr

structure Process where
  session : Nat
  held : List Descriptor
  deriving DecidableEq, Repr

inductive Phase where
  | idle
  | queued
  | masterOpen
  | opened
  | flagging
  | dupping
  | forking
  | spawned
  | streaming
  | closed
  deriving DecidableEq, Repr

structure World where
  table : List Descriptor
  phase : Nat → Phase
  running : Option Nat
  children : List Process

def start : World := ⟨[],fun _ => .idle,none,[]⟩

def setPhase (phase : Nat → Phase) (i : Nat) (p : Phase) : Nat → Phase := fun j => if j = i then p else phase j

def closeAll (i : Nat) (table : List Descriptor) : List Descriptor := table.filter (fun d => d.session ≠ i)

def closeSlaves (i : Nat) (table : List Descriptor) : List Descriptor :=
  table.filter (fun d => d.session ≠ i ∨ d.role = .master)

def flagMaster (i : Nat) (table : List Descriptor) : List Descriptor :=
  table.map (fun d => if d.session = i ∧ d.role = .master then {d with cloexec := true} else d)

def inherited (table : List Descriptor) : List Descriptor := table.filter (fun d => d.cloexec = false)

inductive Action where
  | startsOpenPty (i : Nat)
  | opensMaster (i : Nat)
  | opensSlave (i : Nat)
  | openFails (i : Nat)
  | resumes (i : Nat)
  | setsCloexec (i : Nat) (ok : Bool)
  | dups (i : Nat) (ok : Bool)
  | spawns (i : Nat) (ok : Bool)
  | dropsSlave (i : Nat)
  | ends (i : Nat)
  | execSpawns (i : Nat) (ok : Bool)
  deriving DecidableEq, Repr

def fails (w : World) (i : Nat) : World :=
  {w with table := closeAll i w.table, phase := setPhase w.phase i .closed, running := none}

def step (w : World) : Action → Option World
  | .startsOpenPty i =>
    if w.phase i = .idle ∧ w.running = none then some {w with phase := setPhase w.phase i .queued} else none
  | .opensMaster i =>
    if w.phase i = .queued then
      some {w with table := w.table ++ [⟨i,.master,false⟩], phase := setPhase w.phase i .masterOpen}
    else none
  | .opensSlave i =>
    if w.phase i = .masterOpen then
      some {w with table := w.table ++ [⟨i,.slave,false⟩], phase := setPhase w.phase i .opened}
    else none
  | .openFails i =>
    if w.phase i = .queued ∨ w.phase i = .masterOpen then
      some {w with table := closeAll i w.table, phase := setPhase w.phase i .closed}
    else none
  | .resumes i =>
    if w.phase i = .opened ∧ w.running = none then
      some {w with phase := setPhase w.phase i .flagging, running := some i}
    else none
  | .setsCloexec i ok =>
    if w.phase i = .flagging then
      if ok then some {w with table := flagMaster i w.table, phase := setPhase w.phase i .dupping}
      else some (fails w i)
    else none
  | .dups i ok =>
    if w.phase i = .dupping then
      if ok then
        some {w with table := w.table ++ List.replicate 3 ⟨i,.stdio,false⟩, phase := setPhase w.phase i .forking}
      else some (fails w i)
    else none
  | .spawns i ok =>
    if w.phase i = .forking then
      if ok then
        some {w with phase := setPhase w.phase i .spawned, children := w.children ++ [⟨i,inherited w.table⟩]}
      else some (fails w i)
    else none
  | .dropsSlave i =>
    if w.phase i = .spawned then
      some {w with table := closeSlaves i w.table, phase := setPhase w.phase i .streaming, running := none}
    else none
  | .ends i =>
    if w.phase i = .streaming ∧ w.running = none then
      some {w with table := closeAll i w.table, phase := setPhase w.phase i .closed}
    else none
  | .execSpawns i ok =>
    if w.phase i = .idle ∧ w.running = none then
      if ok then
        some {w with phase := setPhase w.phase i .closed, children := w.children ++ [⟨i,inherited w.table⟩]}
      else some {w with phase := setPhase w.phase i .closed}
    else none

def Isolated (w : World) : Prop :=
  ∀ p ∈ w.children, ∀ d ∈ p.held, d.role ≠ .master ∧ d.session = p.session

def exposed : Phase → Bool
  | .masterOpen | .opened => true
  | _ => false

-- A spawn meets no session whose openpty has opened the master and whose task has not resumed since.
def Clear (w : World) : Action → Prop
  | .spawns _ true | .execSpawns _ true => ∀ j, exposed (w.phase j) = false
  | _ => True

def owns : Phase → Role → Bool → Bool
  | .masterOpen,.master,false => true
  | .opened,.master,false | .opened,.slave,false => true
  | .flagging,.master,false | .flagging,.slave,false => true
  | .dupping,.master,true | .dupping,.slave,false => true
  | .forking,.master,true | .forking,.slave,false | .forking,.stdio,false => true
  | .spawned,.master,true | .spawned,.slave,false | .spawned,.stdio,false => true
  | .streaming,.master,true => true
  | _,_,_ => false

def exclusive : Phase → Bool
  | .flagging | .dupping | .forking | .spawned => true
  | _ => false

structure Consistent (w : World) : Prop where
  tabled : ∀ d ∈ w.table, owns (w.phase d.session) d.role d.cloexec = true
  bare : ∀ i, exposed (w.phase i) = true → ⟨i,.master,false⟩ ∈ w.table
  locked : ∀ i, exclusive (w.phase i) = true → w.running = some i

structure Turn (i : Nat) (p : Phase) (w t : World) : Prop where
  phase : t.phase = setPhase w.phase i p
  others : ∀ d, d.session ≠ i → (d ∈ t.table ↔ d ∈ w.table)
  own : ∀ d ∈ t.table, d.session = i → owns p d.role d.cloexec = true
  bare : exposed p = true → ⟨i,.master,false⟩ ∈ t.table
  locked : exclusive p = true → t.running = some i
  lock : t.running = w.running ∨ w.running = none ∨ w.running = some i

variable {w t : World} {i : Nat} {p : Phase} {a : Action}

theorem setPhaseSame (phase : Nat → Phase) : setPhase phase i p i = p := by simp [setPhase]

theorem setPhaseOther {j : Nat} (phase : Nat → Phase) (other : j ≠ i) : setPhase phase i p j = phase j := by
  simp [setPhase,other]

theorem turnConsistent (turn : Turn i p w t) (ok : Consistent w) : Consistent t where
  tabled d present := by
    rw [turn.phase]
    by_cases mine : d.session = i
    · rw [mine,setPhaseSame]
      exact turn.own d present mine
    · rw [setPhaseOther _ mine]
      exact ok.tabled d ((turn.others d mine).mp present)
  bare j now := by
    rw [turn.phase] at now
    by_cases mine : j = i
    · subst mine
      rw [setPhaseSame] at now
      exact turn.bare now
    · rw [setPhaseOther _ mine] at now
      exact (turn.others ⟨j,.master,false⟩ mine).mpr (ok.bare j now)
  locked j now := by
    rw [turn.phase] at now
    by_cases mine : j = i
    · subst mine
      rw [setPhaseSame] at now
      exact turn.locked now
    · rw [setPhaseOther _ mine] at now
      have held := ok.locked j now
      rcases turn.lock with same | free | own
      · rw [same]; exact held
      · rw [free] at held; cases held
      · rw [own] at held; exact absurd (Option.some.inj held).symm mine

theorem ownBefore {q : Phase} {d : Descriptor} (ok : Consistent w) (pc : w.phase i = q) (present : d ∈ w.table)
    (mine : d.session = i) : owns q d.role d.cloexec = true := by
  have before := ok.tabled d present
  rwa [mine,pc] at before

theorem closeAllOthers {d : Descriptor} (table : List Descriptor) (other : d.session ≠ i) :
    d ∈ closeAll i table ↔ d ∈ table := by
  simp [closeAll,other]

theorem closeAllOwn {d : Descriptor} (table : List Descriptor) (present : d ∈ closeAll i table) : d.session ≠ i := by
  simp only [closeAll,List.mem_filter,decide_eq_true_eq] at present
  exact present.2

theorem appendOthers {d : Descriptor} {more : List Descriptor} (table : List Descriptor)
    (mine : ∀ x ∈ more, x.session = i) (other : d.session ≠ i) : d ∈ table ++ more ↔ d ∈ table := by
  rw [List.mem_append]
  constructor
  · intro either
    exact either.resolve_right (fun new => other (mine d new))
  · exact .inl

theorem flagMasterOthers {d : Descriptor} (table : List Descriptor) (other : d.session ≠ i) :
    d ∈ flagMaster i table ↔ d ∈ table := by
  unfold flagMaster
  rw [List.mem_map]
  constructor
  · intro ⟨x,present,same⟩
    split at same
    · rename_i mine
      subst same
      exact absurd mine.1 other
    · subst same; exact present
  · intro present
    exact ⟨d,present,by simp [other]⟩

theorem closedTurn (phase : t.phase = setPhase w.phase i .closed) (table : t.table = closeAll i w.table)
    (lock : t.running = w.running ∨ w.running = none ∨ w.running = some i) : Turn i .closed w t where
  phase := phase
  others d other := by rw [table]; exact closeAllOthers _ other
  own d present mine := by
    rw [table] at present
    exact absurd mine (closeAllOwn _ present)
  bare now := by cases now
  locked now := by cases now
  lock := lock

theorem appendTurn {q : Phase} {more : List Descriptor} (ok : Consistent w) (pc : w.phase i = q)
    (phase : t.phase = setPhase w.phase i p) (table : t.table = w.table ++ more) (running : t.running = w.running)
    (mine : ∀ x ∈ more, x.session = i ∧ owns p x.role x.cloexec = true)
    (grows : ∀ r c, owns q r c = true → owns p r c = true)
    (bare : exposed p = true → exposed q = true ∨ ⟨i,.master,false⟩ ∈ more)
    (locked : exclusive p = true → exclusive q = true) : Turn i p w t where
  phase := phase
  others d other := by rw [table]; exact appendOthers _ (fun x present => (mine x present).1) other
  own d present same := by
    rw [table] at present
    rcases List.mem_append.mp present with old | new
    · exact grows _ _ (ownBefore ok pc old same)
    · exact (mine d new).2
  bare now := by
    rw [table]
    rcases bare now with before | new
    · exact List.mem_append_left _ (ok.bare i (by rw [pc]; exact before))
    · exact List.mem_append_right _ new
  locked now := by
    rw [running]
    exact ok.locked i (by rw [pc]; exact locked now)
  lock := .inl running

theorem flagTurn (ok : Consistent w) (pc : w.phase i = .flagging) (phase : t.phase = setPhase w.phase i .dupping)
    (table : t.table = flagMaster i w.table) (running : t.running = w.running) : Turn i .dupping w t where
  phase := phase
  others d other := by rw [table]; exact flagMasterOthers _ other
  own d present mine := by
    rw [table,flagMaster,List.mem_map] at present
    obtain ⟨x,old,same⟩ := present
    split at same
    · rename_i master
      subst same
      simp only [master.2]
      rfl
    · rename_i other
      subst same
      have before := ownBefore ok pc old mine
      cases role : x.role <;> cases flag : x.cloexec <;> simp_all [owns]
  bare now := by cases now
  locked _ := by
    rw [running]
    exact ok.locked i (by rw [pc]; rfl)
  lock := .inl running

theorem dropTurn (ok : Consistent w) (pc : w.phase i = .spawned) (phase : t.phase = setPhase w.phase i .streaming)
    (table : t.table = closeSlaves i w.table) : Turn i .streaming w t where
  phase := phase
  others d other := by rw [table]; simp [closeSlaves,other]
  own d present mine := by
    rw [table] at present
    simp only [closeSlaves,List.mem_filter,mine,ne_eq,not_true_eq_false,false_or,decide_eq_true_eq] at present
    have before := ownBefore ok pc present.1 mine
    rw [present.2] at before ⊢
    cases flag : d.cloexec <;> rw [flag] at before <;> first | rfl | cases before
  bare now := by cases now
  locked now := by cases now
  lock := .inr (.inr (ok.locked i (by rw [pc]; rfl)))

theorem resumeTurn (ok : Consistent w) (pc : w.phase i = .opened) (free : w.running = none)
    (phase : t.phase = setPhase w.phase i .flagging) (table : t.table = w.table) (running : t.running = some i) :
    Turn i .flagging w t where
  phase := phase
  others d other := by rw [table]
  own d present mine := by
    rw [table] at present
    have before := ownBefore ok pc present mine
    cases role : d.role <;> cases flag : d.cloexec <;> rw [role,flag] at before <;> first | rfl | cases before
  bare now := by cases now
  locked _ := running
  lock := .inr (.inl free)

theorem failsTurn (ok : Consistent w) (pc : exclusive (w.phase i) = true) : Turn i .closed w (fails w i) :=
  closedTurn rfl rfl (.inr (.inr (ok.locked i pc)))

theorem stepTurn (h : step w a = some t) (ok : Consistent w) : ∃ i p, Turn i p w t := by
  cases a with
  | startsOpenPty i =>
    simp only [step] at h
    split at h <;> try contradiction
    rename_i able
    cases Option.some.inj h
    exact ⟨i,_,appendTurn ok able.1 rfl (List.append_nil _).symm rfl (by simp) (by simp [owns]) (by simp [exposed]) (by simp [exclusive])⟩
  | opensMaster i =>
    simp only [step] at h
    split at h <;> try contradiction
    rename_i pc
    cases Option.some.inj h
    exact ⟨i,_,appendTurn ok pc rfl rfl rfl (by simp [owns]) (by simp [owns]) (by simp) (by simp [exclusive])⟩
  | opensSlave i =>
    simp only [step] at h
    split at h <;> try contradiction
    rename_i pc
    cases Option.some.inj h
    refine ⟨i,_,appendTurn ok pc rfl rfl rfl (by simp [owns]) ?_ (by simp [exposed]) (by simp [exclusive])⟩
    intro r c before
    cases r <;> cases c <;> first | rfl | cases before
  | openFails i =>
    simp only [step] at h
    split at h <;> try contradiction
    cases Option.some.inj h
    exact ⟨i,_,closedTurn rfl rfl (.inl rfl)⟩
  | resumes i =>
    simp only [step] at h
    split at h <;> try contradiction
    rename_i able
    cases Option.some.inj h
    exact ⟨i,_,resumeTurn ok able.1 able.2 rfl rfl rfl⟩
  | setsCloexec i good =>
    simp only [step] at h
    split at h <;> try contradiction
    rename_i pc
    split at h
    · cases Option.some.inj h; exact ⟨i,_,flagTurn ok pc rfl rfl rfl⟩
    · cases Option.some.inj h; exact ⟨i,_,failsTurn ok (by rw [pc]; rfl)⟩
  | dups i good =>
    simp only [step] at h
    split at h <;> try contradiction
    rename_i pc
    split at h
    · cases Option.some.inj h
      refine ⟨i,_,appendTurn ok pc rfl rfl rfl ?_ ?_ (by simp [exposed]) (by simp [exclusive])⟩
      · intro x present
        rw [List.eq_of_mem_replicate present]
        exact ⟨rfl,rfl⟩
      · intro r c before
        cases r <;> cases c <;> first | rfl | cases before
    · cases Option.some.inj h; exact ⟨i,_,failsTurn ok (by rw [pc]; rfl)⟩
  | spawns i good =>
    simp only [step] at h
    split at h <;> try contradiction
    rename_i pc
    split at h
    · cases Option.some.inj h
      refine ⟨i,_,appendTurn ok pc rfl (List.append_nil _).symm rfl (by simp) ?_ (by simp [exposed]) (by simp [exclusive])⟩
      intro r c before
      cases r <;> cases c <;> first | rfl | cases before
    · cases Option.some.inj h; exact ⟨i,_,failsTurn ok (by rw [pc]; rfl)⟩
  | dropsSlave i =>
    simp only [step] at h
    split at h <;> try contradiction
    rename_i pc
    cases Option.some.inj h
    exact ⟨i,_,dropTurn ok pc rfl rfl⟩
  | ends i =>
    simp only [step] at h
    split at h <;> try contradiction
    cases Option.some.inj h
    exact ⟨i,_,closedTurn rfl rfl (.inl rfl)⟩
  | execSpawns i good =>
    simp only [step] at h
    split at h <;> try contradiction
    rename_i able
    split at h
    · cases Option.some.inj h
      exact ⟨i,_,appendTurn ok able.1 rfl (List.append_nil _).symm rfl (by simp) (by simp [owns]) (by simp [exposed]) (by simp [exclusive])⟩
    · cases Option.some.inj h
      exact ⟨i,_,appendTurn ok able.1 rfl (List.append_nil _).symm rfl (by simp) (by simp [owns]) (by simp [exposed]) (by simp [exclusive])⟩

theorem stepConsistent (h : step w a = some t) (ok : Consistent w) : Consistent t := by
  obtain ⟨i,p,turn⟩ := stepTurn h ok
  exact turnConsistent turn ok

theorem consistentStart : Consistent start where
  tabled d present := by cases present
  bare i now := by cases now
  locked i now := by cases now

theorem stepChildren (h : step w a = some t) :
    (t.children = w.children ∧ Clear w a) ∨
    ∃ i, t.children = w.children ++ [⟨i,inherited w.table⟩] ∧
      ((a = .spawns i true ∧ w.phase i = .forking) ∨ (a = .execSpawns i true ∧ w.running = none)) := by
  cases a with
  | spawns i good =>
    simp only [step] at h
    split at h <;> try contradiction
    rename_i pc
    split at h
    · rename_i made
      subst made
      cases Option.some.inj h
      exact .inr ⟨i,rfl,.inl ⟨rfl,pc⟩⟩
    · rename_i made
      cases (Bool.not_eq_true _).mp made
      cases Option.some.inj h
      exact .inl ⟨rfl,trivial⟩
  | execSpawns i good =>
    simp only [step] at h
    split at h <;> try contradiction
    rename_i able
    split at h
    · rename_i made
      subst made
      cases Option.some.inj h
      exact .inr ⟨i,rfl,.inr ⟨rfl,able.2⟩⟩
    · rename_i made
      cases (Bool.not_eq_true _).mp made
      cases Option.some.inj h
      exact .inl ⟨rfl,trivial⟩
  | startsOpenPty i | opensMaster i | opensSlave i | openFails i | resumes i | dropsSlave i | ends i =>
    simp only [step] at h
    split at h <;> try contradiction
    cases Option.some.inj h
    exact .inl ⟨rfl,trivial⟩
  | setsCloexec i good | dups i good =>
    simp only [step] at h
    split at h <;> try contradiction
    split at h
    · cases Option.some.inj h; exact .inl ⟨rfl,trivial⟩
    · cases Option.some.inj h; exact .inl ⟨rfl,trivial⟩

theorem bareOwner {p : Phase} {r : Role} (bare : owns p r false = true) (hidden : exposed p = false) :
    exclusive p = true ∧ (r = .master → p = .flagging) := by
  cases p <;> cases r <;> simp [owns,exposed,exclusive] at bare hidden ⊢

theorem barePhase {d : Descriptor} (ok : Consistent w) (present : d ∈ w.table) (bare : d.cloexec = false)
    (hidden : exposed (w.phase d.session) = false) :
    w.running = some d.session ∧ (d.role = .master → w.phase d.session = .flagging) := by
  have before := ok.tabled d present
  rw [bare] at before
  have owner := bareOwner before hidden
  exact ⟨ok.locked d.session owner.1,owner.2⟩

theorem clearIsolated (h : step w a = some t) (ok : Consistent w) (clear : Clear w a) (isolated : Isolated w) :
    Isolated t := by
  rcases stepChildren h with ⟨same,_⟩ | ⟨i,grown,spawn⟩
  · intro p present
    rw [same] at present
    exact isolated p present
  have hidden : ∀ j, exposed (w.phase j) = false := by
    rcases spawn with ⟨rfl,_⟩ | ⟨rfl,_⟩ <;> exact clear
  intro p present d held
  rw [grown] at present
  rcases List.mem_append.mp present with old | new
  · exact isolated p old d held
  cases List.mem_singleton.mp new
  simp only [inherited,List.mem_filter,decide_eq_true_eq] at held
  obtain ⟨running,flagging⟩ := barePhase ok held.1 held.2 (hidden d.session)
  rcases spawn with ⟨_,pc⟩ | ⟨_,free⟩
  · have locked := ok.locked i (by rw [pc]; rfl)
    have mine : d.session = i := Option.some.inj (running.symm.trans locked)
    refine ⟨?_,mine⟩
    intro master
    have now := flagging master
    rw [mine,pc] at now
    cases now
  · rw [free] at running; cases running

def Leaked (w : World) : Prop := ∃ p ∈ w.children, ∃ d ∈ p.held, d.role = .master

theorem exposedLeaks (h : step w a = some t) (ok : Consistent w) (bad : ¬ Clear w a) : Leaked t := by
  rcases stepChildren h with ⟨_,clear⟩ | ⟨i,grown,spawn⟩
  · exact absurd clear bad
  have seen : ∃ j, exposed (w.phase j) = true := by
    rcases spawn with ⟨rfl,_⟩ | ⟨rfl,_⟩
    · simpa [Clear] using bad
    · simpa [Clear] using bad
  obtain ⟨j,now⟩ := seen
  refine ⟨⟨i,inherited w.table⟩,by rw [grown]; simp,⟨j,.master,false⟩,?_,rfl⟩
  simpa [inherited] using ok.bare j now

theorem leakedStays (h : step w a = some t) (leaked : Leaked w) : Leaked t := by
  obtain ⟨p,present,seen⟩ := leaked
  rcases stepChildren h with ⟨same,_⟩ | ⟨i,grown,_⟩
  · exact ⟨p,by rw [same]; exact present,seen⟩
  · exact ⟨p,by rw [grown]; exact List.mem_append_left _ present,seen⟩

theorem ptyIsolation {actions} (reached : Machine.run step start actions = some w) :
    Isolated w ↔ Machine.Along step Clear start actions := by
  constructor
  · intro isolated
    refine Machine.alongOfUnmarked (I := Consistent) (M := Leaked) ?_ ?_ ?_ consistentStart reached ?_
    · intro u b v ok h; exact stepConsistent h ok
    · intro u b v ok bad h; exact exposedLeaks h ok bad
    · intro u b v ok leaked h; exact leakedStays h leaked
    · intro ⟨p,present,d,held,master⟩
      exact (isolated p present d held).1 master
  · intro along
    have both := Machine.runKeepsAlong (I := fun u => Consistent u ∧ Isolated u)
      (fun u b v both clear h => ⟨stepConsistent h both.1,clearIsolated h both.1 clear both.2⟩)
      ⟨consistentStart,fun p present => by cases present⟩ along reached
    exact both.2

def crowd : List Action :=
  [.startsOpenPty 0,.startsOpenPty 2,.opensMaster 0,.opensSlave 0,.resumes 0,.setsCloexec 0 true,.dups 0 true,.spawns 0 true,
    .dropsSlave 0,.execSpawns 1 true,.opensMaster 2,.opensSlave 2,.resumes 2,.setsCloexec 2 true,.dups 2 true,.spawns 2 true,
    .dropsSlave 2]

def terminalHeld (i : Nat) : List Descriptor := ⟨i,.slave,false⟩::List.replicate 3 ⟨i,.stdio,false⟩

theorem ptyIsolationCrowd : ∃ w, Machine.run step start crowd = some w ∧
    w.children = [⟨0,terminalHeld 0⟩,⟨1,[]⟩,⟨2,terminalHeld 2⟩] ∧ Isolated w ∧ Machine.Along step Clear start crowd := by
  have ends : ∃ w, Machine.run step start crowd = some w ∧
      w.children = [⟨0,terminalHeld 0⟩,⟨1,[]⟩,⟨2,terminalHeld 2⟩] := Machine.runEnds (by decide)
  obtain ⟨w,reached,children⟩ := ends
  have isolated : Isolated w := by
    rw [Isolated,children]
    decide
  exact ⟨w,reached,children,isolated,(ptyIsolation reached).mp isolated⟩

/- openpty has returned on its thread, and an exec session is polled before the task that waits for it. -/
def overtaken : List Action := [.startsOpenPty 0,.opensMaster 0,.opensSlave 0,.execSpawns 1 true]

theorem overtakenLeaks : ∃ w,
    Machine.run step start overtaken = some w ∧
    w.children = [⟨1,[⟨0,.master,false⟩,⟨0,.slave,false⟩]⟩] ∧ ¬ Isolated w := by
  have ends : ∃ w, Machine.run step start overtaken = some w ∧
      w.children = [⟨1,[⟨0,.master,false⟩,⟨0,.slave,false⟩]⟩] := Machine.runEnds (by decide)
  obtain ⟨w,reached,children⟩ := ends
  refine ⟨w,reached,children,?_⟩
  intro isolated
  have own := isolated ⟨1,[⟨0,.master,false⟩,⟨0,.slave,false⟩]⟩ (by rw [children]; simp) ⟨0,.master,false⟩ (by simp)
  exact own.1 rfl

end Guesthopper.PtyDescriptors
