import Guesthopper.LossyText
import Guesthopper.Pool
import Guesthopper.SessionBounds

/-! The agent: its settings, the accept loop with its semaphore, and the sessions it serves, all
on one thread under one clock. A permit is taken before a connection is accepted and goes back
when the connection's task ends or the accept fails. The sessions are a pool of the session
machine; what happens between two of the loop's suspensions is one step. A connection that
waits in the kernel's backlog is not part of the state. -/
namespace Guesthopper.AgentServer
open FrameBytes SessionText SessionModel SessionMove SessionTeardown SessionClock SessionBounds

def digits (n : Nat) : List Char → Option Nat
  | [] => some n
  | c::rest => if c.isDigit then digits (n * 10 + (c.toNat - '0'.toNat)) rest else none

def parseUnsigned (width : Nat) (s : String) : Option Nat :=
  let cs := match s.toList with
    | '+'::rest => rest
    | cs => cs
  if cs = [] then none
  else (digits 0 cs).bind (fun n => if n < 2^width then some n else none)

structure Settings where
  shell : String
  idle : Duration
  write : Duration
  inbound : Nat
  sessions : Nat
  deadline : Option Duration
  deriving DecidableEq, Repr

def seconds (n : Nat) : Duration := n * 10^9

def defaultDeadline (secs : F64) : Option Duration :=
  match secs with
  | .nan => some (seconds 3600)
  | .infinite negative => if negative then none else some (seconds 3600)
  | .finite value => if value ≤ 0 then none else some ((tryFromSecsF64 (.finite value)).getD (seconds 3600))

structure Host where
  width : Nat
  parseFloat : String → Option F64
  var : String → Option String
  shell : Option String
  link : Option Bytes

def Host.count (h : Host) (name : String) (width default : Nat) : Nat :=
  max (((h.var name).bind (parseUnsigned width)).getD default) 1

def settings (h : Host) : Settings where
  shell := h.shell.getD (match h.link with
    | some target => String.ofList (LossyText.decode target)
    | none => "/bin/sh")
  idle := seconds (h.count "GUESTHOPPER_IDLE_TIMEOUT_SECS" 64 30)
  write := seconds (h.count "GUESTHOPPER_WRITE_TIMEOUT_SECS" 64 60)
  inbound := match (h.var "GUESTHOPPER_MAX_FRAME_LEN").bind (parseUnsigned h.width) with
    | some v => clampInbound v
    | none => defaultMaxInboundFrameLen
  sessions := h.count "GUESTHOPPER_MAX_SESSIONS" h.width 64
  deadline := defaultDeadline (((h.var "GUESTHOPPER_COMMAND_TIMEOUT_SECS").bind h.parseFloat).getD (.finite 3600))

theorem countSome (h : Host) (name : String) (width default : Nat) : 1 ≤ h.count name width default := Nat.le_max_right _ _

theorem settingsUsable (h : Host) : seconds 1 ≤ (settings h).idle ∧ seconds 1 ≤ (settings h).write ∧ 1 ≤ (settings h).sessions ∧
    minInboundFrameLen ≤ (settings h).inbound ∧ (settings h).inbound ≤ maxFrameLen := by
  refine ⟨Nat.mul_le_mul_right _ (countSome ..),Nat.mul_le_mul_right _ (countSome ..),countSome ..,?_⟩
  simp only [settings]
  split
  · exact clampInboundBounds _
  · decide

def longCommandThreshold : Nat := 2048

def longCommandWarning : String :=
  "[IGLOO] warning: long guest command detected; consider putting large commands in static_files, init.d, or the shared results directory instead.\n"

def warnLongCommand (command : String) (warned : Bool) : Bool × Option String :=
  if (utf8 command.toList).length < longCommandThreshold then (warned,none)
  else if warned then (true,none)
  else (true,some longCommandWarning)

def execCommand (env : Env) (f : Frame) : Option String :=
  if f.ftype = frameRequest then
    match env.parseRequest f.payload with
    | .ok req => if req.verb = "exec" then some (req.cmd.getD "") else none
    | .error _ => none
  else none

structure World where
  host : Host
  guest : Nat → Env

def World.settings (w : World) : Settings := AgentServer.settings w.host
def World.env (w : World) (i : Nat) : Env := {w.guest i with shell := w.settings.shell, defaultDeadline := w.settings.deadline}
def World.limits (w : World) : Limits := ⟨w.settings.idle,w.settings.write⟩

structure Agent where
  permits : Nat
  holding : Bool
  live : List (Nat × Timed)
  accepted : Nat
  ended : List Nat
  warned : Bool
  console : List String
  deriving DecidableEq

-- tokio's semaphore takes at most this many permits and panics beyond.
def maxPermits (width : Nat) : Nat := (2^width - 1) / 8

def boot (w : World) : Option Agent :=
  if w.settings.sessions ≤ maxPermits w.host.width then some ⟨w.settings.sessions,false,[],0,[],false,[]⟩ else none

inductive Step where
  | acquires
  | accepts
  | acceptFails
  | session (i : Nat) (a : Action)
  | finishes (i : Nat)
  | pass (d : Nat)
  deriving DecidableEq

def own (w : World) (i : Nat) : Timed → Event → Option Timed := tick (w.env i) w.limits
def pool (w : World) : List (Nat × Timed) → Pool.Event Nat Event → Option (List (Nat × Timed)) := Pool.step (own w) (fun _ => fresh)

def command (env : Env) : Action → Option String
  | .firstRead (.frame f) => execCommand env f
  | _ => none

def warns (env : Env) (a : Action) (s : Agent) : Agent :=
  match command env a with
  | some text =>
    {s with warned := (warnLongCommand text s.warned).1, console := s.console ++ (warnLongCommand text s.warned).2.toList}
  | none => s

def finished (p : Nat × Timed) : Bool := p.2.session.handler = .returned

-- Nothing is left to run: the loop waits for a connection or a permit, and no task has come to its end.
def quiet (s : Agent) : Bool := (s.holding || s.permits = 0) && s.live.all (fun p => !finished p)

def step (w : World) (s : Agent) : Step → Option Agent
  | .acquires =>
    if s.holding = false ∧ 0 < s.permits then some {s with permits := s.permits - 1, holding := true} else none
  | .accepts =>
    if s.holding then
      (pool w s.live (.spawn s.accepted)).map (fun live => {s with holding := false, live := live, accepted := s.accepted + 1})
    else none
  | .acceptFails => if s.holding then some {s with permits := s.permits + 1, holding := false} else none
  | .session i a => (pool w s.live (.act i (.act a))).map (fun live => warns (w.env i) a {s with live := live})
  | .finishes i =>
    if (s.live.lookup i).any (fun t => finished (i,t)) then
      (pool w s.live (.drop i)).map (fun live => {s with live := live, permits := s.permits + 1, ended := s.ended ++ [i]})
    else none
  | .pass d => if quiet s then (pool w s.live (.every (.pass d))).map (fun live => {s with live := live}) else none

def cost : Step → Nat
  | .pass d => d
  | _ => 0

variable {w : World} {s t u : Agent} {e : Step} {steps : List Step}

inductive Moves (w : World) (s : Agent) : Step → Agent → Prop where
  | acquired (idle : s.holding = false) (free : 0 < s.permits) :
      Moves w s .acquires {s with permits := s.permits - 1, holding := true}
  | accepted {live} (held : s.holding = true) (ok : pool w s.live (.spawn s.accepted) = some live) :
      Moves w s .accepts {s with holding := false, live := live, accepted := s.accepted + 1}
  | refused (held : s.holding = true) : Moves w s .acceptFails {s with permits := s.permits + 1, holding := false}
  | ran {i a live} (ok : pool w s.live (.act i (.act a)) = some live) :
      Moves w s (.session i a) (warns (w.env i) a {s with live := live})
  | finished {i v live} (done : s.live.lookup i = some v) (last : v.session.handler = .returned)
      (ok : pool w s.live (.drop i) = some live) :
      Moves w s (.finishes i) {s with live := live, permits := s.permits + 1, ended := s.ended ++ [i]}
  | passed {d live} (still : quiet s = true) (ok : pool w s.live (.every (.pass d)) = some live) :
      Moves w s (.pass d) {s with live := live}

theorem stepMoves (moved : step w s e = some t) : Moves w s e t := by
  cases e with
  | acquires =>
    simp only [step] at moved
    split at moved <;> try contradiction
    rename_i able
    cases Option.some.inj moved
    exact .acquired able.1 able.2
  | accepts =>
    simp only [step] at moved
    split at moved <;> try contradiction
    obtain ⟨live,ok,rfl⟩ := Option.map_eq_some_iff.mp moved
    exact .accepted (by assumption) ok
  | acceptFails =>
    simp only [step] at moved
    split at moved <;> try contradiction
    cases Option.some.inj moved
    exact .refused (by assumption)
  | session i a =>
    obtain ⟨live,ok,rfl⟩ := Option.map_eq_some_iff.mp moved
    exact .ran ok
  | finishes i =>
    simp only [step] at moved
    split at moved <;> try contradiction
    rename_i done
    obtain ⟨v,found,last⟩ := (Option.any_eq_true _ _).mp done
    obtain ⟨live,ok,rfl⟩ := Option.map_eq_some_iff.mp moved
    exact .finished found (of_decide_eq_true last) ok
  | pass d =>
    simp only [step] at moved
    split at moved <;> try contradiction
    obtain ⟨live,ok,rfl⟩ := Option.map_eq_some_iff.mp moved
    exact .passed (by assumption) ok

section Warns
variable (env : Env) (a : Action) (s : Agent)

@[simp] theorem warnsPermits : (warns env a s).permits = s.permits := by unfold warns; split <;> rfl
@[simp] theorem warnsHolding : (warns env a s).holding = s.holding := by unfold warns; split <;> rfl
@[simp] theorem warnsLive : (warns env a s).live = s.live := by unfold warns; split <;> rfl
@[simp] theorem warnsAccepted : (warns env a s).accepted = s.accepted := by unfold warns; split <;> rfl
@[simp] theorem warnsEnded : (warns env a s).ended = s.ended := by unfold warns; split <;> rfl

end Warns

structure Ledger (w : World) (s : Agent) : Prop where
  permits : s.permits + s.holding.toNat + s.live.length = w.settings.sessions
  roster : (Pool.keys s.live ++ s.ended).Perm (List.range s.accepted)

theorem ranKeys {i a} {live live' : List (Nat × Timed)} (ok : pool w live (.act i a) = some live') : Pool.keys live' = Pool.keys live := by
  obtain ⟨_,_,later⟩ := Option.bind_eq_some_iff.mp ok
  obtain ⟨_,_,last⟩ := Option.bind_eq_some_iff.mp later
  cases Option.some.inj last
  exact Pool.alterKeys

theorem keysLength (live : List (Nat × Timed)) : (Pool.keys live).length = live.length := List.length_map _

theorem sameLength {live live' : List (Nat × Timed)} (same : Pool.keys live' = Pool.keys live) : live'.length = live.length := by
  rw [← keysLength live',same,keysLength]

theorem spawnedKeys {i} {live live' : List (Nat × Timed)} (ok : pool w live (.spawn i) = some live') :
    live' = live ++ [(i,fresh)] := by
  simp only [pool,Pool.step] at ok
  split at ok <;> try contradiction
  exact (Option.some.inj ok).symm

theorem droppedKeys {i} {live live' : List (Nat × Timed)} (ok : pool w live (.drop i) = some live') :
    i ∈ Pool.keys live ∧ Pool.keys live' = (Pool.keys live).filter (· ≠ i) := by
  simp only [pool,Pool.step] at ok
  split at ok <;> try contradiction
  rename_i inside
  cases Option.some.inj ok
  refine ⟨inside,?_⟩
  simp only [Pool.keys,Pool.without,List.filter_map]
  rfl

theorem filterOther {i : Nat} {is : List Nat} (single : is.Nodup) (inside : i ∈ is) : (i::is.filter (· ≠ i)).Perm is := by
  have erased : is.filter (· ≠ i) = is.erase i := by
    rw [single.erase_eq_filter]
    refine List.filter_congr ?_
    intro j _
    by_cases same : j = i <;> simp [same]
  rw [erased]
  exact (List.perm_cons_erase inside).symm

theorem moveLedger (moved : Moves w s e t) (ledger : Ledger w s) : Ledger w t := by
  obtain ⟨permits,roster⟩ := ledger
  have single : (Pool.keys s.live).Nodup := (List.nodup_append.mp (roster.nodup_iff.mpr List.nodup_range)).1
  cases moved with
  | acquired idle free =>
    refine ⟨?_,roster⟩
    simp only [idle,Bool.toNat_false,Bool.toNat_true] at permits ⊢
    omega
  | accepted held ok =>
    cases spawnedKeys ok
    refine ⟨?_,?_⟩
    · simp only [held,Bool.toNat_false,Bool.toNat_true,List.length_append,List.length_singleton] at permits ⊢
      omega
    · have swap : (Pool.keys s.live ++ [s.accepted] ++ s.ended).Perm (Pool.keys s.live ++ s.ended ++ [s.accepted]) := by
        rw [List.append_assoc,List.append_assoc]
        exact List.perm_append_comm.append_left _
      have more := swap.trans (roster.append_right [s.accepted])
      simpa [Pool.keys,List.range_succ] using more
  | refused held =>
    refine ⟨?_,roster⟩
    simp only [held,Bool.toNat_false,Bool.toNat_true] at permits ⊢
    omega
  | ran ok =>
    refine ⟨?_,?_⟩
    · simpa [sameLength (ranKeys ok)] using permits
    · simpa [ranKeys ok] using roster
  | finished done last ok =>
    obtain ⟨inside,same⟩ := droppedKeys ok
    have other := filterOther single inside
    refine ⟨?_,?_⟩
    · have one := other.length_eq
      rw [← same,List.length_cons,keysLength,keysLength] at one
      simp only
      omega
    · simp only [same]
      rw [← List.append_assoc]
      exact List.perm_append_comm.trans ((other.append_right s.ended).trans roster)
  | passed still ok =>
    have same := (Pool.sweepMem ok).1
    refine ⟨?_,?_⟩
    · simpa [sameLength same] using permits
    · simpa [same] using roster

theorem bootLedger (booted : boot w = some s) : s.live = [] ∧ s.accepted = 0 ∧ Ledger w s := by
  unfold boot at booted
  split at booted <;> try contradiction
  cases Option.some.inj booted
  exact ⟨rfl,rfl,rfl,List.Perm.refl _⟩

theorem reachedLedger (booted : boot w = some s) (reached : Machine.run (step w) s steps = some t) : Ledger w t :=
  Machine.runKeeps (fun _ _ _ ledger h => moveLedger (stepMoves h) ledger) (bootLedger booted).2.2 reached

-- At most as many sessions as permits, and every accepted connection is one session: running, or ended once.
theorem permitsBalance (w : World) (steps : List Step) (s t : Agent) (booted : boot w = some s)
    (reached : Machine.run (step w) s steps = some t) :
    t.permits + t.holding.toNat + t.live.length = w.settings.sessions ∧
      (Pool.keys t.live ++ t.ended).Perm (List.range t.accepted) :=
  ⟨(reachedLedger booted reached).permits,(reachedLedger booted reached).roster⟩

def host : Host := ⟨32,fun _ => none,fun name => if name = "GUESTHOPPER_MAX_SESSIONS" then some "1" else none,none,none⟩
def world : World := ⟨host,fun _ => plainGuest⟩

def served : List Step :=
  [.acquires,.acceptFails,.acquires,.accepts,.pass 5,.session 0 (.firstRead .eof),.session 0 .writerCloses,
    .session 0 .writerJoined,.finishes 0,.acquires]

theorem permitsBalanceServed : ∃ s t, boot world = some s ∧ Machine.run (step world) s served = some t ∧
    t.permits + t.holding.toNat + t.live.length = 1 ∧ (Pool.keys t.live ++ t.ended).Perm (List.range t.accepted) := by
  have one : world.settings.sessions = 1 := by decide
  have booted : boot world = some ⟨1,false,[],0,[],false,[]⟩ := by decide
  have ends : ∃ t, Machine.run (step world) ⟨1,false,[],0,[],false,[]⟩ served = some t ∧ t.ended = [0] :=
    Machine.runEnds (by decide +kernel)
  obtain ⟨t,reached,_⟩ := ends
  have balance := permitsBalance world served _ t booted reached
  rw [one] at balance
  exact ⟨_,t,booted,reached,balance⟩

def pooled : Nat → List Step → List (Pool.Event Nat Event)
  | _,[] => []
  | n,.accepts::rest => .spawn n::pooled (n+1) rest
  | n,.session i a::rest => .act i (.act a)::pooled n rest
  | n,.finishes i::rest => .drop i::pooled n rest
  | n,.pass d::rest => .every (.pass d)::pooled n rest
  | n,.acquires::rest | n,.acceptFails::rest => pooled n rest

theorem runPooled (reached : Machine.run (step w) s steps = some t) :
    Machine.run (pool w) s.live (pooled s.accepted steps) = some t.live := by
  induction steps generalizing s with
  | nil => cases Option.some.inj reached; rfl
  | cons e rest ih =>
    obtain ⟨next,went,later⟩ := Machine.runCons.mp reached
    have onward := ih later
    cases stepMoves went with
    | acquired idle free => exact onward
    | refused held => exact onward
    | accepted held ok => exact Machine.runCons.mpr ⟨_,ok,onward⟩
    | ran ok =>
      simp only [warnsLive,warnsAccepted] at onward
      exact Machine.runCons.mpr ⟨_,ok,onward⟩
    | finished done last ok => exact Machine.runCons.mpr ⟨_,ok,onward⟩
    | passed still ok => exact Machine.runCons.mpr ⟨_,ok,onward⟩

theorem reachedApart (booted : boot w = some s) (reached : Machine.run (step w) s steps = some t) :
    Pool.Apart (own w) (fun _ => fresh) (pooled 0 steps) t.live := by
  obtain ⟨blank,first,_⟩ := bootLedger booted
  have run := runPooled reached
  rw [blank,first] at run
  exact Pool.runApart run

theorem liveNumbers (ledger : Ledger w s) {i : Nat} (inside : i ∈ Pool.keys s.live) : i < s.accepted :=
  List.mem_range.mp (ledger.roster.mem_iff.mp (List.mem_append_left _ inside))

theorem pooledSpawns {n i : Nat} (old : i < n) : ∀ e ∈ pooled n steps, e ≠ .spawn i := by
  induction steps generalizing n with
  | nil => simp [pooled]
  | cons e rest ih =>
    cases e with
    | accepts =>
      refine List.forall_mem_cons.mpr ⟨?_,ih (by omega)⟩
      intro same
      cases same
      omega
    | session j a => exact List.forall_mem_cons.mpr ⟨by simp,ih old⟩
    | finishes j => exact List.forall_mem_cons.mpr ⟨by simp,ih old⟩
    | pass d => exact List.forall_mem_cons.mpr ⟨by simp,ih old⟩
    | acquires => exact ih old
    | acceptFails => exact ih old

theorem pooledSpent (i n : Nat) : Meter.spent SessionClock.cost (Pool.part i (pooled n steps)) = Meter.spent cost steps := by
  induction steps generalizing n with
  | nil => rfl
  | cons e rest ih =>
    cases e with
    | accepts => simpa [pooled,Pool.part,cost] using ih (n+1)
    | session j a =>
      simp only [pooled,Pool.part,Meter.spentCons,cost,Nat.zero_add]
      split
      · simpa [SessionClock.cost] using ih n
      · exact ih n
    | finishes j => simpa [pooled,Pool.part,cost] using ih n
    | pass d => simpa [pooled,Pool.part,cost,SessionClock.cost] using ih n
    | acquires => simpa [pooled,cost] using ih n
    | acceptFails => simpa [pooled,cost] using ih n

theorem runAlone {after : List Step} {i : Nat} {v x : Timed} (booted : boot w = some s)
    (reached : Machine.run (step w) s steps = some t) (inside : (i,v) ∈ t.live)
    (onward : Machine.run (step w) t after = some u) (still : (i,x) ∈ u.live) :
    Machine.run (tick (w.env i) w.limits) v (Pool.part i (pooled t.accepted after)) = some x := by
  have old := liveNumbers (reachedLedger booted reached) (List.mem_map.mpr ⟨(i,v),inside,rfl⟩)
  exact Pool.runFollows (pooledSpawns old) (reachedApart booted reached).single inside (runPooled onward) still

theorem aloneTimely {i : Nat} {v : Timed} (booted : boot w = some s) (reached : Machine.run (step w) s steps = some t)
    (inside : (i,v) ∈ t.live) : Timely (w.env i) w.limits v :=
  runTimely ((reachedApart booted reached).alone (i,v) inside)

theorem finishReady {i : Nat} {v : Timed} (single : (Pool.keys s.live).Nodup) (inside : (i,v) ∈ s.live)
    (done : v.session.handler = .returned) : ∃ t, step w s (.finishes i) = some t := by
  have found := Pool.memLookup single inside
  have listed : i ∈ Pool.keys s.live := List.mem_map.mpr ⟨(i,v),inside,rfl⟩
  simp [step,found,finished,done,pool,Pool.step,listed]

/- No client keeps a slot: once its session is being torn down, the connection's task is over, or
about to be, after a time that only the write timeout enters, however the other sessions fare. -/
theorem slotReturns (w : World) (before after : List Step) (s t u : Agent) (i : Nat) (v : Timed) (booted : boot w = some s)
    (reached : Machine.run (step w) s before = some t) (inside : (i,v) ∈ t.live) (torn : Teardown v.session)
    (onward : Machine.run (step w) t after = some u)
    (slow : hangupGrace + reapGrace + ptyGrace + (if v.session.cancel then 0 else w.settings.write * (channelBound + 2)) <
      Meter.spent cost after) : i ∈ u.ended ∨ ∃ next, step w u (.finishes i) = some next := by
  have whole : Machine.run (step w) s (before ++ after) = some u := Machine.runAppend.mpr ⟨t,reached,onward⟩
  have ledger := reachedLedger booted whole
  have counted : t.accepted ≤ u.accepted := by
    refine Machine.runKeeps (I := fun a => t.accepted ≤ a.accepted) ?_ (Nat.le_refl _) onward
    intro a e b kept h
    cases stepMoves h with
    | accepted held ok => exact Nat.le_succ_of_le kept
    | ran ok => simpa using kept
    | _ => exact kept
  have old := liveNumbers (reachedLedger booted reached) (List.mem_map.mpr ⟨(i,v),inside,rfl⟩)
  have known := ledger.roster.mem_iff.mpr (List.mem_range.mpr (old.trans_le counted))
  rcases List.mem_append.mp known with listed | ended
  · obtain ⟨⟨i,x⟩,still,rfl⟩ := List.mem_map.mp listed
    have run := runAlone booted reached inside onward still
    have done : x.session.handler = .returned :=
      settlesBy (aloneTimely booted reached inside) torn run (by rw [pooledSpent]; exact slow)
    exact .inr (finishReady (reachedApart booted whole).single still done)
  · exact .inl ended

def pairWorld : World := ⟨{host with var := fun _ => none},fun _ => plainGuest⟩

def leaving : List Step :=
  [.acquires,.accepts,.acquires,.accepts,.acquires,.session 0 execOpening,.session 1 execOpening,.session 0 (.inbound .eof),
    .session 0 .cancelArm]

def waitsOut : List Step :=
  [.session 0 .writerCancelled,.pass reapGrace,.session 0 .reapLapse,.pass execGrace,.session 0 .drainLapse,.pass execGrace,
    .session 0 .drainLapse,.session 0 .handSends,.session 0 .writerJoined,.finishes 0,.pass (2 * 10^9)]

theorem slotReturnsEnding : ∃ s t u, boot pairWorld = some s ∧ Machine.run (step pairWorld) s leaving = some t ∧
    Pool.keys t.live = [0,1] ∧ Machine.run (step pairWorld) t waitsOut = some u ∧ Pool.keys u.live = [1] ∧
    (0 ∈ u.ended ∨ ∃ next, step pairWorld u (.finishes 0) = some next) := by
  have booted : boot pairWorld = some ⟨64,false,[],0,[],false,[]⟩ := by decide
  have ends : ∃ t, Machine.run (step pairWorld) ⟨64,false,[],0,[],false,[]⟩ leaving = some t ∧
      (Pool.keys t.live = [0,1] ∧ (t.live.lookup 0).any (fun v => v.session.cancel) = true ∧
      (Machine.run (step pairWorld) t waitsOut).any (fun u => Pool.keys u.live = [1])) :=
    Machine.runEnds (by decide +kernel)
  obtain ⟨t,reached,pair,gone,onward⟩ := ends
  obtain ⟨v,found,cancelled⟩ := (Option.any_eq_true _ _).mp gone
  obtain ⟨u,went,rest⟩ := (Option.any_eq_true _ _).mp onward
  refine ⟨_,t,u,booted,reached,pair,went,of_decide_eq_true rest,?_⟩
  refine slotReturns pairWorld leaving waitsOut _ t u 0 v booted reached (Pool.lookupMem found) (.inl cancelled) went ?_
  rw [if_pos cancelled]
  decide

def ours : Step → Bool
  | .acquires | .finishes _ | .pass _ => true
  | .session _ a => internal a || lapse a
  | .accepts | .acceptFails => false

def weight (t : Timed) : Nat := chores t.session + 3

def left (w : World) (i : Nat) (s : Agent) : Nat ×ₗ Nat :=
  toLex (Pool.total weight s.live + 2 * s.permits,((s.live.lookup i).map (settling w.limits)).getD 0)

structure Freeing (w : World) (i : Nat) (s : Agent) : Prop where
  single : (Pool.keys s.live).Nodup
  timely : ∀ p ∈ s.live, Timely (w.env p.1) w.limits p.2
  slot : s.holding = true ∨ 0 < s.permits ∨ ∃ v, (i,v) ∈ s.live ∧ Teardown v.session

def Progress (w : World) (i : Nat) (s : Agent) : Prop :=
  ∃ e t, ours e = true ∧ step w s e = some t ∧ Freeing w i t ∧ left w i t < left w i s

theorem acquireProgress {i} (freeing : Freeing w i s) (idle : s.holding = false) (free : 0 < s.permits) : Progress w i s := by
  refine ⟨.acquires,{s with permits := s.permits - 1, holding := true},rfl,by simp [step,idle,free],?_,?_⟩
  · exact ⟨freeing.single,freeing.timely,.inl rfl⟩
  · refine Prod.Lex.toLex_lt_toLex.mpr (.inl ?_)
    simp only
    omega

theorem finishProgress {i j} {v : Timed} (freeing : Freeing w i s) (inside : (j,v) ∈ s.live)
    (done : v.session.handler = .returned) : Progress w i s := by
  obtain ⟨t,went⟩ := @finishReady w s j v freeing.single inside done
  cases stepMoves went with
  | finished found last ok =>
    have made := ok
    simp only [pool,Pool.step] at made
    split at made <;> try contradiction
    cases Option.some.inj made
    refine ⟨.finishes j,_,rfl,went,⟨Pool.stepSingle ok freeing.single,?_,.inr (.inl (Nat.succ_pos _))⟩,?_⟩
    · intro p kept
      exact freeing.timely p (List.mem_of_mem_filter kept)
    · refine Prod.Lex.toLex_lt_toLex.mpr (.inl ?_)
      have less : Pool.total weight (Pool.without j s.live) + weight v ≤ Pool.total weight s.live := Pool.dropTotal inside
      have some : 3 ≤ weight v := Nat.le_add_left _ _
      simp only at less ⊢
      omega

theorem sessionProgress {i j a} {v x : Timed} (freeing : Freeing w i s) (inside : (j,v) ∈ s.live)
    (able : internal a = true ∨ lapse a = true) (went : tick (w.env j) w.limits v (.act a) = some x) (lower : chores x.session < chores v.session)
    (slot : ∃ v, (i,v) ∈ s.live ∧ Teardown v.session) : Progress w i s := by
  have ok : pool w s.live (.act j (.act a)) = some (Pool.alter j x s.live) := by
    simp [pool,Pool.step,Pool.memLookup freeing.single inside,own,went]
  refine ⟨.session j a,_,by simpa [ours] using able,by rw [step,ok]; rfl,⟨?_,?_,.inr (.inr ?_)⟩,?_⟩
  · simpa [Pool.alterKeys] using freeing.single
  · intro p kept
    rw [warnsLive] at kept
    rcases Pool.alterMem kept with rfl | ⟨old,_⟩
    · exact tickTimely (freeing.timely (j,v) inside) went
    · exact freeing.timely p old
  · obtain ⟨y,there,torn⟩ := slot
    rw [warnsLive]
    by_cases same : i = j
    · subst same
      have now := Pool.sameState freeing.single there inside
      subst now
      obtain ⟨_,u,hu,rfl⟩ := actCases went
      exact ⟨after y a u,List.mem_map.mpr ⟨(i,y),there,by simp⟩,SessionWatch.teardownStays (SessionMove.stepMove hu) torn⟩
    · exact ⟨y,List.mem_map.mpr ⟨(i,y),there,by simp [same]⟩,torn⟩
  · refine Prod.Lex.toLex_lt_toLex.mpr (.inl ?_)
    have less : Pool.total weight (Pool.alter j x s.live) < Pool.total weight s.live :=
      Pool.alterTotal freeing.single inside (by simpa [weight] using lower)
    simp only [warnsLive,warnsPermits]
    omega

theorem passProgress {i} {v : Timed} (freeing : Freeing w i s) (still : quiet s = true) (inside : (i,v) ∈ s.live)
    (torn : Teardown v.session) (all : ∀ p ∈ s.live, tick (w.env p.1) w.limits p.2 (.pass 1) = some (later p.2 1)) :
    Progress w i s := by
  obtain ⟨live,swept⟩ := Pool.sweepSome (f := fun k t => own w k t (.pass 1)) (fun p there => ⟨_,all p there⟩)
  have ok : pool w s.live (.every (.pass 1)) = some live := swept
  obtain ⟨same,each⟩ := Pool.sweepMem swept
  have single : (Pool.keys live).Nodup := by rw [same]; exact freeing.single
  have listed : i ∈ Pool.keys live := by
    rw [same]
    exact List.mem_map.mpr ⟨(i,v),inside,rfl⟩
  obtain ⟨⟨i,x⟩,there,rfl⟩ := List.mem_map.mp listed
  obtain ⟨y,old,went⟩ := each _ there
  have now := Pool.sameState freeing.single old inside
  subst now
  obtain ⟨_,_,rfl⟩ := passCases went
  have more : y.session.handler ≠ .returned := by
    have none := List.all_eq_true.mp (Bool.and_eq_true_iff.mp still).2 (i,y) inside
    simpa [finished] using none
  refine ⟨.pass 1,{s with live := live},rfl,by simp [step,still,ok],⟨single,?_,.inr (.inr ⟨_,there,torn⟩)⟩,?_⟩
  · intro p kept
    obtain ⟨z,before,moved⟩ := each p kept
    exact tickTimely (freeing.timely (p.1,z) before) moved
  · have kept : Pool.total weight live = Pool.total weight s.live := by
      refine Pool.sweepTotal ?_ swept
      intro k z z' moved
      obtain ⟨_,_,rfl⟩ := passCases moved
      rfl
    have paid := settlingPays (freeing.timely _ inside) torn more went
    refine Prod.Lex.toLex_lt_toLex.mpr (.inr ⟨by simp only [kept],?_⟩)
    simp only [Pool.memLookup single there,Pool.memLookup freeing.single inside,Option.map_some,Option.getD_some]
    simp only [SessionClock.cost] at paid
    omega

theorem freeingProgress {i} (freeing : Freeing w i s) (idle : s.holding = false) : Progress w i s := by
  rcases freeing.slot with held | free | ⟨v,inside,torn⟩
  · rw [idle] at held
    cases held
  · exact acquireProgress freeing idle free
  by_cases free : 0 < s.permits
  · exact acquireProgress freeing idle free
  by_cases done : ∃ p ∈ s.live, p.2.session.handler = .returned
  · obtain ⟨p,there,ended⟩ := done
    exact finishProgress freeing there ended
  have still : quiet s = true := by
    have none : s.permits = 0 := by omega
    simp only [quiet,none,decide_true,Bool.or_true,Bool.true_and,List.all_eq_true]
    intro p there
    have more : p.2.session.handler ≠ .returned := fun ended => done ⟨p,there,ended⟩
    simpa [finished] using more
  by_cases all : ∀ p ∈ s.live, tick (w.env p.1) w.limits p.2 (.pass 1) = some (later p.2 1)
  · exact passProgress freeing still inside torn all
  · simp only [not_forall] at all
    obtain ⟨p,there,stuck⟩ := all
    rcases ownMoves (freeing.timely p there) with ⟨a,x,able,h,went⟩ | waits
    · exact sessionProgress freeing there able went (ownLowers h able) ⟨v,inside,torn⟩
    · exact absurd waits stuck

/- The agent never wedges while a session is coming to its end: with no help from any client the
loop comes to hold a permit and is ready for the next connection. -/
theorem slotFrees (w : World) (steps : List Step) (s t : Agent) (booted : boot w = some s)
    (reached : Machine.run (step w) s steps = some t)
    (spare : t.live.length < w.settings.sessions ∨ ∃ p ∈ t.live, Teardown p.2.session) :
    ∃ more u, (∀ e ∈ more, ours e = true) ∧ Machine.run (step w) t more = some u ∧ u.holding = true := by
  have apart := reachedApart booted reached
  have balance := (reachedLedger booted reached).permits
  have timely : ∀ p ∈ t.live, Timely (w.env p.1) w.limits p.2 := fun p there => runTimely (apart.alone p there)
  have slot : ∃ i, t.holding = true ∨ 0 < t.permits ∨ ∃ v, (i,v) ∈ t.live ∧ Teardown v.session := by
    rcases spare with room | ⟨⟨i,v⟩,there,torn⟩
    · refine ⟨0,?_⟩
      cases held : t.holding with
      | true => exact .inl rfl
      | false =>
        right; left
        simp only [held,Bool.toNat_false] at balance
        omega
    · exact ⟨i,.inr (.inr ⟨v,there,torn⟩)⟩
  obtain ⟨i,slot⟩ := slot
  have move : ∀ a, Freeing w i a → a.holding = true ∨
      ∃ e b, ours e = true ∧ step w a e = some b ∧ Freeing w i b ∧ left w i b < left w i a := by
    intro a freeing
    cases held : a.holding with
    | true => exact .inl rfl
    | false => exact .inr (freeingProgress freeing held)
  obtain ⟨more,u,all,went,_,done⟩ := Machine.runSettles (left w i) move ⟨apart.single,timely,slot⟩
  exact ⟨more,u,all,went,done⟩

def ending : List Step := [.acquires,.accepts,.session 0 (.firstRead .eof)]

theorem slotFreesEnding : ∃ s t, boot world = some s ∧ Machine.run (step world) s ending = some t ∧ t.holding = false ∧
    t.permits = 0 ∧ ∃ more u, (∀ e ∈ more, ours e = true) ∧ Machine.run (step world) t more = some u ∧ u.holding = true := by
  have booted : boot world = some ⟨1,false,[],0,[],false,[]⟩ := by decide
  have ends : ∃ t, Machine.run (step world) ⟨1,false,[],0,[],false,[]⟩ ending = some t ∧ t.holding = false ∧ t.permits = 0 ∧
      t.live = [(0,after fresh (.firstRead .eof) {SessionModel.start with first := some .eof, handler := .joinWriter})] :=
    Machine.runEnds (by decide +kernel)
  obtain ⟨t,reached,idle,none,live⟩ := ends
  refine ⟨_,t,booted,reached,idle,none,slotFrees world ending _ t booted reached (.inr ?_)⟩
  rw [live]
  exact ⟨_,List.mem_singleton_self _,.inr rfl⟩

def commands (w : World) (steps : List Step) : List String :=
  steps.filterMap (fun e => match e with | .session i a => command (w.env i) a | _ => none)

def long (text : String) : Bool := longCommandThreshold ≤ (utf8 text.toList).length

structure Warned (w : World) (steps : List Step) (s : Agent) : Prop where
  flag : s.warned = (commands w steps).any long
  told : s.console = if s.warned then [longCommandWarning] else []

theorem commandsSnoc (steps : List Step) (e : Step) :
    commands w (steps ++ [e]) = commands w steps ++ match e with | .session i a => (command (w.env i) a).toList | _ => [] := by
  rw [commands,List.filterMap_append]
  cases e with
  | session i a => cases said : command (w.env i) a <;> simp [commands,said]
  | _ => simp [commands]

theorem warnsWarned {env : Env} {a : Action} {said : List String} (flag : s.warned = said.any long)
    (told : s.console = if s.warned then [longCommandWarning] else []) :
    (warns env a s).warned = (said ++ (command env a).toList).any long ∧
      (warns env a s).console = if (warns env a s).warned then [longCommandWarning] else [] := by
  unfold warns
  cases heard : command env a with
  | none => simpa using ⟨flag,told⟩
  | some text =>
    simp only [Option.toList_some,List.any_append,List.any_cons,List.any_nil,Bool.or_false,← flag,told]
    cases big : long text with
    | false =>
      have small : (utf8 text.toList).length < longCommandThreshold := by simpa [long] using big
      simp [warnLongCommand,small]
    | true =>
      have notSmall : ¬ (utf8 text.toList).length < longCommandThreshold := by simpa [long] using big
      cases already : s.warned <;> simp [warnLongCommand,notSmall]

theorem stepWarned (warned : Warned w steps s) (h : step w s e = some t) : Warned w (steps ++ [e]) t := by
  obtain ⟨flag,told⟩ := warned
  cases stepMoves h with
  | @ran i a live ok =>
    obtain ⟨now,text⟩ := @warnsWarned {s with live := live} (w.env i) a (commands w steps) flag told
    exact ⟨by rw [commandsSnoc]; exact now,text⟩
  | _ => exact ⟨by rw [commandsSnoc]; simpa using flag,told⟩

/- Over the agent's whole life the console is warned at most once, and it is warned as soon as
any session was asked for a long command, refused ones included. -/
theorem warnedOnce (w : World) (steps : List Step) (s t : Agent) (booted : boot w = some s)
    (reached : Machine.run (step w) s steps = some t) :
    t.console = if (commands w steps).any long then [longCommandWarning] else [] := by
  have first : Warned w [] s := by
    unfold boot at booted
    split at booted <;> try contradiction
    cases Option.some.inj booted
    exact ⟨rfl,rfl⟩
  have warned := Machine.runHistory (I := fun steps s => Warned w steps s) (P := fun _ _ => True)
    (fun _ _ _ _ _ warned _ h => stepWarned warned h) first (Machine.alongAll (fun _ _ => trivial)) reached
  rw [warned.told,warned.flag]

def longGuest : Env := {plainGuest with parseRequest := fun _ => .ok ⟨"exec",some (String.ofList (List.replicate 2048 'x')),none,none,none⟩}
def twice : List Step :=
  [.acquires,.accepts,.acquires,.accepts,.session 0 (.firstRead (.frame ⟨frameRequest,[]⟩)),
    .session 1 (.firstRead (.frame ⟨frameRequest,[]⟩))]

theorem warnedOnceTwice : ∃ s t, boot ⟨{host with var := fun _ => none},fun _ => longGuest⟩ = some s ∧
    Machine.run (step ⟨{host with var := fun _ => none},fun _ => longGuest⟩) s twice = some t ∧
    t.console = if (commands ⟨{host with var := fun _ => none},fun _ => longGuest⟩ twice).any long then [longCommandWarning] else [] := by
  have booted : boot ⟨{host with var := fun _ => none},fun _ => longGuest⟩ = some ⟨64,false,[],0,[],false,[]⟩ := by decide
  have ends : ∃ t, Machine.run (step ⟨{host with var := fun _ => none},fun _ => longGuest⟩) ⟨64,false,[],0,[],false,[]⟩ twice = some t ∧
      t.live.length = 2 := Machine.runEnds (by decide +kernel)
  obtain ⟨t,reached,_⟩ := ends
  exact ⟨_,t,booted,reached,warnedOnce _ twice _ t booted reached⟩

end Guesthopper.AgentServer
