import Guesthopper.ControlPayloads
import Guesthopper.Machine

/-! The three select-driven client loops against a clock, in nanoseconds. `silence` is the
time since the client last sent a frame, `left` what remains of the timeout of the select
it is in; handling a wake-up takes no time. A PING is sent only when a select times out,
so a wake-up that sends nothing starts the timeout over without ending the silence. A
window-size signal sends its RESIZE and the select goes on with the time it had left. -/
namespace Guesthopper.ClientKeepalive
open FrameBytes

def pingInterval : Nat := 5 * 10^9

inductive Door where
  | collectResult
  | runShell
  | bridge
  deriving DecidableEq, Repr

-- `chunk` is what the local side (stdin or the telnet client) delivers, empty at its end;
-- `guest` is the next frame of the guest, or its end.
structure Readable where
  chunk : Option Bytes
  guest : Option (Option Frame)
  deriving DecidableEq, Repr

structure Client where
  silence : Nat
  left : Nat
  watchesLocal : Bool
  parser : TelnetInbound.Parser
  returned : Bool
  deriving DecidableEq, Repr

def start (door : Door) : Client := ⟨0,pingInterval,door ≠ .collectResult,TelnetInbound.fresh,false⟩

structure Handled where
  sent : List Frame
  watchesLocal : Bool
  parser : TelnetInbound.Parser
  returns : Bool

def localInput (door : Door) (c : Client) : Option Bytes → Handled
  | none => ⟨[],c.watchesLocal,c.parser,false⟩
  | some chunk => match door with
    | .bridge =>
      if chunk = [] then ⟨[],c.watchesLocal,c.parser,true⟩
      else
        let (parser,fed) := TelnetInbound.feed c.parser chunk
        let resizes := fed.resizes.map (fun (rows,cols) => ⟨frameResize,ControlPayloads.resizePayload rows cols⟩)
        let data := if fed.data = [] then [] else [⟨frameStdin,fed.data⟩]
        ⟨resizes ++ data,c.watchesLocal,parser,false⟩
    | _ =>
      if chunk = [] then ⟨[⟨frameStdinEof,[]⟩],false,c.parser,false⟩
      else ⟨[⟨frameStdin,chunk⟩],c.watchesLocal,c.parser,false⟩

def ends : Option Frame → Bool
  | none => true
  | some f => f.ftype = frameExit ∨ f.ftype = frameError

def handle (door : Door) (c : Client) (r : Readable) : Handled :=
  let h := localInput door c r.chunk
  {h with returns := h.returns || (r.guest.map ends).getD false}

inductive Action where
  | passes (d : Nat)
  | timesOut
  | wakes (r : Readable)
  | resized (rows cols : Nat)
  deriving DecidableEq, Repr

def step (door : Door) (c : Client) : Action → Option Client
  | .passes d =>
    if c.returned = false ∧ d ≤ c.left then some {c with silence := c.silence + d, left := c.left - d} else none
  | .timesOut => if c.returned = false ∧ c.left = 0 then some {c with silence := 0, left := pingInterval} else none
  | .wakes r =>
    if c.returned = false ∧ (r.chunk.isSome ∨ r.guest.isSome) ∧ (r.chunk.isSome → c.watchesLocal) then
      let h := handle door c r
      some ⟨if h.sent = [] then c.silence else 0,pingInterval,h.watchesLocal,h.parser,h.returns⟩
    else none
  | .resized _ _ => if c.returned = false ∧ door = .runShell then some {c with silence := 0} else none

def Alive (door : Door) (idle : Nat) (actions : List Action) : Prop :=
  ∀ pre, pre <+: actions → ∀ c, Machine.run (step door) (start door) pre = some c →
    ∀ d t, step door c (.passes d) = some t → t.silence < idle

def Starved (door : Door) (idle : Nat) (actions : List Action) : Prop :=
  ∃ c, Machine.run (step door) (start door) actions = some c ∧ c.returned = false ∧ idle ≤ c.silence

def Wordless (door : Door) (parser : TelnetInbound.Parser) : Option Bytes → Prop
  | none => True
  | some chunk => door = .bridge ∧ chunk ≠ [] ∧ (TelnetInbound.feed parser chunk).2.data = [] ∧
      (TelnetInbound.feed parser chunk).2.resizes = []

-- A wake-up that sends nothing leaves room for one more select before the silence is too long.
def Spaced (door : Door) (idle : Nat) (c : Client) : Action → Prop
  | .wakes r => Wordless door c.parser r.chunk → (∀ g, r.guest = some g → ends g = false) →
      c.silence + pingInterval < idle
  | _ => True

variable {door : Door} {idle : Nat} {c t : Client} {a : Action}

theorem localSilent (chunk : Option Bytes) :
    (localInput door c chunk).sent = [] ∧ (localInput door c chunk).returns = false ↔ Wordless door c.parser chunk := by
  cases chunk with
  | none => simp [localInput,Wordless]
  | some chunk =>
    by_cases eof : chunk = []
    · cases door <;> simp [localInput,Wordless,eof]
    · cases door with
      | collectResult | runShell => simp [localInput,Wordless,eof]
      | bridge =>
        by_cases data : (TelnetInbound.feed c.parser chunk).2.data = []
        · simp [localInput,Wordless,eof,data]
        · simp [localInput,Wordless,eof,data]

theorem handleSilent (r : Readable) :
    (handle door c r).sent = [] ∧ (handle door c r).returns = false ↔
      Wordless door c.parser r.chunk ∧ ∀ g, r.guest = some g → ends g = false := by
  rw [← localSilent]
  cases guest : r.guest with
  | none => simp [handle,guest]
  | some g => simp [handle,guest,and_assoc]

structure Timely (idle : Nat) (c : Client) : Prop where
  bounded : c.left ≤ pingInterval
  early : c.returned = false → c.silence + c.left < idle

theorem startTimely (wide : pingInterval < idle) : Timely idle (start door) where
  bounded := Nat.le_refl _
  early _ := by simpa [start] using wide

theorem passesCases {d : Nat} (h : step door c (.passes d) = some t) :
    c.returned = false ∧ d ≤ c.left ∧ t = {c with silence := c.silence + d, left := c.left - d} := by
  simp only [step] at h
  split at h <;> try contradiction
  rename_i able
  exact ⟨able.1,able.2,(Option.some.inj h).symm⟩

theorem wakesCases {r : Readable} (h : step door c (.wakes r) = some t) :
    c.returned = false ∧
    t = ⟨if (handle door c r).sent = [] then c.silence else 0,pingInterval,(handle door c r).watchesLocal,
      (handle door c r).parser,(handle door c r).returns⟩ := by
  simp only [step] at h
  split at h <;> try contradiction
  rename_i able
  exact ⟨able.1,(Option.some.inj h).symm⟩

theorem stepTimely (wide : pingInterval < idle) (ok : Timely idle c) (spaced : Spaced door idle c a)
    (h : step door c a = some t) : Timely idle t := by
  cases a with
  | passes d =>
    obtain ⟨alive,small,rfl⟩ := passesCases h
    have now := ok.early alive
    have most := ok.bounded
    refine ⟨?_,fun _ => ?_⟩
    · simp only; omega
    · simp only; omega
  | timesOut =>
    simp only [step] at h
    split at h <;> try contradiction
    cases Option.some.inj h
    exact ⟨Nat.le_refl _,fun _ => by simpa using wide⟩
  | wakes r =>
    obtain ⟨alive,rfl⟩ := wakesCases h
    refine ⟨Nat.le_refl _,fun going => ?_⟩
    simp only at going ⊢
    split
    · rename_i silent
      obtain ⟨wordless,goes⟩ := (handleSilent r).mp ⟨silent,going⟩
      exact spaced wordless goes
    · simpa using wide
  | resized rows cols =>
    simp only [step] at h
    split at h <;> try contradiction
    cases Option.some.inj h
    have most := ok.bounded
    refine ⟨most,fun _ => ?_⟩
    simp only
    omega

theorem spacedAlive {actions : List Action} (wide : pingInterval < idle)
    (along : Machine.Along (step door) (Spaced door idle) (start door) actions) : Alive door idle actions := by
  intro pre first c reached d t passed
  have ok := Machine.runKeepsAlong (I := Timely idle) (fun u b v ok spaced h => stepTimely wide ok spaced h)
    (startTimely wide) (Machine.alongPrefix first along) reached
  obtain ⟨alive,small,rfl⟩ := passesCases passed
  have now := ok.early alive
  simp only
  omega

theorem aliveSpaced {actions : List Action} (reached : Machine.run (step door) (start door) actions = some t)
    (alive : Alive door idle actions) : Machine.Along (step door) (Spaced door idle) (start door) actions := by
  rw [Machine.alongIff]
  intro pre a post c shape before
  rw [shape,Machine.runAppend] at reached
  obtain ⟨mid,same,later⟩ := reached
  cases Option.some.inj (before.symm.trans same)
  obtain ⟨next,stepped,_⟩ := Machine.runCons.mp later
  cases a with
  | wakes r =>
    intro wordless goes
    obtain ⟨silent,going⟩ := (handleSilent r).mpr ⟨wordless,goes⟩
    obtain ⟨_,rfl⟩ := wakesCases stepped
    have path : Machine.run (step door) (start door) (pre ++ [.wakes r]) = some _ :=
      Machine.runAppend.mpr ⟨c,before,Machine.runCons.mpr ⟨_,stepped,rfl⟩⟩
    have first : pre ++ [.wakes r] <+: actions := ⟨post,by rw [shape,List.append_assoc]; rfl⟩
    have late := alive _ first _ path pingInterval
    simp only [step,going,if_pos silent,Nat.le_refl,and_self,if_true,Option.some.injEq] at late
    exact late _ rfl
  | _ => trivial

theorem keepaliveExact (door : Door) {idle : Nat} {actions : List Action} (wide : pingInterval < idle)
    (reached : Machine.run (step door) (start door) actions = some t) :
    Alive door idle actions ↔ Machine.Along (step door) (Spaced door idle) (start door) actions :=
  ⟨aliveSpaced reached,spacedAlive wide⟩

theorem starvedDead {actions : List Action} (starved : Starved door idle actions) : ¬ Alive door idle actions := by
  obtain ⟨c,reached,going,long⟩ := starved
  intro alive
  have late := alive actions List.prefix_rfl c reached 0
  simp only [step,going,Nat.zero_le,and_self,if_true,Option.some.injEq] at late
  have now := late _ rfl
  simp only [Nat.add_zero] at now
  omega

def quietPrompt : List Action := [.passes pingInterval,.timesOut,.passes 10,.wakes ⟨some [108,115,10],none⟩]

theorem keepaliveExactQuiet :
    pingInterval < 30 * 10^9 ∧ (Machine.run (step .runShell) (start .runShell) quietPrompt).isSome = true ∧
    (Alive .runShell (30 * 10^9) quietPrompt ↔
      Machine.Along (step .runShell) (Spaced .runShell (30 * 10^9)) (start .runShell) quietPrompt) := by
  have some : (Machine.run (step .runShell) (start .runShell) quietPrompt).isSome = true := by decide
  obtain ⟨t,reached⟩ := Option.isSome_iff_exists.mp some
  exact ⟨by decide,some,keepaliveExact .runShell (by decide) reached⟩

/- One byte of guest output a second, with the agent's default timeout: every select is woken before
it times out, so no PING is ever sent. -/
def chattyGuest : List Action :=
  (List.replicate 30 [.passes (10^9),.wakes ⟨none,some (some ⟨frameStdout,[97]⟩)⟩]).flatten

theorem chattyGuestStarves :
    (Starved .collectResult (30 * 10^9) chattyGuest ∧ ¬ Alive .collectResult (30 * 10^9) chattyGuest) ∧
    (Starved .runShell (30 * 10^9) chattyGuest ∧ ¬ Alive .runShell (30 * 10^9) chattyGuest) ∧
    (Starved .bridge (30 * 10^9) chattyGuest ∧ ¬ Alive .bridge (30 * 10^9) chattyGuest) := by
  have first : Starved .collectResult (30 * 10^9) chattyGuest := Machine.runEnds (by decide +kernel)
  have second : Starved .runShell (30 * 10^9) chattyGuest := Machine.runEnds (by decide +kernel)
  have third : Starved .bridge (30 * 10^9) chattyGuest := Machine.runEnds (by decide +kernel)
  exact ⟨⟨first,starvedDead first⟩,⟨second,starvedDead second⟩,third,starvedDead third⟩

end Guesthopper.ClientKeepalive
