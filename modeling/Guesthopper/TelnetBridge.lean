import Guesthopper.ClientDoors
import Guesthopper.ControlPayloads
import Guesthopper.Machine
import Guesthopper.TelnetItems

/-! One telnet client bridged to one guest session, after the handshake. A round of the loop
takes what `select` found readable, the client first. `chunks` and `frames` record what was
read from the two sides, `raised` the exception that `_serve_client` catches. Sending to the
client is taken to succeed; writing to the guest may fail and ends the bridge. -/
namespace Guesthopper.TelnetBridge
open FrameBytes ClientStream ClientDoors TelnetInbound TelnetItems

def initialNegotiation : Bytes := [iac,will,optEcho,iac,will,optSga,iac,doOpt,optNaws]

def chunkFrames (fed : Fed) : List Frame :=
  fed.resizes.map (fun size => ⟨frameResize,ControlPayloads.resizePayload size.1 size.2⟩) ++
    if fed.data = [] then [] else [⟨frameStdin,fed.data⟩]

def errorLine (j : Json) (payload : Bytes) : Option Bytes :=
  match parseJson j payload with
  | .ok fields =>
    if messageEncodes fields then
      some (SessionText.utf8 ("\r\n[gateway] guest agent error: " ++ messageText fields ++ "\r\n").toList)
    else none
  | .error _ | .crash _ => none

-- `_serve_client` does not catch a message that `.encode()` refuses, nor a crash of the loading.
def errorRaised (j : Json) (payload : Bytes) : Option Fault :=
  match parseJson j payload with
  | .error msg => some (.command msg)
  | .ok _ | .crash _ => none

structure Bridge where
  parser : Parser
  gsock : Socket
  sent : Bytes
  wrote : List Frame
  chunks : List Bytes
  frames : List Frame
  running : Bool
  raised : Option Fault
  deriving DecidableEq, Repr

def start (gsock : Socket) : Bridge := ⟨fresh,gsock,initialNegotiation,[],[],[],true,none⟩

inductive Tcp where
  | chunk (raw : Bytes)
  | hangup
  | failed (text : String)
  deriving DecidableEq, Repr

def Tcp.received : Tcp → Bool
  | .chunk raw => raw ≠ [] ∧ raw.length ≤ 4096
  | .hangup | .failed _ => true

-- `fails` is how many frames the guest's socket takes before a write to it raises, and what.
inductive Action where
  | idle (fails : Option String)
  | round (tcp : Option Tcp) (fails : Option (Nat × String)) (guest : Bool)
  deriving DecidableEq, Repr

def fromClient (b : Bridge) (fails : Option (Nat × String)) : Tcp → Bridge
  | .hangup => {b with running := false}
  | .failed e => {b with running := false, raised := some (.os e)}
  | .chunk raw =>
    let (parser,fed) := feed b.parser raw
    let frames := chunkFrames fed
    let taken := match fails with
      | some (n,_) => frames.take n
      | none => frames
    {b with
      parser := parser
      sent := b.sent ++ fed.replies
      wrote := b.wrote ++ taken
      chunks := b.chunks ++ [raw]
      running := taken.length = frames.length
      raised := if taken.length = frames.length then b.raised else fails.map fun f => .os f.2}

def fromGuest (j : Json) (b : Bridge) : Bridge :=
  match readFrame b.gsock with
  | .none => {b with running := false}
  | .raised e => {b with running := false, raised := some e}
  | .frame f t =>
    let b := {b with gsock := t, frames := b.frames ++ [f]}
    if f.ftype = frameStdout ∨ f.ftype = frameStderr then {b with sent := b.sent ++ telnetEscape f.payload}
    else if f.ftype = frameExit then {b with running := false}
    else if f.ftype = frameError then
      {b with
        sent := b.sent ++ telnetEscape ((errorLine j f.payload).getD [])
        running := false
        raised := errorRaised j f.payload}
    else b

def closedLine (e : Fault) : Bytes :=
  SessionText.utf8 ("\r\n[gateway] connection closed: " ++ faultText e ++ "\r\n").toList

def lastLine (b : Bridge) : Bytes :=
  match b.raised with
  | some e => closedLine e
  | none => []

def served (b : Bridge) : Bytes := b.sent ++ telnetEscape (lastLine b)

def step (j : Json) (b : Bridge) : Action → Option Bridge
  | .idle fails =>
    if b.running = false then none
    else match fails with
      | some e => some {b with running := false, raised := some (.os e)}
      | none => some {b with wrote := b.wrote ++ [⟨framePing,[]⟩]}
  | .round tcp fails guest =>
    if b.running = false ∨ tcp.isNone ∧ guest = false ∨ tcp.any (fun t => !t.received) then none
    else
      let b := match tcp with
        | some t => fromClient b fails t
        | none => b
      some (if b.running ∧ guest then fromGuest j b else b)

/- What one step can do: pings, the client's half of a round, the guest's half, or both.
Every invariant follows from the two halves. -/
theorem stepKeeps {j : Json} {I : Bridge → Prop} {b c : Bridge} {a : Action} (h : step j b a = some c)
    (stops : ∀ b e, b.running = true → I b → I {b with running := false, raised := some e})
    (pings : ∀ b, I b → I {b with wrote := b.wrote ++ [⟨framePing,[]⟩]})
    (client : ∀ b tcp fails guest, a = .round (some tcp) fails guest → b.running = true → I b →
      I (fromClient b fails tcp))
    (reads : ∀ b, b.running = true → I b → I (fromGuest j b)) (hi : I b) : I c := by
  cases a with
  | idle fails =>
    simp only [step] at h
    split at h <;> try contradiction
    rename_i running
    split at h <;> cases h
    · exact stops b _ (Bool.eq_true_of_not_eq_false running) hi
    · exact pings b hi
  | round tcp fails guest =>
    simp only [step] at h
    split at h <;> try contradiction
    rename_i able
    have running : b.running = true := Bool.eq_true_of_not_eq_false fun ended => able (.inl ended)
    cases h
    cases tcp with
    | none =>
      dsimp only
      split
      · rename_i able
        exact reads b able.1 hi
      · exact hi
    | some t =>
      have half := client b t fails guest rfl running hi
      dsimp only
      split
      · rename_i able
        exact reads _ able.1 half
      · exact half

def forwarded (j : Json) (f : Frame) : Bytes :=
  if f.ftype = frameStdout ∨ f.ftype = frameStderr then f.payload
  else if f.ftype = frameError then (errorLine j f.payload).getD []
  else []

def Quiet (i : Item) : Prop := (∃ d, i = .data d) ∨ i.Refusal

def Spoken (j : Json) (gsock : Socket) (b : Bridge) : Prop :=
  gsock.bytes = encodeAll b.frames ++ b.gsock.bytes ∧
  ∃ items, b.sent = initialNegotiation ++ encodeItems items ∧ (∀ i ∈ items, Quiet i) ∧
    items.flatMap Item.typed = b.frames.flatMap (forwarded j)

section Spoken
variable {j : Json} {gsock : Socket} {b : Bridge}

theorem escapedItems (data : Bytes) : telnetEscape data = encodeItems (data.map .data) := by
  induction data with
  | nil => rfl
  | cons d data ih =>
    have shape : telnetEscape (d::data) = telnetEscape [d] ++ telnetEscape data := by simp [telnetEscape]
    rw [shape,ih]
    rfl

theorem typedData (data : Bytes) : (data.map Item.data).flatMap Item.typed = data := by
  induction data with
  | nil => rfl
  | cons d data ih => simp [Item.typed,ih]

theorem typedRefusals {items : List Item} (refused : ∀ i ∈ items, i.Refusal) : items.flatMap Item.typed = [] := by
  refine List.flatMap_eq_nil_iff.mpr ?_
  intro i known
  obtain ⟨opt,wont | dont⟩ := refused i known
  · rw [wont]; rfl
  · rw [dont]; rfl

theorem clientSpoken (tcp : Tcp) (fails : Option (Nat × String)) (spoken : Spoken j gsock b) :
    Spoken j gsock (fromClient b fails tcp) := by
  cases tcp with
  | hangup | failed e => exact spoken
  | chunk raw =>
    obtain ⟨read,items,sent,quiet,typed⟩ := spoken
    obtain ⟨refusals,replies,refused⟩ := feedRefuses b.parser raw
    refine ⟨read,items ++ refusals,?_,List.forall_mem_append.mpr ⟨quiet,fun i known => .inr (refused i known)⟩,?_⟩
    · simp only [fromClient,sent,replies,encodeItemsAppend,List.append_assoc]
    · rw [List.flatMap_append,typedRefusals refused,List.append_nil,typed]
      rfl

theorem spokenShown {f : Frame} {t : Socket} {data : Bytes} (running : Bool) (raised : Option Fault) (spoken : Spoken j gsock b)
    (found : head maxFrameLen b.gsock.bytes = .frame f t.bytes) (shown : forwarded j f = data) :
    Spoken j gsock ⟨b.parser,t,b.sent ++ telnetEscape data,b.wrote,b.chunks,b.frames ++ [f],running,raised⟩ := by
  obtain ⟨read,items,sent,quiet,typed⟩ := spoken
  refine ⟨?_,items ++ data.map .data,?_,List.forall_mem_append.mpr ⟨quiet,?_⟩,?_⟩
  · rw [read,headEncode found]
    simp [encodeAll]
  · simp only [sent,escapedItems,encodeItemsAppend,List.append_assoc]
  · intro i known
    obtain ⟨d,_,rfl⟩ := List.mem_map.mp known
    exact .inl ⟨d,rfl⟩
  · simp only [List.flatMap_append,typed,typedData,List.flatMap_cons,List.flatMap_nil,List.append_nil,shown]

theorem guestSpoken (spoken : Spoken j gsock b) : Spoken j gsock (fromGuest j b) := by
  unfold fromGuest
  split
  · exact spoken
  · exact spoken
  · rename_i f t read
    have found := (readFrameByGrammar read).1
    have silent := @spokenShown j gsock b f t [] b.running b.raised spoken found
    have stopped := @spokenShown j gsock b f t [] false b.raised spoken found
    simp only [telnetEscape,List.flatMap_nil,List.append_nil] at silent stopped
    dsimp only
    split
    · rename_i out
      exact spokenShown b.running b.raised spoken found (if_pos out)
    · rename_i out
      split
      · rename_i exit
        refine stopped ?_
        simp [forwarded,exit,frameExit,frameStdout,frameStderr,frameError]
      · split
        · rename_i error
          refine spokenShown false _ spoken found ?_
          rw [forwarded,if_neg out,if_pos error]
        · rename_i error
          refine silent ?_
          rw [forwarded,if_neg out,if_neg error]

theorem stepSpoken {c : Bridge} {a : Action} (h : step j b a = some c) (spoken : Spoken j gsock b) :
    Spoken j gsock c := by
  refine stepKeeps h ?_ ?_ ?_ ?_ spoken
  · intro b e _ spoken; exact spoken
  · intro b spoken; exact spoken
  · intro b tcp fails guest _ _ spoken; exact clientSpoken tcp fails spoken
  · intro b _ spoken; exact guestSpoken spoken

theorem reachedSpoken {acts : List Action} (reached : Machine.run (step j) (start gsock) acts = some b) :
    Spoken j gsock b := by
  refine Machine.runKeeps (I := Spoken j gsock) ?_ ?_ reached
  · intro u a v spoken h
    exact stepSpoken h spoken
  · exact ⟨rfl,[],rfl,by simp,rfl⟩

end Spoken

inductive Command where
  | simple (c : UInt8)
  | option (cmd opt : UInt8)
  | subneg (s : Bytes)
  deriving DecidableEq, Repr

def commandByte (p : Parser) (b : UInt8) : List Command :=
  match p.state with
  | .iac => if b ∈ [iac,will,wont,doOpt,dont,sb] then [] else [.simple b]
  | .opt => [.option (p.cmd.getD 0) b]
  | .sbIac => if b = iac then [] else [.subneg p.sb]
  | .data | .sb => []

def commands (p : Parser) : Bytes → List Command
  | [] => []
  | b::rest => commandByte p b ++ commands (feedByte p b).1 rest

def offers : List Command := [.option will optEcho,.option will optSga,.option doOpt optNaws]

def Command.Refusal (c : Command) : Prop := ∃ opt, c = .option wont opt ∨ c = .option dont opt

end Guesthopper.TelnetBridge
