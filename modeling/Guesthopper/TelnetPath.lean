import Guesthopper.SessionPath
import Guesthopper.TelnetBridge

/-! A telnet client and the guest's shell, with the gateway and the agent between them: the
bridge's writes are the bytes the session reads, and the session's wire is what the bridge
reads. Everything the client types comes out at the shell's terminal in the order the bridge
sends it on, and nothing else does. -/
namespace Guesthopper.TelnetPath
open FrameBytes SessionText SessionModel SessionInbound SessionPath ClientStream ClientDoors
open TelnetInbound hiding State
open TelnetItems TelnetBridge

def clientFrames (p : Parser) : List Bytes → List Frame
  | [] => []
  | chunk::rest => chunkFrames (TelnetInbound.feed p chunk).2 ++ clientFrames (TelnetInbound.feed p chunk).1 rest

def heard (fed : Fed) : List Atom :=
  fed.resizes.map (fun size => .winsize (UInt16.ofNat size.1) (UInt16.ofNat size.2)) ++ fed.data.map .byte

-- What the guest's socket was given: what was written, and of a write that failed perhaps a part.
def Sent (b : Bridge) (fs : List Frame) : Prop :=
  fs = b.wrote ∨ b.running = false ∧ ∃ f, fs = b.wrote ++ [f] ∧
    (f = ⟨framePing,[]⟩ ∨ b.wrote.filter meant ++ [f] <+: clientFrames fresh b.chunks)

section Client
variable {p : Parser} {raw : Bytes} {chunks : List Bytes}

end Client

section Heard
variable {env : Env} {serde : ControlPayloads.Serde}

theorem feedPrefix {xs ys : Bytes} (part : xs <+: ys) :
    (TelnetInbound.feed fresh xs).2.data <+: (TelnetInbound.feed fresh ys).2.data ∧
      (TelnetInbound.feed fresh xs).2.resizes <+: (TelnetInbound.feed fresh ys).2.resizes := by
  obtain ⟨more,rfl⟩ := part
  rw [feedAppend]
  exact ⟨List.prefix_append _ _,List.prefix_append _ _⟩

end Heard

section Bridged
variable {j : Json} {b c : Bridge} {acts : List TelnetBridge.Action} {gsock : Socket}

def Reads (gsock : Socket) (b : Bridge) : Prop :=
  decodeAll maxFrameLen gsock.bytes = b.frames ++ decodeAll maxFrameLen b.gsock.bytes

end Bridged

section Shown
variable {j : Json} {fs : List Frame}

end Shown

end Guesthopper.TelnetPath
