import Guesthopper.Machine
import Guesthopper.FrameBytes
import Guesthopper.Outbox
import Guesthopper.Tap
import Guesthopper.SessionText
import Guesthopper.SessionModel
import Guesthopper.SessionMove
import Guesthopper.SessionWire
import Guesthopper.SessionTerminal
import Guesthopper.SessionDrain
import Guesthopper.SessionChild
import Guesthopper.SessionTeardown
import Guesthopper.SessionWatch
import Guesthopper.ClientDoors
import Guesthopper.PtyDescriptors
import Guesthopper.ClientKeepalive
import Guesthopper.PtyDuplex
import Guesthopper.PtyFlow
import Guesthopper.PtyWedge
import Guesthopper.FrameCodecs
import Guesthopper.TelnetBridge
import Guesthopper.TelnetOrder
import Guesthopper.JsonText
import Guesthopper.LossyText
import Guesthopper.ControlPayloads
import Guesthopper.GuestCommand
import Guesthopper.SshInbound
import Guesthopper.SessionInbound
import Guesthopper.SessionEof
import Guesthopper.SshBound
import Guesthopper.TelnetBound
import Guesthopper.CancelWake
import Guesthopper.ShellLoop
import Guesthopper.ShellResize
import Guesthopper.SessionReason
import Guesthopper.Ledger
import Guesthopper.PtyBalance
import Guesthopper.PosixShell
import Guesthopper.ArgvCommand
import Guesthopper.DebugText
import Guesthopper.SessionPayload
import Guesthopper.CommandRun
import Guesthopper.AgentServer
import Guesthopper.SessionPath
import Guesthopper.SshPath
import Guesthopper.TelnetPath
import Guesthopper.ShellPath
import Guesthopper.ShellTyped
