import Mathlib.Data.Rat.Floor
import Guesthopper.FrameBytes

/-! The plain data of a session: the request, the deadline it asks for, the shell's
argv, and the control frames the agent answers with. An f64 is taken by its value,
a duration is in nanoseconds, and `timedOut` is the synthetic error of a bounded
reap. JSON text is written the way `serde_json::to_vec` writes it. -/
namespace Guesthopper.SessionText
open FrameBytes

inductive F64 where
  | nan
  | infinite (negative : Bool)
  | finite (value : ℚ)
  deriving DecidableEq

structure Request where
  verb : String
  cmd : Option String
  deadline : Option F64
  rows : Option UInt16
  cols : Option UInt16
  deriving DecidableEq

abbrev Duration := Nat

def tryFromSecsF64 : F64 → Option Duration
  | .finite value =>
    if value < 0 ∨ 2^64 ≤ value then none
    else
      let down : Int := ⌊value * 10^9⌋
      let part := value * 10^9 - down
      if part < 1/2 ∨ (part = 1/2 ∧ down % 2 = 0) then some down.toNat else some (down + 1).toNat
  | _ => none

def effectiveDeadline (asked : Option F64) (default : Option Duration) : Except F64 (Option Duration) :=
  match asked with
  | none => .ok default
  | some s =>
    if s = .finite 0 then .ok none
    else match tryFromSecsF64 s with
      | some d => .ok (some d)
      | none => .error s

structure Argv where
  program : String
  arg0 : String
  args : List String
  deriving DecidableEq, Repr

def shellArgv (parts : Option (List String)) (extra : List String) : Argv :=
  let (program,rest) := match parts.getD [] with
    | p::rest => (p,rest)
    | [] => ("/bin/sh",[])
  ⟨program,if "sh".toList.isSuffixOf program.toList then program else "sh",rest ++ extra⟩

-- A wait status has eight bits for the code and seven for the signal.
inductive ExitStatus where
  | code (n : UInt8)
  | signal (n : Fin 128)
  | neither
  deriving DecidableEq, Repr

inductive WaitResult where
  | status (s : ExitStatus)
  | osError
  | timedOut
  deriving DecidableEq, Repr

inductive Override where
  | none
  | timeout
  | disconnected
  deriving DecidableEq, Repr

def Override.reason (given : String) : Override → String
  | .none => given
  | .timeout => "timeout"
  | .disconnected => "disconnected"

def exitFields : WaitResult → Override → Int × String
  | .status (.code n),why => (n.toNat,why.reason "exited")
  | .status (.signal n),why => (128 + n.val,why.reason "signaled")
  | .status .neither,why => (-1,why.reason "exited")
  | .osError,_ | .timedOut,_ => (-1,"error")

theorem exitFieldsCode (r : WaitResult) (why : Override) : (exitFields r why).1 = -1 ∨ ∃ n, n < 256 ∧ (exitFields r why).1 = Int.ofNat n := by
  cases r with
  | status s =>
    cases s with
    | code n => exact .inr ⟨n.toNat,n.toNat_lt,rfl⟩
    | signal n => exact .inr ⟨128 + n.val,by omega,rfl⟩
    | neither => exact .inl rfl
  | osError | timedOut => exact .inl rfl

theorem exitFieldsError (r : WaitResult) (why : Override) :
    (exitFields r why).2 = "error" ↔ r = .osError ∨ r = .timedOut := by
  cases r with
  | status s => cases s <;> cases why <;> simp [exitFields,Override.reason]
  | osError | timedOut => simp [exitFields]

def hexDigit (n : Nat) : Char :=
  if n < 10 then Char.ofNat (48 + n) else Char.ofNat (87 + n)

def jsonChar (c : Char) : List Char :=
  match c.toNat with
  | 8 => ['\\','b']
  | 9 => ['\\','t']
  | 10 => ['\\','n']
  | 12 => ['\\','f']
  | 13 => ['\\','r']
  | 34 => ['\\','"']
  | 92 => ['\\','\\']
  | n => if n < 32 then ['\\','u','0','0',hexDigit (n / 16),hexDigit (n % 16)] else [c]

def jsonString (s : String) : List Char := '"' :: s.toList.flatMap jsonChar ++ ['"']

def utf8 (cs : List Char) : Bytes := cs.flatMap String.utf8EncodeChar

def errorFrame (msg : String) : Frame :=
  ⟨frameError,utf8 ("\x7b\"message\":".toList ++ jsonString msg ++ ['}'])⟩

def exitFrame (raw : WaitResult) (why : Override) : Frame :=
  let (code,reason) := exitFields raw why
  ⟨frameExit,utf8 ("\x7b\"code\":".toList ++ (toString code).toList ++ ",\"reason\":".toList ++
    jsonString reason ++ ['}'])⟩

end Guesthopper.SessionText
