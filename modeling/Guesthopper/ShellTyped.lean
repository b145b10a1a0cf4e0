import Guesthopper.ShellPath

/-! What a user types at `run_shell` and the window sizes the guest's terminal is told. The
handlers and the loop share one socket; while no window change falls into the middle of a
frame, the agent finds the loop's frames whole and in order. -/
namespace Guesthopper.ShellTyped
open FrameBytes SessionText ClientStream ClientDoors GuestCommand ShellProgram
open ShellLoop (Shell request resizeFrame termSize pending readSize Sending)
open ShellResize (Whole Untouched Partway)

section Wire
variable {α : Type} {h : Host α} {s t : Program α} {a : Action}

-- No handler starts while part of a frame is out, and none is stopped before its frame is out.
def Calm (s : Program α) : Action → Prop
  | .winch _ => ∀ x ∈ pending s.shell, Untouched x
  | .sendFails _ | .interrupts => s.shell.handlers = []
  | _ => True

instance (s : Program α) : DecidablePred (Calm s)
  | .winch _ => inferInstanceAs (Decidable (∀ x ∈ pending s.shell, Untouched x))
  | .sendFails _ | .interrupts => inferInstanceAs (Decidable (s.shell.handlers = []))
  | .connects _ | .greets _ _ | .saves _ | .raws _ | .installs | .enters | .idles | .wakes _ _ | .fails _ | .reads _ _
  | .sends _ | .restores _ | .uninstalls | .closes | .kills _ _ _ => .isTrue trivial

def NotYet : Pc → Prop
  | .connecting | .greeting | .closing | .over | .exited _ | .killed _ => True
  | _ => False

structure Unasked (s : Program α) : Prop where
  pc : NotYet s.pc
  owned : s.owned = []
  main : s.shell.main = none
  handlers : s.shell.handlers = []
  sent : s.shell.sent = []
  called : s.shell.called = []
  typed : s.shell.typed = []

def Plain : ShellLoop.Action → Prop
  | .winch _ | .sendFails => False
  | _ => True

def Asked (h : Host α) (s : Program α) : Prop := ∃ frames part, Whole (request h.tty h.window) s.shell frames part

-- Behind the REQUEST stand these frames, the last of them perhaps in part.
structure Carries (h : Host α) (s : Program α) (fs : List Frame) : Prop where
  sent : s.shell.sent <+: encodeAll (request h.tty h.window::fs)
  known : ∀ f ∈ fs, f ∈ s.shell.called ∧ f.payload.length ≤ readSize
  typed : output frameStdin fs <+: s.shell.typed
  all : s.shell.sent ≠ [] → pending s.shell = [] → s.shell.sent = encodeAll (request h.tty h.window::fs) ∧
    output frameStdin fs = s.shell.typed

theorem wholeTyped {first : Frame} {frames : List Frame} {part : Bytes} {u : Shell} (whole : Whole first u frames part) :
    output frameStdin (frames ++ (pending u).map Sending.frame) = u.typed := by
  rw [← whole.typed,ShellResize.outputLoop _ (by decide),← whole.order,← ShellResize.outputLoop _ (by decide)]

theorem wholeCarries {frames : List Frame} {part : Bytes} (whole : Whole (request h.tty h.window) s.shell frames part) :
    ∃ fs, Carries h s fs := by
  obtain ⟨later,rfl⟩ : ∃ later, frames = request h.tty h.window::later := by
    cases frames with
    | nil => exact nomatch whole.asked
    | cons f later => exact ⟨later,by rw [Option.some.inj whole.asked]⟩
  have typed := wholeTyped whole
  have dropped : ∀ fs, output frameStdin (request h.tty h.window::fs) = output frameStdin fs := fun fs => rfl
  rw [List.cons_append,dropped] at typed
  have inside : ∀ f ∈ later ++ (pending s.shell).map Sending.frame, f ∈ s.shell.called ∧ f.payload.length ≤ readSize := by
    intro f known
    have called := whole.called.mem_iff.mpr (List.mem_cons_of_mem _ known)
    exact ⟨called,whole.small f called⟩
  have sent := whole.sent
  have partway := whole.part
  cases xs : pending s.shell with
  | nil =>
    rw [xs] at partway typed inside
    have whole' : s.shell.sent = encodeAll (request h.tty h.window::later) := by
      rw [sent,partway,List.append_nil]
    rw [List.map_nil,List.append_nil] at typed inside
    refine ⟨later,⟨[],?_⟩,inside,⟨[],?_⟩,fun _ _ => ⟨whole',typed⟩⟩
    · rw [List.append_nil,whole']
    · rw [List.append_nil,typed]
  | cons x rest =>
    rw [xs] at partway typed inside
    have shape : later ++ (x::rest).map Sending.frame = (later ++ [x.frame]) ++ rest.map Sending.frame := by simp
    rw [shape] at typed inside
    refine ⟨later ++ [x.frame],⟨x.left,?_⟩,fun f known => inside f (List.mem_append_left _ known),
      ⟨output frameStdin (rest.map Sending.frame),?_⟩,?_⟩
    · rw [sent,List.append_assoc,← partway.1,← List.cons_append,encodeAllAppend]
      simp [encodeAll]
    · rw [← ShellResize.outputAppend]
      exact typed
    · intro _ none
      cases xs.symm.trans none

theorem carried (state : Unasked s ∨ Asked h s) : ∃ fs, Carries h s fs := by
  rcases state with unasked | ⟨frames,part,whole⟩
  · refine ⟨[],⟨_,by rw [unasked.sent,List.nil_append]⟩,by simp,⟨_,List.nil_append _⟩,?_⟩
    intro some
    exact absurd unasked.sent some
  · exact wholeCarries whole

end Wire

section Sizes
variable {env : SessionModel.Env} {serde : ControlPayloads.Serde}

end Sizes

end Guesthopper.ShellTyped
