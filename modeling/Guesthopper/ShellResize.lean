import Guesthopper.ShellLoop

/-! What `run_shell` puts on the socket when window changes interrupt it. A handler that
starts between two frames, or before the first byte of one, is harmless; one that starts
inside a frame writes its own into the middle of it. -/
namespace Guesthopper.ShellResize
open FrameBytes GuestCommand ShellLoop
open JsonText (escape stringText membersText flatText Member Literal)

def Untouched (x : Sending) : Prop := x.left = encode x.frame

instance : DecidablePred Untouched := fun x => inferInstanceAs (Decidable (x.left = encode x.frame))

-- No handler starts while part of a frame is out, and no handler fails to send its own.
def Calm (s : Shell) : Action → Prop
  | .winch _ => ∀ x ∈ pending s, Untouched x
  | .sendFails => s.handlers = []
  | _ => True

instance (s : Shell) : DecidablePred (Calm s)
  | .winch _ => inferInstanceAs (Decidable (∀ x ∈ pending s, Untouched x))
  | .sendFails => inferInstanceAs (Decidable (s.handlers = []))
  | .idles | .wakes _ _ | .guest _ _ | .stops | .sends _ | .uninstalls | .killed => .isTrue trivial

def fromLoop (f : Frame) : Bool := f.ftype ≠ frameResize

def Partway (part : Bytes) : List Sending → Prop
  | [] => part = []
  | x::rest => encode x.frame = part ++ x.left ∧ x.left ≠ [] ∧ ∀ y ∈ rest, Untouched y

/- `frames` went out whole and `part` is the beginning of the one being sent; together with
those in progress they are the frames `write_frame` was called with, the loop's own in order. -/
structure Whole (first : Frame) (s : Shell) (frames : List Frame) (part : Bytes) : Prop where
  sent : s.sent = encodeAll frames ++ part
  part : Partway part (pending s)
  asked : frames.head? = some first
  called : s.called.Perm (frames ++ (pending s).map Sending.frame)
  order : s.called.filter fromLoop = (frames ++ (pending s).map Sending.frame).filter fromLoop
  typed : output frameStdin s.called = s.typed
  small : ∀ f ∈ s.called, f.payload.length ≤ readSize

section Steps
variable {tty : Bool} {window : Option (UInt16 × UInt16)} {s t : Shell} {a : Action} {first : Frame}
  {frames : List Frame} {part : Bytes}

theorem decimalShort {n : Nat} (bound : n < 2^16) : (ControlPayloads.decimal n).length ≤ 5 := by
  rw [ControlPayloads.decimalDigits,List.length_map]
  exact (Nat.length_toDigits_le_iff (by decide) (by decide)).mpr (Nat.lt_trans bound (by decide))

theorem termSizeFits (window : Option (UInt16 × UInt16)) : (termSize window).1 < 2^16 ∧ (termSize window).2 < 2^16 := by
  cases window with
  | none => decide
  | some size =>
    exact ⟨(ControlPayloads.orDefaultFits (by decide)).mpr size.1.toNat_lt,
      (ControlPayloads.orDefaultFits (by decide)).mpr size.2.toNat_lt⟩

theorem sizeTextShort {rows cols : Nat} (fits : rows < 2^16 ∧ cols < 2^16) :
    (membersText [ControlPayloads.member "rows" (ControlPayloads.dumpsInt rows),
      ControlPayloads.member "cols" (ControlPayloads.dumpsInt cols)]).length ≤ 28 := by
  have height := decimalShort fits.1
  have width := decimalShort fits.2
  have keys : (stringText ("rows".toList.flatMap escape)).length = 6 ∧
      (stringText ("cols".toList.flatMap escape)).length = 6 := by decide
  simp only [membersText,Member.text,ControlPayloads.member,ControlPayloads.dumpsInt,Literal.text,
    List.length_append,List.length_cons,List.length_nil,keys]
  omega

theorem resizeSmall {size : Nat × Nat} (fits : size.1 < 2^16 ∧ size.2 < 2^16) :
    (resizeFrame size).payload.length ≤ readSize := by
  have short := sizeTextShort fits
  simp only [resizeFrame,ControlPayloads.resizePayload,flatText,readSize,List.length_append,List.length_cons,List.length_nil]
  omega

theorem requestSmall {size : Nat × Nat} (fits : size.1 < 2^16 ∧ size.2 < 2^16) :
    (requestFrame size).payload.length ≤ readSize := by
  have short := sizeTextShort fits
  have verb : (Member.text (ControlPayloads.member "verb"
      (ControlPayloads.dumpsStr (ControlPayloads.ofText "open-pty".toList)))).length = 18 := by decide
  have shape : (requestFrame size).payload = 123::(Member.text (ControlPayloads.member "verb"
      (ControlPayloads.dumpsStr (ControlPayloads.ofText "open-pty".toList))) ++ [44,32] ++
      membersText [ControlPayloads.member "rows" (ControlPayloads.dumpsInt size.1),
        ControlPayloads.member "cols" (ControlPayloads.dumpsInt size.2)]) ++ [125] := rfl
  rw [shape]
  simp only [readSize,List.length_append,List.length_cons,List.length_nil,verb]
  omega

theorem untouchedPart {xs : List Sending} (partway : Partway part xs) (untouched : ∀ x ∈ xs, Untouched x) : part = [] := by
  cases xs with
  | nil => exact partway
  | cons x rest =>
    have same : encode x.frame = encode x.frame := rfl
    have whole := partway.1
    rw [untouched x (by simp)] at whole
    simpa using whole

theorem encodeNotNil (f : Frame) : encode f ≠ [] := by simp [encode]

theorem startWhole : Whole (request tty window) (start tty window) [request tty window] [] where
  sent := by simp [start,encodeAll]
  part := rfl
  asked := rfl
  called := List.Perm.refl _
  order := rfl
  typed := rfl
  small := by
    intro f known
    cases List.mem_singleton.mp known
    refine requestSmall ?_
    cases tty with
    | false => exact termSizeFits none
    | true => exact termSizeFits window

theorem sameWhole (whole : Whole first s frames part) (same : Unsent s t) : Whole first t frames part := by
  obtain ⟨main,handlers,sent,called,typed⟩ := same
  have still : pending t = pending s := by rw [pending,main,handlers]; rfl
  exact ⟨sent.trans whole.sent,still ▸ whole.part,whole.asked,by rw [called,still]; exact whole.called,
    by rw [called,still]; exact whole.order,by rw [called,typed]; exact whole.typed,by rw [called]; exact whole.small⟩

theorem outputAppend (ftype : UInt8) (fs gs : List Frame) : output ftype (fs ++ gs) = output ftype fs ++ output ftype gs := by
  simp [output]

theorem writesWhole {f : Frame} (whole : Whole first s frames part) (writes : Writes s t f) : Whole first t frames part := by
  obtain ⟨none,one,sent,called,typed,small⟩ := writes
  have empty : part = [] := by simpa [none,Partway] using whole.part
  refine ⟨sent.trans whole.sent,?_,whole.asked,?_,?_,?_,?_⟩
  · rw [one,empty]
    exact ⟨rfl,encodeNotNil f,by simp⟩
  · have before := whole.called
    rw [none,List.map_nil,List.append_nil] at before
    rw [called,one]
    exact before.append_right [f]
  · have before := whole.order
    rw [none,List.map_nil,List.append_nil] at before
    rw [called,one,List.filter_append,List.filter_append,before]
    rfl
  · rw [called,outputAppend,whole.typed,typed]
  · rw [called]
    exact List.forall_mem_append.mpr ⟨whole.small,by simpa using small⟩

theorem winchWhole (whole : Whole first s frames part) (calm : ∀ x ∈ pending s, Untouched x)
    (h : step tty s (.winch window) = some t) : Whole first t frames part := by
  have empty := untouchedPart whole.part calm
  rw [winchCases h]
  have pushed : ∀ f, pending {s with handlers := sending f::s.handlers, called := s.called ++ [f]} = sending f::pending s :=
    fun f => rfl
  refine ⟨whole.sent,?_,whole.asked,?_,?_,?_,?_⟩
  · rw [pushed,empty]
    exact ⟨rfl,encodeNotNil _,calm⟩
  · rw [pushed,List.map_cons]
    exact (whole.called.append_right _).trans (List.perm_append_singleton _ _ |>.trans List.perm_middle.symm)
  · have hidden : ∀ size, fromLoop (resizeFrame size) = false := fun size => rfl
    rw [pushed,List.map_cons,List.filter_append,whole.order,List.filter_append,List.filter_append]
    simp [hidden,sending]
  · dsimp only
    rw [outputAppend,whole.typed]
    simp [output,resizeFrame,frameResize,frameStdin]
  · exact List.forall_mem_append.mpr ⟨whole.small,by simpa using resizeSmall (termSizeFits window)⟩

theorem sendsWhole {n : Nat} (whole : Whole first s frames part) (h : step tty s (.sends n) = some t) :
    ∃ frames part, Whole first t frames part := by
  obtain ⟨x,rest,before,some,within,after,sent,called,typed,_⟩ := sendsCases h
  have partway := whole.part
  rw [before] at partway
  obtain ⟨shape,pending',untouched⟩ := partway
  have listed : (frames ++ (pending s).map Sending.frame) = frames ++ x.frame::rest.map Sending.frame := by rw [before]; rfl
  by_cases last : x.left.length ≤ n
  · have all : x.left.take n = x.left := List.take_of_length_le last
    rw [Sending.after,if_pos last] at after
    have moved : (frames ++ [x.frame]) ++ (pending t).map Sending.frame = frames ++ (pending s).map Sending.frame := by
      rw [listed,after]
      simp
    refine ⟨frames ++ [x.frame],[],?_,?_,?_,?_,?_,?_,?_⟩
    · rw [sent,whole.sent,all,List.append_assoc,← shape,encodeAllAppend]
      simp [encodeAll]
    · rw [after]
      cases rest with
      | nil => rfl
      | cons y rest =>
        have first := untouched y (by simp)
        refine ⟨first.symm,?_,fun z known => untouched z (List.mem_cons_of_mem _ known)⟩
        rw [first]
        exact encodeNotNil _
    · rw [List.head?_append,whole.asked]
      rfl
    · rw [called,moved]; exact whole.called
    · rw [called,moved]; exact whole.order
    · rw [called,typed]; exact whole.typed
    · rw [called]; exact whole.small
  · rw [Sending.after,if_neg last] at after
    have same : (pending t).map Sending.frame = (pending s).map Sending.frame := by rw [after,before]; rfl
    refine ⟨frames,part ++ x.left.take n,?_,?_,whole.asked,?_,?_,?_,?_⟩
    · rw [sent,whole.sent,List.append_assoc]
    · rw [after]
      refine ⟨?_,?_,untouched⟩
      · simpa using shape
      · simp; omega
    · rw [called,same]; exact whole.called
    · rw [called,same]; exact whole.order
    · rw [called,typed]; exact whole.typed
    · rw [called]; exact whole.small

theorem stepWhole (whole : ∃ frames part, Whole first s frames part) (calm : Calm s a) (h : step tty s a = some t) :
    ∃ frames part, Whole first t frames part := by
  obtain ⟨frames,part,whole⟩ := whole
  cases a with
  | idles => exact ⟨frames,part,writesWhole whole (idlesCases h).1⟩
  | wakes chunk guest =>
    obtain same | ⟨f,writes⟩ := (wakesCases h).1
    · exact ⟨frames,part,sameWhole whole same⟩
    · exact ⟨frames,part,writesWhole whole writes⟩
  | guest f n => exact ⟨frames,part,sameWhole whole (guestCases h).2.2.2.2⟩
  | stops => exact ⟨frames,part,sameWhole whole (stopsCases h).1⟩
  | sends n => exact sendsWhole whole h
  | sendFails =>
    obtain ⟨x,rest,inside,_⟩ | same := (sendFailsCases h).1
    · have none : s.handlers = [] := calm
      exact nomatch none.symm.trans inside
    · exact ⟨frames,part,sameWhole whole same⟩
  | winch window => exact ⟨frames,part,winchWhole whole calm h⟩
  | uninstalls => exact ⟨frames,part,sameWhole whole (uninstallsCases h).1⟩
  | killed =>
    cases Option.some.inj h
    exact ⟨frames,part,sameWhole whole ⟨rfl,rfl,rfl,rfl,rfl⟩⟩

theorem outputLoop {ftype : UInt8} (fs : List Frame) (loop : ftype ≠ frameResize) :
    output ftype fs = output ftype (fs.filter fromLoop) := by
  rw [output,output,List.filter_filter]
  congr 1
  refine List.filter_congr ?_
  intro f _
  by_cases same : f.ftype = ftype <;> simp [same,fromLoop,loop]

theorem partStuck {cap : Nat} {f : Frame} {left : Bytes} (bound : cap < 2^32) (fits : f.payload.length ≤ cap)
    (shape : encode f = part ++ left) (more : left ≠ []) : decodeAll cap part = [] := by
  refine decodeAllStuck ?_
  intro g rest found
  have longer := headAppend left found
  have whole := headEncoded [] fits bound
  rw [List.append_nil,shape,longer] at whole
  obtain ⟨_,none⟩ := Head.frame.inj whole
  exact more (List.append_eq_nil_iff.mp none).2

theorem wholeDecodes {cap : Nat} (bound : cap < 2^32) (wide : readSize ≤ cap) (whole : Whole first s frames part) :
    decodeAll cap s.sent = frames := by
  have fits : ∀ f ∈ frames ++ (pending s).map Sending.frame, f.payload.length ≤ cap :=
    fun f known => Nat.le_trans (whole.small f (whole.called.mem_iff.mpr known)) wide
  obtain ⟨done,open'⟩ := List.forall_mem_append.mp fits
  have nothing : decodeAll cap part = [] := by
    have partway := whole.part
    cases xs : pending s with
    | nil =>
      rw [xs] at partway
      rw [partway]
      exact @decodeAllEncoded cap bound [] (by simp)
    | cons x rest =>
      rw [xs] at partway open'
      exact partStuck bound (open' x.frame (by simp)) partway.1 partway.2.1
  have empty : remainder cap (encodeAll frames) = [] := by
    have := remainderEncoded bound [] done
    rw [List.append_nil] at this
    rw [this]
    exact remainderStuck (fun f rest found => by simp [head] at found)
  rw [whole.sent,(decodeAllAppend cap (encodeAll frames) part).1,decodeAllEncoded bound done,empty,List.nil_append,nothing,
    List.append_nil]

end Steps

theorem shellFramesWhole (tty : Bool) (window : Option (UInt16 × UInt16)) (acts : List Action) (s : Shell)
    (calm : Machine.Along (step tty) Calm (start tty window) acts)
    (reached : Machine.run (step tty) (start tty window) acts = some s) :
    ∃ frames part later, s.sent = encodeAll frames ++ part ∧ (pending s = [] → part = []) ∧
      (∀ installed, decodeAll (clampInbound installed) s.sent = frames) ∧ frames = request tty window::later ∧
      s.called.Perm (frames ++ (pending s).map Sending.frame) ∧
      s.called.filter fromLoop = (frames ++ (pending s).map Sending.frame).filter fromLoop ∧
      output frameStdin (frames ++ (pending s).map Sending.frame) = s.typed := by
  obtain ⟨frames,part,whole⟩ := Machine.runKeepsAlong (I := fun u => ∃ frames part, Whole (request tty window) u frames part)
    (fun u a v before still h => stepWhole before still h) ⟨_,_,startWhole⟩ calm reached
  obtain ⟨later,shape⟩ : ∃ later, frames = request tty window::later := by
    cases frames with
    | nil => exact nomatch whole.asked
    | cons f later => exact ⟨later,by rw [Option.some.inj whole.asked]⟩
  refine ⟨frames,part,later,whole.sent,?_,?_,shape,whole.called,whole.order,?_⟩
  · intro none
    simpa [none,Partway] using whole.part
  · intro installed
    obtain ⟨least,most⟩ := clampInboundBounds installed
    have bound : clampInbound installed < 2^32 := Nat.lt_of_le_of_lt most (by decide)
    exact wholeDecodes bound (Nat.le_trans (by decide) least) whole
  · rw [← whole.typed,outputLoop _ (by decide),← whole.order,← outputLoop _ (by decide)]

def calmActions : List Action :=
  [.wakes (some [97]) false,.winch none,.sends 10,.sends 19,.sends 6,.winch (some (50,0)),.sends 29]

theorem shellFramesWholeCalm :
    Machine.Along (step true) Calm (start true none) calmActions ∧
      ∃ s, Machine.run (step true) (start true none) calmActions = some s ∧ pending s = [] ∧
        ∃ frames part later, s.sent = encodeAll frames ++ part ∧ (pending s = [] → part = []) ∧
          (∀ installed, decodeAll (clampInbound installed) s.sent = frames) ∧ frames = request true none::later ∧
          s.called.Perm (frames ++ (pending s).map Sending.frame) ∧
          s.called.filter fromLoop = (frames ++ (pending s).map Sending.frame).filter fromLoop ∧
          output frameStdin (frames ++ (pending s).map Sending.frame) = s.typed := by
  have calm : Machine.Along (step true) Calm (start true none) calmActions := by decide +kernel
  obtain ⟨s,reached,idle⟩ : ∃ s, Machine.run (step true) (start true none) calmActions = some s ∧ pending s = [] :=
    Machine.runEnds (by decide +kernel)
  exact ⟨calm,s,reached,idle,shellFramesWhole true none calmActions s calm reached⟩

def tornActions : List Action := [.wakes (some [97]) false,.sends 3,.winch none,.sends 29,.sends 3]

def tornBytes : Bytes := [2,0,0] ++ encode (resizeFrame (24,80)) ++ [0,1,97]

theorem tornStuck : decodeAll defaultMaxInboundFrameLen tornBytes = [] := by
  have torn : head defaultMaxInboundFrameLen tornBytes = .tornPayload := by decide +kernel
  exact decodeAllStuck (fun f rest found => nomatch torn.symm.trans found)

theorem shellFramesTorn : ∃ s, Machine.run (step true) (start true none) tornActions = some s ∧ pending s = [] ∧
    s.called.length = 3 ∧ decodeAll defaultMaxInboundFrameLen s.sent = [request true none] ∧
    ¬ ∃ frames, s.sent = encodeAll frames ∧ s.called.Perm frames := by
  obtain ⟨s,reached,idle,three,small,sent⟩ : ∃ s, Machine.run (step true) (start true none) tornActions = some s ∧
      pending s = [] ∧ s.called.length = 3 ∧ (∀ f ∈ s.called, f.payload.length ≤ defaultMaxInboundFrameLen) ∧
      s.sent = encode (request true none) ++ tornBytes := Machine.runEnds (by decide +kernel)
  have decoded : decodeAll defaultMaxInboundFrameLen s.sent = [request true none] := by
    rw [sent,decodeAllFrame (headEncoded tornBytes (by decide +kernel) (by decide)),tornStuck]
  refine ⟨s,reached,idle,three,decoded,?_⟩
  intro ⟨frames,whole,same⟩
  have all : decodeAll defaultMaxInboundFrameLen s.sent = frames := by
    rw [whole]
    exact decodeAllEncoded (by decide) (fun f known => small f (same.mem_iff.mpr known))
  have one : frames = [request true none] := all.symm.trans decoded
  rw [one] at same
  exact absurd (three.symm.trans same.length_eq) (by simp)

end Guesthopper.ShellResize
