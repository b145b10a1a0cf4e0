import Guesthopper.DebugText
import Guesthopper.SessionMove

/-! The size of what a session hands its writer. Output chunks and the EXIT frame are small;
an ERROR quotes the verb, or what serde_json says of the request, after `{:?}` and JSON have
each escaped it. The messages of the operating system and the runtime are brief. -/
namespace Guesthopper.SessionPayload
open FrameBytes SessionText SessionModel SessionMove DebugText
open Tap (Stream)

def Brief (text : String) : Prop := text.toList.length ≤ 4096

structure Documented (env : Env) (p : Printing) : Prop where
  debug : ∀ verb, env.debugText verb = rustDebug p verb
  float : ∀ x, Brief (env.floatText x)
  spawn : ∀ argv e, env.spawn argv = .error e → Brief e
  openpty : ∀ e, env.openpty = .osError e ∨ env.openpty = .taskFailed e → Brief e
  setCloexec : ∀ e, env.setCloexec = .error e → Brief e
  dup : ∀ e, env.dup = .error e → Brief e
  setNonblocking : ∀ e, env.setNonblocking = .error e → Brief e
  asyncFd : ∀ e, env.asyncFd = .error e → Brief e

def Given (cap : Nat) : Action → Prop
  | .firstRead (.frame f) | .inbound (.frame f) => f.payload.length ≤ cap
  | .firstRead (.error e) => Brief e
  | .firstRead (.oversize len cap) => len < 2^32 ∧ cap < 2^32
  | _ => True

def Quotable (env : Env) (p : Printing) : ReadResult → Prop
  | .frame f =>
    f.ftype = frameRequest →
      (∀ e, env.parseRequest f.payload = .error e → 36 + jsonLength e.toList ≤ maxFrameLen) ∧
      ∀ req, env.parseRequest f.payload = .ok req → req.verb ≠ "exec" → req.verb ≠ "open-pty" →
        36 + quotedLength p req.verb ≤ maxFrameLen
  | _ => True

def Fits (f : Frame) : Prop := f.payload.length ≤ maxFrameLen

def admissionWithin : Admission → Prop
  | .refuse msg => Fits (errorFrame msg)
  | _ => True

def terminalWithin : Terminal → Prop
  | .refuse msg | .abandon msg _ => Fits (errorFrame msg)
  | .serve _ => True

section Messages
variable {env : Env} {p : Printing}

theorem errorText (front text : String) :
    (errorFrame (front ++ text)).payload.length = 14 + jsonLength front.toList + jsonLength text.toList := by
  rw [errorLength,String.toList_append,jsonLengthAppend]
  omega

theorem shortFits {msg : String} (short : msg.toList.length ≤ 8192) : Fits (errorFrame msg) := by
  have bound := jsonLengthBound msg.toList
  rw [Fits,errorLength]
  have : maxFrameLen = 16777216 := rfl
  omega

theorem briefFits (front : String) {text : String} (short : front.toList.length ≤ 64) (brief : Brief text) :
    Fits (errorFrame (front ++ text)) := by
  unfold Brief at brief
  refine shortFits ?_
  rw [String.toList_append,List.length_append]
  omega

theorem refusalFits {f : Frame} (guest : Documented env p) (quotable : Quotable env p (.frame f)) :
    admissionWithin (drive env f) := by
  unfold drive
  split
  · exact shortFits (by decide)
  · rename_i request
    obtain ⟨invalid,unknown⟩ := quotable (by simpa using request)
    split
    · rename_i e bad
      have front : jsonLength "invalid REQUEST json: ".toList = 22 := rfl
      have fits := invalid e bad
      rw [admissionWithin,Fits,errorText,front]
      omega
    · rename_i req good
      split
      · split
        · rename_i x _
          have brief := guest.float x
          unfold Brief at brief
          refine shortFits ?_
          have front : "invalid deadline ".toList.length = 17 := rfl
          have back : ": must be finite, >= 0, and in range".toList.length = 36 := rfl
          rw [String.toList_append,String.toList_append,List.length_append,List.length_append]
          omega
        · split
          · rename_i e failed
            exact briefFits "session error: " (by decide) (guest.spawn _ e failed)
          · trivial
      · rename_i notExec
        split
        · trivial
        · rename_i notPty
          have front : jsonLength "unsupported verb: ".toList = 18 := rfl
          have fits := unknown req good notExec notPty
          rw [admissionWithin,Fits,errorText,front,guest.debug,rustDebugLength]
          omega

theorem openptyFits (guest : Documented env p) : terminalWithin (openTerminal env) := by
  unfold openTerminal
  split
  · rename_i e failed
    exact briefFits "openpty failed: " (by decide) (guest.openpty e (.inl failed))
  · rename_i e failed
    exact briefFits "openpty task failed: " (by decide) (guest.openpty e (.inr failed))
  · split
    · rename_i e failed
      exact briefFits "failed to set pty master close-on-exec: " (by decide) (guest.setCloexec e failed)
    · split
      · rename_i e failed
        exact briefFits "failed to dup pty slave: " (by decide) (guest.dup e failed)
      · split
        · rename_i e failed
          exact briefFits "failed to spawn pty shell: " (by decide) (guest.spawn _ e failed)
        · split
          · rename_i e failed
            exact briefFits "failed to set pty master non-blocking: " (by decide) (guest.setNonblocking e failed)
          · split
            · rename_i e failed
              exact briefFits "failed to register pty master with the runtime: " (by decide) (guest.asyncFd e failed)
            · trivial

theorem oversizeBrief {len cap : Nat} (fits : len < 2^32) (bound : cap < 2^32) :
    Brief s!"frame payload {len} exceeds inbound cap {cap}" := by
  have digits : ∀ n < 2^32, n.repr.length ≤ 10 := by
    intro n small
    exact (Nat.length_repr_le_iff (by decide)).mpr (Nat.lt_trans small (by decide))
  have front : (toString "frame payload ").length = 14 := rfl
  have middle : (toString " exceeds inbound cap ").length = 21 := rfl
  have first : (toString len).length ≤ 10 := digits len fits
  have second : (toString cap).length ≤ 10 := digits cap bound
  rw [Brief,String.length_toList,String.length_append,String.length_append,String.length_append,front,middle]
  omega

theorem codeLength {n : Nat} (small : n < 1000) : (toString (Int.ofNat n)).toList.length ≤ 3 := by
  rw [String.length_toList]
  exact (Nat.length_repr_le_iff (by decide)).mpr small

theorem codeShort (raw : WaitResult) (why : Override) : (toString (exitFields raw why).1).toList.length ≤ 3 := by
  obtain neither | ⟨n,small,same⟩ := exitFieldsCode raw why
  · rw [neither]
    decide
  · rw [same]
    exact codeLength (by omega)

theorem reasonShort (raw : WaitResult) (why : Override) : (jsonString (exitFields raw why).2).length ≤ 16 := by
  have known : (exitFields raw why).2 ∈ ["exited","signaled","timeout","disconnected","error"] := by
    cases raw with
    | osError | timedOut => simp [exitFields]
    | status st => cases st <;> cases why <;> simp [exitFields,Override.reason]
  have short : ∀ reason ∈ ["exited","signaled","timeout","disconnected","error"], (jsonString reason).length ≤ 16 := by decide
  exact short _ known

theorem exitFits (raw : WaitResult) (why : Override) : Fits (exitFrame raw why) := by
  have code := codeShort raw why
  have reason := reasonShort raw why
  have front : "\x7b\"code\":".toList.length = 8 := rfl
  have middle : ",\"reason\":".toList.length = 10 := rfl
  have whole := utf8Length ("\x7b\"code\":".toList ++ (toString (exitFields raw why).1).toList ++ ",\"reason\":".toList ++
    jsonString (exitFields raw why).2 ++ ['}'])
  simp only [List.length_append,List.length_singleton] at whole
  have small : (exitFrame raw why).payload.length ≤ 4 * 38 := by
    refine Nat.le_trans whole ?_
    omega
  exact Nat.le_trans small (by decide)

end Messages

def handlerWithin : Handler → Prop
  | .abandon msg => Fits (errorFrame msg)
  | .sending f => Fits f
  | _ => True

def tapWithin (t : Stream UInt8) : Prop := ∀ chunk, t.phase = .holding chunk → chunk.length ≤ readChunk

structure Within (s : Session) : Prop where
  handed : ∀ g ∈ s.box.handed, Fits g
  handler : handlerWithin s.handler
  taps : ∀ side, tapWithin (s.stream side)

section Steps
variable {env : Env} {p : Printing} {s t : Session} {a : Action} {cap : Nat}

theorem offerWithin {f : Frame} {box : Outbox.Box Frame UInt8} (handed : ∀ g ∈ s.box.handed, Fits g) (fits : Fits f)
    (ok : Outbox.offer channelBound f s.box = some box) : ∀ g ∈ box.handed, Fits g := by
  have grown : box.handed = s.box.handed ++ [f] := by
    obtain ⟨_,rfl⟩ | ⟨_,_,rfl⟩ := Outbox.offerCases ok <;> rfl
  rw [grown]
  intro g known
  obtain old | new := List.mem_append.mp known
  · exact handed g old
  · cases List.mem_singleton.mp new
    exact fits

theorem boxMoveHanded {b c : Outbox.Box Frame UInt8} (move : BoxMove b c) : c.handed = b.handed := by
  cases move with
  | take ok => obtain ⟨_,_,_,_,rfl⟩ := Outbox.takeCases ok; rfl
  | put ok _ => obtain ⟨_,_,_,_,_,rfl⟩ := Outbox.putCases ok; rfl
  | finish ok _ => obtain ⟨_,_,rfl⟩ := Outbox.finishCases ok; rfl

theorem tapMoveWithin {side u} {x : Stream UInt8} (move : TapMove side x a u) (within : tapWithin x) : tapWithin u := by
  cases move with
  | read ok =>
    obtain ⟨_,_,limit,_,rfl⟩ := Tap.readCases ok
    intro chunk holds
    cases holds
    exact Nat.le_trans (List.length_take_le _ _) limit
  | eof ok => obtain ⟨_,_,rfl⟩ := Tap.eofCases ok; intro chunk holds; contradiction
  | fail ok => obtain ⟨_,rfl⟩ := Tap.failCases ok; intro chunk holds; contradiction
  | supply ok => obtain ⟨_,_,rfl⟩ := Tap.supplyCases ok; exact within
  | detach ok => obtain ⟨_,rfl⟩ := Tap.detachCases ok; exact within

theorem afterWaitWithin {raw h next} (within : handlerWithin h) (ok : afterWait raw h = some next) : handlerWithin next := by
  cases h <;> simp [afterWait] at ok <;> subst ok <;> exact within

theorem afterDrainWithin {h} (within : handlerWithin h) : handlerWithin (afterDrain h) := by
  cases h with
  | execDrain side raw why =>
    cases side with
    | out => exact within
    | err => exact exitFits raw why
  | ptyDrain raw why => exact exitFits raw why
  | _ => exact within

theorem firstReadWithin {r} (guest : Documented env p) (given : Given cap (.firstRead r)) (quotable : Quotable env p r)
    (h : firstRead env r s = some t) : handlerWithin t.handler := by
  unfold firstRead at h
  split at h <;> try contradiction
  cases r with
  | elapsed | eof => cases Option.some.inj h; trivial
  | error e => cases Option.some.inj h; exact briefFits "session error: " (by decide) given
  | oversize len cap =>
    cases Option.some.inj h
    exact briefFits "session error: " (by decide) (oversizeBrief given.1 given.2)
  | frame f =>
    have refusal := refusalFits guest quotable
    simp only at h
    split at h
    · rename_i msg refused
      rw [refused] at refusal
      cases Option.some.inj h
      exact refusal
    · cases Option.some.inj h; trivial
    · cases Option.some.inj h; trivial

theorem openptyWithin (guest : Documented env p) (h : openptyReturns env s = some t) : handlerWithin t.handler := by
  unfold openptyReturns at h
  split at h <;> try contradiction
  have terminal := openptyFits guest
  simp only at h
  split at h
  · rename_i msg refused
    rw [refused] at terminal
    cases Option.some.inj h
    exact terminal
  · rename_i msg pid abandoned
    rw [abandoned] at terminal
    cases Option.some.inj h
    exact terminal
  · cases Option.some.inj h
    trivial

theorem signalled {u : Session} {h : Handler} {signal group} (within : Within u) (ok : handlerWithin h) :
    Within ((u.signalGroup signal group).go h) := by
  refine ⟨by simpa using within.handed,ok,?_⟩
  intro side
  have kept := within.taps side
  cases side <;> simpa [Session.stream] using kept

theorem openedWithin : tapWithin Tap.opened := by
  intro chunk holds
  contradiction

theorem stepWithin (guest : Documented env p) (within : Within s) (given : Given cap a)
    (quotable : ∀ r, a = .firstRead r → Quotable env p r) (h : step env s a = some t) : Within t := by
  obtain ⟨handed,handler,taps⟩ := within
  cases stepMove h with
  | firstQuiet pc quiet => exact ⟨handed,trivial,taps⟩
  | firstRefused msg pc loud => exact ⟨handed,firstReadWithin guest given (quotable _ rfl) h,taps⟩
  | firstExec pc ok =>
    refine ⟨handed,trivial,?_⟩
    intro side
    cases side <;> exact openedWithin
  | firstPty pc ok => exact ⟨handed,trivial,taps⟩
  | ptyRefused msg feed pc => exact ⟨handed,openptyWithin guest h,taps⟩
  | ptyAbandoned msg pid feed pc => exact ⟨handed,openptyWithin guest h,taps⟩
  | ptyServing pid feed pc =>
    refine ⟨handed,trivial,?_⟩
    intro side
    cases side with
    | out => exact openedWithin
    | err => exact taps .err
  | execStays j still feed pc calm other => exact ⟨handed,trivial,taps⟩
  | execLost pc calm other => exact ⟨handed,trivial,taps⟩
  | execRefused pc calm => exact ⟨handed,trivial,taps⟩
  | ptyStays j feed pc => exact ⟨handed,trivial,taps⟩
  | ptyLost fired pc keeps => exact signalled ⟨handed,handler,taps⟩ trivial
  | execKilled why pc => exact signalled ⟨handed,handler,taps⟩ trivial
  | waited got free next => exact ⟨handed,afterWaitWithin handler next,taps⟩
  | reapLapsed armed next => exact ⟨handed,afterWaitWithin handler next,taps⟩
  | hangupLapsed pc => exact signalled ⟨handed,handler,taps⟩ trivial
  | drainJoined pc done => exact ⟨handed,afterDrainWithin handler,taps⟩
  | @drainLapsed side pc live =>
    refine ⟨by simpa using handed,afterDrainWithin handler,?_⟩
    intro which
    refine setStreamEach ?_ (fun _ => taps which)
    intro _ chunk holds
    contradiction
  | handSent pc ok =>
    rw [pc] at handler
    exact ⟨offerWithin handed handler ok,trivial,taps⟩
  | joined pc gone => exact ⟨handed,trivial,taps⟩
  | streamMoved side ok =>
    refine ⟨by simpa using handed,by simpa using handler,?_⟩
    intro which
    refine setStreamEach ?_ (fun _ => taps which)
    intro same
    exact tapMoveWithin ok (taps side)
  | @pumpSent side chunk box u holds ok next =>
    have fits : Fits ⟨side.ftype,chunk⟩ := Nat.le_trans (taps side chunk holds) (by decide)
    refine ⟨offerWithin handed fits ok,by simpa using handler,?_⟩
    intro which
    have moved : tapWithin ((s.setStream side u).stream which) := by
      refine setStreamEach ?_ (fun _ => taps which)
      intro _ other holds'
      rw [next] at holds'
      split at holds' <;> contradiction
    cases which <;> exact moved
  | writerMoved calm ok =>
    refine ⟨?_,handler,taps⟩
    rw [boxMoveHanded ok]
    exact handed
  | writerGaveUp calm busy => exact ⟨handed,handler,taps⟩
  | writerCancelled fired => exact ⟨handed,handler,taps⟩
  | writerClosed calm idle drained gone => exact ⟨handed,handler,taps⟩
  | exited alive => exact ⟨handed,handler,taps⟩

theorem runWithin {r : ReadResult} {acts : List Action} (guest : Documented env p) (quotable : Quotable env p r)
    (given : ∀ a ∈ acts, Given cap a) (only : ∀ q, .firstRead q ∈ acts → q = r)
    (reached : Machine.run (step env) start acts = some s) : Within s := by
  have able : ∀ a ∈ acts, Given cap a ∧ ∀ q, a = .firstRead q → Quotable env p q := by
    intro a known
    refine ⟨given a known,?_⟩
    intro q same
    subst same
    rw [only q known]
    exact quotable
  have first : Within start := by
    refine ⟨by simp [start,Outbox.empty],trivial,?_⟩
    intro side chunk holds
    cases side <;> contradiction
  exact Machine.runKeepsAlong (fun _ _ _ within ok h => stepWithin guest within ok.1 ok.2 h) first
    (Machine.alongAll able) reached

theorem refusedHands {f : Frame} {msg : String} (refused : drive env f = .refuse msg) :
    ∃ s, Machine.run (step env) start [.firstRead (.frame f),.handSends] = some s ∧ s.box.handed = [errorFrame msg] := by
  have read : step env start (.firstRead (.frame f)) =
      some ({start with first := some (.frame f)}.go (.sending (errorFrame msg))) := by
    simp only [step,firstRead,start,refused]
  refine ⟨_,Machine.runCons.mpr ⟨_,read,Machine.runCons.mpr ⟨_,rfl,rfl⟩⟩,rfl⟩

theorem unquotableOverflows {r : ReadResult} (guest : Documented env p) (no : ¬ Quotable env p r) :
    ∃ s, Machine.run (step env) start [.firstRead r,.handSends] = some s ∧ ∃ g ∈ s.box.handed, ¬ Fits g := by
  cases r with
  | eof | elapsed | error e | oversize len cap => exact absurd trivial no
  | frame f =>
    simp only [Quotable,Classical.not_imp,not_and_or,not_forall] at no
    obtain ⟨request,⟨e,bad,wide⟩ | ⟨req,good,notExec,notPty,wide⟩⟩ := no
    · have refused : drive env f = .refuse ("invalid REQUEST json: " ++ e) := by simp [drive,request,bad]
      obtain ⟨s,reached,handed⟩ := refusedHands refused
      refine ⟨s,reached,_,by rw [handed]; exact List.mem_singleton_self _,?_⟩
      have front : jsonLength "invalid REQUEST json: ".toList = 22 := rfl
      rw [Fits,errorText,front]
      omega
    · have refused : drive env f = .refuse ("unsupported verb: " ++ env.debugText req.verb) := by
        simp [drive,request,good,notExec,notPty]
      obtain ⟨s,reached,handed⟩ := refusedHands refused
      refine ⟨s,reached,_,by rw [handed]; exact List.mem_singleton_self _,?_⟩
      have front : jsonLength "unsupported verb: ".toList = 18 := rfl
      rw [Fits,errorText,front,guest.debug,rustDebugLength]
      omega

end Steps

section Caps
variable {env : Env} {p : Printing} {cap : Nat} {r : ReadResult}

-- What serde_json reads is no longer than its text, and an error quotes at most one string of it.
structure Deserialises (env : Env) (p : Printing) : Prop where
  verb : ∀ raw req, env.parseRequest raw = .ok req → (utf8 req.verb.toList).length ≤ raw.length
  error : ∀ raw e, env.parseRequest raw = .error e → ∃ front quoted back, Brief front ∧ Brief back ∧
    (utf8 quoted.toList).length ≤ raw.length ∧ (e = front ∨ e = front ++ rustDebug p quoted ++ back)

theorem smallCapQuotable (serde : Deserialises env p) (small : cap ≤ 2 * 1024 * 1024) (given : Given cap (.firstRead r)) :
    Quotable env p r := by
  cases r with
  | eof | elapsed | error e | oversize len cap => trivial
  | frame f =>
    have top : maxFrameLen = 16777216 := rfl
    have length : f.payload.length ≤ cap := given
    intro _
    refine ⟨?_,?_⟩
    · intro e bad
      obtain ⟨front,quoted,back,brief,brief',within,short | long⟩ := serde.error _ e bad
      · have := jsonLengthBound front.toList
        unfold Brief at brief
        rw [short]
        omega
      · have := jsonLengthBound front.toList
        have := jsonLengthBound back.toList
        have := quotedBound p quoted
        unfold Brief at brief brief'
        rw [long,String.toList_append,String.toList_append,jsonLengthAppend,jsonLengthAppend,rustDebugLength]
        omega
    · intro req good _ _
      have := quotedBound p req.verb
      have := serde.verb _ req good
      omega

end Caps

-- Graphic ASCII as Rust has it; what else is printable does not matter here.
def asciiPrinting : Printing := ⟨fun c => decide (32 ≤ c.toNat ∧ c.toNat < 127),by simp +contextual⟩

def verbText (verb : List Char) : Bytes := utf8 ("\x7b\"verb\":\"".toList ++ verb ++ "\"\x7d".toList)

def verbGuest (verb : List Char) : Env := {plainGuest with
  parseRequest := fun raw =>
    if raw = verbText verb then .ok ⟨String.ofList verb,none,none,none,none⟩ else plainGuest.parseRequest raw
  debugText := rustDebug asciiPrinting}

theorem verbDocumented (verb : List Char) : Documented (verbGuest verb) asciiPrinting where
  debug _ := rfl
  float _ := (by decide : "-1".toList.length ≤ 4096)
  spawn _ _ failed := by cases failed
  openpty _ failed := by obtain osError | taskFailed := failed <;> contradiction
  setCloexec _ failed := by cases failed
  dup _ failed := by cases failed
  setNonblocking _ failed := by cases failed
  asyncFd _ failed := by cases failed

section Deletes
variable (n : Nat)

def deletes : List Char := List.replicate n '\x7f'

theorem deletesLength : (verbText (deletes n)).length = 11 + n := by
  have inner : (utf8 (deletes n)).length = n := by
    induction n with
    | zero => rfl
    | succ n ih =>
      have shape : deletes (n + 1) = ['\x7f'] ++ deletes n := rfl
      rw [shape,utf8Append,List.length_append,ih]
      exact Nat.add_comm 1 n
  have front : (utf8 "\x7b\"verb\":\"".toList).length = 9 := rfl
  have back : (utf8 "\"\x7d".toList).length = 2 := rfl
  rw [verbText,utf8Append,utf8Append,List.length_append,List.length_append,inner,front,back]
  omega

theorem deletesQuoted : quotedLength asciiPrinting (String.ofList (deletes n)) = 7 * n := by
  have one : quotedWidth asciiPrinting '\x7f' = 7 := by
    simp [quotedWidth,asciiPrinting]
  rw [quotedLength,String.toList_ofList,deletes,List.map_replicate,one,List.sum_replicate]
  exact Nat.mul_comm n 7

theorem deletesApart {verb : String} (short : verb.toList.length = 4 ∨ verb.toList.length = 8) (many : 8 < n) :
    String.ofList (deletes n) ≠ verb := by
  intro same
  subst same
  rw [String.toList_ofList,deletes,List.length_replicate] at short
  omega

theorem deletesRefused (many : 8 < n) : drive (verbGuest (deletes n)) ⟨frameRequest,verbText (deletes n)⟩ =
    .refuse ("unsupported verb: " ++ rustDebug asciiPrinting (String.ofList (deletes n))) := by
  have notExec := deletesApart n (.inl (rfl : "exec".toList.length = 4)) many
  have notPty := deletesApart n (.inr (rfl : "open-pty".toList.length = 8)) many
  simp [drive,notExec,notPty,verbGuest]

theorem deletesQuotable (many : 8 < n) :
    Quotable (verbGuest (deletes n)) asciiPrinting (.frame ⟨frameRequest,verbText (deletes n)⟩) ↔ n ≤ 2396740 := by
  have parsed : (verbGuest (deletes n)).parseRequest (verbText (deletes n)) =
      .ok ⟨String.ofList (deletes n),none,none,none,none⟩ := if_pos rfl
  have top : maxFrameLen = 16777216 := rfl
  constructor
  · intro quotable
    have fits := (quotable rfl).2 _ parsed (deletesApart n (.inl rfl) many) (deletesApart n (.inr rfl) many)
    rw [deletesQuoted] at fits
    omega
  · intro small _
    refine ⟨?_,?_⟩
    · intro e bad
      cases parsed.symm.trans bad
    · intro req good _ _
      cases parsed.symm.trans good
      rw [deletesQuoted]
      omega

end Deletes

theorem outboundWithin (env : Env) (p : Printing) (guest : Documented env p) (v : Nat) (r : ReadResult)
    (given : Given (clampInbound v) (.firstRead r)) :
    (∀ acts s, (∀ a ∈ acts, Given (clampInbound v) a) → (∀ q, .firstRead q ∈ acts → q = r) →
      Machine.run (step env) start acts = some s → ∀ g ∈ s.box.handed, g.payload.length ≤ maxFrameLen) ↔ Quotable env p r := by
  constructor
  · intro all
    by_contra no
    obtain ⟨s,reached,g,known,wide⟩ := unquotableOverflows guest no
    exact wide (all _ s (by simpa [Given] using given) (by simp) reached g known)
  · intro quotable acts s allowed only reached
    exact (runWithin guest quotable allowed only reached).handed

theorem outboundWithinVerb :
    ∃ s, Machine.run (step (verbGuest (deletes 2396740))) start
        [.firstRead (.frame ⟨frameRequest,verbText (deletes 2396740)⟩),.handSends] = some s ∧
      s.box.handed ≠ [] ∧ ∀ g ∈ s.box.handed, g.payload.length ≤ maxFrameLen := by
  have given : Given (clampInbound (4 * 1024 * 1024))
      (.firstRead (.frame ⟨frameRequest,verbText (deletes 2396740)⟩)) := by
    rw [Given,deletesLength]
    decide
  have quotable := (deletesQuotable 2396740 (by decide)).mpr (by decide)
  obtain ⟨s,reached,handed⟩ := refusedHands (deletesRefused 2396740 (by decide))
  refine ⟨s,reached,by simp [handed],?_⟩
  exact (outboundWithin _ asciiPrinting (verbDocumented _) (4 * 1024 * 1024) _ given).mpr quotable _ s
    (by simpa [Given] using given) (by simp) reached

theorem outboundOverflows :
    ∃ s, (verbText (deletes 2500000)).length ≤ clampInbound (4 * 1024 * 1024) ∧
      Machine.run (step (verbGuest (deletes 2500000))) start
        [.firstRead (.frame ⟨frameRequest,verbText (deletes 2500000)⟩),.handSends] = some s ∧
      ∃ g ∈ s.box.handed, maxFrameLen < g.payload.length := by
  have unquotable := mt (deletesQuotable 2500000 (by decide)).mp (by decide)
  obtain ⟨s,reached,g,known,wide⟩ := unquotableOverflows (verbDocumented _) unquotable
  refine ⟨s,?_,reached,g,known,Nat.lt_of_not_le wide⟩
  rw [deletesLength]
  decide

end Guesthopper.SessionPayload
