import Mathlib.Data.List.Basic

/-! Token recognition and the simple commands of the POSIX shell. `glyph` is the character the
shell sees; the tokens keep what the text is made of. A text is read when it is a sequence of
simple commands with nothing left to substitute but parameters: command and arithmetic
substitution, `${`, here-documents, compound commands, pipelines and and-or lists give `none`.
What POSIX leaves to the shell is its `Dialect`. -/
namespace Guesthopper.PosixShell

inductive Part (κ : Type) where
  | plain (k : κ)
  | quoted (k : κ)
  -- A quoting character, which quote removal takes away.
  | quote
  | param (quoted : Bool) (name : List κ)
  deriving DecidableEq, Repr

abbrev Word (κ : Type) := List (Part κ)

inductive Token (κ : Type) where
  | word (w : Word κ)
  | ioNumber (ds : List κ)
  | newline
  | op (text : List Char)
  deriving DecidableEq, Repr

inductive Mode (κ : Type) where
  | gap
  | comment
  | word (w : Word κ)
  | single (w : Word κ)
  | double (w : Word κ)
  | escape (w : Word κ)
  | doubleEscape (w : Word κ) (b : κ)
  | dollar (quoted : Bool) (w : Word κ) (d : κ)
  | name (quoted : Bool) (w : Word κ) (n : List κ)
  | op (text : List Char)
  deriving DecidableEq, Repr

def operators : List (List Char) :=
  ["&&","||",";;","<<",">>","<&",">&","<>","<<-",">|","&","|",";","<",">","(",")"].map String.toList

def blank (c : Char) : Bool := c = ' ' || c = '\t'
def nameStart (c : Char) : Bool := c.isAlpha || c = '_'
def nameChar (c : Char) : Bool := c.isAlphanum || c = '_'

def ordinary (c : Char) : Bool := !(blank c || "\n'\"\\$\x60".toList.contains c || operators.contains [c])

def isName : List Char → Bool
  | [] => false
  | c::cs => nameStart c && cs.all nameChar

variable {κ : Type} (glyph : κ → Char)

def Part.seen : Part κ → Option Char
  | .plain k => some (glyph k)
  | _ => none

def spelling : Word κ → Option (List Char)
  | [] => some []
  | p::rest => do
      let c ← p.seen glyph
      let cs ← spelling rest
      some (c::cs)

def delimit (w : Word κ) (next : Char) : Token κ :=
  if (next = '<' || next = '>') && (spelling glyph w).any (fun cs => cs.all Char.isDigit) then
    .ioNumber (w.filterMap (fun p => match p with | .plain k => some k | _ => none))
  else .word w

def wordStep (w : Word κ) (k : κ) : Option (List (Token κ) × Mode κ) :=
  let c := glyph k
  if ordinary c then some ([],.word (w ++ [.plain k]))
  else if blank c then some ([.word w],.gap)
  else if c = '\n' then some ([.word w,.newline],.gap)
  else if c = '\'' then some ([],.single (w ++ [.quote]))
  else if c = '"' then some ([],.double (w ++ [.quote]))
  else if c = '\\' then some ([],.escape w)
  else if c = '$' then some ([],.dollar false w k)
  else if operators.contains [c] then some ([delimit glyph w c],.op [c])
  else none

def gapStep (k : κ) : Option (List (Token κ) × Mode κ) :=
  let c := glyph k
  if blank c then some ([],.gap)
  else if c = '\n' then some ([.newline],.gap)
  else if c = '#' then some ([],.comment)
  else if operators.contains [c] then some ([],.op [c])
  else wordStep glyph [] k

def doubleStep (w : Word κ) (k : κ) : Option (List (Token κ) × Mode κ) :=
  let c := glyph k
  if c = '"' then some ([],.word (w ++ [.quote]))
  else if c = '\\' then some ([],.doubleEscape w k)
  else if c = '$' then some ([],.dollar true w k)
  else if c = '\x60' then none
  else some ([],.double (w ++ [.quoted k]))

def within (quoted : Bool) (w : Word κ) : Mode κ := if quoted then .double w else .word w

def resume (quoted : Bool) (w : Word κ) (k : κ) : Option (List (Token κ) × Mode κ) :=
  if quoted then doubleStep glyph w k else wordStep glyph w k

def literalDollar (quoted : Bool) (d : κ) : Part κ := if quoted then .quoted d else .plain d

def step : Mode κ → κ → Option (List (Token κ) × Mode κ)
  | .gap,k => gapStep glyph k
  | .comment,k => if glyph k = '\n' then some ([.newline],.gap) else some ([],.comment)
  | .word w,k => wordStep glyph w k
  | .single w,k => if glyph k = '\'' then some ([],.word (w ++ [.quote])) else some ([],.single (w ++ [.quoted k]))
  | .double w,k => doubleStep glyph w k
  | .escape w,k =>
    if glyph k = '\n' then some ([],if w = [] then .gap else .word w)
    else some ([],.word (w ++ [.quote,.quoted k]))
  | .doubleEscape w b,k =>
    if glyph k = '\n' then some ([],.double w)
    else if "$\x60\"\\".toList.contains (glyph k) then some ([],.double (w ++ [.quote,.quoted k]))
    else some ([],.double (w ++ [.quoted b,.quoted k]))
  | .dollar quoted w d,k =>
    let c := glyph k
    if nameStart c then some ([],.name quoted w [k])
    else if c.isDigit || "@*#?-$!".toList.contains c then some ([],within quoted (w ++ [.param quoted [k]]))
    else if c = '(' || c = '{' || (c = '\'' && !quoted) then none
    else resume glyph quoted (w ++ [literalDollar quoted d]) k
  | .name quoted w n,k =>
    if nameChar (glyph k) then some ([],.name quoted w (n ++ [k]))
    else resume glyph quoted (w ++ [.param quoted n]) k
  | .op text,k =>
    if operators.contains (text ++ [glyph k]) then some ([],.op (text ++ [glyph k]))
    else do
      let (done,next) ← gapStep glyph k
      some (.op text::done,next)

def finish : Mode κ → Option (List (Token κ))
  | .gap | .comment => some []
  | .word w => some [.word w]
  | .dollar false w d => some [.word (w ++ [.plain d])]
  | .name false w n => some [.word (w ++ [.param false n])]
  | .op text => some [.op text]
  | _ => none

def feed : Mode κ → List κ → Option (List (Token κ) × Mode κ)
  | mode,[] => some ([],mode)
  | mode,k::rest => do
      let (done,next) ← step glyph mode k
      let (later,last) ← feed next rest
      some (done ++ later,last)

def lex (text : List κ) : Option (List (Token κ)) := do
  let (done,mode) ← feed glyph .gap text
  let last ← finish mode
  some (done ++ last)

def reservedWords : List (List Char) :=
  ["!","\x7b","\x7d","case","do","done","elif","else","esac","fi","for","if","in","then","until","while"].map String.toList

-- What a shell reserves beyond these is its own matter, but `export` is the name of a built-in.
structure Dialect (κ : Type) where
  reserved : List Char → Bool
  exports : reserved "export".toList = false
  -- What else than a name may stand before the `=` of an assignment.
  assigns : Word κ → Bool

def posix : Dialect κ := ⟨fun _ => false,rfl,fun _ => false⟩

def equals (p : Part κ) : Bool := p.seen glyph = some '='

def assignment (d : Dialect κ) (w : Word κ) : Bool :=
  let left := w.takeWhile (fun p => !equals glyph p)
  w.any (equals glyph) && !left.isEmpty && ((spelling glyph left).any isName || d.assigns left)

def keyword (d : Dialect κ) (w : Word κ) : Bool :=
  (spelling glyph w).any (fun text => reservedWords.contains text || d.reserved text)

structure Simple (κ : Type) where
  assigns : List (Word κ)
  words : List (Word κ)
  redirects : List (Option (List κ) × List Char × Word κ)
  deriving DecidableEq, Repr

def Simple.empty : Simple κ := ⟨[],[],[]⟩

def Simple.isEmpty (c : Simple κ) : Bool := c.assigns.isEmpty && c.words.isEmpty && c.redirects.isEmpty

def redirections : List (List Char) := ["<",">",">>","<&",">&","<>",">|"].map String.toList

-- A reserved word counts only as the first word of the command; an assignment, before its name.
def addWord (d : Dialect κ) (c : Simple κ) (w : Word κ) : Option (Simple κ) :=
  if c.words ≠ [] then some {c with words := c.words ++ [w]}
  else if assignment glyph d w then some {c with assigns := c.assigns ++ [w]}
  else if c.isEmpty && keyword glyph d w then none
  else some {c with words := [w]}

def emit (c : Simple κ) : List (Simple κ) := if c.isEmpty then [] else [c]

def parse (d : Dialect κ) (c : Simple κ) : List (Token κ) → Option (List (Simple κ))
  | [] => some (emit c)
  | .word w::rest => do
      let next ← addWord glyph d c w
      parse d next rest
  | .newline::rest => do
      let later ← parse d .empty rest
      some (emit c ++ later)
  | .ioNumber ds::.op o::.word w::rest =>
      if redirections.contains o then parse d {c with redirects := c.redirects ++ [(some ds,o,w)]} rest else none
  | .op o::rest =>
      if o = [';'] then
        if c.isEmpty then none
        else do
          let later ← parse d .empty rest
          some (c::later)
      else match rest with
        | .word w::more =>
          if redirections.contains o then parse d {c with redirects := c.redirects ++ [(none,o,w)]} more else none
        | _ => none
  | _ => none

def readProgram (d : Dialect κ) (text : List κ) : Option (List (Simple κ)) := do
  let tokens ← lex glyph text
  parse glyph d .empty tokens

def Part.text : Part κ → Option (List κ)
  | .plain k => if "*?[~".toList.contains (glyph k) then none else some [k]
  | .quoted k => some [k]
  | .quote => some []
  | .param _ _ => none

def literal : Word κ → Option (List κ)
  | [] => some []
  | p::rest => do
      let one ← p.text glyph
      let more ← literal rest
      some (one ++ more)

variable {glyph}

theorem feedThen {xs ys : List κ} {first mid last : Mode κ} {done later : List (Token κ)}
    (one : feed glyph first xs = some (done,mid)) (two : feed glyph mid ys = some (later,last)) :
    feed glyph first (xs ++ ys) = some (done ++ later,last) := by
  induction xs generalizing first done with
  | nil =>
    cases Option.some.inj one
    exact two
  | cons k xs ih =>
    simp only [feed,bind,Option.bind_eq_some_iff] at one
    obtain ⟨⟨start,next⟩,hk,⟨more,stop⟩,rest,same⟩ := one
    cases Option.some.inj same
    have whole := ih rest
    simp only [List.cons_append,feed,hk,whole,bind,Option.bind_some,List.append_assoc]

theorem wordOrdinary {k : κ} (ok : ordinary (glyph k) = true) (w : Word κ) :
    wordStep glyph w k = some ([],.word (w ++ [.plain k])) := if_pos ok

theorem feedPlain {ks : List κ} (ok : ∀ k ∈ ks, ordinary (glyph k) = true) (w : Word κ) :
    feed glyph (.word w) ks = some ([],.word (w ++ ks.map .plain)) := by
  induction ks generalizing w with
  | nil => simp [feed]
  | cons k ks ih =>
    obtain ⟨first,later⟩ := List.forall_mem_cons.mp ok
    have one : step glyph (.word w) k = some ([],.word (w ++ [.plain k])) := wordOrdinary first w
    simp only [feed,one,ih later,bind,Option.bind_some,List.map_cons,List.append_assoc,List.singleton_append]
    rfl

theorem feedStart {k : κ} {ks : List κ} (ok : ∀ x ∈ k::ks, ordinary (glyph x) = true) (no : glyph k ≠ '#') :
    feed glyph .gap (k::ks) = some ([],.word ((k::ks).map .plain)) := by
  obtain ⟨first,later⟩ := List.forall_mem_cons.mp ok
  have clear := first
  simp only [ordinary,Bool.not_eq_true',Bool.or_eq_false_iff] at clear
  have line : glyph k ≠ '\n' := by
    intro same
    rw [same] at first
    contradiction
  have one : step glyph .gap k = some ([],.word [.plain k]) := by
    simp only [step,gapStep,clear.1.1,clear.2,line,no]
    exact wordOrdinary first []
  simp only [feed,one,feedPlain later,bind,Option.bind_some]
  rfl

theorem feedSingle {k : κ} (no : glyph k ≠ '\'') (w : Word κ) :
    feed glyph (.single w) [k] = some ([],.single (w ++ [.quoted k])) := by
  simp only [feed,step,if_neg no,bind,Option.bind_some]
  rfl

theorem spellingPlain (ks : List κ) : spelling glyph (ks.map .plain) = some (ks.map glyph) := by
  induction ks with
  | nil => rfl
  | cons k ks ih =>
    simp only [List.map_cons,spelling,ih]
    rfl

theorem equalsPlain (k : κ) : equals glyph (.plain k) = decide (glyph k = '=') := by simp [equals,Part.seen]

theorem literalAppend {v w : Word κ} {xs ys : List κ} (one : literal glyph v = some xs) (two : literal glyph w = some ys) :
    literal glyph (v ++ w) = some (xs ++ ys) := by
  induction v generalizing xs with
  | nil =>
    cases Option.some.inj one
    exact two
  | cons p v ih =>
    simp only [literal,bind,Option.bind_eq_some_iff] at one
    obtain ⟨first,hp,more,rest,same⟩ := one
    cases Option.some.inj same
    simp only [List.cons_append,literal,hp,ih rest,bind,Option.bind_some,List.append_assoc]

theorem literalPlain {ks : List κ} (ok : ∀ k ∈ ks, glyph k ∉ "*?[~".toList) : literal glyph (ks.map .plain) = some ks := by
  induction ks with
  | nil => rfl
  | cons k ks ih =>
    obtain ⟨first,later⟩ := List.forall_mem_cons.mp ok
    have one : (Part.plain k).text glyph = some [k] := if_neg (by simpa using first)
    simp only [List.map_cons,literal,one,ih later,bind,Option.bind_some]
    rfl

variable {d : Dialect κ} {c : Simple κ} {ws : List (Word κ)}

theorem parseSemicolon (full : c.isEmpty = false) (rest : List (Token κ)) :
    parse glyph d c (.op [';']::rest) = (parse glyph d .empty rest).map (c::·) := by
  conv_lhs => unfold parse
  rw [if_pos rfl,full]
  cases parse glyph d .empty rest <;> rfl

theorem parseNamed (named : c.words ≠ []) :
    parse glyph d c (ws.map .word) = some [{c with words := c.words ++ ws}] := by
  induction ws generalizing c with
  | nil =>
    have full : c.isEmpty = false := by simp [Simple.isEmpty,named]
    simp [parse,emit,full]
  | cons w ws ih =>
    have one : addWord glyph d c w = some {c with words := c.words ++ [w]} := if_pos named
    simp only [List.map_cons,parse,one,bind,Option.bind_some]
    rw [ih (by simp),List.append_assoc]
    rfl

theorem parseAssigned {cs : List (Simple κ)} (assigned : c.assigns ≠ []) (h : parse glyph d c (ws.map .word) = some cs) :
    ∀ x ∈ cs, x.assigns ≠ [] := by
  induction ws generalizing c with
  | nil =>
    have full : c.isEmpty = false := by simp [Simple.isEmpty,assigned]
    simp only [List.map_nil,parse,emit,full] at h
    cases Option.some.inj h
    simpa using assigned
  | cons w ws ih =>
    simp only [List.map_cons,parse,bind,Option.bind_eq_some_iff] at h
    obtain ⟨next,added,later⟩ := h
    refine @ih next ?_ later
    unfold addWord at added
    split at added
    · cases Option.some.inj added
      exact assigned
    · split at added
      · cases Option.some.inj added
        simp
      · split at added <;> try contradiction
        cases Option.some.inj added
        exact assigned

end Guesthopper.PosixShell
