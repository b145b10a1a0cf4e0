import Guesthopper.ControlPayloads
import Guesthopper.PosixShell

/-! `_assemble_command` and what `sh -c` makes of the command the guest is sent. `shlex.quote`
is CPython's. A byte of argv that does not decode is no character the shell knows. -/
namespace Guesthopper.ArgvCommand
open ControlPayloads PosixShell

def safeChars : List Char := "_@%+=:,./-".toList

def safe : ArgvChar → Bool
  | .char c => c.isAlphanum || safeChars.contains c
  | .undecodable _ _ => false

def bare (s : PyStr) : Bool := !s.isEmpty && s.all safe

def requote (k : ArgvChar) : PyStr := if k = .char '\'' then ofText "'\"'\"'".toList else [k]

def quote (s : PyStr) : PyStr :=
  if s = [] then ofText "''".toList
  else if s.all safe then s
  else ofText "'".toList ++ s.flatMap requote ++ ofText "'".toList

def join (sep : PyStr) : List PyStr → PyStr
  | [] => []
  | [s] => s
  | s::t::rest => s ++ (sep ++ join sep (t::rest))

def assembleCommand : List PyStr → PyStr
  | [command] => command
  | command => join (ofText " ".toList) (command.map quote)

def glyph : ArgvChar → Char
  | .char c => c
  | .undecodable _ _ => '\uFFFD'

def exportPath : Simple ArgvChar :=
  ⟨[],[(ofText "export".toList).map .plain,
    (ofText "PATH=/igloo/utils:".toList).map .plain ++ [.param false (ofText "PATH".toList)]],[]⟩

def ReadsAs (d : Dialect ArgvChar) (words : List PyStr) : Prop :=
  ∃ command, readProgram glyph d (prepareCommand (assembleCommand words)) = some [exportPath,⟨[],command,[]⟩] ∧
    command.map (literal glyph) = words.map some

def reservedWord (d : Dialect ArgvChar) (w : PyStr) : Bool :=
  reservedWords.contains (w.map glyph) || d.reserved (w.map glyph)

def assignmentWord (d : Dialect ArgvChar) (w : PyStr) : Bool :=
  let left := w.takeWhile (· ≠ .char '=')
  w.contains (.char '=') && !left.isEmpty && (isName (left.map glyph) || d.assigns (left.map .plain))

-- Nothing quotes the word, and the shell has another use for it where a command name stands.
def taken (d : Dialect ArgvChar) (w : PyStr) : Bool := bare w && (reservedWord d w || assignmentWord d w)

def requoted (k : ArgvChar) : Word ArgvChar :=
  if k = .char '\'' then [.quote,.quote,.quoted k,.quote,.quote] else [.quoted k]

def shape (w : PyStr) : Word ArgvChar := if bare w then w.map .plain else [.quote] ++ w.flatMap requoted ++ [.quote]

section Words
variable {w : PyStr} {k : ArgvChar}

theorem meantUnsafe : ∀ c ∈ " \t\n'\"\\$\x60&|;<>()#*?[~".toList, safe (.char c) = false := by
  have all : " \t\n'\"\\$\x60&|;<>()#*?[~".toList.all (fun c => !safe (.char c)) = true := by decide
  simpa only [List.all_eq_true,Bool.not_eq_true'] using all

theorem safeOrdinary (ok : safe k = true) :
    ordinary (glyph k) = true ∧ glyph k ≠ '#' ∧ glyph k ∉ "*?[~".toList := by
  cases k with
  | undecodable b high => contradiction
  | char c =>
    have other : ∀ x ∈ " \t\n'\"\\$\x60&|;<>()#*?[~".toList, c ≠ x := by
      intro x known same
      rw [same,meantUnsafe x known] at ok
      contradiction
    simp only [String.reduceToList,List.forall_mem_cons] at other
    simp [ordinary,blank,operators,glyph,other]

theorem feedRequoted (w : PyStr) (v : Word ArgvChar) :
    feed glyph (.single v) (w.flatMap requote) = some ([],.single (v ++ w.flatMap requoted)) := by
  induction w generalizing v with
  | nil => simp [feed]
  | cons k w ih =>
    have one : feed glyph (.single v) (requote k) = some ([],.single (v ++ requoted k)) := by
      unfold requote requoted
      split
      · rename_i same
        subst same
        have closed : v ++ [Part.quote,.quote,.quoted (.char '\''),.quote,.quote] =
            ((((v ++ [Part.quote]) ++ [Part.quote]) ++ [Part.quoted (.char '\'')]) ++ [Part.quote]) ++ [Part.quote] := by simp
        rw [closed]
        rfl
      · rename_i other
        refine feedSingle ?_ v
        intro same
        cases k with
        | char c => exact other (congrArg ArgvChar.char same)
        | undecodable b high =>
          have apart : '\uFFFD' ≠ '\'' := by decide
          exact apart same
    have whole := feedThen one (ih (v ++ requoted k))
    rw [List.flatMap_cons,List.flatMap_cons,← List.append_assoc]
    exact whole

theorem quoteBare (ok : bare w = true) : quote w = w := by
  simp only [bare,Bool.and_eq_true,Bool.not_eq_true',List.isEmpty_eq_false_iff] at ok
  rw [quote,if_neg ok.1,if_pos ok.2]

theorem quoteOther (no : bare w = false) :
    quote w = ofText "'".toList ++ (w.flatMap requote ++ ofText "'".toList) := by
  unfold quote
  split
  · rename_i same
    subst same
    rfl
  · split
    · rename_i some all
      simp [bare,some,all] at no
    · rw [List.append_assoc]

theorem feedQuote (w : PyStr) : feed glyph .gap (quote w) = some ([],.word (shape w)) := by
  cases ok : bare w with
  | true =>
    rw [quoteBare ok,shape,if_pos ok]
    simp only [bare,Bool.and_eq_true,Bool.not_eq_true',List.isEmpty_eq_false_iff,List.all_eq_true] at ok
    obtain ⟨some,all⟩ := ok
    cases w with
    | nil => contradiction
    | cons k w => exact feedStart (fun x known => (safeOrdinary (all x known)).1) (safeOrdinary (all k (by simp))).2.1
  | false =>
    rw [quoteOther ok,shape,ok]
    have opened : feed glyph .gap (ofText "'".toList) = some ([],.single [.quote]) := rfl
    have closed (v : Word ArgvChar) : feed glyph (.single v) (ofText "'".toList) = some ([],.word (v ++ [Part.quote])) := rfl
    exact feedThen opened (feedThen (feedRequoted w _) (closed _))

theorem literalRequoted (w : PyStr) : literal glyph (w.flatMap requoted) = some w := by
  induction w with
  | nil => rfl
  | cons k w ih =>
    have one : literal glyph (requoted k) = some [k] := by
      unfold requoted
      split <;> rfl
    exact literalAppend one ih

theorem literalShape (w : PyStr) : literal glyph (shape w) = some w := by
  unfold shape
  split
  · rename_i ok
    simp only [bare,Bool.and_eq_true,List.all_eq_true] at ok
    exact literalPlain (fun k known => (safeOrdinary (ok.2 k known)).2.2)
  · have inner := @literalAppend _ glyph (w.flatMap requoted) [.quote] w [] (literalRequoted w) rfl
    have whole := @literalAppend _ glyph [.quote] _ [] _ rfl inner
    rw [List.append_nil,List.nil_append,← List.append_assoc] at whole
    exact whole

theorem sameGlyph (k : ArgvChar) : glyph k = '=' ↔ k = .char '=' := by
  cases k with
  | char c => simp [glyph]
  | undecodable b high =>
    simp [glyph]

theorem keywordShape (d : Dialect ArgvChar) (w : PyStr) :
    keyword glyph d (shape w) = (bare w && reservedWord d w) := by
  cases ok : bare w with
  | true =>
    rw [shape,if_pos ok,keyword,spellingPlain]
    rfl
  | false =>
    rw [shape,ok]
    rfl

theorem leftPlain (w : PyStr) :
    (w.map Part.plain).takeWhile (fun p => !equals glyph p) = (w.takeWhile (· ≠ .char '=')).map .plain := by
  rw [List.takeWhile_map]
  refine congrArg (List.map Part.plain) (congrArg (fun f => List.takeWhile f w) ?_)
  funext k
  simp [equalsPlain,sameGlyph]

theorem requotedQuiet (k : ArgvChar) : (requoted k).any (equals glyph) = false := by
  unfold requoted
  split <;> rfl

theorem assignmentShape (d : Dialect ArgvChar) (w : PyStr) :
    assignment glyph d (shape w) = (bare w && assignmentWord d w) := by
  cases ok : bare w with
  | true =>
    rw [shape,if_pos ok,assignment,leftPlain,spellingPlain]
    have found : (w.map Part.plain).any (equals glyph) = w.contains (.char '=') := by
      rw [List.any_map,Bool.eq_iff_iff]
      simp [equalsPlain,sameGlyph]
    rw [found]
    simp [assignmentWord]
  | false =>
    rw [shape,ok]
    have none : ([Part.quote] ++ w.flatMap requoted ++ [Part.quote]).any (equals glyph) = false := by
      have inner : (w.flatMap requoted).any (equals glyph) = false := by
        rw [List.any_flatMap]
        exact List.any_eq_false.mpr (fun k _ => Bool.eq_false_iff.mp (requotedQuiet k))
      rw [List.any_append,List.any_append,inner]
      rfl
    unfold assignment
    rw [Bool.false_and]
    exact Bool.and_eq_false_iff.mpr (.inl (Bool.and_eq_false_iff.mpr (.inl none)))

end Words

theorem feedPrefix : feed glyph .gap (ofText "export PATH=/igloo/utils:$PATH; ".toList) =
    some (exportPath.words.map .word ++ [.op [';']],.gap) := by
  rfl

section Commands
variable {d : Dialect ArgvChar}

def wordToken (w : PyStr) : Token ArgvChar := .word (shape w)

theorem feedJoin (w : PyStr) (ws : List PyStr) :
    ∃ done last, feed glyph .gap (join (ofText " ".toList) ((w::ws).map quote)) = some (done,.word last) ∧
      done ++ [.word last] = (w::ws).map wordToken := by
  induction ws generalizing w with
  | nil => exact ⟨[],shape w,feedQuote w,rfl⟩
  | cons v ws ih =>
    obtain ⟨done,last,later,tokens⟩ := ih v
    have parted : feed glyph (.word (shape w)) (ofText " ".toList) = some ([wordToken w],.gap) := rfl
    refine ⟨wordToken w::done,last,feedThen (feedQuote w) (feedThen parted later),?_⟩
    rw [List.cons_append,tokens]
    rfl

theorem lexCommand (first second : PyStr) (rest : List PyStr) :
    lex glyph (prepareCommand (assembleCommand (first::second::rest))) =
      some (exportPath.words.map .word ++ [.op [';']] ++ (first::second::rest).map wordToken) := by
  obtain ⟨done,last,words,tokens⟩ := feedJoin first (second::rest)
  have whole := feedThen feedPrefix words
  have text : feed glyph .gap (prepareCommand (assembleCommand (first::second::rest))) = _ := whole
  simp only [lex,text,finish,bind,Option.bind_some,List.append_assoc,tokens]

theorem parseExport (tokens : List (Token ArgvChar)) :
    parse glyph d .empty (exportPath.words.map .word ++ [.op [';']] ++ tokens) =
      (parse glyph d .empty tokens).map (exportPath::·) := by
  have named : addWord glyph d .empty ((ofText "export".toList).map .plain) =
      some ⟨[],[(ofText "export".toList).map .plain],[]⟩ := by
    have free : keyword glyph d ((ofText "export".toList).map .plain) = false := by
      have listed : reservedWords.contains "export".toList = false := by decide
      rw [keyword,spellingPlain]
      exact Bool.or_eq_false_iff.mpr ⟨listed,d.exports⟩
    have kept : assignment glyph d ((ofText "export".toList).map .plain) = false := rfl
    simp only [addWord,kept,free]
    rfl
  have added (e p : Word ArgvChar) : addWord glyph d ⟨[],[e],[]⟩ p = some ⟨[],[e,p],[]⟩ := if_pos (List.cons_ne_nil _ _)
  simp only [exportPath,List.map_cons,List.map_nil,List.cons_append,List.nil_append,parse,named,added,bind,Option.bind_some]
  exact parseSemicolon rfl tokens

theorem readCommand (first second : PyStr) (rest : List PyStr) :
    readProgram glyph d (prepareCommand (assembleCommand (first::second::rest))) =
      ((addWord glyph d .empty (shape first)).bind (fun c => parse glyph d c (((second::rest).map shape).map .word))).map
        (exportPath::·) := by
  have tokens : (second::rest).map wordToken = ((second::rest).map shape).map .word := by
    rw [List.map_map]
    rfl
  simp only [readProgram,lexCommand,bind,Option.bind_some,parseExport]
  rw [List.map_cons,tokens]
  rfl

theorem argvReadsBack (d : Dialect ArgvChar) (first second : PyStr) (rest : List PyStr) :
    ReadsAs d (first::second::rest) ↔ taken d first = false := by
  have plain : taken d first = (keyword glyph d (shape first) || assignment glyph d (shape first)) := by
    rw [keywordShape,assignmentShape,taken,Bool.and_or_distrib_left]
  rw [plain,ReadsAs,readCommand,Bool.or_eq_false_iff]
  constructor
  · intro ⟨command,same,_⟩
    obtain ⟨program,parsed,shape'⟩ := Option.map_eq_some_iff.mp same
    obtain ⟨c,added,later⟩ := Option.bind_eq_some_iff.mp parsed
    cases shape'
    unfold addWord at added
    cases asg : assignment glyph d (shape first) with
    | true =>
      rw [asg] at added
      cases Option.some.inj added
      exact absurd rfl (parseAssigned (by simp) later ⟨[],command,[]⟩ (by simp))
    | false =>
      rw [asg] at added
      cases key : keyword glyph d (shape first) with
      | true =>
        rw [key] at added
        contradiction
      | false => exact ⟨rfl,rfl⟩
  · intro ⟨key,asg⟩
    have added : addWord glyph d .empty (shape first) = some ⟨[],[shape first],[]⟩ := by
      simp only [addWord,key,asg]
      rfl
    refine ⟨shape first::(second::rest).map shape,?_,?_⟩
    · rw [added,Option.bind_some,parseNamed (by simp)]
      rfl
    · have all : ∀ ws : List PyStr, (ws.map shape).map (literal glyph) = ws.map some := by
        intro ws
        rw [List.map_map]
        exact List.map_congr_left (fun w _ => literalShape w)
      exact all (first::second::rest)

theorem argvMistaken :
    ¬ ReadsAs posix [ofText "FOO=bar".toList,ofText "env".toList] ∧
      ¬ ReadsAs posix [ofText "if".toList,ofText "x".toList] := by
  constructor
  · intro ⟨command,same,_⟩
    have assigned :
        readProgram glyph posix (prepareCommand (assembleCommand [ofText "FOO=bar".toList,ofText "env".toList])) =
          some [exportPath,⟨[(ofText "FOO=bar".toList).map .plain],[(ofText "env".toList).map .plain],[]⟩] := by
      decide +kernel
    rw [assigned] at same
    simp at same
  · intro ⟨command,same,_⟩
    have unread :
        readProgram glyph posix (prepareCommand (assembleCommand [ofText "if".toList,ofText "x".toList])) = none := by
      decide +kernel
    rw [unread] at same
    contradiction

end Commands

end Guesthopper.ArgvCommand
