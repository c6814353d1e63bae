import Pseudonym.Language.Terminal
import Pseudonym.Language.Layout

namespace Pseudonym.Language

open Grammar (TokenSet Token)

/-- The spellings of a language. -/
structure Lexicon where
  /-- The terminals that are no literals, by code. -/
  index : Array (Option Nat)
  /-- The literal that tells places after an expression. -/
  orMark : Option Nat
  /-- Keywords by spelling. -/
  keywords : Std.HashMap String Nat
  /-- Marks by first character, the longer ones first. -/
  marks : Array (List (List Char × Nat))
  /-- Stands for the end of the text. -/
  finish : Nat
  /-- Marks places where every word may be a name. -/
  anyWord : Nat
  reserved : TokenSet
  /-- Whether types may be written. -/
  typed : Bool

namespace Lexicon

def isWord (text : String) : Bool := Lexeme.name text.toList = some text.length

def ofTable (t : Grammar.Table Terminal) (reserved : List String) (typed : Bool) : Lexicon :=
  let entries := t.terminals.toList.zipIdx
  let literals := entries.filterMap fun (x, i) => match x with
    | .literal text => some (text, i)
    | _ => none
  let words := literals.filter (isWord ·.1)
  let marks := (literals.filter fun e => !isWord e.1).map fun (text, i) => (text.toList, i)
  let sorted := marks.mergeSort fun a b => a.1.length ≥ b.1.length
  { index := (List.range 23).map (fun n => (entries.find? fun e => n ≠ 0 && e.1.code == n).map (·.2))
      |>.toArray
    orMark := literals.lookup "||"
    keywords := Std.HashMap.ofList words
    marks := ((List.range 128).map fun n =>
      sorted.filter fun m => m.1.head?.map Char.toNat == some n).toArray
    finish := t.endOfText
    anyWord := t.anyWordMark
    reserved := (words.filter fun e => reserved.contains e.1).foldl
      (fun acc e => acc ||| TokenSet.single e.2) 0
    typed }

variable (x : Lexicon) (valid : TokenSet)

def find? (terminal : Terminal) : Option Nat := x.index.getD terminal.code none

def has (terminal : Terminal) : Bool :=
  match x.find? terminal with
  | some i => valid.testBit i
  | none => false

/-- A token that was found: blanks before it, its length, and its terminal. -/
structure Hit where
  terminal : Nat
  length : Nat
  skipped : Nat := 0
  word : Option Nat := none

def hit (terminal : Terminal) (length : Nat) (skipped : Nat := 0) : Option Hit :=
  (x.find? terminal).map fun i => ⟨i, length, skipped, none⟩

def hitIf (terminal : Terminal) (length : Option Nat) : Option Hit :=
  if x.has valid terminal then length.bind (x.hit terminal ·) else none

/-- Tokens that depend on the layout. They are looked for first. -/
def layoutHit (cs : List Char) : Option Hit :=
  let inExpression := (x.orMark.map valid.testBit).getD false
  let page : Unit → Option Hit := fun _ =>
    if inExpression || x.has valid .escapeSequence || x.has valid .regexPattern then none
    else (Layout.htmlComment cs).bind fun (skipped, n) => x.hit .htmlComment n skipped
  let ternary : Unit → Option Hit := fun _ =>
    (Layout.ternaryMark x.typed cs).bind fun skipped => x.hit .ternaryMark 1 skipped
  let semicolon := x.has valid .automaticSemicolon
  if x.has valid .templateText then
    if semicolon then none else (Layout.templateText cs).bind (x.hit .templateText ·)
  else
    let text : Option Hit :=
      if x.has valid .jsxText then
        match Layout.jsxText false false cs with
        | (true, n) => x.hit .jsxText n
        | (false, _) => none
      else none
    match text with
    | some h => some h
    | none =>
        let beforeBody := x.has valid .signatureSemicolon
        if semicolon || beforeBody then
          let found :=
            if x.typed then Layout.typedStatementEnd inExpression beforeBody cs
            else Layout.statementEnd inExpression false cs
          if found.isEnd then x.hit .automaticSemicolon 0
          else if !found.sawComment && x.has valid .ternaryMark && found.rest.head? = some '?' then
            ternary ()
          else none
        else if x.has valid .ternaryMark then ternary ()
        else page ()

/-- A word is a keyword where it is valid as one, or reserved; elsewhere it is a name. -/
def wordHit (cs : List Char) : Option Hit :=
  (Lexeme.name cs).bind fun n =>
    (x.find? .identifier).bind fun name =>
      match x.keywords[String.ofList (cs.take n)]? with
      | some k =>
          if valid.testBit k || (x.reserved.testBit k && !valid.testBit x.anyWord) then
            some ⟨k, n, 0, some name⟩
          else some ⟨name, n, 0, none⟩
      | none => some ⟨name, n, 0, none⟩

def markHit (cs : List Char) : Option Hit :=
  match cs with
  | [] => none
  | c :: _ =>
      ((x.marks.getD c.toNat []).find? fun (text, i) => valid.testBit i && text.isPrefixOf cs).map
        fun (text, i) => ⟨i, text.length, 0, none⟩

/-- The longer token, or the first of two equally long ones. -/
def longest (a b : Option Hit) : Option Hit :=
  match a, b with
  | some a, some b => if b.length > a.length then some b else some a
  | some a, none => some a
  | none, b => b

/-- Tokens that stand directly after the one before. -/
def adjacentHit (cs : List Char) : Option Hit :=
  x.hitIf valid .doubleFragment (Lexeme.fragment '"' cs) <|>
  x.hitIf valid .singleFragment (Lexeme.fragment '\'' cs) <|>
  x.hitIf valid .jsxDoubleFragment (Lexeme.atLeastOne (Lexeme.jsxFragment '"' cs)) <|>
  x.hitIf valid .jsxSingleFragment (Lexeme.atLeastOne (Lexeme.jsxFragment '\'' cs)) <|>
  x.hitIf valid .regexEnd (if cs.head? = some '/' then some 1 else none) <|>
  x.hitIf valid .escapeSequence (Lexeme.escape cs) <|>
  x.hitIf valid .regexPattern (Lexeme.regexPattern cs)

/-- Tokens that may stand anywhere. -/
def plainHit (cs : List Char) : Option Hit :=
  match cs with
  | [] => some ⟨x.finish, 0, 0, none⟩
  | c :: _ =>
      if Lexeme.isNameStart c || c = '\\' then
        longest (longest (x.hitIf valid .staticGet (Lexeme.staticGet cs)) (x.wordHit valid cs))
          (longest (x.hitIf valid .jsxName (Lexeme.jsxName cs)) (x.markHit valid cs))
      else if c = '#' then
        longest (x.hitIf valid .hashBang (Lexeme.hashBang cs))
          (x.hitIf valid .privateName (Lexeme.privateName cs))
      else if c = '/' then
        longest (x.markHit valid cs) ((Lexeme.comment cs).bind (x.hit .comment ·))
      else if c = '&' then
        longest (x.markHit valid cs) (x.hitIf valid .entity (Lexeme.entity cs))
      else
        longest (x.markHit valid cs) (x.hitIf valid .number (Lexeme.number cs))

/-- Tokens apart from those that depend on the layout. -/
def innerHit (cs : List Char) : Option Hit :=
  match x.adjacentHit valid cs with
  | some h => some h
  | none =>
      let blanks := Lexeme.countWhile Lexeme.isBlank cs
      if blanks = 0 then
        longest (x.hitIf valid .regexFlags (Lexeme.regexFlags cs)) (x.plainHit valid cs)
      else (x.plainHit valid (cs.drop blanks)).map fun h => { h with skipped := blanks }

def isExtra (terminal : Nat) : Bool :=
  x.find? .comment == some terminal || x.find? .htmlComment == some terminal

def next (p : Position) (cs : List Char) : Option Token :=
  let found := x.layoutHit valid cs <|> x.innerHit valid cs
  found.map fun h =>
    let start := p.after (cs.take h.skipped)
    let rest := cs.drop h.skipped
    { terminal := h.terminal, start, stop := start.after (rest.take h.length)
      rest := rest.drop h.length, extra := x.isExtra h.terminal, word := h.word }

def lexer : Grammar.Lexer := ⟨x.next, x.reserved⟩

end Lexicon

end Pseudonym.Language
