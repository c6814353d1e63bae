import Pseudonym.Language.Lexeme

namespace Pseudonym.Language.Layout

open Lexeme

/-- The next character. A nought ends the text. -/
def peek : List Char → Option Char
  | [] => none
  | c :: _ => if c.toNat = 0 then none else some c

def isLineFeed (c : Char) : Bool := c = '\n' || c.toNat = 0x2028 || c.toNat = 0x2029

/-- What lies between two tokens, once blanks and comments are passed. -/
inductive Gap where
  /-- A mark that is no comment. -/
  | mark
  | sameLine
  | passed
  deriving DecidableEq

structure Passed where
  gap : Gap
  rest : List Char
  sawComment : Bool

/-- The end of a block comment: what follows it, whether it spans lines, and whether it is closed. -/
def blockEnd (spans : Bool) : List Char → List Char × Bool × Bool
  | [] => ([], spans, false)
  | '*' :: '/' :: cs => (cs, spans, true)
  | c :: cs => if c.toNat = 0 then (c :: cs, spans, false) else blockEnd (spans || isLineFeed c) cs

theorem length_blockEnd_le (spans : Bool) (cs : List Char) :
    (blockEnd spans cs).1.length ≤ cs.length := by
  fun_induction blockEnd spans cs with
  | case1 => simp
  | case2 => simp; omega
  | case3 => simp
  | case4 spans c cs _ _ ih => simp; omega

theorem length_dropWhile_le (p : Char → Bool) (cs : List Char) :
    (cs.dropWhile p).length ≤ cs.length :=
  (List.dropWhile_sublist p).length_le

/-- Passes blanks and comments. With `stop`, ends after a block comment. -/
def pass (stop spans sawComment : Bool) (cs : List Char) : Passed :=
  match _h : cs.dropWhile isWhite with
  | '/' :: '/' :: rest =>
      pass stop spans true (rest.dropWhile fun c => !(isLineFeed c || c.toNat = 0))
  | '/' :: '*' :: rest =>
      let e := blockEnd spans rest
      if e.2.2 && stop && e.1.head? ≠ some '/' then
        ⟨if e.2.1 then .passed else .sameLine, e.1, true⟩
      else pass stop e.2.1 (sawComment || e.2.2) e.1
  | '/' :: rest => ⟨.mark, rest, sawComment⟩
  | rest => ⟨.passed, rest, sawComment⟩
termination_by cs.length
decreasing_by
  · have h₁ := length_dropWhile_le isWhite cs
    have h₂ := length_dropWhile_le (fun c => !(isLineFeed c || c.toNat = 0)) rest
    simp only [_h, List.length_cons] at h₁
    omega
  · have h₁ := length_dropWhile_le isWhite cs
    have h₂ := length_blockEnd_le spans rest
    simp only [_h, List.length_cons] at h₁
    omega

theorem length_pass_le (stop spans sawComment : Bool) (cs : List Char) :
    (pass stop spans sawComment cs).rest.length ≤ cs.length := by
  fun_induction pass stop spans sawComment cs with
  | case1 spans saw cs rest h ih =>
      have h₁ := length_dropWhile_le isWhite cs
      have h₂ := length_dropWhile_le (fun c => !(isLineFeed c || c.toNat = 0)) rest
      simp only [h, List.length_cons] at h₁
      omega
  | case2 spans saw cs rest h e _ =>
      have h₁ := length_dropWhile_le isWhite cs
      have h₂ := length_blockEnd_le spans rest
      simp only [h, List.length_cons] at h₁
      simp only [e]
      omega
  | case3 spans saw cs rest h e _ ih =>
      have h₁ := length_dropWhile_le isWhite cs
      have h₂ : e.1.length ≤ rest.length := length_blockEnd_le spans rest
      simp only [h, List.length_cons] at h₁
      omega
  | case4 spans saw cs rest _ _ h =>
      have h₁ := length_dropWhile_le isWhite cs
      simp only [h, List.length_cons] at h₁
      simp only
      omega
  | case5 => exact length_dropWhile_le isWhite _

/-- Letters of any alphabet, as far as the ends of statements need them. -/
def isAlphabetic (c : Char) : Bool := isLetter c || (c.toNat ≥ 0x80 && isNamePart c)

/-- Whether the next word goes on with the expression before it: in or instanceof. -/
def relates : List Char → Bool
  | 'i' :: 'n' :: rest =>
      match peek rest with
      | none => true
      | some c =>
          if !isAlphabetic c then true
          else
            let word := "stanceof".toList
            rest.take word.length == word &&
              match peek (rest.drop word.length) with
              | none => true
              | some c => !isAlphabetic c
  | _ => false

/-- Whether a new line that begins so goes on with the statement before it. -/
def continues (marks : List Char) (cs : List Char) : Bool :=
  match cs with
  | '+' :: rest => rest.head? ≠ some '+'
  | '-' :: rest => rest.head? ≠ some '-'
  | '!' :: rest => rest.head? = some '='
  | c :: _ => marks.contains c || relates cs
  | [] => false

/-- The answer of a look for the end of a statement, with the text it stopped at. -/
structure Found where
  isEnd : Bool
  rest : List Char
  sawComment : Bool

/-- Whether a statement ends at a line break, given what follows the break. -/
def endsAtBreak (sawComment : Bool) (cs : List Char) : Found :=
  let p := pass false false sawComment cs
  if p.gap = .mark then ⟨false, p.rest, p.sawComment⟩
  else
    match p.rest with
    | '.' :: rest => ⟨(rest.head?.map isDigit).getD false, rest, p.sawComment⟩
    | rest => ⟨!continues "`,:;*%><=[(?^|&/".toList rest, rest, p.sawComment⟩

/-- Passes a comment, if one stands here. -/
def passComment (sawComment : Bool) (cs : List Char) : Passed :=
  if cs.head? = some '/' then pass true false sawComment cs else ⟨.sameLine, cs, sawComment⟩

theorem length_passComment_le (sawComment : Bool) (cs : List Char) :
    (passComment sawComment cs).rest.length ≤ cs.length := by
  unfold passComment
  split
  · exact length_pass_le ..
  · exact Nat.le_refl _

/-- Looks for the end of a statement. `inExpression` says that an operator could follow. -/
def statementEnd (inExpression sawComment : Bool) (cs : List Char) : Found :=
  let p := passComment sawComment cs
  if p.gap = .mark then ⟨false, p.rest, p.sawComment⟩
  else if p.gap = .passed && !inExpression && p.rest.head? ≠ some ',' && p.rest.head? ≠ some '=' then
    ⟨true, p.rest, p.sawComment⟩
  else
    match _h : p.rest with
    | [] => ⟨true, p.rest, p.sawComment⟩
    | c :: rest =>
        if c.toNat = 0 || c = '\x7d' then ⟨true, p.rest, p.sawComment⟩
        else if isLineFeed c then endsAtBreak p.sawComment rest
        else if !isWhite c then ⟨false, p.rest, p.sawComment⟩
        else statementEnd inExpression p.sawComment rest
termination_by cs.length
decreasing_by
  have h₁ := length_passComment_le sawComment cs
  simp only [p, _h, List.length_cons] at *
  omega

/-- The same where types may stand. `beforeBody` says that a body could follow. -/
def typedStatementEnd (inExpression beforeBody : Bool) : List Char → Found
  | [] => ⟨true, [], false⟩
  | c :: cs =>
      if c.toNat = 0 then ⟨true, c :: cs, false⟩
      else if c = '\x7d' then
        let rest := cs.dropWhile isWhite
        ⟨if rest.head? = some ':' then inExpression else true, rest, false⟩
      else if !isWhite c then ⟨false, c :: cs, false⟩
      else if c = '\n' then
        let p := pass false false false cs
        if p.gap = .mark then ⟨false, p.rest, p.sawComment⟩
        else
          match p.rest with
          | '\x7b' :: _ => ⟨!beforeBody, p.rest, p.sawComment⟩
          | '(' :: _ => ⟨!inExpression, p.rest, p.sawComment⟩
          | '[' :: _ => ⟨!inExpression, p.rest, p.sawComment⟩
          | rest => ⟨!continues "`,.;*%><=?^|&/:".toList rest, rest, p.sawComment⟩
      else typedStatementEnd inExpression beforeBody cs

/-- The mark that asks in a conditional: how many blanks lie before it. -/
def ternaryMark (typed : Bool) (cs : List Char) : Option Nat :=
  let blanks := countWhile isWhite cs
  match cs.drop blanks with
  | '?' :: rest =>
      let digitAfterPoint (rest : List Char) : Bool := (rest.head?.map isDigit).getD false
      match rest with
      | '?' :: _ => none
      | '.' :: rest => if digitAfterPoint rest then some blanks else none
      | rest =>
          if typed then
            match rest.dropWhile isWhite with
            | ':' :: _ => none
            | ')' :: _ => none
            | ',' :: _ => none
            | '.' :: rest => if digitAfterPoint rest then some blanks else none
            | _ => some blanks
          else some blanks
  | _ => none

/-- A comment to the end of the line that opens or closes a page comment: the blanks before it and
its length. -/
def htmlComment (cs : List Char) : Option (Nat × Nat) :=
  let blanks := countWhile isWhite cs
  let body (n : Nat) (rest : List Char) : Option (Nat × Nat) :=
    some (blanks, n + countWhile (fun c => !(isLineFeed c || c.toNat = 0)) rest)
  match cs.drop blanks with
  | '<' :: '!' :: '-' :: '-' :: rest => body 4 rest
  | '-' :: '-' :: '>' :: rest => body 3 rest
  | _ => none

/-- The characters of a template up to a mark. -/
def templateLength : List Char → Option Nat
  | [] => none
  | c :: cs =>
      if c.toNat = 0 then none
      else if c = '`' || c = '\\' then some 0
      else if c = '$' && cs.head? = some '\x7b' then some 0
      else (templateLength cs).map (· + 1)

def templateText (cs : List Char) : Option Nat := (templateLength cs).bind atLeastOne

/-- The text between tags. Text that is only line breaks and the blanks after them counts for
nothing. -/
def jsxText : Bool → Bool → List Char → Bool × Nat
  | _, sawText, [] => (sawText, 0)
  | atLine, sawText, c :: cs =>
      if c.toNat = 0 || ['<', '>', '\x7b', '\x7d', '&'].contains c then (sawText, 0)
      else
        let atLine' := c = '\n' || (atLine && isWhite c)
        let r := jsxText atLine' (sawText || !atLine') cs
        (r.1, r.2 + 1)

end Pseudonym.Language.Layout
