import Pseudonym.Files.Disk
import Pseudonym.Value

namespace Pseudonym.Files

/-- A piece of a pattern for names. -/
inductive Piece where
  | char (c : Char)
  | anyChar
  | anyText
  | oneOf (negated : Bool) (ranges : List (Char × Char))
  deriving DecidableEq, Repr, Inhabited

namespace Piece

/-- The ranges of a bracket. A dash between two characters makes a range. -/
def ranges : List Char → List (Char × Char)
  | a :: '-' :: b :: rest => (a, b) :: ranges rest
  | c :: rest => (c, c) :: ranges rest
  | [] => []

/-- The inside of a bracket and what follows it. The first character cannot close it. -/
def bracket? (cs : List Char) : Option (Bool × List Char × List Char) :=
  let (negated, cs) := match cs with
    | '!' :: rest => (true, rest)
    | cs => (false, cs)
  match cs with
  | [] => none
  | c :: cs =>
      let inside := cs.takeWhile (· ≠ ']')
      match cs.dropWhile (· ≠ ']') with
      | [] => none
      | _ :: rest => some (negated, c :: inside, rest)

theorem length_bracket? {cs inside rest : List Char} {b : Bool}
    (h : bracket? cs = some (b, inside, rest)) : rest.length < cs.length + 1 := by
  have drop (xs : List Char) (x : Char) (ys : List Char)
      (hx : xs.dropWhile (· ≠ ']') = x :: ys) : ys.length < xs.length := by
    have := (List.dropWhile_sublist (l := xs) (· ≠ ']')).length_le
    simp only [hx, List.length_cons] at this
    omega
  unfold bracket? at h
  split at h
  rename_i negated cs' hcs
  have hle : cs'.length ≤ cs.length := by
    split at hcs <;> simp_all
  split at h
  · simp at h
  · rename_i c cs''
    split at h
    · simp at h
    · rename_i x ys hx
      simp only [Option.some.injEq, Prod.mk.injEq] at h
      obtain ⟨_, _, rfl⟩ := h
      have := drop _ _ _ hx
      simp only [List.length_cons] at hle
      omega

/-- The pieces of a pattern. A bracket that is never closed stands for itself. -/
def ofChars : List Char → List Piece
  | [] => []
  | '*' :: rest => .anyText :: ofChars rest
  | '?' :: rest => .anyChar :: ofChars rest
  | '[' :: rest =>
      match _h : bracket? rest with
      | some (negated, inside, after) => .oneOf negated (ranges inside) :: ofChars after
      | none => .char '[' :: ofChars rest
  | c :: rest => .char c :: ofChars rest
termination_by cs => cs.length
decreasing_by
  · simp
  · simp
  · simpa using length_bracket? _h
  · simp
  · simp

def accepts : Piece → Char → Bool
  | char c, d => c = d
  | anyChar, _ => true
  | anyText, _ => true
  | oneOf negated ranges, c => negated != ranges.any fun (lo, hi) => lo ≤ c && c ≤ hi

end Piece

/-- Whether a name has the shape of a pattern. -/
def fits : List Piece → List Char → Bool
  | [], cs => cs.isEmpty
  | .anyText :: ps, [] => fits ps []
  | .anyText :: ps, c :: cs => fits ps (c :: cs) || fits (.anyText :: ps) cs
  | _ :: _, [] => false
  | p :: ps, c :: cs => p.accepts c && fits ps cs
termination_by ps cs => ps.length + cs.length

/-- One part of a pattern for paths. -/
inductive Selector where
  | folders
  | named (name : String)
  | shaped (pieces : List Piece)
  /-- A slash at the end. -/
  | done
  deriving DecidableEq, Repr, Inhabited

namespace Selector

def hasWildcard (part : String) : Bool := part.toList.any fun c => c = '*' || c = '?' || c = '['

def hasDoubleStar : List Char → Bool
  | '*' :: '*' :: _ => true
  | _ :: rest => hasDoubleStar rest
  | [] => false

def ofPart (part : String) : Except Error Selector :=
  if part = "**" then .ok .folders
  else if hasDoubleStar part.toList then
    .error (.value (.pattern "Invalid pattern: '**' can only be an entire path component"))
  else if hasWildcard part then .ok (.shaped (Piece.ofChars part.toList))
  else .ok (.named part)

/-- The parts of a pattern, to be looked for in the folder itself or at any depth. -/
def ofPattern (recursive : Bool) (pattern : String) : Except Error (List Selector) := do
  if pattern.isEmpty && !recursive then
    .error (.value (.pattern "Unacceptable pattern: ''"))
  let p := Path.ofText pattern
  if p.root ≠ "" then .error (.unsupported "Non-relative patterns are unsupported")
  let parts ← p.parts.mapM ofPart
  let isOpen := pattern.toList.getLast? = some '/'
  -- A pattern of dots alone says nothing, which only a search at any depth can make something of.
  if p.parts.isEmpty && !recursive then .error (if isOpen then .noSuchEntry else .outOfRange)
  .ok ((if recursive then [.folders] else []) ++ parts ++ (if isOpen then [.done] else []))

end Selector

namespace Disk

/-- What is in the folder of a path. -/
def childrenAt (d : Disk) (path : Path) : List String :=
  match d.locate path.text with
  | .ok place => if d.get? place = some .folder then d.children place else []
  | .error _ => []

/-- The folders below a path. Those that links lead to are not among them. -/
def foldersAt (d : Disk) (path : Path) : List (List String) :=
  match d.locate path.text with
  | .ok place => if d.get? place = some .folder then d.foldersBelow place else [[]]
  | .error _ => [[]]

/-- The paths that a pattern leads to, from a path on. A part that others follow has to be a
folder. -/
def select (d : Disk) (path : Path) : List Selector → List Path
  | [] => [path]
  | .done :: _ => [path]
  | .named name :: rest =>
      let child := path.below [name]
      let goesOn := if rest.isEmpty then d.isThere child.text else d.isFolder child.text
      if goesOn then select d child rest else []
  | .shaped pieces :: rest =>
      let names := (d.childrenAt path).filter fun name =>
        fits pieces name.toList && (rest.isEmpty || d.isFolder (path.below [name]).text)
      names.flatMap fun name => select d (path.below [name]) rest
  | .folders :: rest =>
      (d.foldersAt path).flatMap fun parts => select d (path.below parts) rest

/-- Paths in order, part by part. -/
def pathLe (a b : Path) : Bool :=
  let key (p : Path) : List String := if p.root = "" then p.parts else p.root :: p.parts
  !(key b < key a)

/-- The files that patterns lead to from a folder, each once, in order. -/
def findFiles (d : Disk) (folder : String) (recursive : Bool) (patterns : List Value) :
    Except Error (List Path) := do
  let root := Path.ofText folder
  let found ← patterns.mapM fun
    | .text pattern => do
        let selectors ← Selector.ofPattern recursive pattern
        pure (if d.isFolder root.text then d.select root selectors else [])
    | _ => .error .wrongKind
  let files := found.flatten.filter fun p => d.isFile p.text
  pure (files.eraseDups.mergeSort pathLe)

end Disk

end Pseudonym.Files
