import Pandora.Lib.Occurrences

/-! # The edit of `workspace.replace`

The target is looked for as it is written. If it is not there, both the file and the target are
looked at with their line endings as line feeds, and the result is put down with the line endings
that the file has. -/

namespace Pandora.Edits

open Lib.Occurrences

/-- `str::replace("\r\n", "\n")`. -/
def toLf : List Char → List Char
  | [] => []
  | [c] => [c]
  | c :: d :: text => if c = '\r' ∧ d = '\n' then '\n' :: toLf text else c :: toLf (d :: text)

/-- `str::replace('\n', "\r\n")`. -/
def toCrlf (text : List Char) : List Char :=
  text.flatMap fun c => if c = '\n' then ['\r', '\n'] else [c]

def crlf : List Char := ['\r', '\n']

/-- Why no patch is built. -/
inductive EditRefusal
  | notUnique (matchCount : ℕ)
  | notFound
deriving DecidableEq

/-- The first occurrence is replaced, if a search finds no second one. -/
def replaceOnce (target replacement text : List Char) (parts : List Char × List Char) :
    Except EditRefusal (List Char) :=
  if 1 < matchCount target text then .error (.notUnique (matchCount target text))
  else .ok (parts.1 ++ replacement ++ parts.2)

def newChars (original target replacement : List Char) : Except EditRefusal (List Char) :=
  match find? target original with
  | some parts => replaceOnce target replacement original parts
  | none =>
    match find? (toLf target) (toLf original) with
    | some parts =>
      (replaceOnce (toLf target) (toLf replacement) (toLf original) parts).map fun updated =>
        if crlf <:+: original then toCrlf updated else updated
    | none => .error .notFound

/-- The `new_content` of the edit. -/
def newContent (original target replacement : String) : Except EditRefusal String :=
  (newChars original.toList target.toList replacement.toList).map String.ofList

end Pandora.Edits
