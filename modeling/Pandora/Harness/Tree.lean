import Pandora.Lib.Checked
import Pandora.Lib.OrderedSets
import Pandora.Lib.SortedMaps
import Pandora.Text

/-! # Harness trees

`HarnessTree` of `harness_tree.rs`: files by their paths, each path in one of eight components.
`insert` checks the entry before it changes the map and the totals afterwards, and an error of the
second check leaves the map changed; `apply_diff` works on a copy. -/

namespace Pandora.Harness

open Lib.Checked Lib.OrderedSets Lib.SortedMaps

def maxTreeFileSizeBytes : ℕ := 512 * 1024
def maxTreeTotalSizeBytes : ℕ := 16 * 1024 * 1024
def maxTreeFilesCount : ℕ := 1024

inductive HarnessComponent
  | systemPrompt | guardrails | memory | skills | toolGuidance | scripts | subagents | plugins

inductive HarnessTreeError
  | emptyPath
  | absolutePathForbidden (path : String)
  | pathTraversalForbidden (path : String)
  | backslashForbidden (path : String)
  | nullByteForbidden
  | fileTooLarge (path : String) (bytes : ℕ)
  | totalSizeExceeded (totalBytes : ℕ)
  | tooManyFiles (count : ℕ)
  | invalidComponent (path : String)
deriving DecidableEq

/-- `str::starts_with`. -/
def startsWith (front : String) (p : List Char) : Bool := front.toList.isPrefixOf p

/-- `str::ends_with`. -/
def endsWith (back : String) (p : List Char) : Bool := back.toList.isSuffixOf p

def HarnessComponent.classifyPath (path : String) : Option HarnessComponent :=
  let p := path.toList.dropWhile (· = '/')
  if startsWith "prompts/" p ∨ p = "prompt.md".toList ∨ p = "system.md".toList then
    some .systemPrompt
  else if startsWith "guardrails/" p ∨ p = "guardrails.md".toList ∨ p = "policy.md".toList then
    some .guardrails
  else if startsWith "memory/" p ∨ p = "memory.md".toList ∨ p = "context.md".toList then
    some .memory
  else if startsWith "skills/" p ∨ endsWith "SKILL.md" p then some .skills
  else if startsWith "tools/" p ∨ p = "tools.md".toList ∨ p = "tool_guidance.md".toList then
    some .toolGuidance
  else if startsWith "scripts/" p then some .scripts
  else if startsWith "subagents/" p ∨ startsWith "agents/" p then some .subagents
  else if startsWith "plugins/" p then some .plugins
  else none

abbrev Files := SortedMap String String

/-- The files by their paths, and the metadata. -/
structure HarnessTree where
  files : Files
  metadata : SortedMap String String

/-- What is added, changed and removed between two trees. -/
structure HarnessTreeDiff where
  added : SortedMap String String
  modified : SortedMap String (String × String)
  removed : OrderedSet String
deriving DecidableEq

def validateEntry (path content : String) : Except HarnessTreeError Unit := do
  ensure (path ≠ "") .emptyPath
  ensure ('\x00' ∉ path.toList) .nullByteForbidden
  ensure ('\\' ∉ path.toList) (.backslashForbidden path)
  ensure (path.toList.head? ≠ some '/') (.absolutePathForbidden path)
  ensure (['.', '.'] ∉ path.toList.splitOn '/') (.pathTraversalForbidden path)
  ensure (HarnessComponent.classifyPath path ≠ none) (.invalidComponent path)
  ensure (content.utf8ByteSize ≤ maxTreeFileSizeBytes) (.fileTooLarge path content.utf8ByteSize)

/-- The bytes of all files. -/
def totalBytes (files : Files) : ℕ := (files.entries.map fun file => file.2.utf8ByteSize).sum

def validateTotals (files : Files) : Except HarnessTreeError Unit := do
  ensure (files.entries.length ≤ maxTreeFilesCount) (.tooManyFiles files.entries.length)
  ensure (totalBytes files ≤ maxTreeTotalSizeBytes) (.totalSizeExceeded (totalBytes files))

namespace HarnessTree

def new : HarnessTree := ⟨SortedMap.empty, SortedMap.empty⟩

def validate (tree : HarnessTree) : Except HarnessTreeError Unit := do
  ensure (tree.files.entries.length ≤ maxTreeFilesCount) (.tooManyFiles tree.files.entries.length)
  tree.files.entries.forM fun file => validateEntry file.1 file.2
  ensure (totalBytes tree.files ≤ maxTreeTotalSizeBytes)
    (.totalSizeExceeded (totalBytes tree.files))

/-- The totals are checked after the map was changed. -/
def insert (tree : HarnessTree) (path content : String) :
    HarnessTree × Except HarnessTreeError Unit :=
  match validateEntry path content with
  | .error error => (tree, .error error)
  | .ok () =>
    let tree := { tree with files := tree.files.insert path content }
    (tree, validateTotals tree.files)

def remove (tree : HarnessTree) (path : String) : HarnessTree × Option String :=
  ({ tree with files := tree.files.erase path }, tree.files.get? path)

def diff (tree other : HarnessTree) : HarnessTreeDiff where
  added := other.files.filterMap fun path newContent =>
    match tree.files.get? path with
    | none => some newContent
    | some _ => none
  modified := other.files.filterMap fun path newContent =>
    match tree.files.get? path with
    | none => none
    | some oldContent => if oldContent ≠ newContent then some (oldContent, newContent) else none
  removed := ⟨tree.files.keys.filter fun path => other.files.get? path = none,
    tree.files.sorted_keys.filter _⟩

/-- The file is checked and takes its place. -/
def putFile (files : Files) (path content : String) : Except HarnessTreeError Files := do
  validateEntry path content
  pure (files.insert path content)

def applyDiff (tree : HarnessTree) (diff : HarnessTreeDiff) :
    Except HarnessTreeError HarnessTree := do
  let files := diff.removed.elems.foldl SortedMap.erase tree.files
  let files ← diff.added.entries.foldlM (fun files file => putFile files file.1 file.2) files
  let files ← diff.modified.entries.foldlM (fun files file => putFile files file.1 file.2.2) files
  let newTree := { tree with files := files }
  newTree.validate
  pure newTree

end HarnessTree

end Pandora.Harness
