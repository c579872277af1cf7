import Pandora.Backup.Paths

/-! # The journal of a restore

`restore_journal.rs`: what a restore is about to write, where it was staged and where the originals
are, and how far it came. The journal is written whole each time, and atomically. -/

namespace Pandora.Backup.Journal

open Text Lib.Checked Backup.Archive Backup.Paths

def journalVersion : ℕ := 1
def maxEntries : ℕ := 4096
def maxFieldBytes : ℕ := 4096
def maxJournalBytes : ℕ := 4 * 1024 * 1024

inductive RestoreJournalState
  | prepared
  | applying
  | completed
  | rollingBack
  | rolledBack
  | rollbackFailed
deriving DecidableEq

def RestoreJournalState.asStr : RestoreJournalState → String
  | .prepared => "prepared"
  | .applying => "applying"
  | .completed => "completed"
  | .rollingBack => "rolling_back"
  | .rolledBack => "rolled_back"
  | .rollbackFailed => "rollback_failed"

inductive RestoreJournalError
  | io
  | invalid (message : String)
  | entryNotFound

structure RestoreSidecar where
  suffix : Suffix
  original : Option String

structure RestoreJournalEntry where
  (target staged : String)
  original : Option String
  sidecars : List RestoreSidecar
  applied : Bool

/-- The journal of a restore, entry by entry. -/
structure RestoreJournal where
  formatVersion : ℕ
  transactionId : String
  state : RestoreJournalState
  entries : List RestoreJournalEntry

/-! ## Validation -/

def validateField (name value : String) (maxBytes : ℕ) : Except RestoreJournalError Unit :=
  ensure (value ≠ "" ∧ value.utf8ByteSize ≤ maxBytes ∧ value.toList.any isControl = false)
    (.invalid (name ++ " is outside the allowed bounds"))

def validateRelativePath (name value : String) : Except RestoreJournalError Unit := do
  validateField name value maxFieldBytes
  ensure ('\\' ∉ value.toList) (.invalid (name ++ " must use forward-slash relative paths"))
  ensure (isAbsolute value = false ∧ (components value).all Component.isNormal)
    (.invalid (name ++ " must be a normalized relative path"))

def validateOptional (name : String) : Option String → Except RestoreJournalError Unit
  | some value => validateRelativePath name value
  | none => .ok ()

def RestoreSidecar.validate (sidecar : RestoreSidecar) : Except RestoreJournalError Unit :=
  validateOptional "sidecar original" sidecar.original

/-- One sidecar of an entry, after those with the given suffixes. -/
def validateSidecar (seen : List Suffix) (sidecar : RestoreSidecar) :
    Except RestoreJournalError (List Suffix) := do
  sidecar.validate
  ensure (sidecar.suffix ∉ seen) (.invalid "journal contains duplicate sidecar suffixes")
  pure (sidecar.suffix :: seen)

def RestoreJournalEntry.validate (entry : RestoreJournalEntry) :
    Except RestoreJournalError Unit := do
  validateRelativePath "target" entry.target
  validateRelativePath "staged" entry.staged
  validateOptional "original" entry.original
  let _ ← entry.sidecars.foldlM validateSidecar []
  pure ()

/-- One entry of the journal, after those with the given targets and staged paths. -/
def validateEntry (seen : List String × List String) (entry : RestoreJournalEntry) :
    Except RestoreJournalError (List String × List String) := do
  entry.validate
  ensure (entry.target ∉ seen.1) (.invalid "journal contains duplicate targets")
  ensure (entry.staged ∉ seen.2) (.invalid "journal contains duplicate staged paths")
  pure (entry.target :: seen.1, entry.staged :: seen.2)

def RestoreJournal.validate (journal : RestoreJournal) : Except RestoreJournalError Unit := do
  ensure (journal.formatVersion = journalVersion) (.invalid "unsupported journal format version")
  validateField "transaction ID" journal.transactionId 128
  ensure (journal.entries ≠ [] ∧ journal.entries.length ≤ maxEntries)
    (.invalid "journal entry count is outside the allowed bounds")
  let _ ← journal.entries.foldlM validateEntry ([], [])
  pure ()

/-! ## The journal as JSON -/

/-- A list over several lines, as `to_vec_pretty` writes it: `indent` is the indentation of the
bracket that closes it. -/
def prettyList (indent : String) : List String → String
  | [] => "[]"
  | items => "[\n" ++ ",\n".intercalate items ++ "\n" ++ indent ++ "]"

def optionalJson : Option String → String
  | some text => jsonString text
  | none => "null"

def RestoreSidecar.json (sidecar : RestoreSidecar) : String :=
  "        \x7b\n          \"suffix\": " ++ jsonString sidecar.suffix.text ++
    ",\n          \"original\": " ++ optionalJson sidecar.original ++ "\n        \x7d"

def boolJson : Bool → String
  | true => "true"
  | false => "false"

/-- The fields of an entry before the last. -/
def RestoreJournalEntry.front (entry : RestoreJournalEntry) : String :=
  "    \x7b\n      \"target\": " ++ jsonString entry.target ++
    ",\n      \"staged\": " ++ jsonString entry.staged ++
    ",\n      \"original\": " ++ optionalJson entry.original ++
    ",\n      \"sidecars\": " ++ prettyList "      " (entry.sidecars.map RestoreSidecar.json)

def RestoreJournalEntry.json (entry : RestoreJournalEntry) : String :=
  entry.front ++ ",\n      \"applied\": " ++ boolJson entry.applied ++ "\n    \x7d"

def RestoreJournal.json (journal : RestoreJournal) : String :=
  "\x7b\n  \"format_version\": " ++ toString journal.formatVersion ++
    ",\n  \"transaction_id\": " ++ jsonString journal.transactionId ++
    ",\n  \"state\": " ++ jsonString journal.state.asStr ++
    ",\n  \"entries\": " ++ prettyList "  " (journal.entries.map RestoreJournalEntry.json) ++
    "\n\x7d"

/-! ## Progress -/

def RestoreJournal.isTerminal (journal : RestoreJournal) : Bool :=
  journal.state = .completed || journal.state = .rolledBack || journal.state = .rollbackFailed

/-- The journal that `create` writes. -/
def RestoreJournal.prepared (transactionId : String) (entries : List RestoreJournalEntry) :
    RestoreJournal where
  formatVersion := journalVersion
  transactionId := transactionId
  state := .prepared
  entries := entries

def markFirst (target : String) : List RestoreJournalEntry → List RestoreJournalEntry
  | [] => []
  | entry :: rest =>
    if entry.target = target then { entry with applied := true } :: rest
    else entry :: markFirst target rest

/-- The journal in memory after `mark_applied`; nothing if no entry has the target. -/
def RestoreJournal.markApplied (journal : RestoreJournal) (target : String) :
    Option RestoreJournal :=
  if journal.entries.any fun entry => entry.target = target then
    some { journal with entries := markFirst target journal.entries }
  else none

/-- What `write` checks before it writes. -/
def RestoreJournal.checkSize (journal : RestoreJournal) : Except RestoreJournalError Unit :=
  ensure (journal.json.utf8ByteSize ≤ maxJournalBytes) (.invalid "journal exceeds the size limit")

end Pandora.Backup.Journal
