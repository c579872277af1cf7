import Pandora.Sessions.Journal

/-! # What the digest of a step binds

The digest is over lines: the index, the session, the tool, its arguments, the diff, the environment
and the digest before it. Where the fields keep to their lines and an optional field is not empty,
the lines determine them (`stepMessage_inj`). The result of the turn is on none of the lines. -/

namespace Pandora.Sessions.StepDigests

open Text Ids Lib.Codes Sessions.Journal List
open Jobs.Store (Value)

variable {ext : Externals} {turn other : Turn}

/-- What is fed to the hash for a turn. -/
def Turn.message (valueText : Value → String) (turn : Turn) : String :=
  stepMessage valueText turn.stepIndex turn.sessionId turn.toolName turn.arguments
    turn.workspaceDiff turn.environmentState turn.prevDigest

/-- The turns have the same fields, those that are not hashed apart. -/
structure HashedAlike (a b : Turn) : Prop where
  stepIndex : a.stepIndex = b.stepIndex
  sessionId : a.sessionId = b.sessionId
  toolName : a.toolName = b.toolName
  arguments : a.arguments = b.arguments
  workspaceDiff : a.workspaceDiff = b.workspaceDiff
  environmentState : a.environmentState = b.environmentState
  prevDigest : a.prevDigest = b.prevDigest

/-- The turns have the same fields, of those the journal documents as bound by the digest. -/
def BoundAlike (a b : Turn) : Prop := HashedAlike a b ∧ a.result = b.result

/-- The text, if it is there, is a line and not an empty one. -/
def Line (text : Option String) : Prop := ∀ line, text = some line → OneLine line ∧ line ≠ ""

/-- The fields of the turn keep to their lines. The diff may have any lines: it stands between four
lines and two. -/
structure Plain (valueText : Value → String) (turn : Turn) : Prop where
  sessionId : OneLine turn.sessionId.text
  toolName : Line turn.toolName
  arguments : Line (turn.arguments.map valueText)
  entries : ∀ entry ∈ turn.environmentState.entries,
    ('=' ∉ entry.1.toList ∧ ';' ∉ entry.2.toList) ∧ OneLine entry.1 ∧ OneLine entry.2
  prevDigest : Line turn.prevDigest

/-! ### Lines of optional texts -/

theorem Line.oneLine {text : Option String} (h : Line text) : OneLine (text.getD "") := by
  cases text with
  | none => exact not_mem_nil
  | some line => exact (h line rfl).1

theorem Line.getD_inj {a b : Option String} (ha : Line a) (hb : Line b)
    (h : a.getD "" = b.getD "") : a = b := by
  rcases a with _ | a <;> rcases b with _ | b
  · rfl
  · exact absurd h.symm (hb b rfl).2
  · exact absurd h (ha a rfl).2
  · exact congrArg some h

/-! ### The environment -/

theorem prefixCode_entryChars : PrefixCode
    (fun entry : String × String => '=' ∉ entry.1.toList ∧ ';' ∉ entry.2.toList) entryChars := by
  rintro ⟨key, value⟩ ⟨key', value'⟩ ⟨hkey, hvalue⟩ ⟨hkey', hvalue'⟩ s t h
  unfold entryChars at h
  rw [append_assoc, append_assoc (key'.toList ++ ['='])] at h
  obtain ⟨hkeys, hrest⟩ := prefixCode_terminated '=' hkey hkey' h
  obtain ⟨hvalues, hst⟩ := prefixCode_terminated ';' hvalue hvalue' hrest
  rw [String.toList_inj] at hkeys hvalues
  exact ⟨Prod.ext hkeys hvalues, hst⟩

theorem entryChars_ne_nil (entry : String × String) : entryChars entry ≠ [] := by
  unfold entryChars
  simp

theorem EnvironmentState.ext_entries {a b : EnvironmentState} (h : a.entries = b.entries) :
    a = b := by
  cases a; cases b; cases h; rfl

theorem Plain.oneLine_environment (h : Plain ext.valueText turn) :
    OneLine turn.environmentState.text := by
  intro hmem
  unfold EnvironmentState.text at hmem
  rw [String.toList_ofList, mem_flatMap] at hmem
  obtain ⟨entry, hentry, hchar⟩ := hmem
  obtain ⟨-, hkey, hvalue⟩ := h.entries entry hentry
  unfold entryChars at hchar
  simp only [mem_append, mem_singleton] at hchar
  rcases hchar with (hchar | hchar) | hchar | hchar
  · exact hkey hchar
  · cases hchar
  · exact hvalue hchar
  · cases hchar

theorem Plain.environment_inj (ha : Plain ext.valueText turn) (hb : Plain ext.valueText other)
    (h : turn.environmentState.text = other.environmentState.text) :
    turn.environmentState = other.environmentState := by
  unfold EnvironmentState.text at h
  have hchars := congrArg String.toList h
  rw [String.toList_ofList, String.toList_ofList] at hchars
  exact EnvironmentState.ext_entries (prefixCode_entryChars.flatMap_inj entryChars_ne_nil
    (fun entry hentry => (ha.entries entry hentry).1)
    (fun entry hentry => (hb.entries entry hentry).1) hchars)

/-! ### The message -/

/-- The arguments of the turns: the JSON texts of two values differ. -/
def ReadApart (valueText : Value → String) (a b : Turn) : Prop :=
  a.arguments.map valueText = b.arguments.map valueText → a.arguments = b.arguments

/-- The lines determine the hashed fields: four lines in front, two at the end, and the diff is what
stands between them. -/
theorem stepMessage_inj (ha : Plain ext.valueText turn) (hb : Plain ext.valueText other)
    (hargs : ReadApart ext.valueText turn other)
    (h : Turn.message ext.valueText turn = Turn.message ext.valueText other) :
    HashedAlike turn other := by
  have hchars := congrArg String.toList h
  unfold Turn.message stepMessage at hchars
  have hline : "\n".toList = ['\n'] := rfl
  simp only [String.toList_append, hline, append_assoc, append_cancel_left_eq,
    cons_append, nil_append] at hchars
  obtain ⟨hindex, h₁⟩ := line_inj (oneLine_toString _) (oneLine_toString _) hchars
  obtain ⟨hsession, h₂⟩ := line_inj ha.sessionId hb.sessionId h₁
  obtain ⟨htool, h₃⟩ := line_inj ha.toolName.oneLine hb.toolName.oneLine h₂
  obtain ⟨hvalue, h₄⟩ := line_inj ha.arguments.oneLine hb.arguments.oneLine h₃
  rw [← cons_append, ← append_assoc, ← cons_append, ← append_assoc] at h₄
  obtain ⟨h₅, hprev⟩ := last_line_inj ha.prevDigest.oneLine hb.prevDigest.oneLine h₄
  obtain ⟨hdiff, henv⟩ := last_line_inj ha.oneLine_environment hb.oneLine_environment h₅
  exact {
    stepIndex := UInt64.toNat_inj.mp (toString_inj hindex)
    sessionId := Id.ext_text hsession
    toolName := ha.toolName.getD_inj hb.toolName htool
    arguments := hargs (ha.arguments.getD_inj hb.arguments hvalue)
    workspaceDiff := String.toList_inj.mp hdiff
    environmentState := ha.environment_inj hb henv
    prevDigest := ha.prevDigest.getD_inj hb.prevDigest hprev }

theorem HashedAlike.message (h : HashedAlike turn other) :
    Turn.message ext.valueText turn = Turn.message ext.valueText other := by
  unfold Turn.message
  rw [h.stepIndex, h.sessionId, h.toolName, h.arguments, h.workspaceDiff, h.environmentState,
    h.prevDigest]

theorem digest_eq_iff :
    (captureTurnStep ext turn).sha256Digest = (captureTurnStep ext other).sha256Digest ↔
      ext.sha (asBytes (Turn.message ext.valueText turn)) =
        ext.sha (asBytes (Turn.message ext.valueText other)) := by
  unfold captureTurnStep computeStepDigest
  constructor
  · intro h
    have hchars := congrArg String.toList h
    rw [String.toList_append, String.toList_append, append_cancel_left_eq] at hchars
    exact Bytes32.ext_bytes (hex_inj (String.toList_inj.mp hchars))
  · intro h
    unfold Turn.message at h
    simp only [h]

/-- **What the digest binds**: for no turn does it bind all that the journal documents. Where the
fields of two turns keep to their lines and the hash does not collide, it binds the fields that are
hashed. -/
theorem digest_never_binds (turn : Turn) :
    (¬ ∀ other, (captureTurnStep ext other).sha256Digest = (captureTurnStep ext turn).sha256Digest →
      BoundAlike other turn) ∧
    ∀ other, Plain ext.valueText turn → Plain ext.valueText other →
      ReadApart ext.valueText other turn →
      Set.InjOn ext.sha {asBytes (Turn.message ext.valueText other),
        asBytes (Turn.message ext.valueText turn)} →
      ((captureTurnStep ext other).sha256Digest = (captureTurnStep ext turn).sha256Digest ↔
        HashedAlike other turn) := by
  constructor
  · intro hbinds
    -- the same turn with a longer result
    obtain ⟨-, hresult⟩ := hbinds { turn with result := some (turn.result.getD "" ++ "!") } rfl
    cases hturn : turn.result with
    | none =>
      rw [hturn] at hresult
      cases hresult
    | some result =>
      rw [hturn, Option.some.injEq, Option.getD_some] at hresult
      have hlength := congrArg String.length hresult
      rw [String.length_append] at hlength
      have hone : "!".length = 1 := rfl
      omega
  · intro other hturn hother hargs hsha
    rw [digest_eq_iff]
    constructor
    · intro hhash
      have hmessage := hsha (Set.mem_insert _ _) (Set.mem_insert_of_mem _ rfl) hhash
      exact stepMessage_inj hother hturn hargs (asBytes_inj hmessage)
    · intro halike
      rw [halike.message]

/-! ### Turns of a session -/

/-- The hashes of the messages of the samples: a turn without a tool, one with a tool, and the first
under the identifier of a fork. -/
def plainHash : Bytes32 :=
  ⟨[122, 49, 208, 214, 9, 72, 102, 102, 138, 199, 133, 83, 74, 149, 12, 221, 192, 213, 172, 164,
    3, 235, 179, 251, 11, 209, 13, 31, 204, 68, 96, 145], rfl⟩

def bashHash : Bytes32 :=
  ⟨[215, 132, 12, 115, 77, 202, 24, 78, 149, 253, 185, 161, 104, 28, 4, 22, 46, 30, 140, 85, 59,
    27, 92, 21, 172, 85, 128, 77, 196, 140, 110, 91], rfl⟩

def forkHash : Bytes32 :=
  ⟨[62, 156, 38, 182, 167, 206, 74, 240, 109, 69, 1, 81, 21, 24, 239, 19, 22, 64, 54, 18, 254,
    240, 124, 133, 18, 194, 136, 87, 136, 204, 231, 79], rfl⟩

def sampleExt : Externals where
  sha message :=
    if message.length = 39 then plainHash else if message.length = 45 then bashHash else forkHash
  valueText _ := "\x7b\x7d"
  parseValue text := if text = "\x7b\x7d" then some (.object []) else none
  messageBytes message := message.content.utf8ByteSize + 28

theorem nil_sorted : ([] : List (String × String)).Pairwise fun a b => a.1 < b.1 := .nil

def sampleTurn : Turn where
  sessionId := .ofLiteral "session-1"
  stepIndex := 0
  toolName := none
  toolCallId := none
  arguments := none
  result := some "ok"
  workspaceDiff := ""
  environmentState := ⟨[], nil_sorted⟩
  prevDigest := none
  timestamp := 100

def bashTurn : Turn := { sampleTurn with toolName := some "bash", arguments := some (.object []) }

theorem line_none : Line none := fun _ h => by cases h

theorem sample_plain : Plain sampleExt.valueText sampleTurn where
  sessionId := by unfold OneLine; decide +kernel
  toolName := line_none
  arguments := line_none
  entries := fun _ h => absurd h not_mem_nil
  prevDigest := line_none

theorem bash_plain : Plain sampleExt.valueText bashTurn where
  sessionId := by unfold OneLine; decide +kernel
  toolName := by
    rintro _ ⟨⟩
    exact ⟨by unfold OneLine; decide, by decide⟩
  arguments := by
    rintro _ ⟨⟩
    exact ⟨by unfold OneLine; decide, by decide⟩
  entries := fun _ h => absurd h not_mem_nil
  prevDigest := line_none

theorem sample_injOn : Set.InjOn sampleExt.sha {asBytes (Turn.message sampleExt.valueText bashTurn),
      asBytes (Turn.message sampleExt.valueText sampleTurn)} := by
  have hne : sampleExt.sha (asBytes (Turn.message sampleExt.valueText bashTurn)) ≠
      sampleExt.sha (asBytes (Turn.message sampleExt.valueText sampleTurn)) := by decide +kernel
  rintro _ (rfl | rfl) _ (rfl | rfl) h
  · rfl
  · exact absurd h hne
  · exact absurd h.symm hne
  · rfl

theorem bash_told_apart : (captureTurnStep sampleExt bashTurn).sha256Digest ≠
    (captureTurnStep sampleExt sampleTurn).sha256Digest := by
  have hargs : ReadApart sampleExt.valueText bashTurn sampleTurn := fun h => by cases h
  intro hdigest
  have halike := ((digest_never_binds sampleTurn).2 bashTurn sample_plain
    bash_plain hargs sample_injOn).mp hdigest
  exact absurd halike.toolName (by decide)

/-- Neither another result nor an empty tool name instead of none changes the digest. -/
theorem result_unbound :
    Set.InjOn sampleExt.sha {asBytes (Turn.message sampleExt.valueText sampleTurn)} ∧
    (captureTurnStep sampleExt { sampleTurn with result := some "failed" }).sha256Digest =
      (captureTurnStep sampleExt sampleTurn).sha256Digest ∧
    ¬ BoundAlike { sampleTurn with result := some "failed" } sampleTurn ∧
    (captureTurnStep sampleExt { sampleTurn with toolName := some "" }).sha256Digest =
      (captureTurnStep sampleExt sampleTurn).sha256Digest ∧
    ¬ BoundAlike { sampleTurn with toolName := some "" } sampleTurn := by
  refine ⟨Set.injOn_singleton _ _, rfl, ?_, rfl, ?_⟩
  · rintro ⟨-, hresult⟩
    exact absurd hresult (by decide)
  · rintro ⟨halike, -⟩
    exact absurd halike.toolName (by decide)

end Pandora.Sessions.StepDigests
