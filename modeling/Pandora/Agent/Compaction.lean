import Pandora.Agent.Messages

/-! # The compaction of a history

`compact_session_history` keeps the last turns of the user, or as many messages as two a turn, but
for results of tools at the cut (`CutAt`). It takes the first lines of what it leaves out, to 120
bytes, into a summary. It fails where that is not between two characters of a line, and where the
names of the tools make the summary longer than a message; and it may leave out a call whose result
it keeps. -/

namespace Pandora.Agent.Messages

open Text Lib.Checked List

variable {json : JsonText} {history : List ChatMessage} {windowTurns : ℕ}

/-! ### What a compaction has to be -/

/-- The message asks for the call whose result the other is. -/
def Calls (caller result : ChatMessage) : Prop :=
  caller.role = .assistant ∧ result.role = .tool ∧
    ∃ call ∈ caller.toolCalls, result.toolCallId = some call.id

/-- The messages are an end of the history in which no result of a tool is without its call. -/
structure Kept (history suffix : List ChatMessage) : Prop where
  nonempty : suffix ≠ []
  isSuffix : suffix <:+ history
  head : ∀ message ∈ suffix.head?, message.role ≠ .tool
  paired : ∀ front before result after, suffix = before ++ result :: after →
    history = front ++ suffix → (∃ caller ∈ front ++ before, Calls caller result) →
      ∃ caller ∈ before, Calls caller result

inductive Compacted (history : List ChatMessage) : List ChatMessage → Prop
  | unchanged : Compacted history history
  | summarized {summary ack : ChatMessage} {suffix : List ChatMessage}
    (user : summary.role = .user) (assistant : ack.role = .assistant)
    (kept : Kept history suffix) : Compacted history (summary :: ack :: suffix)

/-! ### The cut -/

/-- The message at the index is the user's, and as many of the user's as given follow it. -/
def UserAt (history : List ChatMessage) (following i : ℕ) : Prop :=
  ∃ message, history[i]? = some message ∧ message.role = .user ∧
    (history.drop (i + 1)).countP (·.role = .user) = following

/-- Where the last turns begin: at a message of the user that is not the first of all messages, or
else two messages a turn from the end. -/
inductive FirstCut (history : List ChatMessage) (windowTurns : ℕ) : ℕ → Prop
  | turn {i : ℕ} (found : UserAt history (windowTurns - 1) (i + 1)) :
    FirstCut history windowTurns (i + 1)
  | count (none : ∀ i, ¬ UserAt history (windowTurns - 1) (i + 1)) :
    FirstCut history windowTurns (history.length - windowTurns * 2)

/-- The cut: after the results of tools at the first cut. -/
structure CutAt (history : List ChatMessage) (windowTurns cut : ℕ) : Prop where
  start : ∃ first ≤ cut, FirstCut history windowTurns first ∧
    ∀ i, first ≤ i → i < cut → ∃ message, history[i]? = some message ∧ message.role = .tool
  stop : ∀ message, history[cut]? = some message → message.role ≠ .tool

theorem UserAt.lt {n i : ℕ} (h : UserAt history n i) : i < history.length := by
  obtain ⟨message, hget, -⟩ := h
  exact (List.getElem?_eq_some_iff.mp hget).1

theorem userAt_snoc (history : List ChatMessage) (message : ChatMessage) (n i : ℕ) :
    UserAt (history ++ [message]) n i ↔
      if message.role = .user then
        (i = history.length ∧ n = 0) ∨ ∃ k, n = k + 1 ∧ UserAt history k i
      else UserAt history n i := by
  rcases Nat.lt_trichotomy i history.length with hlt | heq | hgt
  · have hget : (history ++ [message])[i]? = history[i]? := List.getElem?_append_left hlt
    have hdrop : (history ++ [message]).drop (i + 1) = history.drop (i + 1) ++ [message] :=
      drop_append_of_le_length hlt
    have hone : [message].countP (·.role = .user) = if message.role = .user then 1 else 0 := by
      rw [countP_singleton, if_congr decide_eq_true_iff rfl rfl]
    unfold UserAt
    rw [hget, hdrop, countP_append, hone]
    split_ifs with huser
    · constructor
      · rintro ⟨found, hfound, hrole, rfl⟩
        exact Or.inr ⟨_, rfl, found, hfound, hrole, rfl⟩
      · rintro (⟨heq, -⟩ | ⟨k, rfl, found, hfound, hrole, rfl⟩)
        · omega
        · exact ⟨found, hfound, hrole, rfl⟩
    · rfl
  · subst heq
    have hnone : history[history.length]? = none := List.getElem?_eq_none (Nat.le_refl _)
    have hget : (history ++ [message])[history.length]? = some message := by simp
    have hdrop : (history ++ [message]).drop (history.length + 1) = [] :=
      drop_eq_nil_of_le (by simp)
    unfold UserAt
    rw [hget, hnone, hdrop, countP_nil]
    split_ifs with huser
    · constructor
      · rintro ⟨found, hfound, -, hzero⟩
        exact Or.inl ⟨rfl, hzero.symm⟩
      · rintro (⟨-, hzero⟩ | ⟨k, -, found, hfound, -⟩)
        · exact ⟨message, rfl, huser, hzero.symm⟩
        · cases hfound
    · constructor
      · rintro ⟨found, hfound, hrole, -⟩
        obtain rfl := Option.some.inj hfound
        exact absurd hrole huser
      · rintro ⟨found, hfound, -⟩
        cases hfound
  · have hout : ∀ m, ¬ UserAt history m i := fun m h => absurd h.lt (by omega)
    have hout' : ¬ UserAt (history ++ [message]) n i := fun h => by
      have hlt := h.lt
      rw [length_append, length_singleton] at hlt
      omega
    split_ifs
    · refine iff_of_false hout' ?_
      rintro (⟨heq, -⟩ | ⟨k, -, hfound⟩)
      · omega
      · exact hout k hfound
    · exact iff_of_false hout' (hout n)

/-- **The loop over the turns** finds where the last of them begin. -/
theorem findTurn_eq_some (reversed : List ChatMessage) (turns i : ℕ) :
    findTurn turns reversed = some i ↔ UserAt reversed.reverse (turns - 1) i := by
  induction reversed generalizing turns with
  | nil =>
    refine iff_of_false (fun h => by cases h) ?_
    rintro ⟨message, hget, -⟩
    simp at hget
  | cons message rest ih =>
    rw [reverse_cons, userAt_snoc, findTurn, length_reverse]
    split_ifs with huser hlast
    · rw [Option.some.injEq, Nat.sub_eq_zero_of_le hlast]
      constructor
      · rintro rfl
        exact Or.inl ⟨rfl, rfl⟩
      · rintro (⟨rfl, -⟩ | ⟨k, hk, -⟩)
        · rfl
        · omega
    · rw [ih]
      constructor
      · intro h
        exact Or.inr ⟨turns - 1 - 1, by omega, h⟩
      · rintro (⟨-, hzero⟩ | ⟨k, hk, h⟩)
        · omega
        · rwa [show turns - 1 - 1 = k by omega]
    · exact ih turns

theorem userAt_unique {n i j : ℕ} (hi : UserAt history n i) (hj : UserAt history n j) : i = j := by
  have hfind : ∀ k, findTurn (n + 1) history.reverse = some k ↔ UserAt history n k := fun k => by
    rw [findTurn_eq_some, reverse_reverse, Nat.add_sub_cancel]
  exact Option.some.inj (((hfind i).mpr hi).symm.trans ((hfind j).mpr hj))

theorem firstCut_iff {first : ℕ} :
    FirstCut history windowTurns first ↔ first = firstCutoff history windowTurns := by
  have hfind : ∀ k, findTurn windowTurns history.reverse = some k ↔
      UserAt history (windowTurns - 1) k := fun k => by
    rw [findTurn_eq_some, reverse_reverse]
  have hexists : FirstCut history windowTurns (firstCutoff history windowTurns) := by
    unfold firstCutoff
    dsimp only
    rcases hfound : findTurn windowTurns history.reverse with _ | _ | i
    · rw [Option.getD_none, if_pos (Or.inl rfl)]
      refine .count fun i hi => ?_
      rw [(hfind _).mpr hi] at hfound
      cases hfound
    · rw [Option.getD_some, if_pos (Or.inl rfl)]
      refine .count fun i hi => ?_
      rw [(hfind _).mpr hi] at hfound
      cases hfound
    · have hlt := ((hfind _).mp hfound).lt
      rw [Option.getD_some, if_neg (by omega)]
      exact .turn ((hfind _).mp hfound)
  constructor
  · intro hfirst
    cases hfirst with
    | turn found =>
      generalize hcutoff : firstCutoff history windowTurns = cutoff at hexists
      cases hexists with
      | turn found' => exact userAt_unique found found'
      | count none => exact absurd found (none _)
    | count none =>
      generalize hcutoff : firstCutoff history windowTurns = cutoff at hexists
      cases hexists with
      | turn found' => exact absurd found' (none _)
      | count => rfl
  · rintro rfl
    exact hexists

theorem getElem?_takeWhile {α : Type} (p : α → Bool) (l : List α) :
    (∀ i < (l.takeWhile p).length, ∃ a, l[i]? = some a ∧ p a = true) ∧
      ∀ a, l[(l.takeWhile p).length]? = some a → p a = false := by
  induction l with
  | nil => exact ⟨fun i hi => absurd hi (Nat.not_lt_zero i), nofun⟩
  | cons b l ih =>
    by_cases hb : p b = true
    · rw [takeWhile_cons_of_pos hb, length_cons]
      refine ⟨fun i hi => ?_, fun a ha => ih.2 a (by simpa using ha)⟩
      rcases i with _ | i
      · exact ⟨b, rfl, hb⟩
      · obtain ⟨a, hget, ha⟩ := ih.1 i (Nat.lt_of_succ_lt_succ hi)
        exact ⟨a, by simpa using hget, ha⟩
    · rw [takeWhile_cons_of_neg hb]
      refine ⟨fun i hi => absurd hi (Nat.not_lt_zero i), fun a ha => ?_⟩
      obtain rfl : b = a := Option.some.inj ha
      simpa using hb

theorem cutAt_cutoffIndex : CutAt history windowTurns (cutoffIndex history windowTurns) := by
  unfold cutoffIndex
  dsimp only
  generalize hfirst : firstCutoff history windowTurns = first
  obtain ⟨htools, hstop⟩ := getElem?_takeWhile
    (fun m : ChatMessage => decide (m.role = .tool)) (history.drop first)
  refine ⟨⟨first, Nat.le_add_right _ _, firstCut_iff.mpr hfirst.symm, fun i hle hlt => ?_⟩, ?_⟩
  · obtain ⟨message, hget, htool⟩ := htools (i - first) (by omega)
    rw [List.getElem?_drop, Nat.add_sub_cancel' hle] at hget
    exact ⟨message, hget, of_decide_eq_true htool⟩
  · intro message hmessage
    rw [← List.getElem?_drop] at hmessage
    exact of_decide_eq_false (hstop message hmessage)

variable {cut : ℕ}

theorem cutAt_iff :
    CutAt history windowTurns cut ↔ cut = cutoffIndex history windowTurns := by
  have hcut := @cutAt_cutoffIndex history windowTurns
  constructor
  · intro h
    generalize cutoffIndex history windowTurns = other at hcut
    obtain ⟨first, hle, hfirst, htools⟩ := h.start
    obtain ⟨first', hle', hfirst', htools'⟩ := hcut.start
    obtain rfl : first = first' := (firstCut_iff.mp hfirst).trans (firstCut_iff.mp hfirst').symm
    rcases Nat.lt_trichotomy cut other with hlt | heq | hgt
    · obtain ⟨message, hget, htool⟩ := htools' cut hle hlt
      exact absurd htool (h.stop message hget)
    · exact heq
    · obtain ⟨message, hget, htool⟩ := htools other hle' hgt
      exact absurd htool (hcut.stop message hget)
  · rintro rfl
    exact hcut

/-! ### The lines of the summary -/

def size (line : List Char) : ℕ := (String.ofList line).utf8ByteSize

/-- Where the line is longer than 120 bytes, they are whole characters. -/
def Sliceable (line : List Char) : Prop :=
  120 < size line → ∃ front, front <+: line ∧ size front = 120

theorem size_cons (c : Char) (line : List Char) : size (c :: line) = c.utf8Size + size line := by
  unfold size
  rw [← length_asBytes, ← length_asBytes, asBytes_ofList, asBytes_ofList, flatMap_cons,
    length_append, String.length_utf8EncodeChar]

theorem takeBytes_eq_some (n : ℕ) (line front : List Char) :
    takeBytes n line = some front ↔ front <+: line ∧ size front = n := by
  induction line generalizing n front with
  | nil =>
    rw [prefix_nil]
    cases n with
    | zero =>
      rw [takeBytes, Option.some.injEq, eq_comm]
      exact ⟨fun h => ⟨h, h ▸ rfl⟩, fun h => h.1⟩
    | succ n =>
      refine iff_of_false nofun ?_
      rintro ⟨rfl, hsize⟩
      cases hsize
  | cons c line ih =>
    have hpos := Char.utf8Size_pos c
    cases n with
    | zero =>
      rw [takeBytes, Option.some.injEq]
      constructor
      · rintro rfl
        exact ⟨List.nil_prefix, rfl⟩
      · rintro ⟨hpre, hsize⟩
        rcases front with _ | ⟨d, front⟩
        · rfl
        · rw [size_cons] at hsize
          have hd := Char.utf8Size_pos d
          omega
    | succ n =>
      rw [takeBytes]
      split_ifs with hfits
      · rw [Option.map_eq_some_iff]
        constructor
        · rintro ⟨rest, hrest, rfl⟩
          obtain ⟨hpre, hsize⟩ := (ih _ _).mp hrest
          refine ⟨cons_prefix_cons.mpr ⟨rfl, hpre⟩, ?_⟩
          rw [size_cons]
          omega
        · rintro ⟨hpre, hsize⟩
          rcases front with _ | ⟨d, front⟩
          · cases hsize
          · obtain ⟨rfl, htail⟩ := cons_prefix_cons.mp hpre
            rw [size_cons] at hsize
            exact ⟨front, (ih _ _).mpr ⟨htail, by omega⟩, rfl⟩
      · refine iff_of_false nofun ?_
        rintro ⟨hpre, hsize⟩
        rcases front with _ | ⟨d, front⟩
        · cases hsize
        · obtain ⟨rfl, -⟩ := cons_prefix_cons.mp hpre
          rw [size_cons] at hsize
          omega

theorem snippet_eq_some {text snip : String} (h : snippet text = some snip) :
    Sliceable (firstLine text) ∧ snip.utf8ByteSize = min 120 (size (firstLine text)) := by
  unfold snippet at h
  dsimp only at h
  split_ifs at h with hlong
  · obtain ⟨front, hfront, rfl⟩ := Option.map_eq_some_iff.mp h
    obtain ⟨hpre, hsize⟩ := (takeBytes_eq_some _ _ _).mp hfront
    refine ⟨fun _ => ⟨front, hpre, hsize⟩, ?_⟩
    exact hsize.trans (Nat.min_eq_left (Nat.le_of_lt hlong)).symm
  · obtain rfl := Option.some.inj h
    exact ⟨fun hlong' => absurd hlong' hlong, (Nat.min_eq_right (Nat.not_lt.mp hlong)).symm⟩

theorem snippet_of_sliceable {text : String} (h : Sliceable (firstLine text)) :
    ∃ snip, snippet text = some snip := by
  unfold snippet
  dsimp only
  split_ifs with hlong
  · obtain ⟨front, hfront⟩ := h hlong
    exact ⟨_, by rw [(takeBytes_eq_some _ _ _).mpr hfront]; rfl⟩
  · exact ⟨_, rfl⟩

/-- The message goes into the summary. -/
def Quoted (role : MessageRole) (skipped : String) (message : ChatMessage) : Prop :=
  message.role = role ∧ ¬ (trim message.content).isEmpty ∧
    ¬ startsWith skipped (trim message.content)

instance (role : MessageRole) (skipped : String) : DecidablePred (Quoted role skipped) :=
  fun _ => inferInstanceAs (Decidable (_ ∧ _ ∧ _))

/-- The first lines of the messages that go into the summary. -/
def quotedLines (role : MessageRole) (skipped : String) (older : List ChatMessage) :
    List (List Char) :=
  (older.filter (Quoted role skipped)).map fun message => firstLine (trim message.content)

theorem mapM_summarized {role : MessageRole} {skipped : String} (older : List ChatMessage) :
    (∀ out, older.mapM (summarized role skipped) = some out →
      (∀ line ∈ quotedLines role skipped older, Sliceable line) ∧
      out.reduceOption.map String.utf8ByteSize =
        (quotedLines role skipped older).map fun line => min 120 (size line)) ∧
    ((∀ line ∈ quotedLines role skipped older, Sliceable line) →
      ∃ out, older.mapM (summarized role skipped) = some out) := by
  unfold quotedLines
  induction older with
  | nil =>
    refine ⟨?_, fun _ => ⟨[], rfl⟩⟩
    rintro out ⟨⟩
    exact ⟨fun line hline => absurd hline not_mem_nil, rfl⟩
  | cons message older ih =>
    obtain ⟨ihSome, ihAll⟩ := ih
    rw [mapM_cons]
    by_cases hquoted : Quoted role skipped message
    · have hhead : summarized role skipped message = (snippet (trim message.content)).map some :=
        if_pos hquoted
      rw [filter_cons, if_pos (decide_eq_true hquoted), hhead, map_cons,
        forall_mem_cons, map_cons]
      constructor
      · intro out hout
        simp only [Option.bind_eq_bind, Option.bind_eq_some_iff, Option.map_eq_some_iff,
          Option.pure_def, Option.some.injEq] at hout
        obtain ⟨_, ⟨snip, hsnip, rfl⟩, rest, hrest, rfl⟩ := hout
        obtain ⟨hslice, hsize⟩ := snippet_eq_some hsnip
        obtain ⟨hall, hsizes⟩ := ihSome rest hrest
        refine ⟨⟨hslice, hall⟩, ?_⟩
        rw [reduceOption_cons_of_some, map_cons, hsize, hsizes]
      · rintro ⟨hslice, hall⟩
        obtain ⟨snip, hsnip⟩ := snippet_of_sliceable hslice
        obtain ⟨rest, hrest⟩ := ihAll hall
        exact ⟨some snip :: rest, by rw [hsnip, hrest]; rfl⟩
    · have hhead : summarized role skipped message = some none := if_neg hquoted
      rw [filter_cons, if_neg (by simpa using hquoted), hhead]
      constructor
      · intro out hout
        simp only [Option.bind_eq_bind, Option.bind_some, Option.bind_eq_some_iff,
          Option.pure_def, Option.some.injEq] at hout
        obtain ⟨rest, hrest, rfl⟩ := hout
        rw [reduceOption_cons_of_none]
        exact ihSome rest hrest
      · intro hall
        obtain ⟨rest, hrest⟩ := ihAll hall
        exact ⟨none :: rest, by rw [hrest]; rfl⟩

/-! ### The size of the summary -/

def bulletedSize (lines : List (List Char)) : ℕ :=
  (lines.map fun line => 2 + min 120 (size line)).sum + (lines.length - 1)

def toolsSize (tools : List String) : ℕ :=
  if tools = [] then 4 else (tools.map String.utf8ByteSize).sum + 2 * (tools.length - 1)

/-- The bytes of the summary: its own 114, and those of the number of messages, of the first lines
and of the names of the tools. -/
def summarySize (cut : ℕ) (userRequests : List (List Char)) (tools : List String)
    (assistantSummaries : List (List Char)) : ℕ :=
  114 + (toString cut).utf8ByteSize + bulletedSize (userRequests.take 5) + toolsSize tools +
    bulletedSize (assistantSummaries.take 5)

theorem size_intercalate (sep : String) (lines : List String) :
    (sep.intercalate lines).utf8ByteSize =
      (lines.map String.utf8ByteSize).sum + sep.utf8ByteSize * (lines.length - 1) := by
  induction lines with
  | nil => rw [String.intercalate_nil]; rfl
  | cons line lines ih =>
    rcases lines with _ | ⟨next, rest⟩
    · rw [String.intercalate_singleton]
      simp
    · rw [String.intercalate_cons_cons, String.utf8ByteSize_append, String.utf8ByteSize_append, ih]
      simp only [map_cons, sum_cons, length_cons, Nat.add_sub_cancel, Nat.mul_add]
      omega

theorem size_bulleted {lines : List String} {quoted : List (List Char)}
    (h : lines.map String.utf8ByteSize = quoted.map fun line => min 120 (size line)) :
    (bulleted lines).utf8ByteSize = bulletedSize quoted := by
  have hlength : lines.length = quoted.length := by simpa using congrArg List.length h
  have hmap : (lines.map ("- " ++ ·)).map String.utf8ByteSize =
      quoted.map fun line => 2 + min 120 (size line) := by
    have hadd := congrArg (List.map (2 + ·)) h
    rw [map_map, map_map] at hadd
    rw [map_map]
    refine (map_congr_left fun line _ => ?_).trans hadd
    exact String.utf8ByteSize_append
  unfold bulleted bulletedSize
  rw [size_intercalate, hmap, length_map, hlength, show "\n".utf8ByteSize = 1 from rfl,
    Nat.one_mul]

theorem size_summaryText {users assistants : List String} {tools : List String}
    {userLines assistantLines : List (List Char)}
    (husers : users.map String.utf8ByteSize = userLines.map fun line => min 120 (size line))
    (hassistants : assistants.map String.utf8ByteSize =
      assistantLines.map fun line => min 120 (size line)) :
    (summaryText cut users tools assistants).utf8ByteSize =
      summarySize cut userLines tools assistantLines := by
  have htake : ∀ {lines : List String} {quoted : List (List Char)},
      lines.map String.utf8ByteSize = (quoted.map fun line => min 120 (size line)) →
      (bulleted (lines.take 5)).utf8ByteSize = bulletedSize (quoted.take 5) := fun h =>
    size_bulleted (by rw [map_take, map_take, h])
  have htools : (if tools = [] then "none" else ", ".intercalate tools).utf8ByteSize =
      toolsSize tools := by
    unfold toolsSize
    split_ifs
    · rfl
    · exact size_intercalate ", " tools
  unfold summaryText summarySize
  simp only [String.utf8ByteSize_append, htake husers, htake hassistants, htools]
  rw [show "[Historical Context Summary - Compressed ".utf8ByteSize = 41 from rfl,
    show " preceding messages]\nPrimary Objectives:\n".utf8ByteSize = 41 from rfl,
    show "\nTools Executed: ".utf8ByteSize = 17 from rfl,
    show "\nKey Progress:\n".utf8ByteSize = 15 from rfl]
  omega

/-! ### When the compaction is total -/

/-- A result after the cut whose call is only before it. -/
def Severed (history : List ChatMessage) (cut : ℕ) : Prop :=
  ∃ before result after, history.drop cut = before ++ result :: after ∧
    (∃ caller ∈ history.take cut, Calls caller result) ∧ ∀ caller ∈ before, ¬ Calls caller result

/-- The lines of the user and of the assistant that go into the summary. -/
def userLines (older : List ChatMessage) : List (List Char) :=
  quotedLines .user "[Historical Context Summary" older

def assistantLines (older : List ChatMessage) : List (List Char) :=
  quotedLines .assistant "Acknowledged historical" older

/-- What is left out can be summarized, and no call is left out whose result is kept. -/
structure Separable (json : JsonText) (history : List ChatMessage) (cut : ℕ) : Prop where
  users : ∀ line ∈ userLines (history.take cut), Sliceable line
  assistants : ∀ line ∈ assistantLines (history.take cut), Sliceable line
  fits : summarySize cut (userLines (history.take cut)) (toolsUsed json (history.take cut))
    (assistantLines (history.take cut)) ≤ maxMessageBytes
  paired : ¬ Severed history cut

theorem new_eq_ok {role : MessageRole} {content : String} {message : ChatMessage} :
    ChatMessage.new role content = .ok message ↔
      content ≠ "" ∧ content.utf8ByteSize ≤ maxMessageBytes ∧
        message = ⟨role, content, [], none⟩ := by
  unfold ChatMessage.new
  simp only [bind_eq_ok, ensure_eq_ok, pure_eq_ok, exists_const, String.isEmpty_iff,
    @eq_comm _ _ message, ne_eq]

/-- What is kept is an end of the history that does not begin with a result. -/
theorem kept_iff (hcut : CutAt history windowTurns cut) (hlt : cut < history.length) :
    Kept history (history.drop cut) ↔ ¬ Severed history cut := by
  constructor
  · rintro hkept ⟨before, result, after, hsplit, hcaller, hnone⟩
    obtain ⟨caller, hmem, hcalls⟩ := hkept.paired (history.take cut) before result after hsplit
      (take_append_drop cut history).symm (hcaller.imp fun caller h =>
        ⟨mem_append_left _ h.1, h.2⟩)
    exact hnone caller hmem hcalls
  · intro hsevered
    refine ⟨fun hnil => ?_, drop_suffix cut history, fun message hmessage => ?_, ?_⟩
    · rw [drop_eq_nil_iff] at hnil
      omega
    · rw [List.head?_drop] at hmessage
      exact hcut.stop message hmessage
    · rintro front before result after hsplit hfront ⟨caller, hmem, hcalls⟩
      obtain rfl : front = history.take cut := by
        refine append_cancel_right (hfront.symm.trans ?_)
        exact (take_append_drop cut history).symm
      rcases mem_append.mp hmem with hmem | hmem
      · by_contra hnone
        push Not at hnone
        exact hsevered ⟨before, result, after, hsplit, ⟨caller, hmem, hcalls⟩, hnone⟩
      · exact ⟨caller, hmem, hcalls⟩

theorem CutAt.le_length (h : CutAt history windowTurns cut) : cut ≤ history.length := by
  obtain ⟨first, -, hfirst, htools⟩ := h.start
  have hle : first ≤ history.length := by
    cases hfirst with
    | turn found => exact Nat.le_of_lt found.lt
    | count => exact Nat.sub_le _ _
  by_contra hlong
  obtain ⟨message, hget, -⟩ := htools history.length hle (by omega)
  rw [List.getElem?_eq_none (Nat.le_refl _)] at hget
  cases hget

theorem CutAt.pos (h : CutAt history windowTurns cut)
    (hlong : windowTurns * 2 < history.length) : 0 < cut := by
  obtain ⟨first, hle, hfirst, -⟩ := h.start
  cases hfirst with
  | turn found => omega
  | count => omega

theorem not_severed_of_same (hle : cut ≤ history.length) {summary ack : ChatMessage}
    (hsummary : summary.toolCalls = []) (hack : ack.toolCalls = [])
    (hsame : history = summary :: ack :: history.drop cut) : ¬ Severed history cut := by
  have hlength := congrArg List.length hsame
  rw [length_cons, length_cons, length_drop] at hlength
  obtain rfl : cut = 2 := by omega
  have htake : history.take 2 = [summary, ack] := by
    rw [hsame]
    rfl
  rintro ⟨before, result, after, -, ⟨caller, hmem, -, -, call, hcall, -⟩, -⟩
  rw [htake, mem_cons, mem_singleton] at hmem
  rcases hmem with rfl | rfl
  · rw [hsummary] at hcall
    exact not_mem_nil hcall
  · rw [hack] at hcall
    exact not_mem_nil hcall

theorem summaryText_ne_empty (cut : ℕ) (users tools assistants : List String) :
    summaryText cut users tools assistants ≠ "" := by
  intro hempty
  have hsize := congrArg String.utf8ByteSize hempty
  unfold summaryText at hsize
  simp only [String.utf8ByteSize_append] at hsize
  rw [show "\nTools Executed: ".utf8ByteSize = 17 from rfl, String.utf8ByteSize_empty] at hsize
  omega

theorem ack_ok (hcut : cut < 2 ^ 64) :
    ChatMessage.assistant (ackText cut) = .ok ⟨.assistant, ackText cut, [], none⟩ := by
  have hdigits := size_toString hcut
  have hsize : (ackText cut).utf8ByteSize = 116 + (toString cut).utf8ByteSize := by
    have hend : String.utf8ByteSize
        " messages compressed). Preserving context window invariants for active turns." = 77 := rfl
    unfold ackText
    rw [String.utf8ByteSize_append, String.utf8ByteSize_append, hend,
      show "Acknowledged historical session state (".utf8ByteSize = 39 from rfl]
    omega
  refine new_eq_ok.mpr ⟨fun hempty => ?_, ?_, rfl⟩
  · rw [hempty, String.utf8ByteSize_empty] at hsize
    omega
  · rw [hsize]
    unfold maxMessageBytes
    omega

/-- **History compaction is total and keeps tool pairing** exactly where the history is short, ends
with results of tools, or can be separated at the cut. -/
theorem compaction_total_iff (json : JsonText) (history : List ChatMessage) (windowTurns : ℕ)
    (hlength : history.length < 2 ^ 64) :
    (∃ compacted, compactSessionHistory json history windowTurns = .ok compacted ∧
      Compacted history compacted) ↔
    history.length ≤ windowTurns * 2 ∨ ∀ cut, CutAt history windowTurns cut →
      cut = history.length ∨ Separable json history cut := by
  unfold compactSessionHistory
  by_cases hshort : history.length ≤ windowTurns * 2
  · rw [if_pos hshort]
    exact iff_of_true ⟨history, rfl, .unchanged⟩ (Or.inl hshort)
  rw [if_neg hshort, or_iff_right hshort]
  simp only [cutAt_iff, forall_eq]
  have hcut := @cutAt_cutoffIndex history windowTurns
  generalize cutoffIndex history windowTurns = cut at hcut ⊢
  have hle := hcut.le_length
  have hpos := hcut.pos (by omega)
  by_cases hall : cut = history.length
  · rw [if_pos (Or.inl (by omega))]
    exact iff_of_true ⟨history, rfl, .unchanged⟩ (Or.inl hall)
  rw [if_neg (by omega), or_iff_right hall]
  constructor
  · rintro ⟨compacted, hcompact, hcompacted⟩
    simp only [bind_eq_ok, orError_eq_ok, mapError_eq_ok, pure_eq_ok] at hcompact
    obtain ⟨users, husers, assistants, hassistants, summary, hsummary, ack, hack, hcompacted'⟩ :=
      hcompact
    obtain ⟨husersAll, husersSize⟩ := (mapM_summarized _).1 users husers
    obtain ⟨hassistantsAll, hassistantsSize⟩ := (mapM_summarized _).1 assistants hassistants
    obtain ⟨-, hfits, hsummary⟩ := new_eq_ok.mp hsummary
    obtain ⟨-, -, hack⟩ := new_eq_ok.mp hack
    rw [size_summaryText husersSize hassistantsSize] at hfits
    refine ⟨husersAll, hassistantsAll, hfits, ?_⟩
    cases hcompacted with
    | unchanged =>
      exact not_severed_of_same hle (by rw [hsummary]) (by rw [hack]) hcompacted'.symm
    | summarized user assistant kept =>
      obtain ⟨-, htail⟩ := List.cons.inj hcompacted'
      obtain ⟨-, hsuffix⟩ := List.cons.inj htail
      exact (kept_iff hcut (by omega)).mp (hsuffix ▸ kept)
  · intro h
    obtain ⟨users, husers⟩ := (mapM_summarized _).2 h.users
    obtain ⟨assistants, hassistants⟩ := (mapM_summarized _).2 h.assistants
    have husersSize := ((mapM_summarized _).1 users husers).2
    have hassistantsSize := ((mapM_summarized _).1 assistants hassistants).2
    have hfits := h.fits
    unfold userLines assistantLines at hfits
    rw [← size_summaryText husersSize hassistantsSize] at hfits
    have hsummary : ChatMessage.user (summaryText cut users.reduceOption
        (toolsUsed json (history.take cut)) assistants.reduceOption) = .ok ⟨.user, _, [], none⟩ :=
      new_eq_ok.mpr ⟨summaryText_ne_empty _ _ _ _, hfits, rfl⟩
    have hkept := (kept_iff hcut (by omega)).mpr h.paired
    have hack := ack_ok (show cut < 2 ^ 64 by omega)
    refine ⟨⟨.user, summaryText cut users.reduceOption (toolsUsed json (history.take cut))
      assistants.reduceOption, [], none⟩ :: ⟨.assistant, ackText cut, [], none⟩ ::
        history.drop cut, ?_, .summarized rfl rfl hkept⟩
    simp only [bind_eq_ok, orError_eq_ok, mapError_eq_ok, pure_eq_ok]
    exact ⟨users, husers, assistants, hassistants, _, hsummary, _, hack, rfl⟩

/-- A reader and a writer for which no arguments are JSON. -/
def noJson : JsonText where
  write _ := none
  parse _ := none

/-- Two turns of the user; the call of the first has its result at the first cut. -/
def sampleHistory : List ChatMessage :=
  [⟨.user, "List the files", [], none⟩,
    ⟨.assistant, "", [⟨"call-1", "list", "{}"⟩], none⟩, ⟨.tool, "a.txt", [], some "call-1"⟩,
    ⟨.assistant, "There is one file.", [], none⟩, ⟨.user, "Thanks", [], none⟩,
    ⟨.assistant, "You are welcome.", [], none⟩]

theorem compaction_total_sample :
    cutoffIndex sampleHistory 2 = 3 ∧
      ∃ compacted, compactSessionHistory noJson sampleHistory 2 = .ok compacted ∧
        Compacted sampleHistory compacted := by
  have hcut : cutoffIndex sampleHistory 2 = 3 := by decide +kernel
  refine ⟨hcut, (compaction_total_iff noJson sampleHistory 2 (by decide)).mpr (Or.inr ?_)⟩
  intro cut h
  obtain rfl : cut = 3 := (cutAt_iff.mp h).trans hcut
  refine Or.inr ⟨?_, ?_, ?_, ?_⟩
  · intro line hline hlong
    have hall : ∀ line ∈ userLines (sampleHistory.take 3), size line ≤ 120 := by decide +kernel
    exact absurd (hall line hline) (Nat.not_le.mpr hlong)
  · intro line hline hlong
    have hall : ∀ line ∈ assistantLines (sampleHistory.take 3), size line ≤ 120 := by
      decide +kernel
    exact absurd (hall line hline) (Nat.not_le.mpr hlong)
  · decide +kernel
  · rintro ⟨before, result, after, hsplit, ⟨caller, -, -, htool, -⟩, -⟩
    have hall : ∀ message ∈ sampleHistory.drop 3, message.role ≠ .tool := by decide +kernel
    refine hall result ?_ htool
    rw [hsplit]
    simp

theorem multibyte_line_panics :
    compactSessionHistory noJson
      [⟨.user, String.ofList (List.replicate 119 'a' ++ ['é']), [], none⟩,
        ⟨.assistant, "Done.", [], none⟩, ⟨.user, "Thanks", [], none⟩] 1 = .error .panicked := by
  decide +kernel

end Pandora.Agent.Messages
