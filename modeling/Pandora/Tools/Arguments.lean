import Pandora.Tools.Invocation

/-! # Arguments after the intent

A call is written as a text and split again; `Tool.request` and `Tool.payload` are what the call
asks for, and `Survives` says which calls come out so. A path with a colon is cut at the colon, a
left path with a bar at the bar, and the compiler that can be chosen is no action of its Gene; every
other call comes out as it went in (`arguments_survive`). -/

namespace Pandora.Tools.Arguments

open Text Lib.Checked List
open Cron (splitOnce toAsciiLowercase)
open Tools.Invocation

variable {tool : Tool} {arguments : Value} {invocation : ToolInvocation}

/-! ### Splitting -/

/-- A text is split where it was joined, if the first part has no separator. -/
theorem splitOnce_append {separator : Char} {left right joined : String}
    (hjoined : joined.toList = [separator]) :
    splitOnce separator (left ++ joined ++ right) = some (left, right) ↔
      separator ∉ left.toList := by
  unfold splitOnce
  rw [String.toList_append, String.toList_append, hjoined]
  by_cases hmem : separator ∈ left.toList
  · refine iff_of_false ?_ (not_not_intro hmem)
    split
    · rename_i head rest hdrop
      intro h
      rw [Option.some.injEq, Prod.mk.injEq] at h
      rw [← h.1, String.toList_ofList] at hmem
      have hne := mem_takeWhile_imp hmem
      simp at hne
    · intro h
      cases h
  · refine iff_of_true ?_ hmem
    have hall : ∀ c ∈ left.toList, decide (c ≠ separator) = true := by
      intro c hc
      rw [decide_eq_true_eq]
      rintro rfl
      exact hmem hc
    have hdrop : (left.toList ++ [separator] ++ right.toList).dropWhile (· ≠ separator) =
        separator :: right.toList := by
      rw [append_assoc, dropWhile_append_of_pos hall]
      simp
    have htake : (left.toList ++ [separator] ++ right.toList).takeWhile (· ≠ separator) =
        left.toList := by
      rw [append_assoc, takeWhile_append_of_pos hall]
      simp
    rw [hdrop, htake, String.ofList_toList]
    dsimp only
    rw [String.ofList_toList]

theorem actionOf_append {action remainder : String} (hcolon : ':' ∉ action.toList)
    (hlower : toAsciiLowercase action = action) :
    actionOf (action ++ ":" ++ remainder) = (action, remainder) := by
  have hsplit : splitOnce ':' (action ++ ":" ++ remainder) = some (action, remainder) :=
    (splitOnce_append rfl).mpr hcolon
  unfold actionOf
  rw [hsplit]
  dsimp only [Option.getD_some]
  rw [hlower]

/-! ### What a call asks for -/

def textArgument (arguments : Value) (name : String) : String :=
  ((arguments.get? name).bind Value.asStr).getD ""

def requestOf (arguments : Value) : Tool → Request
  | .workspaceRead => .coding (.read (textArgument arguments "path"))
  | .workspaceSearch => .coding (.search (textArgument arguments "query"))
  | .workspacePatch => .coding (.patch (textArgument arguments "path")
      (contentArgument arguments "content" "replacement"))
  | .workspaceReplace => .coding (.patch (textArgument arguments "path")
      (contentArgument arguments "replacement" "content"))
  | .workspaceVerify => .coding .verify
  | .workspaceTest => .coding .test
  | .workspaceFormat => .coding .format
  | .workspaceLint => .coding .lint
  | .workspaceBuild => .coding .build
  | .workspaceStatus => .coding .status
  | .workspaceDiff => .coding .diff
  | .workspaceLog => .coding .log
  | .workspaceRefs => .coding .refs
  | .daedalusAudit => .coding .audit
  | .argusReview => .coding (.argusReview (textArgument arguments "path"))
  | .ariadneDebt => .coding .debt
  | .hephaestusMeasure => .coding .measure
  | .evidenceInventory => .research .inventory
  | .evidenceSearch => .research (.search (textArgument arguments "query"))
  | .sourceRead => .research (.read (textArgument arguments "path"))
  | .sourceCompare => .research (.compare (textArgument arguments "left")
      (textArgument arguments "right"))
  | .browserFetch => .research (.fetch (textArgument arguments "url"))
  | .citationInventory => .research .citationInventory
  | .designInventory => .design .inventory
  | .designTokens => .design .tokens
  | .designInspect => .design (.inspect (textArgument arguments "path"))
  | .designCompare => .design (.compare (textArgument arguments "left")
      (textArgument arguments "right"))
  | .accessibilityEvidence => .design .accessibilityEvidence

/-- The bytes that are written, or the URL that is fetched. -/
def payloadOf (arguments : Value) : Tool → Option (List UInt8)
  | .workspacePatch => some (asBytes (contentArgument arguments "content" "replacement"))
  | .workspaceReplace => some (asBytes (contentArgument arguments "replacement" "content"))
  | .browserFetch => some (asBytes (textArgument arguments "url"))
  | _ => none

/-- The calls whose arguments come out of the intent. -/
def Survives (arguments : Value) : Tool → Prop
  | .workspacePatch | .workspaceReplace => ':' ∉ (textArgument arguments "path").toList
  | .sourceCompare | .designCompare => '|' ∉ (textArgument arguments "left").toList
  | .workspaceVerify | .workspaceBuild =>
      (arguments.get? "compiler").bind Value.asStr ≠ some "blaze"
  | _ => True

/-! ### The intent of a call -/

variable {action name summary : String}

theorem requiredTextArgument_eq_ok {value : String}
    (h : requiredTextArgument arguments name = .ok value) :
    value = textArgument arguments name := by
  unfold requiredTextArgument at h
  simp only [bind_eq_ok, orError_eq_ok, pure_eq_ok] at h
  obtain ⟨text, htext, -, -, rfl⟩ := h
  unfold textArgument
  rw [htext, Option.getD_some]

theorem taskIntent_eq_ok {text : String} (h : taskIntent text = .ok summary) : summary = text := by
  unfold taskIntent at h
  simp only [bind_eq_ok, pure_eq_ok] at h
  obtain ⟨-, -, rfl⟩ := h
  rfl

theorem action_plain (hcolon : ':' ∉ action.toList) (hlower : toAsciiLowercase action = action)
    (h : taskIntent action = .ok summary) : actionOf summary = (action, "") := by
  have hnone : splitOnce ':' action = none := by
    unfold splitOnce
    have hdrop : action.toList.dropWhile (· ≠ ':') = [] := by
      rw [dropWhile_eq_nil_iff]
      intro c hc
      rw [decide_eq_true_eq]
      rintro rfl
      exact hcolon hc
    rw [hdrop]
  rw [taskIntent_eq_ok h]
  unfold actionOf
  rw [hnone]
  dsimp only [Option.getD_none]
  rw [hlower]

theorem action_text (hcolon : ':' ∉ action.toList) (hlower : toAsciiLowercase action = action)
    (h : taskFromArgument arguments action name = .ok summary) :
    actionOf summary = (action, textArgument arguments name) := by
  unfold taskFromArgument at h
  rw [bind_eq_ok] at h
  obtain ⟨value, hvalue, h⟩ := h
  rw [taskIntent_eq_ok h, actionOf_append hcolon hlower, requiredTextArgument_eq_ok hvalue]

theorem action_patch {other : String} (h : patchTask arguments name other = .ok summary) :
    actionOf summary = ("patch",
      textArgument arguments "path" ++ ":" ++ contentArgument arguments name other) := by
  unfold patchTask at h
  rw [bind_eq_ok] at h
  obtain ⟨path, hpath, h⟩ := h
  have hjoin : "patch:" ++ path ++ ":" ++ contentArgument arguments name other =
      "patch" ++ ":" ++ (path ++ ":" ++ contentArgument arguments name other) := by
    have hpatch : "patch:" = "patch" ++ ":" := by decide
    rw [hpatch]
    simp only [String.append_assoc]
  rw [taskIntent_eq_ok h, hjoin, actionOf_append (by decide) (by decide),
    requiredTextArgument_eq_ok hpath]

theorem action_compiler (hcolon : ':' ∉ action.toList) (hlower : toAsciiLowercase action = action)
    (h : compilerTask arguments action = .ok summary) :
    actionOf summary = (action,
      if (arguments.get? "compiler").bind Value.asStr = some "blaze" then "blaze" else "") := by
  unfold compilerTask at h
  split_ifs at h ⊢ with hblaze
  · have hjoin : action ++ ":blaze" = action ++ ":" ++ "blaze" := by
      have hsuffix : ":blaze" = ":" ++ "blaze" := by decide
      rw [hsuffix, String.append_assoc]
    rw [taskIntent_eq_ok h, hjoin, actionOf_append hcolon hlower]
  · exact action_plain hcolon hlower h

theorem action_compare (hcolon : ':' ∉ action.toList) (hlower : toAsciiLowercase action = action)
    (h : compareTask arguments action = .ok summary) :
    actionOf summary = (action,
      textArgument arguments "left" ++ "|" ++ textArgument arguments "right") := by
  unfold compareTask at h
  simp only [bind_eq_ok] at h
  obtain ⟨left, hleft, right, hright, h⟩ := h
  have hjoin : action ++ ":" ++ left ++ "|" ++ right = action ++ ":" ++ (left ++ "|" ++ right) := by
    simp only [String.append_assoc]
  rw [taskIntent_eq_ok h, hjoin, actionOf_append hcolon hlower, requiredTextArgument_eq_ok hleft,
    requiredTextArgument_eq_ok hright]

/-! ### The input -/

variable {gene : Gene} {remainder : String} {payload : Option (List UInt8)}

theorem codingInput_eq_ok {request : CodingRequest}
    (hact : actionOf summary = (action, remainder)) :
    codingInput summary gene = .ok (.coding request, payload) ↔
      codingRequest action remainder gene = .ok request ∧
        (if gene = .patchApply then (splitOnce ':' remainder).map (asBytes ·.2) else none) =
          payload := by
  unfold codingInput
  rw [hact]
  simp only [bind_eq_ok, pure_eq_ok, Prod.mk.injEq, Request.coding.injEq]
  constructor
  · rintro ⟨_, hrequest, rfl, hpayload⟩
    exact ⟨hrequest, hpayload⟩
  · rintro ⟨hrequest, hpayload⟩
    exact ⟨request, hrequest, rfl, hpayload⟩

theorem researchInput_eq_ok {request : ResearchRequest}
    (hact : actionOf summary = (action, remainder)) :
    researchInput summary gene = .ok (.research request, payload) ↔
      researchRequest action remainder gene = .ok request ∧
        (if gene = .browserFetch then some (asBytes remainder) else none) = payload := by
  unfold researchInput
  rw [hact]
  simp only [bind_eq_ok, pure_eq_ok, Prod.mk.injEq, Request.research.injEq]
  constructor
  · rintro ⟨_, hrequest, rfl, hpayload⟩
    exact ⟨hrequest, hpayload⟩
  · rintro ⟨hrequest, hpayload⟩
    exact ⟨request, hrequest, rfl, hpayload⟩

theorem designInput_eq_ok {request : DesignRequest}
    (hact : actionOf summary = (action, remainder)) :
    designInput summary gene = .ok (.design request, none) ↔
      designRequest action remainder gene = .ok request := by
  unfold designInput
  rw [hact]
  simp only [bind_eq_ok, pure_eq_ok, Prod.mk.injEq, Request.design.injEq, and_true]
  constructor
  · rintro ⟨_, hrequest, rfl⟩
    exact hrequest
  · intro hrequest
    exact ⟨request, hrequest, rfl⟩

/-- Two arguments come out as they went in if the first has no separator. -/
theorem splitArgument_joined {α : Type} {guard : Prop} [Decidable guard] {separator : Char}
    {left right joined error : String} {request : String → String → α}
    (hinj : ∀ a b c d, request a b = request c d → a = c ∧ b = d) (hguard : guard)
    (hjoined : joined.toList = [separator]) :
    splitArgument guard separator (left ++ joined ++ right) error request =
        .ok (request left right) ↔
      separator ∉ left.toList := by
  unfold splitArgument guarded
  rw [if_pos hguard, ← splitOnce_append hjoined]
  simp only [ok_bind, bind_eq_ok, orError_eq_ok, pure_eq_ok, Prod.exists]
  constructor
  · rintro ⟨first, second, hsplit, hrequest⟩
    obtain ⟨rfl, rfl⟩ := hinj _ _ _ _ hrequest
    exact hsplit
  · intro hsplit
    exact ⟨left, right, hsplit, rfl⟩

theorem patch_survives {other : String} (h : patchTask arguments name other = .ok summary) :
    codingInput summary .patchApply = .ok (.coding
          (.patch (textArgument arguments "path") (contentArgument arguments name other)),
            some (asBytes (contentArgument arguments name other))) ↔
      ':' ∉ (textArgument arguments "path").toList := by
  have hsplit := @splitOnce_append ':' (textArgument arguments "path")
    (contentArgument arguments name other) ":" rfl
  have hinj : ∀ a b c d, CodingRequest.patch a b = .patch c d → a = c ∧ b = d := by
    intro a b c d h
    exact CodingRequest.patch.inj h
  rw [codingInput_eq_ok (action_patch h), codingRequest, splitArgument_joined hinj rfl rfl,
    if_pos rfl]
  constructor
  · intro hok
    exact hok.1
  · intro hcolon
    rw [hsplit.mpr hcolon]
    exact ⟨hcolon, rfl⟩

theorem compiler_survives {request : CodingRequest} (hcolon : ':' ∉ action.toList)
    (hlower : toAsciiLowercase action = action) (hgene : gene ≠ .patchApply)
    (hrequest : ∀ remainder, codingRequest action remainder gene =
      guarded (action = action ∧ remainder = "") request)
    (h : compilerTask arguments action = .ok summary) :
    codingInput summary gene = .ok (.coding request, none) ↔
      (arguments.get? "compiler").bind Value.asStr ≠ some "blaze" := by
  rw [codingInput_eq_ok (action_compiler hcolon hlower h), hrequest, if_neg hgene, guarded]
  by_cases hblaze : (arguments.get? "compiler").bind Value.asStr = some "blaze"
  · rw [if_pos hblaze, if_neg (by simp)]
    exact iff_of_false (fun hok => by cases hok.1) (not_not_intro hblaze)
  · rw [if_neg hblaze, if_pos ⟨rfl, rfl⟩]
    exact iff_of_true ⟨rfl, rfl⟩ hblaze

/-- The arguments of a call that is accepted come out of its intent exactly if no separator is where
it would be taken for another, and no other compiler is asked for. -/
theorem arguments_survive (h : prepareInvocation tool arguments = .ok invocation) :
    geneInput invocation = .ok (requestOf arguments tool, payloadOf arguments tool) ↔
      Survives arguments tool := by
  unfold prepareInvocation at h
  simp only [bind_eq_ok, pure_eq_ok] at h
  obtain ⟨-, -, summary, htask, rfl⟩ := h
  cases tool
  case workspacePatch => exact patch_survives htask
  case workspaceReplace => exact patch_survives htask
  case workspaceVerify =>
    show codingInput summary .verificationRun = _ ↔ _
    exact compiler_survives (by decide) (by decide) (by decide) (fun _ => rfl) htask
  case workspaceBuild =>
    show codingInput summary .buildCheck = _ ↔ _
    exact compiler_survives (by decide) (by decide) (by decide) (fun _ => rfl) htask
  case sourceCompare =>
    have hinj : ∀ a b c d, ResearchRequest.compare a b = .compare c d → a = c ∧ b = d := by
      intro a b c d h
      exact ResearchRequest.compare.inj h
    show researchInput summary .sourceCompare = _ ↔ _
    refine (researchInput_eq_ok (action_compare (by decide) (by decide) htask)).trans ?_
    exact (and_iff_left rfl).trans (splitArgument_joined hinj rfl rfl)
  case designCompare =>
    have hinj : ∀ a b c d, DesignRequest.compare a b = .compare c d → a = c ∧ b = d := by
      intro a b c d h
      exact DesignRequest.compare.inj h
    refine (designInput_eq_ok (action_compare (by decide) (by decide) htask)).trans ?_
    exact splitArgument_joined hinj rfl rfl
  case workspaceRead | workspaceSearch | argusReview =>
    exact iff_of_true ((codingInput_eq_ok (action_text (by decide) (by decide) htask)).mpr
      ⟨rfl, rfl⟩) trivial
  case evidenceSearch | sourceRead | browserFetch =>
    exact iff_of_true ((researchInput_eq_ok (action_text (by decide) (by decide) htask)).mpr
      ⟨rfl, rfl⟩) trivial
  case designInspect =>
    exact iff_of_true ((designInput_eq_ok (action_text (by decide) (by decide) htask)).mpr rfl)
      trivial
  case evidenceInventory | citationInventory =>
    exact iff_of_true ((researchInput_eq_ok (action_plain (by decide) (by decide) htask)).mpr
      ⟨rfl, rfl⟩) trivial
  case designInventory | designTokens | accessibilityEvidence =>
    exact iff_of_true ((designInput_eq_ok (action_plain (by decide) (by decide) htask)).mpr rfl)
      trivial
  all_goals
    exact iff_of_true ((codingInput_eq_ok (action_plain (by decide) (by decide) htask)).mpr
      ⟨rfl, rfl⟩) trivial

/-- The calls with a colon in the content and a bar on the right. -/
theorem arguments_survive_sample :
    (∃ invocation, prepareInvocation .workspacePatch (.object [("content", .string "a:b|c"),
        ("path", .string "README.md")]) = .ok invocation ∧
      geneInput invocation = .ok (.coding (.patch "README.md" "a:b|c"),
        some (asBytes "a:b|c"))) := by
  obtain ⟨invocation, h⟩ : ∃ invocation, prepareInvocation .workspacePatch
      (.object [("content", .string "a:b|c"), ("path", .string "README.md")]) = .ok invocation :=
    ⟨⟨.workspacePatch, "patch:README.md:a:b|c", .coding, .patchApply⟩, by decide +kernel⟩
  exact ⟨invocation, h, (arguments_survive h).mpr (by
    show ':' ∉ ("README.md" : String).toList
    decide)⟩

/-- A path with a colon is cut, and the other compiler is refused. -/
theorem arguments_lost :
    (∃ invocation, prepareInvocation .workspacePatch (.object [("content", .string "text"),
        ("path", .string "notes:old.md")]) = .ok invocation ∧
      geneInput invocation = .ok (.coding (.patch "notes" "old.md:text"),
        some (asBytes "old.md:text"))) ∧
    ∃ invocation, prepareInvocation .workspaceVerify (.object [("compiler", .string "blaze")]) =
        .ok invocation ∧
      geneInput invocation = .error ⟨"intent does not match the selected Gene"⟩ := by
  refine ⟨⟨⟨.workspacePatch, "patch:notes:old.md:text", .coding, .patchApply⟩, ?_, ?_⟩,
    ⟨.workspaceVerify, "verify:blaze", .coding, .verificationRun⟩, ?_, ?_⟩
  · decide +kernel
  · decide +kernel
  · decide +kernel
  · decide +kernel

end Pandora.Tools.Arguments
