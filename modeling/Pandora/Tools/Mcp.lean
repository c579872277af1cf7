import Pandora.Ids
import Pandora.Lib.SortedMaps
import Pandora.Tools.Invocation

/-! # The tools of MCP servers

The tools of a server are registered under the names `mcp.<server>.<tool>`. Both names may contain a
dot, so a tool of the server `a` and one of the server `a.b` may have the same name; no two others
of different servers have (`localId_eq_iff`). Servers whose tools have different names do not get
into each other's way. -/

namespace Pandora.Tools.Mcp

open Text Lib.Checked Lib.SortedMaps Ids List
open Tools.Invocation (Value)

def maxTools : ℕ := 128

inductive McpWireEra
  | modern | legacy

/-- The errors of an import. -/
inductive McpError
  | unsupportedPagination | invalidToolList | invalidToolName | unsupportedSchema | duplicateTool
  | duplicateServer | invalidResult | requestRejected
deriving DecidableEq

/-! ## Definitions -/

/-- `is_ascii_alphanumeric`, or one of the three separators. -/
def nameChar (c : Char) : Bool := c.isAlphanum || c == '_' || c == '-' || c == '.'

def validateName (value : String) (maxLen : ℕ) : Except McpError Unit :=
  ensure (¬ value.isEmpty ∧ value.utf8ByteSize ≤ maxLen ∧ value.toList.all nameChar)
    .invalidToolName

def asObject : Value → Option (List (String × Value))
  | .object fields => some fields
  | _ => none

def asArray : Value → Option (List Value)
  | .array values => some values
  | _ => none

def isBoolean : Value → Bool
  | .bool _ => true
  | _ => false

def text? (value : Value) (key : String) : Option String := (value.get? key).bind Value.asStr

def validateProperty (field : String × Value) : Except McpError Unit := do
  ensure (¬ field.1.isEmpty ∧ field.1.utf8ByteSize ≤ 128 ∧ ¬ field.1.toList.any isControl)
    .unsupportedSchema
  let property ← orError (asObject field.2) .unsupportedSchema
  ensure (property.all fun entry => entry.1 ∈ ["type", "description"]) .unsupportedSchema
  let propertyType ← orError (text? field.2 "type") .unsupportedSchema
  ensure (propertyType ∈ ["array", "boolean", "integer", "null", "number", "object", "string"] ∧
    ((field.2.get? "description").all fun value => value.asStr.isSome)) .unsupportedSchema

def validateSchemaSubset (schema : Value) : Except McpError Unit := do
  let fields ← orError (asObject schema) .unsupportedSchema
  ensure ((fields.all fun entry =>
      entry.1 ∈ ["type", "properties", "required", "additionalProperties"]) ∧
    text? schema "type" = some "object") .unsupportedSchema
  ensure ((schema.get? "additionalProperties").all isBoolean) .unsupportedSchema
  let properties ← orError (asObject ((schema.get? "properties").getD (.object [])))
    .unsupportedSchema
  properties.forM validateProperty
  match schema.get? "required" with
  | none => pure ()
  | some required => do
    let names := (← orError (asArray required) .unsupportedSchema).map Value.asStr
    ensure ((names.all fun name => properties.any fun entry => name = some entry.1) ∧ names.Nodup)
      .unsupportedSchema

/-- The version, the capability and the operation are the same in all definitions. -/
structure ToolDefinition where
  id : GeneId
  name : String
  inputSchema : Value

/-- `ToolDefinition::new`, its errors as `map_tool_error` maps them; what `validate_schema` asks for
beyond the two kinds is in `validateSchemaSubset`. -/
def ToolDefinition.new (id name : String) (inputSchema : Value) :
    Except McpError ToolDefinition := do
  let id ← (Id.new id).mapError fun _ => .unsupportedSchema
  ensure (¬ (trim name).isEmpty ∧ (trim name).utf8ByteSize ≤ 4096 ∧
    ¬ (trim name).toList.any isControl) .unsupportedSchema
  ensure (text? inputSchema "type" = some "object" ∧
    ((inputSchema.get? "properties").all fun value => (asObject value).isSome) ∧
    ((inputSchema.get? "required").all fun value =>
      (asArray value).any fun names => names.all fun name => name.asStr.isSome)) .unsupportedSchema
  pure ⟨id, trim name, inputSchema⟩

/-- A tool under its local id, with its remote name. -/
structure ImportedTool where
  definition : ToolDefinition
  remoteName : String

def localId (serverId remoteName : String) : String := "mcp." ++ serverId ++ "." ++ remoteName

/-- The loop over the tools of a list; `remoteNames` are the names it has met. -/
def importTools (serverId : String) : List String → List Value →
    Except McpError (List ImportedTool)
  | _, [] => .ok []
  | remoteNames, tool :: tools => do
    let _ ← orError (asObject tool) .invalidToolList
    let remoteName ← orError (text? tool "name") .invalidToolName
    validateName remoteName 128
    ensure (remoteName ∉ remoteNames) .duplicateTool
    ensure ((tool.get? "outputSchema").isNone ∧ (tool.get? "execution").isNone) .unsupportedSchema
    let schema ← orError (tool.get? "inputSchema") .unsupportedSchema
    validateSchemaSubset schema
    let description := (text? tool "description").getD remoteName
    let definition ← ToolDefinition.new (localId serverId remoteName) description schema
    let imported ← importTools serverId (remoteName :: remoteNames) tools
    pure (⟨definition, remoteName⟩ :: imported)

def checkResultType (era : McpWireEra) (result : Value) : Except McpError Unit :=
  match era with
  | .modern => ensure (text? result "resultType" = some "complete") .invalidResult
  | .legacy => ensure (result.get? "resultType").isNone .invalidResult

def definitionsFromListForEra (serverId : String) (era : McpWireEra) (result : Value) :
    Except McpError (List ImportedTool) := do
  validateName serverId 64
  let _ ← orError (asObject result) .invalidToolList
  checkResultType era result
  ensure ((result.get? "nextCursor").all fun cursor => cursor matches .null) .unsupportedPagination
  let tools ← orError ((result.get? "tools").bind asArray) .invalidToolList
  ensure (tools.length ≤ maxTools) .invalidToolList
  importTools serverId [] tools

/-! ## The registry -/

/-- The registered definitions. -/
abbrev ToolEngine := SortedMap GeneId ToolDefinition

def registerBatch (registered : ToolEngine) (definitions : List ToolDefinition) :
    Except McpError ToolEngine := do
  ensure ((∀ definition ∈ definitions, registered.get? definition.id = none) ∧
    (definitions.map (·.id)).Nodup) .duplicateTool
  pure (definitions.foldl (fun engine definition => engine.insert definition.id definition)
    registered)

def unregisterBatch (registered : ToolEngine) (ids : List GeneId) : ToolEngine :=
  registered.filterMap fun id definition => if id ∈ ids then none else some definition

structure McpServer where
  serverId : String
  remoteNames : List (String × String)
  importedIds : List GeneId
  active : Bool

def McpServer.remoteTool (server : McpServer) (localTool : String) : Option String :=
  (server.remoteNames.find? (·.1 = localTool)).map (·.2)

def McpServer.terminate (server : McpServer) (engine : ToolEngine) : McpServer × ToolEngine :=
  if server.active then ({ server with active := false }, unregisterBatch engine server.importedIds)
  else (server, engine)

/-- `validate_identity` of the catalog. -/
def validIdentity (value : String) : Bool :=
  !value.isEmpty && decide (value.utf8ByteSize ≤ 4096) && !value.toList.any isControl

/-- The server whose tools are registered. -/
def served (serverId : String) (imported : List ImportedTool) : McpServer where
  serverId
  remoteNames := imported.map fun tool => (tool.definition.id.text, tool.remoteName)
  importedIds := imported.map (·.definition.id)
  active := true

/-- `import_server`; `activated` is what the catalog says when the tools have been registered. -/
def importServer (engine : ToolEngine) (serverId : String) (era : McpWireEra) (listed : Value)
    (activated : Except McpError Unit) : Except McpError McpServer × ToolEngine :=
  match definitionsFromListForEra serverId era listed with
  | .error error => (.error error, engine)
  | .ok imported =>
    if ¬ imported.all fun tool =>
        validIdentity tool.definition.id.text && validIdentity tool.remoteName then
      (.error .requestRejected, engine)
    else match registerBatch engine (imported.map (·.definition)) with
      | .error error => (.error error, engine)
      | .ok registered => match activated with
        | .error error =>
          (.error error, unregisterBatch registered (imported.map (·.definition.id)))
        | .ok () => (.ok (served serverId imported), registered)

/-! ## Names -/

variable {serverId serverId' : String} {era era' : McpWireEra} {listed listed' : Value}
  {tools tools' : List ImportedTool} {engine : ToolEngine}

/-- The names of two servers and of one tool of each give the same local name. -/
def Collide (serverId serverId' remoteName remoteName' : String) : Prop :=
  ∃ middle, (serverId' = serverId ++ "." ++ middle ∧ remoteName = middle ++ "." ++ remoteName') ∨
    (serverId = serverId' ++ "." ++ middle ∧ remoteName' = middle ++ "." ++ remoteName)

theorem localId_eq_iff {remoteName remoteName' : String} (hne : serverId ≠ serverId') :
    localId serverId remoteName = localId serverId' remoteName' ↔
      Collide serverId serverId' remoteName remoteName' := by
  -- one server name goes on behind the other
  have hlonger : ∀ {s s' r r' : List Char}, s ≠ s' → ∀ c, s' = s ++ c → '.' :: r = c ++ '.' :: r' →
      ∃ middle, s' = s ++ '.' :: middle ∧ r = middle ++ '.' :: r' := by
    intro s s' r r' hne c hc hr
    rcases c with _ | ⟨d, middle⟩
    · exact absurd (hc.trans (append_nil s)).symm hne
    · obtain ⟨rfl, htail⟩ := List.cons.inj hr
      exact ⟨middle, hc, htail⟩
  have hchars : serverId.toList ≠ serverId'.toList := fun h => hne (String.toList_inj.mp h)
  constructor
  · intro h
    have heq := congrArg String.toList h
    simp only [localId, String.toList_append, append_assoc, append_cancel_left_eq] at heq
    rcases append_eq_append_iff.mp heq with
      ⟨c, hc, (hr : '.' :: remoteName.toList = c ++ '.' :: remoteName'.toList)⟩ |
      ⟨c, hc, (hr : '.' :: remoteName'.toList = c ++ '.' :: remoteName.toList)⟩
    · obtain ⟨middle, hs, hr⟩ := hlonger hchars c hc hr
      refine ⟨.ofList middle, .inl ⟨?_, ?_⟩⟩ <;> rw [String.ext_iff] <;> simp [hs, hr]
    · obtain ⟨middle, hs, hr⟩ := hlonger hchars.symm c hc hr
      refine ⟨.ofList middle, .inr ⟨?_, ?_⟩⟩ <;> rw [String.ext_iff] <;> simp [hs, hr]
  · rintro ⟨middle, ⟨rfl, rfl⟩ | ⟨rfl, rfl⟩⟩
    all_goals simp [localId, String.append_assoc]

/-- What an accepted list says about its tools. -/
structure Listed (serverId : String) (tools : List ImportedTool) : Prop where
  ids : ∀ tool ∈ tools, tool.definition.id.text = localId serverId tool.remoteName
  names : (tools.map (·.remoteName)).Nodup
  valid : ∀ tool ∈ tools, validateName tool.remoteName 128 = .ok ()
  server : validateName serverId 64 = .ok ()

theorem importTools_listed : ∀ {seen : List String} {values : List Value}
    {tools : List ImportedTool}, validateName serverId 64 = .ok () →
    importTools serverId seen values = .ok tools →
    Listed serverId tools ∧ ∀ tool ∈ tools, tool.remoteName ∉ seen
  | _, [], _, hserver, h => by
    cases h
    exact ⟨⟨nofun, nodup_nil, nofun, hserver⟩, nofun⟩
  | seen, value :: values, tools, hserver, h => by
    simp only [importTools, ToolDefinition.new, bind_eq_ok, ensure_eq_ok, orError_eq_ok,
      mapError_eq_ok, exists_const, pure_eq_ok] at h
    obtain ⟨-, -, name, -, ⟨⟩, hvalid, hseen, -, -, -, ⟨⟩, -, definition, ⟨id, hid, -, -, rfl⟩,
      rest, hrest, rfl⟩ := h
    obtain ⟨hlisted, hfresh⟩ := importTools_listed hserver hrest
    refine ⟨⟨forall_mem_cons.mpr ⟨Id.new_eq_ok hid, hlisted.ids⟩, ?_,
      forall_mem_cons.mpr ⟨hvalid, hlisted.valid⟩, hserver⟩, ?_⟩
    · rw [map_cons, nodup_cons]
      refine ⟨fun hmem => ?_, hlisted.names⟩
      obtain ⟨tool, htool, hname⟩ := mem_map.mp hmem
      exact hfresh tool htool (hname ▸ mem_cons_self)
    · exact forall_mem_cons.mpr ⟨hseen, fun tool htool hmem =>
        hfresh tool htool (mem_cons_of_mem _ hmem)⟩

theorem definitions_listed (h : definitionsFromListForEra serverId era listed = .ok tools) :
    Listed serverId tools := by
  simp only [definitionsFromListForEra, bind_eq_ok, orError_eq_ok] at h
  obtain ⟨⟨⟩, hserver, -, -, -, -, -, -, values, -, -, -, h⟩ := h
  exact (importTools_listed hserver h).1

theorem nodup_ids (h : Listed serverId tools) : (tools.map (·.definition.id)).Nodup := by
  refine (nodup_map_iff_inj_on h.names.of_map).mpr fun tool hmem tool' hmem' hid => ?_
  refine inj_on_of_nodup_map h.names hmem hmem' ?_
  have htext := congrArg Id.text hid
  rw [h.ids tool hmem, h.ids tool' hmem'] at htext
  exact (String.append_right_inj _).mp htext

theorem nameChar_plain {c : Char} (h : nameChar c = true) : isControl c = false := by
  have hrange : 45 ≤ c.toNat ∧ c.toNat ≤ 122 := by
    simp only [nameChar, Char.isAlphanum, Char.isAlpha, Char.isUpper, Char.isLower, Char.isDigit,
      Bool.or_eq_true, Bool.and_eq_true, decide_eq_true_eq, beq_iff_eq] at h
    rcases h with ((((⟨hlow, hhigh⟩ | ⟨hlow, hhigh⟩) | ⟨hlow, hhigh⟩) | rfl) | rfl) | rfl
    any_goals exact ⟨Nat.le_trans (by decide) hlow, Nat.le_trans hhigh (by decide)⟩
    all_goals decide
  simp only [isControl, Bool.or_eq_false_iff, Bool.and_eq_false_iff, decide_eq_false_iff_not]
  omega

theorem validName_eq_ok {value : String} {maxLen : ℕ} (h : validateName value maxLen = .ok ()) :
    value.isEmpty = false ∧ value.utf8ByteSize ≤ maxLen ∧
      ∀ c ∈ value.toList, isControl c = false := by
  simp only [validateName, ensure_eq_ok, Bool.not_eq_true, all_eq_true] at h
  exact ⟨h.1, h.2.1, fun c hc => nameChar_plain (h.2.2 c hc)⟩

theorem identities_valid (h : Listed serverId tools) :
    (tools.all fun tool =>
      validIdentity tool.definition.id.text && validIdentity tool.remoteName) = true := by
  rw [all_eq_true]
  intro tool hmem
  obtain ⟨hne, hsize, hplain⟩ := validName_eq_ok (h.valid tool hmem)
  obtain ⟨-, -, hplain'⟩ := validName_eq_ok h.server
  have hid : ∀ c ∈ tool.definition.id.text.toList, isControl c = false := by
    have hparts : ∀ c ∈ "mcp.".toList, isControl c = false := by
      have hall : ("mcp.".toList.all fun c => !isControl c) = true := by decide
      simpa using hall
    rw [h.ids tool hmem]
    simp only [localId, String.toList_append, mem_append]
    rintro c (((hc | hc) | hc) | hc)
    · exact hparts c hc
    · exact hplain' c hc
    · exact hparts c (by rw [mem_singleton.mp hc]; decide)
    · exact hplain c hc
  have hnonempty : tool.definition.id.text.isEmpty = false := by
    refine Bool.eq_false_iff.mpr fun hempty => tool.definition.id.nonblank ?_
    rw [String.isEmpty_iff.mp hempty]
    decide
  have hshort := tool.definition.id.short
  simp only [validIdentity, Bool.and_eq_true, Bool.not_eq_true', decide_eq_true_eq,
    any_eq_false]
  exact ⟨⟨⟨hnonempty, by omega⟩, fun c hc => by rw [hid c hc]; decide⟩, ⟨hne, by omega⟩,
    fun c hc => by rw [hplain c hc]; decide⟩

theorem get?_registerBatch {definitions : List ToolDefinition} {engine' : ToolEngine}
    (h : registerBatch engine definitions = .ok engine') (k : GeneId) :
    engine'.get? k = (definitions.find? (·.id = k)).or (engine.get? k) := by
  simp only [registerBatch, bind_eq_ok, ensure_eq_ok, exists_const, pure_eq_ok] at h
  obtain ⟨⟨-, hnodup⟩, rfl⟩ := h
  have hpairs : (definitions.map fun definition => (definition.id, definition)).Pairwise
      fun a b => a.1 ≠ b.1 := pairwise_map.mpr (pairwise_map.mp hnodup)
  have hfold := @SortedMap.get?_foldl_insert _ _ _ _ engine hpairs k
  rw [foldl_map, List.find?_map, Option.map_map] at hfold
  rw [hfold]
  simp [Function.comp_def]

/-! ## Two servers -/

/-- The calls of the first server's tools go to this server, under their own names. -/
def Routes (serverId serverId' : String) (tools tools' : List ImportedTool) : Prop :=
  ∀ tool ∈ tools,
    (served serverId tools).remoteTool tool.definition.id.text = some tool.remoteName ∧
      (served serverId' tools').remoteTool tool.definition.id.text = none

/-- The tools are still registered when the server has been terminated. -/
def Outlive (engine : ToolEngine) (server : McpServer) (tools : List ImportedTool) : Prop :=
  ∀ tool ∈ tools,
    (server.terminate engine).2.get? tool.definition.id = some tool.definition

/-- Two servers that do not get into each other's way; `engine` has the tools of the first. -/
structure Apart (engine : ToolEngine) (serverId serverId' : String)
    (tools tools' : List ImportedTool) (era' : McpWireEra) (listed' : Value) : Prop where
  distinct : ((tools ++ tools').map (·.definition.id)).Nodup
  imports : ∃ engine',
    importServer engine serverId' era' listed' (.ok ()) = (.ok (served serverId' tools'), engine') ∧
      Outlive engine' (served serverId' tools') tools ∧
      Outlive engine' (served serverId tools) tools'
  routes : Routes serverId serverId' tools tools'
  routes' : Routes serverId' serverId tools' tools

def Distinct (tools tools' : List ImportedTool) : Prop :=
  ∀ tool ∈ tools, ∀ tool' ∈ tools', tool.definition.id ≠ tool'.definition.id

theorem routes_of_distinct (h : Listed serverId tools) (hdistinct : Distinct tools tools') :
    Routes serverId serverId' tools tools' := by
  intro tool hmem
  have hfind :
      tools.find? (fun t => t.definition.id.text = tool.definition.id.text) = some tool := by
    refine @find?_of_nodup _ _ _ (fun t : ImportedTool => t.definition.id.text) _ _ ?_ hmem
    have hmap := (nodup_ids h).map (f := Id.text) fun _ _ => Id.ext_text
    rwa [map_map] at hmap
  have hnone : tools'.find? (fun t => t.definition.id.text = tool.definition.id.text) = none := by
    refine List.find?_eq_none.mpr fun tool' hmem' => ?_
    rw [decide_eq_true_eq]
    exact fun htext => hdistinct tool hmem tool' hmem' (Id.ext_text htext).symm
  constructor
  · simp [McpServer.remoteTool, served, List.find?_map, hfind]
  · simp [McpServer.remoteTool, served, List.find?_map, hnone]

theorem outlive_of_distinct
    (hget : ∀ tool ∈ tools, engine.get? tool.definition.id = some tool.definition)
    (hdistinct : Distinct tools tools') : Outlive engine (served serverId' tools') tools := by
  intro tool hmem
  have hnone : tool.definition.id ∉ tools'.map (·.definition.id) := by
    intro hid
    obtain ⟨tool', hmem', heq⟩ := mem_map.mp hid
    exact hdistinct tool hmem tool' hmem' heq.symm
  show (engine.filterMap _).get? _ = _
  rw [SortedMap.get?_filterMap, hget tool hmem, Option.bind_some]
  exact if_neg hnone

/-- A server is imported beside another whose tools are the only ones that might be in its way, and
the two are apart, if and only if no tool of the one collides with a tool of the other. -/
theorem apart_iff (hne : serverId ≠ serverId')
    (h : definitionsFromListForEra serverId era listed = .ok tools)
    (h' : definitionsFromListForEra serverId' era' listed' = .ok tools')
    (hheld : ∀ tool ∈ tools, engine.get? tool.definition.id = some tool.definition)
    (hothers : ∀ tool' ∈ tools', engine.get? tool'.definition.id ≠ none →
      ∃ tool ∈ tools, tool.definition.id = tool'.definition.id) :
    Apart engine serverId serverId' tools tools' era' listed' ↔
      ∀ tool ∈ tools, ∀ tool' ∈ tools',
        ¬ Collide serverId serverId' tool.remoteName tool'.remoteName := by
  have hlisted := definitions_listed h
  have hlisted' := definitions_listed h'
  have hid : ∀ tool ∈ tools, ∀ tool' ∈ tools', tool.definition.id = tool'.definition.id ↔
      Collide serverId serverId' tool.remoteName tool'.remoteName := by
    intro tool hmem tool' hmem'
    rw [← localId_eq_iff hne, ← hlisted.ids tool hmem, ← hlisted'.ids tool' hmem']
    exact ⟨congrArg Id.text, Id.ext_text⟩
  constructor
  · intro hapart tool hmem tool' hmem' hcollide
    have hdistinct := hapart.distinct
    rw [map_append, nodup_append] at hdistinct
    exact hdistinct.2.2 _ (mem_map_of_mem hmem) _ (mem_map_of_mem hmem')
      ((hid tool hmem tool' hmem').mpr hcollide)
  · intro hnone
    have hdistinct : Distinct tools tools' := fun tool hmem tool' hmem' heq =>
      hnone tool hmem tool' hmem' ((hid tool hmem tool' hmem').mp heq)
    have hdistinct' : Distinct tools' tools := fun tool' hmem' tool hmem =>
      (hdistinct tool hmem tool' hmem').symm
    have hnodup' : ((tools'.map (·.definition)).map (·.id)).Nodup := by
      rw [map_map]
      exact nodup_ids hlisted'
    have hfree : ∀ definition ∈ tools'.map (·.definition), engine.get? definition.id = none := by
      intro definition hmem
      obtain ⟨tool', hmem', rfl⟩ := mem_map.mp hmem
      by_contra hsome
      obtain ⟨tool, htool, heq⟩ := hothers tool' hmem' hsome
      exact hdistinct tool htool tool' hmem' heq
    refine ⟨?_, ?_, routes_of_distinct hlisted hdistinct, routes_of_distinct hlisted' hdistinct'⟩
    · rw [map_append, nodup_append]
      refine ⟨nodup_ids hlisted, nodup_ids hlisted', fun id hmem id' hmem' => ?_⟩
      obtain ⟨tool, htool, rfl⟩ := mem_map.mp hmem
      obtain ⟨tool', htool', rfl⟩ := mem_map.mp hmem'
      exact hdistinct tool htool tool' htool'
    · obtain ⟨engine', hregister⟩ :
          ∃ engine', registerBatch engine (tools'.map (·.definition)) = .ok engine' := by
        unfold registerBatch
        rw [ensure, if_pos ⟨hfree, hnodup'⟩]
        exact ⟨_, rfl⟩
      refine ⟨engine', ?_, outlive_of_distinct (fun tool hmem => ?_) hdistinct,
        outlive_of_distinct (fun tool' hmem' => ?_) hdistinct'⟩
      · unfold importServer
        rw [h']
        dsimp only
        rw [if_neg (not_not_intro (identities_valid hlisted')), hregister]
      · have hnone : (tools'.map (·.definition)).find? (·.id = tool.definition.id) = none := by
          refine List.find?_eq_none.mpr fun definition hmem' => ?_
          obtain ⟨tool', htool', rfl⟩ := mem_map.mp hmem'
          simpa using (hdistinct tool hmem tool' htool').symm
        rw [get?_registerBatch hregister, hnone, hheld tool hmem, Option.none_or]
      · have hfind := find?_of_nodup hnodup' (mem_map_of_mem hmem')
        rw [get?_registerBatch hregister, hfind, Option.some_or]

/-- The answer of a server with one tool. -/
def listOf (remoteName : String) : Value :=
  .object [("tools", .array [.object
    [("inputSchema", .object [("type", .string "object")]), ("name", .string remoteName)]])]

def readTool : ImportedTool :=
  ⟨⟨.ofLiteral "mcp.a.read", "read", .object [("type", .string "object")]⟩, "read"⟩

def writeTool : ImportedTool :=
  ⟨⟨.ofLiteral "mcp.b.read", "read", .object [("type", .string "object")]⟩, "read"⟩

theorem servers_apart_sample :
    Apart (SortedMap.empty.insert readTool.definition.id readTool.definition) "a" "b" [readTool]
      [writeTool] .legacy (listOf "read") := by
  refine (@apart_iff "a" "b" .legacy .legacy (listOf "read") (listOf "read") _ _ _ (by decide) rfl
    rfl (forall_mem_singleton.mpr rfl) (forall_mem_singleton.mpr fun h => absurd rfl h)).mpr ?_
  refine forall_mem_singleton.mpr (forall_mem_singleton.mpr ?_)
  exact (localId_eq_iff (by decide)).not.mp (by decide)

end Pandora.Tools.Mcp
