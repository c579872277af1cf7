import Pandora.Lib.Kahn
import Pandora.Lib.SortedMaps
import Pandora.Memory.Sop

/-! # The order of the steps of a procedure

`execution_order` is Kahn's algorithm over the steps of a procedure: it finds what `Lib.Kahn.drain`
finds over their identifiers (`drain_eq`), for the graph in which a step has an edge to those that
depend on it. `ready_steps` looks at the dependencies themselves. -/

namespace Pandora.Memory.Sop

open Lib.Checked Lib.Graphs Lib.Kahn Lib.SortedMaps Relation List Function

namespace SopDefinition

/-- `ready_steps`. -/
def readySteps (sop : SopDefinition) (completed : List String) : List SopStep :=
  sop.steps.filter fun step =>
    step.id ∉ completed && step.dependsOn.all fun dep => decide (dep ∈ completed)

/-- The identifiers of the steps. -/
def ids (steps : List SopStep) : List String := steps.map SopStep.id

/-- The step with the second identifier depends on the first. -/
def Requires (steps : List SopStep) (dep id : String) : Prop :=
  ∃ step ∈ steps, step.id = id ∧ dep ∈ step.dependsOn

/-! ### The checks -/

/-- The text passes its check. -/
def Passes (check : Except MemoryContractError String) : Prop := ∃ text, check = .ok text

structure StepTexts (step : SopStep) : Prop where
  id : Passes (validateText "step id" step.id)
  name : Passes (validateText "step name" step.name)
  command : Passes (validateMultilineText "step command" step.command)
  dependencies : ∀ dep ∈ step.dependsOn, Passes (validateText "step dependency" dep)

/-- The texts of a procedure pass their checks, and it has a step. -/
structure Texts (sop : SopDefinition) : Prop where
  id : Passes (validateText "SOP id" sop.id)
  name : Passes (validateText "SOP name" sop.name)
  verification : ∀ cmd, sop.verificationCommand = some cmd →
    Passes (validateMultilineText "verification command" cmd)
  nonempty : sop.steps ≠ []
  steps : ∀ step ∈ sop.steps, StepTexts step

/-- The dependencies of a procedure are those of a graph without a cycle. -/
structure Dependencies (steps : List SopStep) : Prop where
  unique : (ids steps).Nodup
  distinct : ∀ step ∈ steps, step.dependsOn.Nodup
  known : ∀ step ∈ steps, ∀ dep ∈ step.dependsOn, dep ∈ ids steps
  notSelf : ∀ step ∈ steps, step.id ∉ step.dependsOn
  acyclic : Acyclic (Requires steps)

/-- What is checked of a step before its dependencies are. -/
def StepHead (step : SopStep) : Prop :=
  Passes (validateText "step id" step.id) ∧ Passes (validateText "step name" step.name) ∧
    Passes (validateMultilineText "step command" step.command)

theorem checkStep_eq_ok (stepIds : List String) (step : SopStep) (out : List String) :
    checkStep stepIds step = .ok out ↔
      StepHead step ∧ step.id ∉ stepIds ∧ out = step.id :: stepIds := by
  unfold checkStep StepHead Passes
  simp only [bind_eq_ok, ensure_eq_ok, pure_eq_ok, exists_const]
  constructor
  · rintro ⟨id, hid, name, hname, command, hcommand, hfresh, rfl⟩
    exact ⟨⟨⟨id, hid⟩, ⟨name, hname⟩, ⟨command, hcommand⟩⟩, hfresh, rfl⟩
  · rintro ⟨⟨⟨id, hid⟩, ⟨name, hname⟩, ⟨command, hcommand⟩⟩, hfresh, rfl⟩
    exact ⟨id, hid, name, hname, command, hcommand, hfresh, rfl⟩

/-- What a loop accepts that checks each element and keeps the keys it has seen. -/
theorem foldlM_seen_eq_ok {α : Type} {key : α → String} {P : α → Prop}
    {check : List String → α → Except MemoryContractError (List String)}
    (hcheck : ∀ seen a out, check seen a = .ok out ↔ P a ∧ key a ∉ seen ∧ out = key a :: seen) :
    ∀ {l : List α} {seen out : List String}, l.foldlM check seen = .ok out ↔
      (∀ a ∈ l, P a) ∧ ((l.map key).Nodup ∧ ∀ a ∈ l, key a ∉ seen) ∧
        out = (l.map key).reverse ++ seen
  | [], seen, out => by
    rw [foldlM_nil, pure_eq_ok]
    simp [eq_comm]
  | a :: l, seen, out => by
    simp only [foldlM_cons, bind_eq_ok, hcheck, foldlM_seen_eq_ok hcheck]
    constructor
    · rintro ⟨seen', ⟨hP, hfresh, rfl⟩, hall, ⟨hnodup, hseen⟩, rfl⟩
      refine ⟨forall_mem_cons.mpr ⟨hP, hall⟩, ⟨?_, ?_⟩, ?_⟩
      · rw [map_cons, nodup_cons]
        refine ⟨fun hmem => ?_, hnodup⟩
        obtain ⟨b, hb, hkey⟩ := mem_map.mp hmem
        exact hseen b hb (hkey ▸ mem_cons_self)
      · refine forall_mem_cons.mpr ⟨hfresh, fun b hb hmem => ?_⟩
        exact hseen b hb (mem_cons_of_mem _ hmem)
      · rw [map_cons, reverse_cons, append_assoc]
        rfl
    · rintro ⟨hall, ⟨hnodup, hseen⟩, rfl⟩
      rw [map_cons, nodup_cons] at hnodup
      refine ⟨key a :: seen, ⟨hall a mem_cons_self, hseen a mem_cons_self, rfl⟩,
        fun b hb => hall b (mem_cons_of_mem _ hb), ⟨hnodup.2, fun b hb hmem => ?_⟩, ?_⟩
      · rcases mem_cons.mp hmem with hkey | hmem
        · exact hnodup.1 (hkey ▸ mem_map_of_mem hb)
        · exact hseen b (mem_cons_of_mem _ hb) hmem
      · rw [map_cons, reverse_cons, append_assoc]
        rfl

/-- What is checked of a dependency alone. -/
def DependencyHead (stepIds : List String) (step : SopStep) (dep : String) : Prop :=
  Passes (validateText "step dependency" dep) ∧ dep ≠ step.id ∧ dep ∈ stepIds

variable {step : SopStep}

theorem checkDependency_eq_ok {stepIds : List String} (seen : List String)
    (dep : String) (out : List String) :
    checkDependency stepIds step seen dep = .ok out ↔
      DependencyHead stepIds step dep ∧ dep ∉ seen ∧ out = dep :: seen := by
  unfold checkDependency DependencyHead Passes
  simp only [bind_eq_ok, ensure_eq_ok, pure_eq_ok, exists_const]
  constructor
  · rintro ⟨text, htext, hfresh, hself, hknown, rfl⟩
    exact ⟨⟨⟨text, htext⟩, hself, hknown⟩, hfresh, rfl⟩
  · rintro ⟨⟨⟨text, htext⟩, hself, hknown⟩, hfresh, rfl⟩
    exact ⟨text, htext, hfresh, hself, hknown, rfl⟩

theorem dependencies_eq_ok {stepIds : List String} :
    (∃ out, step.dependsOn.foldlM (checkDependency stepIds step) [] = .ok out) ↔
      (∀ dep ∈ step.dependsOn, DependencyHead stepIds step dep) ∧ step.dependsOn.Nodup := by
  have hloop := fun out => @foldlM_seen_eq_ok String (fun dep => dep) _ _
    (@checkDependency_eq_ok step stepIds) step.dependsOn [] out
  constructor
  · rintro ⟨out, hout⟩
    obtain ⟨hall, ⟨hnodup, -⟩, -⟩ := (hloop out).mp hout
    exact ⟨hall, by simpa using hnodup⟩
  · rintro ⟨hall, hnodup⟩
    exact ⟨_, (hloop _).mpr ⟨hall, ⟨by simpa using hnodup, fun _ _ => not_mem_nil⟩, rfl⟩⟩

theorem steps_eq_ok {sop : SopDefinition} :
    (do ensure (sop.steps ≠ []) (MemoryContractError.emptyField "steps")
        let stepIds ← sop.steps.foldlM checkStep []
        sop.steps.forM fun step => do
          let _ ← step.dependsOn.foldlM (checkDependency stepIds step) []
        ensure (sop.executionOrder.length = sop.steps.length) .dependencyCycle) =
      (.ok () : Except MemoryContractError Unit) ↔
    sop.steps ≠ [] ∧ (∀ step ∈ sop.steps, StepHead step) ∧ (ids sop.steps).Nodup ∧
      (∀ step ∈ sop.steps, (∀ dep ∈ step.dependsOn, DependencyHead (ids sop.steps) step dep) ∧
        step.dependsOn.Nodup) ∧ sop.executionOrder.length = sop.steps.length := by
  -- the order in which the identifiers were collected does not matter
  have hheads : ∀ step, (∀ dep ∈ step.dependsOn,
      DependencyHead ((ids sop.steps).reverse ++ []) step dep) ↔
      ∀ dep ∈ step.dependsOn, DependencyHead (ids sop.steps) step dep := by
    intro step
    unfold DependencyHead
    simp only [append_nil, mem_reverse]
  have heach : ∀ {stepIds : List String}, (sop.steps.forM fun step => do
      let _ ← step.dependsOn.foldlM (checkDependency stepIds step) []) =
        (.ok () : Except MemoryContractError Unit) ↔
      ∀ step ∈ sop.steps, (∀ dep ∈ step.dependsOn, DependencyHead stepIds step dep) ∧
        step.dependsOn.Nodup := by
    intro stepIds
    refine forM_eq_ok.trans (forall₂_congr fun step _ => ?_)
    rw [bind_eq_ok, ← dependencies_eq_ok]
    simp only [pure_eq_ok, and_true]
  simp only [bind_eq_ok, ensure_eq_ok, exists_const, heach, foldlM_seen_eq_ok checkStep_eq_ok]
  constructor
  · rintro ⟨hne, stepIds, ⟨hhead, ⟨hnodup, -⟩, rfl⟩, hdeps, hlength⟩
    exact ⟨hne, hhead, hnodup, fun step hstep => (hdeps step hstep).imp_left (hheads step).mp,
      hlength⟩
  · rintro ⟨hne, hhead, hnodup, hdeps, hlength⟩
    refine ⟨hne, _, ⟨hhead, ⟨hnodup, fun _ _ => not_mem_nil⟩, rfl⟩, fun step hstep => ?_,
      hlength⟩
    exact (hdeps step hstep).imp_left (hheads step).mpr

/-- **What `validate` accepts**, up to the length of the order. -/
theorem validate_eq_ok {sop : SopDefinition} :
    sop.validate = .ok () ↔ Texts sop ∧ (ids sop.steps).Nodup ∧
      (∀ step ∈ sop.steps, (∀ dep ∈ step.dependsOn, dep ≠ step.id ∧ dep ∈ ids sop.steps) ∧
        step.dependsOn.Nodup) ∧ sop.executionOrder.length = sop.steps.length := by
  have hrest : sop.validate = .ok () ↔ Passes (validateText "SOP id" sop.id) ∧
      Passes (validateText "SOP name" sop.name) ∧
      (∀ cmd, sop.verificationCommand = some cmd →
        Passes (validateMultilineText "verification command" cmd)) ∧
      sop.steps ≠ [] ∧ (∀ step ∈ sop.steps, StepHead step) ∧ (ids sop.steps).Nodup ∧
      (∀ step ∈ sop.steps, (∀ dep ∈ step.dependsOn, DependencyHead (ids sop.steps) step dep) ∧
        step.dependsOn.Nodup) ∧ sop.executionOrder.length = sop.steps.length := by
    rw [← steps_eq_ok]
    unfold validate Passes
    cases sop.verificationCommand with
    | none =>
      simp only [bind_eq_ok]
      constructor
      · rintro ⟨id, hid, name, hname, hsteps⟩
        exact ⟨⟨id, hid⟩, ⟨name, hname⟩, ⟨by rintro _ ⟨⟩, hsteps⟩⟩
      · rintro ⟨⟨id, hid⟩, ⟨name, hname⟩, -, hsteps⟩
        exact ⟨id, hid, name, hname, hsteps⟩
    | some cmd =>
      simp only [bind_eq_ok, Option.some.injEq, forall_eq']
      constructor
      · rintro ⟨id, hid, name, hname, text, htext, hsteps⟩
        exact ⟨⟨id, hid⟩, ⟨name, hname⟩, ⟨text, htext⟩, hsteps⟩
      · rintro ⟨⟨id, hid⟩, ⟨name, hname⟩, ⟨text, htext⟩, hsteps⟩
        exact ⟨id, hid, name, hname, text, htext, hsteps⟩
  rw [hrest]
  constructor
  · rintro ⟨hid, hname, hcmd, hne, hhead, hnodup, hdeps, hlength⟩
    refine ⟨⟨hid, hname, hcmd, hne, fun step hstep => ?_⟩, hnodup, fun step hstep => ?_, hlength⟩
    · obtain ⟨hstepId, hstepName, hcommand⟩ := hhead step hstep
      exact ⟨hstepId, hstepName, hcommand, fun dep hdep => ((hdeps step hstep).1 dep hdep).1⟩
    · exact ⟨fun dep hdep => ((hdeps step hstep).1 dep hdep).2, (hdeps step hstep).2⟩
  · rintro ⟨htexts, hnodup, hdeps, hlength⟩
    refine ⟨htexts.id, htexts.name, htexts.verification, htexts.nonempty, fun step hstep => ?_,
      hnodup, fun step hstep => ⟨fun dep hdep => ?_, (hdeps step hstep).2⟩, hlength⟩
    · have htext := htexts.steps step hstep
      exact ⟨htext.id, htext.name, htext.command⟩
    · exact ⟨(htexts.steps step hstep).dependencies dep hdep, (hdeps step hstep).1 dep hdep⟩

/-! ### The graph of the steps -/

/-- `dependents`, read as a function to lists. -/
def dependentsOf (steps : List SopStep) (id : String) : List String :=
  (dependents steps id).getD []

theorem getD_foldl_dependsOn (deps : List String) (child : String)
    (map : String → Option (List String)) (u : String) :
    ((deps.foldl (fun map dep =>
      Function.update map dep (some ((map dep).getD [] ++ [child]))) map) u).getD [] =
      (map u).getD [] ++ List.replicate (deps.count u) child := by
  induction deps generalizing map with
  | nil => simp
  | cons dep deps ih =>
    rw [foldl_cons, ih]
    by_cases hu : u = dep
    · subst hu
      rw [update_self, Option.getD_some, count_cons_self, append_assoc,
        replicate_succ]
      rfl
    · rw [update_of_ne hu, count_cons_of_ne (Ne.symm hu)]

theorem dependentsOf_eq (steps : List SopStep) (u : String) :
    dependentsOf steps u =
      steps.flatMap fun step => List.replicate (step.dependsOn.count u) step.id := by
  have hfold : ∀ (l : List SopStep) (map : String → Option (List String)),
      ((l.foldl (fun map step => step.dependsOn.foldl
        (fun map dep => Function.update map dep (some ((map dep).getD [] ++ [step.id]))) map)
        map) u).getD [] =
      (map u).getD [] ++ l.flatMap fun step => List.replicate (step.dependsOn.count u) step.id := by
    intro l
    induction l with
    | nil => simp
    | cons step l ih =>
      intro map
      rw [foldl_cons, ih, getD_foldl_dependsOn, flatMap_cons, append_assoc]
  exact hfold steps _

variable {steps : List SopStep}

theorem mem_dependentsOf {u v : String} :
    v ∈ dependentsOf steps u ↔ Requires steps u v := by
  rw [dependentsOf_eq, mem_flatMap]
  unfold Requires
  refine exists_congr fun step => and_congr_right fun _ => ?_
  rw [mem_replicate, Ne, count_eq_zero, not_not, eq_comm, and_comm]

/-- The entry of a step before others with other identifiers is the one that is found first. -/
theorem find?_or_update {β : Type} (f : SopStep → β) {s : SopStep} {l : List SopStep}
    (hnot : s.id ∉ ids l) (entries : String → Option β) (v : String) :
    ((l.find? fun t => t.id = v).map f).or (Function.update entries s.id (some (f s)) v) =
      (((s :: l).find? fun t => t.id = v).map f).or (entries v) := by
  by_cases hv : s.id = v
  · have hrest : l.find? (fun t => t.id = v) = none := by
      rw [List.find?_eq_none]
      intro t ht
      rw [decide_eq_true_eq]
      rintro heq
      exact hnot (hv.trans heq.symm ▸ mem_map_of_mem ht)
    rw [hrest, List.find?_cons_of_pos (by simp [hv]), ← hv, update_self]
    rfl
  · rw [List.find?_cons_of_neg (by simpa using hv), update_of_ne (Ne.symm hv)]

theorem inDegrees_of_mem (hunique : (ids steps).Nodup)
    (hstep : step ∈ steps) : inDegrees steps step.id = some step.dependsOn.length := by
  -- the loop over the dependencies of one step
  have hinner : ∀ (deps : List String) (id : String) (degrees : String → Option ℕ) (n : ℕ),
      degrees id = some n → (deps.foldl (fun degrees _ => Function.update degrees id
        (some ((degrees id).getD 0 + 1))) degrees) = Function.update degrees id
          (some (n + deps.length)) := by
    intro deps id
    induction deps with
    | nil =>
      intro degrees n hn
      rw [foldl_nil, length_nil, Nat.add_zero, ← hn, update_eq_self]
    | cons dep deps ih =>
      intro degrees n hn
      rw [foldl_cons, ih _ (n + 1) (by rw [update_self, hn]; rfl),
        update_idem, length_cons, Nat.add_assoc, Nat.add_comm 1]
  have houter : ∀ (l : List SopStep) (degrees : String → Option ℕ), (ids l).Nodup →
      (∀ s ∈ l, degrees s.id = none) → ∀ v, l.foldl (fun degrees step => step.dependsOn.foldl
        (fun degrees _ => Function.update degrees step.id (some ((degrees step.id).getD 0 + 1)))
        (Function.update degrees step.id (some ((degrees step.id).getD 0)))) degrees v =
      ((l.find? fun s => s.id = v).map fun s => s.dependsOn.length).or (degrees v) := by
    intro l
    induction l with
    | nil => intro degrees _ _ v; rfl
    | cons s l ih =>
      intro degrees hnodup hnone v
      unfold ids at hnodup
      rw [map_cons, nodup_cons] at hnodup
      have hzero : (degrees s.id).getD 0 = 0 := by rw [hnone s mem_cons_self]; rfl
      rw [foldl_cons, hinner _ _ _ 0 (by rw [update_self, hzero]),
        update_idem, Nat.zero_add, ih _ hnodup.2]
      · exact find?_or_update (fun s => s.dependsOn.length) hnodup.1 degrees v
      · intro t ht
        have hne : t.id ≠ s.id := fun heq => hnodup.1 (heq ▸ mem_map_of_mem ht)
        rw [update_of_ne hne]
        exact hnone t (mem_cons_of_mem _ ht)
  unfold inDegrees
  rw [houter steps _ hunique (fun _ _ => rfl), find?_of_nodup hunique hstep]
  rfl

theorem stepMap_of_mem (hunique : (ids steps).Nodup)
    (hstep : step ∈ steps) : stepMap steps step.id = some step := by
  have hfold : ∀ (l : List SopStep) (map : String → Option SopStep), (ids l).Nodup →
      ∀ v : String, l.foldl (fun (map : String → Option SopStep) (step : SopStep) =>
        Function.update map step.id (some step)) map v =
        ((l.find? fun s => s.id = v).map fun s => s).or (map v) := by
    intro l
    induction l with
    | nil => intro map _ v; rfl
    | cons s l ih =>
      intro map hnodup v
      unfold ids at hnodup
      rw [map_cons, nodup_cons] at hnodup
      rw [foldl_cons, ih _ hnodup.2]
      exact find?_or_update (fun s => s) hnodup.1 map v
  unfold stepMap
  rw [hfold steps _ hunique, find?_of_nodup hunique hstep]
  rfl

theorem count_dependentsOf (hunique : (ids steps).Nodup) (hstep : step ∈ steps) (u : String) :
    (dependentsOf steps u).count step.id = step.dependsOn.count u := by
  have hother : ∀ l : List SopStep, step.id ∉ ids l →
      (l.flatMap fun s => List.replicate (s.dependsOn.count u) s.id).count step.id = 0 := by
    intro l hl
    rw [count_eq_zero]
    intro hmem
    obtain ⟨s, hs, hid⟩ := mem_flatMap.mp hmem
    rw [eq_of_mem_replicate hid] at hl
    exact hl (mem_map_of_mem hs)
  obtain ⟨before, after, rfl⟩ := append_of_mem hstep
  unfold ids at hunique
  rw [map_append, map_cons, nodup_append, nodup_cons] at hunique
  obtain ⟨-, ⟨hafter, -⟩, hbefore⟩ := hunique
  rw [dependentsOf_eq, flatMap_append, flatMap_cons, count_append,
    count_append, count_replicate_self, hother before, hother after hafter,
    Nat.zero_add, Nat.add_zero]
  exact fun hmem => hbefore _ hmem _ mem_cons_self rfl

/-- Every element of a list is counted once over keys without a repetition. -/
theorem sum_count {keys deps : List String} (hkeys : keys.Nodup) (hdeps : deps ⊆ keys) :
    (keys.map fun u => deps.count u).sum = deps.length := by
  induction deps with
  | nil => simp
  | cons dep deps ih =>
    have hone : (keys.map fun u => if dep == u then 1 else 0).sum = 1 := by
      have hcount : (keys.map fun u => if dep == u then 1 else 0).sum = keys.count dep := by
        clear ih hdeps hkeys
        induction keys with
        | nil => rfl
        | cons u keys ih =>
          rw [map_cons, sum_cons, ih, count_cons, Nat.add_comm, Bool.beq_comm]
      rw [hcount]
      exact count_eq_one_of_mem hkeys (hdeps mem_cons_self)
    simp only [count_cons]
    rw [sum_map_add, ih fun d hd => hdeps (mem_cons_of_mem _ hd), hone, length_cons]

variable {sop : SopDefinition}

/-- What the checks before the last one ensure. -/
structure Known (steps : List SopStep) : Prop where
  unique : (ids steps).Nodup
  known : ∀ step ∈ steps, ∀ dep ∈ step.dependsOn, dep ∈ ids steps

/-- The graph of the steps: an edge goes from a step to one that depends on it. -/
def stepGraph (steps : List SopStep) (h : Known steps) : Pandora.Lib.Kahn.Digraph String where
  vertices := ids steps
  succs := dependentsOf steps
  nodup := h.unique
  closed _ _ _ hv := by
    obtain ⟨step, hstep, rfl, -⟩ := mem_dependentsOf.mp hv
    exact mem_map_of_mem hstep

theorem edge_stepGraph (h : Known steps) :
    (stepGraph steps h).Edge = Requires steps := by
  funext u v
  refine propext ⟨fun hedge => mem_dependentsOf.mp hedge.2, fun hrequires => ?_⟩
  refine ⟨?_, mem_dependentsOf.mpr hrequires⟩
  obtain ⟨step, hstep, -, hdep⟩ := hrequires
  exact h.known step hstep u hdep

theorem edgesFrom_ids (h : Known steps) (hstep : step ∈ steps) :
    edgesFrom (dependentsOf steps) (ids steps) step.id = step.dependsOn.length := by
  unfold edgesFrom
  rw [map_congr_left fun u _ => count_dependentsOf h.unique hstep u]
  exact sum_count h.unique (h.known step hstep)

/-- **The loop is that of Kahn's algorithm** over the identifiers. -/
theorem drain_eq (steps : List SopStep) (fuel : ℕ) (queue : List String)
    (degrees : String → Option ℕ) (order : List String) :
    drain steps fuel queue degrees (order.flatMap fun id => (stepMap steps id).toList) =
      (Lib.Kahn.drain (dependentsOf steps) fuel queue degrees order).flatMap
        fun id => (stepMap steps id).toList := by
  induction fuel generalizing queue degrees order with
  | zero => rfl
  | succ fuel ih =>
    cases queue with
    | nil => rfl
    | cons node queue =>
      have hsnoc : (order.flatMap fun id => (stepMap steps id).toList) ++
          (stepMap steps node).toList =
          (order ++ [node]).flatMap fun id => (stepMap steps id).toList := by
        rw [flatMap_append, flatMap_singleton]
      rw [drain, Lib.Kahn.drain, hsnoc]
      exact ih _ _ _

/-- The identifiers in the order that is found. -/
def idOrder (sop : SopDefinition) : List String :=
  Lib.Kahn.drain (dependentsOf sop.steps)
    (sop.steps.length + (sop.steps.map fun step => step.dependsOn.length).sum)
    ((sop.steps.filter fun step => inDegrees sop.steps step.id = some 0).map SopStep.id)
    (inDegrees sop.steps) []

theorem executionOrder_eq (sop : SopDefinition) :
    sop.executionOrder = sop.idOrder.flatMap fun id => (stepMap sop.steps id).toList :=
  drain_eq sop.steps _ _ _ []

theorem idOrder_spec (h : Known sop.steps) :
    sop.idOrder.Nodup ∧ sop.idOrder ⊆ ids sop.steps ∧ (stepGraph sop.steps h).Ordered sop.idOrder ∧
      (sop.idOrder.length = (ids sop.steps).length ↔ Acyclic (Requires sop.steps)) := by
  have hsources : ∀ v, v ∈ (sop.steps.filter fun step =>
      inDegrees sop.steps step.id = some 0).map SopStep.id ↔
      v ∈ ids sop.steps ∧ edgesFrom (dependentsOf sop.steps) (ids sop.steps) v = 0 := by
    intro v
    simp only [ids, mem_map, mem_filter, decide_eq_true_eq]
    constructor
    · rintro ⟨step, ⟨hstep, hzero⟩, rfl⟩
      rw [inDegrees_of_mem h.unique hstep] at hzero
      exact ⟨⟨step, hstep, rfl⟩, (edgesFrom_ids h hstep).trans (Option.some.inj hzero)⟩
    · rintro ⟨⟨step, hstep, rfl⟩, hzero⟩
      refine ⟨step, ⟨hstep, ?_⟩, rfl⟩
      rw [inDegrees_of_mem h.unique hstep, ← edgesFrom_ids h hstep]
      exact congrArg some hzero
  have hspec := @drain_spec _ _ (stepGraph sop.steps h) (inDegrees sop.steps) _
    (h.unique.sublist (filter_sublist.map _)) ?_ hsources
    (sop.steps.length + (sop.steps.map fun step => step.dependsOn.length).sum) ?_
  · rw [edge_stepGraph] at hspec
    exact hspec
  · intro v hv
    obtain ⟨step, hstep, rfl⟩ := mem_map.mp hv
    rw [inDegrees_of_mem h.unique hstep]
    exact congrArg some (edgesFrom_ids h hstep).symm
  · show (sop.steps.map SopStep.id).length ≤ _
    rw [length_map]
    exact Nat.le_add_right _ _

/-! ### The order of a procedure -/

theorem map_id_flatMap (hunique : (ids sop.steps).Nodup) {order : List String}
    (hsub : order ⊆ ids sop.steps) :
    (order.flatMap fun id => (stepMap sop.steps id).toList).map SopStep.id = order := by
  induction order with
  | nil => rfl
  | cons id order ih =>
    obtain ⟨step, hstep, rfl⟩ := mem_map.mp (hsub mem_cons_self)
    rw [flatMap_cons, stepMap_of_mem hunique hstep, map_append,
      ih fun id hid => hsub (mem_cons_of_mem _ hid)]
    rfl

theorem executionOrder_ids (h : Known sop.steps) : ids sop.executionOrder = sop.idOrder := by
  rw [executionOrder_eq]
  exact map_id_flatMap h.unique (idOrder_spec h).2.1

theorem executionOrder_subset (h : Known sop.steps) : sop.executionOrder ⊆ sop.steps := by
  intro step hstep
  rw [executionOrder_eq, mem_flatMap] at hstep
  obtain ⟨id, hid, hmap⟩ := hstep
  obtain ⟨step', hstep', rfl⟩ := mem_map.mp ((idOrder_spec h).2.1 hid)
  rw [stepMap_of_mem h.unique hstep', Option.toList_some, mem_singleton] at hmap
  rwa [hmap]

theorem executionOrder_length_iff (h : Known sop.steps) :
    sop.executionOrder.length = sop.steps.length ↔ Acyclic (Requires sop.steps) := by
  rw [← (idOrder_spec h).2.2.2, ← executionOrder_ids h, ids, ids, length_map, length_map]

/-- The procedure has an order: all its steps, each after its dependencies. -/
structure IsStepOrder (sop : SopDefinition) (order : List SopStep) : Prop where
  perm : order.Perm sop.steps
  follows : ∀ before step after, order = before ++ step :: after →
    ∀ dep ∈ step.dependsOn, dep ∈ ids before

theorem isStepOrder_executionOrder (h : Known sop.steps) (hacyclic : Acyclic (Requires sop.steps)) :
    IsStepOrder sop sop.executionOrder where
  perm := by
    have hnodup : (ids sop.executionOrder).Nodup := by
      rw [executionOrder_ids h]
      exact (idOrder_spec h).1
    refine ((hnodup.of_map _).subperm (executionOrder_subset h)).perm_of_length_le ?_
    exact le_of_eq ((executionOrder_length_iff h).mpr hacyclic).symm
  follows before step after hsplit dep hdep := by
    have hids : sop.idOrder = ids before ++ step.id :: ids after := by
      rw [← executionOrder_ids h, hsplit, ids, ids, ids, map_append, map_cons]
    have hstep : step ∈ sop.steps := executionOrder_subset h (by rw [hsplit]; simp)
    refine (idOrder_spec h).2.2.1 _ _ _ hids dep ?_
    rw [edge_stepGraph]
    exact ⟨step, hstep, rfl, hdep⟩

/-! ### The steps that are ready -/

theorem mem_readySteps {completed : List String} :
    step ∈ sop.readySteps completed ↔
      step ∈ sop.steps ∧ step.id ∉ completed ∧ ∀ dep ∈ step.dependsOn, dep ∈ completed := by
  unfold readySteps
  rw [mem_filter, Bool.and_eq_true, decide_eq_true_eq, all_eq_true]
  simp only [decide_eq_true_eq]

theorem readySteps_eq_nil_iff (h : Known sop.steps) (hacyclic : Acyclic (Requires sop.steps))
    {completed : List String} :
    sop.readySteps completed = [] ↔ ∀ step ∈ sop.steps, step.id ∈ completed := by
  constructor
  · intro hnone
    have hleft : (ids sop.steps).filter (· ∉ completed) = [] := by
      by_contra hne
      obtain ⟨id, hid, hleast⟩ := hacyclic.exists_minimal hne
      obtain ⟨hmem, hopen⟩ := mem_filter.mp hid
      obtain ⟨step, hstep, rfl⟩ := mem_map.mp hmem
      have hready : step ∈ sop.readySteps completed := by
        refine mem_readySteps.mpr ⟨hstep, of_decide_eq_true hopen, fun dep hdep => ?_⟩
        by_contra hdepOpen
        refine hleast dep (mem_filter.mpr ⟨h.known step hstep dep hdep, ?_⟩)
          ⟨step, hstep, rfl, hdep⟩
        exact decide_eq_true hdepOpen
      rw [hnone] at hready
      exact not_mem_nil hready
    intro step hstep
    by_contra hopen
    have hmem : step.id ∈ (ids sop.steps).filter (· ∉ completed) :=
      mem_filter.mpr ⟨mem_map_of_mem hstep, decide_eq_true hopen⟩
    rw [hleft] at hmem
    exact not_mem_nil hmem
  · intro hall
    rw [eq_nil_iff_forall_not_mem]
    intro step hstep
    obtain ⟨hmem, hopen, -⟩ := mem_readySteps.mp hstep
    exact hopen (hall step hmem)

/-- In an order, the next step is ready when those before it are done. -/
theorem IsStepOrder.next_ready {order : List SopStep} (h : IsStepOrder sop order)
    (hunique : (ids sop.steps).Nodup) {before : List SopStep}
    {after : List SopStep} (hsplit : order = before ++ step :: after) :
    step ∈ sop.readySteps (ids before) := by
  have hnodup : (ids order).Nodup := (h.perm.map _).nodup_iff.mpr hunique
  have hstep : step ∈ sop.steps := h.perm.mem_iff.mp (by rw [hsplit]; simp)
  refine mem_readySteps.mpr ⟨hstep, fun hmem => ?_, h.follows before step after hsplit⟩
  rw [hsplit, ids, map_append, map_cons] at hnodup
  exact (nodup_append.mp hnodup).2.2 _ hmem _ mem_cons_self rfl

theorem validate_iff : sop.validate = .ok () ↔ Texts sop ∧ Dependencies sop.steps := by
  rw [validate_eq_ok]
  constructor
  · rintro ⟨htexts, hunique, hdeps, hlength⟩
    have hknown : Known sop.steps :=
      ⟨hunique, fun step hstep dep hdep => ((hdeps step hstep).1 dep hdep).2⟩
    refine ⟨htexts, hunique, fun step hstep => (hdeps step hstep).2, hknown.known,
      fun step hstep hself => ((hdeps step hstep).1 _ hself).1 rfl, ?_⟩
    exact (executionOrder_length_iff hknown).mp hlength
  · rintro ⟨htexts, hdeps⟩
    have hknown : Known sop.steps := ⟨hdeps.unique, hdeps.known⟩
    refine ⟨htexts, hdeps.unique, fun step hstep => ⟨fun dep hdep => ⟨?_, ?_⟩, ?_⟩, ?_⟩
    · rintro rfl
      exact hdeps.notSelf step hstep hdep
    · exact hdeps.known step hstep dep hdep
    · exact hdeps.distinct step hstep
    · exact (executionOrder_length_iff hknown).mpr hdeps.acyclic

/-- **The order of the steps is exact.** -/
theorem step_order_exact (sop : SopDefinition) :
    (sop.validate = .ok () ↔ Texts sop ∧ Dependencies sop.steps) ∧
      (sop.validate = .ok () → IsStepOrder sop sop.executionOrder ∧
        (∀ before step after, sop.executionOrder = before ++ step :: after →
          step ∈ sop.readySteps (ids before)) ∧
        ∀ completed, sop.readySteps completed = [] ↔ ∀ step ∈ sop.steps, step.id ∈ completed) := by
  refine ⟨validate_iff, fun hvalid => ?_⟩
  obtain ⟨-, hdeps⟩ := validate_iff.mp hvalid
  have hknown : Known sop.steps := ⟨hdeps.unique, hdeps.known⟩
  have horder := isStepOrder_executionOrder hknown hdeps.acyclic
  exact ⟨horder, fun before step after hsplit => horder.next_ready hdeps.unique hsplit,
    fun completed => readySteps_eq_nil_iff hknown hdeps.acyclic⟩

/-- A release procedure: the tests and the build need the sources, the upload needs both. -/
def sampleSop : SopDefinition where
  id := "release"
  name := "Release"
  triggerIntent := .procedure
  steps := [⟨"upload", "Upload", "upload.sh", ["build", "test"]⟩,
    ⟨"fetch", "Fetch", "fetch.sh", []⟩, ⟨"build", "Build", "make", ["fetch"]⟩,
    ⟨"test", "Test", "make test", ["fetch"]⟩]
  verificationCommand := none

theorem step_order_exact_sample :
    sampleSop.validate = .ok () ∧ IsStepOrder sampleSop sampleSop.executionOrder ∧
      sampleSop.readySteps ["fetch"] ≠ [] := by
  have hvalid : sampleSop.validate = .ok () := by decide +kernel
  obtain ⟨horder, -, hready⟩ := (step_order_exact sampleSop).2 hvalid
  refine ⟨hvalid, horder, fun hnone => ?_⟩
  have hall := (hready ["fetch"]).mp hnone ⟨"build", "Build", "make", ["fetch"]⟩ (by decide)
  revert hall
  decide

end SopDefinition

end Pandora.Memory.Sop
