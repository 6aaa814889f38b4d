import Mathlib.Data.List.Dedup
import Megalos.Library.DepthFirst
import Megalos.Sample

/-!
The cross-workflow checks are exact: one error for each call of an unknown workflow,
one closed walk for each reported cycle, and no error exactly on an acyclic call graph.
-/

namespace Megalos

open DepthFirst (ClosedWalk Idle Invariant Mark State)
open KeyedTable

structure CallSite where
  workflow : String
  step : Mapping
  target : Val

def docCalls (doc : Val) : List (Mapping × Val) :=
  match doc.get? "steps" with
  | some (.list steps) =>
      (mappedSteps steps).filterMap fun entry => (entry.2.get? "call").map fun target =>
        (entry.2, target)
  | _ => []

def callSites (workflows : List (String × Val)) : List CallSite :=
  workflows.flatMap fun entry => (docCalls entry.2).map fun call => ⟨entry.1, call.1, call.2⟩

/-- No workflow has the name that is called. -/
def CallSite.dangling (workflows : List (String × Val)) (site : CallSite) : Bool :=
  !workflows.any fun other => site.target.isStr other.1

def CallSite.unknown (env : Env) (site : CallSite) : String :=
  "Workflow '" ++ site.workflow ++ "' step '" ++ labelOf env site.step "?" ++
    "' calls unknown workflow '" ++
    pyStr env site.target ++ "' (code: unknown_call_target)"

def Calls (workflows : List (String × Val)) (caller callee : String) : Prop :=
  ∃ site ∈ callSites workflows, site.workflow = caller ∧ site.target = .str callee

def cycleText (cycle : List String) : String :=
  "call cycle detected: " ++ " -> ".intercalate cycle ++ " (code: call_cycle_detected)"

/-- The `while stack` loop, from where it starts to where it ends. -/
inductive Search.Loops (successors : String → List String) : Search → Search → Prop
  | over {search : Search} (empty : search.stack = []) : Loops successors search search
  | turn {search final : Search} (busy : search.stack ≠ [])
      (rest : Loops successors (search.turn successors) final) : Loops successors search final

/-- The loop over the names, each visit of it to the end. -/
inductive Search.Visits (successors : String → List String) : List String → Search → Search → Prop
  | done {search : Search} : Visits successors [] search search
  | visit {search between final : Search} {name : String} {rest : List String}
      (fresh : search.color name = .white)
      (loops : Search.Loops successors
        { search with
          color := Function.update search.color name .gray
          stack := [(name, successors name, [name])] } between)
      (others : Visits successors rest between final) :
        Visits successors (name :: rest) search final
  | skip {search final : Search} {name : String} {rest : List String}
      (seen : search.color name ≠ .white)
      (others : Visits successors rest search final) : Visits successors (name :: rest) search final

section Simulation

variable {successors : String → List String} {nodes : List String} {state : State String}
    {fuel : Nat}

def colorOf : Mark → Color
  | .unseen => .white
  | .active => .gray
  | .finished => .black

@[simp] theorem colorOf_unseen : colorOf .unseen = .white := rfl

@[simp] theorem colorOf_active : colorOf .active = .gray := rfl

@[simp] theorem colorOf_finished : colorOf .finished = .black := rfl

/-- The search of the source, as the general one shows it. -/
def Search.of (state : State String) : Search :=
  ⟨fun name => colorOf (state.mark name), state.stack, state.cycles.map cycleText⟩

theorem colorOf_update (mark : String → Mark) (node : String) (later : Mark) :
    (fun name => colorOf (Function.update mark node later name)) =
      Function.update (fun name => colorOf (mark name)) node (colorOf later) := by
  funext name
  by_cases isNode : name = node
  · simp [isNode]
  · simp [isNode]

theorem Search.of_turn (successors : String → List String) (state : State String) :
    (Search.of state).turn successors = Search.of (state.turn successors) := by
  unfold Search.turn State.turn
  cases top : state.stack with
  | nil => simp [Search.of, top]
  | cons entry below =>
      obtain ⟨node, remaining, path⟩ := entry
      cases remaining with
      | nil => simp [Search.of, top, colorOf_update]
      | cons next remaining =>
          cases met : state.mark next with
          | unseen => simp [Search.of, top, met, colorOf_update]
          | active =>
              simp only [Search.of, top, met, colorOf_active, List.map_append, List.map_singleton]
              unfold cycleText
              rfl
          | finished => simp [Search.of, top, met]

theorem Search.of_run (successors : String → List String) (fuel : Nat) (state : State String) :
    (Search.of state).run successors fuel = Search.of (state.run successors fuel) := by
  induction fuel generalizing state with
  | zero => rfl
  | succ fuel ih =>
      unfold Search.run State.run
      by_cases empty : state.stack.isEmpty
      · have same : (Search.of state).stack.isEmpty := empty
        rw [if_pos empty, if_pos same]
      · have same : ¬(Search.of state).stack.isEmpty := empty
        rw [if_neg empty, if_neg same, Search.of_turn, ih]

theorem Search.of_enter (successors : String → List String) (node : String) (state : State String) :
    ({ Search.of state with
        color := Function.update (Search.of state).color node .gray
        stack := [(node, successors node, [node])] } : Search) =
          Search.of (state.enter successors node) := by
  simp [Search.of, State.enter, colorOf_update]

theorem Search.of_visitAll (successors : String → List String) (fuel : Nat) (names : List String)
    (state : State String) :
    (Search.of state).visitAll successors fuel names =
      Search.of (state.visitAll successors fuel names) := by
  induction names generalizing state with
  | nil => rfl
  | cons name rest ih =>
      unfold Search.visitAll State.visitAll
      dsimp only
      cases met : state.mark name with
      | unseen =>
          have white : (Search.of state).color name = .white := by simp [Search.of, met]
          rw [white]
          dsimp only
          rw [Search.of_enter, Search.of_run, ih]
      | active =>
          have gray : (Search.of state).color name = .gray := by simp [Search.of, met]
          rw [gray]
          exact ih state
      | finished =>
          have black : (Search.of state).color name = .black := by simp [Search.of, met]
          rw [black]
          exact ih state

/-- A run that leaves nothing on the stack is the whole loop. -/
theorem Search.run_loops {search : Search} (ended : (search.run successors fuel).stack = []) :
    Search.Loops successors search (search.run successors fuel) := by
  induction fuel generalizing search with
  | zero => exact .over ended
  | succ fuel ih =>
      unfold Search.run at ended ⊢
      by_cases empty : search.stack.isEmpty
      · rw [if_pos empty]
        exact .over (by simpa using empty)
      · rw [if_neg empty] at ended ⊢
        exact .turn (by simpa using empty) (ih ended)

theorem Search.visitAll_visits {names : List String} (start : Idle successors nodes state)
    (closed : ∀ node ∈ nodes, successors node ⊆ nodes) (inside : names ⊆ nodes)
    (enough : (nodes.map fun node => (successors node).length + 1).sum ≤ fuel) :
    Search.Visits successors names (Search.of state)
    (Search.of (state.visitAll successors fuel names)) := by
  induction names generalizing state with
  | nil => exact .done
  | cons name rest ih =>
      have later : rest ⊆ nodes := fun node member => inside (by simp [member])
      unfold State.visitAll
      dsimp only
      cases met : state.mark name with
      | unseen =>
          have visited := start.visit closed (inside (by simp)) met enough
          refine .visit (by simp [Search.of, met]) ?_ (ih visited later)
          rw [Search.of_enter, ← Search.of_run]
          apply Search.run_loops
          rw [Search.of_run]
          exact visited.idle
      | active => exact absurd met (start.not_active name)
      | finished => exact .skip (by simp [Search.of, met]) (ih start later)

end Simulation

section Documents

variable {env : Env} {registry : Option Registry} {stem : String} {raw doc : Val}

theorem validateStep_call {position : Nat} {entries : Mapping} {target : Val}
    (passed : validateStep env position (.dict entries) = .ok [])
    (calls : entries.get? "call" = some target) :
    ∃ name, target = .str name := by
  have present : entries.has "call" = true := by
    simp only [Mapping.get?] at calls
    simp [Mapping.has, calls]
  by_cases mcp : isMcpMapping entries
  · simp only [validateStep, mcp, if_true, gather_ok_nil, List.forall_mem_cons,
      validateMcpToolCallStep, naming_ok_nil] at passed
    obtain ⟨-, ⟨-, -, -, -, mutex, -⟩, -⟩ := passed
    have absent := List.flatMap_eq_nil_iff.mp mutex ("call", "mcp_tool_call_with_call")
      (by simp [mcpMutexFields])
    simp [errorIf, present] at absent
  · simp only [validateStep, mcp, Bool.false_eq_true, if_false, gather_ok_nil,
      List.forall_mem_cons] at passed
    obtain ⟨-, -, -, optional, -⟩ := passed
    have checked := gather_ok_nil.mp optional
      (naming entries (validateCall entries (labelOf env entries (toString position)))) (by simp)
    simp only [Mapping.get?] at calls
    simp only [naming_ok_nil, validateCall, Mapping.whenHas, calls, List.append_eq_nil_iff,
      errorIf_nil] at checked
    have isText := checked.1.1.1
    cases target with
    | str name => exact ⟨name, rfl⟩
    | _ => simp [isName, isString] at isText

theorem docCalls_text (loaded : loadWorkflow env registry stem raw = .ok doc) {call : Mapping × Val}
    (member : call ∈ docCalls doc) : ∃ name, call.2 = .str name := by
  obtain ⟨entries, steps, ids, rfl, found, pass⟩ := loadWorkflow_pass loaded
  have isSteps : (Val.dict entries).get? "steps" = some (.list steps) := found
  simp only [docCalls, isSteps, List.mem_filterMap, Option.map_eq_some_iff] at member
  obtain ⟨mapped, inSteps, target, calls, rfl⟩ := member
  obtain ⟨position, passed⟩ := pass.own _ (mem_mappedSteps inSteps)
  exact validateStep_call passed calls

theorem callEdges_eq (text : ∀ call ∈ docCalls doc, ∃ name, call.2 = .str name) :
    callEdges env doc = (docCalls doc).map fun call =>
      (labelOf env call.1 "?", pyStr env call.2) := by
  unfold callEdges docCalls at *
  cases found : doc.get? "steps" with
  | none => rfl
  | some value =>
  cases value with
  | list steps =>
      simp only [found] at text ⊢
      rw [List.map_filterMap]
      apply List.filterMap_congr
      intro entry member
      cases calls : entry.2.get? "call" with
      | none => rfl
      | some target =>
          obtain ⟨name, isName⟩ :=
            text (entry.2, target) (List.mem_filterMap.mpr ⟨entry, member, by simp [calls]⟩)
          dsimp only at isName
          subst isName
          rfl
  | _ => rfl

end Documents

section Graph

variable {env : Env} {workflows : List (String × Val)} {caller callee : String}

theorem flatMap_errorIf {α : Type} (items : List α) (wrong : α → Bool) (text : α → String) :
    (items.flatMap fun item => errorIf (wrong item) (text item)) =
      (items.filter wrong).map text := by
  induction items with
  | nil => rfl
  | cons item rest ih =>
      rw [List.flatMap_cons, ih]
      by_cases bad : wrong item
      · simp [errorIf, bad]
      · simp [errorIf, bad]

theorem unknownTargets_eq (text : ∀ site ∈ callSites workflows, ∃ name, site.target = .str name) :
    unknownTargets env workflows =
      ((callSites workflows).filter fun site =>
        site.dangling workflows).map (CallSite.unknown env) := by
  unfold unknownTargets callSites at *
  rw [List.filter_flatMap, List.map_flatMap]
  apply List.flatMap_congr
  intro entry member
  have texts : ∀ call ∈ docCalls entry.2, ∃ name, call.2 = .str name := by
    intro call isCall
    exact text ⟨entry.1, call.1, call.2⟩
      (List.mem_flatMap.mpr ⟨entry, member, List.mem_map.mpr ⟨call, isCall, rfl⟩⟩)
  rw [callEdges_eq texts, flatMap_errorIf, List.filter_map, List.filter_map, List.map_map,
    List.map_map]
  have same : ∀ call ∈ docCalls entry.2,
      (!workflows.any fun other => other.1 == pyStr env call.2) =
        CallSite.dangling workflows ⟨entry.1, call.1, call.2⟩ := by
    intro call isCall
    obtain ⟨name, isName⟩ := texts call isCall
    have flipped : ∀ other : String × Val, (name == other.1) = (other.1 == name) :=
      fun other => BEq.comm
    simp [CallSite.dangling, isName, pyStr, flipped]
  exact congrArg (List.map fun call : Mapping × Val =>
    CallSite.unknown env ⟨entry.1, call.1, call.2⟩)
    (List.filter_congr same)

theorem mem_outgoing (text : ∀ site ∈ callSites workflows, ∃ name, site.target = .str name) :
    callee ∈ outgoing env workflows caller ↔ Calls workflows caller callee ∧ ∃ entry ∈ workflows,
      entry.1 = callee := by
  unfold outgoing
  rw [List.mem_insertionSort, List.mem_dedup, List.mem_filter]
  refine and_congr ?_ (by simp)
  constructor
  · intro member
    obtain ⟨entry, among, isTarget⟩ := List.mem_flatMap.mp member
    obtain ⟨inMap, isCaller⟩ := List.mem_filter.mp among
    have texts : ∀ call ∈ docCalls entry.2, ∃ name, call.2 = .str name := by
      intro call isCall
      exact text ⟨entry.1, call.1, call.2⟩
        (List.mem_flatMap.mpr ⟨entry, inMap, List.mem_map.mpr ⟨call, isCall, rfl⟩⟩)
    rw [callEdges_eq texts, List.map_map] at isTarget
    obtain ⟨call, isCall, rfl⟩ := List.mem_map.mp isTarget
    obtain ⟨name, isName⟩ := texts call isCall
    refine ⟨⟨entry.1, call.1, call.2⟩,
      List.mem_flatMap.mpr ⟨entry, inMap, List.mem_map.mpr ⟨call, isCall, rfl⟩⟩,
      by simpa using isCaller, ?_⟩
    simp [isName, pyStr]
  · rintro ⟨site, member, isCaller, isCallee⟩
    obtain ⟨entry, inMap, calls⟩ := List.mem_flatMap.mp member
    have texts : ∀ call ∈ docCalls entry.2, ∃ name, call.2 = .str name := by
      intro call isCall
      exact text ⟨entry.1, call.1, call.2⟩
        (List.mem_flatMap.mpr ⟨entry, inMap, List.mem_map.mpr ⟨call, isCall, rfl⟩⟩)
    obtain ⟨call, isCall, rfl⟩ := List.mem_map.mp calls
    refine List.mem_flatMap.mpr ⟨entry, List.mem_filter.mpr ⟨inMap, by simpa using isCaller⟩, ?_⟩
    rw [callEdges_eq texts, List.map_map]
    dsimp only at isCallee
    exact List.mem_map.mpr ⟨call, isCall, by simp [isCallee, pyStr]⟩

theorem closedWalk_mono {edge wider : String → String → Prop} {walk : List String}
    (closed : ClosedWalk edge walk) (widens : ∀ lower upper, edge lower upper → wider lower upper) :
    ClosedWalk wider walk := by
  obtain ⟨first, rest, same, chain⟩ := closed
  exact ⟨first, rest, same, chain.imp widens⟩

theorem dangling_iff {site : CallSite} :
    site.dangling workflows = false ↔ ∃ entry ∈ workflows, site.target = .str entry.1 := by
  simp [CallSite.dangling, Val.isStr_iff]

/-- With every call known, the search sees the whole graph of calls. -/
theorem outgoing_calls (text : ∀ site ∈ callSites workflows, ∃ name, site.target = .str name)
    (known : ∀ site ∈ callSites workflows, ∃ entry ∈ workflows, site.target = .str entry.1) :
    (fun lower upper => upper ∈ outgoing env workflows lower) = Calls workflows := by
  funext lower upper
  refine propext ((mem_outgoing text).trans ⟨And.left, ?_⟩)
  intro calls
  refine ⟨calls, ?_⟩
  obtain ⟨site, member, -, isUpper⟩ := calls
  obtain ⟨entry, inMap, isTarget⟩ := known site member
  rw [isUpper, Val.str.injEq] at isTarget
  exact ⟨entry, inMap, isTarget.symm⟩

end Graph

/-- The checks of the call graph end, report each dangling call once and closed walks only, and are
silent exactly when every call is known and no workflow leads back to itself. -/
theorem validateWorkflowCalls_exact (env : Env) (workflows : Dict Val)
    (accepted : ∀ entry ∈ workflows.rows, ∃ registry stem raw,
      loadWorkflow env registry stem raw = .ok entry.2) :
    ∃ (final : Search) (cycles : List (List String)),
      Search.Visits (outgoing env workflows.rows)
        ((workflows.rows.map Prod.fst).insertionSort (· ≤ ·))
        ⟨fun _ => .white, [], []⟩ final ∧
      final.errors = cycles.map cycleText ∧
      validateWorkflowCalls env workflows.rows =
        ((callSites workflows.rows).filter fun site =>
          site.dangling workflows.rows).map (CallSite.unknown env) ++
          final.errors ∧
      (∀ cycle ∈ cycles, ClosedWalk (Calls workflows.rows) cycle) ∧
      (validateWorkflowCalls env workflows.rows = [] ↔
        (∀ site ∈ callSites workflows.rows, ∃ entry ∈ workflows.rows, site.target = .str entry.1) ∧
          ∀ name, ¬Relation.TransGen (Calls workflows.rows) name name) := by
  have text : ∀ site ∈ callSites workflows.rows, ∃ name, site.target = .str name := by
    intro site member
    obtain ⟨entry, inMap, calls⟩ := List.mem_flatMap.mp member
    obtain ⟨call, isCall, rfl⟩ := List.mem_map.mp calls
    obtain ⟨registry, stem, raw, loaded⟩ := accepted entry inMap
    exact docCalls_text loaded isCall
  have member_names : ∀ {name : String},
    name ∈ (workflows.rows.map Prod.fst).insertionSort (· ≤ ·) ↔
      ∃ entry ∈ workflows.rows, entry.1 = name := by
    intro name
    rw [List.mem_insertionSort, List.mem_map]
  generalize names_eq : (workflows.rows.map Prod.fst).insertionSort (· ≤ ·) =
    names at member_names ⊢
  have closed : ∀ name ∈ names, outgoing env workflows.rows name ⊆ names := by
    intro name _ target isTarget
    exact member_names.mpr ((mem_outgoing text).mp isTarget).2
  have outside : ∀ name, name ∉ names → outgoing env workflows.rows name = [] := by
    intro name foreign
    rw [List.eq_nil_iff_forall_not_mem]
    intro target isTarget
    obtain ⟨⟨site, isSite, isCaller, -⟩, -⟩ := (mem_outgoing text).mp isTarget
    obtain ⟨entry, inMap, calls⟩ := List.mem_flatMap.mp isSite
    obtain ⟨call, -, rfl⟩ := List.mem_map.mp calls
    exact foreign (member_names.mpr ⟨entry, inMap, isCaller⟩)
  have visits := Search.visitAll_visits Idle.start closed (List.Subset.refl names) (Nat.le_refl _)
  obtain ⟨walks, quiet⟩ := DepthFirst.visitAll_exact closed outside (Nat.le_refl _)
  have result : validateWorkflowCalls env workflows.rows =
      ((callSites workflows.rows).filter fun site =>
        site.dangling workflows.rows).map (CallSite.unknown env) ++
        (Search.of (State.start.visitAll (outgoing env workflows.rows)
          (names.map fun name =>
            (outgoing env workflows.rows name).length + 1).sum names)).errors := by
    unfold validateWorkflowCalls
    dsimp only
    rw [unknownTargets_eq text, names_eq, ← Search.of_visitAll]
    rfl
  refine ⟨_, _, visits, rfl, result, ?_, ?_⟩
  · intro cycle reported
    refine closedWalk_mono (walks cycle reported) ?_
    intro lower upper edge
    exact ((mem_outgoing text).mp edge).1
  · rw [result, List.append_eq_nil_iff, List.map_eq_nil_iff, List.filter_eq_nil_iff]
    simp only [Search.of, List.map_eq_nil_iff, Bool.not_eq_true, dangling_iff]
    refine and_congr_right ?_
    intro known
    rw [quiet, outgoing_calls text known]

def loopingDoc : Val :=
  match loadWorkflow sampleEnv none "loop" (workflowDoc "loop" [stepDoc "again" [("call",
    .str "loop")]]) with
  | .ok doc => doc
  | .error _ => .none

def loopingDocs : Dict Val := ⟨[("loop", loopingDoc)], by decide⟩

theorem loopingDocs_cycle : ∃ name, Relation.TransGen (Calls loopingDocs.rows) name name := by
  have accepted : ∀ entry ∈ loopingDocs.rows, ∃ registry stem raw,
      loadWorkflow sampleEnv registry stem raw = .ok entry.2 := by
    intro entry member
    rw [List.mem_singleton.mp member]
    exact ⟨none, "loop", workflowDoc "loop" [stepDoc "again" [("call", .str "loop")]], rfl⟩
  obtain ⟨final, cycles, -, -, -, -, silent⟩ :=
    validateWorkflowCalls_exact sampleEnv loopingDocs accepted
  have known : ∀ site ∈ callSites loopingDocs.rows, ∃ entry ∈ loopingDocs.rows,
    site.target = .str entry.1 := by
    intro site member
    have all : ((callSites loopingDocs.rows).all fun site => !site.dangling loopingDocs.rows) =
      true := by decide
    exact dangling_iff.mp (by simpa using List.all_eq_true.mp all site member)
  have reports : validateWorkflowCalls sampleEnv loopingDocs.rows ≠ [] := by decide
  by_contra acyclic
  exact reports (silent.mpr ⟨known, not_exists.mp acyclic⟩)

end Megalos
