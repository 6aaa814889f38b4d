import Megalos.RefGrammar
import Megalos.Skipping

/-!
The arguments of an `mcp_tool_call`: the strings that the validator takes for refs are the
ones that the executor replaces, one pass, everything else as it was.
-/

namespace Megalos

open KeyedTable StatefulProgram StatefulProgram.Program

variable {env : Env} {registry : Option Registry} {step : Step} {data : StepData}
  {skipped : List String} {referencing : String}

/-! What an accepted tree says. -/

def ArgsAccepted (env : Env) (value : Val) : Prop :=
    ∃ label path, validateMcpArgValue env label path value = []

def validatorRef? (text : String) : Option String :=
  if hasInterpolation (.str text) then some (refBody text) else none

mutual

/-- The refs of a tree, in the order in which it is walked. -/
def refsOf : Val → List String
  | .dict entries => refsOfEntries entries
  | .list items => refsOfItems items
  | .str text => (validatorRef? text).toList
  | _ => []

def refsOfItems : List Val → List String
  | [] => []
  | item :: rest => refsOf item ++ refsOfItems rest

def refsOfEntries : List (Val × Val) → List String
  | [] => []
  | (_, value) :: rest => refsOf value ++ refsOfEntries rest

end

mutual

def substitute (values : String → Val) : Val → Val
  | .dict entries => .dict (substituteEntries values entries)
  | .list items => .list (substituteItems values items)
  | .str text =>
      match validatorRef? text with
      | some ref => values ref
      | none => .str text
  | other => other

def substituteItems (values : String → Val) : List Val → List Val
  | [] => []
  | item :: rest => substitute values item :: substituteItems values rest

def substituteEntries (values : String → Val) : List (Val × Val) → List (Val × Val)
  | [] => []
  | (key, value) :: rest => (key, substitute values value) :: substituteEntries values rest

end

theorem ArgsAccepted.entries {entries : List (Val × Val)}
    (accepted : ArgsAccepted env (.dict entries)) :
    ∀ entry ∈ entries, ArgsAccepted env entry.2 := by
  obtain ⟨label, path, passed⟩ := accepted
  exact validateMcpArgEntries_nil passed

theorem ArgsAccepted.items {items : List Val} (accepted : ArgsAccepted env (.list items)) :
    ∀ item ∈ items, ArgsAccepted env item := by
  obtain ⟨label, path, passed⟩ := accepted
  have each : ∀ index, validateMcpArgItems env label path index items = [] →
    ∀ item ∈ items, ArgsAccepted env item := by
    clear passed
    induction items with
    | nil => intro _ _ item member; cases member
    | cons first rest ih =>
        intro index passed
        rw [validateMcpArgItems, List.append_eq_nil_iff] at passed
        exact List.forall_mem_cons.mpr ⟨⟨_, _, passed.1⟩, ih _ passed.2⟩
  rw [validateMcpArgValue] at passed
  exact each 0 passed

theorem refInner_eq {text : String} (accepted : ArgsAccepted env (.str text)) :
    refInner text = validatorRef? text := by
  obtain ⟨label, path, passed⟩ := accepted
  unfold validatorRef?
  by_cases marked : hasInterpolation (.str text) = true
  · rw [if_pos marked]
    obtain ⟨inner, valid, letters⟩ := (validateMcpArgValue_marked marked).mp passed
    obtain ⟨later, -, body⟩ := isValidRefPath_body valid
    rw [String.toList_ofList] at body
    have names : "step_data.".toList <:+: text.toList := by
      refine ⟨['$', '\x7b'], later ++ ['\x7d'], ?_⟩
      rw [letters, body, refRoot_dot]
      simp
    unfold refInner
    rw [refBody_marked letters]
    split
    · rename_i rest same
      rw [letters, List.cons.injEq, List.cons.injEq] at same
      rw [← same.2.2, if_pos ⟨List.getLast?_concat, names⟩, List.dropLast_concat]
    · rename_i other
      exact absurd letters (other _)
  · rw [if_neg marked]
    unfold refInner
    split
    · rename_i rest letters
      refine absurd ?_ marked
      simp only [hasInterpolation, decide_eq_true_eq, letters]
      exact ⟨[], rest, rfl⟩
    · rfl

theorem validatorRef?_segment {text ref : String} (accepted : ArgsAccepted env (.str text))
    (isRef : validatorRef? text = some ref) : HasSegment ref := by
  rw [← refInner_eq accepted] at isRef
  obtain ⟨label, path, passed⟩ := accepted
  exact refInner_segment passed isRef

/-! The executor's pass over the tree. -/

/-- The refs are resolved one after the other, and the first that raises ends the pass. -/
def passRefs (env : Env) (data : StepData) (skipped : List String) (referencing : String)
    (refs : List String) : Except Exn PUnit :=
  forM refs fun ref => do let _ ← resolveRef env (.str ref) data skipped referencing

/-- The ref can be looked up: its step is not skipped, and the content it goes below can be read. -/
def Passes (env : Env) (data : StepData) (skipped : List String) (ref : String) : Prop :=
  refStep ref ∉ skipped ∧ LegibleAt env data ref

/-- How the pass ends: through, at a ref to a skipped step, or at content that cannot be read. -/
inductive Passed (env : Env) (data : StepData) (skipped : List String) (referencing : String)
    (refs : List String) : Except Exn PUnit → Prop
  | through (each : ∀ ref ∈ refs, Passes env data skipped ref) :
      Passed env data skipped referencing refs (.ok ⟨⟩)
  | cascaded {before after : List String} {ref : String} (parts : refs = before ++ ref :: after)
      (each : ∀ earlier ∈ before, Passes env data skipped earlier)
      (isSkipped : refStep ref ∈ skipped) :
      Passed env data skipped referencing refs (.error (.skippedPredecessor (refStep ref) referencing))
  | escaped {before after : List String} {ref : String} {raised : Exn}
      (parts : refs = before ++ ref :: after)
      (each : ∀ earlier ∈ before, Passes env data skipped earlier) (kept : refStep ref ∉ skipped)
      (illegible : ¬LegibleAt env data ref)
      (other : ∀ sid step, raised ≠ .skippedPredecessor sid step) :
      Passed env data skipped referencing refs (.error raised)

theorem passed_cons {ref : String} {refs : List String} {result : Except Exn PUnit}
    (passes : Passes env data skipped ref)
    (rest : Passed env data skipped referencing refs result) :
    Passed env data skipped referencing (ref :: refs) result := by
  cases rest with
  | through each => exact .through (List.forall_mem_cons.mpr ⟨passes, each⟩)
  | cascaded parts each isSkipped =>
      exact .cascaded (congrArg (ref :: ·) parts)
        (List.forall_mem_cons.mpr ⟨passes, each⟩) isSkipped
  | escaped parts each kept illegible other =>
      exact .escaped (congrArg (ref :: ·) parts)
        (List.forall_mem_cons.mpr ⟨passes, each⟩) kept illegible other

theorem resolveRef_escapes {ref : String} (segment : HasSegment ref) (kept : refStep ref ∉ skipped)
    (illegible : ¬LegibleAt env data ref) :
    ∃ raised, resolveRef env (.str ref) data skipped referencing = .error raised ∧
      ∀ sid step, raised ≠ .skippedPredecessor sid step := by
  simp only [LegibleAt, not_forall] at illegible
  obtain ⟨sid, raw, below, found, chokes⟩ := illegible
  obtain ⟨raised, raises, read⟩ := resolveRef_illegible segment below found chokes (below.1 ▸ kept)
  refine ⟨raised, raises, ?_⟩
  obtain ⟨message, rfl | rfl⟩ := tryLoads_raises read <;> simp

theorem passRefs_passed {refs : List String} (segments : ∀ ref ∈ refs, HasSegment ref) :
    Passed env data skipped referencing refs (passRefs env data skipped referencing refs) := by
  induction refs with
  | nil => exact .through (by simp)
  | cons ref rest ih =>
      obtain ⟨segment, others⟩ := List.forall_mem_cons.mp segments
      have step : passRefs env data skipped referencing (ref :: rest) = (do
          let _ ← resolveRef env (.str ref) data skipped referencing
          passRefs env data skipped referencing rest) := by
        unfold passRefs
        rw [List.forM_cons, bind_assoc]
        rfl
      rw [step]
      by_cases isSkipped : refStep ref ∈ skipped
      · have cascades : resolveRef env (.str ref) data skipped referencing =
            .error (.skippedPredecessor (refStep ref) referencing) :=
              resolveRef_skipped segment isSkipped
        rw [cascades]
        exact @Passed.cascaded _ _ _ _ _ [] rest ref rfl (by simp) isSkipped
      by_cases legible : LegibleAt env data ref
      · rw [resolveRef_eq segment legible, if_neg isSkipped]
        exact passed_cons ⟨isSkipped, legible⟩ (ih others)
      · obtain ⟨raised, raises, other⟩ :=
          @resolveRef_escapes env data skipped referencing ref segment isSkipped legible
        rw [raises]
        exact @Passed.escaped _ _ _ _ _ [] rest ref raised rfl (by simp) isSkipped legible other

theorem passRefs_bind {α β γ : Type} (first more : List String) (value : α) (other : β)
    (join : α → β → γ) :
    ((passRefs env data skipped referencing first >>= fun _ => .ok value) >>= fun head =>
        (passRefs env data skipped referencing more >>= fun _ => .ok other) >>=
          fun rest => .ok (join head rest)) =
      passRefs env data skipped referencing (first ++ more) >>=
        fun _ => .ok (join value other) := by
  unfold passRefs
  rw [List.forM_append]
  simp only [bind_assoc, ok_bind]

theorem resolveRef_answers {ref : String} {found : Option Val} (segment : HasSegment ref)
    (answers : resolveRef env (.str ref) data skipped referencing = .ok found) :
    refStep ref ∉ skipped ∧ LegibleAt env data ref ∧ found = refValue env data ref := by
  by_cases isSkipped : refStep ref ∈ skipped
  · rw [resolveRef_skipped segment isSkipped] at answers
    cases answers
  by_cases legible : LegibleAt env data ref
  · rw [resolveRef_eq segment legible, if_neg isSkipped, Except.ok.injEq] at answers
    exact ⟨isSkipped, legible, answers.symm⟩
  · obtain ⟨raised, raises, -⟩ :=
      @resolveRef_escapes env data skipped referencing ref segment isSkipped legible
    rw [raises] at answers
    cases answers

/-- What the executor puts in the place of a ref. -/
def resolvedValue (env : Env) (data : StepData) (ref : String) : Val :=
    (refValue env data ref).getD .absent

mutual

theorem resolveArgs_eq : (value : Val) → ArgsAccepted env value →
    resolveArgs env data skipped referencing value =
      passRefs env data skipped referencing (refsOf value) >>=
        fun _ => .ok (substitute (resolvedValue env data) value)
  | .dict entries, accepted => by
      rw [resolveArgs, resolveEntries_eq entries accepted.entries, bind_assoc]
      rfl
  | .list items, accepted => by
      rw [resolveArgs, resolveItems_eq items accepted.items, bind_assoc]
      rfl
  | .str text, accepted => by
      rw [resolveArgs, refInner_eq accepted, refsOf, substitute]
      cases isRef : validatorRef? text with
      | none => rfl
      | some ref =>
          simp only [Option.toList_some, passRefs, List.forM_cons, List.forM_nil]
          cases resolved : resolveRef env (.str ref) data skipped referencing with
          | error raised => rfl
          | ok found =>
              obtain ⟨-, -, rfl⟩ :=
                resolveRef_answers (validatorRef?_segment accepted isRef) resolved
              rfl
  | .none, _ => rfl
  | .bool _, _ => rfl
  | .int _, _ => rfl
  | .float _, _ => rfl
  | .native _, _ => rfl
  | .absent, _ => rfl

theorem resolveItems_eq : (items : List Val) → (∀ item ∈ items, ArgsAccepted env item) →
    resolveItems env data skipped referencing items =
      passRefs env data skipped referencing (refsOfItems items) >>= fun _ =>
        .ok (substituteItems (resolvedValue env data) items)
  | [], _ => rfl
  | item :: rest, accepted => by
      rw [resolveItems, resolveArgs_eq item (accepted item List.mem_cons_self),
        resolveItems_eq rest fun other member => accepted other (List.mem_cons_of_mem _ member)]
      exact passRefs_bind _ _ _ _ List.cons

theorem resolveEntries_eq :
    (entries : List (Val × Val)) → (∀ entry ∈ entries, ArgsAccepted env entry.2) →
    resolveEntries env data skipped referencing entries =
      passRefs env data skipped referencing (refsOfEntries entries) >>= fun _ =>
        .ok (substituteEntries (resolvedValue env data) entries)
  | [], _ => rfl
  | (key, value) :: rest, accepted => by
      rw [resolveEntries, resolveArgs_eq value (accepted (key, value) List.mem_cons_self),
        resolveEntries_eq rest fun other member => accepted other (List.mem_cons_of_mem _ member)]
      exact passRefs_bind _ _ _ _ fun first others => (key, first) :: others

end

theorem resolveArgs_dict {entries : List (Val × Val)}
    (accepted : ∀ entry ∈ entries, ArgsAccepted env entry.2) :
    resolveArgs env data skipped referencing (.dict entries) =
      passRefs env data skipped referencing (refsOf (.dict entries)) >>= fun _ =>
        .ok (substitute (resolvedValue env data) (.dict entries)) := by
  rw [resolveArgs, resolveEntries_eq entries accepted, bind_assoc]
  rfl

mutual

theorem refsOf_segments :
    (value : Val) → ArgsAccepted env value → ∀ ref ∈ refsOf value, HasSegment ref
  | .dict entries, accepted => refsOfEntries_segments entries accepted.entries
  | .list items, accepted => refsOfItems_segments items accepted.items
  | .str text, accepted => by
      intro ref member
      rw [refsOf, Option.mem_toList] at member
      exact validatorRef?_segment accepted member
  | .none, _ => by simp [refsOf]
  | .bool _, _ => by simp [refsOf]
  | .int _, _ => by simp [refsOf]
  | .float _, _ => by simp [refsOf]
  | .native _, _ => by simp [refsOf]
  | .absent, _ => by simp [refsOf]

theorem refsOfItems_segments : (items : List Val) → (∀ item ∈ items, ArgsAccepted env item) →
    ∀ ref ∈ refsOfItems items, HasSegment ref
  | [], _ => by simp [refsOfItems]
  | item :: rest, accepted => by
      rw [List.forall_mem_cons] at accepted
      rw [refsOfItems]
      exact List.forall_mem_append.mpr ⟨refsOf_segments item accepted.1,
        refsOfItems_segments rest accepted.2⟩

theorem refsOfEntries_segments :
    (entries : List (Val × Val)) → (∀ entry ∈ entries, ArgsAccepted env entry.2) →
    ∀ ref ∈ refsOfEntries entries, HasSegment ref
  | [], _ => by simp [refsOfEntries]
  | (key, value) :: rest, accepted => by
      rw [List.forall_mem_cons] at accepted
      rw [refsOfEntries]
      exact List.forall_mem_append.mpr ⟨refsOf_segments value accepted.1,
        refsOfEntries_segments rest accepted.2⟩

end

/-! The absent marker. -/

mutual

def hasAbsent : Val → Bool
  | .absent => true
  | .dict entries => hasAbsentEntry entries
  | .list items => hasAbsentItem items
  | _ => false

def hasAbsentItem : List Val → Bool
  | [] => false
  | item :: rest => hasAbsent item || hasAbsentItem rest

def hasAbsentEntry : List (Val × Val) → Bool
  | [] => false
  | (_, value) :: rest => hasAbsent value || hasAbsentEntry rest

end

mutual

theorem findAbsentRefPath_isSome : (value : Val) → (path : String) →
    (findAbsentRefPath value path).isSome = hasAbsent value
  | .absent, _ => rfl
  | .dict entries, path => by
      rw [findAbsentRefPath, hasAbsent]
      exact findAbsentEntry_isSome entries path
  | .list items, path => by
      rw [findAbsentRefPath, hasAbsent]
      exact findAbsentItem_isSome items 0 path
  | .none, _ => rfl
  | .bool _, _ => rfl
  | .int _, _ => rfl
  | .float _, _ => rfl
  | .native _, _ => rfl
  | .str _, _ => rfl

theorem findAbsentItem_isSome : (items : List Val) → (index : Nat) → (path : String) →
    (findAbsentItem items index path).isSome = hasAbsentItem items
  | [], _, _ => rfl
  | item :: rest, index, path => by
      have first := findAbsentRefPath_isSome item (path ++ "[" ++ toString index ++ "]")
      rw [findAbsentItem, hasAbsentItem, ← first]
      cases findAbsentRefPath item (path ++ "[" ++ toString index ++ "]") with
      | some found => rfl
      | none => exact findAbsentItem_isSome rest (index + 1) path

theorem findAbsentEntry_isSome : (entries : List (Val × Val)) → (path : String) →
    (findAbsentEntry entries path).isSome = hasAbsentEntry entries
  | [], _ => rfl
  | (key, value) :: rest, path => by
      have first := findAbsentRefPath_isSome value (if path = "" then keyText key else path ++
        "." ++ keyText key)
      rw [findAbsentEntry, hasAbsentEntry, ← first]
      cases findAbsentRefPath value (if path = "" then keyText key else path ++ "." ++
        keyText key) with
      | some found => rfl
      | none => exact findAbsentEntry_isSome rest path

end

mutual

theorem hasAbsent_substitute {values : String → Val} : (value : Val) → ArgsAccepted env value →
    hasAbsent (substitute values value) = (refsOf value).any fun ref => hasAbsent (values ref)
  | .dict entries, accepted => by
      rw [substitute, hasAbsent, refsOf]
      exact hasAbsent_substituteEntries entries accepted.entries
  | .list items, accepted => by
      rw [substitute, hasAbsent, refsOf]
      exact hasAbsent_substituteItems items accepted.items
  | .str text, accepted => by
      rw [substitute, refsOf]
      cases validatorRef? text with
      | none => rfl
      | some ref => rw [Option.toList_some, List.any_cons, List.any_nil, Bool.or_false]
  | .absent, accepted => by
      obtain ⟨label, path, passed⟩ := accepted
      cases passed
  | .native _, accepted => by
      obtain ⟨label, path, passed⟩ := accepted
      cases passed
  | .none, _ => rfl
  | .bool _, _ => rfl
  | .int _, _ => rfl
  | .float _, _ => rfl

theorem hasAbsent_substituteItems {values : String → Val} : (items : List Val) →
    (∀ item ∈ items, ArgsAccepted env item) →
    hasAbsentItem (substituteItems values items) = (refsOfItems items).any fun ref =>
      hasAbsent (values ref)
  | [], _ => rfl
  | item :: rest, accepted => by
      rw [substituteItems, hasAbsentItem, refsOfItems, List.any_append,
        hasAbsent_substitute item (accepted item List.mem_cons_self),
        hasAbsent_substituteItems rest fun other member =>
          accepted other (List.mem_cons_of_mem _ member)]

theorem hasAbsent_substituteEntries {values : String → Val} : (entries : List (Val × Val)) →
    (∀ entry ∈ entries, ArgsAccepted env entry.2) →
    hasAbsentEntry (substituteEntries values entries) = (refsOfEntries entries).any fun ref =>
      hasAbsent (values ref)
  | [], _ => rfl
  | (key, value) :: rest, accepted => by
      rw [substituteEntries, hasAbsentEntry, refsOfEntries, List.any_append,
        hasAbsent_substitute value (accepted (key, value) List.mem_cons_self),
        hasAbsent_substituteEntries rest fun other member =>
          accepted other (List.mem_cons_of_mem _ member)]

end

/-- What `json.loads` returns never holds the marker. -/
def LoadsJson (env : Env) : Prop :=
    ∀ text value, env.loads text = .ok value → hasAbsent value = false

theorem valueAt?_hasAbsent {entries : List (Val × Val)} {key : String} {value : Val}
    (found : Val.valueAt? entries key = some value) (free : hasAbsentEntry entries = false) :
    hasAbsent value = false := by
  induction entries with
  | nil => cases found
  | cons first rest ih =>
      obtain ⟨name, other⟩ := first
      rw [hasAbsentEntry, Bool.or_eq_false_iff] at free
      unfold Val.valueAt? at found
      rw [List.find?_cons] at found
      split at found
      · cases found
        exact free.1
      · exact ih found free.2

theorem descend_hasAbsent {path : List String} {value found : Val} (free : hasAbsent value = false)
    (reached : descend path value = some found) : hasAbsent found = false := by
  induction path generalizing value with
  | nil =>
      cases reached
      exact free
  | cons segment rest ih =>
      cases value with
      | dict entries =>
          rw [descend, Option.bind_eq_some_iff] at reached
          obtain ⟨inner, there, reached⟩ := reached
          exact ih (valueAt?_hasAbsent there free) reached
      | _ => cases reached

theorem resolvedValue_hasAbsent (loads : LoadsJson env) (ref : String) :
    hasAbsent (resolvedValue env data ref) = (refValue env data ref).isNone := by
  unfold resolvedValue
  cases found : refValue env data ref with
  | none => rfl
  | some value =>
      unfold refValue at found
      split at found
      · cases found
      · cases found
        rfl
      · split at found
        · cases found
        · rename_i loaded
          exact descend_hasAbsent (loads _ _ loaded) found

/-! The executor. -/

/-- How the executor ends on arguments, and what it has sent by then. -/
inductive Resolved (env : Env) (step : Step) (data : StepData) (skipped : List String) (args : Val)
    (world : World) : Except Exn Val → World → Prop
  | cascaded {before after : List String} {ref : String}
      (parts : refsOf args = before ++ ref :: after)
      (each : ∀ earlier ∈ before, Passes env data skipped earlier)
      (isSkipped : refStep ref ∈ skipped) :
      Resolved env step data skipped args world (.error (.skippedPredecessor (refStep ref) step.id)) world
  | escaped {before after : List String} {ref : String} {raised : Exn}
      (parts : refsOf args = before ++ ref :: after)
      (each : ∀ earlier ∈ before, Passes env data skipped earlier) (kept : refStep ref ∉ skipped)
      (illegible : ¬LegibleAt env data ref)
      (other : ∀ sid step, raised ≠ .skippedPredecessor sid step) :
      Resolved env step data skipped args world (.error raised) world
  | unresolved {path : String} (each : ∀ ref ∈ refsOf args, Passes env data skipped ref)
      (absent : hasAbsent (substitute (resolvedValue env data) args) = true) :
      Resolved env step data skipped args world
        (.ok (failureEnvelope ("unresolved arg ref: $\x7bstep_data." ++ path ++ "\x7d"))) world
  | overflowed {message : String} (each : ∀ ref ∈ refsOf args, Passes env data skipped ref)
      (present : hasAbsent (substitute (resolvedValue env data) args) = false)
      (large : ¬step.TimeoutFits) :
      Resolved env step data skipped args world (.error (.uncaught "OverflowError" message)) world
  | dispatched {request : McpRequest} (each : ∀ ref ∈ refsOf args, Passes env data skipped ref)
      (present : hasAbsent (substitute (resolvedValue env data) args) = false)
      (fits : step.TimeoutFits)
      (sends : request.args = substitute (resolvedValue env data) args) :
      Resolved env step data skipped args world (.ok (mapOutcomeToEnvelope (env.mcpOutcome world.outbound.length)))
        { world with outbound := world.outbound ++ [request] }

theorem wp_executeMcpToolCallStep_resolved (executable : step.Executable env registry) {args : Val}
    (isArgs : step.get? "args" = some args) (world : World) :
    Wp (executeMcpToolCallStep env registry step data skipped)
    (Resolved env step data skipped args world) world := by
  obtain ⟨⟨servers, name, config, rfl, isServer, known⟩, hasTool, entries, same, checked⟩ :=
    executable
  obtain ⟨tool, isTool⟩ := Option.isSome_iff_exists.mp hasTool
  rw [isArgs, Option.some.injEq] at same
  subst same
  have argsItem : step.item "args" = .ok (.dict entries) := by
    rw [Step.item, fieldItem, show field? step.fields "args" = _ from isArgs]
  have serverItem : step.item "server" = .ok (.str name) := by
    rw [Step.item, fieldItem, show field? step.fields "server" = _ from isServer]
  have toolItem : step.item "tool" = .ok tool := by
    rw [Step.item, fieldItem, show field? step.fields "tool" = _ from isTool]
  have registered : servers.get (.str name) = .ok config := by simp [Registry.get, known]
  have passed : Passed env data skipped step.id (refsOf (.dict entries)) _ :=
    passRefs_passed (refsOfEntries_segments entries checked)
  unfold executeMcpToolCallStep
  simp only [wp_bind, wp_ofExcept, argsItem, resolveArgs_dict checked]
  cases ends : passRefs env data skipped step.id (refsOf (.dict entries)) with
  | error raised =>
      rw [ends] at passed
      cases passed with
      | cascaded parts each isSkipped => exact .cascaded parts each isSkipped
      | escaped parts each kept illegible other => exact .escaped parts each kept illegible other
  | ok through =>
      rw [ends] at passed
      cases passed with
      | through each =>
      simp only [ok_bind]
      have marker := findAbsentRefPath_isSome (substitute (resolvedValue env data) (.dict entries)) ""
      cases absent : findAbsentRefPath (substitute (resolvedValue env data) (.dict entries)) "" with
      | some path =>
          rw [absent] at marker
          exact .unresolved each marker.symm
      | none =>
          rw [absent] at marker
          by_cases fits : step.TimeoutFits
          · obtain ⟨timeout, isTimeout⟩ := fits.effectiveTimeout isServer known
            simp only [wp_bind, wp_ofExcept, isTimeout, serverItem, toolItem, mcpCall, registered,
              wp_read, wp_write, wp_pure]
            exact .dispatched each marker.symm fits rfl
          · simp only [wp_bind, wp_ofExcept, effectiveTimeout_overflow fits]
            exact .overflowed each marker.symm fits

/-- The marker stays in the tree exactly where a ref resolves to nothing. -/
theorem substitute_present (loads : LoadsJson env) {entries : List (Val × Val)}
    (accepted : ∀ entry ∈ entries, ArgsAccepted env entry.2) :
    hasAbsent (substitute (resolvedValue env data) (.dict entries)) = false ↔
      ∀ ref ∈ refsOf (.dict entries), (refValue env data ref).isSome = true := by
  rw [substitute, hasAbsent, hasAbsent_substituteEntries entries accepted, refsOf,
    List.any_eq_false]
  refine forall₂_congr fun ref _ => ?_
  rw [resolvedValue_hasAbsent loads, Bool.not_eq_true, Option.isNone_eq_false_iff]

def ResolvesToAbsent (env : Env) (data : StepData) (skipped : List String)
    (referencing ref : String) : Prop :=
  resolveRef env (.str ref) data skipped referencing = .ok none

theorem resolvesToAbsent_iff {ref : String} (segment : HasSegment ref) :
    ResolvesToAbsent env data skipped referencing ref ↔ Passes env data skipped ref ∧
      refValue env data ref = none := by
  constructor
  · intro absent
    obtain ⟨kept, legible, value⟩ := resolveRef_answers segment absent
    exact ⟨⟨kept, legible⟩, value.symm⟩
  · rintro ⟨⟨kept, legible⟩, value⟩
    rw [ResolvesToAbsent, resolveRef_eq segment legible, if_neg kept, value]

/-- The executor replaces the refs and nothing else; the cascade is signalled exactly when a ref
names a skipped step, and the call goes out, without a marker, exactly when none does and none
resolves to absent. -/
def ResolvesExactly (env : Env) (registry : Option Registry) (step : Step) (data : StepData)
    (skipped : List String) (args : Val) (world : World) : Prop :=
  let ends := (executeMcpToolCallStep env registry step data skipped).run world
  (∀ tree, resolveArgs env data skipped step.id args = .ok tree →
    tree = substitute (resolvedValue env data) args) ∧
  ((∃ sid referencing, ends.1 = .error (.skippedPredecessor sid referencing)) ↔
    ∃ ref ∈ refsOf args, refStep ref ∈ skipped) ∧
  (ends.2.outbound ≠ world.outbound ↔
    ∀ ref ∈ refsOf args, refStep ref ∉ skipped ∧ ¬ResolvesToAbsent env data skipped step.id ref) ∧
  (ends.2.outbound ≠ world.outbound → ∃ request, ends.2.outbound = world.outbound ++ [request] ∧
    request.args = substitute (resolvedValue env data) args ∧ hasAbsent request.args = false)

/-- No content stands in the way of the first ref to a skipped step; where no ref names one and each
that can be read has a value, all can be read and the timeout has a float. -/
structure Unobstructed (env : Env) (step : Step) (data : StepData) (skipped : List String)
    (refs : List String) : Prop where
  reached : (∃ ref ∈ refs, refStep ref ∈ skipped) →
    ∀ ref ∈ refs.takeWhile fun ref => decide (refStep ref ∉ skipped), LegibleAt env data ref
  sent : (∀ ref ∈ refs, refStep ref ∉ skipped ∧
    (LegibleAt env data ref → (refValue env data ref).isSome)) →
    step.TimeoutFits ∧ ∀ ref ∈ refs, LegibleAt env data ref

theorem takeWhile_kept {before after : List String} {ref : String}
    (each : ∀ earlier ∈ before, Passes env data skipped earlier) :
    (before ++ ref :: after).takeWhile (fun ref => decide (refStep ref ∉ skipped)) =
      before ++ (ref :: after).takeWhile fun ref => decide (refStep ref ∉ skipped) :=
  List.takeWhile_append_of_pos fun earlier member => decide_eq_true (each earlier member).1

def mailDoc : Val := workflowDoc "mail" [stepDoc "a" [],
  .obj [("id", .str "send"), ("title", .str "send"), ("action", .str "mcp_tool_call"),
    ("server", .str "tools"), ("tool", .str "run"), ("args",
      .obj [("text", .str "$\x7bstep_data.a\x7d"), ("tags", .list [.str "new"])])]]

def slowDoc : Val := workflowDoc "slow" [mcpDoc "t" [("timeout", .int (10 ^ 200 * 10 ^ 200))]]

end Megalos
