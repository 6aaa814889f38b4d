import Megalos.Accepted
import Megalos.Sample

/-!
Step ids as keys: which ids an accepted document can have, and which unsound ones are
kept out.
-/

namespace Megalos

variable {env : Env} {registry : Option Registry} {stem : String} {raw doc : Val}

/-- The id of each step of a document. -/
def idsOf (doc : Val) : List Val :=
  match doc.get? "steps" with
  | some (.list steps) => steps.map fun step => (step.get? "id").getD .none
  | _ => []

/-- Ids that every function of the runtime can use: distinct texts, no sentinel among them. -/
def SoundKeys (ids : List Val) : Prop :=
  (∀ id ∈ ids, ∃ text, id = .str text ∧ text ≠ complete ∧ text ≠ workflowChanged) ∧ ids.Nodup

/-- A value that can be a member of a set. -/
def Val.Hashable (value : Val) : Prop :=
    (∀ items, value ≠ .list items) ∧ ∀ entries, value ≠ .dict entries

/-- The validator has no error about some document with these ids. -/
def LetsIn (env : Env) (registry : Option Registry) (stem : String) (ids : List Val) : Prop :=
  ∃ raw doc, validateWorkflow env registry stem raw = .ok ([], some doc) ∧ idsOf raw = ids

def plainStep (id : Val) : Val :=
  .obj [("id", id), ("title", .str "step"), ("directive_template", .str "Answer."),
    ("gates", .list []), ("anti_patterns", .list [])]

def plainDoc (ids : List Val) : Val := workflowDoc "plain" (ids.map plainStep)

theorem validateStep_plain (position : Nat) (id : Val) :
    validateStep env position (plainStep id) = .ok [] := by
  rfl

theorem mapM_ok {α β : Type} {act : α → Except Exn β} {items : List α}
    (each : ∀ item ∈ items, ∃ value, act item = .ok value) :
    ∃ values, items.mapM act = .ok values := by
  induction items with
  | nil => exact ⟨[], rfl⟩
  | cons item rest ih =>
      obtain ⟨value, first⟩ := each item (by simp)
      obtain ⟨values, later⟩ := ih fun other member => each other (by simp [member])
      exact ⟨value :: values, by simp [first, later, StatefulProgram.ok_bind, pure, Except.pure]⟩

theorem mappedSteps_plain {ids : List Val} {entry : Nat × Mapping}
    (mapped : entry ∈ mappedSteps (ids.map plainStep)) :
    ∃ id ∈ ids, entry.2 = [(.str "id", id), (.str "title", .str "step"),
      (.str "directive_template", .str "Answer."), (.str "gates", .list []), (.str "anti_patterns",
        .list [])] := by
  obtain ⟨id, isId, same⟩ := List.mem_map.mp (mem_mappedSteps mapped)
  exact ⟨id, isId, (Val.dict.inj same).symm⟩

theorem validateWorkflow_plain {ids : List Val} (nonempty : ids ≠ [])
    (hashable : ∀ id ∈ ids, id.Hashable) :
    ∃ doc, validateWorkflow env registry stem (plainDoc ids) = .ok ([], some doc) := by
  obtain ⟨values, collected⟩ : ∃ values, allStepIds (ids.map plainStep) = .ok values := by
    refine mapM_ok ?_
    intro entry mapped
    obtain ⟨id, isId, same⟩ := mappedSteps_plain mapped
    obtain ⟨notList, notDict⟩ := hashable id isId
    have isHere : entry.2.get? "id" = some id := by rw [same]; rfl
    rw [isHere, Option.getD_some]
    split
    · exact absurd rfl (notList _)
    · exact absurd rfl (notDict _)
    · exact ⟨_, rfl⟩
  refine ⟨_, validateWorkflow_ok_nil.mpr ⟨_, ids.map plainStep, rfl, rfl, by simpa using nonempty,
    rfl, ?_, rfl⟩⟩
  refine validateSteps_ok_nil.mpr ⟨?_, ?_, ?_, values, collected, gather_ok_nil.mpr ?_, ?_, rfl⟩
  · intro position step there
    rw [List.getElem?_map, Option.map_eq_some_iff] at there
    obtain ⟨id, -, rfl⟩ := there
    exact validateStep_plain position id
  · unfold validateServers
    dsimp only
    rw [if_pos]
    rw [List.isEmpty_iff, List.filter_eq_nil_iff]
    intro entry mapped
    obtain ⟨id, -, same⟩ := mappedSteps_plain mapped
    rw [same]
    simp [isMcpMapping, Mapping.get?, Val.valueAt?]
  · rw [validateWorkflowPreconditions_nil]
    intro entry mapped
    obtain ⟨id, -, same⟩ := mappedSteps_plain mapped
    rw [same]
    rfl
  · intro check member
    obtain ⟨entry, mapped, rfl⟩ := List.mem_map.mp member
    obtain ⟨id, -, same⟩ := mappedSteps_plain mapped
    rw [same]
    rfl
  · intro entry mapped
    obtain ⟨id, -, same⟩ := mappedSteps_plain mapped
    rw [same]
    rfl

theorem idsOf_plain (ids : List Val) : idsOf (plainDoc ids) = ids := by
  have each : (ids.map plainStep).map (fun step => (step.get? "id").getD .none) = ids := by
    rw [List.map_map]
    exact List.map_id _
  exact each

theorem idsOf_accepted (accepted : validateWorkflow env registry stem raw = .ok ([], some doc)) :
    idsOf raw ≠ [] ∧ ∀ id ∈ idsOf raw, id.Hashable := by
  obtain ⟨entries, steps, rfl, found, nonempty, -, passed, -⟩ := validateWorkflow_ok_nil.mp accepted
  obtain ⟨own, -, -, ids, collected, -⟩ := validateSteps_ok_nil.mp passed
  have here : (Val.dict entries).get? "steps" = some (.list steps) := by
    rw [← found, withSchemaVersion_get? (by simp)]
    rfl
  have same : idsOf (.dict entries) = steps.map fun step => (step.get? "id").getD .none :=
    by simp [idsOf, here]
  rw [same]
  refine ⟨by simpa using nonempty, ?_⟩
  intro id member
  obtain ⟨step, isStep, rfl⟩ := List.mem_map.mp member
  obtain ⟨position, bound, there⟩ := List.getElem_of_mem isStep
  have checked := own position step (List.getElem?_eq_some_iff.mpr ⟨bound, there⟩)
  cases step with
  | dict fields =>
      obtain ⟨place, mapped⟩ := mappedSteps_mem isStep
      obtain ⟨id, -, hashed⟩ := forall₂_mem_left (mapM_ok_forall₂ collected) mapped
      simp only [Val.get?]
      dsimp only [Mapping.get?] at hashed
      constructor
      · intro items isList
        rw [isList] at hashed
        cases hashed
      · intro inner isDict
        rw [isDict] at hashed
        cases hashed
  | _ => simp [validateStep] at checked

/-- The ids of the accepted documents are the nonempty lists of hashable values. So of the ids that
are no sound keys only those are kept out that are none at all, or hold a list or a mapping. -/
theorem validateWorkflow_soundKeys (env : Env) (registry : Option Registry) (stem : String)
    (ids : List Val) :
    (LetsIn env registry stem ids ↔ ids ≠ [] ∧ ∀ id ∈ ids, id.Hashable) ∧
    (¬SoundKeys ids → (¬LetsIn env registry stem ids ↔ ids = [] ∨ ∃ id ∈ ids, ¬id.Hashable)) := by
  have letsIn : LetsIn env registry stem ids ↔ ids ≠ [] ∧ ∀ id ∈ ids, id.Hashable := by
    constructor
    · rintro ⟨raw, doc, accepted, rfl⟩
      exact idsOf_accepted accepted
    · rintro ⟨nonempty, hashable⟩
      obtain ⟨doc, accepted⟩ := validateWorkflow_plain nonempty hashable
      exact ⟨plainDoc ids, doc, accepted, idsOf_plain ids⟩
  refine ⟨letsIn, fun _ => ?_⟩
  rw [letsIn, not_and_or, not_not]
  simp only [not_forall, exists_prop]

theorem soundKeys_mapping : ¬LetsIn sampleEnv none "plain" [.str "a", .dict []] := by
  have unsound : ¬SoundKeys [.str "a", .dict []] := by
    rintro ⟨texts, -⟩
    obtain ⟨text, same, -⟩ := texts (.dict []) (by simp)
    cases same
  refine ((validateWorkflow_soundKeys sampleEnv none "plain" [.str "a",
    .dict []]).2 unsound).mpr (.inr ⟨.dict [], by simp, ?_⟩)
  exact fun hashable => hashable.2 [] rfl

/-- The validator does not look at the type of an id, and does not compare ids. -/
theorem not_always_soundKeys : ¬∀ env registry stem raw doc,
    validateWorkflow env registry stem raw = .ok ([], some doc) → SoundKeys (idsOf raw) := by
  intro always
  have hashable : ∀ id ∈ [Val.str "a", .str "a"], id.Hashable := by simp [Val.Hashable]
  obtain ⟨doc, accepted⟩ : ∃ doc,
    validateWorkflow sampleEnv none "plain" (plainDoc [.str "a", .str "a"]) =
    .ok ([], some doc) := validateWorkflow_plain (by simp) hashable
  have sound := always _ _ _ _ doc accepted
  rw [idsOf_plain] at sound
  exact absurd sound.2 (by simp)

end Megalos
