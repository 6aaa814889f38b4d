import Megalos.Response

/-!
Reading a response envelope: what stands under a key of it, and which keys the parts of
a response bring.
-/

namespace Megalos

def KeyedBy (keys : List String) (fields : List (String × Val)) : Prop :=
    ∀ entry ∈ fields, entry.1 ∈ keys

variable {env : Env} {wf : Workflow} {step : Step} {data : StepData} {keys : List String}
  {key : String} {fields more : List (String × Val)}

theorem field?_cons (entry : String × Val) (fields : List (String × Val)) (key : String) :
    field? (entry :: fields) key = if entry.1 = key then some entry.2 else field? fields key := by
  unfold field?
  by_cases same : entry.1 = key <;> simp [same]

theorem field?_append (fields more : List (String × Val)) (key : String) :
    field? (fields ++ more) key = (field? fields key).or (field? more key) := by
  unfold field?
  rw [List.find?_append]
  cases fields.find? fun entry => entry.1 == key <;> rfl

theorem KeyedBy.field?_none (keyed : KeyedBy keys fields) (foreign : key ∉ keys) :
    field? fields key = none := by
  unfold field?
  rw [Option.map_eq_none_iff, List.find?_eq_none]
  intro entry member same
  have isKey : entry.1 = key := by simpa using same
  exact foreign (isKey ▸ keyed entry member)

theorem KeyedBy.append (first : KeyedBy keys fields) (second : KeyedBy keys more) :
    KeyedBy keys (fields ++ more) := by
  intro entry member
  rcases List.mem_append.mp member with here | there
  · exact first entry here
  · exact second entry there

theorem KeyedBy.mono {wider : List String} (keyed : KeyedBy keys fields) (subset : keys ⊆ wider) :
    KeyedBy wider fields := fun entry member => subset (keyed entry member)

theorem Val.get?_obj (fields : List (String × Val)) (key : String) :
    (Val.obj fields).get? key = field? fields key := by
  change Option.map Prod.snd ((fields.map fun entry =>
    (Val.str entry.1, entry.2)).find? fun entry =>
    entry.1.isStr key) = _
  rw [List.find?_map, Option.map_map]
  rfl

def Val.isError (response : Val) : Bool :=
    ((response.get? "status").map (·.isStr "error")).getD false

@[simp] theorem errorResponse_isError (code error : String) (fields : List (String × Val)) :
    (errorResponse code error fields).isError = true := by
  simp [Val.isError, errorResponse, Val.get?_obj, field?_cons]

theorem Val.isError_obj (unmarked : field? fields "status" = Option.none) :
    (Val.obj fields).isError = false := by
  simp [Val.isError, Val.get?_obj, unmarked]

theorem promptFields_keyed (prompted : promptFields wf step = .ok fields) :
    KeyedBy ["directive", "do_not", "conversation_repair", "gates"] fields := by
  obtain ⟨directive, -, prompted⟩ := except_bind_ok.mp prompted
  obtain ⟨repair, -, prompted⟩ := except_bind_ok.mp prompted
  obtain ⟨gates, -, prompted⟩ := except_bind_ok.mp prompted
  obtain rfl := Except.ok.inj prompted
  simp [KeyedBy]

theorem injectedFields_keyed (injected : injectedFields env step data = .ok fields) :
    KeyedBy ["injected_context"] fields := by
  unfold injectedFields at injected
  split at injected
  · obtain ⟨context, -, injected⟩ := except_bind_ok.mp injected
    obtain rfl := Except.ok.inj injected
    simp [KeyedBy]
  · obtain rfl := Except.ok.inj injected
    simp [KeyedBy]

theorem flaggedFields_keyed (step : Step) (keys : List String) :
    KeyedBy keys (flaggedFields step keys) := by
  intro entry member
  obtain ⟨key, kept, rfl⟩ := List.mem_map.mp member
  exact (List.mem_filter.mp kept).1

theorem branchFields_keyed (step : Step) :
    KeyedBy ["branches", "default_branch"] (branchFields step) := by
  unfold branchFields
  split
  · exact flaggedFields_keyed step _
  · simp [KeyedBy]

theorem guidanceFields_keyed (guided : guidanceFields env wf step data = .ok fields) :
    KeyedBy ["directive", "do_not", "conversation_repair", "gates", "injected_context",
      "directives", "branches", "default_branch"] fields := by
  obtain ⟨prompt, prompted, guided⟩ := except_bind_ok.mp guided
  obtain ⟨injected, injects, guided⟩ := except_bind_ok.mp guided
  obtain rfl := Except.ok.inj guided
  refine KeyedBy.append (KeyedBy.append (KeyedBy.append ?_ ?_) ?_) ?_
  · exact (promptFields_keyed prompted).mono (by simp)
  · exact (injectedFields_keyed injects).mono (by simp)
  · exact (flaggedFields_keyed step _).mono (by simp)
  · exact (branchFields_keyed step).mono (by simp)

end Megalos
