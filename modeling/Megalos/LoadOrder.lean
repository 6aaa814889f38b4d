import Mathlib.Algebra.GroupWithZero.Nat
import Mathlib.Data.List.Dedup
import Mathlib.Data.List.Perm.Basic
import Megalos.Sample

/-!
`create_app` and the order in which a directory lists its files: what is loaded does not
depend on it where each file brings a name of its own, and nor does what the checks across
the workflows find.
-/

namespace Megalos

open KeyedTable

/-! The checks across the workflows read them as a set. -/

section CallGraph

variable {env : Env} {workflows others : List (String × Val)}

theorem insertionSort_perm {names more : List String} (same : names.Perm more) :
    names.insertionSort (· ≤ ·) = more.insertionSort (· ≤ ·) := by
  have sorted : ∀ list : List String, (list.insertionSort (· ≤ ·)).Pairwise (· ≤ ·) :=
    List.pairwise_insertionSort _
  have perm := (List.perm_insertionSort (· ≤ ·) names).trans
    (same.trans (List.perm_insertionSort (· ≤ ·) more).symm)
  exact perm.eq_of_pairwise' (sorted names) (sorted more)

theorem any_perm (same : workflows.Perm others) (target : String) :
    (workflows.any fun other => other.1 == target) = others.any fun other => other.1 == target := by
  rw [Bool.eq_iff_iff, List.any_eq_true, List.any_eq_true]
  simp only [same.mem_iff]

theorem outgoing_perm (same : workflows.Perm others) :
    outgoing env workflows = outgoing env others := by
  funext name
  unfold outgoing
  dsimp only
  have targets := ((same.filter fun entry => entry.1 == name).flatMap_right fun entry =>
    (callEdges env entry.2).map Prod.snd)
  simp only [any_perm same]
  exact insertionSort_perm (targets.filter _).dedup

theorem unknownTargets_perm (same : workflows.Perm others) :
    (unknownTargets env workflows).Perm (unknownTargets env others) := by
  unfold unknownTargets
  simp only [any_perm same]
  exact same.flatMap_right _

theorem validateWorkflowCalls_perm (same : workflows.Perm others) :
    (validateWorkflowCalls env workflows).Perm (validateWorkflowCalls env others) := by
  unfold validateWorkflowCalls
  dsimp only
  rw [outgoing_perm same, insertionSort_perm (same.map Prod.fst)]
  exact (unknownTargets_perm same).append_right _

end CallGraph

/-! What the loop over the files makes of them. -/

structure Loaded where
  name : String
  workflow : Workflow
  fingerprint : String

structure FileLoads (env : Env) (registry : Option Registry) (file : String × Val)
    (loaded : Loaded) : Prop where
  loads : ∃ doc, loadWorkflow env registry file.1 file.2 = .ok doc ∧
    Workflow.load doc = some loaded.workflow ∧
    doc.get? "name" = some (.str loaded.name)
  fingerprint : loaded.fingerprint = workflowFingerprint env file.2

def Deployment.add (deployment : Deployment) (loaded : Loaded) : Deployment :=
  { deployment with
    workflows := deployment.workflows.set loaded.name loaded.workflow
    workflowFingerprints := deployment.workflowFingerprints.set loaded.name loaded.fingerprint }

variable {env : Env} {registry : Option Registry} {caller : Identity} {files : List (String × Val)}
  {start deployment : Deployment}

theorem loadFiles_ok : loadFiles env files start = .ok (some deployment) ↔
    ∃ all, List.Forall₂ (FileLoads env start.registry) files all ∧
      deployment = all.foldl Deployment.add start := by
  induction files generalizing start with
  | nil =>
      rw [loadFiles]
      constructor
      · intro same
        cases same
        exact ⟨[], .nil, rfl⟩
      · rintro ⟨all, nothing, rfl⟩
        cases nothing
        rfl
  | cons file rest ih =>
      rw [loadFiles]
      constructor
      · intro loads
        split at loads
        · cases loads
        rename_i doc read
        split at loads
        · rename_i wf name loaded named
          obtain ⟨all, each, rfl⟩ := ih.mp loads
          exact ⟨⟨name, wf, workflowFingerprint env file.2⟩ :: all,
            .cons ⟨⟨doc, read, loaded, named⟩, rfl⟩ each, rfl⟩
        · cases loads
      · rintro ⟨all, each, rfl⟩
        cases each with
        | cons first later =>
            rename_i loaded all
            obtain ⟨⟨doc, read, loads, named⟩, fingerprint⟩ := first
            rw [read]
            dsimp only
            rw [loads, named]
            refine ih.mpr ⟨all, later, ?_⟩
            rw [List.foldl_cons, ← fingerprint]
            rfl

theorem loadWorkflow_name {stem : String} {raw doc : Val}
    (read : loadWorkflow env registry stem raw = .ok doc) :
    doc.get? "name" = raw.get? "name" := by
  obtain ⟨entries, steps, rfl, -, -, -, -, kept⟩ :=
    validateWorkflow_ok_nil.mp (loadWorkflow_ok.mp read)
  cases kept
  exact withSchemaVersion_get? (by decide)

theorem names_of_loads {all : List Loaded}
    (each : List.Forall₂ (FileLoads env registry) files all) :
    (files.map fun file => file.2.get? "name") = all.map fun loaded => some (.str loaded.name) := by
  induction each with
  | nil => rfl
  | cons first _ ih =>
      obtain ⟨doc, read, -, named⟩ := first.loads
      rw [List.map_cons, List.map_cons, ih, ← loadWorkflow_name read, named]

theorem foldl_set_rows {ν : Type} {all : List Loaded} (value : Loaded → ν) {dict : Dict ν}
    (distinct : (dict.rows.map Prod.fst ++ all.map Loaded.name).Nodup) :
    (all.foldl (fun dict loaded => dict.set loaded.name (value loaded)) dict).rows =
      dict.rows ++ all.map fun loaded => (loaded.name, value loaded) := by
  induction all generalizing dict with
  | nil => rw [List.foldl_nil, List.map_nil, List.append_nil]
  | cons loaded rest ih =>
      have absent : dict.lookup loaded.name = none := by
        rw [Table.lookup_eq_none_iff]
        intro member
        rw [List.map_cons, List.nodup_append] at distinct
        exact distinct.2.2 _ member _ List.mem_cons_self rfl
      have grown : (dict.set loaded.name (value loaded)).rows = dict.rows ++
        [(loaded.name, value loaded)] :=
        Table.rows_upsert_new absent
      rw [List.foldl_cons, ih, grown, List.append_assoc]
      · rfl
      · rw [grown, List.map_append, List.append_assoc]
        exact distinct

theorem foldl_add (all : List Loaded) : all.foldl Deployment.add start =
    { start with
      workflows := all.foldl (fun dict loaded =>
        dict.set loaded.name loaded.workflow) start.workflows
      workflowFingerprints := all.foldl (fun dict loaded => dict.set loaded.name loaded.fingerprint)
        start.workflowFingerprints } := by
  induction all generalizing start with
  | nil => rfl
  | cons loaded rest ih =>
      rw [List.foldl_cons, ih]
      rfl

theorem createApp_ok : createApp env registry caller files = .ok (some deployment) ↔
    loadFiles env files ⟨Table.empty, Table.empty, registry, caller⟩ = .ok (some deployment) ∧
      validateWorkflowCalls env (deployment.workflows.rows.map fun entry =>
        (entry.1, entry.2.doc)) = [] ∧
      deployment.workflows.rows ≠ [] := by
  unfold createApp
  constructor
  · intro created
    split at created
    · rename_i built loads
      split at created
      · cases created
      · rename_i silent
        split at created
        · cases created
        · rename_i some
          cases created
          exact ⟨loads, silent, fun none => some (List.length_eq_zero_iff.mpr none)⟩
    · rename_i other
      exact absurd created (other deployment)
  · rintro ⟨loads, silent, some⟩
    rw [loads]
    dsimp only
    rw [silent]
    dsimp only
    exact if_neg fun none => some (List.length_eq_zero_iff.mp none)

structure Lists (all : List Loaded) (deployment : Deployment) : Prop where
  workflows : deployment.workflows.rows = all.map fun loaded => (loaded.name, loaded.workflow)
  fingerprints : deployment.workflowFingerprints.rows = all.map fun loaded =>
    (loaded.name, loaded.fingerprint)

theorem get?_of_mem {ν : Type} {dict : Dict ν} {name : String} {value : ν}
    (member : (name, value) ∈ dict.rows) :
    dict.get? name = some value := by
  rw [Dict.get?, show dict.lookup name = some (name, value) from Table.lookup_of_mem member]
  rfl

theorem Lists.lockstep {all : List Loaded} (lists : Lists all deployment) {name : String}
    (known : (deployment.workflows.get? name).isSome = true) : ∃ loaded ∈ all, loaded.name = name ∧
      deployment.workflows.get? name = some loaded.workflow ∧
      deployment.workflowFingerprints.get? name = some loaded.fingerprint := by
  obtain ⟨wf, found⟩ := Option.isSome_iff_exists.mp known
  have row := Dict.mem_of_get? found
  rw [lists.workflows] at row
  obtain ⟨loaded, member, same⟩ := List.mem_map.mp row
  cases same
  refine ⟨loaded, member, rfl, found, get?_of_mem ?_⟩
  rw [lists.fingerprints]
  exact List.mem_map.mpr ⟨loaded, member, rfl⟩

theorem lists_foldl {all : List Loaded} (distinct : (all.map Loaded.name).Nodup) :
    Lists all (all.foldl Deployment.add ⟨Table.empty, Table.empty, registry, caller⟩) := by
  rw [foldl_add]
  exact ⟨foldl_set_rows Loaded.workflow distinct, foldl_set_rows Loaded.fingerprint distinct⟩

theorem names_distinct {all : List Loaded} (each : List.Forall₂ (FileLoads env registry) files all)
    (distinct : (files.map fun file => file.2.get? "name").Nodup) :
    (all.map Loaded.name).Nodup := by
  rw [names_of_loads each] at distinct
  have shape : (all.map fun loaded => some (Val.str loaded.name)) =
      (all.map Loaded.name).map fun name => some (Val.str name) := by
    rw [List.map_map]
    rfl
  rw [shape] at distinct
  exact distinct.of_map

/-- An app is accepted in every order of its files or in none, with the same workflows and the same
fingerprints, each under its name. -/
theorem createApp_permuted {others : List (String × Val)} (same : others.Perm files)
    (distinct : (files.map fun file => file.2.get? "name").Nodup)
    (created : createApp env registry caller files = .ok (some deployment)) :
    ∃ other, createApp env registry caller others = .ok (some other) ∧
      other.registry = deployment.registry ∧
      other.caller = deployment.caller ∧ other.workflows.rows.Perm deployment.workflows.rows ∧
      other.workflowFingerprints.rows.Perm deployment.workflowFingerprints.rows ∧
      ∀ name, (deployment.workflows.get? name).isSome = true → ∃ file ∈ files, ∃ loaded : Loaded,
        FileLoads env registry file loaded ∧ loaded.name = name ∧
          deployment.workflows.get? name = some loaded.workflow ∧
          deployment.workflowFingerprints.get? name = some loaded.fingerprint := by
  obtain ⟨loads, silent, some⟩ := createApp_ok.mp created
  obtain ⟨all, each, built⟩ := loadFiles_ok.mp loads
  obtain ⟨more, eachOther, permuted⟩ := List.perm_comp_forall₂ same each
  have nodup : (all.map Loaded.name).Nodup := names_distinct each distinct
  have lists : Lists all deployment := built ▸ lists_foldl nodup
  have otherLists : Lists more (more.foldl Deployment.add ⟨Table.empty, Table.empty, registry,
    caller⟩) :=
    lists_foldl ((permuted.map Loaded.name).nodup_iff.mpr nodup)
  have workflows : (more.foldl Deployment.add ⟨Table.empty, Table.empty, registry,
    caller⟩).workflows.rows.Perm
      deployment.workflows.rows := by
    rw [otherLists.workflows, lists.workflows]
    exact permuted.map _
  have fingerprints : (more.foldl Deployment.add
      ⟨Table.empty, Table.empty, registry, caller⟩).workflowFingerprints.rows.Perm
        deployment.workflowFingerprints.rows := by
    rw [otherLists.fingerprints, lists.fingerprints]
    exact permuted.map _
  refine ⟨_, createApp_ok.mpr ⟨loadFiles_ok.mpr ⟨more, eachOther, rfl⟩, ?_, ?_⟩, ?_, ?_, workflows,
    fingerprints, ?_⟩
  · have errors := @validateWorkflowCalls_perm env _ _ (workflows.map fun entry =>
      (entry.1, entry.2.doc))
    rw [silent] at errors
    exact errors.eq_nil
  · intro none
    rw [none] at workflows
    exact some workflows.nil_eq.symm
  · rw [built, foldl_add, foldl_add]
  · rw [built, foldl_add, foldl_add]
  · intro name known
    obtain ⟨loaded, member, named, found, stamped⟩ := lists.lockstep known
    obtain ⟨file, there, loadedFrom⟩ := forall₂_mem_right each member
    exact ⟨file, there, loaded, loadedFrom, named, found, stamped⟩

def pairedDocs : List Val := [
  workflowDoc "outer" [stepDoc "a" [("call", .str "inner")]], workflowDoc "inner" [stepDoc "x" []]]

theorem createApp_permuted_pair : ∃ other,
    createApp sampleEnv (some sampleRegistry) .anonymous (pairedDocs.reverse.map fun document =>
      ("workflow", document)) =
        .ok (some other) ∧ other.workflows.rows.Perm (appOf sampleEnv pairedDocs).workflows.rows := by
  have distinct : ((pairedDocs.map fun document => ("workflow", document)).map
      fun file => file.2.get? "name").Nodup := by
    change [some (Val.str "outer"), some (Val.str "inner")].Nodup
    simp
  have created : createApp sampleEnv (some sampleRegistry) .anonymous
      (pairedDocs.map fun document => ("workflow", document)) =
        .ok (some (appOf sampleEnv pairedDocs)) := rfl
  have same : (pairedDocs.reverse.map fun document => ("workflow", document)).Perm
      (pairedDocs.map fun document => ("workflow", document)) :=
        (List.reverse_perm pairedDocs).map _
  obtain ⟨other, loads, -, -, workflows, -⟩ := createApp_permuted same distinct created
  exact ⟨other, loads, workflows⟩

end Megalos
