import Megalos.Fingerprint
import Megalos.Sample

/-!
The two derivations of a fingerprint: `create_app` hashes the parsed text, and the
fallback of `_fingerprint_for` the document that `validate_workflow` made of it, which has
a `schema_version` whether the text has one or not.
-/

namespace Megalos

open JsonText KeyedTable

/-- What the server takes from `json.dumps` and SHA-256, the latter without collisions. -/
structure CanonicalEnv (env : Env) (floats : FloatRepr) (sorting : Sorting) : Prop where
  dumps : ∀ value text, canonicalText floats sorting value.yaml = some text →
    env.canonicalDumps value = text
  digest : Function.Injective env.sha256

/-- The fallback of `_fingerprint_for`, on the document in the live dict. -/
def derivedFingerprint (env : Env) (doc : Val) : String := env.sha256 (env.canonicalDumps doc)

variable {env : Env} {floats : FloatRepr} {sorting : Sorting} {registry : Option Registry}
  {stem : String} {entries : Mapping} {raw doc value : Val}

theorem yamlEntries_eq (entries : Mapping) :
    yamlEntries entries = entries.map fun entry => (entry.1.leaf, entry.2.yaml) := by
  induction entries with
  | nil => rfl
  | cons entry rest ih =>
      obtain ⟨key, value⟩ := entry
      rw [yamlEntries, ih, List.map_cons]

theorem yamlItems_eq (items : List Val) : yamlItems items = items.map Val.yaml := by
  induction items with
  | nil => rfl
  | cons item rest ih => rw [yamlItems, ih, List.map_cons]

theorem yamlEntries_snoc (entries : Mapping) (text : String) (added : Val) :
    yamlEntries (entries ++ [(.str text, added)]) = yamlEntries entries ++
      [(.str text, added.yaml)] := by
  rw [yamlEntries_eq, List.map_append, ← yamlEntries_eq]
  rfl

theorem canonicalText_isSome : (canonicalText floats sorting value.yaml).isSome ↔
    ∃ data, value.yaml.json floats sorting = some data := by
  rw [canonicalText, Option.isSome_map, Option.isSome_iff_exists]

/-! A document without the key. -/

/-- The keys of a mapping with a string key are strings if they can be sorted. -/
theorem writable_str {keys : List Leaf} (allowed : writable keys = true) {text : String}
    (member : .str text ∈ keys) :
    keys.all Leaf.isStr = true := by
  unfold writable at allowed
  rw [Bool.or_eq_true, Bool.or_eq_true] at allowed
  rcases allowed with (strings | numbers) | lone
  · exact strings
  · have number := List.all_eq_true.mp numbers _ member
    simp [Leaf.number?] at number
  · rw [beq_iff_eq] at lone
    rw [lone, List.mem_singleton] at member
    cases member

theorem mem_of_get? {key : String} {found : Val} (there : entries.get? key = some found) :
    (.str key, found) ∈ entries := by
  unfold Mapping.get? Val.valueAt? at there
  rw [Option.map_eq_some_iff] at there
  obtain ⟨⟨name, value⟩, first, rfl⟩ := there
  have same := List.find?_some first
  rw [Val.isStr_iff] at same
  rw [← same]
  exact List.mem_of_find?_eq_some first

theorem accepted_name (loaded : loadWorkflow env registry stem (.dict entries) = .ok doc) :
    ∃ found, (.str "name", found) ∈ entries := by
  obtain ⟨same, steps, isRaw, -, -, head, -⟩ :=
    validateWorkflow_ok_nil.mp (loadWorkflow_ok.mp loaded)
  cases isRaw
  obtain ⟨-, -, keys⟩ := validateHead_ok_nil.mp head
  obtain ⟨found, there⟩ := Option.isSome_iff_exists.mp (keys "name" (by simp))
  exact ⟨found, mem_of_get? there⟩

theorem accepted_doc (loaded : loadWorkflow env registry stem (.dict entries) = .ok doc) :
    doc = .dict (withSchemaVersion entries) := by
  obtain ⟨same, steps, isRaw, -, -, -, -, kept⟩ :=
    validateWorkflow_ok_nil.mp (loadWorkflow_ok.mp loaded)
  cases isRaw
  exact Option.some.inj kept

theorem json_snoc {added : Val} {text : String} {data addedData : Json Scalar}
    (listed : (Val.dict entries).yaml.json floats sorting = some data)
    (addedListed : added.yaml.json floats sorting = some addedData)
    (strings : ((yamlEntries entries).map Prod.fst).all Leaf.isStr = true) :
    ∃ grown, (Val.dict (entries ++ [(.str text, added)])).yaml.json floats sorting = some grown ∧
      grown ≠ data := by
  obtain ⟨rows, isRows, allowed, rfl⟩ := Yaml.json_mapping.mp listed
  have grownRows : jsonEntries floats sorting (yamlEntries (entries ++ [(.str text, added)])) =
      some (rows ++ [(.str text, addedData)]) := by
    rw [jsonEntries_iff] at isRows ⊢
    rw [yamlEntries_snoc]
    exact List.rel_append isRows (.cons ⟨rfl, addedListed⟩ .nil)
  have grownKeys : writable ((yamlEntries (entries ++ [(.str text, added)])).map Prod.fst) =
    true := by
    rw [yamlEntries_snoc, List.map_append, writable, List.all_append, strings]
    rfl
  refine ⟨_, Yaml.json_mapping.mpr ⟨_, grownRows, grownKeys, rfl⟩, ?_⟩
  intro same
  -- The two objects have different numbers of entries.
  have lengths := congrArg List.length (Json.object.inj same)
  rw [List.length_map, List.length_map, (sorting.perm _).length_eq, (sorting.perm _).length_eq,
    List.length_append, List.length_singleton] at lengths
  omega

theorem keys_all_str (loaded : loadWorkflow env registry stem (.dict entries) = .ok doc)
    {data : Json Scalar} (listed : (Val.dict entries).yaml.json floats sorting = some data) :
    ((yamlEntries entries).map Prod.fst).all Leaf.isStr = true := by
  obtain ⟨rows, -, allowed, -⟩ := Yaml.json_mapping.mp listed
  obtain ⟨found, member⟩ := accepted_name loaded
  apply writable_str allowed
  rw [yamlEntries_eq, List.map_map]
  exact List.mem_map_of_mem member

/-- The loaded document is written like the raw one if and only if the raw one has a version. -/
theorem dumps_loaded (canonical : CanonicalEnv env floats sorting)
    (loaded : loadWorkflow env registry stem (.dict entries) = .ok doc)
    (serialisable : (canonicalText floats sorting (Val.dict entries).yaml).isSome) :
    env.canonicalDumps doc = env.canonicalDumps (.dict entries) ↔
      entries.has "schema_version" = true := by
  rw [accepted_doc loaded, withSchemaVersion]
  by_cases versioned : entries.has "schema_version" = true
  · rw [if_pos versioned]
    exact iff_of_true rfl versioned
  · rw [if_neg versioned]
    refine iff_of_false ?_ versioned
    obtain ⟨data, listed⟩ := canonicalText_isSome.mp serialisable
    obtain ⟨grown, grownListed, differs⟩ :=
      json_snoc listed (rfl : (Val.str "0.4").yaml.json floats sorting = some _)
      (keys_all_str loaded listed)
    intro same
    have texts : canonicalText floats sorting (Val.dict entries).yaml =
        canonicalText floats sorting (Val.dict (entries ++
          [(.str "schema_version", .str "0.4")])).yaml := by
      obtain ⟨text, isText⟩ := Option.isSome_iff_exists.mp serialisable
      obtain ⟨other, isOther⟩ :=
        Option.isSome_iff_exists.mp (canonicalText_isSome.mpr ⟨grown, grownListed⟩)
      rw [isText, isOther, ← canonical.dumps _ _ isText, ← canonical.dumps _ _ isOther, same]
    rw [canonicalText_eq_iff, listed, grownListed] at texts
    exact differs (Option.some.inj texts).symm

/-! The document that the server keeps as a workflow. -/

theorem leaf_str {key : Val} (isStr : key.leaf.isStr = true) : ∃ text, key = .str text := by
  cases key with
  | str text => exact ⟨text, rfl⟩
  | float number => cases number <;> cases isStr
  | _ => cases isStr

def asEntries (fields : List (String × Val)) : Mapping :=
    fields.map fun entry => (.str entry.1, entry.2)

theorem loadFields_absent {key : String} (strings : ∀ entry ∈ entries, ∃ text, entry.1 = .str text)
    (absent : ∀ entry ∈ entries, entry.1 ≠ .str key) :
    asEntries (loadFields entries key) = entries := by
  induction entries with
  | nil => rfl
  | cons first rest ih =>
      obtain ⟨name, value⟩ := first
      obtain ⟨text, isText⟩ := strings _ List.mem_cons_self
      dsimp only at isText
      subst isText
      have differs : text ≠ key := by
        rintro rfl
        exact absent _ List.mem_cons_self rfl
      have later := ih (fun entry member =>
        strings entry (List.mem_cons_of_mem _ member)) fun entry member =>
        absent entry (List.mem_cons_of_mem _ member)
      unfold asEntries loadFields at later ⊢
      rw [List.filterMap_cons]
      simp only [if_neg differs, List.map_cons]
      rw [later]

theorem loadFields_perm {key : String} {found : Val}
    (strings : ∀ entry ∈ entries, ∃ text, entry.1 = .str text)
    (distinct : (entries.map Prod.fst).Nodup) (there : entries.get? key = some found) :
    entries.Perm ((.str key, found) :: asEntries (loadFields entries key)) := by
  induction entries with
  | nil => cases there
  | cons first rest ih =>
      obtain ⟨name, value⟩ := first
      obtain ⟨text, isText⟩ := strings _ List.mem_cons_self
      dsimp only at isText
      subst isText
      rw [List.map_cons, List.nodup_cons] at distinct
      have others : ∀ entry ∈ rest, ∃ text, entry.1 = .str text := fun entry member =>
        strings entry (List.mem_cons_of_mem _ member)
      by_cases same : text = key
      · subst same
        have isFound : found = value := by
          simpa [Mapping.get?, Val.valueAt?] using there.symm
        have absent : ∀ entry ∈ rest, entry.1 ≠ .str text := by
          intro entry member clash
          exact distinct.1 (List.mem_map.mpr ⟨entry, member, clash⟩)
        have kept := loadFields_absent others absent
        rw [isFound, loadFields, List.filterMap_cons]
        simp only [if_true]
        rw [loadFields] at kept
        rw [kept]
      · have later : Mapping.get? rest key = some found := by
          simpa [Mapping.get?, Val.valueAt?, same] using there
        have perm := ih others distinct.2 later
        rw [loadFields, List.filterMap_cons]
        simp only [if_neg same]
        exact (perm.cons _).trans (List.Perm.swap _ _ _)

theorem entries_str (strings : ((yamlEntries entries).map Prod.fst).all Leaf.isStr = true) :
    ∀ entry ∈ entries, ∃ text, entry.1 = .str text := by
  intro entry member
  apply leaf_str
  apply List.all_eq_true.mp strings
  rw [yamlEntries_eq, List.map_map]
  exact List.mem_map_of_mem member

theorem entries_distinct
    (distinct : ((yamlEntries entries).map Prod.fst).Pairwise fun first second =>
      keyEq first second = false)
    (strings : ∀ entry ∈ entries, ∃ text, entry.1 = .str text) : (entries.map Prod.fst).Nodup := by
  rw [yamlEntries_eq, List.map_map, List.pairwise_map] at distinct
  rw [List.Nodup, List.pairwise_map]
  refine distinct.imp_of_mem ?_
  intro first second member there apart same
  obtain ⟨text, isText⟩ := strings first member
  dsimp only [Function.comp_apply] at apart
  rw [← same, isText] at apart
  simp [keyEq, Val.leaf, Leaf.number?] at apart

/-- A mapping put together again from one of its values and the rest. -/
theorem rebuilt_json {key : String} {found other : Val} {data : Json Scalar}
    (strings : ((yamlEntries entries).map Prod.fst).all Leaf.isStr = true)
    (distinct : ((yamlEntries entries).map Prod.fst).Pairwise fun first second =>
      keyEq first second = false)
    (there : entries.get? key = some found)
    (same : found.yaml.json floats sorting = other.yaml.json floats sorting)
    (listed : (Val.dict entries).yaml.json floats sorting = some data) :
    (Val.obj ((key, other) :: loadFields entries key)).yaml.json floats sorting = some data := by
  have texts := entries_str strings
  have perm := loadFields_perm texts (entries_distinct distinct texts) there
  have permYaml : (yamlEntries entries).Perm (yamlEntries ((.str key,
    found) :: asEntries (loadFields entries key))) := by
    rw [yamlEntries_eq, yamlEntries_eq]
    exact perm.map _
  have ordered : Ordered ((yamlEntries entries).map Prod.fst) := by
    refine .inr fun member => ?_
    have isText := List.all_eq_true.mp strings _ member
    cases isText
  have reordered := json_order permYaml distinct ordered listed
  rw [← reordered]
  have replaced :
      jsonEntries floats sorting ([] ++
        (Leaf.str key, other.yaml) :: yamlEntries (asEntries (loadFields entries key))) =
        jsonEntries floats sorting ([] ++
          (Leaf.str key, found.yaml) :: yamlEntries (asEntries (loadFields entries key))) :=
    jsonEntries_congr same.symm
  have keyed : ∀ value : Val,
    yamlEntries ((.str key, value) :: asEntries (loadFields entries key)) =
      [] ++ (Leaf.str key, value.yaml) :: yamlEntries (asEntries (loadFields entries key)) :=
        fun _ => rfl
  change (Yaml.mapping (yamlEntries ((.str key,
    other) :: asEntries (loadFields entries key)))).json floats sorting = _
  rw [keyed, keyed, Yaml.json, Yaml.json, replaced]

theorem stepDoc_json {step : Step} (loaded : loadStep raw = some step) (parsed : raw.yaml.Parsed)
    {data : Json Scalar} (listed : raw.yaml.json floats sorting = some data) :
    step.doc.yaml.json floats sorting = some data := by
  cases raw with
  | dict entries =>
      simp only [loadStep] at loaded
      split at loaded
      · rename_i id found
        cases loaded
        obtain ⟨rows, -, allowed, -⟩ := Yaml.json_mapping.mp listed
        have strings : ((yamlEntries entries).map Prod.fst).all Leaf.isStr = true := by
          apply writable_str allowed
          rw [yamlEntries_eq, List.map_map]
          exact List.mem_map_of_mem (mem_of_get? found)
        exact rebuilt_json strings parsed.1 found rfl listed
      · cases loaded
  | _ => cases loaded

theorem stepDocs_json {raws : List Val} {steps : List Step}
    (loaded : List.Forall₂ (fun raw step => loadStep raw = some step) raws steps)
    (parsed : ∀ raw ∈ raws, raw.yaml.Parsed) {rows : List (Json Scalar)}
    (listed : jsonItems floats sorting (yamlItems raws) = some rows) :
    jsonItems floats sorting (yamlItems (steps.map Step.doc)) = some rows := by
  induction loaded generalizing rows with
  | nil => exact listed
  | @cons raw step raws steps first _ ih =>
      rw [yamlItems, jsonItems] at listed
      simp only [Option.bind_eq_bind, Option.bind_eq_some_iff, Option.pure_def,
        Option.some.injEq] at listed
      obtain ⟨data, isData, others, isOthers, rfl⟩ := listed
      have later := ih (fun raw member => parsed raw (List.mem_cons_of_mem _ member)) isOthers
      rw [List.map_cons, yamlItems, jsonItems,
        stepDoc_json first (parsed raw List.mem_cons_self) isData, later]
      rfl

theorem loaded_parsed (loaded : loadWorkflow env registry stem (.dict entries) = .ok doc)
    (parsed : (Val.dict entries).yaml.Parsed) {data : Json Scalar}
    (listed : (Val.dict entries).yaml.json floats sorting = some data) : doc.yaml.Parsed := by
  have strings := entries_str (keys_all_str loaded listed)
  rw [accepted_doc loaded, withSchemaVersion]
  by_cases versioned : entries.has "schema_version" = true
  · rw [if_pos versioned]
    exact parsed
  · rw [if_neg versioned]
    change Yaml.Everywhere True _ (.mapping (yamlEntries (entries ++
      [(.str "schema_version", .str "0.4")])))
    rw [yamlEntries_snoc]
    refine ⟨?_, everywhereEntries_iff.mpr ?_⟩
    · rw [List.map_append]
      apply List.pairwise_append.mpr
      refine ⟨parsed.1, List.pairwise_singleton _ _, ?_⟩
      intro key member other there
      rw [List.map_singleton, List.mem_singleton] at there
      rw [yamlEntries_eq, List.map_map] at member
      obtain ⟨entry, present, rfl⟩ := List.mem_map.mp member
      obtain ⟨text, isText⟩ := strings entry present
      have differs : text ≠ "schema_version" := by
        rintro rfl
        apply versioned
        rw [Mapping.has, Val.valueAt?, Option.isSome_map, List.find?_isSome]
        exact ⟨entry, present, by rw [isText, Val.isStr_iff]⟩
      rw [there, Function.comp_apply, isText]
      simp [keyEq, Val.leaf, Leaf.number?, differs]
    · intro entry member
      rcases List.mem_append.mp member with before | last
      · exact everywhereEntries_iff.mp parsed.2 entry before
      · rw [List.mem_singleton.mp last]
        trivial

theorem jsonEntries_value {rows : List (Leaf × Json Scalar)} {pairs : List (Leaf × Yaml)}
    {entry : Leaf × Yaml} (listed : jsonEntries floats sorting pairs = some rows)
    (member : entry ∈ pairs) :
    ∃ data, entry.2.json floats sorting = some data := by
  have pointwise := jsonEntries_iff.mp listed
  clear listed
  induction pointwise with
  | nil => cases member
  | cons first _ ih =>
      rcases List.mem_cons.mp member with rfl | later
      · exact ⟨_, first.2⟩
      · exact ih later

/-- What the server keeps of a document is written like the document. -/
theorem workflow_json {wf : Workflow} (kept : Workflow.load doc = some wf)
    (parsed : doc.yaml.Parsed)
    (strings : ∀ entries, doc = .dict entries →
      ((yamlEntries entries).map Prod.fst).all Leaf.isStr = true)
    {data : Json Scalar} (listed : doc.yaml.json floats sorting = some data) :
    wf.doc.yaml.json floats sorting = some data := by
  cases doc with
  | dict entries =>
      simp only [Workflow.load] at kept
      split at kept
      · rename_i raws found
        split at kept
        · rename_i first rest loads
          cases kept
          have member := mem_of_get? found
          have values : ∀ raw ∈ raws, raw.yaml.Parsed := by
            have inner := everywhereEntries_iff.mp parsed.2 (.str "steps", .seq (yamlItems raws))
              (by
              rw [yamlEntries_eq]
              exact List.mem_map_of_mem member)
            have each := everywhereItems_iff.mp inner
            intro raw there
            apply each
            rw [yamlItems_eq]
            exact List.mem_map_of_mem there
          have inside : (Leaf.str "steps", Yaml.seq (yamlItems raws)) ∈ yamlEntries entries := by
            rw [yamlEntries_eq]
            exact List.mem_map_of_mem member
          obtain ⟨rows, isRows, -, -⟩ := Yaml.json_mapping.mp listed
          obtain ⟨array, isArray⟩ := jsonEntries_value isRows inside
          rw [Yaml.json, Option.map_eq_some_iff] at isArray
          obtain ⟨items, isItems, -⟩ := isArray
          have same := stepDocs_json (mapM_loadStep loads) values isItems
          refine rebuilt_json (strings entries rfl) parsed.1 found ?_ listed
          change (Yaml.seq (yamlItems raws)).json floats sorting =
            (Yaml.seq (yamlItems ((first :: rest).map Step.doc))).json floats sorting
          rw [Yaml.json, Yaml.json, isItems, same]
        · cases kept
      · cases kept
  | _ => cases kept

theorem CanonicalEnv.dumps_eq (canonical : CanonicalEnv env floats sorting) {first second : Val}
    {data : Json Scalar} (listed : first.yaml.json floats sorting = some data)
    (same : second.yaml.json floats sorting = some data) :
    env.canonicalDumps first = env.canonicalDumps second := by
  have texts : canonicalText floats sorting second.yaml =
    canonicalText floats sorting first.yaml := by
    rw [canonicalText_eq_iff, listed, same]
  obtain ⟨text, isText⟩ := Option.isSome_iff_exists.mp (canonicalText_isSome.mpr ⟨data, listed⟩)
  rw [canonical.dumps _ _ isText, canonical.dumps _ _ (texts.trans isText)]

theorem loaded_json (loaded : loadWorkflow env registry stem (.dict entries) = .ok doc)
    {data : Json Scalar} (listed : (Val.dict entries).yaml.json floats sorting = some data) :
    ∃ grown, doc.yaml.json floats sorting = some grown := by
  rw [accepted_doc loaded, withSchemaVersion]
  by_cases versioned : entries.has "schema_version" = true
  · rw [if_pos versioned]
    exact ⟨data, listed⟩
  · rw [if_neg versioned]
    obtain ⟨grown, isGrown, -⟩ :=
      json_snoc listed (rfl : (Val.str "0.4").yaml.json floats sorting = some _)
      (keys_all_str loaded listed)
    exact ⟨grown, isGrown⟩

theorem fingerprintFor_fallback (canonical : CanonicalEnv env floats sorting)
    (loaded : loadWorkflow env registry stem (.dict entries) = .ok doc)
    (parsed : (Val.dict entries).yaml.Parsed)
    (serialisable : (canonicalText floats sorting (Val.dict entries).yaml).isSome) {wf : Workflow}
    (kept : Workflow.load doc = some wf) {deployment : Deployment} {name : String}
    (served : deployment.workflows.get? name = some wf)
    (unmapped : deployment.workflowFingerprints.get? name = none) :
    fingerprintFor env deployment name = derivedFingerprint env doc := by
  obtain ⟨data, listed⟩ := canonicalText_isSome.mp serialisable
  obtain ⟨grown, isGrown⟩ := loaded_json loaded listed
  have strings : ∀ others, doc = .dict others →
    ((yamlEntries others).map Prod.fst).all Leaf.isStr = true := by
    rintro others rfl
    obtain ⟨rows, -, allowed, -⟩ := Yaml.json_mapping.mp isGrown
    obtain ⟨found, member⟩ := accepted_name loaded
    have same : others = withSchemaVersion entries := Val.dict.inj (accepted_doc loaded)
    apply writable_str allowed
    rw [yamlEntries_eq, List.map_map, same]
    refine List.mem_map.mpr ⟨(Val.str "name", found), ?_, rfl⟩
    unfold withSchemaVersion
    split
    · exact member
    · exact List.mem_append_left _ member
  have rebuilt := workflow_json kept (loaded_parsed loaded parsed listed) strings isGrown
  rw [fingerprintFor, unmapped, served]
  exact congrArg env.sha256 (canonical.dumps_eq rebuilt isGrown)

/-- The two derivations agree exactly on the documents that name their version. -/
theorem derivations_agree_iff (canonical : CanonicalEnv env floats sorting)
    (loaded : loadWorkflow env registry stem (.dict entries) = .ok doc)
    (parsed : (Val.dict entries).yaml.Parsed)
    (serialisable : (canonicalText floats sorting (Val.dict entries).yaml).isSome) :
    (derivedFingerprint env doc = workflowFingerprint env (.dict entries) ↔
      entries.has "schema_version" = true) ∧
      ∀ wf deployment name, Workflow.load doc = some wf → deployment.workflows.get? name = some wf →
        deployment.workflowFingerprints.get? name = none →
        (fingerprintFor env deployment name = workflowFingerprint env (.dict entries) ↔
          entries.has "schema_version" = true) := by
  have agree : derivedFingerprint env doc = workflowFingerprint env (.dict entries) ↔
      entries.has "schema_version" = true := by
    rw [derivedFingerprint, workflowFingerprint, canonical.digest.eq_iff]
    exact dumps_loaded canonical loaded serialisable
  refine ⟨agree, ?_⟩
  intro wf deployment name kept served unmapped
  rw [fingerprintFor_fallback canonical loaded parsed serialisable kept served unmapped]
  exact agree

/-- The sample environment with the canonical texts and a digest that keeps them. -/
def canonicalEnv : Env :=
  { sampleEnv with canonicalDumps :=
    fun value => (canonicalText sampleFloats sampleSorting value.yaml).getD "" }

theorem canonicalEnv_canonical : CanonicalEnv canonicalEnv sampleFloats sampleSorting where
  dumps value text isText := by
    change (canonicalText sampleFloats sampleSorting value.yaml).getD "" = text
    rw [isText, Option.getD_some]
  digest first second same := same

def plainEntries : Mapping :=
  [(.str "name", .str "plain"), (.str "description", .str "plain"),
    (.str "category", .str "sample"), (.str "output_format", .str "text"), (.str "steps",
      .list [stepDoc "a" []])]

def versionedEntries : Mapping := (.str "schema_version", .str "0.4") :: plainEntries

theorem versioned_derivations_agree : derivedFingerprint canonicalEnv (.dict versionedEntries) =
    workflowFingerprint canonicalEnv (.dict versionedEntries) := by
  have loaded : loadWorkflow canonicalEnv none "plain" (.dict versionedEntries) =
    .ok (.dict versionedEntries) := rfl
  have parsed : (Val.dict versionedEntries).yaml.Parsed := by
    refine ⟨by decide, trivial, trivial, trivial, trivial, trivial,
      ⟨⟨by decide, trivial, trivial, trivial, ?_⟩, trivial⟩, trivial⟩
    exact ⟨trivial, trivial, trivial⟩
  have serialisable : (canonicalText sampleFloats sampleSorting (Val.dict versionedEntries).yaml).isSome := rfl
  exact (derivations_agree_iff canonicalEnv_canonical loaded parsed serialisable).1.mpr rfl

/-- A workflow file without a version. -/
theorem plain_derivations_differ :
    loadWorkflow canonicalEnv none "plain" (.dict plainEntries) =
      .ok (.dict (withSchemaVersion plainEntries)) ∧
      derivedFingerprint canonicalEnv (.dict (withSchemaVersion plainEntries)) ≠
        workflowFingerprint canonicalEnv (.dict plainEntries) := by
  have loaded : loadWorkflow canonicalEnv none "plain" (.dict plainEntries) =
      .ok (.dict (withSchemaVersion plainEntries)) := rfl
  have serialisable : (canonicalText sampleFloats sampleSorting (Val.dict plainEntries).yaml).isSome := rfl
  refine ⟨loaded, fun same => ?_⟩
  have versioned := (dumps_loaded canonicalEnv_canonical loaded serialisable).mp same
  cases versioned

end Megalos
