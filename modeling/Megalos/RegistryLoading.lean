import Megalos.McpRegistry
import Megalos.Totality

/-!
What the registry loader accepts, and when it raises something else than its own error.
-/

namespace Megalos

open KeyedTable

namespace McpRegistry

structure Fits (known required : List String) (entries : Mapping) : Prop where
  known : unknownKeys known entries = []
  complete : ∀ name ∈ required, entries.has name = true

inductive DescribesTimeout (loader : LoaderEnv) : Option Val → Option PyFloat → Prop
  | absent : DescribesTimeout loader none none
  | int {value : Int} {float : PyFloat} (positive : 0 < value)
      (converts : loader.floatOfInt value = some float) :
      DescribesTimeout loader (some (.int value)) (some float)
  | float {value : PyFloat} (positive : notPositive value = false) :
      DescribesTimeout loader (some (.float value)) (some value)

structure DescribesAuth (entries : Mapping) (auth : AuthConfig) : Prop where
  keys : Fits authKeys authRequired entries
  type : entries.get? "type" = some (.str "bearer")
  type_eq : auth.type = "bearer"
  tokenEnv : entries.get? "token_env" = some (.str auth.tokenEnv)
  named : auth.tokenEnv ≠ ""

/-- The fields before `auth`, as the loader checks them. -/
structure DescribesHead (entries : Mapping) (name url : String) : Prop where
  keys : Fits serverKeys serverRequired entries
  hasName : entries.get? "name" = some (.str name)
  named : name ≠ ""
  hasUrl : entries.get? "url" = some (.str url)
  located : url ≠ ""
  transport : entries.get? "transport" = some (.str "http")

structure DescribesServer (loader : LoaderEnv) (entries : Mapping) (config : ServerConfig) :
    Prop where
  head : DescribesHead entries config.name config.url
  transport_eq : config.transport = "http"
  auth : ∃ auth : Mapping, entries.get? "auth" = some (.dict auth) ∧ DescribesAuth auth config.auth
  timeout : DescribesTimeout loader (entries.get? "timeout_default") config.timeoutDefault

def DescribesServers (loader : LoaderEnv) (items : List Val) (rows : List (String × ServerConfig)) :
    Prop :=
  List.Forall₂ (fun raw row => row.1 = row.2.name ∧ ∃ entries : Mapping, raw = .dict entries ∧
    DescribesServer loader entries row.2) items rows

inductive DescribesFile (loader : LoaderEnv) : YamlFile → Registry → Prop
  | empty : DescribesFile loader (.parsed .none) ⟨Table.empty⟩
  | listed {entries : Mapping} {items : List Val} {registry : Registry}
      (keys : unknownKeys topLevelKeys entries = [])
      (servers : (entries.get? "servers").getD (.list []) = .list items)
      (each : DescribesServers loader items registry.servers.rows) :
      DescribesFile loader (.parsed (.dict entries)) registry

/-- What is raised is no `RegistryLoadError`. -/
def Escapes {α : Type} (result : Loaded α) : Prop :=
    ∃ raised, result = .error raised ∧ ∀ text, raised ≠ loadError text

inductive AuthEscapes (value : Val) : Prop
  | keys {auth : Mapping} (isDict : value = .dict auth)
      (mixed : ¬Reportable (unknownKeys authKeys auth))
  | type {auth : Mapping} (isDict : value = .dict auth) (keys : Fits authKeys authRequired auth)
      (silent : ((auth.get? "type").getD .none).printable = false)

structure SilentTransport (entries : Mapping) : Prop where
  keys : Fits serverKeys serverRequired entries
  name : ∃ name, entries.get? "name" = some (.str name) ∧ name ≠ ""
  url : ∃ url, entries.get? "url" = some (.str url) ∧ url ≠ ""
  silent : ((entries.get? "transport").getD .none).printable = false

inductive ServerEscapes (loader : LoaderEnv) (entries : Mapping) : Prop
  | keys (mixed : ¬Reportable (unknownKeys serverKeys entries))
  | transport (silent : SilentTransport entries)
  | auth {name url : String} (head : DescribesHead entries name url) {value : Val}
      (found : entries.get? "auth" = some value) (escapes : AuthEscapes value)
  | timeout {name url : String} (head : DescribesHead entries name url) {auth : Mapping}
      {config : AuthConfig}
      (found : entries.get? "auth" = some (.dict auth)) (describes : DescribesAuth auth config)
      {value : Int}
      (isInt : entries.get? "timeout_default" = some (.int value)) (positive : 0 < value)
      (huge : loader.floatOfInt value = none)

/-- The first entry that is not accepted is one that the loader chokes on. -/
inductive FileEscapes (loader : LoaderEnv) : YamlFile → Prop
  | undecodable {reason : String} : FileEscapes loader (.undecodable reason)
  | unloadable {kind reason : String} {foreign : kind ≠ "RegistryLoadError"} :
      FileEscapes loader (.unloadable kind reason foreign)
  | keys {entries : Mapping} (mixed : ¬Reportable (unknownKeys topLevelKeys entries)) :
      FileEscapes loader (.parsed (.dict entries))
  | server {entries : Mapping} {before after : List Val} {raw : Mapping} {registry : Registry}
      (keys : unknownKeys topLevelKeys entries = [])
      (servers : entries.get? "servers" = some (.list (before ++ .dict raw :: after)))
      (each : DescribesServers loader before registry.servers.rows)
      (escapes : ServerEscapes loader raw) : FileEscapes loader (.parsed (.dict entries))

variable {loader : LoaderEnv} {env : Env} {entries : Mapping} {known required : List String}
    {α β : Type}

theorem escapes_ok {value : α} : ¬Escapes (.ok value : Loaded α) := by
  rintro ⟨raised, same, -⟩
  cases same

theorem escapes_error {raised : Exn} :
    Escapes (.error raised : Loaded α) ↔ ∀ text, raised ≠ loadError text := by
  simp [Escapes]

theorem escapes_loadError {text : String} : ¬Escapes (.error (loadError text) : Loaded α) := by
  rw [escapes_error]
  exact fun other => other text rfl

theorem escapes_bind {first : Loaded α} {next : α → Loaded β} :
    Escapes (first >>= next) ↔ Escapes first ∨ ∃ value, first = .ok value ∧
      Escapes (next value) := by
  cases first with
  | error raised => simp [Escapes, StatefulProgram.error_bind]
  | ok value => simp [StatefulProgram.ok_bind, escapes_ok]

theorem refuse_ne_ok {shown : Val} {text : String → String} {value : α} :
    (refuse env shown text : Loaded α) ≠ .ok value := by
  unfold refuse
  intro same
  obtain ⟨listed, -, thrown⟩ := except_bind_ok.mp same
  cases thrown

theorem refuse_escapes {shown : Val} {text : String → String} :
    Escapes (refuse env shown text : Loaded α) ↔ shown.printable = false := by
  unfold refuse printed
  cases shown.printable with
  | true =>
      simp only [if_true, Bool.true_eq_false, iff_false, StatefulProgram.ok_bind]
      exact escapes_loadError
  | false =>
      simp only [Bool.false_eq_true, if_false, iff_true]
      exact ⟨digitsError, rfl, fun text same => by cases same⟩

theorem sortedKeys_escapes {keys : List Val} : Escapes (sortedKeys keys) ↔ ¬Comparable keys := by
  rw [← sortedKeys_answers]
  unfold sortedKeys
  split
  · simp [escapes_ok]
  · simp [escapes_error, loadError]

theorem refuseUnknown_ne_ok {keys : List Val} {text : String} {done : Unit} :
    refuseUnknown env keys text ≠ .ok done := by
  intro same
  obtain ⟨ordered, -, refused⟩ := except_bind_ok.mp same
  exact refuse_ne_ok refused

theorem refuseUnknown_escapes {keys : List Val} {text : String} :
    Escapes (refuseUnknown env keys text) ↔ ¬Reportable keys := by
  rw [refuseUnknown, escapes_bind, sortedKeys_escapes]
  constructor
  · rintro (mixed | ⟨ordered, sorted, escapes⟩) reportable
    · exact mixed reportable.1
    · rw [refuse_escapes, (ordered_printable sorted).mpr reportable.2] at escapes
      cases escapes
  · intro unlisted
    by_cases comparable : Comparable keys
    · obtain ⟨ordered, sorted⟩ := sortedKeys_answers.mpr comparable
      refine .inr ⟨ordered, sorted, refuse_escapes.mpr ?_⟩
      rw [← Bool.not_eq_true, ordered_printable sorted]
      exact fun prints => unlisted ⟨comparable, prints⟩
    · exact .inl comparable

theorem escapes_refused {first : Loaded α} {next : α → Loaded β}
    (refuses : ∀ {value}, first ≠ .ok value) :
    Escapes (first >>= next) ↔ Escapes first := by
  rw [escapes_bind]
  refine or_iff_left ?_
  rintro ⟨value, passes, -⟩
  exact refuses passes

theorem refused_ne_ok {first : Loaded α} {next : α → Loaded β} {value : β}
    (refuses : ∀ {value}, first ≠ .ok value) :
    first >>= next ≠ .ok value := by
  intro same
  obtain ⟨middle, passes, -⟩ := except_bind_ok.mp same
  exact refuses passes

theorem missingFields_nil :
    missingFields required entries = [] ↔ ∀ name ∈ required, entries.has name = true := by
  simp [missingFields, List.filter_eq_nil_iff]

theorem checkKeys_ok {unknownText missingText : String} :
    checkKeys env known required entries unknownText missingText = .ok () ↔
      Fits known required entries := by
  unfold checkKeys
  by_cases unknown : unknownKeys known entries = []
  · by_cases missing : missingFields required entries = []
    · simp only [unknown, missing, ne_eq, not_true, if_false]
      exact ⟨fun _ => ⟨unknown, missingFields_nil.mp missing⟩, fun _ => rfl⟩
    · simp only [unknown, missing, ne_eq, not_true, not_false_iff, if_false, if_true]
      refine ⟨fun same => ?_, fun fits => absurd (missingFields_nil.mpr fits.complete) missing⟩
      cases same
  · simp only [unknown, ne_eq, not_false_iff, if_true]
    refine ⟨fun same => ?_, fun fits => absurd fits.known unknown⟩
    exact absurd same (refused_ne_ok refuseUnknown_ne_ok)

theorem checkKeys_escapes {unknownText missingText : String} :
    Escapes (checkKeys env known required entries unknownText missingText) ↔
      ¬Reportable (unknownKeys known entries) := by
  unfold checkKeys
  by_cases unknown : unknownKeys known entries = []
  · have few : Reportable (unknownKeys known entries) :=
      ⟨.inl (by simp [unknown]), by simp [unknown]⟩
    simp only [unknown, ne_eq, not_true, if_false]
    rw [unknown] at few
    refine ⟨fun escapes => ?_, fun mixed => absurd few mixed⟩
    by_cases missing : missingFields required entries = []
    · simp only [missing, not_true, if_false] at escapes
      exact absurd escapes escapes_ok
    · simp only [missing, not_false_iff, if_true] at escapes
      exact absurd escapes escapes_loadError
  · simp only [unknown, ne_eq, not_false_iff, if_true]
    rw [escapes_refused refuseUnknown_ne_ok, refuseUnknown_escapes]

theorem nameField_ok {key text value : String} :
    nameField entries key text = .ok value ↔ entries.get? key = some (.str value) ∧ value ≠ "" := by
  unfold nameField
  split
  · rename_i found isStr
    split
    · rename_i isEmpty
      subst isEmpty
      simp [isStr]
    · rename_i filled
      rw [isStr, Except.ok.injEq]
      constructor
      · rintro rfl
        exact ⟨rfl, filled⟩
      · rintro ⟨same, -⟩
        simpa using same
  · rename_i other
    simp only [reduceCtorEq, false_iff, not_and]
    intro isStr
    exact absurd isStr (other value)

theorem nameField_escapes {key text : String} : ¬Escapes (nameField entries key text) := by
  unfold nameField
  split
  · split
    · exact escapes_loadError
    · exact escapes_ok
  · exact escapes_loadError

theorem parseAuth_ok {heading : String} {value : Val} {auth : AuthConfig} :
    parseAuth env heading value = .ok auth ↔ ∃ entries : Mapping, value = .dict entries ∧
      DescribesAuth entries auth := by
  cases value with
  | dict entries =>
      simp only [parseAuth, Val.dict.injEq]
      constructor
      · intro parsed
        obtain ⟨⟨⟩, keys, parsed⟩ := except_bind_ok.mp parsed
        have keys := checkKeys_ok.mp keys
        by_cases bearer : ((Mapping.get? entries "type").getD .none).isStr "bearer" = true
        · simp only [bearer, Bool.not_true, Bool.false_eq_true, if_false] at parsed
          obtain ⟨tokenEnv, named, parsed⟩ := except_bind_ok.mp parsed
          obtain ⟨found, filled⟩ := nameField_ok.mp named
          cases parsed
          have isBearer := Val.isStr_iff.mp bearer
          have type : Mapping.get? entries "type" = some (.str "bearer") := by
            cases has : Mapping.get? entries "type" with
            | none => simp [has] at isBearer
            | some given => rw [has] at isBearer; exact congrArg some isBearer
          exact ⟨entries, rfl, keys, type, rfl, found, filled⟩
        · simp only [bearer, Bool.not_false, if_true] at parsed
          exact absurd parsed (refused_ne_ok refuse_ne_ok)
      · rintro ⟨same, rfl, describes⟩
        rw [checkKeys_ok.mpr describes.keys]
        have given : nameField entries "token_env" (heading ++
          ": auth.token_env must be a non-empty string") =
            .ok auth.tokenEnv := nameField_ok.mpr ⟨describes.tokenEnv, describes.named⟩
        have same : auth = { type := "bearer", tokenEnv := auth.tokenEnv } :=
          by rw [← describes.type_eq]
        simp only [StatefulProgram.ok_bind, describes.type, Option.getD_some, Val.isStr,
          beq_self_eq_true, Bool.not_true, Bool.false_eq_true, if_false, given]
        exact congrArg Except.ok same.symm
  | _ => simp [parseAuth]

theorem text_printable {value : Val} {text : String} (isText : value.isStr text = true) :
    value.printable = true := by
  rw [Val.isStr_iff.mp isText]
  rfl

theorem parseAuth_escapes {heading : String} {value : Val} :
    Escapes (parseAuth env heading value) ↔ AuthEscapes value := by
  cases value with
  | dict entries =>
      simp only [parseAuth]
      rw [escapes_bind, checkKeys_escapes]
      constructor
      · rintro (mixed | ⟨⟨⟩, keys, escapes⟩)
        · exact .keys rfl mixed
        · by_cases bearer : ((Mapping.get? entries "type").getD .none).isStr "bearer" = true
          · simp only [bearer, Bool.not_true, Bool.false_eq_true, if_false] at escapes
            rcases escapes_bind.mp escapes with unnamed | ⟨tokenEnv, -, built⟩
            · exact absurd unnamed nameField_escapes
            · exact absurd built escapes_ok
          · simp only [bearer, Bool.not_false, if_true] at escapes
            rw [escapes_refused refuse_ne_ok, refuse_escapes] at escapes
            exact .type rfl (checkKeys_ok.mp keys) escapes
      · rintro (⟨same, mixed⟩ | ⟨same, keys, silent⟩)
        · cases same
          exact .inl mixed
        · cases same
          refine .inr ⟨(), checkKeys_ok.mpr keys, ?_⟩
          have other : ((Mapping.get? entries "type").getD .none).isStr "bearer" = false := by
            refine Bool.not_eq_true _ ▸ fun bearer => ?_
            rw [text_printable bearer] at silent
            cases silent
          simp only [other, Bool.not_false, if_true]
          rw [escapes_refused refuse_ne_ok, refuse_escapes]
          exact silent
  | _ =>
      simp only [parseAuth]
      refine ⟨fun escapes => absurd escapes escapes_loadError, ?_⟩
      rintro (⟨same, -⟩ | ⟨same, -⟩) <;> cases same

theorem parseTimeout_ok {heading : String} {value : Option Val} {timeout : Option PyFloat} :
    parseTimeout loader heading value = .ok timeout ↔ DescribesTimeout loader value timeout := by
  constructor
  · intro parsed
    unfold parseTimeout at parsed
    split at parsed
    · cases parsed
      exact .absent
    · rename_i number
      split at parsed
      · cases parsed
      · rename_i positive
        split at parsed
        · rename_i float converts
          cases parsed
          exact .int (not_le.mp positive) converts
        · cases parsed
    · rename_i number
      split at parsed
      · cases parsed
      · rename_i positive
        cases parsed
        exact .float (Bool.not_eq_true _ ▸ positive)
    · cases parsed
  · rintro (_ | ⟨positive, converts⟩ | positive)
    · rfl
    · simp only [parseTimeout, not_le.mpr positive, if_false, converts]
    · simp only [parseTimeout, positive, Bool.false_eq_true, if_false]

theorem parseTimeout_escapes {heading : String} {value : Option Val} :
    Escapes (parseTimeout loader heading value) ↔
      ∃ number, value = some (.int number) ∧ 0 < number ∧ loader.floatOfInt number = none := by
  constructor
  · intro escapes
    unfold parseTimeout at escapes
    split at escapes
    · exact absurd escapes escapes_ok
    · rename_i number
      split at escapes
      · exact absurd escapes escapes_loadError
      · rename_i positive
        split at escapes
        · exact absurd escapes escapes_ok
        · rename_i huge
          exact ⟨number, rfl, not_le.mp positive, huge⟩
    · split at escapes
      · exact absurd escapes escapes_loadError
      · exact absurd escapes escapes_ok
    · exact absurd escapes escapes_loadError
  · rintro ⟨number, rfl, positive, huge⟩
    simp only [parseTimeout, not_le.mpr positive, if_false, huge]
    refine ⟨_, rfl, fun text same => ?_⟩
    have kinds := (Exn.uncaught.inj same).1
    exact absurd kinds (by decide)

theorem field_isStr {key text : String} :
    ((entries.get? key).getD .none).isStr text = true ↔ entries.get? key = some (.str text) := by
  rw [Val.isStr_iff]
  cases entries.get? key <;> simp

/-- Past the fields of the head, the loader looks at `auth` and at `timeout_default`. -/
theorem parseServer_of_head {pathName name url : String} {index : Nat}
    (head : DescribesHead entries name url) :
    parseServer loader pathName index (.dict entries) =
      (parseAuth loader.env (entryPrefix pathName index (.str name)) ((entries.get? "auth").getD .none) >>= fun auth =>
        parseTimeout loader (entryPrefix pathName index (.str name))
          (entries.get? "timeout_default") >>= fun timeout =>
          .ok { name, url, transport := "http", auth, timeoutDefault := timeout }) := by
  have isHttp := field_isStr.mpr head.transport
  simp only [parseServer, checkKeys_ok.mpr head.keys, StatefulProgram.ok_bind,
    nameField_ok.mpr ⟨head.hasName, head.named⟩, nameField_ok.mpr ⟨head.hasUrl,
      head.located⟩, isHttp, Bool.not_true, Bool.false_eq_true, if_false, head.hasName,
    Option.getD_some]
  rfl

theorem Fits.reportable (fits : Fits known required entries) :
    Reportable (unknownKeys known entries) :=
  ⟨.inl (by simp [fits.known]), by simp [fits.known]⟩

theorem nameField_cases (entries : Mapping) (key text : String) :
    (∃ value, nameField entries key text = .ok value ∧ entries.get? key = some (.str value) ∧
      value ≠ "") ∨
      nameField entries key text = .error (loadError text) := by
  cases given : nameField entries key text with
  | ok value => exact .inl ⟨value, rfl, nameField_ok.mp given⟩
  | error raised =>
      refine .inr ?_
      unfold nameField at given
      split at given
      · split at given
        · exact given.symm
        · cases given
      · exact given.symm

/-- Without a head the entry is refused, and only its unknown keys or its transport can choke the
loader. -/
theorem parseServer_headless {pathName : String} {index : Nat}
    (headless : ∀ name url, ¬DescribesHead entries name url) :
    (∀ config, parseServer loader pathName index (.dict entries) ≠ .ok config) ∧
      (Escapes (parseServer loader pathName index (.dict entries)) ↔
        ¬Reportable (unknownKeys serverKeys entries) ∨ SilentTransport entries) := by
  by_cases fits : Fits serverKeys serverRequired entries
  · simp only [parseServer, checkKeys_ok.mpr fits, StatefulProgram.ok_bind, fits.reportable,
      not_true, false_or]
    rcases nameField_cases entries "name" _ with ⟨name, given, hasName, named⟩ | given
    · rw [given, StatefulProgram.ok_bind]
      rcases nameField_cases entries "url" _ with ⟨url, given, hasUrl, located⟩ | given
      · rw [given, StatefulProgram.ok_bind]
        have other : ((entries.get? "transport").getD .none).isStr "http" = false := by
          refine Bool.not_eq_true _ ▸ fun isHttp => ?_
          exact headless name url ⟨fits, hasName, named, hasUrl, located, field_isStr.mp isHttp⟩
        rw [other]
        refine ⟨fun config => refused_ne_ok refuse_ne_ok, ?_⟩
        refine (escapes_refused refuse_ne_ok).trans (refuse_escapes.trans ?_)
        exact ⟨fun silent => ⟨fits, ⟨name, hasName, named⟩, ⟨url, hasUrl, located⟩, silent⟩,
          SilentTransport.silent⟩
      · rw [given]
        refine ⟨fun config => by simp, iff_of_false escapes_loadError ?_⟩
        rintro ⟨-, -, ⟨url, hasUrl, located⟩, -⟩
        cases given.symm.trans (nameField_ok.mpr ⟨hasUrl, located⟩)
    · rw [given]
      refine ⟨fun config => by simp, iff_of_false escapes_loadError ?_⟩
      rintro ⟨-, ⟨name, hasName, named⟩, -, -⟩
      cases given.symm.trans (nameField_ok.mpr ⟨hasName, named⟩)
  · have loud : ¬SilentTransport entries := fun silent => fits silent.keys
    simp only [parseServer, loud, or_false]
    cases result : checkKeys loader.env serverKeys serverRequired entries _ _ with
    | ok done => exact absurd (checkKeys_ok.mp result) fits
    | error raised =>
        rw [StatefulProgram.error_bind, ← checkKeys_escapes, result, escapes_error, escapes_error]
        exact ⟨fun config => by simp, Iff.rfl⟩

theorem head_or_headless (entries : Mapping) :
    (∃ name url, DescribesHead entries name url) ∨ ∀ name url, ¬DescribesHead entries name url := by
  by_cases head : ∃ name url, DescribesHead entries name url
  · exact .inl head
  · exact .inr fun name url describes => head ⟨name, url, describes⟩

theorem get?_of_has {key : String} (has : entries.has key = true) :
    entries.get? key = some ((entries.get? key).getD .none) := by
  obtain ⟨value, found⟩ := Option.isSome_iff_exists.mp has
  have found : entries.get? key = some value := found
  rw [found, Option.getD_some]

theorem parseServer_ok {pathName : String} {index : Nat} {config : ServerConfig} :
    parseServer loader pathName index (.dict entries) = .ok config ↔
      DescribesServer loader entries config := by
  constructor
  · intro parsed
    rcases head_or_headless entries with ⟨name, url, head⟩ | headless
    · rw [parseServer_of_head head] at parsed
      obtain ⟨auth, isAuth, parsed⟩ := except_bind_ok.mp parsed
      obtain ⟨timeout, isTimeout, parsed⟩ := except_bind_ok.mp parsed
      cases parsed
      obtain ⟨mapping, isMapping, describes⟩ := parseAuth_ok.mp isAuth
      have found := get?_of_has (head.keys.complete "auth" (by decide))
      exact ⟨head, rfl, ⟨mapping, found.trans (congrArg some isMapping), describes⟩,
        parseTimeout_ok.mp isTimeout⟩
    · exact absurd parsed ((parseServer_headless headless).1 config)
  · intro describes
    obtain ⟨mapping, found, isAuth⟩ := describes.auth
    rw [parseServer_of_head describes.head, found, Option.getD_some,
      parseAuth_ok.mpr ⟨mapping, rfl,
        isAuth⟩, StatefulProgram.ok_bind, parseTimeout_ok.mpr describes.timeout, StatefulProgram.ok_bind, ← describes.transport_eq]

theorem parseServer_escapes {pathName : String} {index : Nat} :
    Escapes (parseServer loader pathName index (.dict entries)) ↔ ServerEscapes loader entries := by
  constructor
  · intro escapes
    rcases head_or_headless entries with ⟨name, url, head⟩ | headless
    · rw [parseServer_of_head head] at escapes
      have found := get?_of_has (head.keys.complete "auth" (by decide))
      rcases escapes_bind.mp escapes with inAuth | ⟨auth, isAuth, escapes⟩
      · exact .auth head found (parseAuth_escapes.mp inAuth)
      · obtain ⟨mapping, isMapping, describes⟩ := parseAuth_ok.mp isAuth
        rcases escapes_bind.mp escapes with inTimeout | ⟨timeout, -, built⟩
        · obtain ⟨number, given, positive, huge⟩ := parseTimeout_escapes.mp inTimeout
          exact .timeout head (found.trans (congrArg some isMapping)) describes given positive huge
        · exact absurd built escapes_ok
    · rcases (parseServer_headless headless).2.mp escapes with mixed | silent
      · exact .keys mixed
      · exact .transport silent
  · rintro (mixed | silent | ⟨head, found, escapes⟩ | ⟨head, found, describes, isInt, positive,
      huge⟩)
    · rcases head_or_headless entries with ⟨name, url, head⟩ | headless
      · exact absurd head.keys.reportable mixed
      · exact (parseServer_headless headless).2.mpr (.inl mixed)
    · rcases head_or_headless entries with ⟨name, url, head⟩ | headless
      · have isHttp := silent.silent
        rw [head.transport] at isHttp
        cases isHttp
      · exact (parseServer_headless headless).2.mpr (.inr silent)
    · rw [parseServer_of_head head, found, Option.getD_some]
      exact escapes_bind.mpr (.inl (parseAuth_escapes.mpr escapes))
    · rw [parseServer_of_head head, found, Option.getD_some, parseAuth_ok.mpr ⟨_, rfl, describes⟩,
        StatefulProgram.ok_bind]
      exact escapes_bind.mpr (.inl (parseTimeout_escapes.mpr ⟨_, isInt, positive, huge⟩))

theorem parseServer_ok_iff {pathName : String} {index : Nat} {raw : Val} {config : ServerConfig} :
    parseServer loader pathName index raw = .ok config ↔
      ∃ entries : Mapping, raw = .dict entries ∧ DescribesServer loader entries config := by
  cases raw with
  | dict entries =>
      rw [parseServer_ok]
      refine ⟨fun describes => ⟨entries, rfl, describes⟩, ?_⟩
      rintro ⟨other, same, describes⟩
      cases same
      exact describes
  | _ => simp [parseServer]

theorem parseServer_escapes_iff {pathName : String} {index : Nat} {raw : Val} :
    Escapes (parseServer loader pathName index raw) ↔
      ∃ entries : Mapping, raw = .dict entries ∧ ServerEscapes loader entries := by
  cases raw with
  | dict entries =>
      rw [parseServer_escapes]
      refine ⟨fun escapes => ⟨entries, rfl, escapes⟩, ?_⟩
      rintro ⟨other, same, escapes⟩
      cases same
      exact escapes
  | _ => simp [parseServer, escapes_loadError]

def SameNames (seen : Dict Nat) (servers : Dict ServerConfig) : Prop :=
  ∀ name, seen.get? name = none ↔ servers.get? name = none

theorem SameNames.set {seen : Dict Nat} {servers : Dict ServerConfig}
    (same : SameNames seen servers) (name : String) (index : Nat) (config : ServerConfig) :
    SameNames (seen.set name index) (servers.set name config) := by
  intro other
  rw [Dict.get?_set, Dict.get?_set]
  split
  · simp
  · exact same other

theorem rows_set_new {servers : Dict ServerConfig} {name : String} {config : ServerConfig}
    (fresh : servers.get? name = none) : (servers.set name config).rows = servers.rows ++
      [(name, config)] := by
  refine Table.rows_upsert_new ?_
  cases held : servers.lookup name with
  | none => rfl
  | some row => simp [Dict.get?, held] at fresh

/-- A table that goes on after these rows has no second row under one of their names. -/
theorem not_held {servers result : Dict ServerConfig} {rows : List (String × ServerConfig)}
    {name : String} {config : ServerConfig}
    (goesOn : result.rows = servers.rows ++ (name, config) :: rows) :
    servers.get? name = none := by
  cases held : servers.get? name with
  | none => rfl
  | some other =>
      have member : name ∈ servers.rows.map Prod.fst := List.mem_map_of_mem (Dict.mem_of_get? held)
      have unique := result.keysNodup
      rw [goesOn, List.map_append, List.map_cons, List.nodup_append] at unique
      exact absurd rfl (unique.2.2 name member name (by simp))

theorem table_eq {first second : Dict ServerConfig} (same : first.rows = second.rows) :
    first = second := by
  cases first
  cases second
  cases same
  rfl

/-- The loop of `from_yaml` adds one server for each entry, in order, and stops at a second one of
the name. -/
theorem parseServers_ok {pathName : String} {items : List Val} : ∀ {index : Nat} {seen : Dict Nat}
    {servers result : Dict ServerConfig}, SameNames seen servers →
    (parseServers loader pathName index seen servers items = .ok result ↔
      ∃ rows, result.rows = servers.rows ++ rows ∧ DescribesServers loader items rows) := by
  induction items with
  | nil =>
      intro index seen servers result same
      simp only [parseServers, DescribesServers, List.forall₂_nil_left_iff, exists_eq_right,
        List.append_nil, Except.ok.injEq]
      exact ⟨fun isResult => isResult ▸ rfl, fun rows => table_eq rows.symm⟩
  | cons raw rest ih =>
      intro index seen servers result same
      simp only [parseServers]
      constructor
      · intro parsed
        obtain ⟨config, isConfig, parsed⟩ := except_bind_ok.mp parsed
        cases held : seen.get? config.name with
        | some first =>
            rw [held] at parsed
            cases parsed
        | none =>
            simp only [held] at parsed
            obtain ⟨rows, isResult, each⟩ := (ih (same.set _ _ _)).mp parsed
            rw [rows_set_new ((same _).mp held), List.append_assoc] at isResult
            exact ⟨(config.name, config) :: rows, isResult,
              .cons ⟨rfl, parseServer_ok_iff.mp isConfig⟩ each⟩
      · rintro ⟨rows, isResult, each⟩
        cases each with
        | @cons _ row _ rows head tail =>
            obtain ⟨key, config⟩ := row
            obtain ⟨isName, describes⟩ := head
            have isName : key = config.name := isName
            subst isName
            have fresh := not_held isResult
            rw [parseServer_ok_iff.mpr describes, StatefulProgram.ok_bind, (same _).mpr fresh]
            refine (ih (same.set _ _ _)).mpr ⟨rows, ?_, tail⟩
            rw [rows_set_new fresh, List.append_assoc]
            exact isResult

theorem parseServers_escapes {pathName : String} {items : List Val} :
    ∀ {index : Nat} {seen : Dict Nat}
    {servers : Dict ServerConfig}, SameNames seen servers →
    (Escapes (parseServers loader pathName index seen servers items) ↔
      ∃ (before : List Val) (raw : Mapping) (after : List Val) (rows : List (String × ServerConfig))
        (table : Dict ServerConfig), items = before ++ .dict raw :: after ∧
          table.rows = servers.rows ++ rows ∧
          DescribesServers loader before rows ∧ ServerEscapes loader raw) := by
  induction items with
  | nil =>
      intro index seen servers same
      simp [parseServers, escapes_ok]
  | cons raw rest ih =>
      intro index seen servers same
      simp only [parseServers]
      rw [escapes_bind, parseServer_escapes_iff]
      constructor
      · rintro (⟨entries, rfl, escapes⟩ | ⟨config, isConfig, escapes⟩)
        · exact ⟨[], entries, rest, [], servers, rfl, (List.append_nil _).symm, .nil, escapes⟩
        · cases held : seen.get? config.name with
          | some first =>
              rw [held] at escapes
              exact absurd escapes escapes_loadError
          | none =>
              simp only [held] at escapes
              obtain ⟨before, entries, after, rows, table, rfl, isTable, each, chokes⟩ :=
                (ih (same.set _ _ _)).mp escapes
              rw [rows_set_new ((same _).mp held), List.append_assoc] at isTable
              exact ⟨raw :: before, entries, after, (config.name, config) :: rows, table, rfl,
                isTable, .cons ⟨rfl, parseServer_ok_iff.mp isConfig⟩ each, chokes⟩
      · rintro ⟨before, entries, after, rows, table, isItems, isTable, each, chokes⟩
        cases each with
        | nil =>
            cases isItems
            exact .inl ⟨entries, rfl, chokes⟩
        | @cons _ row before rows head tail =>
            cases isItems
            obtain ⟨key, config⟩ := row
            obtain ⟨isName, describes⟩ := head
            have isName : key = config.name := isName
            subst isName
            have fresh := not_held isTable
            refine .inr ⟨config, parseServer_ok_iff.mpr describes, ?_⟩
            rw [(same _).mpr fresh]
            refine (ih (same.set _ _ _)).mpr ⟨before, entries, after, rows, table, rfl, ?_, tail,
              chokes⟩
            rw [rows_set_new fresh, List.append_assoc]
            exact isTable

theorem sameNames_empty : SameNames Table.empty Table.empty := fun name => by simp

theorem topLevel_ok {unknownText : String} :
    checkKeys env topLevelKeys [] entries unknownText "" = .ok () ↔
      unknownKeys topLevelKeys entries = [] := by
  rw [checkKeys_ok]
  exact ⟨Fits.known, fun known => ⟨known, by simp⟩⟩

/-- The loader accepts a file exactly when it describes a registry, and then that registry is the
result. -/
theorem fromYaml_ok_iff {path pathName : String} {file : YamlFile} {registry : Registry} :
    fromYaml loader path pathName file = .ok registry ↔ DescribesFile loader file registry := by
  constructor
  · intro loaded
    cases file with
    | unreadable reason => cases loaded
    | undecodable reason => cases loaded
    | malformed reason => cases loaded
    | unloadable kind reason foreign => cases loaded
    | parsed doc =>
        cases doc with
        | none => cases loaded; exact .empty
        | dict entries =>
            simp only [fromYaml] at loaded
            obtain ⟨⟨⟩, keys, loaded⟩ := except_bind_ok.mp loaded
            split at loaded
            · rename_i items servers
              obtain ⟨table, parsed, loaded⟩ := except_bind_ok.mp loaded
              cases loaded
              obtain ⟨rows, isTable, each⟩ := (parseServers_ok sameNames_empty).mp parsed
              have isTable : table.rows = rows := isTable
              exact .listed (topLevel_ok.mp keys) servers (isTable ▸ each)
            · cases loaded
        | _ => cases loaded
  · rintro (_ | ⟨keys, servers, each⟩)
    · rfl
    · simp only [fromYaml, topLevel_ok.mpr keys, StatefulProgram.ok_bind, servers,
        (parseServers_ok sameNames_empty).mpr ⟨_, rfl, each⟩]
      rfl

end McpRegistry

end Megalos
