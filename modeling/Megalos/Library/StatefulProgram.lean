import Mathlib.Logic.Basic

/-!
Programs over a mutable state that may raise.  As in a language with exceptions,
what was written before the raise stays written: an outcome and a state come back
together.  `Wp` is the weakest precondition for a postcondition on both; `Keeps`
is the frame rule for a reflexive and transitive relation between states.
-/

namespace StatefulProgram

@[simp] theorem ok_bind {ε α β : Type} (value : α) (next : α → Except ε β) :
    (Except.ok value >>= next) = next value := rfl

@[simp] theorem error_bind {ε α β : Type} (raised : ε) (next : α → Except ε β) :
    (Except.error raised >>= next) = .error raised := rfl

structure Program (σ ε α : Type) where
  run : σ → Except ε α × σ

namespace Program

variable {σ ε α β : Type}

protected def pure (value : α) : Program σ ε α := ⟨fun state => (.ok value, state)⟩

protected def bind (first : Program σ ε α) (next : α → Program σ ε β) : Program σ ε β where
  run state :=
    match first.run state with
    | (.ok value, reached) => (next value).run reached
    | (.error raised, reached) => (.error raised, reached)

instance : Monad (Program σ ε) where
  pure := Program.pure
  bind := Program.bind

def raise (exception : ε) : Program σ ε α := ⟨fun state => (.error exception, state)⟩

/-- A pure computation that may raise. -/
def ofExcept (result : Except ε α) : Program σ ε α := ⟨fun state => (result, state)⟩

def read (view : σ → α) : Program σ ε α := ⟨fun state => (.ok (view state), state)⟩

def write (change : σ → σ) : Program σ ε Unit := ⟨fun state => (.ok (), change state)⟩

/-- `try … except`: the handler sees every exception and raises again what it does not catch. -/
def rescue (body : Program σ ε α) (handler : ε → Program σ ε α) : Program σ ε α where
  run state :=
    match body.run state with
    | (.ok value, reached) => (.ok value, reached)
    | (.error raised, reached) => (handler raised).run reached

/-- A transaction: on a raise, `rollback before after` is the state that remains. -/
def atomically (rollback : σ → σ → σ) (body : Program σ ε α) : Program σ ε α where
  run state :=
    match body.run state with
    | (.ok value, reached) => (.ok value, reached)
    | (.error raised, reached) => (.error raised, rollback state reached)

/-! Weakest preconditions. -/

def Wp (body : Program σ ε α) (post : Except ε α → σ → Prop) (state : σ) : Prop :=
  post (body.run state).1 (body.run state).2

theorem Wp.elim {body : Program σ ε α} {post : Except ε α → σ → Prop} {state reached : σ}
    {outcome : Except ε α} (holds : Wp body post state)
    (ran : body.run state = (outcome, reached)) :
    post outcome reached := by
  simpa [Wp, ran] using holds

theorem Wp.mono {body : Program σ ε α} {post weaker : Except ε α → σ → Prop} {state : σ}
    (holds : Wp body post state) (implies : ∀ outcome reached, post outcome reached →
      weaker outcome reached) : Wp body weaker state :=
  implies _ _ holds

/-- What is known of the program may be used in its specification. -/
theorem Wp.using {body : Program σ ε α} {known post : Except ε α → σ → Prop} {state : σ}
    (facts : Wp body known state)
    (holds : Wp body (fun outcome reached => known outcome reached →
      post outcome reached) state) : Wp body post state :=
  holds facts

@[simp] theorem wp_pure (value : α) (post : Except ε α → σ → Prop) (state : σ) :
    Wp (pure value : Program σ ε α) post state ↔ post (.ok value) state := Iff.rfl

@[simp] theorem wp_raise (exception : ε) (post : Except ε α → σ → Prop) (state : σ) :
    Wp (raise exception) post state ↔ post (.error exception) state := Iff.rfl

@[simp] theorem wp_ofExcept (result : Except ε α) (post : Except ε α → σ → Prop) (state : σ) :
    Wp (ofExcept result) post state ↔ post result state := Iff.rfl

@[simp] theorem wp_read (view : σ → α) (post : Except ε α → σ → Prop) (state : σ) :
    Wp (read view) post state ↔ post (.ok (view state)) state := Iff.rfl

@[simp] theorem wp_write (change : σ → σ) (post : Except ε Unit → σ → Prop) (state : σ) :
    Wp (write change) post state ↔ post (.ok ()) (change state) := Iff.rfl

theorem wp_bind (first : Program σ ε α) (next : α → Program σ ε β)
    (post : Except ε β → σ → Prop) (state : σ) :
    Wp (first >>= next) post state ↔
      Wp first (fun outcome reached =>
        match outcome with
        | .ok value => Wp (next value) post reached
        | .error raised => post (.error raised) reached) state := by
  change Wp (Program.bind first next) post state ↔ _
  simp only [Wp, Program.bind]
  rcases first.run state with ⟨_ | _, reached⟩ <;> rfl

theorem wp_bind_of {first : Program σ ε α} {next : α → Program σ ε β}
    {middle : Except ε α → σ → Prop} {post : Except ε β → σ → Prop} {state : σ}
    (spec : Wp first middle state)
    (onOk : ∀ value reached, middle (.ok value) reached → Wp (next value) post reached)
    (onRaise : ∀ raised reached, middle (.error raised) reached → post (.error raised) reached) :
    Wp (first >>= next) post state := by
  rw [wp_bind]
  refine spec.mono ?_
  rintro (raised | value) reached holds
  · exact onRaise raised reached holds
  · exact onOk value reached holds

theorem wp_rescue (body : Program σ ε α) (handler : ε → Program σ ε α)
    (post : Except ε α → σ → Prop) (state : σ) :
    Wp (rescue body handler) post state ↔
      Wp body (fun outcome reached =>
        match outcome with
        | .ok value => post (.ok value) reached
        | .error raised => Wp (handler raised) post reached) state := by
  simp only [Wp, rescue]
  rcases body.run state with ⟨_ | _, reached⟩ <;> rfl

theorem wp_atomically (rollback : σ → σ → σ) (body : Program σ ε α)
    (post : Except ε α → σ → Prop) (state : σ) :
    Wp (atomically rollback body) post state ↔
      Wp body (fun outcome reached =>
        match outcome with
        | .ok value => post (.ok value) reached
        | .error raised => post (.error raised) (rollback state reached)) state := by
  simp only [Wp, atomically]
  rcases body.run state with ⟨_ | _, reached⟩ <;> rfl

/-! Partial correctness: nothing is said of a run that ends in `endless`. -/

def Settles (endless : ε) (post : σ → Prop) (body : Program σ ε α) (state : σ) : Prop :=
  Wp body (fun outcome reached => outcome ≠ .error endless → post reached) state

section Settles

variable {endless : ε} {post : σ → Prop} {state : σ}

theorem settles_pure {value : α} (holds : post state) :
    Settles endless post (pure value : Program σ ε α) state := fun _ => holds

theorem settles_raise {exception : ε} (holds : exception ≠ endless → post state) :
    Settles endless post (raise exception : Program σ ε α) state :=
  fun ended => holds fun same => ended (by rw [same]; rfl)

theorem settles_ofExcept {result : Except ε α} (holds : result ≠ .error endless → post state) :
    Settles endless post (ofExcept result) state := holds

theorem settles_read_bind {view : σ → α} {next : α → Program σ ε β}
    (holds : Settles endless post (next (view state)) state) :
    Settles endless post (read view >>= next) state := by
  rw [Settles, wp_bind]
  exact holds

theorem settles_ofExcept_bind {result : Except ε α} {next : α → Program σ ε β}
    (onOk : ∀ value, result = .ok value → Settles endless post (next value) state)
    (onRaise : ∀ raised, result = .error raised → raised ≠ endless → post state) :
    Settles endless post (ofExcept result >>= next) state := by
  rw [Settles, wp_bind]
  cases outcome : result with
  | ok value => exact onOk value outcome
  | error raised =>
      exact fun ended => onRaise raised outcome fun same => ended (by rw [same])

theorem settles_bind {first : Program σ ε α} {next : α → Program σ ε β}
    (holds : Wp first (fun outcome reached =>
      match outcome with
      | .ok value => Settles endless post (next value) reached
      | .error raised => raised ≠ endless → post reached) state) :
    Settles endless post (first >>= next) state := by
  rw [Settles, wp_bind]
  refine holds.mono ?_
  rintro (raised | value) reached holds
  · exact fun ended => holds fun same => ended (by rw [same])
  · exact holds

theorem Settles.rescue {body : Program σ ε α} {handler : ε → Program σ ε α}
    (holds : Settles endless post body state)
    (handles : ∀ raised, handler raised = raise raised ∨
      raised ≠ endless ∧ ∃ value, handler raised = pure value) :
    Settles endless post (rescue body handler) state := by
  rw [Settles, wp_rescue]
  refine Wp.mono holds ?_
  rintro (raised | value) reached holds
  · rcases handles raised with again | ⟨caught, value, answered⟩
    · simp only [again, wp_raise]
      exact holds
    · simp only [answered, wp_pure]
      exact fun _ => holds fun same => caught (Except.error.inj same)
  · exact holds

end Settles

/-! The frame rule. -/

def Keeps (related : σ → σ → Prop) (body : Program σ ε α) : Prop :=
  ∀ state, related state (body.run state).2

variable {related : σ → σ → Prop}

theorem Keeps.wp {body : Program σ ε α} (keeps : Keeps related body) (state : σ) :
    Wp body (fun _ reached => related state reached) state := keeps state

theorem keeps_pure (refl : ∀ state, related state state) (value : α) :
    Keeps related (pure value : Program σ ε α) := fun state => refl state

theorem keeps_raise (refl : ∀ state, related state state) (exception : ε) :
    Keeps related (raise exception : Program σ ε α) := fun state => refl state

theorem keeps_ofExcept (refl : ∀ state, related state state) (result : Except ε α) :
    Keeps related (ofExcept result : Program σ ε α) := fun state => refl state

theorem keeps_read (refl : ∀ state, related state state) (view : σ → α) :
    Keeps related (read view : Program σ ε α) := fun state => refl state

theorem keeps_bind (trans : ∀ first second third, related first second → related second third →
      related first third) {first : Program σ ε α} {next : α → Program σ ε β}
    (keepsFirst : Keeps related first) (keepsNext : ∀ value, Keeps related (next value)) :
    Keeps related (first >>= next) := by
  intro state
  have start := keepsFirst state
  change related state ((Program.bind first next).run state).2
  simp only [Program.bind]
  revert start
  rcases first.run state with ⟨raised | value, reached⟩ <;> intro start
  · exact start
  · exact trans _ _ _ start (keepsNext value reached)

/-- The rest of the program may use what is known of every value that the first part gives. -/
theorem keeps_bind_of (trans : ∀ first second third, related first second → related second third →
      related first third) {first : Program σ ε α} {next : α → Program σ ε β} {gives : α → Prop}
    (keepsFirst : Keeps related first)
    (known : ∀ state, Wp first (fun outcome _ => ∀ value, outcome = .ok value → gives value) state)
    (keepsNext : ∀ value, gives value → Keeps related (next value)) :
    Keeps related (first >>= next) := by
  intro state
  have start := keepsFirst state
  have facts := known state
  change related state ((Program.bind first next).run state).2
  simp only [Program.bind]
  rw [Wp] at facts
  revert start facts
  rcases first.run state with ⟨raised | value, reached⟩ <;> intro start facts
  · exact start
  · exact trans _ _ _ start (keepsNext value (facts value rfl) reached)

theorem keeps_ite {condition : Prop} [Decidable condition] {yes no : Program σ ε α}
    (keepsYes : condition → Keeps related yes) (keepsNo : ¬condition → Keeps related no) :
    Keeps related (if condition then yes else no) := by
  split
  · rename_i holds
    exact keepsYes holds
  · rename_i fails
    exact keepsNo fails

theorem keeps_rescue (trans : ∀ first second third, related first second → related second third →
      related first third) {body : Program σ ε α} {handler : ε → Program σ ε α}
    (keepsBody : Keeps related body) (keepsHandler : ∀ raised, Keeps related (handler raised)) :
    Keeps related (rescue body handler) := by
  intro state
  have start := keepsBody state
  simp only [rescue]
  revert start
  rcases body.run state with ⟨raised | value, reached⟩ <;> intro start
  · exact trans _ _ _ start (keepsHandler raised reached)
  · exact start

end Program

end StatefulProgram
