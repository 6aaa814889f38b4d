import Megalos.Library.Binary64
import Megalos.Library.Recency

/-!
The log of refused calls (`_DenyLogDedupe` of `ratelimit.py`): one line for each source
and window of time, from a bounded table of the last lines.
-/

namespace Megalos

open Binary64 KeyedTable

/-- The scope and the identity of a refused call. -/
abbrev DenySource := String × String

/-- Times of the last lines, the source that was refused last at the end. -/
structure DenyLogDedupe where
  windowSec : Number
  idleTtlSec : Number
  maxEntries : Nat
  entries : Table (Prod.fst : DenySource × Number → DenySource)
  accessCount : Nat

def dedupeSweepEvery : Nat := 64

namespace DenyLogDedupe

def init (windowSec idleTtlSec : Number) (maxEntries : Nat) : DenyLogDedupe :=
  ⟨windowSec, idleTtlSec, maxEntries, Table.empty, 0⟩

def sweepExpired (cache : DenyLogDedupe) (now : Number) : DenyLogDedupe :=
  if cache.idleTtlSec.value ≤ 0 then cache
  else
    let cutoff := now.minus cache.idleTtlSec
    { cache with entries := cache.entries.deleteWhere fun entry => decide (entry.2.value < cutoff.value) }

def evictIfOverCap (cache : DenyLogDedupe) : DenyLogDedupe :=
  { cache with entries := cache.entries.dropOldest (cache.entries.size - cache.maxEntries) }

/-- The table as a call finds it: counted, and swept at every 64th call. -/
def accessed (cache : DenyLogDedupe) (now : Number) : DenyLogDedupe :=
  let counted := { cache with accessCount := cache.accessCount + 1 }
  if counted.accessCount % dedupeSweepEvery = 0 then counted.sweepExpired now else counted

def emit (cache : DenyLogDedupe) (source : DenySource) (now : Number) : Bool × DenyLogDedupe :=
  (true, { cache with entries := cache.entries.toEnd (source, now) }.evictIfOverCap)

def shouldEmit (cache : DenyLogDedupe) (scope identity : String) (now : Number) :
    Bool × DenyLogDedupe :=
  let swept := cache.accessed now
  match swept.entries.lookup (scope, identity) with
  | some (_, last) =>
      if (now.minus last).value < swept.windowSec.value then
        (false, { swept with entries := swept.entries.toEnd ((scope, identity), last) })
      else swept.emit (scope, identity) now
  | none => swept.emit (scope, identity) now

end DenyLogDedupe

structure Denial where
  scope : String
  identity : String
  now : Number

def Denial.source (denial : Denial) : DenySource := (denial.scope, denial.identity)

namespace DenyLogDedupe

/-- The denials, each with whether a line was written for it. -/
def log : DenyLogDedupe → List Denial → List (Denial × Bool)
  | _, [] => []
  | cache, denial :: rest =>
      let (emitted, after) := cache.shouldEmit denial.scope denial.identity denial.now
      (denial, emitted) :: after.log rest

def afterAll (cache : DenyLogDedupe) (denials : List Denial) : DenyLogDedupe :=
  denials.foldl (fun cache denial => (cache.shouldEmit denial.scope denial.identity denial.now).2) cache

variable {cache : DenyLogDedupe} {scope identity : String} {now : Number} {source : DenySource}
  {entry : DenySource × Number}

theorem accessed_entries : (cache.accessed now).entries =
    if (cache.accessCount + 1) % dedupeSweepEvery = 0 ∧ 0 < cache.idleTtlSec.value then
      cache.entries.deleteWhere fun entry => decide (entry.2.value < (now.minus cache.idleTtlSec).value)
    else cache.entries := by
  unfold accessed sweepExpired
  dsimp only
  by_cases due : (cache.accessCount + 1) % dedupeSweepEvery = 0
  · by_cases never : cache.idleTtlSec.value ≤ 0
    · rw [if_pos due, if_pos never, if_neg fun both => absurd both.2 (not_lt.mpr never)]
    · rw [if_pos due, if_neg never, if_pos ⟨due, not_le.mp never⟩]
  · rw [if_neg due, if_neg fun both => due both.1]

theorem accessed_fields (cache : DenyLogDedupe) (now : Number) :
    (cache.accessed now).windowSec = cache.windowSec ∧
    (cache.accessed now).idleTtlSec = cache.idleTtlSec ∧
      (cache.accessed now).maxEntries = cache.maxEntries := by
  unfold accessed sweepExpired
  dsimp only
  split
  · split
    · exact ⟨rfl, rfl, rfl⟩
    · exact ⟨rfl, rfl, rfl⟩
  · exact ⟨rfl, rfl, rfl⟩

theorem accessed_size_le : (cache.accessed now).entries.size ≤ cache.entries.size := by
  rw [accessed_entries]
  split
  · exact Table.size_deleteWhere_le _ _
  · exact le_refl _

/-- What a call finds was there before, and what was there before is found or was idle for too long.
-/
theorem accessed_lookup (cache : DenyLogDedupe) (now : Number) (source : DenySource) :
    (cache.accessed now).entries.lookup source = cache.entries.lookup source ∨
    (cache.accessed now).entries.lookup source = none ∧
      ∀ entry, cache.entries.lookup source = some entry →
        entry.2.value < (now.minus cache.idleTtlSec).value := by
  rw [accessed_entries]
  split
  · rw [Table.lookup_deleteWhere]
    cases found : cache.entries.lookup source with
    | none => exact .inl rfl
    | some entry =>
        by_cases idle : entry.2.value < (now.minus cache.idleTtlSec).value
        · right
          refine ⟨by simp [Option.filter, idle], ?_⟩
          intro other same
          rwa [← Option.some.inj same]
        · left
          simp [Option.filter, idle]
  · exact .inl rfl

theorem shouldEmit_cases (cache : DenyLogDedupe) (scope identity : String) (now : Number) :
    (∃ last, (cache.accessed now).entries.lookup (scope, identity) = some ((scope, identity),
      last) ∧
      (now.minus last).value < cache.windowSec.value ∧ cache.shouldEmit scope identity now =
        (false, { cache.accessed now with entries :=
          (cache.accessed now).entries.toEnd ((scope, identity), last) })) ∨
    ((∀ last, (cache.accessed now).entries.lookup (scope, identity) = some ((scope, identity),
      last) →
      cache.windowSec.value ≤ (now.minus last).value) ∧
      cache.shouldEmit scope identity now = (cache.accessed now).emit (scope, identity) now) := by
  have window := (accessed_fields cache now).1
  unfold shouldEmit
  dsimp only
  cases found : (cache.accessed now).entries.lookup (scope, identity) with
  | none =>
      right
      exact ⟨by simp, rfl⟩
  | some entry =>
      obtain ⟨source, last⟩ := entry
      have own : source = (scope, identity) := Table.lookup_key found
      subst own
      dsimp only
      rw [window]
      by_cases inside : (now.minus last).value < cache.windowSec.value
      · left
        rw [if_pos inside]
        exact ⟨last, rfl, inside, rfl⟩
      · right
        rw [if_neg inside]
        refine ⟨?_, rfl⟩
        intro other same
        rw [Option.some.injEq, Prod.mk.injEq] at same
        rw [← same.2]
        exact not_lt.mp inside

theorem shouldEmit_fields (cache : DenyLogDedupe) (scope identity : String) (now : Number) :
    (cache.shouldEmit scope identity now).2.windowSec = cache.windowSec ∧
      (cache.shouldEmit scope identity now).2.idleTtlSec = cache.idleTtlSec ∧
      (cache.shouldEmit scope identity now).2.maxEntries = cache.maxEntries := by
  have fields := accessed_fields cache now
  rcases shouldEmit_cases cache scope identity now with ⟨last, -, -, outcome⟩ | ⟨-, outcome⟩
  · rw [outcome]
    exact fields
  · rw [outcome]
    exact fields

theorem shouldEmit_size_le (cache : DenyLogDedupe) (scope identity : String) (now : Number)
    (bounded : cache.entries.size ≤ cache.maxEntries) :
    (cache.shouldEmit scope identity now).2.entries.size ≤ cache.maxEntries := by
  rcases shouldEmit_cases cache scope identity now with ⟨last, found, -, outcome⟩ | ⟨-, outcome⟩
  · rw [outcome]
    exact (Table.size_toEnd_known found).trans (accessed_size_le.trans bounded)
  · rw [outcome]
    have size : ((cache.accessed now).emit (scope, identity) now).2.entries.size =
        ((cache.accessed now).entries.toEnd ((scope, identity), now)).size -
          (((cache.accessed now).entries.toEnd ((scope, identity),
            now)).size - (cache.accessed now).maxEntries) :=
      Table.size_dropOldest _ _
    rw [size, (accessed_fields cache now).2.2]
    omega

theorem afterAll_size_le (denials : List Denial) (bounded : cache.entries.size ≤ cache.maxEntries) :
    (cache.afterAll denials).entries.size ≤ cache.maxEntries := by
  induction denials generalizing cache with
  | nil => exact bounded
  | cons denial rest ih =>
      have same := (shouldEmit_fields cache denial.scope denial.identity denial.now).2.2
      have next := shouldEmit_size_le cache denial.scope denial.identity denial.now bounded
      rw [← same] at next ⊢
      exact ih next

end DenyLogDedupe

/-- Every line for the source of a denial is a window or more before it, as far as the difference of
the two floats tells. -/
def Spaced (windowSec : Number) (past : List (Denial × Bool)) (denial : Denial) : Prop :=
  ∀ earlier ∈ past, earlier.2 = true → earlier.1.source = denial.source →
    windowSec.value ≤ (denial.now.minus earlier.1.now).value

/-- A full window has passed since every line for the source. -/
def Elapsed (windowSec : Number) (past : List (Denial × Bool)) (denial : Denial) : Prop :=
  ∀ earlier ∈ past, earlier.2 = true → earlier.1.source = denial.source →
    earlier.1.now.value + windowSec.value ≤ denial.now.value

theorem Elapsed.spaced {windowSec : Number} {past : List (Denial × Bool)} {denial : Denial}
    (elapsed : Elapsed windowSec past denial) : Spaced windowSec past denial :=
  fun earlier member wrote own => Number.le_minus (elapsed earlier member wrote own)

/-- A table against the log so far: an entry is the last line of its source, and a source without
one has no line in the last window. -/
structure Recalls (cache : DenyLogDedupe) (past : List (Denial × Bool))
    (sources : Finset DenySource) (time : Number) : Prop where
  written : ∀ source last, cache.entries.lookup source = some (source, last) →
    ∃ earlier ∈ past, earlier.2 = true ∧ earlier.1.source = source ∧ earlier.1.now = last
  latest : ∀ source last, cache.entries.lookup source = some (source, last) →
    ∀ earlier ∈ past, earlier.2 = true → earlier.1.source = source →
      earlier.1.now.value ≤ last.value
  forgotten : ∀ source, cache.entries.lookup source = none →
    ∀ earlier ∈ past, earlier.2 = true → earlier.1.source = source →
      cache.windowSec.value ≤ (time.minus earlier.1.now).value
  within : ∀ entry ∈ cache.entries.rows, entry.1 ∈ sources
  elapsed : ∀ earlier ∈ past, earlier.1.now.value ≤ time.value

namespace Recalls

variable {cache : DenyLogDedupe} {past : List (Denial × Bool)} {sources : Finset DenySource}
  {time : Number} {denial : Denial} {denials : List Denial}

theorem init (windowSec idleTtlSec : Number) (maxEntries : Nat) (sources : Finset DenySource)
    (time : Number) :
    Recalls (.init windowSec idleTtlSec maxEntries) [] sources time := by
  constructor
  · intro source last found
    exact nomatch found
  · intro source last found
    exact nomatch found
  · intro source absent earlier member
    exact nomatch member
  · intro entry member
    exact nomatch member
  · intro earlier member
    exact nomatch member

/-- Time passes, and a call sweeps the sources that were quiet for too long. -/
theorem accessed (recalls : Recalls cache past sources time) {now : Number}
    (ordered : time.value ≤ now.value) (patient : cache.windowSec.value ≤ cache.idleTtlSec.value) :
    Recalls (cache.accessed now) past sources now := by
  have window := (DenyLogDedupe.accessed_fields cache now).1
  have kept : ∀ source entry, (cache.accessed now).entries.lookup source = some entry →
      cache.entries.lookup source = some entry := by
    intro source entry found
    rcases DenyLogDedupe.accessed_lookup cache now source with same | ⟨gone, -⟩
    · exact same ▸ found
    · exact nomatch gone.symm.trans found
  constructor
  · intro source last found
    exact recalls.written source last (kept source _ found)
  · intro source last found
    exact recalls.latest source last (kept source _ found)
  · intro source absent earlier member emitted own
    rw [window]
    cases before : cache.entries.lookup source with
    | none =>
        exact (recalls.forgotten source before earlier member emitted own).trans (Number.minus_mono ordered)
    | some entry =>
        obtain ⟨key, last⟩ := entry
        have isOwn : key = source := Table.lookup_key before
        subst isOwn
        have idle : last.value < (now.minus cache.idleTtlSec).value := by
          rcases DenyLogDedupe.accessed_lookup cache now key with same | ⟨-, idle⟩
          · exact nomatch (same.symm.trans absent).symm.trans before
          · exact idle _ before
        have notLater := recalls.latest key last before earlier member emitted own
        have quiet := Number.add_lt_of_lt_minus idle
        exact Number.le_minus (by linarith)
  · intro entry member
    rw [DenyLogDedupe.accessed_entries] at member
    split at member
    · exact recalls.within entry (List.mem_of_mem_filter member)
    · exact recalls.within entry member
  · intro earlier member
    exact (recalls.elapsed earlier member).trans ordered

theorem suppressed (recalls : Recalls cache past sources denial.now) {last : Number}
    (found : cache.entries.lookup denial.source = some (denial.source, last)) :
    Recalls { cache with entries := cache.entries.toEnd (denial.source, last) }
      (past ++ [(denial, false)]) sources
      denial.now := by
  have same : ∀ source,
    (cache.entries.toEnd (denial.source, last)).lookup source = cache.entries.lookup source :=
    Table.lookup_toEnd_known found
  have before : ∀ earlier ∈ past ++ [(denial, false)], earlier.2 = true → earlier ∈ past := by
    intro earlier member emitted
    rcases List.mem_append.mp member with inPast | newest
    · exact inPast
    · rw [List.mem_singleton.mp newest] at emitted
      exact nomatch emitted
  constructor
  · intro source last there
    obtain ⟨earlier, inPast, facts⟩ := recalls.written source last ((same source).symm.trans there)
    exact ⟨earlier, List.mem_append_left _ inPast, facts⟩
  · intro source last there earlier member emitted own
    exact recalls.latest source last ((same source).symm.trans there) earlier (before earlier member emitted) emitted own
  · intro source absent earlier member emitted own
    exact recalls.forgotten source ((same source).symm.trans absent) earlier (before earlier member emitted) emitted own
  · intro entry member
    rcases Table.mem_toEnd member with isNew | old
    · rw [isNew]
      exact recalls.within _ (Table.lookup_mem found)
    · exact recalls.within entry old
  · intro earlier member
    rcases List.mem_append.mp member with inPast | newest
    · exact recalls.elapsed earlier inPast
    · rw [List.mem_singleton.mp newest]

theorem emitted (recalls : Recalls cache past sources denial.now) (mine : denial.source ∈ sources)
    (few : sources.card ≤ cache.maxEntries) :
    Recalls (cache.emit denial.source denial.now).2 (past ++ [(denial, true)]) sources denial.now :=
      by
  have among : ∀ entry ∈ (cache.entries.toEnd (denial.source,
    denial.now)).rows, entry.1 ∈ sources := by
    intro entry member
    rcases Table.mem_toEnd member with isNew | old
    · rw [isNew]
      exact mine
    · exact recalls.within entry old
  have entries : (cache.emit denial.source denial.now).2.entries =
    cache.entries.toEnd (denial.source, denial.now) := by
    have size := Table.size_le_card among
    have none : (cache.entries.toEnd (denial.source, denial.now)).size - cache.maxEntries = 0 :=
      by omega
    unfold DenyLogDedupe.emit DenyLogDedupe.evictIfOverCap
    dsimp only
    rw [none, Table.dropOldest_zero]
  have lookup : ∀ source, (cache.emit denial.source denial.now).2.entries.lookup source =
      if source = denial.source then some (denial.source,
        denial.now) else cache.entries.lookup source := by
    intro source
    rw [entries]
    exact Table.lookup_toEnd cache.entries (denial.source, denial.now) source
  have split : ∀ earlier ∈ past ++ [(denial, true)], earlier ∈ past ∨ earlier = (denial, true) := by
    intro earlier member
    rcases List.mem_append.mp member with inPast | newest
    · exact .inl inPast
    · exact .inr (List.mem_singleton.mp newest)
  constructor
  · intro source last found
    rw [lookup] at found
    by_cases own : source = denial.source
    · rw [if_pos own, Option.some.injEq, Prod.mk.injEq] at found
      exact ⟨(denial, true), by simp, rfl, found.1, found.2⟩
    · rw [if_neg own] at found
      obtain ⟨earlier, inPast, facts⟩ := recalls.written source last found
      exact ⟨earlier, List.mem_append_left _ inPast, facts⟩
  · intro source last found earlier member wrote same
    rw [lookup] at found
    by_cases own : source = denial.source
    · rw [if_pos own, Option.some.injEq, Prod.mk.injEq] at found
      rw [← found.2]
      rcases split earlier member with inPast | newest
      · exact recalls.elapsed earlier inPast
      · rw [newest]
    · rw [if_neg own] at found
      rcases split earlier member with inPast | newest
      · exact recalls.latest source last found earlier inPast wrote same
      · rw [newest] at same
        exact absurd same.symm own
  · intro source absent earlier member wrote same
    rw [lookup] at absent
    by_cases own : source = denial.source
    · rw [if_pos own] at absent
      exact nomatch absent
    · rw [if_neg own] at absent
      rcases split earlier member with inPast | newest
      · exact recalls.forgotten source absent earlier inPast wrote same
      · rw [newest] at same
        exact absurd same.symm own
  · intro entry member
    rw [entries] at member
    exact among entry member
  · intro earlier member
    rcases split earlier member with inPast | newest
    · exact recalls.elapsed earlier inPast
    · rw [newest]

/-- One denial: a line is written when the last one of its source is a window ago. -/
theorem step (recalls : Recalls cache past sources time) (ordered : time.value ≤ denial.now.value)
    (patient : cache.windowSec.value ≤ cache.idleTtlSec.value) (mine : denial.source ∈ sources)
    (few : sources.card ≤ cache.maxEntries) :
    ((cache.shouldEmit denial.scope denial.identity denial.now).1 = true ↔
      Spaced cache.windowSec past denial) ∧
      Recalls (cache.shouldEmit denial.scope denial.identity denial.now).2
        (past ++ [(denial, (cache.shouldEmit denial.scope denial.identity denial.now).1)]) sources denial.now := by
  have swept := recalls.accessed ordered patient
  obtain ⟨window, -, room⟩ := DenyLogDedupe.accessed_fields cache denial.now
  rcases DenyLogDedupe.shouldEmit_cases cache denial.scope denial.identity denial.now with
    ⟨last, found, inside, outcome⟩ | ⟨late, outcome⟩
  · rw [outcome]
    refine ⟨?_, swept.suppressed found⟩
    constructor
    · intro wrong
      exact nomatch wrong
    · intro spaced
      obtain ⟨earlier, inPast, wrote, own, sameTime⟩ := swept.written denial.source last found
      have apart := spaced earlier inPast wrote own
      rw [sameTime] at apart
      exact absurd inside (not_lt.mpr apart)
  · rw [outcome]
    refine ⟨⟨fun _ => ?_, fun _ => rfl⟩, swept.emitted mine (room ▸ few)⟩
    intro earlier inPast wrote own
    cases found : (cache.accessed denial.now).entries.lookup denial.source with
    | none => exact window ▸ swept.forgotten denial.source found earlier inPast wrote own
    | some entry =>
        obtain ⟨source, last⟩ := entry
        have isOwn : source = denial.source := Table.lookup_key found
        subst isOwn
        have notLater := swept.latest denial.source last found earlier inPast wrote own
        exact (late last found).trans (Number.minus_anti notLater)

/-- A whole run: a line is written exactly when the last one of its source is a window ago. -/
theorem log (recalls : Recalls cache past sources time)
    (patient : cache.windowSec.value ≤ cache.idleTtlSec.value)
    (monotone : (time :: denials.map Denial.now).Pairwise fun first second =>
      first.value ≤ second.value)
    (mine : ∀ denial ∈ denials, denial.source ∈ sources)
    (few : sources.card ≤ cache.maxEntries) {before after : List (Denial × Bool)} {emitted : Bool}
    (split : cache.log denials = before ++ (denial, emitted) :: after) :
    emitted = true ↔ Spaced cache.windowSec (past ++ before) denial := by
  induction denials generalizing cache past time before with
  | nil =>
      have length := congrArg List.length split
      simp [DenyLogDedupe.log] at length
  | cons first rest ih =>
      obtain ⟨later, monotone⟩ := List.pairwise_cons.mp monotone
      obtain ⟨exact, next⟩ :=
        recalls.step (later first.now (by simp)) patient (mine first (by simp)) few
      obtain ⟨window, ttl, room⟩ :=
        DenyLogDedupe.shouldEmit_fields cache first.scope first.identity first.now
      have cons : cache.log (first :: rest) = (first,
        (cache.shouldEmit first.scope first.identity first.now).1) ::
          (cache.shouldEmit first.scope first.identity first.now).2.log rest := rfl
      rw [cons] at split
      cases before with
      | nil =>
          rw [List.nil_append, List.cons.injEq, Prod.mk.injEq] at split
          rw [List.append_nil, ← split.1.1, ← split.1.2]
          exact exact
      | cons head tail =>
          rw [List.cons_append, List.cons.injEq] at split
          have follows := ih next (by rw [window, ttl]; exact patient) monotone
            (fun denial member => mine denial (List.mem_cons_of_mem _ member))
              (by rw [room]; exact few) split.2
          rw [follows, window, ← split.1, List.append_assoc, List.singleton_append]

end Recalls

/-- Two lines of one source are a window apart as the difference of the floats tells, a denial has a
line exactly then, also when a full window has passed, and the table holds no more than its bound.
-/
theorem denyLog_exact (windowSec idleTtlSec : Number) (maxEntries : Nat) (denials : List Denial) :
    ((denials.map Denial.now).Pairwise (fun first second => first.value ≤ second.value) →
      windowSec.value ≤ idleTtlSec.value → (denials.map Denial.source).toFinset.card ≤ maxEntries →
      ((DenyLogDedupe.init windowSec idleTtlSec maxEntries).log denials).Pairwise (fun earlier later =>
          earlier.2 = true → later.2 = true → earlier.1.source = later.1.source →
            windowSec.value ≤ (later.1.now.minus earlier.1.now).value) ∧
        ∀ before denial emitted after,
          (DenyLogDedupe.init windowSec idleTtlSec maxEntries).log denials = before ++
            (denial, emitted) :: after →
          (emitted = true ↔ Spaced windowSec before denial) ∧
            (Elapsed windowSec before denial → emitted = true)) ∧
    ((DenyLogDedupe.init windowSec idleTtlSec maxEntries).afterAll denials).entries.size ≤ maxEntries := by
  constructor
  · intro monotone patient few
    have exact : ∀ before denial emitted after,
        (DenyLogDedupe.init windowSec idleTtlSec maxEntries).log denials = before ++
          (denial, emitted) :: after →
        (emitted = true ↔ Spaced windowSec before denial) := by
      intro before denial emitted after split
      cases denials with
      | nil =>
          have length := congrArg List.length split
          simp [DenyLogDedupe.log] at length
      | cons first rest =>
          have start := Recalls.init windowSec idleTtlSec maxEntries (((first :: rest).map Denial.source).toFinset) first.now
          apply start.log patient _ _ few split
          · apply List.pairwise_cons.mpr ⟨_, monotone⟩
            intro later member
            rcases List.mem_cons.mp member with rfl | after
            · exact le_refl _
            · exact (List.pairwise_cons.mp monotone).1 later after
          · intro denial member
            exact List.mem_toFinset.mpr (List.mem_map_of_mem member)
    generalize (DenyLogDedupe.init windowSec idleTtlSec maxEntries).log denials = log at exact ⊢
    constructor
    · rw [List.pairwise_iff_getElem]
      intro i j iBound jBound ordered wrote wroteAgain same
      have split : log = log.take j ++ (log[j].1, log[j].2) :: log.drop (j + 1) := by simp
      apply (exact _ _ _ _ split).mp wroteAgain log[i] _ wrote same
      exact List.mem_take_iff_getElem.mpr ⟨i, by omega, rfl⟩
    · intro before denial emitted after split
      have decides := exact before denial emitted after split
      exact ⟨decides, fun elapsed => decides.mpr elapsed.spaced⟩
  · exact DenyLogDedupe.afterAll_size_le denials (Nat.zero_le _)

/-- Three denials of one address, with the limits of the server. -/
theorem threeDenials_exact :
    ((DenyLogDedupe.init (.of 60) (.of 300) 1000).log
      [⟨"ip", "a", .of 0⟩, ⟨"ip", "a", .of 30⟩, ⟨"ip", "a", .of 60⟩]).Pairwise
      (fun earlier later => earlier.2 = true → later.2 = true → earlier.1.source = later.1.source →
        (Number.of 60).value ≤ (later.1.now.minus earlier.1.now).value) := by
  refine ((denyLog_exact (.of 60) (.of 300) 1000
    [⟨"ip", "a", .of 0⟩, ⟨"ip", "a", .of 30⟩, ⟨"ip", "a", .of 60⟩]).1 ?_ ?_ (by decide)).1
  · have ordered : ∀ {low high : Rat}, low ≤ high →
      (Number.of low).value ≤ (Number.of high).value := nearest_mono
    simp only [List.map_cons, List.map_nil, List.pairwise_cons, List.forall_mem_cons]
    exact ⟨⟨ordered (by norm_num), ordered (by norm_num), by simp⟩,
      ⟨ordered (by norm_num), by simp⟩, by simp, .nil⟩
  · exact nearest_mono (by norm_num)

/-- Lines at 0.3 and at 60.3: the floats are less than a minute apart, and their difference is
rounded to one. -/
theorem not_always_apart :
    (DenyLogDedupe.init (.of 60) (.of 300) 1000).log [⟨"ip", "a", .of (3 / 10)⟩,
      ⟨"ip", "a", .of (603 / 10)⟩] =
        [(⟨"ip", "a", .of (3 / 10)⟩, true), (⟨"ip", "a", .of (603 / 10)⟩, true)] ∧
      (Number.of (603 / 10)).value < (Number.of (3 / 10)).value + (Number.of 60).value := by
  have early : (Number.of (3 / 10)).value = (5404319552844595 : Int) * 2 ^ (-54 : Int) :=
    nearest_eq (by norm_num) (by norm_num) (by norm_num) (by norm_num)
  have late : (Number.of (603 / 10)).value = (4243235273913139 * 2 : Int) * 2 ^ (-47 : Int) :=
    nearest_eq (by norm_num) (by norm_num) (by norm_num) (by norm_num)
  have minute : (Number.of 60).value = (60 * 2 ^ 47 : Int) * 2 ^ (-47 : Int) :=
    nearest_eq (by norm_num) (by norm_num) (by norm_num) (by norm_num)
  have rounded : ((Number.of (603 / 10)).minus (.of (3 / 10))).value =
    (60 * 2 ^ 47 : Int) * 2 ^ (-47 : Int) := by
    have apart : (Number.of (603 / 10)).value - (Number.of (3 / 10)).value =
        1080863910568918989 / 18014398509481984 := by
      rw [early, late]
      norm_num
    unfold Number.minus
    rw [apart]
    exact nearest_eq (by norm_num) (by norm_num) (by norm_num) (by norm_num)
  refine ⟨?_, by rw [early, late, minute]; norm_num⟩
  let cache := ((DenyLogDedupe.init (.of 60) (.of 300) 1000).shouldEmit "ip" "a" (.of (3 / 10))).2
  have again : (cache.shouldEmit "ip" "a" (.of (603 / 10))).1 = true := by
    rcases DenyLogDedupe.shouldEmit_cases cache "ip" "a" (.of (603 / 10)) with
      ⟨last, found, inside, -⟩ | ⟨-, outcome⟩
    · have same : Number.of (3 / 10) = last := congrArg Prod.snd (Option.some.inj found)
      have window : cache.windowSec.value = (Number.of 60).value := rfl
      rw [← same, rounded, window, minute] at inside
      exact absurd inside (lt_irrefl _)
    · rw [outcome]
      rfl
  have listed : (DenyLogDedupe.init (.of 60) (.of 300) 1000).log
        [⟨"ip", "a", .of (3 / 10)⟩, ⟨"ip", "a", .of (603 / 10)⟩] =
      [(⟨"ip", "a", .of (3 / 10)⟩, true),
        (⟨"ip", "a", .of (603 / 10)⟩, (cache.shouldEmit "ip" "a" (.of (603 / 10))).1)] := rfl
  rw [listed, again]

end Megalos
