import Megalos.Throttle

/-!
How long a call of `acquire` waits when no other call comes in between.  A sleep ends after
the oldest entry of a full window has left it, so that each poll finds fewer entries.
-/

namespace Megalos

open SlidingWindow

def Throttle.entries (throttle : Throttle) : Nat := throttle.calls.length + throttle.tokens.length

/-- After a refused poll the clock is read again once the sleep is over, and at most `late` after
that. -/
def Throttle.Sleeps (ceilings : Ceilings) (estimatedTokens : Int) (late : Rat) : Throttle →
    List Rat → Prop
  | throttle, now :: next :: later =>
      throttle.admits ceilings ⟨now, estimatedTokens⟩ = false →
        now + (throttle.prune now).waitNeeded ceilings now estimatedTokens ≤ next ∧
          next ≤ now + (throttle.prune now).waitNeeded ceilings now estimatedTokens + late ∧
          Sleeps ceilings estimatedTokens late (throttle.turn ceilings ⟨now, estimatedTokens⟩)
            (next :: later)
  | _, _ => True

variable {ceilings : Ceilings} {throttle : Throttle} {now next bound late : Rat}
    {estimatedTokens : Int}

/-- The wait ends when the first entry of one of the logs has left its window. -/
inductive WaitsFor (throttle : Throttle) (now wait : Rat) : Prop
  | nothing (nonpos : wait ≤ 0) : WaitsFor throttle now wait
  | call {oldest : Rat} {rest : List Rat} (first : throttle.calls = oldest :: rest)
      (leaves : now + wait = oldest + 1 + 1 / 100) : WaitsFor throttle now wait
  | token {oldest : Rat × Int} {rest : List (Rat × Int)} (first : throttle.tokens = oldest :: rest)
      (leaves : now + wait = oldest.1 + 60 + 1 / 100) : WaitsFor throttle now wait

theorem waitNeeded_call (maxRps : Rat) (positive : 0 < maxRps)
    (full : maxRps ≤ throttle.calls.length) :
    WaitsFor throttle now (max 0 (1 - (now - throttle.calls.headD now) + 1 / 100)) := by
  cases calls : throttle.calls with
  | nil =>
      rw [calls] at full
      exact absurd positive (not_lt.mpr full)
  | cons oldest rest =>
      rw [List.headD_cons]
      rcases max_cases 0 (1 - (now - oldest) + 1 / 100) with ⟨taken, -⟩ | ⟨taken, -⟩
      · rw [taken]
        exact .nothing (le_refl 0)
      · rw [taken]
        exact .call calls (by ring)

theorem waitNeeded_token {wait : Rat} (maxTpm : Int) (waits : WaitsFor throttle now wait)
    (within : estimatedTokens ≤ maxTpm)
    (full : maxTpm < (throttle.tokens.map Prod.snd).sum + estimatedTokens) :
    WaitsFor throttle now (max wait (60 - (now - (throttle.tokens.map Prod.fst).headD now) + 1 / 100)) := by
  cases tokens : throttle.tokens with
  | nil =>
      rw [tokens, List.map_nil, List.sum_nil] at full
      omega
  | cons oldest rest =>
      rw [List.map_cons, List.headD_cons]
      rcases max_cases wait (60 - (now - oldest.1) + 1 / 100) with ⟨taken, -⟩ | ⟨taken, -⟩
      · rw [taken]
        exact waits
      · rw [taken]
        exact .token tokens (by ring)

theorem waitNeeded_waitsFor :
    WaitsFor throttle now (throttle.waitNeeded ceilings now estimatedTokens) := by
  unfold Throttle.waitNeeded
  extract_lets wait
  have calls : WaitsFor throttle now wait := by
    unfold wait
    split
    · exact .nothing (le_refl 0)
    · rename_i maxRps limited
      split
      · exact waitNeeded_call maxRps (ceilings.rpsPositive maxRps limited) ‹_›
      · exact .nothing (le_refl 0)
  split
  · exact calls
  · rename_i maxTpm limited
    split
    · exact calls
    · split
      · exact calls
      · rename_i within
        split
        · exact waitNeeded_token maxTpm calls (not_lt.mp within) ‹_›
        · exact calls

theorem entries_prune_lt {wait : Rat} (waits : WaitsFor throttle now wait) (positive : 0 < wait)
    (slept : now + wait ≤ next) : (throttle.prune next).entries < throttle.entries := by
  have fewerCalls : (throttle.prune next).calls.length ≤ throttle.calls.length :=
    prune_sublist.length_le
  have fewerTokens : (throttle.prune next).tokens.length ≤ throttle.tokens.length :=
    prune_sublist.length_le
  unfold Throttle.entries
  cases waits with
  | nothing nonpos => exact absurd positive (not_lt.mpr nonpos)
  | call first leaves =>
      rename_i oldest rest
      have dropped : (throttle.prune next).calls.length < throttle.calls.length := by
        rw [Throttle.prune, first]
        exact prune_length_lt (by rw [id]; linarith)
      omega
  | token first leaves =>
      rename_i oldest rest
      have dropped : (throttle.prune next).tokens.length < throttle.tokens.length := by
        rw [Throttle.prune, first]
        exact prune_length_lt (by linarith)
      omega

structure Before (throttle : Throttle) (bound : Rat) : Prop where
  calls : ∀ call ∈ throttle.calls, call ≤ bound
  tokens : ∀ token ∈ throttle.tokens, token.1 ≤ bound

theorem Before.prune (before : Before throttle bound) : Before (throttle.prune now) bound :=
  ⟨fun call member => before.calls call (prune_sublist.subset member),
    fun token member => before.tokens token (prune_sublist.subset member)⟩

theorem Before.waits {wait : Rat} (before : Before throttle bound)
    (waits : WaitsFor throttle now wait) (positive : 0 < wait) :
    now + wait ≤ bound + 60 + 1 / 100 := by
  cases waits with
  | nothing nonpos => exact absurd positive (not_lt.mpr nonpos)
  | call first leaves =>
      have earlier := before.calls _ (by rw [first]; exact List.mem_cons_self)
      linarith
  | token first leaves =>
      have earlier := before.tokens _ (by rw [first]; exact List.mem_cons_self)
      linarith

theorem acquire_of_before (before : Before throttle bound) {readings : List Rat}
    (start : ∀ first ∈ readings.head?,
      first ≤ bound + 60 + 1 / 100 + late ∧ (throttle.prune first).entries < readings.length)
    (polled : readings ≠ []) (sleeps : throttle.Sleeps ceilings estimatedTokens late readings) :
    ∃ after now later, throttle.acquire ceilings estimatedTokens readings = some (after, now,
      later) ∧
      now ≤ bound + 60 + 1 / 100 + late := by
  induction readings generalizing throttle with
  | nil => exact absurd rfl polled
  | cons first rest ih =>
      obtain ⟨inTime, room⟩ := start first rfl
      unfold Throttle.acquire
      by_cases admitted : throttle.admits ceilings ⟨first, estimatedTokens⟩ = true
      · rw [if_pos admitted]
        exact ⟨_, first, rest, rfl, inTime⟩
      · rw [if_neg admitted, Throttle.turn, if_neg admitted]
        have positive : 0 < (throttle.prune first).waitNeeded ceilings first estimatedTokens := by
          rwa [Throttle.admits, decide_eq_true_eq, not_le] at admitted
        have fewer : ∀ next,
          first + (throttle.prune first).waitNeeded ceilings first estimatedTokens ≤ next →
            ((throttle.prune first).prune next).entries < (throttle.prune first).entries :=
          fun next slept => entries_prune_lt waitNeeded_waitsFor positive slept
        rw [List.length_cons] at room
        cases rest with
        | nil =>
            have none := fewer _ (le_refl _)
            rw [List.length_nil] at room
            omega
        | cons next later =>
            rw [Throttle.Sleeps] at sleeps
            obtain ⟨slept, late, further⟩ := sleeps (Bool.eq_false_of_not_eq_true admitted)
            rw [Throttle.turn, if_neg admitted] at further
            refine ih before.prune ?_ (List.cons_ne_nil _ _) further
            intro reading head
            cases head
            have ends := before.prune.waits waitNeeded_waitsFor positive
            have less : ((throttle.prune first).prune next).entries < (throttle.prune first).entries := fewer next slept
            dsimp only
            exact ⟨by linarith, by omega⟩

theorem Throttled.turns {latest : Rat} {history polls : List Poll}
    (throttled : Throttled ceilings throttle latest history) (forward : Forward latest polls)
    (after : ∀ poll ∈ polls, poll.now ≤ bound) (past : latest ≤ bound) :
    ∃ time history, Throttled ceilings (polls.foldl (Throttle.turn ceilings) throttle) time history ∧ time ≤ bound := by
  induction polls generalizing throttle latest history with
  | nil => exact ⟨latest, history, throttled, past⟩
  | cons poll rest ih =>
      unfold Forward at forward ih
      rw [List.map_cons, List.pairwise_cons] at forward
      have next := throttled.turn (forward.1 poll.now List.mem_cons_self)
      exact ih next forward.2 (fun other member => after other (List.mem_cons_of_mem _ member))
        (after poll List.mem_cons_self)

theorem Remembers.before {latest : Rat} {history : List Poll}
    (remembers : Remembers throttle latest history) (past : latest ≤ bound) :
    Before throttle bound := by
  constructor
  · intro call member
    rw [remembers.calls] at member
    obtain ⟨poll, kept, rfl⟩ := List.mem_map.mp member
    exact le_trans (remembers.past poll (recent_mem kept).1) past
  · intro token member
    rw [remembers.tokens] at member
    obtain ⟨poll, kept, rfl⟩ := List.mem_map.mp member
    exact le_trans (remembers.past poll (recent_mem (List.mem_filter.mp kept).1).1) past

/-- A call that no other interrupts makes at most one poll for each entry and one more, and waits
for no longer than the window of the tokens, whatever the ceilings and the calls before it. -/
theorem acquire_returns (punctual : 0 ≤ late) {latest first : Rat} {polls : List Poll}
    {rest : List Rat} (forward : Forward latest (polls ++ [⟨first, estimatedTokens⟩]))
    (enough : (polls.foldl (Throttle.turn ceilings) .fresh).entries ≤ rest.length)
    (sleeps : (polls.foldl (Throttle.turn ceilings) .fresh).Sleeps ceilings estimatedTokens late (first :: rest)) :
    ∃ after now later, (polls.foldl (Throttle.turn ceilings) .fresh).acquire ceilings estimatedTokens (first :: rest) =
        .some (after, now, later) ∧ now ≤ first + 60 + 1 / 100 + late := by
  unfold Forward at forward
  rw [List.map_append, List.map_singleton, ← List.cons_append, List.pairwise_append] at forward
  obtain ⟨ordered, -, last⟩ := forward
  have final : ∀ time ∈ latest :: polls.map Poll.now, time ≤ first :=
    fun time member => last time member first (List.mem_singleton.mpr rfl)
  have polled : ∀ poll ∈ polls, poll.now ≤ first :=
    fun poll member => final poll.now (List.mem_cons_of_mem _ (List.mem_map_of_mem member))
  obtain ⟨time, history, throttled, past⟩ := (Throttled.fresh ceilings latest).turns ordered polled
    (final latest List.mem_cons_self)
  have pruned : ((polls.foldl (Throttle.turn ceilings) .fresh).prune first).entries ≤
      (polls.foldl (Throttle.turn ceilings) .fresh).entries :=
    Nat.add_le_add prune_sublist.length_le prune_sublist.length_le
  refine acquire_of_before (throttled.remembers.before past) ?_ (List.cons_ne_nil _ _) sleeps
  intro reading head
  cases head
  rw [List.length_cons]
  exact ⟨by linarith, by omega⟩

/-- One call a second is allowed, and one has just been made. -/
theorem acquire_returns_next : ∃ after now later,
    ([⟨0, 0⟩].foldl (Throttle.turn (.both 1 100 (by decide))) .fresh).acquire (.both 1 100 (by decide)) 0 [0, 101 / 100] =
        some (after, now, later) ∧ now ≤ 0 + 60 + 1 / 100 + 0 := by
  have forward : Forward 0 ([⟨0, 0⟩] ++ [⟨0, 0⟩]) := by simp [Forward]
  refine acquire_returns (le_refl 0) forward (by decide +kernel) ?_
  intro refused
  exact ⟨by decide +kernel, by decide +kernel, trivial⟩

end Megalos
