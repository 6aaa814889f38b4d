import Mathlib.Algebra.Order.Ring.Rat
import Mathlib.Data.Rat.Floor
import Mathlib.Tactic.Linarith
import Megalos.Library.SlidingWindow

/-!
`Throttle` of `megalos_panel`: two logs, of the calls of the last second and of the
tokens of the last minute.  A poll is one turn of the loop in `acquire`, under the lock;
the loops of several threads interleave turn by turn.
-/

namespace Megalos

open SlidingWindow

structure Ceilings where
  maxRps : Option Rat
  maxTpm : Option Int
  rpsPositive : ∀ limit, maxRps = some limit → 0 < limit

structure Throttle where
  calls : List Rat
  tokens : List (Rat × Int)

def Throttle.fresh : Throttle := ⟨[], []⟩

def Throttle.prune (throttle : Throttle) (now : Rat) : Throttle :=
  ⟨SlidingWindow.prune id 1 now throttle.calls, SlidingWindow.prune Prod.fst 60 now throttle.tokens⟩

/-- Under a positive ceiling the deque of calls is not empty where its head is read. -/
def Throttle.waitNeeded (ceilings : Ceilings) (throttle : Throttle) (now : Rat)
    (estimatedTokens : Int) : Rat :=
  let wait := match ceilings.maxRps with
    | none => 0
    | some maxRps =>
        if maxRps ≤ throttle.calls.length then max 0 (1 - (now - throttle.calls.headD now) + 1 / 100) else 0
  match ceilings.maxTpm with
  | none => wait
  | some maxTpm =>
      if estimatedTokens ≤ 0 then wait
      else if maxTpm < estimatedTokens then wait
      else if maxTpm < (throttle.tokens.map Prod.snd).sum + estimatedTokens then
        max wait (60 - (now - (throttle.tokens.map Prod.fst).headD now) + 1 / 100)
      else wait

/-- What a turn of the loop reads and is asked for. -/
structure Poll where
  now : Rat
  estimatedTokens : Int
  deriving DecidableEq

def Throttle.admits (ceilings : Ceilings) (throttle : Throttle) (poll : Poll) : Bool :=
  (throttle.prune poll.now).waitNeeded ceilings poll.now poll.estimatedTokens ≤ 0

def Throttle.record (throttle : Throttle) (poll : Poll) : Throttle where
  calls := throttle.calls ++ [poll.now]
  tokens := if 0 < poll.estimatedTokens then throttle.tokens ++
    [(poll.now, poll.estimatedTokens)] else throttle.tokens

/-- One turn: it is admitted and recorded, or it sleeps and polls again later. -/
def Throttle.turn (ceilings : Ceilings) (throttle : Throttle) (poll : Poll) : Throttle :=
  if throttle.admits ceilings poll then (throttle.prune poll.now).record poll else throttle.prune poll.now

/-- The polls that a throttle admits, in their order. -/
def Throttle.admitted (ceilings : Ceilings) (throttle : Throttle) : List Poll → List Poll
  | [] => []
  | poll :: rest =>
      if throttle.admits ceilings poll then poll :: (throttle.turn ceilings poll).admitted ceilings rest
      else (throttle.turn ceilings poll).admitted ceilings rest

/-- `acquire`, over the readings of the clock it will take; without a reading it still waits. -/
def Throttle.acquire (ceilings : Ceilings) (throttle : Throttle) (estimatedTokens : Int) :
    List Rat → Option (Throttle × Rat × List Rat)
  | [] => none
  | now :: later =>
      if throttle.admits ceilings ⟨now, estimatedTokens⟩ then
        some (throttle.turn ceilings ⟨now, estimatedTokens⟩, now, later)
      else (throttle.turn ceilings ⟨now, estimatedTokens⟩).acquire ceilings estimatedTokens later

/-- One call of `acquire` after the other. -/
def Throttle.acquireAll (ceilings : Ceilings) (throttle : Throttle) : List Int → List Rat →
    List Poll
  | [], _ => []
  | estimatedTokens :: rest, readings =>
      match throttle.acquire ceilings estimatedTokens readings with
      | none => []
      | some (after, now, later) => ⟨now, estimatedTokens⟩ :: after.acquireAll ceilings rest later

/-! What the logs hold. -/

structure Remembers (throttle : Throttle) (latest : Rat) (history : List Poll) : Prop where
  calls : throttle.calls = (recent Poll.now 1 latest history).map Poll.now
  tokens : throttle.tokens =
    ((recent Poll.now 60 latest history).filter fun poll => 0 < poll.estimatedTokens).map
      fun poll => (poll.now, poll.estimatedTokens)
  sorted : (history.map Poll.now).Pairwise (· ≤ ·)
  past : ∀ poll ∈ history, poll.now ≤ latest

variable {ceilings : Ceilings} {throttle : Throttle} {latest now : Rat} {history : List Poll}
    {poll : Poll}

theorem Remembers.fresh (latest : Rat) : Remembers .fresh latest [] := ⟨rfl, rfl, .nil, by simp⟩

theorem Remembers.prune (remembers : Remembers throttle latest history) (forward : latest ≤ now) :
    Remembers (throttle.prune now) now history where
  calls := by
    have sorted : ((recent Poll.now 1 latest history).map Poll.now).Pairwise (· ≤ ·) :=
      remembers.sorted.sublist (List.filter_sublist.map Poll.now)
    rw [Throttle.prune, remembers.calls, prune_map, Function.id_comp, prune_eq_recent sorted,
      recent_recent forward]
  tokens := by
    have sorted : (((recent Poll.now 60 latest history).filter fun poll =>
      0 < poll.estimatedTokens).map
        Poll.now).Pairwise (· ≤ ·) :=
      remembers.sorted.sublist ((List.filter_sublist.trans List.filter_sublist).map Poll.now)
    have times : Prod.fst ∘ (fun poll : Poll => (poll.now, poll.estimatedTokens)) = Poll.now := rfl
    rw [Throttle.prune, remembers.tokens, prune_map, times, prune_eq_recent sorted, recent_filter,
      recent_recent forward]
  sorted := remembers.sorted
  past poll member := le_trans (remembers.past poll member) forward

theorem Remembers.record (remembers : Remembers throttle poll.now history) :
    Remembers (throttle.record poll) poll.now (history ++ [poll]) where
  calls := by
    rw [Throttle.record, remembers.calls, recent_append_now poll (by norm_num) rfl, List.map_append]
    rfl
  tokens := by
    rw [recent_append_now poll (by norm_num) rfl, List.filter_append, List.map_append,
      ← remembers.tokens, Throttle.record]
    by_cases some : 0 < poll.estimatedTokens
    · rw [if_pos some, List.filter_cons, if_pos (decide_eq_true some)]
      rfl
    · rw [if_neg some, List.filter_cons, if_neg (by rwa [decide_eq_true_eq])]
      exact (List.append_nil _).symm
  sorted := by
    rw [List.map_append, List.pairwise_append]
    refine ⟨remembers.sorted, List.pairwise_singleton _ _, ?_⟩
    intro time member other there
    obtain ⟨earlier, past, rfl⟩ := List.mem_map.mp member
    rw [List.map_singleton, List.mem_singleton] at there
    rw [there]
    exact remembers.past earlier past
  past other member := by
    rcases List.mem_append.mp member with before | last
    · exact remembers.past other before
    · rw [List.mem_singleton.mp last]

def tokenWeight (poll : Poll) : Int := max 0 poll.estimatedTokens

theorem Remembers.tokens_sum (remembers : Remembers throttle latest history) :
    (throttle.tokens.map Prod.snd).sum = total tokenWeight (recent Poll.now 60 latest history) := by
  rw [remembers.tokens, List.map_map]
  induction recent Poll.now 60 latest history with
  | nil => rfl
  | cons first rest ih =>
      unfold total at ih ⊢
      rw [List.map_cons, List.sum_cons, ← ih]
      by_cases some : 0 < first.estimatedTokens
      · rw [List.filter_cons, if_pos (decide_eq_true some), List.map_cons, List.sum_cons,
          tokenWeight, max_eq_right some.le]
        rfl
      · rw [List.filter_cons, if_neg (by rwa [decide_eq_true_eq]), tokenWeight,
          max_eq_left (not_lt.mp some), zero_add]

theorem headD_recent {times : List Rat} {length : Rat} (positive : 0 ≤ length)
    (fresh : ∀ time ∈ times, now - time ≤ length) : now - times.headD now ≤ length := by
  cases times with
  | nil =>
      rw [List.headD_nil, sub_self]
      exact positive
  | cons first rest => exact fresh first List.mem_cons_self

/-- A poll is admitted when both windows have room; what is left to wait is positive otherwise. -/
theorem Remembers.admits_iff (remembers : Remembers throttle latest history)
    (forward : latest ≤ poll.now) :
    throttle.admits ceilings poll = true ↔
      (∀ maxRps, ceilings.maxRps = some maxRps →
        ((recent Poll.now 1 poll.now history).length : Rat) < maxRps) ∧
        ∀ maxTpm, ceilings.maxTpm = some maxTpm → 0 < poll.estimatedTokens →
          poll.estimatedTokens ≤ maxTpm →
          total tokenWeight (recent Poll.now 60 poll.now history) + poll.estimatedTokens ≤ maxTpm := by
  have pruned := remembers.prune forward
  have calls : ((throttle.prune poll.now).calls.length : Rat) =
    (recent Poll.now 1 poll.now history).length := by
    rw [pruned.calls, List.length_map]
  have callWait : 0 < 1 - (poll.now - (throttle.prune poll.now).calls.headD poll.now) + 1 / 100 := by
    have head : poll.now - (throttle.prune poll.now).calls.headD poll.now ≤ 1 := by
      apply headD_recent (by norm_num)
      intro time member
      rw [pruned.calls] at member
      obtain ⟨call, there, rfl⟩ := List.mem_map.mp member
      exact (recent_mem there).2
    linarith
  have tokenWait : 0 < 60 - (poll.now - ((throttle.prune poll.now).tokens.map Prod.fst).headD poll.now) + 1 / 100 := by
    have head : poll.now - ((throttle.prune poll.now).tokens.map Prod.fst).headD poll.now ≤ 60 := by
      apply headD_recent (by norm_num)
      intro time member
      rw [pruned.tokens, List.map_map] at member
      obtain ⟨call, there, rfl⟩ := List.mem_map.mp member
      exact (recent_mem (List.mem_filter.mp there).1).2
    linarith
  have callPart : (match ceilings.maxRps with
      | none => (0 : Rat)
      | some maxRps =>
          if maxRps ≤ (throttle.prune poll.now).calls.length then
            max 0 (1 - (poll.now - (throttle.prune poll.now).calls.headD poll.now) + 1 / 100)
          else 0) ≤ 0 ↔
      ∀ maxRps, ceilings.maxRps = some maxRps →
        ((recent Poll.now 1 poll.now history).length : Rat) < maxRps := by
    rw [calls]
    cases ceilings.maxRps with
    | none => simp
    | some maxRps =>
        by_cases full : maxRps ≤ (recent Poll.now 1 poll.now history).length
        · simp only [if_pos full, max_le_iff, not_le.mpr callWait, and_false, Option.some.injEq,
            forall_eq', not_lt.mpr full]
        · simp only [if_neg full, le_refl, Option.some.injEq, forall_eq', not_le.mp full]
  unfold Throttle.admits Throttle.waitNeeded
  rw [decide_eq_true_eq, pruned.tokens_sum, ← callPart]
  cases ceilings.maxTpm with
  | none => simp
  | some maxTpm =>
      simp only [Option.some.injEq, forall_eq']
      by_cases free : poll.estimatedTokens ≤ 0
      · rw [if_pos free]
        exact ⟨fun room => ⟨room, fun some => absurd some (not_lt.mpr free)⟩, And.left⟩
      · rw [if_neg free]
        by_cases oversize : maxTpm < poll.estimatedTokens
        · rw [if_pos oversize]
          exact ⟨fun room => ⟨room, fun _ within => absurd within (not_le.mpr oversize)⟩, And.left⟩
        · rw [if_neg oversize]
          by_cases full : maxTpm < total tokenWeight (recent Poll.now 60 poll.now history) + poll.estimatedTokens
          · rw [if_pos full, max_le_iff]
            constructor
            · exact fun both => absurd both.2 (not_le.mpr tokenWait)
            · exact fun both => absurd (both.2 (not_le.mp free) (not_lt.mp oversize))
                (not_le.mpr full)
          · rw [if_neg full]
            exact ⟨fun room => ⟨room, fun _ _ => not_lt.mp full⟩, And.left⟩

/-! The runs. -/

structure Throttled (ceilings : Ceilings) (throttle : Throttle) (latest : Rat)
    (history : List Poll) : Prop where
  remembers : Remembers throttle latest history
  calls : ∀ maxRps, ceilings.maxRps = some maxRps →
    Rationed Poll.now 1 (fun _ => (1 : Int)) (fun _ => False) ⌈maxRps⌉ history
  tokens : ∀ maxTpm, ceilings.maxTpm = some maxTpm →
    Rationed Poll.now 60 tokenWeight (fun poll => maxTpm < poll.estimatedTokens) maxTpm history

theorem total_one (events : List Poll) : total (fun _ => (1 : Int)) events = events.length := by
  unfold total
  rw [List.map_const', List.sum_replicate, nsmul_eq_mul, mul_one]

theorem Throttled.fresh (ceilings : Ceilings) (latest : Rat) :
    Throttled ceilings .fresh latest [] :=
  ⟨.fresh latest, fun _ _ => .nil, fun _ _ => .nil⟩

theorem Throttled.turn (throttled : Throttled ceilings throttle latest history)
    (forward : latest ≤ poll.now) :
    Throttled ceilings (throttle.turn ceilings poll) poll.now
      (if throttle.admits ceilings poll then history ++ [poll] else history) := by
  have pruned := throttled.remembers.prune forward
  unfold Throttle.turn
  by_cases admitted : throttle.admits ceilings poll = true
  · rw [if_pos admitted, if_pos admitted]
    have room := (throttled.remembers.admits_iff forward).mp admitted
    refine ⟨pruned.record, ?_, ?_⟩
    · intro maxRps limited
      apply (throttled.calls maxRps limited).snoc
      intro _ _
      have fewer : ((recent Poll.now 1 poll.now history).length : Int) < ⌈maxRps⌉ := by
        rw [Int.lt_ceil]
        exact_mod_cast room.1 maxRps limited
      rw [total_one]
      omega
    · intro maxTpm limited
      apply (throttled.tokens maxTpm limited).snoc
      intro weighs within
      have some : 0 < poll.estimatedTokens := by
        unfold tokenWeight at weighs
        omega
      have bound := room.2 maxTpm limited some (not_lt.mp within)
      rw [tokenWeight, max_eq_right some.le]
      exact bound
  · rw [if_neg admitted, if_neg admitted]
    exact ⟨pruned, throttled.calls, throttled.tokens⟩

/-- The readings of the clock, from a time on. -/
def Forward (latest : Rat) (polls : List Poll) : Prop :=
    (latest :: polls.map Poll.now).Pairwise (· ≤ ·)

theorem Throttled.run (throttled : Throttled ceilings throttle latest history) {polls : List Poll}
    (forward : Forward latest polls) :
    ∃ final time, Throttled ceilings final time (history ++ throttle.admitted ceilings polls) := by
  induction polls generalizing throttle latest history with
  | nil => exact ⟨throttle, latest, by rwa [Throttle.admitted, List.append_nil]⟩
  | cons poll rest ih =>
      unfold Forward at forward ih
      rw [List.map_cons, List.pairwise_cons] at forward
      have next := throttled.turn (forward.1 poll.now List.mem_cons_self)
      obtain ⟨final, time, done⟩ := ih next forward.2
      refine ⟨final, time, ?_⟩
      unfold Throttle.admitted
      by_cases admitted : throttle.admits ceilings poll = true
      · rw [if_pos admitted] at done ⊢
        rwa [List.append_assoc] at done
      · rw [if_neg admitted] at done ⊢
        exact done

/-- In every closed second no more than so many calls. -/
def WithinRps (maxRps : Rat) (history : List Poll) : Prop :=
  ∀ start, ((within Poll.now 1 start history).length : Rat) ≤ maxRps

/-- In every closed minute without an oversize call no more than so many tokens. -/
def WithinTpm (maxTpm : Int) (history : List Poll) : Prop :=
  ∀ start, (∀ poll ∈ within Poll.now 60 start history, poll.estimatedTokens ≤ maxTpm) →
    ((within Poll.now 60 start history).map Poll.estimatedTokens).sum ≤ maxTpm

theorem Throttled.withinCeil (throttled : Throttled ceilings throttle latest history) {maxRps : Rat}
    (limited : ceilings.maxRps = some maxRps) : WithinRps ⌈maxRps⌉ history := by
  intro start
  have positive : (0 : Int) ≤ ⌈maxRps⌉ := Int.ceil_nonneg (ceilings.rpsPositive maxRps limited).le
  have bound := (throttled.calls maxRps limited).total_le (fun _ =>
    zero_le_one) positive start fun _ _ => id
  rw [total_one] at bound
  exact_mod_cast bound

theorem sum_le_total (events : List Poll) :
    (events.map Poll.estimatedTokens).sum ≤ total tokenWeight events :=
  List.sum_le_sum fun poll _ => le_max_right 0 poll.estimatedTokens

theorem Throttled.withinTpm (throttled : Throttled ceilings throttle latest history) {maxTpm : Int}
    (limited : ceilings.maxTpm = some maxTpm) (positive : 0 < maxTpm) :
    WithinTpm maxTpm history := by
  intro start plain
  have bound := (throttled.tokens maxTpm limited).total_le (fun poll =>
    le_max_left 0 poll.estimatedTokens) positive.le
    start fun poll member => not_lt.mpr (plain poll member)
  exact le_trans (sum_le_total _) bound

theorem acquire_turns {estimatedTokens : Int} {readings later : List Rat} {after : Throttle}
    (acquired : throttle.acquire ceilings estimatedTokens readings = some (after, now, later)) :
    ∃ waited, readings = waited ++ now :: later ∧ ∀ rest,
      throttle.admitted ceilings (waited.map (⟨·, estimatedTokens⟩) ++
        ⟨now, estimatedTokens⟩ :: rest) =
        ⟨now, estimatedTokens⟩ :: after.admitted ceilings rest := by
  induction readings generalizing throttle with
  | nil => cases acquired
  | cons first readings ih =>
      unfold Throttle.acquire at acquired
      by_cases admitted : throttle.admits ceilings ⟨first, estimatedTokens⟩ = true
      · rw [if_pos admitted] at acquired
        cases acquired
        refine ⟨[], rfl, fun rest => ?_⟩
        rw [List.map_nil, List.nil_append, Throttle.admitted, if_pos admitted]
      · rw [if_neg admitted] at acquired
        obtain ⟨waited, split, turns⟩ := ih acquired
        refine ⟨first :: waited, by rw [split]; rfl, fun rest => ?_⟩
        rw [List.map_cons, List.cons_append, Throttle.admitted, if_neg admitted]
        exact turns rest

/-- A sequence of calls is a run of turns at some of the readings. -/
theorem acquireAll_turns (estimates : List Int) (readings : List Rat) :
    ∃ polls, polls.map Poll.now <+: readings ∧
      throttle.admitted ceilings polls = throttle.acquireAll ceilings estimates readings := by
  induction estimates generalizing throttle readings with
  | nil => exact ⟨[], List.nil_prefix, rfl⟩
  | cons estimatedTokens rest ih =>
      unfold Throttle.acquireAll
      cases acquired : throttle.acquire ceilings estimatedTokens readings with
      | none => exact ⟨[], List.nil_prefix, rfl⟩
      | some found =>
          obtain ⟨after, now, later⟩ := found
          obtain ⟨waited, rfl, turns⟩ := acquire_turns acquired
          obtain ⟨polls, ahead, same⟩ := @ih after later
          refine ⟨waited.map (⟨·, estimatedTokens⟩) ++ ⟨now, estimatedTokens⟩ :: polls, ?_, ?_⟩
          · have times : (waited.map fun time => (⟨time, estimatedTokens⟩ : Poll)).map Poll.now =
              waited := by
              rw [List.map_map]
              exact List.map_id _
            rw [List.map_append, times, List.map_cons, List.prefix_append_right_inj,
              List.cons_prefix_cons]
            exact ⟨rfl, ahead⟩
          · rw [turns, same]

/-- Calls without tokens, all at once: they are admitted until the ceiling of the calls is reached.
-/
theorem admitted_burst {count more : Nat} {maxRps : Rat} (limited : ceilings.maxRps = some maxRps)
    (remembers : Remembers throttle 0 (List.replicate count ⟨0, 0⟩))
    (room : ∀ made : Nat, made < count + more → (made : Rat) < maxRps) :
    throttle.admitted ceilings (List.replicate more ⟨0, 0⟩) = List.replicate more ⟨0, 0⟩ := by
  induction more generalizing throttle count with
  | zero => rfl
  | succ more ih =>
      have admitted : throttle.admits ceilings ⟨0, 0⟩ = true := by
        refine (remembers.admits_iff (le_refl 0)).mpr ⟨?_, fun _ _ some =>
          absurd some (lt_irrefl 0)⟩
        intro limit same
        rw [limited, Option.some.injEq] at same
        have short : (recent Poll.now 1 (0 : Rat) (List.replicate count (⟨0,
          0⟩ : Poll))).length ≤ count :=
          (List.length_filter_le ..).trans List.length_replicate.le
        rw [← same]
        exact room _ (Nat.lt_of_le_of_lt short (by omega))
      have next : Remembers ((throttle.prune 0).record ⟨0, 0⟩) 0 (List.replicate count ⟨0, 0⟩ ++
        [⟨0, 0⟩]) :=
        (remembers.prune (le_refl (0 : Rat))).record
      rw [← List.replicate_succ'] at next
      rw [List.replicate_succ, Throttle.admitted, if_pos admitted, Throttle.turn, if_pos admitted,
        ih next fun made less => room made (by omega)]

def Ceilings.both (maxRps : Rat) (maxTpm : Int) (positive : 0 < maxRps) : Ceilings where
  maxRps := some maxRps
  maxTpm := some maxTpm
  rpsPositive := by
    rintro _ ⟨⟩
    exact positive

/-- The throttle keeps both ceilings in every run if and only if the ceiling of the calls is a whole
number; else it admits one call too many. -/
theorem throttle_bounds_iff (maxRps : Rat) (maxTpm : Int) (atLeast : 1 ≤ maxRps)
    (positive : 0 < maxTpm) :
    (∀ latest polls, Forward latest polls →
      WithinRps maxRps (Throttle.fresh.admitted (.both maxRps maxTpm (lt_of_lt_of_le one_pos atLeast)) polls) ∧
        WithinTpm maxTpm (Throttle.fresh.admitted (.both maxRps maxTpm (lt_of_lt_of_le one_pos atLeast)) polls)) ↔
      ∃ whole : Int, maxRps = whole := by
  constructor
  · intro bounds
    have room : ∀ made : Nat, made < 0 + ⌈maxRps⌉.toNat → (made : Rat) < maxRps := by
      intro made less
      have below : (made : Int) < ⌈maxRps⌉ := by omega
      exact_mod_cast Int.lt_ceil.mp below
    have start : Remembers .fresh 0 (List.replicate 0 ⟨0, 0⟩) := .fresh 0
    have burst : Throttle.fresh.admitted (.both maxRps maxTpm (lt_of_lt_of_le one_pos atLeast))
        (List.replicate ⌈maxRps⌉.toNat ⟨0, 0⟩) = List.replicate ⌈maxRps⌉.toNat ⟨0, 0⟩ :=
      admitted_burst rfl start room
    have forward : Forward 0 (List.replicate ⌈maxRps⌉.toNat ⟨0, 0⟩) := by
      rw [Forward, List.map_replicate, ← List.replicate_succ]
      exact List.pairwise_replicate.mpr (.inr (le_refl 0))
    have bound := (bounds 0 _ forward).1 0
    have all : within Poll.now 1 (0 : Rat) (List.replicate ⌈maxRps⌉.toNat (⟨0, 0⟩ : Poll)) =
        List.replicate ⌈maxRps⌉.toNat ⟨0, 0⟩ := by
      apply List.filter_eq_self.mpr
      intro poll member
      rw [List.eq_of_mem_replicate member, decide_eq_true_eq]
      norm_num
    rw [burst, all, List.length_replicate] at bound
    refine ⟨⌈maxRps⌉, le_antisymm (Int.le_ceil maxRps) ?_⟩
    have whole : ((⌈maxRps⌉.toNat : Int) : Rat) = (⌈maxRps⌉ : Rat) := by
      rw [Int.toNat_of_nonneg (Int.ceil_nonneg (le_trans zero_le_one atLeast))]
    rw [← whole]
    exact_mod_cast bound
  · rintro ⟨whole, rfl⟩ latest polls forward
    obtain ⟨final, time, throttled⟩ :=
      (Throttled.fresh (.both whole maxTpm (lt_of_lt_of_le one_pos atLeast)) latest).run forward
    have calls := throttled.withinCeil rfl
    rw [Int.ceil_intCast] at calls
    exact ⟨calls, throttled.withinTpm rfl positive⟩

theorem throttle_bounds_whole : Forward 0 [⟨0, 6000⟩, ⟨1, 6000⟩] ∧
    WithinRps 25 (Throttle.fresh.admitted (.both 25 10000 (by decide)) [⟨0, 6000⟩, ⟨1, 6000⟩]) ∧
      WithinTpm 10000 (Throttle.fresh.admitted (.both 25 10000 (by decide)) [⟨0, 6000⟩,
        ⟨1, 6000⟩]) := by
  have forward : Forward 0 [⟨0, 6000⟩, ⟨1, 6000⟩] := by
    simp [Forward]
  exact ⟨forward, (throttle_bounds_iff 25 10000 (by norm_num) (by norm_num)).mpr ⟨25,
    rfl⟩ 0 _ forward⟩

/-- Two calls at once under a ceiling of one and a half. -/
theorem throttle_exceeds_fraction :
    Throttle.fresh.acquireAll (.both (3 / 2) 100 (by norm_num)) [0, 0] [0, 0] = [⟨0, 0⟩, ⟨0, 0⟩] ∧
      ¬WithinRps (3 / 2) (Throttle.fresh.acquireAll (.both (3 / 2) 100 (by norm_num)) [0, 0] [0,
        0]) := by
  have admitted : Throttle.fresh.acquireAll (.both (3 / 2) 100 (by norm_num)) [0, 0]
    [0, 0] = [⟨0, 0⟩, ⟨0, 0⟩] := by
    decide +kernel
  refine ⟨admitted, ?_⟩
  rw [admitted]
  intro bounded
  have two := bounded 0
  have all : within Poll.now 1 (0 : Rat) [⟨0, 0⟩, ⟨0, 0⟩] = [⟨0, 0⟩, ⟨0, 0⟩] := by decide +kernel
  rw [all] at two
  norm_num at two

end Megalos
