import Mathlib.Algebra.Order.BigOperators.Group.List
import Mathlib.Algebra.Order.Group.Unbundled.Basic
import Mathlib.Data.List.Induction

/-!
Logs of timed events from which the old ones are dropped at the front, and what the
remaining ones say about every window of the whole history.
-/

namespace SlidingWindow

variable {κ ε ω : Type} [AddCommGroup κ] [LinearOrder κ] [IsOrderedAddMonoid κ]

section Log

variable (time : ε → κ) (length : κ)

def recent (now : κ) (events : List ε) : List ε :=
    events.filter fun event => now - time event ≤ length

def prune (now : κ) (log : List ε) : List ε := log.dropWhile fun event => length < now - time event

def within (start : κ) (events : List ε) : List ε :=
  events.filter fun event => start ≤ time event ∧ time event ≤ start + length

variable {time length} {now later start : κ} {log events : List ε} {event : ε}

theorem prune_eq_recent (sorted : (log.map time).Pairwise (· ≤ ·)) :
    prune time length now log = recent time length now log := by
  induction log with
  | nil => rfl
  | cons first rest ih =>
      rw [List.map_cons, List.pairwise_cons] at sorted
      unfold prune recent
      by_cases old : length < now - time first
      · have kept : ¬decide (now - time first ≤ length) = true := by
          rw [decide_eq_true_eq]
          exact not_le.mpr old
        rw [List.dropWhile_cons, if_pos (decide_eq_true old), List.filter_cons, if_neg kept]
        exact ih sorted.2
      · have fresh : ∀ event ∈ first :: rest, decide (now - time event ≤ length) = true := by
          intro event member
          rw [decide_eq_true_eq]
          rcases List.mem_cons.mp member with rfl | behind
          · exact not_lt.mp old
          · have order := sorted.1 (time event) (List.mem_map_of_mem behind)
            exact le_trans (sub_le_sub_left order now) (not_lt.mp old)
        rw [List.dropWhile_cons, if_neg (by rwa [decide_eq_true_eq]), List.filter_eq_self.mpr fresh]

theorem recent_recent (forward : now ≤ later) :
    recent time length later (recent time length now events) = recent time length later events := by
  unfold recent
  rw [List.filter_filter]
  apply List.filter_congr
  intro event _
  rw [Bool.and_eq_left_iff_imp]
  intro fresh
  rw [decide_eq_true_eq] at fresh ⊢
  exact le_trans (sub_le_sub_right forward _) fresh

omit [IsOrderedAddMonoid κ] in
theorem recent_filter (wanted : ε → Bool) (events : List ε) :
    recent time length now (events.filter wanted) =
      (recent time length now events).filter wanted := by
  unfold recent
  rw [List.filter_filter, List.filter_filter]
  simp only [Bool.and_comm]

omit [IsOrderedAddMonoid κ] in
theorem prune_map {α : Type} (stamp : α → κ) (shape : ε → α) (events : List ε) :
    prune stamp length now (events.map shape) =
      (prune (stamp ∘ shape) length now events).map shape :=
  List.dropWhile_map ..

omit [IsOrderedAddMonoid κ] in
theorem prune_sublist : List.Sublist (prune time length now log) log := List.dropWhile_sublist _

omit [IsOrderedAddMonoid κ] in
theorem prune_length_lt {first : ε} {rest : List ε} (old : length < now - time first) :
    (prune time length now (first :: rest)).length < (first :: rest).length := by
  rw [prune, List.dropWhile_cons, if_pos (decide_eq_true old), List.length_cons, Nat.lt_succ_iff]
  exact (List.dropWhile_sublist _).length_le

omit [IsOrderedAddMonoid κ] in
theorem recent_mem (member : event ∈ recent time length now events) :
    event ∈ events ∧ now - time event ≤ length := by
  rwa [recent, List.mem_filter, decide_eq_true_eq] at member

omit [IsOrderedAddMonoid κ] in
theorem recent_append_now (event : ε) (positive : 0 ≤ length) (same : time event = now) :
    recent time length now (events ++ [event]) = recent time length now events ++ [event] := by
  unfold recent
  rw [List.filter_append, List.filter_cons_of_pos, List.filter_nil]
  rw [same, sub_self, decide_eq_true_eq]
  exact positive

theorem within_sublist_recent (inside : now ≤ start + length) :
    List.Sublist (within time length start events) (recent time length now events) := by
  apply List.monotone_filter_right
  intro event member
  rw [decide_eq_true_eq] at member ⊢
  calc now - time event ≤ now - start := sub_le_sub_left member.1 now
    _ ≤ length := sub_le_iff_le_add'.mpr inside

end Log

section Weights

variable [AddCommMonoid ω] [LinearOrder ω] [IsOrderedAddMonoid ω]
variable {time : ε → κ} {length : κ} {weight : ε → ω} {exempt : ε → Prop} {limit : ω}

def total (weight : ε → ω) (events : List ε) : ω := (events.map weight).sum

/-- Each event that weighs something found room for itself beside the recent ones, unless it is
exempt. -/
def Rationed (time : ε → κ) (length : κ) (weight : ε → ω) (exempt : ε → Prop) (limit : ω)
    (history : List ε) : Prop :=
  ∀ before event after, history = before ++ event :: after → 0 < weight event → ¬exempt event →
    total weight (recent time length (time event) before) + weight event ≤ limit

omit [LinearOrder ω] [IsOrderedAddMonoid ω] in
theorem total_append (events more : List ε) :
    total weight (events ++ more) = total weight events + total weight more := by
  rw [total, List.map_append, List.sum_append]
  rfl

theorem total_le_of_sublist (nonneg : ∀ event, 0 ≤ weight event) {part whole : List ε}
    (sub : List.Sublist part whole) :
    total weight part ≤ total weight whole := by
  apply (sub.map weight).sum_le_sum
  intro value member
  obtain ⟨event, -, rfl⟩ := List.mem_map.mp member
  exact nonneg event

omit [IsOrderedAddMonoid κ] [IsOrderedAddMonoid ω] in
theorem Rationed.nil : Rationed time length weight exempt limit [] := by
  intro before event after split
  cases before <;> cases split

omit [IsOrderedAddMonoid κ] [IsOrderedAddMonoid ω] in
theorem Rationed.snoc {history : List ε} {event : ε}
    (rationed : Rationed time length weight exempt limit history)
    (room : 0 < weight event → ¬exempt event →
      total weight (recent time length (time event) history) + weight event ≤ limit) :
    Rationed time length weight exempt limit (history ++ [event]) := by
  intro before one after split
  rcases List.eq_nil_or_concat after with rfl | ⟨after, last, rfl⟩
  · obtain ⟨rfl, same⟩ := List.append_inj' split rfl
    cases same
    exact room
  · have shape : history ++ [event] = (before ++ one :: after) ++ [last] := by
      rw [split, List.concat_eq_append, List.append_assoc]
      rfl
    obtain ⟨rfl, -⟩ := List.append_inj' shape rfl
    exact rationed before one after rfl

/-- In a window without exempt events the weights stay within the limit: the last event that weighs
something saw all the others. -/
theorem Rationed.total_le {history : List ε}
    (rationed : Rationed time length weight exempt limit history)
    (nonneg : ∀ event, 0 ≤ weight event) (positive : 0 ≤ limit) (start : κ)
    (plain : ∀ event ∈ within time length start history, ¬exempt event) :
    total weight (within time length start history) ≤ limit := by
  induction history using List.reverseRec with
  | nil => exact positive
  | append_singleton history event ih =>
      have earlier : Rationed time length weight exempt limit history := by
        intro before one after split
        apply rationed before one (after ++ [event])
        rw [split, List.append_assoc]
        rfl
      have apart : within time length start (history ++ [event]) =
          within time length start history ++ within time length start [event] :=
            List.filter_append ..
      rw [apart] at plain ⊢
      have rest := ih earlier fun one member => plain one (List.mem_append_left _ member)
      by_cases inside : start ≤ time event ∧ time event ≤ start + length
      · have single : within time length start [event] = [event] :=
          List.filter_cons_of_pos (decide_eq_true inside)
        rw [single] at plain ⊢
        have alone : total weight [event] = weight event := List.sum_singleton
        rw [total_append, alone]
        rcases (nonneg event).eq_or_lt with nothing | something
        · rw [← nothing, add_zero]
          exact rest
        · have room := rationed history event [] rfl something (plain event (List.mem_append_right _ List.mem_cons_self))
          have seen : total weight (within time length start history) ≤
              total weight (recent time length (time event) history) :=
            total_le_of_sublist nonneg (within_sublist_recent inside.2)
          exact le_trans (add_le_add_left seen _) room
      · have none : within time length start [event] = [] :=
          List.filter_cons_of_neg (by simpa using inside)
        rw [none, List.append_nil]
        exact rest

end Weights

end SlidingWindow
