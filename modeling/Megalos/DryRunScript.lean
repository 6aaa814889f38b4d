import Megalos.DryRunBranch

/-!
What a dry run does with its responses file: the entries that each of its calls reads, and
what is left of them when it ends.
-/

namespace Megalos

open GuardedRuns KeyedTable StatefulProgram StatefulProgram.Program

/-- The script before and after a reply is read; entries of other steps are passed over below the
root. -/
inductive ReadsEntry (stepId : String) (depth : Nat) (reply : ScriptReply) : List ScriptEntry →
    List ScriptEntry → Prop
  | own {rest : List ScriptEntry} : ReadsEntry stepId depth reply (⟨stepId, reply⟩ :: rest) rest
  | passed {entry : ScriptEntry} {rest after : List ScriptEntry} (other : entry.stepId ≠ stepId)
      (below : 0 < depth)
      (later : ReadsEntry stepId depth reply rest after) :
        ReadsEntry stepId depth reply (entry :: rest) after

inductive Feeds (depth : Nat) : Call → List ScriptEntry → List ScriptEntry → Prop
  | content {sessionId stepId content : String} {before after : List ScriptEntry}
      (read : ReadsEntry stepId depth (.response content) before after) :
      Feeds depth (.submitStep sessionId stepId content "" "") before after
  | choice {sessionId stepId content branch : String} {before between after : List ScriptEntry}
      (read : ReadsEntry stepId depth (.response content) before between)
      (chosen : ReadsEntry stepId depth (.branch branch) between after) :
      Feeds depth (.submitStep sessionId stepId content branch "") before after
  | descent {sessionId stepId : String} {entries : List ScriptEntry} :
      Feeds depth (.enterSubWorkflow sessionId stepId) entries entries

def Call.descends : Call → Bool
  | .enterSubWorkflow _ _ => true
  | _ => false

/-- The script before and after a sequence of calls, the first at no greater depth than this. -/
inductive FeedsAll : Nat → List Call → List ScriptEntry → List ScriptEntry → Prop
  | done {depth : Nat} {entries : List ScriptEntry} : FeedsAll depth [] entries entries
  | call {depth reached next : Nat} {call : Call} {calls : List Call}
      {before between after : List ScriptEntry}
      (within : reached ≤ depth) (feeds : Feeds reached call before between)
      (deeper : next = reached + if call.descends then 1 else 0)
      (rest : FeedsAll next calls between after) :
      FeedsAll depth (call :: calls) before after

/-- The turns of the loop, with the calls that they make. -/
inductive Drives (env : Env) (deployment : Deployment) (terminal : Terminal) :
    Repl × World → List Call → Repl × World → Prop
  | stop (state : Repl × World) : Drives env deployment terminal state [] state
  | turn {before between after : Repl × World} {call : Call} {calls : List Call}
      (turns : Turns env deployment terminal before call between)
      (rest : Drives env deployment terminal between calls after) :
      Drives env deployment terminal before (call :: calls) after

variable {env : Env} {deployment : Deployment} {terminal : Terminal} {repl next : Repl}
  {stepId content : String} {depth : Nat} {entries rest : List ScriptEntry}

theorem Drives.of_run {allowed : Repl × World → Call → Prop} {first last : Repl × World}
    (run : Run (Turns env deployment terminal) allowed first last) :
    ∃ calls, Drives env deployment terminal first calls last := by
  induction run using Relation.ReflTransGen.head_induction_on with
  | refl => exact ⟨[], .stop last⟩
  | head step _ ih =>
      obtain ⟨call, -, turns⟩ := step
      obtain ⟨calls, drives⟩ := ih
      exact ⟨call :: calls, .turn turns drives⟩

theorem scriptedConsume_reads {reply : ScriptReply}
    (consumed : scriptedConsume stepId depth entries = some (reply, rest)) :
    ReadsEntry stepId depth reply entries rest := by
  induction entries with
  | nil => cases consumed
  | cons entry later ih =>
      rw [scriptedConsume] at consumed
      split at consumed
      · rename_i own
        cases consumed
        rw [← own]
        exact .own
      · rename_i other
        split at consumed
        · rename_i below
          exact .passed other below (ih consumed)
        · cases consumed

theorem readResponse_scripted {reader : Reader}
    (read : (Reader.scripted entries).readResponse stepId depth = some (content, reader)) :
    ∃ rest, reader = .scripted rest ∧ ReadsEntry stepId depth (.response content) entries rest := by
  rw [Reader.readResponse] at read
  split at read
  · rename_i text rest consumed
    cases read
    exact ⟨rest, rfl, scriptedConsume_reads consumed⟩
  · cases read

theorem promptBranch_scripted {reader : Reader} {branches default : Val} {branch : Val}
    (chosen : (Reader.scripted entries).promptBranch terminal stepId depth branches default =
      .ok (some (branch, reader))) :
    ∃ text rest, branch = .str text ∧ reader = .scripted rest ∧
      ReadsEntry stepId depth (.branch text) entries rest := by
  rw [Reader.promptBranch] at chosen
  split at chosen
  · rename_i text rest consumed
    cases chosen
    exact ⟨text, rest, rfl, rfl, scriptedConsume_reads consumed⟩
  · cases chosen

inductive Scripted (entries : List ScriptEntry) (below : Nat) : Plan → Prop
  | success (used : entries = []) : Scripted entries below (.exit 0)
  | failure : Scripted entries below (.exit 1)
  | content {next : Repl} {sessionId stepId content : String} {rest : List ScriptEntry}
      (frames : next.stack.length = below + 1) (reader : next.reader = .scripted rest)
      (read : ReadsEntry stepId below (.response content) entries rest) :
      Scripted entries below (.submit next sessionId stepId content none)
  | choice {next : Repl} {sessionId stepId content branch : String}
      {between rest : List ScriptEntry}
      (frames : next.stack.length = below + 1) (reader : next.reader = .scripted rest)
      (read : ReadsEntry stepId below (.response content) entries between)
      (chosen : ReadsEntry stepId below (.branch branch) between rest) :
      Scripted entries below (.submit next sessionId stepId content (some branch))
  | descent {next : Repl} {sessionId stepId : String} (frames : next.stack.length = below + 1)
      (reader : next.reader = .scripted entries) :
        Scripted entries below (.descend next sessionId stepId)

theorem Repl.retry_scripted {top : ReplFrame} {below : List ReplFrame} {plan : Plan}
    (reader : repl.reader = .scripted entries) (plans : repl.retry top below = .ok plan) :
    Scripted entries below.length plan := by
  obtain ⟨errors, -, plans⟩ := except_bind_ok.mp plans
  obtain ⟨items, -, plans⟩ := except_bind_ok.mp plans
  split at plans
  · obtain ⟨message, -, plans⟩ := except_bind_ok.mp plans
    obtain rfl := Except.ok.inj plans
    exact .failure
  · obtain ⟨remaining, -, plans⟩ := except_bind_ok.mp plans
    split at plans
    · obtain rfl := Except.ok.inj plans
      exact .failure
    · rename_i response after read
      obtain rfl := Except.ok.inj plans
      rw [reader] at read
      obtain ⟨rest, same, reads⟩ := readResponse_scripted read
      exact .content rfl same reads

theorem Repl.present_scripted {top : ReplFrame} {below : List ReplFrame} {plan : Plan}
    {active : Val} (reader : repl.reader = .scripted entries)
    (plans : repl.present terminal active stepId top below = .ok plan) :
    Scripted entries below.length plan := by
  unfold present at plans
  dsimp only at plans
  obtain ⟨title, -, plans⟩ := except_bind_ok.mp plans
  split at plans
  · obtain rfl := Except.ok.inj plans
    exact .descent rfl reader
  obtain ⟨directive, -, plans⟩ := except_bind_ok.mp plans
  split at plans
  · obtain rfl := Except.ok.inj plans
    exact .failure
  rename_i response after read
  rw [reader] at read
  obtain ⟨between, rfl, reads⟩ := readResponse_scripted read
  split at plans
  · obtain ⟨choice, chosen, plans⟩ := except_bind_ok.mp plans
    split at plans
    · obtain rfl := Except.ok.inj plans
      exact .failure
    · rename_i branch later
      obtain rfl := Except.ok.inj plans
      obtain ⟨text, rest, same, left, choose⟩ := promptBranch_scripted chosen
      cases same
      exact .choice rfl left reads choose
    · cases plans
  · obtain rfl := Except.ok.inj plans
    exact .content rfl rfl reads

theorem Repl.returned_length : repl.returned.length ≤ repl.stack.length := by
  unfold returned
  split
  · exact (List.dropWhile_sublist _).length_le
  · exact le_refl _

theorem Repl.plan_scripted {plan : Plan} (reader : repl.reader = .scripted entries)
    (plans : repl.plan terminal = .ok plan) :
    ∃ below, below + 1 ≤ repl.stack.length ∧ Scripted entries below plan := by
  have short := repl.returned_length
  unfold Repl.plan at plans
  split at plans
  · cases plans
  rename_i top below stack
  rw [stack, List.length_cons] at short
  refine ⟨below.length, short, ?_⟩
  dsimp only at plans
  split at plans
  · exact repl.retry_scripted reader plans
  split at plans
  · obtain rfl := Except.ok.inj plans
    split
    · rename_i finished
      rw [Bool.and_eq_true, reader] at finished
      exact .success (List.isEmpty_iff.mp finished.2)
    · exact .failure
  · obtain ⟨active, -, plans⟩ := except_bind_ok.mp plans
    obtain ⟨stepId, -, plans⟩ := except_bind_ok.mp plans
    exact repl.present_scripted reader plans

theorem Repl.descended_frames {envelope : Val}
    (enters : repl.descended deployment envelope = .ok (.goOn next)) :
    next.stack.length = repl.stack.length + 1 ∧ next.reader = repl.reader := by
  unfold descended at enters
  split at enters
  · cases enters
  · obtain ⟨childSid, -, enters⟩ := except_bind_ok.mp enters
    obtain ⟨name, -, enters⟩ := except_bind_ok.mp enters
    split at enters
    · cases enters
    · cases enters
      exact ⟨rfl, rfl⟩

theorem Turns.feeds {before after : Repl × World} {call : Call}
    (turns : Turns env deployment terminal before call after)
    (reader : before.1.reader = .scripted entries) :
    ∃ reached rest, reached + 1 ≤ before.1.stack.length ∧ Feeds reached call entries rest ∧
      after.1.reader = .scripted rest ∧
        after.1.stack.length = reached + (if call.descends then 1 else 0) + 1 := by
  cases turns with
  | submitted plans ran =>
      obtain ⟨below, short, scripted⟩ := Repl.plan_scripted reader plans
      cases scripted with
      | content frames left read => exact ⟨below, _, short, .content read, left, frames⟩
      | choice frames left read chosen => exact ⟨below, _, short, .choice read chosen, left, frames⟩
  | descended plans ran enters =>
      obtain ⟨below, short, scripted⟩ := Repl.plan_scripted reader plans
      cases scripted with
      | descent frames left =>
          obtain ⟨deeper, same⟩ := Repl.descended_frames enters
          exact ⟨below, entries, short, .descent, same.trans left, by rw [deeper, frames]; rfl⟩

theorem Drives.feeds {before after : Repl × World} {calls : List Call}
    (drives : Drives env deployment terminal before calls after)
    (reader : before.1.reader = .scripted entries)
    (frames : before.1.stack.length ≤ depth + 1) :
    ∃ rest, FeedsAll depth calls entries rest ∧ after.1.reader = .scripted rest := by
  induction drives generalizing entries depth with
  | stop state => exact ⟨entries, .done, reader⟩
  | turn turns _ ih =>
      obtain ⟨reached, between, short, feeds, left, deeper⟩ := turns.feeds reader
      obtain ⟨rest, feedsAll, last⟩ := ih left deeper.le
      exact ⟨rest, .call (by omega) feeds rfl feedsAll, last⟩

/-! The contents. -/

def ScriptEntry.content? (entry : ScriptEntry) : Option (String × String) :=
  match entry.reply with
  | .response text => some (entry.stepId, text)
  | .branch _ => none

def Call.content? : Call → Option (String × String)
  | .submitStep _ stepId content _ _ => some (stepId, content)
  | _ => none

theorem ReadsEntry.split {reply : ScriptReply} (read : ReadsEntry stepId depth reply entries rest) :
    ∃ passed, entries = passed ++ ⟨stepId, reply⟩ :: rest ∧ (depth = 0 → passed = []) := by
  induction read with
  | own => exact ⟨[], rfl, fun _ => rfl⟩
  | passed other below _ ih =>
      obtain ⟨passed, split, -⟩ := ih
      exact ⟨_ :: passed, by rw [split]; rfl, fun root => absurd root (Nat.ne_of_gt below)⟩

structure FewerBelow (root : Prop) (fewer all : List (String × String)) : Prop where
  sublist : fewer.Sublist all
  whole : root → fewer = all

theorem FewerBelow.refl (root : Prop) (contents : List (String × String)) :
    FewerBelow root contents contents :=
  ⟨.refl _, fun _ => rfl⟩

theorem FewerBelow.trans {root : Prop} {first second third : List (String × String)}
    (start : FewerBelow root first second) (later : FewerBelow root second third) :
    FewerBelow root first third :=
  ⟨start.sublist.trans later.sublist, fun holds => (start.whole holds).trans (later.whole holds)⟩

theorem FewerBelow.append {root : Prop} {fewer all : List (String × String)}
    (passing : FewerBelow root fewer all) (contents : List (String × String)) :
    FewerBelow root (contents ++ fewer) (contents ++ all) :=
  ⟨passing.sublist.append_left contents, fun holds =>
    congrArg (contents ++ ·) (passing.whole holds)⟩

theorem ReadsEntry.contents {reply : ScriptReply}
    (read : ReadsEntry stepId depth reply entries rest) :
    FewerBelow (depth = 0)
    ((ScriptEntry.content? ⟨stepId, reply⟩).toList ++ rest.filterMap ScriptEntry.content?)
    (entries.filterMap ScriptEntry.content?) := by
  have own : (⟨stepId, reply⟩ :: rest).filterMap ScriptEntry.content? =
      (ScriptEntry.content? ⟨stepId, reply⟩).toList ++ rest.filterMap ScriptEntry.content? := by
    cases reply <;> rfl
  obtain ⟨passed, rfl, none⟩ := read.split
  rw [← own, List.filterMap_append]
  refine ⟨List.sublist_append_right _ _, fun root => ?_⟩
  rw [none root]
  rfl

theorem Feeds.contents {call : Call} (feeds : Feeds depth call entries rest) :
    FewerBelow (depth = 0) (call.content?.toList ++ rest.filterMap ScriptEntry.content?)
    (entries.filterMap ScriptEntry.content?) := by
  cases feeds with
  | content read => exact read.contents
  | choice read chosen => exact (chosen.contents.append _).trans read.contents
  | descent => exact .refl _ _

theorem FeedsAll.contents {calls : List Call} (feeds : FeedsAll depth calls entries rest) :
    FewerBelow (depth = 0 ∧ ∀ call ∈ calls, call.descends = false)
    (calls.filterMap Call.content? ++ rest.filterMap ScriptEntry.content?)
    (entries.filterMap ScriptEntry.content?) := by
  induction feeds with
  | done => exact .refl _ _
  | @call depth reached next call calls before between after within feeds deeper _ ih =>
      have split : (call :: calls).filterMap Call.content? = call.content?.toList ++
        calls.filterMap Call.content? := by
        rw [List.filterMap_cons]
        cases call.content? <;> rfl
      rw [split, List.append_assoc]
      have later := ih.append call.content?.toList
      refine ⟨later.sublist.trans feeds.contents.sublist, fun holds => ?_⟩
      obtain ⟨rfl, flat⟩ := holds
      obtain rfl : reached = 0 := Nat.le_zero.mp within
      have here : call.descends = false := flat call List.mem_cons_self
      rw [here] at deeper
      rw [later.whole ⟨deeper, fun other member => flat other (List.mem_cons_of_mem _ member)⟩,
        feeds.contents.whole rfl]

theorem openRepl_frames {targetName context : String} {reader : Reader} {wf : Workflow}
    {start opened : World}
    (opens : (openRepl env deployment wf targetName context reader).run start = (.ok repl,
      opened)) :
    repl.reader = reader ∧ repl.stack.length = 1 := by
  have opening : Wp (openRepl env deployment wf targetName context reader) (fun outcome _ =>
      ∀ repl, outcome = .ok repl → repl.reader = reader ∧ repl.stack.length = 1) start := by
    unfold openRepl
    refine wp_bind_of (show Wp _ (fun _ _ => True) start from trivial) ?_ ?_
    · intro envelope after _
      rw [wp_bind, wp_ofExcept]
      cases textItem envelope "session_id" with
      | error raised =>
          intro repl same
          cases same
      | ok text =>
          intro repl same
          cases same
          exact ⟨rfl, rfl⟩
    · intro raised after _ repl same
      cases same
  exact opening.elim opens repl rfl

/-- A scripted run that ends with code 0 has read its whole script in order: each call is made of
the replies it read, and without a sub-workflow the contents submitted are the responses of the
script. -/
theorem scripted_success {start after : World} {fuel : Nat} {targetName context : String}
    (ran : (dryRun env deployment terminal fuel targetName context (.scripted entries)).run start =
      (.ok (some 0), after)) :
    ∃ wf repl opened calls final,
      (openRepl env deployment wf targetName context (.scripted entries)).run start = (.ok repl,
        opened) ∧
        Drives env deployment terminal (repl, opened) calls (final, after) ∧
          FeedsAll 0 calls entries [] ∧
        (calls.filterMap Call.content?).Sublist (entries.filterMap ScriptEntry.content?) ∧
        ((∀ call ∈ calls, call.descends = false) →
          calls.filterMap Call.content? = entries.filterMap ScriptEntry.content?) := by
  have ends : Wp (dryRun env deployment terminal fuel targetName context (.scripted entries))
    (fun outcome after =>
      outcome = .ok (some 0) → ∃ wf repl opened final,
        (openRepl env deployment wf targetName context (.scripted entries)).run start = (.ok repl,
          opened) ∧
          Run (Turns env deployment terminal) (fun _ _ => True) (repl, opened) (final, after) ∧
          final.plan terminal = .ok (.exit 0)) start := by
    unfold dryRun
    cases deployment.workflows.get? targetName with
    | none =>
        intro same
        cases same
    | some wf =>
        refine wp_bind_of (show Wp _ (fun outcome opened =>
          (openRepl env deployment wf targetName context
          (.scripted entries)).run start = (outcome, opened)) start from rfl) ?_ ?_
        · intro repl opened opens
          refine (wp_replLoop fuel repl opened).mono ?_
          intro outcome after ended same
          obtain ⟨final, run, exits⟩ := ended same
          exact ⟨wf, repl, opened, final, opens, run, exits⟩
        · intro raised opened _ same
          cases same
  obtain ⟨wf, repl, opened, final, opens, run, exits⟩ := ends.elim ran rfl
  obtain ⟨calls, drives⟩ := Drives.of_run run
  obtain ⟨reader, frames⟩ := openRepl_frames opens
  obtain ⟨rest, feeds, last⟩ := drives.feeds reader frames.le
  obtain ⟨below, -, scripted⟩ := Repl.plan_scripted last exits
  cases scripted with
  | success used =>
      rw [used] at feeds
      have contents := feeds.contents
      rw [List.filterMap_nil, List.append_nil] at contents
      exact ⟨wf, repl, opened, calls, final, opens, drives, feeds, contents.sublist, fun flat =>
        contents.whole ⟨rfl, flat⟩⟩

def twoWayScript : List ScriptEntry :=
    [⟨"a", .response "7"⟩, ⟨"a", .branch "c"⟩, ⟨"c", .response "done"⟩]

def scriptedRun : Except Exn (Option Nat) × World :=
  (dryRun digitEnv twoWayApp asciiTerminal 5 "two-way" "" (.scripted twoWayScript)).run World.empty

theorem scripted_success_twoWay : ∃ calls, FeedsAll 0 calls twoWayScript [] ∧
    (calls.filterMap Call.content?).Sublist [("a", "7"), ("c", "done")] := by
  have ended : scriptedRun = (.ok (some 0), scriptedRun.2) := Prod.ext rfl rfl
  obtain ⟨wf, repl, opened, calls, final, -, -, feeds, contents, -⟩ := scripted_success ended
  exact ⟨calls, feeds, contents⟩

end Megalos
