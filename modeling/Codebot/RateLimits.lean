import Codebot.ControlKeys
import Codebot.ExpiringCounters
import Codebot.Runs
import Mathlib.Data.List.Nodup
import Mathlib.Data.List.Perm.Subperm

/-!
The rate limits of `RedisSecurityControls`. A call increments a counter in each of several dimensions and, where the
counter is new, gives it a time to live by a second command; the calls take these steps in any order (`sound_iff`).
-/
namespace Codebot.RateLimits
set_option linter.unusedSectionVars false
open Runs Texts ControlKeys ExpiringCounters List Function

structure RateLimitRule where
  limit : Nat
  windowSeconds : Nat

structure RateLimitConfig where
  userMinute : RateLimitRule := ⟨120,60⟩
  userDay : RateLimitRule := ⟨2000,86400⟩
  workspaceMinute : RateLimitRule := ⟨600,60⟩
  workspaceDay : RateLimitRule := ⟨10000,86400⟩
  ipMinute : RateLimitRule := ⟨180,60⟩
  modelUserMinute : RateLimitRule := ⟨60,60⟩
  modelWorkspaceMinute : RateLimitRule := ⟨300,60⟩
  toolUserMinute : RateLimitRule := ⟨120,60⟩
  toolWorkspaceMinute : RateLimitRule := ⟨600,60⟩

def RateLimitConfig.rule (config : RateLimitConfig) : Dimension → RateLimitRule
  | .user => config.userMinute
  | .userDay => config.userDay
  | .workspace => config.workspaceMinute
  | .workspaceDay => config.workspaceDay
  | .ip => config.ipMinute
  | .modelUser => config.modelUserMinute
  | .modelWorkspace => config.modelWorkspaceMinute
  | .toolUser => config.toolUserMinute
  | .toolWorkspace => config.toolWorkspaceMinute

/-- A scope that requests are counted for. -/
structure Scope where
  dimension : Dimension
  counted : Text × Option Text
deriving DecidableEq
inductive Method
  | checkWrite
  | checkModelCall
  | checkToolCall
/-- The dimensions that a call counts in, in their order. -/
def Method.dimensions : Method → List Dimension
  | .checkWrite => [.user,.userDay,.workspace,.workspaceDay,.ip]
  | .checkModelCall => [.modelUser,.modelWorkspace]
  | .checkToolCall => [.toolUser,.toolWorkspace]
/-- A call of a method for a request. -/
structure Call where
  method : Method
  request : Request
def Call.scopes (call : Call) : List Scope :=
  call.method.dimensions.map fun dimension => ⟨dimension,call.request.counted dimension⟩

/-- What a call does next. -/
inductive Phase
  | idle
  /-- Before the ping. -/
  | pinging
  /-- Before `INCR` for the scope. -/
  | counting (scope : Scope) (rest : List Scope)
  /-- The counter was new: before `EXPIRE`. -/
  | expiring (scope : Scope) (rest : List Scope) (window : Nat)
  | accepted
  /-- `RateLimitExceeded`. -/
  | limited (dimension : Dimension) (retryAfterSeconds : Nat)
  /-- The process has died, or Redis has not answered. -/
  | crashed
deriving DecidableEq

/-- A check that a call has passed: the answer of `INCR`, and which of the windows of the counter
    it belongs to. -/
structure Pass (Caller : Type) where
  caller : Caller
  scope : Scope
  window : Nat
  count : Nat

/-- The time, the counters of Redis and the calls; for each counter how many windows have begun,
    and the checks that were passed. -/
structure State (Caller : Type) where
  now : Nat
  counters : Store Text
  phase : Caller → Phase
  opened : Text → Nat
  passes : List (Pass Caller)

inductive Label (Caller : Type)
  | call (c : Caller)
  /-- The next command of a call. -/
  | command (c : Caller)
  /-- A call ends before its next command. -/
  | crash (c : Caller)
  | tick
def initial (Caller : Type) : State Caller := ⟨0,fun _ => none,fun _ => .idle,fun _ => 0,[]⟩
def proceed : List Scope → Phase
  | [] => .accepted
  | scope :: rest => .counting scope rest

section
variable {Caller : Type} [DecidableEq Caller] (config : RateLimitConfig) (keyPrefix : Text) (calls : Caller → Call)

def Scope.key (scope : Scope) : Text := counterKey keyPrefix scope.dimension scope.counted
def State.enter (s : State Caller) (c : Caller) (phase : Phase) : State Caller :=
  { s with phase := Function.update s.phase c phase }
/-- The end of `_check_limit`. -/
def State.compare (s : State Caller) (c : Caller) (scope : Scope) (rest : List Scope) (window count : Nat) : State Caller :=
  if (config.rule scope.dimension).limit < count then
    s.enter c (.limited scope.dimension (config.rule scope.dimension).windowSeconds)
  else { (s.enter c (proceed rest)) with passes := s.passes ++ [⟨c,scope,window,count⟩] }
/-- The window that the next `INCR` counts in. -/
def State.window (s : State Caller) (key : Text) : Nat :=
  match live s.now s.counters key with
  | none => s.opened key + 1
  | some _ => s.opened key
/-- `INCR`. -/
def State.count (s : State Caller) (key : Text) : State Caller :=
  { s with
    counters := (incr s.now s.counters key).2
    opened := Function.update s.opened key (s.window key) }
/-- `_check_limit`, up to `EXPIRE` where this is needed. -/
def checkLimit (s : State Caller) (c : Caller) (scope : Scope) (rest : List Scope) : State Caller :=
  let counted := s.count (scope.key keyPrefix)
  let count := (incr s.now s.counters (scope.key keyPrefix)).1
  let window := s.window (scope.key keyPrefix)
  if count = 1 then counted.enter c (.expiring scope rest window)
  else counted.compare config c scope rest window count
/-- `_check_limit` from `EXPIRE` on. -/
def expireCounter (s : State Caller) (c : Caller) (scope : Scope) (rest : List Scope) (window : Nat) : State Caller :=
  State.compare config
    { s with counters := expire s.now s.counters (scope.key keyPrefix) (config.rule scope.dimension).windowSeconds }
    c scope rest window 1
def command (s : State Caller) (c : Caller) : Option (State Caller) :=
  match s.phase c with
  | .pinging => some (s.enter c (proceed (calls c).scopes))
  | .counting scope rest => some (checkLimit config keyPrefix s c scope rest)
  | .expiring scope rest window => some (expireCounter config keyPrefix s c scope rest window)
  | _ => none
def Phase.working : Phase → Bool
  | .pinging => true
  | .counting _ _ => true
  | .expiring _ _ _ => true
  | _ => false
def step (s : State Caller) : Label Caller → Option (State Caller)
  | .call c => if s.phase c = .idle then some (s.enter c .pinging) else none
  | .command c => command config keyPrefix calls s c
  | .crash c => if (s.phase c).working then some (s.enter c .crashed) else none
  | .tick => some { s with now := s.now + 1 }
def State.passed (s : State Caller) (c : Caller) (scope : Scope) (window : Nat) : Prop :=
  ∃ count, ⟨c,scope,window,count⟩ ∈ s.passes
def State.expires (s : State Caller) (key : Text) : Prop :=
  ∃ c scope rest window, s.phase c = .expiring scope rest window ∧ scope.key keyPrefix = key

/-- Each counter runs out, or is about to be given a time to live, and no more requests are accepted for a scope in a
    window than its limit. -/
structure Sound (s : State Caller) : Prop where
  healing : ∀ key counter, live s.now s.counters key = some counter → counter.deadline = none → s.expires keyPrefix key
  counted : ∀ c, s.phase c = .accepted → ∀ scope ∈ (calls c).scopes, ∃ window, s.passed c scope window
  limited : ∀ (scope : Scope) (window : Nat) (callers : List Caller), callers.Nodup →
    (∀ c ∈ callers, s.phase c = .accepted ∧ s.passed c scope window) →
      callers.length ≤ (config.rule scope.dimension).limit

/-- No call ends between `INCR` and `EXPIRE`. -/
def Unbroken (s : State Caller) (label : Label Caller) : Prop :=
  ∀ c scope rest window, label = .crash c → s.phase c ≠ .expiring scope rest window
def Pass.place (pass : Pass Caller) : Text × Nat × Nat := (pass.scope.key keyPrefix,pass.window,pass.count)
def Phase.left (scope : Scope) : Phase → Prop
  | .counting here rest => scope ∈ here :: rest
  | .expiring here rest _ => scope ∈ here :: rest
  | .accepted => False
  | _ => True
/-- The counter of the key was made in the window and has no time to live, and nobody has passed
    the first check. -/
structure Pending (s : State Caller) (key : Text) (window : Nat) : Prop where
  current : window = s.opened key
  lasting : ∃ counter, s.counters key = some counter ∧ counter.deadline = none
  first : ∀ pass ∈ s.passes, pass.place keyPrefix ≠ (key,window,1)

/-- The counts of a window are passed once each, up to the limit and to the count of the counter;
    at most one call is about to give a counter its time to live. -/
structure Kept (s : State Caller) : Prop where
  distinct : (s.passes.map (Pass.place keyPrefix)).Nodup
  within : ∀ pass ∈ s.passes, 1 ≤ pass.count ∧ pass.count ≤ (config.rule pass.scope.dimension).limit
  windows : ∀ pass ∈ s.passes, pass.window ≤ s.opened (pass.scope.key keyPrefix) ∧
    (pass.window = s.opened (pass.scope.key keyPrefix) →
      ∃ counter, s.counters (pass.scope.key keyPrefix) = some counter ∧ pass.count ≤ counter.count)
  positive : ∀ key counter, s.counters key = some counter → 1 ≤ counter.count
  pending : ∀ c scope rest window, s.phase c = .expiring scope rest window → Pending keyPrefix s (scope.key keyPrefix) window
  single : ∀ c d scope other rest after window later, s.phase c = .expiring scope rest window →
    s.phase d = .expiring other after later → scope.key keyPrefix = other.key keyPrefix → c = d
  progress : ∀ c, ∀ scope ∈ (calls c).scopes, (s.phase c).left scope ∨ ∃ window, s.passed c scope window

def Healing (s : State Caller) : Prop :=
  ∀ key counter, live s.now s.counters key = some counter → counter.deadline = none → s.expires keyPrefix key

variable {config keyPrefix calls} {s t : State Caller} {c d : Caller} {phase : Phase} {scope : Scope} {rest : List Scope}
  {key : Text} {window count : Nat} {counter : Counter}
theorem place_eq {pass : Pass Caller} : pass.place keyPrefix = (key,window,count) ↔
    pass.scope.key keyPrefix = key ∧ pass.window = window ∧ pass.count = count := by
  simp [Pass.place]
@[simp] theorem enter_self : (s.enter c phase).phase c = phase := update_self ..
theorem enter_other (differs : d ≠ c) : (s.enter c phase).phase d = s.phase d := update_of_ne differs ..
theorem left_proceed (member : scope ∈ rest) : (proceed rest).left scope := by
  cases rest with
  | nil => exact absurd member not_mem_nil
  | cons first rest => exact member
theorem proceed_over {other : Scope} {after : List Scope} : proceed rest ≠ .expiring other after window := by
  cases rest <;> nofun

theorem kept_enter (kept : Kept config keyPrefix calls s)
    (pending : ∀ scope rest window, phase = .expiring scope rest window → Pending keyPrefix s (scope.key keyPrefix) window ∧
      ∀ d other after later, s.phase d = .expiring other after later → other.key keyPrefix = scope.key keyPrefix → d = c)
    (progress : ∀ scope ∈ (calls c).scopes, phase.left scope ∨ ∃ window, s.passed c scope window) :
    Kept config keyPrefix calls (s.enter c phase) := by
  refine ⟨kept.distinct,kept.within,kept.windows,kept.positive,?_,?_,?_⟩
  · intro d scope rest window isExpiring
    by_cases same : d = c
    · subst same
      rw [enter_self] at isExpiring
      have here := (pending scope rest window isExpiring).1
      exact ⟨here.current,here.lasting,here.first⟩
    · rw [enter_other same] at isExpiring
      have here := kept.pending d scope rest window isExpiring
      exact ⟨here.current,here.lasting,here.first⟩
  · intro d e scope other rest after window later one another keys
    by_cases isFirst : d = c
    · by_cases isSecond : e = c
      · rw [isFirst,isSecond]
      · rw [isFirst,enter_self] at one
        rw [enter_other isSecond] at another
        rw [isFirst,(pending scope rest window one).2 e other after later another keys.symm]
    · rw [enter_other isFirst] at one
      by_cases isSecond : e = c
      · rw [isSecond,enter_self] at another
        rw [isSecond,(pending other after later another).2 d scope rest window one keys]
      · rw [enter_other isSecond] at another
        exact kept.single d e scope other rest after window later one another keys
  · intro d scope member
    by_cases same : d = c
    · subst same
      rw [enter_self]
      exact progress scope member
    · rw [enter_other same]
      exact kept.progress d scope member

theorem kept_moved (kept : Kept config keyPrefix calls s) (settled : ∀ scope rest window, phase ≠ .expiring scope rest window)
    (progress : ∀ scope ∈ (calls c).scopes, phase.left scope ∨ ∃ window, s.passed c scope window) :
    Kept config keyPrefix calls (s.enter c phase) :=
  kept_enter kept (fun scope rest window isExpiring => absurd isExpiring (settled scope rest window)) progress
theorem window_absent (absent : live s.now s.counters key = none) : s.window key = s.opened key + 1 := by
  rw [State.window,absent]
theorem window_live (here : live s.now s.counters key = some counter) : s.window key = s.opened key := by
  rw [State.window,here]

theorem kept_count (kept : Kept config keyPrefix calls s) (key : Text) : Kept config keyPrefix calls (s.count key) := by
  refine ⟨kept.distinct,kept.within,?_,?_,?_,kept.single,kept.progress⟩
  · intro pass member
    obtain ⟨before,current⟩ := kept.windows pass member
    simp only [State.count]
    by_cases same : pass.scope.key keyPrefix = key
    · rw [same] at before current ⊢
      rw [update_self,incr_self]
      cases here : live s.now s.counters key with
      | none =>
        rw [window_absent here]
        exact ⟨by omega,fun isCurrent => absurd isCurrent (by omega)⟩
      | some counter =>
        rw [window_live here,incremented_live here]
        refine ⟨before,fun isCurrent => ⟨_,rfl,?_⟩⟩
        obtain ⟨stored,isStored,bound⟩ := current isCurrent
        cases (live_some.mp here).1.symm.trans isStored
        exact Nat.le_succ_of_le bound
    · rw [update_of_ne same,incr_other same]
      exact ⟨before,current⟩
  · intro other counter stored
    simp only [State.count] at stored
    by_cases same : other = key
    · rw [same,incr_self,Option.some.injEq] at stored
      subst stored
      cases here : live s.now s.counters key with
      | none => rw [incremented_absent here]
      | some counter =>
        rw [incremented_live here]
        exact Nat.le_add_left 1 counter.count
    · rw [incr_other same] at stored
      exact kept.positive other counter stored
  · intro d scope rest window isExpiring
    obtain ⟨current,⟨counter,stored,lasting⟩,first⟩ := kept.pending d scope rest window isExpiring
    by_cases same : scope.key keyPrefix = key
    · have here : live s.now s.counters key = some counter := live_lasting (same ▸ stored) lasting
      refine ⟨?_,?_,first⟩
      · simp only [State.count]
        rw [same,update_self,window_live here,current,same]
      · simp only [State.count]
        rw [same,incr_self,incremented_live here]
        exact ⟨_,rfl,lasting⟩
    · refine ⟨?_,?_,first⟩
      · simp only [State.count]
        rw [update_of_ne same,current]
      · simp only [State.count]
        rw [incr_other same]
        exact ⟨counter,stored,lasting⟩

theorem kept_expire (kept : Kept config keyPrefix calls s) (nobody : ¬ s.expires keyPrefix key) (seconds : Nat) :
    Kept config keyPrefix calls { s with counters := expire s.now s.counters key seconds } := by
  have counts : ∀ other counter, expire s.now s.counters key seconds other = some counter →
      ∃ stored, s.counters other = some stored ∧ stored.count = counter.count := by
    intro other counter stored
    have same : (expire s.now s.counters key seconds other).map Counter.count = (s.counters other).map Counter.count := expire_count
    rw [stored,Option.map_some] at same
    exact Option.map_eq_some_iff.mp same.symm
  refine ⟨kept.distinct,kept.within,?_,?_,?_,kept.single,kept.progress⟩
  · intro pass member
    obtain ⟨before,current⟩ := kept.windows pass member
    refine ⟨before,fun isCurrent => ?_⟩
    obtain ⟨counter,stored,bound⟩ := current isCurrent
    have same : (expire s.now s.counters key seconds (pass.scope.key keyPrefix)).map Counter.count =
        (s.counters (pass.scope.key keyPrefix)).map Counter.count := expire_count
    rw [stored,Option.map_some] at same
    obtain ⟨after,isStored,counted⟩ := Option.map_eq_some_iff.mp same
    exact ⟨after,isStored,counted ▸ bound⟩
  · intro other counter stored
    obtain ⟨before,isStored,same⟩ := counts other counter stored
    exact same ▸ kept.positive other before isStored
  · intro d scope rest window isExpiring
    have here := kept.pending d scope rest window isExpiring
    have differs : scope.key keyPrefix ≠ key := fun same => nobody ⟨d,scope,rest,window,isExpiring,same⟩
    exact ⟨here.current,by simpa only [expire_other differs] using here.lasting,here.first⟩

theorem kept_pass (kept : Kept config keyPrefix calls s) (current : window = s.opened (scope.key keyPrefix))
    (stored : s.counters (scope.key keyPrefix) = some counter) (bound : count ≤ counter.count) (positive : 1 ≤ count)
    (within : count ≤ (config.rule scope.dimension).limit)
    (fresh : ∀ pass ∈ s.passes, pass.place keyPrefix ≠ (scope.key keyPrefix,window,count))
    (first : count = 1 → ¬ s.expires keyPrefix (scope.key keyPrefix)) :
    Kept config keyPrefix calls { s with passes := s.passes ++ [⟨c,scope,window,count⟩] } := by
  refine ⟨?_,?_,?_,kept.positive,?_,kept.single,?_⟩
  · simp only [map_append,map_cons,map_nil]
    refine nodup_append.mpr ⟨kept.distinct,pairwise_singleton _ _,?_⟩
    intro place member other isNew same
    obtain ⟨pass,isPass,rfl⟩ := mem_map.mp member
    exact fresh pass isPass (same.trans (mem_singleton.mp isNew))
  · refine forall_mem_append.mpr ⟨kept.within,?_⟩
    rw [forall_mem_singleton]
    exact ⟨positive,within⟩
  · refine forall_mem_append.mpr ⟨kept.windows,?_⟩
    rw [forall_mem_singleton]
    exact ⟨current.le,fun _ => ⟨counter,stored,bound⟩⟩
  · intro d other after later isExpiring
    have here := kept.pending d other after later isExpiring
    refine ⟨here.current,here.lasting,forall_mem_append.mpr ⟨here.first,?_⟩⟩
    rw [forall_mem_singleton]
    intro same
    obtain ⟨keys,_,counts⟩ := place_eq.mp same
    exact first counts ⟨d,other,after,later,isExpiring,keys.symm⟩
  · intro d other member
    refine (kept.progress d other member).imp_right ?_
    rintro ⟨window,count,isPass⟩
    exact ⟨window,count,mem_append_left _ isPass⟩

theorem enter_enter (s : State Caller) (c : Caller) (phase other : Phase) : (s.enter c phase).enter c other = s.enter c other := by
  simp only [State.enter,Function.update_idem]
theorem compare_enter : (s.enter c phase).compare config c scope rest window count = s.compare config c scope rest window count := by
  unfold State.compare
  rw [enter_enter,enter_enter]
  rfl

theorem kept_compare (kept : Kept config keyPrefix calls s) (current : window = s.opened (scope.key keyPrefix))
    (stored : s.counters (scope.key keyPrefix) = some counter) (bound : count ≤ counter.count) (positive : 1 ≤ count)
    (fresh : ∀ pass ∈ s.passes, pass.place keyPrefix ≠ (scope.key keyPrefix,window,count))
    (first : count = 1 → ¬ s.expires keyPrefix (scope.key keyPrefix))
    (progress : ∀ other ∈ (calls c).scopes, other ∈ scope :: rest ∨ ∃ window, s.passed c other window) :
    Kept config keyPrefix calls (s.compare config c scope rest window count) := by
  unfold State.compare
  split_ifs with exceeded
  · exact kept_moved kept nofun fun _ _ => .inl trivial
  · have passed := kept_pass (c := c) kept current stored bound positive (not_lt.mp exceeded) fresh first
    refine kept_moved passed (fun other after later => proceed_over) ?_
    intro other member
    rcases progress other member with remains | ⟨window,count,isPass⟩
    · rcases mem_cons.mp remains with rfl | later
      · exact .inr ⟨window,count,mem_append_right _ (mem_singleton.mpr rfl)⟩
      · exact .inl (left_proceed later)
    · exact .inr ⟨window,count,mem_append_left _ isPass⟩

theorem nobody_else (kept : Kept config keyPrefix calls s) (isExpiring : s.phase c = .expiring scope rest window)
    (settled : ∀ scope rest window, phase ≠ .expiring scope rest window) :
    ¬ (s.enter c phase).expires keyPrefix (scope.key keyPrefix) := by
  rintro ⟨d,other,after,later,isOther,keys⟩
  by_cases same : d = c
  · rw [same,enter_self] at isOther
    exact settled other after later isOther
  · rw [enter_other same] at isOther
    exact same (kept.single d c other scope after rest later window isOther isExpiring keys)

theorem progress_working (kept : Kept config keyPrefix calls s) (here : s.phase c = phase)
    (working : ∀ other, phase.left other → other ∈ scope :: rest) :
    ∀ other ∈ (calls c).scopes, other ∈ scope :: rest ∨ ∃ window, s.passed c other window := by
  intro other member
  have left := kept.progress c other member
  rw [here] at left
  exact left.imp_left (working other)

theorem kept_checkLimit (kept : Kept config keyPrefix calls s) (isCounting : s.phase c = .counting scope rest) :
    Kept config keyPrefix calls (checkLimit config keyPrefix s c scope rest) := by
  have counted := kept_count kept (scope.key keyPrefix)
  have progress : ∀ other ∈ (calls c).scopes, other ∈ scope :: rest ∨ ∃ window, s.passed c other window :=
    progress_working kept isCounting fun other isLeft => isLeft
  unfold checkLimit
  cases here : live s.now s.counters (scope.key keyPrefix) with
  | none =>
    rw [incr,incremented_absent here,window_absent here]
    refine kept_enter counted ?_ progress
    rintro _ _ _ ⟨⟩
    have nobody : ∀ d other after later, s.phase d = .expiring other after later → other.key keyPrefix ≠ scope.key keyPrefix := by
      intro d other after later isExpiring same
      obtain ⟨counter,stored,lasting⟩ := (kept.pending d other after later isExpiring).lasting
      rw [same] at stored
      exact absurd (here.symm.trans (live_lasting stored lasting)) (by simp)
    refine ⟨⟨?_,?_,?_⟩,fun d other after later isExpiring same => absurd same (nobody d other after later isExpiring)⟩
    · simp only [State.count]
      rw [update_self,window_absent here]
    · simp only [State.count]
      rw [incr_self,incremented_absent here]
      exact ⟨_,rfl,rfl⟩
    · intro pass member same
      obtain ⟨keys,windows,_⟩ := place_eq.mp same
      have bound := (kept.windows pass member).1
      rw [keys,windows] at bound
      omega
  | some counter =>
    have positive := kept.positive _ counter (live_some.mp here).1
    rw [incr,incremented_live here,window_live here]
    have more : counter.count + 1 ≠ 1 := by omega
    rw [if_neg more]
    have stored : (s.count (scope.key keyPrefix)).counters (scope.key keyPrefix) = some { counter with count := counter.count + 1 } := by
      simp only [State.count]
      rw [incr_self,incremented_live here]
    refine kept_compare counted ?_ stored (Nat.le_refl _) (Nat.le_add_left 1 _) ?_ (fun isFirst => absurd isFirst more) progress
    · simp only [State.count]
      rw [update_self,window_live here]
    · intro pass member same
      obtain ⟨keys,windows,counts⟩ := place_eq.mp same
      obtain ⟨stored,isStored,bound⟩ := (kept.windows pass member).2 (by rw [keys,windows])
      rw [keys,(live_some.mp here).1] at isStored
      cases isStored
      rw [counts] at bound
      exact absurd bound (Nat.not_succ_le_self counter.count)

theorem kept_expireCounter (kept : Kept config keyPrefix calls s) (isExpiring : s.phase c = .expiring scope rest window) :
    Kept config keyPrefix calls (expireCounter config keyPrefix s c scope rest window) := by
  obtain ⟨current,⟨counter,stored,lasting⟩,first⟩ := kept.pending c scope rest window isExpiring
  have settled : ∀ scope rest window, Phase.crashed ≠ .expiring scope rest window := nofun
  have nobody := nobody_else kept isExpiring settled
  have ended := kept_moved (c := c) kept settled fun _ _ => .inl trivial
  have expired := kept_expire ended nobody (config.rule scope.dimension).windowSeconds
  have progress : ∀ other ∈ (calls c).scopes, other ∈ scope :: rest ∨ ∃ window, s.passed c other window :=
    progress_working kept isExpiring fun other isLeft => isLeft
  have given : expire s.now s.counters (scope.key keyPrefix) (config.rule scope.dimension).windowSeconds (scope.key keyPrefix) =
      some { counter with deadline := some (s.now + (config.rule scope.dimension).windowSeconds) } := by
    rw [expire_live (live_lasting stored lasting),update_self]
  have compared := kept_compare expired current given (kept.positive _ counter stored) (Nat.le_refl 1) first (fun _ => nobody) progress
  rw [expireCounter,← compare_enter]
  exact compared

theorem kept_step (kept : Kept config keyPrefix calls s) {label : Label Caller}
    (stepped : step config keyPrefix calls s label = some t) : Kept config keyPrefix calls t := by
  cases label with
  | call c =>
    simp only [step,Option.ite_none_right_eq_some,Option.some.injEq] at stepped
    obtain ⟨-,rfl⟩ := stepped
    exact kept_moved kept nofun fun _ _ => .inl trivial
  | command c =>
    simp only [step,command] at stepped
    split at stepped
    · cases stepped
      exact kept_moved kept (fun scope rest window => proceed_over) fun scope member => .inl (left_proceed member)
    · next scope rest isCounting =>
      cases stepped
      exact kept_checkLimit kept isCounting
    · next scope rest window isExpiring =>
      cases stepped
      exact kept_expireCounter kept isExpiring
    · cases stepped
  | crash c =>
    simp only [step,Option.ite_none_right_eq_some,Option.some.injEq] at stepped
    obtain ⟨-,rfl⟩ := stepped
    exact kept_moved kept nofun fun _ _ => .inl trivial
  | tick =>
    cases stepped
    exact ⟨kept.distinct,kept.within,kept.windows,kept.positive,
      fun d scope rest window isExpiring =>
        ⟨(kept.pending d scope rest window isExpiring).current,(kept.pending d scope rest window isExpiring).lasting,
          (kept.pending d scope rest window isExpiring).first⟩,
      kept.single,kept.progress⟩

theorem kept_initial : Kept config keyPrefix calls (initial Caller) := by
  refine ⟨nodup_nil,?_,?_,?_,?_,?_,fun _ _ _ => .inl trivial⟩
  all_goals nofun

theorem passes_length (kept : Kept config keyPrefix calls s) (scope : Scope) (window : Nat) :
    (s.passes.filter fun pass => pass.scope = scope ∧ pass.window = window).length ≤ (config.rule scope.dimension).limit := by
  have places : ((s.passes.filter fun pass => pass.scope = scope ∧ pass.window = window).map Pass.count).Nodup := by
    have each := List.Nodup.of_map _ kept.distinct
    refine (each.filter _).map_on ?_
    intro pass member other isOther counts
    obtain ⟨isPass,scopes⟩ := mem_filter.mp member
    obtain ⟨isAnother,others⟩ := mem_filter.mp isOther
    simp only [decide_eq_true_eq] at scopes others
    refine inj_on_of_nodup_map kept.distinct isPass isAnother ?_
    rw [Pass.place,Pass.place,scopes.1,scopes.2,others.1,others.2,counts]
  have bounded : (s.passes.filter fun pass => pass.scope = scope ∧ pass.window = window).map Pass.count ⊆
      List.range' 1 (config.rule scope.dimension).limit := by
    intro count member
    obtain ⟨pass,isPass,rfl⟩ := mem_map.mp member
    obtain ⟨isPass,scopes⟩ := mem_filter.mp isPass
    have within := kept.within pass isPass
    simp only [decide_eq_true_eq] at scopes
    rw [scopes.1] at within
    exact mem_range'_1.mpr ⟨within.1,by omega⟩
  calc _ = ((s.passes.filter fun pass => pass.scope = scope ∧ pass.window = window).map Pass.count).length := (length_map _).symm
    _ ≤ (List.range' 1 (config.rule scope.dimension).limit).length := (subperm_of_subset places bounded).length_le
    _ = (config.rule scope.dimension).limit := length_range'

theorem sound_of_healing (kept : Kept config keyPrefix calls s) (healing : Healing keyPrefix s) : Sound config keyPrefix calls s := by
  refine ⟨healing,?_,?_⟩
  · intro c isAccepted scope member
    have left := kept.progress c scope member
    rw [isAccepted] at left
    exact left.resolve_left id
  · intro scope window callers once all
    have within : callers ⊆ (s.passes.filter fun pass => pass.scope = scope ∧ pass.window = window).map Pass.caller := by
      intro c member
      obtain ⟨count,isPass⟩ := (all c member).2
      exact mem_map.mpr ⟨_,mem_filter.mpr ⟨isPass,by simp⟩,rfl⟩
    have shorter := (subperm_of_subset once within).length_le
    rw [length_map] at shorter
    exact shorter.trans (passes_length kept scope window)

theorem healing_initial : Healing keyPrefix (initial Caller) := nofun

theorem healing_enter (healing : Healing keyPrefix s) (settled : ∀ scope rest window, s.phase c ≠ .expiring scope rest window) :
    Healing keyPrefix (s.enter c phase) := by
  intro key counter here lasting
  obtain ⟨d,scope,rest,window,isExpiring,same⟩ := healing key counter here lasting
  have differs : d ≠ c := by
    rintro rfl
    exact settled scope rest window isExpiring
  exact ⟨d,scope,rest,window,by rw [enter_other differs,isExpiring],same⟩

theorem healing_compare (healing : ∀ phase, Healing keyPrefix (s.enter c phase)) :
    Healing keyPrefix (s.compare config c scope rest window count) := by
  unfold State.compare
  split_ifs
  · exact healing _
  · exact healing (proceed rest)

theorem healing_checkLimit (kept : Kept config keyPrefix calls s) (healing : Healing keyPrefix s)
    (isCounting : s.phase c = .counting scope rest) : Healing keyPrefix (checkLimit config keyPrefix s c scope rest) := by
  have settled : ∀ scope rest window, s.phase c ≠ .expiring scope rest window := by
    rw [isCounting]
    nofun
  unfold checkLimit
  cases here : live s.now s.counters (scope.key keyPrefix) with
  | none =>
    rw [incr,incremented_absent here,window_absent here,if_pos rfl]
    intro key counter isLive lasting
    by_cases same : key = scope.key keyPrefix
    · exact ⟨c,scope,rest,_,enter_self,same.symm⟩
    · have before : live s.now s.counters key = some counter := by
        rw [live_some] at isLive ⊢
        exact ⟨(incr_other same).symm.trans isLive.1,isLive.2⟩
      exact healing_enter healing settled key counter before lasting
  | some counter =>
    have positive := kept.positive _ counter (live_some.mp here).1
    rw [incr,incremented_live here,if_neg (by simp only; omega)]
    refine healing_compare fun phase => healing_enter ?_ settled
    intro key later isLive lasting
    by_cases same : key = scope.key keyPrefix
    · subst same
      rw [live_some] at isLive
      have counted := isLive.1
      simp only [State.count,incr_self,incremented_live here,Option.some.injEq] at counted
      subst counted
      exact healing _ counter here lasting
    · have before : live s.now s.counters key = some later := by
        rw [live_some] at isLive ⊢
        exact ⟨(incr_other same).symm.trans isLive.1,isLive.2⟩
      exact healing key later before lasting

theorem healing_expireCounter (kept : Kept config keyPrefix calls s) (healing : Healing keyPrefix s)
    (isExpiring : s.phase c = .expiring scope rest window) : Healing keyPrefix (expireCounter config keyPrefix s c scope rest window) := by
  obtain ⟨_,⟨counter,stored,isLasting⟩,_⟩ := kept.pending c scope rest window isExpiring
  refine healing_compare fun phase => ?_
  intro key later isLive lasting
  by_cases same : key = scope.key keyPrefix
  · subst same
    have given := (live_some.mp isLive).1
    simp only [State.enter] at given
    rw [expire_live (live_lasting stored isLasting),update_self,Option.some.injEq] at given
    rw [← given] at lasting
    exact absurd lasting (by simp)
  · have before : live s.now s.counters key = some later := by
      rw [live_some] at isLive ⊢
      exact ⟨(expire_other same).symm.trans isLive.1,isLive.2⟩
    obtain ⟨d,other,after,opened,isOther,keys⟩ := healing key later before lasting
    have differs : d ≠ c := by
      rintro rfl
      cases isExpiring.symm.trans isOther
      exact same keys.symm
    exact ⟨d,other,after,opened,(enter_other differs).trans isOther,keys⟩

theorem healing_step (kept : Kept config keyPrefix calls s) (healing : Healing keyPrefix s) {label : Label Caller}
    (unbroken : Unbroken s label) (stepped : step config keyPrefix calls s label = some t) : Healing keyPrefix t := by
  cases label with
  | call c =>
    simp only [step,Option.ite_none_right_eq_some,Option.some.injEq] at stepped
    obtain ⟨isIdle,rfl⟩ := stepped
    exact healing_enter healing (by rw [isIdle]; nofun)
  | command c =>
    simp only [step,command] at stepped
    split at stepped
    · next isPinging =>
      cases stepped
      exact healing_enter healing (by rw [isPinging]; nofun)
    · next scope rest isCounting =>
      cases stepped
      exact healing_checkLimit kept healing isCounting
    · next scope rest window isExpiring =>
      cases stepped
      exact healing_expireCounter kept healing isExpiring
    · cases stepped
  | crash c =>
    simp only [step,Option.ite_none_right_eq_some,Option.some.injEq] at stepped
    obtain ⟨-,rfl⟩ := stepped
    exact healing_enter healing fun scope rest window => unbroken c scope rest window rfl
  | tick =>
    cases stepped
    intro key counter isLive lasting
    exact healing key counter (live_lasting (live_some.mp isLive).1 lasting) lasting

theorem broken (kept : Kept config keyPrefix calls s) {label : Label Caller}
    (healing : ∀ next, step config keyPrefix calls s label = some next → Healing keyPrefix next) : Unbroken s label := by
  rintro c scope rest window rfl isExpiring
  obtain ⟨_,⟨counter,stored,lasting⟩,_⟩ := kept.pending c scope rest window isExpiring
  have ended := healing (s.enter c .crashed) (by simp [step,isExpiring,Phase.working])
  have settled : ∀ scope rest window, Phase.crashed ≠ .expiring scope rest window := nofun
  exact nobody_else kept isExpiring settled (ended _ counter (live_lasting stored lasting) lasting)

/-- Requests are limited soundly in every state of a run exactly if no call ends between the two
    commands with which it makes a counter. -/
theorem sound_iff (config : RateLimitConfig) (keyPrefix : Text) (calls : Caller → Call) (labels : List (Label Caller)) :
    (∀ before after t, labels = before ++ after → run (step config keyPrefix calls) (initial Caller) before = some t →
      Sound config keyPrefix calls t) ↔
    Meets (step config keyPrefix calls) Unbroken (initial Caller) labels := by
  have keeps : ∀ s label t, Kept config keyPrefix calls s ∧ Healing keyPrefix s → Unbroken s label →
      step config keyPrefix calls s label = some t → Kept config keyPrefix calls t ∧ Healing keyPrefix t := by
    rintro s label t ⟨kept,healing⟩ unbroken stepped
    exact ⟨kept_step kept stepped,healing_step kept healing unbroken stepped⟩
  refine secures_iff (fun s holds => sound_of_healing holds.1 holds.2) keeps ?_ ⟨kept_initial,healing_initial⟩
  rintro s label ⟨kept,_⟩ secure
  exact broken kept fun next stepped => (secure next stepped).healing

/-- Whichever calls end early, who is accepted has passed each check, and in one window a check is passed at most
    as often as its limit says. -/
theorem passes_limited (reached : Reachable (step config keyPrefix calls) (initial Caller) t) :
    (∀ c, t.phase c = .accepted → ∀ scope ∈ (calls c).scopes, ∃ window, t.passed c scope window) ∧ ∀ scope window,
      (t.passes.filter fun pass => pass.scope = scope ∧ pass.window = window).length ≤ (config.rule scope.dimension).limit := by
  have kept := reachable_keeps (fun _ _ _ here stepped => kept_step here stepped) kept_initial reached
  refine ⟨?_,passes_length kept⟩
  intro c isAccepted scope member
  have left := kept.progress c scope member
  rw [isAccepted] at left
  exact left.resolve_left id
end

/-- A write of a user from an address. -/
def sampleCall : Call where
  method := .checkWrite
  request := {
    scope := { userId := text "u", workspaceId := text "w", method := text "POST", path := text "/v1/conversations" }
    ipAddress := text "10.0.0.1"
    model := []
    toolId := [] }

def sampleStep : State Unit → Label Unit → Option (State Unit) := step {} (text "strategy-codebot-api") fun _ => sampleCall
/-- The first call of a user ends after `INCR`. -/
def brokenOff : List (Label Unit) := [.call (),.command (),.command (),.crash ()]

theorem sample_limited : ∃ t : State Unit, (∀ scope window, (t.passes.filter fun pass => pass.scope = scope ∧ pass.window = window).length ≤
    (RateLimitConfig.rule {} scope.dimension).limit) ∧ t.phase () = .crashed :=
  have reached : Reachable sampleStep (initial Unit) _ := ⟨brokenOff,rfl⟩
  ⟨_,(passes_limited reached).2,rfl⟩
/-- The counter of the user is left without a time to live, and no call is at work. -/
theorem never_expires : ¬ ∀ labels t, run sampleStep (initial Unit) labels = some t →
    Sound {} (text "strategy-codebot-api") (fun _ => sampleCall) t := by
  intro sound
  have ran : ∃ t, run sampleStep (initial Unit) brokenOff = some t ∧ t.phase () = .crashed ∧
      live t.now t.counters (text "strategy-codebot-api:rl:user:u") = some ⟨1,none⟩ := ⟨_,rfl,by decide,by decide⟩
  obtain ⟨t,reached,ended,left⟩ := ran
  obtain ⟨_,_,_,_,waits,_⟩ := (sound brokenOff t reached).healing _ _ left rfl
  cases ended.symm.trans waits

end Codebot.RateLimits
