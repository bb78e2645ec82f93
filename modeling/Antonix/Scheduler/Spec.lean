import Antonix.Scheduler.System
import Mathlib.Data.List.Perm.Subperm

/-! # What the calls of the scheduler do

One lemma for each call, in terms of the chain from `run_queue` and of the first
thread of a process. -/

namespace Antonix.Sched

open Chains Function

section

variable {next : Nat → Option Nat} {first last t : Nat} {queue front : List Nat}

/-- The walk ends at the last thread of the queue. -/
theorem lastLoop_spec : ∀ {fuel first : Nat} {front : List Nat},
    Chain next (some first) (front ++ [last]) → (front ++ [last]).length ≤ fuel →
    lastLoop next fuel first = .ok last
  | 0, _, _, _, enough => by simp at enough
  | fuel + 1, first, [], chain, _ => by
    cases chain with
    | cons rest =>
      have single : Chain next (some last) ([] ++ [last]) := .cons rest
      rw [lastLoop, single.next_last]
  | fuel + 1, first, x :: front, chain, enough => by
    cases chain with
    | cons rest =>
      rw [lastLoop]
      cases after : next first with
      | none =>
        rw [after] at rest
        cases front with
        | nil => cases rest
        | cons y front => cases rest
      | some second =>
        rw [after] at rest
        exact lastLoop_spec rest (by simpa using enough)

/-- Addresses are 32-bit values, so a walk along distinct threads is short enough. -/
theorem length_le_of_nodup (nodup : queue.Nodup) (small : ∀ x ∈ queue, x < 2 ^ 32) :
    queue.length ≤ 2 ^ 32 := by
  have subset : queue ⊆ List.range (2 ^ 32) := fun x member => List.mem_range.mpr (small x member)
  have length := (List.subperm_of_subset nodup subset).length_le
  rwa [List.length_range] at length

theorem appendThread_eq (chain : Chain next (some first) (front ++ [last]))
    (short : (front ++ [last]).length ≤ 2 ^ 32) (t : Nat) :
    appendThread next first t = .ok (link next last t) := by
  rw [appendThread, lastLoop_spec chain short]
  rfl

/-- A thread that is not in the queue is appended. -/
theorem appendThread_new (chain : Chain next (some first) queue) (nodup : queue.Nodup)
    (short : queue.length ≤ 2 ^ 32) (new : t ∉ queue) :
    ∃ next', appendThread next first t = .ok next' ∧ Chain next' (some first) (queue ++ [t]) ∧
      ∀ x ∉ queue, x ≠ t → next' x = next x := by
  rcases List.eq_nil_or_concat' queue with rfl | ⟨front, last, rfl⟩
  · cases chain
  · refine ⟨_, appendThread_eq chain short t, ?_, fun x outside notT => ?_⟩
    · simpa using chain.link_new nodup new
    · apply link_of_ne _ notT
      rintro rfl
      simp at outside

end

section

variable {state state' : SchedState} {queue : List Nat} {t proc : Nat}

/-- `proc->threads[0]` is in use and points to `t`. -/
def KProcess.Heads (p : KProcess) (t : Nat) : Prop := p.threads 0 = t ∧ 0 < p.threadCount

/-- Every process has a pid that has been given out. -/
def SchedState.PidsGiven (state : SchedState) : Prop :=
  ∀ p ∈ state.processArray, (state.procs p).id < state.freePid

/-- The process array has not lost an entry, and the processes in it keep their first threads
unless that is `exited`. -/
structure ProcsKept (exited : Option Nat) (state state' : SchedState) : Prop where
  array : ∀ p ∈ state.processArray, p ∈ state'.processArray
  pids : state.PidsGiven → state'.PidsGiven
  heads : ∀ p ∈ state.processArray, ∀ t, some t ≠ exited → (state.procs p).Heads t →
    (state'.procs p).Heads t

theorem ProcsKept.of_eq {exited : Option Nat} (procs : state'.procs = state.procs)
    (array : state'.processArray = state.processArray) (freePid : state'.freePid = state.freePid) :
    ProcsKept exited state state' := by
  refine ⟨fun p member => ?_, fun pids => ?_, fun p _ t _ heads => ?_⟩
  · rwa [array]
  · rwa [SchedState.PidsGiven, procs, array, freePid]
  · rwa [procs]

theorem ProcsKept.trans {state'' : SchedState} {exited : Option Nat}
    (first : ProcsKept exited state state') (second : ProcsKept exited state' state'') :
    ProcsKept exited state state'' where
  array p member := second.array p (first.array p member)
  pids pids := second.pids (first.pids pids)
  heads p member t differ heads :=
    second.heads p (first.array p member) t differ (first.heads p member t differ heads)

/-- Adding a thread that is in no queue and has no link. -/
theorem schedAddThreadToRunQueue_new (chain : Chain state.next state.runQueue queue)
    (nodup : queue.Nodup) (short : queue.length ≤ 2 ^ 32) (new : t ∉ queue)
    (unlinked : state.next t = none) :
    ∃ next runQueue, schedAddThreadToRunQueue state t =
        .ok { state.setNext next with runQueue := runQueue } ∧
      Chain next runQueue (queue ++ [t]) ∧ ∀ x ∉ queue, x ≠ t → next x = state.next x := by
  rw [schedAddThreadToRunQueue]
  cases head : state.runQueue with
  | none =>
    rw [head] at chain
    cases chain with
    | nil =>
      refine ⟨state.next, some t, rfl, ?_, fun _ _ _ => rfl⟩
      apply Chain.cons
      rw [unlinked]
      exact .nil
  | some first =>
    rw [head] at chain
    obtain ⟨next, appended, chain', kept⟩ := appendThread_new chain nodup short new
    refine ⟨next, some first, ?_, chain', kept⟩
    simp only [appended, bind, Except.bind, ← head]
    rfl

/-- A thread that is the last one of the queue anyway. -/
def SchedState.LastQueued (state : SchedState) (t : Nat) : Prop :=
  ∃ first, state.runQueue = some first ∧ lastLoop state.next (2 ^ 32) first = .ok t

theorem SchedState.lastQueued_iff {front : List Nat} {last : Nat}
    (chain : Chain state.next state.runQueue (front ++ [last]))
    (short : (front ++ [last]).length ≤ 2 ^ 32) : state.LastQueued t ↔ t = last := by
  cases head : state.runQueue with
  | none =>
    rw [head] at chain
    generalize whole : front ++ [last] = queue at chain
    cases chain with
    | nil => simp at whole
  | some first =>
    rw [head] at chain
    have walked := lastLoop_spec chain short
    constructor
    · rintro ⟨first', head', walked'⟩
      obtain rfl : first = first' := by simpa [head] using head'
      exact Except.ok.inj (walked'.symm.trans walked)
    · rintro rfl
      exact ⟨first, head, walked⟩

/-- Adding to a queue that is not empty, whatever the thread is. -/
theorem schedAddThreadToRunQueue_eq {front : List Nat} {last : Nat}
    (chain : Chain state.next state.runQueue (front ++ [last]))
    (short : (front ++ [last]).length ≤ 2 ^ 32) (t : Nat) :
    schedAddThreadToRunQueue state t = .ok (state.setNext (link state.next last t)) := by
  obtain ⟨first, head, walked⟩ := (SchedState.lastQueued_iff chain short).mpr rfl
  rw [schedAddThreadToRunQueue, head]
  simp only [appendThread, walked, bind, Except.bind]

/-- `t` has been queued, and nothing else has happened to the threads. -/
structure ThreadQueued (state : SchedState) (queue : List Nat) (t : Nat) (state' : SchedState) :
    Prop where
  chain : Chain state'.next state'.runQueue (queue ++ [t])
  current : state'.current = state.current
  kept : ∀ x ∉ queue, x ≠ t → state'.next x = state.next x
  procs : ProcsKept none state state'

theorem schedAddThreadToRunQueue_queued (chain : Chain state.next state.runQueue queue)
    (nodup : queue.Nodup) (short : queue.length ≤ 2 ^ 32) (new : t ∉ queue)
    (unlinked : state.next t = none)
    (returned : schedAddThreadToRunQueue state t = .ok state') :
    ThreadQueued state queue t state' ∧ state'.procs = state.procs ∧
      state'.processArray = state.processArray ∧ state'.freePid = state.freePid := by
  obtain ⟨next, runQueue, added, chain', kept⟩ :=
    schedAddThreadToRunQueue_new chain nodup short new unlinked
  rw [added, Except.ok.injEq] at returned
  subst returned
  exact ⟨⟨chain', rfl, kept, .of_eq rfl rfl rfl⟩, rfl, rfl, rfl⟩

/-! ## Threads and processes -/

theorem schedInitThread_eq {procDesc : Option Nat}
    (returned : schedInitThread state procDesc t = .ok state') :
    ∃ proc, (∀ p, procDesc = some p → p = proc) ∧
      state' = { state with threads := update state.threads t ⟨proc, none⟩ }.setProc proc
        { state.procs proc with
          threads := update (state.procs proc).threads (state.procs proc).threadCount t
          threadCount := (state.procs proc).threadCount + 1 } := by
  rw [schedInitThread] at returned
  split at returned
  · contradiction
  · rename_i proc chosen
    simp only at returned
    split at returned
    · contradiction
    · refine ⟨proc, fun p given => ?_, (Except.ok.inj returned).symm⟩
      simpa [given] using chosen

theorem schedInitThread_count (returned : schedInitThread state (some proc) t = .ok state') :
    (state'.procs proc).threadCount = (state.procs proc).threadCount + 1 := by
  obtain ⟨proc', given, rfl⟩ := schedInitThread_eq returned
  obtain rfl : proc = proc' := given proc rfl
  simp [SchedState.setProc]

theorem schedInitThread_full {hr : HResult}
    (failed : schedInitThread state (some proc) t = .error hr) :
    maxThreads ≤ (state.procs proc).threadCount := by
  simp only [schedInitThread, Option.some_or] at failed
  split at failed
  · assumption
  · contradiction

theorem schedInitThread_spec {procDesc : Option Nat}
    (returned : schedInitThread state procDesc t = .ok state') :
    state'.next = update state.next t none ∧ state'.runQueue = state.runQueue ∧
      state'.current = state.current ∧ ProcsKept none state state' := by
  obtain ⟨proc, -, rfl⟩ := schedInitThread_eq returned
  refine ⟨?_, rfl, rfl, fun p member => member, fun pids p member => ?_, fun p _ head _ heads => ?_⟩
  · funext x
    by_cases same : x = t
    · simp [SchedState.next, SchedState.setProc, same]
    · simp [SchedState.next, SchedState.setProc, same]
  · by_cases same : p = proc
    · simpa [SchedState.setProc, same] using same ▸ pids p member
    · simpa [SchedState.setProc, same] using pids p member
  · by_cases same : p = proc
    · subst same
      -- the new entry is behind the first one
      have behind : 0 ≠ (state.procs p).threadCount := Nat.ne_of_lt heads.2
      refine ⟨?_, ?_⟩
      · simpa [SchedState.setProc, behind] using heads.1
      · simp [SchedState.setProc]
    · simpa [SchedState.setProc, same] using heads

theorem schedCreateThread_spec {procDesc : Option Nat} {hr : HResult}
    (chain : Chain state.next state.runQueue queue) (nodup : queue.Nodup)
    (short : queue.length ≤ 2 ^ 32) (new : t ∉ queue)
    (returned : schedCreateThread state procDesc t = .ok (hr, state')) :
    schedInitThread state procDesc t = .error hr ∨
      ∃ state₁, schedInitThread state procDesc t = .ok state₁ ∧ hr = .sOk ∧
        ThreadQueued state queue t state' ∧ state'.procs = state₁.procs ∧
        state'.processArray = state₁.processArray ∧ state'.freePid = state₁.freePid := by
  rw [schedCreateThread] at returned
  cases initialized : schedInitThread state procDesc t with
  | error hr' =>
    simp only [initialized, Except.ok.injEq, Prod.mk.injEq] at returned
    exact .inl (congrArg _ returned.1)
  | ok state₁ =>
    simp only [initialized] at returned
    obtain ⟨state₂, added, answered⟩ := exists_of_bind returned
    obtain ⟨rfl, rfl⟩ := eq_of_returned answered
    -- initializing a thread that is not queued leaves the queue alone
    obtain ⟨links, runQueue, current, initialProcs⟩ := schedInitThread_spec initialized
    have chain₁ : Chain state₁.next state₁.runQueue queue := by
      rw [links, runQueue]
      refine chain.congr fun x member => update_of_ne ?_ _ _
      rintro rfl
      exact new member
    have unlinked : state₁.next t = none := by rw [links, update_self]
    obtain ⟨queued, procs, array, freePid⟩ :=
      schedAddThreadToRunQueue_queued chain₁ nodup short new unlinked added
    refine .inr ⟨state₁, rfl, rfl, ⟨queued.chain, queued.current.trans current,
      fun x outside differ => ?_, initialProcs.trans queued.procs⟩, procs, array, freePid⟩
    rw [queued.kept x outside differ, links, update_of_ne differ]

/-- A process that is created gets a pid that no other has, and `t` as its first thread. -/
theorem schedCreateProcess_spec {pid : Nat} {hr : HResult}
    (chain : Chain state.next state.runQueue queue) (nodup : queue.Nodup)
    (short : queue.length ≤ 2 ^ 32) (new : t ∉ queue) (newProc : proc ∉ state.processArray)
    (returned : schedCreateProcess state proc t = .ok (hr, some pid, state')) :
    ThreadQueued state queue t state' ∧ (state'.procs proc).Heads t ∧
      state'.processArray = state.processArray ++ [proc] ∧ pid = state.freePid ∧
      (state'.procs proc).id = pid ∧
      ∀ p ∈ state.processArray, (state'.procs p).id = (state.procs p).id := by
  rw [schedCreateProcess] at returned
  split at returned
  · simp at returned
  · obtain ⟨⟨hr', state₂⟩, created, stored⟩ := exists_of_bind returned
    let state₀ := { state with freePid := state.freePid + 1 }.setProc proc
      ⟨state.freePid, fun _ => 0, 0⟩
    have chain₀ : Chain state₀.next state₀.runQueue queue := chain
    have blank : state₀.procs proc = ⟨state.freePid, fun _ => 0, 0⟩ := update_self _ _ _
    have older : ∀ p, p ≠ proc → state₀.procs p = state.procs p := fun p => (update_of_ne · _ _)
    rcases schedCreateThread_spec chain₀ nodup short new created with
      failed | ⟨state₁, initialized, rfl, queued, procs, arrays, freePid⟩
    · -- a process without threads has room for one
      have full := schedInitThread_full failed
      rw [blank] at full
      contradiction
    · obtain ⟨proc', given, rfl⟩ := schedInitThread_eq initialized
      obtain rfl : proc = proc' := given proc rfl
      simp only [HResult.failed, HResult.succeeded, Bool.not_true, Bool.false_eq_true, if_false,
        Except.ok.injEq, Prod.mk.injEq, Option.some.injEq] at stored
      obtain ⟨rfl, rfl, rfl⟩ := stored
      have here : state₂.procs proc = ⟨state.freePid, update (fun _ => 0) 0 t, 1⟩ := by
        rw [procs]
        simp [SchedState.setProc, blank]
      have there : ∀ p ∈ state.processArray, state₂.procs p = state.procs p := by
        intro p member
        have differ : p ≠ proc := ne_of_mem_of_not_mem member newProc
        rw [procs, ← older p differ]
        exact update_of_ne differ _ _
      replace arrays : state₂.processArray = state.processArray := arrays
      refine ⟨
        { chain := queued.chain
          current := queued.current
          kept := queued.kept
          procs :=
            { array := fun p member => List.mem_append_left _ (arrays ▸ member)
              pids := fun pids p member => ?_
              heads := fun p member head _ heads => ?_ } }, ?_, ?_, rfl, ?_, fun p member => ?_⟩
      · show (state₂.procs p).id < state₂.freePid
        rw [freePid]
        cases List.mem_append.mp member with
        | inl older =>
          rw [arrays] at older
          rw [there p older]
          exact Nat.lt_succ_of_lt (pids p older)
        | inr newest =>
          rw [List.mem_singleton.mp newest, here]
          exact Nat.lt_succ_self _
      · show (state₂.procs p).Heads head
        rwa [there p member]
      · show (state₂.procs proc).Heads t
        rw [here]
        exact ⟨by simp, Nat.one_pos⟩
      · show state₂.processArray ++ [proc] = _
        rw [arrays]
      · show (state₂.procs proc).id = _
        rw [here]
      · show (state₂.procs p).id = _
        rw [there p member]

/-- The process that `elf_load_from_memory` finds is the one it has created. -/
theorem elfLoadBegin_spec {found : Nat} (chain : Chain state.next state.runQueue queue)
    (nodup : queue.Nodup) (short : queue.length ≤ 2 ^ 32) (new : t ∉ queue)
    (newProc : proc ∉ state.processArray) (pids : state.PidsGiven)
    (returned : elfLoadBegin state proc t = .ok (.ok found, state')) :
    ThreadQueued state queue t state' ∧ (state'.procs found).Heads t ∧
      found ∈ state'.processArray := by
  rw [elfLoadBegin] at returned
  obtain ⟨⟨hr, pid, state₁⟩, created, loaded⟩ := exists_of_bind returned
  cases pid with
  | none => simp at loaded
  | some pid =>
    simp only at loaded
    split at loaded
    · contradiction
    · rename_i proc' search
      obtain ⟨process, rfl⟩ := eq_of_returned loaded
      obtain rfl := Except.ok.inj process
      obtain ⟨queued, heads, array, given, here, there⟩ :=
        schedCreateProcess_spec chain nodup short new newProc created
      -- no older process has the new pid, so the search goes on to the new one
      have older : ∀ p ∈ state.processArray, ¬(state₁.procs p).id = pid := by
        intro p member
        rw [there p member, given]
        exact Nat.ne_of_lt (pids p member)
      rw [schedFindProc, array, List.find?_append, List.find?_eq_none.mpr (by simpa using older)]
        at search
      simp only [here, Option.none_or, List.find?_cons_of_pos, decide_true] at search
      simp only [Except.ok.injEq] at search
      subst search
      refine ⟨queued, heads, ?_⟩
      rw [array]
      exact List.mem_append_right _ (List.mem_singleton_self _)

/-! ## Leaving -/

theorem schedExitThread_spec (returned : schedExitThread state t = .ok state') :
    state'.current = none ∧ state'.next = state.next ∧ state'.runQueue = state.runQueue ∧
      ProcsKept (some t) state state' := by
  rw [schedExitThread] at returned
  split at returned
  · contradiction
  · rw [destroyThreadStruct] at returned
    simp only at returned
    split at returned
    · contradiction
    · rename_i id search
      rw [Except.ok.injEq] at returned
      subst returned
      have inside := List.mem_range.mp (List.mem_of_find?_eq_some search)
      have here := List.find?_some search
      simp only [decide_eq_true_eq] at here
      refine ⟨rfl, rfl, rfl, fun p member => member, fun pids p member => ?_,
        fun p _ head differ heads => ?_⟩
      · by_cases same : p = (state.threads t).process
        · simpa [SchedState.setProc, same] using same ▸ pids p member
        · simpa [SchedState.setProc, same] using pids p member
      · by_cases same : p = (state.threads t).process
        · subst same
          -- the thread that leaves is not the first one of its process
          have behind : id ≠ 0 := by
            rintro rfl
            rw [heads.1] at here
            exact differ (congrArg some here)
          obtain ⟨first, some⟩ := heads
          simp only [SchedState.setProc, update_self, KProcess.Heads]
          rw [if_neg (by omega)]
          exact ⟨first, by omega⟩
        · simpa [SchedState.setProc, same] using heads

/-! ## Switching -/

/-- A tick puts the current thread at the end of the queue and runs the first one. -/
theorem schedUpdate_spec (chain : Chain state.next state.runQueue queue)
    (nodup : (state.current.toList ++ queue).Nodup) (short : queue.length ≤ 2 ^ 32)
    (returned : schedUpdate state = .ok state') :
    state' = state ∨ ∃ first rest, queue ++ state.current.toList = first :: rest ∧
      state'.current = some first ∧ Chain state'.next state'.runQueue rest ∧
      (∀ x ∉ queue, state.current ≠ some x → state'.next x = state.next x) ∧
      ProcsKept none state state' := by
  rw [schedUpdate] at returned
  split at returned
  · exact .inl (Except.ok.inj returned).symm
  · refine .inr ?_
    cases head : state.runQueue with
    | none => simp [head] at returned
    | some first =>
      rw [head] at chain
      simp only [head] at returned
      have switched : ∀ {next : Nat → Option Nat},
          schedSwitchToThread { state.setNext next with runQueue := next first } first =
            .ok state' →
          state' = { state.setNext next with runQueue := next first, current := some first } := by
        intro next switch
        rw [schedSwitchToThread] at switch
        split at switch
        · contradiction
        · exact (Except.ok.inj switch).symm
      have popped : ∀ {next : Nat → Option Nat} {rest : List Nat},
          Chain next (some first) rest → ∃ tail, rest = first :: tail ∧
            Chain next (next first) tail := by
        intro next rest chain
        cases chain with
        | cons tail => exact ⟨_, rfl, tail⟩
      cases running : state.current with
      | none =>
        -- the thread that was running has exited, and nothing is put back
        simp only [running, bind, Except.bind] at returned
        obtain rfl := switched returned
        obtain ⟨rest, rfl, tail⟩ := popped chain
        exact ⟨first, rest, by simp, rfl, tail, fun _ _ _ => rfl, .of_eq rfl rfl rfl⟩
      | some c =>
        simp only [running] at returned
        rw [running, Option.toList_some, List.singleton_append, List.nodup_cons] at nodup
        obtain ⟨next, appended, chain', kept⟩ := appendThread_new chain nodup.2 short nodup.1
        simp only [appended, bind, Except.bind] at returned
        obtain rfl := switched returned
        obtain ⟨rest, split, tail⟩ := popped chain'
        refine ⟨first, rest, split, rfl, tail, fun x outside differ => ?_, .of_eq rfl rfl rfl⟩
        apply kept x outside
        rintro rfl
        exact differ rfl

end

/-! ## What the calls leave alone -/

section

variable {state state' : SchedState} {t : Nat}

theorem schedAddThreadToRunQueue_frame
    (returned : schedAddThreadToRunQueue state t = .ok state') :
    ∃ next runQueue, state' = { state.setNext next with runQueue } := by
  rw [schedAddThreadToRunQueue] at returned
  cases head : state.runQueue with
  | none =>
    rw [head] at returned
    exact ⟨state.next, some t, (Except.ok.inj returned).symm⟩
  | some first =>
    rw [head] at returned
    obtain ⟨next, -, stored⟩ := exists_of_bind returned
    exact ⟨next, state.runQueue, (Except.ok.inj stored).symm⟩

theorem schedUpdate_frame (returned : schedUpdate state = .ok state') :
    ∃ next runQueue current, state' = { state.setNext next with runQueue, current } := by
  rw [schedUpdate] at returned
  split at returned
  · exact ⟨state.next, state.runQueue, state.current, (Except.ok.inj returned).symm⟩
  · cases head : state.runQueue with
    | none => simp [head] at returned
    | some first =>
      -- the thread that ran is appended, or has exited
      obtain ⟨next, switched⟩ : ∃ next, schedSwitchToThread
          { state.setNext next with runQueue := next first } first = .ok state' := by
        cases running : state.current with
        | none =>
          simp only [head, running] at returned
          exact ⟨_, returned⟩
        | some current =>
          simp only [head, running] at returned
          obtain ⟨next, -, switched⟩ := exists_of_bind returned
          exact ⟨next, switched⟩
      rw [schedSwitchToThread] at switched
      split at switched
      · contradiction
      · exact ⟨next, next first, some first, (Except.ok.inj switched).symm⟩

theorem schedExitThread_frame (returned : schedExitThread state t = .ok state') :
    ∃ procs, state' = { state with current := none, procs } := by
  rw [schedExitThread] at returned
  split at returned
  · contradiction
  · rw [destroyThreadStruct] at returned
    dsimp only at returned
    split at returned
    · contradiction
    · exact ⟨_, (Except.ok.inj returned).symm⟩

end

end Antonix.Sched
