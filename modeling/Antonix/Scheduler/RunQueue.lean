import Antonix.Scheduler.Spec

/-! # The run queue over all interleavings

The current thread and the run queue form a ring: a tick only moves on to the next
thread of it, and new threads come in right before the current one.  So the main
thread of a process that is being loaded stays right before the loading thread,
and is the last of the queue when the loading thread adds it a second time.  Only
when it has exited in the meantime can the second addition do harm. -/

namespace Antonix.Sched

open Chains Function Transition

/-- The current thread, then the queue. -/
def System.ring (s : System) (queue : List Nat) : List Nat := s.sched.current.toList ++ queue

/-- The created threads are those of the ring; threads that are being created are not among them,
and the main thread of a process that is being loaded comes right before the thread that loads
it. -/
structure System.Sound (s : System) (queue : List Nat) : Prop where
  chain : Chain s.sched.next s.sched.runQueue queue
  nodup : (s.ring queue).Nodup
  mem_ring : ∀ t, t ∈ s.ring queue ↔ t ∈ s.created
  createdNodup : s.created.Nodup
  allocated : ∀ t ∈ s.created, t ∈ s.allocated
  small : ∀ t ∈ s.allocated, t < 2 ^ 32
  creating : ∀ c ∈ s.created, ∀ t, s.activity c = .creating t →
    t ∈ s.allocated ∧ t ∉ s.created ∧ s.sched.next t = none
  creator : ∀ c ∈ s.created, ∀ c' ∈ s.created, ∀ t, s.activity c = .creating t →
    s.activity c' = .creating t → c = c'
  loading : ∀ c ∈ s.created, ∀ proc t, s.activity c = .loading proc (some t) →
    Precedes t c (s.ring queue) ∧ (s.sched.procs proc).Heads t ∧ proc ∈ s.sched.processArray
  pids : s.sched.PidsGiven

section

variable {s : System} {queue : List Nat} {c t : Nat}

theorem System.ring_eq (here : s.sched.current = some c) (queue : List Nat) :
    s.ring queue = c :: queue := by
  rw [System.ring, here]
  rfl

theorem System.Sound.current_created (sound : s.Sound queue) (here : s.sched.current = some c) :
    c ∈ s.created := by
  rw [← sound.mem_ring, System.ring_eq here]
  exact List.mem_cons_self

theorem System.Sound.queue_nodup (sound : s.Sound queue) : queue.Nodup :=
  (List.nodup_append.mp sound.nodup).2.1

theorem System.Sound.queue_created (sound : s.Sound queue) (member : t ∈ queue) : t ∈ s.created :=
  (sound.mem_ring t).mp (List.mem_append_right _ member)

theorem System.Sound.short (sound : s.Sound queue) : queue.length ≤ 2 ^ 32 :=
  length_le_of_nodup sound.queue_nodup fun t member =>
    sound.small t (sound.allocated t (sound.queue_created member))

theorem System.Sound.queueSound (sound : s.Sound queue) : s.QueueSound := by
  refine ⟨queue, sound.chain, sound.queue_nodup, fun t => ?_⟩
  rw [← sound.mem_ring]
  constructor
  · intro member
    refine ⟨List.mem_append_right _ member, fun here => ?_⟩
    have apart := (List.nodup_append.mp sound.nodup).2.2
    exact apart t (by simp [here]) t member rfl
  · rintro ⟨member, elsewhere⟩
    cases List.mem_append.mp member with
    | inl current => exact absurd (Option.mem_toList.mp current) elsewhere
    | inr queued => exact queued

/-! ## Steps -/

theorem System.Sound.tick {sched : SchedState} (sound : s.Sound queue)
    (ticked : schedUpdate s.sched = .ok sched) : ∃ rest, System.Sound { s with sched } rest := by
  rcases schedUpdate_spec sound.chain sound.nodup sound.short ticked with
    rfl | ⟨first, rest, split, current, chain, kept, procs⟩
  · exact ⟨queue, sound⟩
  · -- the ring is read from the next thread on
    have ring : System.ring { s with sched } rest = queue ++ s.sched.current.toList := by
      rw [System.ring, current, split]
      rfl
    have perm : (queue ++ s.sched.current.toList).Perm (s.ring queue) := List.perm_append_comm
    exact ⟨rest,
      { chain := chain
        nodup := by
          rw [ring]
          exact perm.nodup_iff.mpr sound.nodup
        mem_ring := fun t => by
          rw [ring, perm.mem_iff]
          exact sound.mem_ring t
        createdNodup := sound.createdNodup
        allocated := sound.allocated
        small := sound.small
        creating := fun c member t creating => by
          obtain ⟨allocated, notCreated, unlinked⟩ := sound.creating c member t creating
          refine ⟨allocated, notCreated, ?_⟩
          rw [← unlinked]
          exact kept t (fun queued => notCreated (sound.queue_created queued))
            fun here => notCreated (sound.current_created here)
        creator := sound.creator
        loading := fun c member proc t loading => by
          obtain ⟨precedes, heads, listed⟩ := sound.loading c member proc t loading
          refine ⟨?_, procs.heads proc listed t (by simp) heads, procs.array proc listed⟩
          rw [ring]
          rw [System.ring] at precedes
          cases here : s.sched.current with
          | none => simpa [here] using precedes
          | some current =>
            rw [here] at precedes
            exact precedes.rotate
        pids := procs.pids sound.pids }⟩

/-- A thread has been allocated, but is not in the queue yet. -/
theorem System.Sound.initThread {sched : SchedState} {procDesc : Option Nat}
    (sound : s.Sound queue) (here : s.sched.current = some c) (running : s.activity c = .running)
    (fresh : s.Fresh t) (initialized : schedInitThread s.sched procDesc t = .ok sched) :
    System.Sound
      { s with
        sched
        activity := update s.activity c (.creating t)
        allocated := t :: s.allocated } queue := by
  obtain ⟨links, runQueue, current, procs⟩ := schedInitThread_spec initialized
  have notCreated : t ∉ s.created := fun member => fresh.new (sound.allocated t member)
  have ring : s.ring queue = sched.current.toList ++ queue := by rw [System.ring, current]
  let activity := update s.activity c (.creating t)
  have pending : activity c = .creating t := update_self _ _ _
  have others : ∀ x, x ≠ c → activity x = s.activity x := fun x differ => update_of_ne differ _ _
  -- the new thread is not one that another thread is creating
  have unclaimed : ∀ y ∈ s.created, s.activity y ≠ .creating t := fun y created creating =>
    fresh.new (sound.creating y created t creating).1
  exact
    { chain := by
        rw [links, runQueue]
        refine sound.chain.congr fun x member => update_of_ne ?_ _ _
        rintro rfl
        exact notCreated (sound.queue_created member)
      nodup := by
        have nodup := sound.nodup
        rwa [ring] at nodup
      mem_ring := fun x => by
        rw [← sound.mem_ring x, ring]
        rfl
      createdNodup := sound.createdNodup
      allocated := fun x member => List.mem_cons_of_mem _ (sound.allocated x member)
      small := fun x member => by
        cases List.mem_cons.mp member with
        | inl new => exact new ▸ fresh.small
        | inr old => exact sound.small x old
      creating := fun x member t' (creating : activity x = _) => by
        rw [links]
        by_cases self : x = c
        · rw [self, pending, Activity.creating.injEq] at creating
          subst creating
          exact ⟨List.mem_cons_self, notCreated, update_self _ _ _⟩
        · rw [others x self] at creating
          obtain ⟨allocated, notYet, unlinked⟩ := sound.creating x member t' creating
          have differ : t' ≠ t := ne_of_mem_of_not_mem allocated fresh.new
          exact ⟨List.mem_cons_of_mem _ allocated, notYet, by rwa [update_of_ne differ]⟩
      creator := fun x member x' member' t' (creating : activity x = _)
          (creating' : activity x' = _) => by
        by_cases self : x = c
        · by_cases self' : x' = c
          · rw [self, self']
          · rw [self, pending, Activity.creating.injEq] at creating
            rw [others x' self', ← creating] at creating'
            exact absurd creating' (unclaimed x' member')
        · rw [others x self] at creating
          by_cases self' : x' = c
          · rw [self', pending, Activity.creating.injEq] at creating'
            rw [← creating'] at creating
            exact absurd creating (unclaimed x member)
          · rw [others x' self'] at creating'
            exact sound.creator x member x' member' t' creating creating'
      loading := fun x member proc t' (loading : activity x = _) => by
        have self : x ≠ c := by
          rintro rfl
          simp [pending] at loading
        rw [others x self] at loading
        obtain ⟨precedes, heads, listed⟩ := sound.loading x member proc t' loading
        refine ⟨?_, procs.heads proc listed t' (by simp) heads, procs.array proc listed⟩
        rw [ring] at precedes
        exact precedes
      pids := procs.pids sound.pids }

/-- A thread enters the queue while `c` is running; `c` may go on to load the process that it is
the main thread of. -/
theorem System.Sound.enter {sched : SchedState} {activity : Nat → Activity} {allocated : List Nat}
    (sound : s.Sound queue) (here : s.sched.current = some c) (new : t ∉ s.created)
    (queued : ThreadQueued s.sched queue t sched)
    (fate : ∀ x ∈ s.created, x ≠ c → activity x = s.activity x) (started : activity t = .running)
    (now : activity c = .running ∨ ∃ proc, activity c = .loading proc (some t) ∧
      (sched.procs proc).Heads t ∧ proc ∈ sched.processArray)
    (unclaimed : ∀ x ∈ s.created, x ≠ c → s.activity x ≠ .creating t)
    (more : ∀ x ∈ s.allocated, x ∈ allocated) (reserved : t ∈ allocated)
    (small : ∀ x ∈ allocated, x < 2 ^ 32) :
    System.Sound ⟨sched, activity, allocated, t :: s.created⟩ (queue ++ [t]) := by
  have current : sched.current = some c := queued.current.trans here
  have ring := System.ring_eq here queue
  have ring' : System.ring ⟨sched, activity, allocated, t :: s.created⟩ (queue ++ [t]) =
      s.ring queue ++ [t] := by
    rw [System.ring, current, ring]
    rfl
  have notInRing : t ∉ s.ring queue := fun member => new ((sound.mem_ring t).mp member)
  have created := sound.current_created here
  -- what the other threads are doing, they did before
  have before : ∀ {x}, x ∈ t :: s.created → x ≠ c → activity x ≠ .running →
      x ∈ s.created ∧ activity x = s.activity x := by
    intro x member differ busy
    cases List.mem_cons.mp member with
    | inl same => exact absurd (same ▸ started) busy
    | inr older => exact ⟨older, fate x older differ⟩
  -- the running thread is not creating another one any more
  have self : ∀ {y t'}, activity y = .creating t' → y ≠ c := by
    rintro y t' creating rfl
    cases now with
    | inl running => simp [running] at creating
    | inr loads =>
      obtain ⟨proc, loading, -⟩ := loads
      simp [loading] at creating
  exact
    { chain := queued.chain
      nodup := by
        rw [ring', List.nodup_append]
        refine ⟨sound.nodup, List.nodup_singleton t, fun x inRing y isT same => ?_⟩
        rw [List.mem_singleton] at isT
        exact notInRing (isT ▸ same ▸ inRing)
      mem_ring := fun x => by
        rw [ring', List.mem_append, List.mem_singleton, sound.mem_ring, List.mem_cons, or_comm]
      createdNodup := List.nodup_cons.mpr ⟨new, sound.createdNodup⟩
      allocated := fun x member => by
        cases List.mem_cons.mp member with
        | inl same => exact same ▸ reserved
        | inr older => exact more x (sound.allocated x older)
      small := small
      creating := fun x member t' (creating : activity x = _) => by
        obtain ⟨older, same⟩ := before member (self creating) (by simp [creating])
        have creating' : s.activity x = .creating t' := same ▸ creating
        obtain ⟨isAllocated, notCreated, unlinked⟩ := sound.creating x older t' creating'
        have differ : t' ≠ t := by
          rintro rfl
          exact unclaimed x older (self creating) creating'
        refine ⟨more t' isAllocated, by simp [differ, notCreated], ?_⟩
        rw [← unlinked]
        exact queued.kept t' (fun member => notCreated (sound.queue_created member)) differ
      creator := fun x member x' member' t' (creating : activity x = _)
          (creating' : activity x' = _) => by
        obtain ⟨older, same⟩ := before member (self creating) (by simp [creating])
        obtain ⟨older', same'⟩ := before member' (self creating') (by simp [creating'])
        exact sound.creator x older x' older' t' (same ▸ creating) (same' ▸ creating')
      loading := fun x member proc t' (loading : activity x = _) => by
        rw [ring', ring]
        by_cases here : x = c
        · -- the thread has just entered, right before the one that loads its process
          subst here
          cases now with
          | inl running => simp [running] at loading
          | inr loads =>
            obtain ⟨proc', loading', heads, listed⟩ := loads
            simp only [loading', Activity.loading.injEq, Option.some.injEq] at loading
            obtain ⟨rfl, rfl⟩ := loading
            exact ⟨.inr ⟨queue, rfl⟩, heads, listed⟩
        · obtain ⟨older, same⟩ := before member here (by simp [loading])
          obtain ⟨precedes, heads, listed⟩ := sound.loading x older proc t' (same ▸ loading)
          rw [ring] at precedes
          exact ⟨precedes.concat here t, queued.procs.heads proc listed t' (by simp) heads,
            queued.procs.array proc listed⟩
      pids := queued.procs.pids sound.pids }

/-- The current thread leaves. -/
theorem System.Sound.exitThread {sched : SchedState} (sound : s.Sound queue)
    (here : s.sched.current = some c) (exited : schedExitThread s.sched c = .ok sched) :
    System.Sound ⟨sched, fun t => (s.activity t).forget c, s.allocated.erase c, s.created.erase c⟩
      queue := by
  obtain ⟨current, links, runQueue, procs⟩ := schedExitThread_spec exited
  have ring := System.ring_eq here queue
  have nodup := sound.nodup
  rw [ring, List.nodup_cons] at nodup
  have left : ∀ {x}, x ∈ s.created.erase c → x ∈ s.created ∧ x ≠ c := by
    intro x member
    exact ⟨List.mem_of_mem_erase member, (sound.createdNodup.mem_erase_iff.mp member).1⟩
  have created := sound.current_created here
  exact
    { chain := by
        rw [links, runQueue]
        exact sound.chain
      nodup := by
        rw [System.ring, current]
        exact nodup.2
      mem_ring := fun x => by
        rw [System.ring, current, sound.createdNodup.mem_erase_iff, ← sound.mem_ring, ring,
          List.mem_cons]
        constructor
        · intro member
          exact ⟨ne_of_mem_of_not_mem member nodup.1, .inr member⟩
        · rintro ⟨differ, member⟩
          exact member.resolve_left differ
      createdNodup := sound.createdNodup.erase c
      allocated := fun x member =>
        (List.mem_erase_of_ne (left member).2).mpr (sound.allocated x (left member).1)
      small := fun x member => sound.small x (List.mem_of_mem_erase member)
      creating := fun x member t (creating : (s.activity x).forget c = _) => by
        rw [Activity.forget_eq_creating_iff] at creating
        obtain ⟨allocated, notCreated, unlinked⟩ := sound.creating x (left member).1 t creating
        have differ : t ≠ c := fun same => notCreated (same ▸ created)
        exact ⟨(List.mem_erase_of_ne differ).mpr allocated,
          fun member => notCreated (List.mem_of_mem_erase member), by rwa [links]⟩
      creator := fun x member x' member' t (creating : (s.activity x).forget c = _)
          (creating' : (s.activity x').forget c = _) => by
        rw [Activity.forget_eq_creating_iff] at creating creating'
        exact sound.creator x (left member).1 x' (left member').1 t creating creating'
      loading := fun x member proc t (loading : (s.activity x).forget c = _) => by
        -- a main thread that is still there is not the one that leaves
        obtain ⟨loading, differ⟩ := Activity.forget_eq_loading_iff.mp loading
        obtain ⟨precedes, heads, listed⟩ := sound.loading x (left member).1 proc t loading
        rw [ring] at precedes
        refine ⟨?_, procs.heads proc listed t (by simpa using differ) heads,
          procs.array proc listed⟩
        rw [System.ring, current]
        exact precedes.tail differ (left member).2
      pids := procs.pids sound.pids }

/-- Loading ends, and nothing has happened to the queue. -/
theorem System.Sound.finish (sound : s.Sound queue) (here : s.sched.current = some c) :
    System.Sound { s with activity := update s.activity c .running } queue := by
  let activity := update s.activity c .running
  have before : ∀ {x}, activity x ≠ .running → activity x = s.activity x := by
    intro x busy
    apply update_of_ne
    rintro rfl
    exact busy (update_self _ _ _)
  exact
    { sound with
      creating := fun x member t (creating : activity x = _) =>
        sound.creating x member t ((before (by simp [creating])).symm.trans creating)
      creator := fun x member x' member' t (creating : activity x = _)
          (creating' : activity x' = _) =>
        sound.creator x member x' member' t ((before (by simp [creating])).symm.trans creating)
          ((before (by simp [creating'])).symm.trans creating')
      loading := fun x member proc t (loading : activity x = _) =>
        sound.loading x member proc t ((before (by simp [loading])).symm.trans loading) }

/-- As long as the main thread of the process has not exited, it is the last of the queue when
the thread that loads the process is the current one. -/
theorem System.Sound.main_last {proc : Nat} (sound : s.Sound queue)
    (here : s.sched.current = some c) (loading : s.activity c = .loading proc (some t)) :
    s.sched.LastQueued ((s.sched.procs proc).threads 0) := by
  obtain ⟨precedes, heads, -⟩ := sound.loading c (sound.current_created here) proc t loading
  have ring := System.ring_eq here queue
  rw [ring] at precedes
  obtain ⟨front, rfl⟩ := precedes.last (ring ▸ sound.nodup)
  rw [heads.1]
  exact (SchedState.lastQueued_iff sound.chain sound.short).mpr rfl

theorem System.Sound.elfLoadFinish_eq {proc : Nat} (sound : s.Sound queue)
    (last : s.sched.LastQueued ((s.sched.procs proc).threads 0)) :
    elfLoadFinish s.sched proc = .ok s.sched := by
  rcases List.eq_nil_or_concat' queue with rfl | ⟨front, final, rfl⟩
  · obtain ⟨first, head, -⟩ := last
    have chain := sound.chain
    rw [head] at chain
    cases chain
  · rw [SchedState.lastQueued_iff sound.chain sound.short] at last
    rw [elfLoadFinish, last, schedAddThreadToRunQueue_eq sound.chain sound.short,
      sound.chain.link_same]
    rfl

/-- The last statement of `elf_load_from_memory` leaves the queue as it should be exactly when the
thread that it adds is the last one there. -/
theorem System.Sound.elfLoadFinish_iff {sched : SchedState} {activity : Nat → Activity} {proc : Nat}
    (sound : s.Sound queue) (here : s.sched.current = some c)
    (finished : elfLoadFinish s.sched proc = .ok sched) :
    System.QueueSound { s with sched, activity } ↔
      s.sched.LastQueued ((s.sched.procs proc).threads 0) := by
  rw [elfLoadFinish] at finished
  generalize (s.sched.procs proc).threads 0 = t at finished ⊢
  have ring := System.ring_eq here queue
  rcases List.eq_nil_or_concat' queue with rfl | ⟨front, last, rfl⟩
  · -- only the current thread is left, and the one that is added is not created
    have empty : s.sched.runQueue = none := by
      have chain := sound.chain
      cases head : s.sched.runQueue with
      | none => rfl
      | some first =>
        rw [head] at chain
        cases chain
    rw [schedAddThreadToRunQueue, empty, Except.ok.injEq] at finished
    subst finished
    constructor
    · rintro ⟨queue', chain', -, members⟩
      cases chain' with
      | cons rest =>
        obtain ⟨created, elsewhere⟩ := (members t).mp List.mem_cons_self
        rw [← sound.mem_ring, ring, List.mem_singleton] at created
        exact absurd (created ▸ here) elsewhere
    · rintro ⟨first, head, -⟩
      rw [empty] at head
      contradiction
  · have nodup := sound.queue_nodup
    rw [schedAddThreadToRunQueue_eq sound.chain sound.short, Except.ok.injEq] at finished
    subst finished
    rw [SchedState.lastQueued_iff sound.chain sound.short]
    obtain ⟨queue, chain, nodup', members⟩ := sound.queueSound
    obtain rfl := chain.unique sound.chain
    constructor
    · rintro ⟨queue', chain', -, members'⟩
      replace members' : ∀ x, x ∈ queue' ↔ x ∈ front ++ [last] := fun x =>
        (members' x).trans (members x).symm
      by_contra notLast
      by_cases queued : t ∈ front
      · -- the queue now ends at `t`, and the last thread is lost
        obtain ⟨before, after, rfl⟩ := List.append_of_mem queued
        obtain rfl := chain'.unique (sound.chain.link_again nodup)
        have lost := (members' last).mpr (by simp)
        simp only [List.nodup_append, List.mem_append, List.mem_singleton] at nodup lost
        cases lost with
        | inl early => exact nodup.2.2 last (.inl early) last rfl rfl
        | inr same => exact notLast same.symm
      · have new : t ∉ front ++ [last] := by simp [queued, notLast]
        obtain rfl := chain'.unique (sound.chain.link_new nodup new)
        exact new ((members' t).mp (by simp))
    · rintro rfl
      exact ⟨front ++ [t], by rw [sound.chain.link_same]; exact chain, nodup', members⟩

/-! ## Runs -/

/-- Where a load is about to end, the main thread of the process has not exited, or else the
thread that is going to be added is the last of the queue anyway. -/
def System.FinishesSafely (s : System) : Prop :=
  ∀ c proc main, s.sched.current = some c → s.activity c = .loading proc main →
    main ≠ none ∨ s.sched.LastQueued ((s.sched.procs proc).threads 0)

theorem System.Sound.finishesSafely_iff {proc : Nat} {main : Option Nat} (sound : s.Sound queue)
    (here : s.sched.current = some c) (loading : s.activity c = .loading proc main) :
    s.FinishesSafely ↔ s.sched.LastQueued ((s.sched.procs proc).threads 0) := by
  constructor
  · intro safe
    cases safe c proc main here loading with
    | inl alive =>
      obtain ⟨t, rfl⟩ := Option.ne_none_iff_exists'.mp alive
      exact sound.main_last here loading
    | inr last => exact last
  · intro last c' proc' main' here' loading'
    obtain rfl : c = c' := Option.some.inj (here.symm.trans here')
    rw [loading, Activity.loading.injEq] at loading'
    exact .inr (loading'.1 ▸ last)

theorem SchedStep.sound {s' : System} {op : SchedOp} (step : SchedStep s op s')
    (sound : s.Sound queue) (safe : op = .elfLoadFinish → s.FinishesSafely) :
    ∃ queue', s'.Sound queue' := by
  cases step with
  | tick ticked => exact sound.tick ticked
  | initThread here running fresh initialized =>
    exact ⟨queue, sound.initThread here running fresh initialized⟩
  | @queueThread sched c t here creating added =>
    have created := sound.current_created here
    obtain ⟨reserved, new, unlinked⟩ := sound.creating c created t creating
    have notQueued : t ∉ queue := fun member => new (sound.queue_created member)
    obtain ⟨queued, -⟩ := schedAddThreadToRunQueue_queued sound.chain sound.queue_nodup sound.short
      notQueued unlinked added
    have differ : c ≠ t := ne_of_mem_of_not_mem created new
    refine ⟨_, sound.enter here new queued (fun x member self => ?_) (update_self _ _ _) (.inl ?_)
      (fun x member self creating' => ?_) (fun x member => member) reserved sound.small⟩
    · rw [update_of_ne (ne_of_mem_of_not_mem member new), update_of_ne self]
    · rw [update_of_ne differ, update_self]
    · -- no two threads create the same one
      exact self (sound.creator x member c created t creating' creating)
  | @createProcess sched c proc t pid here running fresh newProc made =>
    have new : t ∉ s.created := fun member => fresh.new (sound.allocated t member)
    have notQueued : t ∉ queue := fun member => new (sound.queue_created member)
    obtain ⟨queued, -⟩ := schedCreateProcess_spec sound.chain sound.queue_nodup sound.short
      notQueued newProc made
    have others : ∀ x ∈ s.created, update s.activity t .running x = s.activity x :=
      fun x member => update_of_ne (ne_of_mem_of_not_mem member new) _ _
    refine ⟨_, sound.enter here new queued (fun x member _ => others x member) (update_self _ _ _)
      (.inl ?_) (fun x member _ creating => ?_) (fun x => List.mem_cons_of_mem t)
      List.mem_cons_self ?_⟩
    · rw [others c (sound.current_created here), running]
    · exact fresh.new (sound.creating x member t creating).1
    · exact List.forall_mem_cons.mpr ⟨fresh.small, sound.small⟩
  | exitThread here _ exited => exact ⟨queue, sound.exitThread here exited⟩
  | @elfLoadBegin sched c proc proc' t here running fresh newProc loaded =>
    have new : t ∉ s.created := fun member => fresh.new (sound.allocated t member)
    have notQueued : t ∉ queue := fun member => new (sound.queue_created member)
    obtain ⟨queued, heads, listed⟩ := elfLoadBegin_spec sound.chain sound.queue_nodup sound.short
      notQueued newProc sound.pids loaded
    have differ : c ≠ t := ne_of_mem_of_not_mem (sound.current_created here) new
    refine ⟨_, sound.enter here new queued (fun x member self => ?_) (update_self _ _ _)
      (.inr ⟨proc', ?_, heads, listed⟩) (fun x member _ creating => ?_)
      (fun x => List.mem_cons_of_mem t) List.mem_cons_self ?_⟩
    · rw [update_of_ne (ne_of_mem_of_not_mem member new), update_of_ne self]
    · rw [update_of_ne differ, update_self]
    · exact fresh.new (sound.creating x member t creating).1
    · exact List.forall_mem_cons.mpr ⟨fresh.small, sound.small⟩
  | @elfLoadFinish sched c proc main here loading finished =>
    have last := (sound.finishesSafely_iff here loading).mp (safe rfl)
    rw [sound.elfLoadFinish_eq last, Except.ok.injEq] at finished
    subst finished
    exact ⟨queue, sound.finish here⟩

theorem System.Initial.sound (initial : s.Initial) : ∃ queue, s.Sound queue := by
  cases initial with
  | @ready kernelProc main idle sched mainNonzero mainSmall idleNonzero idleSmall differ started =>
    obtain ⟨⟨hr, state₁⟩, first, started⟩ := exists_of_bind started
    have blank : ((schedCreateInitialProc kernelProc).procs kernelProc).threadCount = 0 := by
      simp [schedCreateInitialProc]
    rcases schedCreateThread_spec .nil List.nodup_nil (Nat.zero_le _) List.not_mem_nil first with
      failed | ⟨init₁, initialized₁, rfl, queued₁, procs₁, -⟩
    · have full := schedInitThread_full failed
      rw [blank] at full
      contradiction
    · obtain ⟨⟨hr', state₂⟩, second, stored⟩ := exists_of_bind started
      have new : idle ∉ [main] := by simpa using differ.symm
      rcases schedCreateThread_spec queued₁.chain (List.nodup_singleton main) (by simp) new second
        with failed | ⟨init₂, -, rfl, queued₂, -⟩
      · -- the kernel process has one thread so far
        have full := schedInitThread_full failed
        rw [procs₁, schedInitThread_count initialized₁, blank] at full
        contradiction
      · obtain rfl := Except.ok.inj stored
        have current : state₂.current = none := queued₂.current.trans queued₁.current
        have pids : state₂.PidsGiven := by
          apply queued₂.procs.pids
          apply queued₁.procs.pids
          intro p member
          rw [List.mem_singleton.mp member]
          simp [schedCreateInitialProc]
        exact ⟨[main] ++ [idle],
          { chain := queued₂.chain
            nodup := by
              rw [System.ring, current]
              simpa using differ
            mem_ring := fun t => by
              rw [System.ring, current]
              simp [or_comm]
            createdNodup := by simpa using differ.symm
            allocated := fun t member => member
            small := fun t member => by
              obtain rfl | rfl : t = idle ∨ t = main := by simpa using member
              · exact idleSmall
              · exact mainSmall
            -- both threads are running
            creating := fun c _ t creating => by contradiction
            creator := fun c _ c' _ t creating => by contradiction
            loading := fun c _ proc t loading => by contradiction
            pids := pids }⟩

theorem run_sound {start : System} {ops : List SchedOp} (initial : start.Initial)
    (run : Run (Guarded (fun s op => op = .elfLoadFinish → s.FinishesSafely) SchedStep) start ops
      s) : ∃ queue, s.Sound queue := by
  refine run.invariant (fun s => ∃ queue, s.Sound queue) ?_ initial.sound
  intro s op s' ⟨queue, sound⟩ ⟨safe, step⟩
  exact step.sound sound safe

end

/-- As long as every load ends safely, following the links from `run_queue` visits every created
thread but the current one exactly once.  From the states so reached, that stays so after the
last statement of a load exactly when it ends safely, too. -/
theorem sched_run_queue_sound {start s : System} {ops : List SchedOp} (initial : start.Initial)
    (run : Run (Guarded (fun s op => op = .elfLoadFinish → s.FinishesSafely) SchedStep) start ops s) :
    s.QueueSound ∧
      ∀ s', SchedStep s .elfLoadFinish s' → (s'.QueueSound ↔ s.FinishesSafely) := by
  obtain ⟨queue, sound⟩ := run_sound initial run
  refine ⟨sound.queueSound, fun s' step => ?_⟩
  cases step with
  | elfLoadFinish here loading finished =>
    rw [sound.finishesSafely_iff here loading]
    exact sound.elfLoadFinish_iff here finished

/-- A load that is preempted: the new thread and the idle thread run before it ends. -/
theorem sched_run_queue_sound_load :
    ∃ s : System, s.QueueSound ∧ s.created = [48, 32, 16] ∧ s.sched.current = some 16 ∧
      s.sched.runQueue = some 32 := by
  have reached : ∃ start s s' : System, start.Initial ∧
      Run SchedStep start [.tick, .elfLoadBegin 2 48, .tick, .tick, .tick] s ∧
      s.sched.current = some 16 ∧ s.activity 16 = .loading 2 (some 48) ∧
      SchedStep s .elfLoadFinish s' ∧ s'.created = [48, 32, 16] ∧ s'.sched.current = some 16 ∧
      s'.sched.runQueue = some 32 := by
    refine ⟨_, _, _, .ready (by decide) (by decide) (by decide) (by decide) (by decide)
      (show schedInitialize 1 16 32 = _ from rfl), .cons (.tick rfl) (.cons
      (.elfLoadBegin rfl rfl ⟨by decide, by decide, by decide⟩ (by decide) rfl) (.cons (.tick rfl)
      (.cons (.tick rfl) (.single (.tick rfl))))), rfl, rfl, .elfLoadFinish rfl rfl rfl, rfl, rfl,
      rfl⟩
  obtain ⟨start, s, s', initial, run, current, loading, finish, created, current', runQueue⟩ :=
    reached
  have safe : s.FinishesSafely := by
    intro c proc main here loading'
    obtain rfl : 16 = c := Option.some.inj (current.symm.trans here)
    rw [loading, Activity.loading.injEq] at loading'
    exact .inl (by simp [← loading'.2])
  have guarded : Run (Guarded (fun s op => op = .elfLoadFinish → s.FinishesSafely) SchedStep) start
      ([.tick, .elfLoadBegin 2 48, .tick, .tick, .tick] ++ [.elfLoadFinish]) s' := by
    refine Run.append (run.guarded fun op member s isFinish => ?_) (.single ⟨fun _ => safe, finish⟩)
    simp [isFinish] at member
  exact ⟨s', (sched_run_queue_sound initial guarded).1, created, current', runQueue⟩

/-- The main thread creates two threads and exits before the load ends.  Then the first of them is
added again, and the second is lost. -/
theorem sched_run_queue_not_sound :
    ∃ start s : System, start.Initial ∧
      Run SchedStep start [.tick, .elfLoadBegin 2 48, .tick, .tick, .initThread none 64, .queueThread,
        .initThread none 80, .queueThread, .exitThread, .tick, .elfLoadFinish] s ∧
      ¬s.QueueSound := by
  have reached : ∃ start s : System, start.Initial ∧
      Run SchedStep start [.tick, .elfLoadBegin 2 48, .tick, .tick, .initThread none 64,
        .queueThread, .initThread none 80, .queueThread, .exitThread, .tick, .elfLoadFinish] s ∧
      s.sched.runQueue = some 32 ∧ s.sched.next 32 = some 64 ∧ s.sched.next 64 = none ∧
      s.sched.current = some 16 ∧ 80 ∈ s.created := by
    refine ⟨_, _, .ready (by decide) (by decide) (by decide) (by decide) (by decide)
      (show schedInitialize 1 16 32 = _ from rfl), .cons (.tick rfl) (.cons
      (.elfLoadBegin rfl rfl ⟨by decide, by decide, by decide⟩ (by decide) rfl) (.cons (.tick rfl)
      (.cons (.tick rfl) (.cons (.initThread rfl rfl ⟨by decide, by decide, by decide⟩ rfl)
      (.cons (.queueThread rfl rfl rfl)
      (.cons (.initThread rfl rfl ⟨by decide, by decide, by decide⟩ rfl)
      (.cons (.queueThread rfl rfl rfl) (.cons (.exitThread rfl rfl rfl) (.cons (.tick rfl)
      (.single (.elfLoadFinish rfl rfl rfl))))))))))), rfl, rfl, rfl, rfl, ?_⟩
    decide
  obtain ⟨start, s, initial, run, runQueue, next₁, next₂, current, created⟩ := reached
  refine ⟨start, s, initial, run, ?_⟩
  rintro ⟨queue, chain, -, members⟩
  have short : Chain s.sched.next s.sched.runQueue [32, 64] := by
    rw [runQueue]
    apply Chain.cons
    rw [next₁]
    apply Chain.cons
    rw [next₂]
    exact .nil
  obtain rfl := chain.unique short
  have lost := (members 80).mpr ⟨created, by simp [current]⟩
  simp at lost

end Antonix.Sched
