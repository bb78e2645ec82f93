import Antonix.Lib.Chain
import Antonix.Drivers.BootSector

/-! # Counting the clusters of a chain (`fat16.c`)

The table links the clusters of a file.  `fat_count_chain` follows the links and takes a chain
for a defective one as soon as it has followed as many as the volume has clusters; the chain
through all of them gets there on its last link, before it is seen to end. -/

namespace Antonix.Drivers

open ByteMem Chains

/-- The loop of `fat_count_chain`, with the number of lookups that it may make. -/
def fatCountChainLoop (vol : Fat16Volume) (lookups current count : Nat) : Except Halt Nat := do
  if ← fatIsEndOfChain vol.drv current then .ok count
  else
    match lookups with
    | 0 => .error .stuck
    | lookups + 1 =>
      match ← fat16FatLookup vol.drv current with
      | .error _ => .ok 0
      | .ok next =>
        -- the guard against cycles comes before the test for the end
        if u32 (count + 1) = vol.layout.totalClusterCnt then .ok 0
        else fatCountChainLoop vol lookups next (u32 (count + 1))

/-- `fat_count_chain` -/
def fatCountChain (vol : Fat16Volume) (lookups firstCluster : Nat) : Except Halt Nat :=
  if firstCluster = 0 then .ok 0 else fatCountChainLoop vol lookups firstCluster 0

/-! ## Chains in the table -/

/-- The cluster that the table links to a cluster; an end-of-chain mark links to none. -/
def fatNext (ctx : Fat16DrvContext) (clusterId : Nat) : Option Nat :=
  match fat16FatLookup ctx clusterId with
  | .ok (.ok next) => if fatIsEndOfChain ctx next = .ok true then none else some next
  | _ => none

/-- A chain through distinct data clusters to an end-of-chain mark. -/
structure FatChain (vol : Fat16Volume) (first : Nat) (clusters : List Nat) : Prop where
  linked : Chain (fatNext vol.drv) (some first) clusters
  unmarked : ∀ c ∈ clusters, fatIsEndOfChain vol.drv c = .ok false
  data : ∀ c ∈ clusters, 2 ≤ c ∧ c < vol.layout.totalClusterCnt + 2
  distinct : clusters.Nodup

/-- The cluster that so many links lead to. -/
def fatFollow (ctx : Fat16DrvContext) (first : Nat) : Nat → Option Nat
  | 0 => some first
  | links + 1 => (fatFollow ctx first links).bind (fatNext ctx)

/-- The links come back to a cluster. -/
def FatCyclic (ctx : Fat16DrvContext) (first : Nat) : Prop :=
  ∃ i j, i < j ∧ fatFollow ctx first i = fatFollow ctx first j ∧
    (fatFollow ctx first i).isSome = true

/-- What counting is for, from one cluster. -/
structure CountsChain (vol : Fat16Volume) (first : Nat) : Prop where
  ends : vol.layout.fsType ≠ .exfat →
    ∃ count, fatCountChain vol vol.layout.totalClusterCnt first = .ok count
  counts : ∀ clusters, FatChain vol first clusters →
    clusters.length ≤ vol.layout.totalClusterCnt →
    fatCountChain vol vol.layout.totalClusterCnt first = .ok clusters.length
  cyclic : FatCyclic vol.drv first →
    fatCountChain vol vol.layout.totalClusterCnt first = .ok 0

section

variable {vol : Fat16Volume} {ctx : Fat16DrvContext} {first c next lookups current count : Nat}
  {clusters : List Nat}

/-! ## Lookups -/

theorem fatIsEndOfChain_ok (known : ctx.fsType ≠ .exfat) (c : Nat) :
    ∃ ends, fatIsEndOfChain ctx c = .ok ends := by
  unfold fatIsEndOfChain
  cases type : ctx.fsType with
  | fat12 => exact ⟨_, rfl⟩
  | fat16 => exact ⟨_, rfl⟩
  | fat32 => exact ⟨_, rfl⟩
  | exfat => contradiction

theorem known_of_answer {ends : Bool} (answer : fatIsEndOfChain ctx c = .ok ends) :
    ctx.fsType ≠ .exfat := by
  intro type
  rw [fatIsEndOfChain, type] at answer
  contradiction

theorem lookup_of_unmarked (unmarked : fatIsEndOfChain ctx c = .ok false) :
    ∃ next, fat16FatLookup ctx c = .ok (.ok next) := by
  have known := known_of_answer unmarked
  unfold fat16FatLookup
  rw [unmarked]
  cases type : ctx.fsType with
  | fat12 => exact ⟨_, rfl⟩
  | fat16 => exact ⟨_, rfl⟩
  | fat32 => exact ⟨_, rfl⟩
  | exfat => contradiction

theorem unmarked_of_lookup (lookup : fat16FatLookup ctx c = .ok (.ok next)) :
    fatIsEndOfChain ctx c = .ok false := by
  cases answer : fatIsEndOfChain ctx c with
  | error halt => simp [fat16FatLookup, answer, bind, Except.bind] at lookup
  | ok ends =>
    cases ends with
    | false => rfl
    | true => simp [fat16FatLookup, answer, bind, Except.bind] at lookup

theorem fatNext_eq_some :
    fatNext ctx c = some next ↔
      fat16FatLookup ctx c = .ok (.ok next) ∧ fatIsEndOfChain ctx next ≠ .ok true := by
  unfold fatNext
  split
  · rename_i found lookup
    rw [lookup]
    by_cases marked : fatIsEndOfChain ctx found = .ok true
    · rw [if_pos marked]
      constructor
      · intro none
        contradiction
      · intro ⟨same, unmarked⟩
        injection same with same
        injection same with same
        exact absurd (same ▸ marked) unmarked
    · rw [if_neg marked]
      constructor
      · intro same
        obtain rfl := Option.some.inj same
        exact ⟨rfl, marked⟩
      · intro ⟨same, _⟩
        injection same with same
        injection same with same
        rw [same]
  · rename_i other
    constructor
    · intro none
      contradiction
    · intro ⟨lookup, _⟩
      exact absurd lookup (other next)

/-- What the table holds for a cluster of a chain: the next cluster, or the mark. -/
theorem link_of_chain {rest : List Nat} (unmarked : fatIsEndOfChain ctx c = .ok false)
    (tail : Chain (fatNext ctx) (fatNext ctx c) rest) :
    ∃ next, fat16FatLookup ctx c = .ok (.ok next) ∧
      (rest = [] ∧ fatIsEndOfChain ctx next = .ok true ∨
        rest ≠ [] ∧ Chain (fatNext ctx) (some next) rest) := by
  obtain ⟨next, lookup⟩ := lookup_of_unmarked unmarked
  refine ⟨next, lookup, ?_⟩
  cases rest with
  | nil =>
    left
    have none := tail.head_nil
    refine ⟨rfl, ?_⟩
    by_contra notMarked
    rw [fatNext_eq_some.mpr ⟨lookup, notMarked⟩] at none
    contradiction
  | cons d rest =>
    right
    have some := tail.head_cons.1
    obtain ⟨lookup', -⟩ := fatNext_eq_some.mp some
    rw [lookup] at lookup'
    injection lookup' with same
    injection same with same
    rw [some] at tail
    rw [same]
    exact ⟨List.cons_ne_nil d rest, tail⟩

theorem fatCountChainLoop_next (unmarked : fatIsEndOfChain vol.drv current = .ok false)
    (lookup : fat16FatLookup vol.drv current = .ok (.ok next)) :
    fatCountChainLoop vol (lookups + 1) current count =
      if u32 (count + 1) = vol.layout.totalClusterCnt then .ok 0
      else fatCountChainLoop vol lookups next (u32 (count + 1)) := by
  rw [fatCountChainLoop, unmarked]
  simp only [bind, Except.bind, lookup, Bool.false_eq_true, if_false]

theorem fatCountChainLoop_end (marked : fatIsEndOfChain vol.drv current = .ok true) :
    fatCountChainLoop vol lookups current count = .ok count := by
  unfold fatCountChainLoop
  rw [marked]
  rfl

/-! ## Every table -/

/-- There are not more lookups than clusters. -/
theorem fatCountChainLoop_ends (known : vol.layout.fsType ≠ .exfat)
    (left : count + lookups = vol.layout.totalClusterCnt) (more : 0 < lookups) :
    ∃ result, fatCountChainLoop vol lookups current count = .ok result := by
  induction lookups generalizing current count with
  | zero => contradiction
  | succ lookups inductionHypothesis =>
    obtain ⟨ends, answer⟩ := @fatIsEndOfChain_ok vol.drv known current
    cases ends with
    | true => exact ⟨count, fatCountChainLoop_end answer⟩
    | false =>
      obtain ⟨next, lookup⟩ := lookup_of_unmarked answer
      have small := vol.layout.totalClusterCnt_lt
      rw [fatCountChainLoop_next answer lookup, u32_of_lt (by omega)]
      by_cases last : count + 1 = vol.layout.totalClusterCnt
      · exact ⟨0, if_pos last⟩
      · rw [if_neg last]
        exact inductionHypothesis (by omega) (by omega)

/-! ## Chains that end -/

/-- A chain is counted to its end, unless the guard is there first. -/
theorem fatCountChainLoop_chain (linked : Chain (fatNext vol.drv) (some current) clusters)
    (unmarked : ∀ c ∈ clusters, fatIsEndOfChain vol.drv c = .ok false)
    (short : count + clusters.length ≤ vol.layout.totalClusterCnt)
    (enough : clusters.length ≤ lookups) :
    fatCountChainLoop vol lookups current count =
      if count + clusters.length = vol.layout.totalClusterCnt then .ok 0
      else .ok (count + clusters.length) := by
  induction clusters generalizing current count lookups with
  | nil => cases linked
  | cons c rest inductionHypothesis =>
    cases linked with
    | cons tail =>
      have here := unmarked c List.mem_cons_self
      have small := vol.layout.totalClusterCnt_lt
      rw [List.length_cons] at short enough ⊢
      obtain ⟨next, lookup, follows⟩ := link_of_chain here tail
      obtain ⟨lookups, rfl⟩ := Nat.exists_eq_add_of_lt (Nat.lt_of_lt_of_le (Nat.succ_pos _) enough)
      rw [Nat.zero_add, fatCountChainLoop_next here lookup, u32_of_lt (by omega)]
      cases follows with
      | inl last =>
        obtain ⟨rfl, marked⟩ := last
        rw [fatCountChainLoop_end marked, List.length_nil]
      | inr more =>
        obtain ⟨some, linked⟩ := more
        have positive := List.length_pos_iff.mpr some
        have notLast : count + 1 ≠ vol.layout.totalClusterCnt := by omega
        have order : count + 1 + rest.length = count + (rest.length + 1) := by omega
        rw [if_neg notLast, inductionHypothesis linked
          (fun x member => unmarked x (List.mem_cons_of_mem _ member)) (by omega) (by omega), order]

/-- Unless the volume has no more clusters than the chain, counting gives its length. -/
theorem fatCountChain_chain (chain : FatChain vol first clusters)
    (short : clusters.length ≤ vol.layout.totalClusterCnt) :
    fatCountChain vol vol.layout.totalClusterCnt first =
      if clusters.length = vol.layout.totalClusterCnt then .ok 0 else .ok clusters.length := by
  have positive : first ≠ 0 := by
    cases clusters with
    | nil => cases chain.linked
    | cons c rest =>
      have data := chain.data c List.mem_cons_self
      cases chain.linked with
      | cons tail => omega
  rw [fatCountChain, if_neg positive, fatCountChainLoop_chain chain.linked chain.unmarked
    (by omega) short, Nat.zero_add]

/-! ## Chains that do not end -/

/-- Behind a cluster that the links come back to, they go on for ever. -/
theorem FatCyclic.goes_on (cyclic : FatCyclic ctx first) (links : Nat) :
    (fatFollow ctx first links).isSome = true := by
  obtain ⟨i, j, order, same, some⟩ := cyclic
  -- what follows `i` follows `j`
  have shifted : ∀ k, fatFollow ctx first (i + k) = fatFollow ctx first (j + k) := by
    intro k
    induction k with
    | zero => exact same
    | succ k inductionHypothesis =>
      rw [← Nat.add_assoc, ← Nat.add_assoc, fatFollow, fatFollow, inductionHypothesis]
  have backwards : ∀ k l, k ≤ l → (fatFollow ctx first l).isSome = true →
      (fatFollow ctx first k).isSome = true := by
    intro k l below later
    induction l with
    | zero => rwa [Nat.le_zero.mp below]
    | succ l inductionHypothesis =>
      by_cases last : k = l + 1
      · rwa [last]
      · apply inductionHypothesis (by omega)
        rw [fatFollow] at later
        cases here : fatFollow ctx first l with
        | none =>
          rw [here] at later
          contradiction
        | some c => rfl
  -- each round of the cycle leads further
  have far : ∀ rounds, (fatFollow ctx first (i + rounds * (j - i))).isSome = true := by
    intro rounds
    induction rounds with
    | zero => rwa [Nat.zero_mul]
    | succ rounds inductionHypothesis =>
      have next := shifted (rounds * (j - i))
      have order' : i + (rounds + 1) * (j - i) = j + rounds * (j - i) := by
        rw [Nat.succ_mul]
        omega
      rwa [order', ← next]
  refine backwards links (i + links * (j - i)) ?_ (far links)
  have step : links ≤ links * (j - i) := Nat.le_mul_of_pos_right links (by omega)
  omega

theorem fatFollow_next (next : fatNext ctx first = some c) (links : Nat) :
    fatFollow ctx first (links + 1) = fatFollow ctx c links := by
  induction links with
  | zero => exact next
  | succ links inductionHypothesis => rw [fatFollow, inductionHypothesis, fatFollow]

/-- A chain without an end is found out by the guard. -/
theorem fatCountChainLoop_endless
    (endless : ∀ links, (fatFollow vol.drv current links).isSome = true)
    (left : count + lookups = vol.layout.totalClusterCnt) (more : 0 < lookups) :
    fatCountChainLoop vol lookups current count = .ok 0 := by
  induction lookups generalizing current count with
  | zero => contradiction
  | succ lookups inductionHypothesis =>
    obtain ⟨next, follows⟩ := Option.isSome_iff_exists.mp (endless 1)
    have follows : fatNext vol.drv current = some next := follows
    obtain ⟨lookup, -⟩ := fatNext_eq_some.mp follows
    have unmarked := unmarked_of_lookup lookup
    have small := vol.layout.totalClusterCnt_lt
    rw [fatCountChainLoop_next unmarked lookup, u32_of_lt (by omega)]
    by_cases last : count + 1 = vol.layout.totalClusterCnt
    · exact if_pos last
    · rw [if_neg last]
      refine inductionHypothesis (fun links => ?_) (by omega) (by omega)
      rw [← fatFollow_next follows]
      exact endless (links + 1)

end

/-- Counting is right from a cluster on if and only if no chain from there goes through as many
clusters as the volume has. -/
theorem countsChain_iff {vol : Fat16Volume} (some : 1 ≤ vol.layout.totalClusterCnt) (first : Nat) :
    CountsChain vol first ↔
      ¬ ∃ clusters, FatChain vol first clusters ∧
        clusters.length = vol.layout.totalClusterCnt := by
  constructor
  · intro counts ⟨clusters, chain, all⟩
    have right := counts.counts clusters chain (Nat.le_of_eq all)
    rw [fatCountChain_chain chain (Nat.le_of_eq all), if_pos all] at right
    injection right with zero
    omega
  · intro notAll
    constructor
    case ends =>
      intro known
      unfold fatCountChain
      split
      · exact ⟨0, rfl⟩
      · exact fatCountChainLoop_ends known (Nat.zero_add _) some
    case counts =>
      intro clusters chain short
      rw [fatCountChain_chain chain short]
      exact if_neg fun all => notAll ⟨clusters, chain, all⟩
    case cyclic =>
      intro cyclic
      unfold fatCountChain
      split
      · rfl
      · exact fatCountChainLoop_endless cyclic.goes_on (Nat.zero_add _) some

/-- A volume of so many clusters, each of which is the last of its chain. -/
def lastClusters (count : Nat) (small : count < 2 ^ 32) : Fat16Volume where
  layout := { unreadLayout with totalClusterCnt := count, totalClusterCnt_lt := small }
  fatCache := fun _ => 0xFF
  storageDrv := fun _ _ => .error .eFail

theorem lastClusters_chain {count : Nat} (small : count < 2 ^ 32) (some : 1 ≤ count) :
    FatChain (lastClusters count small) 2 [2] where
  linked := by
    have lookup : fat16FatLookup (lastClusters count small).drv 2 = .ok (.ok 0xFFF) := by
      simp [fat16FatLookup, fatIsEndOfChain, lastClusters, Fat16Volume.drv, unreadLayout, load16,
        bind, Except.bind]
    have marked : fatIsEndOfChain (lastClusters count small).drv 0xFFF = .ok true := rfl
    have ends : fatNext (lastClusters count small).drv 2 = none := by
      simp only [fatNext, lookup, marked, if_true]
    apply Chain.cons
    rw [ends]
    exact .nil
  unmarked := by simp [lastClusters, Fat16Volume.drv, unreadLayout, fatIsEndOfChain]
  data := by
    intro c member
    obtain rfl := List.mem_singleton.mp member
    exact ⟨Nat.le_refl 2, Nat.lt_add_of_pos_left some⟩
  distinct := List.nodup_singleton 2

/-- A chain of one cluster on a volume of two. -/
theorem countsChain_two : CountsChain (lastClusters 2 (by decide)) 2 :=
  (countsChain_iff (by decide) 2).mpr fun ⟨clusters, chain, all⟩ => by
    have same := chain.linked.unique (lastClusters_chain _ (by decide)).linked
    rw [same] at all
    contradiction

/-- The volume of one cluster: the only chain there is counts for none. -/
theorem countsChain_not : ¬ ∀ (vol : Fat16Volume) (first : Nat),
    1 ≤ vol.layout.totalClusterCnt → CountsChain vol first := by
  intro counts
  have chain := @lastClusters_chain 1 (by decide) (Nat.le_refl 1)
  have right := (counts (lastClusters 1 (by decide)) 2 (Nat.le_refl 1)).counts [2] chain
    (Nat.le_refl 1)
  rw [fatCountChain_chain chain (Nat.le_refl 1)] at right
  contradiction

end Antonix.Drivers
