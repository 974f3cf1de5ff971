import Mathlib.Data.Set.Card
import Mathlib.Data.Set.Lattice
import WordStm.Proofs.Keeping

/-!
# Which segments are live

An allocation takes effect at once and is undone when its transaction aborts; a
free takes effect when its transaction commits and is forgotten when it aborts.
What every transaction of a region did therefore says which segments are live,
however the steps of the transactions alternate.

Transactions are told apart by their place in the list of all that ever began, and
not by their numbers, which come round after 2^64 of them.
-/

namespace WordStm

theorem SegmentId.toFin_injective : Function.Injective fun id : SegmentId => id.raw.toFin := by
  intro left right same
  exact SegmentId.index_inj (congrArg Fin.val same)

/-- There are finitely many ids. -/
instance : Finite SegmentId := Finite.of_injective _ SegmentId.toFin_injective

namespace SegmentTable

variable {digest : Digest} {machine now : Machine digest} {table larger : SegmentTable}
  {id : SegmentId} {version : Version}

/-- The ids of the segments that are live. -/
def liveIds (table : SegmentTable) : Set SegmentId := {id | table.isLive id = true}

theorem mem_liveIds : id ∈ table.liveIds ↔ table.isLive id = true := Iff.rfl

/-- The counter of live segments is right. -/
def Counted (table : SegmentTable) : Prop := table.live = table.liveIds.ncard

theorem liveIds_retire (table : SegmentTable) (id : SegmentId) (version : Version) :
    (table.retire id version).2.liveIds = table.liveIds \ {id} := by
  ext other
  have known := isLive_retireAll table [id] version other
  rw [List.mem_singleton] at known
  exact known

theorem Counted.retire (counted : table.Counted) (id : SegmentId) (version : Version) :
    (table.retire id version).2.Counted := by
  rw [Counted, liveIds_retire]
  by_cases live : id ∈ table.liveIds
  · rw [Set.ncard_sdiff_singleton_of_mem live, ← counted]
    rcases isLive_iff.mp live with ⟨segment, found⟩
    rw [slot?] at found
    simp only [SegmentTable.retire, found]
  · rw [Set.sdiff_singleton_eq_self live, ← counted, SegmentTable.retire]
    split
    next segment found => exact absurd (isLive_iff.mpr ⟨segment, found⟩) live
    next => rfl

theorem Counted.retireAll (counted : table.Counted) (ids : List SegmentId) (version : Version) :
    (table.retireAll ids version).Counted := by
  induction ids generalizing table with
  | nil => exact counted
  | cons id rest ih => exact ih (counted.retire id version)

/-- Registering a segment makes its id live. -/
theorem isLive_register {segment : Handle} {size : UInt64}
    (registered : table.register machine segment size = .ok (id, larger)) (other : SegmentId) :
    larger.isLive other = true ↔ other = id ∨ table.isLive other = true := by
  rw [isLive_iff, isLive_iff, slot?_register registered]
  split
  next same => simp [same]
  next differ => simp [differ]

/-- An id that is live was assigned. -/
theorem index_lt_of_isLive (live : table.isLive id = true) : id.index < table.slots.size := by
  rcases isLive_iff.mp live with ⟨segment, found⟩
  exact (Array.getElem?_eq_some_iff.mp found).1

theorem Counted.register {segment : Handle} {size : UInt64} (counted : table.Counted)
    (registered : table.register machine segment size = .ok (id, larger)) : larger.Counted := by
  rcases register_ok registered with ⟨next, _, _, live⟩
  have fresh : id ∉ table.liveIds := by
    intro member
    have inside := index_lt_of_isLive member
    omega
  have grown : larger.liveIds = insert id table.liveIds := by
    ext other
    exact isLive_register registered other
  rw [Counted, live, counted, grown, Set.ncard_insert_of_notMem fresh]

/-- Not more segments are live than a 64-bit counter can say. -/
theorem Counted.toNat_live (counted : table.Counted) :
    (UInt64.ofNat table.live).toNat = table.liveIds.ncard := by
  have few : table.liveIds.ncard ≤ 2 ^ 32 := by
    refine (Set.ncard_le_card _).trans ?_
    have most := Nat.card_le_card_of_injective _ SegmentId.toFin_injective
    rwa [Nat.card_fin] at most
  rw [counted, UInt64.toNat_ofNat', Nat.mod_eq_of_lt (by omega)]

end SegmentTable

/-- How far a transaction has come. -/
inductive Stage where
  /-- It began and has not ended, and counts as active even if it can no longer commit. -/
  | running (transaction : Transaction)
  | committed
  | aborted

/-- A transaction with all that it did since it began. -/
structure Life where
  stage : Stage
  deeds : List Deed

namespace Life

/-- What a transaction allocated, unless it aborted. -/
def held (life : Life) : Set SegmentId :=
  {id | life.stage ≠ .aborted ∧ life.deeds.any (·.allocates id) = true}

/-- What a transaction freed, once it committed. -/
def released (life : Life) : Set SegmentId :=
  {id | life.stage = .committed ∧ life.deeds.any (·.frees id) = true}

/-- The transaction of a life that has not ended. -/
def transaction? (life : Life) : Option Transaction :=
  match life.stage with
  | .running transaction => some transaction
  | .committed | .aborted => none

variable (transaction : Transaction) (deeds : List Deed) (id : SegmentId)

@[simp] theorem mem_held_running :
    id ∈ held ⟨.running transaction, deeds⟩ ↔ deeds.any (·.allocates id) = true := by
  simp [held]

@[simp] theorem released_running : released ⟨.running transaction, deeds⟩ = ∅ := by
  simp [released]

@[simp] theorem mem_held_committed :
    id ∈ held ⟨.committed, deeds⟩ ↔ deeds.any (·.allocates id) = true := by
  simp [held]

@[simp] theorem mem_released_committed :
    id ∈ released ⟨.committed, deeds⟩ ↔ deeds.any (·.frees id) = true := by
  simp [released]

@[simp] theorem held_aborted : held ⟨.aborted, deeds⟩ = ∅ := by
  simp [held]

@[simp] theorem released_aborted : released ⟨.aborted, deeds⟩ = ∅ := by
  simp [released]

end Life

namespace Region

/-- One step of a region, with all transactions that ever began on it.  Those that have not
ended take their steps in any order. -/
inductive Turn (machine : Machine digest) (region : Region) :
    List Life → Region → List Life → Prop where
  | began {lives : List Life} {after : Region} {mode : AccessMode} {transaction : Transaction}
      (begun : region.begin machine mode = .ok (after, .ok transaction)) :
      Turn machine region lives after (lives ++ [⟨.running transaction, []⟩])
  | refused {lives : List Life} {after : Region} {mode : AccessMode} {failure : Failure}
      (refused : region.begin machine mode = .ok (after, .error failure)) :
      Turn machine region lives after lives
  | succeeded {earlier later : List Life} {after : Region} {transaction moved : Transaction}
      {deeds : List Deed} {operation : Operation} {reply : Reply} (sized : operation.Sized)
      (performed : region.perform machine transaction operation =
        .ok (after, moved, .ok reply)) :
      Turn machine region (earlier ++ ⟨.running transaction, deeds⟩ :: later) after
        (earlier ++ ⟨.running moved, deeds ++ [⟨operation, reply⟩]⟩ :: later)
  | failed {earlier later : List Life} {after : Region} {transaction moved : Transaction}
      {deeds : List Deed} {operation : Operation} {failure : Failure} (sized : operation.Sized)
      (performed : region.perform machine transaction operation =
        .ok (after, moved, .error failure)) :
      Turn machine region (earlier ++ ⟨.running transaction, deeds⟩ :: later) after
        (earlier ++ ⟨.running moved, deeds⟩ :: later)
  | committed {earlier later : List Life} {after : Region} {transaction ended : Transaction}
      {deeds : List Deed} {version : Version}
      (settled : region.commit digest transaction = .ok (after, ended, .ok version)) :
      Turn machine region (earlier ++ ⟨.running transaction, deeds⟩ :: later) after
        (earlier ++ ⟨.committed, deeds⟩ :: later)
  | invalidated {earlier later : List Life} {after : Region} {transaction ended : Transaction}
      {deeds : List Deed} {failure : Failure}
      (settled : region.commit digest transaction = .ok (after, ended, .error failure)) :
      Turn machine region (earlier ++ ⟨.running transaction, deeds⟩ :: later) after
        (earlier ++ ⟨.aborted, deeds⟩ :: later)
  | dropped {earlier later : List Life} {transaction : Transaction} {deeds : List Deed}
      (reason : AbortReason) :
      Turn machine region (earlier ++ ⟨.running transaction, deeds⟩ :: later)
        (region.abandon transaction reason).1 (earlier ++ ⟨.aborted, deeds⟩ :: later)

/-- A region after any number of steps, with all transactions that ever began on it.  Each step
may find another machine. -/
inductive ReachedWith (digest : Digest) (config : RegionConfig) : Region → List Life → Prop where
  | created {machine : Machine digest} {region : Region}
      (created : create machine config = .ok (.ok region)) : ReachedWith digest config region []
  | turned {machine : Machine digest} {before after : Region} {lives next : List Life}
      (lived : ReachedWith digest config before lives)
      (turn : before.Turn machine lives after next) :
      ReachedWith digest config after next

/-- A region after any number of steps in none of which the clock came round. -/
inductive ReachedForward (digest : Digest) (config : RegionConfig) : Region → List Life → Prop where
  | created {machine : Machine digest} {region : Region}
      (created : create machine config = .ok (.ok region)) : ReachedForward digest config region []
  | turned {machine : Machine digest} {before after : Region} {lives next : List Life}
      (risen : ReachedForward digest config before lives)
      (turn : before.Turn machine lives after next)
      (forward : before.coordinator.clock ≤ after.coordinator.clock) :
      ReachedForward digest config after next

theorem ReachedForward.reachedWith {digest : Digest} {config : RegionConfig} {region : Region}
    {lives : List Life} (risen : ReachedForward digest config region lives) :
    ReachedWith digest config region lives := by
  induction risen with
  | created created => exact .created created
  | turned _ turn _ lived => exact lived.turned turn

end Region

/-- The log of a transaction tells what it allocated and freed. -/
structure Transaction.Logs (digest : Digest) (deeds : List Deed) (transaction : Transaction) :
    Prop where
  sound : transaction.log.writes.Sound digest
  allocated : ∀ id, id ∈ transaction.log.allocated ↔ deeds.any (·.allocates id) = true
  freed : ∀ id, id ∈ transaction.log.freed ↔ deeds.any (·.frees id) = true

/-- What a region keeps account of. -/
structure Region.Accounts (digest : Digest) (region : Region) (lives : List Life) : Prop where
  counted : region.table.Counted
  initial : 2 ≤ region.table.slots.size
  logged : ∀ transaction deeds, ⟨.running transaction, deeds⟩ ∈ lives →
    transaction.Logs digest deeds
  /-- Only segments that were handed out are freed, and the initial one is not. -/
  freed : ∀ life ∈ lives, ∀ id, life.deeds.any (·.frees id) = true →
    id ≠ .first ∧ id.index < region.table.slots.size
  /-- No two allocations handed out the same id, and none the initial one. -/
  once : ∀ id, (lives.flatMap (·.deeds)).countP (·.allocates id) ≤
    if 2 ≤ id.index ∧ id.index < region.table.slots.size then 1 else 0
  live : ∀ id, region.table.isLive id = true ↔
    (id = .first ∨ ∃ life ∈ lives, id ∈ life.held) ∧ ∀ life ∈ lives, id ∉ life.released

namespace Transaction.Logs

variable {digest : Digest} {machine now : Machine digest} {region after : Region}
  {transaction moved : Transaction}
  {deeds : List Deed} {operation : Operation} {failure : Failure} {reply : Reply}

theorem begin {mode : AccessMode}
    (begun : region.begin machine mode = .ok (after, .ok transaction)) :
    transaction.Logs digest [] := by
  rcases (Region.begin_eq begun).2.2.2 transaction rfl with ⟨filter, rfl⟩
  exact ⟨WriteSet.sound_empty digest filter, fun id => by simp [TransactionLog.empty],
    fun id => by simp [TransactionLog.empty]⟩

/-- An operation that fails is not logged. -/
theorem failed (logs : transaction.Logs digest deeds)
    (effect : region.Effect machine transaction operation after moved (.error failure)) :
    moved.Logs digest deeds := by
  cases effect with
  | failed id allocated freed writes =>
      constructor
      · exact writes.sound
      · rw [allocated]
        exact logs.allocated
      · rw [freed]
        exact logs.freed
  | unlogged => exact logs

/-- An operation that succeeds is logged if it allocates or frees. -/
theorem succeeded (logs : transaction.Logs digest deeds)
    (effect : region.Effect machine transaction operation after moved (.ok reply)) :
    moved.Logs digest (deeds ++ [⟨operation, reply⟩]) := by
  cases effect with
  | read active located words =>
      have alike := Region.readWords_alike words
      constructor
      · exact alike.writes.sound logs.sound
      · simp [Deed.allocates, alike.allocated, logs.allocated]
      · simp [Deed.frees, alike.freed, logs.freed]
  | write active writable located sound =>
      constructor
      · exact sound
      · simp [Deed.allocates, withWrites, logs.allocated]
      · simp [Deed.frees, withWrites, logs.freed]
  | alloc =>
      constructor
      · exact logs.sound
      · intro id
        rw [TransactionLog.mem_withAlloc, logs.allocated]
        simp [Deed.allocates, Address.base]
      · simp [Deed.frees, TransactionLog.withAlloc, logs.freed]
  | free =>
      constructor
      · simpa using logs.sound
      · simp [Deed.allocates, logs.allocated]
      · intro id
        rw [TransactionLog.mem_withFree, logs.freed]
        simp [Deed.frees]

end Transaction.Logs

namespace Region

variable {digest : Digest} {machine now : Machine digest} {config : RegionConfig}
  {region before after : Region} {transaction moved : Transaction} {lives others rest : List Life}
  {deeds next : List Deed} {operation : Operation}

/-- Nobody gets to free the initial segment. -/
theorem ne_first_of_perform_free {target : Address} {reply : Reply}
    (performed : region.perform machine transaction (.free target) =
      .ok (after, moved, .ok reply)) : target.segment ≠ .first := by
  intro initial
  simp only [perform, free, tryFree, if_pos initial, pure_eq_ok, Prod.mk.injEq] at performed
  rcases performed with ⟨_, _, impossible⟩
  split at impossible <;> cases impossible

namespace Accounts

/-- The order in which transactions are listed does not matter. -/
theorem perm (accounts : region.Accounts digest lives) (same : lives.Perm others) :
    region.Accounts digest others where
  counted := accounts.counted
  initial := accounts.initial
  logged := fun transaction deeds member =>
    accounts.logged transaction deeds (same.mem_iff.mpr member)
  freed := fun life member => accounts.freed life (same.mem_iff.mpr member)
  once := fun id => Nat.le_trans (Nat.le_of_eq ((same.flatMap_right _).countP_eq _).symm)
    (accounts.once id)
  live := by simpa only [same.mem_iff] using accounts.live

/-- A new region accounts for its initial segment. -/
theorem create (created : create machine config = .ok (.ok region)) :
    region.Accounts digest [] := by
  rcases create_ok created with ⟨_, _, _, _, table, id, _, slots, registered, _⟩
  rcases SegmentTable.register_ok registered with ⟨index, _, larger, _⟩
  have none : ∀ other, table.isLive other ≠ true := by
    intro other live
    have inside := SegmentTable.index_lt_of_isLive live
    rcases SegmentTable.isLive_iff.mp live with ⟨segment, found⟩
    rw [slots] at inside
    rw [SegmentTable.slot?, slots, Nat.lt_one_iff.mp inside] at found
    cases found
  have size : region.table.slots.size = 2 := by
    rw [larger, slots]
    rfl
  have first : id = .first := by
    apply SegmentId.index_inj
    rw [index, slots]
    rfl
  subst first
  have only : ∀ other, region.table.isLive other = true ↔ other = .first := by
    intro other
    rw [SegmentTable.isLive_register registered]
    simp [none]
  constructor
  · have alone : region.table.liveIds = {.first} := Set.ext only
    rw [SegmentTable.Counted, alone, Set.ncard_singleton, (create_fresh created).1]
  · exact Nat.le_of_eq size.symm
  · intro _ _ impossible
    cases impossible
  · intro _ impossible
    cases impossible
  · intro other
    exact Nat.zero_le _
  · simpa using only

/-- Only the table matters. -/
theorem of_table (accounts : before.Accounts digest lives) (same : after.table = before.table) :
    after.Accounts digest lives := by
  rcases accounts with ⟨counted, initial, logged, freed, once, live⟩
  rw [← same] at counted initial freed once live
  exact ⟨counted, initial, logged, freed, once, live⟩

/-- A transaction begins. -/
theorem enter (accounts : region.Accounts digest lives) (logs : transaction.Logs digest []) :
    region.Accounts digest (⟨.running transaction, []⟩ :: lives) where
  counted := accounts.counted
  initial := accounts.initial
  logged := by
    intro other deeds member
    rcases List.mem_cons.mp member with here | there
    · cases here
      exact logs
    · exact accounts.logged other deeds there
  freed := by
    intro life member id frees
    rcases List.mem_cons.mp member with rfl | there
    · cases frees
    · exact accounts.freed life there id frees
  once := accounts.once
  live := by
    intro id
    rw [accounts.live]
    simp

/-- The first of the transactions takes a step. -/
theorem replace {old new : Life} (accounts : before.Accounts digest (old :: rest))
    (counted : after.table.Counted)
    (grown : before.table.slots.size ≤ after.table.slots.size)
    (logged : ∀ transaction, new.stage = .running transaction →
      transaction.Logs digest new.deeds)
    (freed : ∀ id, new.deeds.any (·.frees id) = true →
      id ≠ .first ∧ id.index < after.table.slots.size)
    (once : ∀ id, new.deeds.countP (·.allocates id) ≤ old.deeds.countP (·.allocates id) +
      if before.table.slots.size ≤ id.index ∧ id.index < after.table.slots.size then 1 else 0)
    (live : ∀ id, after.table.isLive id = true ↔
      (id = .first ∨ id ∈ new.held ∨ ∃ life ∈ rest, id ∈ life.held) ∧
        id ∉ new.released ∧ ∀ life ∈ rest, id ∉ life.released) :
    after.Accounts digest (new :: rest) where
  counted := counted
  initial := accounts.initial.trans grown
  logged := by
    intro transaction deeds member
    rcases List.mem_cons.mp member with here | there
    · subst here
      exact logged transaction rfl
    · exact accounts.logged transaction deeds (List.mem_cons_of_mem _ there)
  freed := by
    intro life member id frees
    rcases List.mem_cons.mp member with rfl | there
    · exact freed id frees
    · rcases accounts.freed life (List.mem_cons_of_mem _ there) id frees with ⟨other, inside⟩
      exact ⟨other, Nat.lt_of_lt_of_le inside grown⟩
  once := by
    intro id
    have before := accounts.once id
    have initial := accounts.initial
    have more := once id
    rw [List.flatMap_cons, List.countP_append] at before ⊢
    split at before <;> split at more <;> split <;> omega
  live := by simpa only [List.mem_cons, exists_eq_or_imp, forall_eq_or_imp] using live

/-- Which ids are live, told apart by the first of the transactions and the others. -/
theorem live_cons {life : Life} (accounts : region.Accounts digest (life :: rest))
    (id : SegmentId) : region.table.isLive id = true ↔
      (id = .first ∨ id ∈ life.held ∨ ∃ other ∈ rest, id ∈ other.held) ∧
        id ∉ life.released ∧ ∀ other ∈ rest, id ∉ other.released := by
  simpa only [List.mem_cons, exists_eq_or_imp, forall_eq_or_imp] using accounts.live id

/-- What a transaction allocated was handed out behind the initial segment. -/
theorem two_le_index {life : Life} {id : SegmentId} (accounts : region.Accounts digest lives)
    (member : life ∈ lives) (allocates : life.deeds.any (·.allocates id) = true) :
    2 ≤ id.index := by
  rcases List.any_eq_true.mp allocates with ⟨deed, done, allocated⟩
  have some : 0 < (lives.flatMap (·.deeds)).countP (·.allocates id) :=
    List.countP_pos_iff.mpr ⟨deed, List.mem_flatMap.mpr ⟨life, member, done⟩, allocated⟩
  have once := accounts.once id
  split at once <;> omega

/-- What a transaction allocated was handed out once. -/
theorem countP_eq_one {life : Life} {id : SegmentId} (accounts : region.Accounts digest lives)
    (member : life ∈ lives) (allocates : life.deeds.any (·.allocates id) = true) :
    (lives.flatMap (·.deeds)).countP (·.allocates id) = 1 := by
  rcases List.any_eq_true.mp allocates with ⟨deed, done, allocated⟩
  have some : 0 < (lives.flatMap (·.deeds)).countP (·.allocates id) :=
    List.countP_pos_iff.mpr ⟨deed, List.mem_flatMap.mpr ⟨life, member, done⟩, allocated⟩
  have once := accounts.once id
  split at once <;> omega

/-- What one transaction allocated no other did. -/
theorem apart {life other : Life} {id : SegmentId}
    (accounts : region.Accounts digest (life :: rest)) (member : other ∈ rest)
    (allocates : life.deeds.any (·.allocates id) = true) :
    ¬ other.deeds.any (·.allocates id) = true := by
  intro also
  have total := accounts.once id
  rw [List.flatMap_cons, List.countP_append] at total
  have own : 0 < life.deeds.countP (·.allocates id) := by
    rwa [List.countP_pos_iff, ← List.any_eq_true]
  rcases List.any_eq_true.mp also with ⟨deed, done, allocated⟩
  have theirs : 0 < (rest.flatMap (·.deeds)).countP (·.allocates id) :=
    List.countP_pos_iff.mpr ⟨deed, List.mem_flatMap.mpr ⟨other, member, done⟩, allocated⟩
  split at total <;> omega

/-- A transaction moves on without an allocation. -/
theorem advance (accounts : before.Accounts digest (⟨.running transaction, deeds⟩ :: rest))
    (same : after.table = before.table) (logs : moved.Logs digest next)
    (allocated : ∀ id, next.countP (·.allocates id) = deeds.countP (·.allocates id))
    (freed : ∀ id, next.any (·.frees id) = true →
      id ≠ .first ∧ id.index < before.table.slots.size) :
    after.Accounts digest (⟨.running moved, next⟩ :: rest) := by
  apply accounts.replace
  · rw [same]
    exact accounts.counted
  · rw [same]
  · intro _ running
    cases running
    exact logs
  · rw [same]
    exact freed
  · intro id
    rw [allocated]
    exact Nat.le_add_right _ _
  · intro id
    have alike : next.any (·.allocates id) = deeds.any (·.allocates id) := by
      rw [Bool.eq_iff_iff, List.any_eq_true, List.any_eq_true, ← List.countP_pos_iff,
        ← List.countP_pos_iff, allocated]
    rw [same, accounts.live_cons, Life.mem_held_running, Life.mem_held_running, alike,
      Life.released_running, Life.released_running]

/-- A transaction allocates. -/
theorem alloc {segment : Handle} {size : UInt64} {id : SegmentId}
    (accounts : before.Accounts digest (⟨.running transaction, deeds⟩ :: rest))
    (registered : before.table.register machine segment size = .ok (id, after.table))
    (logs : moved.Logs digest (deeds ++ [⟨.alloc size, .address (.base id)⟩])) :
    after.Accounts digest
      (⟨.running moved, deeds ++ [⟨.alloc size, .address (.base id)⟩]⟩ :: rest) := by
  rcases SegmentTable.register_ok registered with ⟨index, _, slots, _⟩
  have grown : after.table.slots.size = before.table.slots.size + 1 := by
    rw [slots, Array.size_push]
  have allocates : ∀ other,
      (Deed.mk (.alloc size) (.address (.base id))).allocates other = decide (other = id) := by
    intro other
    rw [Bool.eq_iff_iff, Deed.allocates, beq_iff_eq, decide_eq_true_eq]
    exact eq_comm
  apply accounts.replace
  · exact accounts.counted.register registered
  · omega
  · intro _ running
    cases running
    exact logs
  · intro other frees
    rw [List.any_append, Bool.or_eq_true] at frees
    rcases frees with earlier | impossible
    · rcases accounts.freed _ List.mem_cons_self other earlier with ⟨apart, inside⟩
      exact ⟨apart, by omega⟩
    · cases impossible
  · intro other
    have here : before.table.slots.size ≤ other.index ∧ other.index < after.table.slots.size ↔
        other = id := by
      constructor
      · intro within
        exact SegmentId.index_inj (by omega)
      · rintro rfl
        omega
    simp [List.countP_append, allocates, here]
  · intro other
    -- nobody can have freed an id that is handed out only now
    have unheard : other = id → ∀ life ∈ rest, other ∉ life.released := by
      rintro rfl life member ⟨_, frees⟩
      have inside := (accounts.freed life (List.mem_cons_of_mem _ member) _ frees).2
      omega
    rw [SegmentTable.isLive_register registered, accounts.live_cons]
    simp only [Life.mem_held_running, Life.released_running, List.any_append, List.any_cons,
      List.any_nil, allocates, Bool.or_false, Bool.or_eq_true, decide_eq_true_eq]
    tauto

/-- An id is used up for a segment that there is no room to log. -/
theorem unlogged {segment : Handle} {size : UInt64} {id : SegmentId} {version : Version}
    {larger : SegmentTable} {memory : Memory}
    (accounts : before.Accounts digest (⟨.running transaction, deeds⟩ :: rest))
    (registered : before.table.register machine segment size = .ok (id, larger))
    (logs : transaction.Logs digest deeds) :
    { before with memory, table := (larger.retire id version).2 }.Accounts digest
      (⟨.running transaction, deeds⟩ :: rest) := by
  rcases SegmentTable.register_ok registered with ⟨index, _, slots, _⟩
  have grown : before.table.slots.size ≤ (larger.retire id version).2.slots.size := by
    rw [SegmentTable.size_retire, slots, Array.size_push]
    exact Nat.le_succ _
  apply accounts.replace
  · exact (accounts.counted.register registered).retire id version
  · exact grown
  · intro _ running
    cases running
    exact logs
  · intro other frees
    rcases accounts.freed _ List.mem_cons_self other frees with ⟨apart, inside⟩
    exact ⟨apart, Nat.lt_of_lt_of_le inside grown⟩
  · exact fun other => Nat.le_add_right _ _
  · intro other
    have same : (larger.retire id version).2.isLive other = true ↔
        before.table.isLive other = true := by
      rw [← SegmentTable.mem_liveIds, SegmentTable.liveIds_retire, Set.mem_sdiff,
        SegmentTable.mem_liveIds, SegmentTable.isLive_register registered, Set.mem_singleton_iff]
      constructor
      · rintro ⟨rfl | live, apart⟩
        · exact absurd rfl apart
        · exact live
      · intro live
        refine ⟨.inr live, ?_⟩
        rintro rfl
        have inside := SegmentTable.index_lt_of_isLive live
        omega
    exact same.trans (accounts.live_cons other)

/-- A transaction ends, and some segments are retired with it. -/
theorem finish {stage : Stage} {ids : List SegmentId} {version : Version}
    (accounts : before.Accounts digest (⟨.running transaction, deeds⟩ :: rest))
    (retired : after.table = before.table.retireAll ids version)
    (ends : ∀ transaction, stage ≠ .running transaction)
    (live : ∀ id, before.table.isLive id = true ∧ id ∉ ids ↔
      (id = .first ∨ id ∈ (Life.mk stage deeds).held ∨ ∃ life ∈ rest, id ∈ life.held) ∧
        id ∉ (Life.mk stage deeds).released ∧ ∀ life ∈ rest, id ∉ life.released) :
    after.Accounts digest (⟨stage, deeds⟩ :: rest) := by
  have size : after.table.slots.size = before.table.slots.size := by
    rw [retired, SegmentTable.size_retireAll]
  apply accounts.replace
  · rw [retired]
    exact accounts.counted.retireAll _ _
  · rw [size]
  · intro other running
    exact absurd running (ends other)
  · rw [size]
    exact accounts.freed ⟨.running transaction, deeds⟩ List.mem_cons_self
  · exact fun id => Nat.le_add_right _ _
  · intro id
    rw [retired, SegmentTable.isLive_retireAll]
    exact live id

/-- A transaction that commits lets go of what it freed. -/
theorem commit {version : Version}
    (accounts : before.Accounts digest (⟨.running transaction, deeds⟩ :: rest))
    (retired : after.table = before.table.retireAll transaction.log.freed.toList version) :
    after.Accounts digest (⟨.committed, deeds⟩ :: rest) := by
  apply accounts.finish retired
  · intro _ impossible
    cases impossible
  · intro id
    have logs := accounts.logged transaction deeds List.mem_cons_self
    rw [accounts.live_cons, Array.mem_toList_iff, logs.freed, Life.mem_held_running,
      Life.released_running, Life.mem_held_committed, Life.mem_released_committed]
    simp only [Set.mem_empty_iff_false, not_false_eq_true, true_and]
    rw [and_assoc, and_comm (a := ∀ life ∈ rest, id ∉ life.released)]

/-- A transaction that aborts lets go of what it allocated. -/
theorem abort {version : Version}
    (accounts : before.Accounts digest (⟨.running transaction, deeds⟩ :: rest))
    (retired : after.table = before.table.retireAll transaction.log.allocated.toList version) :
    after.Accounts digest (⟨.aborted, deeds⟩ :: rest) := by
  apply accounts.finish retired
  · intro _ impossible
    cases impossible
  · intro id
    have logs := accounts.logged transaction deeds List.mem_cons_self
    rw [accounts.live_cons, Array.mem_toList_iff, logs.allocated, Life.mem_held_running,
      Life.released_running, Life.held_aborted, Life.released_aborted]
    constructor
    · rintro ⟨⟨held, kept⟩, other⟩
      exact ⟨held.imp_right fun known => .inr (known.resolve_left other), kept⟩
    · rintro ⟨held, kept⟩
      -- no other transaction allocated the same segment, so nothing else is lost
      refine ⟨⟨held.imp_right fun known => .inr (known.resolve_left fun impossible => impossible),
        fun impossible => impossible, kept.2⟩, ?_⟩
      intro allocates
      rcases held with rfl | impossible | ⟨life, member, _, also⟩
      · exact absurd (accounts.two_le_index List.mem_cons_self allocates) (by decide)
      · exact impossible
      · exact accounts.apart member allocates also

/-- A transaction whose operation failed is where it was. -/
theorem failed {failure : Failure}
    (accounts : before.Accounts digest (⟨.running transaction, deeds⟩ :: rest))
    (effect : before.Effect machine transaction operation after moved (.error failure)) :
    after.Accounts digest (⟨.running moved, deeds⟩ :: rest) := by
  have logs := (accounts.logged transaction deeds List.mem_cons_self).failed effect
  cases effect with
  | failed => exact accounts.advance rfl logs (fun _ => rfl) (accounts.freed _ List.mem_cons_self)
  | unlogged active writable checked created registered => exact accounts.unlogged registered logs

/-- A transaction whose operation succeeded has done one thing more. -/
theorem succeeded {reply : Reply}
    (accounts : before.Accounts digest (⟨.running transaction, deeds⟩ :: rest))
    (sized : operation.Sized)
    (performed : before.perform machine transaction operation = .ok (after, moved, .ok reply)) :
    after.Accounts digest (⟨.running moved, deeds ++ [⟨operation, reply⟩]⟩ :: rest) := by
  have logged := accounts.logged transaction deeds List.mem_cons_self
  have effect := perform_effect sized logged.sound performed
  have logs := logged.succeeded effect
  have known := accounts.freed _ List.mem_cons_self
  cases effect with
  | read | write =>
      apply accounts.advance rfl logs
      · simp [List.countP_append, Deed.allocates]
      · simpa [Deed.frees] using known
  | alloc active writable checked created registered => exact accounts.alloc registered logs
  | @free target segment active writable live =>
      apply accounts.advance rfl logs
      · simp [List.countP_append, Deed.allocates]
      · intro id frees
        rw [List.any_append, Bool.or_eq_true] at frees
        rcases frees with earlier | now
        · exact known id earlier
        · have same : target.segment = id := by simpa [Deed.frees] using now
          subst same
          have inside := SegmentTable.index_lt_of_isLive (SegmentTable.isLive_iff.mpr ⟨_, live⟩)
          exact ⟨ne_first_of_perform_free performed, inside⟩

/-- Every step keeps the accounts. -/
theorem turn (accounts : before.Accounts digest lives)
    (turn : before.Turn machine lives after others) : after.Accounts digest others := by
  -- the transaction whose turn it is comes first, then goes back to its place
  cases turn with
  | began begun =>
      have entered := (accounts.of_table (begin_eq begun).2.1).enter (.begin begun)
      exact entered.perm (List.perm_append_singleton _ _).symm
  | refused refused => exact accounts.of_table (begin_eq refused).2.1
  | succeeded sized performed =>
      exact ((accounts.perm List.perm_middle).succeeded sized performed).perm
        List.perm_middle.symm
  | failed sized performed =>
      have first := accounts.perm List.perm_middle
      have sound := (first.logged _ _ List.mem_cons_self).sound
      exact (first.failed (perform_effect sized sound performed)).perm List.perm_middle.symm
  | committed settled =>
      have first := accounts.perm List.perm_middle
      have sound := (first.logged _ _ List.mem_cons_self).sound
      refine perm ?_ List.perm_middle.symm
      cases commit_settles settled with
      | quiet => exact first.commit rfl
      | published => exact first.commit rfl
  | invalidated settled =>
      have first := accounts.perm List.perm_middle
      have sound := (first.logged _ _ List.mem_cons_self).sound
      refine perm ?_ List.perm_middle.symm
      cases commit_settles settled with
      | failed => exact first.abort rfl
  | dropped reason =>
      refine perm ?_ List.perm_middle.symm
      exact (accounts.perm List.perm_middle).abort
        (congrArg Region.table (abandon_eq before _ reason))

end Accounts

/-- A region keeps its accounts whatever its transactions do. -/
theorem ReachedWith.accounts (lived : ReachedWith digest config region lives) :
    region.Accounts digest lives := by
  induction lived with
  | created created => exact .create created
  | turned _ turn accounts => exact accounts.turn turn

/-- Whatever transactions do, and in whichever order, what is live is the initial segment and
what was allocated by those that did not abort, without what was freed by those that
committed.  The metrics say how much that is.  An allocation returns the base of the segment
whose id is next, and no two return the same; an id that none returned is of no segment that is
live, but for the initial one. -/
theorem ReachedWith.segments_accounted (lived : ReachedWith digest config region lives) :
    region.table.liveIds =
      ({.first} ∪ ⋃ life ∈ lives, life.held) \ ⋃ life ∈ lives, life.released ∧
    region.metrics.liveSegments.toNat = region.table.liveIds.ncard ∧
    (∀ (machine : Machine digest) transaction deeds size after moved address,
      ⟨.running transaction, deeds⟩ ∈ lives →
      region.perform machine transaction (.alloc size) =
        .ok (after, moved, .ok (.address address)) →
      address.isBase = true ∧ address.segment.index = region.table.idsAssigned + 1 ∧
        after.table.idsAssigned = region.table.idsAssigned + 1) ∧
    (∀ id, (lives.flatMap (·.deeds)).countP (·.allocates id) ≤
      if 2 ≤ id.index ∧ id.index ≤ region.table.idsAssigned then 1 else 0) ∧
    (∀ id ∈ region.table.liveIds, id ≠ .first →
      (lives.flatMap (·.deeds)).countP (·.allocates id) = 1) ∧
    .sentinel ∉ region.table.liveIds ∧ .first ∈ region.table.liveIds := by
  have accounts := lived.accounts
  have assigned : region.table.slots.size = region.table.idsAssigned + 1 :=
    (Nat.succ_pred_eq_of_pos (Nat.lt_of_lt_of_le Nat.two_pos accounts.initial)).symm
  refine ⟨?_, accounts.counted.toNat_live, ?_, ?_, ?_, ?_, ?_⟩
  · ext id
    rw [SegmentTable.liveIds, Set.mem_ofPred_eq, accounts.live]
    simp only [Set.mem_sdiff, Set.mem_union, Set.mem_singleton_iff, Set.mem_iUnion₂,
      exists_prop, not_exists, not_and]
  · intro machine transaction deeds size after moved address running performed
    have sound := (accounts.logged transaction deeds running).sound
    have sized : (Operation.alloc size).Sized := trivial
    have effect := perform_effect sized sound performed
    cases effect with
    | alloc active writable checked created registered =>
        rcases SegmentTable.register_ok registered with ⟨index, _, slots, _⟩
        refine ⟨rfl, index.trans assigned, ?_⟩
        rw [SegmentTable.idsAssigned, slots, Array.size_push, assigned]
        rfl
  · intro id
    have once := accounts.once id
    rw [assigned] at once
    simpa only [Nat.lt_succ_iff] using once
  · intro id live apart
    rcases ((accounts.live id).mp live).1 with same | ⟨life, member, _, allocates⟩
    · exact absurd same apart
    · exact accounts.countP_eq_one member allocates
  · intro live
    rcases ((accounts.live _).mp live).1 with impossible | ⟨life, member, _, allocates⟩
    · cases impossible
    · exact absurd (accounts.two_le_index member allocates) (by decide)
  · apply (accounts.live .first).mpr
    refine ⟨.inl rfl, ?_⟩
    rintro life member ⟨_, frees⟩
    exact (accounts.freed life member _ frees).1 rfl

end Region

namespace Session

variable {digest : Digest} {machine now : Machine digest} {config : RegionConfig}
  {session after : Session}
  {actions : List Action} {answers : List Answer} {action : Action} {answer : Answer}

/-- The number of an open transaction was given out. -/
theorem Reached.mem_number_lt {transaction : Transaction}
    (reached : Reached machine config actions answers session)
    (member : transaction ∈ session.transactions) :
    transaction.id.raw.toNat < session.region.coordinator.nextId.toNat := by
  have known : (session.find? transaction.id).isSome = true := by
    rw [find?, List.find?_isSome]
    exact ⟨transaction, member, beq_self_eq_true _⟩
  rcases Option.isSome_iff_exists.mp known with ⟨_, found⟩
  exact reached.number_lt found

/-- Replacing a transaction leaves the numbers alone. -/
theorem ids_update (session : Session) (moved : Transaction) :
    (session.update moved).transactions.map (·.id) = session.transactions.map (·.id) := by
  rw [update, List.map_map]
  apply List.map_congr_left
  intro other _
  rw [Function.comp_apply]
  split
  next same => exact (beq_iff_eq.mp same).symm
  next => rfl

/-- No two open transactions have the same number. -/
theorem Reached.apart (reached : Reached machine config actions answers session) :
    (session.transactions.map (·.id)).Nodup := by
  apply reached.induction
    (motive := fun _ _ session => (session.transactions.map (·.id)).Nodup)
  · intro region _
    exact List.nodup_nil
  · intro actions answers session action answer after first short move apart
    cases move with
    | began begun =>
        rw [List.map_cons, List.nodup_cons]
        refine ⟨?_, apart⟩
        rcases (Region.begin_eq begun).2.2.2 _ rfl with ⟨_, rfl⟩
        intro taken
        rcases List.mem_map.mp taken with ⟨other, member, same⟩
        have below := first.mem_number_lt member
        rw [same] at below
        exact Nat.lt_irrefl _ below
    | refused | unknown => exact apart
    | performed =>
        rw [ids_update]
        exact apart
    | committed | dropped => exact apart.sublist (List.filter_sublist.map _)

section Opened

variable {transaction moved : Transaction} {others : List Transaction}
  (apart : (session.transactions.map (·.id)).Nodup)
  (listed : session.transactions.Perm (transaction :: others))

include apart listed

theorem others_apart : ∀ other ∈ others, other.id ≠ transaction.id := by
  have ids := (listed.map (·.id)).nodup_iff.mp apart
  rw [List.map_cons, List.nodup_cons] at ids
  intro other member same
  exact ids.1 (List.mem_map.mpr ⟨other, member, same⟩)

/-- A transaction that moves on takes its own place. -/
theorem perm_update (same : moved.id = transaction.id) :
    (session.update moved).transactions.Perm (moved :: others) := by
  have alone := others_apart apart listed
  refine (listed.map _).trans (List.Perm.of_eq ?_)
  rw [List.map_cons, if_pos (beq_iff_eq.mpr same.symm)]
  refine congrArg (moved :: ·) ((List.map_congr_left ?_).trans (List.map_id others))
  intro other member
  rw [same]
  exact if_neg fun equal => alone other member (beq_iff_eq.mp equal)

/-- A transaction that ends leaves the others. -/
theorem perm_close : (session.close transaction.id).transactions.Perm others := by
  have alone := others_apart apart listed
  refine (listed.filter _).trans (List.Perm.of_eq ?_)
  rw [List.filter_cons_of_neg (by simp), List.filter_eq_self]
  intro other member
  exact bne_iff_ne.mpr (alone other member)

end Opened

/-- The transactions that have not ended are those that are open. -/
def Lists (session : Session) (lives : List Life) : Prop :=
  session.transactions.Perm (lives.filterMap Life.transaction?)

namespace Lists

variable {earlier later lives : List Life} {transaction : Transaction} {deeds : List Deed}

/-- A life is put among others. -/
theorem perm_middle (life : Life) (earlier later : List Life) :
    ((earlier ++ life :: later).filterMap Life.transaction?).Perm
      (life.transaction?.toList ++ (earlier ++ later).filterMap Life.transaction?) := by
  refine (List.perm_middle.filterMap _).trans (List.Perm.of_eq ?_)
  cases known : life.transaction? with
  | none => rw [List.filterMap_cons_none known]; rfl
  | some => rw [List.filterMap_cons_some known]; rfl

/-- An open transaction is the one of some life. -/
theorem exists_life {id : TransactionId} (listed : session.Lists lives)
    (found : session.find? id = some transaction) :
    ∃ earlier later deeds, lives = earlier ++ ⟨.running transaction, deeds⟩ :: later := by
  have member := listed.mem_iff.mp (List.mem_of_find?_eq_some found)
  rcases List.mem_filterMap.mp member with ⟨⟨stage, deeds⟩, living, known⟩
  rcases List.append_of_mem living with ⟨earlier, later, rfl⟩
  cases stage with
  | running =>
      cases known
      exact ⟨earlier, later, deeds, rfl⟩
  | committed | aborted => cases known

theorem running {id : TransactionId} (listed : session.Lists lives)
    (found : session.find? id = some transaction) :
    ∃ deeds, ⟨.running transaction, deeds⟩ ∈ lives := by
  rcases listed.exists_life found with ⟨_, _, deeds, rfl⟩
  exact ⟨deeds, by simp⟩

section Middle

variable {moved : Transaction} {next : List Deed}
  (listed : session.Lists (earlier ++ ⟨.running transaction, deeds⟩ :: later))
  (apart : (session.transactions.map (·.id)).Nodup)

include listed apart

theorem update (same : moved.id = transaction.id) :
    (session.update moved).Lists (earlier ++ ⟨.running moved, next⟩ :: later) := by
  have place := perm_middle ⟨.running moved, next⟩ earlier later
  exact (perm_update apart (listed.trans (perm_middle _ _ _)) same).trans place.symm

theorem close {stage : Stage} (ends : (Life.mk stage deeds).transaction? = none) :
    (session.close transaction.id).Lists (earlier ++ ⟨stage, deeds⟩ :: later) := by
  have place := perm_middle ⟨stage, deeds⟩ earlier later
  rw [ends] at place
  exact (perm_close apart (listed.trans (perm_middle _ _ _))).trans place.symm

end Middle

end Lists

/-- A transaction that is given up is a step of the region. -/
theorem Lists.drop (machine : Machine digest) {lives : List Life} {id : TransactionId}
    {transaction : Transaction}
    (listed : session.Lists lives) (apart : (session.transactions.map (·.id)).Nodup)
    (found : session.find? id = some transaction) (reason : AbortReason) :
    ∃ next, session.region.Turn machine lives (session.region.abandon transaction reason).1 next ∧
      (session.close id).Lists next := by
  rcases listed.exists_life found with ⟨earlier, later, deeds, rfl⟩
  have name := id_of_find? found
  subst name
  exact ⟨_, .dropped reason, listed.close apart rfl⟩

/-- A step of a session is a step of its region, or none. -/
theorem Lists.turn {lives : List Life} (listed : session.Lists lives)
    (apart : (session.transactions.map (·.id)).Nodup)
    (sound : ∀ transaction deeds, ⟨.running transaction, deeds⟩ ∈ lives →
      transaction.log.writes.Sound digest)
    (sized : action.Sized) (stepped : session.step now action = .ok (after, answer)) :
    after.region = session.region ∧ after.Lists lives ∨
      ∃ next, session.region.Turn now lives after.region next ∧ after.Lists next := by
  cases action with
  | begin mode =>
      simp only [Session.step, bind_eq_ok, Prod.exists] at stepped
      rcases stepped with ⟨region, result, begun, stepped⟩
      right
      cases result with
      | ok transaction =>
          cases stepped
          refine ⟨_, .began begun, ?_⟩
          rw [Lists, List.filterMap_append]
          exact (listed.cons transaction).trans (List.perm_append_singleton _ _).symm
      | error failure =>
          cases stepped
          exact ⟨_, .refused begun, listed⟩
  | perform id operation =>
      simp only [Session.step] at stepped
      split at stepped
      next =>
        cases stepped
        exact .inl ⟨rfl, listed⟩
      next transaction found =>
        simp only [bind_eq_ok, pure_eq_ok, Prod.exists, Prod.mk.injEq] at stepped
        rcases stepped with ⟨region, moved, result, performed, rfl, rfl⟩
        rcases listed.exists_life found with ⟨earlier, later, deeds, rfl⟩
        have known := sound transaction deeds (by simp)
        have same := (Region.perform_effect sized known performed).id_eq
        right
        cases result with
        | ok reply => exact ⟨_, .succeeded sized performed, listed.update apart same⟩
        | error failure => exact ⟨_, .failed sized performed, listed.update apart same⟩
  | commit id =>
      simp only [Session.step] at stepped
      split at stepped
      next =>
        cases stepped
        exact .inl ⟨rfl, listed⟩
      next transaction found =>
        simp only [bind_eq_ok, pure_eq_ok, Prod.exists, Prod.mk.injEq] at stepped
        rcases stepped with ⟨region, ended, result, committed, rfl, rfl⟩
        rcases listed.exists_life found with ⟨earlier, later, deeds, rfl⟩
        have name := id_of_find? found
        subst name
        right
        cases result with
        | ok version => exact ⟨_, .committed committed, listed.close apart rfl⟩
        | error failure => exact ⟨_, .invalidated committed, listed.close apart rfl⟩
  | rollback id | endElsewhere id =>
      simp only [Session.step] at stepped
      split at stepped
      next =>
        cases stepped
        exact .inl ⟨rfl, listed⟩
      next transaction found =>
        cases stepped
        exact .inr (listed.drop now apart found _)

/-- Every history of a session is one of its region, and too short for the clock to come
round. -/
theorem Reached.reachedForward (reached : Reached machine config actions answers session) :
    ∃ lives, Region.ReachedForward digest config session.region lives ∧ session.Lists lives := by
  induction actions using List.reverseRecOn generalizing answers session with
  | nil =>
      rcases reached.nil with ⟨region, created, rfl, rfl⟩
      exact ⟨[], .created created, .refl _⟩
  | append_singleton earlier action ih =>
      have sized := reached.sized action (by simp)
      rcases reached.snoc with ⟨middle, before, answer, first, stepped, rfl⟩
      have tracked := first.tracked.2.1
      have extended := (step_moves sized tracked.sound stepped).extends_region tracked.valid
        first.room
      rcases ih first with ⟨lives, risen, listed⟩
      have sound := fun transaction deeds running =>
        (risen.reachedWith.accounts.logged transaction deeds running).sound
      rcases listed.turn first.apart sound sized stepped with ⟨same, also⟩ | ⟨next, turn, also⟩
      · exact ⟨lives, same ▸ risen, also⟩
      · exact ⟨next, risen.turned turn extended.clock, also⟩

theorem Reached.reachedWith (reached : Reached machine config actions answers session) :
    ∃ lives, Region.ReachedWith digest config session.region lives ∧ session.Lists lives := by
  rcases reached.reachedForward with ⟨lives, risen, listed⟩
  exact ⟨lives, risen.reachedWith, listed⟩

/-- Transaction 3 frees segment 3 and commits while transaction 2, which allocated it, is still
open and then gives up.  Transactions 4 and 5 both free segment 2, and 5 allocates segment 4. -/
def crossed : List Action :=
  [.begin .readWrite, .perform ⟨1⟩ (.alloc 8), .commit ⟨1⟩, .begin .readWrite,
    .perform ⟨2⟩ (.alloc 16), .begin .readWrite, .perform ⟨3⟩ (.free ⟨⟨3⟩, 0⟩), .commit ⟨3⟩,
    .rollback ⟨2⟩, .begin .readWrite, .begin .readWrite, .perform ⟨4⟩ (.free ⟨⟨2⟩, 0⟩),
    .perform ⟨5⟩ (.alloc 8), .perform ⟨5⟩ (.free ⟨⟨2⟩, 0⟩), .commit ⟨4⟩, .commit ⟨5⟩]

def crossedAnswers : List Answer :=
  [.began (.ok ⟨1⟩), .performed (.ok (.address ⟨⟨2⟩, 0⟩)), .committed (.ok 0), .began (.ok ⟨2⟩),
    .performed (.ok (.address ⟨⟨3⟩, 0⟩)), .began (.ok ⟨3⟩), .performed (.ok .done),
    .committed (.ok 1), .ended, .began (.ok ⟨4⟩), .began (.ok ⟨5⟩), .performed (.ok .done),
    .performed (.ok (.address ⟨⟨4⟩, 0⟩)), .performed (.ok .done), .committed (.ok 2),
    .committed (.ok 3)]

theorem segments_accounted_crossed : ∃ session lives,
    Reached (.limited 1000) threeWords crossed crossedAnswers session ∧
    Region.ReachedWith .ofAddress threeWords session.region lives ∧ session.Lists lives ∧
    session.region.table.liveIds.ncard = 2 ∧ .first ∈ session.region.table.liveIds ∧
    ⟨4⟩ ∈ (⋃ life ∈ lives, life.held) \ ⋃ life ∈ lives, life.released ∧
    (lives.flatMap (·.deeds)).countP (·.allocates ⟨4⟩) = 1 := by
  have computed : seenAfter (fun session => (session.region.metrics.liveSegments,
      session.region.table.isLive ⟨4⟩)) (.limited 1000) threeWords crossed =
      some ((2, true), crossedAnswers) := by cbv
  have sized : ∀ action ∈ crossed, action.Sized := by
    simp [crossed, Action.Sized, Operation.Sized]
  rcases Reached.of_seenAfter computed (by decide) sized with ⟨session, reached, seen⟩
  simp only [Prod.mk.injEq] at seen
  rcases seen with ⟨count, live⟩
  rcases reached.reachedWith with ⟨lives, lived, listed⟩
  rcases lived.segments_accounted with ⟨same, size, _, _, once, _, first⟩
  refine ⟨session, lives, reached, lived, listed, ?_, first, ?_, ?_⟩
  · rw [← size, count]
    rfl
  · have member : (⟨4⟩ : SegmentId) ∈ session.region.table.liveIds := live
    rw [same] at member
    exact ⟨member.1.resolve_left (by simp [SegmentId.first]), member.2⟩
  · exact once ⟨4⟩ live (by decide)

end Session

end WordStm
