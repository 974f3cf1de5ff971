import WordStm.Program
import WordStm.Proofs.Atomicity
import WordStm.Proofs.Tuning

/-!
# Programs run in a transaction

A program performs operations of the transaction that it is run in, and may run whole other
transactions besides.  Those begin and end within it, so that the counters of the region
tell how each of them ended and nothing stays open.

On a region that is laid out, with filters that can be sized, a script and a program run
to their end, and leave the region laid out.
-/

namespace WordStm

/-- Some transactions that have begun and ended, by whether they committed, are counted. -/
def Tally.counted (tally : Tally) (endings : List Bool) : Tally :=
  { tally with
    committed := tally.committed + UInt64.ofNat (endings.count true)
    aborted := tally.aborted + UInt64.ofNat (endings.count false) }

namespace Tally

@[simp] theorem counted_nil (tally : Tally) : tally.counted [] = tally := by
  simp [counted]

theorem counted_counted (tally : Tally) (first second : List Bool) :
    (tally.counted first).counted second = tally.counted (first ++ second) := by
  simp [counted, List.count_append, UInt64.ofNat_add, UInt64.add_assoc]

/-- Transactions are counted in any order. -/
theorem counted_perm (tally : Tally) {first second : List Bool} (same : first.Perm second) :
    tally.counted first = tally.counted second := by
  rw [counted, counted, same.count_eq, same.count_eq]

/-- A transaction that begins and ends is counted, like those that do so in the meantime. -/
theorem ended_began (tally : Tally) (others : List Bool) (committed : Bool) :
    (tally.began.counted others).ended committed = tally.counted (others ++ [committed]) := by
  cases committed with
  | true => simp [counted, began, ended, UInt64.ofNat_add, UInt64.add_assoc]
  | false => simp [counted, began, ended, UInt64.ofNat_add, UInt64.add_assoc]

end Tally

namespace Coordinator

variable {digest : Digest} {coordinator : Coordinator} {memory : Memory}
  {transaction : Transaction} {outcome : Outcome}

/-- A commit changes nothing of a coordinator but the clock. -/
theorem commit_clock (committed : coordinator.commit digest memory transaction = .ok outcome) :
    ∃ clock, outcome.coordinator = { coordinator with clock } := by
  rw [commit, commitBy] at committed
  split at committed
  next =>
    cases committed
    exact ⟨_, rfl⟩
  next =>
    split at committed
    next =>
      cases committed
      exact ⟨_, rfl⟩
    next =>
      rw [coordinator_of_commitWritesBy committed]
      split
      next => exact ⟨_, rfl⟩
      next =>
        unfold charged
        split <;> exact ⟨_, rfl⟩

end Coordinator

namespace Region

variable {digest : Digest} {machine : Machine digest} {region before after : Region}
  {transaction moved : Transaction} {mode : AccessMode}

/-- An operation changes memory and the table at most. -/
theorem perform_grows {operation : Operation} {reply : Except Failure Reply}
    (performed : region.perform machine transaction operation = .ok (after, moved, reply)) :
    ∃ memory table, after = { region with memory, table } := by
  cases operation with
  | read source length =>
      simp only [perform, bind_eq_ok, pure_eq_ok, Prod.exists, Prod.mk.injEq] at performed
      rcases performed with ⟨_, _, _, rfl, _, _⟩
      exact ⟨_, _, rfl⟩
  | write value target =>
      simp only [perform, bind_eq_ok, pure_eq_ok, Prod.exists, Prod.mk.injEq] at performed
      rcases performed with ⟨_, _, _, rfl, _, _⟩
      exact ⟨_, _, rfl⟩
  | alloc size =>
      simp only [perform, alloc, bind_eq_ok, pure_eq_ok, Prod.exists, Prod.mk.injEq] at performed
      rcases performed with ⟨grown, _, _, ⟨larger, _, answer, tried, allocated⟩, rfl, _, _⟩
      have same : grown = larger := by
        cases answer with
        | error failure =>
            simp only at allocated
            split at allocated <;> exact (Prod.mk.inj (Except.ok.inj allocated)).1.symm
        | ok address => exact (Prod.mk.inj (Except.ok.inj allocated)).1.symm
      rw [same]
      rcases tryAlloc_ok tried with ⟨_, rfl, _⟩ |
        ⟨_, _, _, _, _, _, _, _, ⟨rfl, _, _⟩ | ⟨_, _, rfl, _, _⟩⟩
      · exact ⟨_, _, rfl⟩
      · exact ⟨_, _, rfl⟩
      · exact ⟨_, _, rfl⟩
  | free target =>
      simp only [perform, pure_eq_ok, Prod.mk.injEq] at performed
      rcases performed with ⟨rfl, _, _⟩
      exact ⟨_, _, rfl⟩

/-- A commit may move the clock, and counts the transaction. -/
theorem commit_counts {result : Except Failure Version}
    (committed : region.commit digest transaction = .ok (after, moved, result)) :
    ∃ clock memory table, after = { region with
      coordinator := { region.coordinator with clock }
      memory, table
      tally := region.tally.ended result.isOk } := by
  simp only [commit, bind_eq_ok] at committed
  rcases committed with ⟨outcome, settled, committed⟩
  rcases Coordinator.commit_clock settled with ⟨clock, same⟩
  split at committed
  next succeeded =>
    cases committed
    rw [same]
    exact ⟨_, _, _, rfl⟩
  next failed =>
    cases committed
    rw [finishAborted, same]
    exact ⟨_, _, _, rfl⟩

/-- Some transactions have begun and ended, and nothing has changed of what makes filters. -/
structure Tallies (after before : Region) (endings : List Bool) : Prop where
  bits : after.coordinator.filterBits = before.coordinator.filterBits
  hashes : after.coordinator.filterHashes = before.coordinator.filterHashes
  tally : after.tally = before.tally.counted endings

namespace Tallies

theorem refl (region : Region) : region.Tallies region [] :=
  ⟨rfl, rfl, (Tally.counted_nil _).symm⟩

theorem trans {first second third : Region} {earlier later : List Bool}
    (left : second.Tallies first earlier) (right : third.Tallies second later) :
    third.Tallies first (earlier ++ later) where
  bits := right.bits.trans left.bits
  hashes := right.hashes.trans left.hashes
  tally := by rw [right.tally, left.tally, Tally.counted_counted]

theorem perform {operation : Operation} {reply : Except Failure Reply}
    (performed : region.perform machine transaction operation = .ok (after, moved, reply)) :
    after.Tallies region [] := by
  rcases perform_grows performed with ⟨memory, table, rfl⟩
  exact ⟨rfl, rfl, (Tally.counted_nil _).symm⟩

/-- What a transaction does from its begin to its end. -/
theorem enclose {begun ran : Region} {endings : List Bool} {committed : Bool}
    (began : before.begin machine mode = .ok (begun, .ok transaction))
    (between : ran.Tallies begun endings)
    (bits : after.coordinator.filterBits = ran.coordinator.filterBits)
    (hashes : after.coordinator.filterHashes = ran.coordinator.filterHashes)
    (tally : after.tally = ran.tally.ended committed) :
    after.Tallies before (endings ++ [committed]) := by
  have counted : begun.tally = before.tally.began := begin_counts began
  have coordinator := (begin_eq began).2.2.1
  constructor
  · rw [bits, between.bits, coordinator]
  · rw [hashes, between.hashes, coordinator]
  · rw [tally, between.tally, counted, Tally.ended_began]

end Tallies

end Region

/-- Whether a whole transaction committed. -/
def ScriptResult.isCommitted (result : ScriptResult) : Bool :=
  match result.ending with
  | some (.ok _) => true
  | some (.error _) | none => false

namespace Region

variable {digest : Digest} {machine : Machine digest} {region before after : Region}
  {transaction moved : Transaction} {mode : AccessMode}

/-- A script ends its transaction, and counts it by how it ended. -/
theorem follow_ends {script : Script} {result : ScriptResult}
    (followed : region.follow machine transaction script = .ok (after, result)) :
    after.coordinator.filterBits = region.coordinator.filterBits ∧
      after.coordinator.filterHashes = region.coordinator.filterHashes ∧
      after.tally = region.tally.ended result.isCommitted := by
  induction script generalizing region transaction result machine with
  | commit =>
      simp only [follow, bind_eq_ok, pure_eq_ok, Prod.exists, Prod.mk.injEq] at followed
      rcases followed with ⟨_, _, answer, committed, rfl, rfl⟩
      rcases commit_counts committed with ⟨clock, memory, table, rfl⟩
      cases answer <;> exact ⟨rfl, rfl, rfl⟩
  | rollback =>
      cases followed
      rw [rollback, abandon_eq]
      exact ⟨rfl, rfl, rfl⟩
  | call operation next ih =>
      simp only [follow, bind_eq_ok, pure_eq_ok, Prod.exists, Prod.mk.injEq] at followed
      rcases followed with ⟨middle, moved, reply, performed, _, rest, followed, rfl, rfl⟩
      have ended := ih reply followed
      rcases perform_grows performed with ⟨memory, table, rfl⟩
      exact ended

/-- How a whole transaction ended, if it began. -/
def endings (result : Except Failure ScriptResult) : List Bool :=
  match result with
  | .ok result => [result.isCommitted]
  | .error _ => []

theorem Tallies.transact {script : Script} {result : Except Failure ScriptResult}
    (transacted : region.transact machine mode script = .ok (after, result)) :
    after.Tallies region (endings result) := by
  simp only [Region.transact, bind_eq_ok, Prod.exists] at transacted
  rcases transacted with ⟨opened, begun, began, transacted⟩
  cases begun with
  | error failure =>
      cases transacted
      have coordinator := (begin_eq began).2.2.1
      refine ⟨?_, ?_, (begin_counts began).trans (Tally.counted_nil _).symm⟩
      · rw [coordinator]
      · rw [coordinator]
  | ok transaction =>
      simp only [bind_eq_ok, pure_eq_ok, Prod.exists, Prod.mk.injEq] at transacted
      rcases transacted with ⟨_, ending, followed, rfl, rfl⟩
      rcases follow_ends followed with ⟨bits, hashes, tally⟩
      exact .enclose began (.refl _) bits hashes tally

/-- How the whole transactions end that a program runs besides, in their order. -/
def sides {α : Type} (machine : Machine digest) (region : Region) (transaction : Transaction) :
    Program α → List Bool
  | .done _ => []
  | .call operation next =>
      match region.perform (machine.during 0) transaction operation with
      | .ok (region, transaction, reply) =>
          sides (machine.since 1) region transaction (next reply)
      | .error _ => []
  | .observe next => sides machine region transaction (next transaction)
  | .side mode script next =>
      match region.transact (machine.during 0) mode script with
      | .ok (region, result) =>
          endings result ++ sides (machine.since 1) region transaction (next result)
      | .error _ => []

/-- A program counts the whole transactions that it runs. -/
theorem Tallies.execute {α : Type} {program : Program α} {value : α}
    (executed : region.execute machine transaction program = .ok (after, moved, value)) :
    after.Tallies region (region.sides machine transaction program) := by
  induction program generalizing region transaction machine with
  | done result =>
      cases executed
      exact .refl _
  | call operation next ih =>
      simp only [Region.execute, bind_eq_ok, Prod.exists] at executed
      rcases executed with ⟨middle, left, reply, performed, executed⟩
      rw [sides, performed]
      exact (Tallies.perform performed).trans (ih reply executed)
  | observe next ih => exact ih transaction executed
  | side mode script next ih =>
      simp only [Region.execute, bind_eq_ok, Prod.exists] at executed
      rcases executed with ⟨middle, result, transacted, executed⟩
      rw [sides, transacted]
      exact (Tallies.transact transacted).trans (ih result executed)

end Region

/-- The buffers of a script are no longer than a 64-bit length can say. -/
def Script.Sized : Script → Prop
  | .commit | .rollback => True
  | .call operation next => operation.Sized ∧ ∀ reply, (next reply).Sized

/-- The buffers of a program, those of other transactions included, are no longer than a
64-bit length can say. -/
def Program.Sized {α : Type} : Program α → Prop
  | .done _ => True
  | .call operation next => operation.Sized ∧ ∀ reply, (next reply).Sized
  | .observe next => ∀ transaction, (next transaction).Sized
  | .side _ script next => script.Sized ∧ ∀ result, (next result).Sized

namespace Region

variable {digest : Digest} {machine : Machine digest} {region before after : Region}
  {transaction moved : Transaction} {mode : AccessMode}

/-- A region is still laid out, and what was there has stayed. -/
structure Sustains (after before : Region) : Prop where
  laid : after.LaidOutUnlocked
  keeps : after.Keeps before

namespace Sustains

theorem refl (laid : region.LaidOutUnlocked) : region.Sustains region := ⟨laid, .refl region⟩

theorem trans {first second third : Region} (later : third.Sustains second)
    (earlier : second.Sustains first) : third.Sustains first :=
  ⟨later.laid, later.keeps.trans earlier.keeps⟩

theorem of_steady (laid : before.LaidOutUnlocked) (steady : after.Steady before) :
    after.Sustains before :=
  ⟨laid.of_steady steady, steady.toExtends.keeps⟩

/-- A transaction can be given up at any time. -/
theorem rollback (laid : region.LaidOutUnlocked) (transaction : Transaction) :
    (region.rollback transaction).1.Sustains region := by
  rw [Region.rollback, abandon_eq]
  exact .of_steady laid (steady_retire _ _ _ _ (UInt64.le_refl _))

end Sustains

end Region

namespace Transaction.LogValid

variable {digest : Digest} {region : Region} {transaction : Transaction}

/-- An operation has an answer, and leaves everything in order. -/
theorem perform_total {operation : Operation} (kept : transaction.LogValid digest region)
    (laid : region.LaidOutUnlocked) (machine : Machine digest) (sized : operation.Sized) :
    ∃ after moved reply, region.perform machine transaction operation = .ok (after, moved, reply) ∧
      after.Sustains region ∧ moved.LogValid digest after := by
  rcases laid.perform_total kept machine operation with ⟨after, moved, reply, performed⟩
  have effect := Region.perform_effect sized kept.sound performed
  exact ⟨after, moved, reply, performed, ⟨effect.laid laid, effect.keeps laid⟩,
    kept.perform laid effect⟩

/-- A commit comes to an end, and leaves everything in order. -/
theorem commit_total (kept : transaction.LogValid digest region) (laid : region.LaidOutUnlocked) :
    ∃ after ended result, region.commit digest transaction = .ok (after, ended, result) ∧
      after.Sustains region := by
  rcases Region.commit_total laid kept with ⟨after, ended, result, committed⟩
  have settled := Region.commit_settles committed
  exact ⟨after, ended, result, committed, settled.laid laid, settled.keeps⟩

end Transaction.LogValid

namespace Region

variable {digest : Digest} {region : Region} {transaction : Transaction} {mode : AccessMode}

/-- A script comes to its end. -/
theorem follow_total {script : Script} (kept : transaction.LogValid digest region)
    (laid : region.LaidOutUnlocked) (machine : Machine digest) (sized : script.Sized) :
    ∃ after result, region.follow machine transaction script = .ok (after, result) ∧
      after.Sustains region := by
  induction script generalizing region transaction machine with
  | commit =>
      rcases kept.commit_total laid with ⟨after, ended, result, committed, sustains⟩
      refine ⟨after, ⟨[], some result⟩, ?_, sustains⟩
      simp only [follow, committed, bind, Except.bind, pure, Except.pure]
  | rollback => exact ⟨_, _, rfl, .rollback laid transaction⟩
  | call operation next ih =>
      rcases kept.perform_total laid (machine.during 0) sized.1 with
        ⟨middle, moved, reply, performed, sustains, still⟩
      rcases ih reply still sustains.laid (machine.since 1) (sized.2 reply) with
        ⟨after, result, followed, further⟩
      refine ⟨after, { result with replies := reply :: result.replies }, ?_,
        further.trans sustains⟩
      simp only [follow, performed, followed, bind, Except.bind, pure, Except.pure]

/-- A transaction begins, or memory runs out. -/
theorem begin_total (room : region.coordinator.filterBits.toNat ≤ 2 ^ 64 - 64)
    (machine : Machine digest) (mode : AccessMode) :
    ∃ opened begun, region.begin machine mode = .ok (opened, begun) := by
  rcases region.filterFor_total room machine mode with ⟨made, sized⟩
  rw [begin_eq_map, sized]
  cases made <;> exact ⟨_, _, rfl⟩

/-- A whole transaction comes to its end, or cannot begin. -/
theorem transact_total {script : Script} (machine : Machine digest) (mode : AccessMode)
    (laid : region.LaidOutUnlocked) (room : region.coordinator.filterBits.toNat ≤ 2 ^ 64 - 64)
    (sized : script.Sized) :
    ∃ after result, region.transact machine mode script = .ok (after, result) ∧
      after.Sustains region := by
  rcases region.begin_total room (machine.during 0) mode with ⟨opened, begun, began⟩
  have sustains : opened.Sustains region := .of_steady laid (begin_eq began).1
  cases begun with
  | error failure =>
      refine ⟨opened, .error failure, ?_, sustains⟩
      simp only [transact, began, bind, Except.bind, pure, Except.pure]
  | ok transaction =>
      rcases follow_total (.begin began) sustains.laid (machine.since 1) sized with
        ⟨after, result, followed, further⟩
      refine ⟨after, .ok result, ?_, further.trans sustains⟩
      simp only [transact, began, followed, bind, Except.bind, pure, Except.pure]

/-- A program comes to its end, and its transaction is still able to commit. -/
theorem execute_total {α : Type} {program : Program α} (kept : transaction.LogValid digest region)
    (laid : region.LaidOutUnlocked) (room : region.coordinator.filterBits.toNat ≤ 2 ^ 64 - 64)
    (machine : Machine digest) (sized : program.Sized) :
    ∃ after moved value, region.execute machine transaction program = .ok (after, moved, value) ∧
      after.Sustains region ∧ moved.LogValid digest after := by
  induction program generalizing region transaction machine with
  | done value => exact ⟨region, transaction, value, rfl, .refl laid, kept⟩
  | call operation next ih =>
      rcases kept.perform_total laid (machine.during 0) sized.1 with
        ⟨middle, moved, reply, performed, sustains, still⟩
      rw [← (Tallies.perform performed).bits] at room
      rcases ih reply still sustains.laid room (machine.since 1) (sized.2 reply) with
        ⟨after, left, value, executed, further, able⟩
      refine ⟨after, left, value, ?_, further.trans sustains, able⟩
      simp only [execute, performed, executed, bind, Except.bind]
  | observe next ih => exact ih transaction kept laid room machine (sized transaction)
  | side mode script next ih =>
      rcases transact_total (machine.during 0) mode laid room sized.1 with
        ⟨middle, result, transacted, sustains⟩
      rw [← (Tallies.transact transacted).bits] at room
      rcases ih result (kept.keep sustains.keeps) sustains.laid room (machine.since 1)
          (sized.2 result) with ⟨after, left, value, executed, further, able⟩
      refine ⟨after, left, value, ?_, further.trans sustains, able⟩
      simp only [execute, transacted, executed, bind, Except.bind]

end Region

end WordStm
