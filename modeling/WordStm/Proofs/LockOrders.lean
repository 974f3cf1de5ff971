import WordStm.Proofs.Atomicity

/-!
# The lock orders agree

A commit takes the locks of its write set by address, or beginning with the word
that was first written most recently.  Which of the two it is shows in one place:
when words of the write set are locked by others, a commit reports the first of
them that it comes to.
-/

namespace WordStm

namespace Address

theorem le_trans {first second third : Address} (left : first ≤ second)
    (right : second ≤ third) : first ≤ third := by
  rcases left with below | ⟨same, left⟩
  · rcases right with further | ⟨also, _⟩
    · exact .inl (UInt32.lt_trans below further)
    · exact .inl (also ▸ below)
  · rcases right with further | ⟨also, right⟩
    · exact .inl (same ▸ further)
    · exact .inr ⟨same.trans also, UInt64.le_trans left right⟩

theorem le_total (left right : Address) : left ≤ right ∨ right ≤ left := by
  rcases UInt32.lt_or_le left.segment.raw right.segment.raw with below | rest
  · exact .inl (.inl below)
  · rcases UInt32.lt_or_eq_of_le rest with above | same
    · exact .inr (.inl above)
    · have segment : left.segment = right.segment := congrArg SegmentId.mk same.symm
      exact (UInt64.le_total left.offset right.offset).imp (.inr ⟨segment, ·⟩)
        (.inr ⟨segment.symm, ·⟩)

theorem lt_of_le_of_ne {left right : Address} (fits : left ≤ right) (differ : left ≠ right) :
    left < right := by
  rcases fits with below | ⟨same, fits⟩
  · exact .inl below
  · refine .inr ⟨same, UInt64.lt_of_le_of_ne fits fun offset => differ ?_⟩
    cases left
    cases right
    cases same
    cases offset
    rfl

end Address

/-- A write to an address that has an entry moves none; any other entry goes to the end. -/
theorem WriteEntry.map_address_assign (address : Address) (place : Place) (value : Bytes)
    (entries : List WriteEntry) :
    (assign address place value entries).map (·.address) =
      if address ∈ entries.map (·.address) then entries.map (·.address)
      else entries.map (·.address) ++ [address] := by
  induction entries with
  | nil => rfl
  | cons entry rest ih =>
      rw [assign]
      by_cases here : entry.address = address
      · simp [here]
      · simp only [if_neg here, List.map_cons, ih, List.mem_cons, Ne.symm here, false_or]
        split <;> rfl

/-- Entries that stand in the order of their first writes still do after one more. -/
theorem WriteEntry.map_address_assign_eraseDups {address : Address} {place : Place} {value : Bytes}
    {entries : List WriteEntry} {written : List Address}
    (ordered : entries.map (·.address) = written.eraseDups) :
    (assign address place value entries).map (·.address) = (written ++ [address]).eraseDups := by
  rw [map_address_assign, ordered, List.eraseDups_append, List.removeAll, List.filter_cons,
    List.filter_nil]
  by_cases known : address ∈ written
  · simp [known]
  · simp [known, List.eraseDups_cons]

namespace WriteSet

variable {digest : Digest} {writes : WriteSet} {written : List Address}

/-- A write set with the addresses that were written since it was last empty, in order and with
repetitions. -/
inductive Recorded (digest : Digest) : List Address → WriteSet → Prop
  | empty (filter : AddressFilter) : Recorded digest [] (.empty filter)
  | recorded {machine : Machine digest} {written : List Address} {writes after : WriteSet}
      {address : Address} {place : Place} {value : Bytes}
      (earlier : Recorded digest written writes)
      (recorded : writes.record machine address place value = (after, .ok ())) :
      Recorded digest (written ++ [address]) after
  /-- There was no room for one more. -/
  | refused {machine : Machine digest} {written : List Address} {writes after : WriteSet}
      {address : Address} {place : Place} {value : Bytes} {failure : Failure}
      (earlier : Recorded digest written writes)
      (refused : writes.record machine address place value = (after, .error failure)) :
      Recorded digest written after
  | got {written : List Address} {writes : WriteSet} (earlier : Recorded digest written writes)
      (address : Address) : Recorded digest written (writes.get digest address).2
  | asked {written : List Address} {writes : WriteSet} (earlier : Recorded digest written writes)
      (address : Address) : Recorded digest written (writes.contains digest address).2
  | cleared {written : List Address} {writes : WriteSet}
      (earlier : Recorded digest written writes) : Recorded digest [] writes.clear

namespace Recorded

theorem sound (recorded : Recorded digest written writes) : writes.Sound digest := by
  induction recorded with
  | empty filter => exact sound_empty digest filter
  | @recorded machine _ _ _ address place value _ recorded ih =>
      have kept := ih.record machine address place value
      rw [recorded] at kept
      exact kept
  | refused _ refused ih => exact (alike_of_record refused).sound ih
  | @got _ writes _ address ih => exact (get_alike digest writes address).sound ih
  | @asked _ writes _ address ih => exact (contains_alike digest writes address).sound ih
  | cleared => exact sound_empty digest _

/-- Entries stand in the order in which their addresses were first written. -/
theorem addresses (recorded : Recorded digest written writes) :
    writes.entries.toList.map (·.address) = written.eraseDups := by
  induction recorded with
  | empty => rfl
  | recorded earlier recorded ih =>
      rw [earlier.sound.entries_record recorded]
      exact WriteEntry.map_address_assign_eraseDups ih
  | refused _ refused ih => rw [(alike_of_record refused).entries, ih]
  | @got _ writes _ address ih => rw [(get_alike digest writes address).entries, ih]
  | @asked _ writes _ address ih => rw [(contains_alike digest writes address).entries, ih]
  | cleared => rfl

end Recorded

end WriteSet

namespace LockOrder

variable {memory : Memory} {writes : WriteSet} {blocked : WriteEntry}

theorem sequence_address_sorted (writes : WriteSet) :
    (LockOrder.address.sequence writes).Pairwise (·.address ≤ ·.address) := by
  let before (left right : WriteEntry) : Bool := decide (left.address ≤ right.address)
  have trans : ∀ first second third, before first second = true → before second third = true →
      before first third = true := by
    intro first second third left right
    exact decide_eq_true (Address.le_trans (of_decide_eq_true left) (of_decide_eq_true right))
  have total : ∀ left right, (before left right || before right left) = true := by
    intro left right
    rw [Bool.or_eq_true, decide_eq_true_eq, decide_eq_true_eq]
    exact Address.le_total left.address right.address
  exact (List.pairwise_mergeSort trans total writes.entries.toList).imp of_decide_eq_true

/-- The entry whose lock a commit comes to first, of those that are held. -/
def Meets (memory : Memory) (entries : List WriteEntry) (blocked : WriteEntry) : LockOrder → Prop
  | .address => blocked ∈ entries ∧ memory.isHeld blocked.place = true ∧
      ∀ entry ∈ entries, memory.isHeld entry.place = true → blocked.address ≤ entry.address
  | .writeSet => ∃ earlier later, entries = earlier ++ blocked :: later ∧
      memory.isHeld blocked.place = true ∧ ∀ entry ∈ later, memory.isHeld entry.place = false

theorem meets_of_find? {order : LockOrder}
    (found : (order.sequence writes).find? (memory.isHeld ·.place) = some blocked) :
    order.Meets memory writes.entries.toList blocked := by
  rcases List.find?_eq_some_iff_append.mp found with ⟨held, before, after, split, free⟩
  cases order with
  | address =>
      have order := LockOrder.address.sequence_perm writes
      have sorted := sequence_address_sorted writes
      refine ⟨order.mem_iff.mp (List.mem_of_find?_eq_some found), held, ?_⟩
      intro entry member heldToo
      rw [← order.mem_iff, split, List.mem_append] at member
      rcases member with first | rest
      · have unheld := free entry first
        rw [heldToo] at unheld
        cases unheld
      · rcases List.mem_cons.mp rest with rfl | later
        · exact .inr ⟨rfl, UInt64.le_refl _⟩
        · rw [split, List.pairwise_append, List.pairwise_cons] at sorted
          exact sorted.2.1.1 entry later
  | writeSet =>
      have reversed := congrArg List.reverse split
      rw [sequence, WriteSet.recentFirst, List.reverse_reverse, List.reverse_append,
        List.reverse_cons, List.append_assoc] at reversed
      refine ⟨after.reverse, before.reverse, reversed, held, ?_⟩
      intro entry member
      simpa using free entry (List.mem_reverse.mp member)

end LockOrder

namespace Coordinator

variable {digest : Digest} {coordinator : Coordinator} {memory : Memory}
  {transaction : Transaction}

/-- The coordinator with another lock order. -/
def withOrder (coordinator : Coordinator) (order : LockOrder) : Coordinator :=
  { coordinator with lockOrder := order }

/-- The outcome if it does not show in which order locks were taken. -/
def Outcome.withOrder (outcome : Outcome) (order : LockOrder) : Outcome :=
  { outcome with coordinator := outcome.coordinator.withOrder order }

/-- What the commits of a transaction under the lock orders have in common. -/
structure OrdersAgree (digest : Digest) (coordinator : Coordinator) (memory : Memory)
    (transaction : Transaction) : Prop where
  /-- Unless a word to be published is locked, the order does not show. -/
  alike : transaction.mode.isReadOnly = true ∨ transaction.log.isReadOnly = true ∨
      (∀ entry ∈ transaction.log.writes.entries.toList, memory.isHeld entry.place = false) →
    ∀ first second, (coordinator.withOrder second).commit digest memory transaction =
      ((coordinator.withOrder first).commit digest memory transaction).map (·.withOrder second)
  /-- If one is, only the address that is reported depends on the order. -/
  contended : transaction.mode.isReadOnly = false → transaction.log.isReadOnly = false →
    (∃ entry ∈ transaction.log.writes.entries.toList, memory.isHeld entry.place = true) →
      ∀ order, ∃ blocked, order.Meets memory transaction.log.writes.entries.toList blocked ∧
        (coordinator.withOrder order).commit digest memory transaction = .ok {
          coordinator := coordinator.withOrder order
          memory
          transaction := { transaction with status := .aborted (.lockContention blocked.address) }
          result := .error (.aborted (.lockContention blocked.address)) }
  /-- Whichever it is, it comes to an end. -/
  total : transaction.log.InRange memory → ∀ order, ∃ outcome,
    (coordinator.withOrder order).commit digest memory transaction = .ok outcome

section Sequences

variable (present : ∀ entry ∈ transaction.log.writes.entries.toList,
    ∃ cell, memory.cell? entry.place = some cell)
  (apart : transaction.log.writes.entries.toList.Pairwise (·.place ≠ ·.place))

include present apart

/-- A commit that meets a lock reports its address and changes nothing. -/
theorem commitWritesBy_contended (rule : ValidationRule) {blocked : WriteEntry}
    (found : (coordinator.lockOrder.sequence transaction.log.writes).find?
      (memory.isHeld ·.place) = some blocked) :
    coordinator.commitWritesBy rule digest memory transaction = .ok {
      coordinator, memory
      transaction := { transaction with status := .aborted (.lockContention blocked.address) }
      result := .error (.aborted (.lockContention blocked.address)) } := by
  rw [commitWritesBy, lockAll_sequence present apart, found]
  rfl

/-- Where no lock is met, the order in which they are taken does not show. -/
theorem commitWritesBy_withOrder (rule : ValidationRule)
    (free : ∀ entry ∈ transaction.log.writes.entries.toList, memory.isHeld entry.place = false)
    (first second : LockOrder) :
    (coordinator.withOrder second).commitWritesBy rule digest memory transaction =
      ((coordinator.withOrder first).commitWritesBy rule digest memory transaction).map
        (·.withOrder second) := by
  have clear : ∀ order : LockOrder, (order.sequence transaction.log.writes).find?
      (memory.isHeld ·.place) = none := by
    intro order
    rw [List.find?_eq_none]
    intro entry member
    rw [free entry ((order.sequence_perm _).mem_iff.mp member)]
    exact Bool.false_ne_true
  have released := fun order => unlockAll_sequence present apart (clear order)
  -- what is locked and what is released is the same by both orders, and so is all in between
  simp only [commitWritesBy, withOrder, lockAll_sequence present apart, clear, released, bind,
    Except.bind, tick, Transaction.withWrites]
  split
  next =>
    cases ReadEntry.firstConflict? digest
        (WriteEntry.hold memory transaction.log.writes.entries.toList) transaction.snapshot
        transaction.log.reads.toList transaction.log.writes with
    | error fault => rfl
    | ok checked =>
        rcases checked with ⟨writes, _ | conflict⟩
        · simp only
          cases WriteEntry.publishAll
            (WriteEntry.hold memory transaction.log.writes.entries.toList)
            (coordinator.clock + 1) writes.entries.toList <;> rfl
        · rfl
  next =>
    simp only [pure, Except.pure]
    cases WriteEntry.publishAll
      (WriteEntry.hold memory transaction.log.writes.entries.toList)
      (coordinator.clock + 1) transaction.log.writes.entries.toList <;> rfl

/-- Whatever becomes of a commit, the lock orders agree about it. -/
theorem orders_agree (digest : Digest) (coordinator : Coordinator)
    (active : transaction.status = .active) :
    OrdersAgree digest coordinator memory transaction where
  alike := by
    intro quiet first second
    simp only [commit, commitBy, Transaction.ensureActive_eq_ok.mpr active]
    cases idle : transaction.mode.isReadOnly || transaction.log.isReadOnly with
    | true => rfl
    | false =>
        rw [Bool.or_eq_false_iff] at idle
        simp only [idle.1, idle.2, Bool.false_eq_true, false_or] at quiet
        exact commitWritesBy_withOrder present apart needsValidation quiet first second
  contended := by
    intro writable effects locked order
    cases found : (order.sequence transaction.log.writes).find? (memory.isHeld ·.place) with
    | none =>
        rcases locked with ⟨entry, member, held⟩
        rw [List.find?_eq_none] at found
        exact absurd held (found entry ((order.sequence_perm _).mem_iff.mpr member))
    | some blocked =>
        refine ⟨blocked, LockOrder.meets_of_find? found, ?_⟩
        rw [commit_of_effects _ active writable effects]
        exact commitWritesBy_contended present apart needsValidation found
  total := by
    intro inRange order
    cases idle : transaction.mode.isReadOnly || transaction.log.isReadOnly with
    | true =>
        rw [commit, commitBy, Transaction.ensureActive_eq_ok.mpr active]
        exact ⟨_, if_pos idle⟩
    | false =>
        rw [Bool.or_eq_false_iff] at idle
        rw [commit_of_effects _ active idle.1 idle.2]
        exact commitWritesBy_total _ needsValidation digest inRange

end Sequences

/-- A transaction commits alike whichever way its locks are taken, and whatever words others
have locked.  Only when one of its own is among them does the order show, in the address that
is reported: by address it is the least of those that are held, and otherwise the held one that
was first written last.  Both ways every lock is taken once. -/
theorem lock_orders_agree (digest : Digest) :
    (∀ (coordinator : Coordinator) (memory : Memory) (transaction : Transaction),
      transaction.status = .active →
      (∀ entry ∈ transaction.log.writes.entries.toList,
        ∃ cell, memory.cell? entry.place = some cell) →
      transaction.log.writes.entries.toList.Pairwise (·.place ≠ ·.place) →
      OrdersAgree digest coordinator memory transaction) ∧
    ∀ written writes, WriteSet.Recorded digest written writes →
      writes.entries.toList.map (·.address) = written.eraseDups ∧
      (∀ order : LockOrder, (order.sequence writes).Perm writes.entries.toList) ∧
      (LockOrder.address.sequence writes).Pairwise (·.address < ·.address) ∧
      (LockOrder.writeSet.sequence writes).map (·.address) = written.eraseDups.reverse := by
  refine ⟨fun coordinator memory transaction active present apart =>
    orders_agree present apart digest coordinator active, ?_⟩
  intro written writes recorded
  have addresses := recorded.addresses
  refine ⟨addresses, fun order => order.sequence_perm writes, ?_, ?_⟩
  · have distinct := ((LockOrder.address.sequence_perm writes).pairwise_iff
      fun differ equal => differ equal.symm).mpr recorded.sound.distinct
    exact (LockOrder.sequence_address_sorted writes).imp₂
      (fun _ _ fits differ => Address.lt_of_le_of_ne fits differ) distinct
  · rw [LockOrder.sequence, WriteSet.recentFirst, List.map_reverse, addresses]

/-- A transaction wrote the second word, the third, again the second, and the first.  Others have
locked the second and the third. -/
theorem lock_orders_agree_overwritten : ∃ transaction,
    WriteSet.Recorded (fun _ => 0) [⟨⟨1⟩, 8⟩, ⟨⟨1⟩, 16⟩, ⟨⟨1⟩, 8⟩, ⟨⟨1⟩, 0⟩]
      transaction.log.writes ∧
    (LockOrder.writeSet.sequence transaction.log.writes).map (·.address) =
      [⟨⟨1⟩, 0⟩, ⟨⟨1⟩, 16⟩, ⟨⟨1⟩, 8⟩] ∧
    (LockOrder.address.sequence transaction.log.writes).Pairwise (·.address < ·.address) ∧
    ∀ order, ∃ outcome, (latestFirst.withOrder order).commit (fun _ => 0)
        ((threeZeros.setLock ⟨0, 1⟩ true).setLock ⟨0, 2⟩ true) transaction = .ok outcome ∧
      outcome.result = .error (.aborted (.lockContention
        (match order with
          | .address => ⟨⟨1⟩, 8⟩
          | .writeSet => ⟨⟨1⟩, 16⟩))) := by
  let entry (offset : UInt64) (word : Nat) (byte : UInt8) : WriteEntry :=
    ⟨⟨⟨1⟩, offset⟩, ⟨0, word⟩, List.replicate 8 byte⟩
  let one : WriteSet := ⟨#[entry 8 1 1], ⟨#[1], 1, by decide⟩, 0⟩
  let two : WriteSet := ⟨#[entry 8 1 1, entry 16 2 2], ⟨#[1], 1, by decide⟩, 1⟩
  let three : WriteSet := ⟨#[entry 8 1 3, entry 16 2 2], ⟨#[1], 1, by decide⟩, 1⟩
  let four : WriteSet := ⟨#[entry 8 1 3, entry 16 2 2, entry 0 0 4], ⟨#[1], 1, by decide⟩, 2⟩
  let memory := (threeZeros.setLock ⟨0, 1⟩ true).setLock ⟨0, 2⟩ true
  have first : firstBegun.log.writes.record colliding ⟨⟨1⟩, 8⟩ ⟨0, 1⟩ (List.replicate 8 1) =
      (one, .ok ()) := by cbv
  have second : one.record colliding ⟨⟨1⟩, 16⟩ ⟨0, 2⟩ (List.replicate 8 2) = (two, .ok ()) := by cbv
  have again : two.record colliding ⟨⟨1⟩, 8⟩ ⟨0, 1⟩ (List.replicate 8 3) = (three, .ok ()) := by cbv
  have last : three.record colliding ⟨⟨1⟩, 0⟩ ⟨0, 0⟩ (List.replicate 8 4) = (four, .ok ()) := by cbv
  have recorded := (((WriteSet.Recorded.empty ⟨#[0], 1, by decide⟩).recorded first).recorded second
    |>.recorded again).recorded last
  have present : ∀ other ∈ four.entries.toList, ∃ cell, memory.cell? other.place = some cell := by
    simp only [← Option.isSome_iff_exists]
    decide
  have apart : four.entries.toList.Pairwise (·.place ≠ ·.place) := by decide
  rcases lock_orders_agree (fun _ => 0) with ⟨agree, sequences⟩
  have agrees := agree latestFirst memory (firstBegun.withWrites four) rfl present apart
  rcases sequences _ _ recorded with ⟨_, _, ascending, reversed⟩
  refine ⟨firstBegun.withWrites four, recorded, reversed, ascending, ?_⟩
  intro order
  have locked : ∃ other ∈ four.entries.toList, memory.isHeld other.place = true :=
    ⟨entry 8 1 3, by decide, by decide⟩
  rcases agrees.contended rfl rfl locked order with ⟨blocked, meets, committed⟩
  refine ⟨_, committed, ?_⟩
  cases order with
  | address =>
      rcases meets with ⟨member, held, least⟩
      have below := least (entry 8 1 3) (by decide) (by decide)
      change blocked ∈ [entry 8 1 3, entry 16 2 2, entry 0 0 4] at member
      simp only [List.mem_cons, List.not_mem_nil, or_false] at member
      rcases member with rfl | rfl | rfl
      · rfl
      · exact absurd below (by decide)
      · exact absurd held (by decide)
  | writeSet =>
      rcases meets with ⟨earlier, later, parts, held, free⟩
      change [entry 8 1 3, entry 16 2 2, entry 0 0 4] = earlier ++ blocked :: later at parts
      rcases earlier with _ | ⟨_, _ | ⟨_, _ | ⟨_, rest⟩⟩⟩
      · cases parts
        exact absurd (free (entry 16 2 2) (by decide)) (by decide)
      · cases parts
        rfl
      · cases parts
        exact absurd held (by decide)
      · simp at parts

end Coordinator

end WordStm
