import WordStm.Proofs.Numbers

/-!
# Runs are serializable

The transactions that committed, put in the order of their versions, could have
run one after another: replayed from zeros in that order, each finds what it
read, and memory ends with the bytes that it has.  So no update is lost, and of two
transactions that each read what the other overwrites one at most commits.
-/

namespace WordStm

namespace Record

/-- Where a transaction stands among all that committed. -/
def rank (record : Record) : Nat := 2 * record.version.toNat + (!record.draws).toNat

theorem precedes_iff {left right : Record} : left.precedes right ↔ left.rank < right.rank := by
  rw [precedes, rank, rank, UInt64.lt_iff_toNat_lt, ← UInt64.toNat_inj]
  cases left.draws <;> cases right.draws <;> simp <;> omega

/-- One transaction may stand in front of another. -/
def mayPrecede (left right : Record) : Bool := decide (left.rank ≤ right.rank)

/-- Transactions can always be put in an order that respects their versions. -/
theorem exists_order (records : List Record) :
    ∃ order : List Record, order.Perm records ∧
      order.Pairwise fun left right => ¬right.precedes left := by
  have trans : ∀ first second third : Record, first.mayPrecede second → second.mayPrecede third →
      first.mayPrecede third := by
    simp only [mayPrecede, decide_eq_true_eq]
    exact fun _ _ _ => Nat.le_trans
  have total : ∀ left right : Record, left.mayPrecede right || right.mayPrecede left := by
    simp only [mayPrecede, Bool.or_eq_true, decide_eq_true_eq]
    exact fun _ _ => Nat.le_total _ _
  refine ⟨records.mergeSort mayPrecede, List.mergeSort_perm _ _, ?_⟩
  apply (List.pairwise_mergeSort trans total records).imp
  intro left right below
  rw [precedes_iff, Nat.not_lt]
  exact of_decide_eq_true below

end Record

namespace Session

variable {digest : Digest} {machine now : Machine digest} {session after : Session}
  {config : RegionConfig} {actions : List Action} {answers : List Answer}

/-- Some order of the committed transactions respects their versions, and in every such
order one transaction after another finds what it read and leaves, in the end, the
bytes of every word. -/
theorem Reached.serializable (reached : Reached machine config actions answers session) :
    (∃ order : List Record, order.Perm (committedOf actions answers) ∧
      order.Pairwise fun left right => ¬right.precedes left) ∧
    ∀ order : List Record, order.Perm (committedOf actions answers) →
      (order.Pairwise fun left right => ¬right.precedes left) →
      Image.zero.Agrees (order.flatMap (·.deeds)) ∧
        session.region.Portrays (Ledger.imageOf order) := by
  refine ⟨Record.exists_order _, ?_⟩
  intro order same ordered
  have tracked := reached.tracked.2.1
  rw [← reached.commits_eq] at same
  rcases tracked.serial.replays same ordered with ⟨agrees, image⟩
  refine ⟨agrees, ?_⟩
  rw [image]
  exact tracked.portrays

/-- Transaction 2 reads before and transaction 3 after transaction 1 commits; all commit. -/
def readersAround : List Action :=
  [.begin .readWrite, .begin .readOnly, .perform ⟨1⟩ (.write (List.replicate 16 7) ⟨.first, 0⟩),
    .perform ⟨2⟩ (.read ⟨.first, 8⟩ 8), .commit ⟨1⟩, .begin .readWrite,
    .perform ⟨3⟩ (.read ⟨.first, 8⟩ 16), .commit ⟨3⟩, .perform ⟨2⟩ (.read ⟨.first, 16⟩ 8),
    .commit ⟨2⟩]

def readersAroundAnswers : List Answer :=
  [.began (.ok ⟨1⟩), .began (.ok ⟨2⟩), .performed (.ok .done),
    .performed (.ok (.bytes (List.replicate 8 0))), .committed (.ok 1), .began (.ok ⟨3⟩),
    .performed (.ok (.bytes (List.replicate 8 7 ++ List.replicate 8 0))), .committed (.ok 1),
    .performed (.ok (.bytes (List.replicate 8 0))), .committed (.ok 0)]

/-- What committed around transaction 1, in the order of the versions. -/
def readersAroundOrder : List Record :=
  [⟨⟨2⟩, 0, [⟨.read ⟨.first, 8⟩ 8, .bytes (List.replicate 8 0)⟩,
      ⟨.read ⟨.first, 16⟩ 8, .bytes (List.replicate 8 0)⟩]⟩,
    ⟨⟨1⟩, 1, [⟨.write (List.replicate 16 7) ⟨.first, 0⟩, .done⟩]⟩,
    ⟨⟨3⟩, 1, [⟨.read ⟨.first, 8⟩ 16, .bytes (List.replicate 8 7 ++ List.replicate 8 0)⟩]⟩]

theorem serializable_readersAround : ∃ session,
    Reached (.limited 1000) threeWords readersAround readersAroundAnswers session ∧
    readersAroundOrder.Perm (committedOf readersAround readersAroundAnswers) ∧
    (readersAroundOrder.Pairwise fun left right => ¬right.precedes left) ∧
    Image.zero.Agrees (readersAroundOrder.flatMap (·.deeds)) ∧
    session.region.Portrays (Ledger.imageOf readersAroundOrder) := by
  have computed : seenAfter (·.region.coordinator.clock) (.limited 1000) threeWords readersAround =
      some (1, readersAroundAnswers) := by cbv
  have sized : ∀ action ∈ readersAround, action.Sized := by
    simp [readersAround, Action.Sized, Operation.Sized]
  have same : readersAroundOrder.Perm (committedOf readersAround readersAroundAnswers) := by decide
  have ordered : readersAroundOrder.Pairwise fun left right => ¬right.precedes left := by decide
  rcases Reached.of_seenAfter computed (by decide) sized with ⟨session, reached, _⟩
  exact ⟨session, reached, same, ordered, reached.serializable.2 _ same ordered⟩

end Session

end WordStm
