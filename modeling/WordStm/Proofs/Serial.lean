import Mathlib.Data.List.Pairwise
import WordStm.Proofs.History

/-!
# Serial orders

Transactions that committed are ordered by version; of one version, the one that
took it comes before those that only committed at it.  Records are serial if the
ones that took a version did so in increasing order and each of them found the
memory that those before it leave, while every other found the memory as of its
version.  Replaying serial records in any order that respects the versions then
explains every read.
-/

namespace WordStm

namespace Record

/-- One transaction has to come before another in every serial order. -/
def precedes (left right : Record) : Prop :=
  left.version < right.version ∨
    (left.version = right.version ∧ left.draws = true ∧ right.draws = false)

instance (left right : Record) : Decidable (left.precedes right) :=
  inferInstanceAs (Decidable (_ ∨ _))

/-- The image as of a version. -/
def upTo (records : List Record) (version : Version) : Image :=
  Ledger.imageOf (records.filter fun record => decide (record.version ≤ version) && record.draws)

/-- The image before a version. -/
def before (records : List Record) (version : Version) : Image :=
  Ledger.imageOf (records.filter fun record => decide (record.version < version) && record.draws)

/-- Records in the order in which they committed, while the clock stands at some value. -/
structure Serial (records : List Record) (clock : Version) : Prop where
  bounded : ∀ record ∈ records, record.version ≤ clock
  sorted : (records.filter draws).Pairwise (·.version < ·.version)
  writers : ∀ record ∈ records, record.draws = true →
    (before records record.version).Agrees record.deeds
  readers : ∀ record ∈ records, record.draws = false →
    (upTo records record.version).Agrees record.deeds

/-- Deeds without a write leave every image alone. -/
theorem replay_of_not_draws {deeds : List Deed} (quiet : deeds.any Deed.draws = false)
    (image : Image) : image.replay deeds = image := by
  rw [List.any_eq_false] at quiet
  induction deeds with
  | nil => rfl
  | cons deed rest ih =>
      rw [Image.replay_cons, Deed.apply_of_not_write]
      · exact ih fun later member => quiet later (List.mem_cons_of_mem _ member)
      · intro value target written
        apply quiet deed List.mem_cons_self
        rw [Deed.draws, written]

/-- Only transactions that took a version change an image. -/
theorem replay_filter_draws (records : List Record) (image : Image) :
    image.replay ((records.filter draws).flatMap (·.deeds)) =
      image.replay (records.flatMap (·.deeds)) := by
  induction records generalizing image with
  | nil => rfl
  | cons record rest ih =>
      cases drawn : record.draws with
      | true => simp [drawn, Image.replay_append, ih]
      | false => simp [drawn, Image.replay_append, ih, replay_of_not_draws drawn]

theorem imageOf_filter_draws (records : List Record) :
    Ledger.imageOf (records.filter draws) = Ledger.imageOf records :=
  replay_filter_draws records Image.zero

theorem upTo_append_of_not_draws (records : List Record) {record : Record}
    (quiet : record.draws = false) (version : Version) :
    upTo (records ++ [record]) version = upTo records version := by
  simp [upTo, quiet]

theorem before_append_of_not_draws (records : List Record) {record : Record}
    (quiet : record.draws = false) (version : Version) :
    before (records ++ [record]) version = before records version := by
  simp [before, quiet]

/-- A later transaction does not change the past. -/
theorem upTo_append_of_lt (records : List Record) {record : Record} {version : Version}
    (later : version < record.version) :
    upTo (records ++ [record]) version = upTo records version := by
  simp [upTo, UInt64.not_le.mpr later]

theorem before_append_of_le (records : List Record) {record : Record} {version : Version}
    (later : version ≤ record.version) :
    before (records ++ [record]) version = before records version := by
  simp [before, UInt64.not_lt.mpr later]

/-- The image as of a version that all records have reached is the whole. -/
theorem upTo_eq {records : List Record} {version : Version}
    (bounded : ∀ record ∈ records, record.version ≤ version) :
    upTo records version = Ledger.imageOf records := by
  rw [← imageOf_filter_draws records, upTo]
  congr 1
  apply List.filter_congr
  intro record member
  simp [bounded record member]

theorem before_eq {records : List Record} {version : Version}
    (bounded : ∀ record ∈ records, record.version < version) :
    before records version = Ledger.imageOf records := by
  rw [← imageOf_filter_draws records, before]
  congr 1
  apply List.filter_congr
  intro record member
  simp [bounded record member]

namespace Serial

variable {records : List Record} {clock : Version} {record : Record}

theorem nil (clock : Version) : Serial [] clock where
  bounded := by simp
  sorted := List.Pairwise.nil
  writers := by simp
  readers := by simp

theorem mono (serial : Serial records clock) {later : Version} (forward : clock ≤ later) :
    Serial records later where
  bounded := fun record member => UInt64.le_trans (serial.bounded record member) forward
  sorted := serial.sorted
  writers := serial.writers
  readers := serial.readers

/-- A transaction joins quietly if it saw the memory as of its version. -/
theorem quiet (serial : Serial records clock) (idle : record.draws = false)
    (past : record.version ≤ clock)
    (agrees : (upTo records record.version).Agrees record.deeds) :
    Serial (records ++ [record]) clock where
  bounded := by
    intro other member
    rcases List.mem_append.mp member with old | new
    · exact serial.bounded other old
    · rw [List.mem_singleton.mp new]
      exact past
  sorted := by
    simpa [idle] using serial.sorted
  writers := by
    intro other member drawn
    rw [before_append_of_not_draws records idle]
    rcases List.mem_append.mp member with old | new
    · exact serial.writers other old drawn
    · rw [List.mem_singleton.mp new, idle] at drawn
      cases drawn
  readers := by
    intro other member idleOther
    rw [upTo_append_of_not_draws records idle]
    rcases List.mem_append.mp member with old | new
    · exact serial.readers other old idleOther
    · rw [List.mem_singleton.mp new]
      exact agrees

/-- A transaction that takes the next version joins if it saw the newest memory. -/
theorem publish (serial : Serial records clock) (drawn : record.draws = true)
    (next : clock < record.version)
    (agrees : (Ledger.imageOf records).Agrees record.deeds) :
    Serial (records ++ [record]) record.version where
  bounded := by
    intro other member
    rcases List.mem_append.mp member with old | new
    · exact UInt64.le_trans (serial.bounded other old) (UInt64.le_of_lt next)
    · rw [List.mem_singleton.mp new]
      exact UInt64.le_refl _
  sorted := by
    rw [List.filter_append, List.pairwise_append]
    refine ⟨serial.sorted, by simp [drawn], ?_⟩
    intro old oldMember new newMember
    rw [List.mem_singleton.mp (List.mem_filter.mp newMember).1]
    exact UInt64.lt_of_le_of_lt (serial.bounded old (List.mem_filter.mp oldMember).1) next
  writers := by
    intro other member drawnOther
    rcases List.mem_append.mp member with old | new
    · have past := UInt64.lt_of_le_of_lt (serial.bounded other old) next
      rw [before_append_of_le records (UInt64.le_of_lt past)]
      exact serial.writers other old drawnOther
    · rw [List.mem_singleton.mp new, before_append_of_le records (UInt64.le_refl _), before_eq]
      · exact agrees
      · intro old oldMember
        exact UInt64.lt_of_le_of_lt (serial.bounded old oldMember) next
  readers := by
    intro other member idleOther
    rcases List.mem_append.mp member with old | new
    · rw [upTo_append_of_lt records (UInt64.lt_of_le_of_lt (serial.bounded other old) next)]
      exact serial.readers other old idleOther
    · rw [List.mem_singleton.mp new, drawn] at idleOther
      cases idleOther

/-- Two transactions that took a version took different ones. -/
theorem eq_of_version (serial : Serial records clock) {left right : Record}
    (leftMember : left ∈ records) (rightMember : right ∈ records) (leftDrawn : left.draws = true)
    (rightDrawn : right.draws = true) (same : left.version = right.version) : left = right := by
  by_contra differ
  have apart : (records.filter draws).Pairwise (·.version ≠ ·.version) :=
    serial.sorted.imp fun less equal => UInt64.ne_of_lt less equal
  have : Std.Symm fun left right : Record => left.version ≠ right.version :=
    ⟨fun _ _ differ equal => differ equal.symm⟩
  have inLeft := List.mem_filter.mpr ⟨leftMember, leftDrawn⟩
  have inRight := List.mem_filter.mpr ⟨rightMember, rightDrawn⟩
  exact apart.forall inLeft inRight differ same

variable {order : List Record}

/-- All orders that respect the versions have the transactions that took one in the
order in which they committed. -/
theorem filter_draws_eq (serial : Serial records clock) (same : order.Perm records)
    (ordered : order.Pairwise fun left right => ¬right.precedes left) :
    order.filter draws = records.filter draws := by
  have orderSorted : (order.filter draws).Pairwise (·.version ≤ ·.version) := by
    apply (ordered.filter _).imp
    intro left right free
    exact UInt64.not_lt.mp fun less => free (.inl less)
  have recordsSorted : (records.filter draws).Pairwise (·.version ≤ ·.version) :=
    serial.sorted.imp UInt64.le_of_lt
  apply List.Perm.eq_of_pairwise ?_ orderSorted recordsSorted (same.filter draws)
  intro left right leftMember rightMember below above
  rcases List.mem_filter.mp leftMember with ⟨leftIn, leftDrawn⟩
  rcases List.mem_filter.mp rightMember with ⟨rightIn, rightDrawn⟩
  exact serial.eq_of_version (same.mem_iff.mp leftIn) rightIn leftDrawn rightDrawn
    (UInt64.le_antisymm below above)

/-- What the first transactions of an order leave is the image of those of them, in the
order of their commits, that took a version. -/
theorem imageOf_split (serial : Serial records clock) (same : order.Perm records)
    (ordered : order.Pairwise fun left right => ¬right.precedes left)
    {earlier later : List Record} (split : order = earlier ++ later) (past : Record → Bool)
    (old : ∀ record ∈ earlier, record.draws = true → past record = true)
    (new : ∀ record ∈ later, record.draws = true → past record = false) :
    Ledger.imageOf earlier =
      Ledger.imageOf (records.filter fun record => past record && record.draws) := by
  have kept : (earlier.filter draws).filter past = earlier.filter draws := by
    apply List.filter_eq_self.mpr
    intro record member
    rcases List.mem_filter.mp member with ⟨inside, drawn⟩
    exact old record inside drawn
  have dropped : (later.filter draws).filter past = [] := by
    apply List.filter_eq_nil_iff.mpr
    intro record member
    rcases List.mem_filter.mp member with ⟨inside, drawn⟩
    rw [new record inside drawn]
    exact Bool.false_ne_true
  rw [← List.filter_filter, ← serial.filter_draws_eq same ordered, split, List.filter_append,
    List.filter_append, kept, dropped, List.append_nil, imageOf_filter_draws]

/-- Replayed in any order that respects the versions, every transaction finds what it
read, and what is left is the memory after all commits. -/
theorem replays (serial : Serial records clock) (same : order.Perm records)
    (ordered : order.Pairwise fun left right => ¬right.precedes left) :
    Image.zero.Agrees (order.flatMap (·.deeds)) ∧
      Ledger.imageOf order = Ledger.imageOf records := by
  constructor
  · apply Image.agrees_flatMap
    intro earlier record later split
    change (Ledger.imageOf earlier).Agrees record.deeds
    have member : record ∈ records := same.mem_iff.mp (by rw [split]; simp)
    cases drawn : record.draws with
    | true =>
        have sorted := serial.sorted
        rw [← serial.filter_draws_eq same ordered, split, List.filter_append,
          List.filter_cons_of_pos drawn, List.pairwise_append, List.pairwise_cons] at sorted
        rcases sorted with ⟨_, ⟨after, _⟩, across⟩
        rw [serial.imageOf_split same ordered split (decide <| ·.version < record.version)]
        · exact serial.writers record member drawn
        · intro other inside drawnOther
          rw [decide_eq_true_eq]
          exact across other (List.mem_filter.mpr ⟨inside, drawnOther⟩) record List.mem_cons_self
        · intro other inside drawnOther
          rw [decide_eq_false_iff_not]
          rcases List.mem_cons.mp inside with here | later
          · rw [here]
            exact UInt64.lt_irrefl _
          · exact UInt64.lt_asymm (after other (List.mem_filter.mpr ⟨later, drawnOther⟩))
    | false =>
        have sorted := ordered
        rw [split, List.pairwise_append, List.pairwise_cons] at sorted
        rcases sorted with ⟨_, ⟨after, _⟩, across⟩
        rw [serial.imageOf_split same ordered split (decide <| ·.version ≤ record.version)]
        · exact serial.readers record member drawn
        · intro other inside _
          rw [decide_eq_true_eq]
          apply UInt64.not_lt.mp
          intro less
          exact across other inside record List.mem_cons_self (.inl less)
        · intro other inside drawnOther
          rw [decide_eq_false_iff_not]
          intro atMost
          rcases List.mem_cons.mp inside with here | later
          · rw [here, drawn] at drawnOther
            cases drawnOther
          · apply after other later
            rcases UInt64.lt_or_eq_of_le atMost with less | equal
            · exact .inl less
            · exact .inr ⟨equal, drawnOther, drawn⟩
  · rw [← imageOf_filter_draws order, serial.filter_draws_eq same ordered, imageOf_filter_draws]

end Serial

end Record

end WordStm
