import Mathlib.Data.List.Basic
import WordStm.Commit
import WordStm.Proofs.Cells

/-!
# Locking, releasing and publishing several words

A commit locks the words of its write set one after another.  Either every lock
was free, and then they are all held afterwards; or one was not, and then memory
is exactly as it was before the first attempt.  `WriteEntry.hold` is memory with
some locks held, so that releasing undoes holding.

Publishing goes word by word too.  As no two entries share a place, each cell is
changed once at most.
-/

namespace WordStm.WriteEntry

/-- Memory with the locks of some entries held besides. -/
def hold (memory : Memory) (entries : List WriteEntry) : Memory :=
  entries.foldr (fun entry memory => memory.setLock entry.place true) memory

/-- The locks of some entries are free, and each is of another word. -/
structure Free (memory : Memory) (entries : List WriteEntry) : Prop where
  unlocked : ∀ entry ∈ entries, memory.isLocked entry.place = .ok false
  apart : entries.Pairwise (·.place ≠ ·.place)

@[simp] theorem hold_nil (memory : Memory) : hold memory [] = memory := rfl

@[simp] theorem hold_cons (memory : Memory) (entry : WriteEntry) (rest : List WriteEntry) :
    hold memory (entry :: rest) = (hold memory rest).setLock entry.place true := rfl

theorem hold_append (memory : Memory) (later earlier : List WriteEntry) :
    hold memory (later ++ earlier) = hold (hold memory earlier) later := by
  simp [hold]

/-- Locks may be taken in any order. -/
theorem hold_perm (memory : Memory) {left right : List WriteEntry} (same : left.Perm right) :
    hold memory left = hold memory right := by
  induction same with
  | nil => rfl
  | cons entry _ ih => rw [hold_cons, hold_cons, ih]
  | swap first second rest => exact Memory.setLock_comm _ _ _ true
  | trans _ _ left right => exact left.trans right

@[simp] theorem layout_hold (memory : Memory) (entries : List WriteEntry) :
    (hold memory entries).layout = memory.layout := by
  induction entries with
  | nil => rfl
  | cons entry rest ih => rw [hold_cons, Memory.layout_setLock, ih]

/-- Holding locks changes nothing but lock bits. -/
theorem cell?_hold (memory : Memory) (entries : List WriteEntry) (place : Place) :
    ((hold memory entries).cell? place).map (fun cell => (cell.bytes, cell.version)) =
      (memory.cell? place).map fun cell => (cell.bytes, cell.version) := by
  induction entries with
  | nil => rfl
  | cons entry rest ih =>
      rw [hold_cons, Memory.cell?_setLock, ← ih]
      split
      next here =>
        rw [← here]
        cases (hold memory rest).cell? place <;> rfl
      next => rfl

/-- Holding locks takes no word away. -/
theorem present_hold {memory : Memory} {place : Place}
    (present : ∃ cell, memory.cell? place = some cell) (entries : List WriteEntry) :
    ∃ cell, (hold memory entries).cell? place = some cell := by
  rcases present with ⟨cell, found⟩
  have kept := cell?_hold memory entries place
  rw [found, Option.map_some, Option.map_eq_some_iff] at kept
  rcases kept with ⟨held, here, _⟩
  exact ⟨held, here⟩

theorem cell?_hold_of_ne (memory : Memory) {entries : List WriteEntry} (place : Place)
    (apart : ∀ entry ∈ entries, entry.place ≠ place) :
    (hold memory entries).cell? place = memory.cell? place := by
  induction entries with
  | nil => rfl
  | cons entry rest ih =>
      have here : place ≠ entry.place := (apart entry List.mem_cons_self).symm
      rw [hold_cons, Memory.cell?_setLock, if_neg here]
      exact ih fun other member => apart other (List.mem_cons_of_mem _ member)

theorem cell?_hold_of_mem (memory : Memory) {entries : List WriteEntry} {entry : WriteEntry}
    (member : entry ∈ entries) :
    (hold memory entries).cell? entry.place =
      (memory.cell? entry.place).map fun cell => { cell with locked := true } := by
  induction entries with
  | nil => cases member
  | cons head rest ih =>
      rw [hold_cons, Memory.cell?_setLock]
      split
      next here =>
        rw [← here]
        have same := cell?_hold memory rest entry.place
        cases left : (hold memory rest).cell? entry.place <;>
          cases right : memory.cell? entry.place <;> simp_all
      next elsewhere =>
        rcases List.mem_cons.mp member with first | later
        · exact absurd (by rw [first]) elsewhere
        · exact ih later

theorem version_hold (memory : Memory) (entries : List WriteEntry) (place : Place)
    {version : Version} :
    (hold memory entries).version place = .ok version ↔ memory.version place = .ok version := by
  have same := cell?_hold memory entries place
  rw [Memory.version_eq_ok_iff, Memory.version_eq_ok_iff]
  cases left : (hold memory entries).cell? place <;> cases right : memory.cell? place <;>
    simp_all

theorem Free.of_perm {memory : Memory} {left right : List WriteEntry} (free : Free memory left)
    (same : left.Perm right) : Free memory right where
  unlocked entry member := free.unlocked entry (same.mem_iff.mpr member)
  apart := (same.pairwise_iff fun differ equal => differ equal.symm).mp free.apart

theorem Free.tail {memory : Memory} {entry : WriteEntry} {rest : List WriteEntry}
    (free : Free memory (entry :: rest)) : Free memory rest where
  unlocked other member := free.unlocked other (List.mem_cons_of_mem _ member)
  apart := (List.pairwise_cons.mp free.apart).2

theorem Free.cons {memory : Memory} {entry : WriteEntry} {taken : List WriteEntry}
    (free : Free memory taken) (unlocked : memory.isLocked entry.place = .ok false)
    (apart : ∀ other ∈ taken, entry.place ≠ other.place) : Free memory (entry :: taken) where
  unlocked := by
    intro other member
    rcases List.mem_cons.mp member with first | later
    · rw [first]
      exact unlocked
    · exact free.unlocked other later
  apart := List.Pairwise.cons apart free.apart

/-- A lock that is free while others are held is of another word, and was free before. -/
theorem Free.cons_of_hold {memory : Memory} {entry : WriteEntry} {taken : List WriteEntry}
    (free : Free memory taken) (looked : (hold memory taken).isLocked entry.place = .ok false) :
    Free memory (entry :: taken) := by
  have apart : ∀ other ∈ taken, entry.place ≠ other.place := by
    intro other member same
    obtain ⟨cell, found, unlocked⟩ := Memory.isLocked_eq_ok_iff.mp looked
    rw [same, cell?_hold_of_mem memory member, Option.map_eq_some_iff] at found
    obtain ⟨before, _, rfl⟩ := found
    cases unlocked
  have same := cell?_hold_of_ne memory entry.place fun other member equal =>
    apart other member equal.symm
  rw [Memory.isLocked_eq_ok_iff, same, ← Memory.isLocked_eq_ok_iff] at looked
  exact free.cons looked apart

/-- The first of some free locks stays free while the others are held. -/
theorem Free.head {memory : Memory} {entry : WriteEntry} {rest : List WriteEntry}
    (free : Free memory (entry :: rest)) :
    (hold memory rest).isLocked entry.place = .ok false := by
  have apart := (List.pairwise_cons.mp free.apart).1
  have same := cell?_hold_of_ne memory entry.place fun other member equal =>
    apart other member equal.symm
  rw [Memory.isLocked_eq_ok_iff, same, ← Memory.isLocked_eq_ok_iff]
  exact free.unlocked entry List.mem_cons_self

/-- Releasing the locks that were taken last first restores memory. -/
theorem unlockAll_hold {memory : Memory} {entries : List WriteEntry}
    (free : Free memory entries) : unlockAll (hold memory entries) entries = .ok memory := by
  induction entries with
  | nil => rfl
  | cons entry rest ih =>
      have released := Memory.setLock_released free.head
      obtain ⟨cell, found, _⟩ := Memory.isLocked_eq_ok_iff.mp free.head
      have held : (hold memory (entry :: rest)).cell? entry.place =
          some { cell with locked := true } := by
        rw [hold_cons, Memory.cell?_setLock, if_pos rfl, found]
        rfl
      rw [unlockAll, Memory.unlock_of_cell? held, hold_cons, released]
      exact ih free.tail

/-- A lock that is taken was free, and is held from then on. -/
theorem tryLock_eq_ok {memory after : Memory} {place : Place} {taken : Bool}
    (tried : memory.tryLock place = .ok (taken, after)) :
    memory.isLocked place = .ok (!taken) ∧
      after = if taken then memory.setLock place true else memory := by
  rw [Memory.tryLock, bind_eq_ok] at tried
  obtain ⟨locked, looked, tried⟩ := tried
  cases locked with
  | true =>
      simp only [if_true, pure_eq_ok, Prod.mk.injEq] at tried
      rw [← tried.1, ← tried.2]
      exact ⟨looked, rfl⟩
  | false =>
      simp only [Bool.false_eq_true, if_false, pure_eq_ok, Prod.mk.injEq] at tried
      rw [← tried.1, ← tried.2]
      exact ⟨looked, rfl⟩

/-- If no lock was in the way, all were free and all are held. -/
theorem lockAll_eq_none {memory after : Memory} {taken entries : List WriteEntry}
    (locked : lockAll memory taken entries = .ok (after, none)) :
    Free memory entries ∧ after = hold memory entries := by
  induction entries generalizing memory taken with
  | nil =>
      cases locked
      exact ⟨⟨by simp, List.Pairwise.nil⟩, rfl⟩
  | cons entry rest ih =>
      simp only [lockAll, bind_eq_ok, Prod.exists] at locked
      obtain ⟨free, next, tried, locked⟩ := locked
      obtain ⟨looked, nextEq⟩ := tryLock_eq_ok tried
      cases free with
      | false =>
          simp only [Bool.false_eq_true, if_false, bind_eq_ok, pure_eq_ok, Prod.mk.injEq,
            reduceCtorEq, and_false, exists_false] at locked
      | true =>
          simp only [if_true] at locked nextEq
          subst nextEq
          obtain ⟨restFree, afterEq⟩ := ih locked
          -- the rest is free although the first lock is held, so it is of other words
          have apart : ∀ other ∈ rest, entry.place ≠ other.place := by
            intro other member same
            obtain ⟨cell, found, free⟩ :=
              Memory.isLocked_eq_ok_iff.mp (restFree.unlocked other member)
            obtain ⟨before, present, _⟩ := Memory.isLocked_eq_ok_iff.mp looked
            rw [Memory.cell?_setLock, if_pos same.symm, present, Option.map_some,
              Option.some.injEq] at found
            rw [← found] at free
            cases free
          refine ⟨⟨?_, List.Pairwise.cons apart restFree.apart⟩, ?_⟩
          · intro other member
            rcases List.mem_cons.mp member with first | later
            · rw [first]
              exact looked
            · have free := restFree.unlocked other later
              rw [Memory.isLocked_eq_ok_iff, Memory.cell?_setLock,
                if_neg (apart other later).symm, ← Memory.isLocked_eq_ok_iff] at free
              exact free
          · have swapped := hold_perm memory
              (List.perm_append_comm : (rest ++ [entry]).Perm ([entry] ++ rest))
            rw [hold_append] at swapped
            rw [afterEq]
            exact swapped

/-- If a lock was in the way, memory is as it was before the first attempt. -/
theorem lockAll_eq_some {memory after : Memory} {taken entries : List WriteEntry}
    {blocked : WriteEntry} (free : Free memory taken)
    (locked : lockAll (hold memory taken) taken entries = .ok (after, some blocked)) :
    after = memory := by
  induction entries generalizing taken with
  | nil => cases locked
  | cons entry rest ih =>
      simp only [lockAll, bind_eq_ok, Prod.exists] at locked
      obtain ⟨available, next, tried, locked⟩ := locked
      obtain ⟨looked, nextEq⟩ := tryLock_eq_ok tried
      cases available with
      | false =>
          simp only [Bool.false_eq_true, if_false, bind_eq_ok, pure_eq_ok,
            Prod.mk.injEq] at locked
          obtain ⟨released, unlocked, same, _⟩ := locked
          rw [unlockAll_hold free] at unlocked
          cases unlocked
          exact same.symm
      | true =>
          simp only [if_true] at locked nextEq
          subst nextEq
          exact ih (free.cons_of_hold looked) locked

/-- Locks of words that exist can be tried, whoever holds them and however often one word
occurs. -/
theorem lockAll_total {memory : Memory} {taken entries : List WriteEntry}
    (free : Free memory taken)
    (present : ∀ entry ∈ entries, ∃ cell, memory.cell? entry.place = some cell) :
    ∃ after blocked, lockAll (hold memory taken) taken entries = .ok (after, blocked) := by
  induction entries generalizing taken with
  | nil => exact ⟨_, _, rfl⟩
  | cons entry rest ih =>
      rcases present_hold (present entry List.mem_cons_self) taken with ⟨here, held⟩
      rw [lockAll, Memory.tryLock_of_cell? held]
      cases locked : here.locked with
      | true =>
          simp only [if_true, Bool.false_eq_true, if_false, bind, Except.bind, unlockAll_hold free]
          exact ⟨_, _, rfl⟩
      | false =>
          have looked := Memory.isLocked_of_cell? held
          rw [locked] at looked
          exact ih (free.cons_of_hold looked) fun other member =>
            present other (List.mem_cons_of_mem _ member)

/-- Locks of words that exist are taken one after another up to the first that is held
elsewhere; what was taken until then is released. -/
theorem lockAll_eq {memory : Memory} {taken entries : List WriteEntry} (free : Free memory taken)
    (present : ∀ entry ∈ entries, ∃ cell, memory.cell? entry.place = some cell)
    (apart : entries.Pairwise (·.place ≠ ·.place))
    (others : ∀ entry ∈ entries, ∀ other ∈ taken, other.place ≠ entry.place) :
    lockAll (hold memory taken) taken entries =
      .ok (match entries.find? (memory.isHeld ·.place) with
        | some entry => (memory, some entry)
        | none => (hold memory (entries.reverse ++ taken), none)) := by
  induction entries generalizing taken with
  | nil => rfl
  | cons entry rest ih =>
      rcases present entry List.mem_cons_self with ⟨cell, found⟩
      have held : (hold memory taken).cell? entry.place = some cell := by
        rw [cell?_hold_of_ne memory entry.place (others entry List.mem_cons_self), found]
      rw [lockAll, Memory.tryLock_of_cell? held, List.find?_cons, Memory.isHeld_of_cell? found]
      cases locked : cell.locked with
      | true =>
          simp only [if_true, Bool.false_eq_true, if_false, bind, Except.bind, unlockAll_hold free]
          rfl
      | false =>
          have unlocked : memory.isLocked entry.place = .ok false :=
            Memory.isLocked_eq_ok_iff.mpr ⟨cell, found, locked⟩
          have more := free.cons unlocked fun other member =>
            (others entry List.mem_cons_self other member).symm
          rw [List.reverse_cons, List.append_assoc]
          apply ih more
          · exact fun other member => present other (List.mem_cons_of_mem _ member)
          · exact (List.pairwise_cons.mp apart).2
          · intro other member first firstMember
            rcases List.mem_cons.mp firstMember with here | before
            · rw [here]
              exact (List.pairwise_cons.mp apart).1 other member
            · exact others other (List.mem_cons_of_mem _ member) first before

/-- Words that exist can be published. -/
theorem publishAll_total {memory : Memory} {entries : List WriteEntry}
    (present : ∀ entry ∈ entries, ∃ cell, memory.cell? entry.place = some cell)
    (version : Version) : ∃ after, publishAll memory version entries = .ok after := by
  induction entries generalizing memory with
  | nil => exact ⟨memory, rfl⟩
  | cons entry rest ih =>
      rcases present entry List.mem_cons_self with ⟨cell, found⟩
      rw [publishAll, Memory.publish_of_cell? found]
      apply ih
      intro other member
      rw [Memory.cell?_put found]
      split
      · exact ⟨_, rfl⟩
      · exact present other (List.mem_cons_of_mem _ member)

/-- The cells after some values were published, each at a place of its own. -/
theorem publishAll_eq_ok {memory after : Memory} {version : Version} {entries : List WriteEntry}
    (apart : entries.Pairwise (·.place ≠ ·.place))
    (published : publishAll memory version entries = .ok after) (place : Place) :
    after.cell? place =
      match entries.find? (·.place == place) with
      | some entry => (memory.cell? place).map (·.put entry.value version)
      | none => memory.cell? place := by
  induction apart generalizing memory with
  | nil =>
      cases published
      rfl
  | @cons entry rest apart _ ih =>
      simp only [publishAll, bind_eq_ok] at published
      obtain ⟨next, put, published⟩ := published
      rw [Memory.publish, bind_eq_ok] at put
      obtain ⟨_, looked, same⟩ := put
      rw [pure_eq_ok] at same
      subst same
      obtain ⟨cell, found, _⟩ := Memory.version_eq_ok_iff.mp looked
      rw [ih published, Memory.cell?_put found]
      by_cases here : entry.place = place
      · have unseen : rest.find? (·.place == place) = none := by
          rw [List.find?_eq_none]
          intro other member
          have differ := apart other member
          rw [here] at differ
          simpa using differ.symm
        rw [unseen, if_pos here.symm, List.find?_cons_of_pos (by simpa using here), ← here, found]
        rfl
      · rw [if_neg fun equal => here equal.symm, List.find?_cons_of_neg (by simpa using here)]

theorem layout_publishAll {memory after : Memory} {version : Version}
    {entries : List WriteEntry} (published : publishAll memory version entries = .ok after) :
    after.layout = memory.layout := by
  induction entries generalizing memory with
  | nil =>
      cases published
      rfl
  | cons entry rest ih =>
      simp only [publishAll, bind_eq_ok] at published
      obtain ⟨next, put, published⟩ := published
      rw [Memory.publish, bind_eq_ok] at put
      obtain ⟨_, _, same⟩ := put
      rw [pure_eq_ok] at same
      subst same
      rw [ih published, Memory.layout_put]

end WordStm.WriteEntry
