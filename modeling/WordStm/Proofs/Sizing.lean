import WordStm.Proofs.Filter
import WordStm.Proofs.Lives
import WordStm.Proofs.Lockstep

/-!
# Sizes of filters

A filter has at least as many bits as were asked for, in whole words, and every
position that an address selects lies in one of the words.  The exception are the
last 63 sizes: rounding them up takes a sum that is too great to be told, and the
program stops.  A configuration with such a size passes its check all the same, and
a region is made from it; no transaction that may write can begin there.
-/

namespace WordStm

namespace AddressFilter

variable {digest : Digest} {machine : Machine digest} {bits : UInt64} {hashes : UInt32}
  {filter other : AddressFilter}

/-- The sum that is rounded fits up to the last multiple of 64. -/
theorem room_iff (bits : UInt64) :
    max bits.toNat 1 + 63 < UInt64.size ↔ bits.toNat ≤ 2 ^ 64 - 64 := by
  have most : UInt64.size = 2 ^ 64 := rfl
  omega

/-- A filter after any number of insertions and clearings. -/
inductive Later (digest : Digest) (filter : AddressFilter) : AddressFilter → Prop
  | same : Later digest filter filter
  | inserted {later : AddressFilter} (earlier : Later digest filter later) (address : Address) :
      Later digest filter (later.insert digest address)
  | cleared {later : AddressFilter} (earlier : Later digest filter later) :
      Later digest filter later.clear

/-- A filter has the bits and the positions that were asked for. -/
structure Fits (filter : AddressFilter) (bits : UInt64) (hashes : UInt32) : Prop where
  positive : 0 < filter.bitCount
  whole : 64 ∣ filter.bitCount
  large : bits.toNat ≤ filter.bitCount
  hashes : filter.hashes = max hashes 1

/-- Neither insertions nor clearings change what was asked for. -/
theorem Later.fits (later : Later digest filter other) (fits : filter.Fits bits hashes) :
    other.Fits bits hashes := by
  induction later with
  | same => exact fits
  | @inserted later _ address fits =>
      have count := bitCount_insert digest later address
      exact ⟨count ▸ fits.positive, count ▸ fits.whole, count ▸ fits.large, fits.hashes⟩
  | @cleared later _ fits =>
      have count := bitCount_clear later
      exact ⟨count ▸ fits.positive, count ▸ fits.whole, count ▸ fits.large, fits.hashes⟩

/-- An address can be inserted and asked for: there are bits to reduce its positions to, and only
bits that are there are touched. -/
structure Takes (digest : Digest) (filter : AddressFilter) (address : Address) : Prop where
  divisor : filter.bitCount ≠ 0
  inserted : (filter.insert digest address).words =
    (filter.positions digest address).foldr (fun position words => setBit words position)
      filter.words
  asked : filter.mayContain digest address =
    (filter.positions digest address).all (testBit filter.words)
  inside : ∀ position ∈ filter.positions digest address, position / 64 < filter.words.size

/-- A filter takes every address. -/
theorem takes (digest : Digest) (filter : AddressFilter) (address : Address) :
    filter.Takes digest address where
  divisor := Nat.ne_of_gt filter.bitCount_pos
  inserted := mark_eq_foldr ..
  asked := marked_eq_all ..
  inside := by
    intro position selected
    rcases List.mem_map.mp selected with ⟨index, _, rfl⟩
    exact position_div_lt (Nat.ne_of_gt filter.bitCount_pos) _ index

/-- What becomes of a request for a filter of some size. -/
structure Sized (machine : Machine digest) (bits : UInt64) (hashes : UInt32) : Prop where
  /-- Up to the last multiple of 64 there is a filter if its words are granted. -/
  made : bits.toNat ≤ 2 ^ 64 - 64 → machine.grants (.filter (wordsFor bits)) = true →
    ∃ filter, create machine bits hashes = .ok (.ok filter)
  refused : bits.toNat ≤ 2 ^ 64 - 64 → machine.grants (.filter (wordsFor bits)) = false →
    ∃ requested, create machine bits hashes = .ok (.error (.outOfMemory requested))
  /-- Beyond it there is no answer, however much memory there is. -/
  overflows : 2 ^ 64 - 64 < bits.toNat → create machine bits hashes = .error .overflow
  /-- Every filter is as it should be, and stays so. -/
  sound : ∀ filter, create machine bits hashes = .ok (.ok filter) →
    ∀ later, Later digest filter later →
      later.Fits bits hashes ∧ ∀ address, later.Takes digest address

theorem fits_of_create (created : create machine bits hashes = .ok (.ok filter)) :
    filter.Fits bits hashes := by
  rw [create] at created
  split at created
  next =>
    simp only [Except.ok.injEq, bind_eq_ok, pure_eq_ok] at created
    rcases created with ⟨_, _, rfl⟩
    refine ⟨bitCount_pos _, ⟨_, Nat.mul_comm _ _⟩, ?_, rfl⟩
    simp only [bitCount, Array.size_replicate, wordsFor]
    omega
  next => cases created

theorem sized (machine : Machine digest) (bits : UInt64) (hashes : UInt32) :
    Sized machine bits hashes where
  made := by
    intro room granted
    rw [create, if_pos ((room_iff bits).mpr room), Machine.request, if_pos granted]
    exact ⟨_, rfl⟩
  refused := by
    intro room denied
    rw [create, if_pos ((room_iff bits).mpr room), Machine.request, if_neg (by simp [denied])]
    exact ⟨_, rfl⟩
  overflows := by
    intro beyond
    rw [create, if_neg ((room_iff bits).not.mpr (Nat.not_le_of_lt beyond))]
  sound := fun _ created later reached =>
    ⟨reached.fits (fits_of_create created), later.takes digest⟩

end AddressFilter

namespace Region

variable {digest : Digest} {config : RegionConfig} {region : Region} {lives : List Life}

/-- A transaction cannot begin if it is to have a filter of one of the last 63 sizes, and for no
other reason than a lack of memory. -/
theorem begin_eq_error_iff (machine : Machine digest) (region : Region) (mode : AccessMode)
    (fault : Fault) : region.begin machine mode = .error fault ↔
      fault = .overflow ∧ mode = .readWrite ∧
        2 ^ 64 - 64 < region.coordinator.filterBits.toNat := by
  rw [begin_eq_map]
  cases mode with
  | readOnly =>
      rw [filterFor, AddressFilter.create, if_pos ((AddressFilter.room_iff 64).mpr (by decide))]
      simp [Except.map]
  | readWrite =>
      rw [filterFor, AddressFilter.create]
      by_cases room : region.coordinator.filterBits.toNat ≤ 2 ^ 64 - 64
      · rw [if_pos ((AddressFilter.room_iff _).mpr room)]
        simp only [Except.map, reduceCtorEq, false_iff]
        rintro ⟨_, _, beyond⟩
        exact absurd room (Nat.not_le_of_lt beyond)
      · rw [if_neg ((AddressFilter.room_iff _).not.mpr room)]
        simp only [Except.map, Except.error.injEq, Nat.lt_of_not_le room, and_true, eq_comm]

/-- Filters are of the size that was asked for, and take every address, unless they were to have
one of the last 63 sizes: then there is none.  In a region that is to have such filters just those
transactions that may write cannot begin, although its configuration passed.  A transaction that
did begin is never stopped. -/
theorem filters_sized (digest : Digest) :
    (∀ (machine : Machine digest) bits hashes, AddressFilter.Sized machine bits hashes) ∧
    ∀ config region lives, ReachedWith digest config region lives →
      (∀ (machine : Machine digest) mode fault, region.begin machine mode = .error fault ↔
        fault = .overflow ∧ mode = .readWrite ∧ 2 ^ 64 - 64 < config.filterBits.toNat) ∧
      ∀ transaction deeds, ⟨.running transaction, deeds⟩ ∈ lives →
        (∀ (machine : Machine digest) operation, ∃ after moved result,
          region.perform machine transaction operation = .ok (after, moved, result)) ∧
        ∃ after ended result, region.commit digest transaction = .ok (after, ended, result) := by
  refine ⟨AddressFilter.sized, ?_⟩
  intro config region lives lived
  have laid := lived.tended.laid
  refine ⟨?_, ?_⟩
  · intro machine mode fault
    rw [← lived.filterBits_eq]
    exact begin_eq_error_iff machine region mode fault
  · intro transaction deeds running
    have kept := lived.tended.kept _ _ running
    exact ⟨laid.perform_total kept, commit_total laid kept⟩

/-- Three words, and filters of the greatest size there is. -/
def boundless : RegionConfig :=
  { Session.threeWords with filterBits := 0xffffffffffffffff }

/-- A filter of 130 bits has three words.  In two regions that differ in the size of their filters,
a transaction that may write begins in one, and cannot begin in the other. -/
theorem filters_sized_boundless :
    (∃ filter, AddressFilter.create (.limited 1000) 130 3 = .ok (.ok filter) ∧
      filter.Fits 130 3) ∧
    (∃ region lives, ReachedWith .ofAddress boundless region lives ∧
      region.begin (.limited 1000) .readWrite = .error .overflow) ∧
    ∃ region lives transaction deeds, ReachedWith .ofAddress Session.retuned region lives ∧
      ⟨.running transaction, deeds⟩ ∈ lives ∧ ∃ after moved result,
        region.perform (.limited 1000) transaction (.read ⟨.first, 0⟩ 8) =
          .ok (after, moved, result) := by
  rcases filters_sized .ofAddress with ⟨filters, runs⟩
  refine ⟨?_, ?_, ?_⟩
  · have sized := filters (.limited 1000) 130 3
    rcases sized.made (by decide) (by decide) with ⟨filter, created⟩
    exact ⟨filter, created, (sized.sound filter created filter .same).1⟩
  · have lived : ReachedWith .ofAddress boundless _ [] :=
      .created (show create (.limited 1000) boundless = .ok (.ok _) from rfl)
    exact ⟨_, [], lived, ((runs _ _ _ lived).1 _ _ _).mpr ⟨rfl, rfl, by decide⟩⟩
  · let view (_ : Region) (transaction : Transaction) := transaction.status
    have computed : Session.seenAfter
        (fun session => (session.find? ⟨1⟩).map (view session.region))
        (.limited 1000) Session.retuned [.begin .readWrite] =
          some (some .active, [.began (.ok ⟨1⟩)]) := by cbv
    have sized : ∀ action ∈ [Action.begin .readWrite], action.Sized := by
      simp [Action.Sized]
    rcases ReachedWith.of_seenAfter computed (by decide) sized with
      ⟨region, lives, transaction, deeds, lived, running, _⟩
    exact ⟨region, lives, transaction, deeds, lived, running,
      ((runs _ _ _ lived).2 _ _ running).1 _ _⟩

/-- The greatest size has no answer, and a region that is to have such filters is made, but no
transaction that may write can begin there. -/
theorem boundless_overflows :
    AddressFilter.create (.limited 1000) 0xffffffffffffffff 3 = .error .overflow ∧
    boundless.check = .ok (.ok ()) ∧
    ∃ region, create (.limited 1000) boundless = .ok (.ok region) ∧
      (Session.ofRegion region).run (.limited 1000) [.begin .readWrite] = .error .overflow :=
  ⟨rfl, rfl, _, rfl, rfl⟩

end Region

end WordStm
