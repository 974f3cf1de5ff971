import WordStm.Proofs.Extents

/-!
# Handles

A handle holds the offset of an address in its low bits and the segment id in its
high bits.  Every handle stands for one address, and handles sort as the addresses
that they stand for.

The converse has a gap.  Whether an offset fits is checked, but whether an id does is
not: of an id beyond those that a table hands out only the low bits are packed, so that
it shares its handles with another.  No region has such ids, and no segment has offsets
that do not fit.  Whatever a transaction can read or write has a handle of its own.
-/

namespace WordStm

/-- What a handle keeps of a segment id. -/
def SegmentId.low (id : SegmentId) : SegmentId := ⟨id.raw &&& maxSegmentId⟩

theorem SegmentId.index_low (id : SegmentId) : id.low.index = id.index % 2 ^ segmentIdBits := by
  have mask : maxSegmentId.toNat = 2 ^ 24 - 1 := rfl
  rw [index, low, UInt32.toNat_and, mask, Nat.and_two_pow_sub_one_eq_mod]
  rfl

/-- An id keeps all of its bits exactly if a table may hand it out. -/
theorem SegmentId.low_eq_self_iff {id : SegmentId} : id.low = id ↔ id.raw ≤ maxSegmentId := by
  have most : maxSegmentId.toNat = 2 ^ 24 - 1 := rfl
  have index : id.low.index = id.index % 2 ^ 24 := id.index_low
  rw [UInt32.le_iff_toNat_le, most, ← SegmentId.index]
  constructor
  · intro same
    rw [same] at index
    omega
  · intro small
    apply SegmentId.index_inj
    omega

namespace Address

variable {address other : Address} {bits : UInt64}

theorem eq_iff : address = other ↔
    address.segment.index = other.segment.index ∧ address.offset.toNat = other.offset.toNat := by
  constructor
  · rintro rfl
    exact ⟨rfl, rfl⟩
  · rintro ⟨segment, offset⟩
    cases address
    cases other
    exact Address.mk.injEq .. |>.mpr ⟨SegmentId.index_inj segment, UInt64.toNat_inj.mp offset⟩

/-- The order of addresses in natural numbers. -/
theorem le_iff : address ≤ other ↔ address.segment.index < other.segment.index ∨
    address.segment.index = other.segment.index ∧
      address.offset.toNat ≤ other.offset.toNat := by
  have segment : address.segment = other.segment ↔
      address.segment.index = other.segment.index := ⟨congrArg _, SegmentId.index_inj⟩
  rw [← segment]
  exact Iff.rfl

theorem index_ofBits (bits : UInt64) :
    (ofBits bits).segment.index = bits.toNat / 2 ^ offsetBits := by
  have distance : (40 : UInt64).toNat % 64 = 40 := rfl
  have small : bits.toNat / 2 ^ 40 < 2 ^ 32 := by
    have below := bits.toNat_lt
    omega
  rw [ofBits, SegmentId.index, UInt64.toNat_toUInt32, UInt64.toNat_shiftRight, distance,
    Nat.shiftRight_eq_div_pow, Nat.mod_eq_of_lt small, offsetBits]

theorem offset_ofBits (bits : UInt64) :
    (ofBits bits).offset.toNat = bits.toNat % 2 ^ offsetBits := by
  have mask : offsetMask.toNat = 2 ^ 40 - 1 := rfl
  rw [ofBits, UInt64.toNat_and, mask, Nat.and_two_pow_sub_one_eq_mod, offsetBits]

/-- An address is packed exactly if its offset fits. -/
theorem toBits?_eq_none_iff : address.toBits? = none ↔ offsetMask < address.offset := by
  rw [toBits?]
  split
  next beyond => simpa using beyond
  next fits => simpa using fits

/-- A handle is a number of two digits: what is kept of the id, and the offset. -/
theorem toBits?_eq_some_iff : address.toBits? = some bits ↔
    address.offset.toNat < 2 ^ offsetBits ∧
      bits.toNat = address.segment.low.index * 2 ^ offsetBits + address.offset.toNat := by
  have mask : offsetMask.toNat = 2 ^ 40 - 1 := rfl
  have distance : (40 : UInt64).toNat % 64 = 40 := rfl
  rw [SegmentId.index_low, offsetBits, segmentIdBits, offsetBits, toBits?]
  split
  next beyond =>
    rw [gt_iff_lt, UInt64.lt_iff_toNat_lt, mask] at beyond
    simp only [reduceCtorEq, false_iff]
    omega
  next fits =>
    rw [gt_iff_lt, UInt64.lt_iff_toNat_lt, mask] at fits
    have small : address.offset.toNat < 2 ^ 40 := by omega
    -- the shift loses the bits of the id that do not fit, and leaves room for the offset
    have lost : address.segment.index * 2 ^ 40 % 2 ^ 64 = address.segment.index % 2 ^ 24 * 2 ^ 40 :=
      Nat.mul_mod_mul_right (2 ^ 40) _ (2 ^ 24)
    have value : (address.segment.raw.toUInt64 <<< 40 ||| address.offset).toNat =
        address.segment.index % 2 ^ 24 * 2 ^ 40 + address.offset.toNat := by
      rw [UInt64.toNat_or, UInt64.toNat_shiftLeft, distance, UInt32.toNat_toUInt64,
        Nat.shiftLeft_eq, ← SegmentId.index, lost, ← Nat.shiftLeft_eq,
        Nat.shiftLeft_add_eq_or_of_lt small]
    rw [Option.some.injEq, ← UInt64.toNat_inj, value]
    simp only [small, true_and, eq_comm]

/-- An address comes back from its handle with what was kept of its id. -/
theorem ofBits_of_toBits? (packed : address.toBits? = some bits) :
    ofBits bits = ⟨address.segment.low, address.offset⟩ := by
  rcases toBits?_eq_some_iff.mp packed with ⟨small, value⟩
  rw [eq_iff, index_ofBits, offset_ofBits, value, offsetBits]
  rw [offsetBits] at small
  constructor
  · dsimp only
    omega
  · dsimp only
    omega

/-- An address comes back as it was exactly if a table may hand out its id. -/
theorem ofBits_eq_iff (packed : address.toBits? = some bits) :
    ofBits bits = address ↔ address.segment.raw ≤ maxSegmentId := by
  rw [ofBits_of_toBits? packed, ← SegmentId.low_eq_self_iff]
  constructor
  · exact congrArg Address.segment
  · intro kept
    rw [kept]

/-- What a handle stands for packs into that handle. -/
theorem toBits?_ofBits (bits : UInt64) : (ofBits bits).toBits? = some bits := by
  have below := bits.toNat_lt
  rw [toBits?_eq_some_iff, SegmentId.index_low, index_ofBits, offset_ofBits, segmentIdBits,
    offsetBits]
  omega

/-- Handles sort as the addresses that they stand for. -/
theorem ofBits_le_iff {left right : UInt64} : ofBits left ≤ ofBits right ↔ left ≤ right := by
  rw [le_iff, index_ofBits, index_ofBits, offset_ofBits, offset_ofBits, offsetBits,
    UInt64.le_iff_toNat_le]
  omega

/-- Two addresses share a handle exactly if it keeps the same of both. -/
theorem toBits?_eq_iff (packed : address.toBits? = some bits) : other.toBits? = some bits ↔
    other.offset = address.offset ∧ other.segment.low = address.segment.low := by
  constructor
  · intro shared
    have same := (ofBits_of_toBits? shared).symm.trans (ofBits_of_toBits? packed)
    rcases Address.mk.inj same with ⟨segment, offset⟩
    exact ⟨offset, segment⟩
  · rintro ⟨offset, segment⟩
    rw [toBits?_eq_some_iff, offset, segment]
    exact toBits?_eq_some_iff.mp packed

/-- An address is packed if its offset fits, and comes back with the low bits of its id.  It is
the same address exactly if a table may hand out its id; all ids with those low bits share the
handle. -/
theorem handle_kept (address : Address) :
    (address.toBits? = none ↔ offsetMask < address.offset) ∧
    ∀ bits, address.toBits? = some bits →
      ofBits bits = ⟨address.segment.low, address.offset⟩ ∧
      (ofBits bits = address ↔ address.segment.raw ≤ maxSegmentId) ∧
      ∀ other : Address, other.toBits? = some bits ↔
        other.offset = address.offset ∧ other.segment.low = address.segment.low := by
  refine ⟨toBits?_eq_none_iff, fun bits packed => ?_⟩
  exact ⟨ofBits_of_toBits? packed, ofBits_eq_iff packed, fun other => toBits?_eq_iff packed⟩

/-- The last id that a table may hand out keeps its handle to itself, and the one after the
next does not come back. -/
theorem handle_kept_beyond :
    ofBits 0xffffffffffffffff = ⟨⟨0xffffff⟩, offsetMask⟩ ∧
    ofBits 0x10000000008 ≠ ⟨⟨0x1000001⟩, 8⟩ ∧
    (⟨⟨1⟩, 8⟩ : Address).toBits? = some 0x10000000008 := by
  have last : (⟨⟨0xffffff⟩, offsetMask⟩ : Address).toBits? = some 0xffffffffffffffff := by decide
  have beyond : (⟨⟨0x1000001⟩, 8⟩ : Address).toBits? = some 0x10000000008 := by decide
  rcases (handle_kept _).2 _ last with ⟨_, comesBack, _⟩
  rcases (handle_kept _).2 _ beyond with ⟨_, lost, shared⟩
  refine ⟨comesBack.mpr (by decide), ?_, (shared _).mpr (by decide)⟩
  exact fun same => absurd (lost.mp same) (by decide)

/-- An address that names something is packed into the handle of nothing. -/
theorem handle_collides :
    (⟨⟨0x1000000⟩, 0⟩ : Address).toBits? = some 0 ∧ null.toBits? = some 0 ∧
    ofBits 0 = null ∧ (⟨⟨0x1000000⟩, 0⟩ : Address) ≠ null ∧
    (⟨⟨0x1000000⟩, 0⟩ : Address).isNull = false := by
  decide

/-- A handle is that of an address, and not that of nothing. -/
structure Stands (bits : UInt64) (address : Address) : Prop where
  packed : address.toBits? = some bits
  unpacked : ofBits bits = address
  nonzero : bits ≠ 0

/-- An address whose parts fit has a handle. -/
theorem stands_of_small {id : SegmentId} {offset : UInt64} (named : id ≠ .sentinel)
    (handedOut : id.raw ≤ maxSegmentId) (fits : offset ≤ offsetMask) :
    ∃ bits, Stands bits ⟨id, offset⟩ := by
  cases packed : (⟨id, offset⟩ : Address).toBits? with
  | none => exact absurd (toBits?_eq_none_iff.mp packed) (UInt64.not_lt.mpr fits)
  | some bits =>
      have unpacked := (ofBits_eq_iff packed).mpr handedOut
      refine ⟨bits, packed, unpacked, ?_⟩
      rintro rfl
      exact named (congrArg Address.segment unpacked).symm

/-- The offsets of the largest segment fit, all of them. -/
theorem stands_of_checkSize {id : SegmentId} {size align offset : UInt64} (named : id ≠ .sentinel)
    (handedOut : id.raw ≤ maxSegmentId) (checked : Layout.checkSize size align = .ok (.ok ()))
    (inside : offset < size) : ∃ bits, Stands bits ⟨id, offset⟩ := by
  apply stands_of_small named handedOut
  have largest := (Layout.checkSize_ok checked).2
  have limit : maxSegmentSize.toNat = 2 ^ 40 := rfl
  have mask : offsetMask.toNat = 2 ^ 40 - 1 := rfl
  rw [UInt64.lt_iff_toNat_lt] at inside
  rw [UInt64.le_iff_toNat_le]
  omega

end Address

/-- The bytes that an operation reads or writes. -/
def Operation.Covers : Operation → Address → Prop
  | .read source length, address =>
      ∃ distance < length.toNat, address = source.offsetBy (.ofNat distance)
  | .write value target, address =>
      ∃ distance < value.length, address = target.offsetBy (.ofNat distance)
  | .alloc _, _ | .free _, _ => False

namespace Region

/-- An operation gets as far as the words that it is about. -/
def Reaches (region : Region) (transaction : Transaction) : Operation → Prop
  | .read source length => ∃ place, region.placeOf transaction.snapshot source length = .ok place
  | .write value target => transaction.mode.isReadOnly = false ∧
      ∃ place, region.placeOf transaction.snapshot target (UInt64.ofNat value.length) = .ok place
  | .alloc _ | .free _ => False

variable {digest : Digest} {config : RegionConfig} {region after : Region}
  {transaction moved : Transaction} {address : Address} {operation : Operation} {reply : Reply}

/-- Fewer ids are assigned than handles can tell apart. -/
theorem LaidOutUnlocked.idsAssigned_lt (laid : region.LaidOutUnlocked) :
    region.table.idsAssigned < 2 ^ segmentIdBits := by
  have most : maxSegmentId.toNat = 2 ^ 24 - 1 := rfl
  have few := laid.few
  rw [SegmentTable.idsAssigned, segmentIdBits, offsetBits]
  omega

/-- The bytes of an access that is located have handles. -/
theorem LaidOutUnlocked.stands_of_located {length word count distance : Nat} {segment : Handle}
    (laid : region.LaidOutUnlocked) (located : region.Located address length segment word count)
    (below : distance < length) :
    ∃ bits, Address.Stands bits (address.offsetBy (.ofNat distance)) := by
  have registered := SegmentTable.registered?_of_live located.live
  rcases (laid.valid.registered _ _).mp registered with ⟨index, _⟩
  rcases located.inside with ⟨align, size, laidOut, inside⟩
  have largest := (laid.valid.layout _ _ _ laidOut).2.2
  have limit : maxSegmentSize.toNat = 2 ^ 40 := rfl
  apply Address.stands_of_small
  · intro sentinel
    rw [sentinel] at index
    cases index
  · have most : maxSegmentId.toNat = 2 ^ 24 - 1 := rfl
    have assigned := (Array.getElem?_eq_some_iff.mp located.live).1
    have few := laid.few
    rw [UInt32.le_iff_toNat_le, ← SegmentId.index]
    omega
  · have mask : offsetMask.toNat = 2 ^ 40 - 1 := rfl
    rw [UInt64.le_iff_toNat_le, UInt64.toNat_add, UInt64.toNat_ofNat', mask]
    omega

/-- So have those of an access that gets as far as its words, or that even succeeds. -/
theorem LaidOutUnlocked.stands_of_covers (laid : region.LaidOutUnlocked)
    (kept : transaction.LogValid digest region) (machine : Machine digest)
    (sized : operation.Sized)
    (accepted : region.Reaches transaction operation ∨ ∃ after moved reply,
      region.perform machine transaction operation = .ok (after, moved, .ok reply))
    (covered : operation.Covers address) : ∃ bits, Address.Stands bits address := by
  cases operation with
  | read source length =>
      have located : ∃ segment word count,
          region.Located source length.toNat segment word count := by
        rcases accepted with ⟨place, placed⟩ | ⟨after, moved, reply, performed⟩
        · exact ⟨_, _, _, laid.located placed⟩
        · cases perform_effect sized kept.sound performed with
          | read _ located => exact ⟨_, _, _, located⟩
      rcases located with ⟨_, _, _, located⟩
      rcases covered with ⟨distance, below, rfl⟩
      exact laid.stands_of_located located below
  | write value target =>
      have located : ∃ segment word count,
          region.Located target value.length segment word count := by
        rcases accepted with ⟨_, place, placed⟩ | ⟨after, moved, reply, performed⟩
        · have located := laid.located placed
          rw [UInt64.toNat_ofNat_of_lt' sized] at located
          exact ⟨_, _, _, located⟩
        · cases perform_effect sized kept.sound performed with
          | write _ _ located => exact ⟨_, _, _, located⟩
      rcases located with ⟨_, _, _, located⟩
      rcases covered with ⟨distance, below, rfl⟩
      exact laid.stands_of_located located below
  | alloc | free => exact covered.elim

/-- Handles are one for one with the addresses that they stand for, in the same order.  Every
address that a segment of an accepted size can have under an id that a table may hand out has
a handle of its own, and so has every address that a transaction can read or write. -/
theorem handles_faithful (digest : Digest) (config : RegionConfig) :
    (∀ bits, (Address.ofBits bits).toBits? = some bits) ∧
    (∀ left right, left ≤ right ↔ Address.ofBits left ≤ Address.ofBits right) ∧
    (∀ id size align offset, id ≠ .sentinel → id.raw ≤ maxSegmentId →
      Layout.checkSize size align = .ok (.ok ()) → offset < size →
        ∃ bits, Address.Stands bits ⟨id, offset⟩) ∧
    ∀ region lives, ReachedWith digest config region lives →
      region.table.idsAssigned < 2 ^ segmentIdBits ∧
      ∀ transaction deeds, ⟨.running transaction, deeds⟩ ∈ lives →
        ∀ (machine : Machine digest) (operation : Operation), operation.Sized →
          (region.Reaches transaction operation ∨ ∃ after moved reply,
            region.perform machine transaction operation = .ok (after, moved, .ok reply)) →
          ∀ address, operation.Covers address → ∃ bits, Address.Stands bits address := by
  refine ⟨Address.toBits?_ofBits, fun left right => Address.ofBits_le_iff.symm, ?_, ?_⟩
  · intro id size align offset named handedOut checked inside
    exact Address.stands_of_checkSize named handedOut checked inside
  · intro region lives lived
    have laid := lived.tended.laid
    refine ⟨laid.idsAssigned_lt, ?_⟩
    intro transaction deeds running machine operation sized accepted address covered
    exact laid.stands_of_covers (lived.tended.kept _ _ running) machine sized accepted covered

/-- The last word of the largest segment has a handle, and so has the last byte that a
transaction wrote. -/
theorem handles_faithful_last :
    (∃ bits, Address.Stands bits ⟨⟨0xffffff⟩, 0xfffffffff8⟩) ∧
    Layout.checkSize 0x10000000000 8 = .ok (.ok ()) ∧
    ∃ region lives transaction deeds, ReachedWith .ofAddress Session.threeWords region lives ∧
      ⟨.running transaction, deeds⟩ ∈ lives ∧
      region.Reaches transaction (.read ⟨.first, 8⟩ 16) ∧
      ∃ bits, Address.Stands bits ⟨.first, 23⟩ := by
  let view (region : Region) (transaction : Transaction) :=
    region.placeOf transaction.snapshot ⟨.first, 8⟩ 16
  have computed : Session.seenAfter
      (fun session => (session.find? ⟨1⟩).map (view session.region))
      (.limited 1000) Session.threeWords wroteTail =
        some (some (.ok ⟨0, 1⟩), [.began (.ok ⟨1⟩), .performed (.ok .done)]) := by cbv
  have sized : ∀ action ∈ wroteTail, action.Sized := by
    simp [wroteTail, Action.Sized, Operation.Sized]
  rcases ReachedWith.of_seenAfter computed (by decide) sized with
    ⟨region, lives, transaction, deeds, lived, running, placed⟩
  rcases handles_faithful .ofAddress Session.threeWords with ⟨_, _, largest, accessed⟩
  have reaches : region.Reaches transaction (.read ⟨.first, 8⟩ 16) := ⟨_, placed⟩
  have stands := (accessed _ _ lived).2 _ _ running (.limited 1000) (.read ⟨.first, 8⟩ 16) trivial
    (.inl reaches)
  refine ⟨?_, by decide, region, lives, transaction, deeds, lived, running, reaches, ?_⟩
  · exact largest _ 0x10000000000 8 _ (by decide) (by decide) (by decide) (by decide)
  · exact stands _ ⟨15, by decide, by decide⟩

end Region

end WordStm
