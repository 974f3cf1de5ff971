import WordStm.Region.Operation
import WordStm.Proofs.Cells
import WordStm.Proofs.Image
import WordStm.Proofs.Table

/-!
# Valid regions

In a valid region every segment is a whole number of words that addresses can
span, the ids that were given out are those of the segments in memory, and no
word carries a version that the clock has not reached.

A region only ever grows: segments are added with zero bytes, and the words that
a reader of the past may see stay as they are.  An image that shows the words up
to some version therefore keeps showing them.
-/

namespace WordStm

/-- A size that is accepted is a whole number of words that addresses can span. -/
theorem Layout.checkSize_ok {size align : UInt64} (checked : checkSize size align = .ok (.ok ())) :
    align.toNat ∣ size.toNat ∧ size.toNat ≤ maxSegmentSize.toNat := by
  rw [checkSize] at checked
  split at checked
  next => cases checked
  next =>
    split at checked
    next => cases checked
    next =>
      split at checked
      next => cases checked
      next whole =>
        split at checked
        next => cases checked
        next fits =>
          constructor
          · apply Nat.dvd_of_mod_eq_zero
            rw [← UInt64.toNat_mod, Decidable.not_not.mp whole]
            rfl
          · exact UInt64.le_iff_toNat_le.mp (UInt64.not_lt.mp fits)

/-- A configuration that passes its check has words, and a size made of them. -/
theorem RegionConfig.check_ok_layout {config : RegionConfig}
    (passed : config.check = .ok (.ok ())) :
    config.align.toNat ≠ 0 ∧ config.align.toNat ∣ config.size.toNat ∧
      config.size.toNat ≤ maxSegmentSize.toNat := by
  rw [check] at passed
  split at passed
  next => cases passed
  next aligned =>
    split at passed
    next => cases passed
    next => cases passed
    next sized =>
      refine ⟨?_, Layout.checkSize_ok sized⟩
      intro zero
      have degenerate : config.align = 0 := UInt64.toNat_inj.mp zero
      rw [degenerate] at aligned
      cases aligned

/-- A new segment consists of zero bytes at version 0, unlocked. -/
theorem Segment.create_ok {digest : Digest} {machine : Machine digest} {size align : UInt64}
    {segment : Segment} (created : create machine size align = .ok (.ok segment)) :
    segment.align = align.toNat ∧ segment.size = size.toNat ∧
      ∀ word cell, segment.cell? word = some cell →
        cell.bytes = List.replicate align.toNat 0 ∧ cell.version = 0 ∧ cell.locked = false := by
  rw [create] at created
  split at created
  next => cases created
  next =>
    simp only [Except.ok.injEq, bind_eq_ok] at created
    rcases created with ⟨_, _, _, _, _, _, same⟩
    rw [pure_eq_ok] at same
    subst same
    refine ⟨rfl, Array.size_replicate, ?_⟩
    intro word cell found
    rcases of_cell? found with ⟨inside, version, locked, bytes⟩
    refine ⟨?_, ?_, ?_⟩
    · have whole := length_of_cell? found
      rw [← bytes] at whole ⊢
      apply List.eq_replicate_of_mem ?_ |>.trans (by rw [whole])
      intro byte member
      rw [Segment.bytes, Array.mem_toList_iff] at member
      simp only [Array.extract_replicate, Array.mem_replicate] at member
      exact member.2
    · simp only [Array.getElem?_replicate] at version
      split at version
      next => exact (Option.some.inj version).symm
      next => cases version
    · simp only [Array.getElem?_replicate] at locked
      split at locked
      next => exact (Option.some.inj locked).symm
      next => cases locked

namespace Region

structure Valid (region : Region) : Prop where
  align_pos : 0 < region.config.align.toNat
  layout : ∀ segment align size, region.memory.layout segment = some (align, size) →
    align = region.config.align.toNat ∧ align ∣ size ∧ size ≤ maxSegmentSize.toNat
  dated : ∀ place cell, region.memory.cell? place = some cell →
    cell.version ≤ region.coordinator.clock
  registered : ∀ id (segment : Nat), region.table.registered? id = some segment ↔
    id.index = segment + 1 ∧ segment < region.memory.segments.size
  slots : region.table.slots.size = region.memory.segments.size + 1

/-- What was there stays, as far as a reader of the past may see it. -/
structure Extends (after before : Region) : Prop where
  config : after.config = before.config
  clock : before.coordinator.clock ≤ after.coordinator.clock
  registered : ∀ id segment, before.table.registered? id = some segment →
    after.table.registered? id = some segment
  layout : ∀ segment layout, before.memory.layout segment = some layout →
    after.memory.layout segment = some layout
  kept : ∀ id segment word cell, before.table.registered? id = some segment →
    after.memory.cell? ⟨segment, word⟩ = some cell → cell.version ≤ before.coordinator.clock →
      before.memory.cell? ⟨segment, word⟩ = some cell
  fresh : ∀ id segment word cell, before.table.registered? id = none →
    after.table.registered? id = some segment → after.memory.cell? ⟨segment, word⟩ = some cell →
      cell.bytes = List.replicate after.config.align.toNat 0 ∧ cell.version = 0

/-- An image shows the words up to a version, and is zero where there is no segment. -/
structure Shows (region : Region) (bound : Version) (image : Image) : Prop where
  written : ∀ id segment word cell, region.table.registered? id = some segment →
    region.memory.cell? ⟨segment, word⟩ = some cell → cell.version ≤ bound →
      cell.bytes =
        image.slice id (word * region.config.align.toNat) region.config.align.toNat
  blank : ∀ id, region.table.registered? id = none → ∀ offset, image id offset = 0

/-- Every word has the bytes of an image, which is zero where there is no segment. -/
structure Portrays (region : Region) (image : Image) : Prop where
  written : ∀ id segment word cell, region.table.registered? id = some segment →
    region.memory.cell? ⟨segment, word⟩ = some cell →
      cell.bytes =
        image.slice id (word * region.config.align.toNat) region.config.align.toNat
  blank : ∀ id, region.table.registered? id = none → ∀ offset, image id offset = 0

/-- Two regions differ in their clocks, their tallies and which segments are live
at most. -/
structure Steady (after before : Region) : Prop where
  config : after.config = before.config
  memory : after.memory = before.memory
  registered : ∀ id, after.table.registered? id = before.table.registered? id
  slots : after.table.slots.size = before.table.slots.size
  clock : before.coordinator.clock ≤ after.coordinator.clock

variable {before after : Region}

theorem Steady.valid (steady : after.Steady before) (valid : before.Valid) : after.Valid where
  align_pos := by
    rw [steady.config]
    exact valid.align_pos
  layout := by
    rw [steady.config, steady.memory]
    exact valid.layout
  dated := by
    rw [steady.memory]
    intro place cell found
    exact UInt64.le_trans (valid.dated place cell found) steady.clock
  registered := by
    intro id segment
    rw [steady.registered, steady.memory]
    exact valid.registered id segment
  slots := by
    rw [steady.slots, steady.memory]
    exact valid.slots

theorem Steady.toExtends (steady : after.Steady before) : after.Extends before where
  config := steady.config
  clock := steady.clock
  registered := by
    intro id segment found
    rw [steady.registered]
    exact found
  layout := by
    rw [steady.memory]
    exact fun _ _ found => found
  kept := by
    rw [steady.memory]
    exact fun _ _ _ _ _ found _ => found
  fresh := by
    intro id segment word cell absent found
    rw [steady.registered, absent] at found
    cases found

/-- What a region extends it goes on extending while it is steady. -/
theorem Steady.extends {middle : Region} (steady : after.Steady middle)
    (extended : middle.Extends before) : after.Extends before where
  config := steady.config.trans extended.config
  clock := UInt64.le_trans extended.clock steady.clock
  registered := by
    intro id segment found
    rw [steady.registered]
    exact extended.registered id segment found
  layout := by
    rw [steady.memory]
    exact extended.layout
  kept := by
    rw [steady.memory]
    exact extended.kept
  fresh := by
    intro id segment word cell absent found
    rw [steady.registered] at found
    rw [steady.memory, steady.config]
    exact extended.fresh id segment word cell absent found

/-- What is shown up to the clock is all there is. -/
theorem Shows.portrays {image : Image} (shows : before.Shows before.coordinator.clock image)
    (valid : before.Valid) : before.Portrays image where
  written := fun id segment word cell registered found =>
    shows.written id segment word cell registered found (valid.dated _ cell found)
  blank := shows.blank

/-- A new id was not given out before. -/
theorem Valid.unregistered {digest : Digest} {machine : Machine digest} {size : UInt64}
    {id : SegmentId} {table : SegmentTable} (valid : before.Valid)
    (registered : before.table.register machine before.memory.segments.size size =
      .ok (id, table)) : before.table.registered? id = none := by
  cases found : before.table.registered? id with
  | none => rfl
  | some segment =>
      rcases (valid.registered id segment).mp found with ⟨index, inside⟩
      have next := (SegmentTable.register_ok registered).1
      rw [valid.slots] at next
      omega

section Adding

variable {digest : Digest} {machine : Machine digest} {size : UInt64} {segment : Segment}
  {id : SegmentId} {table : SegmentTable}

/-- A segment that is added behind all others leaves a region valid. -/
theorem Valid.add (valid : before.Valid)
    (checked : Layout.checkSize size before.config.align = .ok (.ok ()))
    (created : Segment.create machine size before.config.align = .ok (.ok segment))
    (registered : before.table.register machine before.memory.segments.size size =
      .ok (id, table)) :
    ({ before with memory := (before.memory.add segment).2, table } : Region).Valid := by
  rcases Segment.create_ok created with ⟨alignEq, sizeEq, zeros⟩
  rcases SegmentTable.register_ok registered with ⟨next, _, slots, _⟩
  have length : (before.memory.add segment).2.segments.size = before.memory.segments.size + 1 := by
    simp [Memory.add]
  constructor
  · exact valid.align_pos
  · intro handle align bytes laidOut
    simp only [Memory.layout_add] at laidOut
    split at laidOut
    next =>
      cases laidOut
      rcases Layout.checkSize_ok checked with ⟨whole, fits⟩
      rw [alignEq, sizeEq]
      exact ⟨rfl, whole, fits⟩
    next => exact valid.layout handle align bytes laidOut
  · intro place cell found
    simp only [Memory.cell?_add] at found
    split at found
    next =>
      rw [(zeros _ cell found).2.1]
      exact UInt64.zero_le
    next => exact valid.dated place cell found
  · intro other handle
    simp only [SegmentTable.registered?_register registered, length]
    split
    next same =>
      rw [Option.some.injEq, same, next, valid.slots]
      change @Eq Nat before.memory.segments.size handle ↔ _
      omega
    next differ =>
      rw [valid.registered]
      have apart : other.index ≠ before.memory.segments.size + 1 := by
        intro same
        apply differ
        apply SegmentId.index_inj
        rw [same, next, valid.slots]
      omega
  · simp only [slots, Array.size_push, valid.slots, length]

/-- A segment that is added is new, and zero. -/
theorem Valid.add_extends (valid : before.Valid)
    (created : Segment.create machine size before.config.align = .ok (.ok segment))
    (registered : before.table.register machine before.memory.segments.size size =
      .ok (id, table)) :
    ({ before with memory := (before.memory.add segment).2, table } : Region).Extends before := by
  have absent := valid.unregistered registered
  constructor
  · rfl
  · exact UInt64.le_refl _
  · intro other handle found
    simp only [SegmentTable.registered?_register registered]
    split
    next same =>
      rw [same, absent] at found
      cases found
    next => exact found
  · intro handle layout laidOut
    simp only [Memory.layout_add]
    split
    next same =>
      rw [same, Memory.layout, Array.getElem?_eq_none (Nat.le_refl _)] at laidOut
      cases laidOut
    next => exact laidOut
  · intro other handle word cell registered found _
    rw [Memory.cell?_add, if_neg] at found
    · exact found
    · have inside := ((valid.registered other handle).mp registered).2
      exact Nat.ne_of_lt inside
  · intro other handle word cell unregistered now found
    simp only [SegmentTable.registered?_register registered] at now
    split at now
    next =>
      cases now
      rw [Memory.cell?_add, if_pos rfl] at found
      rcases (Segment.create_ok created).2.2 word cell found with ⟨zero, oldest, _⟩
      exact ⟨zero, oldest⟩
    next =>
      rw [unregistered] at now
      cases now

end Adding

/-- What an image shows of the past it goes on showing. -/
theorem Shows.mono {bound : Version} {image : Image} (shows : before.Shows bound image)
    (extended : after.Extends before) (past : bound ≤ before.coordinator.clock) :
    after.Shows bound image where
  written := by
    intro id segment word cell now found fits
    cases known : before.table.registered? id with
    | none =>
        rw [(extended.fresh id segment word cell known now found).1,
          Image.slice_of_zero (shows.blank id known)]
    | some handle =>
        have same := extended.registered id handle known
        rw [now] at same
        cases same
        rw [extended.config]
        apply shows.written id segment word cell known ?_ fits
        exact extended.kept id segment word cell known found (UInt64.le_trans fits past)
  blank := by
    intro id absent
    apply shows.blank id
    cases known : before.table.registered? id with
    | none => rfl
    | some handle =>
        rw [extended.registered id handle known] at absent
        cases absent

/-- A new region has one segment, entered in a table that had none, and has counted nothing. -/
theorem create_eq {digest : Digest} {machine : Machine digest} {config : RegionConfig}
    {region : Region}
    (created : create machine config = .ok (.ok region)) :
    config.align.toNat ≠ 0 ∧ config.align.toNat ∣ config.size.toNat ∧
      config.size.toNat ≤ maxSegmentSize.toNat ∧
      ∃ (segment : Segment) (id : SegmentId) (table : SegmentTable),
        Segment.create machine config.size config.align = .ok (.ok segment) ∧
        SegmentTable.register machine ⟨#[.vacant], 0, (max config.tableCapacity 2).toNat⟩ 0
          config.size = .ok (id, table) ∧
        region = {
          config, memory := (Memory.empty.add segment).2, table
          coordinator := .ofConfig config, tally := {} } := by
  rw [create] at created
  split at created
  next => cases created
  next => cases created
  next passed =>
    rcases RegionConfig.check_ok_layout passed with ⟨positive, whole, fits⟩
    refine ⟨positive, whole, fits, ?_⟩
    split at created
    next => cases created
    next => cases created
    next table made =>
      cases SegmentTable.eq_of_withCapacity made
      split at created
      next => cases created
      next => cases created
      next segment segmentMade =>
        simp only [Except.ok.injEq, bind_eq_ok, pure_eq_ok, Prod.exists] at created
        rcases created with ⟨id, table, registered, rfl⟩
        exact ⟨segment, id, table, segmentMade, registered, rfl⟩

/-- What creation puts together. -/
theorem create_ok {digest : Digest} {machine : Machine digest} {config : RegionConfig}
    {region : Region}
    (created : create machine config = .ok (.ok region)) :
    config.align.toNat ≠ 0 ∧ config.align.toNat ∣ config.size.toNat ∧
      config.size.toNat ≤ maxSegmentSize.toNat ∧
      ∃ (segment : Segment) (table : SegmentTable) (id : SegmentId),
        Segment.create machine config.size config.align = .ok (.ok segment) ∧
        table.slots = #[.vacant] ∧
        table.register machine 0 config.size = .ok (id, region.table) ∧
        region.config = config ∧ region.memory = (Memory.empty.add segment).2 ∧
        region.coordinator = .ofConfig config := by
  rcases create_eq created with ⟨positive, whole, fits, segment, id, table, made, registered, rfl⟩
  exact ⟨positive, whole, fits, segment, _, id, made, rfl, registered, rfl, rfl, rfl⟩

/-- The words of a new region are of zero bytes at version 0, and not locked. -/
theorem create_cells {digest : Digest} {machine : Machine digest} {config : RegionConfig}
    {region : Region} {place : Place} {cell : Cell}
    (created : create machine config = .ok (.ok region))
    (found : region.memory.cell? place = some cell) :
    cell.bytes = List.replicate config.align.toNat 0 ∧ cell.version = 0 ∧ cell.locked = false := by
  rcases create_ok created with ⟨_, _, _, segment, _, _, made, _, _, _, memory, _⟩
  rw [memory, Memory.cell?_add] at found
  split at found
  next => exact (Segment.create_ok made).2.2 _ cell found
  next => cases found

/-- A new region is valid. -/
theorem create_valid {digest : Digest} {machine : Machine digest} {config : RegionConfig}
    {region : Region}
    (created : create machine config = .ok (.ok region)) : region.Valid := by
  rcases create_ok created with ⟨positive, whole, fits, segment, table, id, made, slots, registered,
    configEq, memoryEq, coordinatorEq⟩
  rcases Segment.create_ok made with ⟨alignEq, sizeEq, _⟩
  rcases SegmentTable.register_ok registered with ⟨next, _, grown, _⟩
  have size : table.slots.size = 1 := by rw [slots]; rfl
  constructor
  · rw [configEq]
    exact Nat.pos_of_ne_zero positive
  · intro handle align bytes laidOut
    rw [memoryEq, Memory.layout_add] at laidOut
    split at laidOut
    next =>
      cases laidOut
      rw [configEq, alignEq, sizeEq]
      exact ⟨rfl, whole, fits⟩
    next => cases laidOut
  · intro place cell found
    rw [(create_cells created found).2.1]
    exact UInt64.zero_le
  · intro other handle
    rw [SegmentTable.registered?_register registered, memoryEq]
    split
    next same =>
      rw [Option.some.injEq, same, next, size]
      change @Eq Nat 0 handle ↔ 1 = handle + 1 ∧ handle < 1
      omega
    next differ =>
      have vacant : table.registered? other = none := by
        rw [SegmentTable.registered?, slots]
        rcases Nat.eq_zero_or_pos other.index with zero | positive
        · rw [zero]
          rfl
        · rw [Array.getElem?_eq_none positive]
          rfl
      have apart : other.index ≠ 1 := by
        intro same
        apply differ
        apply SegmentId.index_inj
        rw [same, next, size]
      change table.registered? other = some handle ↔ other.index = handle + 1 ∧ handle < 1
      rw [vacant]
      constructor
      · intro impossible
        cases impossible
      · intro ⟨index, below⟩
        omega
  · rw [grown, memoryEq, Array.size_push, size]
    rfl

/-- A new region shows zeros. -/
theorem create_shows {digest : Digest} {machine : Machine digest} {config : RegionConfig}
    {region : Region}
    (created : create machine config = .ok (.ok region)) (bound : Version) :
    region.Shows bound Image.zero where
  written := by
    rcases create_ok created with ⟨_, _, _, _, _, _, _, _, _, configEq, _⟩
    intro id handle word cell _ found _
    rw [configEq, (create_cells created found).1]
    exact (Image.slice_of_zero (fun _ => rfl) _ _).symm
  blank := fun _ _ _ => rfl

end Region

end WordStm
