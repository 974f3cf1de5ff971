import Mathlib.Data.List.Find
import WordStm.Proofs.Access
import WordStm.Proofs.History
import WordStm.Proofs.Operation
import WordStm.Proofs.Settlement

/-!
# What a write set stands for

A write set reflects the writes that a transaction made: word by word it has the
bytes that replaying them puts over any image.  A write that overlaps an earlier
one keeps this, as it assigns whole words.

When the entries are published, memory shows the image after the replay.
-/

namespace WordStm

/-- Words of equal length do not overlap. -/
theorem Nat.words_apart {align word other : Nat} (differ : other ≠ word) :
    other * align + align ≤ word * align ∨ word * align + align ≤ other * align := by
  rcases Nat.lt_or_gt_of_ne differ with less | greater
  · left
    rw [← Nat.succ_mul]
    exact Nat.mul_le_mul_right align less
  · right
    rw [← Nat.succ_mul]
    exact Nat.mul_le_mul_right align greater

namespace WriteEntry

/-- Some entries have, word by word, what some deeds write. -/
def Reflects (align : Nat) (entries : List WriteEntry) (deeds : List Deed) : Prop :=
  ∀ (image : Image) (id : SegmentId) (word : Nat), (word + 1) * align ≤ maxSegmentSize.toNat →
    (image.replay deeds).slice id (word * align) align =
      (value? entries (.ofWord align id word)).getD (image.slice id (word * align) align)

theorem reflects_nil (align : Nat) : Reflects align [] [] := fun _ _ _ _ => rfl

/-- What leaves every image alone needs no entry. -/
theorem Reflects.of_apply_eq {align : Nat} {entries : List WriteEntry} {deeds : List Deed}
    {deed : Deed} (reflects : Reflects align entries deeds)
    (idle : ∀ image, deed.apply image = image) : Reflects align entries (deeds ++ [deed]) := by
  intro image id word fits
  rw [Image.replay_append, Image.replay_cons, Image.replay_nil, idle]
  exact reflects image id word fits

/-- Assigning a word has the effect of putting its value over an image. -/
theorem assign_overlay {align : Nat} {id other : SegmentId} {segment : Handle} {word position : Nat}
    {value : Bytes} {entries : List WriteEntry} {image changed : Image} (positive : 0 < align)
    (whole : value.length = align) (fits : (word + 1) * align ≤ maxSegmentSize.toNat)
    (inside : (position + 1) * align ≤ maxSegmentSize.toNat)
    (reflected : changed.slice other (position * align) align =
      (value? entries (.ofWord align other position)).getD
        (image.slice other (position * align) align)) :
    (changed.overlay id (word * align) value).slice other (position * align) align =
      (value? (assign (.ofWord align id word) ⟨segment, word⟩ value entries)
        (.ofWord align other position)).getD (image.slice other (position * align) align) := by
  have limit : maxSegmentSize.toNat = 2 ^ 40 := rfl
  rw [Nat.succ_mul] at fits inside
  have same : Address.ofWord align other position = .ofWord align id word ↔
      other = id ∧ position = word := Address.ofWord_inj positive (by omega) (by omega)
  rw [value?_assign]
  split
  next here =>
    rcases same.mp here with ⟨rfl, rfl⟩
    have read := Image.slice_overlay_self changed other (position * align) value
    rw [whole] at read
    exact read
  next elsewhere =>
    rw [← reflected]
    apply Image.slice_overlay_of_apart
    by_cases segments : other = id
    · right
      rw [whole]
      apply Nat.words_apart
      intro words
      exact elsewhere (same.mpr ⟨segments, words⟩)
    · exact .inl segments

/-- Assigning words in a row has the effect of putting all of the value over an image. -/
theorem assignWords_overlay {align : Nat} {id : SegmentId} {segment : Handle} {word count : Nat}
    {value : Bytes} {entries : List WriteEntry} {image changed : Image} (positive : 0 < align)
    (whole : value.length = count * align)
    (fits : (word + count) * align ≤ maxSegmentSize.toNat)
    (reflected : ∀ other position, (position + 1) * align ≤ maxSegmentSize.toNat →
      changed.slice other (position * align) align =
        (value? entries (.ofWord align other position)).getD
          (image.slice other (position * align) align)) :
    ∀ other position, (position + 1) * align ≤ maxSegmentSize.toNat →
      (changed.overlay id (word * align) value).slice other (position * align) align =
        (value? (assignWords align id segment word value entries count)
          (.ofWord align other position)).getD (image.slice other (position * align) align) := by
  induction count generalizing word value entries changed with
  | zero =>
      rw [Nat.zero_mul, List.length_eq_zero_iff] at whole
      subst whole
      rw [Image.overlay_nil]
      exact reflected
  | succ count ih =>
      have first : (value.take align).length = align := by
        rw [List.length_take, whole, Nat.succ_mul]
        omega
      have rest : (value.drop align).length = count * align := by
        rw [List.length_drop, whole, Nat.succ_mul]
        omega
      have fitsFirst : (word + 1) * align ≤ maxSegmentSize.toNat := by
        apply Nat.le_trans (Nat.mul_le_mul_right align _) fits
        omega
      have cut := Image.overlay_append changed id (word * align) (value.take align)
        (value.drop align)
      rw [List.take_append_drop, first, ← Nat.succ_mul] at cut
      rw [cut]
      apply ih rest
      · rw [Nat.succ_add_eq_add_succ]
        exact fits
      · intro other position inside
        exact assign_overlay positive first fitsFirst inside (reflected other position inside)

/-- A write that succeeds is reflected. -/
theorem Reflects.assignWords {align : Nat} {target : Address} {segment : Handle}
    {word count : Nat} {value : Bytes} {entries : List WriteEntry} {deeds : List Deed}
    {reply : Reply} (reflects : Reflects align entries deeds) (positive : 0 < align)
    (offset : target.offset.toNat = word * align) (whole : value.length = count * align)
    (fits : (word + count) * align ≤ maxSegmentSize.toNat) :
    Reflects align (WriteEntry.assignWords align target.segment segment word value entries count)
      (deeds ++ [⟨.write value target, reply⟩]) := by
  intro image id position inside
  rw [Image.replay_append, Image.replay_cons, Image.replay_nil, Deed.apply_write, offset]
  apply assignWords_overlay positive whole fits ?_ id position inside
  intro other place within
  exact reflects image other place within

/-- An entry is of a word that exists, and has as many bytes as the word. -/
def Placed (region : Region) (entry : WriteEntry) : Prop :=
  ∃ segment word size, region.table.registered? entry.address.segment = some segment ∧
    entry.place = ⟨segment, word⟩ ∧
    entry.address = .ofWord region.config.align.toNat entry.address.segment word ∧
    region.memory.layout segment = some (region.config.align.toNat, size) ∧
    (word + 1) * region.config.align.toNat ≤ size ∧
    entry.value.length = region.config.align.toNat

theorem Placed.mono {before after : Region} {entry : WriteEntry} (placed : Placed before entry)
    (extended : after.Extends before) : Placed after entry := by
  rcases placed with ⟨segment, word, size, registered, place, address, laidOut, inside, whole⟩
  rw [← extended.config] at address laidOut inside whole
  exact ⟨segment, word, size, extended.registered _ _ registered, place, address,
    extended.layout _ _ laidOut, inside, whole⟩

/-- Assigning a word that exists keeps every entry placed. -/
theorem Placed.assign {region : Region} {id : SegmentId} {segment : Handle} {word size : Nat}
    {value : Bytes} {entries : List WriteEntry} (placed : ∀ entry ∈ entries, Placed region entry)
    (registered : region.table.registered? id = some segment)
    (laidOut : region.memory.layout segment = some (region.config.align.toNat, size))
    (inside : (word + 1) * region.config.align.toNat ≤ size)
    (whole : value.length = region.config.align.toNat) :
    ∀ entry ∈ WriteEntry.assign (.ofWord region.config.align.toNat id word) ⟨segment, word⟩ value
      entries, Placed region entry := by
  intro entry member
  rcases mem_assign member with old | ⟨address, valueEq, origin⟩
  · exact placed entry old
  · rw [← valueEq] at whole
    rcases origin with place | ⟨old, oldMember, oldAddress, oldPlace⟩
    · refine ⟨segment, word, size, ?_, place, ?_, laidOut, inside, whole⟩
      · rw [address]
        exact registered
      · rw [address]
        rfl
    · -- the place is that of an earlier entry of the same address
      rcases placed old oldMember with
        ⟨oldSegment, oldWord, oldSize, oldRegistered, oldPlaceEq, oldAddressEq, oldLaidOut,
          oldInside, _⟩
      rw [oldAddress, ← address] at oldRegistered oldAddressEq
      exact ⟨oldSegment, oldWord, oldSize, oldRegistered, oldPlace ▸ oldPlaceEq, oldAddressEq,
        oldLaidOut, oldInside, whole⟩

theorem Placed.assignWords {region : Region} {id : SegmentId} {segment : Handle}
    {word count size : Nat} {value : Bytes} {entries : List WriteEntry}
    (placed : ∀ entry ∈ entries, Placed region entry)
    (registered : region.table.registered? id = some segment)
    (laidOut : region.memory.layout segment = some (region.config.align.toNat, size))
    (inside : (word + count) * region.config.align.toNat ≤ size)
    (enough : count * region.config.align.toNat ≤ value.length) :
    ∀ entry ∈ WriteEntry.assignWords region.config.align.toNat id segment word value entries count,
      Placed region entry := by
  induction count generalizing word value entries with
  | zero => exact placed
  | succ count ih =>
      rw [Nat.succ_mul] at enough
      apply ih
      · apply Placed.assign placed registered laidOut
        · apply Nat.le_trans (Nat.mul_le_mul_right _ _) inside
          omega
        · rw [List.length_take]
          omega
      · rw [Nat.succ_add_eq_add_succ]
        exact inside
      · rw [List.length_drop]
        omega

/-- Among placed entries, those of a word are those of its address. -/
theorem find?_place {region : Region} {id : SegmentId} {segment : Handle} {word size : Nat}
    {entries : List WriteEntry} (valid : region.Valid)
    (placed : ∀ entry ∈ entries, Placed region entry)
    (registered : region.table.registered? id = some segment)
    (laidOut : region.memory.layout segment = some (region.config.align.toNat, size))
    (inside : word * region.config.align.toNat ≤ size) :
    entries.find? (·.place == ⟨segment, word⟩) =
      lookup entries (.ofWord region.config.align.toNat id word) := by
  have limit : maxSegmentSize.toNat = 2 ^ 40 := rfl
  apply List.find?_congr
  intro entry member
  rcases placed entry member with
    ⟨other, position, bytes, known, place, address, otherLaidOut, within, _⟩
  have fits := (valid.layout _ _ _ laidOut).2.2
  have otherFits := (valid.layout _ _ _ otherLaidOut).2.2
  rw [Nat.succ_mul] at within
  have same : Address.ofWord region.config.align.toNat entry.address.segment position =
      .ofWord region.config.align.toNat id word ↔ entry.address.segment = id ∧ position = word :=
    Address.ofWord_inj valid.align_pos (by omega) (by omega)
  rw [Bool.eq_iff_iff, beq_iff_eq, beq_iff_eq, address, same, place, Place.mk.injEq]
  constructor
  · rintro ⟨rfl, words⟩
    refine ⟨?_, words⟩
    have left := (valid.registered _ _).mp known
    have right := (valid.registered _ _).mp registered
    apply SegmentId.index_inj
    rw [left.1, right.1]
  · rintro ⟨rfl, words⟩
    rw [registered] at known
    cases known
    exact ⟨rfl, words⟩

end WriteEntry

namespace Region

/-- A word that exists ends within its segment. -/
theorem Valid.word_inside {region : Region} (valid : region.Valid) {segment : Handle} {word : Nat}
    {cell : Cell} (found : region.memory.cell? ⟨segment, word⟩ = some cell) :
    ∃ size, region.memory.layout segment = some (region.config.align.toNat, size) ∧
      (word + 1) * region.config.align.toNat ≤ size ∧ size ≤ maxSegmentSize.toNat ∧
      cell.bytes.length = region.config.align.toNat := by
  have filled : (region.memory.cell? ⟨segment, word⟩).isSome := by rw [found]; rfl
  rcases Memory.isSome_cell?_iff.mp filled with ⟨align, size, laidOut, inside⟩
  rcases valid.layout segment align size laidOut with ⟨rfl, whole, fits⟩
  refine ⟨size, laidOut, ?_, fits, Memory.length_of_cell? found laidOut⟩
  calc (word + 1) * region.config.align.toNat
      ≤ size / region.config.align.toNat * region.config.align.toNat :=
        Nat.mul_le_mul_right _ inside
    _ ≤ size := Nat.div_mul_le_self _ _

/-- After a commit that publishes, memory shows the image after the replay. -/
theorem Valid.publish_shows {region : Region} {transaction : Transaction}
    {outcome : Coordinator.Outcome} {image : Image} {deeds : List Deed} (valid : region.Valid)
    (publishes : Coordinator.Publishes region.coordinator region.memory transaction outcome)
    (placed : ∀ entry ∈ transaction.log.writes.entries.toList, WriteEntry.Placed region entry)
    (reflects : WriteEntry.Reflects region.config.align.toNat
      transaction.log.writes.entries.toList deeds)
    (rooted : ∀ id, region.table.registered? id = none → image.replay deeds id = image id)
    (shows : region.Shows region.coordinator.clock image)
    (ids : List SegmentId) (version bound : Version) (tally : Tally) :
    ({ region with
        coordinator := outcome.coordinator
        memory := outcome.memory
        table := region.table.retireAll ids version
        tally } : Region).Shows bound (image.replay deeds) where
  written := by
    intro id segment word cell registered found _
    simp only [SegmentTable.registered?_retireAll] at registered
    simp only [publishes.cells] at found
    -- the word was there before, with the bytes that the image shows
    have present : ∃ old, region.memory.cell? ⟨segment, word⟩ = some old := by
      cases known : region.memory.cell? ⟨segment, word⟩ with
      | none => split at found <;> simp [known] at found
      | some old => exact ⟨old, rfl⟩
    rcases present with ⟨old, present⟩
    rcases valid.word_inside present with ⟨size, laidOut, inside, fits, length⟩
    have shown := shows.written id segment word old registered present (valid.dated _ _ present)
    have before : word * region.config.align.toNat ≤ size := by
      rw [Nat.succ_mul] at inside
      omega
    rw [reflects image id word (Nat.le_trans inside fits), WriteEntry.value?,
      ← WriteEntry.find?_place valid placed registered laidOut before, ← shown]
    split at found
    next entry written =>
      rw [present] at found
      cases found
      rcases placed entry (List.mem_of_find?_eq_some written) with ⟨_, _, _, _, _, _, _, _, whole⟩
      have replaced : old.bytes.drop entry.value.length = [] :=
        List.drop_of_length_le (by rw [length, whole])
      have kept : entry.value.take old.bytes.length = entry.value :=
        List.take_of_length_le (by rw [length, whole])
      simp [Cell.put, written, replaced, kept]
    next missing =>
      rw [present] at found
      cases found
      simp [missing]
  blank := by
    intro id absent offset
    simp only [SegmentTable.registered?_retireAll] at absent
    rw [rooted id absent]
    exact shows.blank id absent offset

end Region

end WordStm
