import WordStm.Proofs.Filter
import WordStm.Proofs.Outcome
import WordStm.TransactionLog

/-!
# Write sets are exact

A lookup consults the filter first and scans only if the filter affirms.  As
long as every entry's address is affirmed, the answer is that of the scan alone,
whatever else the filter affirms.  Recording a value keeps it so, and is
`WriteEntry.assign` on the list of entries: the value of an address that has an
entry is replaced in place, and any other address goes to the end.
-/

namespace WordStm

namespace WriteEntry

/-- Give an address a value.  An entry that is there already keeps its position
and its place. -/
def assign (address : Address) (place : Place) (value : Bytes) :
    List WriteEntry → List WriteEntry
  | [] => [⟨address, place, value⟩]
  | entry :: rest =>
      if entry.address = address then { entry with value } :: rest
      else entry :: assign address place value rest

/-- The entry of an address. -/
def lookup (entries : List WriteEntry) (address : Address) : Option WriteEntry :=
  entries.find? (·.address == address)

theorem lookup_cons (entry : WriteEntry) (rest : List WriteEntry) (address : Address) :
    lookup (entry :: rest) address =
      if entry.address = address then some entry else lookup rest address := by
  by_cases same : entry.address = address
  · simp [lookup, same]
  · simp [lookup, same]

/-- What a lookup finds is an entry of that address. -/
theorem of_lookup {entries : List WriteEntry} {address : Address} {entry : WriteEntry}
    (found : lookup entries address = some entry) : entry ∈ entries ∧ entry.address = address := by
  constructor
  · exact List.mem_of_find?_eq_some found
  · simpa using List.find?_some found

/-- The assigned address has the value; the others are as they were. -/
theorem lookup_assign (address : Address) (place : Place) (value : Bytes)
    (entries : List WriteEntry) (other : Address) :
    lookup (assign address place value entries) other =
      if other = address then
        some ⟨address, ((lookup entries address).map (·.place)).getD place, value⟩
      else lookup entries other := by
  induction entries with
  | nil =>
      by_cases same : other = address
      · subst same
        simp [assign, lookup]
      · simp [assign, lookup, same, Ne.symm same]
  | cons entry rest ih =>
      rw [assign]
      by_cases here : entry.address = address
      · rw [if_pos here, lookup_cons, lookup_cons, lookup_cons, if_pos here]
        by_cases same : other = address
        · subst same
          rw [if_pos rfl, if_pos here, ← here]
          rfl
        · have apart : entry.address ≠ other := fun equal => same (by rw [← equal, here])
          rw [if_neg same, if_neg apart, if_neg apart]
      · rw [if_neg here, lookup_cons, lookup_cons, lookup_cons, if_neg here, ih]
        by_cases same : other = address
        · subst same
          rw [if_neg here, if_pos rfl, if_pos rfl]
        · rw [if_neg same, if_neg same]

/-- Every entry is an old one, or the assigned one in its old place. -/
theorem mem_assign {address : Address} {place : Place} {value : Bytes}
    {entries : List WriteEntry} {entry : WriteEntry}
    (member : entry ∈ assign address place value entries) :
    entry ∈ entries ∨ (entry.address = address ∧ entry.value = value ∧
      (entry.place = place ∨
        ∃ old ∈ entries, old.address = address ∧ old.place = entry.place)) := by
  induction entries with
  | nil =>
      right
      rw [assign, List.mem_singleton] at member
      subst member
      exact ⟨rfl, rfl, .inl rfl⟩
  | cons head rest ih =>
      rw [assign] at member
      split at member
      next here =>
        rcases List.mem_cons.mp member with first | later
        · right
          subst first
          exact ⟨here, rfl, .inr ⟨head, List.mem_cons_self, here, rfl⟩⟩
        · exact .inl (List.mem_cons_of_mem _ later)
      next =>
        rcases List.mem_cons.mp member with first | later
        · exact .inl (first ▸ List.mem_cons_self)
        · rcases ih later with old | ⟨sameAddress, sameValue, origin⟩
          · exact .inl (List.mem_cons_of_mem _ old)
          · right
            refine ⟨sameAddress, sameValue, ?_⟩
            rcases origin with new | ⟨old, oldMember, oldAddress, oldPlace⟩
            · exact .inl new
            · exact .inr ⟨old, List.mem_cons_of_mem _ oldMember, oldAddress, oldPlace⟩

/-- Assigning never makes a second entry of an address. -/
theorem assign_distinct (address : Address) (place : Place) (value : Bytes)
    {entries : List WriteEntry} (distinct : entries.Pairwise (·.address ≠ ·.address)) :
    (assign address place value entries).Pairwise (·.address ≠ ·.address) := by
  induction distinct with
  | nil => exact List.pairwise_singleton _ _
  | @cons head rest apart tail ih =>
      rw [assign]
      split
      next => exact List.Pairwise.cons apart tail
      next elsewhere =>
        refine List.Pairwise.cons ?_ ih
        intro entry member
        rcases mem_assign member with old | ⟨sameAddress, _, _⟩
        · exact apart entry old
        · rw [sameAddress]
          exact elsewhere

theorem assign_ne_nil (address : Address) (place : Place) (value : Bytes)
    (entries : List WriteEntry) : assign address place value entries ≠ [] := by
  cases entries with
  | nil => simp [assign]
  | cons head rest =>
      rw [assign]
      split <;> simp

/-- Replacing at the position that a scan finds, or adding at the end if it
finds none, assigns. -/
theorem assign_eq_modify (address : Address) (place : Place) (value : Bytes)
    (entries : List WriteEntry) :
    assign address place value entries =
      match entries.findIdx? (·.address == address) with
      | some index => entries.modify index ({ · with value := value })
      | none => entries ++ [⟨address, place, value⟩] := by
  induction entries with
  | nil => rfl
  | cons head rest ih =>
      rw [assign, List.findIdx?_cons]
      by_cases here : head.address = address
      · simp [here]
      · rw [if_neg here, ih]
        cases found : rest.findIdx? (·.address == address) with
        | none => simp [here]
        | some index => simp [here]

end WriteEntry

namespace WriteSet

variable {digest : Digest} {machine : Machine digest} {writes after : WriteSet} {address : Address}
  {place : Place} {value : Bytes} {failure : Failure}

/-- The filter affirms the address of every entry, and no address has two. -/
structure Sound (digest : Digest) (writes : WriteSet) : Prop where
  affirmed : ∀ entry ∈ writes.entries.toList, writes.filter.mayContain digest entry.address = true
  distinct : writes.entries.toList.Pairwise (·.address ≠ ·.address)

/-- Two write sets differ in their count of false positives at most. -/
structure Alike (left right : WriteSet) : Prop where
  entries : left.entries = right.entries
  filter : left.filter = right.filter

theorem Alike.refl (writes : WriteSet) : writes.Alike writes := ⟨rfl, rfl⟩

theorem Alike.trans {first second third : WriteSet} (left : first.Alike second)
    (right : second.Alike third) : first.Alike third :=
  ⟨left.entries.trans right.entries, left.filter.trans right.filter⟩

theorem Alike.sound {left right : WriteSet} (alike : left.Alike right)
    (sound : right.Sound digest) : left.Sound digest where
  affirmed := by
    rw [alike.entries, alike.filter]
    exact sound.affirmed
  distinct := by
    rw [alike.entries]
    exact sound.distinct

theorem sound_empty (digest : Digest) (filter : AddressFilter) : (empty filter).Sound digest where
  affirmed := by simp [empty]
  distinct := by simp [empty]

theorem entry?_eq_lookup (writes : WriteSet) (address : Address) :
    writes.entry? address = WriteEntry.lookup writes.entries.toList address := by
  unfold entry?
  simp [WriteEntry.lookup]

theorem position_alike (digest : Digest) (writes : WriteSet) (address : Address) :
    (writes.position digest address).2.Alike writes :=
  ⟨(position_entries digest writes address).1, (position_entries digest writes address).2⟩

theorem get_alike (digest : Digest) (writes : WriteSet) (address : Address) :
    (writes.get digest address).2.Alike writes :=
  position_alike digest writes address

theorem contains_alike (digest : Digest) (writes : WriteSet) (address : Address) :
    (writes.contains digest address).2.Alike writes :=
  position_alike digest writes address

/-- The position of an address is where a scan finds it. -/
theorem Sound.position_eq (sound : writes.Sound digest) (address : Address) :
    (writes.position digest address).1 =
      writes.entries.toList.findIdx? (·.address == address) := by
  rw [position]
  split
  next affirmed =>
    rw [← List.findIdx?_toArray, Array.toArray_toList]
    split
    next scanned => exact scanned.symm
    next scanned => exact scanned.symm
  next denied =>
    rw [eq_comm, List.findIdx?_eq_none_iff]
    intro entry member
    -- an entry of this address would have been affirmed
    have different : entry.address ≠ address := by
      intro same
      have contained := sound.affirmed entry member
      rw [same] at contained
      exact denied contained
    simpa using different

/-- A lookup answers what a scan would. -/
theorem Sound.get_eq (sound : writes.Sound digest) (address : Address) :
    (writes.get digest address).1 = writes.entry? address := by
  have scanned := sound.position_eq address
  have alike := position_alike digest writes address
  simp only [get]
  rw [scanned, alike.entries, entry?_eq_lookup, WriteEntry.lookup,
    List.find?_eq_bind_findIdx?_getElem?]
  simp

theorem Sound.contains_iff (sound : writes.Sound digest) (address : Address) :
    (writes.contains digest address).1 = true ↔
      ∃ entry ∈ writes.entries.toList, entry.address = address := by
  simp only [contains]
  rw [sound.position_eq, List.findIdx?_isSome, List.any_eq_true]
  simp

/-- Recording needs room for an address that has no entry. -/
theorem Sound.record_snd (sound : writes.Sound digest) (machine : Machine digest)
    (address : Address) (place : Place) (value : Bytes) :
    (writes.record machine address place value).2 =
      if (writes.entry? address).isSome then .ok ()
      else machine.makeRoom WriteEntry.bytes writes.entries.size := by
  have scanned := sound.position_eq address
  have alike := position_alike digest writes address
  have known : (writes.entry? address).isSome =
      (writes.entries.toList.findIdx? (·.address == address)).isSome := by
    rw [entry?_eq_lookup, WriteEntry.lookup, List.findIdx?_isSome, Bool.eq_iff_iff,
      List.find?_isSome, List.any_eq_true]
  rw [known, ← scanned, record]
  split
  next index middle located => simp [located]
  next middle located =>
    rw [located] at alike
    have same : middle.entries = writes.entries := alike.entries
    simp only [located, Option.isSome_none, Bool.false_eq_true, if_false, same]
    split
    next refused => exact refused.symm
    next granted => exact granted.symm

/-- Recording assigns, if there is room. -/
theorem Sound.entries_record (sound : writes.Sound digest)
    (recorded : writes.record machine address place value = (after, .ok ())) :
    after.entries.toList = WriteEntry.assign address place value writes.entries.toList := by
  have scanned := sound.position_eq address
  have alike := position_alike digest writes address
  rw [WriteEntry.assign_eq_modify, ← scanned]
  rw [record] at recorded
  split at recorded
  next index middle located =>
    rw [located] at alike
    have same : middle.entries = writes.entries := alike.entries
    cases recorded
    simp [located, same]
  next middle located =>
    rw [located] at alike
    have same : middle.entries = writes.entries := alike.entries
    split at recorded
    next => cases recorded
    next =>
      cases recorded
      simp [located, same]

/-- Without room, recording changes nothing but the count of false positives. -/
theorem alike_of_record (refused : writes.record machine address place value =
    (after, .error failure)) : after.Alike writes := by
  have alike := position_alike digest writes address
  rw [record] at refused
  split at refused
  next => cases refused
  next middle located =>
    rw [located] at alike
    split at refused
    next =>
      cases refused
      exact alike
    next => cases refused

/-- Recording inserts every new address into the filter. -/
theorem Sound.affirmed_record (sound : writes.Sound digest)
    (recorded : writes.record machine address place value = (after, .ok ())) :
    ∀ entry ∈ after.entries.toList, after.filter.mayContain digest entry.address = true := by
  have kept := (position_alike digest writes address).sound sound
  rw [record] at recorded
  intro entry member
  split at recorded
  next index middle located =>
    rw [located] at kept
    cases recorded
    rw [Array.toList_modify] at member
    obtain ⟨position, inside, same⟩ := List.mem_iff_getElem.mp member
    rw [List.getElem_modify] at same
    rw [List.length_modify] at inside
    -- a value was replaced at most, so the address is that of an old entry
    have old := kept.affirmed _ (List.getElem_mem inside)
    split at same <;> rw [← same] <;> exact old
  next middle located =>
    rw [located] at kept
    split at recorded
    next => cases recorded
    next =>
      cases recorded
      rw [Array.toList_push, List.mem_append, List.mem_singleton] at member
      rcases member with old | new
      · exact AddressFilter.mayContain_insert_of (kept.affirmed entry old) _
      · subst new
        exact AddressFilter.mayContain_insert_self _ _ _

/-- Recording keeps a write set sound, whether or not there is room. -/
theorem Sound.record (sound : writes.Sound digest) (machine : Machine digest) (address : Address)
    (place : Place) (value : Bytes) :
    (writes.record machine address place value).1.Sound digest := by
  cases recorded : writes.record machine address place value with
  | mk after result =>
      cases result with
      | error failure => exact (alike_of_record recorded).sound sound
      | ok =>
          refine ⟨sound.affirmed_record recorded, ?_⟩
          rw [sound.entries_record recorded]
          exact WriteEntry.assign_distinct address place value sound.distinct

end WriteSet

end WordStm
