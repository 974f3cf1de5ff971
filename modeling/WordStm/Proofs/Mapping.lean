import Mathlib.Data.Finset.Card
import Mathlib.Data.List.Induction
import WordStm.Proofs.Atomicity
import WordStm.Proofs.LockOrders

/-!
# A write set is a map

Seen from outside, a write set is a plain map from addresses to the values that were
last recorded for them, with the addresses in the order of their first record.  The
filter in front of it may affirm anything, or everything: it costs scans, and no call
answers differently.  A record for which there is no room records nothing.
-/

namespace WordStm

namespace WriteEntry

/-- The plain map from each address to the value that it was last given. -/
def plain (told : List WriteEntry) : Address → Option Bytes :=
  told.foldl (fun map entry => Function.update map entry.address (some entry.value)) fun _ => none

/-- Assign values one after another. -/
def arrange (told : List WriteEntry) : List WriteEntry :=
  told.foldl (fun entries entry => assign entry.address entry.place entry.value entries) []

/-- What an entry keeps when its value is replaced. -/
def key (entry : WriteEntry) : Address × Place := (entry.address, entry.place)

theorem plain_snoc (told : List WriteEntry) (entry : WriteEntry) (address : Address) :
    plain (told ++ [entry]) address =
      if address = entry.address then some entry.value else plain told address := by
  simp [plain, Function.update_apply]

theorem lookup_snoc (told : List WriteEntry) (entry : WriteEntry) (address : Address) :
    lookup (told ++ [entry]) address =
      (lookup told address).or (if address = entry.address then some entry else none) := by
  rw [lookup, List.find?_append]
  congr 1
  by_cases same : address = entry.address
  · simp [same]
  · simp [same, Ne.symm same]

theorem arrange_snoc (told : List WriteEntry) (entry : WriteEntry) :
    arrange (told ++ [entry]) = assign entry.address entry.place entry.value (arrange told) := by
  simp [arrange]

/-- An address has a value if it was given one. -/
theorem isSome_plain (told : List WriteEntry) (address : Address) :
    (plain told address).isSome = (lookup told address).isSome := by
  induction told using List.reverseRecOn with
  | nil => rfl
  | append_singleton told entry ih =>
      rw [plain_snoc, lookup_snoc]
      split
      next => simp
      next => simpa using ih

/-- The entry of an address has its last value, and its first place. -/
theorem lookup_arrange (told : List WriteEntry) (address : Address) :
    lookup (arrange told) address = (plain told address).bind fun value =>
      (lookup told address).map fun first => ⟨address, first.place, value⟩ := by
  induction told using List.reverseRecOn with
  | nil => rfl
  | append_singleton told entry ih =>
      rw [arrange_snoc, lookup_assign, plain_snoc, lookup_snoc]
      by_cases same : address = entry.address
      · subst same
        -- the place is that of the first record, and this is the first if there was none
        have both := isSome_plain told entry.address
        rw [ih]
        cases first : lookup told entry.address with
        | none => simp
        | some earlier =>
            rw [first] at both
            rcases Option.isSome_iff_exists.mp both with ⟨value, known⟩
            simp [known]
      · simp [same, ih]

/-- Values are replaced in place, and everything new goes to the end. -/
theorem key_assign (address : Address) (place : Place) (value : Bytes)
    (entries : List WriteEntry) :
    entries.map key <+: (assign address place value entries).map key := by
  induction entries with
  | nil => exact List.nil_prefix
  | cons entry rest ih =>
      rw [assign]
      split
      next => exact List.prefix_rfl
      next =>
        rw [List.map_cons, List.map_cons]
        exact List.cons_prefix_cons.mpr ⟨rfl, ih⟩

theorem key_arrange (told later : List WriteEntry) :
    (arrange told).map key <+: (arrange (told ++ later)).map key := by
  induction later using List.reverseRecOn with
  | nil => rw [List.append_nil]
  | append_singleton later entry ih =>
      rw [← List.append_assoc, arrange_snoc]
      exact ih.trans (key_assign _ _ _ _)

theorem map_address_arrange (told : List WriteEntry) :
    (arrange told).map (·.address) = (told.map (·.address)).eraseDups := by
  induction told using List.reverseRecOn with
  | nil => rfl
  | append_singleton told entry ih =>
      rw [arrange_snoc, List.map_append, List.map_singleton]
      exact map_address_assign_eraseDups ih

end WriteEntry

namespace WriteSet

/-- What can be asked of a write set.  Every record meets a machine of its own, so memory may
run out at any time and be there again later. -/
inductive Call (digest : Digest) where
  | record (machine : Machine digest) (address : Address) (place : Place) (value : Bytes)
  | get (address : Address)
  | contains (address : Address)
  | clear

/-- What a call answers. -/
inductive Reply where
  | recorded (result : Except Failure Unit)
  | entry (entry : Option WriteEntry)
  | known (known : Bool)
  | cleared

variable {digest : Digest}

namespace Call

/-- Whether the plain map takes a value for an address: one that it has not yet needs room
beside the others. -/
def roomFor (machine : Machine digest) (told : List WriteEntry) (address : Address) :
    Except Failure Unit :=
  if (WriteEntry.plain told address).isSome then .ok ()
  else machine.makeRoom WriteEntry.bytes (told.map (·.address)).eraseDups.length

/-- What was recorded since the last clear, given what was before a call. -/
def tells (told : List WriteEntry) : Call digest → List WriteEntry
  | record machine address place value =>
      match roomFor machine told address with
      | .ok () => told ++ [⟨address, place, value⟩]
      | .error _ => told
  | get _ | contains _ => told
  | clear => []

/-- What was recorded since the last clear, in order and with repetitions. -/
def told (calls : List (Call digest)) : List WriteEntry := calls.foldl tells []

/-- What a call answers by the plain map. -/
def answer (told : List WriteEntry) : Call digest → Reply
  | record machine address _ _ => .recorded (roomFor machine told address)
  | get address => .entry ((WriteEntry.plain told address).bind fun value =>
      (WriteEntry.lookup told address).map fun first => ⟨address, first.place, value⟩)
  | contains address => .known (WriteEntry.plain told address).isSome
  | clear => .cleared

theorem told_snoc (calls : List (Call digest)) (call : Call digest) :
    told (calls ++ [call]) = call.tells (told calls) := by
  simp [told]

/-- As long as nothing is cleared, more and more is told. -/
theorem told_append {later : List (Call digest)} (kept : .clear ∉ later)
    (earlier : List (Call digest)) :
    told earlier <+: told (earlier ++ later) := by
  induction later using List.reverseRecOn with
  | nil => rw [List.append_nil]
  | append_singleton later call ih =>
      rw [List.mem_append, List.mem_singleton, not_or] at kept
      rw [← List.append_assoc, told_snoc]
      refine (ih kept.1).trans ?_
      cases call with
      | record =>
          rw [tells]
          split
          next => exact List.prefix_append _ _
          next => exact List.prefix_rfl
      | get | contains => exact List.prefix_rfl
      | clear => exact absurd rfl kept.2

end Call

/-- Carry out a call. -/
def call (writes : WriteSet) : Call digest → WriteSet × Reply
  | .record machine address place value =>
      let (writes, result) := writes.record machine address place value
      (writes, .recorded result)
  | .get address =>
      let (entry, writes) := writes.get digest address
      (writes, .entry entry)
  | .contains address =>
      let (known, writes) := writes.contains digest address
      (writes, .known known)
  | .clear => (writes.clear, .cleared)

/-- Carry out calls one after another, and collect the answers. -/
def calls (writes : WriteSet) : List (Call digest) → WriteSet × List Reply
  | [] => (writes, [])
  | first :: rest =>
      let (middle, reply) := writes.call first
      let (after, replies) := middle.calls rest
      (after, reply :: replies)

/-- A write set holds what was recorded. -/
structure Holds (digest : Digest) (told : List WriteEntry) (writes : WriteSet) : Prop where
  sound : writes.Sound digest
  entries : writes.entries.toList = WriteEntry.arrange told

namespace Holds

variable {machine : Machine digest} {told : List WriteEntry} {writes after : WriteSet}

theorem empty (digest : Digest) (filter : AddressFilter) : Holds digest [] (.empty filter) :=
  ⟨sound_empty digest filter, rfl⟩

theorem alike (holds : Holds digest told writes) (alike : after.Alike writes) :
    Holds digest told after where
  sound := alike.sound holds.sound
  entries := by
    rw [alike.entries]
    exact holds.entries

/-- The entry of an address is that of the plain map. -/
theorem entry?_eq (holds : Holds digest told writes) (address : Address) :
    writes.entry? address = (WriteEntry.plain told address).bind fun value =>
      (WriteEntry.lookup told address).map fun first => ⟨address, first.place, value⟩ := by
  rw [entry?_eq_lookup, holds.entries, WriteEntry.lookup_arrange]

theorem isSome_entry? (holds : Holds digest told writes) (address : Address) :
    (writes.entry? address).isSome = (WriteEntry.plain told address).isSome := by
  have both := WriteEntry.isSome_plain told address
  rw [holds.entry?_eq]
  cases known : WriteEntry.plain told address with
  | none => rfl
  | some value =>
      rw [known, Option.isSome_some, eq_comm] at both
      simpa using both

/-- There is room if there is room beside the entries of the plain map. -/
theorem record_snd (holds : Holds digest told writes) (machine : Machine digest)
    (address : Address) (place : Place) (value : Bytes) :
    (writes.record machine address place value).2 = Call.roomFor machine told address := by
  have listed := congrArg List.length (WriteEntry.map_address_arrange told)
  rw [List.length_map, ← holds.entries, Array.length_toList] at listed
  rw [holds.sound.record_snd, holds.isSome_entry?, Call.roomFor, listed]

/-- Every call is answered as by the plain map. -/
theorem call (holds : Holds digest told writes) (call : Call digest) :
    (writes.call call).2 = call.answer told ∧
      Holds digest (call.tells told) (writes.call call).1 := by
  cases call with
  | record machine address place value =>
      have answered := holds.record_snd machine address place value
      have kept := holds.sound.record machine address place value
      cases recorded : writes.record machine address place value with
      | mk after result =>
          rw [recorded] at answered kept
          simp only [WriteSet.call, recorded, Call.answer, Call.tells, ← answered]
          refine ⟨trivial, ?_⟩
          cases result with
          | error failure => exact holds.alike (alike_of_record recorded)
          | ok =>
              refine ⟨kept, ?_⟩
              rw [holds.sound.entries_record recorded, holds.entries]
              exact (WriteEntry.arrange_snoc told ⟨address, place, value⟩).symm
  | get address =>
      refine ⟨?_, holds.alike (get_alike digest writes address)⟩
      simp only [WriteSet.call, Call.answer, holds.sound.get_eq, holds.entry?_eq]
  | contains address =>
      refine ⟨?_, holds.alike (contains_alike digest writes address)⟩
      have same : (writes.contains digest address).1 =
          (WriteEntry.plain told address).isSome := by
        rw [← holds.isSome_entry?, Bool.eq_iff_iff, holds.sound.contains_iff, entry?_eq_lookup,
          WriteEntry.lookup, List.find?_isSome]
        simp
      simp only [WriteSet.call, Call.answer, same]
  | clear => exact ⟨rfl, sound_empty digest _, rfl⟩

/-- So is any sequence of them. -/
theorem calls {past : List (Call digest)} (holds : Holds digest (Call.told past) writes)
    (rest : List (Call digest)) :
    Holds digest (Call.told (past ++ rest)) (writes.calls rest).1 ∧
      (writes.calls rest).2.length = rest.length ∧
      ∀ earlier call later, rest = earlier ++ call :: later →
        (writes.calls rest).2[earlier.length]? =
          some (call.answer (Call.told (past ++ earlier))) := by
  induction rest generalizing past writes with
  | nil =>
      refine ⟨by rwa [List.append_nil], rfl, ?_⟩
      intro earlier call later impossible
      simp at impossible
  | cons first rest ih =>
      rcases holds.call first with ⟨replied, held⟩
      rw [← Call.told_snoc] at held
      rcases ih held with ⟨holds', length, answered⟩
      rw [List.append_assoc, List.singleton_append] at holds'
      refine ⟨holds', by simp [WriteSet.calls, length], ?_⟩
      intro earlier call later split
      cases earlier with
      | nil =>
          cases split
          simp [WriteSet.calls, replied]
      | cons _ earlier =>
          cases split
          have reply := answered earlier call later rfl
          rw [List.append_assoc, List.singleton_append] at reply
          rwa [WriteSet.calls, List.length_cons, List.getElem?_cons_succ]

end Holds

/-- A write set lists what was recorded. -/
structure Lists (told : List WriteEntry) (writes : WriteSet) : Prop where
  /-- The addresses come in the order in which they were first recorded. -/
  addresses : writes.entries.toList.map (·.address) = (told.map (·.address)).eraseDups
  distinct : (writes.entries.toList.map (·.address)).Nodup
  values : ∀ entry ∈ writes.entries.toList,
    WriteEntry.plain told entry.address = some entry.value
  places : ∀ entry ∈ writes.entries.toList,
    (WriteEntry.lookup told entry.address).map (·.place) = some entry.place
  recent : writes.recentFirst.reverse = writes.entries.toList
  size : writes.size = (told.map (·.address)).toFinset.card

variable {told : List WriteEntry} {writes : WriteSet}

/-- An entry is found under its address. -/
theorem Holds.lookup_eq (holds : Holds digest told writes) {entry : WriteEntry}
    (member : entry ∈ writes.entries.toList) :
    WriteEntry.lookup writes.entries.toList entry.address = some entry := by
  rw [WriteEntry.lookup, List.find?_eq_some_iff_append]
  rcases List.append_of_mem member with ⟨earlier, later, split⟩
  refine ⟨by simp, earlier, later, split, ?_⟩
  intro other before
  have distinct := holds.sound.distinct
  rw [split, List.pairwise_append] at distinct
  simpa using distinct.2.2 other before entry List.mem_cons_self

theorem Holds.lists (holds : Holds digest told writes) : writes.Lists told := by
  have addresses : writes.entries.toList.map (·.address) = (told.map (·.address)).eraseDups := by
    rw [holds.entries, WriteEntry.map_address_arrange]
  have distinct : (writes.entries.toList.map (·.address)).Nodup :=
    List.pairwise_map.mpr holds.sound.distinct
  have looked : ∀ entry ∈ writes.entries.toList, ∃ value first,
      WriteEntry.plain told entry.address = some value ∧
      WriteEntry.lookup told entry.address = some first ∧
        entry = ⟨entry.address, first.place, value⟩ := by
    intro entry member
    have found := holds.lookup_eq member
    rw [holds.entries, WriteEntry.lookup_arrange, Option.bind_eq_some_iff] at found
    rcases found with ⟨value, known, found⟩
    rcases Option.map_eq_some_iff.mp found with ⟨first, there, same⟩
    exact ⟨value, first, known, there, same.symm⟩
  refine ⟨addresses, distinct, ?_, ?_, List.reverse_reverse _, ?_⟩
  · intro entry member
    rcases looked entry member with ⟨value, first, known, _, same⟩
    rw [known, same]
  · intro entry member
    rcases looked entry member with ⟨value, first, _, there, same⟩
    rw [there, same]
    rfl
  · calc writes.size = (writes.entries.toList.map (·.address)).length := by simp [size]
      _ = (writes.entries.toList.map (·.address)).toFinset.card :=
          (List.toFinset_card_of_nodup distinct).symm
      _ = (told.map (·.address)).toFinset.card := by
          rw [addresses]
          congr 1
          ext address
          simp [List.mem_eraseDups]

/-- A write set is a map in the order of first records, whatever its filter affirms: every call
is answered as by the plain map, the entries are those of the map, and until it is cleared no
entry moves or changes its place. -/
theorem calls_mapped (filter : AddressFilter) (calls : List (Call digest)) :
    ((empty filter).calls calls).1.Lists (Call.told calls) ∧
      ((empty filter).calls calls).2.length = calls.length ∧
      (∀ earlier call later, calls = earlier ++ call :: later →
        ((empty filter).calls calls).2[earlier.length]? =
          some (call.answer (Call.told earlier))) ∧
      ∀ earlier later, calls = earlier ++ later → .clear ∉ later →
        ((empty filter).calls earlier).1.entries.toList.map (·.key) <+:
          ((empty filter).calls calls).1.entries.toList.map (·.key) := by
  have start : Holds digest (Call.told ([] : List (Call digest))) (.empty filter) :=
    .empty digest filter
  rcases start.calls calls with ⟨holds, length, answered⟩
  refine ⟨holds.lists, length, answered, ?_⟩
  rintro earlier later rfl kept
  rcases start.calls earlier with ⟨held, _⟩
  rcases Call.told_append kept earlier with ⟨more, told⟩
  rw [held.entries, holds.entries, List.nil_append, List.nil_append, ← told]
  exact WriteEntry.key_arrange _ more

/-- The place and the address of a word of the first segment. -/
def wordOf (word : Nat) : Address × Place := (⟨.first, 8 * UInt64.ofNat word⟩, ⟨0, word⟩)

/-- Two words are written, one of them twice, and others are asked for, before and after a
clear.  For a third word there is no room. -/
def busy : List (Call fun _ => 0) :=
  [.record Coordinator.colliding (wordOf 1).1 (wordOf 1).2 [1], .contains (wordOf 2).1,
    .record Coordinator.colliding (wordOf 2).1 (wordOf 2).2 [2],
    .record ⟨fun _ _ => false⟩ (wordOf 3).1 (wordOf 3).2 [3],
    .record ⟨fun _ _ => false⟩ (wordOf 1).1 (wordOf 7).2 [4], .contains (wordOf 3).1,
    .get (wordOf 1).1, .clear, .get (wordOf 1).1,
    .record Coordinator.colliding (wordOf 2).1 (wordOf 2).2 [5]]

/-- A filter of one word that affirms every address as soon as it has seen one. -/
theorem calls_mapped_colliding : ∃ filter,
    AddressFilter.create Coordinator.colliding 1 0 = .ok (.ok filter) ∧
    ((empty filter).calls busy).1.Lists (Call.told busy) ∧
    ((empty filter).calls busy).2[1]? = some (.known false) ∧
    ((empty filter).calls busy).2[3]? = some (.recorded (.error (.outOfMemory 64))) ∧
    ((empty filter).calls busy).2[5]? = some (.known false) ∧
    ((empty filter).calls busy).2[6]? =
      some (.entry (some ⟨(wordOf 1).1, (wordOf 1).2, [4]⟩)) ∧
    ((empty filter).calls busy).2[8]? = some (.entry none) ∧
    ((empty filter).calls (busy.take 8)).1.entries.toList.map (·.key) <+:
      ((empty filter).calls busy).1.entries.toList.map (·.key) := by
  have created : AddressFilter.create Coordinator.colliding 1 0 =
      .ok (.ok ⟨#[0], 1, by decide⟩) := by rfl
  rcases calls_mapped ⟨#[0], 1, by decide⟩ busy with ⟨lists, _, answered, steady⟩
  refine ⟨_, created, lists, ?_, ?_, ?_, ?_, ?_, ?_⟩
  · exact answered (busy.take 1) (.contains (wordOf 2).1) (busy.drop 2) rfl
  · exact answered (busy.take 3) _ (busy.drop 4) rfl
  · exact answered (busy.take 5) (.contains (wordOf 3).1) (busy.drop 6) rfl
  · exact answered (busy.take 6) (.get (wordOf 1).1) (busy.drop 7) rfl
  · exact answered (busy.take 8) (.get (wordOf 1).1) (busy.drop 9) rfl
  · exact steady (busy.take 8) (busy.drop 8) rfl (by simp [busy])

end WriteSet

end WordStm
