import WordStm.Proofs.Provision
import WordStm.Proofs.Traces

/-!
# Transactions that might as well not have run

The steps of a transaction that ends without a commit, and that never allocated, can be
deleted from a run.  What is left is a run of a region of the same configuration, in which
the same requests for memory are granted to every other step, and it answers as before.
If the commit of the transaction used up a version the versions behind it move up by one,
and so do the numbers of the transactions that began after it.
-/

namespace WordStm

/-- A machine of which only some moments are left. -/
def Machine.keeping {digest : Digest} (machine : Machine digest) (moments : List Nat) :
    Machine digest where
  grantsAt
    | [] => machine.grantsAt []
    | moment :: inner => machine.grantsAt (moments.getD moment 0 :: inner)

/-- The name of a version when one version, if any, was never used. -/
def closeGap (gap : Option Version) (version : Version) : Version :=
  match gap with
  | none => version
  | some skipped => if version < skipped then version else version - 1

/-- The number of a transaction when one that began was never there. -/
def TransactionId.without (gone number : TransactionId) : TransactionId :=
  if number.raw ≤ gone.raw then number else ⟨number.raw - 1⟩

theorem TransactionId.eq_of_toNat {left right : TransactionId}
    (same : left.raw.toNat = right.raw.toNat) : left = right :=
  congrArg TransactionId.mk (UInt64.toNat_inj.mp same)

theorem TransactionId.toNat_without (gone number : TransactionId) :
    (gone.without number).raw.toNat =
      if number.raw.toNat ≤ gone.raw.toNat then number.raw.toNat else number.raw.toNat - 1 := by
  have one : (1 : UInt64).toNat = 1 := rfl
  rw [without]
  by_cases before : number.raw ≤ gone.raw
  · rw [if_pos before, if_pos (UInt64.le_iff_toNat_le.mp before)]
  · have behind : ¬number.raw.toNat ≤ gone.raw.toNat := fun less =>
      before (UInt64.le_iff_toNat_le.mpr less)
    rw [if_neg before, if_neg behind, UInt64.toNat_sub_of_le, one]
    rw [UInt64.le_iff_toNat_le, one]
    omega

section Gaps

variable {gap : Option Version} {skipped : Version}

theorem toNat_closeGap (positive : 0 < skipped) (version : Version) :
    (closeGap (some skipped) version).toNat =
      if version.toNat < skipped.toNat then version.toNat else version.toNat - 1 := by
  have one : (1 : UInt64).toNat = 1 := rfl
  have zero : (0 : UInt64).toNat = 0 := rfl
  rw [UInt64.lt_iff_toNat_lt, zero] at positive
  rw [closeGap]
  by_cases before : version < skipped
  · rw [if_pos before, if_pos (UInt64.lt_iff_toNat_lt.mp before)]
  · have behind : ¬version.toNat < skipped.toNat := fun less =>
      before (UInt64.lt_iff_toNat_lt.mpr less)
    rw [if_neg before, if_neg behind, UInt64.toNat_sub_of_le, one]
    rw [UInt64.le_iff_toNat_le, one]
    omega

end Gaps

namespace Region

variable {left right after : Region} {stamp : Version → Version} {gap : Option Version}

/-- The version that is left out is behind the clock, and no word carries it. -/
def Skips (region : Region) (gap : Option Version) : Prop :=
  ∀ skipped, gap = some skipped → 0 < skipped ∧ skipped ≤ region.coordinator.clock ∧
    ∀ place cell, region.memory.cell? place = some cell → cell.version ≠ skipped

/-- To leave a version out does not change whether a word is newer than a snapshot. -/
theorem Skips.tells (skips : left.Skips gap)
    (room : left.coordinator.clock.toNat + 1 < 2 ^ 64) : left.Tells (closeGap gap) := by
  cases gap with
  | none => exact ⟨fun _ _ _ _ => Iff.rfl, rfl, rfl⟩
  | some skipped =>
      rcases skips skipped rfl with ⟨positive, past, unused⟩
      have one : (1 : UInt64).toNat = 1 := rfl
      have zero : (0 : UInt64).toNat = 0 := rfl
      have above := positive
      rw [UInt64.lt_iff_toNat_lt, zero] at above
      rw [UInt64.le_iff_toNat_le] at past
      constructor
      · intro place cell found snapshot
        have differ : cell.version.toNat ≠ skipped.toNat := fun same =>
          unused place cell found (UInt64.toNat_inj.mp same)
        rw [UInt64.lt_iff_toNat_lt, UInt64.lt_iff_toNat_lt, toNat_closeGap positive,
          toNat_closeGap positive]
        split <;> split <;> omega
      · apply UInt64.toNat_inj.mp
        have next : (left.coordinator.clock + 1).toNat = left.coordinator.clock.toNat + 1 := by
          rw [UInt64.toNat_add, one, Nat.mod_eq_of_lt room]
        rw [toNat_closeGap positive, next, UInt64.toNat_add, toNat_closeGap positive, one]
        rw [if_neg (by omega), if_neg (by omega)]
        omega
      · exact if_pos positive

/-- The versions that there are keep their names if those up to the clock do. -/
theorem Twin.restamp (twin : left.Twin id right) (laid : left.LaidOutUnlocked)
    (rested : left.UnlockedDated)
    (config : after.config = left.config) (memory : after.memory = left.memory)
    (table : after.table = left.table)
    (fixed : ∀ version ≤ left.coordinator.clock, stamp version = version)
    (now : stamp after.coordinator.clock = left.coordinator.clock) : after.Twin stamp right where
  align := by rw [config, twin.align]
  layout := by rw [memory, twin.layout]
  cells := by
    intro place
    rw [memory, twin.cells]
    cases found : left.memory.cell? place with
    | none => rfl
    | some cell => simp [Cell.restamp, fixed _ (rested.dated place cell found)]
  slots := by
    rw [table, twin.slots]
    apply Array.ext
    · simp
    · intro index inside _
      rw [Array.size_map] at inside
      rw [Array.getElem_map, Array.getElem_map]
      have known := laid.slot?_ofNat inside
      rw [Array.getElem?_eq_getElem inside] at known
      cases slot : left.table.slots[index] with
      | vacant | live => rfl
      | retired segment version =>
          rw [slot] at known
          simp [Slot.restamp, fixed _ (rested.retired _ _ _ known)]
  live := by rw [table, twin.live]
  clock := by rw [now, twin.clock, id]

end Region

namespace Session

variable {digest : Digest} {stamp : Version → Version} {first second transaction : Transaction}

end Session

/-- Two answers are alike: both succeed or both fail, and successes are the same but for
numbers of transactions and versions. -/
inductive Answer.Echoes (name : TransactionId → TransactionId) (stamp : Version → Version) :
    Answer → Answer → Prop where
  | began (id : TransactionId) : Echoes name stamp (.began (.ok id)) (.began (.ok (name id)))
  | refused (failure other : Failure) :
      Echoes name stamp (.began (.error failure)) (.began (.error other))
  | performed (reply : Reply) :
      Echoes name stamp (.performed (.ok reply)) (.performed (.ok reply))
  | failed (failure other : Failure) :
      Echoes name stamp (.performed (.error failure)) (.performed (.error other))
  | committed (version : Version) :
      Echoes name stamp (.committed (.ok version)) (.committed (.ok (stamp version)))
  | aborted (failure other : Failure) :
      Echoes name stamp (.committed (.error failure)) (.committed (.error other))
  | ended : Echoes name stamp .ended .ended
  | unknown : Echoes name stamp .unknown .unknown

/-- Answers that agree echo, also with other names for versions that the answer is not about. -/
theorem Answer.Agrees.echoes {name : TransactionId → TransactionId}
    {stamp other : Version → Version} {answer reply : Answer}
    (agrees : Agrees name stamp answer reply)
    (same : ∀ version, answer = .committed (.ok version) → stamp version = other version) :
    answer.Echoes name other reply := by
  cases agrees with
  | began id => exact .began id
  | refused failure => exact .refused failure failure
  | performed agree =>
      cases agree with
      | ok reply => exact .performed reply
      | error echoes => exact .failed _ _
  | @committed result reply agree =>
      cases result with
      | ok version =>
          cases agree
          rw [same version rfl]
          exact .committed version
      | error failure =>
          cases agree
          exact .aborted _ _
  | ended => exact .ended
  | unknown => exact .unknown

namespace Session

variable {digest : Digest} {machine now : Machine digest}
  {session after left right middle next : Session}
  {config : RegionConfig} {actions earlier later shorts : List Action} {moments : List Nat}
  {answers before beyond replies told : List Answer} {action : Action} {answer : Answer}
  {gone : TransactionId} {transaction : Transaction} {stamp : Version → Version}
  {gap : Option Version} {mode : AccessMode}

/-- The actions that are not of a transaction, as they are when it was never there. -/
def without (gone : TransactionId) (actions : List Action) : List Action :=
  (actions.filter fun action => action.owner? != some gone).map (·.rename gone.without)

/-- When the actions are taken that are not of a transaction, if the first of all is taken at
some moment. -/
def momentsWithout (gone : TransactionId) (start : Nat) (actions : List Action) : List Nat :=
  ((actions.zipIdx start).filter fun step => step.1.owner? != some gone).map (·.2)

/-- No allocation of a transaction that failed used up an id, as one does that there was no room
to log. -/
def SparesIds (machine : Machine digest) (config : RegionConfig) (id : TransactionId)
    (actions : List Action) : Prop :=
  ∀ earlier before session size later after failure,
    actions = earlier ++ .perform id (.alloc size) :: later →
    Reached machine config earlier before session →
    session.step (machine.during earlier.length) (.perform id (.alloc size)) =
      .ok (after, .performed (.error failure)) →
    after.region.table.idsAssigned = session.region.table.idsAssigned

theorem SparesIds.front (spares : SparesIds machine config gone (actions ++ later)) :
    SparesIds machine config gone actions := by
  rintro inside before session size outside after failure rfl
  exact spares inside before session size (outside ++ later) after failure (by simp)

/-- The answers to actions that are not of a transaction. -/
def answersWithout (gone : TransactionId) (actions : List Action) (answers : List Answer) :
    List Answer :=
  ((actions.zip answers).filter fun step => step.1.owner? != some gone).map (·.2)

theorem length_without_le (gone : TransactionId) (actions : List Action) :
    (without gone actions).length ≤ actions.length := by
  rw [without, List.length_map]
  exact List.length_filter_le _ _

theorem without_snoc (gone : TransactionId) (actions : List Action) (action : Action) :
    without gone (actions ++ [action]) =
      if action.owner? = some gone then without gone actions
      else without gone actions ++ [action.rename gone.without] := by
  rw [without, List.filter_append, List.map_append]
  split
  next own => simp [without, own]
  next foreign => simp [without, foreign]

theorem momentsWithout_snoc (gone : TransactionId) (start : Nat) (actions : List Action)
    (action : Action) :
    momentsWithout gone start (actions ++ [action]) =
      if action.owner? = some gone then momentsWithout gone start actions
      else momentsWithout gone start actions ++ [start + actions.length] := by
  rw [momentsWithout, List.zipIdx_append, List.filter_append, List.map_append]
  split
  next own => simp [momentsWithout, own]
  next foreign => simp [momentsWithout, foreign]

theorem length_momentsWithout (gone : TransactionId) (start : Nat) (actions : List Action) :
    (momentsWithout gone start actions).length = (without gone actions).length := by
  induction actions using List.reverseRecOn with
  | nil => rfl
  | append_singleton actions action ih =>
      rw [momentsWithout_snoc, without_snoc]
      split <;> simp [ih]

theorem answersWithout_snoc (gone : TransactionId) (paired : answers.length = actions.length)
    (action : Action) (answer : Answer) :
    answersWithout gone (actions ++ [action]) (answers ++ [answer]) =
      if action.owner? = some gone then answersWithout gone actions answers
      else answersWithout gone actions answers ++ [answer] := by
  rw [answersWithout, List.zip_append paired.symm, List.filter_append, List.map_append]
  split
  next own => simp [answersWithout, own]
  next foreign => simp [answersWithout, foreign]

theorem Aborts.owner (aborts : Aborts gone action answer) : action.owner? = some gone := by
  cases aborts <;> rfl

namespace Move

/-- A word is an old one, or new, or has the version of a commit. -/
theorem of_cell? {place : Place} {cell : Cell} (move : session.Move now action after answer)
    (found : after.region.memory.cell? place = some cell) :
    session.region.memory.cell? place = some cell ∨ cell.version = 0 ∨
      cell.version = session.region.coordinator.clock + 1 := by
  cases move with
  | began begun => exact .inl ((Region.begin_unmoved begun).memory ▸ found)
  | refused refused => exact .inl ((Region.begin_unmoved refused).memory ▸ found)
  | unknown => exact .inl found
  | performed known effect =>
      cases effect with
      | alloc active writable checked created registered =>
          simp only [update, Memory.cell?_add] at found
          split at found
          next => exact .inr (.inl ((Segment.create_ok created).2.2 _ cell found).2.1)
          next => exact .inl found
      | unlogged active writable checked created registered =>
          simp only [update, Memory.cell?_add] at found
          split at found
          next => exact .inr (.inl ((Segment.create_ok created).2.2 _ cell found).2.1)
          next => exact .inl found
      | failed | read | write | free => exact .inl found
  | committed known settled =>
      cases settled with
      | quiet | failed => exact .inl found
      | published publishes =>
          rcases Region.cell?_published publishes found with old | new
          · exact .inl old
          · exact .inr (.inr new)
  | dropped asked known =>
      rw [Region.abandon_eq] at found
      exact .inl found

/-- A version that is left out is not used later either. -/
theorem skips (move : session.Move now action after answer) (valid : session.region.Valid)
    (room : session.region.coordinator.clock.toNat + 1 < 2 ^ 64)
    (skips : session.region.Skips gap) : after.region.Skips gap := by
  intro skipped same
  rcases skips skipped same with ⟨positive, past, unused⟩
  refine ⟨positive, UInt64.le_trans past (move.clock_mono valid room), ?_⟩
  intro place cell found
  rcases move.of_cell? found with old | new | committed
  · exact unused place cell old
  · rw [new]
    exact UInt64.ne_of_lt positive
  · rw [committed]
    exact (UInt64.ne_of_lt (UInt64.lt_of_le_of_lt past (Region.clock_lt_succ room))).symm

/-- No version that is committed is ahead of the clock. -/
theorem committed_le {version : Version}
    (move : session.Move now action after (.committed (.ok version)))
    (snapshots : ∀ number transaction, session.find? number = some transaction →
      transaction.snapshot ≤ session.region.coordinator.clock) :
    version ≤ after.region.coordinator.clock := by
  cases move with
  | committed found settled =>
      cases settled with
      | quiet => exact snapshots _ _ found
      | published publishes =>
          rw [close, publishes.clock]
          exact UInt64.le_refl _

end Move

namespace Reached

/-- A run of the moments that are kept goes on at one more. -/
theorem extend_keeping {moment : Nat} (paired : moments.length = actions.length)
    (reached : Reached (machine.keeping moments) config actions answers session)
    (sized : action.Sized) (room : actions.length + 1 < 2 ^ 64 - 1)
    (stepped : session.step (machine.during moment) action = .ok (after, answer)) :
    Reached (machine.keeping (moments ++ [moment])) config (actions ++ [action])
      (answers ++ [answer]) after := by
  have longer : Reached (machine.keeping (moments ++ [moment])) config actions answers session := by
    refine reached.of_moments (by rfl) ?_
    intro earlier inside
    change machine.during ((moments ++ [moment]).getD earlier 0) =
      machine.during (moments.getD earlier 0)
    rw [List.getD_append _ _ _ _ (by rwa [paired])]
  refine longer.extend sized room ?_
  change session.step (machine.during ((moments ++ [moment]).getD actions.length 0)) action = _
  rw [← paired, List.getD_append_right _ _ _ _ (Nat.le_refl _), Nat.sub_self]
  exact stepped

/-- Numbers of transactions do not wrap around. -/
theorem toNat_nextId_succ (reached : Reached machine config actions answers session)
    (room : actions.length + 1 < 2 ^ 64 - 1) :
    (session.region.coordinator.nextId + 1).toNat =
      session.region.coordinator.nextId.toNat + 1 := by
  have one : (1 : UInt64).toNat = 1 := rfl
  have bound := reached.numbers.1
  rw [UInt64.toNat_add, one]
  exact Nat.mod_eq_of_lt (show _ + 1 < 2 ^ 64 by omega)

/-- The other transactions keep apart when a transaction that began is left out. -/
theorem numbered (reached : Reached machine config actions answers session)
    (room : actions.length + 1 < 2 ^ 64 - 1)
    (past : gone.raw.toNat < session.region.coordinator.nextId.toNat) :
    session.Numbered gone.without (· ≠ gone) where
  apart := by
    intro first second stays also same
    have numbers := congrArg (·.raw.toNat) same
    simp only [TransactionId.toNat_without] at numbers
    have differ : first.raw.toNat ≠ gone.raw.toNat := fun equal =>
      stays (TransactionId.eq_of_toNat equal)
    have differs : second.raw.toNat ≠ gone.raw.toNat := fun equal =>
      also (TransactionId.eq_of_toNat equal)
    apply TransactionId.eq_of_toNat
    split at numbers <;> split at numbers <;> omega
  fresh := by
    rintro rfl
    exact Nat.lt_irrefl _ past
  next := by
    have one : (1 : UInt64).toNat = 1 := rfl
    have bound := reached.numbers.1
    have forward := reached.toNat_nextId_succ room
    have now : (gone.without ⟨session.region.coordinator.nextId⟩).raw.toNat =
        session.region.coordinator.nextId.toNat - 1 := by
      rw [TransactionId.toNat_without, if_neg (Nat.not_le.mpr past)]
    apply TransactionId.eq_of_toNat
    rw [TransactionId.toNat_without]
    simp only [forward]
    rw [if_neg (by omega), UInt64.toNat_add, now, one]
    omega

/-- An action of another transaction is carried out where a transaction is missing as it is
where that is there. -/
theorem mirror (first : Reached machine config actions answers left)
    (second : Reached (machine.keeping moments) config shorts replies right)
    (paired : moments.length = shorts.length) (fewer : shorts.length ≤ actions.length)
    (room : actions.length + 1 < 2 ^ 64 - 1)
    (past : gone.raw.toNat < left.region.coordinator.nextId.toNat)
    (twin : left.Twin digest gone.without (· ≠ gone) stamp right)
    (tells : left.region.Tells stamp) (sized : action.Sized) (foreign : action.owner? ≠ some gone)
    (stepped : left.step (machine.during actions.length) action = .ok (after, answer)) :
    ∃ final reply,
      Reached (machine.keeping (moments ++ [actions.length])) config
          (shorts ++ [action.rename gone.without]) (replies ++ [reply]) final ∧
        after.Twin digest gone.without (· ≠ gone) stamp final ∧
        answer.Agrees gone.without stamp reply := by
  have kept := first.kept
  have ruled : ∀ number origin copy, number ≠ gone → left.find? number = some origin →
      right.find? (gone.without number) = some copy → origin.Twin digest stamp copy →
      origin.status = .active →
      right.region.coordinator.ruling needsValidation right.region.memory copy =
        left.region.coordinator.ruling needsValidation left.region.memory origin := by
    intro number origin copy _ found _ same active
    have origins := kept.transactions number origin found
    have copied := same.grounded twin.region kept.laid origins active
    rw [second.rested.ruling_eq copied (by simp [needsValidation]),
      first.rested.ruling_eq (origins.grounded kept.laid active) (by simp [needsValidation]),
      same.reads active, same.snapshot]
    simp only [twin.region.isStale kept.laid tells]
  have distinct : ∀ number, action.owner? = some number → number ≠ gone :=
    fun number own same => foreign (own.trans (congrArg some same))
  rcases twin.step_alike (first.numbered room past) kept second.kept tells first.provided
      second.provided (.refl _) sized distinct ruled stepped with
    ⟨final, reply, again, twins, agrees⟩
  have renamed : (action.rename gone.without).Sized := by
    cases action with
    | perform => exact sized
    | begin | commit | rollback | endElsewhere => trivial
  exact ⟨final, reply, second.extend_keeping paired renamed (by omega) again, twins, agrees⟩

end Reached

/-- A run goes on as another does, but without the actions of one transaction, and comes to a
session that is like that of the other but for this transaction, under other names for versions.
Its answers are alike under these names, and under any that agree with them up to the clock. -/
structure Shadow (machine : Machine digest) (config : RegionConfig) (gone : TransactionId)
    (stamp : Version → Version) (moments : List Nat) (shorts : List Action) (told : List Answer)
    (start : Nat) (later : List Action) (beyond : List Answer) (session : Session)
    (replies : List Answer) (short : Session) : Prop where
  run : Reached (machine.keeping (moments ++ momentsWithout gone start later)) config
    (shorts ++ without gone later) (told ++ replies) short
  twin : session.Twin digest gone.without (· ≠ gone) stamp short
  echoes : ∀ other : Version → Version,
    (∀ version ≤ session.region.coordinator.clock, other version = stamp version) →
      List.Forall₂ (Answer.Echoes gone.without other) (answersWithout gone later beyond) replies

namespace Shadow

variable {start : Nat} {short : Session}

/-- Both begin to go on at twins. -/
theorem nil (second : Reached (machine.keeping moments) config shorts told right)
    (twin : session.Twin digest gone.without (· ≠ gone) stamp right) :
    Shadow machine config gone stamp moments shorts told start [] [] session [] right where
  run := by
    simp only [momentsWithout, without, List.zipIdx_nil, List.filter_nil, List.map_nil,
      List.append_nil]
    exact second
  twin := twin
  echoes := fun _ _ => .nil

/-- An action of the transaction that touches nothing else is not missed. -/
theorem own (shadow : Shadow machine config gone stamp moments shorts told start later beyond
      session replies short)
    (own : action.owner? = some gone) (paired : beyond.length = later.length)
    (region : after.region = session.region)
    (others : ∀ other, other ≠ gone → after.find? other = session.find? other) :
    Shadow machine config gone stamp moments shorts told start (later ++ [action])
      (beyond ++ [answer]) after replies short where
  run := by
    rw [momentsWithout_snoc, if_pos own, without_snoc, if_pos own]
    exact shadow.run
  twin := shadow.twin.of_same region others
  echoes := by
    rw [answersWithout_snoc gone paired, if_pos own, region]
    exact shadow.echoes

/-- An action of another transaction is carried out as well. -/
theorem foreign (shadow : Shadow machine config gone stamp moments shorts told start later beyond
      session replies short)
    (first : Reached machine config actions answers session)
    (whole : Reached machine config (actions ++ [action]) (answers ++ [answer]) after)
    (paired : beyond.length = later.length) (moment : actions.length = start + later.length)
    (kept : moments.length = shorts.length) (fewer : shorts.length ≤ start)
    (past : gone.raw.toNat < session.region.coordinator.nextId.toNat)
    (tells : session.region.Tells stamp) (foreign : action.owner? ≠ some gone)
    (move : session.Move (machine.during actions.length) action after answer)
    (stepped : session.step (machine.during actions.length) action = .ok (after, answer)) :
    ∃ reply final, Shadow machine config gone stamp moments shorts told start (later ++ [action])
      (beyond ++ [answer]) after (replies ++ [reply]) final := by
  have shorter := length_without_le gone later
  have lengths := length_momentsWithout gone start later
  have room := whole.short
  rw [List.length_append, List.length_singleton] at room
  rcases first.mirror shadow.run (by simp [lengths, kept]) (by simp; omega) room past shadow.twin
      tells (whole.sized action (by simp)) foreign stepped with ⟨final, reply, run, twin, agrees⟩
  refine ⟨reply, final, ?_, twin, ?_⟩
  · rw [momentsWithout_snoc, if_neg foreign, without_snoc, if_neg foreign, ← moment,
      ← List.append_assoc, ← List.append_assoc, ← List.append_assoc]
    exact run
  · intro other fixed
    rw [answersWithout_snoc gone paired, if_neg foreign]
    apply List.rel_append
    · exact shadow.echoes other fun version past => fixed version (UInt64.le_trans past
        (move.clock_mono first.tracked.2.1.valid first.room))
    · refine .cons (agrees.echoes ?_) .nil
      rintro version rfl
      exact (fixed version (move.committed_le first.snapshots)).symm

end Shadow

namespace Reached

end Reached

end Session

end WordStm
