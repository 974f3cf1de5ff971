import WordStm.Proofs.Numbers

/-!
# How segments come to their end

A segment is retired by the commit of a transaction that freed it, or because
the transaction that allocated it did not commit.  Several steps may ask for the
same segment; the first of them retires it, and the others find it gone.  What a
history asks for therefore tells what became of a segment that was live.
-/

namespace WordStm

/-- Why a segment is to be retired. -/
inductive Retirement where
  /-- A transaction that freed it committed. -/
  | freed
  /-- A transaction that allocated it ended otherwise. -/
  | dropped
  deriving DecidableEq

namespace Ledger

/-- Whether one step asks for a segment to be retired. -/
def retirement? (ledger : Ledger) (id : SegmentId) (action : Action) (answer : Answer) :
    Option Retirement :=
  match action, answer with
  | .commit owner, .committed (.ok _) =>
      if (ledger.drafts owner).any (·.frees id) then some .freed else none
  | .commit owner, .committed (.error _) | .rollback owner, .ended | .endElsewhere owner, .ended =>
      if (ledger.drafts owner).any (·.allocates id) then some .dropped else none
  | _, _ => none

/-- All that several steps ask for, the first in front. -/
def retirements (ledger : Ledger) (id : SegmentId) : List Action → List Answer → List Retirement
  | action :: actions, answer :: answers =>
      (ledger.retirement? id action answer).toList ++
        (ledger.observe action answer).retirements id actions answers
  | _, _ => []

/-- What one more step asks for comes last. -/
theorem retirements_snoc (ledger : Ledger) (id : SegmentId) {actions : List Action}
    {answers : List Answer} (paired : answers.length = actions.length) (action : Action)
    (answer : Answer) :
    ledger.retirements id (actions ++ [action]) (answers ++ [answer]) =
      ledger.retirements id actions answers ++
        ((ledger.observeAll actions answers).retirement? id action answer).toList := by
  induction actions generalizing ledger answers with
  | nil =>
      rw [List.length_eq_zero_iff.mp paired]
      exact List.append_nil _
  | cons first rest ih =>
      cases answers with
      | nil => cases paired
      | cons told others =>
          have behind := ih (ledger.observe first told) (Nat.succ.inj paired)
          simp only [List.cons_append, retirements, observeAll, behind, List.append_assoc]

/-- A transaction that commits asks for what it freed. -/
theorem isSome_retirement?_committed {ledger : Ledger} {owner : TransactionId} {draft : Draft}
    (known : ledger.drafts owner = some draft) (id : SegmentId) (version : Version) :
    (ledger.retirement? id (.commit owner) (.committed (.ok version))).isSome = draft.frees id := by
  cases frees : draft.frees id <;> simp [retirement?, known, frees]

/-- A transaction that ends otherwise asks for what it allocated. -/
theorem isSome_retirement?_ended {ledger : Ledger} {owner : TransactionId} {draft : Draft}
    (known : ledger.drafts owner = some draft) (id : SegmentId) {action : Action}
    {answer : Answer}
    (ends : (action = .commit owner ∧ ∃ failure, answer = .committed (.error failure)) ∨
      ((action = .rollback owner ∨ action = .endElsewhere owner) ∧ answer = .ended)) :
    (ledger.retirement? id action answer).isSome = draft.allocates id := by
  rcases ends with ⟨rfl, failure, rfl⟩ | ⟨rfl | rfl, rfl⟩
  all_goals cases allocates : draft.allocates id <;> simp [retirement?, known, allocates]

theorem retirement?_eq_freed {ledger : Ledger} {id : SegmentId} {action : Action}
    {answer : Answer} :
    ledger.retirement? id action answer = some .freed ↔
      ∃ owner version draft, action = .commit owner ∧ answer = .committed (.ok version) ∧
        ledger.drafts owner = some draft ∧ draft.frees id = true := by
  constructor
  · intro asked
    unfold retirement? at asked
    split at asked
    next owner version =>
      cases known : ledger.drafts owner with
      | none =>
          rw [known] at asked
          cases asked
      | some draft =>
          rw [known, Option.any_some] at asked
          split at asked
          next frees => exact ⟨owner, version, draft, rfl, rfl, known, frees⟩
          next => cases asked
    iterate 3
      next => split at asked <;> cases asked
    next => cases asked
  · rintro ⟨owner, version, draft, rfl, rfl, known, frees⟩
    simp [retirement?, known, frees]

/-- Apart from a step that asks for a segment because it was freed, no step records a
transaction that freed it. -/
theorem commits_observe_quiet {ledger : Ledger} {id : SegmentId} {action : Action}
    {answer : Answer} (quiet : ledger.retirement? id action answer ≠ some .freed) :
    ∃ added : List Record, (ledger.observe action answer).commits = ledger.commits ++ added ∧
      ∀ record ∈ added, record.frees id = false := by
  rcases ledger.commits_observe action answer with
    same | ⟨owner, version, draft, rfl, rfl, known, added⟩
  · exact ⟨[], by rw [same, List.append_nil], by simp⟩
  · refine ⟨_, added, ?_⟩
    intro record member
    rw [List.mem_singleton.mp member]
    cases frees : draft.frees id with
    | false => exact frees
    | true => exact absurd (retirement?_eq_freed.mpr ⟨_, _, _, rfl, rfl, known, frees⟩) quiet

end Ledger

namespace Session

variable {digest : Digest} {machine now : Machine digest} {session : Session} {ledger : Ledger}
  {id : SegmentId} {action : Action} {after : Session} {answer : Answer} {slot : Slot}

/-- A step retires a segment exactly if it asks for it, as of the clock that it leaves. -/
theorem Tracked.slot?_step (tracked : Tracked digest session ledger)
    (move : session.Move now action after answer)
    (known : session.region.table.slot? id = some slot) :
    after.region.table.slot? id =
      some (if (ledger.retirement? id action answer).isSome
        then slot.retire after.region.coordinator.clock else slot) := by
  cases move with
  | began begun =>
      rw [(Region.begin_eq begun).2.1]
      exact known
  | refused refused =>
      rw [(Region.begin_eq refused).2.1]
      exact known
  | unknown => cases action <;> exact known
  | performed found effect =>
      cases effect with
      | alloc active writable checked created registered =>
          refine (SegmentTable.slot?_register registered id).trans ?_
          rw [if_neg (SegmentTable.ne_of_register registered known)]
          exact known
      | unlogged active writable checked created registered =>
          refine (SegmentTable.slot?_retire_register registered _ id).trans ?_
          rw [if_neg (SegmentTable.ne_of_register registered known)]
          exact known
      | failed | read | write | free => exact known
  | committed found settled =>
      rcases tracked.drafts _ _ found with ⟨draft, present, drafted⟩
      have freed := drafted.freed id
      have allocated := drafted.allocated id
      rw [← Array.mem_toList_iff] at freed allocated
      cases settled with
      | quiet active idle =>
          have unfreed : draft.frees id = false := by
            cases frees : draft.frees id with
            | false => rfl
            | true =>
                have quiet := (drafted.current active).not_draws idle
                rw [Draft.draws_of_frees frees] at quiet
                cases quiet
          rw [Ledger.isSome_retirement?_committed present, unfreed]
          rw [unfreed] at freed
          exact SegmentTable.slot?_retireAll_of_known known freed _
      | published publishes =>
          rw [Ledger.isSome_retirement?_committed present]
          refine (SegmentTable.slot?_retireAll_of_known known freed _).trans ?_
          simp only [publishes.clock]
          rfl
      | failed =>
          rw [Ledger.isSome_retirement?_ended present id (.inl ⟨rfl, _, rfl⟩)]
          exact SegmentTable.slot?_retireAll_of_known known allocated _
  | dropped asked found =>
      rcases tracked.drafts _ _ found with ⟨draft, present, drafted⟩
      have allocated := drafted.allocated id
      rw [← Array.mem_toList_iff] at allocated
      rw [Ledger.isSome_retirement?_ended present id (.inr ⟨asked, rfl⟩), Region.abandon_eq]
      exact SegmentTable.slot?_retireAll_of_known known allocated _

/-- A retired segment stays as it is. -/
theorem Tracked.slot?_retired (tracked : Tracked digest session ledger)
    (move : session.Move now action after answer) {segment : Handle} {version : Version}
    (known : session.region.table.slot? id = some (.retired segment version)) :
    after.region.table.slot? id = some (.retired segment version) := by
  rw [tracked.slot?_step move known]
  split <;> rfl

/-- A segment that was freed by a commit is retired as of the version of that commit. -/
theorem Tracked.freed_version (tracked : Tracked digest session ledger)
    (room : session.region.coordinator.clock.toNat + 1 < 2 ^ 64)
    (move : session.Move now action after answer)
    (asked : ledger.retirement? id action answer = some .freed) :
    ∃ record : Record, (ledger.observe action answer).commits = ledger.commits ++ [record] ∧
      record.frees id = true ∧ record.version = after.region.coordinator.clock ∧
      session.region.coordinator.clock < record.version := by
  rcases Ledger.retirement?_eq_freed.mp asked with ⟨owner, version, draft, rfl, rfl, known, frees⟩
  rcases tracked.commit_version move with ⟨same, present, settled⟩
  rw [known, Option.some.injEq] at present
  subst present
  refine ⟨⟨owner, version, draft.deeds⟩, by rw [Ledger.observe, Ledger.settle_eq known], frees, ?_⟩
  rcases settled with ⟨_, rfl, clock⟩ | ⟨quiet, _⟩
  · exact ⟨clock.symm, Region.clock_lt_succ room⟩
  · rw [Draft.draws_of_frees frees] at quiet
    cases quiet

/-- A segment that a commit asks for was given out. -/
theorem Tracked.freed_known (tracked : Tracked digest session ledger)
    (move : session.Move now action after answer)
    (asked : ledger.retirement? id action answer = some .freed) :
    ∃ segment, session.region.table.registered? id = some segment := by
  rcases Ledger.retirement?_eq_freed.mp asked with ⟨owner, version, draft, rfl, rfl, known, frees⟩
  cases move with
  | committed found settled =>
      rcases tracked.drafts owner _ found with ⟨same, present, drafted⟩
      rw [known, Option.some.injEq] at present
      subst present
      exact drafted.known id frees

/-- What became of a segment that was live, when since then some steps asked for it and
some transactions committed. -/
structure Fate (region : Region) (records : List Record) (id : SegmentId) (segment : Handle)
    (asked : List Retirement) : Prop where
  untouched : asked = [] → region.table.slot? id = some (.live segment)
  /-- The transaction that freed it first retired it at its version. -/
  freed : asked.head? = some .freed → ∃ record ∈ records, record.frees id = true ∧
    region.table.slot? id = some (.retired segment record.version)
  /-- All transactions that freed it committed after it was gone. -/
  dropped : asked.head? = some .dropped → ∃ version ≤ region.coordinator.clock,
    region.table.slot? id = some (.retired segment version) ∧
    ∀ record ∈ records, record.frees id = true → version < record.version
  recorded : (∃ record ∈ records, record.frees id = true) ↔ .freed ∈ asked

/-- A transaction that freed a segment and is recorded only now took a new version. -/
theorem Tracked.recorded_now (tracked : Tracked digest session ledger)
    (room : session.region.coordinator.clock.toNat + 1 < 2 ^ 64)
    (move : session.Move now action after answer) {record : Record}
    (member : record ∈ (ledger.observe action answer).commits) (frees : record.frees id = true) :
    record ∈ ledger.commits ∨ (ledger.retirement? id action answer = some .freed ∧
      session.region.coordinator.clock < record.version) := by
  by_cases asked : ledger.retirement? id action answer = some .freed
  · rcases tracked.freed_version room move asked with ⟨new, commits, _, _, later⟩
    rcases List.mem_append.mp (commits ▸ member) with old | now
    · exact .inl old
    · rw [List.mem_singleton.mp now]
      exact .inr ⟨asked, later⟩
  · rcases Ledger.commits_observe_quiet asked with ⟨added, commits, quiet⟩
    rcases List.mem_append.mp (commits ▸ member) with old | now
    · exact .inl old
    · rw [quiet record now] at frees
      cases frees

variable {segment : Handle} {asked : List Retirement}

/-- A segment that was asked for is gone. -/
theorem Fate.slot?_of_asked {region : Region} {records : List Record}
    (fate : Fate region records id segment asked) (gone : asked ≠ []) :
    ∃ version, region.table.slot? id = some (.retired segment version) := by
  cases asked with
  | nil => exact absurd rfl gone
  | cons first rest =>
      cases first with
      | freed =>
          rcases fate.freed rfl with ⟨record, _, _, slot⟩
          exact ⟨_, slot⟩
      | dropped =>
          rcases fate.dropped rfl with ⟨version, _, slot, _⟩
          exact ⟨_, slot⟩

/-- The commits of the transactions that freed a segment are among what asked for it. -/
theorem Tracked.recorded_step (tracked : Tracked digest session ledger)
    (room : session.region.coordinator.clock.toNat + 1 < 2 ^ 64)
    (move : session.Move now action after answer)
    (recorded : (∃ record ∈ ledger.commits, record.frees id = true) ↔ .freed ∈ asked) :
    (∃ record ∈ (ledger.observe action answer).commits, record.frees id = true) ↔
      .freed ∈ asked ++ (ledger.retirement? id action answer).toList := by
  rw [List.mem_append, Option.mem_toList]
  constructor
  · rintro ⟨record, member, frees⟩
    rcases tracked.recorded_now room move member frees with old | ⟨now, _⟩
    · exact .inl (recorded.mp ⟨record, old, frees⟩)
    · exact .inr now
  · rintro (old | now)
    · rcases recorded.mpr old with ⟨record, member, frees⟩
      exact ⟨record, Ledger.mem_commits_observe member action answer, frees⟩
    · rcases tracked.freed_version room move now with ⟨record, commits, frees, _⟩
      exact ⟨record, commits ▸ List.mem_append_right _ List.mem_cons_self, frees⟩

/-- The first step that asks for a live segment decides what becomes of it. -/
theorem Tracked.fate_first (tracked : Tracked digest session ledger)
    (room : session.region.coordinator.clock.toNat + 1 < 2 ^ 64)
    (move : session.Move now action after answer)
    (fate : Fate session.region ledger.commits id segment []) :
    Fate after.region (ledger.observe action answer).commits id segment
      (ledger.retirement? id action answer).toList := by
  have recorded := tracked.recorded_step room move fate.recorded
  have slot := tracked.slot?_step move (fate.untouched rfl)
  cases reason : ledger.retirement? id action answer with
  | none =>
      rw [reason] at slot recorded
      exact ⟨fun _ => slot, by simp, by simp, recorded⟩
  | some first =>
      rw [reason] at slot recorded
      cases first with
      | freed =>
          rcases tracked.freed_version room move reason with ⟨record, commits, frees, version, _⟩
          have member : record ∈ (ledger.observe action answer).commits :=
            commits ▸ List.mem_append_right _ List.mem_cons_self
          rw [← version] at slot
          exact ⟨by simp, fun _ => ⟨record, member, frees, slot⟩, by simp, recorded⟩
      | dropped =>
          refine ⟨by simp, by simp, ?_, recorded⟩
          intro _
          refine ⟨_, UInt64.le_refl _, slot, ?_⟩
          -- a transaction that freed it would have asked for it before
          intro record member frees
          have impossible := recorded.mp ⟨record, member, frees⟩
          simp at impossible

/-- Steps that ask for a segment that is gone change nothing. -/
theorem Tracked.fate_again (tracked : Tracked digest session ledger)
    (room : session.region.coordinator.clock.toNat + 1 < 2 ^ 64)
    (move : session.Move now action after answer) {first : Retirement}
    (fate : Fate session.region ledger.commits id segment (first :: asked)) :
    Fate after.region (ledger.observe action answer).commits id segment
      (first :: asked ++ (ledger.retirement? id action answer).toList) := by
  have recorded := tracked.recorded_step room move fate.recorded
  constructor
  · intro impossible
    cases impossible
  · intro head
    rcases fate.freed head with ⟨record, member, frees, slot⟩
    exact ⟨record, Ledger.mem_commits_observe member action answer, frees,
      tracked.slot?_retired move slot⟩
  · intro head
    rcases fate.dropped head with ⟨version, past, slot, younger⟩
    have forward := move.clock_mono tracked.valid room
    refine ⟨version, UInt64.le_trans past forward, tracked.slot?_retired move slot, ?_⟩
    intro record member frees
    rcases tracked.recorded_now room move member frees with old | ⟨_, later⟩
    · exact younger record old frees
    · exact UInt64.lt_of_le_of_lt past later
  · exact recorded

/-- What became of a segment after one more step. -/
theorem Tracked.fate_step (tracked : Tracked digest session ledger)
    (room : session.region.coordinator.clock.toNat + 1 < 2 ^ 64)
    (move : session.Move now action after answer)
    (fate : Fate session.region ledger.commits id segment asked) :
    Fate after.region (ledger.observe action answer).commits id segment
      (asked ++ (ledger.retirement? id action answer).toList) := by
  cases asked with
  | nil => exact tracked.fate_first room move fate
  | cons first rest => exact tracked.fate_again room move fate

namespace Reached

variable {config : RegionConfig} {actions : List Action} {answers : List Answer}

/-- The clock has a next value. -/
theorem room (reached : Reached machine config actions answers session) :
    session.region.coordinator.clock.toNat + 1 < 2 ^ 64 := by
  have clock := reached.tracked.2.2
  have short := reached.short
  omega

/-- A segment that a committed transaction freed is gone. -/
theorem freed_retired (reached : Reached machine config actions answers session) :
    ∀ record ∈ (Ledger.of actions answers).commits, record.frees id = true →
      ∃ segment version, session.region.table.slot? id = some (.retired segment version) := by
  apply reached.induction (motive := fun actions answers session =>
    ∀ record ∈ (Ledger.of actions answers).commits, record.frees id = true →
      ∃ segment version, session.region.table.slot? id = some (.retired segment version))
  · intro region _ record member
    cases member
  · intro actions answers session action answer after first short move gone record member frees
    rcases first.tracked with ⟨paired, tracked, _⟩
    rw [Ledger.of_snoc paired] at member
    rcases tracked.recorded_now first.room move member frees with old | ⟨now, _⟩
    · rcases gone record old frees with ⟨segment, version, known⟩
      exact ⟨segment, version, tracked.slot?_retired move known⟩
    · rcases tracked.freed_known move now with ⟨segment, registered⟩
      rcases SegmentTable.slot?_of_registered registered with live | ⟨version, known⟩
      · have slot := tracked.slot?_step move live
        rw [now] at slot
        exact ⟨segment, _, slot⟩
      · exact ⟨segment, version, tracked.slot?_retired move known⟩

/-- What became of a segment since it was seen live. -/
theorem fate {earlier later : List Action} {before beyond : List Answer} {middle : Session}
    {segment : Handle} (paired : before.length = earlier.length)
    (start : Reached machine config earlier before middle)
    (live : middle.region.table.slot? id = some (.live segment))
    (reached : Reached machine config (earlier ++ later) (before ++ beyond) session) :
    Fate session.region (Ledger.of (earlier ++ later) (before ++ beyond)).commits id segment
      ((Ledger.of earlier before).retirements id later beyond) := by
  apply start.induction_from (motive := fun later beyond session => Fate session.region
    (Ledger.of (earlier ++ later) (before ++ beyond)).commits id segment
      ((Ledger.of earlier before).retirements id later beyond)) paired
  · rw [List.append_nil, List.append_nil]
    refine ⟨fun _ => live, by rintro ⟨⟩, by rintro ⟨⟩, ?_⟩
    constructor
    · rintro ⟨record, member, frees⟩
      rcases start.freed_retired record member frees with ⟨_, _, gone⟩
      rw [live] at gone
      cases gone
    · rintro ⟨⟩
  · intro later beyond session action answer after same first move known
    rw [← List.append_assoc, ← List.append_assoc, Ledger.retirements_snoc _ _ same,
      Ledger.of_snoc first.tracked.1, ← Ledger.of_append paired]
    exact first.tracked.2.1.fate_step first.room move known
  · exact reached

end Reached

end Session

end WordStm
