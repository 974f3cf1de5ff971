import WordStm.Proofs.Lockstep

/-!
# Tuning does not show

The filter, its hash function, the order of locks and the room of the table at the
start decide how fast a region is and when memory runs out, and nothing else.  Two
regions of the same size and word length that differ in all of these answer every
sequence of actions alike, unless memory runs out on one of them.
-/

namespace WordStm

variable {digest another : Digest} {machine : Machine digest} {other : Machine another}

namespace Region

variable {left right region after : Region} {first second config : RegionConfig}
  {transaction moved : Transaction}

/-- The filter of a transaction can be sized, unless it is to have one of the last 63 sizes. -/
theorem filterFor_total (room : region.coordinator.filterBits.toNat ≤ 2 ^ 64 - 64)
    (machine : Machine digest) (mode : AccessMode) :
    ∃ made, region.filterFor machine mode = .ok made := by
  have most : UInt64.size = 2 ^ 64 := rfl
  cases mode with
  | readOnly => exact ⟨_, rfl⟩
  | readWrite =>
      rw [filterFor, AddressFilter.create, if_pos (by omega)]
      exact ⟨_, rfl⟩

/-- What making a region from a configuration that passes comes to: a region, or a lack of memory.
Of a table of 2^60 slots or more the lack cannot be told. -/
def MadeOrShort (machine : Machine digest) (config : RegionConfig) : Prop :=
  (∃ made, create machine config = .ok made ∧
    ∀ failure, made = .error failure → failure.isOutOfMemory = true) ∨
  create machine config = .error .overflow ∧ 2 ^ 60 ≤ config.tableCapacity.toNat ∧
    machine.grants (.slots config.tableCapacity.toNat) = false

theorem madeOrShort_of_check (passed : config.check = .ok (.ok ())) (machine : Machine digest) :
    MadeOrShort machine config := by
  have positive : config.align ≠ 0 := by
    intro zero
    exact (RegionConfig.check_ok_layout passed).1 (by simp [zero])
  rcases Segment.create_total positive machine config.size with ⟨segment, created⟩
  simp only [MadeOrShort, create, passed, created]
  cases roomy : SegmentTable.withCapacity machine config.tableCapacity with
  | error fault =>
      right
      rw [SegmentTable.withCapacity] at roomy
      split at roomy
      next => cases roomy
      next refused =>
        split at roomy
        next => cases roomy
        next crowded =>
          cases roomy
          have slot : SegmentTable.slotBytes.toNat = 16 := rfl
          have most : UInt64.size = 2 ^ 64 := rfl
          have two : (2 : UInt64).toNat = 2 := rfl
          rw [UInt64.toNat_max, two, slot, most] at crowded
          have large : 2 ^ 60 ≤ config.tableCapacity.toNat := by omega
          refine ⟨rfl, large, ?_⟩
          rw [UInt64.toNat_max, two, max_eq_left (by omega)] at refused
          exact Bool.eq_false_iff.mpr refused
  | ok table =>
      left
      cases table with
      | error failure =>
          refine ⟨_, rfl, ?_⟩
          rintro _ ⟨⟩
          rw [SegmentTable.withCapacity] at roomy
          split at roomy
          next => cases roomy
          next =>
            split at roomy <;> cases roomy
            rfl
      | ok table =>
          cases segment with
          | error failure =>
              refine ⟨_, rfl, ?_⟩
              rintro _ ⟨⟩
              exact Segment.create_refused created
          | ok segment =>
              refine ⟨_, rfl, ?_⟩
              intro failure failed
              rcases bind_eq_error.mp failed with refused | ⟨_, _, impossible⟩
              · exact SegmentTable.register_refused refused
              · cases impossible

/-- New regions of one size and word length are twins. -/
theorem create_twin (created : create machine first = .ok (.ok left))
    (again : create other second = .ok (.ok right)) (size : second.size = first.size)
    (align : second.align = first.align) : left.Twin id right := by
  have live := (create_fresh created).1
  have alsoLive := (create_fresh again).1
  rcases create_ok created with
    ⟨_, _, _, segment, table, given, made, slots, registered, config, memory, coordinator⟩
  rcases create_ok again with
    ⟨_, _, _, alsoSegment, grown, also, alsoMade, alsoSlots, entered, alsoConfig, alsoMemory,
      alsoCoordinator⟩
  rw [size, align] at alsoMade
  cases Segment.create_unique made alsoMade
  have same : right.memory = left.memory := by rw [memory, alsoMemory]
  constructor
  · rw [config, alsoConfig, align]
  · rw [same]
  · simp [same]
  · rw [(SegmentTable.register_ok registered).2.2.1, (SegmentTable.register_ok entered).2.2.1,
      slots, alsoSlots]
    simp [Slot.restamp]
  · rw [live, alsoLive]
  · rw [coordinator, alsoCoordinator]
    rfl

/-- Only a transaction that begins is counted. -/
theorem begin_counts {mode : AccessMode} {result : Except Failure Transaction}
    (began : region.begin machine mode = .ok (after, result)) :
    after.tally = if result.isOk then region.tally.began else region.tally := by
  simp only [begin, bind_eq_ok, Prod.exists] at began
  rcases began with ⟨_, started, _, began⟩
  cases started <;> cases began <;> rfl

/-- Commits are ruled alike where versions go by the same names. -/
theorem Twin.ruling_eq {origin copy : Transaction} (twin : left.Twin id right)
    (laid : left.LaidOutUnlocked) (same : origin.Twin another id copy)
    (active : origin.status = .active) :
    right.coordinator.ruling needsValidation right.memory copy =
      left.coordinator.ruling needsValidation left.memory origin := by
  rw [(twin.laid laid).ruling_eq, laid.ruling_eq, same.snapshot, twin.clock, same.reads active]
  have stale := twin.isStale laid ⟨fun _ _ _ _ => Iff.rfl, rfl, rfl⟩ origin.snapshot
  simp only [id_eq] at stale ⊢
  simp only [stale]

end Region

/-- The counters after a step, by what it answered. -/
def Tally.after (tally : Tally) : Answer → Tally
  | .began (.ok _) => tally.began
  | .committed (.ok _) => tally.ended true
  | .committed (.error _) | .ended => tally.ended false
  | .began (.error _) | .performed _ | .unknown => tally

namespace Session

variable {left right session after final last : Session} {actions : List Action}
  {action : Action} {answer reply : Answer} {answers replies : List Answer}

namespace Move

/-- A step counts what it answers. -/
theorem tally_eq (move : session.Move machine action after answer) :
    after.region.tally = session.region.tally.after answer := by
  cases move with
  | began begun => exact Region.begin_counts begun
  | refused refused => exact Region.begin_counts refused
  | unknown => rfl
  | performed found effect => cases effect <;> rfl
  | committed found settled => cases settled <;> rfl
  | dropped asked found =>
      rw [Region.abandon_eq]
      rfl

end Move

/-- Every run comes to an end, if filters can be sized. -/
theorem LogsValid.run_total (kept : session.LogsValid digest) (machine : Machine digest)
    (room : session.region.coordinator.filterBits.toNat ≤ 2 ^ 64 - 64)
    (sized : ∀ action ∈ actions, action.Sized) :
    ∃ final answers, session.run machine actions = .ok (final, answers) := by
  induction actions generalizing session machine with
  | nil => exact ⟨_, _, rfl⟩
  | cons action rest ih =>
      rw [List.forall_mem_cons] at sized
      rcases kept.step_total (machine.during 0) action
        (fun mode _ => Region.filterFor_total room _ mode) with ⟨after, answer, stepped⟩
      have move := step_moves sized.1 kept.sound stepped
      have still : after.region.coordinator.filterBits.toNat ≤ 2 ^ 64 - 64 := by
        rw [move.filterBits_eq]
        exact room
      rcases ih (move.kept kept) (machine.since 1) still sized.2 with ⟨final, answers, ran⟩
      simp only [run, stepped, ran, bind, Except.bind]
      exact ⟨_, _, rfl⟩

/-- Twins that go by the same names step alike, unless memory runs out. -/
theorem Twin.step_eq (twin : left.Twin another id (fun _ => True) id right)
    (kept : left.LogsValid digest) (sized : action.Sized)
    (stepped : left.step machine action = .ok (after, answer))
    (again : right.step other action = .ok (final, reply)) (spared : answer.isStarved = false)
    (alsoSpared : reply.isStarved = false) :
    reply = answer ∧ after.Twin another id (fun _ => True) id final := by
  have numbered : left.Numbered id fun _ => True :=
    ⟨fun _ _ _ _ same => same, trivial, rfl⟩
  have tells : left.region.Tells id := ⟨fun _ _ _ _ => Iff.rfl, rfl, rfl⟩
  rw [← Action.rename_id action] at again
  rcases twin.step numbered kept tells sized (fun _ _ => trivial)
      (fun number first second _ found alsoFound same active =>
        twin.region.ruling_eq kept.laid same active) stepped again
      (.inr ⟨spared, alsoSpared⟩) with ⟨twins, agrees⟩
  exact ⟨agrees.eq, twins⟩

/-- Twins that go by the same names run alike, unless memory runs out. -/
theorem Twin.run_eq (twin : left.Twin another id (fun _ => True) id right)
    (kept : left.LogsValid digest) (alsoKept : right.LogsValid another)
    (tally : right.region.tally = left.region.tally) (sized : ∀ action ∈ actions, action.Sized)
    (ran : left.run machine actions = .ok (final, answers))
    (again : right.run other actions = .ok (last, replies))
    (spared : ∀ answer ∈ answers, answer.isStarved = false)
    (alsoSpared : ∀ reply ∈ replies, reply.isStarved = false) :
    replies = answers ∧ last.region.tally = final.region.tally ∧
      final.Twin another id (fun _ => True) id last := by
  induction actions generalizing left right answers replies machine other with
  | nil =>
      cases ran
      cases again
      exact ⟨rfl, tally, twin⟩
  | cons action rest ih =>
      simp only [run, bind_eq_ok, pure_eq_ok, Prod.exists, Prod.mk.injEq] at ran again
      rcases ran with ⟨after, answer, stepped, _, answers, ran, rfl, rfl⟩
      rcases again with ⟨next, reply, alsoStepped, _, replies, again, rfl, rfl⟩
      rw [List.forall_mem_cons] at sized spared alsoSpared
      have move := step_moves sized.1 kept.sound stepped
      have alsoMove := step_moves sized.1 alsoKept.sound alsoStepped
      rcases twin.step_eq kept sized.1 stepped alsoStepped spared.1 alsoSpared.1 with
        ⟨rfl, twins⟩
      have tallies : next.region.tally = after.region.tally := by
        rw [move.tally_eq, alsoMove.tally_eq, tally]
      rcases ih twins (move.kept kept) (alsoMove.kept alsoKept) tallies sized.2 ran again spared.2
        alsoSpared.2 with ⟨rfl, same, final⟩
      exact ⟨rfl, same, final⟩

variable {first second : RegionConfig}

/-- Nothing but the size of the first segment and the length of words shows.  Two regions that
agree in these, on machines that need not grant the same requests or digest addresses alike,
answer every sequence of actions, of whichever transactions; and unless one of them reports
that memory ran out they give the same answers, count the same, and have the same transactions
open, with the same statuses. -/
theorem tuning_unobservable (machine : Machine digest) (other : Machine another)
    (passed : first.check = .ok (.ok ())) (alsoPassed : second.check = .ok (.ok ()))
    (size : second.size = first.size) (align : second.align = first.align)
    (room : first.filterBits.toNat ≤ 2 ^ 64 - 64)
    (alsoRoom : second.filterBits.toNat ≤ 2 ^ 64 - 64) :
    Region.MadeOrShort machine first ∧ Region.MadeOrShort other second ∧
      ∀ left right, Region.create machine first = .ok (.ok left) →
        Region.create other second = .ok (.ok right) →
        ∀ actions : List Action, (∀ action ∈ actions, action.Sized) →
          ∃ final answers last replies,
            (ofRegion left).run machine actions = .ok (final, answers) ∧
            (ofRegion right).run other actions = .ok (last, replies) ∧
            ((∀ answer ∈ answers ++ replies, answer.isStarved = false) →
              replies = answers ∧ last.region.metrics = final.region.metrics ∧
                ∀ number, (last.find? number).map (·.status) =
                  (final.find? number).map (·.status)) := by
  refine ⟨Region.madeOrShort_of_check passed machine,
    Region.madeOrShort_of_check alsoPassed other, ?_⟩
  intro left right created alsoCreated actions sized
  have kept := kept_ofRegion created
  have alsoKept := kept_ofRegion alsoCreated
  rcases Region.create_ok created with ⟨_, _, _, _, _, _, _, _, _, _, _, coordinator⟩
  rcases Region.create_ok alsoCreated with ⟨_, _, _, _, _, _, _, _, _, _, _, alsoCoordinator⟩
  have bits : (ofRegion left).region.coordinator.filterBits.toNat ≤ 2 ^ 64 - 64 := by
    rw [ofRegion, coordinator]
    exact room
  have alsoBits : (ofRegion right).region.coordinator.filterBits.toNat ≤ 2 ^ 64 - 64 := by
    rw [ofRegion, alsoCoordinator]
    exact alsoRoom
  rcases kept.run_total machine bits sized with ⟨final, answers, ran⟩
  rcases alsoKept.run_total other alsoBits sized with ⟨last, replies, again⟩
  refine ⟨final, answers, last, replies, ran, again, fun spared => ?_⟩
  rw [List.forall_mem_append] at spared
  have twin : (ofRegion left).Twin another id (fun _ => True) id (ofRegion right) := by
    refine ⟨Region.create_twin created alsoCreated size align, ?_, fun _ _ => .none⟩
    rw [ofRegion, ofRegion, coordinator, alsoCoordinator]
    rfl
  have tally := (Region.create_fresh alsoCreated).2.trans (Region.create_fresh created).2.symm
  rcases twin.run_eq kept alsoKept tally sized ran again spared.1 spared.2 with
    ⟨same, tallies, twins⟩
  refine ⟨same, ?_, ?_⟩
  · rw [Region.metrics, Region.metrics, tallies, twins.region.live, twins.region.clock, id]
  · intro number
    have related : Option.Rel _ (final.find? number) (last.find? number) :=
      twins.transactions number trivial
    generalize final.find? number = transaction at related
    generalize last.find? number = also at related
    cases related with
    | none => rfl
    | some same => exact congrArg some (same.status.eq rfl)

/-- A machine on which every address falls on the same bits of a filter, and which grants only
requests below a limit that sinks. -/
def sinking : Machine fun _ => 0 where
  grantsAt moments request := decide (request.bytes + moments.sum ≤ 1000)

/-- The configuration of three words, tuned otherwise. -/
def retuned : RegionConfig :=
  { threeWords with
    filterBits := 130, filterHashes := 2, lockOrder := .writeSet, tableCapacity := 5 }

/-- Transaction 1 reads a word that it did not write, which the filter may mistake for the one
that it wrote. -/
def mistaken : List Action :=
  [.begin .readWrite, .perform ⟨1⟩ (.write (List.replicate 8 1) ⟨.first, 0⟩),
    .perform ⟨1⟩ (.read ⟨.first, 0⟩ 16), .perform ⟨1⟩ (.alloc 8), .commit ⟨1⟩]

def mistakenAnswers : List Answer :=
  [.began (.ok ⟨1⟩), .performed (.ok .done),
    .performed (.ok (.bytes (List.replicate 8 1 ++ List.replicate 8 0))),
    .performed (.ok (.address ⟨⟨2⟩, 0⟩)), .committed (.ok 1)]

theorem tuning_unobservable_mistaken : ∃ left right final last,
    Region.create (.limited 1000) threeWords = .ok (.ok left) ∧
    Region.create sinking retuned = .ok (.ok right) ∧
    (ofRegion left).run (.limited 1000) mistaken = .ok (final, mistakenAnswers) ∧
    (ofRegion right).run sinking mistaken = .ok (last, mistakenAnswers) ∧
    last.region.metrics = final.region.metrics := by
  have computed : seenAfter (fun _ => ()) (.limited 1000) threeWords mistaken =
      some ((), mistakenAnswers) := by cbv
  have alsoComputed : seenAfter (fun _ => ()) sinking retuned mistaken =
      some ((), mistakenAnswers) := by cbv
  have sized : ∀ action ∈ mistaken, action.Sized := by
    simp [mistaken, Action.Sized, Operation.Sized]
  rcases Reached.of_seenAfter computed (by decide) sized with
    ⟨_, ⟨⟨left, created, ran⟩, _, _⟩, _⟩
  rcases Reached.of_seenAfter alsoComputed (by decide) sized with
    ⟨_, ⟨⟨right, alsoCreated, again⟩, _, _⟩, _⟩
  have passed : threeWords.check = .ok (.ok ()) := by decide
  have alsoPassed : retuned.check = .ok (.ok ()) := by decide
  rcases tuning_unobservable (.limited 1000) sinking passed alsoPassed rfl rfl (by decide)
      (by decide) with ⟨_, _, alike⟩
  rcases alike left right created alsoCreated mistaken sized with
    ⟨final, answers, last, replies, ran', again', same⟩
  cases ran.symm.trans ran'
  cases again.symm.trans again'
  exact ⟨left, right, _, _, created, alsoCreated, ran, again, (same (by decide)).2.1⟩

end Session

end WordStm
