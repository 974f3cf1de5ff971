import WordStm.Proofs.Accounting
import WordStm.Proofs.Tuning

/-!
# Transactions that run side by side

After any number of steps a region is laid out as it should be, and each transaction
that is running on it keeps to its log, whatever the others did meanwhile.  A
transaction that is running has begun in the last step, or an operation of its own
was the last step, or it was running before and is the same.
-/

namespace WordStm.Region

variable {digest : Digest} {machine : Machine digest} {config : RegionConfig}
  {region before after : Region}
  {transaction : Transaction} {lives next : List Life} {deeds : List Deed}

/-- What a region and the transactions that run on it keep to. -/
structure LogsValid (digest : Digest) (region : Region) (lives : List Life) : Prop where
  laid : region.LaidOutUnlocked
  kept : ∀ transaction deeds, ⟨.running transaction, deeds⟩ ∈ lives →
    transaction.LogValid digest region
  standing : ∀ transaction deeds, ⟨.running transaction, deeds⟩ ∈ lives → transaction.Standing

theorem LogsValid.sound {earlier later : List Life}
    (tended : region.LogsValid digest (earlier ++ ⟨.running transaction, deeds⟩ :: later)) :
    transaction.log.writes.Sound digest :=
  (tended.kept transaction deeds (by simp)).sound

/-- How a transaction came to run after a step. -/
inductive Origin (machine : Machine digest) (before : Region) (lives : List Life) (after : Region) :
    Transaction → List Deed → Prop
  | began {mode : AccessMode} {transaction : Transaction}
      (begun : before.begin machine mode = .ok (after, .ok transaction)) :
      Origin machine before lives after transaction []
  | succeeded {old moved : Transaction} {past : List Deed} {operation : Operation} {reply : Reply}
      (running : ⟨.running old, past⟩ ∈ lives)
      (effect : before.Effect machine old operation after moved (.ok reply)) :
      Origin machine before lives after moved (past ++ [⟨operation, reply⟩])
  | failed {old moved : Transaction} {past : List Deed} {operation : Operation} {failure : Failure}
      (running : ⟨.running old, past⟩ ∈ lives)
      (effect : before.Effect machine old operation after moved (.error failure)) :
      Origin machine before lives after moved past
  | stayed {transaction : Transaction} {deeds : List Deed}
      (running : ⟨.running transaction, deeds⟩ ∈ lives) :
      Origin machine before lives after transaction deeds

namespace Turn

/-- What runs after a step has just begun, or an operation of its own was the step, or it was
running before. -/
theorem running_cases (turn : before.Turn machine lives after next)
    (running : ⟨.running transaction, deeds⟩ ∈ next) :
    (deeds = [] ∧ ∃ mode, before.begin machine mode = .ok (after, .ok transaction)) ∨
    (∃ old past operation result, ⟨.running old, past⟩ ∈ lives ∧ operation.Sized ∧
      before.perform machine old operation = .ok (after, transaction, result) ∧
      deeds = match result with
        | .ok reply => past ++ [⟨operation, reply⟩]
        | .error _ => past) ∨
    ⟨.running transaction, deeds⟩ ∈ lives := by
  -- a step changes one life at most, so any other was there before
  have elsewhere : ∀ {earlier later : List Life} {old new : Life}, next = earlier ++ new :: later →
      lives = earlier ++ old :: later → ⟨.running transaction, deeds⟩ ≠ new →
        (⟨.running transaction, deeds⟩ : Life) ∈ lives := by
    rintro earlier later old new rfl rfl differ
    rw [List.mem_append, List.mem_cons] at running ⊢
    exact running.imp_right fun there => .inr (there.resolve_left differ)
  cases turn with
  | began begun =>
      rcases List.mem_append.mp running with there | here
      · exact .inr (.inr there)
      · cases List.mem_singleton.mp here
        exact .inl ⟨rfl, _, begun⟩
  | refused => exact .inr (.inr running)
  | @succeeded _ _ _ old moved past operation reply sized performed =>
      by_cases here : (⟨.running transaction, deeds⟩ : Life) =
          ⟨.running moved, past ++ [⟨operation, reply⟩]⟩
      · cases here
        exact .inr (.inl ⟨old, past, operation, _, by simp, sized, performed, rfl⟩)
      · exact .inr (.inr (elsewhere rfl rfl here))
  | @failed _ _ _ old moved past operation failure sized performed =>
      by_cases here : (⟨.running transaction, deeds⟩ : Life) = ⟨.running moved, past⟩
      · cases here
        exact .inr (.inl ⟨old, _, operation, _, by simp, sized, performed, rfl⟩)
      · exact .inr (.inr (elsewhere rfl rfl here))
  | committed | invalidated | dropped =>
      exact .inr (.inr (elsewhere rfl rfl fun impossible => by cases impossible))

/-- Everything that runs after a step comes from somewhere. -/
theorem origin (turn : before.Turn machine lives after next)
    (tended : before.LogsValid digest lives) (running : ⟨.running transaction, deeds⟩ ∈ next) :
    Origin machine before lives after transaction deeds := by
  rcases turn.running_cases running with ⟨rfl, mode, begun⟩ |
    ⟨old, past, operation, result, known, sized, performed, rfl⟩ | there
  · exact .began begun
  · have effect := perform_effect sized (tended.kept _ _ known).sound performed
    cases result with
    | ok reply => exact .succeeded known effect
    | error failure => exact .failed known effect
  · exact .stayed there

/-- A step leaves the region laid out, and what was there stays. -/
theorem laid_keeps (turn : before.Turn machine lives after next)
    (tended : before.LogsValid digest lives) : after.LaidOutUnlocked ∧ after.Keeps before := by
  have laid := tended.laid
  have steady : after.Steady before → after.LaidOutUnlocked ∧ after.Keeps before :=
    fun steady => ⟨laid.of_steady steady, steady.toExtends.keeps⟩
  cases turn with
  | began begun => exact steady (begin_eq begun).1
  | refused refused => exact steady (begin_eq refused).1
  | succeeded sized performed | failed sized performed =>
      have sound := tended.sound
      have effect := perform_effect sized sound performed
      exact ⟨effect.laid laid, effect.keeps laid⟩
  | committed settled | invalidated settled =>
      have sound := tended.sound
      have settlement := commit_settles settled
      exact ⟨settlement.laid laid, settlement.keeps⟩
  | dropped reason =>
      rw [abandon_eq] at steady ⊢
      exact steady (steady_retire _ _ _ _ (UInt64.le_refl _))

/-- Filters are asked to be of the same size throughout. -/
theorem filterBits_eq (turn : before.Turn machine lives after next)
    (tended : before.LogsValid digest lives) :
    after.coordinator.filterBits = before.coordinator.filterBits := by
  cases turn with
  | began begun => rw [(begin_eq begun).2.2.1]
  | refused refused => rw [(begin_eq refused).2.2.1]
  | succeeded sized performed | failed sized performed =>
      have sound := tended.sound
      rw [(perform_effect sized sound performed).coordinator_eq]
  | committed settled | invalidated settled =>
      have sound := tended.sound
      rw [(commit_settles settled).filterBits_eq]
  | dropped reason =>
      rw [abandon_eq]

end Turn

/-- Every step keeps to everything. -/
theorem LogsValid.turn (tended : before.LogsValid digest lives)
    (turn : before.Turn machine lives after next) : after.LogsValid digest next where
  laid := (turn.laid_keeps tended).1
  kept := by
    intro transaction deeds running
    cases turn.origin tended running with
    | began begun => exact .begin begun
    | succeeded known effect | failed known effect =>
        exact (tended.kept _ _ known).perform tended.laid effect
    | stayed known => exact (tended.kept _ _ known).keep (turn.laid_keeps tended).2
  standing := by
    intro transaction deeds running
    cases turn.origin tended running with
    | began begun =>
        rcases (begin_eq begun).2.2.2 transaction rfl with ⟨filter, rfl⟩
        exact .inl rfl
    | succeeded known effect => exact .inl (effect.active)
    | failed known effect =>
        exact (effect.standing tended.laid.unlocked (tended.standing _ _ known)).2
    | stayed known => exact tended.standing _ _ known

namespace ReachedWith

theorem tended (lived : ReachedWith digest config region lives) :
    region.LogsValid digest lives := by
  induction lived with
  | created created =>
      refine ⟨create_laid created, ?_, ?_⟩
      · intro transaction deeds impossible
        cases impossible
      · intro transaction deeds impossible
        cases impossible
  | turned _ turn tended => exact tended.turn turn

theorem filterBits_eq (lived : ReachedWith digest config region lives) :
    region.coordinator.filterBits = config.filterBits := by
  induction lived with
  | created created =>
      rcases create_ok created with ⟨_, _, _, _, _, _, _, _, _, _, _, coordinator⟩
      rw [coordinator]
      rfl
  | turned lived turn same => exact (turn.filterBits_eq lived.tended).trans same

end ReachedWith

/-- What a region and the transactions that run on it keep to while the clock does not come
round. -/
structure SnapshotsDated (region : Region) (lives : List Life) : Prop where
  rested : region.UnlockedDated
  past : ∀ transaction deeds, ⟨.running transaction, deeds⟩ ∈ lives →
    transaction.snapshot ≤ region.coordinator.clock
  logged : ∀ transaction deeds, ⟨.running transaction, deeds⟩ ∈ lives →
    transaction.status = .active → transaction.Logged region deeds

namespace SnapshotsDated

variable (timely : before.SnapshotsDated lives) (tended : before.LogsValid digest lives)
  (step : before.Turn machine lives after next)
  (forward : before.coordinator.clock ≤ after.coordinator.clock)

include timely tended step forward

/-- No step leaves a word locked, or ahead of the clock. -/
theorem rested_turn : after.UnlockedDated := by
  have rested := timely.rested
  have valid := tended.laid.valid_of_dated rested.dated
  cases step with
  | began begun => exact rested.steady (begin_eq begun).1 (begin_eq begun).2.1
  | refused refused => exact rested.steady (begin_eq refused).1 (begin_eq refused).2.1
  | succeeded sized performed | failed sized performed =>
      have sound := tended.sound
      exact (perform_effect sized sound performed).rested valid rested
  | committed settled | invalidated settled =>
      have sound := tended.sound
      have past := timely.past _ _ (List.mem_append_right _ List.mem_cons_self)
      exact (commit_settles settled).rested rested (fun _ => past) forward
  | dropped reason =>
      rw [abandon_eq]
      exact rested.retire _ _ (UInt64.le_refl _) (UInt64.le_refl _) rested.unlocked rested.dated

/-- Every step keeps to everything. -/
theorem turn : after.SnapshotsDated next := by
  have valid := tended.laid.valid_of_dated timely.rested.dated
  refine ⟨timely.rested_turn tended step forward, ?_, ?_⟩
  · intro transaction deeds running
    cases step.origin tended running with
    | began begun =>
        rcases begin_eq begun with ⟨_, _, coordinator, starts⟩
        rcases starts transaction rfl with ⟨filter, rfl⟩
        rw [coordinator]
        exact UInt64.le_refl _
    | succeeded known effect | failed known effect =>
        rw [effect.snapshot_eq]
        exact UInt64.le_trans (timely.past _ _ known) forward
    | stayed known => exact UInt64.le_trans (timely.past _ _ known) forward
  · intro transaction deeds running active
    cases step.origin tended running with
    | began begun => exact .begin begun
    | succeeded known effect =>
        have kept := tended.kept _ _ known
        exact .succeeded (timely.logged _ _ known) valid kept.sound
          (fun started readOnly => (kept.quiet started readOnly).1) effect
    | failed known effect => exact .failed (timely.logged _ _ known) valid effect active
    | stayed known => exact (timely.logged _ _ known active).keep (step.laid_keeps tended).2

end SnapshotsDated

theorem ReachedForward.timely (risen : ReachedForward digest config region lives) :
    region.SnapshotsDated lives := by
  induction risen with
  | created created =>
      refine ⟨create_rested created, ?_, ?_⟩
      · intro transaction deeds impossible
        cases impossible
      · intro transaction deeds impossible
        cases impossible
  | turned risen turn forward timely => exact timely.turn risen.reachedWith.tended turn forward

/-- What was computed of an open transaction is seen of one that runs on a region. -/
theorem ReachedWith.of_seenAfter {α : Type} {view : Region → Transaction → α} {seen : α}
    {actions : List Action} {answers : List Answer} {id : TransactionId}
    (computed : Session.seenAfter (fun session => (session.find? id).map (view session.region))
      machine config actions = some (some seen, answers))
    (short : actions.length < 2 ^ 64 - 1) (sized : ∀ action ∈ actions, action.Sized) :
    ∃ region lives transaction deeds, ReachedWith digest config region lives ∧
      ⟨.running transaction, deeds⟩ ∈ lives ∧ view region transaction = seen := by
  rcases Session.Reached.of_seenAfter computed short sized with ⟨session, reached, known⟩
  rcases Option.map_eq_some_iff.mp known with ⟨transaction, found, same⟩
  rcases reached.reachedWith with ⟨lives, lived, listed⟩
  rcases listed.running found with ⟨deeds, running⟩
  exact ⟨session.region, lives, transaction, deeds, lived, running, same⟩

end WordStm.Region
