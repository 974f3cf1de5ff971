import WordStm.Proofs.Numbers
import WordStm.Proofs.Retirement

/-!
# What open transactions have in common

An open transaction began with the step just taken, moved on in it, or was left
alone while the region changed around it.  A property of open transactions and of
what they did holds throughout if it holds of those that just began and each of
the three keeps it.
-/

namespace WordStm.Session

variable {digest : Digest} {machine now : Machine digest} {session after : Session}
  {action : Action} {answer : Answer}

namespace Move

/-- A step extends the region. -/
theorem extends_region (move : session.Move now action after answer)
    (valid : session.region.Valid)
    (room : session.region.coordinator.clock.toNat + 1 < 2 ^ 64) :
    after.region.Extends session.region := by
  have same : session.region.Steady session.region :=
    ⟨rfl, rfl, fun _ => rfl, rfl, UInt64.le_refl _⟩
  cases move with
  | began begun => exact (Region.begin_eq begun).1.toExtends
  | refused refused => exact (Region.begin_eq refused).1.toExtends
  | unknown => exact same.toExtends
  | performed found effect => exact (effect.grows valid).2.1
  | committed found settled =>
      cases settled with
      | quiet => exact (Region.steady_retire _ _ _ _ (UInt64.le_refl _)).toExtends
      | published publishes => exact Region.publish_extends publishes room _ _ _
      | failed clock =>
          apply (Region.steady_retire _ _ _ _ ?_).toExtends
          rcases clock with rfl | rfl
          · exact UInt64.le_refl _
          · exact UInt64.le_of_lt (Region.clock_lt_succ room)
  | dropped asked found =>
      rw [Region.abandon_eq]
      exact (Region.steady_retire _ _ _ _ (UInt64.le_refl _)).toExtends

/-- The transaction began with the step, moved on in it, or was left alone. -/
theorem of_find? {id : TransactionId} {transaction : Transaction}
    (move : session.Move now action after answer) (found : after.find? id = some transaction) :
    (∃ mode, action = .begin mode ∧ answer = .began (.ok id) ∧
      session.region.begin now mode = .ok (after.region, .ok transaction)) ∨
    (∃ operation result old, action = .perform id operation ∧ answer = .performed result ∧
      session.find? id = some old ∧
      session.region.Effect now old operation after.region transaction result) ∨
    (session.find? id = some transaction ∧ deedOf id action answer = none) := by
  have deedOf_of_not_performed : (∀ result, answer ≠ .performed (.ok result)) →
      deedOf id action answer = none := by
    intro silent
    unfold deedOf
    split
    next => exact absurd rfl (silent _)
    next => rfl
  cases move with
  | @began mode region begun starts =>
      rw [find?, List.find?_cons] at found
      split at found
      next same =>
        cases found
        have here := beq_iff_eq.mp same
        subst here
        exact .inl ⟨mode, rfl, rfl, starts⟩
      next => exact .inr (.inr ⟨found, deedOf_of_not_performed (by simp)⟩)
  | refused => exact .inr (.inr ⟨found, deedOf_of_not_performed (by simp)⟩)
  | unknown => exact .inr (.inr ⟨found, deedOf_of_not_performed (by simp)⟩)
  | @performed owner operation old moved region result known effect =>
      have name := effect.id_eq.trans (id_of_find? known)
      rw [find?_update, name] at found
      split at found
      next same =>
        subst same
        rw [Option.map_eq_some_iff] at found
        rcases found with ⟨_, _, rfl⟩
        exact .inr (.inl ⟨operation, result, old, rfl, rfl, known, effect⟩)
      next differ =>
        refine .inr (.inr ⟨found, ?_⟩)
        unfold deedOf
        split
        next shape _ =>
          cases shape
          exact if_neg (Ne.symm differ)
        next => rfl
  | committed known settled =>
      rw [find?_close] at found
      split at found
      next => cases found
      next => exact .inr (.inr ⟨found, deedOf_of_not_performed (by simp)⟩)
  | dropped asked known =>
      rw [find?_close] at found
      split at found
      next => cases found
      next => exact .inr (.inr ⟨found, deedOf_of_not_performed (by simp)⟩)

end Move

namespace Reached

variable {config : RegionConfig} {actions : List Action} {answers : List Answer}

/-- What holds of transactions that begin, and is kept by their operations and by whatever
happens around them, holds of every open transaction and all that it did. -/
theorem transactions {motive : Region → List Deed → Transaction → Prop}
    (begins : ∀ {actions answers session} {now : Machine digest} {mode region transaction},
      Reached machine config actions answers session →
      session.region.begin now mode = .ok (region, .ok transaction) →
        motive region [] transaction)
    (succeeds : ∀ {now : Machine digest} {before after records draft transaction moved operation
        reply}, before.Valid →
      transaction.Drafted digest before records draft →
      before.Effect now transaction operation after moved (.ok reply) →
      motive before draft.deeds transaction →
        motive after (draft.deeds ++ [⟨operation, reply⟩]) moved)
    (fails : ∀ {actions answers session} {now : Machine digest}
        {after deeds transaction moved operation failure},
      Reached machine config actions answers session →
      session.region.Effect now transaction operation after moved (.error failure) →
      motive session.region deeds transaction → motive after deeds moved)
    (others : ∀ {before after deeds transaction}, before.Valid → after.Extends before →
      motive before deeds transaction → motive after deeds transaction)
    (reached : Reached machine config actions answers session) :
    ∀ id transaction, session.find? id = some transaction →
      motive session.region (deedsOf id actions answers) transaction := by
  apply reached.induction (motive := fun actions answers session =>
    ∀ id transaction, session.find? id = some transaction →
      motive session.region (deedsOf id actions answers) transaction)
  · intro region _ id transaction found
    cases found
  · intro actions answers session action answer after first short move known id transaction found
    rcases first.tracked with ⟨paired, tracked, _⟩
    rw [deedsOf_snoc id paired]
    rcases move.of_find? found with
      ⟨mode, rfl, rfl, begun⟩ | ⟨operation, result, old, rfl, rfl, present, effect⟩ |
        ⟨present, silent⟩
    · have absent : .began (.ok id) ∉ answers := fun given => first.not_again move given rfl
      rw [first.deedsOf_of_not_began id absent]
      exact begins first begun
    · rcases tracked.drafts id old present with ⟨draft, noted, drafted⟩
      have before := known id old present
      rw [← first.draft_deeds id draft noted] at before ⊢
      cases result with
      | error failure =>
          rw [show deedOf id (.perform id operation) (.performed (.error failure)) = none from rfl]
          simpa using fails first effect before
      | ok reply =>
          rw [show deedOf id (.perform id operation) (.performed (.ok reply)) =
            some ⟨operation, reply⟩ from if_pos rfl]
          exact succeeds tracked.valid drafted effect before
    · rw [silent]
      simpa using others tracked.valid (move.extends_region tracked.valid first.room)
        (known id transaction present)

/-- A step of a history, with the sessions around it. -/
theorem at_step {earlier later : List Action} {before beyond : List Answer}
    (paired : before.length = earlier.length)
    (reached : Reached machine config (earlier ++ action :: later) (before ++ answer :: beyond)
      session) :
    ∃ middle next, Reached machine config earlier before middle ∧
      Reached machine config (earlier ++ [action]) (before ++ [answer]) next ∧
      middle.step (machine.during earlier.length) action = .ok (next, answer) := by
  rw [List.append_cons, List.append_cons before] at reached
  rcases reached.cut (by simp [paired]) with ⟨next, upTo, _⟩
  rcases upTo.snoc_answer with ⟨middle, first, stepped⟩
  exact ⟨middle, next, first, upTo, stepped⟩

/-- Every answer is that of some step. -/
theorem of_mem_answers (reached : Reached machine config actions answers session)
    (member : answer ∈ answers) :
    ∃ earlier action later before beyond middle next,
      actions = earlier ++ action :: later ∧ answers = before ++ answer :: beyond ∧
      before.length = earlier.length ∧ Reached machine config earlier before middle ∧
      middle.step (machine.during earlier.length) action = .ok (next, answer) := by
  rcases List.append_of_mem member with ⟨before, beyond, rfl⟩
  have length := reached.tracked.1
  rw [List.length_append, List.length_cons] at length
  have inside : before.length < actions.length := by omega
  have split : actions = actions.take before.length ++
      actions[before.length] :: actions.drop (before.length + 1) := by
    rw [List.getElem_cons_drop, List.take_append_drop]
  have paired : before.length = (actions.take before.length).length := by
    rw [List.length_take, Nat.min_eq_left (Nat.le_of_lt inside)]
  rw [split] at reached
  rcases reached.at_step paired with ⟨middle, next, first, _, stepped⟩
  exact ⟨_, _, _, before, beyond, middle, next, split, rfl, paired, first, stepped⟩

end Reached

end WordStm.Session
