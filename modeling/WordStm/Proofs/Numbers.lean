import WordStm.Proofs.Tracking

/-!
# Numbers of transactions

A number is given out once: a transaction that begins takes the next one, and
fewer transactions begin than there are numbers.  All that was done under a
number is therefore in the draft or the record of one transaction, and the
ledger of a history has exactly the transactions that committed in it.
-/

namespace WordStm.Session

variable {digest : Digest} {machine now : Machine digest} {session : Session}
  {config : RegionConfig} {actions : List Action} {answers : List Answer}

namespace Move

variable {action : Action} {after : Session} {answer : Answer}

/-- A step gives out the next number, or none. -/
theorem nextId_eq (valid : session.region.Valid)
    (move : session.Move now action after answer) :
    (after.region.coordinator.nextId = session.region.coordinator.nextId ∧
      ∀ id, answer ≠ .began (.ok id)) ∨
    (after.region.coordinator.nextId = session.region.coordinator.nextId + 1 ∧
      ∀ id, answer = .began (.ok id) → id = ⟨session.region.coordinator.nextId⟩) := by
  cases move with
  | began begun =>
      right
      rcases Region.begin_eq begun with ⟨_, _, coordinator, named⟩
      rcases named _ rfl with ⟨filter, rfl⟩
      refine ⟨by rw [coordinator], ?_⟩
      intro id same
      cases same
      rfl
  | refused refused =>
      right
      rw [(Region.begin_eq refused).2.2.1]
      exact ⟨rfl, by simp⟩
  | unknown => exact .inl ⟨rfl, by simp⟩
  | performed found effect =>
      left
      simp only [update, (effect.grows valid).2.2]
      exact ⟨trivial, by simp⟩
  | committed found settled =>
      left
      cases settled with
      | quiet => exact ⟨rfl, by simp⟩
      | published publishes =>
          simp only [close, publishes.clock]
          exact ⟨trivial, by simp⟩
      | failed clock => rcases clock with rfl | rfl <;> exact ⟨rfl, by simp⟩
  | dropped asked found =>
      left
      rw [Region.abandon_eq]
      exact ⟨rfl, by simp⟩

end Move

namespace Reached

/-- Every number that was given out is below the next one. -/
theorem numbers (reached : Reached machine config actions answers session) :
    session.region.coordinator.nextId.toNat ≤ actions.length + 1 ∧
      ∀ id, .began (.ok id) ∈ answers →
        id.raw.toNat < session.region.coordinator.nextId.toNat := by
  apply reached.induction
    (motive := fun actions answers session =>
      session.region.coordinator.nextId.toNat ≤ actions.length + 1 ∧
        ∀ id, .began (.ok id) ∈ answers →
          id.raw.toNat < session.region.coordinator.nextId.toNat)
  · intro region created
    rcases Region.create_ok created with ⟨_, _, _, _, _, _, _, _, _, _, _, coordinator⟩
    rw [ofRegion, coordinator]
    exact ⟨Nat.le_refl 1, by simp⟩
  · intro actions answers session action answer after first short move known
    rcases known with ⟨bound, given⟩
    have valid := first.tracked.2.1.valid
    rw [List.length_append, List.length_singleton]
    rcases move.nextId_eq valid with ⟨same, silent⟩ | ⟨next, named⟩
    · rw [same]
      refine ⟨by omega, ?_⟩
      intro id member
      rcases List.mem_append.mp member with old | new
      · exact given id old
      · exact absurd (List.mem_singleton.mp new).symm (silent id)
    · have forward : after.region.coordinator.nextId.toNat =
          session.region.coordinator.nextId.toNat + 1 := by
        rw [next, UInt64.toNat_add]
        exact Nat.mod_eq_of_lt (show _ + 1 < 2 ^ 64 by omega)
      rw [forward]
      refine ⟨by omega, ?_⟩
      intro id member
      rcases List.mem_append.mp member with old | new
      · exact Nat.lt_succ_of_lt (given id old)
      · rw [named id (List.mem_singleton.mp new).symm]
        exact Nat.lt_succ_self _

/-- A number that was given out is not given out again. -/
theorem not_again {action : Action} {answer : Answer} {after : Session} {id : TransactionId}
    (reached : Reached machine config actions answers session)
    (move : session.Move now action after answer) (given : .began (.ok id) ∈ answers) :
    answer ≠ .began (.ok id) := by
  intro again
  have below := reached.numbers.2 id given
  rcases move.nextId_eq reached.tracked.2.1.valid with ⟨_, silent⟩ | ⟨_, named⟩
  · exact silent id again
  · rw [named id again] at below
    exact Nat.lt_irrefl _ below

/-- The number of an open transaction was given out. -/
theorem number_lt {id : TransactionId} {transaction : Transaction}
    (reached : Reached machine config actions answers session)
    (found : session.find? id = some transaction) :
    id.raw.toNat < session.region.coordinator.nextId.toNat := by
  rcases reached.tracked with ⟨paired, tracked, _⟩
  rcases tracked.drafts id transaction found with ⟨draft, known, _⟩
  rcases Ledger.drafts_of paired known with ⟨_, _, _, _, _, _, rfl, _⟩
  exact reached.numbers.2 id (by simp)

/-- No two transactions begin with the same number. -/
theorem begins_apart (reached : Reached machine config actions answers session) :
    answers.Pairwise fun earlier later =>
      ∀ id, earlier = .began (.ok id) → later ≠ .began (.ok id) := by
  apply reached.induction (motive := fun _ answers _ => answers.Pairwise fun earlier later =>
    ∀ id, earlier = .began (.ok id) → later ≠ .began (.ok id))
  · intro region _
    exact List.Pairwise.nil
  · intro actions answers session action answer after first short move apart
    rw [List.pairwise_append]
    refine ⟨apart, List.pairwise_singleton _ _, ?_⟩
    rintro earlier member later new id rfl rfl
    exact first.not_again move member (List.mem_singleton.mp new).symm

/-- A transaction begins once. -/
theorem began_once {before beyond : List Answer} {id : TransactionId}
    (reached : Reached machine config actions (before ++ .began (.ok id) :: beyond) session) :
    .began (.ok id) ∉ before ∧ .began (.ok id) ∉ beyond := by
  rcases List.pairwise_append.mp reached.begins_apart with ⟨_, behind, across⟩
  constructor
  · intro again
    exact across _ again _ List.mem_cons_self id rfl rfl
  · intro again
    exact (List.pairwise_cons.mp behind).1 _ again id rfl rfl

/-- A transaction that committed is not open any more. -/
theorem committed_closed (reached : Reached machine config actions answers session) :
    ∀ record ∈ (Ledger.of actions answers).commits,
      .began (.ok record.id) ∈ answers ∧ (Ledger.of actions answers).drafts record.id = none := by
  apply reached.induction
    (motive := fun actions answers _ => ∀ record ∈ (Ledger.of actions answers).commits,
      .began (.ok record.id) ∈ answers ∧ (Ledger.of actions answers).drafts record.id = none)
  · intro region _ record member
    cases member
  · intro actions answers session action answer after first short move closed record member
    have paired := first.tracked.1
    rw [Ledger.of_snoc paired] at member ⊢
    -- a record that was there stays closed, as its number is not given out again
    have kept : ∀ old ∈ (Ledger.of actions answers).commits,
        .began (.ok old.id) ∈ answers ++ [answer] ∧
          ((Ledger.of actions answers).observe action answer).drafts old.id = none := by
      intro old inside
      rcases closed old inside with ⟨given, shut⟩
      refine ⟨List.mem_append_left _ given, ?_⟩
      cases known : ((Ledger.of actions answers).observe action answer).drafts old.id with
      | none => rfl
      | some draft =>
          rcases Ledger.drafts_observe known with ⟨_, _, again, _⟩ | ⟨_, present, _⟩
          · exact absurd again (first.not_again move given)
          · rw [shut] at present
            cases present
    rcases Ledger.commits_observe (Ledger.of actions answers) action answer with
      same | ⟨id, version, draft, rfl, rfl, known, added⟩
    · exact kept record (same ▸ member)
    · have inside : record ∈ (Ledger.of actions answers).commits ++ [⟨id, version, draft.deeds⟩] :=
        added ▸ member
      rcases List.mem_append.mp inside with old | new
      · exact kept record old
      · rw [List.mem_singleton.mp new]
        constructor
        · rcases Ledger.drafts_of paired known with ⟨_, _, _, _, _, _, rfl, _⟩
          simp
        · exact (Ledger.drafts_settle _ _ _ _).trans (if_pos rfl)

/-- Only an open transaction does anything. -/
theorem deedOf_of_closed {action : Action} {answer : Answer} {after : Session}
    {id : TransactionId} (reached : Reached machine config actions answers session)
    (move : session.Move now action after answer)
    (closed : (Ledger.of actions answers).drafts id = none) : deedOf id action answer = none := by
  cases done : deedOf id action answer with
  | none => rfl
  | some deed =>
      unfold deedOf at done
      split at done
      next owner operation reply =>
        split at done
        next same =>
          subst same
          cases move with
          | performed found effect =>
              rcases reached.tracked.2.1.drafts _ _ found with ⟨draft, known, _⟩
              rw [closed] at known
              cases known
        next => cases done
      next => cases done

/-- A number under which something was done was given out. -/
theorem deedsOf_of_not_began (reached : Reached machine config actions answers session) :
    ∀ id, .began (.ok id) ∉ answers → deedsOf id actions answers = [] := by
  apply reached.induction (motive := fun actions answers _ =>
    ∀ id, .began (.ok id) ∉ answers → deedsOf id actions answers = [])
  · intro region _ id _
    rfl
  · intro actions answers session action answer after first short move idle id absent
    rw [List.mem_append, not_or] at absent
    have closed : (Ledger.of actions answers).drafts id = none := by
      cases known : (Ledger.of actions answers).drafts id with
      | none => rfl
      | some draft =>
          rcases Ledger.drafts_of first.tracked.1 known with ⟨_, _, _, _, _, _, rfl, _⟩
          exact absurd (by simp) absent.1
    rw [deedsOf_snoc id first.tracked.1, idle id absent.1, first.deedOf_of_closed move closed]
    rfl

/-- A draft has all that was done under the number of its transaction. -/
theorem draft_deeds (reached : Reached machine config actions answers session) :
    ∀ id draft, (Ledger.of actions answers).drafts id = some draft →
      draft.deeds = deedsOf id actions answers := by
  apply reached.induction (motive := fun actions answers _ =>
    ∀ id draft, (Ledger.of actions answers).drafts id = some draft →
      draft.deeds = deedsOf id actions answers)
  · intro region _ id draft known
    cases known
  · intro actions answers session action answer after first short move kept id draft known
    have paired := first.tracked.1
    rw [Ledger.of_snoc paired] at known
    rw [deedsOf_snoc id paired]
    rcases Ledger.drafts_observe known with ⟨mode, rfl, rfl, rfl⟩ | ⟨old, present, rfl⟩
    · have absent : .began (.ok id) ∉ answers := fun given => first.not_again move given rfl
      rw [first.deedsOf_of_not_began id absent]
      rfl
    · rw [kept id old present]

/-- A record has all that was done under the number of its transaction. -/
theorem record_deeds (reached : Reached machine config actions answers session) :
    ∀ record ∈ (Ledger.of actions answers).commits,
      record.deeds = deedsOf record.id actions answers := by
  apply reached.induction (motive := fun actions answers _ =>
    ∀ record ∈ (Ledger.of actions answers).commits,
      record.deeds = deedsOf record.id actions answers)
  · intro region _ record member
    cases member
  · intro actions answers session action answer after first short move kept record member
    have paired := first.tracked.1
    rw [deedsOf_snoc record.id paired]
    have old : ∀ record ∈ (Ledger.of actions answers).commits, record.deeds =
        deedsOf record.id actions answers ++ (deedOf record.id action answer).toList := by
      intro record member
      rw [first.deedOf_of_closed move (first.committed_closed record member).2, kept record member]
      exact (List.append_nil _).symm
    rw [Ledger.of_snoc paired] at member
    rcases Ledger.commits_observe (Ledger.of actions answers) action answer with
      same | ⟨id, version, draft, rfl, rfl, known, added⟩
    · exact old record (same ▸ member)
    · rcases List.mem_append.mp (added ▸ member) with before | new
      · exact old record before
      · rw [List.mem_singleton.mp new]
        exact (first.draft_deeds id draft known).trans (List.append_nil _).symm

/-- A transaction that commits is recorded. -/
theorem commits_snoc {action : Action} {answer : Answer} {after : Session}
    (reached : Reached machine config actions answers session)
    (move : session.Move now action after answer) :
    ((Ledger.of actions answers).observe action answer).commits.map
        (fun record => (record.id, record.version)) =
      (Ledger.of actions answers).commits.map (fun record => (record.id, record.version)) ++
        (commitOf action answer).toList := by
  rcases Ledger.commits_observe (Ledger.of actions answers) action answer with
    same | ⟨id, version, draft, rfl, rfl, _, added⟩
  · rw [same]
    cases committed : commitOf action answer with
    | none => exact (List.append_nil _).symm
    | some commit =>
        unfold commitOf at committed
        split at committed
        next id version =>
          cases move with
          | committed found settled =>
              rcases reached.tracked.2.1.drafts _ _ found with ⟨draft, known, _⟩
              rw [Ledger.observe, Ledger.settle_eq known] at same
              exact absurd (List.append_right_eq_self.mp same) (List.cons_ne_nil _ _)
        next => cases committed
  · rw [added, List.map_append]
    rfl

/-- The ledger has the transactions that committed. -/
theorem commits_eq (reached : Reached machine config actions answers session) :
    (Ledger.of actions answers).commits = committedOf actions answers := by
  have named : (Ledger.of actions answers).commits.map (fun record => (record.id, record.version)) =
      (actions.zip answers).filterMap fun step => commitOf step.1 step.2 := by
    apply reached.induction (motive := fun actions answers _ =>
      (Ledger.of actions answers).commits.map (fun record => (record.id, record.version)) =
        (actions.zip answers).filterMap fun step => commitOf step.1 step.2)
    · intro region _
      rfl
    · intro actions answers session action answer after first short move known
      have paired := first.tracked.1
      rw [Ledger.of_snoc paired, List.zip_append paired.symm, List.filterMap_append, ← known]
      refine (first.commits_snoc move).trans ?_
      cases committed : commitOf action answer <;> simp [committed]
  rw [committedOf, ← named, List.map_map]
  refine (List.map_id _).symm.trans (List.map_congr_left ?_)
  intro record member
  simp only [Function.comp, ← reached.record_deeds record member, id]

/-- Memory is what the transactions that committed leave. -/
theorem memory_eq (reached : Reached machine config actions answers session) :
    (Ledger.of actions answers).memory = Ledger.imageOf (committedOf actions answers) :=
  congrArg Ledger.imageOf reached.commits_eq

end Reached

end WordStm.Session
