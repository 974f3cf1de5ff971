import WordStm.Proofs.Mirroring
import WordStm.Proofs.Published
import WordStm.Proofs.Standing

/-!
# Sessions in lockstep

Two sessions are twins if their regions are, and the transactions that are open on
them.  They need not number their transactions alike, and one of them may have
transactions that the other has not; a step of a transaction that both have keeps
them twins, as long as commits are ruled alike and either the same requests for memory
are granted to both, or memory does not run out.
-/

namespace WordStm

variable {stamp : Version → Version} {digest another : Digest} {machine : Machine digest}
  {other : Machine another}

namespace Region

variable {left right after before final region : Region}

/-- Nothing has changed but the next number of a transaction and the tally. -/
structure Unmoved (after before : Region) : Prop where
  config : after.config = before.config
  memory : after.memory = before.memory
  table : after.table = before.table
  coordinator : after.coordinator =
    { before.coordinator with nextId := after.coordinator.nextId }

theorem Unmoved.refl (region : Region) : region.Unmoved region := ⟨rfl, rfl, rfl, rfl⟩

/-- Whether regions are twins has nothing to do with numbers and tallies. -/
theorem Twin.of_unmoved (twin : left.Twin stamp right) (moved : after.Unmoved left)
    (also : final.Unmoved right) : after.Twin stamp final where
  align := by rw [moved.config, also.config, twin.align]
  layout := by rw [moved.memory, also.memory, twin.layout]
  cells := by
    rw [moved.memory, also.memory]
    exact twin.cells
  slots := by rw [moved.table, also.table, twin.slots]
  live := by rw [moved.table, also.table, twin.live]
  clock := by
    rw [moved.coordinator, also.coordinator]
    exact twin.clock

theorem begin_unmoved {mode : AccessMode} {result : Except Failure Transaction}
    (began : region.begin machine mode = .ok (after, result)) : after.Unmoved region := by
  rcases begin_eq began with ⟨steady, table, coordinator, _⟩
  refine ⟨steady.config, steady.memory, table, ?_⟩
  rw [coordinator]

/-- The filter that a transaction begins with. -/
def filterFor (machine : Machine digest) (region : Region) :
    AccessMode → Except Fault (Except Failure AddressFilter)
  | .readOnly => AddressFilter.create machine 64 1
  | .readWrite =>
      AddressFilter.create machine region.coordinator.filterBits region.coordinator.filterHashes

/-- Whether a transaction begins depends on its filter alone. -/
theorem begin_eq_map (machine : Machine digest) (region : Region) (mode : AccessMode) :
    region.begin machine mode = (region.filterFor machine mode).map fun made =>
      let coordinator := { region.coordinator with nextId := region.coordinator.nextId + 1 }
      match made with
      | .error failure => ({ region with coordinator }, .error failure)
      | .ok filter =>
          ({ region with coordinator, tally := region.tally.began },
            .ok {
              id := ⟨region.coordinator.nextId⟩, mode, snapshot := region.coordinator.clock
              status := .active, log := .empty filter }) := by
  cases mode with
  | readOnly | readWrite =>
      simp only [begin, Coordinator.start, Coordinator.takeId, Transaction.start, filterFor]
      cases AddressFilter.create machine _ _ with
      | error fault => rfl
      | ok made => cases made <;> rfl

/-- Transactions that begin on twins are twins. -/
theorem Twin.begin {mode : AccessMode} {first second : Transaction}
    (twin : left.Twin stamp right) (begun : left.begin machine mode = .ok (after, .ok first))
    (again : right.begin other mode = .ok (final, .ok second)) :
    first.Twin another stamp second := by
  rcases (begin_eq begun).2.2.2 first rfl with ⟨filter, rfl⟩
  rcases (begin_eq again).2.2.2 second rfl with ⟨alsoFilter, rfl⟩
  exact ⟨fun _ => rfl, twin.clock, .active, WriteSet.sound_empty another alsoFilter, rfl,
    fun _ => rfl, fun _ => rfl, fun _ => rfl⟩

/-- What a step on two regions requests is granted on both or on neither. -/
structure ServedAlike (machine : Machine digest) (other : Machine another) (left right : Region) :
    Prop extends GrantedAlike machine other left right where
  filters : ∀ mode, right.filterFor other mode = left.filterFor machine mode

/-- Where no word is locked no commit meets a lock. -/
theorem LaidOutUnlocked.ruling_eq (laid : region.LaidOutUnlocked) (rule : ValidationRule)
    (transaction : Transaction) :
    region.coordinator.ruling rule region.memory transaction =
      if rule transaction.snapshot (region.coordinator.clock + 1) then
        match transaction.log.reads.toList.find?
            (·.isStale region.memory transaction.snapshot) with
        | some entry => .invalid entry.address
        | none => .granted
      else .granted := by
  exact Coordinator.ruling_of_clear (LockOrder.find?_isHeld laid.unlocked _ _)

theorem LaidOutUnlocked.not_contended (laid : region.LaidOutUnlocked) (rule : ValidationRule)
    (transaction : Transaction) (address : Address) :
    region.coordinator.ruling rule region.memory transaction ≠ .contended address := by
  rw [laid.ruling_eq]
  split
  next => split <;> simp
  next => simp

/-- A word is stale on both of two twins or on neither. -/
theorem Twin.isStale (twin : left.Twin stamp right) (laid : left.LaidOutUnlocked)
    (tells : left.Tells stamp) (snapshot : Version) (entry : ReadEntry) :
    entry.isStale right.memory (stamp snapshot) = entry.isStale left.memory snapshot := by
  rw [ReadEntry.isStale, ReadEntry.isStale, twin.cells]
  cases found : left.memory.cell? entry.place with
  | none => rfl
  | some cell =>
      have newer := tells.words _ cell found snapshot
      by_cases late : snapshot < cell.version <;>
        simp [Cell.obstacle?, Cell.restamp, laid.unlocked _ _ found, newer, late]

/-- Commits always come to an end. -/
theorem commit_total {transaction : Transaction} (laid : region.LaidOutUnlocked)
    (kept : transaction.LogValid digest region) :
    ∃ after ended result, region.commit digest transaction = .ok (after, ended, result) := by
  cases accepted : transaction.ensureActive with
  | error failure =>
      simp only [commit, Coordinator.commit, Coordinator.commitBy, accepted, bind, Except.bind]
      exact ⟨_, _, _, rfl⟩
  | ok =>
      have active := Transaction.ensureActive_eq_ok.mp accepted
      by_cases idle : transaction.mode.isReadOnly = true ∨ transaction.log.isReadOnly = true
      · rcases region.commit_quiet digest active idle with ⟨after, ended, committed, _⟩
        exact ⟨after, ended, _, committed⟩
      · rw [not_or, Bool.not_eq_true, Bool.not_eq_true] at idle
        rcases region.commit_ruled digest active idle.1 idle.2 kept.sound
          (kept.grounded laid active) with ⟨after, ended, committed, _⟩
        exact ⟨after, ended, _, committed⟩

theorem Settlement.nextId_eq {transaction : Transaction} {result : Except Failure Version}
    (settled : before.Settlement transaction after result) :
    after.coordinator.nextId = before.coordinator.nextId := by
  cases settled with
  | quiet => rfl
  | @published outcome publishes =>
      change outcome.coordinator.nextId = _
      rw [publishes.clock]
  | failed clock => rcases clock with rfl | rfl <;> rfl

end Region

/-- The action under another numbering of transactions. -/
def Action.rename (name : TransactionId → TransactionId) : Action → Action
  | .begin mode => .begin mode
  | .perform id operation => .perform (name id) operation
  | .commit id => .commit (name id)
  | .rollback id => .rollback (name id)
  | .endElsewhere id => .endElsewhere (name id)

@[simp] theorem Action.rename_id (action : Action) : action.rename id = action := by
  cases action <;> rfl

/-- The step reports that memory ran out. -/
def Answer.isStarved (answer : Answer) : Bool := answer.failure?.any (·.isOutOfMemory)

/-- Two answers are the same but for the numbers of transactions and the names of versions. -/
inductive Answer.Agrees (name : TransactionId → TransactionId) (stamp : Version → Version) :
    Answer → Answer → Prop where
  | began (id : TransactionId) : Agrees name stamp (.began (.ok id)) (.began (.ok (name id)))
  | refused (failure : Failure) :
      Agrees name stamp (.began (.error failure)) (.began (.error failure))
  | performed {result reply : Except Failure Reply} (agree : Agree stamp result reply) :
      Agrees name stamp (.performed result) (.performed reply)
  | committed {result reply : Except Failure Version}
      (agree : Agree stamp (result.map stamp) reply) :
      Agrees name stamp (.committed result) (.committed reply)
  | ended : Agrees name stamp .ended .ended
  | unknown : Agrees name stamp .unknown .unknown

/-- Answers that agree are the same if nothing goes by another name. -/
theorem Answer.Agrees.eq {answer reply : Answer} (agrees : Agrees id id answer reply) :
    reply = answer := by
  cases agrees with
  | performed agree => rw [agree.eq rfl]
  | @committed result reply agree =>
      rw [agree.eq rfl]
      cases result <;> rfl
  | began | refused | ended | unknown => rfl

namespace Session

variable {name : TransactionId → TransactionId} {stays : TransactionId → Prop}
  {left right after final : Session} {action : Action} {answer reply : Answer}
  {id : TransactionId}

/-- A transaction is refused for lack of memory. -/
theorem isStarved_of_refused {mode : AccessMode} {failure : Failure}
    (stepped : left.step machine (.begin mode) = .ok (after, .began (.error failure))) :
    (Answer.began (.error failure)).isStarved = true := by
  simp only [step, bind_eq_ok, Prod.exists] at stepped
  rcases stepped with ⟨region, result, begun, stepped⟩
  cases result with
  | ok transaction => cases stepped
  | error cause =>
      cases stepped
      exact Region.begin_refused begun

/-- Every step has an answer, if the filter of a transaction that begins can be sized. -/
theorem LogsValid.step_total (kept : left.LogsValid digest) (machine : Machine digest)
    (action : Action) (sizable : ∀ mode, action = .begin mode →
      ∃ made, left.region.filterFor machine mode = .ok made) :
    ∃ after answer, left.step machine action = .ok (after, answer) := by
  cases action with
  | begin mode =>
      rcases sizable mode rfl with ⟨made, sized⟩
      simp only [step, Region.begin_eq_map, sized]
      cases made <;> exact ⟨_, _, rfl⟩
  | perform number operation =>
      simp only [step]
      cases found : left.find? number with
      | none => exact ⟨_, _, rfl⟩
      | some transaction =>
          rcases kept.laid.perform_total (kept.transactions number transaction found) machine
            operation with ⟨region, moved, result, performed⟩
          simp only [performed, bind, Except.bind]
          exact ⟨_, _, rfl⟩
  | commit number =>
      simp only [step]
      cases found : left.find? number with
      | none => exact ⟨_, _, rfl⟩
      | some transaction =>
          rcases Region.commit_total kept.laid (kept.transactions number transaction found) with
            ⟨region, ended, result, committed⟩
          simp only [committed, bind, Except.bind]
          exact ⟨_, _, rfl⟩
  | rollback number | endElsewhere number =>
      simp only [step]
      cases left.find? number <;> exact ⟨_, _, rfl⟩

/-- The session on the right is like that on the left, but for the transactions that do not
stay, with other names for versions and other numbers for transactions. -/
structure Twin (digest : Digest) (name : TransactionId → TransactionId)
    (stays : TransactionId → Prop) (stamp : Version → Version) (left right : Session) : Prop where
  region : left.region.Twin stamp right.region
  number : ⟨right.region.coordinator.nextId⟩ = name ⟨left.region.coordinator.nextId⟩
  transactions : ∀ id, stays id →
    Option.Rel (Transaction.Twin digest stamp) (left.find? id) (right.find? (name id))

/-- The numbers of transactions that stay are told apart under their other names, and the
next transaction stays. -/
structure Numbered (name : TransactionId → TransactionId) (stays : TransactionId → Prop)
    (session : Session) : Prop where
  apart : ∀ first second, stays first → stays second → name first = name second → first = second
  fresh : stays ⟨session.region.coordinator.nextId⟩
  next : name ⟨session.region.coordinator.nextId + 1⟩ =
    ⟨(name ⟨session.region.coordinator.nextId⟩).raw + 1⟩

namespace Twin

variable {regionAfter regionFinal : Region} {first second moved settled : Transaction}

/-- Whoever is left out may do what does not change the region. -/
theorem of_same (twin : left.Twin digest name stays stamp right)
    (region : after.region = left.region)
    (others : ∀ id, stays id → after.find? id = left.find? id) :
    after.Twin digest name stays stamp right where
  region := by
    rw [region]
    exact twin.region
  number := by
    rw [region]
    exact twin.number
  transactions := by
    intro id stay
    rw [others id stay]
    exact twin.transactions id stay

/-- A transaction of both moves on. -/
theorem update (twin : left.Twin digest name stays stamp right)
    (numbered : left.Numbered name stays)
    (regions : regionAfter.Twin stamp regionFinal)
    (next : regionAfter.coordinator.nextId = left.region.coordinator.nextId)
    (alsoNext : regionFinal.coordinator.nextId = right.region.coordinator.nextId)
    (stay : stays moved.id) (named : settled.id = name moved.id)
    (same : moved.Twin digest stamp settled) :
    ({ left with region := regionAfter }.update moved).Twin digest name stays stamp
      ({ right with region := regionFinal }.update settled) where
  region := regions
  number := by
    simp only [Session.update, next, alsoNext]
    exact twin.number
  transactions := by
    intro id stayed
    rw [find?_update, find?_update, named]
    by_cases here : id = moved.id
    · rw [if_pos here, if_pos (congrArg name here)]
      have related := twin.transactions id stayed
      change Option.Rel _ ((left.find? id).map _) ((right.find? (name id)).map _)
      generalize left.find? id = before at related
      generalize right.find? (name id) = also at related
      cases related with
      | none => exact .none
      | some _ => exact .some same
    · rw [if_neg here, if_neg fun equal => here (numbered.apart _ _ stayed stay equal)]
      exact twin.transactions id stayed

/-- A transaction of both is closed. -/
theorem close (twin : left.Twin digest name stays stamp right)
    (numbered : left.Numbered name stays)
    (regions : regionAfter.Twin stamp regionFinal)
    (next : regionAfter.coordinator.nextId = left.region.coordinator.nextId)
    (alsoNext : regionFinal.coordinator.nextId = right.region.coordinator.nextId)
    (stay : stays id) :
    ({ left with region := regionAfter }.close id).Twin digest name stays stamp
      ({ right with region := regionFinal }.close (name id)) where
  region := regions
  number := by
    simp only [Session.close, next, alsoNext]
    exact twin.number
  transactions := by
    intro other stayed
    rw [find?_close, find?_close]
    by_cases here : other = id
    · rw [if_pos here, if_pos (congrArg name here)]
      exact .none
    · rw [if_neg here, if_neg fun equal => here (numbered.apart _ _ stayed stay equal)]
      exact twin.transactions other stayed

/-- Both have the transaction, or neither has. -/
theorem find? (twin : left.Twin digest name stays stamp right) (stay : stays id) :
    left.find? id = none ∧ right.find? (name id) = none ∨
      ∃ first second, left.find? id = some first ∧ right.find? (name id) = some second ∧
        first.Twin digest stamp second := by
  have related := twin.transactions id stay
  generalize left.find? id = before at related
  generalize right.find? (name id) = also at related
  cases related with
  | none => exact .inl ⟨rfl, rfl⟩
  | some same => exact .inr ⟨_, _, rfl, rfl, same⟩

/-- A transaction begins in both, or is refused in both. -/
theorem begins {mode : AccessMode} (twin : left.Twin another name stays stamp right)
    (numbered : left.Numbered name stays)
    (stepped : left.step machine (.begin mode) = .ok (after, answer))
    (again : right.step other (.begin mode) = .ok (final, reply))
    (refused : ∀ failure, answer = .began (.error failure) ↔ reply = .began (.error failure)) :
    after.Twin another name stays stamp final ∧ Answer.Agrees name stamp answer reply := by
  simp only [step, bind_eq_ok, Prod.exists] at stepped again
  rcases stepped with ⟨region, result, begun, stepped⟩
  rcases again with ⟨regionFinal, alsoResult, alsoBegun, again⟩
  have regions := twin.region.of_unmoved (Region.begin_unmoved begun)
    (Region.begin_unmoved alsoBegun)
  rcases Region.begin_eq begun with ⟨_, _, coordinator, starts⟩
  rcases Region.begin_eq alsoBegun with ⟨_, _, alsoCoordinator, alsoStarts⟩
  have number : (⟨regionFinal.coordinator.nextId⟩ : TransactionId) =
      name ⟨region.coordinator.nextId⟩ := by
    simp only [coordinator, alsoCoordinator, numbered.next, ← twin.number]
  cases result with
  | error failure =>
      cases stepped
      have told := (refused failure).mp rfl
      cases alsoResult with
      | ok => cases again; cases told
      | error cause =>
          cases again
          cases told
          exact ⟨⟨regions, number, twin.transactions⟩, .refused failure⟩
  | ok first =>
      cases stepped
      cases alsoResult with
      | error cause =>
          cases again
          cases (refused cause).mpr rfl
      | ok second =>
          cases again
          have same := twin.region.begin begun alsoBegun
          have named : first.id = ⟨left.region.coordinator.nextId⟩ := by
            rcases starts first rfl with ⟨_, rfl⟩
            rfl
          have alsoNamed : second.id = name first.id := by
            rcases alsoStarts second rfl with ⟨_, rfl⟩
            rw [named, ← twin.number]
          refine ⟨⟨regions, number, ?_⟩, by rw [alsoNamed]; exact .began _⟩
          intro id stay
          rw [Session.find?, Session.find?, List.find?_cons, List.find?_cons]
          by_cases here : id = first.id
          · rw [here, alsoNamed, beq_self_eq_true, beq_self_eq_true]
            exact .some same
          · have apart : name id ≠ second.id := by
              intro equal
              rw [alsoNamed] at equal
              refine here (numbered.apart _ _ stay ?_ equal)
              rw [named]
              exact numbered.fresh
            rw [beq_eq_false_iff_ne.mpr (Ne.symm here), beq_eq_false_iff_ne.mpr (Ne.symm apart)]
            exact twin.transactions id stay

/-- A transaction performs an operation in both. -/
theorem performs {operation : Operation} (twin : left.Twin another name stays stamp right)
    (numbered : left.Numbered name stays) (kept : left.LogsValid digest)
    (tells : left.region.Tells stamp) (sized : operation.Sized) (stay : stays id)
    (stepped : left.step machine (.perform id operation) = .ok (after, answer))
    (again : right.step other (.perform (name id) operation) = .ok (final, reply))
    (fair : left.region.GrantedAlike machine other right.region ∨
      answer.isStarved = false ∧ reply.isStarved = false) :
    after.Twin another name stays stamp final ∧ Answer.Agrees name stamp answer reply := by
  simp only [step] at stepped again
  rcases twin.find? stay with ⟨absent, alsoAbsent⟩ | ⟨first, second, found, alsoFound, same⟩
  · rw [absent] at stepped
    rw [alsoAbsent] at again
    cases stepped
    cases again
    exact ⟨twin, .unknown⟩
  · simp only [found, bind_eq_ok, pure_eq_ok, Prod.exists, Prod.mk.injEq] at stepped
    simp only [alsoFound, bind_eq_ok, pure_eq_ok, Prod.exists, Prod.mk.injEq] at again
    rcases stepped with ⟨region, moved, result, performed, rfl, rfl⟩
    rcases again with ⟨regionFinal, settled, told, alsoPerformed, rfl, rfl⟩
    have firstKept := kept.transactions id first found
    have outcome : region.Twin stamp regionFinal ∧ moved.Twin another stamp settled ∧
        Agree stamp result told := by
      rcases fair with granted | ⟨spared, alsoSpared⟩
      · exact same.perform_granted twin.region tells kept.laid firstKept sized granted performed
          alsoPerformed
      · apply same.perform_spared twin.region tells kept.laid firstKept sized performed
          alsoPerformed
        · rintro failure rfl
          exact spared
        · rintro failure rfl
          exact alsoSpared
    rcases outcome with ⟨regions, sames, agree⟩
    have effect := Region.perform_effect sized firstKept.sound performed
    have alsoEffect := Region.perform_effect sized same.sound alsoPerformed
    have number : moved.id = id := effect.id_eq.trans (id_of_find? found)
    have alsoNumber : settled.id = name id := alsoEffect.id_eq.trans (id_of_find? alsoFound)
    refine ⟨?_, .performed agree⟩
    apply twin.update numbered regions
    · rw [effect.coordinator_eq]
    · rw [alsoEffect.coordinator_eq]
    · rw [number]
      exact stay
    · rw [alsoNumber, number]
    · exact sames

/-- A transaction tries to commit in both, and the commits are ruled alike. -/
theorem commits (twin : left.Twin another name stays stamp right)
    (numbered : left.Numbered name stays) (kept : left.LogsValid digest)
    (tells : left.region.Tells stamp) (stay : stays id)
    (ruled : ∀ first second, left.find? id = some first → right.find? (name id) = some second →
      first.Twin another stamp second → first.status = .active →
      right.region.coordinator.ruling needsValidation right.region.memory second =
        left.region.coordinator.ruling needsValidation left.region.memory first)
    (stepped : left.step machine (.commit id) = .ok (after, answer)) :
    ∃ final reply, right.step other (.commit (name id)) = .ok (final, reply) ∧
      after.Twin another name stays stamp final ∧ Answer.Agrees name stamp answer reply := by
  simp only [step] at stepped ⊢
  rcases twin.find? stay with ⟨absent, alsoAbsent⟩ | ⟨first, second, found, alsoFound, same⟩
  · rw [absent] at stepped
    cases stepped
    rw [alsoAbsent]
    exact ⟨_, _, rfl, twin, .unknown⟩
  · simp only [found, bind_eq_ok, pure_eq_ok, Prod.exists, Prod.mk.injEq] at stepped
    rcases stepped with ⟨region, ended, result, committed, rfl, rfl⟩
    have firstKept := kept.transactions id first found
    rcases same.commit twin.region tells kept.laid firstKept
        (ruled first second found alsoFound same)
        (fun _ => kept.laid.not_contended needsValidation first) committed with
      ⟨regionFinal, closed, reply, again, regions, agree⟩
    simp only [alsoFound, again, bind, Except.bind]
    have settled := Region.commit_settles committed
    have alsoSettled := Region.commit_settles again
    exact ⟨_, _, rfl,
      twin.close numbered regions settled.nextId_eq alsoSettled.nextId_eq stay, .committed agree⟩

/-- A transaction is dropped in both. -/
theorem drops {reason : AbortReason} (twin : left.Twin another name stays stamp right)
    (numbered : left.Numbered name stays) (stay : stays id)
    (found : left.find? id = some first) (alsoFound : right.find? (name id) = some second) :
    ({ left with region := (left.region.abandon first reason).1 }.close id).Twin another name stays
      stamp ({ right with region := (right.region.abandon second reason).1 }.close (name id)) := by
  rcases twin.find? stay with ⟨absent, _⟩ | ⟨_, _, known, alsoKnown, same⟩
  · rw [found] at absent
    cases absent
  · cases found.symm.trans known
    cases alsoFound.symm.trans alsoKnown
    rw [Region.abandon_eq, Region.abandon_eq]
    exact twin.close numbered (twin.region.settle twin.region.layout twin.region.cells
      twin.region.clock (congrArg Array.toList same.allocated) twin.region.clock _ _) rfl rfl stay

/-- A step of what both have keeps them twins, if what it requests is granted on both or on
neither, or if memory does not run out. -/
theorem step (twin : left.Twin another name stays stamp right)
    (numbered : left.Numbered name stays) (kept : left.LogsValid digest)
    (tells : left.region.Tells stamp) (sized : action.Sized)
    (own : ∀ id, action.owner? = some id → stays id)
    (ruled : ∀ id first second, stays id → left.find? id = some first →
      right.find? (name id) = some second → first.Twin another stamp second →
      first.status = .active →
      right.region.coordinator.ruling needsValidation right.region.memory second =
        left.region.coordinator.ruling needsValidation left.region.memory first)
    (stepped : left.step machine action = .ok (after, answer))
    (again : right.step other (action.rename name) = .ok (final, reply))
    (fair : left.region.ServedAlike machine other right.region ∨
      answer.isStarved = false ∧ reply.isStarved = false) :
    after.Twin another name stays stamp final ∧ Answer.Agrees name stamp answer reply := by
  cases action with
  | begin mode =>
      refine twin.begins numbered stepped again fun failure => ?_
      rcases fair with served | ⟨spared, alsoSpared⟩
      · simp only [Action.rename, Session.step, Region.begin_eq_map, served.filters]
          at stepped again
        cases made : left.region.filterFor machine mode with
        | error fault =>
            rw [made] at stepped
            cases stepped
        | ok made' =>
            rw [made] at stepped again
            cases made' with
            | error cause =>
                cases stepped
                cases again
                exact Iff.rfl
            | ok filter =>
                cases stepped
                cases again
                exact iff_of_false (by simp) (by simp)
      · constructor
        · rintro rfl
          rw [isStarved_of_refused stepped] at spared
          cases spared
        · rintro rfl
          rw [isStarved_of_refused again] at alsoSpared
          cases alsoSpared
  | perform id operation =>
      exact twin.performs numbered kept tells sized (own id rfl) stepped again
        (fair.imp_left (·.toGrantedAlike))
  | commit id =>
      rcases twin.commits numbered kept tells (own id rfl)
        (fun first second => ruled id first second (own id rfl)) stepped with
        ⟨_, _, same, sames⟩
      cases again.symm.trans same
      exact sames
  | rollback id | endElsewhere id =>
      have stay := own id rfl
      simp only [Action.rename, Session.step] at stepped again
      rcases twin.find? stay with ⟨absent, alsoAbsent⟩ | ⟨first, second, found, alsoFound, _⟩
      · rw [absent] at stepped
        rw [alsoAbsent] at again
        cases stepped
        cases again
        exact ⟨twin, .unknown⟩
      · rw [found] at stepped
        rw [alsoFound] at again
        cases stepped
        cases again
        exact ⟨twin.drops numbered stay found alsoFound, .ended⟩

end Twin

end Session

end WordStm
