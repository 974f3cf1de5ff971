import WordStm.Proofs.Versions

/-!
# What was published since

The words that were published since a moment are those whose versions are ahead of
the clock of that moment: a commit that failed in between advanced the clock, but no
version.  For a transaction that is open the moment is that of its snapshot.
-/

namespace WordStm

/-- The transactions that committed in the last steps of a history, each with all that was
done under its number. -/
def committedIn (actions : List Action) (answers : List Answer) (later : List Action)
    (beyond : List Answer) : List Record :=
  ((later.zip beyond).filterMap fun step => commitOf step.1 step.2).map fun commit =>
    ⟨commit.1, commit.2, deedsOf commit.1 actions answers⟩

/-- A transaction began in some step of a history, when the clock was at its snapshot. -/
def Session.BeganAt (machine : Machine digest) (config : RegionConfig) (actions : List Action)
    (answers : List Answer) (id : TransactionId) (snapshot : Version) : Prop :=
  ∃ earlier mode later before beyond middle, actions = earlier ++ .begin mode :: later ∧
    answers = before ++ .began (.ok id) :: beyond ∧ before.length = earlier.length ∧
    Reached machine config earlier before middle ∧
    snapshot = middle.region.coordinator.clock

theorem Session.BeganAt.snoc {digest : Digest} {machine : Machine digest}
    {config : RegionConfig} {actions : List Action} {answers : List Answer} {id : TransactionId}
    {snapshot : Version}
    (began : BeganAt machine config actions answers id snapshot) (action : Action)
    (answer : Answer) :
    BeganAt machine config (actions ++ [action]) (answers ++ [answer]) id snapshot := by
  rcases began with
    ⟨earlier, mode, later, before, beyond, middle, rfl, rfl, paired, start, same⟩
  exact ⟨earlier, mode, later ++ [action], before, beyond ++ [answer], middle, by simp, by simp,
    paired, start, same⟩

/-- Just those words are marked that are newer than a version. -/
def Region.MarksNewer (region : Region) (version : Version) (marked : Address → Bool) : Prop :=
  ∀ address place cell, region.Names address place → region.memory.cell? place = some cell →
    (marked address = true ↔ version < cell.version)

/-- Whether a transaction that committed in the last steps of a history wrote to a word. -/
def publishedIn (align : Nat) (actions : List Action) (answers : List Answer)
    (later : List Action) (beyond : List Answer) (address : Address) : Bool :=
  (committedIn actions answers later beyond).any (·.writesTo align address)

namespace Session.Reached

variable {digest : Digest} {machine now : Machine digest} {session after middle : Session}
  {config : RegionConfig} {actions earlier later : List Action}
  {answers before beyond : List Answer} {action : Action} {answer : Answer} {id : TransactionId}
  {transaction : Transaction}

/-- Of the transactions that committed some did so before a moment and the others since. -/
theorem committedOf_append (paired : before.length = earlier.length) :
    committedOf (earlier ++ later) (before ++ beyond) =
      committedIn (earlier ++ later) (before ++ beyond) earlier before ++
        committedIn (earlier ++ later) (before ++ beyond) later beyond := by
  rw [committedOf, List.zip_append paired.symm, List.filterMap_append, List.map_append]
  rfl

/-- A version that was taken before a moment is not ahead of the clock of that moment. -/
theorem version_le (start : Reached machine config earlier before middle) {record : Record}
    (member : record ∈ committedIn actions answers earlier before) :
    record.version ≤ middle.region.coordinator.clock := by
  rcases List.mem_map.mp member with ⟨commit, committed, rfl⟩
  have known : ⟨commit.1, commit.2, deedsOf commit.1 earlier before⟩ ∈
      committedOf earlier before := List.mem_map.mpr ⟨commit, committed, rfl⟩
  rw [← start.commits_eq] at known
  have past := start.tracked.2.1.serial.bounded _ known
  exact past

/-- The transactions that committed since a moment are those that had done so one step before,
and that which the step commits. -/
theorem mem_committedIn_snoc {record : Record} (paired : before.length = earlier.length)
    (short : beyond.length = later.length)
    (first : Reached machine config (earlier ++ later) (before ++ beyond) session)
    (move : session.Move now action after answer)
    (member : record ∈ committedIn (earlier ++ later ++ [action]) (before ++ beyond ++ [answer])
      (later ++ [action]) (beyond ++ [answer])) :
    record ∈ committedIn (earlier ++ later) (before ++ beyond) later beyond ∨
      (action = .commit record.id ∧ answer = .committed (.ok record.version) ∧
        record.deeds = deedsOf record.id (earlier ++ later) (before ++ beyond)) := by
  rcases List.mem_map.mp member with ⟨⟨id, version⟩, committed, rfl⟩
  rw [List.zip_append short.symm, List.filterMap_append, List.mem_append] at committed
  rw [deedsOf_snoc id first.tracked.1]
  rcases committed with old | new
  · have known : ⟨id, version, deedsOf id (earlier ++ later) (before ++ beyond)⟩ ∈
        committedIn (earlier ++ later) (before ++ beyond) later beyond :=
      List.mem_map.mpr ⟨(id, version), old, rfl⟩
    have recorded := List.mem_append_right
      (committedIn (earlier ++ later) (before ++ beyond) earlier before) known
    rw [← committedOf_append paired, ← first.commits_eq] at recorded
    have closed := (first.committed_closed _ recorded).2
    rw [first.deedOf_of_closed move closed, Option.toList_none, List.append_nil]
    exact .inl known
  · rcases List.mem_filterMap.mp new with ⟨step, now, told⟩
    rw [List.zip_cons_cons, List.zip_nil_left, List.mem_singleton] at now
    subst now
    rcases commitOf_eq_some.mp told with ⟨rfl, rfl⟩
    exact .inr ⟨rfl, rfl, List.append_nil _⟩

/-- A version that was taken since a moment is ahead of the clock of that moment. -/
theorem lt_version (paired : before.length = earlier.length)
    (start : Reached machine config earlier before middle)
    (reached : Reached machine config (earlier ++ later) (before ++ beyond) session) :
    ∀ record ∈ committedIn (earlier ++ later) (before ++ beyond) later beyond,
      record.draws = true → middle.region.coordinator.clock < record.version := by
  apply start.induction_from (motive := fun later beyond _ =>
    ∀ record ∈ committedIn (earlier ++ later) (before ++ beyond) later beyond,
      record.draws = true → middle.region.coordinator.clock < record.version) paired
  · intro record member
    cases member
  · intro later beyond session action answer after same first move ih record member draws
    rw [← List.append_assoc, ← List.append_assoc] at member
    rcases first.mem_committedIn_snoc paired same move member with old | ⟨rfl, rfl, deeds⟩
    · exact ih record old draws
    · rw [Record.draws, deeds] at draws
      rw [(first.drawn move draws).1]
      exact UInt64.lt_of_le_of_lt (start.advances first).clock (Region.clock_lt_succ first.room)
  · exact reached

/-- The words that were published since a moment are those whose versions are ahead of the
clock of that moment. -/
theorem marksNewer (paired : before.length = earlier.length)
    (start : Reached machine config earlier before middle)
    (reached : Reached machine config (earlier ++ later) (before ++ beyond) session) :
    session.region.MarksNewer middle.region.coordinator.clock
      (publishedIn config.align.toNat (earlier ++ later) (before ++ beyond) later beyond) := by
  intro address place cell names found
  have stamped := reached.stamped
  rw [← reached.config_eq]
  constructor
  · intro published
    rcases List.any_eq_true.mp published with ⟨record, member, writes⟩
    have recorded : record ∈ (Ledger.of (earlier ++ later) (before ++ beyond)).commits := by
      rw [reached.commits_eq, committedOf_append paired]
      exact List.mem_append_right _ member
    exact UInt64.lt_of_lt_of_le
      (start.lt_version paired reached record member (Record.draws_of_writesTo writes))
      (stamped.newest address place cell names found record recorded writes)
  · intro newer
    rcases stamped.source address place cell names found with oldest |
      ⟨record, recorded, writes, same⟩
    · rw [oldest] at newer
      exact absurd newer UInt64.not_lt_zero
    · rw [reached.commits_eq, committedOf_append paired] at recorded
      rcases List.mem_append.mp recorded with old | new
      · have past := start.version_le old
        rw [same] at past
        exact absurd newer (UInt64.not_lt.mpr past)
      · exact List.any_eq_true.mpr ⟨record, new, writes⟩

/-- An open transaction began in some step, with the clock of that moment as its snapshot. -/
theorem began (reached : Reached machine config actions answers session) :
    ∀ id transaction, session.find? id = some transaction →
      BeganAt machine config actions answers id transaction.snapshot := by
  apply reached.induction (motive := fun actions answers session =>
    ∀ id transaction, session.find? id = some transaction →
      BeganAt machine config actions answers id transaction.snapshot)
  · intro region _ id transaction found
    cases found
  · intro actions answers session action answer after first short move known id transaction found
    rcases first.tracked with ⟨paired, tracked, _⟩
    rcases move.of_find? found with
      ⟨mode, rfl, rfl, begun⟩ | ⟨operation, result, old, _, _, present, effect⟩ | ⟨present, _⟩
    · rcases (Region.begin_eq begun).2.2.2 transaction rfl with ⟨filter, rfl⟩
      exact ⟨actions, mode, [], answers, [], session, rfl, rfl, paired, first, rfl⟩
    · rw [effect.snapshot_eq]
      exact (known id old present).snoc action answer
    · exact (known id transaction present).snoc action answer

/-- Since an open transaction began, just those words were published that are newer than its
snapshot. -/
theorem published_since (reached : Reached machine config actions answers session) :
    ∀ id transaction, session.find? id = some transaction →
      ∃ earlier mode later before beyond, actions = earlier ++ .begin mode :: later ∧
        answers = before ++ .began (.ok id) :: beyond ∧ before.length = earlier.length ∧
        session.region.MarksNewer transaction.snapshot
          (publishedIn config.align.toNat actions answers later beyond) := by
  intro id transaction found
  rcases reached.began id transaction found with
    ⟨earlier, mode, later, before, beyond, middle, rfl, rfl, paired, start, snapshot⟩
  refine ⟨earlier, mode, later, before, beyond, rfl, rfl, paired, ?_⟩
  rw [snapshot]
  exact start.marksNewer paired reached

end Session.Reached

namespace Region

variable {digest : Digest} {machine : Machine digest} {region after : Region}
  {transaction : Transaction}

/-- Operations leave the clock and the numbers alone. -/
theorem Effect.coordinator_eq {moved : Transaction} {operation : Operation}
    {result : Except Failure Reply}
    (effect : region.Effect machine transaction operation after moved result) :
    after.coordinator = region.coordinator := by
  cases effect <;> rfl

/-- A commit leaves the size of filters alone. -/
theorem Settlement.filterBits_eq {answer : Except Failure Version}
    (settled : region.Settlement transaction after answer) :
    after.coordinator.filterBits = region.coordinator.filterBits := by
  cases settled with
  | quiet => rfl
  | published publishes => rw [publishes.clock]
  | failed clock => rcases clock with rfl | rfl <;> rfl

end Region

/-- Filters are asked to be of the same size throughout. -/
theorem Session.Move.filterBits_eq {digest : Digest} {now : Machine digest}
    {session after : Session} {action : Action} {answer : Answer}
    (move : session.Move now action after answer) :
    after.region.coordinator.filterBits = session.region.coordinator.filterBits := by
  cases move with
  | began begun => rw [(Region.begin_eq begun).2.2.1]
  | refused refused => rw [(Region.begin_eq refused).2.2.1]
  | unknown => rfl
  | performed found effect => rw [update, effect.coordinator_eq]
  | committed found settled => exact settled.filterBits_eq
  | dropped asked found =>
      rw [Region.abandon_eq]
      rfl

end WordStm
