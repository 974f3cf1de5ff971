import WordStm.Proofs.Numbers

/-!
# Reads are opaque

A read that succeeds returns the memory that was committed when its transaction
began, under the transaction's own writes.  Neither what other transactions have
yet to commit nor what they committed since can be seen, by transactions that
commit as little as by those that do not.
-/

namespace WordStm.Session

variable {digest : Digest} {machine now : Machine digest} {session after : Session}
  {config : RegionConfig} {actions : List Action} {answers : List Answer}

/-- A read that succeeds returns what the draft of its transaction has. -/
theorem Tracked.read_eq {ledger : Ledger} {id : TransactionId} {source : Address}
    {length : UInt64} {bytes : Bytes} (tracked : Tracked digest session ledger)
    (read : session.step now (.perform id (.read source length)) =
      .ok (after, .performed (.ok (.bytes bytes)))) :
    ∃ draft, ledger.drafts id = some draft ∧
      bytes = draft.image.slice source.segment source.offset.toNat length.toNat := by
  have sized : Action.Sized (.perform id (.read source length)) := trivial
  have move := step_moves sized tracked.sound read
  cases move with
  | performed found effect =>
      rcases tracked.drafts id _ found with ⟨draft, known, drafted⟩
      cases effect with
      | read active located words =>
          have current := drafted.current active
          exact ⟨draft, known, current.read_eq tracked.valid drafted.sound located words⟩

/-- A read that succeeds returns the memory that was committed when its transaction
began, under the writes that the transaction made since, in their order.  A segment
that was not there at that moment reads as zeros under those writes. -/
theorem Reached.read_opaque {id : TransactionId} {source : Address} {length : UInt64}
    {bytes : Bytes} (reached : Reached machine config actions answers session)
    (read : session.step now (.perform id (.read source length)) =
      .ok (after, .performed (.ok (.bytes bytes)))) :
    ∃ earlier mode later before beyond middle,
      actions = earlier ++ .begin mode :: later ∧
      answers = before ++ .began (.ok id) :: beyond ∧
      .began (.ok id) ∉ before ∧ .began (.ok id) ∉ beyond ∧
      Reached machine config earlier before middle ∧
      middle.region.Portrays (Ledger.imageOf (committedOf earlier before)) ∧
      bytes = ((Ledger.imageOf (committedOf earlier before)).replay (deedsOf id later beyond)).slice
        source.segment source.offset.toNat length.toNat := by
  rcases reached.tracked with ⟨paired, tracked, _⟩
  rcases tracked.read_eq read with ⟨draft, known, bytesEq⟩
  rcases Ledger.drafts_of paired known with
    ⟨earlier, mode, later, before, beyond, rfl, rfl, cutHere, _, rfl⟩
  rcases reached.cut cutHere with ⟨middle, start, _⟩
  rcases reached.began_once with ⟨first, last⟩
  have portrays := start.tracked.2.1.portrays
  rw [start.memory_eq] at portrays
  rw [Draft.image, start.memory_eq] at bytesEq
  exact ⟨earlier, mode, later, before, beyond, middle, rfl, rfl, first, last, start, portrays,
    bytesEq⟩

/-- Transaction 2 begins after transaction 1 committed two words, and overwrites one of
them while transaction 3 commits a third. -/
def interleaved : List Action :=
  [.begin .readWrite, .perform ⟨1⟩ (.write (List.replicate 16 7) ⟨.first, 0⟩), .commit ⟨1⟩,
    .begin .readWrite, .begin .readWrite,
    .perform ⟨3⟩ (.write (List.replicate 8 3) ⟨.first, 16⟩),
    .perform ⟨2⟩ (.write (List.replicate 8 2) ⟨.first, 8⟩), .commit ⟨3⟩]

def interleavedAnswers : List Answer :=
  [.began (.ok ⟨1⟩), .performed (.ok .done), .committed (.ok 1), .began (.ok ⟨2⟩),
    .began (.ok ⟨3⟩), .performed (.ok .done), .performed (.ok .done), .committed (.ok 2)]

theorem read_opaque_interleaved : ∃ session after,
    Reached (.limited 1000) threeWords interleaved interleavedAnswers session ∧
    session.step (.limited 1000) (.perform ⟨2⟩ (.read ⟨.first, 0⟩ 16)) =
      .ok (after, .performed (.ok (.bytes (List.replicate 8 7 ++ List.replicate 8 2)))) ∧
    ∃ earlier mode later before beyond middle,
      interleaved = earlier ++ .begin mode :: later ∧
      interleavedAnswers = before ++ .began (.ok ⟨2⟩) :: beyond ∧
      .began (.ok ⟨2⟩) ∉ before ∧ .began (.ok ⟨2⟩) ∉ beyond ∧
      Reached (.limited 1000) threeWords earlier before middle ∧
      middle.region.Portrays (Ledger.imageOf (committedOf earlier before)) ∧
      List.replicate 8 7 ++ List.replicate 8 2 =
        ((Ledger.imageOf (committedOf earlier before)).replay (deedsOf ⟨2⟩ later beyond)).slice
          .first 0 16 := by
  have computed : seenAfter (·.region.coordinator.clock) (.limited 1000) threeWords interleaved =
      some (2, interleavedAnswers) := by cbv
  have ended : seenAfter (·.region.coordinator.clock) (.limited 1000) threeWords
      (interleaved ++ [.perform ⟨2⟩ (.read ⟨.first, 0⟩ 16)]) =
      some (2, interleavedAnswers ++
        [.performed (.ok (.bytes (List.replicate 8 7 ++ List.replicate 8 2)))]) := by cbv
  have sized : ∀ action ∈ interleaved ++ [.perform ⟨2⟩ (.read ⟨.first, 0⟩ 16)], action.Sized := by
    simp [interleaved, Action.Sized, Operation.Sized]
  rcases Reached.of_seenAfter_snoc computed ended (by decide) sized with
    ⟨session, after, reached, read, _⟩
  exact ⟨session, after, reached, read, reached.read_opaque read⟩

end WordStm.Session
