import Mathlib.Data.List.Induction
import Mathlib.Logic.Function.Basic
import WordStm.Session
import WordStm.Proofs.Image

/-!
# Histories

A history is what the clients of a region could write down: for each step the
action and its answer.  A deed is an operation that succeeded.  The ledger of a
history collects the deeds of each transaction, and keeps those of the ones that
committed, in the order in which they did.

Nothing in a ledger comes from the state of the region.  Replaying the writes of
the committed transactions over zeros gives the committed memory of a moment,
and this is what the region is measured against.
-/

namespace WordStm

/-- An operation that succeeded, with what the client got for it. -/
structure Deed where
  operation : Operation
  reply : Reply
  deriving DecidableEq

namespace Deed

/-- The image after a deed: a write is put over it, anything else leaves it. -/
def apply (deed : Deed) (image : Image) : Image :=
  match deed.operation with
  | .write value target => image.overlay target.segment target.offset.toNat value
  | .read .. | .alloc _ | .free _ => image

/-- A read returned what an image holds. -/
def Holds (image : Image) (deed : Deed) : Prop :=
  match deed.operation with
  | .read source length =>
      deed.reply = .bytes (image.slice source.segment source.offset.toNat length.toNat)
  | .write .. | .alloc _ | .free _ => True

instance (image : Image) (deed : Deed) : Decidable (deed.Holds image) := by
  unfold Holds
  cases deed.operation <;> infer_instance

/-- Whether a commit after this deed takes a version of its own. -/
def draws (deed : Deed) : Bool :=
  match deed.operation with
  | .write .. | .free _ => true
  | .read .. | .alloc _ => false

/-- Whether a deed read or wrote bytes of a segment. -/
def accesses (deed : Deed) (id : SegmentId) : Bool :=
  match deed.operation with
  | .read source _ => source.segment == id
  | .write _ target => target.segment == id
  | .alloc _ | .free _ => false

/-- A deed read the byte at an offset into a segment. -/
def ReadsAt (deed : Deed) (id : SegmentId) (offset : Nat) : Prop :=
  match deed.operation with
  | .read source length => source.segment = id ∧ source.offset.toNat ≤ offset ∧
      offset < source.offset.toNat + length.toNat
  | .write .. | .alloc _ | .free _ => False

/-- Whether a deed scheduled a segment to be retired. -/
def frees (deed : Deed) (id : SegmentId) : Bool :=
  match deed.operation with
  | .free target => target.segment == id
  | .read .. | .write .. | .alloc _ => false

/-- Whether a deed made a segment. -/
def allocates (deed : Deed) (id : SegmentId) : Bool :=
  match deed.operation, deed.reply with
  | .alloc _, .address target => target.segment == id
  | _, _ => false

/-- A free takes a version. -/
theorem draws_of_frees {deed : Deed} {id : SegmentId} (frees : deed.frees id = true) :
    deed.draws = true := by
  rcases deed with ⟨operation, reply⟩
  cases operation with
  | write | free => rfl
  | read | alloc => cases frees

@[simp] theorem apply_write (value : Bytes) (target : Address) (reply : Reply) (image : Image) :
    apply ⟨.write value target, reply⟩ image =
      image.overlay target.segment target.offset.toNat value := rfl

/-- Only writes change an image. -/
theorem apply_of_not_write {deed : Deed} (image : Image)
    (idle : ∀ value target, deed.operation ≠ .write value target) : deed.apply image = image := by
  rcases deed with ⟨operation, reply⟩
  cases operation with
  | write value target => exact absurd rfl (idle value target)
  | read | alloc | free => rfl

end Deed

namespace Image

/-- The image after some deeds, one after another. -/
def replay (image : Image) (deeds : List Deed) : Image :=
  deeds.foldl (fun image deed => deed.apply image) image

/-- Every read of some deeds returned what the image held at its turn. -/
def Agrees (image : Image) : List Deed → Prop
  | [] => True
  | deed :: rest => deed.Holds image ∧ Agrees (deed.apply image) rest

instance decidableAgrees (image : Image) : (deeds : List Deed) → Decidable (image.Agrees deeds)
  | [] => isTrue trivial
  | deed :: rest =>
      have := decidableAgrees (deed.apply image) rest
      inferInstanceAs (Decidable (_ ∧ _))

@[simp] theorem replay_nil (image : Image) : image.replay [] = image := rfl

@[simp] theorem replay_cons (image : Image) (deed : Deed) (rest : List Deed) :
    image.replay (deed :: rest) = (deed.apply image).replay rest := rfl

theorem replay_append (image : Image) (earlier later : List Deed) :
    image.replay (earlier ++ later) = (image.replay earlier).replay later := by
  simp [replay]

theorem agrees_append {image : Image} {earlier later : List Deed} :
    image.Agrees (earlier ++ later) ↔
      image.Agrees earlier ∧ (image.replay earlier).Agrees later := by
  induction earlier generalizing image with
  | nil => simp [Agrees]
  | cons deed rest ih => simp [Agrees, ih, and_assoc]

/-- Deeds that agree with one image agree with every image that has the same bytes
where they read. -/
theorem Agrees.congr {image other : Image} {deeds : List Deed} (agrees : image.Agrees deeds)
    (same : ∀ deed ∈ deeds, ∀ id offset, deed.ReadsAt id offset →
      image id offset = other id offset) : other.Agrees deeds := by
  induction deeds generalizing image other with
  | nil => trivial
  | cons deed rest ih =>
      rcases agrees with ⟨holds, agrees⟩
      constructor
      · rcases deed with ⟨operation, reply⟩
        cases operation with
        | read source length =>
            refine Eq.trans holds (congrArg Reply.bytes (slice_eq_iff.mpr ?_))
            intro offset above below
            exact same _ List.mem_cons_self _ offset ⟨rfl, above, below⟩
        | write | alloc | free => trivial
      · apply ih agrees
        intro later member id offset reads
        have here := same later (List.mem_cons_of_mem _ member) id offset reads
        rcases deed with ⟨operation, reply⟩
        cases operation with
        | write value target => exact overlay_congr here _ _ _
        | read | alloc | free => exact here

/-- Deeds agree with an image if each part of them agrees with what the parts before
it leave. -/
theorem agrees_flatMap {α : Type} {deedsOf : α → List Deed} {image : Image} {parts : List α}
    (each : ∀ earlier part later, parts = earlier ++ part :: later →
      (image.replay (earlier.flatMap deedsOf)).Agrees (deedsOf part)) :
    image.Agrees (parts.flatMap deedsOf) := by
  induction parts generalizing image with
  | nil => trivial
  | cons part rest ih =>
      rw [List.flatMap_cons, agrees_append]
      constructor
      · exact each [] part rest rfl
      · apply ih
        intro earlier next later split
        have following := each (part :: earlier) next later (by rw [split]; rfl)
        rwa [List.flatMap_cons, replay_append] at following

end Image

/-- What is known of a transaction that is open. -/
structure Draft where
  /-- Committed memory when the transaction began. -/
  start : Image
  deeds : List Deed

/-- What a transaction sees: the memory that it began with under its own writes. -/
def Draft.image (draft : Draft) : Image := draft.start.replay draft.deeds

/-- An operation of the transaction succeeded. -/
def Draft.add (draft : Draft) (deed : Deed) : Draft :=
  { draft with deeds := draft.deeds ++ [deed] }

/-- Whether the transaction scheduled a segment to be retired. -/
def Draft.frees (draft : Draft) (id : SegmentId) : Bool := draft.deeds.any (·.frees id)

/-- Whether the transaction made a segment. -/
def Draft.allocates (draft : Draft) (id : SegmentId) : Bool := draft.deeds.any (·.allocates id)

/-- A transaction that freed a segment takes a version. -/
theorem Draft.draws_of_frees {draft : Draft} {id : SegmentId} (frees : draft.frees id = true) :
    draft.deeds.any Deed.draws = true := by
  rcases List.any_eq_true.mp frees with ⟨deed, member, freesDeed⟩
  exact List.any_eq_true.mpr ⟨deed, member, Deed.draws_of_frees freesDeed⟩

@[simp] theorem Draft.frees_start (start : Image) (id : SegmentId) :
    (Draft.mk start []).frees id = false := rfl

@[simp] theorem Draft.allocates_start (start : Image) (id : SegmentId) :
    (Draft.mk start []).allocates id = false := rfl

@[simp] theorem Draft.frees_add (draft : Draft) (deed : Deed) (id : SegmentId) :
    (draft.add deed).frees id = (draft.frees id || deed.frees id) := by
  simp [frees, add]

@[simp] theorem Draft.allocates_add (draft : Draft) (deed : Deed) (id : SegmentId) :
    (draft.add deed).allocates id = (draft.allocates id || deed.allocates id) := by
  simp [allocates, add]

/-- A transaction that committed, with the version that it was told. -/
structure Record where
  id : TransactionId
  version : Version
  deeds : List Deed
  deriving DecidableEq

/-- Whether a transaction took a version of its own. -/
def Record.draws (record : Record) : Bool := record.deeds.any Deed.draws

def Record.frees (record : Record) (id : SegmentId) : Bool := record.deeds.any (·.frees id)

/-- What a transaction did in one step. -/
def deedOf (id : TransactionId) (action : Action) (answer : Answer) : Option Deed :=
  match action, answer with
  | .perform owner operation, .performed (.ok reply) =>
      if owner = id then some ⟨operation, reply⟩ else none
  | _, _ => none

/-- What a transaction did in a history. -/
def deedsOf (id : TransactionId) (actions : List Action) (answers : List Answer) : List Deed :=
  (actions.zip answers).filterMap fun step => deedOf id step.1 step.2

theorem deedsOf_snoc (id : TransactionId) {actions : List Action} {answers : List Answer}
    (paired : answers.length = actions.length) (action : Action) (answer : Answer) :
    deedsOf id (actions ++ [action]) (answers ++ [answer]) =
      deedsOf id actions answers ++ (deedOf id action answer).toList := by
  rw [deedsOf, List.zip_append paired.symm, List.filterMap_append]
  cases done : deedOf id action answer <;> simp [deedsOf, done]

/-- What was done in some step of a history was done in the history. -/
theorem mem_deedsOf {earlier later : List Action} {before beyond : List Answer}
    (paired : before.length = earlier.length) (owner : TransactionId) (operation : Operation)
    (reply : Reply) :
    ⟨operation, reply⟩ ∈ deedsOf owner (earlier ++ .perform owner operation :: later)
      (before ++ .performed (.ok reply) :: beyond) := by
  rw [deedsOf, List.zip_append paired.symm, List.filterMap_append, List.zip_cons_cons]
  simp [deedOf]

/-- Which transaction committed in one step, and at which version. -/
def commitOf (action : Action) (answer : Answer) : Option (TransactionId × Version) :=
  match action, answer with
  | .commit id, .committed (.ok version) => some (id, version)
  | _, _ => none

theorem commitOf_eq_some {action : Action} {answer : Answer} {id : TransactionId}
    {version : Version} :
    commitOf action answer = some (id, version) ↔
      action = .commit id ∧ answer = .committed (.ok version) := by
  constructor
  · intro committed
    unfold commitOf at committed
    split at committed
    next =>
      cases committed
      exact ⟨rfl, rfl⟩
    next => cases committed
  · rintro ⟨rfl, rfl⟩
    rfl

/-- The transactions that committed in a history, in the order in which they did, each
with all that was done under its number. -/
def committedOf (actions : List Action) (answers : List Answer) : List Record :=
  ((actions.zip answers).filterMap fun step => commitOf step.1 step.2).map fun commit =>
    ⟨commit.1, commit.2, deedsOf commit.1 actions answers⟩

structure Ledger where
  /-- The transactions that committed, in the order in which they did. -/
  commits : List Record
  drafts : TransactionId → Option Draft

namespace Ledger

/-- Before the first step. -/
def blank : Ledger := ⟨[], fun _ => none⟩

/-- The image after some transactions, one after another. -/
def imageOf (records : List Record) : Image := Image.zero.replay (records.flatMap (·.deeds))

/-- Committed memory. -/
def memory (ledger : Ledger) : Image := imageOf ledger.commits

/-- A transaction is no longer open. -/
def drop (ledger : Ledger) (id : TransactionId) : Ledger :=
  { ledger with drafts := Function.update ledger.drafts id none }

/-- A transaction began. -/
def enter (ledger : Ledger) (id : TransactionId) : Ledger :=
  { ledger with drafts := Function.update ledger.drafts id (some ⟨ledger.memory, []⟩) }

/-- An operation of a transaction succeeded. -/
def note (ledger : Ledger) (id : TransactionId) (deed : Deed) : Ledger :=
  { ledger with
    drafts := Function.update ledger.drafts id ((ledger.drafts id).map (·.add deed)) }

/-- A transaction committed. -/
def settle (ledger : Ledger) (id : TransactionId) (version : Version) : Ledger :=
  match ledger.drafts id with
  | some draft => { ledger.drop id with commits := ledger.commits ++ [⟨id, version, draft.deeds⟩] }
  | none => ledger

/-- Write down one step. -/
def observe (ledger : Ledger) : Action → Answer → Ledger
  | .begin _, .began (.ok id) => ledger.enter id
  | .perform id operation, .performed (.ok reply) => ledger.note id ⟨operation, reply⟩
  | .commit id, .committed (.ok version) => ledger.settle id version
  | .commit id, .committed (.error _) => ledger.drop id
  | .rollback id, .ended => ledger.drop id
  | .endElsewhere id, .ended => ledger.drop id
  | _, _ => ledger

/-- Write down several steps. -/
def observeAll (ledger : Ledger) : List Action → List Answer → Ledger
  | action :: actions, answer :: answers =>
      (ledger.observe action answer).observeAll actions answers
  | _, _ => ledger

/-- The ledger of a whole history. -/
def of (actions : List Action) (answers : List Answer) : Ledger := blank.observeAll actions answers

theorem drafts_enter (ledger : Ledger) (id other : TransactionId) :
    (ledger.enter id).drafts other =
      if other = id then some ⟨ledger.memory, []⟩ else ledger.drafts other :=
  Function.update_apply _ _ _ _

theorem drafts_note (ledger : Ledger) (id : TransactionId) (deed : Deed) (other : TransactionId) :
    (ledger.note id deed).drafts other =
      if other = id then (ledger.drafts id).map (·.add deed) else ledger.drafts other :=
  Function.update_apply _ _ _ _

theorem drafts_drop (ledger : Ledger) (id other : TransactionId) :
    (ledger.drop id).drafts other = if other = id then none else ledger.drafts other :=
  Function.update_apply _ _ _ _

theorem settle_eq {ledger : Ledger} {id : TransactionId} {draft : Draft}
    (known : ledger.drafts id = some draft) (version : Version) :
    ledger.settle id version =
      { ledger.drop id with commits := ledger.commits ++ [⟨id, version, draft.deeds⟩] } := by
  rw [settle, known]

theorem drafts_settle (ledger : Ledger) (id : TransactionId) (version : Version)
    (other : TransactionId) :
    (ledger.settle id version).drafts other = if other = id then none else ledger.drafts other := by
  rw [settle]
  split
  next => exact drafts_drop _ _ _
  next absent =>
    split
    next same => rw [same, absent]
    next => rfl

theorem observeAll_append (ledger : Ledger) {earlier : List Action} {before : List Answer}
    (paired : before.length = earlier.length) (later : List Action) (after : List Answer) :
    ledger.observeAll (earlier ++ later) (before ++ after) =
      (ledger.observeAll earlier before).observeAll later after := by
  induction earlier generalizing ledger before with
  | nil =>
      rw [List.length_eq_zero_iff.mp paired]
      rfl
  | cons action rest ih =>
      cases before with
      | nil => cases paired
      | cons answer answers => exact ih _ (Nat.succ.inj paired)

theorem of_append {earlier : List Action} {before : List Answer}
    (paired : before.length = earlier.length) (later : List Action) (after : List Answer) :
    of (earlier ++ later) (before ++ after) = (of earlier before).observeAll later after :=
  blank.observeAll_append paired later after

/-- The ledger of a history that is one step longer. -/
theorem of_snoc {actions : List Action} {answers : List Answer}
    (paired : answers.length = actions.length) (action : Action) (answer : Answer) :
    of (actions ++ [action]) (answers ++ [answer]) = (of actions answers).observe action answer :=
  of_append paired [action] [answer]

/-- A draft after one more step: either the transaction began with it, or it has the
deed of the step besides. -/
theorem drafts_observe {ledger : Ledger} {action : Action} {answer : Answer} {id : TransactionId}
    {draft : Draft} (known : (ledger.observe action answer).drafts id = some draft) :
    (∃ mode, action = .begin mode ∧ answer = .began (.ok id) ∧ draft = ⟨ledger.memory, []⟩) ∨
      ∃ old, ledger.drafts id = some old ∧
        draft = ⟨old.start, old.deeds ++ (deedOf id action answer).toList⟩ := by
  have idle : deedOf id action answer = none → ledger.drafts id = some draft →
      ∃ old, ledger.drafts id = some old ∧
        draft = ⟨old.start, old.deeds ++ (deedOf id action answer).toList⟩ := by
    intro nothing same
    exact ⟨draft, same, by simp [nothing]⟩
  unfold observe at known
  split at known
  next mode owner =>
    rw [drafts_enter] at known
    split at known
    next same =>
      cases known
      exact .inl ⟨mode, rfl, by rw [same], rfl⟩
    next => exact .inr (idle rfl known)
  next owner operation reply =>
    rw [drafts_note] at known
    right
    split at known
    next same =>
      rw [Option.map_eq_some_iff] at known
      rcases known with ⟨old, present, rfl⟩
      exact ⟨old, same ▸ present, by simp [deedOf, same, Draft.add]⟩
    next differ => exact idle (if_neg (Ne.symm differ)) known
  next =>
    rw [drafts_settle] at known
    split at known
    next => cases known
    next => exact .inr (idle rfl known)
  iterate 3
    next =>
      rw [drafts_drop] at known
      split at known
      next => cases known
      next => exact .inr (idle rfl known)
  next _ silent _ _ _ _ =>
    refine .inr (idle ?_ known)
    unfold deedOf
    split
    next => exact (silent _ _ _ rfl rfl).elim
    next => rfl

/-- A step adds the record of the transaction that it commits, if it commits one. -/
theorem commits_observe (ledger : Ledger) (action : Action) (answer : Answer) :
    (ledger.observe action answer).commits = ledger.commits ∨
      ∃ id version draft, action = .commit id ∧ answer = .committed (.ok version) ∧
        ledger.drafts id = some draft ∧
        (ledger.observe action answer).commits =
          ledger.commits ++ [⟨id, version, draft.deeds⟩] := by
  unfold observe
  split
  next => exact .inl rfl
  next => exact .inl rfl
  next id version =>
    cases known : ledger.drafts id with
    | none =>
        left
        rw [settle, known]
    | some draft =>
        right
        exact ⟨id, version, draft, rfl, rfl, known, by rw [settle_eq known]⟩
  all_goals exact .inl rfl

/-- Records stay. -/
theorem mem_commits_observe {ledger : Ledger} {record : Record} (member : record ∈ ledger.commits)
    (action : Action) (answer : Answer) : record ∈ (ledger.observe action answer).commits := by
  rcases ledger.commits_observe action answer with same | ⟨_, _, _, _, _, _, added⟩
  · rw [same]
    exact member
  · rw [added]
    exact List.mem_append_left _ member

/-- A draft tells what its transaction began with and what it did since. -/
theorem drafts_of {actions : List Action} {answers : List Answer} {id : TransactionId}
    {draft : Draft} (paired : answers.length = actions.length)
    (known : (of actions answers).drafts id = some draft) :
    ∃ earlier mode later before beyond, actions = earlier ++ .begin mode :: later ∧
      answers = before ++ .began (.ok id) :: beyond ∧ before.length = earlier.length ∧
      beyond.length = later.length ∧
      draft = ⟨(of earlier before).memory, deedsOf id later beyond⟩ := by
  induction actions using List.reverseRecOn generalizing answers draft with
  | nil => cases answers <;> cases known
  | append_singleton actions action ih =>
      rcases List.eq_nil_or_concat answers with rfl | ⟨answers, answer, rfl⟩
      · simp at paired
      · have same : answers.length = actions.length := by simpa using paired
        rw [List.concat_eq_append] at known ⊢
        rw [of_snoc same] at known
        rcases drafts_observe known with ⟨mode, rfl, rfl, rfl⟩ | ⟨old, present, rfl⟩
        · exact ⟨actions, mode, [], answers, [], rfl, rfl, same, rfl, rfl⟩
        · rcases ih same present with
            ⟨earlier, mode, later, before, beyond, rfl, rfl, cutHere, rest, rfl⟩
          refine ⟨earlier, mode, later ++ [action], before, beyond ++ [answer], by simp, by simp,
            cutHere, by simp [rest], ?_⟩
          rw [deedsOf_snoc id rest]

theorem imageOf_append (earlier later : List Record) :
    imageOf (earlier ++ later) = (imageOf earlier).replay (later.flatMap (·.deeds)) := by
  rw [imageOf, List.flatMap_append, Image.replay_append, ← imageOf]

end Ledger

end WordStm
