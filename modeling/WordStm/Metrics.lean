import WordStm.Address
import WordStm.Binary64

/-!
# Metrics

A region counts its transactions: those that are open, and those that have
ended, by how they ended.
-/

namespace WordStm

/-- How the transactions of a region have fared. -/
structure Tally where
  committed : UInt64 := 0
  aborted : UInt64 := 0
  /-- Begun and not yet ended. -/
  active : UInt64 := 0
  deriving DecidableEq

namespace Tally

def began (tally : Tally) : Tally := { tally with active := tally.active + 1 }

/-- A transaction ended, and committed or not. -/
def ended (tally : Tally) (committed : Bool) : Tally :=
  if committed then
    { tally with active := tally.active - 1, committed := tally.committed + 1 }
  else { tally with active := tally.active - 1, aborted := tally.aborted + 1 }

end Tally

/-- What a region reports about itself. -/
structure Metrics where
  tally : Tally
  liveSegments : UInt64
  clock : Version
  deriving DecidableEq

/-- The share of ended transactions that committed, one if none has ended. -/
def Metrics.commitRate (metrics : Metrics) : Binary64 :=
  let ended := metrics.tally.committed + metrics.tally.aborted
  if ended = 0 then .ofNat 1
  else .quotient (.ofNat metrics.tally.committed.toNat) (.ofNat ended.toNat)

end WordStm
