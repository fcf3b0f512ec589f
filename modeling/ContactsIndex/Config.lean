import ContactsIndex.Source.Listing

/-!
# Configuration

Limits of `none` mean that nothing is cut off.
-/

namespace ContactsIndex

structure BatchSizes where
  updates : Nat
  deletes : Nat
  deriving DecidableEq, Repr

def BatchSizes.standard : BatchSizes :=
  ⟨50, 500⟩

structure Config where
  enabled : Bool
  /-- The limit of a delta update before any update has completed. -/
  firstRunLimit : Option Nat
  deltaLimit : Option Nat
  fullLimit : Option Nat
  /-- The milliseconds between two full updates. -/
  fullInterval : Nat
  updateBatchSize : Nat
  deleteBatchSize : Nat
  /-- Whether a delta update goes on after a document has failed. -/
  keepUpdatingOnError : Bool
  baseDir : String
  deriving DecidableEq, Repr

namespace Config

def standard : Config where
  enabled := true
  firstRunLimit := some 1000
  deltaLimit := some 1000
  fullLimit := some 10000
  fullInterval := 2592000000
  updateBatchSize := BatchSizes.standard.updates
  deleteBatchSize := BatchSizes.standard.deletes
  keepUpdatingOnError := true
  baseDir := "./contacts_indexer"

def batchSizes (config : Config) : BatchSizes :=
  ⟨config.updateBatchSize, config.deleteBatchSize⟩

def limitOfDelta (config : Config) (firstRun : Bool) : Limit :=
  .ofOption (if firstRun then config.firstRunLimit else config.deltaLimit)

def limitOfFull (config : Config) : Limit :=
  .ofOption config.fullLimit

end Config

end ContactsIndex
