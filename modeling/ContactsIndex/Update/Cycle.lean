import ContactsIndex.Update.Corpus

/-!
# Delta and full updates

A delta update asks what has changed since the watermarks and follows that. A full
update compares the whole index with the whole source. Both start from a copy of
the settings and change none; whether their watermarks are adopted is decided by
whoever started them.
-/

namespace ContactsIndex

structure CycleContext where
  user : UserId
  config : Config
  settings : Settings
  deriving DecidableEq, Repr

def Settings.watermarks (s : Settings) : Watermarks :=
  ⟨s.contactUpdate, s.contactDelete⟩

structure CycleOutcome (α : Type) where
  result : Except UpdateError α
  stats : Stats

namespace CycleContext

def startStats (context : CycleContext) (kind : UpdateKind) (now : Int) : Stats :=
  { Stats.start kind now with previous := context.settings.watermarks }

/-! ## Delta updates -/

structure DeltaProgress where
  completion : Completion
  watermarks : Watermarks
  deriving DecidableEq, Repr

abbrev DeltaOutcome := CycleOutcome DeltaProgress

def followChanges (context : CycleContext) (stats : Stats) : Program (Except UpdateError DeltaProgress × Stats) := do
  let limit := context.config.limitOfDelta context.settings.isFirstRun
  match ← Source.listBoth context.settings.contactUpdate limit context.settings.contactDelete with
  | .error e => return (.error (.source e), stats)
  | .ok (updated, deleted) =>
    let stats := { stats with truncated := limit.reachedBy updated.ids.length }
    let policy := ⟨context.config.batchSizes, context.config.keepUpdatingOnError⟩
    match ← Corpus.update policy updated.ids deleted.ids stats with
    | (.error e, stats) => return (.error e, stats)
    | (.ok completion, stats) =>
      let watermarks := ⟨updated.watermark, deleted.watermark⟩
      return (.ok ⟨completion, watermarks⟩, { stats with new := watermarks })

/-- A delta update. Contacts that it had to leave out, because the store is full or
the listing was cut off, are left to a full update that is scheduled at its end. -/
def deltaUpdate (context : CycleContext) : Program DeltaOutcome := do
  let stats := context.startStats .delta (← Program.readClock)
  let (result, stats) ← context.followChanges stats
  let stats := stats.finish (← Program.readClock)
  if stats.outOfSpace || stats.truncated then
    if let .ok () ← Program.ask (.schedule context.user .oneOff) then
      Program.record (.job "one_off")
  Program.record (.timer "delta" "cycle")
  return ⟨result, stats⟩

/-! ## Full updates -/

abbrev FullOutcome := CycleOutcome Completion

/-- The index is listed before the source, so that what a delta update adds in
between is in the source listing as well and is not taken for stale. -/
def rebuild (context : CycleContext) (stats : Stats) : Program (Except UpdateError Completion × Stats) := do
  if ← Program.isCancelled then return (.ok .cancelled, stats)
  else
    match ← Program.ask .listIds with
    | .error e => return (.error (.storage e), stats)
    | .ok indexed =>
      let limit := context.config.limitOfFull
      match ← Source.listUpdated 0 limit with
      | .error e => return (.error (.source e), stats)
      | .ok current =>
        let stats := { stats with truncated := limit.reachedBy current.ids.length }
        let unwanted := (indexed.filter (!current.ids.contains ·)).mergeSort (· ≤ ·)
        Corpus.update ⟨context.config.batchSizes, true⟩ current.ids unwanted stats

def fullUpdate (context : CycleContext) : Program FullOutcome := do
  let stats := context.startStats .full (← Program.readClock)
  let (result, stats) ← context.rebuild stats
  let stats := stats.finish (← Program.readClock)
  Program.record (.timer "full" "cycle")
  return ⟨result, stats⟩

end CycleContext

end ContactsIndex
