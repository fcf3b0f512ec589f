/-!
# Settings of a user

What an instance remembers between runs: when the two kinds of updates last
completed, and the watermarks up to which changes and deletions are indexed. All
times are in milliseconds, and zero stands for never.
-/

namespace ContactsIndex

structure Settings where
  lastFull : Int
  lastDelta : Int
  contactUpdate : Int
  contactDelete : Int
  deriving DecidableEq, Repr

namespace Settings

def zero : Settings :=
  ⟨0, 0, 0, 0⟩

def isFirstRun (s : Settings) : Bool :=
  s.lastFull = 0 && s.lastDelta = 0

def setLastFull (s : Settings) (time : Int) : Settings :=
  { s with lastFull := time }

def setLastDelta (s : Settings) (time : Int) : Settings :=
  { s with lastDelta := time }

def advanceUpdate (s : Settings) (watermark : Int) : Settings :=
  { s with contactUpdate := max s.contactUpdate watermark }

def advanceDelete (s : Settings) (watermark : Int) : Settings :=
  { s with contactDelete := max s.contactDelete watermark }

def resetWatermarks (s : Settings) : Settings :=
  { s with contactUpdate := 0, contactDelete := 0 }

end Settings

end ContactsIndex
