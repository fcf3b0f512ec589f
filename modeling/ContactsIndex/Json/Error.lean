import ContactsIndex.Error
import ContactsIndex.Json.Basic

/-!
# Errors in JSON

An error is written as its kind and its message. The kind is that of the innermost
cause and the message that of the whole error. An error of the file system has no
message, since its wording is not ours.
-/

namespace ContactsIndex

open Json

def StorageError.kind : StorageError → String
  | unavailable _ => "Storage.Unavailable"
  | outOfSpace => "Storage.OutOfSpace"
  | incompatibleSchema _ => "Storage.IncompatibleSchema"
  | backend _ => "Storage.Backend"

def SourceError.kind : SourceError → String
  | noCursor _ => "Source.NoCursor"
  | provider _ => "Source.Query"

def SchedulerError.kind : SchedulerError → String
  | rejected _ _ => "Scheduler.Rejected"
  | unavailable _ => "Scheduler.Unavailable"

def SettingsError.kind : SettingsError → String
  | io => "Settings.Io"
  | truncated _ _ => "Settings.Truncated"
  | badMagic _ => "Settings.BadMagic"
  | unsupportedVersion _ => "Settings.UnsupportedVersion"
  | badFieldLength _ _ => "Settings.BadFieldLength"

def UpdateError.kind : UpdateError → String
  | source cause => cause.kind
  | storage cause => cause.kind
  | aborted _ => "Aborted"

def IndexerError.kind : IndexerError → String
  | shutDown _ => "ShutDown"
  | unknownUser _ => "UnknownUser"
  | settings cause => cause.kind
  | storage cause => cause.kind
  | scheduler cause => cause.kind
  | io => "Io"

def Json.error (kind message : String) : Json :=
  object [("error", string kind), ("message", string message)]

def StorageError.toJson (e : StorageError) : Json :=
  Json.error e.kind e.message

def SourceError.toJson (e : SourceError) : Json :=
  Json.error e.kind e.message

def SchedulerError.toJson (e : SchedulerError) : Json :=
  Json.error e.kind e.message

def SettingsError.toJson (e : SettingsError) : Json :=
  if e = .io then object [("error", string e.kind)] else Json.error e.kind e.message

def UpdateError.toJson (e : UpdateError) : Json :=
  Json.error e.kind e.message

def IndexerError.toJson (e : IndexerError) : Json :=
  if e = .io ∨ e = .settings .io then object [("error", string e.kind)] else Json.error e.kind e.message

end ContactsIndex
