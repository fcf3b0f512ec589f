import ContactsIndex.Ascending
import ContactsIndex.Batch
import ContactsIndex.Bench.Canned
import ContactsIndex.Bench.Instance
import ContactsIndex.Bench.Method
import ContactsIndex.Bench.Scenario
import ContactsIndex.Bench.Thread
import ContactsIndex.Bench.World
import ContactsIndex.Bytes
import ContactsIndex.Config
import ContactsIndex.Contact
import ContactsIndex.Digest.Sha256
import ContactsIndex.Document.Basic
import ContactsIndex.Document.Canonical
import ContactsIndex.Document.Diff
import ContactsIndex.Document.OfContact
import ContactsIndex.Error
import ContactsIndex.Instance.Snapshot
import ContactsIndex.Instance.Startup
import ContactsIndex.Instance.Worker
import ContactsIndex.Json.Basic
import ContactsIndex.Json.Records
import ContactsIndex.Json.Error
import ContactsIndex.Json.Report
import ContactsIndex.Json.Text
import ContactsIndex.Measure
import ContactsIndex.Metrics
import ContactsIndex.Program.Basic
import ContactsIndex.Program.Call
import ContactsIndex.Proofs.Document.Content
import ContactsIndex.Proofs.Document.Fingerprint
import ContactsIndex.Proofs.Document.Framing
import ContactsIndex.Proofs.Instance.Discipline
import ContactsIndex.Proofs.Instance.Handlers
import ContactsIndex.Proofs.Instance.Machine
import ContactsIndex.Proofs.Instance.Overlap
import ContactsIndex.Proofs.Instance.Recovery
import ContactsIndex.Proofs.Instance.Skew
import ContactsIndex.Proofs.Instance.Stage
import ContactsIndex.Proofs.Program.Collaborators
import ContactsIndex.Proofs.Program.Environment
import ContactsIndex.Proofs.Program.Failure
import ContactsIndex.Proofs.Program.Obeys
import ContactsIndex.Proofs.Settings.Codec
import ContactsIndex.Proofs.Settings.Grammar
import ContactsIndex.Proofs.Settings.Tolerance
import ContactsIndex.Proofs.Source.AddressBook
import ContactsIndex.Proofs.Source.Listing
import ContactsIndex.Proofs.Source.Query
import ContactsIndex.Proofs.Store.Documents
import ContactsIndex.Proofs.Update.Calls
import ContactsIndex.Proofs.Update.Cycles
import ContactsIndex.Proofs.Update.Faithful
import ContactsIndex.Proofs.Update.Indexed
import ContactsIndex.Proofs.Update.Upkeep
import ContactsIndex.Registry
import ContactsIndex.Scheduler
import ContactsIndex.Schema
import ContactsIndex.Settings.Basic
import ContactsIndex.Settings.Codec
import ContactsIndex.Settings.File
import ContactsIndex.Settings.Folders
import ContactsIndex.Settings.Place
import ContactsIndex.Source.AddressBook
import ContactsIndex.Source.Listing
import ContactsIndex.Source.Query
import ContactsIndex.Stats
import ContactsIndex.Store.Memory
import ContactsIndex.Store.Status
import ContactsIndex.Text
import ContactsIndex.Update.Batcher
import ContactsIndex.Update.Corpus
import ContactsIndex.Update.Cycle
import ContactsIndex.Proofs.Instance.Coalescing
import ContactsIndex.Proofs.Instance.Truncation
import ContactsIndex.Proofs.Instance.Reset
import ContactsIndex.Proofs.Registry.Agreement
import ContactsIndex.Proofs.Instance.OneOff
import ContactsIndex.Proofs.Instance.Progress
import ContactsIndex.Proofs.Instance.Running
import ContactsIndex.Proofs.Schema.Validity
import ContactsIndex.Proofs.Source.Newest
import ContactsIndex.Proofs.Program.Straight
import ContactsIndex.Proofs.Store.Room
import ContactsIndex.Proofs.Update.Desk
import ContactsIndex.Proofs.Update.Comparing
import ContactsIndex.Proofs.Update.Alone
import ContactsIndex.Proofs.Update.Reference
import ContactsIndex.Proofs.Update.Readded
import ContactsIndex.Proofs.Update.Rebuild
import ContactsIndex.Proofs.Program.Exchanges
import ContactsIndex.Proofs.Program.Faulty
import ContactsIndex.Proofs.Program.Firing
import ContactsIndex.Proofs.Update.Account
import ContactsIndex.Proofs.Update.Statistics
import ContactsIndex.Proofs.Update.Failing
import ContactsIndex.Proofs.Update.Cancelling
import ContactsIndex.Proofs.Update.Unfailed
import ContactsIndex.Proofs.Update.Repeated
import ContactsIndex.Proofs.Source.Ranking
import ContactsIndex.Proofs.Update.Gathering
import ContactsIndex.Proofs.Update.Stamps
import ContactsIndex.Proofs.Instance.Persisted
import ContactsIndex.Proofs.Schema.Upgrades
import ContactsIndex.Proofs.Source.History
import ContactsIndex.Proofs.Text.Words
import ContactsIndex.Proofs.Document.Grouping
import ContactsIndex.Proofs.Document.Layout
import ContactsIndex.Proofs.Document.Tidying
import ContactsIndex.Proofs.Text.ByteOrder
import ContactsIndex.Proofs.Text.Runs
import ContactsIndex.Proofs.Store.History
