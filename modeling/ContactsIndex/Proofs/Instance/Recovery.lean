import ContactsIndex.Instance.Startup
import ContactsIndex.Proofs.Instance.Handlers
import ContactsIndex.Proofs.Settings.Codec
import ContactsIndex.Proofs.Update.Calls
import ContactsIndex.Proofs.Update.Cycles

/-!
# Recovery

Cycles of an instance alternate with changes of the address book. Any call may be
refused, any cycle may be cancelled, the instance may be started anew from its settings
file, and the file may be lost. `Alternating` runs are those in which no cycle goes on
after a failure. Along such a run everything is indexed up to the watermarks of the
worker and up to those of the file, and neither pair is skewed for any contact; so a
delta update that completes leaves the index equal to the source (`index_eq_source`).
-/

namespace ContactsIndex

open Program

/-! ## Trouble -/

/-- Any call may be refused, and then nothing happens; any cycle may be cancelled at any time. -/
def Collaborators.troubled : Environment Collaborators where
  clock := fun _ => True
  token := fun _ => True
  answers := fun c s r t => (c.Refused r ∧ t = s) ∨ s.serve c = (r, t)
  unordered := True
  drift := Eq
  drift_refl := fun _ => rfl
  drift_trans := Eq.trans

open Collaborators (troubled)

/-- Collaborators as they are; contacts for which the watermarks are skewed are excused. -/
def View.unskewed (m : Watermarks) : View Collaborators :=
  ⟨id, fun s id => s.book.Skewed m id⟩

theorem faithful_troubled (m : Watermarks) : Faithful (.unskewed m) troubled m := by
  have hsame : ∀ {c s r t}, troubled.answers c s r t → s.book.Same t.book := by
    rintro c s r t (⟨_, rfl⟩ | he)
    · exact .refl _
    · have := s.serve_book c
      rwa [he] at this
  have hkept : ∀ {c s r t id}, troubled.answers c s r t → s.book.Skewed m id → t.book.Skewed m id :=
    fun ha hsk => hsk.later (hsame ha).later ((hsame ha).get? _)
  constructor
  · rintro c s r t (⟨hr, rfl⟩ | he)
    · exact .inl ⟨hr, rfl⟩
    · exact .inr he
  · exact fun ha _ => hkept ha
  · exact fun ha _ _ => hkept ha
  · rintro s t rfl
    exact .refl s

theorem surroundings_within_troubled (now : Int) : (Collaborators.surroundings now).Within troubled :=
  ⟨fun _ => trivial, fun _ => trivial, fun _ _ => rfl, fun _ _ _ => rfl, fun _ _ => .inr rfl⟩

/-! ## Trusted watermarks -/

/-- The index can be brought up to date from the watermarks. -/
structure Trusted (m : Watermarks) (s : Collaborators) : Prop where
  indexed : Indexed .plain m s
  even : ∀ id, ¬ s.book.Skewed m id
  update_nonneg : 0 ≤ m.update
  delete_nonneg : 0 ≤ m.delete

variable {m n : Watermarks} {s t : Collaborators}

theorem Indexed.unskewed (h : Indexed .plain m s) : Indexed (.unskewed n) m s :=
  h.viewed rfl fun _ hx => nomatch hx

theorem Indexed.plain (h : Indexed (.unskewed n) m s) (he : ∀ id, ¬ s.book.Skewed n id) :
    Indexed .plain m s :=
  h.viewed rfl he

theorem Trusted.mono (h : Trusted m s) (he : ∀ id, ¬ s.book.Skewed n id) (hu : n.update ≤ m.update)
    (hd : n.delete ≤ m.delete) (hu' : 0 ≤ n.update) (hd' : 0 ≤ n.delete) : Trusted n s :=
  ⟨h.indexed.mono hu hd, he, hu', hd'⟩

theorem Trusted.zero (h : Trusted m s) : Trusted Settings.zero.watermarks s := by
  refine h.mono ?_ h.update_nonneg h.delete_nonneg (Int.le_refl 0) (Int.le_refl 0)
  rintro id ⟨c, hc, hle, _⟩
  exact absurd (h.indexed.sound.stamp_pos hc) (Int.not_lt.mpr hle)

theorem Trusted.later (h : Trusted m s) (hb : s.book.Later t.book)
    (hs : ∀ id, t.store.fingerprint? id = s.store.fingerprint? id) : Trusted m t where
  indexed := h.indexed.moved ⟨hb, fun id => .inr (.inl ⟨hs id, fun hx => hx⟩)⟩
  even id hsk := h.even id (hsk.of_later hb h.indexed.sound h.indexed.update_le)
  update_nonneg := h.update_nonneg
  delete_nonneg := h.delete_nonneg

/-! ## Cycles -/

structure Untouched (s t : Collaborators) : Prop where
  book : s.book.Same t.book
  schema : t.store.schema = s.store.schema
  place : t.place = s.place

theorem Untouched.trans {u : Collaborators} (h : Untouched s t) (h' : Untouched t u) : Untouched s u :=
  ⟨h.book.trans h'.book, h'.schema.trans h.schema, h'.place.trans h.place⟩

theorem untouched_of_answers {c : Call} {r : c.Reply} (hc : c.Cycling) (ha : troubled.answers c s r t) :
    Untouched s t := by
  rcases ha with ⟨_, rfl⟩ | he
  · exact ⟨.refl _, rfl, rfl⟩
  · have ht : t = (s.serve c).2 := by rw [he]
    subst ht
    refine ⟨s.serve_book c, ?_, ?_⟩
    · cases c with
      | put docs => exact DocumentStore.schema_putAll docs _
      | remove ids => exact DocumentStore.schema_removeAll ids _
      | setSchema schema force => cases hc
      | _ => rfl
    · cases c <;> first | rfl | cases hc

theorem untouched_of_ends {α : Type} {Q : α → Prop} {p : Program α} {a : α} (h : p.Obeys Call.Cycling Q)
    (he : Ends troubled p s a t) : Untouched s t :=
  (h.ends (I := Untouched s) (fun hc hi ha => hi.trans (untouched_of_answers hc ha)) he
    ⟨.refl _, rfl, rfl⟩).2

/-- Nothing is cut off, and a delta update stops at a failure. -/
structure Config.Strict (config : Config) : Prop where
  firstRun : config.firstRunLimit = none
  delta : config.deltaLimit = none
  full : config.fullLimit = none
  stops : config.keepUpdatingOnError = false

theorem Config.Strict.limitOfDelta {config : Config} (h : config.Strict) (firstRun : Bool) :
    config.limitOfDelta firstRun = .unlimited := by
  unfold Config.limitOfDelta
  split
  · rw [h.firstRun]; rfl
  · rw [h.delta]; rfl

theorem Config.Strict.limitOfFull {config : Config} (h : config.Strict) :
    config.limitOfFull = .unlimited := by
  rw [Config.limitOfFull, h.full]; rfl

theorem Trusted.deltaUpdate {context : CycleContext} {outcome : CycleContext.DeltaOutcome}
    (h : Trusted m s) (hm : context.settings.watermarks = m) (hc : context.config.Strict)
    (he : Ends troubled context.deltaUpdate s outcome t) : Trusted m t ∧
    ∀ n, outcome.result = .ok ⟨.completed, n⟩ →
      Trusted n t ∧ m.update ≤ n.update ∧ m.delete ≤ n.delete ∧
        (∀ {id c}, t.book.get? id = some c → c.lastUpdated ≤ n.update) ∧
        ∀ row ∈ t.book.deletions, row.stamp ≤ n.delete := by
  have hsame := (untouched_of_ends context.obeys_deltaUpdate he).book
  have hended := ((faithful_troubled m).deltaUpdate hm (hc.limitOfDelta _) h.indexed.unskewed
    (Int.le_refl _)).ends he
  obtain ⟨hindexed, _, hreached, _⟩ := hended
  have heven : ∀ id, ¬ t.book.Skewed m id := fun id hsk =>
    h.even id (hsk.of_later hsame.later h.indexed.sound h.indexed.update_le)
  refine ⟨⟨hindexed.plain heven, heven, h.update_nonneg, h.delete_nonneg⟩, fun n hn => ?_⟩
  have hr := hreached n hn
  have hi : Indexed (.unskewed m) n t :=
    hr.indexed fun hk => absurd (hc.stops.symm.trans hk) Bool.false_ne_true
  -- the source did not change during the cycle, so that the listings cover all of it
  have hlive : ∀ {id c}, t.book.get? id = some c → c.lastUpdated ≤ n.update := by
    intro id c hg
    apply (hr.covered.live hg).resolve_right
    intro hlt
    have hle := h.indexed.sound.stamp_le ((hsame.get? id).symm.trans hg)
    exact absurd hlt (Int.not_lt.mpr hle)
  have hrows : ∀ row ∈ t.book.deletions, row.stamp ≤ n.delete := by
    intro row hrow
    apply (hr.covered.rows row hrow).resolve_right
    intro hlt
    rw [hsame.deletions] at hrow
    exact absurd hlt (Int.not_lt.mpr (h.indexed.sound.row_le row hrow))
  have hum := hr.update_mono
  have hdm := hr.delete_mono
  have heven' : ∀ id, ¬ t.book.Skewed n id := by
    rintro id ⟨_, _, _, row, hrow, _, hlt⟩
    exact absurd (hrows row hrow) (Int.not_le.mpr hlt)
  refine ⟨⟨hi.plain heven, heven', ?_, ?_⟩, hum, hdm, hlive, hrows⟩
  · exact Int.le_trans h.update_nonneg hum
  · exact Int.le_trans h.delete_nonneg hdm

theorem Trusted.fullUpdate {context : CycleContext} {outcome : CycleContext.FullOutcome}
    (h : Trusted m s) (hc : context.config.Strict)
    (he : Ends troubled context.fullUpdate s outcome t) : Trusted m t := by
  have hsame := (untouched_of_ends context.obeys_fullUpdate he).book
  have heven : ∀ id, ¬ t.book.Skewed m id := fun id hsk =>
    h.even id (hsk.of_later hsame.later h.indexed.sound h.indexed.update_le)
  have hended := ((faithful_troubled m).fullUpdate hc.limitOfFull h.indexed.unskewed
    (Int.le_refl _)).ends he
  exact ⟨hended.1.plain heven, heven, h.update_nonneg, h.delete_nonneg⟩

/-! ## Starting -/

/-- What starting leaves alone: contacts, documents, and what is loaded from the file. -/
structure Preserved (s t : Collaborators) : Prop where
  book : s.book.Same t.book
  documents : ∀ id, t.store.get? id = s.store.get? id
  loaded : t.place.load = s.place.load

theorem Preserved.refl (s : Collaborators) : Preserved s s := ⟨.refl _, fun _ => rfl, rfl⟩

theorem Preserved.trans {u : Collaborators} (h : Preserved s t) (h' : Preserved t u) : Preserved s u :=
  ⟨h.book.trans h'.book, fun id => (h'.documents id).trans (h.documents id),
    h'.loaded.trans h.loaded⟩

def Collaborators.Schematic (s : Collaborators) : Prop :=
  s.store.schema = none ∨ s.store.schema = some .personCorpus

theorem always_return {α : Type} {post : α → Collaborators → Prop} {a : α} (h : post a s) :
    (pure a : Program α).Always troubled post s :=
  always_pure.mpr fun _ hd => hd ▸ h

theorem always_served {α : Type} {post : α → Collaborators → Prop} {c : Call} {f : c.Reply → Program α}
    (hr : ∀ reply, c.Refused reply → (f reply).Always troubled post s)
    (hs : (f (s.serve c).1).Always troubled post (s.serve c).2) :
    (ask c >>= f).Always troubled post s := by
  apply always_ask.mpr
  intro s' hd reply t ha
  obtain rfl : s = s' := hd
  cases ha with
  | inl h =>
    rw [h.2]
    exact hr reply h.1
  | inr h =>
    rw [h] at hs
    exact hs

theorem always_reconcileSchema (h : s.Schematic) : Startup.reconcileSchema.Always troubled
    (fun result t => Preserved s t ∧ t.Schematic ∧
      ∀ dropped, result = .ok dropped → dropped = false) s := by
  apply always_served
  · intro reply hr
    cases reply with
    | error e => exact always_return ⟨.refl _, h, (nomatch ·, ·)⟩
    | ok installed => exact absurd rfl (hr installed)
  · -- either there was no schema yet, or it is the right one already
    rcases h with hnone | hsome
    · simp only [Collaborators.serve, hnone, Schema.compatibility, Startup.reconcileSchema.install]
      apply always_served
      · intro reply hr
        cases reply with
        | error e => exact always_return ⟨.refl _, .inl hnone, (nomatch ·, ·)⟩
        | ok types => exact absurd rfl (hr types)
      · simp only [Collaborators.serve, DocumentStore.setSchema, Schema.compatibility, hnone]
        intro t hd
        obtain rfl : _ = t := hd
        exact ⟨⟨.refl _, fun _ => rfl, rfl⟩, .inr rfl, fun _ hd => (Except.ok.inj hd).symm⟩
    · simp only [Collaborators.serve, hsome, Schema.compatibility, ↓reduceIte]
      intro t hd
      obtain rfl : s = t := hd
      exact ⟨.refl _, .inr hsome, fun _ hd => (Except.ok.inj hd).symm⟩

theorem always_prepare (h : s.Schematic) :
    Startup.prepare.Always troubled (fun result t => Preserved s t ∧ t.Schematic ∧
    ∀ settings initial, result = .ok (settings, initial) →
      settings = s.place.load ∧ initial = .delta) s := by
  have hfailed : ∀ {e t}, Preserved s t → t.Schematic →
      (pure (.error e) : Program (Except IndexerError (Settings × InitialCycle))).Always troubled
      (fun result t => Preserved s t ∧ t.Schematic ∧
        ∀ settings initial, result = .ok (settings, initial) →
          settings = s.place.load ∧ initial = .delta) t :=
    fun hp hs => always_return ⟨hp, hs, fun _ _ hok => nomatch hok⟩
  have hplace := s.place.load_makeFolder
  apply always_served
  · intro reply hr
    cases reply with
    | error e => exact hfailed (.refl _) h
    | ok _ => exact absurd rfl hr
  · have hmade : Preserved s (s.serve .makeFolder).2 := ⟨.refl _, fun _ => rfl, hplace⟩
    have h' : (s.serve .makeFolder).2.Schematic := h
    cases (s.serve .makeFolder).1 with
    | error e => exact hfailed hmade h'
    | ok _ =>
      refine always_served (fun _ hr => nomatch hr) ((always_reconcileSchema h').bind ?_)
      intro result u hu
      obtain ⟨hkept, hschema, hdropped⟩ := hu
      have hpreserved := hmade.trans hkept
      cases result with
      | error e => exact hfailed hpreserved hschema
      | ok dropped =>
        obtain rfl := hdropped dropped rfl
        refine always_return ⟨hpreserved, hschema, fun settings initial hok => ?_⟩
        cases hok
        exact ⟨hplace, rfl⟩

/-! ## Handlers -/

/-- What a handler leaves alone; the file holds what it held or the settings of the worker. -/
structure Handled (settings : Settings) (s t : Collaborators) : Prop where
  book : s.book.Same t.book
  store : t.store = s.store
  loaded : t.place.load = s.place.load ∨ t.place.load =
    ⟨Settings.wrap settings.lastFull, Settings.wrap settings.lastDelta,
      Settings.wrap settings.contactUpdate,
      Settings.wrap settings.contactDelete⟩

theorem handled_of_ends {settings : Settings} {p : Program Worker} {w w' : Worker}
    (h : p.Obeys (Worker.Handling settings) (· = w')) (he : Ends troubled p s w t) :
    w = w' ∧ Handled settings s t := by
  refine h.ends (I := Handled settings s) (fun hc hi ha => ?_) he ⟨.refl _, rfl, .inl rfl⟩
  rename_i c u r u'
  rcases ha with ⟨_, rfl⟩ | he
  · exact hi
  · have hu : u' = (u.serve c).2 := by rw [he]
    subst hu
    cases c with
    | schedule user job => exact ⟨hi.book, hi.store, hi.loaded⟩
    | cancelJob user => exact ⟨hi.book, hi.store, hi.loaded⟩
    | pendingJob user => exact ⟨hi.book, hi.store, hi.loaded⟩
    | persist written =>
      have hwritten : written = settings := hc
      rw [hwritten]
      refine ⟨hi.book, hi.store, ?_⟩
      rcases u.place.load_persist settings with ⟨_, hkept⟩ | ⟨_, hload⟩
      · exact hi.loaded.imp (hkept.trans ·) (hkept.trans ·)
      · exact .inr hload
    | _ => cases hc

/-! ## Runs -/

/-- A worker, if the instance is started, and the collaborators that one may come to. Cycles are
run one at a time and as a whole; stamps are numbers of 64 bits. -/
inductive Alternating (user : UserId) : Option Worker → Collaborators → Prop
  | fresh (capacity) : Alternating user none (.fresh capacity)
  | change {w? s} (now : Int) (ch : AddressBook.Change) : Alternating user w? s →
      (s.book.change now ch).lastStamp < 2 ^ 63 →
      Alternating user w? { s with book := s.book.change now ch }
  | lose {w? s place} : Alternating user w? s → place.load = .zero →
      Alternating user w? { s with place := place }
  | stop {w s} : Alternating user (some w) s → Alternating user none s
  | start {config s settings initial t w u} : Alternating user none s → config.Strict →
      Ends troubled Startup.prepare s (.ok (settings, initial)) t →
      Ends troubled ((Worker.new user settings config).begin initial) t w u →
      Alternating user (some w) u
  | startFailed {s e t} : Alternating user none s → Ends troubled Startup.prepare s (.error e) t →
      Alternating user none t
  | command {w s command w' t} : Alternating user (some w) s →
      Ends troubled (w.onCommand command) s w' t →
      Alternating user (some w') t
  | delta {w s context outcome t w' u} : Alternating user (some w) s → w.delta = some context →
      Ends troubled context.deltaUpdate s outcome t → Ends troubled (w.onDeltaDone outcome) t w' u →
      Alternating user (some w') u
  | full {w s run outcome t w' u} : Alternating user (some w) s → w.full = some run →
      Ends troubled run.context.fullUpdate s outcome t → Ends troubled (w.onFullDone outcome) t w' u →
      Alternating user (some w') u

structure Ready (w : Worker) (s : Collaborators) : Prop where
  trusted : Trusted w.settings.watermarks s
  file_update : s.place.load.contactUpdate ≤ w.settings.contactUpdate
  file_delete : s.place.load.contactDelete ≤ w.settings.contactDelete
  strict : w.config.Strict
  delta : ∀ context, w.delta = some context →
    context.config.Strict ∧ context.settings.watermarks = w.settings.watermarks
  full : ∀ run, w.full = some run → run.context.config.Strict

structure Recovering (w? : Option Worker) (s : Collaborators) : Prop where
  schema : s.Schematic
  last_lt : s.book.lastStamp < 2 ^ 63
  file : Trusted s.place.load.watermarks s
  worker : ∀ w, w? = some w → Ready w s

/-! ## What every run keeps -/

theorem Trusted.preserved (h : Trusted m s) (hp : Preserved s t) : Trusted m t :=
  h.later hp.book.later fun id => by
    rw [DocumentStore.fingerprint?, hp.documents, DocumentStore.fingerprint?]

theorem Trusted.wrapped {settings : Settings} (h : Trusted settings.watermarks s)
    (hlast : s.book.lastStamp < 2 ^ 63) :
    Settings.wrap settings.contactUpdate = settings.contactUpdate ∧
      Settings.wrap settings.contactDelete = settings.contactDelete :=
  ⟨Settings.wrap_eq (Int.le_trans (by decide) h.update_nonneg) (Int.lt_of_le_of_lt h.indexed.update_le hlast),
    Settings.wrap_eq (Int.le_trans (by decide) h.delete_nonneg) (Int.lt_of_le_of_lt h.indexed.delete_le hlast)⟩

theorem recovering_fresh (capacity : Option Nat) : Recovering none (.fresh capacity) where
  schema := .inl rfl
  last_lt := show (0 : Int) < 2 ^ 63 by decide
  file := {
    indexed := .unindexed AddressBook.sound_empty fun _ => rfl
    even := fun _ ⟨_, hg, _⟩ => nomatch hg
    update_nonneg := Int.le_refl 0
    delete_nonneg := Int.le_refl 0 }
  worker := fun _ hw => nomatch hw

variable {w? : Option Worker} {w w' : Worker}

theorem Ready.later (h : Ready w s) (hb : s.book.Later t.book)
    (hs : ∀ id, t.store.fingerprint? id = s.store.fingerprint? id)
    (hp : t.place.load = s.place.load) : Ready w t :=
  { h with
    trusted := h.trusted.later hb hs
    file_update := by rw [hp]; exact h.file_update
    file_delete := by rw [hp]; exact h.file_delete }

theorem Recovering.change (h : Recovering w? s) (now : Int) (ch : AddressBook.Change)
    (hlast : (s.book.change now ch).lastStamp < 2 ^ 63) :
    Recovering w? { s with book := s.book.change now ch } := by
  have hlater := AddressBook.later_change h.file.indexed.sound now ch
  exact {
    schema := h.schema
    last_lt := hlast
    file := h.file.later hlater fun _ => rfl
    worker := fun w hw => (h.worker w hw).later hlater (fun _ => rfl) rfl }

theorem Recovering.lose {place : SettingsPlace} (h : Recovering w? s) (hp : place.load = .zero) :
    Recovering w? { s with place := place } where
  schema := h.schema
  last_lt := h.last_lt
  file := by
    rw [hp]
    exact h.file.zero.later (.refl _) fun _ => rfl
  worker w hw := by
    have hr := h.worker w hw
    exact { hr with
      trusted := hr.trusted.later (.refl _) fun _ => rfl
      file_update := by rw [hp]; exact hr.trusted.update_nonneg
      file_delete := by rw [hp]; exact hr.trusted.delete_nonneg }

theorem Recovering.handled (h : Recovering (some w) s) (hh : Handled w.settings s t) :
    Recovering (some w) t := by
  have hr := h.worker w rfl
  have hslot : ∀ id, t.store.fingerprint? id = s.store.fingerprint? id := fun id => by rw [hh.store]
  have htrusted := hr.trusted.later hh.book.later hslot
  have hlast : t.book.lastStamp < 2 ^ 63 := by rw [hh.book.last]; exact h.last_lt
  obtain ⟨hu, hd⟩ := htrusted.wrapped hlast
  refine ⟨by rw [Collaborators.Schematic, hh.store]; exact h.schema, hlast, ?_, ?_⟩
  · rcases hh.loaded with hkept | hnew
    · rw [hkept]
      exact h.file.later hh.book.later hslot
    · rw [hnew, Settings.watermarks, hu, hd]
      exact htrusted
  · rintro _ ⟨⟩
    refine { hr with trusted := htrusted, file_update := ?_, file_delete := ?_ }
    · rcases hh.loaded with hkept | hnew
      · rw [hkept]; exact hr.file_update
      · rw [hnew]; exact Int.le_of_eq hu
    · rcases hh.loaded with hkept | hnew
      · rw [hkept]; exact hr.file_delete
      · rw [hnew]; exact Int.le_of_eq hd

theorem Recovering.start {settings : Settings} {initial : InitialCycle} {user : UserId}
    {config : Config} (h : Recovering none s) (hc : config.Strict)
    (hp : Ends troubled Startup.prepare s (.ok (settings, initial)) t) :
    Recovering (some ((Worker.new user settings config).begun initial)) t := by
  obtain ⟨hkept, hschema, hloaded⟩ := (always_prepare h.schema).ends hp
  have hsettings : settings = t.place.load := (hloaded _ _ rfl).1.trans hkept.loaded.symm
  have hfile : Trusted t.place.load.watermarks t := by
    rw [hkept.loaded]
    exact h.file.preserved hkept
  obtain ⟨hs, hconfig, hdelta, hfull⟩ := (Worker.new user settings config).begun_eq initial
  refine ⟨hschema, by rw [hkept.book.last]; exact h.last_lt, hfile, ?_⟩
  rintro _ ⟨⟩
  constructor
  · rw [hs]
    exact hsettings ▸ hfile
  · rw [hs]; exact Int.le_of_eq (by rw [← hsettings]; rfl)
  · rw [hs]; exact Int.le_of_eq (by rw [← hsettings]; rfl)
  · rw [hconfig]; exact hc
  · intro context hd
    rcases hdelta with hnone | hnew
    · rw [hnone] at hd; cases hd
    · rw [hnew] at hd
      cases hd
      exact ⟨hc, by rw [hs]; rfl⟩
  · intro run hf
    rcases hfull with hnone | hnew
    · rw [hnone] at hf; cases hf
    · rw [hnew] at hf
      cases hf
      exact hc

theorem Ready.afterCommand (h : Ready w s) (command : Command) : Ready (w.afterCommand command) s := by
  obtain ⟨hs, hc, hdelta, hfull⟩ := w.afterCommand_eq command
  constructor
  · rw [hs]; exact h.trusted
  · rw [hs]; exact h.file_update
  · rw [hs]; exact h.file_delete
  · rw [hc]; exact h.strict
  · intro context hd
    rw [hs]
    rcases hdelta with hsame | ⟨_, hnew⟩
    · exact h.delta context (hsame ▸ hd)
    · rw [hnew] at hd
      cases hd
      exact ⟨h.strict, rfl⟩
  · intro run hf
    rcases hfull with hsame | ⟨_, job, hnew⟩
    · exact h.full run (hsame ▸ hf)
    · rw [hnew] at hf
      cases hf
      exact h.strict

theorem Recovering.afterDelta {context : CycleContext} {outcome : CycleContext.DeltaOutcome}
    (h : Recovering (some w) s) (hd : w.delta = some context)
    (he : Ends troubled context.deltaUpdate s outcome t) :
    Recovering (some (w.afterDelta outcome)) t := by
  have hr := h.worker w rfl
  obtain ⟨hstrict, hmarks⟩ := hr.delta context hd
  have huntouched := untouched_of_ends context.obeys_deltaUpdate he
  obtain ⟨htrusted, hreached⟩ := hr.trusted.deltaUpdate hmarks hstrict he
  obtain ⟨hconfig, hfull, hdelta⟩ := w.afterDelta_eq outcome
  -- whether or not the watermarks were moved, they are to be trusted and not behind the file
  have hsettings : Trusted (w.afterDelta outcome).settings.watermarks t ∧
      w.settings.contactUpdate ≤ (w.afterDelta outcome).settings.contactUpdate ∧
      w.settings.contactDelete ≤ (w.afterDelta outcome).settings.contactDelete := by
    rw [Worker.settings_afterDelta]
    unfold Worker.settledDelta
    split
    · next n hn =>
      obtain ⟨hn', hu, hdl, _⟩ := hreached n hn
      refine ⟨?_, Int.le_max_left .., Int.le_max_left ..⟩
      rw [Worker.adopted_watermarks hu hdl]
      exact hn'
    · exact ⟨htrusted, Int.le_refl _, Int.le_refl _⟩
  obtain ⟨htrusted', hu, hdl⟩ := hsettings
  refine ⟨?_, by rw [huntouched.book.last]; exact h.last_lt, ?_, ?_⟩
  · rw [Collaborators.Schematic, huntouched.schema]; exact h.schema
  · rw [huntouched.place]
    refine htrusted.mono (fun id hsk => ?_) hr.file_update hr.file_delete h.file.update_nonneg
      h.file.delete_nonneg
    exact h.file.even id (hsk.of_later huntouched.book.later h.file.indexed.sound
      h.file.indexed.update_le)
  · rintro _ ⟨⟩
    constructor
    · exact htrusted'
    · rw [huntouched.place]; exact Int.le_trans hr.file_update hu
    · rw [huntouched.place]; exact Int.le_trans hr.file_delete hdl
    · rw [hconfig]; exact hr.strict
    · intro next hnext
      rcases hdelta with hnone | hnew
      · rw [hnone] at hnext; cases hnext
      · rw [hnew] at hnext
        cases hnext
        exact ⟨by rw [Worker.context, hconfig]; exact hr.strict, rfl⟩
    · rw [hfull]; exact hr.full

theorem Recovering.afterFull {run : FullRun} {outcome : CycleContext.FullOutcome}
    (h : Recovering (some w) s) (hf : w.full = some run)
    (he : Ends troubled run.context.fullUpdate s outcome t) :
    Recovering (some (w.afterFull outcome)) t := by
  have hr := h.worker w rfl
  have huntouched := untouched_of_ends run.context.obeys_fullUpdate he
  have htrusted := hr.trusted.fullUpdate (hr.full run hf) he
  obtain ⟨hconfig, hfull, hdelta, hmarks⟩ := w.afterFull_eq outcome
  have hu : (w.afterFull outcome).settings.contactUpdate = w.settings.contactUpdate :=
    congrArg Watermarks.update hmarks
  have hd : (w.afterFull outcome).settings.contactDelete = w.settings.contactDelete :=
    congrArg Watermarks.delete hmarks
  refine ⟨?_, by rw [huntouched.book.last]; exact h.last_lt, ?_, ?_⟩
  · rw [Collaborators.Schematic, huntouched.schema]; exact h.schema
  · rw [huntouched.place]
    refine htrusted.mono (fun id hsk => ?_) hr.file_update hr.file_delete h.file.update_nonneg
      h.file.delete_nonneg
    exact h.file.even id (hsk.of_later huntouched.book.later h.file.indexed.sound
      h.file.indexed.update_le)
  · rintro _ ⟨⟩
    constructor
    · rw [hmarks]; exact htrusted
    · rw [huntouched.place, hu]; exact hr.file_update
    · rw [huntouched.place, hd]; exact hr.file_delete
    · rw [hconfig]; exact hr.strict
    · rw [hdelta, hmarks]; exact hr.delta
    · intro next hnext
      rw [hfull] at hnext; cases hnext

theorem Alternating.recovering {user : UserId} (h : Alternating user w? s) : Recovering w? s := by
  induction h with
  | fresh capacity => exact recovering_fresh capacity
  | change now ch _ hlast ih => exact ih.change now ch hlast
  | lose _ hp ih => exact ih.lose hp
  | stop _ ih => exact ⟨ih.schema, ih.last_lt, ih.file, fun _ hw => nomatch hw⟩
  | @start config _ settings initial _ _ _ _ hc hp hb ih =>
    let w := (Worker.new user settings config).begun initial
    obtain ⟨hw, hh⟩ := handled_of_ends (Worker.obeys_begin _ w.settings initial) hb
    rw [hw]
    exact (ih.start hc hp).handled hh
  | startFailed _ hp ih =>
    obtain ⟨hkept, hschema, _⟩ := (always_prepare ih.schema).ends hp
    refine ⟨hschema, by rw [hkept.book.last]; exact ih.last_lt, ?_, fun _ hw => nomatch hw⟩
    rw [hkept.loaded]
    exact ih.file.preserved hkept
  | @command w _ command _ _ _ he ih =>
    obtain ⟨hw, hh⟩ := handled_of_ends (w.obeys_onCommand (w.afterCommand command).settings command) he
    rw [hw]
    refine Recovering.handled ⟨ih.schema, ih.last_lt, ih.file, ?_⟩ hh
    rintro _ ⟨⟩
    exact (ih.worker _ rfl).afterCommand command
  | @delta w _ _ outcome _ _ _ _ hd he hb ih =>
    obtain ⟨hw, hh⟩ := handled_of_ends (w.obeys_onDeltaDone outcome) hb
    rw [hw]
    exact (ih.afterDelta hd he).handled hh
  | @full w _ _ outcome _ _ _ _ hf he hb ih =>
    obtain ⟨hw, hh⟩ := handled_of_ends (w.obeys_onFullDone outcome) hb
    rw [hw]
    exact (ih.afterFull hf he).handled hh

/-! ## The index after a delta update -/

/-- Along a run of cycles that fail, are cancelled or start anew from the file, a delta update
that completes leaves the index equal to the source. -/
theorem index_eq_source {user : UserId} {context : CycleContext}
    {outcome : CycleContext.DeltaOutcome} {n : Watermarks} (h : Alternating user (some w) s)
    (hd : w.delta = some context) (he : Ends troubled context.deltaUpdate s outcome t)
    (hn : outcome.result = .ok ⟨.completed, n⟩) :
    (∀ id, id ∈ t.store.ids ↔ (t.book.get? id).isSome) ∧ ∀ id doc, t.store.get? id = some doc →
      ∃ c, t.book.get? id = some c ∧
        ∀ time, doc.fingerprint = (Document.ofContact c time).fingerprint := by
  have hr := h.recovering.worker w rfl
  obtain ⟨hstrict, hmarks⟩ := hr.delta context hd
  obtain ⟨hn', _, _, hlive, hrows⟩ := (hr.trusted.deltaUpdate hmarks hstrict he).2 n hn
  have hright : ∀ id, t.Right id := fun id =>
    (hn'.indexed.right_or hlive hrows id).resolve_right (fun hx => hx)
  constructor
  · intro id
    rw [DocumentStore.mem_ids, (hright id).isSome_iff]
  · intro id doc hdoc
    have heq := hright id
    rw [Collaborators.Right, DocumentStore.fingerprint?, hdoc, Option.map_some] at heq
    obtain ⟨c, hc, hf⟩ := Option.map_eq_some_iff.mp heq.symm
    exact ⟨c, hc, fun time => hf.symm⟩

theorem cautious_strict : Config.cautious.Strict :=
  ⟨rfl, rfl, rfl, rfl⟩

/-! ### A run that there is -/

namespace Collaborators

def refusing : Surroundings Collaborators :=
  { surroundings 1000 with
    reply := fun c s =>
      match c with
      | .put _ => (.error (.unavailable "full"), s)
      | c => s.serve c }

theorem refusing_within_troubled : refusing.Within troubled := by
  refine ⟨fun _ => trivial, fun _ => trivial, fun _ _ => rfl, fun _ _ _ => rfl, fun c s => ?_⟩
  cases c with
  | put docs => exact .inl ⟨fun _ h => (nomatch h), rfl⟩
  | _ => exact .inr rfl

end Collaborators

namespace Worker

def opened (settings : Settings) (s : Collaborators) : Worker × Collaborators :=
  ((Worker.new 1 settings .cautious).begin .delta).run (Collaborators.surroundings 1000)
    (Startup.prepare.run (Collaborators.surroundings 1000) s).2

def passed (env : Surroundings Collaborators) (settings : Settings) (p : Worker × Collaborators) :
    Worker × Collaborators :=
  let cycle := (CycleContext.mk 1 .cautious settings).deltaUpdate.run env p.2
  (p.1.onDeltaDone cycle.1).run (Collaborators.surroundings 1000) cycle.2

theorem alternating_opened {settings : Settings} (h : Alternating 1 none s)
    (hp : (Startup.prepare.run (Collaborators.surroundings 1000) s).1.toOption = some (settings, .delta)) :
    Alternating 1 (some (opened settings s).1) (opened settings s).2 := by
  have hends := ends_run (surroundings_within_troubled 1000) Startup.prepare s
  rw [eq_ok_of_toOption hp] at hends
  exact .start h cautious_strict hends (ends_run (surroundings_within_troubled 1000) _ _)

theorem alternating_passed {env : Surroundings Collaborators} {settings : Settings} {p : Worker × Collaborators}
    (henv : env.Within troubled) (h : Alternating 1 (some p.1) p.2)
    (hd : p.1.delta = some ⟨1, .cautious, settings⟩) :
    Alternating 1 (some (passed env settings p).1) (passed env settings p).2 :=
  .delta h hd (ends_run henv _ _) (ends_run (surroundings_within_troubled 1000) _ _)

end Worker

namespace Worker

def indexedOne : Worker × Collaborators :=
  passed (Collaborators.surroundings 1000) .zero (opened .zero .stocked)

/-- A second contact comes, and the store does not take its document. -/
def interrupted : Worker × Collaborators :=
  let joined := { indexedOne.2 with book := indexedOne.2.book.change 1000 (.upsert (.named "b" "Bob")) }
  passed Collaborators.refusing indexedOne.1.settings
    ((indexedOne.1.onCommand .contactsChanged).run (Collaborators.surroundings 1000) joined)

theorem alternating_indexedOne : Alternating 1 (some indexedOne.1) indexedOne.2 := by
  have hstocked : Alternating 1 none .stocked := .change 1000 _ (.fresh none) (by decide +kernel)
  have hopened : Alternating 1 (some (opened .zero .stocked).1) (opened .zero .stocked).2 :=
    alternating_opened hstocked (by decide +kernel)
  exact alternating_passed (surroundings_within_troubled 1000) hopened (by decide +kernel)

theorem alternating_interrupted : Alternating 1 (some interrupted.1) interrupted.2 := by
  have hjoined : Alternating 1 (some indexedOne.1)
      { indexedOne.2 with book := indexedOne.2.book.change 1000 (.upsert (.named "b" "Bob")) } :=
    .change 1000 _ alternating_indexedOne (by decide +kernel)
  have hnotified := hjoined.command (ends_run (surroundings_within_troubled 1000) (onCommand _ .contactsChanged) _)
  exact alternating_passed Collaborators.refusing_within_troubled hnotified (by decide +kernel)

end Worker

/-- The delta update that was to index the second contact has failed, the instance is started
anew from its file, and its first delta update completes. -/
theorem index_eq_source_stocked : ∃ w s context outcome n t, Alternating 1 (some w) s ∧
    s.store.ids = ["a"] ∧ Worker.interrupted.1.lastDelta.map (·.updateFailed) = some 1 ∧
    w.delta = some context ∧ Ends troubled context.deltaUpdate s outcome t ∧
    outcome.result = .ok ⟨.completed, n⟩ ∧ t.store.ids = ["a", "b"] ∧
    (∀ id, id ∈ t.store.ids ↔ (t.book.get? id).isSome) ∧ ∀ id doc, t.store.get? id = some doc →
      ∃ c, t.book.get? id = some c ∧
      ∀ time, doc.fingerprint = (Document.ofContact c time).fingerprint := by
  let settings : Settings := ⟨0, 1000, 1000, 0⟩
  let anew := Worker.opened settings Worker.interrupted.2
  have hanew : Alternating 1 (some anew.1) anew.2 :=
    Worker.alternating_opened Worker.alternating_interrupted.stop (by decide +kernel)
  have hd : anew.1.delta = some ⟨1, .cautious, settings⟩ := by decide +kernel
  have he := ends_run (surroundings_within_troubled 1000) (CycleContext.mk 1 .cautious settings).deltaUpdate anew.2
  have hn := eq_ok_of_toOption (show ((CycleContext.mk 1 .cautious settings).deltaUpdate.run
    (Collaborators.surroundings 1000) anew.2).1.result.toOption = some ⟨.completed, 1001, 0⟩ by decide +kernel)
  exact ⟨_, _, _, _, _, _, hanew, by decide +kernel, by decide +kernel, hd, he, hn, by decide +kernel,
    index_eq_source hanew hd he hn⟩

end ContactsIndex
