import ContactsIndex.Proofs.Instance.Coalescing
import ContactsIndex.Proofs.Source.Listing
import ContactsIndex.Proofs.Update.Account

/-!
# Changes that are skipped

A delta update that completes has read the contacts of its listing and no others, and it has
asked for a full update where the listing reached its limit. The limit counts the rows of the
provider, and the listing counts contacts. So a change can be left behind the watermark unread
and with nobody asked to make up for it, and `skipped_iff` says exactly when: it was cut off,
and among the rows that were given some contact is repeated.
-/

namespace ContactsIndex

open Program

/-! ## What was asked -/

def Call.Lists : Call → Prop
  | .updated _ _ | .deleted _ => True
  | _ => False

namespace Exchange

/-- A full update was asked for that runs once. -/
def Asked (user : UserId) (log : List Exchange) : Prop :=
  ∃ x ∈ log, x.call = .schedule user .oneOff

variable {P : Call → Prop} {log log' : List Exchange} {user : UserId}

theorem passes_lists : free.Passes (Grew Call.Lists) :=
  ⟨.refl, .trans, grew_of_drift, grew_of_answers trivial, grew_of_answers trivial⟩

theorem Grew.asked (h : Grew P log log') (hP : ∀ c, P c → c ≠ .schedule user .oneOff) :
    Asked user log' ↔ Asked user log := by
  obtain ⟨new, rfl, hnew⟩ := h
  constructor
  · intro ⟨x, hx, hc⟩
    rcases List.mem_append.mp hx with hx | hx
    · exact ⟨x, hx, hc⟩
    · exact absurd hc (hP _ (hnew x hx))
  · intro ⟨x, hx, hc⟩
    exact ⟨x, List.mem_append_left _ hx, hc⟩

end Exchange

theorem Call.Lists.reads {c : Call} (h : c.Lists) : c.reads = [] := by
  cases c <;> first | rfl | cases h

theorem Call.Lists.unscheduled {c : Call} (h : c.Lists) (user : UserId) (job : Job) :
    c ≠ .schedule user job := by
  rintro rfl
  cases h

theorem Call.Indexing.unscheduled {c : Call} (h : c.Indexing) (user : UserId) (job : Job) :
    c ≠ .schedule user job := by
  rintro rfl
  cases h

open Exchange (free readIds Asked Grew)

/-! ## What a cycle reads -/

variable {log : List Exchange}

theorem Corpus.always_update (policy : Policy) (wanted unwanted : List String) (stats : Stats) :
    (update policy wanted unwanted stats).Always free
      (fun p log' => p.1 = .ok .completed → readIds log' = readIds log ++ wanted) log := by
  apply (Account.ended_apply Exchange.records_free _).mono
  intro p log' ⟨batcher, hended⟩ hok
  rw [hok] at hended
  obtain ⟨-, reads, hchunked, sent, hlog, haccount⟩ := hended
  rw [Candidate.updatedIds_update] at hchunked
  rw [show log' = _ from hlog, id, Exchange.readIds_append, ← Exchange.flatten_chunks sent, haccount.reads,
    hchunked.flatten]

/-! ## What a delta update asks for -/

namespace CycleContext

/-- The listing that a delta update which completed has made of some rows, and what it did. -/
structure Fed (context : CycleContext) (n : DeltaProgress) (log : List Exchange) (rows : List ChangeRow)
    (listing : Listing) : Prop where
  given : ⟨.updated context.settings.contactUpdate context.deltaLimit, .ok (some rows)⟩ ∈ log
  listed : listing = .ofRows context.settings.contactUpdate rows context.deltaLimit
  reached : n.watermarks.update = listing.watermark
  read : readIds log = listing.ids

theorem Fed.mono {context : CycleContext} {n : DeltaProgress} {rows : List ChangeRow} {listing : Listing}
    {log' : List Exchange} (h : context.Fed n log rows listing) (hsub : log ⊆ log')
    (hread : Exchange.readIds log' = Exchange.readIds log) : context.Fed n log' rows listing :=
  ⟨hsub h.given, h.listed, h.reached, hread.trans h.read⟩

theorem always_followChanges_fed (context : CycleContext) (stats : Stats) :
    (context.followChanges stats).Always free (fun p log => ¬ Asked context.user log ∧
      ∀ n, n.completion = .completed → p.1 = .ok n → ∃ rows listing, context.Fed n log rows listing ∧
        p.2.truncated = context.deltaLimit.reachedBy listing.ids.length) [] := by
  apply (Source.always_listBoth Exchange.passes_lists).bind
  intro result log₁ ⟨hgrew, hgot⟩
  have hread : readIds log₁ = [] := hgrew.read_eq fun _ => Call.Lists.reads
  have hasked : ¬ Asked context.user log₁ := by
    rw [hgrew.asked fun _ hc => hc.unscheduled _ _]
    exact fun ⟨_, hx, _⟩ => nomatch hx
  rcases hgot with ⟨e, rfl, _⟩ | ⟨⟨updated, deleted⟩, rfl, ⟨rows, hrows, rfl⟩, _⟩
  · refine Program.always_pure.mpr fun log₂ hd => ⟨hd ▸ hasked, fun _ _ => (nomatch ·)⟩
  · have hgiven : ⟨.updated context.settings.contactUpdate context.deltaLimit, .ok (some rows)⟩ ∈ log₁ := by
      obtain ⟨before, after, _, ha, hafter⟩ := hrows
      exact hafter.subset (ha ▸ List.mem_append_right _ (List.mem_singleton.mpr rfl))
    apply ((Exchange.always_grew (Corpus.obeys_update ..)).and (Corpus.always_update ..)).bind
    intro p log₂ ⟨⟨hkept, hgrew₂⟩, hp⟩
    have hasked₂ : ¬ Asked context.user log₂ := by
      rwa [hgrew₂.asked fun _ hc => hc.unscheduled _ _]
    rcases p with ⟨e | completion, after⟩
    · exact Program.always_pure.mpr fun log₃ hd => ⟨hd ▸ hasked₂, fun _ _ => (nomatch ·)⟩
    · refine Program.always_pure.mpr fun log₃ hd => ⟨hd ▸ hasked₂, ?_⟩
      intro n hn he
      cases he
      obtain rfl : log₂ = log₃ := hd
      have hread₂ := hp (congrArg Except.ok hn)
      rw [hread, List.nil_append] at hread₂
      exact ⟨rows, _, ⟨hgrew₂.subset hgiven, rfl, rfl, hread₂⟩, hkept.truncated⟩

theorem always_deltaUpdate_fed (context : CycleContext) :
    context.deltaUpdate.Always free (fun outcome log => ∀ n, n.completion = .completed →
      outcome.result = .ok n → ∃ rows listing, context.Fed n log rows listing ∧
        (Asked context.user log ↔
          (outcome.stats.outOfSpace || context.deltaLimit.reachedBy listing.ids.length) = true)) [] := by
  refine Program.always_readClock.mpr fun began _ => (context.always_followChanges_fed _).bind ?_
  intro ⟨result, stats⟩ log₁ ⟨hasked, hfed⟩
  apply Program.always_readClock.mpr
  intro ended _
  dsimp only
  split
  · next hflag =>
    -- the job counts as asked for also where the scheduler refuses it
    apply Program.always_ask.mpr
    intro _ hd reply log₂ ha
    obtain rfl : log₁ = _ := hd
    have hlog : log₂ = log₁ ++ [⟨.schedule context.user .oneOff, reply⟩] := ha
    have hdone : ∀ n, n.completion = .completed → result = .ok n →
        ∃ rows listing, context.Fed n log₂ rows listing ∧ (Asked context.user log₂ ↔
          (stats.outOfSpace || context.deltaLimit.reachedBy listing.ids.length) = true) := by
      intro n hn hok
      obtain ⟨rows, listing, hf, htruncated⟩ := hfed n hn hok
      refine ⟨rows, listing, hf.mono (hlog ▸ List.subset_append_left ..) ?_, ?_⟩
      · simp [hlog, readIds, Call.reads]
      · have hnow : Asked context.user log₂ :=
          ⟨_, hlog ▸ List.mem_append_right _ (List.mem_singleton.mpr rfl), rfl⟩
        exact iff_of_true hnow (htruncated ▸ hflag)
    rcases reply with e | _ <;> exact fun _ hd => hd ▸ hdone
  · next hflag =>
    refine Program.always_record.mpr (Program.always_pure.mpr fun log₂ hd => ?_)
    obtain rfl : log₁ = log₂ := hd
    intro n hn hok
    obtain ⟨rows, listing, hf, htruncated⟩ := hfed n hn hok
    exact ⟨rows, listing, hf, iff_of_false hasked (htruncated ▸ hflag)⟩

end CycleContext

/-! ## Along a run -/

namespace Worker

variable {w w' : Worker} {event : Event} {incidents : List Incident}

theorem Event.Lawful.contactUpdate_eq {before after : Settings} (h : event.Lawful before after)
    (he : event.endsDelta = false) : after.contactUpdate = before.contactUpdate := by
  refine congrArg Watermarks.update (h.watermarks_eq ?_)
  rintro context outcome log rfl
  cases he

theorem History.delta_settings (h : History incidents w) : ∀ context, w.delta = some context →
    context.settings.contactUpdate = w.settings.contactUpdate := by
  induction h with
  | @begin user settings config initial l w l' he =>
    obtain rfl := ((Worker.new user settings config).obeys_begin settings initial).value he
    obtain ⟨hs, _, hnone | hnew, _⟩ := (Worker.new user settings config).begun_eq initial
    · intro context hc
      cases hnone.symm.trans hc
    · intro context hc
      cases hnew.symm.trans hc
      rw [hs]
      rfl
  | @step incidents w event w' _ hr ih =>
    intro context hc
    have hlawful := hr.lawful
    have hw := hr.eq_after
    subst hw
    cases event with
    | deltaDone _ outcome log =>
      simp only [after, w.delta_afterDelta outcome] at hc
      split at hc
      · cases hc
        rfl
      · cases hc
    | _ =>
      rw [hlawful.contactUpdate_eq rfl]
      rw [w.delta_after rfl] at hc
      split at hc
      · cases hd : w.delta with
        | none =>
          simp only [hd, Option.getD_none, Option.some.injEq] at hc
          rw [← hc, ← hlawful.contactUpdate_eq rfl]
          rfl
        | some context' =>
          simp only [hd, Option.getD_some, Option.some.injEq] at hc
          exact hc ▸ ih context' hd
      · exact ih context hc

end Worker

/-- The provider has these rows, newest first, and gives up to the limit of those that are newer
than what it is asked for. -/
structure Exchange.Provider (rows : List ChangeRow) (log : List Exchange) : Prop where
  ordered : rows.Pairwise fun a b => b.stamp ≤ a.stamp
  given : ∀ since limit answer, ⟨.updated since limit, .ok (some answer)⟩ ∈ log →
    answer = Listing.newest since limit rows

theorem Worker.Reacts.asked_iff {w w' : Worker} {context : CycleContext}
    {outcome : CycleContext.DeltaOutcome} {rows : List ChangeRow} {n : Watermarks}
    (h : w.Reacts (.deltaDone context outcome log) w') (hp : Exchange.Provider rows log)
    (ho : outcome.result = .ok ⟨.completed, n⟩) :
    let listing := Listing.ofRows context.settings.contactUpdate
      (Listing.newest context.settings.contactUpdate context.deltaLimit rows) context.deltaLimit
    w'.settings.contactUpdate = max w.settings.contactUpdate listing.watermark ∧
      readIds log = listing.ids ∧ (Asked context.user log ↔
        (outcome.stats.outOfSpace || context.deltaLimit.reachedBy listing.ids.length) = true) := by
  cases h with
  | deltaDone _ hcycle he =>
    obtain rfl := (w.obeys_onDeltaDone outcome).value he
    obtain ⟨given, listing, hfed, hasked⟩ := context.always_deltaUpdate_fed.ends hcycle _ rfl ho
    obtain ⟨hgiven, rfl, hreached, hread⟩ := hfed
    obtain rfl := hp.given _ _ _ hgiven
    refine ⟨?_, hread, hasked⟩
    rw [← hreached, settings_afterDelta]
    unfold settledDelta
    rw [ho]
    rfl

/-- A change that a provider has is left behind the watermark, without the contact being read or
a full update being asked for, exactly when a delta update completes where the limit cut it off
and where the rows that were left repeat some contact, and the store had space. -/
theorem skipped_iff {incidents : List Worker.Incident} {w w' : Worker} {context : CycleContext}
    {outcome : CycleContext.DeltaOutcome} {rows : List ChangeRow} {row : ChangeRow}
    (h : Worker.History incidents w) (hr : w.Reacts (.deltaDone context outcome log) w')
    (hp : Exchange.Provider rows log) (hrow : row ∈ rows) :
    (w.settings.contactUpdate < row.stamp ∧ row.stamp ≤ w'.settings.contactUpdate ∧
      row.id ∉ readIds log ∧ ¬ Asked context.user log) ↔
    (∃ n, outcome.result = .ok ⟨.completed, n⟩) ∧ outcome.stats.outOfSpace = false ∧
      w.settings.contactUpdate < row.stamp ∧
      row.id ∉ (Listing.newest w.settings.contactUpdate context.deltaLimit rows).map (·.id) ∧
      ¬ ((Listing.newest w.settings.contactUpdate context.deltaLimit rows).map (·.id)).Nodup := by
  have hsettings : context.settings.contactUpdate = w.settings.contactUpdate := by
    cases hr with
    | deltaDone hd _ _ => exact h.delta_settings context hd
  constructor
  · intro ⟨hnew, hold, hread, hasked⟩
    -- an update that did not complete leaves the watermark behind the row
    have hcompleted : ∃ n, outcome.result = .ok ⟨.completed, n⟩ := by
      have hlawful := hr.lawful
      unfold Worker.Event.Lawful at hlawful
      dsimp only at hlawful
      split at hlawful
      · next n ho => exact ⟨n, ho⟩
      · rw [hlawful] at hold
        omega
      · rw [hlawful] at hold
        omega
    obtain ⟨n, ho⟩ := hcompleted
    obtain ⟨_, hids, hiff⟩ := hr.asked_iff hp ho
    rw [hsettings] at hids hiff
    rw [hids, Listing.mem_ids_newest] at hread
    simp only [hiff, Bool.or_eq_true, not_or, Bool.not_eq_true] at hasked
    exact ⟨⟨n, ho⟩, hasked.1, hnew, hread, (Listing.unseen_iff hrow hnew hread).mp hasked.2⟩
  · intro ⟨⟨n, ho⟩, hspace, hnew, hread, hrepeated⟩
    obtain ⟨hwatermark, hids, hiff⟩ := hr.asked_iff hp ho
    rw [hsettings] at hwatermark hids hiff
    have hgiven : row ∉ Listing.newest w.settings.contactUpdate context.deltaLimit rows :=
      fun hmem => hread (List.mem_map_of_mem hmem)
    have hsome : Listing.newest w.settings.contactUpdate context.deltaLimit rows ≠ [] := by
      intro hnil
      simp [hnil] at hrepeated
    have hbehind := Listing.stamp_le_watermark_newest hp.ordered hrow hnew hgiven hsome
    refine ⟨hnew, ?_, ?_, ?_⟩
    · rw [hwatermark]
      exact Int.le_trans hbehind (Int.le_max_right ..)
    · rwa [hids, Listing.mem_ids_newest]
    · rw [hiff, hspace, (Listing.unseen_iff hrow hnew hread).mpr hrepeated]
      simp

namespace Exchange

def answerFrom (rows : List ChangeRow) : (c : Call) → c.Reply
  | .updated since limit => .ok (some (Listing.newest since limit rows))
  | c => (Collaborators.stocked.serve c).1

def listing (rows : List ChangeRow) : Surroundings (List Exchange) where
  clock := fun _ => 1000
  token := fun _ => false
  note := fun _ log => log
  answer := fun _ _ log => log
  reply := fun c log => (answerFrom rows c, log ++ [⟨c, answerFrom rows c⟩])

theorem listing_within_free (rows : List ChangeRow) : (listing rows).Within free :=
  ⟨fun _ => trivial, fun _ => trivial, fun _ _ => rfl, fun _ _ _ => rfl, fun _ _ => rfl⟩

theorem provider_listing {α : Type} {rows : List ChangeRow}
    (ho : rows.Pairwise fun a b => b.stamp ≤ a.stamp) (p : Program α) :
    Provider rows (p.run (listing rows) []).2 := by
  have hreply : ∀ c log, Provider rows log → Provider rows ((listing rows).reply c log).2 := by
    refine fun c log h => ⟨ho, fun since limit answer hmem => ?_⟩
    rcases List.mem_append.mp hmem with hmem | hmem
    · exact h.given since limit answer hmem
    · cases List.mem_singleton.mp hmem
      rfl
  exact p.run_keeps hreply (fun _ _ h => h) (fun _ _ _ h => h) [] ⟨ho, fun _ _ _ hmem => nomatch hmem⟩

def repeatedRows : List ChangeRow :=
  [⟨"a", 3⟩, ⟨"a", 2⟩, ⟨"b", 1⟩]

theorem ofRows_repeated :
    Listing.ofRows 0 (Listing.newest 0 (.atMost 2) repeatedRows) (.atMost 2) = ⟨["a"], 3⟩ := by
  have hsorted : Listing.newest 0 (.atMost 2) repeatedRows = [⟨"a", 3⟩, ⟨"a", 2⟩] := by decide
  have hrecent : ([⟨"a", 3⟩, ⟨"a", 2⟩] : List ChangeRow).mergeSort ChangeRow.before =
      [⟨"a", 3⟩, ⟨"a", 2⟩] :=
    List.mergeSort_of_pairwise (by decide)
  rw [hsorted]
  unfold Listing.ofRows
  rw [List.filter_eq_self.mpr (by decide), hrecent]
  rfl

end Exchange

def CycleContext.pinched : CycleContext :=
  ⟨1, { Config.cautious with firstRunLimit := some 2 }, .zero⟩

theorem CycleContext.run_pinched :
    let p := pinched.deltaUpdate.run (Exchange.listing Exchange.repeatedRows) []
    p.1.result.toOption = some ⟨.completed, ⟨3, 0⟩⟩ ∧ p.1.stats.outOfSpace = false := by
  have hlists : ((Source.listBoth pinched.settings.contactUpdate
      (pinched.config.limitOfDelta pinched.settings.isFirstRun) pinched.settings.contactDelete).run
      (Exchange.listing Exchange.repeatedRows) []).1 = .ok (⟨["a"], 3⟩, ⟨[], 0⟩) := by
    rw [← Exchange.ofRows_repeated]
    with_unfolding_all rfl
  have hclock : (readClock.run (Exchange.listing Exchange.repeatedRows) []).2 = [] := rfl
  simp only [deltaUpdate, followChanges, run_bind, hclock, hlists]
  decide +kernel

/-- The contact of the third row is skipped where only the two newest rows are given. -/
theorem skipped_behind_repeated : ∃ incidents w w' context outcome log,
    Worker.History incidents w ∧ w.Reacts (.deltaDone context outcome log) w' ∧
    Exchange.Provider [⟨"a", 3⟩, ⟨"a", 2⟩, ⟨"b", 1⟩] log ∧ w.settings.contactUpdate < 1 ∧
    1 ≤ w'.settings.contactUpdate ∧ "b" ∉ readIds log ∧ ¬ Asked context.user log := by
  let w := Worker.following CycleContext.pinched.config
  have hcycle := ends_run (Exchange.listing_within_free Exchange.repeatedRows)
    CycleContext.pinched.deltaUpdate []
  have hdone : w.Reacts (.deltaDone CycleContext.pinched _ _) _ := .deltaDone rfl hcycle (ends_canned _)
  have hprovider : Exchange.Provider Exchange.repeatedRows _ :=
    Exchange.provider_listing (by decide) CycleContext.pinched.deltaUpdate
  obtain ⟨hcompleted, hspace⟩ := CycleContext.run_pinched
  have hrow : (⟨"b", 1⟩ : ChangeRow) ∈ Exchange.repeatedRows := by decide
  have hskipped := (skipped_iff (Worker.history_following _) hdone hprovider hrow).mpr
    ⟨⟨_, eq_ok_of_toOption hcompleted⟩, hspace, by decide, by decide, by decide⟩
  exact ⟨_, w, _, _, _, _, Worker.history_following _, hdone, hprovider, hskipped⟩

end ContactsIndex
